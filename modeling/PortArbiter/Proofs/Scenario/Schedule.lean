import PortArbiter.Proofs.Float.Order
import PortArbiter.Proofs.Scenario.Sources
/-!
# The order of events

Events are sorted by a total order of all doubles, in which a negative zero comes before a positive
one. Of the times of valid events none is later than the next one, in the usual order as well.
-/

namespace PortArbiter.Scenario

open Double Float.Model Float.Model.UnpackedFloat

/-- The total order counts the zeros apart, so that keys below zero are off by one. -/
theorem rank_eq_orderKey {x : Float} (h : IsNumber x) :
    rank x = if 0 ≤ orderKey x then orderKey x else orderKey x + 1 := by
  have hbits : x.toBits.toNat < 2 ^ 64 := x.toBits.toBitVec.isLt
  rw [IsNumber, parts_eq_partsOf] at h
  rw [rank, parts_eq_partsOf, orderKey]
  generalize x.toBits.toNat = bits at h hbits ⊢
  unfold partsOf at h ⊢
  dsimp only at h ⊢
  by_cases hsign : 2 ^ 63 ≤ bits
  · have hneg : signOf bits = .negative := if_pos hsign
    rw [hneg] at h ⊢
    split_ifs at h ⊢ <;> simp only [rankOf, Sign.apply] <;> first | omega | exact absurd rfl h
  · have hpos : signOf bits = .positive := if_neg hsign
    rw [hpos] at h ⊢
    split_ifs at h ⊢ <;> simp only [rankOf, Sign.apply] <;> first | omega | exact absurd rfl h

theorem le_of_orderKey_le {x y : Float} (hx : IsNumber x) (hy : IsNumber y)
    (h : orderKey x ≤ orderKey y) : x ≤ y := by
  rw [le_iff, rank_eq_orderKey hx, rank_eq_orderKey hy]
  refine ⟨hx, hy, ?_⟩
  split_ifs <;> omega

theorem orderKey_inj {x y : Float} : orderKey x = orderKey y ↔ x = y := by
  refine ⟨fun h => ?_, congrArg orderKey⟩
  have hx : x.toBits.toNat < 2 ^ 64 := x.toBits.toBitVec.isLt
  have hy : y.toBits.toNat < 2 ^ 64 := y.toBits.toBitVec.isLt
  rw [← Float.toBits_inj, ← UInt64.toNat_inj]
  unfold orderKey at h
  dsimp only at h
  split_ifs at h <;> omega

theorem orderKey_zero : orderKey 0 = 0 := by decide +kernel

theorem orderKey_negativeZero : orderKey (-0.0) = -1 := by decide +kernel

theorem eq_or_zeros_of_beq {x y : Float} (h : (x == y) = true) (hkey : orderKey x ≤ orderKey y) :
    x = y ∨ x = -0.0 ∧ y = 0 := by
  obtain ⟨hx, hy, hrank⟩ := beq_iff.1 h
  rw [rank_eq_orderKey hx, rank_eq_orderKey hy] at hrank
  rw [← orderKey_inj, ← orderKey_inj, ← orderKey_inj, orderKey_zero, orderKey_negativeZero]
  split_ifs at hrank <;> omega

/-! ## Sorting -/

def Event.notAfter (a b : Event) : Bool :=
  orderKey a.time ≤ orderKey b.time

theorem Event.notAfter_trans (a b c : Event) (hab : a.notAfter b = true)
    (hbc : b.notAfter c = true) : a.notAfter c = true :=
  decide_eq_true ((of_decide_eq_true hab).trans (of_decide_eq_true hbc))

theorem Event.notAfter_total (a b : Event) : (a.notAfter b || b.notAfter a) = true := by
  rw [Bool.or_eq_true, notAfter, notAfter, decide_eq_true_iff, decide_eq_true_iff]
  exact le_total _ _

def numberedSchedule (s : Scenario) : List (Event × Nat) :=
  s.events.zipIdx.mergeSort (List.zipIdxLE Event.notAfter)

theorem map_fst_numberedSchedule (s : Scenario) : s.numberedSchedule.map Prod.fst = s.schedule :=
  List.mergeSort_zipIdx

theorem numberedSchedule_perm (s : Scenario) : s.numberedSchedule.Perm s.events.zipIdx :=
  List.mergeSort_perm _ _

/-- Events are sorted by their times, and by their places where the times are the same. -/
theorem numberedSchedule_ordered (s : Scenario) :
    s.numberedSchedule.Pairwise fun x y => orderKey x.1.time < orderKey y.1.time ∨
      x.1.time = y.1.time ∧ x.2 < y.2 := by
  have hplaces : s.numberedSchedule.Pairwise fun x y => x.2 ≠ y.2 := by
    rw [← List.pairwise_map, ← List.Nodup, (s.numberedSchedule_perm.map Prod.snd).nodup_iff,
      List.zipIdx_map_snd]
    exact List.nodup_range'
  have hsorted : s.numberedSchedule.Pairwise (List.zipIdxLE Event.notAfter · ·) :=
    List.pairwise_mergeSort (List.zipIdxLE_trans Event.notAfter_trans)
      (List.zipIdxLE_total Event.notAfter_total) _
  refine (hsorted.and hplaces).imp fun {x y} ⟨hle, hne⟩ => ?_
  rw [← orderKey_inj]
  simp only [List.zipIdxLE, Event.notAfter, decide_eq_true_eq] at hle
  split_ifs at hle with hxy hyx
  · rw [decide_eq_true_iff] at hle
    exact Or.inr ⟨le_antisymm hxy hyx, lt_of_le_of_ne hle hne⟩
  · exact Or.inl (not_le.1 hyx)

/-- No event comes after one of a later time. -/
theorem schedule_ordered {s : Scenario} (h : ∀ e ∈ s.events, IsNumber e.time) :
    s.schedule.Pairwise fun a b => a.time ≤ b.time := by
  have hnumber : ∀ x ∈ s.numberedSchedule, IsNumber x.1.time := by
    intro x hx
    have hmem : x.1 ∈ s.schedule := by
      rw [← map_fst_numberedSchedule]
      exact List.mem_map_of_mem hx
    exact h _ (List.mem_mergeSort.1 hmem)
  rw [← map_fst_numberedSchedule, List.pairwise_map]
  refine s.numberedSchedule_ordered.imp_of_mem fun hx hy horder => ?_
  refine le_of_orderKey_le (hnumber _ hx) (hnumber _ hy) ?_
  rcases horder with hlt | ⟨heq, -⟩
  · exact hlt.le
  · exact (orderKey_inj.2 heq).le

end PortArbiter.Scenario
