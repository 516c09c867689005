import PortArbiter.Proofs.Priority.Members
import PortArbiter.Proofs.Float.Order
/-!
# Who would be let through

A group answers for one sender at a time, and stops at the first member that objects. Taken
together the answers are simple: the contestants with the highest score are let through, unless an
inhibitory member is active at or above that score, in which case nobody is. Scores are clamped at
zero and never fail to be numbers, so there is a highest one whatever was declared or heard.
-/

namespace PortArbiter

open Double

/-! ## The highest of some scores -/

/-- The highest of some scores, zero if there are none. -/
def highest : List Float → Float
  | [] => 0
  | x :: xs => if highest xs < x then x else highest xs

theorem clamped_highest {xs : List Float} (h : ∀ x ∈ xs, Clamped x) : Clamped (highest xs) := by
  induction xs with
  | nil => exact Clamped.zero
  | cons x xs ih =>
      rw [List.forall_mem_cons] at h
      rw [highest]
      split
      · exact h.1
      · exact ih h.2

theorem le_highest {xs : List Float} (h : ∀ x ∈ xs, Clamped x) {x : Float} (hx : x ∈ xs) :
    x ≤ highest xs := by
  induction xs with
  | nil => cases hx
  | cons y ys ih =>
      rw [List.forall_mem_cons] at h
      have hrest := clamped_highest h.2
      rw [highest]
      rcases List.mem_cons.1 hx with rfl | hx
      · split
        · exact h.1.refl
        · rename_i hle
          exact (hrest.not_lt h.1).1 hle
      · have hle := ih h.2 hx
        split
        · rename_i hlt
          exact (h.2 x hx).trans hrest h.1 hle (hrest.le_of_lt h.1 hlt)
        · exact hle

/-- The highest score is one of the scores, also when it is zero. -/
theorem highest_mem {xs : List Float} (h : ∀ x ∈ xs, Clamped x) (hne : xs ≠ []) :
    highest xs ∈ xs := by
  induction xs with
  | nil => exact absurd rfl hne
  | cons y ys ih =>
      rw [List.forall_mem_cons] at h
      rw [highest]
      split
      · exact List.mem_cons_self
      · rename_i hle
        by_cases hys : ys = []
        · subst hys
          have hzero : y = 0 :=
            h.1.antisymm Clamped.zero ((Clamped.zero.not_lt h.1).1 hle) h.1.zero_le
          rw [hzero]
          exact List.mem_cons_self
        · exact List.mem_cons_of_mem y (ih h.2 hys)

/-! ## Members -/

namespace Group

/-- The members that can be let through at all. -/
def contestants (g : Group) : List Member :=
  g.members.filter (! ·.contender.inhibitory)

def inhibitors (g : Group) : List Member :=
  g.members.filter (·.contender.inhibitory)

variable {g : Group} {m : Member}

theorem mem_contestants_iff :
    m ∈ g.contestants ↔ m ∈ g.members ∧ m.contender.inhibitory = false := by
  simp [contestants]

theorem mem_inhibitors_iff :
    m ∈ g.inhibitors ↔ m ∈ g.members ∧ m.contender.inhibitory = true := by
  simp [inhibitors]

theorem find?_of_mem (hids : g.ids.Nodup) (hm : m ∈ g.members) : g.find? m.id = some m :=
  find?_of_nodup_map hids hm

theorem find?_of_not_mem {id : PeerId} (h : id ∉ g.ids) : g.find? id = none := by
  rw [find?, List.find?_eq_none]
  intro m hm
  have hne : m.id ≠ id := fun heq => h (heq ▸ List.mem_map_of_mem hm)
  simpa using hne

end Group

/-! ## Scores and objections -/

theorem Contender.clamped_positivePart (x : Float) : Clamped (positivePart x) := by
  unfold positivePart
  split
  · rename_i h
    exact Or.inr h
  · exact Clamped.zero

section

variable [Exponential]

theorem Contender.clamped_score (c : Contender) (t : Float) : Clamped (c.score t) := by
  unfold score
  split
  · exact Clamped.zero
  · dsimp only
    split
    · exact Clamped.zero
    · exact clamped_positivePart _

theorem Member.objection_ne_accepted (m : Member) (score now : Float) :
    m.objection score now ≠ some .accepted := by
  unfold objection
  dsimp only
  split <;> split <;> simp

theorem Member.objection_eq_none_iff (m : Member) (score now : Float) :
    m.objection score now = none ↔
      if m.contender.inhibitory then ¬ (0 < m.contender.score now ∧ score ≤ m.contender.score now)
      else ¬ score < m.contender.score now := by
  unfold objection
  dsimp only
  split <;> split <;> simp_all

theorem Member.objection_self (m : Member) (now : Float) (h : m.contender.inhibitory = false) :
    m.objection (m.contender.score now) now = none := by
  have hclamped := m.contender.clamped_score now
  rw [objection_eq_none_iff, h]
  exact (hclamped.not_lt hclamped).2 hclamped.refl

/-! ## The best score and the pressure on it -/

namespace Group

def best (g : Group) (now : Float) : Float :=
  highest (g.contestants.map (·.contender.score now))

def pressure (g : Group) (now : Float) : Float :=
  highest (g.inhibitors.map (·.contender.score now))

def winners (g : Group) (now : Float) : List Member :=
  g.members.filter fun m => g.arbitrate m.id now = .accepted

variable {g : Group} {m : Member} {now : Float}

private theorem clamped_of_mem_scores {ms : List Member} {x : Float}
    (hx : x ∈ ms.map (·.contender.score now)) : Clamped x := by
  obtain ⟨m, _, rfl⟩ := List.mem_map.1 hx
  exact m.contender.clamped_score now

theorem clamped_best : Clamped (g.best now) :=
  clamped_highest fun _ => clamped_of_mem_scores

theorem clamped_pressure : Clamped (g.pressure now) :=
  clamped_highest fun _ => clamped_of_mem_scores

theorem score_le_best (hm : m ∈ g.contestants) : m.contender.score now ≤ g.best now :=
  le_highest (fun _ => clamped_of_mem_scores) (List.mem_map_of_mem hm)

theorem score_le_pressure (hm : m ∈ g.inhibitors) : m.contender.score now ≤ g.pressure now :=
  le_highest (fun _ => clamped_of_mem_scores) (List.mem_map_of_mem hm)

theorem exists_score_eq_best (now : Float) (h : g.contestants ≠ []) :
    ∃ m ∈ g.contestants, m.contender.score now = g.best now :=
  List.mem_map.1
    (highest_mem (fun _ => clamped_of_mem_scores) (mt List.map_eq_nil_iff.1 h))

theorem exists_score_eq_pressure (now : Float) (h : g.inhibitors ≠ []) :
    ∃ m ∈ g.inhibitors, m.contender.score now = g.pressure now :=
  List.mem_map.1
    (highest_mem (fun _ => clamped_of_mem_scores) (mt List.map_eq_nil_iff.1 h))

theorem pressure_eq_zero (h : g.inhibitors = []) : g.pressure now = 0 := by
  rw [pressure, h]
  rfl

/-! ## Decisions -/

theorem arbitrate_of_not_mem {id : PeerId} (h : id ∉ g.ids) :
    g.arbitrate id now = .notMember := by
  rw [arbitrate, find?_of_not_mem h]

theorem arbitrate_cases {id : PeerId} (hm : g.find? id = some m)
    (hinh : m.contender.inhibitory = false) (now : Float) :
    (g.arbitrate id now = .accepted ∧
        ∀ r ∈ g.members, r.id ≠ id → r.objection (m.contender.score now) now = none) ∨
      ∃ r ∈ g.members, r.id ≠ id ∧
        r.objection (m.contender.score now) now = some (g.arbitrate id now) := by
  rw [arbitrate, hm]
  dsimp only
  rw [hinh, if_neg Bool.false_ne_true]
  cases hfirst : (g.members.filter (·.id ≠ id)).findSome?
      (·.objection (m.contender.score now) now) with
  | none =>
      left
      rw [List.findSome?_eq_none_iff] at hfirst
      exact ⟨rfl, fun r hr hid => hfirst r (List.mem_filter.2 ⟨hr, by simpa using hid⟩)⟩
  | some v =>
      right
      obtain ⟨r, hr, hobjects⟩ := List.exists_of_findSome?_eq_some hfirst
      exact ⟨r, List.mem_of_mem_filter hr, by simpa using List.of_mem_filter hr, hobjects⟩

theorem arbitrate_eq_accepted_iff_of_find? {id : PeerId} (hm : g.find? id = some m) :
    g.arbitrate id now = .accepted ↔
      m.contender.inhibitory = false ∧
        ∀ r ∈ g.members, r.id ≠ id → r.objection (m.contender.score now) now = none := by
  cases hinh : m.contender.inhibitory with
  | true => simp [arbitrate_eq_inhibitory hm hinh now]
  | false =>
      rw [and_iff_right rfl]
      rcases arbitrate_cases hm hinh now with ⟨haccepted, hnone⟩ | ⟨r, hr, hid, hobjects⟩
      · exact ⟨fun _ => hnone, fun _ => haccepted⟩
      · constructor
        · intro haccepted
          rw [haccepted] at hobjects
          exact absurd hobjects (r.objection_ne_accepted _ _)
        · intro hnone
          rw [hnone r hr hid] at hobjects
          cases hobjects

/-- A contestant does not object to itself either. -/
theorem arbitrate_eq_accepted_iff (hids : g.ids.Nodup) (hm : m ∈ g.members) :
    g.arbitrate m.id now = .accepted ↔
      m.contender.inhibitory = false ∧
        ∀ r ∈ g.members, r.objection (m.contender.score now) now = none := by
  rw [arbitrate_eq_accepted_iff_of_find? (find?_of_mem hids hm)]
  apply and_congr_right
  intro hinh
  constructor
  · intro hothers r hr
    by_cases hid : r.id = m.id
    · rw [List.inj_on_of_nodup_map hids hr hm hid]
      exact m.objection_self now hinh
    · exact hothers r hr hid
  · exact fun hall r hr _ => hall r hr

/-- No contestant objects to a score exactly if it is the best one. -/
theorem forall_not_score_lt_iff (hm : m ∈ g.contestants) :
    (∀ r ∈ g.contestants, ¬ m.contender.score now < r.contender.score now) ↔
      m.contender.score now = g.best now := by
  have hclamped := m.contender.clamped_score now
  constructor
  · intro h
    obtain ⟨r, hr, hbest⟩ := exists_score_eq_best now (List.ne_nil_of_mem hm)
    have hle := (hclamped.not_lt (r.contender.clamped_score now)).1 (h r hr)
    rw [hbest] at hle
    exact hclamped.antisymm clamped_best (score_le_best hm) hle
  · intro h r hr
    rw [h, clamped_best.not_lt (r.contender.clamped_score now)]
    exact score_le_best hr

/-- No inhibitor objects to a score exactly if all of them together do not press on it. -/
theorem forall_not_inhibits_iff {x : Float} (hx : Clamped x) :
    (∀ r ∈ g.inhibitors, ¬ (0 < r.contender.score now ∧ x ≤ r.contender.score now)) ↔
      ¬ (0 < g.pressure now ∧ x ≤ g.pressure now) := by
  constructor
  · rintro h ⟨hpos, hle⟩
    by_cases hnone : g.inhibitors = []
    · rw [pressure_eq_zero hnone] at hpos
      exact (Clamped.zero.not_lt Clamped.zero).2 Clamped.zero.refl hpos
    · obtain ⟨r, hr, hscore⟩ := exists_score_eq_pressure now hnone
      exact h r hr (by rw [hscore]; exact ⟨hpos, hle⟩)
  · rintro h r hr ⟨hpos, hle⟩
    have hr' := r.contender.clamped_score now
    exact h ⟨Clamped.zero.lt_of_lt_of_le hr' clamped_pressure hpos (score_le_pressure hr),
      hx.trans hr' clamped_pressure hle (score_le_pressure hr)⟩

theorem accepted_iff_best (hids : g.ids.Nodup) (hm : m ∈ g.members) :
    g.arbitrate m.id now = .accepted ↔
      m ∈ g.contestants ∧ m.contender.score now = g.best now ∧
        ¬ (0 < g.pressure now ∧ g.best now ≤ g.pressure now) := by
  rw [arbitrate_eq_accepted_iff hids hm]
  have hsplit : (∀ r ∈ g.members, r.objection (m.contender.score now) now = none) ↔
      (∀ r ∈ g.contestants, ¬ m.contender.score now < r.contender.score now) ∧
        ∀ r ∈ g.inhibitors,
          ¬ (0 < r.contender.score now ∧ m.contender.score now ≤ r.contender.score now) := by
    simp only [Member.objection_eq_none_iff, mem_contestants_iff, mem_inhibitors_iff]
    constructor
    · intro h
      exact ⟨fun r hr => by simpa [hr.2] using h r hr.1, fun r hr => by simpa [hr.2] using h r hr.1⟩
    · rintro ⟨hcontestants, hinhibitors⟩ r hr
      split
      · rename_i hinh
        exact hinhibitors r ⟨hr, hinh⟩
      · rename_i hinh
        exact hcontestants r ⟨hr, by simpa using hinh⟩
  rw [hsplit, forall_not_inhibits_iff (m.contender.clamped_score now), mem_contestants_iff]
  constructor
  · rintro ⟨hinh, hbest, hpressure⟩
    rw [forall_not_score_lt_iff (mem_contestants_iff.2 ⟨hm, hinh⟩)] at hbest
    exact ⟨⟨hm, hinh⟩, hbest, hbest ▸ hpressure⟩
  · rintro ⟨⟨_, hinh⟩, hbest, hpressure⟩
    refine ⟨hinh, ?_, by rw [hbest]; exact hpressure⟩
    exact (forall_not_score_lt_iff (mem_contestants_iff.2 ⟨hm, hinh⟩)).2 hbest

theorem winners_eq (hids : g.ids.Nodup) :
    g.winners now =
      if g.contestants = [] ∨ (0 < g.pressure now ∧ g.best now ≤ g.pressure now) then []
      else g.contestants.filter fun m => m.contender.score now = g.best now := by
  split
  · rename_i h
    rw [winners, List.filter_eq_nil_iff]
    intro m hm
    rw [decide_eq_true_iff, accepted_iff_best hids hm]
    rintro ⟨hcontestant, _, hpressure⟩
    exact h.elim (List.ne_nil_of_mem hcontestant) hpressure
  · rename_i h
    rw [winners, contestants, List.filter_filter]
    apply List.filter_congr
    intro m hm
    rw [Bool.eq_iff_iff, decide_eq_true_iff, accepted_iff_best hids hm, mem_contestants_iff,
      Bool.and_eq_true, decide_eq_true_iff, Bool.not_eq_true']
    have hpressure := (not_or.1 h).2
    tauto

/-- The winner set of a group at an instant. The best score and the pressure are the greatest scores
of contestants and of inhibitors, and they alone decide: nobody is let through if the pressure
reaches the best score, and otherwise all contestants of the best score are. So winners are tied,
and there is one unless an active inhibitor stands in the way. -/
theorem winner_set (g : Group) (hids : g.ids.Nodup) (now : Float) :
    (∀ m ∈ g.contestants, m.contender.score now ≤ g.best now) ∧
    (g.contestants ≠ [] → ∃ m ∈ g.contestants, m.contender.score now = g.best now) ∧
    (∀ m ∈ g.inhibitors, m.contender.score now ≤ g.pressure now) ∧
    (if g.inhibitors = [] then g.pressure now = 0
      else ∃ m ∈ g.inhibitors, m.contender.score now = g.pressure now) ∧
    g.winners now =
      (if g.contestants = [] ∨ (0 < g.pressure now ∧ g.best now ≤ g.pressure now) then []
        else g.contestants.filter fun m => m.contender.score now = g.best now) ∧
    (∀ id, id ∉ g.ids → g.arbitrate id now ≠ .accepted) ∧
    (∀ a ∈ g.winners now, ∀ b ∈ g.winners now,
      a.contender.score now = b.contender.score now) ∧
    (g.contestants ≠ [] →
      (∀ m ∈ g.inhibitors,
        ¬ (0 < m.contender.score now ∧ g.best now ≤ m.contender.score now)) →
      g.winners now ≠ []) := by
  have hbest : ∀ m ∈ g.winners now, m.contender.score now = g.best now := by
    intro m hm
    obtain ⟨hmem, haccepted⟩ := List.mem_filter.1 hm
    exact ((accepted_iff_best hids hmem).1 (of_decide_eq_true haccepted)).2.1
  refine ⟨fun m => score_le_best, exists_score_eq_best now, fun m => score_le_pressure, ?_,
    winners_eq hids, ?_, ?_, ?_⟩
  · split
    · rename_i hnone
      exact pressure_eq_zero hnone
    · rename_i hsome
      exact exists_score_eq_pressure now hsome
  · intro id hid
    rw [arbitrate_of_not_mem hid]
    nofun
  · intro a ha b hb
    rw [hbest a ha, hbest b hb]
  · intro hsome hfree
    obtain ⟨m, hm, hscore⟩ := exists_score_eq_best now hsome
    have hmem := (mem_contestants_iff.1 hm).1
    have haccepted := (accepted_iff_best hids hmem).2
      ⟨hm, hscore, (forall_not_inhibits_iff clamped_best).1 hfree⟩
    exact List.ne_nil_of_mem (List.mem_filter.2 ⟨hmem, decide_eq_true haccepted⟩)

end Group

end

def Group.standoff : Group where
  endpoint := "/door:i"
  members := [
    ⟨⟨1⟩, { source := "left", level := 2, timeConstant := 1, arrival? := some 0 }⟩,
    ⟨⟨2⟩, { source := "right", level := 2, timeConstant := 1, arrival? := some 0 }⟩,
    ⟨⟨3⟩, { source := "guard", level := 1, timeConstant := 1, arrival? := some 0,
            inhibitory := true }⟩]

theorem Group.winner_set_standoff :
    letI : Exponential := ⟨fun _ => 0⟩
    standoff.ids.Nodup ∧ standoff.best 0 = 2 ∧ standoff.pressure 0 = 1 ∧
      (standoff.winners 0).map Member.id = [⟨1⟩, ⟨2⟩] := by
  let _ : Exponential := ⟨fun _ => 0⟩
  have hwinners := (winner_set standoff (by decide) 0).2.2.2.2.1
  refine ⟨by decide, by decide +kernel, by decide +kernel, ?_⟩
  rw [hwinners]
  decide +kernel

end PortArbiter
