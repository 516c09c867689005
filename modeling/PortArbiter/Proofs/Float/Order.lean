import PortArbiter.Proofs.Float.Parts
/-!
# The order of doubles

Leaving out the numbers that are none, doubles are ordered like the integers that their bits spell,
a sign bit standing for a minus: `rank` is that integer. The two zeros share a rank, and no other
two doubles do.
-/

namespace PortArbiter.Double

open Float.Model Float.Model.UnpackedFloat

/-- The place of a double in the order of doubles. -/
def rankOf : UnpackedFloat → Int
  | .notANumber => 0
  | .zero _ => 0
  | .infinity s => s.apply (2047 * 2 ^ 52)
  | .finite s m e _ => s.apply (m + (e + 1074) * 2 ^ 52)

@[inherit_doc rankOf]
def rank (x : Float) : Int :=
  rankOf (parts x)

/-- Whether a double is a number, possibly an infinite one. -/
def IsNumber (x : Float) : Prop :=
  parts x ≠ .notANumber

/-! ## Comparing ranks -/

theorem magnitude_pos {m : Nat} {e : Int} (h : Canonical m e) :
    0 < (m : Int) + (e + 1074) * 2 ^ 52 := by
  have hm := h.mantissa_pos
  have he := h.least_le
  omega

theorem magnitude_lt_infinity {m : Nat} {e : Int} (h : Canonical m e) :
    (m : Int) + (e + 1074) * 2 ^ 52 < 2047 * 2 ^ 52 := by
  have hm := h.mantissa_lt
  have he := h.le_greatest
  omega

/-- Canonical magnitudes compare by their power first and by their mantissa second. -/
theorem compare_magnitude {m₁ m₂ : Nat} {e₁ e₂ : Int} (h₁ : Canonical m₁ e₁)
    (h₂ : Canonical m₂ e₂) :
    (compare e₁ e₂).then (compare m₁ m₂) =
      compare ((m₁ : Int) + (e₁ + 1074) * 2 ^ 52) (m₂ + (e₂ + 1074) * 2 ^ 52) := by
  have hm₁ := h₁.mantissa_lt
  have hm₂ := h₂.mantissa_lt
  have he₁ := h₁.least_le
  have he₂ := h₂.least_le
  rcases lt_trichotomy e₁ e₂ with he | he | he
  · have hfull : 2 ^ 52 ≤ m₂ := h₂.full_or_least.resolve_right (by omega)
    rw [compare_lt_iff_lt.2 he, eq_comm, Ordering.lt_then, compare_lt_iff_lt]
    omega
  · subst he
    rw [compare_eq_iff_eq.2 rfl, Ordering.eq_then]
    rcases lt_trichotomy m₁ m₂ with hm | hm | hm
    · rw [compare_lt_iff_lt.2 hm, eq_comm, compare_lt_iff_lt]
      omega
    · rw [hm, compare_eq_iff_eq.2 rfl, eq_comm, compare_eq_iff_eq]
    · rw [compare_gt_iff_gt.2 hm, eq_comm, compare_gt_iff_gt]
      omega
  · have hfull : 2 ^ 52 ≤ m₁ := h₁.full_or_least.resolve_right (by omega)
    rw [compare_gt_iff_gt.2 he, eq_comm, Ordering.gt_then, compare_gt_iff_gt]
    omega

private theorem compare_neg (a b : Int) : compare (-a) (-b) = (compare a b).swap := by
  rcases lt_trichotomy a b with h | h | h
  · rw [compare_lt_iff_lt.2 h, Ordering.swap_lt, compare_gt_iff_gt]
    omega
  · rw [h, compare_eq_iff_eq.2 rfl, compare_eq_iff_eq.2 rfl]
    rfl
  · rw [compare_gt_iff_gt.2 h, Ordering.swap_gt, compare_lt_iff_lt]
    omega

theorem compare_eq_compare_rank {x y : Float} (hx : IsNumber x) (hy : IsNumber y) :
    (parts x).compare (parts y) = some (compare (rank x) (rank y)) := by
  have hlt : ∀ {a b : Int}, a < b → some Ordering.lt = some (compare a b) :=
    fun h => by rw [compare_lt_iff_lt.2 h]
  have hgt : ∀ {a b : Int}, b < a → some Ordering.gt = some (compare a b) :=
    fun h => by rw [compare_gt_iff_gt.2 h]
  rw [rank, rank]
  cases hpx : parts x with
  | notANumber => exact absurd hpx hx
  | infinity s =>
      cases hpy : parts y with
      | notANumber => exact absurd hpy hy
      | infinity s' => cases s <;> cases s' <;> rfl
      | zero s' => cases s <;> rfl
      | finite s' m e hm =>
          have hpos := magnitude_pos (canonical_of_parts hpy)
          have hless := magnitude_lt_infinity (canonical_of_parts hpy)
          cases s <;> cases s' <;>
            first
            | exact hlt (by simp only [rankOf, Sign.apply]; omega)
            | exact hgt (by simp only [rankOf, Sign.apply]; omega)
  | zero s =>
      cases hpy : parts y with
      | notANumber => exact absurd hpy hy
      | infinity s' => cases s' <;> rfl
      | zero s' => rfl
      | finite s' m e hm =>
          have hpos := magnitude_pos (canonical_of_parts hpy)
          cases s' with
          | negative => exact hgt (by simp only [rankOf, Sign.apply]; omega)
          | positive => exact hlt (by simp only [rankOf, Sign.apply]; omega)
  | finite s m e hm =>
      have hpos := magnitude_pos (canonical_of_parts hpx)
      have hless := magnitude_lt_infinity (canonical_of_parts hpx)
      cases hpy : parts y with
      | notANumber => exact absurd hpy hy
      | infinity s' =>
          cases s <;> cases s' <;>
            first
            | exact hlt (by simp only [rankOf, Sign.apply]; omega)
            | exact hgt (by simp only [rankOf, Sign.apply]; omega)
      | zero s' =>
          cases s with
          | negative => exact hlt (by simp only [rankOf, Sign.apply]; omega)
          | positive => exact hgt (by simp only [rankOf, Sign.apply]; omega)
      | finite s' m' e' hm' =>
          have hpos' := magnitude_pos (canonical_of_parts hpy)
          have hsame := compare_magnitude (canonical_of_parts hpx) (canonical_of_parts hpy)
          cases s <;> cases s'
          · show some ((compare e e').then (compare m m')).swap = _
            rw [hsame, ← compare_neg]
            rfl
          · exact hlt (by simp only [rankOf, Sign.apply]; omega)
          · exact hgt (by simp only [rankOf, Sign.apply]; omega)
          · exact congrArg some hsame

/-! ## The comparisons of doubles -/

theorem any_compare_iff {x y : Float} (p : Ordering → Bool) :
    ((parts x).compare (parts y)).any p = true ↔
      IsNumber x ∧ IsNumber y ∧ p (compare (rank x) (rank y)) = true := by
  by_cases hx : IsNumber x
  · by_cases hy : IsNumber y
    · rw [compare_eq_compare_rank hx hy, Option.any_some]
      simp [hx, hy]
    · have hnan : parts y = .notANumber := not_not.1 hy
      rw [hnan]
      simp only [hy, false_and, and_false, iff_false]
      cases parts x <;> simp [UnpackedFloat.compare]
  · have hnan : parts x = .notANumber := not_not.1 hx
    simp [hnan, UnpackedFloat.compare, hx]

private theorem compare_eq_some_iff {x y : Float} (o : Ordering) :
    (parts x).compare (parts y) = some o ↔
      IsNumber x ∧ IsNumber y ∧ compare (rank x) (rank y) = o := by
  rw [← beq_iff_eq (a := compare (rank x) (rank y)), ← any_compare_iff (· == o)]
  cases (parts x).compare (parts y) <;> simp

theorem lt_iff {x y : Float} : x < y ↔ IsNumber x ∧ IsNumber y ∧ rank x < rank y := by
  have hparts : x < y ↔ (parts x).compare (parts y) = some .lt := by
    show decide (x.toModel < y.toModel) = true ↔ _
    rw [decide_eq_true_iff]
    show ((parts x).compare (parts y) == some .lt) = true ↔ _
    exact beq_iff_eq
  rw [hparts, compare_eq_some_iff, compare_lt_iff_lt]

theorem le_iff {x y : Float} : x ≤ y ↔ IsNumber x ∧ IsNumber y ∧ rank x ≤ rank y := by
  have hparts : x ≤ y ↔ ((parts x).compare (parts y)).any (·.isLE) = true := by
    show decide (x.toModel ≤ y.toModel) = true ↔ _
    rw [decide_eq_true_iff]
    rfl
  rw [hparts, any_compare_iff, Int.isLE_compare]

theorem beq_iff {x y : Float} : (x == y) = true ↔ IsNumber x ∧ IsNumber y ∧ rank x = rank y := by
  have hparts : (x == y) = true ↔ (parts x).compare (parts y) = some .eq := by
    show ((parts x).compare (parts y) == some .eq) = true ↔ _
    exact beq_iff_eq
  rw [hparts, compare_eq_some_iff, compare_eq_iff_eq]

theorem float_le_trans {x y z : Float} (hxy : x ≤ y) (hyz : y ≤ z) : x ≤ z := by
  rw [le_iff] at hxy hyz ⊢
  exact ⟨hxy.1, hyz.2.1, hxy.2.2.trans hyz.2.2⟩

theorem float_lt_of_le_of_lt {x y z : Float} (hxy : x ≤ y) (hyz : y < z) : x < z := by
  rw [le_iff] at hxy
  rw [lt_iff] at hyz ⊢
  exact ⟨hxy.1, hyz.2.1, hxy.2.2.trans_lt hyz.2.2⟩

theorem float_lt_of_lt_of_le {x y z : Float} (hxy : x < y) (hyz : y ≤ z) : x < z := by
  rw [le_iff] at hyz
  rw [lt_iff] at hxy ⊢
  exact ⟨hxy.1, hyz.2.1, hxy.2.2.trans_le hyz.2.2⟩

theorem float_le_of_lt {x y : Float} (h : x < y) : x ≤ y := by
  rw [lt_iff] at h
  exact le_iff.2 ⟨h.1, h.2.1, h.2.2.le⟩

theorem float_le_of_not_lt {x y : Float} (hx : IsNumber x) (hy : IsNumber y) (h : ¬ y < x) :
    x ≤ y := by
  rw [lt_iff] at h
  exact le_iff.2 ⟨hx, hy, not_lt.1 fun hlt => h ⟨hy, hx, hlt⟩⟩

/-! ## Equal ranks -/

theorem magnitude_inj {m₁ m₂ : Nat} {e₁ e₂ : Int} (h₁ : Canonical m₁ e₁) (h₂ : Canonical m₂ e₂)
    (h : (m₁ : Int) + (e₁ + 1074) * 2 ^ 52 = m₂ + (e₂ + 1074) * 2 ^ 52) : m₁ = m₂ ∧ e₁ = e₂ := by
  have hcompare := compare_magnitude h₁ h₂
  rw [compare_eq_iff_eq.2 h, Ordering.then_eq_eq, compare_eq_iff_eq, compare_eq_iff_eq] at hcompare
  exact ⟨hcompare.2, hcompare.1⟩

/-- Doubles of one rank are the same, but for the two zeros. -/
theorem eq_of_rank_eq {x y : Float} (h : rank x = rank y) (hx : rank x ≠ 0) : x = y := by
  rw [← parts_inj]
  rw [rank, rank] at h
  rw [rank] at hx
  cases hpx : parts x with
  | notANumber => exact absurd (by rw [hpx]; rfl) hx
  | zero s => exact absurd (by rw [hpx]; rfl) hx
  | infinity s =>
      rw [hpx] at h
      cases hpy : parts y with
      | notANumber => rw [hpy] at h; cases s <;> cases h
      | zero s' => rw [hpy] at h; cases s <;> cases h
      | infinity s' => rw [hpy] at h; cases s <;> cases s' <;> first | rfl | cases h
      | finite s' m e hm =>
          have hpos := magnitude_pos (canonical_of_parts hpy)
          have hless := magnitude_lt_infinity (canonical_of_parts hpy)
          rw [hpy] at h
          cases s <;> cases s' <;> simp only [rankOf, Sign.apply] at h <;> omega
  | finite s m e hm =>
      have hpos := magnitude_pos (canonical_of_parts hpx)
      have hless := magnitude_lt_infinity (canonical_of_parts hpx)
      rw [hpx] at h
      cases hpy : parts y with
      | notANumber => rw [hpy] at h; cases s <;> simp only [rankOf, Sign.apply] at h <;> omega
      | zero s' => rw [hpy] at h; cases s <;> simp only [rankOf, Sign.apply] at h <;> omega
      | infinity s' =>
          rw [hpy] at h
          cases s <;> cases s' <;> simp only [rankOf, Sign.apply] at h <;> omega
      | finite s' m' e' hm' =>
          have hpos' := magnitude_pos (canonical_of_parts hpy)
          have hinj := magnitude_inj (canonical_of_parts hpx) (canonical_of_parts hpy)
          rw [hpy] at h
          cases s <;> cases s' <;> simp only [rankOf, Sign.apply] at h
          · obtain ⟨rfl, rfl⟩ := hinj (by omega)
            rfl
          · omega
          · omega
          · obtain ⟨rfl, rfl⟩ := hinj h
            rfl

/-! ## Zero -/

theorem isNumber_zero : IsNumber 0 := by
  rw [IsNumber, parts_zero]
  nofun

theorem rank_zero : rank 0 = 0 := rfl

theorem zero_lt_iff {x : Float} : 0 < x ↔ 0 < rank x := by
  rw [lt_iff, rank_zero]
  constructor
  · exact fun h => h.2.2
  · intro h
    refine ⟨isNumber_zero, ?_, h⟩
    intro hnan
    rw [rank, hnan] at h
    cases h

/-! ## Doubles that are not below zero

Those above zero, together with the positive zero, are totally ordered by `≤`. -/

/-- Whether a double is zero, without a minus, or above zero. -/
def Clamped (x : Float) : Prop :=
  x = 0 ∨ 0 < x

namespace Clamped

variable {x y z : Float}

theorem zero : Clamped 0 :=
  Or.inl rfl

theorem isNumber (hx : Clamped x) : IsNumber x := by
  rcases hx with rfl | hx
  · exact isNumber_zero
  · exact (lt_iff.1 hx).2.1

theorem rank_nonneg (hx : Clamped x) : 0 ≤ rank x := by
  rcases hx with rfl | hx
  · exact le_of_eq rank_zero.symm
  · exact le_of_lt (zero_lt_iff.1 hx)

theorem lt_iff_rank (hx : Clamped x) (hy : Clamped y) : x < y ↔ rank x < rank y := by
  rw [lt_iff]
  simp [hx.isNumber, hy.isNumber]

theorem le_iff_rank (hx : Clamped x) (hy : Clamped y) : x ≤ y ↔ rank x ≤ rank y := by
  rw [le_iff]
  simp [hx.isNumber, hy.isNumber]

theorem not_lt (hx : Clamped x) (hy : Clamped y) : ¬ x < y ↔ y ≤ x := by
  rw [hx.lt_iff_rank hy, hy.le_iff_rank hx, Int.not_lt]

theorem refl (hx : Clamped x) : x ≤ x :=
  (hx.le_iff_rank hx).2 (Int.le_refl _)

theorem le_of_lt (hx : Clamped x) (hy : Clamped y) (h : x < y) : x ≤ y :=
  (hx.le_iff_rank hy).2 (Int.le_of_lt ((hx.lt_iff_rank hy).1 h))

theorem trans (hx : Clamped x) (hy : Clamped y) (hz : Clamped z) (hxy : x ≤ y) (hyz : y ≤ z) :
    x ≤ z :=
  (hx.le_iff_rank hz).2
    (Int.le_trans ((hx.le_iff_rank hy).1 hxy) ((hy.le_iff_rank hz).1 hyz))

theorem lt_of_lt_of_le (hx : Clamped x) (hy : Clamped y) (hz : Clamped z) (hxy : x < y)
    (hyz : y ≤ z) : x < z :=
  (hx.lt_iff_rank hz).2
    (Int.lt_of_lt_of_le ((hx.lt_iff_rank hy).1 hxy) ((hy.le_iff_rank hz).1 hyz))

theorem zero_le (hx : Clamped x) : 0 ≤ x :=
  (zero.le_iff_rank hx).2 (by rw [rank_zero]; exact hx.rank_nonneg)

theorem antisymm (hx : Clamped x) (hy : Clamped y) (hxy : x ≤ y) (hyx : y ≤ x) : x = y := by
  have hrank : rank x = rank y :=
    Int.le_antisymm ((hx.le_iff_rank hy).1 hxy) ((hy.le_iff_rank hx).1 hyx)
  rcases hx with rfl | hx
  · rcases hy with rfl | hy
    · rfl
    · rw [zero_lt_iff, ← hrank, rank_zero] at hy
      exact absurd hy (Int.lt_irrefl 0)
  · exact eq_of_rank_eq hrank (Int.ne_of_gt (zero_lt_iff.1 hx))

end Clamped

end PortArbiter.Double
