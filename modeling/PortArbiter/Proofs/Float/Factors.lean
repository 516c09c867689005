import PortArbiter.Proofs.Float.Monotone
/-!
# Signs and factors

What the signs of two doubles say of their product, infinite doubles included, and how a product
grows with a factor of it. A finite double less itself is zero.
-/

namespace PortArbiter.Double

open Float.Model Float.Model.UnpackedFloat

variable {x y z : Float}

/-! ## Zero -/

theorem zero_le_iff : 0 ≤ x ↔ IsNumber x ∧ 0 ≤ rank x := by
  rw [le_iff, rank_zero]
  exact ⟨fun h => h.2, fun h => ⟨isNumber_zero, h⟩⟩

theorem lt_zero_iff : x < 0 ↔ rank x < 0 := by
  rw [lt_iff, rank_zero]
  constructor
  · exact fun h => h.2.2
  · intro h
    refine ⟨?_, isNumber_zero, h⟩
    intro hnan
    rw [rank, hnan] at h
    cases h

theorem sub_self_of_isFinite (hx : x.isFinite = true) : x - x = 0 := by
  rw [sub_eq_ofParts]
  rcases cases_of_isFinite hx with ⟨s, hp⟩ | ⟨s, m, e, hm, hp, -⟩ <;> rw [hp]
  · cases s <;> rfl
  · unfold UnpackedFloat.sub
    dsimp only
    rw [Int.sub_self]
    rfl

theorem zero_le_sub (hz : z.isFinite = true) (h : x ≤ z) : 0 ≤ z - x :=
  sub_self_of_isFinite hz ▸ sub_le_sub_left hz h

theorem zero_le_one_sub (h : x ≤ 1) : 0 ≤ 1 - x :=
  zero_le_sub (by decide +kernel) h

theorem zero_div_of_pos (hz : z.isFinite = true) (hpos : 0 < z) : 0 / z = 0 := by
  obtain ⟨m, e, hm, hp, -⟩ := parts_of_pos hz hpos
  rw [div_eq_ofParts, hp]
  rfl

theorem value_nonneg (hz : z.isFinite = true) (hnonneg : 0 ≤ z) : 0 ≤ value z :=
  value_le_value (x := 0) (by decide +kernel) hz (le_iff.1 hnonneg).2.2

theorem value_nonpos (hz : z.isFinite = true) (hneg : z < 0) : value z ≤ 0 :=
  value_le_value (y := 0) hz (by decide +kernel) (lt_iff.1 hneg).2.2.le

theorem isFinite_of_le_of_le (hx : x.isFinite = true) (hz : z.isFinite = true) (hxy : x ≤ y)
    (hyz : y ≤ z) : y.isFinite = true := by
  obtain ⟨-, hnumber, hlow⟩ := le_iff.1 hxy
  obtain ⟨-, -, hhigh⟩ := le_iff.1 hyz
  rcases finite_or_infinite hnumber with hfinite | ⟨s, rfl⟩
  · exact hfinite
  · have hbelow := (rank_bounds hx).1
    have habove := (rank_bounds hz).2
    rw [rank_infinite] at hlow hhigh
    cases s <;> simp only [Sign.apply] at hlow hhigh <;> omega

theorem isFinite_one_sub (hlow : 0 ≤ x) (hhigh : x ≤ 1) : (1 - x).isFinite = true := by
  have hone : (1 : Float).isFinite = true := by decide +kernel
  have habove : 1 - x ≤ 1 - 0 := sub_le_sub_left hone hlow
  exact isFinite_of_le_of_le (by decide +kernel) (by decide +kernel) (zero_le_one_sub hhigh) habove

/-! ## Infinite factors -/

theorem rank_infinite_mul (s : Sign) (x : Float) :
    rank (infinite s * x) = (rank x).sign * s.apply (2047 * 2 ^ 52) := by
  rw [mul_eq_ofParts, parts_infinite, rank, rank]
  cases hp : parts x with
  | notANumber => cases s <;> rfl
  | infinity s' => cases s <;> cases s' <;> rfl
  | zero s' => cases s <;> cases s' <;> rfl
  | finite s' m e hm =>
      have hpos := magnitude_pos (canonical_of_parts hp)
      have hproduct : UnpackedFloat.mul Format.binary64 (.infinity s) (.finite s' m e hm) =
          .infinity (s * s') := rfl
      rw [hproduct, parts_ofParts_infinity]
      cases s' with
      | negative =>
          rw [rankOf, rankOf, Sign.apply, Int.sign_eq_neg_one_of_neg (by omega)]
          cases s <;> rfl
      | positive =>
          rw [rankOf, rankOf, Sign.apply, Int.sign_eq_one_of_pos hpos]
          cases s <;> rfl

theorem infinite_mul_of_pos (s : Sign) (hx : 0 < x) : infinite s * x = infinite s := by
  have hrank := rank_infinite_mul s x
  rw [Int.sign_eq_one_of_pos (zero_lt_iff.1 hx), one_mul, ← rank_infinite] at hrank
  apply eq_of_rank_eq hrank
  rw [hrank, rank_infinite]
  cases s <;> decide

/-! ## Products -/

theorem float_mul_comm (x y : Float) : x * y = y * x := by
  have hsigns : ∀ s s' : Sign, s * s' = s' * s := by
    intro s s'
    cases s <;> cases s' <;> rfl
  rw [mul_eq_ofParts, mul_eq_ofParts]
  congr 1
  cases parts x <;> cases parts y <;>
    simp only [UnpackedFloat.mul, hsigns, Nat.mul_comm, Int.add_comm]

theorem mul_le_mul_right (hx : x.isFinite = true) (hy : y.isFinite = true)
    (hz : z.isFinite = true) (hnonneg : 0 ≤ z) (h : x ≤ y) : x * z ≤ y * z := by
  have hvalue : value x ≤ value y := value_le_value hx hy (le_iff.1 h).2.2
  exact (rounded_mul hx hz).le (rounded_mul hy hz)
    (mul_le_mul_of_nonneg_right hvalue (value_nonneg hz hnonneg))

theorem value_one : value 1 = 1 := by
  obtain ⟨m, e, hm, hp, -, hvalue⟩ := of_amountTo (n := 1) (p := parts 1) (by decide +kernel)
  rw [value, hp, valueOf_finite, hvalue, signum, one_mul, Nat.cast_one]

theorem mul_one_le (hnonneg : 0 ≤ z) : z * 1 ≤ z := by
  have hone : (1 : Float).isFinite = true := by decide +kernel
  rcases finite_or_infinite (zero_le_iff.1 hnonneg).1 with hfinite | ⟨s, rfl⟩
  · apply (rounded_mul hfinite hone).le (rounded_value hfinite)
    rw [value_one, mul_one]
  · rw [infinite_mul_of_pos s (by decide +kernel)]
    exact le_iff.2 ⟨isNumber_infinite s, isNumber_infinite s, le_rfl⟩

/-- A product above zero grows with its second factor, unless the first one is below zero. -/
theorem mul_le_mul_of_product_pos (hz : ¬ z < 0) (hpos : 0 < z * x) (h : x ≤ y) :
    z * x ≤ z * y := by
  by_cases hnumber : IsNumber z
  · rcases finite_or_infinite hnumber with hfinite | ⟨s, rfl⟩
    · have hz' : 0 < z := by
        by_contra hnot
        exact not_zero_lt_mul hfinite hz hnot x hpos
      exact mul_le_mul hfinite hz' h
    · have hx : 0 < x := by
        rw [lt_zero_iff, rank_infinite] at hz
        rw [zero_lt_iff, rank_infinite_mul] at hpos
        cases s with
        | negative => exact absurd (by decide) hz
        | positive =>
            have hsign : 0 < (rank x).sign := pos_of_mul_pos_left hpos (by decide)
            exact zero_lt_iff.2 (Int.sign_pos_iff.1 hsign)
      rw [infinite_mul_of_pos s hx, infinite_mul_of_pos s (float_lt_of_lt_of_le hx h)]
      exact le_iff.2 ⟨isNumber_infinite s, isNumber_infinite s, le_rfl⟩
  · have hnan : parts z = .notANumber := not_not.1 hnumber
    have hproduct : z * x = ofParts .notANumber := by
      rw [mul_eq_ofParts, hnan]
      rfl
    rw [hproduct] at hpos
    exact absurd hpos (by decide +kernel)

theorem not_zero_lt_mul_of_neg (hx : x < 0) (hz : 0 ≤ z) : ¬ 0 < x * z := by
  have hbelow := lt_zero_iff.1 hx
  obtain ⟨hnumber, habove⟩ := zero_le_iff.1 hz
  rw [zero_lt_iff]
  rcases finite_or_infinite (lt_iff.1 hx).1 with hfinite | ⟨s, rfl⟩
  · rcases finite_or_infinite hnumber with hfinite' | ⟨s, rfl⟩
    · have hvalue : value x * value z ≤ 0 :=
        mul_nonpos_of_nonpos_of_nonneg (value_nonpos hfinite hx) (value_nonneg hfinite' hz)
      have hplace := place_mono hvalue
      rw [place_zero] at hplace
      rw [(rounded_mul hfinite hfinite').rank_eq]
      omega
    · rw [rank_infinite] at habove
      rw [float_mul_comm, rank_infinite_mul, Int.sign_eq_neg_one_of_neg hbelow]
      omega
  · rw [rank_infinite] at hbelow
    rw [rank_infinite_mul]
    rcases habove.eq_or_lt with hzero | hpos
    · rw [← hzero, Int.sign_zero]
      omega
    · rw [Int.sign_eq_one_of_pos hpos]
      omega

end PortArbiter.Double
