import PortArbiter.Proofs.Float.Arithmetic
/-!
# Monotone arithmetic

Subtracting from a double, and multiplying and dividing it by a positive one, does not change which
of two doubles is the larger one, and subtracting it turns them round. Rounding can make them equal.
This includes infinite doubles.
-/

namespace PortArbiter.Double

open Float.Model Float.Model.UnpackedFloat

/-! ## Infinities -/

def infinite (s : Sign) : Float :=
  ofParts (.infinity s)

theorem parts_infinite (s : Sign) : parts (infinite s) = .infinity s :=
  parts_ofParts_infinity s

theorem isNumber_infinite (s : Sign) : IsNumber (infinite s) := by
  rw [IsNumber, parts_infinite]
  rintro ⟨⟩

theorem rank_infinite (s : Sign) : rank (infinite s) = s.apply (2047 * 2 ^ 52) := by
  rw [rank, parts_infinite]
  rfl

theorem finite_or_infinite {x : Float} (h : IsNumber x) :
    x.isFinite = true ∨ ∃ s, x = infinite s := by
  have hself := ofParts_parts x
  cases hp : parts x with
  | notANumber => exact absurd hp h
  | infinity s =>
      right
      rw [hp] at hself
      exact ⟨s, hself.symm⟩
  | zero s =>
      left
      show (parts x).isFinite = true
      rw [hp]
      rfl
  | finite s m e hm =>
      left
      show (parts x).isFinite = true
      rw [hp]
      rfl

theorem rank_bounds {x : Float} (h : x.isFinite = true) :
    -(2047 * 2 ^ 52) < rank x ∧ rank x < 2047 * 2 ^ 52 := by
  rw [rank]
  rcases cases_of_isFinite h with ⟨s, hp⟩ | ⟨s, m, e, hm, hp, hcanonical⟩ <;> rw [hp]
  · exact ⟨by norm_num [rankOf], by norm_num [rankOf]⟩
  · have hpos := magnitude_pos hcanonical
    have hbelow := magnitude_lt_infinity hcanonical
    cases s <;> simp only [rankOf, Sign.apply] <;> omega

theorem rank_bounds_of_isNumber {x : Float} (h : IsNumber x) :
    -(2047 * 2 ^ 52) ≤ rank x ∧ rank x ≤ 2047 * 2 ^ 52 := by
  rcases finite_or_infinite h with hfinite | ⟨s, rfl⟩
  · exact ⟨(rank_bounds hfinite).1.le, (rank_bounds hfinite).2.le⟩
  · rw [rank_infinite]
    cases s <;> norm_num [Sign.apply]

/-! ## Rounded functions -/

theorem place_neg (v : ℚ) : place (-v) = -place v := by
  unfold place
  split_ifs <;> first | linarith | rw [neg_neg]

theorem apply_place (σ : Sign) (v : ℚ) : σ.apply (place v) = place (signum σ * v) := by
  cases σ with
  | negative => rw [signum, neg_one_mul, place_neg]; rfl
  | positive => rw [signum, one_mul]; rfl

/-- An operation that rounds the results of a monotone function and keeps infinities is monotone;
one that rounds the results of an antitone function and swaps infinities is antitone. -/
theorem rank_le_rank_of_rounded {σ : Sign} {f : Float → Float} {φ : ℚ → ℚ}
    (hf : ∀ x, x.isFinite = true → Rounded (f x) (φ (value x)))
    (hφ : Monotone fun v => signum σ * φ v) (hinf : ∀ s, f (infinite s) = infinite (σ * s))
    {x y : Float} (h : x ≤ y) :
    IsNumber (f x) ∧ IsNumber (f y) ∧ σ.apply (rank (f x)) ≤ σ.apply (rank (f y)) := by
  have hnumber : ∀ z, IsNumber z → IsNumber (f z) := by
    intro z hz
    rcases finite_or_infinite hz with hfinite | ⟨s, rfl⟩
    · exact (hf z hfinite).isNumber
    · rw [hinf]
      exact isNumber_infinite _
  have hbounds : ∀ z, IsNumber z → -(2047 * 2 ^ 52) ≤ σ.apply (rank (f z)) ∧
      σ.apply (rank (f z)) ≤ 2047 * 2 ^ 52 := by
    intro z hz
    have hrank := rank_bounds_of_isNumber (hnumber z hz)
    cases σ <;> simp only [Sign.apply] <;> omega
  have hends : ∀ s, σ.apply (rank (f (infinite s))) = s.apply (2047 * 2 ^ 52) := by
    intro s
    rw [hinf, rank_infinite]
    cases σ <;> cases s <;> rfl
  obtain ⟨hx, hy, hrank⟩ := le_iff.1 h
  refine ⟨hnumber x hx, hnumber y hy, ?_⟩
  -- an infinite argument is at one end of the order, and so is its result
  rcases finite_or_infinite hx with hfinite | ⟨s, rfl⟩
  · rcases finite_or_infinite hy with hfinite' | ⟨s, rfl⟩
    · rw [(hf x hfinite).rank_eq, (hf y hfinite').rank_eq, apply_place, apply_place]
      exact place_mono (hφ (value_le_value hfinite hfinite' hrank))
    · have hlow := (rank_bounds hfinite).1
      rw [rank_infinite] at hrank
      rw [hends]
      cases s with
      | negative => simp only [Sign.apply] at hrank; omega
      | positive => exact (hbounds x hx).2
  · cases s with
    | negative =>
        rw [hends]
        exact (hbounds y hy).1
    | positive =>
        have hhigh := (rank_bounds_of_isNumber hy).2
        have hsame : rank (infinite .positive) = rank y := by
          rw [rank_infinite] at hrank ⊢
          exact le_antisymm hrank hhigh
        rw [eq_of_rank_eq hsame (by rw [rank_infinite]; norm_num [Sign.apply])]

/-! ## Operations -/

variable {x y z : Float}

theorem sub_le_sub_right (hz : z.isFinite = true) (h : x ≤ y) : x - z ≤ y - z := by
  have hinf : ∀ s, infinite s - z = infinite (.positive * s) := by
    intro s
    rw [sub_eq_ofParts, parts_infinite]
    rcases cases_of_isFinite hz with ⟨s', hp⟩ | ⟨s', m, e, hm, hp, -⟩ <;>
      rw [hp] <;> cases s <;> rfl
  have hmono : Monotone fun v => signum .positive * (v - value z) := by
    intro v w hle
    simp only [signum, one_mul]
    linarith
  have hrounded := rank_le_rank_of_rounded (f := (· - z)) (fun x hx => rounded_sub hx hz)
    hmono hinf h
  exact le_iff.2 hrounded

theorem sub_le_sub_left (hz : z.isFinite = true) (h : x ≤ y) : z - y ≤ z - x := by
  have hinf : ∀ s, z - infinite s = infinite (.negative * s) := by
    intro s
    rw [sub_eq_ofParts, parts_infinite]
    rcases cases_of_isFinite hz with ⟨s', hp⟩ | ⟨s', m, e, hm, hp, -⟩ <;>
      rw [hp] <;> cases s <;> rfl
  have hmono : Monotone fun v => signum .negative * (value z - v) := by
    intro v w hle
    simp only [signum]
    linarith
  obtain ⟨hx, hy, hrank⟩ :=
    rank_le_rank_of_rounded (f := (z - ·)) (fun x hx => rounded_sub hz hx) hmono hinf h
  exact le_iff.2 ⟨hy, hx, Int.neg_le_neg_iff.1 hrank⟩

theorem value_pos (hz : z.isFinite = true) (hpos : 0 < z) : 0 < value z := by
  obtain ⟨m, e, hm, hp, -⟩ := parts_of_pos hz hpos
  have hm' : (0 : ℚ) < m := by exact_mod_cast hm
  rw [value, hp, valueOf_finite, signum, one_mul]
  positivity

theorem mul_le_mul (hz : z.isFinite = true) (hpos : 0 < z) (h : x ≤ y) : z * x ≤ z * y := by
  have hinf : ∀ s, z * infinite s = infinite (.positive * s) := by
    intro s
    obtain ⟨m, e, hm, hp, -⟩ := parts_of_pos hz hpos
    rw [mul_eq_ofParts, parts_infinite, hp]
    rfl
  have hmono : Monotone fun v => signum .positive * (value z * v) := by
    intro v w hle
    simp only [signum, one_mul]
    exact mul_le_mul_of_nonneg_left hle (value_pos hz hpos).le
  have hrounded := rank_le_rank_of_rounded (f := (z * ·)) (fun x hx => rounded_mul hz hx)
    hmono hinf h
  exact le_iff.2 hrounded

theorem div_le_div (hz : z.isFinite = true) (hpos : 0 < z) (h : x ≤ y) : x / z ≤ y / z := by
  have hinf : ∀ s, infinite s / z = infinite (.positive * s) := by
    intro s
    obtain ⟨m, e, hm, hp, -⟩ := parts_of_pos hz hpos
    rw [div_eq_ofParts, parts_infinite, hp]
    cases s <;> rfl
  have hmono : Monotone fun v => signum .positive * (v / value z) := by
    intro v w hle
    simp only [signum, one_mul]
    exact div_le_div_of_nonneg_right hle (value_pos hz hpos).le
  have hrounded := rank_le_rank_of_rounded (f := (· / z)) (fun x hx => rounded_div hx hz hpos)
    hmono hinf h
  exact le_iff.2 hrounded

/-! ## Products with zero -/

theorem parts_ofParts_notANumber : parts (ofParts .notANumber) = .notANumber := rfl

theorem not_zero_lt_mul {z : Float} (hz : z.isFinite = true) (hnonneg : ¬ z < 0) (hpos : ¬ 0 < z)
    (x : Float) : ¬ 0 < z * x := by
  have hnumber := isNumber_of_isFinite hz
  have hzero : rank z = 0 := by
    rw [lt_iff, rank_zero] at hnonneg
    rw [zero_lt_iff] at hpos
    have hle : ¬ rank z < 0 := fun hlt => hnonneg ⟨hnumber, isNumber_zero, hlt⟩
    omega
  rw [zero_lt_iff, mul_eq_ofParts]
  rcases cases_of_isFinite hz with ⟨s, hp⟩ | ⟨s, m, e, hm, hp, hcanonical⟩
  · have hproduct : UnpackedFloat.mul Format.binary64 (.zero s) (parts x) = .notANumber ∨
        ∃ s', UnpackedFloat.mul Format.binary64 (.zero s) (parts x) = .zero s' := by
      cases parts x with
      | notANumber => exact Or.inl rfl
      | infinity s' => exact Or.inl rfl
      | zero s' => exact Or.inr ⟨_, rfl⟩
      | finite s' m e hm => exact Or.inr ⟨_, rfl⟩
    rw [hp, rank]
    rcases hproduct with hnan | ⟨s', hsame⟩
    · rw [hnan, parts_ofParts_notANumber]
      exact lt_irrefl (0 : Int)
    · rw [hsame, parts_ofParts_zero]
      exact lt_irrefl (0 : Int)
  · have hmagnitude := magnitude_pos hcanonical
    rw [rank, hp] at hzero
    cases s <;> simp only [rankOf, Sign.apply] at hzero <;> omega

end PortArbiter.Double
