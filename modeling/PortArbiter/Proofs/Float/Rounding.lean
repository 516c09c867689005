import PortArbiter.Decimal.Layout
import PortArbiter.Proofs.Float.Parts
/-!
# Rounding to doubles

Arithmetic on doubles rounds an exact result that is known only up to two residual bits. Here the
outcome is tied to the exact result itself: it is the number of units of the last place, rounded to
the nearest whole number and to the even one in a tie.
-/

namespace PortArbiter.Double

open Float.Model Float.Model.UnpackedFloat

/-! ## Residual bits -/

/-- A mantissa with residual bits holds a number: the mantissa is its whole part, one bit says
whether the rest is at least a half, the other whether there is more. -/
structure Holds (em : ExtendedMantissa) (q : ℚ) : Prop where
  le : (em.mantissa : ℚ) ≤ q
  lt_succ : q < em.mantissa + 1
  roundBit : em.roundBit = true ↔ (em.mantissa : ℚ) + 1 / 2 ≤ q
  stickyBit : em.stickyBit = true ↔ q ≠ em.mantissa ∧ q ≠ em.mantissa + 1 / 2

namespace Holds

theorem exact (m : Nat) : Holds (.ofMantissaAndAccuracy m .exact) m where
  le := le_refl _
  lt_succ := lt_add_one _
  roundBit := by
    simp only [ExtendedMantissa.ofMantissaAndAccuracy, Bool.false_eq_true, false_iff, not_le]
    linarith
  stickyBit := by simp [ExtendedMantissa.ofMantissaAndAccuracy]

theorem quotient (a : Nat) {b : Nat} (hb : 0 < b) :
    Holds (.ofMantissaAndAccuracy (a / b) (accuracyOfFraction (a % b) b)) ((a : ℚ) / b) := by
  have hb' : (0 : ℚ) < b := by exact_mod_cast hb
  have hsplit : (a : ℚ) = b * (a / b : Nat) + (a % b : Nat) := by
    exact_mod_cast (Nat.div_add_mod a b).symm
  have hrest : ((a % b : Nat) : ℚ) < b := by exact_mod_cast Nat.mod_lt a hb
  have hwhole : (a : ℚ) / b = (a / b : Nat) ↔ a % b = 0 := by
    rw [div_eq_iff (ne_of_gt hb'), hsplit, ← Nat.cast_eq_zero (R := ℚ)]
    constructor <;> intro h <;> linarith
  have hhalf : (a : ℚ) / b = (a / b : Nat) + 1 / 2 ↔ 2 * (a % b) = b := by
    rw [div_eq_iff (ne_of_gt hb'), hsplit, ← Nat.cast_inj (R := ℚ), Nat.cast_mul, Nat.cast_ofNat]
    constructor <;> intro h <;> linarith
  have hround : ((a / b : Nat) : ℚ) + 1 / 2 ≤ a / b ↔ b ≤ 2 * (a % b) := by
    rw [le_div_iff₀ hb', hsplit, ← Nat.cast_le (α := ℚ), Nat.cast_mul, Nat.cast_ofNat]
    constructor <;> intro h <;> linarith
  have hle : ((a / b : Nat) : ℚ) ≤ a / b := by
    rw [le_div_iff₀ hb', hsplit]
    have hnonneg : (0 : ℚ) ≤ (a % b : Nat) := Nat.cast_nonneg _
    linarith
  have hlt : (a : ℚ) / b < (a / b : Nat) + 1 := by
    rw [div_lt_iff₀ hb', hsplit]
    linarith
  by_cases hexact : a % b = 0
  · rw [accuracyOfFraction, if_pos hexact, hwhole.2 hexact]
    exact exact _
  · rw [accuracyOfFraction, if_neg hexact]
    cases hcompare : compare (2 * (a % b)) b with
    | lt =>
        rw [compare_lt_iff_lt] at hcompare
        exact ⟨hle, hlt, iff_of_false Bool.false_ne_true (mt hround.1 (by omega)),
          iff_of_true rfl ⟨mt hwhole.1 hexact, mt hhalf.1 (by omega)⟩⟩
    | eq =>
        rw [compare_eq_iff_eq] at hcompare
        exact ⟨hle, hlt, iff_of_true rfl (hround.2 (by omega)),
          iff_of_false Bool.false_ne_true fun h => h.2 (hhalf.2 hcompare)⟩
    | gt =>
        rw [compare_gt_iff_gt] at hcompare
        exact ⟨hle, hlt, iff_of_true rfl (hround.2 (by omega)),
          iff_of_true rfl ⟨mt hwhole.1 hexact, mt hhalf.1 (by omega)⟩⟩

theorem rest_iff {em : ExtendedMantissa} {q : ℚ} (h : Holds em q) :
    (em.roundBit || em.stickyBit) = true ↔ q ≠ em.mantissa := by
  rw [Bool.or_eq_true, h.roundBit, h.stickyBit]
  constructor
  · rintro (hround | hsticky) heq
    · rw [heq] at hround
      linarith
    · exact hsticky.1 heq
  · intro hne
    by_cases hhalf : q = em.mantissa + 1 / 2
    · exact Or.inl (le_of_eq hhalf.symm)
    · exact Or.inr ⟨hne, hhalf⟩

theorem shiftRightOne {em : ExtendedMantissa} {q : ℚ} (h : Holds em q) :
    Holds em.shiftRightOne (q / 2) := by
  have hle := h.le
  have hlt := h.lt_succ
  have hhalves : (em.mantissa : ℚ) = 2 * (em.mantissa / 2 : Nat) + (em.mantissa % 2 : Nat) := by
    exact_mod_cast (Nat.div_add_mod em.mantissa 2).symm
  have hlow : (0 : ℚ) ≤ (em.mantissa % 2 : Nat) := Nat.cast_nonneg _
  have hhigh : ((em.mantissa % 2 : Nat) : ℚ) ≤ 1 := by
    exact_mod_cast Nat.le_of_lt_succ (Nat.mod_lt em.mantissa two_pos)
  refine ⟨?_, ?_, ?_, ?_⟩
  · show ((em.mantissa / 2 : Nat) : ℚ) ≤ q / 2
    linarith
  · show q / 2 < ((em.mantissa / 2 : Nat) : ℚ) + 1
    linarith
  · show (em.mantissa % 2 != 0) = true ↔ ((em.mantissa / 2 : Nat) : ℚ) + 1 / 2 ≤ q / 2
    rcases Nat.mod_two_eq_zero_or_one em.mantissa with hbit | hbit <;> rw [hbit] at hhalves ⊢
    · exact iff_of_false Bool.false_ne_true (by push_cast at hhalves; linarith)
    · exact iff_of_true rfl (by push_cast at hhalves; linarith)
  · show (em.roundBit || em.stickyBit) = true ↔
      q / 2 ≠ ((em.mantissa / 2 : Nat) : ℚ) ∧ q / 2 ≠ ((em.mantissa / 2 : Nat) : ℚ) + 1 / 2
    rw [h.rest_iff]
    -- an even mantissa is the first of the two exact points, an odd one the second
    rcases Nat.mod_two_eq_zero_or_one em.mantissa with hbit | hbit <;>
      rw [hbit] at hhalves <;> push_cast at hhalves
    · have hhalf : q / 2 ≠ ((em.mantissa / 2 : Nat) : ℚ) + 1 / 2 := fun heq => by linarith
      rw [and_iff_left hhalf]
      exact not_congr ⟨fun heq => by linarith, fun heq => by linarith⟩
    · have hwhole : q / 2 ≠ ((em.mantissa / 2 : Nat) : ℚ) := fun heq => by linarith
      rw [and_iff_right hwhole]
      exact not_congr ⟨fun heq => by linarith, fun heq => by linarith⟩

theorem shiftRight {em : ExtendedMantissa} {q : ℚ} (h : Holds em q) (n : Nat) :
    Holds (em >>> n) (q / 2 ^ n) := by
  induction n with
  | zero =>
      rw [pow_zero, div_one]
      exact h
  | succ n ih =>
      rw [pow_succ, ← div_div]
      exact ih.shiftRightOne

theorem roundedMantissa {em : ExtendedMantissa} {q : ℚ} (h : Holds em q) :
    em.roundedMantissa = Decimal.roundEven q := by
  have hle := h.le
  have hlt := h.lt_succ
  have hfloor : q.floor.toNat = em.mantissa := by
    have hq : ⌊q⌋ = (em.mantissa : Int) := Int.floor_eq_iff.2 ⟨by exact_mod_cast hle, hlt⟩
    have hrat : q.floor = (em.mantissa : Int) := hq
    rw [hrat, Int.toNat_natCast]
  have hround := h.roundBit
  have hsticky := h.stickyBit
  obtain ⟨m, r, s⟩ := em
  rw [Decimal.roundEven, hfloor]
  dsimp only at *
  cases r <;> cases s
  · have hlow : ¬ (m : ℚ) + 1 / 2 ≤ q := by simpa using hround
    rw [if_pos (by linarith)]
    rfl
  · have hlow : ¬ (m : ℚ) + 1 / 2 ≤ q := by simpa using hround
    rw [if_pos (by linarith)]
    rfl
  · have hhigh : (m : ℚ) + 1 / 2 ≤ q := by simpa using hround
    have hhalf : q = m + 1 / 2 := by
      by_contra hne
      exact Bool.false_ne_true (hsticky.2 ⟨by intro heq; linarith, hne⟩)
    rw [if_neg (by linarith), if_neg (by linarith)]
    rfl
  · have hhigh : (m : ℚ) + 1 / 2 ≤ q := by simpa using hround
    have hmore := (hsticky.1 rfl).2
    have hgt : (m : ℚ) + 1 / 2 < q := lt_of_le_of_ne hhigh (Ne.symm hmore)
    rw [if_neg (by linarith), if_pos (by linarith)]
    rfl

end Holds

/-! ## Units of the last place -/

def ulp (v : ℚ) : Int :=
  max (Int.log 2 v - 52) (-1074)

theorem targetExponent_eq (m : Nat) (e : Int) :
    Format.binary64.targetExponent (totalExponent m e) = max ((m.log2 : Int) + e - 52) (-1074) := by
  have hbits : ((Format.binary64.mantissaBits : Nat) : Int) = 53 := rfl
  have hleast : Format.binary64.minExponent = -1074 := rfl
  rw [Format.targetExponent, totalExponent, hbits, hleast]
  congr 1
  ring

theorem le_log {v : ℚ} {n : Int} (h : (2 : ℚ) ^ n ≤ v) : n ≤ Int.log 2 v := by
  have hv : 0 < v := lt_of_lt_of_le (by positivity) h
  exact (Int.zpow_le_iff_le_log Nat.one_lt_two hv).1 (by exact_mod_cast h)

theorem log_lt {v : ℚ} {n : Int} (hv : 0 < v) (h : v < 2 ^ n) : Int.log 2 v < n :=
  (Int.lt_zpow_iff_log_lt Nat.one_lt_two hv).1 (by exact_mod_cast h)

theorem zpow_le_of_le_log {v : ℚ} {n : Int} (hv : 0 < v) (h : n ≤ Int.log 2 v) :
    (2 : ℚ) ^ n ≤ v := by
  exact_mod_cast (Int.zpow_le_iff_le_log Nat.one_lt_two hv).2 h

theorem lt_zpow_of_log_lt {v : ℚ} {n : Int} (hv : 0 < v) (h : Int.log 2 v < n) : v < 2 ^ n := by
  exact_mod_cast (Int.lt_zpow_iff_log_lt Nat.one_lt_two hv).2 h

theorem le_ulp {v : ℚ} {e : Int} (h : (2 : ℚ) ^ (e + 52) ≤ v) : e ≤ ulp v := by
  have hlog := le_log h
  rw [ulp]
  omega

theorem lt_zpow_ulp {v : ℚ} (hv : 0 < v) : v < 2 ^ (ulp v + 53) := by
  apply lt_zpow_of_log_lt hv
  rw [ulp]
  omega

theorem two_zpow_add (n : Nat) (e : Int) : (2 : ℚ) ^ ((n : Int) + e) = 2 ^ n * 2 ^ e := by
  rw [zpow_add₀ two_ne_zero, zpow_natCast]

/-- Enough bits of a number determine its last place. -/
theorem Holds.targetExponent {em : ExtendedMantissa} {q : ℚ} {e : Int} (h : Holds em q)
    (hq : 0 < q) (he : e ≤ ulp (q * 2 ^ e)) :
    Format.binary64.targetExponent (totalExponent em.mantissa e) = ulp (q * 2 ^ e) := by
  have hv : 0 < q * 2 ^ e := by positivity
  rw [targetExponent_eq]
  by_cases hm : em.mantissa = 0
  · have hlt := h.lt_succ
    rw [hm, Nat.cast_zero, zero_add] at hlt
    have hlog : Int.log 2 (q * 2 ^ e) < e := by
      apply log_lt hv
      have hpow : (0 : ℚ) < 2 ^ e := by positivity
      nlinarith
    rw [hm, Nat.log2_zero]
    rw [ulp] at he ⊢
    omega
  · have hlow : 2 ^ em.mantissa.log2 ≤ em.mantissa := Nat.log2_self_le hm
    have hhigh : em.mantissa < 2 ^ (em.mantissa.log2 + 1) := Nat.lt_log2_self
    have hpow : (0 : ℚ) < 2 ^ e := by positivity
    have hlow' : (2 : ℚ) ^ em.mantissa.log2 ≤ q :=
      le_trans (by exact_mod_cast hlow) h.le
    have hhigh' : q < 2 ^ (em.mantissa.log2 + 1) :=
      lt_of_lt_of_le h.lt_succ (by exact_mod_cast hhigh)
    have hlogLow : em.mantissa.log2 + e ≤ Int.log 2 (q * 2 ^ e) := by
      apply le_log
      rw [two_zpow_add]
      exact mul_le_mul_of_nonneg_right hlow' (le_of_lt hpow)
    have hlogHigh : Int.log 2 (q * 2 ^ e) < (em.mantissa.log2 + 1 : Nat) + e := by
      apply log_lt hv
      rw [two_zpow_add]
      exact mul_lt_mul_of_pos_right hhigh' hpow
    have hlog : Int.log 2 (q * 2 ^ e) = em.mantissa.log2 + e := by omega
    rw [ulp, hlog]

/-! ## Rounding -/

/-- The parts of the double nearest to a number that is not negative. -/
def nearestParts (v : ℚ) : UnpackedFloat :=
  let units := Decimal.roundEven (v / 2 ^ ulp v)
  if h : units = 0 then .zero .positive
  else if units = 2 ^ 53 then .finite .positive (2 ^ 52) (ulp v + 1) (by positivity)
  else .finite .positive units (ulp v) (Nat.pos_of_ne_zero h)

theorem roundEven_le {q : ℚ} {n : Nat} (hq : 0 ≤ q) (h : q < n) : Decimal.roundEven q ≤ n := by
  have hfloor : q.floor.toNat + 1 ≤ n := by
    have hlt : ⌊q⌋ < (n : Int) := Int.floor_lt.2 (by exact_mod_cast h)
    have hlt' : q.floor < (n : Int) := hlt
    have hnonneg : (0 : Int) ≤ ⌊q⌋ := Int.floor_nonneg.2 hq
    have hnonneg' : (0 : Int) ≤ q.floor := hnonneg
    omega
  unfold Decimal.roundEven
  dsimp only
  split_ifs <;> omega

theorem le_roundEven {q : ℚ} {n : Nat} (h : (n : ℚ) ≤ q) : n ≤ Decimal.roundEven q := by
  have hfloor : n ≤ q.floor.toNat := by
    have hle : (n : Int) ≤ ⌊q⌋ := Int.le_floor.2 (by exact_mod_cast h)
    have hle' : (n : Int) ≤ q.floor := hle
    omega
  unfold Decimal.roundEven
  dsimp only
  split_ifs <;> omega

theorem roundEven_eq_zero {q : ℚ} (hq : 0 ≤ q) (h : q < 1 / 2) : Decimal.roundEven q = 0 := by
  have hfloor : q.floor.toNat = 0 := by
    have hzero : ⌊q⌋ = 0 := Int.floor_eq_zero_iff.2 ⟨hq, by linarith⟩
    have hrat : q.floor = 0 := hzero
    rw [hrat, Int.toNat_zero]
  rw [Decimal.roundEven, hfloor, Nat.cast_zero, sub_zero, if_pos h]

/-- A mantissa that fits stays as it is, and the one that overflowed is halved. -/
theorem shiftToTargetExponent_rounded {r : Nat} {e : Int} (hr : r ≤ 2 ^ 53) (he : -1074 ≤ e)
    (hfull : 2 ^ 52 ≤ r ∨ e = -1074) :
    (shiftToTargetExponent Format.binary64 r e .exact).1.mantissa =
        (if r = 2 ^ 53 then 2 ^ 52 else r) ∧
      (shiftToTargetExponent Format.binary64 r e .exact).2 = if r = 2 ^ 53 then e + 1 else e := by
  rw [shiftToTargetExponent, targetExponent_eq]
  by_cases hover : r = 2 ^ 53
  · have hlog : r.log2 = 53 := by rw [hover, Nat.log2_two_pow]
    have htarget : max ((r.log2 : Int) + e - 52) (-1074) = e + 1 := by omega
    have hone : (e + 1 - e).toNat = 1 := by omega
    rw [htarget, shiftToExponent, hone, hover, if_pos rfl, if_pos rfl]
    exact ⟨rfl, rfl⟩
  · have hlog : r.log2 ≤ 52 := by
      by_cases hzero : r = 0
      · rw [hzero, Nat.log2_zero]
        omega
      · have hlt : r.log2 < 53 := (Nat.log2_lt hzero).2 (by omega)
        omega
    have htarget : max ((r.log2 : Int) + e - 52) (-1074) = e := by
      rcases hfull with hfull | hleast
      · have hlow : 52 ≤ r.log2 := (Nat.le_log2 (by omega)).2 hfull
        omega
      · omega
    have hnone : (e - e).toNat = 0 := by omega
    rw [htarget, shiftToExponent, hnone, if_neg hover, if_neg hover]
    exact ⟨rfl, Int.add_zero e⟩

theorem mantissa_ofMantissaAndAccuracy (m : Nat) (acc : Accuracy) :
    (ExtendedMantissa.ofMantissaAndAccuracy m acc).mantissa = m := by
  cases acc with
  | exact => rfl
  | inexact o => cases o <;> rfl

theorem units_full_or_least {v : ℚ} (hv : 0 < v) :
    2 ^ 52 ≤ Decimal.roundEven (v / 2 ^ ulp v) ∨ ulp v = -1074 := by
  by_cases hleast : ulp v = -1074
  · exact Or.inr hleast
  · left
    have hlog : ulp v + 52 ≤ Int.log 2 v := by
      rw [ulp] at hleast ⊢
      omega
    have hlow := zpow_le_of_le_log hv hlog
    apply le_roundEven
    rw [le_div_iff₀ (by positivity)]
    calc ((2 ^ 52 : Nat) : ℚ) * 2 ^ ulp v = 2 ^ (ulp v + 52) := by
          rw [zpow_add₀ two_ne_zero]
          push_cast
          ring
      _ ≤ v := hlow

theorem units_le {v : ℚ} (hv : 0 < v) : Decimal.roundEven (v / 2 ^ ulp v) ≤ 2 ^ 53 := by
  apply roundEven_le (by positivity)
  rw [div_lt_iff₀ (by positivity)]
  calc v < 2 ^ (ulp v + 53) := lt_zpow_ulp hv
    _ = ((2 ^ 53 : Nat) : ℚ) * 2 ^ ulp v := by
        rw [zpow_add₀ two_ne_zero]
        push_cast
        ring

/-- However an exact result is represented, it is rounded by its value. -/
theorem Holds.round {m : Nat} {acc : Accuracy} {q : ℚ} {e : Int}
    (h : Holds (.ofMantissaAndAccuracy m acc) q) (hq : 0 < q) (he : e ≤ ulp (q * 2 ^ e)) :
    roundWithAccuracy Format.binary64 .positive m e acc = nearestParts (q * 2 ^ e) := by
  have htarget := h.targetExponent hq he
  rw [mantissa_ofMantissaAndAccuracy] at htarget
  have hv : 0 < q * 2 ^ e := by positivity
  have hleast : -1074 ≤ ulp (q * 2 ^ e) := le_max_right _ _
  have hunits := units_le hv
  have hfull := units_full_or_least hv
  have hshift : e + ((ulp (q * 2 ^ e) - e).toNat : Int) = ulp (q * 2 ^ e) := by omega
  have hscaled : q / 2 ^ (ulp (q * 2 ^ e) - e).toNat = q * 2 ^ e / 2 ^ ulp (q * 2 ^ e) := by
    rw [div_eq_div_iff (by positivity) (by positivity), mul_assoc, ← zpow_natCast,
      ← zpow_add₀ two_ne_zero, hshift]
  have hrounded := (h.shiftRight (ulp (q * 2 ^ e) - e).toNat).roundedMantissa
  rw [hscaled] at hrounded
  have hsecond := shiftToTargetExponent_rounded hunits hleast hfull
  rw [roundWithAccuracy, shiftToTargetExponent, htarget, shiftToExponent]
  dsimp only
  rw [hrounded, hshift, nearestParts]
  generalize Decimal.roundEven (q * 2 ^ e / 2 ^ ulp (q * 2 ^ e)) = units at hsecond ⊢
  obtain ⟨hmantissa, hexponent⟩ := hsecond
  by_cases hover : units = 2 ^ 53
  · rw [if_pos hover] at hmantissa hexponent
    rw [dif_neg (by omega), dif_neg (by omega), if_pos hover]
    exact finite_congr rfl hmantissa hexponent
  · rw [if_neg hover] at hmantissa hexponent
    by_cases hzero : units = 0
    · rw [dif_pos (hmantissa.trans hzero), dif_pos hzero]
    · rw [dif_neg (by omega), dif_neg hzero, if_neg hover]
      exact finite_congr rfl hmantissa hexponent

/-! ## Exact numbers -/

theorem roundEven_natCast (n : Nat) : Decimal.roundEven n = n := by
  have hfloor : (n : ℚ).floor.toNat = n := by
    have hfloor : ⌊(n : ℚ)⌋ = (n : Int) := Int.floor_natCast n
    have hrat : (n : ℚ).floor = (n : Int) := hfloor
    rw [hrat, Int.toNat_natCast]
  rw [Decimal.roundEven, hfloor, sub_self, if_pos (by norm_num)]

theorem Canonical.ulp {m : Nat} {e : Int} (h : Canonical m e) : ulp ((m : ℚ) * 2 ^ e) = e := by
  have hm : (0 : ℚ) < m := by exact_mod_cast h.mantissa_pos
  have hpow : (0 : ℚ) < 2 ^ e := by positivity
  have hv : (0 : ℚ) < m * 2 ^ e := by positivity
  have hhigh : Int.log 2 ((m : ℚ) * 2 ^ e) < (53 : Nat) + e := by
    apply log_lt hv
    rw [two_zpow_add]
    exact mul_lt_mul_of_pos_right (by exact_mod_cast h.mantissa_lt) hpow
  have hleast := h.least_le
  rcases h.full_or_least with hfull | rfl
  · have hlow : (52 : Nat) + e ≤ Int.log 2 ((m : ℚ) * 2 ^ e) := by
      apply le_log
      rw [two_zpow_add]
      exact mul_le_mul_of_nonneg_right (by exact_mod_cast hfull) (le_of_lt hpow)
    rw [Double.ulp]
    omega
  · rw [Double.ulp]
    omega

theorem Canonical.nearestParts {m : Nat} {e : Int} (h : Canonical m e) :
    nearestParts ((m : ℚ) * 2 ^ e) = .finite .positive m e h.mantissa_pos := by
  have hunits : Decimal.roundEven ((m : ℚ) * 2 ^ e / 2 ^ e) = m := by
    rw [mul_div_assoc, div_self (by positivity), mul_one, roundEven_natCast]
  have hpos := h.mantissa_pos
  have hlt := h.mantissa_lt
  rw [Double.nearestParts, h.ulp, hunits, dif_neg (by omega), if_neg (by omega)]

def nearest (v : ℚ) : Float :=
  ofParts (nearestParts v)

end PortArbiter.Double
