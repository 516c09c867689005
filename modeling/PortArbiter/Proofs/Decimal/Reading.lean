import PortArbiter.Proofs.Float.Scientific
import PortArbiter.Proofs.Float.Order
/-!
# What a finite double amounts to

A finite double is its sign and the double nearest to its magnitude.
-/

namespace PortArbiter.Double

open Float.Model Float.Model.UnpackedFloat

/-! ## Signs -/

theorem neg_eq_ofParts (x : Float) : -x = ofParts (parts x).neg := rfl

theorem abs_eq_ofParts (x : Float) : x.abs = ofParts (parts x).abs := rfl

theorem isFinite_eq (x : Float) : x.isFinite = (parts x).isFinite := rfl

def isNegative : Sign → Bool
  | .negative => true
  | .positive => false

theorem isNegative_signOf (bits : Nat) : isNegative (signOf bits) = decide (2 ^ 63 ≤ bits) := by
  by_cases h : 2 ^ 63 ≤ bits
  · rw [signOf, if_pos h, decide_eq_true h, isNegative]
  · rw [signOf, if_neg h, decide_eq_false h, isNegative]

/-! ## Readings -/

def readingOf : UnpackedFloat → Reading
  | .notANumber => .nan
  | .infinity s => .infinite (isNegative s)
  | .zero s => .finite (isNegative s) 0
  | .finite s m e _ => .finite (isNegative s) ((m : ℚ) * 2 ^ e)

theorem reading_eq (x : Float) : Reading.ofFloat x = readingOf (parts x) := by
  rw [parts_eq_partsOf, Reading.ofFloat, partsOf]
  generalize x.toBits.toNat = bits
  have hhidden : Reading.hidden = 2 ^ 52 := rfl
  have hsign : decide (0x8000000000000000 ≤ bits) = isNegative (signOf bits) :=
    (isNegative_signOf bits).symm
  simp only [hhidden, hsign]
  by_cases hones : bits / 2 ^ 52 % 2048 = 2047
  · rw [if_pos hones, if_pos hones]
    by_cases hfraction : bits % 2 ^ 52 = 0
    · rw [if_pos hfraction, if_pos hfraction, readingOf]
    · rw [if_neg hfraction, if_neg hfraction, readingOf]
  · rw [if_neg hones, if_neg hones]
    by_cases hscale : bits / 2 ^ 52 % 2048 = 0
    · rw [if_pos hscale, if_pos hscale]
      by_cases hfraction : bits % 2 ^ 52 = 0
      · rw [dif_pos hfraction, hfraction, readingOf, Nat.cast_zero, zero_mul]
      · rw [dif_neg hfraction, readingOf]
    · rw [if_neg hscale, if_neg hscale, readingOf]

/-- A number that a double stands for exactly. -/
structure Magnitude (x : Float) (v : ℚ) : Prop where
  dyadic : ∃ (m : Nat) (e : Int), v = m * 2 ^ e
  nearest_eq : nearest v = x
  rank_ne_zero : v ≠ 0 → rank x ≠ 0

theorem Magnitude.zero : Magnitude 0 0 where
  dyadic := ⟨0, 0, by rw [Nat.cast_zero, zero_mul]⟩
  nearest_eq := nearest_zero
  rank_ne_zero h := absurd rfl h

theorem Canonical.magnitude {m : Nat} {e : Int} (h : Canonical m e) :
    Magnitude (ofParts (.finite .positive m e h.mantissa_pos)) (m * 2 ^ e) where
  dyadic := ⟨m, e, rfl⟩
  nearest_eq := by rw [nearest, h.nearestParts]
  rank_ne_zero _ := by
    have hpos := magnitude_pos h
    rw [rank, h.parts_ofParts]
    exact ne_of_gt hpos

/-- A finite double is read as a sign and the magnitude of its absolute value, and these give the
double back. -/
theorem reading_finite {x : Float} (hx : x.isFinite = true) :
    ∃ negative v, Reading.ofFloat x = .finite negative v ∧ Magnitude x.abs v ∧
      (if negative then -x.abs else x.abs) = x := by
  rw [isFinite_eq] at hx
  rw [reading_eq, abs_eq_ofParts]
  cases hparts : parts x with
  | notANumber =>
      rw [hparts] at hx
      cases hx
  | infinity s =>
      rw [hparts] at hx
      cases hx
  | zero s =>
      refine ⟨isNegative s, 0, rfl, Magnitude.zero, ?_⟩
      rw [← parts_inj, hparts, UnpackedFloat.abs]
      cases s with
      | negative => rfl
      | positive => rfl
  | finite s m e hm =>
      have hcanonical := canonical_of_parts hparts
      have habs := hcanonical.parts_ofParts .positive
      refine ⟨isNegative s, _, rfl, hcanonical.magnitude, ?_⟩
      rw [← parts_inj, hparts, UnpackedFloat.abs]
      cases s with
      | negative =>
          rw [isNegative, if_pos rfl, neg_eq_ofParts, habs]
          exact hcanonical.parts_ofParts .negative
      | positive =>
          rw [isNegative, if_neg Bool.false_ne_true]
          exact habs

theorem isInf_abs {x : Float} (hx : x.isFinite = true) : x.abs.isInf = false := by
  rw [isFinite_eq] at hx
  rw [abs_eq_ofParts]
  cases hparts : parts x with
  | notANumber =>
      rw [hparts] at hx
      cases hx
  | infinity s =>
      rw [hparts] at hx
      cases hx
  | zero s => cases s <;> rfl
  | finite s m e hm =>
      have habs := (canonical_of_parts hparts).parts_ofParts .positive
      change (parts (ofParts (.finite .positive m e hm))).isInf = false
      rw [habs]
      rfl

end PortArbiter.Double
