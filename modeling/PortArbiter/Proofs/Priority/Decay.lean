import PortArbiter.Proofs.Float.Factors
import PortArbiter.Proofs.Priority.Winners
/-!
# Decay of scores

A score only falls from one message of a contender to the next. So a message that refreshes the
arrival never lowers it, provided that the exponential function is monotone.
-/

namespace PortArbiter

open Double

namespace Contender

theorem positivePart_mono {x y : Float} (h : x ≤ y) : positivePart x ≤ positivePart y := by
  have hclamped := clamped_positivePart y
  by_cases hx : 0 < x
  · have hy : 0 < y := float_lt_of_lt_of_le hx h
    rw [positivePart, positivePart, if_pos hx, if_pos hy]
    exact h
  · rw [positivePart, if_neg hx]
    exact hclamped.zero_le

theorem positivePart_eq_zero {x : Float} (h : ¬ 0 < x) : positivePart x = 0 :=
  if_neg h

theorem positivePart_mul_mono {level x y : Float} (hlevel : ¬ level < 0) (h : x ≤ y) :
    positivePart (level * x) ≤ positivePart (level * y) := by
  by_cases hpos : 0 < level * x
  · exact positivePart_mono (mul_le_mul_of_product_pos hlevel hpos h)
  · rw [positivePart_eq_zero hpos]
    exact (clamped_positivePart _).zero_le

/-! ## The exponent of a decay -/

def exponent (timeConstant elapsed : Float) : Float :=
  steepness * (elapsed - timeConstant) / timeConstant

section

variable {timeConstant early late : Float}

theorem exponent_mono (htime : timeConstant.isFinite = true) (hpos : 0 < timeConstant)
    (h : early ≤ late) : exponent timeConstant early ≤ exponent timeConstant late := by
  have hrest : early - timeConstant ≤ late - timeConstant := Double.sub_le_sub_right htime h
  have hsteep : steepness * (early - timeConstant) ≤ steepness * (late - timeConstant) :=
    Double.mul_le_mul (by decide +kernel) (by decide +kernel) hrest
  exact Double.div_le_div htime hpos hsteep

theorem exponent_le_zero (htime : timeConstant.isFinite = true) (hpos : 0 < timeConstant)
    (h : early ≤ timeConstant) : exponent timeConstant early ≤ 0 := by
  have hend : exponent timeConstant timeConstant = 0 := by
    have hsteep : steepness * 0 = 0 := by decide +kernel
    rw [exponent, sub_self_of_isFinite htime, hsteep, zero_div_of_pos htime hpos]
  exact hend ▸ exponent_mono htime hpos h

theorem exponent_infinite (elapsed : Float) :
    exponent (infinite .positive) elapsed = ofParts .notANumber := by
  have hrest : elapsed - infinite .positive = infinite .negative ∨
      elapsed - infinite .positive = ofParts .notANumber := by
    rw [sub_eq_ofParts, parts_infinite]
    cases parts elapsed with
    | notANumber => exact Or.inr rfl
    | infinity s =>
        cases s with
        | negative => exact Or.inl rfl
        | positive => exact Or.inr rfl
    | zero s => exact Or.inl rfl
    | finite s m e hm => exact Or.inl rfl
  rw [exponent]
  rcases hrest with hrest | hrest <;> rw [hrest] <;> decide +kernel

end

/-! ## Scores some time after a message -/

variable [Exponential]

def scoreAfter (level timeConstant elapsed : Float) : Float :=
  if timeConstant < elapsed then 0
  else positivePart
    (level * (1 - Exponential.exp (steepness * (elapsed - timeConstant) / timeConstant)))

theorem score_of_heard {c : Contender} {a : Float} (h : c.arrival? = some a)
    (hdecays : 0 < c.timeConstant) (t : Float) :
    c.score t = scoreAfter c.level c.timeConstant (t - a) := by
  rw [score, h, scoreAfter]
  simp only [hdecays, not_true_eq_false, false_or]

theorem score_of_not_decays {c : Contender} (h : ¬ 0 < c.timeConstant) (t : Float) :
    c.score t = 0 := by
  rw [score]
  split
  · rfl
  · simp only [h, not_false_eq_true, true_or, if_true]

theorem clamped_scoreAfter (level timeConstant elapsed : Float) :
    Clamped (scoreAfter level timeConstant elapsed) := by
  unfold scoreAfter
  split
  · exact Clamped.zero
  · exact clamped_positivePart _

/-- Less time elapsed, no lower score. A negative level never scores, as long as the exponential
function is at most one at zero. -/
theorem scoreAfter_antitone (hexp : ∀ x y : Float, x ≤ y → Exponential.exp x ≤ Exponential.exp y)
    {level timeConstant : Float} (hlevel : level < 0 → Exponential.exp 0 ≤ 1)
    (hpos : 0 < timeConstant) {early late : Float} (h : early ≤ late) :
    scoreAfter level timeConstant late ≤ scoreAfter level timeConstant early := by
  obtain ⟨-, htime, hrank⟩ := lt_iff.1 hpos
  have hone : (1 : Float).isFinite = true := by decide +kernel
  by_cases hlate : timeConstant < late
  · rw [scoreAfter, if_pos hlate]
    exact (clamped_scoreAfter _ _ _).zero_le
  · have hearly : ¬ timeConstant < early := fun hlt => hlate (float_lt_of_lt_of_le hlt h)
    rw [scoreAfter, scoreAfter, if_neg hlate, if_neg hearly, ← exponent, ← exponent]
    rcases finite_or_infinite htime with hfinite | ⟨s, rfl⟩
    · -- the exponent grows, so what is left of the level shrinks, or grows below zero
      have hexponent := hexp _ _ (exponent_mono hfinite hpos h)
      by_cases hneg : level < 0
      · have hwithin : late ≤ timeConstant := float_le_of_not_lt (le_iff.1 h).2.1 htime hlate
        have hunit : Exponential.exp (exponent timeConstant late) ≤ 1 :=
          float_le_trans (hexp _ _ (exponent_le_zero hfinite hpos hwithin)) (hlevel hneg)
        rw [positivePart_eq_zero (not_zero_lt_mul_of_neg hneg (zero_le_one_sub hunit))]
        exact (clamped_positivePart _).zero_le
      · exact positivePart_mul_mono hneg (Double.sub_le_sub_left hone hexponent)
    · cases s with
      | negative => exact absurd hrank (by decide)
      | positive =>
          -- the exponent is no number at either time, so the score does not change at all
          rw [exponent_infinite, exponent_infinite]
          exact (clamped_positivePart _).refl

theorem scoreAfter_zero (level : Float) {timeConstant : Float} (hpos : 0 < timeConstant) :
    scoreAfter level timeConstant 0 =
      positivePart (level * (1 - Exponential.exp (exponent timeConstant 0))) := by
  have hclamped : Clamped timeConstant := Or.inr hpos
  exact if_neg ((hclamped.not_lt Clamped.zero).2 hclamped.zero_le)

/-- Who was heard at any time scores no more than who is heard now at a level no lower, if both
decays begin at one exponent. -/
theorem scoreAfter_le_scoreAfter_zero
    (hexp : ∀ x y : Float, x ≤ y → Exponential.exp x ≤ Exponential.exp y)
    (hunit : ∀ x : Float, x ≤ 0 → 0 ≤ Exponential.exp x ∧ Exponential.exp x ≤ 1)
    {level level' timeConstant timeConstant' elapsed : Float} (hlevel : level.isFinite = true)
    (hnonneg : ¬ level < 0) (hlevel' : level'.isFinite = true) (hle : level ≤ level')
    (hpos : 0 < timeConstant) (htime' : timeConstant'.isFinite = true) (hpos' : 0 < timeConstant')
    (hsame : exponent timeConstant 0 = exponent timeConstant' 0) (helapsed : 0 ≤ elapsed) :
    scoreAfter level timeConstant elapsed ≤ scoreAfter level' timeConstant' 0 := by
  have haged : scoreAfter level timeConstant elapsed ≤ scoreAfter level timeConstant 0 :=
    scoreAfter_antitone hexp (fun hneg => absurd hneg hnonneg) hpos helapsed
  have hbegin : exponent timeConstant' 0 ≤ 0 :=
    exponent_le_zero htime' hpos' (Clamped.zero.le_of_lt (Or.inr hpos') hpos')
  obtain ⟨hlow, hhigh⟩ := hunit _ hbegin
  have hfresh : scoreAfter level timeConstant 0 ≤ scoreAfter level' timeConstant' 0 := by
    rw [scoreAfter_zero level hpos, scoreAfter_zero level' hpos', hsame]
    exact positivePart_mono (mul_le_mul_right hlevel hlevel' (isFinite_one_sub hlow hhigh)
      (zero_le_one_sub hhigh) hle)
  exact float_le_trans haged hfresh

theorem score_le_score_hear
    (hexp : ∀ x y : Float, x ≤ y → Exponential.exp x ≤ Exponential.exp y) {c : Contender}
    (hlevel : c.level < 0 → Exponential.exp 0 ≤ 1) {now : Float} (hnow : now.isFinite = true)
    (harrival : ∀ a, c.arrival? = some a → a ≤ now) :
    c.score now ≤ (c.hear now).score now := by
  by_cases hdecays : 0 < c.timeConstant
  · cases ha : c.arrival? with
    | none =>
        rw [score, ha]
        exact (clamped_score (c.hear now) now).zero_le
    | some a =>
        have hheard : (c.hear now).score now =
            scoreAfter c.level c.timeConstant (now - now) :=
          score_of_heard (c := c.hear now) rfl hdecays now
        rw [score_of_heard ha hdecays, hheard]
        exact scoreAfter_antitone hexp hlevel hdecays
          (Double.sub_le_sub_left hnow (harrival a ha))
  · rw [score_of_not_decays hdecays, score_of_not_decays (c := c.hear now) hdecays]
    exact Clamped.zero.refl

end Contender

/-! ## Two points of the exponential function -/

/-- The exponential function at the exponents that come up zero and one time constant after a
message, and constant in between. -/
def Exponential.coarse (x : Float) : Float :=
  if x < -1 then 0.006737946999085467 else 1

theorem Exponential.coarse_mono {x y : Float} (h : x ≤ y) : coarse x ≤ coarse y := by
  unfold coarse
  split_ifs with hx hy hy
  · decide +kernel
  · decide +kernel
  · exact absurd (float_lt_of_le_of_lt h hy) hx
  · decide +kernel

end PortArbiter
