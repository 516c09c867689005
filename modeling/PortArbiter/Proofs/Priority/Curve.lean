import PortArbiter.Proofs.Float.Exceptional
import PortArbiter.Proofs.Priority.Decay
/-!
# The shape of decay curves

Whatever doubles a contender is declared with and heard at, its score is a number between zero and
its level, and falls along the whole line of time. Infinite doubles, and those that are no numbers,
come up at many places of the formula; wherever they do, the score is zero or that of the far past.
-/

namespace PortArbiter

open Double

/-- What holds of every exponential function on doubles: it is monotone, runs from zero at the
negative infinity through one at zero, and makes no number of what is none. -/
structure Exponential.Lawful [Exponential] : Prop where
  mono : ∀ x y : Float, x ≤ y → Exponential.exp x ≤ Exponential.exp y
  bottom : Exponential.exp (infinite .negative) = 0
  zero : Exponential.exp 0 = 1
  notANumber : ∀ x : Float, x.isNaN = true → (Exponential.exp x).isNaN = true

namespace Contender

theorem exponent_notANumber (timeConstant : Float) :
    exponent timeConstant (ofParts .notANumber) = ofParts .notANumber := by
  rw [exponent, notANumber_sub, mul_notANumber, notANumber_div]

theorem positivePart_mul_le {level x : Float} (hlevel : 0 ≤ level) (hx : x ≤ 1) :
    positivePart (level * x) ≤ level := by
  by_cases hpos : 0 < level * x
  · have hnotneg : ¬ level < 0 := by
      rw [lt_zero_iff]
      exact not_lt.2 (zero_le_iff.1 hlevel).2
    rw [positivePart, if_pos hpos]
    exact float_le_trans (mul_le_mul_of_product_pos hnotneg hpos hx) (mul_one_le hlevel)
  · rw [positivePart_eq_zero hpos]
    exact hlevel

section

variable [Exponential]

def factor (timeConstant elapsed : Float) : Float :=
  1 - Exponential.exp (exponent timeConstant elapsed)

theorem scoreAfter_of_within {level timeConstant elapsed : Float} (h : ¬ timeConstant < elapsed) :
    scoreAfter level timeConstant elapsed = positivePart (level * factor timeConstant elapsed) :=
  if_neg h

theorem factor_notANumber (hexp : Exponential.Lawful) {timeConstant elapsed : Float}
    (h : exponent timeConstant elapsed = ofParts .notANumber) :
    factor timeConstant elapsed = ofParts .notANumber := by
  have hnone : ¬ IsNumber (Exponential.exp (ofParts .notANumber)) :=
    isNaN_iff.1 (hexp.notANumber _ (isNaN_iff.2 not_isNumber_notANumber))
  rw [factor, h, eq_notANumber hnone, sub_notANumber]

theorem factor_bounds (hexp : Exponential.Lawful) {timeConstant elapsed : Float}
    (htime : timeConstant.isFinite = true) (hpos : 0 < timeConstant) (h : elapsed ≤ timeConstant) :
    0 ≤ factor timeConstant elapsed ∧ factor timeConstant elapsed ≤ 1 := by
  have hone : (1 : Float).isFinite = true := by decide +kernel
  have hexponent : exponent timeConstant elapsed ≤ 0 := exponent_le_zero htime hpos h
  have hlow : 0 ≤ Exponential.exp (exponent timeConstant elapsed) :=
    hexp.bottom ▸ hexp.mono _ _ (infinite_le (le_iff.1 hexponent).1)
  have hhigh : Exponential.exp (exponent timeConstant elapsed) ≤ 1 :=
    hexp.zero ▸ hexp.mono _ _ hexponent
  have hwhole : (1 : Float) - 0 = 1 := by decide +kernel
  exact ⟨zero_le_one_sub hhigh, hwhole ▸ Double.sub_le_sub_left hone hlow⟩

/-! ## Where there is a score -/

/-- When a contender scores at some time: it was heard, and at most one time constant ago, all of
which are numbers; it may have been heard in the future. -/
structure Scoring (c : Contender) (t a : Float) : Prop where
  arrival : c.arrival? = some a
  decays : 0 < c.timeConstant
  finite : c.timeConstant.isFinite = true
  within : t - a ≤ c.timeConstant
  score_eq : c.score t = positivePart (c.level * factor c.timeConstant (t - a))

theorem score_eq_zero_or (hexp : Exponential.Lawful) (c : Contender) (t : Float) :
    c.score t = 0 ∨ ∃ a, c.Scoring t a := by
  cases ha : c.arrival? with
  | none =>
      left
      rw [score, ha]
  | some a =>
      by_cases hpos : 0 < c.timeConstant
      · have hscore := score_of_heard ha hpos t
        by_cases hover : c.timeConstant < t - a
        · left
          rw [hscore, scoreAfter, if_pos hover]
        · rw [scoreAfter_of_within hover] at hscore
          have hnone : exponent c.timeConstant (t - a) = ofParts .notANumber → c.score t = 0 := by
            intro hexponent
            rw [hscore, factor_notANumber hexp hexponent, mul_notANumber,
              positivePart_eq_zero not_zero_lt_notANumber]
          obtain ⟨-, htime, hrank⟩ := lt_iff.1 hpos
          rcases finite_or_infinite htime with hfinite | ⟨s, hs⟩
          · by_cases helapsed : IsNumber (t - a)
            · exact Or.inr ⟨a, ha, hpos, hfinite, float_le_of_not_lt helapsed htime hover, hscore⟩
            · left
              apply hnone
              rw [eq_notANumber helapsed, exponent_notANumber]
          · cases s with
            | negative =>
                rw [hs] at hrank
                exact absurd hrank (by decide)
            | positive =>
                left
                apply hnone
                rw [hs, exponent_infinite]
      · exact Or.inl (score_of_not_decays hpos t)

/-! ## Sign and bound -/

theorem score_of_level_neg (hexp : Exponential.Lawful) {c : Contender} (hlevel : c.level < 0)
    (t : Float) : c.score t = 0 := by
  rcases score_eq_zero_or hexp c t with hzero | ⟨a, h⟩
  · exact hzero
  · obtain ⟨hlow, -⟩ := factor_bounds hexp h.finite h.decays h.within
    rw [h.score_eq, positivePart_eq_zero (not_zero_lt_mul_of_neg hlevel hlow)]

theorem score_of_level_notANumber (hexp : Exponential.Lawful) {c : Contender}
    (hlevel : ¬ IsNumber c.level) (t : Float) : c.score t = 0 := by
  rcases score_eq_zero_or hexp c t with hzero | ⟨a, h⟩
  · exact hzero
  · rw [h.score_eq, eq_notANumber hlevel, notANumber_mul,
      positivePart_eq_zero not_zero_lt_notANumber]

theorem score_le_level (hexp : Exponential.Lawful) {c : Contender} (hlevel : 0 ≤ c.level)
    (t : Float) : c.score t ≤ c.level := by
  rcases score_eq_zero_or hexp c t with hzero | ⟨a, h⟩
  · rw [hzero]
    exact hlevel
  · rw [h.score_eq]
    exact positivePart_mul_le hlevel (factor_bounds hexp h.finite h.decays h.within).2

/-! ## The course of time -/

theorem Scoring.isNumber {c : Contender} {t a : Float} (h : c.Scoring t a) : IsNumber a := by
  by_contra ha
  have helapsed := (le_iff.1 h.within).1
  rw [eq_notANumber ha, sub_notANumber] at helapsed
  exact not_isNumber_notANumber helapsed

/-- Who scores later has scored no less before, also if it was heard infinitely late. -/
theorem Scoring.score_le (hexp : Exponential.Lawful) {c : Contender} {early late a : Float}
    (h : c.Scoring late a) (htime : early ≤ late) : c.score late ≤ c.score early := by
  have hlevel : c.level < 0 → Exponential.exp 0 ≤ 1 := by
    intro _
    rw [hexp.zero]
    decide +kernel
  have helapsed := (le_iff.1 h.within).1
  obtain ⟨hearly, hlate, -⟩ := le_iff.1 htime
  rw [score_of_heard h.arrival h.decays, score_of_heard h.arrival h.decays]
  rcases finite_or_infinite h.isNumber with hfinite | ⟨s, rfl⟩
  · exact scoreAfter_antitone hexp.mono hlevel h.decays (Double.sub_le_sub_right hfinite htime)
  · -- a finite decay that is not over yet can only have an arrival at the end of time
    have hne : late ≠ infinite s := by
      rintro rfl
      rw [infinite_sub_self] at helapsed
      exact not_isNumber_notANumber helapsed
    have hfar := sub_infinite hlate hne
    cases s with
    | negative =>
        have hwithin := h.within
        rw [hfar] at hwithin
        have hinfinite := eq_infinite_of_le hwithin
        have hfinite := h.finite
        rw [hinfinite] at hfinite
        cases hfinite
    | positive =>
        have hne' : early ≠ infinite .positive := fun heq =>
          hne (eq_infinite_of_le (heq ▸ htime))
        rw [hfar, sub_infinite hearly hne']
        exact (clamped_scoreAfter _ _ _).refl

theorem score_antitone (hexp : Exponential.Lawful) (c : Contender) {early late : Float}
    (htime : early ≤ late) : c.score late ≤ c.score early := by
  rcases score_eq_zero_or hexp c late with hzero | ⟨a, h⟩
  · rw [hzero]
    exact (c.clamped_score early).zero_le
  · exact h.score_le hexp htime

/-- The shape of a decay curve, for all doubles that a contender can be declared with or heard at
and all times: a score is a number and not below zero, it is zero if the level is below zero or no
number and at most the level otherwise, and it never rises as time passes. -/
theorem score_shape (hexp : Exponential.Lawful) (c : Contender) :
    (∀ t, (c.score t).isNaN = false ∧ 0 ≤ c.score t) ∧
    (c.level < 0 ∨ c.level.isNaN = true → ∀ t, c.score t = 0) ∧
    (0 ≤ c.level → ∀ t, c.score t ≤ c.level) ∧
    ∀ early late, early ≤ late → c.score late ≤ c.score early := by
  refine ⟨fun t => ⟨?_, (c.clamped_score t).zero_le⟩, ?_,
    fun hlevel => score_le_level hexp hlevel, fun _ _ => score_antitone hexp c⟩
  · rw [← Bool.not_eq_true, isNaN_iff, not_not]
    exact (c.clamped_score t).isNumber
  · rintro (hneg | hnan)
    · exact score_of_level_neg hexp hneg
    · exact score_of_level_notANumber hexp (isNaN_iff.1 hnan)

end

end Contender

/-! ## An exponential function by its landmarks -/

/-- The exponential function at the exponents that come up with arrivals at the ends of time as
well, and constant in between. -/
def Exponential.landmarks (x : Float) : Float :=
  if x.isNaN then x else if x < -1000 then 0 else coarse x

theorem Exponential.lawful_landmarks : letI : Exponential := ⟨landmarks⟩; Lawful := by
  let _ : Exponential := ⟨landmarks⟩
  refine ⟨fun x y h => ?_, by decide +kernel, by decide +kernel, fun x hnan => ?_⟩
  · obtain ⟨hx, hy, -⟩ := le_iff.1 h
    show landmarks x ≤ landmarks y
    rw [landmarks, landmarks, if_neg (isNaN_iff.not.2 (not_not.2 hx)),
      if_neg (isNaN_iff.not.2 (not_not.2 hy))]
    have hcoarse : 0 ≤ coarse y := by
      unfold coarse
      split <;> decide +kernel
    split_ifs with hx hy hy
    · decide +kernel
    · exact hcoarse
    · exact absurd (float_lt_of_le_of_lt h hy) hx
    · exact coarse_mono h
  · show (landmarks x).isNaN = true
    rw [landmarks, if_pos hnan]
    exact hnan

/-- A source that was heard at the end of time holds its level until then. -/
theorem Contender.score_shape_landmarks :
    letI : Exponential := ⟨Exponential.landmarks⟩
    let c : Contender :=
      { source := "/a", level := 10, timeConstant := 2, arrival? := some (1 / 0) }
    Exponential.Lawful ∧ c.score 0 = 10 ∧ c.score 0 ≤ c.level ∧ c.score (1 / 0) ≤ c.score 0 ∧
      ({ c with level := -1 } : Contender).score 0 = 0 := by
  let _ : Exponential := ⟨Exponential.landmarks⟩
  intro c
  have hexp := Exponential.lawful_landmarks
  obtain ⟨-, -, hbound, hfalls⟩ := score_shape hexp c
  have hnegative := (score_shape hexp { c with level := -1 }).2.1
  exact ⟨hexp, by decide +kernel, hbound (by decide +kernel) 0,
    hfalls 0 (1 / 0) (by decide +kernel), hnegative (Or.inl (by decide +kernel)) 0⟩

end PortArbiter
