import PortArbiter.Proofs.Float.Factors
/-!
# Where doubles stop being numbers

Arithmetic makes no number of what is none, and no comparison holds of it. Of two infinite doubles
the difference is a number only if they are on opposite sides.
-/

namespace PortArbiter.Double

open Float.Model Float.Model.UnpackedFloat

variable {x : Float}

/-! ## No numbers -/

theorem isNaN_iff : x.isNaN = true ↔ ¬ IsNumber x := by
  show (parts x).isNaN = true ↔ _
  rw [IsNumber, not_not]
  cases parts x <;> simp [UnpackedFloat.isNaN]

theorem eq_notANumber (h : ¬ IsNumber x) : x = ofParts .notANumber := by
  rw [← ofParts_parts x, not_not.1 h]

theorem not_isNumber_notANumber : ¬ IsNumber (ofParts .notANumber) :=
  not_not.2 parts_ofParts_notANumber

theorem sub_notANumber (x : Float) : x - ofParts .notANumber = ofParts .notANumber := by
  rw [sub_eq_ofParts, parts_ofParts_notANumber]
  cases parts x <;> rfl

theorem notANumber_sub (x : Float) : ofParts .notANumber - x = ofParts .notANumber := by
  rw [sub_eq_ofParts, parts_ofParts_notANumber]
  cases parts x <;> rfl

theorem mul_notANumber (x : Float) : x * ofParts .notANumber = ofParts .notANumber := by
  rw [mul_eq_ofParts, parts_ofParts_notANumber]
  cases parts x <;> rfl

theorem notANumber_mul (x : Float) : ofParts .notANumber * x = ofParts .notANumber := by
  rw [float_mul_comm, mul_notANumber]

theorem notANumber_div (x : Float) : ofParts .notANumber / x = ofParts .notANumber := by
  rw [div_eq_ofParts, parts_ofParts_notANumber]
  cases parts x <;> rfl

theorem not_zero_lt_notANumber : ¬ 0 < (ofParts .notANumber : Float) :=
  fun h => not_isNumber_notANumber (lt_iff.1 h).2.1

/-! ## Infinite doubles -/

theorem le_infinite (hx : IsNumber x) : x ≤ infinite .positive := by
  rw [le_iff, rank_infinite]
  exact ⟨hx, isNumber_infinite _, (rank_bounds_of_isNumber hx).2⟩

theorem infinite_le (hx : IsNumber x) : infinite .negative ≤ x := by
  rw [le_iff, rank_infinite]
  exact ⟨isNumber_infinite _, hx, (rank_bounds_of_isNumber hx).1⟩

theorem eq_infinite_of_le (h : infinite .positive ≤ x) : x = infinite .positive := by
  obtain ⟨-, hx, hle⟩ := le_iff.1 h
  have hrank : rank x = rank (infinite .positive) :=
    le_antisymm (le_iff.1 (le_infinite hx)).2.2 hle
  refine eq_of_rank_eq hrank ?_
  rw [hrank, rank_infinite]
  decide

theorem infinite_sub_self (s : Sign) : infinite s - infinite s = ofParts .notANumber := by
  rw [sub_eq_ofParts, parts_infinite]
  cases s <;> rfl

theorem sub_infinite {s : Sign} (hx : IsNumber x) (hne : x ≠ infinite s) :
    x - infinite s = infinite (-s) := by
  rcases finite_or_infinite hx with hfinite | ⟨s', rfl⟩
  · rw [sub_eq_ofParts, parts_infinite]
    rcases cases_of_isFinite hfinite with ⟨s', hp⟩ | ⟨s', m, e, hm, hp, -⟩ <;> rw [hp] <;> rfl
  · rw [sub_eq_ofParts, parts_infinite, parts_infinite]
    cases s <;> cases s' <;> first | rfl | exact absurd rfl hne

end PortArbiter.Double
