import PortArbiter.Proofs.Float.Order
import PortArbiter.Proofs.Float.Scientific
/-!
# Arithmetic on doubles

The difference, the product and the quotient of two finite doubles are the doubles nearest to the
exact results. So where a result stands in the order of doubles depends on the exact result alone,
and `place` says where.
-/

namespace PortArbiter.Double

open Float.Model Float.Model.UnpackedFloat

/-! ## Values -/

def signum : Sign → ℚ
  | .negative => -1
  | .positive => 1

theorem signum_mul (s s' : Sign) : signum (s * s') = signum s * signum s' := by
  cases s <;> cases s'
  · show (1 : ℚ) = -1 * -1
    norm_num
  · exact (mul_one (-1 : ℚ)).symm
  · exact (one_mul (-1 : ℚ)).symm
  · exact (one_mul (1 : ℚ)).symm

theorem signum_neg (s : Sign) : signum (-s) = -signum s := by
  cases s
  · exact (neg_neg (1 : ℚ)).symm
  · rfl

theorem cast_apply (s : Sign) (n : Int) : ((s.apply n : Int) : ℚ) = signum s * n := by
  cases s <;> simp [Sign.apply, signum]

/-- The exact value that finite parts stand for. -/
def valueOf : UnpackedFloat → ℚ
  | .finite s m e _ => signum s * (m * 2 ^ e)
  | _ => 0

theorem valueOf_zero (s : Sign) : valueOf (.zero s) = 0 := rfl

theorem valueOf_finite (s : Sign) (m : Nat) (e : Int) (h : 0 < m) :
    valueOf (.finite s m e h) = signum s * (m * 2 ^ e) := rfl

@[inherit_doc valueOf]
def value (x : Float) : ℚ :=
  valueOf (parts x)

theorem cases_of_isFinite {x : Float} (h : x.isFinite = true) :
    (∃ s, parts x = .zero s) ∨
      ∃ s m e, ∃ hm : 0 < m, parts x = .finite s m e hm ∧ Canonical m e := by
  have hparts : (parts x).isFinite = true := h
  cases hp : parts x with
  | notANumber => rw [hp] at hparts; cases hparts
  | infinity s => rw [hp] at hparts; cases hparts
  | zero s => exact Or.inl ⟨s, rfl⟩
  | finite s m e hm => exact Or.inr ⟨s, m, e, hm, rfl, canonical_of_parts hp⟩

/-! ## Places -/

/-- The place, in the order of doubles, of the double nearest to a positive number. -/
def magnitude (v : ℚ) : Int :=
  min (Decimal.roundEven (v / 2 ^ ulp v) + (ulp v + 1074) * 2 ^ 52) (2047 * 2 ^ 52)

def place (v : ℚ) : Int :=
  if 0 < v then magnitude v else if v < 0 then -magnitude (-v) else 0

theorem roundEven_mono {q q' : ℚ} (hq : 0 ≤ q) (h : q ≤ q') :
    Decimal.roundEven q ≤ Decimal.roundEven q' := by
  rcases (Int.floor_le_floor h).lt_or_eq with hlt | hsame
  · have hnonneg : 0 ≤ ⌊q'⌋ := Int.floor_nonneg.2 (hq.trans h)
    have hcast : ((⌊q'⌋.toNat : Nat) : ℚ) = ⌊q'⌋ := by exact_mod_cast Int.toNat_of_nonneg hnonneg
    have hbelow : q < (⌊q'⌋.toNat : Nat) := by
      rw [hcast]
      exact Int.floor_lt.1 hlt
    have habove : ((⌊q'⌋.toNat : Nat) : ℚ) ≤ q' := by
      rw [hcast]
      exact Int.floor_le q'
    exact (roundEven_le hq hbelow).trans (le_roundEven habove)
  · have hfloor : q'.floor = q.floor := hsame.symm
    unfold Decimal.roundEven
    rw [hfloor]
    dsimp only
    split_ifs <;> first | omega | linarith

theorem ulp_mono {v w : ℚ} (hv : 0 < v) (h : v ≤ w) : ulp v ≤ ulp w :=
  max_le_max_right _ (sub_le_sub_right (Int.log_mono_right hv h) 52)

theorem magnitude_nonneg (v : ℚ) : 0 ≤ magnitude v := by
  have hleast : -1074 ≤ ulp v := le_max_right _ _
  unfold magnitude
  omega

/-- The next power of two begins where the last one ends, so that nearest doubles do not change
places. -/
theorem magnitude_mono {v w : ℚ} (hv : 0 < v) (h : v ≤ w) : magnitude v ≤ magnitude w := by
  have hw : 0 < w := hv.trans_le h
  have hleast : -1074 ≤ ulp v := le_max_right _ _
  unfold magnitude
  rcases (ulp_mono hv h).lt_or_eq with hlt | hsame
  · have hfull := (units_full_or_least hw).resolve_right (by omega)
    have hover := units_le hv
    omega
  · rw [← hsame]
    have hunits : Decimal.roundEven (v / 2 ^ ulp v) ≤ Decimal.roundEven (w / 2 ^ ulp v) :=
      roundEven_mono (by positivity) (by gcongr)
    omega

theorem place_zero : place 0 = 0 := by
  rw [place, if_neg (lt_irrefl 0), if_neg (lt_irrefl 0)]

theorem place_mono : Monotone place := by
  intro v w h
  have hv := magnitude_nonneg (-v)
  have hw := magnitude_nonneg w
  unfold place
  split_ifs with h₁ h₂ h₃ h₄ h₅ h₆ h₇
  · exact magnitude_mono h₁ h
  · linarith
  · linarith
  · omega
  · have hback := magnitude_mono (v := -w) (w := -v) (by linarith) (by linarith)
    omega
  · omega
  · exact hw
  · linarith
  · exact le_refl 0

theorem place_signum {v : ℚ} (hv : 0 < v) (s : Sign) :
    place (signum s * v) = s.apply (magnitude v) := by
  cases s with
  | negative =>
      have hneg : signum .negative * v = -v := by rw [signum, neg_one_mul]
      rw [hneg, place, if_neg (by linarith), if_pos (by linarith), neg_neg]
      rfl
  | positive =>
      have hpos : signum .positive * v = v := by rw [signum, one_mul]
      rw [hpos, place, if_pos hv]
      rfl

/-! ## Rounded results -/

/-- A double in the place of the double nearest to a number. -/
structure Rounded (x : Float) (v : ℚ) : Prop where
  isNumber : IsNumber x
  rank_eq : rank x = place v

theorem Rounded.le {x y : Float} {v w : ℚ} (hx : Rounded x v) (hy : Rounded y w) (h : v ≤ w) :
    x ≤ y := by
  rw [le_iff, hx.rank_eq, hy.rank_eq]
  exact ⟨hx.isNumber, hy.isNumber, place_mono h⟩

def signed (s : Sign) : UnpackedFloat → UnpackedFloat
  | .notANumber => .notANumber
  | .infinity _ => .infinity s
  | .zero _ => .zero s
  | .finite _ m e h => .finite s m e h

theorem roundWithAccuracy_eq_signed (s : Sign) (m : Nat) (e : Int) (acc : Accuracy) :
    roundWithAccuracy Format.binary64 s m e acc =
      signed s (roundWithAccuracy Format.binary64 .positive m e acc) := by
  unfold roundWithAccuracy
  dsimp only
  split <;> rfl

theorem parts_ofParts_zero (s : Sign) : parts (ofParts (.zero s)) = .zero s := by
  cases s <;> rfl

theorem parts_ofParts_infinity (s : Sign) : parts (ofParts (.infinity s)) = .infinity s := by
  cases s <;> rfl

theorem rounded_zero (s : Sign) : Rounded (ofParts (.zero s)) 0 := by
  constructor
  · rw [IsNumber, parts_ofParts_zero]
    rintro ⟨⟩
  · rw [rank, parts_ofParts_zero, place_zero]
    rfl

/-- Parts that fit stand where they say, and larger ones stand for an infinity. -/
theorem rank_ofParts_finite (s : Sign) {m : Nat} {e : Int} (hm : 0 < m) (hlt : m < 2 ^ 53)
    (hleast : -1074 ≤ e) (hfull : 2 ^ 52 ≤ m ∨ e = -1074) :
    IsNumber (ofParts (.finite s m e hm)) ∧
      rank (ofParts (.finite s m e hm)) =
        s.apply (min (m + (e + 1074) * 2 ^ 52) (2047 * 2 ^ 52)) := by
  by_cases he : e ≤ 971
  · have hcanonical : Canonical m e := ⟨hm, hlt, hleast, he, hfull⟩
    have hbelow := magnitude_lt_infinity hcanonical
    rw [IsNumber, rank, hcanonical.parts_ofParts, min_eq_left hbelow.le]
    refine ⟨?_, rfl⟩
    rintro ⟨⟩
  · have hover : (2047 * 2 ^ 52 : Int) ≤ m + (e + 1074) * 2 ^ 52 := by omega
    rw [ofParts_overflow s hm (by omega), IsNumber, rank, parts_ofParts_infinity,
      min_eq_right hover]
    refine ⟨?_, rfl⟩
    rintro ⟨⟩

theorem rounded_nearest {v : ℚ} (hv : 0 < v) (s : Sign) :
    Rounded (ofParts (signed s (nearestParts v))) (signum s * v) := by
  have hunits := units_le hv
  have hfull := units_full_or_least hv
  have hleast : -1074 ≤ ulp v := le_max_right _ _
  rw [nearestParts]
  split_ifs with hzero hover
  · have hnone : magnitude v = 0 := by
      unfold magnitude
      omega
    refine ⟨(rounded_zero s).isNumber, ?_⟩
    rw [place_signum hv, hnone]
    cases s <;> rfl
  · have hrank := rank_ofParts_finite s (m := 2 ^ 52) (e := ulp v + 1) (by positivity)
      (by norm_num) (by omega) (Or.inl le_rfl)
    refine ⟨hrank.1, hrank.2.trans ?_⟩
    rw [place_signum hv, magnitude, hover]
    congr 2
    push_cast
    ring
  · have hrank := rank_ofParts_finite s (Nat.pos_of_ne_zero hzero) (by omega) hleast hfull
    exact ⟨hrank.1, hrank.2.trans (place_signum hv s).symm⟩

theorem rounded_parts (s : Sign) {m : Nat} {e : Int} (hm : 0 < m) (h : Canonical m e) :
    Rounded (ofParts (.finite s m e hm)) (signum s * (m * 2 ^ e)) := by
  have hm' : (0 : ℚ) < m := by exact_mod_cast hm
  have hnearest := rounded_nearest (v := m * 2 ^ e) (by positivity) s
  rw [h.nearestParts] at hnearest
  exact hnearest

theorem rounded_value {x : Float} (hx : x.isFinite = true) : Rounded x (value x) := by
  have hself := ofParts_parts x
  rw [value]
  rcases cases_of_isFinite hx with ⟨s, hp⟩ | ⟨s, m, e, hm, hp, hcanonical⟩ <;> rw [hp] at hself ⊢
  · exact hself ▸ rounded_zero s
  · exact hself ▸ rounded_parts s hm hcanonical

theorem isNumber_of_isFinite {x : Float} (hx : x.isFinite = true) : IsNumber x :=
  (rounded_value hx).isNumber

theorem value_eq_zero {x : Float} (hx : x.isFinite = true) (h : rank x = 0) : value x = 0 := by
  rcases cases_of_isFinite hx with ⟨s, hp⟩ | ⟨s, m, e, hm, hp, hcanonical⟩
  · rw [value, hp]
    rfl
  · have hpos := magnitude_pos hcanonical
    rw [rank, hp] at h
    cases s <;> simp only [rankOf, Sign.apply] at h <;> omega

/-- Finite doubles are ordered by their values. -/
theorem value_le_value {x y : Float} (hx : x.isFinite = true) (hy : y.isFinite = true)
    (h : rank x ≤ rank y) : value x ≤ value y := by
  by_contra hlt
  have hback := (rounded_value hy).le (rounded_value hx) (not_le.1 hlt).le
  have hsame : rank x = rank y := le_antisymm h (le_iff.1 hback).2.2
  by_cases hzero : rank x = 0
  · rw [value_eq_zero hx hzero, value_eq_zero hy (hsame ▸ hzero)] at hlt
    exact hlt le_rfl
  · rw [eq_of_rank_eq hsame hzero] at hlt
    exact hlt le_rfl

/-! ## Operations -/

theorem ulp_natCast {n : Nat} (hn : 0 < n) (e : Int) :
    ulp ((n : ℚ) * 2 ^ e) = max ((n.log2 : Int) + e - 52) (-1074) := by
  have hpow : (0 : ℚ) < 2 ^ e := by positivity
  have hpos : (0 : ℚ) < n := by exact_mod_cast hn
  have hlow : (n.log2 : Int) + e ≤ Int.log 2 ((n : ℚ) * 2 ^ e) := by
    apply le_log
    rw [two_zpow_add]
    exact mul_le_mul_of_nonneg_right (by exact_mod_cast Nat.log2_self_le hn.ne') hpow.le
  have hhigh : Int.log 2 ((n : ℚ) * 2 ^ e) < ((n.log2 + 1 : Nat) : Int) + e := by
    apply log_lt (by positivity)
    rw [two_zpow_add]
    exact mul_lt_mul_of_pos_right (by exact_mod_cast Nat.lt_log2_self) hpow
  rw [ulp]
  omega

theorem round_eq_signed {n : Nat} (hn : 0 < n) (e : Int) (s : Sign) :
    UnpackedFloat.round Format.binary64 s n e = signed s (nearestParts ((n : ℚ) * 2 ^ e)) := by
  have hulp := ulp_natCast hn e
  obtain ⟨k, hk⟩ : ∃ k : Nat, k = (e - ulp ((n : ℚ) * 2 ^ e)).toNat := ⟨_, rfl⟩
  have hvalue : ((n <<< k : Nat) : ℚ) * 2 ^ (e - k) = n * 2 ^ e := by
    rw [Nat.shiftLeft_eq, Nat.cast_mul, Nat.cast_pow, Nat.cast_ofNat, mul_assoc, ← two_zpow_add,
      add_sub_cancel]
  have hpos : (0 : ℚ) < (n <<< k : Nat) := by exact_mod_cast Nat.shiftLeft_pos_iff.2 hn
  have hle : e - k ≤ ulp (((n <<< k : Nat) : ℚ) * 2 ^ (e - k)) := by
    rw [hvalue]
    omega
  rw [UnpackedFloat.round, targetExponent_eq, ← hulp, decreaseExponent, ← hk]
  dsimp only
  rw [roundWithAccuracy_eq_signed, (Holds.exact (n <<< k)).round hpos hle, hvalue]

theorem rounded_round {n : Nat} (hn : 0 < n) (e : Int) (s : Sign) :
    Rounded (ofParts (UnpackedFloat.round Format.binary64 s n e)) (signum s * (n * 2 ^ e)) := by
  have hn' : (0 : ℚ) < n := by exact_mod_cast hn
  rw [round_eq_signed hn]
  exact rounded_nearest (by positivity) s

theorem rounded_normalize (d e : Int) (s : Sign) :
    Rounded (ofParts (UnpackedFloat.normalize Format.binary64 d e s)) (d * 2 ^ e) := by
  rw [UnpackedFloat.normalize]
  rcases lt_trichotomy d 0 with hneg | rfl | hpos
  · have hcast : (((-d).toNat : Nat) : ℚ) = -d := by
      exact_mod_cast Int.toNat_of_nonneg (by omega : 0 ≤ -d)
    have hrounded := rounded_round (n := (-d).toNat) (by omega) e .negative
    rw [hcast, signum, neg_one_mul, neg_mul, neg_neg] at hrounded
    rw [compare_lt_iff_lt.2 hneg]
    exact hrounded
  · rw [Int.cast_zero, zero_mul]
    exact rounded_zero s
  · have hcast : ((d.toNat : Nat) : ℚ) = d := by exact_mod_cast Int.toNat_of_nonneg hpos.le
    have hrounded := rounded_round (n := d.toNat) (by omega) e .positive
    rw [hcast, signum, one_mul] at hrounded
    rw [compare_gt_iff_gt.2 hpos]
    exact hrounded

theorem sub_eq_ofParts (x y : Float) :
    x - y = ofParts (UnpackedFloat.sub Format.binary64 (parts x) (parts y)) := rfl

theorem rounded_sub {x y : Float} (hx : x.isFinite = true) (hy : y.isFinite = true) :
    Rounded (x - y) (value x - value y) := by
  rw [sub_eq_ofParts, value, value]
  rcases cases_of_isFinite hx with ⟨s₁, hp₁⟩ | ⟨s₁, m₁, e₁, hm₁, hp₁, hc₁⟩ <;>
    rcases cases_of_isFinite hy with ⟨s₂, hp₂⟩ | ⟨s₂, m₂, e₂, hm₂, hp₂, hc₂⟩ <;>
    rw [hp₁, hp₂]
  · rw [valueOf_zero, valueOf_zero, sub_zero]
    unfold UnpackedFloat.sub
    dsimp only
    split
    · exact rounded_zero s₁
    · exact rounded_zero .positive
  · have hflip := rounded_parts (-s₂) hm₂ hc₂
    rw [signum_neg, neg_mul] at hflip
    rw [valueOf_zero, valueOf_finite, zero_sub]
    exact hflip
  · rw [valueOf_zero, sub_zero]
    exact rounded_parts s₁ hm₁ hc₁
  · have hshift : ∀ {m : Nat} {e : Int} (s : Sign), min e₁ e₂ ≤ e →
        ((s.apply (m <<< (e - min e₁ e₂).toNat : Nat) : Int) : ℚ) * 2 ^ min e₁ e₂ =
          signum s * (m * 2 ^ e) := by
      intro m e s hle
      have hback : ((e - min e₁ e₂).toNat : Int) + min e₁ e₂ = e := by omega
      rw [cast_apply, Int.cast_natCast, Nat.shiftLeft_eq, Nat.cast_mul, Nat.cast_pow,
        Nat.cast_ofNat, mul_assoc, mul_assoc, ← two_zpow_add, hback]
    have hrounded := rounded_normalize
      (s₁.apply (m₁ <<< (e₁ - min e₁ e₂).toNat : Nat) -
        s₂.apply (m₂ <<< (e₂ - min e₁ e₂).toNat : Nat)) (min e₁ e₂) .positive
    rw [Int.cast_sub, sub_mul, hshift s₁ (min_le_left _ _), hshift s₂ (min_le_right _ _)]
      at hrounded
    exact hrounded

/-- A product of canonical mantissas has enough bits, or its last place is below all others. -/
theorem mul_eq_signed {m₁ m₂ : Nat} {e₁ e₂ : Int} (s₁ s₂ : Sign) (h₁ : 0 < m₁) (h₂ : 0 < m₂)
    (hc₁ : Canonical m₁ e₁) (hc₂ : Canonical m₂ e₂) :
    UnpackedFloat.mul Format.binary64 (.finite s₁ m₁ e₁ h₁) (.finite s₂ m₂ e₂ h₂) =
      signed (s₁ * s₂) (nearestParts ((m₁ : ℚ) * 2 ^ e₁ * (m₂ * 2 ^ e₂))) := by
  by_cases hfull : 2 ^ 52 ≤ m₁ * m₂
  · rw [← mul_finite h₁ h₂ hfull]
    exact roundWithAccuracy_eq_signed _ _ _ _
  · have hleast₁ : e₁ = -1074 := hc₁.full_or_least.resolve_left fun hle =>
      hfull (hle.trans (Nat.le_mul_of_pos_right m₁ h₂))
    have hvalue : ((m₁ * m₂ : Nat) : ℚ) * 2 ^ (e₁ + e₂) = m₁ * 2 ^ e₁ * (m₂ * 2 ^ e₂) := by
      rw [zpow_add₀ two_ne_zero, Nat.cast_mul]
      ring
    have hpos : (0 : ℚ) < (m₁ * m₂ : Nat) := by exact_mod_cast Nat.mul_pos h₁ h₂
    have hleast₂ : e₂ = -1074 := hc₂.full_or_least.resolve_left fun hle =>
      hfull (hle.trans (Nat.le_mul_of_pos_left m₂ h₁))
    have hle : e₁ + e₂ ≤ ulp ((m₁ * m₂ : Nat) * 2 ^ (e₁ + e₂)) := by
      have hleast : -1074 ≤ ulp ((m₁ * m₂ : Nat) * 2 ^ (e₁ + e₂)) := le_max_right _ _
      omega
    rw [← hvalue, ← (Holds.exact (m₁ * m₂)).round hpos hle]
    exact roundWithAccuracy_eq_signed _ _ _ _

theorem rounded_mul {x y : Float} (hx : x.isFinite = true) (hy : y.isFinite = true) :
    Rounded (x * y) (value x * value y) := by
  rw [mul_eq_ofParts, value, value]
  rcases cases_of_isFinite hx with ⟨s₁, hp₁⟩ | ⟨s₁, m₁, e₁, hm₁, hp₁, hc₁⟩ <;>
    rcases cases_of_isFinite hy with ⟨s₂, hp₂⟩ | ⟨s₂, m₂, e₂, hm₂, hp₂, hc₂⟩ <;>
    rw [hp₁, hp₂]
  · rw [valueOf_zero, zero_mul]
    exact rounded_zero _
  · rw [valueOf_zero, zero_mul]
    exact rounded_zero _
  · rw [valueOf_zero, mul_zero]
    exact rounded_zero _
  · have hm₁' : (0 : ℚ) < m₁ := by exact_mod_cast hm₁
    have hm₂' : (0 : ℚ) < m₂ := by exact_mod_cast hm₂
    have hrounded := rounded_nearest (v := m₁ * 2 ^ e₁ * (m₂ * 2 ^ e₂)) (by positivity) (s₁ * s₂)
    rw [← mul_eq_signed s₁ s₂ hm₁ hm₂ hc₁ hc₂, signum_mul, mul_mul_mul_comm] at hrounded
    exact hrounded

theorem div_eq_signed {m₁ m₂ : Nat} {e₁ e₂ : Int} (s : Sign) (h₁ : 0 < m₁) (h₂ : 0 < m₂) :
    UnpackedFloat.div Format.binary64 (.finite s m₁ e₁ h₁) (.finite .positive m₂ e₂ h₂) =
      signed s (nearestParts ((m₁ : ℚ) * 2 ^ e₁ / (m₂ * 2 ^ e₂))) := by
  have hsign : s / .positive = s := by cases s <;> rfl
  rw [← div_finite h₁ h₂, UnpackedFloat.div, hsign]
  exact roundWithAccuracy_eq_signed _ _ _ _

theorem parts_of_pos {k : Float} (hk : k.isFinite = true) (hpos : 0 < k) :
    ∃ m e, ∃ hm : 0 < m, parts k = .finite .positive m e hm ∧ Canonical m e := by
  rw [zero_lt_iff, rank] at hpos
  rcases cases_of_isFinite hk with ⟨s, hp⟩ | ⟨s, m, e, hm, hp, hcanonical⟩ <;> rw [hp] at hpos
  · exact absurd hpos (lt_irrefl 0)
  · have hmagnitude := magnitude_pos hcanonical
    cases s with
    | negative =>
        simp only [rankOf, Sign.apply] at hpos
        omega
    | positive => exact ⟨m, e, hm, hp, hcanonical⟩

theorem rounded_div {x k : Float} (hx : x.isFinite = true) (hk : k.isFinite = true)
    (hpos : 0 < k) : Rounded (x / k) (value x / value k) := by
  obtain ⟨m₂, e₂, hm₂, hp₂, -⟩ := parts_of_pos hk hpos
  rw [div_eq_ofParts, value, value, hp₂]
  rcases cases_of_isFinite hx with ⟨s, hp⟩ | ⟨s, m₁, e₁, hm₁, hp, -⟩ <;> rw [hp]
  · rw [valueOf_zero, zero_div]
    exact rounded_zero _
  · have hm₁' : (0 : ℚ) < m₁ := by exact_mod_cast hm₁
    have hm₂' : (0 : ℚ) < m₂ := by exact_mod_cast hm₂
    have hrounded := rounded_nearest (v := m₁ * 2 ^ e₁ / (m₂ * 2 ^ e₂)) (by positivity) s
    have hvalue : signum s * (m₁ * 2 ^ e₁ / (m₂ * 2 ^ e₂)) =
        signum s * (m₁ * 2 ^ e₁) / (signum .positive * (m₂ * 2 ^ e₂)) := by
      have hone : signum .positive = 1 := rfl
      rw [hone, one_mul, ← mul_div_assoc]
    rw [← div_eq_signed s hm₁ hm₂, hvalue] at hrounded
    exact hrounded

end PortArbiter.Double
