import Mathlib
import PortArbiter.Decimal.Basic
/-!
# The parts of a double

Comparison and rounding of doubles are defined on their parts: a sign, a mantissa and a power of
two. Here are the parts that the bits of a double encode, and what mantissas and powers occur.
-/

namespace PortArbiter.Double

open Float.Model Float.Model.UnpackedFloat

def parts (x : Float) : UnpackedFloat :=
  x.toModel.unpack

theorem parts_inj {x y : Float} : parts x = parts y ↔ x = y := by
  rw [← Float.toBits_inj, ← UInt64.toBitVec_inj]
  exact unpack_inj_of_valid x.toModel.valid y.toModel.valid

theorem parts_zero : parts 0 = .zero .positive := rfl

/-- The mantissas and powers of two of a finite double other than zero: 53 bits, of which the
first may be missing at the least power only. -/
structure Canonical (m : Nat) (e : Int) : Prop where
  mantissa_pos : 0 < m
  mantissa_lt : m < 2 ^ 53
  least_le : -1074 ≤ e
  le_greatest : e ≤ 971
  full_or_least : 2 ^ 52 ≤ m ∨ e = -1074

/-! ## Reading bits -/

def signOf (bits : Nat) : Sign :=
  if 2 ^ 63 ≤ bits then .negative else .positive

/-- The parts that 64 bits encode: sign, eleven bits of scale, 52 bits of fraction. -/
def partsOf (bits : Nat) : UnpackedFloat :=
  let scale : Nat := bits / 2 ^ 52 % 2048
  let fraction : Nat := bits % 2 ^ 52
  if scale = 2047 then
    if fraction = 0 then .infinity (signOf bits) else .notANumber
  else if scale = 0 then
    if h : fraction = 0 then .zero (signOf bits)
    else .finite (signOf bits) fraction (-1074) (Nat.pos_of_ne_zero h)
  else .finite (signOf bits) (2 ^ 52 + fraction) ((scale : Int) - 1075) (by positivity)

theorem toNat_unpackMantissa (b : BitVec Format.binary64.numBits) :
    (unpackMantissa b).toNat = b.toNat % 2 ^ 52 := by
  simp [unpackMantissa_def]

theorem toNat_unpackExponent (b : BitVec Format.binary64.numBits) :
    (unpackExponent b).toNat = b.toNat / 2 ^ 52 % 2048 := by
  simp [unpackExponent_def, Nat.shiftRight_eq_div_pow]

theorem ofBitVec_unpackSign (b : BitVec Format.binary64.numBits) :
    Sign.ofBitVec (unpackSign b) = signOf b.toNat := by
  have hbit : (unpackSign b).toNat = b.toNat / 2 ^ 63 % 2 := by
    simp [unpackSign_def, Nat.shiftRight_eq_div_pow]
  have hlt : b.toNat < 2 ^ 64 := b.isLt
  have hzero : unpackSign b = 0#1 ↔ b.toNat < 2 ^ 63 := by
    rw [← BitVec.toNat_inj, hbit]
    simp only [BitVec.toNat_ofNat]
    omega
  by_cases h : b.toNat < 2 ^ 63
  · rw [Sign.ofBitVec, if_pos (hzero.2 h), signOf, if_neg (by omega)]
  · rw [Sign.ofBitVec, if_neg (mt hzero.1 h), signOf, if_pos (by omega)]

theorem finite_congr {s s' : Sign} {m m' : Nat} {e e' : Int} {h : 0 < m} {h' : 0 < m'}
    (hs : s = s') (hm : m = m') (he : e = e') :
    UnpackedFloat.finite s m e h = .finite s' m' e' h' := by
  subst hs hm he
  rfl

theorem unpack_eq_partsOf (b : BitVec Format.binary64.numBits) :
    UnpackedFloat.unpack Format.binary64 b = partsOf b.toNat := by
  have hones : unpackExponent b = -1#_ ↔ b.toNat / 2 ^ 52 % 2048 = 2047 := by
    rw [← toNat_unpackExponent, ← BitVec.toNat_inj]
    rfl
  have hscale : unpackExponent b = 0#_ ↔ b.toNat / 2 ^ 52 % 2048 = 0 := by
    rw [← toNat_unpackExponent, ← BitVec.toNat_inj]
    rfl
  have hfraction : unpackMantissa b = 0#_ ↔ b.toNat % 2 ^ 52 = 0 := by
    rw [← toNat_unpackMantissa, ← BitVec.toNat_inj]
    rfl
  have hbias : ((Format.binary64.exponentBias : Nat) : Int) = 1023 := rfl
  have hfull : (1#1 ++ unpackMantissa b).toNat = 2 ^ 52 + b.toNat % 2 ^ 52 := by
    rw [BitVec.toNat_append, ← Nat.shiftLeft_add_eq_or_of_lt (unpackMantissa b).isLt,
      toNat_unpackMantissa]
    rfl
  unfold UnpackedFloat.unpack partsOf
  simp only [ofBitVec_unpackSign, hones, hscale, hfraction]
  split_ifs with h₁ h₂ h₃ h₄
  · rfl
  · rfl
  · rfl
  · refine finite_congr rfl (toNat_unpackMantissa b) ?_
    rw [toNat_unpackExponent, h₃, hbias]
    rfl
  · refine finite_congr rfl hfull ?_
    rw [toNat_unpackExponent, hbias]
    push_cast
    ring

theorem parts_eq_partsOf (x : Float) : parts x = partsOf x.toBits.toNat :=
  unpack_eq_partsOf x.toModel.toBits.toBitVec

theorem canonical_of_parts {x : Float} {s : Sign} {m : Nat} {e : Int} {h : 0 < m}
    (hx : parts x = .finite s m e h) : Canonical m e := by
  rw [parts_eq_partsOf] at hx
  unfold partsOf at hx
  have hfraction : x.toBits.toNat % 2 ^ 52 < 2 ^ 52 := Nat.mod_lt _ (by positivity)
  have hscale : x.toBits.toNat / 2 ^ 52 % 2048 < 2048 := Nat.mod_lt _ (by positivity)
  simp only at hx
  split_ifs at hx with h₁ h₂ h₃ h₄ <;> cases hx <;> constructor <;> omega

/-! ## Writing bits -/

/-- The double with the parts given, infinite if their power of two is too large. -/
def ofParts (p : UnpackedFloat) : Float :=
  .ofModel (.pack p)

theorem ofParts_parts (x : Float) : ofParts (parts x) = x := by
  have hbits : UnpackedFloat.pack Format.binary64 (parts x) = x.toModel.toBits.toBitVec :=
    pack_unpack_of_valid x.toModel.valid
  rw [← Float.toBits_inj]
  show UInt64.ofBitVec (UnpackedFloat.pack Format.binary64 (parts x)) = x.toModel.toBits
  rw [hbits]

def signBit : Sign → Nat
  | .negative => 1
  | .positive => 0

theorem toNat_packComponents (s : Sign) (scale : BitVec 11) (fraction : BitVec 52) :
    (packComponents Format.binary64 s scale fraction).toNat =
      signBit s * 2 ^ 63 + scale.toNat * 2 ^ 52 + fraction.toNat := by
  have hsign : s.toBitVec.toNat = signBit s := by cases s <;> rfl
  have hscale : scale.toNat < 2 ^ 11 := scale.isLt
  rw [packComponents, BitVec.toNat_append, BitVec.toNat_append,
    ← Nat.shiftLeft_add_eq_or_of_lt fraction.isLt, ← Nat.shiftLeft_add_eq_or_of_lt hscale, hsign,
    Nat.shiftLeft_eq, Nat.shiftLeft_eq]
  ring

theorem partsOf_components (s : Sign) {scale fraction : Nat} (hscale : scale < 2047)
    (hfraction : fraction < 2 ^ 52) (hpos : 0 < fraction ∨ 0 < scale) :
    partsOf (signBit s * 2 ^ 63 + scale * 2 ^ 52 + fraction) =
      if h : scale = 0 then .finite s fraction (-1074) (by omega)
      else .finite s (2 ^ 52 + fraction) ((scale : Int) - 1075) (by positivity) := by
  have hbit : signBit s ≤ 1 := by cases s <;> decide
  have hs : signOf (signBit s * 2 ^ 63 + scale * 2 ^ 52 + fraction) = s := by
    cases s with
    | negative => exact if_pos (by simp only [signBit]; omega)
    | positive => exact if_neg (by simp only [signBit]; omega)
  have hmiddle : (signBit s * 2 ^ 63 + scale * 2 ^ 52 + fraction) / 2 ^ 52 % 2048 = scale := by
    omega
  have hlast : (signBit s * 2 ^ 63 + scale * 2 ^ 52 + fraction) % 2 ^ 52 = fraction := by omega
  unfold partsOf
  simp only [hmiddle, hlast, hs]
  rw [if_neg (by omega)]
  by_cases hzero : scale = 0
  · rw [if_pos hzero, dif_neg (by omega), dif_pos hzero]
  · rw [if_neg hzero, dif_neg hzero]

theorem Canonical.parts_ofParts {m : Nat} {e : Int} (h : Canonical m e) (s : Sign) :
    parts (ofParts (.finite s m e h.mantissa_pos)) = .finite s m e h.mantissa_pos := by
  have hm := h.mantissa_lt
  have hpos := h.mantissa_pos
  have hleast := h.least_le
  have hgreatest := h.le_greatest
  have hbias : ((Format.binary64.exponentBias : Nat) : Int) = 1023 := rfl
  have hbits : Format.binary64.mantissaBits = 53 := rfl
  show UnpackedFloat.unpack Format.binary64
    (UnpackedFloat.pack Format.binary64 (.finite s m e hpos)) = _
  have hscale : ¬ 2 ^ Format.binary64.exponentBits ≤
      (e + Format.binary64.exponentBias + Format.binary64.mantissaBitsWithoutImplicit).toNat +
        1 := by
    rw [hbias]
    show ¬ 2 ^ 11 ≤ (e + 1023 + 52).toNat + 1
    omega
  rw [UnpackedFloat.pack]
  dsimp only
  rw [if_neg hscale, hbits]
  by_cases hfull : 2 ^ 52 ≤ m
  · have hlog : m.log2 + 1 = 53 := by
      have hlow := (Nat.le_log2 (by omega)).2 hfull
      have hhigh := (Nat.log2_lt (by omega)).2 hm
      omega
    have hk : ((e + 1023 + 52).toNat : Int) = e + 1075 := by omega
    have hsplit : 2 ^ 52 + m % 2 ^ 52 = m := by omega
    rw [if_pos hlog, unpack_eq_partsOf, toNat_packComponents, BitVec.toNat_ofNat,
      BitVec.toNat_ofNat, hbias]
    show partsOf (signBit s * 2 ^ 63 + (e + 1023 + 52).toNat % 2 ^ 11 * 2 ^ 52 + m % 2 ^ 52) = _
    rw [Nat.mod_eq_of_lt (by omega : (e + 1023 + 52).toNat < 2 ^ 11),
      partsOf_components s (by omega) (Nat.mod_lt _ (by positivity)) (by omega), dif_neg (by omega)]
    exact finite_congr rfl hsplit (by omega)
  · have hlog : ¬ m.log2 + 1 = 53 := by
      have hhigh := (Nat.log2_lt (by omega)).2 (Nat.not_le.1 hfull)
      omega
    have he : e = -1074 := h.full_or_least.resolve_left hfull
    rw [if_neg hlog, unpack_eq_partsOf, toNat_packComponents, BitVec.toNat_ofNat,
      BitVec.toNat_ofNat, Nat.mod_eq_of_lt (Nat.not_le.1 hfull)]
    show partsOf (signBit s * 2 ^ 63 + 0 * 2 ^ 52 + m) = _
    rw [partsOf_components s (by omega) (Nat.not_le.1 hfull) (by omega), dif_pos rfl]
    exact finite_congr rfl rfl he.symm

end PortArbiter.Double
