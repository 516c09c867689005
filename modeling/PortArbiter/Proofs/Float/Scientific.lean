import PortArbiter.Proofs.Float.Rounding
/-!
# Decimals read as doubles

A decimal is read as the double nearest to its value, whichever way is taken: by one exact product
or quotient of doubles for a short decimal, by long arithmetic otherwise. So two decimals of one
value are read alike, and the value of a double is read as that double.
-/

namespace PortArbiter.Double

open Float.Model Float.Model.UnpackedFloat

/-! ## Products and quotients -/

/-- A product that fills the mantissa is rounded by its value. -/
theorem mul_finite {m₁ m₂ : Nat} {e₁ e₂ : Int} (h₁ : 0 < m₁) (h₂ : 0 < m₂)
    (hfull : 2 ^ 52 ≤ m₁ * m₂) :
    UnpackedFloat.mul Format.binary64 (.finite .positive m₁ e₁ h₁) (.finite .positive m₂ e₂ h₂) =
      nearestParts ((m₁ : ℚ) * 2 ^ e₁ * (m₂ * 2 ^ e₂)) := by
  have hvalue : ((m₁ * m₂ : Nat) : ℚ) * 2 ^ (e₁ + e₂) = m₁ * 2 ^ e₁ * (m₂ * 2 ^ e₂) := by
    rw [zpow_add₀ two_ne_zero, Nat.cast_mul]
    ring
  have hpos : (0 : ℚ) < (m₁ * m₂ : Nat) := by exact_mod_cast Nat.mul_pos h₁ h₂
  have hlast : e₁ + e₂ ≤ ulp ((m₁ * m₂ : Nat) * 2 ^ (e₁ + e₂)) := by
    apply le_ulp
    rw [add_comm, show (52 : Int) = (52 : Nat) from rfl, two_zpow_add]
    exact mul_le_mul_of_nonneg_right (by exact_mod_cast hfull) (by positivity)
  rw [← hvalue]
  exact (Holds.exact (m₁ * m₂)).round hpos hlast

/-- A quotient is rounded by its value. -/
theorem div_finite {m₁ m₂ : Nat} {e₁ e₂ : Int} (h₁ : 0 < m₁) (h₂ : 0 < m₂) :
    UnpackedFloat.div Format.binary64 (.finite .positive m₁ e₁ h₁) (.finite .positive m₂ e₂ h₂) =
      nearestParts ((m₁ : ℚ) * 2 ^ e₁ / (m₂ * 2 ^ e₂)) := by
  have hlow₁ : (2 : ℚ) ^ m₁.log2 ≤ m₁ := by exact_mod_cast Nat.log2_self_le (by omega)
  have hhigh₂ : (m₂ : ℚ) < 2 ^ (m₂.log2 + 1) := by exact_mod_cast Nat.lt_log2_self
  have hpos₁ : (0 : ℚ) < m₁ := by exact_mod_cast h₁
  have hpos₂ : (0 : ℚ) < m₂ := by exact_mod_cast h₂
  have hv : (0 : ℚ) < m₁ * 2 ^ e₁ / (m₂ * 2 ^ e₂) := by positivity
  have hlog : (m₁.log2 : Int) + e₁ - (m₂.log2 + 1 + e₂) ≤
      Int.log 2 ((m₁ : ℚ) * 2 ^ e₁ / (m₂ * 2 ^ e₂)) := by
    apply le_log
    rw [zpow_sub₀ two_ne_zero, two_zpow_add, ← Nat.cast_succ, two_zpow_add]
    gcongr
  have htarget : Format.binary64.targetExponent (totalExponent m₁ e₁ - totalExponent m₂ e₂) ≤
      ulp ((m₁ : ℚ) * 2 ^ e₁ / (m₂ * 2 ^ e₂)) := by
    have hbits : ((Format.binary64.mantissaBits : Nat) : Int) = 53 := rfl
    have hleast : Format.binary64.minExponent = -1074 := rfl
    rw [Format.targetExponent, totalExponent, totalExponent, hbits, hleast, ulp]
    omega
  generalize hlast : min (e₁ - e₂)
    (Format.binary64.targetExponent (totalExponent m₁ e₁ - totalExponent m₂ e₂)) = last
  have hshift : last + ((e₁ - e₂ - last).toNat : Int) = e₁ - e₂ := by omega
  have hvalue : ((m₁ <<< (e₁ - e₂ - last).toNat : Nat) : ℚ) / m₂ * 2 ^ last =
      m₁ * 2 ^ e₁ / (m₂ * 2 ^ e₂) := by
    have hpow : (2 : ℚ) ^ (e₁ - e₂ - last).toNat * 2 ^ last = 2 ^ e₁ / 2 ^ e₂ := by
      rw [← two_zpow_add, add_comm, hshift, zpow_sub₀ two_ne_zero]
    rw [Nat.shiftLeft_eq, Nat.cast_mul, Nat.cast_pow, Nat.cast_ofNat, mul_div_mul_comm, ← hpow]
    ring
  have hpos : 0 < m₁ <<< (e₁ - e₂ - last).toNat := Nat.shiftLeft_pos_iff.2 h₁
  have hle : last ≤ ulp ((m₁ : ℚ) * 2 ^ e₁ / (m₂ * 2 ^ e₂)) := by omega
  rw [UnpackedFloat.div, divCore, hlast]
  rw [← hvalue] at hle ⊢
  exact (Holds.quotient _ h₂).round (div_pos (by exact_mod_cast hpos) hpos₂) hle

/-! ## Long arithmetic -/

theorem nearest_zero : nearest 0 = 0 := by
  have hunits : Decimal.roundEven ((0 : ℚ) / 2 ^ ulp 0) = 0 := by
    rw [zero_div]
    exact_mod_cast roundEven_natCast 0
  rw [nearest, nearestParts, hunits, dif_pos rfl, ← parts_zero, ofParts_parts]

/-- A number below half of the least double is read as zero. -/
theorem nearest_tiny {v : ℚ} (hv : 0 < v) (h : v < 2 ^ (-1075 : Int)) : nearest v = 0 := by
  have hulp : ulp v = -1074 := by
    have hlog := log_lt hv h
    rw [ulp]
    omega
  have hhalf : v / 2 ^ (-1074 : Int) < 1 / 2 := by
    rw [div_lt_iff₀ (by positivity)]
    calc v < 2 ^ (-1075 : Int) := h
      _ = 1 / 2 * 2 ^ (-1074 : Int) := by
          rw [show (-1075 : Int) = -1 + -1074 from rfl, zpow_add₀ two_ne_zero]
          norm_num
  have hunits : Decimal.roundEven (v / 2 ^ ulp v) = 0 := by
    rw [hulp]
    exact roundEven_eq_zero (by positivity) hhalf
  rw [nearest, nearestParts, hunits, dif_pos rfl, ← parts_zero, ofParts_parts]

theorem ofParts_overflow (s : Sign) {m : Nat} {e : Int} (hm : 0 < m) (he : 972 ≤ e) :
    ofParts (.finite s m e hm) = ofParts (.infinity s) := by
  have hscale : 2 ^ Format.binary64.exponentBits ≤
      (e + Format.binary64.exponentBias + Format.binary64.mantissaBitsWithoutImplicit).toNat +
        1 := by
    show 2 ^ 11 ≤ (e + (1023 : Nat) + (52 : Nat)).toNat + 1
    omega
  rw [← Float.toBits_inj]
  apply congrArg UInt64.ofBitVec
  rw [UnpackedFloat.pack]
  exact if_pos hscale

theorem nearest_huge {v : ℚ} (h : (2 : ℚ) ^ (972 + 52 : Int) ≤ v) :
    nearest v = ofParts (.infinity .positive) := by
  have hv : 0 < v := lt_of_lt_of_le (by positivity) h
  have hulp : 972 ≤ ulp v := le_ulp h
  have hfull : 2 ^ 52 ≤ Decimal.roundEven (v / 2 ^ ulp v) :=
    (units_full_or_least hv).resolve_right (by omega)
  rw [nearest, nearestParts, dif_neg (by omega)]
  split_ifs
  · exact ofParts_overflow _ _ (by omega)
  · exact ofParts_overflow _ _ hulp

/-- Long arithmetic finds the nearest double, also where it stops early. -/
theorem ofParts_ofScientific (m : Nat) (e : Int) :
    ofParts (UnpackedFloat.ofScientific Format.binary64 m e) = nearest ((m : ℚ) * 10 ^ e) := by
  by_cases hm : m = 0
  · rw [hm, Nat.cast_zero, zero_mul, nearest_zero]
    exact ofParts_parts 0
  have hone : (1 : ℚ) ≤ m := by exact_mod_cast Nat.pos_of_ne_zero hm
  have hlog : (m : ℚ) < 2 ^ (m.log2 + 1) := by exact_mod_cast Nat.lt_log2_self
  rw [UnpackedFloat.ofScientific, dif_neg hm]
  split_ifs with hhuge htiny hnonneg
  · have he : (2048 : Int) < e := hhuge
    rw [nearest_huge]
    calc (2 : ℚ) ^ (972 + 52 : Int) ≤ 10 ^ (972 + 52 : Int) :=
          zpow_le_zpow_left₀ (by norm_num) (by norm_num) (by norm_num)
      _ ≤ 10 ^ e := zpow_le_zpow_right₀ (by norm_num) (by omega)
      _ ≤ m * 10 ^ e := le_mul_of_one_le_left (by positivity) hone
  · have he : e < -(2048 + (m.log2 : Int)) := htiny
    have hbelow : (m : ℚ) * 10 ^ e < 2 ^ (-1075 : Int) := by
      have hten : (10 : ℚ) ^ e ≤ 2 ^ e := by
        obtain ⟨k, hk⟩ := Int.eq_ofNat_of_zero_le (show 0 ≤ -e by omega)
        obtain rfl := neg_eq_iff_eq_neg.1 hk
        rw [zpow_neg, zpow_neg, zpow_natCast, zpow_natCast]
        gcongr
        norm_num
      calc (m : ℚ) * 10 ^ e ≤ m * 2 ^ e := by gcongr
        _ < 2 ^ (m.log2 + 1) * 2 ^ e := by gcongr
        _ = 2 ^ (((m.log2 + 1 : Nat) : Int) + e) := (two_zpow_add _ _).symm
        _ ≤ 2 ^ (-1075 : Int) := zpow_le_zpow_right₀ (by norm_num) (by push_cast; omega)
    rw [nearest_tiny (by positivity) hbelow]
    exact ofParts_parts 0
  · have hk : (10 : ℚ) ^ e = ((10 ^ e.toNat : Nat) : ℚ) * 2 ^ (0 : Int) := by
      rw [zpow_zero, mul_one, Nat.cast_pow, ← zpow_natCast, Int.toNat_of_nonneg hnonneg]
      norm_num
    have hshifted : ((m <<< 53 : Nat) : ℚ) * 2 ^ (-53 : Int) = m := by
      rw [Nat.shiftLeft_eq]
      push_cast
      rw [zpow_neg, mul_assoc]
      norm_num
    have hfull : 2 ^ 52 ≤ (m <<< 53) * 10 ^ e.toNat := by
      rw [Nat.shiftLeft_eq]
      have hten : 1 ≤ 10 ^ e.toNat := Nat.one_le_pow _ _ (by norm_num)
      nlinarith [Nat.pos_of_ne_zero hm]
    rw [hk, ← hshifted, nearest, ← mul_finite _ _ hfull]
    rfl
  · have hk : (10 : ℚ) ^ e = 1 / (((10 ^ (-e).toNat : Nat) : ℚ) * 2 ^ (0 : Int)) := by
      rw [zpow_zero, mul_one, Nat.cast_pow, ← zpow_natCast, Int.toNat_of_nonneg (by omega),
        zpow_neg, one_div, inv_inv]
      norm_num
    have hwhole : (m : ℚ) = m * 2 ^ (0 : Int) := by rw [zpow_zero, mul_one]
    rw [hk, mul_one_div, hwhole, nearest, ← div_finite]

/-! ## Short decimals -/

theorem parts_ofNat {n : Nat} (hn : 0 < n) (hlt : n < 2 ^ 53) :
    ∃ m e, ∃ h : 0 < m, parts n.toUInt64.toFloat = .finite .positive m e h ∧
      2 ^ 52 ≤ m ∧ (m : ℚ) * 2 ^ e = n := by
  have hlog : n.log2 < 53 := (Nat.log2_lt (by omega)).2 hlt
  have hlow : 2 ^ n.log2 ≤ n := Nat.log2_self_le (by omega)
  have hhigh : n < 2 ^ (n.log2 + 1) := Nat.lt_log2_self
  have hshift : n <<< (52 - n.log2) = n * 2 ^ (52 - n.log2) := Nat.shiftLeft_eq _ _
  have hfull : 2 ^ 52 ≤ n <<< (52 - n.log2) := by
    calc 2 ^ 52 = 2 ^ n.log2 * 2 ^ (52 - n.log2) := by rw [← pow_add]; congr 1; omega
      _ ≤ n * 2 ^ (52 - n.log2) := Nat.mul_le_mul_right _ hlow
      _ = n <<< (52 - n.log2) := hshift.symm
  have hbelow : n <<< (52 - n.log2) < 2 ^ 53 := by
    calc n <<< (52 - n.log2) = n * 2 ^ (52 - n.log2) := hshift
      _ < 2 ^ (n.log2 + 1) * 2 ^ (52 - n.log2) := Nat.mul_lt_mul_of_pos_right hhigh (by positivity)
      _ = 2 ^ 53 := by rw [← pow_add]; congr 1; omega
  have hcanonical : Canonical (n <<< (52 - n.log2)) ((n.log2 : Int) - 52) :=
    ⟨by omega, hbelow, by omega, by omega, Or.inl hfull⟩
  have hvalue : ((n <<< (52 - n.log2) : Nat) : ℚ) * 2 ^ ((n.log2 : Int) - 52) = n := by
    rw [hshift, Nat.cast_mul, Nat.cast_pow, Nat.cast_ofNat, mul_assoc, ← two_zpow_add]
    have hzero : ((52 - n.log2 : Nat) : Int) + ((n.log2 : Int) - 52) = 0 := by omega
    rw [hzero, zpow_zero, mul_one]
  refine ⟨_, _, hcanonical.mantissa_pos, ?_, hfull, hvalue⟩
  have hword : n.toUInt64.toNat = n := by
    rw [Nat.toUInt64_eq, UInt64.toNat_ofNat']
    exact Nat.mod_eq_of_lt (by omega)
  have hround : UnpackedFloat.ofUInt64 Format.binary64 n.toUInt64 =
      .finite .positive (n <<< (52 - n.log2)) ((n.log2 : Int) - 52) hcanonical.mantissa_pos := by
    have htarget : max ((n.log2 : Int) + 0 - 52) (-1074) = n.log2 - 52 := by omega
    have hamount : (0 - ((n.log2 : Int) - 52)).toNat = 52 - n.log2 := by omega
    have hexponent : 0 - ((52 - n.log2 : Nat) : Int) = n.log2 - 52 := by omega
    have hpos : (0 : ℚ) < (n <<< (52 - n.log2) : Nat) := by exact_mod_cast hcanonical.mantissa_pos
    rw [UnpackedFloat.ofUInt64, hword, UnpackedFloat.ofNat, UnpackedFloat.ofInt,
      UnpackedFloat.normalize, Int.compare_eq_gt.2 (by omega)]
    dsimp only
    rw [UnpackedFloat.round, Int.toNat_natCast, targetExponent_eq, htarget, decreaseExponent,
      hamount]
    dsimp only
    rw [hexponent, (Holds.exact _).round hpos (le_of_eq hcanonical.ulp.symm),
      hcanonical.nearestParts]
  show parts (ofParts (UnpackedFloat.ofUInt64 Format.binary64 n.toUInt64)) = _
  rw [hround, hcanonical.parts_ofParts]

def amountTo (n : Nat) : UnpackedFloat → Bool
  | .finite .positive m (.ofNat k) _ => 2 ^ 52 ≤ m && m * 2 ^ k == n
  | .finite .positive m (.negSucc k) _ => 2 ^ 52 ≤ m && m == n * 2 ^ (k + 1)
  | _ => false

theorem of_amountTo {n : Nat} {p : UnpackedFloat} (h : amountTo n p = true) :
    ∃ m e, ∃ hm : 0 < m, p = .finite .positive m e hm ∧ 2 ^ 52 ≤ m ∧ (m : ℚ) * 2 ^ e = n := by
  unfold amountTo at h
  split at h
  · rename_i m k hm
    rw [Bool.and_eq_true, decide_eq_true_iff, beq_iff_eq] at h
    refine ⟨m, _, hm, rfl, h.1, ?_⟩
    rw [← h.2, Int.ofNat_eq_natCast, zpow_natCast]
    push_cast
    rfl
  · rename_i m k hm
    rw [Bool.and_eq_true, decide_eq_true_iff, beq_iff_eq] at h
    refine ⟨m, _, hm, rfl, h.1, ?_⟩
    rw [h.2, zpow_negSucc]
    push_cast
    rw [mul_assoc, mul_inv_cancel₀ (by positivity), mul_one]
  · cases h

theorem amountTo_powersOfTen :
    ∀ i : Fin Float.exactlyRepresentablePowersOfTen.size,
      amountTo (10 ^ i.val) (parts Float.exactlyRepresentablePowersOfTen[i]) = true := by
  decide +kernel

theorem mul_eq_ofParts (x y : Float) :
    x * y = ofParts (UnpackedFloat.mul Format.binary64 (parts x) (parts y)) := rfl

theorem div_eq_ofParts (x y : Float) :
    x / y = ofParts (UnpackedFloat.div Format.binary64 (parts x) (parts y)) := rfl

theorem short_eq_nearest {n : Nat} {p : Float} {k : Nat} (hn : n < 2 ^ 53)
    (hp : amountTo (10 ^ k) (parts p) = true) :
    n.toUInt64.toFloat * p = nearest ((n : ℚ) * 10 ^ k) ∧
      n.toUInt64.toFloat / p = nearest ((n : ℚ) / 10 ^ k) := by
  obtain ⟨m₂, e₂, h₂, hparts₂, hfull₂, hvalue₂⟩ := of_amountTo hp
  rw [mul_eq_ofParts, div_eq_ofParts, hparts₂]
  by_cases hzero : n = 0
  · rw [hzero, Nat.cast_zero, zero_mul, zero_div, nearest_zero]
    exact ⟨ofParts_parts 0, ofParts_parts 0⟩
  · obtain ⟨m₁, e₁, h₁, hparts₁, hfull₁, hvalue₁⟩ := parts_ofNat (Nat.pos_of_ne_zero hzero) hn
    push_cast at hvalue₂
    rw [hparts₁, mul_finite h₁ h₂ (by nlinarith), div_finite h₁ h₂, hvalue₁, hvalue₂]
    exact ⟨rfl, rfl⟩

/-- A decimal is read as the double nearest to its value. -/
theorem toFloat_eq_nearest (d : Decimal) : d.toFloat = nearest d.value := by
  rw [Decimal.toFloat, Float.ofScientific, Decimal.value]
  split
  · rename_i hfast
    have hindex : d.exponent.natAbs < Float.exactlyRepresentablePowersOfTen.size := by
      simp only [Float.exactlyRepresentablePowersOfTen, List.size_toArray, List.length_cons,
        List.length_nil]
      omega
    obtain ⟨hmul, hdiv⟩ :=
      short_eq_nearest hfast.1 (amountTo_powersOfTen ⟨d.exponent.natAbs, hindex⟩)
    split
    · rename_i hneg
      have hlt : d.exponent < 0 := of_decide_eq_true hneg
      have hexponent : d.exponent = -(d.exponent.natAbs : Int) := by omega
      have hvalue : (d.digits : ℚ) * 10 ^ d.exponent = d.digits / 10 ^ d.exponent.natAbs := by
        conv_lhs => rw [hexponent, zpow_neg, zpow_natCast]
        rw [div_eq_mul_inv]
      rw [hvalue]
      exact hdiv
    · rename_i hneg
      have hle : ¬ d.exponent < 0 := fun h => hneg (decide_eq_true h)
      have hexponent : d.exponent = (d.exponent.natAbs : Int) := by omega
      have hvalue : (d.digits : ℚ) * 10 ^ d.exponent = d.digits * 10 ^ d.exponent.natAbs := by
        conv_lhs => rw [hexponent, zpow_natCast]
      rw [hvalue]
      exact hmul
  · have hexponent : (if decide (d.exponent < 0) = true then Int.negOfNat d.exponent.natAbs
        else Int.ofNat d.exponent.natAbs) = d.exponent := by
      rw [Int.negOfNat_eq, Int.ofNat_eq_natCast]
      split
      · rename_i hneg
        have hlt := of_decide_eq_true hneg
        omega
      · rename_i hneg
        have hle : ¬ d.exponent < 0 := fun h => hneg (decide_eq_true h)
        omega
    rw [← ofParts_ofScientific]
    dsimp only
    rw [hexponent]
    rfl

end PortArbiter.Double
