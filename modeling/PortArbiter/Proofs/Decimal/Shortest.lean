import PortArbiter.Decimal.Shortest
import PortArbiter.Proofs.Decimal.Reading
/-!
# Shortest decimals read back

Whether the search for few digits finds a decimal or the exact expansion is taken, the shortest
decimal of a double is read as that double. Zeros at the end do not matter.
-/

namespace PortArbiter.Double

open Float.Model Float.Model.UnpackedFloat

/-- A double that compares as equal to another one is the same, but for the two zeros. -/
theorem eq_of_beq {x y : Float} (h : (y == x) = true) (hx : rank x ≠ 0) : y = x :=
  (eq_of_rank_eq (beq_iff.1 h).2.2.symm hx).symm

end PortArbiter.Double

namespace PortArbiter.Decimal

open Double

/-- The search finds nothing but decimals that read back. -/
theorem toFloat_of_closest {x : Float} {v : ℚ} {places : Nat} {d : Decimal} (hx : rank x ≠ 0)
    (h : closest? x v places = some d) : d.toFloat = x := by
  unfold closest? at h
  dsimp only at h
  split at h
  · rename_i hbelow habove
    split at h
    · cases h
      exact Double.eq_of_beq hbelow hx
    · cases h
      exact Double.eq_of_beq habove hx
  · rename_i hbelow _
    cases h
    exact Double.eq_of_beq hbelow hx
  · rename_i _ habove
    cases h
    exact Double.eq_of_beq habove hx
  · cases h

/-! ## The exact expansion -/

theorem den_dyadic (m : Nat) (e : Int) : ∃ k, ((m : ℚ) * 2 ^ e).den = 2 ^ k := by
  rcases Int.eq_nat_or_neg e with ⟨n, rfl | rfl⟩
  · refine ⟨0, ?_⟩
    rw [zpow_natCast, ← Nat.cast_ofNat, ← Nat.cast_pow, ← Nat.cast_mul, Rat.den_natCast, pow_zero]
  · have hdvd : ((m : ℚ) * 2 ^ (-(n : Int))).den ∣ 2 ^ n := by
      have hquotient : (m : ℚ) * 2 ^ (-(n : Int)) = Rat.divInt m (2 ^ n : Nat) := by
        rw [Rat.divInt_eq_div, zpow_neg, zpow_natCast, div_eq_mul_inv]
        push_cast
        rfl
      rw [hquotient]
      exact_mod_cast Rat.den_dvd m (2 ^ n : Nat)
    obtain ⟨k, _, hk⟩ := (Nat.dvd_prime_pow Nat.prime_two).1 hdvd
    exact ⟨k, hk⟩

theorem expansion_value {m : Nat} {e : Int} {v : ℚ} (hv : v = m * 2 ^ e) :
    (expansion v).value = v := by
  obtain ⟨k, hden⟩ := den_dyadic m e
  rw [← hv] at hden
  have hlog : v.den.log2 = k := by rw [hden, Nat.log2_two_pow]
  have hnonneg : 0 ≤ v := by rw [hv]; positivity
  have hnatAbs : ((v.num.natAbs : Nat) : Int) = v.num :=
    Int.natAbs_of_nonneg (Rat.num_nonneg.2 hnonneg)
  have hnum : ((v.num.natAbs : Nat) : ℚ) = v.num := by
    rw [← Int.cast_natCast, hnatAbs]
  have hten : (10 : ℚ) ^ (-(k : Int)) = 1 / (5 ^ k * 2 ^ k) := by
    rw [zpow_neg, zpow_natCast, ← mul_pow, one_div]
    norm_num
  calc (expansion v).value
      = ((v.num.natAbs * 5 ^ v.den.log2 : Nat) : ℚ) * 10 ^ (-(v.den.log2 : Int)) := rfl
    _ = v.num * 5 ^ k * (1 / (5 ^ k * 2 ^ k)) := by
        rw [hlog, Nat.cast_mul, hnum, hten]
        push_cast
        rfl
    _ = v.num / (v.den : ℚ) := by
        rw [hden]
        push_cast
        field_simp
    _ = v := Rat.num_div_den v

/-! ## Zeros at the end -/

/-- A number is its other digits, moved up by the zeros at the end. -/
theorem eq_pow_mul_front (n : Nat) :
    ∃ front, n = 10 ^ ((Nat.toDigits 10 n).reverse.takeWhile (· == '0')).length * front := by
  generalize hcs : Nat.toDigits 10 n = cs
  have hzeros : cs.reverse.takeWhile (· == '0') =
      List.replicate (cs.reverse.takeWhile (· == '0')).length '0' := by
    rw [List.eq_replicate_iff]
    refine ⟨rfl, fun c hc => ?_⟩
    have hzero : (c == '0') = true := List.mem_takeWhile_imp (p := fun c => c == '0') hc
    exact LawfulBEq.eq_of_beq hzero
  generalize (cs.reverse.takeWhile (· == '0')).length = k at hzeros ⊢
  have hsplit : cs = (cs.reverse.dropWhile (· == '0')).reverse ++ List.replicate k '0' := by
    rw [← List.reverse_replicate, ← hzeros, ← List.reverse_append,
      List.takeWhile_append_dropWhile, List.reverse_reverse]
  refine ⟨Nat.ofDigitChars 10 (cs.reverse.dropWhile (· == '0')).reverse 0, ?_⟩
  calc n = Nat.ofDigitChars 10 cs 0 := by rw [← hcs, Nat.ofDigitChars_ten_toDigits]
    _ = Nat.ofDigitChars 10
          ((cs.reverse.dropWhile (· == '0')).reverse ++ List.replicate k '0') 0 :=
        congrArg (Nat.ofDigitChars 10 · 0) hsplit
    _ = 10 ^ k * Nat.ofDigitChars 10 (cs.reverse.dropWhile (· == '0')).reverse 0 := by
        rw [Nat.ofDigitChars_append, Nat.ofDigitChars_replicate_zero]

theorem trimZeros_value (d : Decimal) : d.trimZeros.value = d.value := by
  obtain ⟨front, hfront⟩ := eq_pow_mul_front d.digits
  generalize hn : ((Nat.toDigits 10 d.digits).reverse.takeWhile (· == '0')).length = n at hfront
  rw [trimZeros, hn]
  split_ifs with hzero
  · rw [value, value, hzero, Nat.cast_zero, zero_mul, zero_mul]
  · have hdiv : d.digits / Nat.pow 10 n = front := by
      rw [hfront]
      exact Nat.mul_div_cancel_left front (by positivity)
    rw [hdiv, value, value, hfront]
    push_cast
    rw [add_comm, zpow_add₀ (by norm_num), zpow_natCast]
    ring

/-- The shortest decimal of a double is read as that double. -/
theorem toFloat_shortest {x : Float} {v : ℚ} (h : Magnitude x v) : (shortest x v).toFloat = x := by
  obtain ⟨m, e, hv⟩ := h.dyadic
  rw [shortest]
  split_ifs with hzero
  · rw [toFloat_eq_nearest, value, Nat.cast_zero, zero_mul, ← hzero, h.nearest_eq]
  · rw [toFloat_eq_nearest, trimZeros_value, ← toFloat_eq_nearest]
    cases hsearch : (List.range 17).findSome? fun n => closest? x v (n + 1) with
    | none =>
        rw [Option.getD_none, toFloat_eq_nearest, expansion_value hv, h.nearest_eq]
    | some d =>
        obtain ⟨n, _, hd⟩ := List.exists_of_findSome?_eq_some hsearch
        rw [Option.getD_some]
        exact toFloat_of_closest (h.rank_ne_zero hzero) hd

end PortArbiter.Decimal
