import PortArbiter.Decimal.Layout
import PortArbiter.Decimal.Reader
import PortArbiter.Proofs.Decimal.Shortest
/-!
# Number texts read back

The plain text of a finite double is read as that double, the sign of a zero included.
-/

namespace PortArbiter

namespace Decimal

/-- Digits, possibly with a point and more digits, and the number that they spell. -/
inductive Spells : List Char → ℚ → Prop
  | whole {cs : List Char} (hne : cs ≠ []) (hdigits : ∀ c ∈ cs, c.isDigit = true) :
      Spells cs (ofDigits cs)
  | point {whole fraction : List Char} (hne : whole ≠ [])
      (hwhole : ∀ c ∈ whole, c.isDigit = true) (hfraction : ∀ c ∈ fraction, c.isDigit = true) :
      Spells (whole ++ '.' :: fraction)
        (ofDigits (whole ++ fraction) * 10 ^ (-(fraction.length : Int)))

/-! ## Writing -/

theorem toList_zeros (n : Nat) : (zeros n).toList = List.replicate n '0' := by
  rw [zeros, String.toList_ofList]

theorem isDigit_of_mem_zeros {n : Nat} {c : Char} (h : c ∈ List.replicate n '0') :
    c.isDigit = true := by
  rw [List.eq_of_mem_replicate h]
  rfl

theorem isDigit_of_mem_digits {n : Nat} {c : Char} (h : c ∈ Nat.toDigits 10 n) :
    c.isDigit = true :=
  Nat.isDigit_of_mem_toDigits (by omega) (by omega) h

theorem ofDigits_eq (cs : List Char) : ofDigits cs = Nat.ofDigitChars 10 cs 0 := rfl

theorem ofDigits_digits (n : Nat) : ofDigits (Nat.toDigits 10 n) = n := by
  rw [ofDigits_eq, Nat.ofDigitChars_ten_toDigits]

theorem ofDigits_append_zeros (n k : Nat) :
    ofDigits (Nat.toDigits 10 n ++ List.replicate k '0') = 10 ^ k * n := by
  rw [ofDigits_eq, Nat.ofDigitChars_append, Nat.ofDigitChars_ten_toDigits,
    Nat.ofDigitChars_replicate_zero]

theorem ofDigits_zeros_append (n k : Nat) :
    ofDigits (List.replicate k '0' ++ Nat.toDigits 10 n) = n := by
  rw [ofDigits_eq, Nat.ofDigitChars_append, Nat.ofDigitChars_replicate_zero, Nat.mul_zero,
    Nat.ofDigitChars_ten_toDigits]

/-! The point stands behind all digits, between two of them or in front of them all. -/

theorem length_repr (n : Nat) : (Nat.repr n).length = (Nat.toDigits 10 n).length := by
  rw [← String.length_toList, Nat.toList_repr]

theorem positional_whole {d : Decimal} {k : Nat} (hk : d.exponent = k) :
    d.positional = (Nat.repr d.digits ++ zeros k, true) := by
  rw [positional, if_pos (hk ▸ Int.natCast_nonneg k), hk, Int.toNat_natCast]

theorem positional_between {d : Decimal} {size : Nat} (hpos : 0 < size)
    (hsize : (size : Int) = (Nat.toDigits 10 d.digits).length + d.exponent)
    (hfraction : d.exponent < 0) :
    d.positional =
      (String.ofList ((Nat.toDigits 10 d.digits).take size) ++ "."
        ++ String.ofList ((Nat.toDigits 10 d.digits).drop size), false) := by
  rw [positional, length_repr, ← hsize, if_neg (by omega), if_pos (by omega), Nat.toList_repr,
    Int.toNat_natCast]

theorem positional_below {d : Decimal} {size : Nat}
    (hsize : -(size : Int) = (Nat.toDigits 10 d.digits).length + d.exponent)
    (hfraction : d.exponent < 0) :
    d.positional = ("0." ++ zeros size ++ Nat.repr d.digits, false) := by
  rw [positional, length_repr, ← hsize, if_neg (by omega), if_neg (by omega), Int.natAbs_neg,
    Int.natAbs_natCast]

theorem layout_cases (d : Decimal) :
    (∃ k : Nat, d.exponent = k) ∨ d.exponent < 0 ∧
      ((∃ size : Nat, 0 < size ∧ (size : Int) = (Nat.toDigits 10 d.digits).length + d.exponent) ∨
        ∃ size : Nat, -(size : Int) = (Nat.toDigits 10 d.digits).length + d.exponent) := by
  rcases Int.lt_or_le d.exponent 0 with hneg | hwhole
  · refine Or.inr ⟨hneg, ?_⟩
    rcases Int.lt_or_le 0 ((Nat.toDigits 10 d.digits).length + d.exponent) with hpoint | hbelow
    · exact Or.inl ⟨((Nat.toDigits 10 d.digits).length + d.exponent).toNat, by omega, by omega⟩
    · exact Or.inr ⟨((Nat.toDigits 10 d.digits).length + d.exponent).natAbs, by omega⟩
  · exact Or.inl (Int.eq_ofNat_of_zero_le hwhole)

theorem value_whole {d : Decimal} {k : Nat} (hk : d.exponent = k) :
    d.value = (ofDigits (Nat.toDigits 10 d.digits ++ List.replicate k '0') : ℚ) := by
  rw [ofDigits_append_zeros, value, hk, zpow_natCast]
  push_cast
  ring

theorem value_between {d : Decimal} {size : Nat}
    (hsize : (size : Int) = (Nat.toDigits 10 d.digits).length + d.exponent)
    (hfraction : d.exponent < 0) :
    d.value = ofDigits ((Nat.toDigits 10 d.digits).take size ++
      (Nat.toDigits 10 d.digits).drop size) *
        10 ^ (-(((Nat.toDigits 10 d.digits).drop size).length : Int)) := by
  have hexponent : -(((Nat.toDigits 10 d.digits).length - size : Nat) : Int) = d.exponent := by
    omega
  rw [List.take_append_drop, ofDigits_digits, List.length_drop, hexponent, value]

theorem value_below {d : Decimal} {size : Nat}
    (hsize : -(size : Int) = (Nat.toDigits 10 d.digits).length + d.exponent) :
    d.value = ofDigits (['0'] ++ (List.replicate size '0' ++ Nat.toDigits 10 d.digits)) *
      10 ^ (-((List.replicate size '0' ++ Nat.toDigits 10 d.digits).length : Int)) := by
  have hexponent : -((size + (Nat.toDigits 10 d.digits).length : Nat) : Int) = d.exponent := by
    omega
  have hzeros : ['0'] ++ (List.replicate size '0' ++ Nat.toDigits 10 d.digits) =
      List.replicate (size + 1) '0' ++ Nat.toDigits 10 d.digits := rfl
  rw [hzeros, ofDigits_zeros_append, List.length_append, List.length_replicate, hexponent, value]

theorem toList_repr_zeros (n k : Nat) :
    (Nat.repr n ++ zeros k).toList = Nat.toDigits 10 n ++ List.replicate k '0' := by
  rw [String.toList_append, Nat.toList_repr, toList_zeros]

theorem toList_point (front back : List Char) :
    (String.ofList front ++ "." ++ String.ofList back).toList = front ++ '.' :: back := by
  have hdot : ".".toList = ['.'] := rfl
  rw [String.toList_append, String.toList_append, hdot, String.toList_ofList,
    String.toList_ofList, List.append_assoc, List.singleton_append]

theorem toList_below (n k : Nat) :
    ("0." ++ zeros k ++ Nat.repr n).toList =
      ['0'] ++ '.' :: (List.replicate k '0' ++ Nat.toDigits 10 n) := by
  rw [String.toList_append, String.toList_append, toList_zeros, Nat.toList_repr]
  rfl

theorem isDigit_of_mem_padded {n k : Nat} {c : Char}
    (hc : c ∈ Nat.toDigits 10 n ∨ c ∈ List.replicate k '0') : c.isDigit = true :=
  hc.elim isDigit_of_mem_digits isDigit_of_mem_zeros

theorem isDigit_zero {c : Char} (hc : c ∈ ['0']) : c.isDigit = true := by
  rw [List.mem_singleton.1 hc]
  rfl

theorem positional_spells (d : Decimal) : Spells d.positional.1.toList d.value := by
  rcases d.layout_cases with ⟨k, hk⟩ | ⟨hneg, ⟨size, hpos, hsize⟩ | ⟨size, hsize⟩⟩
  · rw [positional_whole hk, toList_repr_zeros, value_whole hk]
    exact Spells.whole (List.append_ne_nil_of_left_ne_nil Nat.toDigits_ne_nil _)
      fun c hc => isDigit_of_mem_padded (List.mem_append.1 hc)
  · have hsome : (Nat.toDigits 10 d.digits).take size ≠ [] := by
      have := Nat.length_toDigits_pos (b := 10) (n := d.digits)
      rw [← List.length_pos_iff_ne_nil, List.length_take]
      omega
    rw [positional_between hpos hsize hneg, toList_point, value_between hsize hneg]
    exact Spells.point hsome (fun c hc => isDigit_of_mem_digits (List.mem_of_mem_take hc))
      fun c hc => isDigit_of_mem_digits (List.mem_of_mem_drop hc)
  · rw [positional_below hsize hneg, toList_below, value_below hsize]
    exact Spells.point (List.cons_ne_nil _ _) (fun c hc => isDigit_zero hc)
      fun c hc => isDigit_of_mem_padded (List.mem_append.1 hc).symm

theorem plain_text (d : Decimal) : d.text .plain = d.positional.1 := by
  simp only [text, NumberStyle.plain, Bool.false_eq_true, false_and, and_false, if_false]

theorem text_spells (d : Decimal) : Spells (d.text .plain).toList d.value := by
  rw [plain_text]
  exact d.positional_spells

/-! ## Reading -/

theorem spanDigits_all {cs : List Char} (h : ∀ c ∈ cs, c.isDigit = true) :
    spanDigits cs = (cs, []) := by
  rw [spanDigits, List.takeWhile_eq_self_iff.2 h, List.dropWhile_eq_nil_iff.2 h]

theorem spanDigits_point {cs rest : List Char} (h : ∀ c ∈ cs, c.isDigit = true) :
    spanDigits (cs ++ '.' :: rest) = (cs, '.' :: rest) := by
  rw [spanDigits, List.takeWhile_append_of_pos h, List.dropWhile_append_of_pos h]
  have hpoint : ¬ '.'.isDigit = true := by decide
  rw [List.takeWhile_cons_of_neg hpoint, List.dropWhile_cons_of_neg hpoint, List.append_nil]

theorem Spells.parse {cs : List Char} {v : ℚ} (h : Spells cs v) :
    ∃ d, parse? cs = some d ∧ d.value = v := by
  cases h with
  | whole hne hdigits =>
      have hempty : ¬ (cs.isEmpty = true ∧ ([] : List Char).isEmpty = true) := by
        rw [List.isEmpty_iff]
        exact fun h => hne h.1
      refine ⟨⟨ofDigits (cs ++ []), 0 - ((0 : Nat) : Int)⟩, ?_, ?_⟩
      · rw [parse?, spanDigits_all hdigits]
        exact if_neg hempty
      · rw [value, List.append_nil, Nat.cast_zero, sub_zero, zpow_zero, mul_one]
  | @point whole fraction hne hwhole hfraction =>
      have hempty : ¬ (whole.isEmpty = true ∧ fraction.isEmpty = true) := by
        rw [List.isEmpty_iff]
        exact fun h => hne h.1
      refine ⟨⟨ofDigits (whole ++ fraction), 0 - (fraction.length : Int)⟩, ?_, ?_⟩
      · simp only [parse?, spanDigits_point hwhole, spanDigits_all hfraction]
        exact if_neg hempty
      · rw [value, zero_sub]

theorem Spells.head {cs : List Char} {v : ℚ} (h : Spells cs v) :
    ∃ c rest, cs = c :: rest ∧ c.isDigit = true := by
  cases h with
  | whole hne hdigits =>
      obtain ⟨c, rest, rfl⟩ := List.exists_cons_of_ne_nil hne
      exact ⟨c, rest, rfl, hdigits c List.mem_cons_self⟩
  | point hne hwhole _ =>
      obtain ⟨c, rest, rfl⟩ := List.exists_cons_of_ne_nil hne
      exact ⟨c, _, rfl, hwhole c List.mem_cons_self⟩

theorem Spells.mem {cs : List Char} {v : ℚ} (h : Spells cs v) {c : Char} (hc : c ∈ cs) :
    c.isDigit = true ∨ c = '.' := by
  cases h with
  | whole _ hdigits => exact Or.inl (hdigits c hc)
  | point _ hwhole hfraction =>
      rcases List.mem_append.1 hc with hc | hc
      · exact Or.inl (hwhole c hc)
      · rcases List.mem_cons.1 hc with hc | hc
        · exact Or.inr hc
        · exact Or.inl (hfraction c hc)

theorem parse?_text (d : Decimal) :
    ∃ d', parse? (d.text .plain).toList = some d' ∧ d'.toFloat = d.toFloat := by
  obtain ⟨d', hparse, hvalue⟩ := d.text_spells.parse
  refine ⟨d', hparse, ?_⟩
  rw [Double.toFloat_eq_nearest, Double.toFloat_eq_nearest, hvalue]

end Decimal

/-! ## Signs and words -/

theorem toLower_digit {c : Char} (h : c.isDigit = true) : c.toLower = c := by
  rw [Char.toLower, dif_neg]
  simp only [Char.isDigit, Bool.and_eq_true, decide_eq_true_eq] at h
  have hlow : c.val ≤ 57 := h.2
  intro hupper
  have hhigh : 65 ≤ c.val := hupper.1
  exact absurd (UInt32.le_trans hhigh hlow) (by decide)

theorem word_ne {c : Char} {rest : List Char} (h : c.isDigit = true) {first : Char} {word : String}
    {more : List Char} (hword : word.toList = first :: more) (hfirst : first.isDigit = false) :
    String.ofList ((c :: rest).map Char.toLower) ≠ word := by
  intro heq
  have hchars := congrArg String.toList heq
  rw [String.toList_ofList, List.map_cons, toLower_digit h, hword] at hchars
  rw [← (List.cons.inj hchars).1, h] at hfirst
  cases hfirst

theorem readNumber?_digit {s : String} {negative : Bool} {c : Char} {rest : List Char}
    (hsign : Decimal.spanSign s.toList = (negative, c :: rest)) (hc : c.isDigit = true) :
    readNumber? s = ((Decimal.parse? (c :: rest)).map Decimal.toFloat).map fun x =>
      if negative then -x else x := by
  have hinf : String.ofList ((c :: rest).map Char.toLower) ≠ "inf" := word_ne hc rfl rfl
  have hinfinity : String.ofList ((c :: rest).map Char.toLower) ≠ "infinity" := word_ne hc rfl rfl
  have hnan : String.ofList ((c :: rest).map Char.toLower) ≠ "nan" := word_ne hc rfl rfl
  simp only [readNumber?, hsign, if_neg (not_or.2 ⟨hinf, hinfinity⟩), if_neg hnan]

theorem toList_minus (s : String) : (signed true s).toList = '-' :: s.toList := by
  rw [signed, if_pos rfl, String.toList_append]
  rfl

theorem spanSign_digit {c : Char} (hc : c.isDigit = true) (cs : List Char) :
    Decimal.spanSign (c :: cs) = (false, c :: cs) := by
  rw [Decimal.spanSign]
  all_goals
    rintro more heq
    rw [(List.cons.inj heq).1] at hc
    cases hc

theorem spanSign_signed (negative : Bool) {s : String} {c : Char} {more : List Char}
    (hs : s.toList = c :: more) (hc : c.isDigit = true) (rest : List Char) :
    Decimal.spanSign ((signed negative s).toList ++ rest) = (negative, s.toList ++ rest) := by
  cases negative with
  | true =>
      rw [toList_minus]
      rfl
  | false =>
      have hsame : signed false s = s := rfl
      rw [hsame, hs]
      exact spanSign_digit hc _

theorem text_finite (style : NumberStyle) {x : Float} {negative : Bool} {v : ℚ}
    (h : Reading.ofFloat x = .finite negative v) :
    style.text x = signed negative ((Decimal.shortest x.abs v).text style) := by
  rw [NumberStyle.text, h]

/-- The plain text of a finite double is read as that double. -/
theorem readNumber?_text {x : Float} (hx : x.isFinite = true) :
    readNumber? (NumberStyle.plain.text x) = some x := by
  obtain ⟨negative, v, hreading, hmagnitude, hsigned⟩ := Double.reading_finite hx
  obtain ⟨d, hparse, hvalue⟩ := (Decimal.shortest x.abs v).parse?_text
  obtain ⟨c, rest, hchars, hc⟩ := (Decimal.shortest x.abs v).text_spells.head
  have hsign := spanSign_signed negative hchars hc []
  rw [List.append_nil, List.append_nil, hchars] at hsign
  rw [text_finite _ hreading, readNumber?_digit hsign hc, ← hchars, hparse, Option.map_some,
    Option.map_some, hvalue, Decimal.toFloat_shortest hmagnitude, hsigned]

theorem mem_text {x : Float} (hx : x.isFinite = true) {c : Char}
    (hc : c ∈ (NumberStyle.plain.text x).toList) : c.isDigit = true ∨ c = '.' ∨ c = '-' := by
  obtain ⟨negative, v, hreading, _, _⟩ := Double.reading_finite hx
  have hdecimal : ∀ c ∈ ((Decimal.shortest x.abs v).text .plain).toList,
      c.isDigit = true ∨ c = '.' := fun c => (Decimal.shortest x.abs v).text_spells.mem
  rw [text_finite _ hreading] at hc
  cases negative with
  | true =>
      rw [signed, if_pos rfl, String.toList_append] at hc
      rcases List.mem_append.1 hc with hc | hc
      · exact Or.inr (Or.inr (List.mem_singleton.1 hc))
      · exact (hdecimal c hc).imp id Or.inl
  | false =>
      rw [signed, if_neg Bool.false_ne_true] at hc
      exact (hdecimal c hc).imp id Or.inl

end PortArbiter
