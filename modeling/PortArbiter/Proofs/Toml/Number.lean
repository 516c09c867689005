import PortArbiter.Proofs.Decimal.ReadBack
import PortArbiter.Toml.Number
/-!
# Numbers of a document read back

A finite double is written with a point and digits on both sides of it, so that a document cannot
take it for a whole number or a time of day, and it is read back as that double.
-/

namespace PortArbiter

namespace Decimal

/-! ## Writing -/

/-- Digits on both sides of a point, and the number that they spell. A zero in front of the point
stands alone. -/
inductive Pointed : List Char → ℚ → Prop
  | mk {whole fraction : List Char} (hwhole : ∀ c ∈ whole, c.isDigit = true)
      (hne : whole ≠ []) (hstart : whole = ['0'] ∨ whole.head? ≠ some '0')
      (hfraction : ∀ c ∈ fraction, c.isDigit = true) (hsome : fraction ≠ []) :
      Pointed (whole ++ '.' :: fraction)
        (ofDigits (whole ++ fraction) * 10 ^ (-(fraction.length : Int)))

theorem head?_toDigits {n : Nat} (hn : 0 < n) : (Nat.toDigits 10 n).head? ≠ some '0' := by
  induction n using Nat.strongRecOn with
  | _ n ih =>
      by_cases hsmall : n < 10
      · rw [Nat.toDigits_of_lt_base hsmall]
        have hdigit : ∀ n < 10, 0 < n → [Nat.digitChar n].head? ≠ some '0' := by decide
        exact hdigit n hsmall hn
      · rw [Nat.toDigits_of_base_le (by omega) (by omega),
          List.head?_append_of_ne_nil _ Nat.toDigits_ne_nil]
        exact ih (n / 10) (by omega) (by omega)

/-- A shortest decimal is zero in one way only. -/
theorem exponent_shortest {x : Float} {v : ℚ} (h : (shortest x v).digits = 0) :
    (shortest x v).exponent = 0 := by
  rw [shortest] at h ⊢
  split_ifs at h ⊢ with hzero
  · rfl
  · generalize ((List.range 17).findSome? _).getD (expansion v) = d at h ⊢
    have hvalue := trimZeros_value d
    rw [trimZeros] at h hvalue ⊢
    split_ifs at h hvalue ⊢ with hdigits
    · rfl
    · dsimp only at h
      rw [value, value, h, Nat.cast_zero, zero_mul, eq_comm, mul_eq_zero] at hvalue
      rcases hvalue with hnone | hpower
      · exact absurd (Nat.cast_eq_zero.1 hnone) hdigits
      · exact absurd hpower (zpow_ne_zero _ (by norm_num))

theorem document_text (d : Decimal) :
    d.text .document = if d.positional.2 then d.positional.1 ++ ".0" else d.positional.1 := by
  simp only [text, NumberStyle.document, Bool.false_eq_true, false_and, and_true, if_false]

theorem pointed_whole {d : Decimal} {k : Nat} (hk : d.exponent = k)
    (hzero : d.digits = 0 → d.exponent = 0) :
    Pointed ((Nat.toDigits 10 d.digits ++ List.replicate k '0') ++ '.' :: ['0']) d.value := by
  have hvalue : d.value =
      ofDigits ((Nat.toDigits 10 d.digits ++ List.replicate k '0') ++ ['0']) *
        10 ^ (-((['0'] : List Char).length : Int)) := by
    have hzeros : List.replicate k '0' ++ ['0'] = List.replicate (k + 1) '0' :=
      List.replicate_succ'.symm
    rw [value_whole hk, List.append_assoc, hzeros, ofDigits_append_zeros, ofDigits_append_zeros,
      List.length_singleton, pow_succ]
    push_cast
    ring
  rw [hvalue]
  refine Pointed.mk (fun c hc => isDigit_of_mem_padded (List.mem_append.1 hc))
    (List.append_ne_nil_of_left_ne_nil Nat.toDigits_ne_nil _) ?_ (fun c hc => isDigit_zero hc)
    (List.cons_ne_nil _ _)
  rcases Nat.eq_zero_or_pos d.digits with hdigits | hdigits
  · obtain rfl : k = 0 := by
      have := hzero hdigits
      omega
    rw [hdigits]
    exact Or.inl rfl
  · rw [List.head?_append_of_ne_nil _ Nat.toDigits_ne_nil]
    exact Or.inr (head?_toDigits hdigits)

theorem pointed_between {d : Decimal} {size : Nat} (hpos : 0 < size)
    (hsize : (size : Int) = (Nat.toDigits 10 d.digits).length + d.exponent)
    (hneg : d.exponent < 0) (hdigits : 0 < d.digits) :
    Pointed ((Nat.toDigits 10 d.digits).take size ++ '.' :: (Nat.toDigits 10 d.digits).drop size)
      d.value := by
  have hsome : 0 < (Nat.toDigits 10 d.digits).length := Nat.length_toDigits_pos
  have hfront : (Nat.toDigits 10 d.digits).take size ≠ [] := by
    rw [← List.length_pos_iff_ne_nil, List.length_take]
    omega
  have hback : (Nat.toDigits 10 d.digits).drop size ≠ [] := by
    rw [← List.length_pos_iff_ne_nil, List.length_drop]
    omega
  rw [value_between hsize hneg]
  refine Pointed.mk (fun c hc => isDigit_of_mem_digits (List.mem_of_mem_take hc)) hfront
    (Or.inr ?_) (fun c hc => isDigit_of_mem_digits (List.mem_of_mem_drop hc)) hback
  rw [List.head?_take, if_neg (by omega)]
  exact head?_toDigits hdigits

theorem pointed_below {d : Decimal} {size : Nat}
    (hsize : -(size : Int) = (Nat.toDigits 10 d.digits).length + d.exponent) :
    Pointed (['0'] ++ '.' :: (List.replicate size '0' ++ Nat.toDigits 10 d.digits)) d.value := by
  rw [value_below hsize]
  exact Pointed.mk (fun c hc => isDigit_zero hc) (List.cons_ne_nil _ _) (Or.inl rfl)
    (fun c hc => isDigit_of_mem_padded (List.mem_append.1 hc).symm)
    (List.append_ne_nil_of_right_ne_nil _ Nat.toDigits_ne_nil)

theorem document_text_pointed {d : Decimal} (hzero : d.digits = 0 → d.exponent = 0) :
    Pointed (d.text .document).toList d.value := by
  rw [document_text]
  rcases d.layout_cases with ⟨k, hk⟩ | ⟨hneg, ⟨size, hpos, hsize⟩ | ⟨size, hsize⟩⟩
  · have hpoint : ".0".toList = '.' :: ['0'] := rfl
    rw [positional_whole hk, if_pos rfl, String.toList_append, toList_repr_zeros, hpoint]
    exact pointed_whole hk hzero
  · have hdigits : 0 < d.digits := by
      refine Nat.pos_of_ne_zero fun h => ?_
      have := hzero h
      omega
    rw [positional_between hpos hsize hneg, if_neg Bool.false_ne_true, toList_point]
    exact pointed_between hpos hsize hneg hdigits
  · rw [positional_below hsize hneg, if_neg Bool.false_ne_true, toList_below]
    exact pointed_below hsize

end Decimal

namespace Toml

/-! ## No dates and times -/

def BeforePoint (cs : List Char) : Prop :=
  ∃ whole rest, cs = whole ++ '.' :: rest ∧ ∀ c ∈ whole, c.isDigit = true

theorem BeforePoint.of_twoDigits? {least most n : Nat} {cs rest : List Char} (h : BeforePoint cs)
    (hdigits : twoDigits? least most cs = some (n, rest)) : BeforePoint rest := by
  obtain ⟨whole, after, rfl, hwhole⟩ := h
  match whole with
  | [] =>
      cases after with
      | nil => cases hdigits
      | cons c after =>
          rw [List.nil_append, twoDigits?] at hdigits
          split_ifs at hdigits with hc
          cases hc.1
  | [a] =>
      rw [List.singleton_append, twoDigits?] at hdigits
      split_ifs at hdigits with hc
      cases hc.2.1
  | a :: b :: whole =>
      rw [List.cons_append, List.cons_append, twoDigits?] at hdigits
      split_ifs at hdigits with hc
      cases hdigits
      exact ⟨whole, after, rfl, fun c hc =>
        hwhole c (List.mem_cons_of_mem _ (List.mem_cons_of_mem _ hc))⟩

theorem BeforePoint.expect? {cs : List Char} (h : BeforePoint cs) {d : Char}
    (hd : d.isDigit = false) (hpoint : d ≠ '.') : expect? d cs = none := by
  obtain ⟨whole, rest, rfl, hwhole⟩ := h
  cases whole with
  | nil => rw [List.nil_append, Toml.expect?, if_neg hpoint.symm]
  | cons c whole =>
      have hc : c ≠ d := by
        rintro rfl
        rw [hwhole c List.mem_cons_self] at hd
        cases hd
      rw [List.cons_append, Toml.expect?, if_neg hc]

theorem BeforePoint.date? {cs : List Char} (h : BeforePoint cs) : date? cs = none := by
  rw [Toml.date?]
  cases hfirst : twoDigits? 0 99 cs with
  | none => rfl
  | some first =>
      cases hsecond : twoDigits? 0 99 first.2 with
      | none => simp only [Option.bind_eq_bind, Option.bind_some, hsecond, Option.bind_none]
      | some second =>
          have hyear := (h.of_twoDigits? hfirst).of_twoDigits? hsecond
          simp only [Option.bind_eq_bind, Option.bind_some, hsecond,
            hyear.expect? (d := '-') rfl (by decide), Option.bind_none]

theorem BeforePoint.clockTime? {cs : List Char} (h : BeforePoint cs) : clockTime? cs = none := by
  rw [Toml.clockTime?]
  cases hfirst : twoDigits? 0 23 cs with
  | none => rfl
  | some first =>
      have hhour := h.of_twoDigits? hfirst
      simp only [Option.bind_eq_bind, Option.bind_some,
        hhour.expect? (d := ':') rfl (by decide), Option.bind_none]

theorem BeforePoint.moment? {cs : List Char} (h : BeforePoint cs) : moment? cs = none := by
  rw [Toml.moment?, h.date?]
  exact h.clockTime?

theorem moment?_minus (cs : List Char) : moment? ('-' :: cs) = none := by
  have hdigits : ∀ least most, twoDigits? least most ('-' :: cs) = none := by
    intro least most
    cases cs with
    | nil => rfl
    | cons c cs =>
        rw [twoDigits?]
        split_ifs with hc
        · cases hc.1
        · rfl
  rw [moment?, date?, clockTime?, hdigits, hdigits]
  rfl

/-! ## Reading -/

theorem moreDigits_stop {cs : List Char} (hcs : ∀ c ∈ cs, c.isDigit = true) {c : Char}
    (hc : c.isDigit = false) (hline : c ≠ '_') (rest : List Char) :
    moreDigits Char.isDigit (cs ++ c :: rest) = some (cs, c :: rest) := by
  induction cs with
  | nil =>
      rw [List.nil_append, moreDigits]
      · rw [if_neg (Bool.eq_false_iff.1 hc), if_neg hline]
      · exact fun _ _ heq => absurd heq hline
  | cons d cs ih =>
      obtain ⟨hd, hcs⟩ := List.forall_mem_cons.1 hcs
      rw [List.cons_append, moreDigits]
      · rw [if_pos hd, ih hcs, Option.map_some]
      · rintro _ _ rfl
        cases hd

theorem digits?_stop {cs : List Char} (hcs : ∀ c ∈ cs, c.isDigit = true) (hne : cs ≠ []) {c : Char}
    (hc : c.isDigit = false) (hline : c ≠ '_') (rest : List Char) :
    digits? Char.isDigit (cs ++ c :: rest) = some (cs, c :: rest) := by
  obtain ⟨d, cs, rfl⟩ := List.exists_cons_of_ne_nil hne
  obtain ⟨hd, hcs⟩ := List.forall_mem_cons.1 hcs
  rw [List.cons_append, digits?, if_pos hd, moreDigits_stop hcs hc hline, Option.map_some]

theorem wholeDigits?_stop {cs : List Char} (hcs : ∀ c ∈ cs, c.isDigit = true) (hne : cs ≠ [])
    (hstart : cs = ['0'] ∨ cs.head? ≠ some '0') (rest : List Char) :
    wholeDigits? (cs ++ '.' :: rest) = some (cs, '.' :: rest) := by
  rcases hstart with rfl | hstart
  · rfl
  · rw [wholeDigits?]
    · exact digits?_stop hcs hne rfl (by decide) rest
    · rintro more heq
      obtain ⟨d, cs, rfl⟩ := List.exists_cons_of_ne_nil hne
      rw [(List.cons.inj heq).1] at hstart
      exact hstart rfl

theorem decimal?_of_pointed {cs : List Char} {v : ℚ} (h : Decimal.Pointed cs v)
    (rest : List Char) :
    ∃ d, decimal? (cs ++ '\n' :: rest) = some (d, '\n' :: rest) ∧ d.value = v := by
  obtain @⟨whole, fraction, hwhole, hne, hstart, hfraction, hsome⟩ := h
  refine ⟨⟨Decimal.ofDigits (whole ++ fraction), 0 - (fraction.length : Int)⟩, ?_, ?_⟩
  · rw [List.append_assoc, List.cons_append, decimal?, wholeDigits?_stop hwhole hne hstart]
    simp only [Option.bind_eq_bind, Option.bind_some,
      digits?_stop hfraction hsome (c := '\n') rfl (by decide)]
    rfl
  · rw [Decimal.value, zero_sub]

theorem head_of_pointed {cs : List Char} {v : ℚ} (h : Decimal.Pointed cs v) :
    ∃ c more, cs = c :: more ∧ c.isDigit = true := by
  obtain @⟨whole, fraction, hwhole, hne, -, -, -⟩ := h
  obtain ⟨c, whole, rfl⟩ := List.exists_cons_of_ne_nil hne
  exact ⟨c, _, rfl, hwhole c List.mem_cons_self⟩

theorem beforePoint_of_pointed {cs : List Char} {v : ℚ} (h : Decimal.Pointed cs v)
    (rest : List Char) : BeforePoint (cs ++ rest) := by
  obtain @⟨whole, fraction, hwhole, -, -, -, -⟩ := h
  exact ⟨whole, fraction ++ rest, List.append_assoc _ _ _, hwhole⟩

theorem wordNumber?_digit {c : Char} (hc : c.isDigit = true) (cs : List Char) :
    wordNumber? (c :: cs) = none := by
  rw [wordNumber?]
  all_goals
    rintro more heq
    rw [(List.cons.inj heq).1] at hc
    cases hc

theorem moment?_signed {negative : Bool} {s : String} {v : ℚ} (h : Decimal.Pointed s.toList v)
    (rest : List Char) : moment? ((signed negative s).toList ++ rest) = none := by
  cases negative with
  | true =>
      rw [toList_minus]
      exact moment?_minus _
  | false => exact (beforePoint_of_pointed h rest).moment?

/-- The text that a document has for a finite double is read as that double. -/
theorem number?_text {x : Float} (hx : x.isFinite = true) (rest : List Char) :
    number? ((NumberStyle.document.text x).toList ++ '\n' :: rest) =
      some (.float x, '\n' :: rest) := by
  obtain ⟨negative, v, hreading, hmagnitude, hsigned⟩ := Double.reading_finite hx
  have hpointed := Decimal.document_text_pointed (d := Decimal.shortest x.abs v)
    Decimal.exponent_shortest
  obtain ⟨d, hdecimal, hvalue⟩ := decimal?_of_pointed hpointed rest
  obtain ⟨c, more, hs, hc⟩ := head_of_pointed hpointed
  have hfloat : d.toFloat = x.abs := by
    rw [← Decimal.toFloat_shortest hmagnitude, Double.toFloat_eq_nearest,
      Double.toFloat_eq_nearest, hvalue]
  have hword : wordNumber? (((Decimal.shortest x.abs v).text .document).toList ++ '\n' :: rest) =
      none := by
    rw [hs]
    exact wordNumber?_digit hc _
  have hread : float? ((NumberStyle.document.text x).toList ++ '\n' :: rest) =
      some (.float x, '\n' :: rest) := by
    rw [text_finite _ hreading]
    simp only [float?, spanSign_signed negative hs hc, hword, hdecimal, Option.bind_eq_bind,
      Option.bind_some, hfloat, Double.isInf_abs hx, hsigned]
    rfl
  rw [number?, text_finite _ hreading, moment?_signed hpointed, ← text_finite _ hreading, hread]
  rfl

theorem head_text {x : Float} (hx : x.isFinite = true) :
    ∃ c more, (NumberStyle.document.text x).toList = c :: more ∧ (c.isDigit = true ∨ c = '-') := by
  obtain ⟨negative, v, hreading, -, -⟩ := Double.reading_finite hx
  obtain ⟨c, more, hs, hc⟩ := head_of_pointed
    (Decimal.document_text_pointed (d := Decimal.shortest x.abs v) Decimal.exponent_shortest)
  rw [text_finite _ hreading]
  cases negative with
  | true => exact ⟨'-', _, toList_minus _, Or.inr rfl⟩
  | false => exact ⟨c, more, hs, Or.inl hc⟩

end Toml

end PortArbiter
