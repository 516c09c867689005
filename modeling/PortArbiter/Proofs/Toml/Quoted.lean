import PortArbiter.Toml.Quoted
import Mathlib.Data.List.Basic
/-!
# Quoted texts read back

Whichever form the writer takes for a text, the reader finds the text and stops right behind it. The
two forms with escapes hold every text; the two literal ones hold what they are taken for.
-/

namespace PortArbiter.Toml

/-! ## Escapes -/

theorem hexDigits_readBack :
    ∀ n < 128, (Form.hexDigits n).length = 4 ∧ ofDigits? 16 (Form.hexDigits n) = some n := by
  decide +kernel

theorem codePoint?_hexDigits {c : Char} (hc : c.toNat < 128) (rest : List Char) :
    codePoint? 4 (Form.hexDigits c.toNat ++ rest) = some (c, rest) := by
  obtain ⟨hlength, hvalue⟩ := hexDigits_readBack c.toNat hc
  have hvalid : c.toNat.isValidChar := Or.inl (by omega)
  simp only [codePoint?, List.take_left' hlength, List.drop_left' hlength, hvalue]
  rw [if_pos ⟨hlength, hvalid⟩, Char.ofNat_toNat]

theorem lt_of_not_isPrintable {c : Char} (h : isPrintable c = false) : c.toNat < 128 := by
  simp only [isPrintable, Bool.or_eq_false_iff, Bool.and_eq_false_iff, decide_eq_false_iff_not] at h
  omega

/-- An escape is a backslash with what the reader makes the character of. -/
theorem unescape?_of_escape? {c : Char} {text : List Char} (h : Form.escape? c = some text) :
    ∃ code, text = '\\' :: code ∧ ∀ rest, unescape? (code ++ rest) = some (c, rest) := by
  unfold Form.escape? at h
  split at h
  case h_6 =>
    split_ifs at h with hprintable
    cases h
    have hcontrol := lt_of_not_isPrintable (Bool.not_eq_true _ ▸ hprintable)
    exact ⟨_, rfl, fun rest => codePoint?_hexDigits hcontrol rest⟩
  all_goals
    cases h
    exact ⟨_, rfl, fun _ => rfl⟩

theorem isPrintable_of_escape? {c : Char} (h : Form.escape? c = none) :
    isPrintable c = true ∧ c ≠ '\\' := by
  unfold Form.escape? at h
  split at h
  case h_6 hbackslash =>
    split_ifs at h with hprintable
    exact ⟨hprintable, hbackslash⟩
  all_goals cases h

theorem newline?_of_unescape? {cs rest : List Char} {c : Char}
    (h : unescape? cs = some (c, rest)) : newline? (skipBlanks cs) = none := by
  unfold unescape? at h
  split at h
  case h_10 => cases h
  all_goals rfl

/-! ## Escapes on one line -/

theorem basicRest_plain {c : Char} {cs body rest : List Char} (hc : isPrintable c = true)
    (hquote : c ≠ '"') (hbackslash : c ≠ '\\') (h : basicRest cs = some (body, rest)) :
    basicRest (c :: cs) = some (c :: body, rest) := by
  rw [basicRest]
  · rw [if_pos hc, h, Option.map_some]
  · exact hquote
  · exact hbackslash

theorem basicRest_escape {c : Char} {cs body rest : List Char} (code : List Char)
    (hcode : unescape? (code ++ cs) = some (c, cs)) (h : basicRest cs = some (body, rest)) :
    basicRest ('\\' :: (code ++ cs)) = some (c :: body, rest) := by
  rw [basicRest]
  split
  · rename_i hnone
    rw [hcode] at hnone
    cases hnone
  · rename_i hsome
    rw [hcode] at hsome
    cases hsome
    rw [h, Option.map_some]

theorem basicRest_escapeAll (run : Nat) (cs rest : List Char) :
    basicRest (Form.escapeAll false 0 run cs ++ '"' :: rest) = some (cs, rest) := by
  fun_induction Form.escapeAll false 0 run cs with
  | case1 run => rw [List.nil_append, basicRest]
  | case2 run cs hrun => exact absurd hrun (Nat.not_lt_zero run)
  | case3 run cs hrun ih => exact basicRest_escape ['"'] rfl ih
  | case4 run cs ih => exact basicRest_escape ['n'] rfl ih
  | case5 run c cs hquote hline ih =>
      cases hescape : Form.escape? c with
      | none =>
          obtain ⟨hprintable, hbackslash⟩ := isPrintable_of_escape? hescape
          exact basicRest_plain hprintable hquote hbackslash ih
      | some text =>
          obtain ⟨code, rfl, hcode⟩ := unescape?_of_escape? hescape
          rw [Option.getD_some, List.append_assoc]
          exact basicRest_escape code (hcode _) ih

/-! ## Escapes in a block -/

theorem basicBlockRest_plain {c : Char} {cs body rest : List Char}
    (hc : isPrintable c = true ∨ c = '\n') (hquote : c ≠ '"') (hbackslash : c ≠ '\\')
    (h : basicBlockRest cs = some (body, rest)) :
    basicBlockRest (c :: cs) = some (c :: body, rest) := by
  have hreturn : c ≠ '\r' := by
    rintro rfl
    revert hc
    decide
  rw [basicBlockRest]
  · rw [if_pos hc, h, Option.map_some]
  all_goals simp_all

theorem basicBlockRest_escape {c : Char} {cs body rest : List Char} (code : List Char)
    (hcode : unescape? (code ++ cs) = some (c, cs)) (h : basicBlockRest cs = some (body, rest)) :
    basicBlockRest ('\\' :: (code ++ cs)) = some (c :: body, rest) := by
  have hline := newline?_of_unescape? hcode
  rw [basicBlockRest]
  split
  · rename_i hsome
    rw [hline] at hsome
    cases hsome
  · split
    · rename_i hnone
      rw [hcode] at hnone
      cases hnone
    · rename_i hsome
      rw [hcode] at hsome
      cases hsome
      rw [h, Option.map_some]

/-- A quote that cannot be the first of three belongs to the text. -/
theorem basicBlockRest_quote {cs body rest : List Char} (hcs : ¬ ['"', '"'] <+: cs)
    (h : basicBlockRest cs = some (body, rest)) :
    basicBlockRest ('"' :: cs) = some ('"' :: body, rest) := by
  have hquote : isPrintable '"' = true ∨ '"' = '\n' := Or.inl rfl
  rw [basicBlockRest]
  · rw [if_pos hquote, h, Option.map_some]
  · rintro more - rfl
    exact hcs ⟨_, rfl⟩
  · rintro more - rfl
    exact hcs ⟨_, rfl⟩
  · rintro more - rfl
    exact hcs ⟨_, rfl⟩
  · decide
  · rintro more heq
    cases heq

theorem basicBlockRest_quotes {run : Nat} {c : Char} {cs body rest : List Char} (hrun : run ≤ 2)
    (hc : c ≠ '"') (h : basicBlockRest (c :: cs) = some (body, rest)) :
    basicBlockRest (List.replicate run '"' ++ c :: cs) =
      some (List.replicate run '"' ++ body, rest) := by
  have hone : basicBlockRest ('"' :: c :: cs) = some ('"' :: body, rest) :=
    basicBlockRest_quote (fun hpre => hc (List.cons_prefix_cons.1 hpre).1.symm) h
  obtain _ | _ | _ | run := run
  · exact h
  · exact hone
  · refine basicBlockRest_quote (fun hpre => hc ?_) hone
    exact (List.cons_prefix_cons.1 (List.cons_prefix_cons.1 hpre).2).1.symm
  · omega

theorem basicBlockRest_close {run : Nat} {rest : List Char} (hrun : run ≤ 2)
    (hrest : rest.head? ≠ some '"') :
    basicBlockRest (List.replicate run '"' ++ '"' :: '"' :: '"' :: rest) =
      some (List.replicate run '"', rest) := by
  obtain _ | _ | _ | run := run
  · change basicBlockRest ('"' :: '"' :: '"' :: rest) = some ([], rest)
    rw [basicBlockRest]
    all_goals
      rintro cs rfl
      exact hrest rfl
  · change basicBlockRest ('"' :: '"' :: '"' :: '"' :: rest) = some (['"'], rest)
    rw [basicBlockRest]
    rintro cs rfl
    exact hrest rfl
  · change basicBlockRest ('"' :: '"' :: '"' :: '"' :: '"' :: rest) = some (['"', '"'], rest)
    rw [basicBlockRest]
  · omega

theorem replicate_append_cons_self (run : Nat) (q : Char) (cs : List Char) :
    List.replicate run q ++ q :: cs = List.replicate (run + 1) q ++ cs := by
  rw [List.replicate_succ', List.append_assoc, List.singleton_append]

/-- A text written with escapes is read back out of a block, together with quotes in front of it. -/
theorem basicBlockRest_escapeAll {run : Nat} (hrun : run ≤ 2) (cs : List Char) {rest : List Char}
    (hrest : rest.head? ≠ some '"') :
    basicBlockRest (List.replicate run '"' ++
        (Form.escapeAll true 2 run cs ++ '"' :: '"' :: '"' :: rest)) =
      some (List.replicate run '"' ++ cs, rest) := by
  -- the last quotes are kept apart, since only what follows tells whether they close the block
  fun_induction Form.escapeAll true 2 run cs with
  | case1 run =>
      rw [List.nil_append, List.append_nil]
      exact basicBlockRest_close hrun hrest
  | case2 run cs hfew ih =>
      rw [List.cons_append, replicate_append_cons_self, replicate_append_cons_self]
      exact ih hfew
  | case3 run cs hmany ih =>
      exact basicBlockRest_quotes hrun (by decide)
        (basicBlockRest_escape ['"'] rfl (ih (Nat.zero_le 2)))
  | case4 run cs ih =>
      exact basicBlockRest_quotes hrun (by decide)
        (basicBlockRest_plain (Or.inr rfl) (by decide) (by decide) (ih (Nat.zero_le 2)))
  | case5 run c cs hquote hline ih =>
      cases hescape : Form.escape? c with
      | none =>
          obtain ⟨hprintable, hbackslash⟩ := isPrintable_of_escape? hescape
          exact basicBlockRest_quotes hrun hquote
            (basicBlockRest_plain (Or.inl hprintable) hquote hbackslash (ih (Nat.zero_le 2)))
      | some text =>
          obtain ⟨code, rfl, hcode⟩ := unescape?_of_escape? hescape
          rw [Option.getD_some, List.append_assoc]
          exact basicBlockRest_quotes hrun (by decide)
            (basicBlockRest_escape code (hcode _) (ih (Nat.zero_le 2)))

/-! ## Literal texts -/

theorem le_longestRun (q : Char) (run : Nat) (cs : List Char) : run ≤ longestRun q run cs := by
  fun_induction longestRun q run cs with
  | case1 run => exact Nat.le_refl run
  | case2 run cs ih => omega
  | case3 run c cs hc ih => omega

theorem not_mem_of_longestRun {q : Char} {run : Nat} {cs : List Char}
    (h : longestRun q run cs = 0) : q ∉ cs := by
  fun_induction longestRun q run cs with
  | case1 run => exact List.not_mem_nil
  | case2 run cs ih =>
      have := le_longestRun q (run + 1) cs
      omega
  | case3 run c cs hc ih =>
      rw [List.mem_cons, not_or]
      exact ⟨Ne.symm hc, ih (by omega)⟩

theorem literalRest_text {cs : List Char} (hcs : ∀ c ∈ cs, isPrintable c = true)
    (hquote : '\'' ∉ cs) (rest : List Char) :
    literalRest (cs ++ '\'' :: rest) = some (cs, rest) := by
  induction cs with
  | nil => rfl
  | cons c cs ih =>
      obtain ⟨hc, hcs⟩ := List.forall_mem_cons.1 hcs
      obtain ⟨hfirst, hquote⟩ := not_or.1 (mt List.mem_cons.2 hquote)
      rw [List.cons_append, literalRest]
      · rw [if_pos hc, ih hcs hquote, Option.map_some]
      · exact Ne.symm hfirst

theorem literalBlockRest_plain {c : Char} {cs body rest : List Char}
    (hc : isPrintable c = true ∨ c = '\n') (hquote : c ≠ '\'')
    (h : literalBlockRest cs = some (body, rest)) :
    literalBlockRest (c :: cs) = some (c :: body, rest) := by
  have hreturn : c ≠ '\r' := by
    rintro rfl
    revert hc
    decide
  rw [literalBlockRest]
  · rw [if_pos hc, h, Option.map_some]
  all_goals simp_all

theorem literalBlockRest_quote {cs body rest : List Char} (hcs : ¬ ['\'', '\''] <+: cs)
    (h : literalBlockRest cs = some (body, rest)) :
    literalBlockRest ('\'' :: cs) = some ('\'' :: body, rest) := by
  have hquote : isPrintable '\'' = true ∨ '\'' = '\n' := Or.inl rfl
  rw [literalBlockRest]
  · rw [if_pos hquote, h, Option.map_some]
  · rintro more - rfl
    exact hcs ⟨_, rfl⟩
  · rintro more - rfl
    exact hcs ⟨_, rfl⟩
  · rintro more - rfl
    exact hcs ⟨_, rfl⟩
  · rintro more heq
    cases heq

theorem literalBlockRest_quotes {run : Nat} {c : Char} {cs body rest : List Char} (hrun : run ≤ 2)
    (hc : c ≠ '\'') (h : literalBlockRest (c :: cs) = some (body, rest)) :
    literalBlockRest (List.replicate run '\'' ++ c :: cs) =
      some (List.replicate run '\'' ++ body, rest) := by
  have hone : literalBlockRest ('\'' :: c :: cs) = some ('\'' :: body, rest) :=
    literalBlockRest_quote (fun hpre => hc (List.cons_prefix_cons.1 hpre).1.symm) h
  obtain _ | _ | _ | run := run
  · exact h
  · exact hone
  · refine literalBlockRest_quote (fun hpre => hc ?_) hone
    exact (List.cons_prefix_cons.1 (List.cons_prefix_cons.1 hpre).2).1.symm
  · omega

theorem literalBlockRest_close {run : Nat} {rest : List Char} (hrun : run ≤ 2)
    (hrest : rest.head? ≠ some '\'') :
    literalBlockRest (List.replicate run '\'' ++ '\'' :: '\'' :: '\'' :: rest) =
      some (List.replicate run '\'', rest) := by
  obtain _ | _ | _ | run := run
  · change literalBlockRest ('\'' :: '\'' :: '\'' :: rest) = some ([], rest)
    rw [literalBlockRest]
    all_goals
      rintro cs rfl
      exact hrest rfl
  · change literalBlockRest ('\'' :: '\'' :: '\'' :: '\'' :: rest) = some (['\''], rest)
    rw [literalBlockRest]
    rintro cs rfl
    exact hrest rfl
  · rfl
  · omega

theorem literalBlockRest_text (run : Nat) {cs rest : List Char}
    (hcs : ∀ c ∈ cs, isPrintable c = true ∨ c = '\n') (hruns : longestRun '\'' run cs ≤ 2)
    (hrest : rest.head? ≠ some '\'') :
    literalBlockRest (List.replicate run '\'' ++ (cs ++ '\'' :: '\'' :: '\'' :: rest)) =
      some (List.replicate run '\'' ++ cs, rest) := by
  fun_induction longestRun '\'' run cs with
  | case1 run =>
      rw [List.nil_append, List.append_nil]
      exact literalBlockRest_close hruns hrest
  | case2 run cs ih =>
      rw [List.cons_append, replicate_append_cons_self, replicate_append_cons_self]
      exact ih (List.forall_mem_cons.1 hcs).2 hruns
  | case3 run c cs hc ih =>
      obtain ⟨hplain, hcs⟩ := List.forall_mem_cons.1 hcs
      have hread := ih hcs (by omega)
      exact literalBlockRest_quotes (by omega) hc (literalBlockRest_plain hplain hc hread)

/-! ## All forms -/

def Form.Holds : Form → List Char → Prop
  | .basic, _ => True
  | .literal, cs => (∀ c ∈ cs, isPrintable c = true) ∧ '\'' ∉ cs
  | .basicBlock, _ => True
  | .literalBlock, cs =>
    (∀ c ∈ cs, isPrintable c = true ∨ c = '\n') ∧ longestRun '\'' 0 cs ≤ 2

theorem Form.choose_holds (cs : List Char) : (choose cs).Holds cs := by
  have hplain (h : ¬ (cs.any fun c => ¬ isPrintable c ∧ c ≠ '\n') = true) :
      ∀ c ∈ cs, isPrintable c = true ∨ c = '\n' := by
    intro c hc
    rw [List.any_eq_true, not_exists] at h
    have hfine := not_and.1 (h c) hc
    simp only [decide_eq_true_eq, not_and, not_not] at hfine
    by_cases hprintable : isPrintable c = true
    · exact Or.inl hprintable
    · exact Or.inr (hfine hprintable)
  unfold choose
  dsimp only
  split_ifs with hbasic hliteral hbasicBlock hliteralBlock hline
  · trivial
  · obtain ⟨hcontrols, hline, hruns⟩ := hliteral
    refine ⟨fun c hc => ?_, not_mem_of_longestRun hruns⟩
    rcases hplain hcontrols c hc with hprintable | rfl
    · exact hprintable
    · exact absurd (List.contains_iff_mem.2 hc) hline
  · trivial
  · exact ⟨hplain hliteralBlock.1, hliteralBlock.2⟩
  · trivial
  · trivial

/-- What a text with escapes begins with: a line break only if the text has one, and a quote only if
it may stand there. -/
theorem Form.head_escapeAll {block : Bool} {most run : Nat} {cs more : List Char} {d : Char}
    (h : escapeAll block most run cs = d :: more) :
    isPrintable d = true ∧ (d = '"' → run < most) ∨ d = '\n' ∧ '\n' ∈ cs := by
  have hbackslash : isPrintable '\\' = true ∧ ('\\' = '"' → run < most) := ⟨rfl, by simp⟩
  unfold escapeAll at h
  split at h
  · cases h
  · split_ifs at h with hrun
    · cases h
      exact Or.inl ⟨rfl, fun _ => hrun⟩
    · cases h
      exact Or.inl hbackslash
  · cases block with
    | true =>
        cases h
        exact Or.inr ⟨rfl, List.mem_cons_self⟩
    | false =>
        cases h
        exact Or.inl hbackslash
  · rename_i c cs hquote hline
    cases hescape : escape? c with
    | none =>
        rw [hescape] at h
        cases h
        exact Or.inl ⟨(isPrintable_of_escape? hescape).1, fun hc => absurd hc hquote⟩
    | some text =>
        obtain ⟨code, rfl, -⟩ := unescape?_of_escape? hescape
        rw [hescape] at h
        cases h
        exact Or.inl hbackslash

theorem newline?_of_isPrintable {c : Char} (hc : isPrintable c = true) (cs : List Char) :
    newline? (c :: cs) = none := by
  rw [newline?]
  all_goals
    rintro more hmore
    cases hmore
    cases hc

/-- A line break behind the opening of a block is skipped, and there is one if the text could
otherwise lose its own. -/
theorem skip_opening {cs body : List Char} (hbody : '\n' ∉ cs → newline? body = none) :
    (newline? (Form.opening cs ++ body)).getD (Form.opening cs ++ body) = body := by
  by_cases hline : '\n' ∈ cs
  · rw [Form.opening, if_pos (List.contains_iff_mem.2 hline)]
    rfl
  · rw [Form.opening, if_neg (mt List.contains_iff_mem.1 hline), List.nil_append, hbody hline]
    rfl

section Write

variable {cs rest : List Char}

theorem string?_basic (hquote : rest.head? ≠ some '"') :
    string? (Form.basic.write cs ++ rest) = some (String.ofList cs, rest) := by
  have hbody : ¬ ['"', '"'] <+: Form.escapeAll false 0 0 cs ++ '"' :: rest := by
    rintro ⟨more, hmore⟩
    cases hescaped : Form.escapeAll false 0 0 cs with
    | nil =>
        rw [hescaped] at hmore
        cases hmore
        exact hquote rfl
    | cons d ds =>
        rw [hescaped] at hmore
        obtain rfl : d = '"' := (List.cons.inj hmore).1.symm
        rcases Form.head_escapeAll hescaped with ⟨-, hrun⟩ | ⟨hline, -⟩
        · exact Nat.not_lt_zero 0 (hrun rfl)
        · cases hline
  have htext : Form.basic.write cs ++ rest =
      '"' :: (Form.escapeAll false 0 0 cs ++ '"' :: rest) := by
    simp only [Form.write, List.append_assoc, List.cons_append, List.nil_append]
  rw [htext, string?, basicRest_escapeAll]
  · rfl
  · rintro more hmore
    exact hbody ⟨more, hmore.symm⟩

theorem string?_literal (hcs : Form.literal.Holds cs) (hquote : rest.head? ≠ some '\'') :
    string? (Form.literal.write cs ++ rest) = some (String.ofList cs, rest) := by
  have hbody : ¬ ['\'', '\''] <+: cs ++ '\'' :: rest := by
    rintro ⟨more, hmore⟩
    cases cs with
    | nil =>
        cases hmore
        exact hquote rfl
    | cons c cs =>
        obtain rfl : c = '\'' := (List.cons.inj hmore).1.symm
        exact hcs.2 List.mem_cons_self
  have htext : Form.literal.write cs ++ rest = '\'' :: (cs ++ '\'' :: rest) := by
    simp only [Form.write, List.append_assoc, List.cons_append, List.nil_append]
  rw [htext, string?, literalRest_text hcs.1 hcs.2]
  · rfl
  · rintro more hmore
    exact hbody ⟨more, hmore.symm⟩

theorem string?_basicBlock (hquote : rest.head? ≠ some '"') :
    string? (Form.basicBlock.write cs ++ rest) = some (String.ofList cs, rest) := by
  have hbody (hline : '\n' ∉ cs) :
      newline? (Form.escapeAll true 2 0 cs ++ '"' :: '"' :: '"' :: rest) = none := by
    cases hescaped : Form.escapeAll true 2 0 cs with
    | nil => rfl
    | cons d ds =>
        rcases Form.head_escapeAll hescaped with ⟨hprintable, -⟩ | ⟨-, hmem⟩
        · exact newline?_of_isPrintable hprintable _
        · exact absurd hmem hline
  have htext : Form.basicBlock.write cs ++ rest = '"' :: '"' :: '"' ::
      (Form.opening cs ++ (Form.escapeAll true 2 0 cs ++ '"' :: '"' :: '"' :: rest)) := by
    simp only [Form.write, List.append_assoc, List.cons_append, List.nil_append]
  have hread := basicBlockRest_escapeAll (Nat.zero_le 2) cs hquote
  rw [List.replicate_zero, List.nil_append, List.nil_append] at hread
  rw [htext, string?, skip_opening hbody, hread]
  rfl

theorem string?_literalBlock (hcs : Form.literalBlock.Holds cs) (hquote : rest.head? ≠ some '\'') :
    string? (Form.literalBlock.write cs ++ rest) = some (String.ofList cs, rest) := by
  have hbody (hline : '\n' ∉ cs) : newline? (cs ++ '\'' :: '\'' :: '\'' :: rest) = none := by
    cases cs with
    | nil => rfl
    | cons c cs =>
        rcases hcs.1 c List.mem_cons_self with hprintable | rfl
        · exact newline?_of_isPrintable hprintable _
        · exact absurd List.mem_cons_self hline
  have htext : Form.literalBlock.write cs ++ rest = '\'' :: '\'' :: '\'' ::
      (Form.opening cs ++ (cs ++ '\'' :: '\'' :: '\'' :: rest)) := by
    simp only [Form.write, List.append_assoc, List.cons_append, List.nil_append]
  have hread := literalBlockRest_text 0 hcs.1 hcs.2 hquote
  rw [List.replicate_zero, List.nil_append, List.nil_append] at hread
  rw [htext, string?, skip_opening hbody, hread]
  rfl

end Write

/-- A quoted text is read back if no further quote stands right behind it. -/
theorem string?_quote (s : String) {rest : List Char} (hquote : rest.head? ≠ some '"')
    (hapostrophe : rest.head? ≠ some '\'') :
    string? ((quote s).toList ++ rest) = some (s, rest) := by
  have hholds := Form.choose_holds s.toList
  have hread : string? ((Form.choose s.toList).write s.toList ++ rest) =
      some (String.ofList s.toList, rest) := by
    cases hform : Form.choose s.toList with
    | basic => exact string?_basic hquote
    | literal => exact string?_literal (hform ▸ hholds) hapostrophe
    | basicBlock => exact string?_basicBlock hquote
    | literalBlock => exact string?_literalBlock (hform ▸ hholds) hapostrophe
  rw [quote, String.toList_ofList, hread, String.ofList_toList]

end PortArbiter.Toml
