import PortArbiter.Proofs.Toml.Number
import PortArbiter.Proofs.Toml.Quoted
import PortArbiter.Toml.Statement
/-!
# Lines of a document read back

A line that gives a value to a key, and a header behind an empty line, are each read as one
statement, whatever lines follow. A document is put together from such pieces, so its statements are
known piece by piece.
-/

namespace PortArbiter.Toml

theorem skipBlanks_of_head {c : Char} (hspace : c ≠ ' ') (htab : c ≠ '\t') (cs : List Char) :
    skipBlanks (c :: cs) = c :: cs := by
  rw [skipBlanks, List.dropWhile_cons_of_neg]
  simp only [hspace, htab, decide_false, Bool.or_self, Bool.false_eq_true, not_false_eq_true]

/-! ## Values -/

/-- The text of a value, up to the end of its line. It does not begin with a blank. -/
structure Denotes (text : String) (v : Value) : Prop where
  start : ∀ rest, skipBlanks (text.toList ++ rest) = text.toList ++ rest
  read : ∀ rest, value? maxDepth (text.toList ++ '\n' :: rest) = some (v, '\n' :: rest)

theorem value?_scalar {c : Char} (hbracket : c ≠ '[') (hbrace : c ≠ '{') (depth : Nat)
    (cs : List Char) : value? depth (c :: cs) = scalar? (c :: cs) := by
  cases depth with
  | zero => rw [value?]
  | succ depth =>
      rw [value?]
      · exact fun _ heq => hbracket (List.cons.inj heq).1
      · exact fun _ heq => hbrace (List.cons.inj heq).1

theorem scalar?_other {c : Char} (htrue : c ≠ 't') (hfalse : c ≠ 'f') (cs : List Char) :
    scalar? (c :: cs) =
      ((string? (c :: cs)).map fun (s, rest) => (.string s, rest)).or (number? (c :: cs)) := by
  rw [scalar?]
  · exact fun _ heq => htrue (List.cons.inj heq).1
  · exact fun _ heq => hfalse (List.cons.inj heq).1

theorem string?_other {c : Char} (hquote : c ≠ '"') (hapostrophe : c ≠ '\'') (cs : List Char) :
    string? (c :: cs) = none := by
  rw [string?]
  · exact fun _ heq => hquote (List.cons.inj heq).1
  · exact fun _ heq => hquote (List.cons.inj heq).1
  · exact fun _ heq => hapostrophe (List.cons.inj heq).1
  · exact fun _ heq => hapostrophe (List.cons.inj heq).1

theorem quote_head (s : String) :
    ∃ c more, (quote s).toList = c :: more ∧ (c = '"' ∨ c = '\'') := by
  rw [quote, String.toList_ofList]
  cases Form.choose s.toList with
  | basic => exact ⟨_, _, rfl, Or.inl rfl⟩
  | literal => exact ⟨_, _, rfl, Or.inr rfl⟩
  | basicBlock => exact ⟨_, _, rfl, Or.inl rfl⟩
  | literalBlock => exact ⟨_, _, rfl, Or.inr rfl⟩

theorem denotes_quote (s : String) : Denotes (quote s) (.string s) := by
  obtain ⟨c, more, hs, hc⟩ := quote_head s
  have hne {d : Char} (hquote : '"' ≠ d) (hapostrophe : '\'' ≠ d) : c ≠ d := by
    rintro rfl
    exact hc.elim (fun hc => hquote hc.symm) fun hc => hapostrophe hc.symm
  refine ⟨fun rest => ?_, fun rest => ?_⟩
  · rw [hs]
    exact skipBlanks_of_head (hne (by decide) (by decide)) (hne (by decide) (by decide)) _
  · have hread : string? ((quote s).toList ++ '\n' :: rest) = some (s, '\n' :: rest) :=
      string?_quote s (by simp) (by simp)
    rw [hs, List.cons_append] at hread ⊢
    rw [value?_scalar (hne (by decide) (by decide)) (hne (by decide) (by decide)),
      scalar?_other (hne (by decide) (by decide)) (hne (by decide) (by decide)), hread]
    rfl

theorem denotes_number {x : Float} (hx : x.isFinite = true) :
    Denotes (NumberStyle.document.text x) (.float x) := by
  obtain ⟨c, more, hs, hc⟩ := head_text hx
  have hne {d : Char} (hd : d.isDigit = false) (hminus : '-' ≠ d) : c ≠ d := by
    rintro rfl
    rcases hc with hc | hc
    · rw [hd] at hc
      cases hc
    · exact hminus hc.symm
  refine ⟨fun rest => ?_, fun rest => ?_⟩
  · rw [hs]
    exact skipBlanks_of_head (hne rfl (by decide)) (hne rfl (by decide)) _
  · have hread := number?_text hx rest
    rw [hs, List.cons_append] at hread ⊢
    rw [value?_scalar (hne rfl (by decide)) (hne rfl (by decide)),
      scalar?_other (hne rfl (by decide)) (hne rfl (by decide)),
      string?_other (hne rfl (by decide)) (hne rfl (by decide)), hread]
    rfl

theorem denotes_boolean (b : Bool) : Denotes (if b then "true" else "false") (.boolean b) := by
  cases b with
  | false => exact ⟨fun _ => rfl, fun _ => rfl⟩
  | true => exact ⟨fun _ => rfl, fun _ => rfl⟩

theorem denotes_empty : Denotes "[]" (.array false []) :=
  ⟨fun _ => rfl, fun _ => rfl⟩

/-! ## Keys -/

def IsBare (key : String) : Prop :=
  key.toList ≠ [] ∧ key.toList.all isKeyChar = true

theorem IsBare.chars {key : String} (h : IsBare key) :
    ∀ c ∈ key.toList, isKeyChar c = true :=
  List.all_eq_true.1 h.2

theorem IsBare.head {key : String} (h : IsBare key) :
    ∃ c more, key.toList = c :: more ∧ isKeyChar c = true := by
  obtain ⟨c, more, hs⟩ := List.exists_cons_of_ne_nil h.1
  exact ⟨c, more, hs, h.chars c (hs ▸ List.mem_cons_self)⟩

theorem IsBare.skipBlanks {key : String} (h : IsBare key) (rest : List Char) :
    skipBlanks (key.toList ++ rest) = key.toList ++ rest := by
  obtain ⟨c, more, hs, hc⟩ := h.head
  rw [hs]
  refine skipBlanks_of_head ?_ ?_ _
  all_goals
    rintro rfl
    cases hc

theorem IsBare.simpleKey? {key : String} (h : IsBare key) {d : Char} (hd : isKeyChar d = false)
    (rest : List Char) : simpleKey? (key.toList ++ d :: rest) = some (key, d :: rest) := by
  obtain ⟨c, more, hs, hc⟩ := h.head
  have hstop : ¬ isKeyChar d = true := Bool.eq_false_iff.1 hd
  have htake : (key.toList ++ d :: rest).takeWhile isKeyChar = key.toList := by
    rw [List.takeWhile_append_of_pos h.chars, List.takeWhile_cons_of_neg hstop, List.append_nil]
  have hdrop : (key.toList ++ d :: rest).dropWhile isKeyChar = d :: rest := by
    rw [List.dropWhile_append_of_pos h.chars, List.dropWhile_cons_of_neg hstop]
  rw [Toml.simpleKey?]
  · rw [htake, hdrop, if_neg (mt List.isEmpty_iff.1 h.1), String.ofList_toList]
  all_goals
    rw [hs]
    rintro rest heq
    rw [(List.cons.inj heq).1] at hc
    cases hc

theorem IsBare.path? {key : String} (h : IsBare key) {d e : Char} {rest after : List Char}
    (hd : isKeyChar d = false) (hafter : Toml.skipBlanks (d :: rest) = e :: after) (he : e ≠ '.') :
    path? maxDepth (key.toList ++ d :: rest) = some ([key], e :: after) := by
  have hdepth : maxDepth = 78 + 1 := rfl
  rw [hdepth, Toml.path?]
  simp only [h.skipBlanks, h.simpleKey? hd, Option.bind_eq_bind, Option.bind_some,
    hafter]
  split
  · rename_i heq
    exact absurd (List.cons.inj heq).1 he
  · rfl

theorem IsBare.assignee? {key : String} (h : IsBare key) (rest : List Char) :
    assignee? (key.toList ++ ' ' :: '=' :: rest) = some ([key], Toml.skipBlanks rest) := by
  have hpath : Toml.path? maxDepth (key.toList ++ ' ' :: '=' :: rest) = some ([key], '=' :: rest) :=
    h.path? rfl rfl (by decide)
  rw [Toml.assignee?, hpath]
  rfl

/-! ## Statements -/

theorem lineEnd?_newline (rest : List Char) : lineEnd? ('\n' :: rest) = some rest := rfl

theorem statement?_assign {key text : String} {v : Value} (hkey : IsBare key)
    (hv : Denotes text v) (rest : List Char) :
    statement? (key.toList ++ ' ' :: '=' :: ' ' :: (text.toList ++ '\n' :: rest)) =
      some (.assign [key] v, rest) := by
  obtain ⟨c, more, hs, hc⟩ := hkey.head
  have hblank : skipBlanks (' ' :: (text.toList ++ '\n' :: rest)) = text.toList ++ '\n' :: rest :=
    hv.start ('\n' :: rest)
  rw [statement?]
  · rw [hkey.assignee?, hblank]
    simp only [Option.bind_eq_bind, Option.bind_some, hv.read, lineEnd?_newline]
  all_goals
    rw [hs]
    rintro rest heq
    rw [(List.cons.inj heq).1] at hc
    cases hc

theorem statement?_openItem {key : String} (hkey : IsBare key) (rest : List Char) :
    statement? ('[' :: '[' :: (key.toList ++ ']' :: ']' :: '\n' :: rest)) =
      some (.openItem [key], rest) := by
  have hpath : path? maxDepth (key.toList ++ ']' :: ']' :: '\n' :: rest) =
      some ([key], ']' :: ']' :: '\n' :: rest) :=
    hkey.path? rfl rfl (by decide)
  rw [statement?, hpath]
  rfl

/-! ## Documents -/

/-- The text adds these statements in front of those of any document. The reader may go on for as
many lines as the text has characters, which is always enough. -/
def Says (text : String) (ss : List Statement) : Prop :=
  ∀ rest after, (∀ fuel, rest.length < fuel → statementsOf? fuel rest = some after) →
    ∀ fuel, (text.toList ++ rest).length < fuel →
      statementsOf? fuel (text.toList ++ rest) = some (ss ++ after)

theorem says_nil : Says "" [] :=
  fun _ _ h => h

theorem Says.append {text more : String} {ss ts : List Statement} (h : Says text ss)
    (hmore : Says more ts) : Says (text ++ more) (ss ++ ts) := by
  intro rest after hrest
  rw [String.toList_append, List.append_assoc, List.append_assoc]
  exact h _ _ (hmore _ _ hrest)

theorem Says.join {α : Type} {text : α → String} {ss : α → List Statement} {xs : List α}
    (h : ∀ x ∈ xs, Says (text x) (ss x)) : Says (String.join (xs.map text)) (xs.flatMap ss) := by
  induction xs with
  | nil => exact says_nil
  | cons x xs ih =>
      obtain ⟨hx, hxs⟩ := List.forall_mem_cons.1 h
      rw [List.map_cons, String.join_cons, List.flatMap_cons]
      exact hx.append (ih hxs)

theorem statementsOf?_cons {c : Char} {cs rest : List Char} {s : Statement} {ss : List Statement}
    {fuel : Nat} (hc : c ∉ [' ', '\t', '#', '\n', '\r'])
    (hread : statement? (c :: cs) = some (s, rest)) (hrest : statementsOf? fuel rest = some ss) :
    statementsOf? (fuel + 1) (c :: cs) = some (s :: ss) := by
  simp only [List.mem_cons, List.not_mem_nil, or_false, not_or] at hc
  obtain ⟨hspace, htab, hcomment, hline, hreturn⟩ := hc
  rw [statementsOf?, skipBlanks_of_head hspace htab]
  split
  · rename_i heq
    cases heq
  · rename_i heq
    exact absurd (List.cons.inj heq).1 hcomment
  · rename_i heq
    exact absurd (List.cons.inj heq).1 hline
  · rename_i heq
    exact absurd (List.cons.inj heq).1 hreturn
  · simp only [hread, hrest, Option.bind_eq_bind, Option.bind_some]

theorem statementsOf?_blank (fuel : Nat) (cs : List Char) :
    statementsOf? (fuel + 1) ('\n' :: cs) = statementsOf? fuel cs := by
  rw [statementsOf?, skipBlanks_of_head (by decide) (by decide)]
  rfl

theorem says_assign {key text : String} {v : Value} (hkey : IsBare key) (hv : Denotes text v) :
    Says (key ++ " = " ++ text ++ "\n") [.assign [key] v] := by
  intro rest after hrest fuel hfuel
  obtain ⟨c, more, hs, hc⟩ := hkey.head
  have htext : (key ++ " = " ++ text ++ "\n").toList ++ rest =
      key.toList ++ ' ' :: '=' :: ' ' :: (text.toList ++ '\n' :: rest) := by
    have hequals : " = ".toList = [' ', '=', ' '] := rfl
    have hline : "\n".toList = ['\n'] := rfl
    simp only [String.toList_append, hequals, hline, List.append_assoc, List.cons_append,
      List.nil_append]
  have hstart : c ∉ [' ', '\t', '#', '\n', '\r'] := by
    intro hmem
    simp only [List.mem_cons, List.not_mem_nil, or_false] at hmem
    rcases hmem with rfl | rfl | rfl | rfl | rfl
    all_goals cases hc
  have hread := statement?_assign hkey hv rest
  rw [htext] at hfuel ⊢
  -- the line costs one step of the reader and has more than one character
  obtain _ | fuel := fuel
  · exact absurd hfuel (Nat.not_lt_zero _)
  · rw [hs] at hread hfuel ⊢
    refine statementsOf?_cons hstart hread (hrest fuel ?_)
    simp only [List.cons_append, List.length_cons, List.length_append] at hfuel
    omega

theorem says_openItem {key : String} (hkey : IsBare key) :
    Says ("\n[[" ++ key ++ "]]\n") [.openItem [key]] := by
  intro rest after hrest fuel hfuel
  have htext : ("\n[[" ++ key ++ "]]\n").toList ++ rest =
      '\n' :: '[' :: '[' :: (key.toList ++ ']' :: ']' :: '\n' :: rest) := by
    have hopen : "\n[[".toList = ['\n', '[', '['] := rfl
    have hclose : "]]\n".toList = [']', ']', '\n'] := rfl
    simp only [String.toList_append, hopen, hclose, List.append_assoc, List.cons_append,
      List.nil_append]
  rw [htext] at hfuel ⊢
  simp only [List.length_cons, List.length_append] at hfuel
  obtain _ | _ | fuel := fuel
  · omega
  · omega
  · rw [statementsOf?_blank]
    exact statementsOf?_cons (by decide) (statement?_openItem hkey rest) (hrest fuel (by omega))

theorem statements?_of_says {text : String} {ss : List Statement} (h : Says text ss)
    (hmark : text.toList.head? ≠ some '\ufeff') : statements? text = some ss := by
  have hempty : ∀ fuel, ([] : List Char).length < fuel → statementsOf? fuel [] = some [] := by
    intro fuel hfuel
    obtain _ | fuel := fuel
    · exact absurd hfuel (Nat.not_lt_zero _)
    · rfl
  have hread := h [] [] hempty (text.toList.length + 1)
  rw [List.append_nil, List.append_nil] at hread
  rw [statements?]
  split
  · rename_i heq
    rw [heq] at hmark
    exact absurd rfl hmark
  · exact hread (Nat.lt_succ_self _)

end PortArbiter.Toml
