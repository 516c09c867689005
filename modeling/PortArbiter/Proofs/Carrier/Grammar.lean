import Mathlib.Data.List.DropRight
import PortArbiter.Proofs.Carrier.SpecText
/-!
# The specifications that texts spell

Every text is read as a specification, but not every specification is read from a text: a base with
a `+` in it is not, nor a key with a point. Those that are read from some text are told here by
their parts, and each of them is read from its own text.
-/

namespace PortArbiter

/-! ## Trimming -/

namespace Text

theorem isPrefix_trimEnd (cs : List Char) : trimEnd cs <+: cs :=
  List.rdropWhile_prefix isBlank cs

theorem trimEnd_trimEnd (cs : List Char) : trimEnd (trimEnd cs) = trimEnd cs :=
  List.rdropWhile_idempotent isBlank cs

theorem mem_of_mem_trim {c : Char} {cs : List Char} (h : c ∈ trim cs) : c ∈ cs :=
  (List.dropWhile_suffix isBlank).mem ((isPrefix_trimEnd _).mem h)

/-- Cutting at the end uncovers no blank at the front. -/
theorem dropWhile_trim (cs : List Char) : (trim cs).dropWhile isBlank = trim cs := by
  cases htrim : trim cs with
  | nil => rfl
  | cons c rest =>
      obtain ⟨tail, htail⟩ : c :: rest <+: cs.dropWhile isBlank := htrim ▸ isPrefix_trimEnd _
      have hne : cs.dropWhile isBlank ≠ [] := htail ▸ List.cons_ne_nil _ _
      have hhead : isBlank ((cs.dropWhile isBlank).head hne) = false :=
        List.head_dropWhile_not _ hne
      simp only [← htail, List.cons_append, List.head_cons] at hhead
      exact List.dropWhile_cons_of_neg fun hblank => Bool.noConfusion (hhead.symm.trans hblank)

theorem trim_trim (cs : List Char) : trim (trim cs) = trim cs := by
  rw [trim, dropWhile_trim, trim, trimEnd_trimEnd]

end Text

/-! ## Reading -/

theorem Spec.not_mem_of_mem_pieces {separator : Char} {cs piece : List Char}
    (h : piece ∈ pieces separator cs) : separator ∉ piece := by
  induction cs generalizing piece with
  | nil =>
      obtain rfl : piece = [] := by simpa [pieces] using h
      exact List.not_mem_nil
  | cons c cs ih =>
      have hhead : separator ∉ (pieces separator cs).headD [] := by
        cases hpieces : pieces separator cs with
        | nil => exact List.not_mem_nil
        | cons first others =>
            have hfirst : first ∈ pieces separator cs := hpieces ▸ List.mem_cons_self
            exact ih hfirst
      simp only [pieces] at h
      split at h
      · obtain rfl | h := List.mem_cons.1 h
        · exact List.not_mem_nil
        · exact ih h
      · next hc =>
          obtain rfl | h := List.mem_cons.1 h
          · exact List.not_mem_cons_of_ne_of_not_mem (fun heq => hc heq.symm) hhead
          · exact ih (List.mem_of_mem_tail h)

theorem Parameter.toList_text_ofChars (cs : List Char) : (ofChars cs).text.toList = cs := by
  rw [ofChars]
  split
  · exact String.toList_ofList
  · next point value hdrop =>
      obtain rfl : point = '.' := by
        have hne : cs.dropWhile (· ≠ '.') ≠ [] := hdrop ▸ List.cons_ne_nil _ _
        have hpoint := List.head_dropWhile_not (fun c : Char => decide (c ≠ '.')) hne
        simp only [hdrop, List.head_cons] at hpoint
        exact not_not.1 (of_decide_eq_false hpoint)
      calc (text ⟨String.ofList (cs.takeWhile (· ≠ '.')), some (String.ofList value)⟩).toList
          = cs.takeWhile (· ≠ '.') ++ '.' :: value := by simp [text]
        _ = cs.takeWhile (· ≠ '.') ++ cs.dropWhile (· ≠ '.') := by rw [hdrop]
        _ = cs := List.takeWhile_append_dropWhile

theorem Parameter.point_not_mem_key_ofChars (cs : List Char) :
    '.' ∉ (ofChars cs).key.toList := by
  rw [ofChars]
  split
  · next hdrop =>
      rw [String.toList_ofList]
      exact fun hpoint => by simpa using List.dropWhile_eq_nil_iff.1 hdrop _ hpoint
  · rw [String.toList_ofList]
    exact fun hpoint => by simpa using List.mem_takeWhile_imp hpoint

/-! ## Specifications -/

namespace Spec

/-- Whether the parts of a specification can be told apart in its text. -/
structure Legible (s : Spec) : Prop where
  base_single : '+' ∉ s.base.toList
  base_trimmed : Text.trim s.base.toList = s.base.toList
  parameters : ∀ p ∈ s.parameters, p.Legible

theorem legible_iff (s : Spec) :
    s.Legible ↔ '+' ∉ s.base.toList ∧ Text.trim s.base.toList = s.base.toList ∧
      ∀ p ∈ s.parameters, p.text.toList ≠ [] ∧ '+' ∉ p.text.toList ∧
        Text.trim p.text.toList = p.text.toList ∧ '.' ∉ p.key.toList :=
  ⟨fun h => ⟨h.base_single, h.base_trimmed, fun p hp =>
    let hp := h.parameters p hp; ⟨hp.nonempty, hp.single, hp.trimmed, hp.key⟩⟩,
    fun ⟨hsingle, htrimmed, hparameters⟩ => ⟨hsingle, htrimmed, fun p hp =>
      let ⟨hne, hsingle, htrimmed, hkey⟩ := hparameters p hp; ⟨hne, hsingle, htrimmed, hkey⟩⟩⟩

instance (s : Spec) : Decidable s.Legible :=
  decidable_of_iff _ s.legible_iff.symm

theorem legible_parse (s : String) : (parse s).Legible := by
  have hpieces : ∀ cs ∈ (pieces '+' s.toList).map Text.trim,
      '+' ∉ cs ∧ Text.trim cs = cs := by
    intro cs hcs
    obtain ⟨piece, hpiece, rfl⟩ := List.mem_map.1 hcs
    exact ⟨fun hplus => not_mem_of_mem_pieces hpiece (Text.mem_of_mem_trim hplus),
      Text.trim_trim piece⟩
  generalize htokens : (pieces '+' s.toList).map Text.trim = tokens at hpieces
  have hparse : parse s =
      ⟨String.ofList (tokens.headD []), (tokens.tail.filter (· ≠ [])).map Parameter.ofChars⟩ := by
    rw [parse, htokens]
  have hbase : '+' ∉ tokens.headD [] ∧ Text.trim (tokens.headD []) = tokens.headD [] := by
    cases tokens with
    | nil => exact ⟨List.not_mem_nil, rfl⟩
    | cons first others => exact hpieces first List.mem_cons_self
  rw [hparse]
  refine ⟨?_, ?_, ?_⟩
  · exact (String.toList_ofList (l := tokens.headD [])).symm ▸ hbase.1
  · exact (String.toList_ofList (l := tokens.headD [])).symm ▸ hbase.2
  · intro p hp
    obtain ⟨cs, hcs, rfl⟩ := List.mem_map.1 hp
    obtain ⟨hmem, hne⟩ := List.mem_filter.1 hcs
    obtain ⟨hsingle, htrimmed⟩ := hpieces cs (List.mem_of_mem_tail hmem)
    have htext := Parameter.toList_text_ofChars cs
    exact {
      nonempty := htext.symm ▸ of_decide_eq_true hne
      single := htext.symm ▸ hsingle
      trimmed := htext.symm ▸ htrimmed
      key := Parameter.point_not_mem_key_ofChars cs }

theorem Legible.parse_text {s : Spec} (h : s.Legible) : parse s.text = s := by
  rw [Spec.parse_text h.base_single h.parameters, h.base_trimmed, String.ofList_toList]

/-- Reading and writing are inverse to each other on the legible specifications, and these are what
is read. So what is read from a text is read again from its own text, and no two legible
specifications have the same text. -/
theorem grammar :
    (∀ s : String, parse (parse s).text = parse s) ∧
    (∀ spec : Spec, (∃ s, parse s = spec) ↔ spec.Legible) ∧
    (∀ spec : Spec, spec.Legible → parse spec.text = spec) ∧
    ∀ a b : Spec, a.Legible → b.Legible → a.text = b.text → a = b := by
  refine ⟨fun s => (legible_parse s).parse_text, fun spec => ⟨?_, ?_⟩,
    fun _ h => h.parse_text, fun a b ha hb htext => ?_⟩
  · rintro ⟨s, rfl⟩
    exact legible_parse s
  · exact fun h => ⟨spec.text, h.parse_text⟩
  · rw [← ha.parse_text, htext, hb.parse_text]

/-- A base with a blank inside, a parameter that is a mere point, and a value with a point. -/
theorem grammar_points :
    parse "my carrier+.+level.0.5" = ⟨"my carrier", [⟨"", some ""⟩, ⟨"level", some "0.5"⟩]⟩ :=
  grammar.2.2.1 ⟨"my carrier", [⟨"", some ""⟩, ⟨"level", some "0.5"⟩]⟩ (by decide +kernel)

end Spec

end PortArbiter
