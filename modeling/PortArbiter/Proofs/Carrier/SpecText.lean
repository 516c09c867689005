import Mathlib.Data.List.TakeWhile
import PortArbiter.Spec
/-!
# Specifications read back

A specification that is written down is read as itself, its base trimmed, as long as its parameters
are such that they can be told apart in the text.
-/

namespace PortArbiter

/-! ## Blanks -/

namespace Text

theorem dropWhile_of_no_blank {cs : List Char} (h : ∀ c ∈ cs, isBlank c = false) :
    cs.dropWhile isBlank = cs := by
  cases cs with
  | nil => rfl
  | cons c cs =>
      have hfirst := h c List.mem_cons_self
      exact List.dropWhile_cons_of_neg fun hblank => Bool.noConfusion (hfirst.symm.trans hblank)

theorem trim_of_no_blank {cs : List Char} (h : ∀ c ∈ cs, isBlank c = false) : trim cs = cs := by
  have hreverse : ∀ c ∈ cs.reverse, isBlank c = false := fun c hc => h c (List.mem_reverse.1 hc)
  rw [trim, dropWhile_of_no_blank h, trimEnd, dropWhile_of_no_blank hreverse, List.reverse_reverse]

theorem isBlank_digit {c : Char} (h : c.isDigit = true) : isBlank c = false := by
  simp only [Char.isDigit, Bool.and_eq_true, decide_eq_true_eq] at h
  have hlow : 48 ≤ c.toNat := h.1
  have hhigh : c.toNat ≤ 57 := h.2
  simp only [isBlank, inRanges, blankRanges, List.any_cons, List.any_nil, Bool.or_false,
    Bool.or_eq_false_iff, Bool.and_eq_false_iff, decide_eq_false_iff_not]
  omega

end Text

/-! ## Pieces -/

namespace Spec

theorem pieces_of_not_mem {separator : Char} {cs : List Char} (h : separator ∉ cs) :
    pieces separator cs = [cs] := by
  induction cs with
  | nil => rfl
  | cons c cs ih =>
      rw [List.mem_cons, not_or] at h
      rw [pieces, ih h.2]
      exact if_neg fun heq => h.1 heq.symm

theorem pieces_append {separator : Char} {front : List Char} (rest : List Char)
    (h : separator ∉ front) :
    pieces separator (front ++ separator :: rest) = front :: pieces separator rest := by
  induction front with
  | nil =>
      rw [List.nil_append, pieces]
      exact if_pos rfl
  | cons c front ih =>
      rw [List.mem_cons, not_or] at h
      rw [List.cons_append, pieces, ih h.2]
      exact if_neg fun heq => h.1 heq.symm

theorem pieces_join {separator : Char} {first : List Char} {others : List (List Char)}
    (hfirst : separator ∉ first) (hothers : ∀ cs ∈ others, separator ∉ cs) :
    pieces separator (first ++ others.flatMap (separator :: ·)) = first :: others := by
  induction others generalizing first with
  | nil => rw [List.flatMap_nil, List.append_nil, pieces_of_not_mem hfirst]
  | cons cs others ih =>
      rw [List.forall_mem_cons] at hothers
      rw [List.flatMap_cons, List.cons_append, pieces_append _ hfirst, ih hothers.1 hothers.2]

def isInner (c : Char) : Bool :=
  !Text.isBlank c && c != '+'

theorem isInner_digit {c : Char} (h : c.isDigit = true) : isInner c = true := by
  rw [isInner, Text.isBlank_digit h, Bool.not_false, Bool.true_and, bne_iff_ne]
  rintro rfl
  cases h

end Spec

/-! ## Parameters -/

namespace Parameter

/-- Whether the text of a parameter can be told from its surroundings and its key from its value. -/
structure Legible (p : Parameter) : Prop where
  nonempty : p.text.toList ≠ []
  single : '+' ∉ p.text.toList
  trimmed : Text.trim p.text.toList = p.text.toList
  key : '.' ∉ p.key.toList

theorem legible_of_inner {p : Parameter} (hne : p.text.toList ≠ [])
    (hkey : '.' ∉ p.key.toList) (h : p.text.toList.all Spec.isInner = true) : p.Legible := by
  have hinner : ∀ c ∈ p.text.toList, Text.isBlank c = false ∧ c ≠ '+' := by
    intro c hc
    have hboth := List.all_eq_true.1 h c hc
    rwa [Spec.isInner, Bool.and_eq_true_iff, Bool.not_eq_true', bne_iff_ne] at hboth
  exact {
    nonempty := hne
    single := fun hplus => (hinner _ hplus).2 rfl
    trimmed := Text.trim_of_no_blank fun c hc => (hinner c hc).1
    key := hkey }

theorem ofChars_text {p : Parameter} (h : '.' ∉ p.key.toList) : ofChars p.text.toList = p := by
  have hkey : ∀ c ∈ p.key.toList, decide (c ≠ '.') = true :=
    fun c hc => decide_eq_true fun heq => h (heq ▸ hc)
  obtain ⟨key, value?⟩ := p
  cases value? with
  | none =>
      have hdrop := List.dropWhile_eq_nil_iff.2 hkey
      simp only [ofChars, text, hdrop, String.ofList_toList]
  | some value =>
      have htext : (text ⟨key, some value⟩).toList = key.toList ++ '.' :: value.toList := by
        rw [text, String.toList_append, String.toList_append, List.append_assoc]
        rfl
      have hdrop : (key.toList ++ '.' :: value.toList).dropWhile (· ≠ '.') =
          '.' :: value.toList := by
        rw [List.dropWhile_append_of_pos hkey]
        exact List.dropWhile_cons_of_neg (by decide)
      have htake : (key.toList ++ '.' :: value.toList).takeWhile (· ≠ '.') = key.toList := by
        rw [List.takeWhile_append_of_pos hkey, List.takeWhile_cons_of_neg (by decide),
          List.append_nil]
      simp only [ofChars, htext, hdrop, htake, String.ofList_toList]

end Parameter

namespace Spec

theorem toList_text (s : Spec) :
    s.text.toList =
      s.base.toList ++ (s.parameters.map (·.text.toList)).flatMap ('+' :: ·) := by
  rw [text, String.toList_append, String.toList_join, List.flatMap_map, List.flatMap_map]
  congr 2
  funext p
  rw [String.toList_append]
  rfl

theorem parse_text {s : Spec} (hbase : '+' ∉ s.base.toList)
    (hparameters : ∀ p ∈ s.parameters, p.Legible) :
    parse s.text = ⟨String.ofList (Text.trim s.base.toList), s.parameters⟩ := by
  have hsingle : ∀ cs ∈ s.parameters.map (·.text.toList), '+' ∉ cs := by
    intro cs hcs
    obtain ⟨p, hp, rfl⟩ := List.mem_map.1 hcs
    exact (hparameters p hp).single
  have htrim : (s.parameters.map (·.text.toList)).map Text.trim =
      s.parameters.map (·.text.toList) := by
    rw [List.map_map]
    exact List.map_congr_left fun p hp => (hparameters p hp).trimmed
  have hnonempty : (s.parameters.map (·.text.toList)).filter (· ≠ []) =
      s.parameters.map (·.text.toList) := by
    rw [List.filter_eq_self]
    intro cs hcs
    obtain ⟨p, hp, rfl⟩ := List.mem_map.1 hcs
    exact decide_eq_true (hparameters p hp).nonempty
  have hread : (s.parameters.map (·.text.toList)).map Parameter.ofChars = s.parameters := by
    rw [List.map_map]
    calc s.parameters.map (Parameter.ofChars ∘ (·.text.toList))
        = s.parameters.map id :=
          List.map_congr_left fun p hp => Parameter.ofChars_text (hparameters p hp).key
      _ = s.parameters := List.map_id _
  rw [parse, toList_text, pieces_join hbase hsingle, List.map_cons, List.headD_cons,
    List.tail_cons, htrim, hnonempty, hread]

end Spec

end PortArbiter
