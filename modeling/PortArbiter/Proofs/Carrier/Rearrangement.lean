import PortArbiter.Proofs.Carrier.Building
/-!
# Suffixes in another order

What a specification says of a key depends on the suffixes with that key only. So the suffixes of a
text can change places without notice, as long as those with the same key stay in their order.
-/

namespace PortArbiter

/-! ## The parameters with a key -/

namespace Spec

def under (s : Spec) (key : String) : List Parameter :=
  s.parameters.filter (·.key = key)

theorem value?_eq (s : Spec) (key : String) :
    s.value? key = (s.under key).getLast?.bind Parameter.value? := by
  rw [value?, under, List.findRev?_eq_find?_reverse, List.getLast?_filter]

theorem mentions_eq (s : Spec) (key : String) : s.mentions key = !(s.under key).isEmpty := by
  rw [Bool.eq_iff_iff, mentions, under, List.any_eq_true, Bool.not_eq_true',
    List.isEmpty_eq_false_iff, Ne, List.filter_eq_nil_iff]
  push Not
  rfl

theorem modifiers_eq (s : Spec) (side : Direction) :
    s.modifiers side = (s.under side.token).filterMap Parameter.value? :=
  rfl

theorem number_eq (s : Spec) (key : String) (fallback : Float) :
    s.number key fallback =
      (((s.value? key).bind readNumber?).filter Float.isFinite).getD fallback := by
  rw [number]
  cases (s.value? key).bind readNumber? with
  | none => rfl
  | some x => by_cases hx : x.isFinite <;> simp [hx, Option.filter]

/-! ## Suffixes -/

/-- The pieces of a text behind the first one, less the empty ones. -/
def suffixes (text : String) : List (List Char) :=
  (tokens text).tail.filter (· ≠ [])

/-- What stands before the first point of a suffix, or the whole suffix. -/
def keyOf (suffix : List Char) : List Char :=
  suffix.takeWhile (· ≠ '.')

theorem key_ofChars (suffix : List Char) :
    (Parameter.ofChars suffix).key = String.ofList (keyOf suffix) := by
  rw [Parameter.ofChars, keyOf]
  split
  · next hdrop => rw [List.takeWhile_eq_self_iff.2 (List.dropWhile_eq_nil_iff.1 hdrop)]
  · rfl

theorem under_parse (text key : String) :
    (parse text).under key =
      ((suffixes text).filter (keyOf · = key.toList)).map Parameter.ofChars := by
  have hkey : ∀ suffix, (Parameter.ofChars suffix).key = key ↔ keyOf suffix = key.toList := by
    intro suffix
    rw [key_ofChars, ← String.toList_inj, String.toList_ofList]
  show ((suffixes text).map Parameter.ofChars).filter (·.key = key) = _
  rw [List.filter_map]
  simp only [Function.comp_def, hkey]

/-! ## Rearranging -/

/-- The text `b` names the same base carrier as `a` and has the suffixes of `a`, in an order that
leaves those with the same key in theirs. -/
structure Rearranged (a b : String) : Prop where
  first : Spec.first a = Spec.first b
  order : ∃ order : List (List Char × Nat), order.Perm (suffixes a).zipIdx ∧
    order.map Prod.fst = suffixes b ∧
    order.Pairwise fun x y => keyOf x.1 = keyOf y.1 → x.2 < y.2

namespace Rearranged

variable {a b : String}

theorem filter_suffixes (h : Rearranged a b) (key : List Char) :
    (suffixes a).filter (keyOf · = key) = (suffixes b).filter (keyOf · = key) := by
  obtain ⟨order, hperm, hsuffixes, hkeys⟩ := h.order
  have hplaces : (suffixes a).zipIdx.Pairwise fun x y => x.2 < y.2 := by
    rw [← List.pairwise_map, List.zipIdx_map_snd]
    exact List.pairwise_lt_range'
  -- the numbered suffixes of this key are sorted by their places on both sides
  have hsame : (suffixes a).zipIdx.filter (keyOf ·.1 = key) = order.filter (keyOf ·.1 = key) := by
    refine List.Perm.eq_of_pairwise (fun x y _ _ hxy hyx => absurd hyx hxy.asymm)
      (hplaces.filter _) ?_ (hperm.symm.filter _)
    refine (hkeys.filter _).imp_of_mem fun {x y} hx hy hxy => hxy ?_
    have hx := of_decide_eq_true (List.mem_filter.1 hx).2
    have hy := of_decide_eq_true (List.mem_filter.1 hy).2
    exact hx.trans hy.symm
  calc (suffixes a).filter (keyOf · = key)
      = ((suffixes a).zipIdx.map Prod.fst).filter (keyOf · = key) := by rw [List.zipIdx_map_fst]
    _ = ((suffixes a).zipIdx.filter (keyOf ·.1 = key)).map Prod.fst := List.filter_map
    _ = (order.filter (keyOf ·.1 = key)).map Prod.fst := by rw [hsame]
    _ = (order.map Prod.fst).filter (keyOf · = key) := by
        rw [List.filter_map]
        rfl
    _ = (suffixes b).filter (keyOf · = key) := by rw [hsuffixes]

theorem under (h : Rearranged a b) (key : String) :
    (parse a).under key = (parse b).under key := by
  rw [under_parse, under_parse, h.filter_suffixes]

theorem value? (h : Rearranged a b) (key : String) :
    (parse a).value? key = (parse b).value? key := by
  rw [value?_eq, value?_eq, h.under]

theorem mentions (h : Rearranged a b) (key : String) :
    (parse a).mentions key = (parse b).mentions key := by
  rw [mentions_eq, mentions_eq, h.under]

theorem number (h : Rearranged a b) (key : String) (fallback : Float) :
    (parse a).number key fallback = (parse b).number key fallback := by
  rw [number_eq, number_eq, h.value?]

theorem modifiers (h : Rearranged a b) (side : Direction) :
    (parse a).modifiers side = (parse b).modifiers side := by
  rw [modifiers_eq, modifiers_eq, h.under]

theorem build (h : Rearranged a b) {β μ : Type} [Transport β] [Stage μ] (c : Catalog β μ)
    (side : Direction) : c.build a side = c.build b side := by
  have hbase : (parse a).base = (parse b).base := h.first
  unfold Catalog.build
  dsimp only
  rw [hbase, h.modifiers]

theorem contenderOf (h : Rearranged a b) (sender receiver : String) :
    PriorityLayer.contenderOf ⟨sender, receiver, a⟩ =
      PriorityLayer.contenderOf ⟨sender, receiver, b⟩ := by
  unfold PriorityLayer.contenderOf
  dsimp only [Route.spec]
  rw [h.number "level", h.number "time", h.mentions "inhibit", h.mentions "inhibitory", h.value?]

theorem configure (h : Rearranged a b) (p : PriorityLayer) (sender receiver : String)
    (r : Registry) :
    p.configure ⟨sender, receiver, a⟩ r = p.configure ⟨sender, receiver, b⟩ r := by
  unfold PriorityLayer.configure
  rw [h.contenderOf]

end Rearranged

/-! ## The last suffix of a key -/

def Last (text : String) (key suffix : List Char) : Prop :=
  keyOf suffix = key ∧ ∃ before after, suffixes text = before ++ suffix :: after ∧
    ∀ other ∈ after, keyOf other ≠ key

theorem value?_of_last {text : String} {key suffix : List Char} (h : Last text key suffix) :
    (parse text).value? (String.ofList key) = (Parameter.ofChars suffix).value? := by
  obtain ⟨hkey, before, after, hsplit, hafter⟩ := h
  have hnone : after.filter (keyOf · = key) = [] := by
    rw [List.filter_eq_nil_iff]
    exact fun other hother => by simpa using hafter other hother
  have hunder : (parse text).under (String.ofList key) =
      (before.filter (keyOf · = key)).map Parameter.ofChars ++ [Parameter.ofChars suffix] := by
    have hfirst : (suffix :: after).filter (keyOf · = key) = [suffix] := by
      rw [List.filter_cons, hnone, if_pos (decide_eq_true hkey)]
    rw [under_parse, String.toList_ofList, hsplit, List.filter_append, hfirst, List.map_append]
    rfl
  rw [value?_eq, hunder, List.getLast?_concat]
  rfl

theorem value?_ofChars (suffix : List Char) :
    suffix = keyOf suffix ∧ (Parameter.ofChars suffix).value? = none ∨
      ∃ value, suffix = keyOf suffix ++ '.' :: value ∧
        (Parameter.ofChars suffix).value? = some (String.ofList value) := by
  have htext := Parameter.toList_text_ofChars suffix
  have hkey : (Parameter.ofChars suffix).key.toList = keyOf suffix := by
    rw [key_ofChars, String.toList_ofList]
  rw [Parameter.text] at htext
  cases hvalue : (Parameter.ofChars suffix).value? with
  | none =>
      rw [hvalue, hkey] at htext
      exact Or.inl ⟨htext.symm, rfl⟩
  | some value =>
      simp only [hvalue, String.toList_append, hkey, List.append_assoc] at htext
      exact Or.inr ⟨value.toList, htext.symm, by rw [String.ofList_toList]⟩

theorem Last.decides {text : String} {key suffix : List Char} (h : Last text key suffix) :
    let spec := parse text
    let name := String.ofList key
    (suffix = key ∧ spec.value? name = none ∧ ∀ fallback, spec.number name fallback = fallback) ∨
      ∃ value, suffix = key ++ '.' :: value ∧ spec.value? name = some (String.ofList value) ∧
        ∀ fallback, spec.number name fallback =
          ((readNumber? (String.ofList value)).filter Float.isFinite).getD fallback := by
  intro spec name
  have hvalue : spec.value? name = (Parameter.ofChars suffix).value? := value?_of_last h
  obtain ⟨rfl, -⟩ := h
  rcases value?_ofChars suffix with ⟨hbare, hnone⟩ | ⟨value, hsplit, hsome⟩
  · rw [hnone] at hvalue
    exact Or.inl ⟨hbare, hvalue, fun fallback => by rw [number_eq, hvalue]; rfl⟩
  · rw [hsome] at hvalue
    exact Or.inr ⟨value, hsplit, hvalue, fun fallback => by rw [number_eq, hvalue]; rfl⟩

/-- Only the order of suffixes within each key matters. Two texts whose suffixes are the same up to
that order have the same values, numbers and modifiers, build the same chains or fail alike, and
configure priority layers alike. The value of a key is that of its last suffix, whatever comes
before: if that one is bare, the key has no value and a number is the fallback. -/
theorem Rearranged.read_alike {a b : String} (h : Rearranged a b) :
    (∀ key, (parse a).value? key = (parse b).value? key ∧
      (parse a).mentions key = (parse b).mentions key ∧
      ∀ fallback, (parse a).number key fallback = (parse b).number key fallback) ∧
    (∀ side, (parse a).modifiers side = (parse b).modifiers side) ∧
    (∀ (β μ : Type) [Transport β] [Stage μ] (c : Catalog β μ) side,
      c.build a side = c.build b side) ∧
    (∀ (p : PriorityLayer) sender receiver r,
      p.configure ⟨sender, receiver, a⟩ r = p.configure ⟨sender, receiver, b⟩ r) ∧
    ∀ text key suffix, Last text key suffix →
      let spec := parse text
      let name := String.ofList key
      (suffix = key ∧ spec.value? name = none ∧ ∀ fallback, spec.number name fallback = fallback) ∨
        ∃ value, suffix = key ++ '.' :: value ∧ spec.value? name = some (String.ofList value) ∧
          ∀ fallback, spec.number name fallback =
            ((readNumber? (String.ofList value)).filter Float.isFinite).getD fallback :=
  ⟨fun key => ⟨h.value? key, h.mentions key, h.number key⟩, h.modifiers, fun _ _ => h.build,
    h.configure, fun _ _ _ => Last.decides⟩

/-- A level that a bare key hides, a modifier and a time constant. -/
theorem Rearranged.read_alike_hidden :
    let a := "tcp + level.3 + recv.priority + time.2 + level"
    let b := " tcp+recv.priority++level.3+level + time.2"
    Rearranged a b ∧ (parse b).mentions "level" = true ∧ (parse b).value? "level" = none ∧
      (parse b).number "level" 7 = 7 ∧ (parse b).number "time" 0 = (parse a).number "time" 0 ∧
      (parse b).value? "time" = some "2" ∧
      (Catalog.standard : Catalog Empty Empty).build b .recv =
        .ok (.wrap (.priority {}) (.base (.lengthPrefixed (.stream "tcp")))) := by
  intro a b
  have h : Rearranged a b := {
    first := by decide +kernel
    order := ⟨[("recv.priority".toList, 1), ("level.3".toList, 0), ("level".toList, 3),
      ("time.2".toList, 2)], by decide +kernel, by decide +kernel, by decide +kernel⟩ }
  have hlast : Last b "level".toList "level".toList :=
    ⟨by decide +kernel, ["recv.priority".toList, "level.3".toList], ["time.2".toList],
      by decide +kernel, by decide +kernel⟩
  obtain ⟨hkeys, -, hbuild, -, hlasts⟩ := h.read_alike
  have hparse : parse a = ⟨"tcp", [⟨"level", some "3"⟩, ⟨"recv", some "priority"⟩,
      ⟨"time", some "2"⟩, ⟨"level", none⟩]⟩ := by decide +kernel
  have hlevel := hlasts b "level".toList "level".toList hlast
  simp only [List.self_eq_append_right, reduceCtorEq, false_and, exists_const, or_false,
    String.ofList_toList] at hlevel
  obtain ⟨-, hvalue, hnumber⟩ := hlevel
  refine ⟨h, ?_, hvalue, hnumber 7, ((hkeys "time").2.2 0).symm, ?_, ?_⟩
  · rw [← (hkeys "level").2.1, hparse]
    decide
  · rw [← (hkeys "time").1, hparse]
    decide
  · rw [← hbuild, Catalog.build, hparse]
    rfl

end Spec

end PortArbiter
