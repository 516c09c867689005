import PortArbiter.Proofs.Carrier.Flat
import PortArbiter.Proofs.Carrier.Grammar
import PortArbiter.Proofs.Carrier.Stock
/-!
# What catalogs build

What a catalog answers to a specification can be read off two things: the text of the
specification, piece by piece, and the list of all that was ever entered into the catalog.
-/

namespace PortArbiter

/-! ## Pieces of a text -/

theorem Parameter.ofChars_eq_iff {cs : List Char} {p : Parameter} (h : '.' ∉ p.key.toList) :
    ofChars cs = p ↔ cs = p.text.toList := by
  constructor
  · rintro rfl
    exact (toList_text_ofChars cs).symm
  · rintro rfl
    exact ofChars_text h

theorem Parameter.ofChars_value_iff {cs : List Char} {key value : String} (h : '.' ∉ key.toList) :
    (ofChars cs).key = key ∧ (ofChars cs).value? = some value ↔
      (cs.dropPrefix? (key ++ ".").toList).map String.ofList = some value := by
  calc (ofChars cs).key = key ∧ (ofChars cs).value? = some value
    _ ↔ ofChars cs = ⟨key, some value⟩ := by
        cases ofChars cs
        rw [Parameter.mk.injEq]
    _ ↔ cs = (key ++ ".").toList ++ value.toList := by
        rw [ofChars_eq_iff h, text, String.toList_append]
    _ ↔ cs.dropPrefix? (key ++ ".").toList = some value.toList := by
        simp [List.dropPrefix?_eq_some_iff]
    _ ↔ (cs.dropPrefix? (key ++ ".").toList).map String.ofList = some value := by
        rw [Option.map_eq_some_iff]
        constructor
        · exact fun hrest => ⟨_, hrest, String.ofList_toList⟩
        · rintro ⟨rest, hrest, rfl⟩
          rw [hrest, String.toList_ofList]

namespace Spec

/-- The pieces of a text between its `+` signs, without the blanks around them. -/
def tokens (text : String) : List (List Char) :=
  (pieces '+' text.toList).map Text.trim

def first (text : String) : String :=
  String.ofList ((tokens text).headD [])

/-- What stands behind `recv.` or `send.` in the other pieces. -/
def asked (side : Direction) (text : String) : List String :=
  (tokens text).tail.filterMap fun token =>
    (token.dropPrefix? (side.token ++ ".").toList).map String.ofList

theorem modifiers_parse (text : String) (side : Direction) :
    (parse text).modifiers side = asked side text := by
  have hkey : '.' ∉ side.token.toList := by cases side <;> decide
  simp only [modifiers, parse, List.filter_map, List.filterMap_map, List.filterMap_filter]
  rw [asked, tokens]
  apply List.filterMap_congr
  intro token _
  ext name
  rw [← Parameter.ofChars_value_iff hkey]
  -- empty pieces are skipped in one reading; in the other they begin with no key
  by_cases hnil : token = []
  · subst hnil
    constructor
    · intro hname
      cases hname
    · intro hname
      cases hname.2
  · simp [hnil]

end Spec

/-! ## Entries -/

variable {β μ : Type}

inductive Enrolment (β μ : Type) where
  | carrier (b : Base β)
  | modifier (l : Layer μ)

namespace Enrolment

def carrier? : Enrolment β μ → Option (Base β)
  | .carrier b => some b
  | .modifier _ => none

def modifier? : Enrolment β μ → Option (Layer μ)
  | .carrier _ => none
  | .modifier l => some l

def stock : List (Enrolment β μ) := [
  .carrier (.lengthPrefixed (.stream "tcp")), .carrier (.lengthPrefixed (.stream "fast_tcp")),
  .carrier (.lengthPrefixed (.datagram "udp")), .carrier (.lengthPrefixed (.datagram "mcast")),
  .carrier (.lengthPrefixed { name := "local" }), .modifier (.priority {})]

section

variable {α : Type}

/-- Among the entries of one kind, the one that was entered last under a name. -/
def latest? (kind? : Enrolment β μ → Option α) (nameOf : α → String) (es : List (Enrolment β μ))
    (name : String) : Option α :=
  (es.filterMap kind?).findRev? (nameOf · = name)

variable (kind? : Enrolment β μ → Option α) (nameOf : α → String)

theorem latest?_concat_of_some (es : List (Enrolment β μ)) {e : Enrolment β μ} {x : α}
    (h : kind? e = some x) (name : String) :
    latest? kind? nameOf (es ++ [e]) name =
      if name = nameOf x then some x else latest? kind? nameOf es name := by
  have hkind : (es ++ [e]).filterMap kind? = es.filterMap kind? ++ [x] := by
    rw [List.filterMap_append, List.filterMap_cons_some h, List.filterMap_nil]
  rw [latest?, latest?, hkind, List.findRev?_eq_find?_reverse, List.findRev?_eq_find?_reverse,
    List.reverse_append, List.reverse_singleton, List.singleton_append, List.find?_cons]
  by_cases hname : nameOf x = name
  · simp [hname]
  · simp [hname, Ne.symm hname]

theorem latest?_concat_of_none (es : List (Enrolment β μ)) {e : Enrolment β μ}
    (h : kind? e = none) (name : String) :
    latest? kind? nameOf (es ++ [e]) name = latest? kind? nameOf es name := by
  rw [latest?, List.filterMap_append, List.filterMap_cons_none h, List.filterMap_nil,
    List.append_nil]
  rfl

theorem latest?_eq_none_iff (es : List (Enrolment β μ)) (name : String) :
    latest? kind? nameOf es name = none ↔ ∀ e ∈ es, ∀ x, kind? e = some x → nameOf x ≠ name := by
  simp only [latest?, List.findRev?_eq_find?_reverse, List.find?_eq_none, List.mem_reverse,
    List.mem_filterMap, decide_eq_true_eq, ne_eq]
  exact ⟨fun h e he x hx => h x ⟨e, he, hx⟩, fun h x ⟨e, he, hx⟩ => h e he x hx⟩

theorem latest?_of_nodup {es : List (Enrolment β μ)}
    (h : ((es.filterMap kind?).map nameOf).Nodup) (name : String) :
    latest? kind? nameOf es name = (es.filterMap kind?).find? (nameOf · = name) := by
  rw [latest?, List.findRev?_eq_find?_reverse]
  cases hlast : (es.filterMap kind?).reverse.find? (nameOf · = name) with
  | none =>
      symm
      rw [List.find?_eq_none] at hlast ⊢
      exact fun x hx => hlast x (List.mem_reverse.2 hx)
  | some x =>
      have hname : nameOf x = name := by simpa using List.find?_some hlast
      subst hname
      have hmem := List.mem_reverse.1 (List.mem_of_find?_eq_some hlast)
      exact (find?_of_nodup_map h hmem).symm

theorem name_of_latest? {es : List (Enrolment β μ)} {name : String} {x : α}
    (h : latest? kind? nameOf es name = some x) : nameOf x = name := by
  rw [latest?, List.findRev?_eq_find?_reverse] at h
  simpa using List.find?_some h

end

variable [Transport β] [Stage μ]

def latestCarrier? (es : List (Enrolment β μ)) : String → Option (Base β) :=
  latest? carrier? Stage.name es

def latestModifier? (es : List (Enrolment β μ)) : String → Option (Layer μ) :=
  latest? modifier? Layer.name es

omit [Stage μ] in
theorem latestCarrier?_eq_none_iff (es : List (Enrolment β μ)) (name : String) :
    latestCarrier? es name = none ↔ ∀ b, .carrier b ∈ es → Stage.name b ≠ name := by
  rw [latestCarrier?, latest?_eq_none_iff]
  constructor
  · exact fun h b hb => h _ hb b rfl
  · rintro h (b | l) he _ ⟨⟩
    exact h b he

omit [Transport β] in
theorem latestModifier?_eq_none_iff (es : List (Enrolment β μ)) (name : String) :
    latestModifier? es name = none ↔ ∀ l, .modifier l ∈ es → l.name ≠ name := by
  rw [latestModifier?, latest?_eq_none_iff]
  constructor
  · exact fun h l hl => h _ hl l rfl
  · rintro h (b | l) he _ ⟨⟩
    exact h l he

omit [Transport β] in
theorem names_of_latestModifier? {es : List (Enrolment β μ)} {names : List String}
    {prototypes : List (Layer μ)}
    (h : names.map (latestModifier? es) = prototypes.map some) :
    prototypes.map Layer.name = names := by
  induction names generalizing prototypes with
  | nil =>
      rw [List.map_eq_nil_iff.1 h.symm]
      rfl
  | cons name names ih =>
      cases prototypes with
      | nil => cases h
      | cons l prototypes =>
          rw [List.map_cons, List.map_cons, List.cons.injEq] at h
          rw [List.map_cons, name_of_latest? _ _ h.1, ih h.2]

end Enrolment

namespace Catalog

open Enrolment

variable [Transport β] [Stage μ]

/-- What was entered into a catalog, in order, from an empty one on or from the standard one. -/
inductive Entered : Catalog β μ → List (Enrolment β μ) → Prop where
  | empty : Entered {} []
  | standard : Entered .standard stock
  | addCarrier {c : Catalog β μ} {es : List (Enrolment β μ)} (h : Entered c es) (b : Base β) :
      Entered (c.addCarrier b) (es ++ [.carrier b])
  | addModifier {c : Catalog β μ} {es : List (Enrolment β μ)} (h : Entered c es) (l : Layer μ) :
      Entered (c.addModifier l) (es ++ [.modifier l])

omit [Stage μ] in
theorem carrier?_addCarrier (c : Catalog β μ) (b : Base β) (name : String) :
    (c.addCarrier b).carrier? name = if name = Stage.name b then some b else c.carrier? name :=
  find?_replace Stage.name b c.carriers name

variable {c : Catalog β μ} {es : List (Enrolment β μ)}

theorem Entered.carrier? (h : c.Entered es) (name : String) :
    c.carrier? name = latestCarrier? es name := by
  induction h with
  | empty => rfl
  | standard =>
      have hnames : (((stock : List (Enrolment β μ)).filterMap Enrolment.carrier?).map
          Stage.name).Nodup :=
        show ["tcp", "fast_tcp", "udp", "mcast", "local"].Nodup by decide
      exact (latest?_of_nodup Enrolment.carrier? Stage.name hnames name).symm
  | addCarrier _ b ih =>
      rw [carrier?_addCarrier, ih]
      exact (latest?_concat_of_some Enrolment.carrier? Stage.name _ rfl name).symm
  | addModifier _ l ih =>
      exact ih.trans (latest?_concat_of_none Enrolment.carrier? Stage.name _ rfl name).symm

theorem Entered.modifier? (h : c.Entered es) (name : String) :
    c.modifier? name = latestModifier? es name := by
  induction h with
  | empty => rfl
  | standard =>
      have hnames : (((stock : List (Enrolment β μ)).filterMap Enrolment.modifier?).map
          Layer.name).Nodup :=
        show [PriorityLayer.name].Nodup by decide
      exact (latest?_of_nodup Enrolment.modifier? Layer.name hnames name).symm
  | addCarrier _ b ih =>
      exact ih.trans (latest?_concat_of_none Enrolment.modifier? Layer.name _ rfl name).symm
  | addModifier _ l ih =>
      rw [modifier?_addModifier, ih]
      exact (latest?_concat_of_some Enrolment.modifier? Layer.name _ rfl name).symm

/-! ## Building -/

omit [Transport β] in
theorem wrapAll_eq_error_iff (c : Catalog β μ) (chain : Chain β μ) (names : List String)
    (e : CarrierError) :
    c.wrapAll chain names = .error e ↔
      ∃ before name after, names = before ++ name :: after ∧ e = .unknownModifier name ∧
        c.modifier? name = none ∧ ∀ other ∈ before, c.modifier? other ≠ none := by
  induction names generalizing chain with
  | nil =>
      constructor
      · intro hok
        cases hok
      · rintro ⟨before, name, after, hsplit, -⟩
        cases before <;> cases hsplit
  | cons first names ih =>
      rw [wrapAll]
      cases hfirst : c.modifier? first with
      | none =>
          constructor
          · rintro ⟨⟩
            exact ⟨[], first, names, rfl, rfl, hfirst, List.forall_mem_nil _⟩
          · rintro ⟨_ | ⟨other, before⟩, name, after, hsplit, rfl, hname, hbefore⟩
            · cases hsplit
              rfl
            · cases hsplit
              exact absurd hfirst (hbefore first List.mem_cons_self)
      | some prototype =>
          dsimp only
          rw [ih]
          constructor
          · rintro ⟨before, name, after, rfl, rfl, hname, hbefore⟩
            refine ⟨first :: before, name, after, rfl, rfl, hname, ?_⟩
            exact List.forall_mem_cons.2 ⟨by simp [hfirst], hbefore⟩
          · rintro ⟨_ | ⟨other, before⟩, name, after, hsplit, rfl, hname, hbefore⟩
            · cases hsplit
              rw [hfirst] at hname
              cases hname
            · cases hsplit
              exact ⟨before, name, after, rfl, rfl, hname, (List.forall_mem_cons.1 hbefore).2⟩

theorem Entered.build_eq (h : c.Entered es) (text : String) (side : Direction) :
    c.build text side =
      if Spec.first text = "" then .error .emptySpec
      else
        match latestCarrier? es (Spec.first text) with
        | none => .error (.unknownCarrier (Spec.first text))
        | some b => c.wrapAll (.base (Stage.fresh b)) (Spec.asked side text) := by
  rw [← Spec.modifiers_parse, ← h.carrier?]
  rfl

end Catalog

namespace Chain

variable [Transport β] [Stage μ]

/-- The names of all stages, the outermost first. -/
def stageNames : Chain β μ → List String
  | .base b => [Stage.name b]
  | .wrap outer inner => outer.name :: inner.stageNames

theorem stageNames_eq (chain : Chain β μ) :
    chain.stageNames = (chain.layers.map Layer.name).reverse ++ [Stage.name chain.bottom] := by
  induction chain with
  | base b => rfl
  | wrap outer inner ih =>
      rw [stageNames, ih, layers, List.map_append, List.reverse_append]
      rfl

omit [Transport β] [Stage μ] in
theorem eq_nest_iff (chain : Chain β μ) (f : Flat β μ) :
    chain = f.nest ↔ chain.bottom = f.base ∧ chain.layers = f.layers := by
  constructor
  · rintro rfl
    have hflat := flat_nest f
    exact ⟨congrArg Flat.base hflat, congrArg Flat.layers hflat⟩
  · rintro ⟨hbottom, hlayers⟩
    rw [← nest_flat chain, flat, hbottom, hlayers]

end Chain

theorem Layer.name_fresh [Stage μ] (h : ∀ x : μ, Stage.name (Stage.fresh x) = Stage.name x)
    (l : Layer μ) : l.fresh.name = l.name := by
  cases l with
  | priority p => rfl
  | custom m => exact h m

theorem Base.name_fresh [Transport β] (h : ∀ x : β, Stage.name (Stage.fresh x) = Stage.name x)
    (b : Base β) : Stage.name (Stage.fresh b) = Stage.name b := by
  cases b with
  | lengthPrefixed t => rfl
  | custom b => exact h b

namespace Catalog

open Enrolment

variable [Transport β] [Stage μ] {c : Catalog β μ} {es : List (Enrolment β μ)}

namespace Entered

theorem build_emptySpec_iff (h : c.Entered es) (text : String) (side : Direction) :
    c.build text side = .error .emptySpec ↔ Spec.first text = "" := by
  rw [h.build_eq]
  constructor
  · intro hbuild
    by_contra hne
    rw [if_neg hne] at hbuild
    split at hbuild
    · cases hbuild
    · obtain ⟨_, _, _, _, he, _⟩ := (wrapAll_eq_error_iff ..).1 hbuild
      cases he
  · exact fun hempty => if_pos hempty

theorem build_unknownCarrier_iff (h : c.Entered es) (text : String) (side : Direction)
    (name : String) :
    c.build text side = .error (.unknownCarrier name) ↔
      name = Spec.first text ∧ Spec.first text ≠ "" ∧
        ∀ b, .carrier b ∈ es → Stage.name b ≠ Spec.first text := by
  rw [h.build_eq, ← latestCarrier?_eq_none_iff]
  by_cases hempty : Spec.first text = ""
  · simp [hempty]
  · rw [if_neg hempty]
    cases hlatest : latestCarrier? es (Spec.first text) with
    | none => simp [hempty, eq_comm]
    | some b =>
        refine ⟨fun hbuild => ?_, nofun⟩
        obtain ⟨_, _, _, _, he, _⟩ := (wrapAll_eq_error_iff ..).1 hbuild
        cases he

theorem build_unknownModifier_iff (h : c.Entered es) (text : String) (side : Direction)
    (name : String) :
    c.build text side = .error (.unknownModifier name) ↔
      Spec.first text ≠ "" ∧ (∃ b, .carrier b ∈ es ∧ Stage.name b = Spec.first text) ∧
      ∃ before after, Spec.asked side text = before ++ name :: after ∧
        (∀ l, .modifier l ∈ es → l.name ≠ name) ∧
        ∀ other ∈ before, ∃ l, .modifier l ∈ es ∧ l.name = other := by
  have hknown : ∀ other, (∃ l, .modifier l ∈ es ∧ l.name = other) ↔ c.modifier? other ≠ none := by
    intro other
    rw [h.modifier?, Ne, latestModifier?_eq_none_iff]
    push Not
    rfl
  have hcarrier : (∃ b, .carrier b ∈ es ∧ Stage.name b = Spec.first text) ↔
      latestCarrier? es (Spec.first text) ≠ none := by
    rw [Ne, latestCarrier?_eq_none_iff]
    push Not
    rfl
  simp only [hknown, hcarrier, ← latestModifier?_eq_none_iff, ← h.modifier?]
  rw [h.build_eq]
  by_cases hempty : Spec.first text = ""
  · simp [hempty]
  · rw [if_neg hempty]
    cases hlatest : latestCarrier? es (Spec.first text) with
    | none => simp
    | some b =>
        dsimp only
        rw [wrapAll_eq_error_iff]
        constructor
        · rintro ⟨before, _, after, hsplit, ⟨⟩, hname, hbefore⟩
          exact ⟨hempty, nofun, before, after, hsplit, hname, hbefore⟩
        · rintro ⟨-, -, before, after, hsplit, hname, hbefore⟩
          exact ⟨before, name, after, hsplit, rfl, hname, hbefore⟩

theorem build_ok_iff (h : c.Entered es) (text : String) (side : Direction) (chain : Chain β μ) :
    c.build text side = .ok chain ↔
      Spec.first text ≠ "" ∧ ∃ (b : Base β) (prototypes : List (Layer μ)),
        latestCarrier? es (Spec.first text) = some b ∧
        (Spec.asked side text).map (latestModifier? es) = prototypes.map some ∧
        chain.bottom = Stage.fresh b ∧ chain.layers = prototypes.map Layer.fresh := by
  have hmodifier : c.modifier? = latestModifier? es := funext h.modifier?
  rw [h.build_eq]
  by_cases hempty : Spec.first text = ""
  · simp [hempty]
  · rw [if_neg hempty]
    cases hlatest : latestCarrier? es (Spec.first text) with
    | none => simp
    | some b =>
        dsimp only
        rw [wrapAll_eq_ok_iff, hmodifier]
        constructor
        · rintro ⟨prototypes, hnames, hchain⟩
          have hstages := (chain.eq_nest_iff ⟨_, prototypes.map Layer.fresh⟩).1 hchain
          exact ⟨hempty, b, prototypes, rfl, hnames, hstages⟩
        · rintro ⟨-, _, prototypes, ⟨⟩, hnames, hstages⟩
          exact ⟨prototypes, hnames, (chain.eq_nest_iff ⟨_, _⟩).2 hstages⟩

theorem error_of_build (h : c.Entered es) {text : String} {side : Direction} {e : CarrierError}
    (he : c.build text side = .error e) :
    e = .emptySpec ∨ (∃ name, e = .unknownCarrier name) ∨ ∃ name, e = .unknownModifier name := by
  rw [h.build_eq] at he
  split at he
  · exact Or.inl (Except.error.inj he).symm
  · split at he
    · exact Or.inr (Or.inl ⟨_, (Except.error.inj he).symm⟩)
    · obtain ⟨_, name, _, _, hname, _⟩ := (wrapAll_eq_error_iff ..).1 he
      exact Or.inr (Or.inr ⟨name, hname⟩)

theorem stageNames_of_build (h : c.Entered es)
    (hcarriers : ∀ x : β, Stage.name (Stage.fresh x) = Stage.name x)
    (hmodifiers : ∀ x : μ, Stage.name (Stage.fresh x) = Stage.name x) {text : String}
    {side : Direction} {chain : Chain β μ} (hbuild : c.build text side = .ok chain) :
    chain.stageNames = (Spec.asked side text).reverse ++ [Spec.first text] := by
  obtain ⟨-, b, prototypes, hlatest, hnames, hbottom, hlayers⟩ := (h.build_ok_iff ..).1 hbuild
  have hbase : Stage.name b = Spec.first text := name_of_latest? _ _ hlatest
  have hfresh : (prototypes.map Layer.fresh).map Layer.name = prototypes.map Layer.name := by
    rw [List.map_map]
    exact List.map_congr_left fun l _ => l.name_fresh hmodifiers
  rw [Chain.stageNames_eq, hbottom, hlayers, hfresh, names_of_latestModifier? hnames,
    Base.name_fresh hcarriers, hbase]

end Entered

/-- What a catalog builds, for whatever was entered into it. The first piece of the text names the
base carrier, and the pieces that begin with the side name the modifiers. Without a first piece the
specification is empty; otherwise the base carrier is unknown if none was entered under this name;
otherwise the first name under which no modifier was entered is an unknown modifier; and otherwise
the chain is made of new instances of what was entered last under each of these names, each modifier
around those that are named before it. Nothing else in the text matters. -/
theorem Entered.build_iff (h : c.Entered es) (text : String) (side : Direction) :
    let base := Spec.first text
    let names := Spec.asked side text
    (c.build text side = .error .emptySpec ↔ base = "") ∧
    (∀ name, c.build text side = .error (.unknownCarrier name) ↔
      name = base ∧ base ≠ "" ∧ ∀ b, .carrier b ∈ es → Stage.name b ≠ base) ∧
    (∀ name, c.build text side = .error (.unknownModifier name) ↔
      base ≠ "" ∧ (∃ b, .carrier b ∈ es ∧ Stage.name b = base) ∧
      ∃ before after, names = before ++ name :: after ∧
        (∀ l, .modifier l ∈ es → l.name ≠ name) ∧
        ∀ other ∈ before, ∃ l, .modifier l ∈ es ∧ l.name = other) ∧
    (∀ chain, c.build text side = .ok chain ↔
      base ≠ "" ∧ ∃ (b : Base β) (prototypes : List (Layer μ)), latestCarrier? es base = some b ∧
        names.map (latestModifier? es) = prototypes.map some ∧
        chain.bottom = Stage.fresh b ∧ chain.layers = prototypes.map Layer.fresh) ∧
    (∀ e, c.build text side = .error e →
      e = .emptySpec ∨ (∃ name, e = .unknownCarrier name) ∨ ∃ name, e = .unknownModifier name) ∧
    ((∀ x : β, Stage.name (Stage.fresh x) = Stage.name x) →
      (∀ x : μ, Stage.name (Stage.fresh x) = Stage.name x) →
      ∀ chain, c.build text side = .ok chain → chain.stageNames = names.reverse ++ [base]) ∧
    ∀ text', Spec.first text' = base → Spec.asked side text' = names →
      c.build text' side = c.build text side := by
  intro base names
  refine ⟨h.build_emptySpec_iff text side, h.build_unknownCarrier_iff text side,
    h.build_unknownModifier_iff text side, h.build_ok_iff text side, fun _ => h.error_of_build,
    fun hcarriers hmodifiers _ => h.stageNames_of_build hcarriers hmodifiers, ?_⟩
  intro text' hfirst hasked
  rw [h.build_eq, h.build_eq, hfirst, hasked]

structure Edition where
  name : String
  number : Nat

instance : Stage Edition where
  name := Edition.name
  fresh m := m

/-- The later edition of two; a side for which a modifier is missing; the name of a transport where
a modifier is asked for, and the name of a modifier where a transport is. -/
theorem Entered.build_iff_zip :
    let zip (number : Nat) : Layer Edition := .custom ⟨"zip", number⟩
    let c : Catalog Empty Edition := (Catalog.standard.addModifier (zip 1)).addModifier (zip 2)
    let es := stock ++ [.modifier (zip 1)] ++ [.modifier (zip 2)]
    let text := " tcp + recv.zip + send.crypt + level.3 + recv + recv.priority"
    c.Entered es ∧
      (∃ chain, c.build text .recv = .ok chain ∧ chain.layers = [zip 2, .priority {}] ∧
        chain.stageNames = ["priority", "zip", "tcp"]) ∧
      c.build text .send = .error (.unknownModifier "crypt") ∧
      c.build "tcp+recv.udp" .recv = .error (.unknownModifier "udp") ∧
      c.build "zip" .recv = .error (.unknownCarrier "zip") := by
  intro zip c es text
  have hentered : c.Entered es := (Entered.standard.addModifier (zip 1)).addModifier (zip 2)
  have hfirst : Spec.first text = "tcp" := by decide +kernel
  have hrecv : Spec.asked .recv text = ["zip", "priority"] := by decide +kernel
  have hsend : Spec.asked .send text = ["crypt"] := by decide +kernel
  have hudp : Spec.asked .recv "tcp+recv.udp" = ["udp"] := by decide +kernel
  obtain ⟨-, -, -, hok, -, hnames, -⟩ := hentered.build_iff text .recv
  obtain ⟨-, -, hcrypt, -⟩ := hentered.build_iff text .send
  obtain ⟨-, -, hmissing, -⟩ := hentered.build_iff "tcp+recv.udp" .recv
  obtain ⟨-, hunknown, -⟩ := hentered.build_iff "zip" .recv
  have hbuilt : c.build text .recv = .ok
      (.wrap (.priority {}) (.wrap (zip 2) (.base (.lengthPrefixed (.stream "tcp"))))) := by
    rw [hok, hfirst, hrecv]
    exact ⟨by decide, .lengthPrefixed (.stream "tcp"), [zip 2, .priority {}], rfl, rfl, rfl, rfl⟩
  have htcp : .carrier (.lengthPrefixed (.stream "tcp")) ∈ es := List.mem_cons_self
  refine ⟨hentered, ⟨_, hbuilt, rfl, ?_⟩, ?_, ?_, ?_⟩
  · rw [hnames nofun (fun _ => rfl) _ hbuilt, hfirst, hrecv]
    rfl
  · rw [hcrypt, hfirst, hsend]
    exact ⟨by decide, ⟨_, htcp, rfl⟩, [], [], rfl,
      (latestModifier?_eq_none_iff es "crypt").1 rfl, nofun⟩
  · rw [hmissing, hudp]
    exact ⟨by decide +kernel, ⟨_, htcp, by decide +kernel⟩, [], [], rfl,
      (latestModifier?_eq_none_iff es "udp").1 rfl, nofun⟩
  · rw [hunknown]
    exact ⟨by decide +kernel, by decide +kernel, (latestCarrier?_eq_none_iff es _).1 (by rfl)⟩

end Catalog

end PortArbiter
