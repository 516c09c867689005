import PortArbiter.Proofs.Scenario.Sources
import PortArbiter.Proofs.Toml.Lines
import PortArbiter.Proofs.Toml.Tables
import PortArbiter.Scenario.Document
/-!
# Scenarios read back from their documents

A scenario stands for a table of its fields, its document says the statements that build this table,
and the table is read as the scenario. So a document is never taken for another scenario, whatever
its texts contain, as long as its numbers are finite.
-/

namespace PortArbiter.Scenario

open Toml

/-! ## The tables of a scenario -/

def optionalEntry (key : String) (text? : Option String) : Entries :=
  text?.toList.map fun text => (key, .string text)

def Source.entries (x : Source) : Entries :=
  [("name", .string x.name), ("level", .float x.level), ("time", .float x.timeConstant),
    ("inhibit", .boolean x.inhibitory)] ++ optionalEntry "arrival" x.arrival?

def Event.entries (e : Event) : Entries :=
  [("at", .float e.time), ("source", .string e.source)] ++ optionalEntry "payload" e.payload?

/-- The entry of an empty list, which has no headers. -/
def emptyEntry {α : Type} (key : String) (xs : List α) : Entries :=
  if xs.isEmpty then [(key, .array false [])] else []

def heading (s : Scenario) : Entries :=
  [("name", .string s.name), ("endpoint", .string s.endpoint), ("carrier", .string s.carrier)]
    ++ emptyEntry "sources" s.sources ++ emptyEntry "events" s.events

def entries (s : Scenario) : Entries :=
  s.heading ++ Entries.headed "sources" (s.sources.map Source.entries)
    ++ Entries.headed "events" (s.events.map Event.entries)

structure Finite (s : Scenario) : Prop where
  levels : ∀ x ∈ s.sources, x.level.isFinite = true
  timeConstants : ∀ x ∈ s.sources, x.timeConstant.isFinite = true
  times : ∀ e ∈ s.events, e.time.isFinite = true

theorem Valid.finite {s : Scenario} (h : s.Valid) : s.Finite where
  levels x hx := isFinite_of_isMagnitude (h.sources x hx).level
  timeConstants x hx := isFinite_of_isMagnitude (h.sources x hx).timeConstant
  times e he := isFinite_of_isMagnitude (h.times e he)

/-! ## What a document says -/

theorem says_line {key text : String} {v : Value} (hkey : IsBare key) (hv : Denotes text v) :
    Says (line key text) (Entries.assigns [(key, v)]) :=
  says_assign hkey hv

theorem says_optionalLine {key : String} (hkey : IsBare key) (text? : Option String) :
    Says (optionalLine key text?) (optionalEntry key text?).assigns := by
  cases text? with
  | none => exact says_nil
  | some text => exact says_line hkey (denotes_quote text)

theorem says_emptyLine {α : Type} {key : String} (hkey : IsBare key) (xs : List α) :
    Says (if xs.isEmpty then line key "[]" else "") (emptyEntry key xs).assigns := by
  rw [emptyEntry]
  split
  · exact says_line hkey denotes_empty
  · exact says_nil

theorem Source.says_document {x : Source} (hlevel : x.level.isFinite = true)
    (htime : x.timeConstant.isFinite = true) :
    Says x.document (.openItem ["sources"] :: x.entries.assigns) := by
  have hheader : Says ("\n[[" ++ "sources" ++ "]]\n") _ := says_openItem ⟨by decide, rfl⟩
  have hname : Says (line "name" (quote x.name)) _ := says_line ⟨by decide, rfl⟩ (denotes_quote _)
  have hlevel : Says (line "level" (number x.level)) _ :=
    says_line ⟨by decide, rfl⟩ (denotes_number hlevel)
  have htime : Says (line "time" (number x.timeConstant)) _ :=
    says_line ⟨by decide, rfl⟩ (denotes_number htime)
  have hinhibit : Says (line "inhibit" (if x.inhibitory then "true" else "false")) _ :=
    says_line ⟨by decide, rfl⟩ (denotes_boolean _)
  have harrival : Says (optionalLine "arrival" x.arrival?) _ :=
    says_optionalLine ⟨by decide, rfl⟩ _
  have htext : "\n[[" ++ "sources" ++ "]]\n" = "\n[[sources]]\n" := rfl
  rw [htext] at hheader
  have hall := ((((hheader.append hname).append hlevel).append htime).append hinhibit).append
    harrival
  rw [entries, Entries.assigns_append]
  exact hall

theorem Event.says_document {e : Event} (htime : e.time.isFinite = true) :
    Says e.document (.openItem ["events"] :: e.entries.assigns) := by
  have hheader : Says ("\n[[" ++ "events" ++ "]]\n") _ := says_openItem ⟨by decide, rfl⟩
  have htime : Says (line "at" (number e.time)) _ :=
    says_line ⟨by decide, rfl⟩ (denotes_number htime)
  have hsource : Says (line "source" (quote e.source)) _ :=
    says_line ⟨by decide, rfl⟩ (denotes_quote _)
  have hpayload : Says (optionalLine "payload" e.payload?) _ :=
    says_optionalLine ⟨by decide, rfl⟩ _
  have htext : "\n[[" ++ "events" ++ "]]\n" = "\n[[events]]\n" := rfl
  rw [htext] at hheader
  have hall := ((hheader.append htime).append hsource).append hpayload
  rw [entries, Entries.assigns_append]
  exact hall

theorem says_document {s : Scenario} (h : s.Finite) :
    Says s.document (s.heading.assigns
      ++ Entries.items "sources" (s.sources.map Source.entries)
      ++ Entries.items "events" (s.events.map Event.entries)) := by
  have hname : Says (line "name" (quote s.name)) _ := says_line ⟨by decide, rfl⟩ (denotes_quote _)
  have hendpoint : Says (line "endpoint" (quote s.endpoint)) _ :=
    says_line ⟨by decide, rfl⟩ (denotes_quote _)
  have hcarrier : Says (line "carrier" (quote s.carrier)) _ :=
    says_line ⟨by decide, rfl⟩ (denotes_quote _)
  have hnoSources : Says (if s.sources.isEmpty then line "sources" "[]" else "") _ :=
    says_emptyLine ⟨by decide, rfl⟩ _
  have hnoEvents : Says (if s.events.isEmpty then line "events" "[]" else "") _ :=
    says_emptyLine ⟨by decide, rfl⟩ _
  have hsources : Says (String.join (s.sources.map Source.document)) _ :=
    Says.join fun x hx => Source.says_document (h.levels x hx) (h.timeConstants x hx)
  have hevents : Says (String.join (s.events.map Event.document)) _ :=
    Says.join fun e he => Event.says_document (h.times e he)
  have hall := (((((hname.append hendpoint).append hcarrier).append hnoSources).append
    hnoEvents).append hsources).append hevents
  rw [heading, Entries.assigns_append, Entries.assigns_append, Entries.items, Entries.items,
    List.flatMap_map, List.flatMap_map]
  exact hall

/-! ## What the statements build -/

theorem Source.nodup_keys (x : Source) : (x.entries.map Prod.fst).Nodup := by
  rw [entries]
  cases x.arrival? with
  | none =>
      change ["name", "level", "time", "inhibit"].Nodup
      decide
  | some word =>
      change ["name", "level", "time", "inhibit", "arrival"].Nodup
      decide

theorem Event.nodup_keys (e : Event) : (e.entries.map Prod.fst).Nodup := by
  rw [entries]
  cases e.payload? with
  | none =>
      change ["at", "source"].Nodup
      decide
  | some text =>
      change ["at", "source", "payload"].Nodup
      decide

theorem nodup_keys_heading (s : Scenario) : (s.heading.map Prod.fst).Nodup := by
  rw [heading, emptyEntry, emptyEntry]
  cases s.sources.isEmpty <;> cases s.events.isEmpty
  · change ["name", "endpoint", "carrier"].Nodup
    decide
  · change ["name", "endpoint", "carrier", "events"].Nodup
    decide
  · change ["name", "endpoint", "carrier", "sources"].Nodup
    decide
  · change ["name", "endpoint", "carrier", "sources", "events"].Nodup
    decide

theorem heading_lookup_sources {s : Scenario} (h : s.sources ≠ []) :
    s.heading.lookup "sources" = none := by
  have hsome : s.sources.isEmpty = false := Bool.eq_false_iff.2 (mt List.isEmpty_iff.1 h)
  rw [heading, emptyEntry, emptyEntry, hsome]
  cases s.events.isEmpty <;> rfl

theorem heading_lookup_events {s : Scenario} (h : s.events ≠ []) :
    (s.heading ++ Entries.headed "sources" (s.sources.map Source.entries)).lookup "events" =
      none := by
  have hsome : s.events.isEmpty = false := Bool.eq_false_iff.2 (mt List.isEmpty_iff.1 h)
  rw [heading, emptyEntry, emptyEntry, Entries.headed, hsome, List.isEmpty_map]
  cases s.sources.isEmpty <;> rfl

theorem head_document (s : Scenario) : s.document.toList.head? = some 'n' := by
  simp only [document, line, String.toList_append, List.append_assoc]
  rfl

theorem document?_document {s : Scenario} (h : s.Finite) :
    document? s.document = some s.entries := by
  have hmark : s.document.toList.head? ≠ some '\ufeff' := by
    rw [head_document]
    decide
  have hstatements := statements?_of_says (says_document h) hmark
  have hheading : s.heading.assigns.foldlM Draft.step? {} = some ⟨s.heading, []⟩ :=
    Draft.foldlM_assigns (fun v hv => Draft.step?_entry v hv) (nodup_keys_heading s)
  obtain ⟨last, hsources⟩ := Draft.foldlM_items
    (fun hne => heading_lookup_sources (mt List.map_eq_nil_iff.2 hne)) []
    (List.forall_mem_map.2 fun x (_ : x ∈ s.sources) => x.nodup_keys)
  obtain ⟨last', hevents⟩ := Draft.foldlM_items
    (fun hne => heading_lookup_events (mt List.map_eq_nil_iff.2 hne)) last
    (List.forall_mem_map.2 fun e (_ : e ∈ s.events) => e.nodup_keys)
  simp only [document?, hstatements, List.foldlM_append, hheading, hsources, hevents,
    Option.bind_eq_bind, Option.bind_some]
  rfl

/-! ## What the table is read as -/

theorem Source.ofValue?_entries (x : Source) : ofValue? (.table .header x.entries) = some x := by
  obtain ⟨name, level, time, inhibit, arrival?⟩ := x
  cases arrival? with
  | none => rfl
  | some word => rfl

theorem Event.ofValue?_entries (e : Event) : ofValue? (.table .header e.entries) = some e := by
  obtain ⟨time, source, payload?⟩ := e
  cases payload? with
  | none => rfl
  | some text => rfl

theorem mapM_ofValue? {α : Type} {read : Value → Option α} {fields : α → Entries}
    (h : ∀ x, read (.table .header (fields x)) = some x) (xs : List α) :
    ((xs.map fields).map (.table .header)).mapM read = some xs := by
  induction xs with
  | nil => rfl
  | cons x xs ih =>
      rw [List.map_cons, List.map_cons, List.mapM_cons, h, ih]
      rfl

theorem lookup_sources (s : Scenario) : ∃ headed, s.entries.lookup "sources" =
    some (.array headed ((s.sources.map Source.entries).map (.table .header))) := by
  rw [entries, heading, emptyEntry, emptyEntry, Entries.headed, Entries.headed]
  cases s.sources <;> cases s.events <;> exact ⟨_, rfl⟩

theorem lookup_events (s : Scenario) : ∃ headed, s.entries.lookup "events" =
    some (.array headed ((s.events.map Event.entries).map (.table .header))) := by
  rw [entries, heading, emptyEntry, emptyEntry, Entries.headed, Entries.headed]
  cases s.sources <;> cases s.events <;> exact ⟨_, rfl⟩

theorem ofEntries?_entries (s : Scenario) : ofEntries? s.entries = some s := by
  obtain ⟨headed, hsources⟩ := lookup_sources s
  obtain ⟨headed', hevents⟩ := lookup_events s
  have hname : s.entries.lookup "name" = some (.string s.name) := rfl
  have hendpoint : s.entries.lookup "endpoint" = some (.string s.endpoint) := rfl
  have hcarrier : s.entries.lookup "carrier" = some (.string s.carrier) := rfl
  simp only [ofEntries?, Entries.fieldOr?, hname, hendpoint, hcarrier, hsources, hevents,
    Value.text?, Value.items?, mapM_ofValue? Source.ofValue?_entries,
    mapM_ofValue? Event.ofValue?_entries, Option.bind_eq_bind, Option.bind_some]

/-- Reading undoes writing, for a scenario that is not valid as well. -/
theorem read_document {s : Scenario} (h : s.Finite) :
    (document? s.document).bind ofEntries? = some s := by
  rw [document?_document h, Option.bind_some, ofEntries?_entries]

theorem document_inj {s t : Scenario} (hs : s.Finite) (ht : t.Finite) :
    s.document = t.document ↔ s = t := by
  refine ⟨fun h => ?_, congrArg document⟩
  have hread := read_document hs
  rw [h, read_document ht] at hread
  exact (Option.some.inj hread).symm

/-- The document of a valid scenario is read as that scenario. -/
theorem parse_document {s : Scenario} (h : s.validate = .ok ()) : parse s.document = .ok s := by
  have hvalid := valid_of_validate h
  have hread : (document? s.document).bind ofEntries? = some s := read_document hvalid.finite
  rw [parse, hread]
  dsimp only
  rw [h]

/-- Texts that need each form of quoting, a time that is a negative zero, and fields left out. -/
def awkwardTexts : Scenario where
  name := "\n'''\"\"\"\\ \x01"
  endpoint := "it's"
  carrier := "tc\"p"
  sources := [
    { name := "C:\\", level := 0.1, timeConstant := 1e22, arrival? := some "observed" },
    { name := "a\nb''\\", timeConstant := 1.5, inhibitory := true }]
  events := [
    { time := -0.0, source := "C:\\", payload? := some "" },
    { time := 3, source := "a\nb''\\" }]

theorem parse_document_awkwardTexts :
    awkwardTexts.validate = .ok () ∧ parse awkwardTexts.document = .ok awkwardTexts := by
  have hvalid : awkwardTexts.validate = .ok () := rfl
  exact ⟨hvalid, parse_document hvalid⟩

end PortArbiter.Scenario
