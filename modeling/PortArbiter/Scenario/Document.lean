import PortArbiter.Scenario.Basic
import PortArbiter.Toml.Document
/-!
# Scenario documents

A scenario as a TOML document: its name, its endpoint and its carrier, then a table for each source
and one for each event. What a document leaves out has the value of an empty scenario, and keys
that no scenario has are passed over.
-/

namespace PortArbiter

/-- Why a file cannot be read or written, in the words of the system. -/
structure FileError where
  reason : String

namespace Scenario

open Toml

/-- Why a scenario cannot be read. -/
inductive ReadError where
  | unreadable (error : FileError)
  /-- The text is no document, or its values are not those of a scenario. -/
  | malformed
  | invalid (fault : Fault)

def ReadError.message : ReadError → String
  | .unreadable error => "I/O error: " ++ error.reason
  | .malformed => "TOML parse error: not the document of a scenario"
  | .invalid fault => "Invalid configuration: " ++ fault.reason

namespace Source

def ofValue? (v : Value) : Option Source := do
  let es ← v.record? ["name", "level", "time", "inhibit", "arrival"]
  some {
    name := ← es.field? "name" Value.text?
    level := ← es.fieldOr? "level" Value.number? 0
    timeConstant := ← es.fieldOr? "time" Value.number? 0
    inhibitory := ← es.fieldOr? "inhibit" Value.truth? false
    arrival? := ← es.fieldOr? "arrival" (fun v => v.text?.map some) none }

end Source

namespace Event

def ofValue? (v : Value) : Option Event := do
  let es ← v.record? ["at", "source", "payload"]
  some {
    time := ← es.field? "at" Value.number?
    source := ← es.field? "source" Value.text?
    payload? := ← es.fieldOr? "payload" (fun v => v.text?.map some) none }

end Event

/-- The scenario that a document describes, whether valid or not. -/
def ofEntries? (es : Entries) : Option Scenario := do
  let empty : Scenario := {}
  let list {α : Type} (read : Value → Option α) (v : Value) : Option (List α) := do
    (← v.items?).mapM read
  some {
    name := ← es.fieldOr? "name" Value.text? empty.name
    endpoint := ← es.fieldOr? "endpoint" Value.text? empty.endpoint
    carrier := ← es.fieldOr? "carrier" Value.text? empty.carrier
    sources := ← es.fieldOr? "sources" (list Source.ofValue?) []
    events := ← es.fieldOr? "events" (list Event.ofValue?) [] }

def parse (text : String) : Except ReadError Scenario :=
  match (document? text).bind ofEntries? with
  | none => .error .malformed
  | some s =>
    match s.validate with
    | .error fault => .error (.invalid fault)
    | .ok () => .ok s

/-! ## Writing -/

def line (key value : String) : String :=
  key ++ " = " ++ value ++ "\n"

def number (x : Float) : String :=
  NumberStyle.document.text x

def optionalLine (key : String) (text? : Option String) : String :=
  text?.elim "" fun text => line key (quote text)

def Source.document (s : Source) : String :=
  "\n[[sources]]\n" ++ line "name" (quote s.name) ++ line "level" (number s.level)
    ++ line "time" (number s.timeConstant)
    ++ line "inhibit" (if s.inhibitory then "true" else "false")
    ++ optionalLine "arrival" s.arrival?

def Event.document (e : Event) : String :=
  "\n[[events]]\n" ++ line "at" (number e.time) ++ line "source" (quote e.source)
    ++ optionalLine "payload" e.payload?

/-- The document of a scenario. An empty list is written before all tables. -/
def document (s : Scenario) : String :=
  line "name" (quote s.name) ++ line "endpoint" (quote s.endpoint)
    ++ line "carrier" (quote s.carrier)
    ++ (if s.sources.isEmpty then line "sources" "[]" else "")
    ++ (if s.events.isEmpty then line "events" "[]" else "")
    ++ String.join (s.sources.map Source.document) ++ String.join (s.events.map Event.document)

end Scenario

end PortArbiter
