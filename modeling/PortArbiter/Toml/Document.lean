import PortArbiter.Toml.Statement
/-!
# TOML documents

The table that the statements of a document build up together, one after another. A statement that
contradicts an earlier one makes the document invalid.
-/

namespace PortArbiter.Toml

/-- A document read so far: its table, and the header that the next statements belong to. -/
structure Draft where
  entries : Entries := []
  header : List String := []

def Draft.step? (d : Draft) : Statement → Option Draft
  | .assign path v => do
    some { d with entries := ← d.entries.changeUnder (fun o es => es.assign? path v o) d.header }
  | .openTable path => do some ⟨← d.entries.openTable? path, path⟩
  | .openItem path => do some ⟨← d.entries.openItem? path, path⟩

def document? (text : String) : Option Entries := do
  let statements ← statements? text
  let draft ← statements.foldlM Draft.step? {}
  some draft.entries

namespace Value

def text? : Value → Option String
  | .string s => some s
  | _ => none

def truth? : Value → Option Bool
  | .boolean b => some b
  | _ => none

/-- A number, an integer being converted to the nearest double. -/
def number? : Value → Option Float
  | .float x => some x
  | .integer n => some (Float.ofInt n)
  | _ => none

def items? : Value → Option (List Value)
  | .array _ items => some items
  | _ => none

/-- A record with named fields: a table, or an array that holds the fields in their order. -/
def record? (fields : List String) : Value → Option Entries
  | .table _ es => some es
  | .array _ items => some (fields.zip items)
  | _ => none

end Value

namespace Entries

/-- The field of a key, which has to be there. -/
def field? {α : Type} (es : Entries) (key : String) (read : Value → Option α) : Option α :=
  (es.lookup key).bind read

/-- The field of a key, or another value if it is not there. -/
def fieldOr? {α : Type} (es : Entries) (key : String) (read : Value → Option α) (absent : α) :
    Option α :=
  match es.lookup key with
  | none => some absent
  | some v => read v

end Entries

end PortArbiter.Toml
