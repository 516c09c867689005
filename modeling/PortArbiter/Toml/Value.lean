/-!
# TOML values

The values of a TOML document. A table remembers what brought it about, because that decides who
may still add to it: a header may add to what headers and dotted keys made, a dotted key only to
what no header of its own has opened, and nobody to an inline table.
-/

namespace PortArbiter.Toml

/-- What brought a table about. -/
inductive Origin where
  /-- A header that names the table. -/
  | header
  /-- A header that names a table below it. -/
  | implied
  /-- A dotted key that leads through it. -/
  | dotted
  /-- Braces. -/
  | inline
deriving DecidableEq, Repr

/-- A value. Of dates and times only the form is checked, so they are all one value; an array is
`headed` if its items were opened by headers, one by one. -/
inductive Value where
  | string (s : String)
  | integer (n : Int)
  | float (x : Float)
  | boolean (b : Bool)
  | moment
  | array (headed : Bool) (items : List Value)
  | table (origin : Origin) (entries : List (String × Value))

abbrev Entries := List (String × Value)

namespace Entries

def replace (key : String) (v : Value) (es : Entries) : Entries :=
  es.map fun e => if e.1 = key then (key, v) else e

def add? (key : String) (v : Value) (es : Entries) : Option Entries :=
  if (es.lookup key).isSome then none else some (es ++ [(key, v)])

/-- Change the table that a path leads to. Tables on the way that do not exist are made, those
that do have to be of an origin that `passes`, and a headed array leads into its last item. -/
def changeAt (made : Origin) (passes : Origin → Bool)
    (change : Origin → Entries → Option Entries) :
    List String → Origin → Entries → Option Entries
  | [], origin, es => change origin es
  | key :: path, _, es =>
    match es.lookup key with
    | none => do
      let inner ← changeAt made passes change path made []
      some (es ++ [(key, .table made inner)])
    | some (.table origin inner) =>
      if passes origin then do
        let inner ← changeAt made passes change path origin inner
        some (replace key (.table origin inner) es)
      else none
    | some (.array true items) =>
      match items.getLast? with
      | some (.table origin inner) => do
        let inner ← changeAt made passes change path origin inner
        some (replace key (.array true (items.dropLast ++ [.table origin inner])) es)
      | _ => none
    | some _ => none

/-- Give a value to a key behind a path of dotted keys. The table that the path ends in has to be
one that dotted keys made. -/
def assign? (path : List String) (v : Value) (origin : Origin) (es : Entries) : Option Entries :=
  match path.getLast? with
  | none => none
  | some key =>
    let way := path.dropLast
    changeAt .dotted (fun o => o = .implied || o = .dotted)
      (fun o es => if way.isEmpty ∨ o = .dotted then add? key v es else none) way origin es

def changeUnder (change : Origin → Entries → Option Entries) (path : List String)
    (es : Entries) : Option Entries :=
  changeAt .implied (· ≠ .inline) change path .header es

/-- Open the table of a header. It may exist already if only headers below it implied it. -/
def openTable? (path : List String) (es : Entries) : Option Entries :=
  match path.getLast? with
  | none => none
  | some key =>
    changeUnder (fun _ es =>
      match es.lookup key with
      | none => some (es ++ [(key, .table .header [])])
      | some (.table .implied inner) => some (replace key (.table .header inner) es)
      | some _ => none) path.dropLast es

/-- Open one more item of a headed array. -/
def openItem? (path : List String) (es : Entries) : Option Entries :=
  match path.getLast? with
  | none => none
  | some key =>
    changeUnder (fun _ es =>
      match es.lookup key with
      | none => some (es ++ [(key, .array true [.table .header []])])
      | some (.array true items) =>
        some (replace key (.array true (items ++ [.table .header []])) es)
      | some _ => none) path.dropLast es

end Entries

end PortArbiter.Toml
