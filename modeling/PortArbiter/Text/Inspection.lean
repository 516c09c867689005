import PortArbiter.Text.Mark
import PortArbiter.Text.Unseen
/-!
# Inspection texts

The text that shows a value to its maintainer: quoted strings, lists and records with named fields.
-/

namespace PortArbiter.Text

/-- A character of a quoted string. One that would not be seen by itself is shown by number. -/
private def quotedChar (c : Char) : List Char :=
  match c with
  | '\x00' => ['\\', '0']
  | '\t' => ['\\', 't']
  | '\n' => ['\\', 'n']
  | '\r' => ['\\', 'r']
  | '"' => ['\\', '"']
  | '\\' => ['\\', '\\']
  | c =>
    if isMark c || isUnseen c then
      ['\\', 'u', '\x7b'] ++ Nat.toDigits 16 c.toNat ++ ['\x7d']
    else [c]

def quoted (s : String) : String :=
  "\"" ++ String.ofList (s.toList.flatMap quotedChar) ++ "\""

def truth (b : Bool) : String :=
  if b then "true" else "false"

def bracketed (items : List String) : String :=
  "[" ++ ", ".intercalate items ++ "]"

/-- A record: its name, then its fields in braces. -/
def record (name : String) (fields : List (String × String)) : String :=
  name ++ " \x7b " ++ ", ".intercalate (fields.map fun (field, value) => field ++ ": " ++ value)
    ++ " \x7d"

def applied (name argument : String) : String :=
  name ++ "(" ++ argument ++ ")"

def optional : Option String → String
  | none => "None"
  | some value => applied "Some" value

end PortArbiter.Text
