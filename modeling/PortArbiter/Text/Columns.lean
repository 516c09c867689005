/-!
# Columns

Text set into a column of a least width, counted in characters. A text that is wider stays whole.
-/

namespace PortArbiter.Text

private def blanks (n : Nat) : String :=
  String.ofList (List.replicate n ' ')

def flushRight (width : Nat) (s : String) : String :=
  blanks (width - s.length) ++ s

def flushLeft (width : Nat) (s : String) : String :=
  s ++ blanks (width - s.length)

end PortArbiter.Text
