import PortArbiter.Decimal.Reader
/-!
# TOML strings

The four written forms of a string: on one line or as a block, each with escapes or literal. The
writer takes the first form of a fixed preference that can hold the string; the reader knows all
four.
-/

namespace PortArbiter.Toml

/-- Characters that may stand for themselves in every form but a quote or a backslash. -/
def isPrintable (c : Char) : Bool :=
  c = '\t' || (0x20 ≤ c.toNat && c.toNat ≠ 0x7f)

/-- A written form of strings. -/
inductive Form where
  | basic
  | literal
  | basicBlock
  | literalBlock
deriving DecidableEq, Repr

/-- The length of the longest run of `q` in a text, `run` of them standing before it. -/
def longestRun (q : Char) (run : Nat) : List Char → Nat
  | [] => run
  | c :: cs => if c = q then longestRun q (run + 1) cs else max run (longestRun q 0 cs)

namespace Form

def choose (cs : List Char) : Form :=
  let controls := cs.any fun c => ¬ isPrintable c ∧ c ≠ '\n'
  let line := cs.contains '\n'
  let backslash := cs.contains '\\'
  let quotes := longestRun '"' 0 cs
  let apostrophes := longestRun '\'' 0 cs
  if ¬ controls ∧ ¬ backslash ∧ ¬ line ∧ quotes = 0 then .basic
  else if ¬ controls ∧ ¬ line ∧ apostrophes = 0 then .literal
  else if ¬ controls ∧ ¬ backslash ∧ quotes ≤ 2 then .basicBlock
  else if ¬ controls ∧ apostrophes ≤ 2 then .literalBlock
  else if line then .basicBlock
  else .basic

/-- The four digits of a control character. -/
def hexDigits (n : Nat) : List Char :=
  let digits := (Nat.toDigits 16 n).map Char.toUpper
  List.replicate (4 - digits.length) '0' ++ digits

/-- The escape of a character that needs one, whatever stands before it. -/
def escape? (c : Char) : Option (List Char) :=
  match c with
  | '\x08' => some ['\\', 'b']
  | '\t' => some ['\\', 't']
  | '\x0c' => some ['\\', 'f']
  | '\r' => some ['\\', 'r']
  | '\\' => some ['\\', '\\']
  | c => if isPrintable c then none else some ('\\' :: 'u' :: hexDigits c.toNat)

/-- The body of a text between quotes. At most `most` quotes stand in a row unescaped, `run` of
them already do, and a line break stands for itself in a block only. -/
def escapeAll (block : Bool) (most : Nat) (run : Nat) : List Char → List Char
  | [] => []
  | '"' :: cs =>
    if run < most then '"' :: escapeAll block most (run + 1) cs
    else '\\' :: '"' :: escapeAll block most 0 cs
  | '\n' :: cs =>
    (if block then ['\n'] else ['\\', 'n']) ++ escapeAll block most 0 cs
  | c :: cs => (escape? c).getD [c] ++ escapeAll block most 0 cs

/-- A block starts on a line of its own if the text has several lines. -/
def opening (cs : List Char) : List Char :=
  if cs.contains '\n' then ['\n'] else []

def write (form : Form) (cs : List Char) : List Char :=
  match form with
  | .basic => ['"'] ++ escapeAll false 0 0 cs ++ ['"']
  | .literal => ['\''] ++ cs ++ ['\'']
  | .basicBlock => ['"', '"', '"'] ++ opening cs ++ escapeAll true 2 0 cs ++ ['"', '"', '"']
  | .literalBlock => ['\'', '\'', '\''] ++ opening cs ++ cs ++ ['\'', '\'', '\'']

end Form

def quote (s : String) : String :=
  let cs := s.toList
  String.ofList ((Form.choose cs).write cs)

/-! ## Reading -/

def digitValue? (base : Nat) (c : Char) : Option Nat :=
  let n :=
    if c.isDigit then c.toNat - '0'.toNat
    else if 'a' ≤ c ∧ c ≤ 'f' then c.toNat - 'a'.toNat + 10
    else if 'A' ≤ c ∧ c ≤ 'F' then c.toNat - 'A'.toNat + 10
    else base
  if n < base then some n else none

def ofDigits? (base : Nat) (cs : List Char) : Option Nat :=
  cs.foldlM (fun n c => (digitValue? base c).map (base * n + ·)) 0

/-- The character of exactly `n` hexadecimal digits. -/
def codePoint? (n : Nat) (cs : List Char) : Option (Char × List Char) :=
  let digits := cs.take n
  match ofDigits? 16 digits with
  | none => none
  | some code =>
    if digits.length = n ∧ code.isValidChar then some (Char.ofNat code, cs.drop n) else none

theorem codePoint?_length {n : Nat} {cs rest : List Char} {c : Char}
    (h : codePoint? n cs = some (c, rest)) : rest.length ≤ cs.length := by
  simp only [codePoint?] at h
  split at h
  · simp at h
  · split at h
    · obtain ⟨-, rfl⟩ : _ ∧ cs.drop n = rest := by simpa using h
      simp
    · simp at h

/-- The character behind a backslash. -/
def unescape? : List Char → Option (Char × List Char)
  | 'b' :: cs => some ('\x08', cs)
  | 't' :: cs => some ('\t', cs)
  | 'n' :: cs => some ('\n', cs)
  | 'f' :: cs => some ('\x0c', cs)
  | 'r' :: cs => some ('\r', cs)
  | '"' :: cs => some ('"', cs)
  | '\\' :: cs => some ('\\', cs)
  | 'u' :: cs => codePoint? 4 cs
  | 'U' :: cs => codePoint? 8 cs
  | _ => none

theorem unescape?_length {cs rest : List Char} {c : Char} (h : unescape? cs = some (c, rest)) :
    rest.length < cs.length := by
  unfold unescape? at h
  split at h
  case h_8 | h_9 =>
    have := codePoint?_length h
    simp only [List.length_cons]
    omega
  case h_10 => simp at h
  all_goals
    obtain ⟨-, rfl⟩ : _ ∧ _ = rest := by simpa using h
    simp

def skipSpace : List Char → List Char
  | '\r' :: '\n' :: cs => skipSpace cs
  | c :: cs => if c = ' ' ∨ c = '\t' ∨ c = '\n' then skipSpace cs else c :: cs
  | [] => []

def skipBlanks (cs : List Char) : List Char :=
  cs.dropWhile fun c => c = ' ' || c = '\t'

def newline? : List Char → Option (List Char)
  | '\n' :: cs => some cs
  | '\r' :: '\n' :: cs => some cs
  | _ => none

theorem skipSpace_length (cs : List Char) : (skipSpace cs).length ≤ cs.length := by
  fun_induction skipSpace cs with
  | case1 cs ih => simp only [List.length_cons]; omega
  | case2 c cs _ _ ih => simp only [List.length_cons]; omega
  | case3 => exact Nat.le_refl _
  | case4 => exact Nat.le_refl _

theorem skipBlanks_length (cs : List Char) : (skipBlanks cs).length ≤ cs.length :=
  (List.dropWhile_sublist _).length_le

theorem newline?_length {cs rest : List Char} (h : newline? cs = some rest) :
    rest.length < cs.length := by
  unfold newline? at h
  split at h
  case h_3 => simp at h
  all_goals
    obtain rfl : _ = rest := by simpa using h
    simp only [List.length_cons]
    omega

/-- The rest of a string with escapes on one line, and what follows it. -/
def basicRest (cs : List Char) : Option (List Char × List Char) :=
  match cs with
  | [] => none
  | '"' :: cs => some ([], cs)
  | '\\' :: cs =>
    match _h : unescape? cs with
    | none => none
    | some (c, rest) => (basicRest rest).map fun (body, rest) => (c :: body, rest)
  | c :: cs =>
    if isPrintable c then (basicRest cs).map fun (body, rest) => (c :: body, rest) else none
termination_by cs.length
decreasing_by
  · have := unescape?_length _h
    simp only [List.length_cons]
    omega
  · simp only [List.length_cons]
    omega

/-- The rest of a block with escapes, and what follows it. Up to two quotes may stand right before
the closing ones, and a backslash at the end of a line joins the text with the next one. -/
def basicBlockRest (cs : List Char) : Option (List Char × List Char) :=
  match cs with
  | [] => none
  | '"' :: '"' :: '"' :: '"' :: '"' :: cs => some (['"', '"'], cs)
  | '"' :: '"' :: '"' :: '"' :: cs => some (['"'], cs)
  | '"' :: '"' :: '"' :: cs => some ([], cs)
  | '\\' :: cs =>
    match _h : newline? (skipBlanks cs) with
    | some rest => basicBlockRest (skipSpace rest)
    | none =>
      match _h : unescape? cs with
      | none => none
      | some (c, rest) => (basicBlockRest rest).map fun (body, rest) => (c :: body, rest)
  | '\r' :: '\n' :: cs => (basicBlockRest cs).map fun (body, rest) => ('\n' :: body, rest)
  | c :: cs =>
    if isPrintable c ∨ c = '\n' then
      (basicBlockRest cs).map fun (body, rest) => (c :: body, rest)
    else none
termination_by cs.length
decreasing_by
  · have := newline?_length _h
    have := skipBlanks_length cs
    have := skipSpace_length rest
    simp only [List.length_cons]
    omega
  · have := unescape?_length _h
    simp only [List.length_cons]
    omega
  all_goals
    simp only [List.length_cons]
    omega

/-- The rest of a literal string on one line, and what follows it. -/
def literalRest : List Char → Option (List Char × List Char)
  | [] => none
  | '\'' :: cs => some ([], cs)
  | c :: cs =>
    if isPrintable c then (literalRest cs).map fun (body, rest) => (c :: body, rest) else none

/-- The rest of a literal block, and what follows it. -/
def literalBlockRest : List Char → Option (List Char × List Char)
  | [] => none
  | '\'' :: '\'' :: '\'' :: '\'' :: '\'' :: cs => some (['\'', '\''], cs)
  | '\'' :: '\'' :: '\'' :: '\'' :: cs => some (['\''], cs)
  | '\'' :: '\'' :: '\'' :: cs => some ([], cs)
  | '\r' :: '\n' :: cs => (literalBlockRest cs).map fun (body, rest) => ('\n' :: body, rest)
  | c :: cs =>
    if isPrintable c ∨ c = '\n' then
      (literalBlockRest cs).map fun (body, rest) => (c :: body, rest)
    else none

/-- A string in any form, and what follows it. A line break right behind the opening of a block
does not belong to the text. -/
def string? : List Char → Option (String × List Char)
  | '"' :: '"' :: '"' :: cs => close (basicBlockRest ((newline? cs).getD cs))
  | '"' :: cs => close (basicRest cs)
  | '\'' :: '\'' :: '\'' :: cs => close (literalBlockRest ((newline? cs).getD cs))
  | '\'' :: cs => close (literalRest cs)
  | _ => none
where
  close (read : Option (List Char × List Char)) : Option (String × List Char) :=
    read.map fun (body, rest) => (String.ofList body, rest)

end PortArbiter.Toml
