import PortArbiter.Toml.Number
/-!
# TOML statements

A document is a list of statements: a value given to a key, or a header that opens a table or the
next item of an array of tables. Reading is exact about what may stand where; whether the
statements agree with each other is left to `Document`.
-/

namespace PortArbiter.Toml

/-- One statement of a document. A path is the parts of a dotted key. -/
inductive Statement where
  | assign (path : List String) (v : Value)
  | openTable (path : List String)
  | openItem (path : List String)

/-- The most that arrays and inline tables may be nested, and the most parts of a dotted key. -/
def maxDepth : Nat := 79

def isKeyChar (c : Char) : Bool :=
  ('a' ≤ c && c ≤ 'z') || ('A' ≤ c && c ≤ 'Z') || c.isDigit || c = '-' || c = '_'

def simpleKey? : List Char → Option (String × List Char)
  | '"' :: cs => (basicRest cs).map fun (body, rest) => (String.ofList body, rest)
  | '\'' :: cs => (literalRest cs).map fun (body, rest) => (String.ofList body, rest)
  | cs =>
    let key := cs.takeWhile isKeyChar
    if key.isEmpty then none else some (String.ofList key, cs.dropWhile isKeyChar)

/-- A key of at most so many parts, with the blanks around it. -/
def path? : Nat → List Char → Option (List String × List Char)
  | 0, _ => none
  | most + 1, cs => do
    let (key, rest) ← simpleKey? (skipBlanks cs)
    match skipBlanks rest with
    | '.' :: rest =>
      let (path, rest) ← path? most rest
      some (key :: path, rest)
    | rest => some ([key], rest)

/-- A key, the equals sign, and the blanks around both. -/
def assignee? (cs : List Char) : Option (List String × List Char) := do
  let (path, rest) ← path? maxDepth cs
  let rest ← expect? '=' rest
  some (path, skipBlanks rest)

def isCommentChar (c : Char) : Bool :=
  isPrintable c

/-- Skip blanks, line breaks and whole comments; `comment` if the text begins within one. -/
def skipLines (comment : Bool) : List Char → Option (List Char)
  | [] => if comment then none else some []
  | '\n' :: cs => skipLines false cs
  | '\r' :: '\n' :: cs => skipLines false cs
  | c :: cs =>
    if comment then (if isCommentChar c then skipLines true cs else none)
    else if c = '#' then skipLines true cs
    else if c = ' ' ∨ c = '\t' then skipLines false cs
    else if c = '\r' then none
    else some (c :: cs)

/-- A string, a truth value, a number or a moment. -/
def scalar? : List Char → Option (Value × List Char)
  | 't' :: 'r' :: 'u' :: 'e' :: cs => some (.boolean true, cs)
  | 'f' :: 'a' :: 'l' :: 's' :: 'e' :: cs => some (.boolean false, cs)
  | cs => ((string? cs).map fun (s, rest) => (.string s, rest)).or (number? cs)

/-- The rest of an array behind its opening bracket or a comma. -/
def itemsRest? (element : List Char → Option (Value × List Char)) :
    Nat → List Char → Option (List Value × List Char)
  | 0, _ => none
  | fuel + 1, cs => do
    match ← skipLines false cs with
    | ']' :: rest => some ([], rest)
    | cs =>
      let (item, rest) ← element cs
      match ← skipLines false rest with
      | ',' :: rest =>
        let (items, rest) ← itemsRest? element fuel rest
        some (item :: items, rest)
      | ']' :: rest => some ([item], rest)
      | _ => none

/-- The rest of an inline table behind its opening brace or a comma. -/
def entriesRest? (element : List Char → Option (Value × List Char)) :
    Nat → Entries → List Char → Option (Entries × List Char)
  | 0, _, _ => none
  | fuel + 1, es, cs => do
    let (path, rest) ← assignee? cs
    let (v, rest) ← element rest
    let es ← es.assign? path v .inline
    match skipBlanks rest with
    | ',' :: rest => entriesRest? element fuel es rest
    | '}' :: rest => some (es, rest)
    | _ => none

/-- A value in which arrays and inline tables are nested at most so deep, and what follows it. -/
def value? : Nat → List Char → Option (Value × List Char)
  | 0, cs => scalar? cs
  | depth + 1, cs =>
    match cs with
    | '[' :: cs => do
      let (items, rest) ← itemsRest? (value? depth) (cs.length + 1) cs
      some (.array false items, rest)
    | '{' :: cs =>
      match skipBlanks cs with
      | '}' :: rest => some (.table .inline [], rest)
      | _ => do
        let (es, rest) ← entriesRest? (value? depth) (cs.length + 1) [] cs
        some (.table .inline es, rest)
    | cs => scalar? cs

/-- The end of a line: blanks, a comment, and a line break or the end of the document. -/
def lineEnd? (cs : List Char) : Option (List Char) :=
  let rest :=
    match skipBlanks cs with
    | '#' :: cs => cs.dropWhile isCommentChar
    | cs => cs
  if rest.isEmpty then some [] else newline? rest

/-- One statement, and the lines that follow it. -/
def statement? (cs : List Char) : Option (Statement × List Char) := do
  match cs with
  | '[' :: '[' :: cs =>
    let (path, rest) ← path? maxDepth cs
    let rest ← (expect? ']' rest).bind (expect? ']')
    some (.openItem path, ← lineEnd? rest)
  | '[' :: cs =>
    let (path, rest) ← path? maxDepth cs
    let rest ← expect? ']' rest
    some (.openTable path, ← lineEnd? rest)
  | cs =>
    let (path, rest) ← assignee? cs
    let (v, rest) ← value? maxDepth rest
    some (.assign path v, ← lineEnd? rest)

/-- The statements of a text of at most `fuel` lines. -/
def statementsOf? : Nat → List Char → Option (List Statement)
  | 0, _ => none
  | fuel + 1, cs =>
    match skipBlanks cs with
    | [] => some []
    | '#' :: cs => do statementsOf? fuel (← lineEnd? ('#' :: cs))
    | '\n' :: cs => statementsOf? fuel cs
    | '\r' :: '\n' :: cs => statementsOf? fuel cs
    | cs => do
      let (s, rest) ← statement? cs
      let statements ← statementsOf? fuel rest
      some (s :: statements)

/-- The statements of a document. A byte order mark at its beginning does not count. -/
def statements? (document : String) : Option (List Statement) :=
  let cs :=
    match document.toList with
    | '\ufeff' :: cs => cs
    | cs => cs
  statementsOf? (cs.length + 1) cs

end PortArbiter.Toml
