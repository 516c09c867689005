import PortArbiter.Decimal.Reader
/-!
# Command line arguments

The commands of the program and the arguments that ask for them. Options take a value, attached to
them or as the next argument; an argument that begins with a dash is no value, unless the dash is
all of it; an option is given at most once; behind `--` there are no options.
-/

namespace PortArbiter

/-- What the program is asked to do. -/
inductive Command where
  /-- Show a carrier specification and the chains it stands for. -/
  | parse (spec : String)
  /-- Print the decay curve of a source. -/
  | curve (level timeConstant : Float) (steps : Nat)
  /-- Replay a scenario, the one with two sources if no file is named. -/
  | simulate (file? : Option String)
  /-- Write a scenario to start from. -/
  | generate (file : String)
  | validate (file : String)
  | help
  | version

namespace Command

/-- An option of a command. -/
structure Switch where
  long : String
  short? : Option Char := none

/-- What a command accepts. -/
structure Grammar where
  switches : List Switch := []
  operands : Nat := 0

/-- What a command was given. Nothing behind a request for help is looked at. -/
structure Given where
  values : List (String × String) := []
  operands : List String := []
  help : Bool := false

/-- Take an option with its value. -/
def Given.add? (given : Given) (s : Switch) (value : String) : Option Given :=
  if (given.values.lookup s.long).isSome then none
  else some { given with values := given.values ++ [(s.long, value)] }

/-- Whether an argument is an option rather than a value. -/
def isFlag (arg : String) : Bool :=
  match arg.toList with
  | '-' :: _ :: _ => true
  | _ => false

/-- Split an argument at its first equals sign. -/
def splitValue (cs : List Char) : String × Option String :=
  let name := String.ofList (cs.takeWhile (· ≠ '='))
  match cs.dropWhile (· ≠ '=') with
  | [] => (name, none)
  | _ :: value => (name, some (String.ofList value))

def attached : List Char → Option String
  | [] => none
  | '=' :: cs => some (String.ofList cs)
  | cs => some (String.ofList cs)

/-- The option that an argument begins with, and the value attached to it. -/
def switch? (g : Grammar) (cs : List Char) : Option (Switch × Option String) :=
  match cs with
  | '-' :: '-' :: cs =>
    let (name, value?) := splitValue cs
    (g.switches.find? (·.long = name)).map (·, value?)
  | '-' :: c :: cs => (g.switches.find? (·.short? = some c)).map (·, attached cs)
  | _ => none

def asksHelp (arg : String) : Bool :=
  arg = "--help" || (arg.startsWith "-h")

/-- Read the arguments of a command one after another. -/
def scan? (g : Grammar) (given : Given) (literal : Bool) : List String → Option Given
  | [] => some given
  | arg :: rest =>
    if literal ∨ ¬ isFlag arg then
      if given.operands.length < g.operands then
        scan? g { given with operands := given.operands ++ [arg] } literal rest
      else none
    else if arg = "--" then scan? g given true rest
    else if asksHelp arg then some { given with help := true }
    else
      match switch? g arg.toList with
      | none => none
      | some (s, some value) => do scan? g (← given.add? s value) false rest
      | some (s, none) =>
        match rest with
        | [] => none
        | value :: rest =>
          if isFlag value then none else do scan? g (← given.add? s value) false rest

/-- A whole number that fits into 64 bits. -/
def readCount? (s : String) : Option Nat :=
  let digits :=
    match s.toList with
    | '+' :: cs => cs
    | cs => cs
  let n := Decimal.ofDigits digits
  if ¬ digits.isEmpty ∧ digits.all Char.isDigit ∧ n < 0x10000000000000000 then some n else none

def readFile? (s : String) : Option String :=
  if s = "" then none else some s

def Given.value? {α : Type} (given : Given) (name : String) (read : String → Option α) :
    Option (Option α) :=
  match given.values.lookup name with
  | none => some none
  | some value => (read value).map some

def ofName? (name : String) (args : List String) : Option Command :=
  let scan (g : Grammar) (make : Given → Option Command) : Option Command := do
    let given ← scan? g {} false args
    match make given with
    | none => none
    | some command => some (if given.help then .help else command)
  match name with
  | "parse" => scan { operands := 1 } fun given =>
    match given.operands with
    | spec :: _ => some (.parse spec)
    | [] => if given.help then some .help else none
  | "curve" =>
    scan { switches := [{ long := "level" }, { long := "time" }, { long := "steps" }] }
      fun given => do
        let level? ← given.value? "level" readNumber?
        let timeConstant? ← given.value? "time" readNumber?
        let steps? ← given.value? "steps" readCount?
        some (.curve (level?.getD 10) (timeConstant?.getD 2) (steps?.getD 24))
  | "simulate" =>
    scan { switches := [{ long := "config", short? := some 'c' }] } fun given => do
      some (.simulate (← given.value? "config" readFile?))
  | "gen-config" =>
    scan { switches := [{ long := "output", short? := some 'o' }] } fun given => do
      let file? ← given.value? "output" readFile?
      some (.generate (file?.getD "scenario.toml"))
  | "validate" =>
    scan { switches := [{ long := "config", short? := some 'c' }] } fun given => do
      match ← given.value? "config" readFile? with
      | some file => some (.validate file)
      | none => if given.help then some .help else none
  | "help" =>
    let names := ["parse", "curve", "simulate", "gen-config", "validate", "help"]
    match args with
    | [] => some .help
    | [name] => if name ∈ names then some .help else none
    | _ => none
  | _ => none

/-- The command that arguments ask for, unless they cannot be understood. A log level may stand
before the command; there is no log. -/
def ofArguments? : List String → Option Command
  | [] => none
  | arg :: args =>
    match splitValue arg.toList with
    | ("--log-level", some _) => bare? args
    | ("--log-level", none) =>
      match args with
      | [] => none
      | level :: args => if isFlag level then none else bare? args
    | _ => bare? (arg :: args)
where
  bare? : List String → Option Command
    | [] => none
    | name :: args =>
      if asksHelp name then some .help
      else if name = "--version" ∨ name.startsWith "-V" then some .version
      else ofName? name args

end Command

end PortArbiter
