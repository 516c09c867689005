import PortArbiter.Command.Arguments
import PortArbiter.Inspection
import PortArbiter.Scenario.Document
import PortArbiter.Scenario.Replay
/-!
# Commands

What each command prints and how it ends. A command touches at most one file, so it is a plan:
finish at once, or read or write one file and go on with what came of it.
-/

namespace PortArbiter

/-- What a command leaves behind. -/
structure Output where
  text : String := ""
  errors : String := ""
  exit : UInt32 := 0

/-- A command on its way. -/
inductive Plan where
  | finish (o : Output)
  | reading (file : String) (next : Except FileError String → Output)
  | writing (file content : String) (next : Except FileError Unit → Output)

namespace Command

open Scenario

/-- An error that ends the program, behind what was printed before it. -/
def failure (inspection : String) (printed : String := "") : Output :=
  { text := printed, errors := "Error: " ++ inspection ++ "\n", exit := 1 }

def parameterLine (p : Parameter) : String :=
  match p.value? with
  | some value => s!"  {p.key} = {value}\n"
  | none => s!"  {p.key} (flag)\n"

/-- The line of the chain that a specification builds for one side. -/
def chainLine (side : Direction) (c : Chain Empty Empty) : String :=
  let flags := c.flags
  s!"{side.token} chain: {c.describe} (companion={Text.truth flags.requiresCompanion}, "
    ++ s!"connectionless={Text.truth flags.connectionless}, "
    ++ s!"reply={Text.truth flags.supportsReply})\n"

/-- Show the parameters of a specification, then the chain of each side. -/
def showSpec (text : String) : Output :=
  let spec := Spec.parse text
  let head := s!"Carrier: {spec.base}\nParameters:\n"
    ++ String.join (spec.parameters.map parameterLine)
  let catalog : Catalog Empty Empty := .standard
  match catalog.build text .recv with
  | .error e => failure e.inspect head
  | .ok inbound =>
    let head := head ++ chainLine .recv inbound
    match catalog.build text .send with
    | .error e => failure e.inspect head
    | .ok outbound => { text := head ++ chainLine .send outbound }

/-- The number of marks that show a score against a level: forty for the level itself. -/
def marks (score level : Float) : Nat :=
  if 0 < level then
    match Reading.ofFloat (score / level * 40) with
    | .finite false v => Decimal.roundUp v
    | _ => 0
  else 0

def pointLine (level : Float) (point : Float × Float) : String :=
  let (t, score) := point
  "  t=" ++ Text.flushRight 7 (fixedText 3 t) ++ "  " ++ Text.flushRight 9 (fixedText 4 score)
    ++ "  " ++ String.ofList (List.replicate (marks score level) '#') ++ "\n"

def showCurve [Exponential] (level timeConstant : Float) (steps : Nat) : Output :=
  { text := "Decay curve: level=" ++ NumberStyle.plain.text level
      ++ " time=" ++ NumberStyle.plain.text timeConstant ++ "\n"
      ++ String.join ((Contender.curve level timeConstant steps).map (pointLine level)) }

def showReplay [Exponential] (s : Scenario) : Output :=
  match s.replay with
  | .error e => failure e.inspect
  | .ok report =>
    let count (source : Source) : String :=
      s!"  {source.name}: {report.deliveredFrom source.name} delivered\n"
    { text := report.text ++ "\n" ++ String.join (s.sources.map count) }

def readScenario (content : Except FileError String) : Except ReadError Scenario :=
  match content with
  | .error e => .error (.unreadable e)
  | .ok text => Scenario.parse text

def showSummary (s : Scenario) : Output :=
  { text := s!"Scenario valid!\n\nScenario: {s.name}\nEndpoint: {s.endpoint}\n"
      ++ s!"Sources: {s.sources.length}\n"
      ++ String.join (s.sources.map fun source =>
        s!"  {source.name} -> {source.carrierSpec s.carrier}\n")
      ++ s!"Events: {s.events.length}\n" }

/-- The file that `generate` writes. -/
def generated : String :=
  "# HDDS Carrier Scenario\n# Generated by hdds-carrier gen-config\n\n"
    ++ Scenario.twoSources.document ++ "\n"

def usage : String :=
  "Usage: hdds-carrier [--log-level LEVEL] COMMAND\n\nCommands:\n"
    ++ "  parse SPEC\n  curve [--level N] [--time N] [--steps N]\n"
    ++ "  simulate [-c FILE]\n  gen-config [-o FILE]\n  validate -c FILE\n"

def run [Exponential] : Command → Plan
  | .parse spec => .finish (showSpec spec)
  | .curve level timeConstant steps => .finish (showCurve level timeConstant steps)
  | .simulate none => .finish (showReplay .twoSources)
  | .simulate (some file) => .reading file fun content =>
    match readScenario content with
    | .error e => failure e.inspect
    | .ok s => showReplay s
  | .generate file => .writing file generated fun
    | .error e => failure e.inspect
    | .ok () => { text := s!"Generated scenario file: {file}\n" }
  | .validate file => .reading file fun content =>
    match readScenario content with
    | .error e => { errors := s!"Scenario invalid: {e.message}\n", exit := 1 }
    | .ok s => showSummary s
  | .help => .finish { text := usage }
  | .version => .finish { text := "hdds-carrier 1.0.10\n" }

end Command

end PortArbiter
