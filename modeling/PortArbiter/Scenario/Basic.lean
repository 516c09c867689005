import PortArbiter.Decimal.Layout
import PortArbiter.Priority.Contender
/-!
# Scenarios

The sources that compete for one receiving port, and the messages they send at certain times. Only
a scenario that passes `validate` can be replayed.
-/

namespace PortArbiter

namespace Scenario

/-- One source of a scenario. The arrival policy is given by its word, if at all. -/
structure Source where
  name : String
  level : Float := 0
  timeConstant : Float := 0
  inhibitory : Bool := false
  arrival? : Option String := none
deriving BEq

/-- One message of a scenario. -/
structure Event where
  time : Float
  source : String
  payload? : Option String := none
deriving BEq

/-- What makes a scenario invalid. -/
inductive Fault where
  | emptyEndpoint
  /-- The carrier is empty or brings parameters. -/
  | carrierNotBare (carrier : String)
  | noSources
  | unnamedSource
  | badLevel (source : String) (level : Float)
  | badTimeConstant (source : String) (timeConstant : Float)
  /-- An inhibitory source has no positive time constant. -/
  | inhibitoryWithoutTime (source : String)
  | unknownPolicy (source word : String)
  | duplicateSource (source : String)
  | badTime (index : Nat) (time : Float)
  | unknownSource (index : Nat) (source : String)

def Fault.reason : Fault → String
  | .emptyEndpoint => "Endpoint is empty"
  | .carrierNotBare carrier => s!"Carrier '{carrier}' must be a bare carrier name"
  | .noSources => "No sources configured"
  | .unnamedSource => "Source with empty name"
  | .badLevel source level =>
    s!"Source '{source}' has invalid level " ++ NumberStyle.plain.text level
  | .badTimeConstant source timeConstant =>
    s!"Source '{source}' has invalid time " ++ NumberStyle.plain.text timeConstant
  | .inhibitoryWithoutTime source => s!"Inhibitory source '{source}' needs a positive time"
  | .unknownPolicy source word => s!"Source '{source}' has unknown arrival policy '{word}'"
  | .duplicateSource source => s!"Source '{source}' is declared twice"
  | .badTime index time => s!"Event {index} has invalid time " ++ NumberStyle.plain.text time
  | .unknownSource index source => s!"Event {index} refers to unknown source '{source}'"

namespace Source

/-- The specification of the carrier that connects a source. -/
def carrierSpec (s : Source) (carrier : String) : String :=
  carrier ++ "+recv.priority+level." ++ NumberStyle.plain.text s.level
    ++ "+time." ++ NumberStyle.plain.text s.timeConstant
    ++ (if s.inhibitory then "+inhibit" else "")
    ++ (match s.arrival? with
      | none => ""
      | some word => "+arrival." ++ word)

/-- Whether a number can be a level or a time: finite and not below zero. -/
def isMagnitude (x : Float) : Bool :=
  x.isFinite && !(x < 0)

/-- The first fault of a source on its own. -/
def validate (s : Source) : Except Fault Unit := do
  if s.name = "" then throw .unnamedSource
  unless isMagnitude s.level do throw (.badLevel s.name s.level)
  unless isMagnitude s.timeConstant do throw (.badTimeConstant s.name s.timeConstant)
  if s.inhibitory ∧ s.timeConstant ≤ 0 then throw (.inhibitoryWithoutTime s.name)
  match s.arrival? with
  | none => pure ()
  | some word =>
    if (ArrivalPolicy.ofToken? word).isNone then throw (.unknownPolicy s.name word)

end Source

/-- The text that an event sends: its payload, or else the name of its source. -/
def Event.text (e : Event) : String :=
  e.payload?.getD e.source

end Scenario

/-- A scenario, its events in the order of declaration. -/
structure Scenario where
  name : String := "scenario"
  endpoint : String := "/port1"
  carrier : String := "tcp"
  sources : List Scenario.Source := []
  events : List Scenario.Event := []
deriving BEq

namespace Scenario

/-- Two sources of unequal priority, and an inhibitory one that stops both. -/
def twoSources : Scenario where
  name := "two-sources"
  sources := [
    { name := "/a", level := 10, timeConstant := 2 },
    { name := "/b", level := 5, timeConstant := 2 },
    { name := "/stop", level := 50, timeConstant := 1, inhibitory := true }]
  events := [
    { time := 0, source := "/a" },
    { time := 0.1, source := "/b" },
    { time := 0.5, source := "/a" },
    { time := 2.6, source := "/b" },
    { time := 3, source := "/stop" },
    { time := 3.2, source := "/b" },
    { time := 4.5, source := "/b" }]

def source? (s : Scenario) (name : String) : Option Source :=
  s.sources.find? (·.name = name)

/-- Check sources one after another, `seen` being the names before them. -/
def checkSources (seen : List String) : List Source → Except Fault Unit
  | [] => .ok ()
  | s :: rest => do
    s.validate
    if s.name ∈ seen then throw (.duplicateSource s.name)
    checkSources (s.name :: seen) rest

/-- Check events one after another, the first one being the event of an index. -/
def checkEvents (names : List String) (index : Nat) : List Event → Except Fault Unit
  | [] => .ok ()
  | e :: rest => do
    unless Source.isMagnitude e.time do throw (.badTime index e.time)
    unless e.source ∈ names do throw (.unknownSource index e.source)
    checkEvents names (index + 1) rest

/-- The first fault of a scenario, in the order of its parts. -/
def validate (s : Scenario) : Except Fault Unit := do
  if s.endpoint = "" then throw .emptyEndpoint
  if s.carrier = "" ∨ '+' ∈ s.carrier.toList then throw (.carrierNotBare s.carrier)
  if s.sources.isEmpty then throw .noSources
  checkSources [] s.sources
  checkEvents (s.sources.map Source.name) 0 s.events

end Scenario

end PortArbiter
