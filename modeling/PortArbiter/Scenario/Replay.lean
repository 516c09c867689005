import PortArbiter.Connection.Switchboard
import PortArbiter.Scenario.Basic
import PortArbiter.Text.Columns
/-!
# Replay

A scenario played back: every source gets a connection of its own to the endpoint, and the events
are delivered in the order of their times, events of one time in the order of declaration.
-/

namespace PortArbiter.Scenario

/-- What became of one event. -/
structure Outcome where
  time : Float
  source : String
  delivered : Bool
  /-- The score of every source right after the event, in the order of declaration. -/
  scores : List (String × Float)

/-- What became of a scenario. -/
structure Report where
  name : String
  endpoint : String
  outcomes : List Outcome

/-- Why a scenario cannot be replayed. -/
inductive ReplayError where
  | invalid (fault : Fault)
  /-- The connection of a source cannot be set up. -/
  | refused (source : String) (error : CarrierError)

def ReplayError.message : ReplayError → String
  | .invalid fault => "Configuration error: Invalid configuration: " ++ fault.reason
  | .refused source error => s!"Source '{source}' refused: {error.message}"

/-- The place of a double in the total order of all doubles, in which the negative zero comes
before the positive one. -/
def orderKey (x : Float) : Int :=
  let bits : Nat := x.toBits.toNat
  if bits < 0x8000000000000000 then bits else 0x7fffffffffffffff - (bits : Int)

/-- The events in the order of their times. -/
def schedule (s : Scenario) : List Event :=
  s.events.mergeSort fun a b => orderKey a.time ≤ orderKey b.time

/-- A replay under way. Each source has its connection under its own name. -/
abbrev Playback := Switchboard Empty Empty

def route (s : Scenario) (source : Source) : Route where
  sender := source.name
  receiver := s.endpoint
  carrier := source.carrierSpec s.carrier

def connectAll (s : Scenario) (p : Playback) : List Source → Except ReplayError Playback
  | [] => .ok p
  | source :: rest =>
    match p.openInbound source.name (s.route source) with
    | (.error e, _) => .error (.refused source.name e)
    | (.ok (), p) => s.connectAll p rest

/-- The score of every source at some time. -/
def scoresAt [Exponential] (s : Scenario) (registry : Registry) (now : Float) :
    List (String × Float) :=
  let standings := ((registry.lookup s.endpoint).map registry.group).elim [] (·.standings now)
  s.sources.map fun source =>
    let standing? := standings.find? (·.contender.source = source.name)
    (source.name, (standing?.map Standing.score).getD 0)

def deliver [Exponential] (s : Scenario) (p : Playback) (e : Event) : Outcome × Playback :=
  let (payload?, p) := Switchboard.deliver p e.source e.time e.text.toUTF8.toList
  (⟨e.time, e.source, payload?.isSome, s.scoresAt p.registry e.time⟩, p)

def deliverAll [Exponential] (s : Scenario) : Playback → List Event → List Outcome
  | _, [] => []
  | p, e :: rest =>
    let (outcome, p) := s.deliver p e
    outcome :: s.deliverAll p rest

def replay [Exponential] (s : Scenario) : Except ReplayError Report :=
  match s.validate with
  | .error fault => .error (.invalid fault)
  | .ok () => do
    let p ← s.connectAll {} s.sources
    .ok ⟨s.name, s.endpoint, s.deliverAll p s.schedule⟩

namespace Report

/-- For each outcome, whether its message was delivered. -/
def delivered (r : Report) : List Bool :=
  r.outcomes.map Outcome.delivered

/-- The number of messages delivered from a source. -/
def deliveredFrom (r : Report) (source : String) : Nat :=
  r.outcomes.countP fun o => o.delivered && o.source = source

def outcomeLine (o : Outcome) : String :=
  "  t=" ++ Text.flushRight 8 (fixedText 3 o.time) ++ "  " ++ Text.flushLeft 16 o.source ++ " "
    ++ Text.flushLeft 9 (if o.delivered then "delivered" else "dropped")
    ++ String.join (o.scores.map fun (name, score) => "  " ++ name ++ "=" ++ fixedText 3 score)
    ++ "\n"

def text (r : Report) : String :=
  s!"Scenario '{r.name}' on {r.endpoint}\n" ++ String.join (r.outcomes.map outcomeLine)

end Report

end PortArbiter.Scenario
