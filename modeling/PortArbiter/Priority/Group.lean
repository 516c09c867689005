import PortArbiter.Priority.Contender
/-!
# Groups

All sources connected to one receiving port form a group. For a message of one member the group
compares the member's score with the scores of all others at the same instant: an inhibitory member
is never let through, a strictly higher score outranks it, an inhibitory member with a positive
score at or above it holds it back, and otherwise it is let through. So a tie lets through.
-/

namespace PortArbiter

/-- The identity of one registered source. Identities are counted without a bound. Runs stay below
2^64 registrations, and up to there a 64-bit counter gives the same ones. -/
structure PeerId where
  number : Nat
deriving DecidableEq, Repr

def PeerId.text (id : PeerId) : String :=
  "peer#" ++ toString id.number

/-- A decision on one message. -/
inductive Verdict where
  | accepted
  /-- A member that is not inhibitory scored strictly higher. -/
  | outranked (rival : PeerId)
  /-- An inhibitory member with a positive score was at or above the sender. -/
  | inhibited (rival : PeerId)
  /-- The sender is inhibitory. -/
  | inhibitory
  /-- The sender does not belong to the group. -/
  | notMember
deriving DecidableEq, Repr

/-- One source in a group. -/
structure Member where
  id : PeerId
  contender : Contender

/-- What a member of score `score` at time `now` has to say against being let through by `m`. -/
def Member.objection [Exponential] (m : Member) (score now : Float) : Option Verdict :=
  let theirs := m.contender.score now
  if m.contender.inhibitory then
    if 0 < theirs ∧ score ≤ theirs then some (.inhibited m.id) else none
  else if score < theirs then some (.outranked m.id)
  else none

/-- One member as seen at some time. -/
structure Standing where
  id : PeerId
  contender : Contender
  score : Float

/-- The sources that compete for one receiving port, in the order in which they joined. -/
structure Group where
  endpoint : String
  members : List Member := []

namespace Group

def find? (g : Group) (id : PeerId) : Option Member :=
  g.members.find? (·.id = id)

def contains (g : Group) (id : PeerId) : Bool :=
  g.members.any (·.id = id)

/-- Add a member behind all others. -/
def join (g : Group) (id : PeerId) (c : Contender) : Group :=
  { g with members := g.members ++ [⟨id, c⟩] }

def leave (g : Group) (id : PeerId) : Group :=
  { g with members := g.members.filter (·.id ≠ id) }

/-- Change what is known of a member. -/
def update (g : Group) (id : PeerId) (f : Contender → Contender) : Group :=
  { g with members := g.members.map fun m => if m.id = id then ⟨m.id, f m.contender⟩ else m }

/-- Record a message of a member without deciding on it. -/
def observe (g : Group) (id : PeerId) (now : Float) : Group :=
  g.update id (·.hear now)

def score? [Exponential] (g : Group) (id : PeerId) (now : Float) : Option Float :=
  (g.find? id).map (·.contender.score now)

/-- Decide on a message of `id` from what is known, without recording it. The earliest member that
objects is the one named. -/
def arbitrate [Exponential] (g : Group) (id : PeerId) (now : Float) : Verdict :=
  match g.find? id with
  | none => .notMember
  | some sender =>
    if sender.contender.inhibitory then .inhibitory
    else
      let score := sender.contender.score now
      let others := g.members.filter (·.id ≠ id)
      (others.findSome? (·.objection score now)).getD .accepted

/-- Handle a message of `id`: record it first if the sender's policy says so, decide, and record it
when it is let through. -/
def receive [Exponential] (g : Group) (id : PeerId) (now : Float) : Verdict × Group :=
  match g.find? id with
  | none => (.notMember, g)
  | some sender =>
    let heard := if sender.contender.refreshesAlways then g.observe id now else g
    let verdict := heard.arbitrate id now
    (verdict, if verdict = .accepted then heard.observe id now else heard)

/-- All members and their scores, in the order in which they joined. -/
def standings [Exponential] (g : Group) (now : Float) : List Standing :=
  g.members.map fun m => ⟨m.id, m.contender, m.contender.score now⟩

end Group

end PortArbiter
