import PortArbiter.Priority.Group
/-!
# Registry

The groups of all receiving ports. The first source that registers under a key founds the group of
that key, later ones join it, and the last one to leave retires it: a source that registers
afterwards founds a new group. A group is known by its `GroupId` for good, so whoever keeps one can
look at it after it was retired.
-/

namespace PortArbiter

/-- The identity of a group, also of a retired one. -/
structure GroupId where
  index : Nat
deriving DecidableEq, Repr

/-- A live group and the identities registered in it. -/
structure Entry where
  key : String
  group : GroupId
  members : List PeerId

/-- What a source gets for registering, and gives back to leave. -/
structure Registration where
  key : String
  id : PeerId
  group : GroupId

/-- The groups founded so far, the live ones by key, and the next identity to give out. -/
structure Registry where
  groups : Array Group := #[]
  live : List Entry := []
  /-- One more than the number of registrations made. A 64-bit counter agrees with it while there
  are fewer than 2^64 - 1 of them, and runs stay below that. -/
  nextPeer : Nat := 1

namespace Registry

def entryOf? (r : Registry) (key : String) : Option Entry :=
  r.live.find? (·.key = key)

def lookup (r : Registry) (key : String) : Option GroupId :=
  (r.entryOf? key).map Entry.group

/-- The state of a group. One that was never founded has no endpoint and no members. -/
def group (r : Registry) (g : GroupId) : Group :=
  r.groups.getD g.index { endpoint := "" }

def modifyGroup (r : Registry) (g : GroupId) (f : Group → Group) : Registry :=
  { r with groups := r.groups.modify g.index f }

/-- The live group of a key, founded if there is none. -/
def found (r : Registry) (key : String) : GroupId × Registry :=
  match r.lookup key with
  | some g => (g, r)
  | none =>
    let g : GroupId := ⟨r.groups.size⟩
    (g, { r with
      groups := r.groups.push { endpoint := key }
      live := r.live ++ [⟨key, g, []⟩] })

/-- Join the group of a key under a new identity. -/
def register (r : Registry) (key : String) (c : Contender) : Registration × Registry :=
  let id : PeerId := ⟨r.nextPeer⟩
  let (g, r) := r.found key
  let r := r.modifyGroup g (·.join id c)
  let live := r.live.map fun e => if e.key = key then { e with members := e.members ++ [id] } else e
  (⟨key, id, g⟩, { r with live, nextPeer := id.number + 1 })

/-- Leave the group of a key, and retire it with its last member. A key without a group and an
identity that is not registered under it change nothing. Answers whether a member left. -/
def deregister (r : Registry) (key : String) (id : PeerId) : Bool × Registry :=
  match r.entryOf? key with
  | none => (false, r)
  | some e =>
    if id ∈ e.members then
      let members := e.members.filter (· ≠ id)
      let live :=
        if members.isEmpty then r.live.filter (·.key ≠ key)
        else r.live.map fun e => if e.key = key then { e with members } else e
      (true, { r.modifyGroup e.group (·.leave id) with live })
    else (false, r)

def release (r : Registry) (t : Registration) : Registry :=
  (r.deregister t.key t.id).2

/-- Handle a message of a registered source. -/
def receive [Exponential] (r : Registry) (t : Registration) (now : Float) : Verdict × Registry :=
  let (verdict, g) := (r.group t.group).receive t.id now
  (verdict, r.modifyGroup t.group fun _ => g)

def size (r : Registry) : Nat :=
  r.live.length

def memberCount (r : Registry) (key : String) : Nat :=
  (r.entryOf? key).elim 0 (·.members.length)

def keys (r : Registry) : List String :=
  (r.live.map Entry.key).mergeSort (· ≤ ·)

end Registry

end PortArbiter
