import PortArbiter.Connection.Basic
/-!
# Switchboards

All connections of a program by their labels, together with the catalog that they are built from
and the registry that they share. A label stands for at most one connection of each kind; setting
up another one first drops the connection that had the label.
-/

namespace PortArbiter

/-- Values by label, in the order in which the labels came up. -/
abbrev Table (α : Type) := List (String × α)

namespace Table

variable {α : Type}

/-- Give a label a value; a new label comes last. -/
def put (label : String) (x : α) : Table α → Table α
  | [] => [(label, x)]
  | (other, y) :: t => if other = label then (label, x) :: t else (other, y) :: put label x t

def remove (label : String) (t : Table α) : Table α :=
  t.filter (·.1 ≠ label)

end Table

/-- The connections of a program. -/
structure Switchboard (β μ : Type) where
  catalog : Catalog β μ := .standard
  registry : Registry := {}
  inbound : Table (Inbound β μ) := []
  outbound : Table (Outbound β μ) := []

namespace Switchboard

variable {β μ : Type} [Transport β] [Stage μ]

def inbound? (s : Switchboard β μ) (label : String) : Option (Inbound β μ) :=
  s.inbound.lookup label

def outbound? (s : Switchboard β μ) (label : String) : Option (Outbound β μ) :=
  s.outbound.lookup label

/-- Close a receiving side and forget it. -/
def dropInbound (s : Switchboard β μ) (label : String) : Switchboard β μ :=
  match s.inbound? label with
  | none => s
  | some c =>
    { s with registry := (c.close s.registry).2, inbound := Table.remove label s.inbound }

/-- Give up a sending side and forget it. -/
def dropOutbound (s : Switchboard β μ) (label : String) : Switchboard β μ :=
  match s.outbound? label with
  | none => s
  | some c =>
    { s with registry := c.release s.registry, outbound := Table.remove label s.outbound }

/-- Set up the receiving side of a route under a label. -/
def openInbound (s : Switchboard β μ) (label : String) (route : Route) :
    Except CarrierError Unit × Switchboard β μ :=
  let s := s.dropInbound label
  match Inbound.connect s.catalog route s.registry with
  | (.error e, registry) => (.error e, { s with registry })
  | (.ok c, registry) => (.ok (), { s with registry, inbound := Table.put label c s.inbound })

/-- Set up the sending side of a route under a label. -/
def openOutbound (s : Switchboard β μ) (label : String) (route : Route) :
    Except CarrierError Unit × Switchboard β μ :=
  let s := s.dropOutbound label
  match Outbound.connect s.catalog route s.registry with
  | (.error e, registry) => (.error e, { s with registry })
  | (.ok c, registry) => (.ok (), { s with registry, outbound := Table.put label c s.outbound })

/-- Offer a payload to a receiving side. Where there is none, nothing is delivered. -/
def deliver [Exponential] (s : Switchboard β μ) (label : String) (now : Float) (payload : Bytes) :
    Option Bytes × Switchboard β μ :=
  match s.inbound? label with
  | none => (none, s)
  | some c =>
    let (delivered, c, registry) := c.deliver now payload s.registry
    (delivered, { s with registry, inbound := Table.put label c s.inbound })

/-- Offer a frame to a receiving side. -/
def receiveFrame [Exponential] (s : Switchboard β μ) (label : String) (now : Float)
    (frame : Bytes) : Except CarrierError (Option Bytes) × Switchboard β μ :=
  match s.inbound? label with
  | none => (.ok none, s)
  | some c =>
    let (result, c, registry) := c.receiveFrame now frame s.registry
    (result, { s with registry, inbound := Table.put label c s.inbound })

/-- Close a receiving side, which stays known as a closed one. -/
def close (s : Switchboard β μ) (label : String) : Switchboard β μ :=
  match s.inbound? label with
  | none => s
  | some c =>
    let (c, registry) := c.close s.registry
    { s with registry, inbound := Table.put label c s.inbound }

/-- Put a payload into a frame on a sending side. -/
def encode (s : Switchboard β μ) (label : String) (payload : Bytes) :
    Except CarrierError (Option Bytes) × Switchboard β μ :=
  match s.outbound? label with
  | none => (.ok none, s)
  | some c =>
    let (result, c) := c.encode payload
    (result, { s with outbound := Table.put label c s.outbound })

end Switchboard

end PortArbiter
