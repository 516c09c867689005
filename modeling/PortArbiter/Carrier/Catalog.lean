import PortArbiter.Carrier.Chain
/-!
# Catalog of carriers

The base carriers and modifiers that specifications can name. Each entry is a prototype: building a
chain makes a new instance of every stage. The two kinds have name spaces of their own, and a later
entry of a name replaces an earlier one.
-/

namespace PortArbiter

/-- Prototypes of base carriers and of modifiers. -/
structure Catalog (β μ : Type) where
  carriers : List (Base β) := []
  modifiers : List (Layer μ) := []

namespace Catalog

variable {β μ : Type} [Transport β] [Stage μ]

def carrier? (c : Catalog β μ) (name : String) : Option (Base β) :=
  c.carriers.find? (Stage.name · = name)

def modifier? (c : Catalog β μ) (name : String) : Option (Layer μ) :=
  c.modifiers.find? (Layer.name · = name)

/-- Enter a base carrier under its own name. -/
def addCarrier (c : Catalog β μ) (b : Base β) : Catalog β μ :=
  { c with carriers := b :: c.carriers.filter (Stage.name · ≠ Stage.name b) }

/-- Enter a modifier under its own name. -/
def addModifier (c : Catalog β μ) (l : Layer μ) : Catalog β μ :=
  { c with modifiers := l :: c.modifiers.filter (Layer.name · ≠ l.name) }

/-- The stock transports and the priority modifier. -/
def standard : Catalog β μ where
  carriers := [
    .lengthPrefixed (.stream "tcp"), .lengthPrefixed (.stream "fast_tcp"),
    .lengthPrefixed (.datagram "udp"), .lengthPrefixed (.datagram "mcast"),
    .lengthPrefixed { name := "local" }]
  modifiers := [.priority {}]

def contains (c : Catalog β μ) (name : String) : Bool :=
  (c.carrier? name).isSome || (c.modifier? name).isSome

def carrierNames (c : Catalog β μ) : List String :=
  (c.carriers.map Stage.name).mergeSort (· ≤ ·)

def modifierNames (c : Catalog β μ) : List String :=
  (c.modifiers.map Layer.name).mergeSort (· ≤ ·)

/-- Put new instances of named modifiers around a chain, one after another. -/
def wrapAll (c : Catalog β μ) : Chain β μ → List String → Except CarrierError (Chain β μ)
  | chain, [] => .ok chain
  | chain, name :: names =>
    match c.modifier? name with
    | none => .error (.unknownModifier name)
    | some prototype => c.wrapAll (.wrap prototype.fresh chain) names

/-- Build the chain that a specification describes for one side of a connection. -/
def build (c : Catalog β μ) (carrier : String) (side : Direction) :
    Except CarrierError (Chain β μ) :=
  let spec := Spec.parse carrier
  if spec.base = "" then .error .emptySpec
  else
    match c.carrier? spec.base with
    | none => .error (.unknownCarrier spec.base)
    | some prototype => c.wrapAll (.base (Stage.fresh prototype)) (spec.modifiers side)

end Catalog

/-- The kind without instances, for a program whose carriers are all built in. -/
instance : Transport Empty where
  name := nofun
  fresh := nofun
  frame := nofun
  unframe := nofun

end PortArbiter
