import PortArbiter.Proofs.Carrier.Flat
import PortArbiter.Proofs.Connection.Counters
/-!
# Payloads that are not handed through the stages

A payload that no stage says it transforms is not handed through the stages at all. This saves work
and nothing else: as long as each stage that says so would leave the payload and itself as they are,
a connection answers, counts and becomes what it would with all payloads handed through.
-/

namespace PortArbiter

variable {β μ : Type} [Transport β] [Stage μ]

/-! ## Stages that keep to what they say -/

namespace Stage

variable {σ : Type} [Stage σ]

def transforms : Direction → σ → Bool
  | .recv => transformsInbound
  | .send => transformsOutbound

def transform : Direction → Bytes → σ → Bytes × σ
  | .recv => transformInbound
  | .send => transformOutbound

/-- If a stage says that it does not transform the payloads of a direction, then it leaves them and
itself as they are. -/
def Truthful (side : Direction) (s : σ) : Prop :=
  transforms side s = false → ∀ payload, transform side payload s = (payload, s)

end Stage

theorem Base.truthful {side : Direction} (h : ∀ b : β, Stage.Truthful side b) (b : Base β) :
    Stage.Truthful side b := by
  intro hquiet payload
  cases b with
  | lengthPrefixed t => cases side <;> rfl
  | custom b =>
      cases side with
      | recv => exact congrArg (Prod.map id Base.custom) (h b hquiet payload)
      | send => exact congrArg (Prod.map id Base.custom) (h b hquiet payload)

namespace Layer

def transforms : Direction → Layer μ → Bool
  | .recv => transformsInbound
  | .send => transformsOutbound

def transform : Direction → Bytes → Layer μ → Bytes × Layer μ
  | .recv => transformInbound
  | .send => transformOutbound

def Truthful (side : Direction) : Layer μ → Prop
  | .priority _ => True
  | .custom m => Stage.Truthful side m

theorem transform_of_quiet {side : Direction} {l : Layer μ} (h : l.Truthful side)
    (hquiet : l.transforms side = false) (payload : Bytes) :
    l.transform side payload = (payload, l) := by
  cases l with
  | priority p => cases side <;> rfl
  | custom m =>
      cases side with
      | recv => exact congrArg (Prod.map id Layer.custom) (h hquiet payload)
      | send => exact congrArg (Prod.map id Layer.custom) (h hquiet payload)

end Layer

namespace Chain

def transforms : Direction → Chain β μ → Bool
  | .recv => transformsInbound
  | .send => transformsOutbound

def transform : Direction → Bytes → Chain β μ → Bytes × Chain β μ
  | .recv => transformInbound
  | .send => transformOutbound

def Truthful (side : Direction) : Chain β μ → Prop
  | .base b => Stage.Truthful side b
  | .wrap outer inner => outer.Truthful side ∧ inner.Truthful side

theorem truthful_of_stages {side : Direction} (hcarriers : ∀ b : β, Stage.Truthful side b)
    (hmodifiers : ∀ m : μ, Stage.Truthful side m) (chain : Chain β μ) : chain.Truthful side := by
  induction chain with
  | base b => exact Base.truthful hcarriers b
  | wrap outer inner ih =>
      refine ⟨?_, ih⟩
      cases outer with
      | priority p => trivial
      | custom m => exact hmodifiers m

theorem transform_of_quiet {side : Direction} {chain : Chain β μ} (h : chain.Truthful side)
    (hquiet : chain.transforms side = false) (payload : Bytes) :
    chain.transform side payload = (payload, chain) := by
  induction chain with
  | base b =>
      cases side with
      | recv => exact congrArg (Prod.map id Chain.base) (h hquiet payload)
      | send => exact congrArg (Prod.map id Chain.base) (h hquiet payload)
  | wrap outer inner ih =>
      have hboth : outer.transforms side = false ∧ inner.transforms side = false := by
        cases side <;> exact Bool.or_eq_false_iff.1 hquiet
      have houter := Layer.transform_of_quiet h.1 hboth.1
      have hinner := ih h.2 hboth.2
      cases side with
      | recv =>
          have hinner : inner.transformInbound payload = (payload, inner) := hinner
          have houter : outer.transformInbound payload = (payload, outer) := houter payload
          rw [transform, transformInbound, hinner]
          dsimp only
          rw [houter]
      | send =>
          have houter : outer.transformOutbound payload = (payload, outer) := houter payload
          have hinner : inner.transformOutbound payload = (payload, inner) := hinner
          rw [transform, transformOutbound, houter]
          dsimp only
          rw [hinner]

/-- Handing payloads through only where some stage says that it transforms, or always. -/
theorem Truthful.shortcut {side : Direction} {chain : Chain β μ} (h : chain.Truthful side)
    (payload : Bytes) :
    (if chain.transforms side then chain.transform side payload else (payload, chain)) =
      chain.transform side payload := by
  split
  · rfl
  · rename_i hquiet
    exact (transform_of_quiet h (eq_false_of_ne_true hquiet) payload).symm

variable [Exponential]

/-- The states that a chain can come to be in, whatever is called on it and whatever becomes of the
registry meanwhile. -/
inductive Reaches (chain : Chain β μ) : Chain β μ → Prop where
  | refl : Reaches chain chain
  | call {chain' : Chain β μ} (h : Reaches chain chain') (r : Registry) (call : Call) :
      Reaches chain (chain'.perform r call).2.1

theorem Reaches.trans {chain chain' chain'' : Chain β μ} (h : chain.Reaches chain')
    (h' : chain'.Reaches chain'') : chain.Reaches chain'' := by
  induction h' with
  | refl => exact h
  | call _ r call ih => exact .call ih r call

/-- The stages of a chain are truthful now and in all states that they can come to be in. -/
def Candid (side : Direction) (chain : Chain β μ) : Prop :=
  ∀ chain', chain.Reaches chain' → chain'.Truthful side

namespace Candid

variable {side : Direction} {chain : Chain β μ}

theorem truthful (h : chain.Candid side) : chain.Truthful side :=
  h chain .refl

theorem perform (h : chain.Candid side) (r : Registry) (call : Call) :
    (chain.perform r call).2.1.Candid side :=
  fun chain' hreaches => h chain' (.trans (.call .refl r call) hreaches)

theorem acceptInbound (h : chain.Candid side) (now : Float) (message : Message) (r : Registry) :
    (chain.acceptInbound now message r).2.1.Candid side :=
  h.perform r (.acceptInbound now message)

theorem transformInbound (h : chain.Candid side) (payload : Bytes) :
    (chain.transformInbound payload).2.Candid side :=
  h.perform {} (.transformInbound payload)

theorem readFrame (h : chain.Candid side) (frame : Bytes) :
    (chain.readFrame frame).2.Candid side :=
  h.perform {} (.readFrame frame)

theorem acceptOutbound (h : chain.Candid side) (payload : Bytes) :
    (chain.acceptOutbound payload).2.Candid side :=
  h.perform {} (.acceptOutbound payload)

theorem transformOutbound (h : chain.Candid side) (payload : Bytes) :
    (chain.transformOutbound payload).2.Candid side :=
  h.perform {} (.transformOutbound payload)

theorem writeFrame (h : chain.Candid side) (payload written : Bytes) :
    (chain.writeFrame payload written).2.Candid side :=
  h.perform {} (.writeFrame payload written)

end Candid

theorem candid_of_stages {side : Direction} (hcarriers : ∀ b : β, Stage.Truthful side b)
    (hmodifiers : ∀ m : μ, Stage.Truthful side m) (chain : Chain β μ) : chain.Candid side :=
  fun chain' _ => truthful_of_stages hcarriers hmodifiers chain'

end Chain

/-! ## Receiving sides -/

namespace Inbound

variable [Exponential]

/-- Offer a payload to the chain as `deliver` does, but hand every payload that is let through
through all stages. -/
def deliverThrough (c : Inbound β μ) (now : Float) (payload : Bytes) (r : Registry) :
    Option Bytes × Inbound β μ × Registry :=
  match c.chain? with
  | none => (none, { c with traffic := c.traffic.recordDropped }, r)
  | some chain =>
    match chain.acceptInbound now ⟨c.route, payload⟩ r with
    | (false, chain, r) =>
      (none, { c with chain? := some chain, traffic := c.traffic.recordDropped }, r)
    | (true, chain, r) =>
      let (payload, chain) := chain.transformInbound payload
      let traffic := c.traffic.recordDelivered (UInt64.ofNat payload.length)
      (some payload, { c with chain? := some chain, traffic }, r)

def receiveFrameThrough (c : Inbound β μ) (now : Float) (frame : Bytes) (r : Registry) :
    Except CarrierError (Option Bytes) × Inbound β μ × Registry :=
  match c.chain? with
  | none => (.ok none, { c with traffic := c.traffic.recordDropped }, r)
  | some chain =>
    match chain.readFrame frame with
    | (.error e, chain) =>
      (.error e, { c with chain? := some chain, traffic := c.traffic.recordError }, r)
    | (.ok payload, chain) =>
      let (delivered, c, r) := { c with chain? := some chain }.deliverThrough now payload r
      (.ok delivered, c, r)

def Candid (c : Inbound β μ) : Prop :=
  ∀ chain, c.chain? = some chain → chain.Candid .recv

variable {c : Inbound β μ}

theorem candid_of_chain {chain : Chain β μ} (h : chain.Candid .recv)
    (hchain : c.chain? = some chain) : c.Candid := by
  intro chain' hchain'
  obtain rfl : chain = chain' := Option.some.inj (hchain.symm.trans hchain')
  exact h

theorem deliver_eq_through (h : c.Candid) (now : Float) (payload : Bytes) (r : Registry) :
    c.deliver now payload r = c.deliverThrough now payload r := by
  rw [deliver, deliverThrough]
  cases hchain : c.chain? with
  | none => rfl
  | some chain =>
      have hasked := (h chain hchain).acceptInbound now ⟨c.route, payload⟩ r
      dsimp only
      generalize chain.acceptInbound now ⟨c.route, payload⟩ r = asked at hasked
      obtain ⟨_ | _, chain', r'⟩ := asked
      · rfl
      · have hshortcut : (if chain'.transformsInbound then chain'.transformInbound payload
            else (payload, chain')) = chain'.transformInbound payload :=
          hasked.truthful.shortcut payload
        dsimp only
        rw [hshortcut]

theorem Candid.deliverThrough (h : c.Candid) (now : Float) (payload : Bytes) (r : Registry) :
    (c.deliverThrough now payload r).2.1.Candid := by
  rw [Inbound.deliverThrough]
  cases hchain : c.chain? with
  | none => exact nofun
  | some chain =>
      have hasked := (h chain hchain).acceptInbound now ⟨c.route, payload⟩ r
      dsimp only
      generalize chain.acceptInbound now ⟨c.route, payload⟩ r = asked at hasked
      obtain ⟨_ | _, chain', r'⟩ := asked
      · exact candid_of_chain hasked rfl
      · exact candid_of_chain (hasked.transformInbound payload) rfl

theorem receiveFrame_eq_through (h : c.Candid) (now : Float) (frame : Bytes) (r : Registry) :
    c.receiveFrame now frame r = c.receiveFrameThrough now frame r := by
  rw [receiveFrame, receiveFrameThrough]
  cases hchain : c.chain? with
  | none => rfl
  | some chain =>
      have hread := (h chain hchain).readFrame frame
      dsimp only
      generalize chain.readFrame frame = read at hread
      obtain ⟨e | payload, chain'⟩ := read
      · rfl
      · dsimp only
        rw [deliver_eq_through (candid_of_chain hread rfl)]

theorem Candid.receiveFrameThrough (h : c.Candid) (now : Float) (frame : Bytes) (r : Registry) :
    (c.receiveFrameThrough now frame r).2.1.Candid := by
  rw [Inbound.receiveFrameThrough]
  cases hchain : c.chain? with
  | none => exact nofun
  | some chain =>
      have hread := (h chain hchain).readFrame frame
      dsimp only
      generalize chain.readFrame frame = read at hread
      obtain ⟨e | payload, chain'⟩ := read
      · exact candid_of_chain hread rfl
      · exact (candid_of_chain hread rfl).deliverThrough now payload r

theorem Candid.close (h : c.Candid) (r : Registry) : (c.close r).1.Candid := by
  rw [Inbound.close]
  cases hchain : c.chain? with
  | none => exact h
  | some chain =>
      intro chain' hnone
      cases hnone

namespace Course

def stepThrough (s : Course β μ) : Inbound.Call → Course β μ
  | .deliver now payload =>
    let (delivered, connection, registry) := s.connection.deliverThrough now payload s.registry
    ⟨connection, registry, s.receipts ++ [.ok delivered]⟩
  | .receiveFrame now frame =>
    let (receipt, connection, registry) :=
      s.connection.receiveFrameThrough now frame s.registry
    ⟨connection, registry, s.receipts ++ [receipt]⟩
  | .close =>
    let (connection, registry) := s.connection.close s.registry
    { s with connection, registry }
  | .elsewhere registry => { s with registry }

def runThrough (s : Course β μ) (calls : List Inbound.Call) : Course β μ :=
  calls.foldl stepThrough s

variable {s : Course β μ}

theorem step_eq_through (h : s.connection.Candid) (call : Inbound.Call) :
    s.step call = s.stepThrough call := by
  cases call with
  | deliver now payload => rw [step, stepThrough, deliver_eq_through h]
  | receiveFrame now frame => rw [step, stepThrough, receiveFrame_eq_through h]
  | close => rfl
  | elsewhere r => rfl

theorem candid_stepThrough (h : s.connection.Candid) (call : Inbound.Call) :
    (s.stepThrough call).connection.Candid := by
  cases call with
  | deliver now payload => exact h.deliverThrough now payload s.registry
  | receiveFrame now frame => exact h.receiveFrameThrough now frame s.registry
  | close => exact h.close s.registry
  | elsewhere r => exact h

theorem run_eq_through (h : s.connection.Candid) (calls : List Inbound.Call) :
    s.run calls = s.runThrough calls := by
  induction calls generalizing s with
  | nil => rfl
  | cons call calls ih =>
      rw [run, List.foldl_cons, ← run, step_eq_through h, ih (candid_stepThrough h call)]
      rfl

end Course

end Inbound

/-! ## Sending sides -/

namespace Outbound

def encodeThrough (c : Outbound β μ) (payload : Bytes) :
    Except CarrierError (Option Bytes) × Outbound β μ :=
  match c.chain.acceptOutbound payload with
  | (false, chain) => (.ok none, { c with chain })
  | (true, chain) =>
    let (payload, chain) := chain.transformOutbound payload
    let (frame, chain) := chain.writeFrame payload []
    (frame.map some, { c with chain })

def encodeAll (c : Outbound β μ) :
    List Bytes → List (Except CarrierError (Option Bytes)) × Outbound β μ
  | [] => ([], c)
  | payload :: payloads =>
    let (frame, c) := c.encode payload
    (c.encodeAll payloads).map (frame :: ·) id

def encodeAllThrough (c : Outbound β μ) :
    List Bytes → List (Except CarrierError (Option Bytes)) × Outbound β μ
  | [] => ([], c)
  | payload :: payloads =>
    let (frame, c) := c.encodeThrough payload
    (c.encodeAllThrough payloads).map (frame :: ·) id

variable [Exponential] {c : Outbound β μ}

theorem encode_eq_through (h : c.chain.Candid .send) (payload : Bytes) :
    c.encode payload = c.encodeThrough payload := by
  have hasked := h.acceptOutbound payload
  rw [encode, encodeThrough]
  generalize c.chain.acceptOutbound payload = asked at hasked
  obtain ⟨_ | _, chain⟩ := asked
  · rfl
  · have hshortcut : (if chain.transformsOutbound then chain.transformOutbound payload
        else (payload, chain)) = chain.transformOutbound payload :=
      hasked.truthful.shortcut payload
    dsimp only
    rw [hshortcut]

theorem candid_encodeThrough (h : c.chain.Candid .send) (payload : Bytes) :
    (c.encodeThrough payload).2.chain.Candid .send := by
  have hasked := h.acceptOutbound payload
  rw [encodeThrough]
  generalize c.chain.acceptOutbound payload = asked at hasked
  obtain ⟨_ | _, chain⟩ := asked
  · exact hasked
  · exact (hasked.transformOutbound payload).writeFrame _ []

theorem encodeAll_eq_through (h : c.chain.Candid .send) (payloads : List Bytes) :
    c.encodeAll payloads = c.encodeAllThrough payloads := by
  induction payloads generalizing c with
  | nil => rfl
  | cons payload payloads ih =>
      rw [encodeAll, encodeAllThrough, encode_eq_through h]
      dsimp only
      rw [ih (candid_encodeThrough h payload)]

end Outbound

/-- Nobody can tell whether a payload that no stage says it transforms was handed through the stages
or not. If all stages of a chain, the ones that transform and the ones that do not, are and stay
truthful, then a receiving side has the same answers, states and counters as one that hands every
payload through, and a sending side makes the same frames and has the same states, call after call.
That the stages stay truthful goes without saying where they are so in all states whatever. -/
theorem shortcut_unnoticed [Exponential] :
    (∀ c : Inbound β μ, c.Candid →
      (∀ now payload r, c.deliver now payload r = c.deliverThrough now payload r) ∧
      (∀ now frame r, c.receiveFrame now frame r = c.receiveFrameThrough now frame r) ∧
      ∀ r calls, Inbound.Course.run ⟨c, r, []⟩ calls = Inbound.Course.runThrough ⟨c, r, []⟩ calls) ∧
    (∀ c : Outbound β μ, c.chain.Candid .send →
      (∀ payload, c.encode payload = c.encodeThrough payload) ∧
      ∀ payloads, c.encodeAll payloads = c.encodeAllThrough payloads) ∧
    ∀ side, (∀ b : β, Stage.Truthful side b) → (∀ m : μ, Stage.Truthful side m) →
      ∀ chain : Chain β μ, chain.Candid side := by
  refine ⟨fun c h => ⟨Inbound.deliver_eq_through h, Inbound.receiveFrame_eq_through h, ?_⟩,
    fun c h => ⟨Outbound.encode_eq_through h, Outbound.encodeAll_eq_through h⟩,
    fun side => Chain.candid_of_stages⟩
  exact fun r calls => Inbound.Course.run_eq_through h calls

/-! ## Meters -/

/-- A modifier that counts messages. With a mark it also puts the mark in front of them, but not of
the first one that it sends. -/
structure Meter where
  mark? : Option UInt8
  count : Nat := 0

namespace Meter

def stamp (payload : Bytes) (m : Meter) : Bytes × Meter :=
  match m.mark? with
  | none => (payload, m)
  | some mark => (mark :: payload, { m with count := m.count + payload.length })

end Meter

instance : Stage Meter where
  name _ := "meter"
  fresh m := { m with count := 0 }
  acceptInbound _ m := (true, { m with count := m.count + 1 })
  transformsInbound m := m.mark?.isSome
  transformInbound := Meter.stamp
  acceptOutbound _ m := (true, { m with count := m.count + 1 })
  transformsOutbound m := decide (2 ≤ m.count)
  transformOutbound payload m := if 2 ≤ m.count then m.stamp payload else (payload, m)

namespace Meter

theorem truthful (side : Direction) (m : Meter) : Stage.Truthful side m := by
  intro hquiet payload
  cases side with
  | recv =>
      obtain ⟨mark?, count⟩ := m
      obtain rfl : mark? = none := Option.not_isSome_iff_eq_none.1 (Bool.eq_false_iff.1 hquiet)
      rfl
  | send => exact if_neg (of_decide_eq_false hquiet)

end Meter

/-- A meter with a mark below one without, and a priority layer in between. What is received has the
mark; what is sent has it from the second message on. -/
theorem shortcut_unnoticed_meters :
    let _ : Exponential := ⟨fun _ => 0⟩
    let route : Route := ⟨"/a", "/b", "tcp"⟩
    let chain (outer inner : Meter) : Chain Empty Meter := .wrap (.custom outer)
      (.wrap (.priority {}) (.wrap (.custom inner) (.base (.lengthPrefixed (.stream "tcp")))))
    let marked := chain ⟨none, 0⟩ ⟨some 7, 0⟩
    let receiver : Inbound Empty Meter := { route, chain? := some marked }
    let sender : Outbound Empty Meter := ⟨route, marked⟩
    receiver.Candid ∧ marked.Candid .send ∧
      receiver.deliverThrough 0 [1, 2] {} = (some [7, 1, 2],
        ⟨route, some (chain ⟨none, 1⟩ ⟨some 7, 3⟩), { delivered := 1, bytes := 3 }⟩, {}) ∧
      sender.encodeAllThrough [[1, 2], [3]] =
        ([.ok (some [0, 0, 0, 2, 1, 2]), .ok (some [0, 0, 0, 2, 7, 3])],
          ⟨route, chain ⟨none, 2⟩ ⟨some 7, 3⟩⟩) := by
  intro _ route chain marked receiver sender
  obtain ⟨hreceiving, hsending, hstages⟩ := @shortcut_unnoticed Empty Meter _ _ _
  have hreceiver : receiver.Candid :=
    Inbound.candid_of_chain (hstages .recv nofun (Meter.truthful .recv) marked) rfl
  have hsender : marked.Candid .send := hstages .send nofun (Meter.truthful .send) marked
  refine ⟨hreceiver, hsender, ?_, ?_⟩
  · rw [← (hreceiving receiver hreceiver).1]
    rfl
  · rw [← (hsending sender hsender).2]
    rfl

end PortArbiter
