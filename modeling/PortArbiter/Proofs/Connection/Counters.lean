import Mathlib
import PortArbiter.Proofs.Carrier.Framing
import PortArbiter.Proofs.Connection.EndToEnd
/-!
# The counters of a connection

A receiving side answers every payload and every frame that it is offered, and counts each of its
answers once. A frame that cannot be read is counted as an error and comes no further: neither the
stages nor the registry are any different afterwards.
-/

namespace PortArbiter

namespace Inbound

abbrev Receipt := Except CarrierError (Option Bytes)

namespace Receipt

def payload? : Receipt → Option Bytes
  | .ok payload? => payload?
  | .error _ => none

def isDropped : Receipt → Bool
  | .ok none => true
  | _ => false

def isError : Receipt → Bool
  | .ok _ => false
  | .error _ => true

end Receipt

end Inbound

namespace Traffic

open Inbound (Receipt)

def after (t : Traffic) : Receipt → Traffic
  | .ok (some payload) =>
    { t with delivered := t.delivered + 1, bytes := t.bytes + UInt64.ofNat payload.length }
  | .ok none => { t with dropped := t.dropped + 1 }
  | .error _ => { t with errors := t.errors + 1 }

/-- The counters of a sequence of answers; `UInt64.ofNat` takes the remainder. -/
def ofReceipts (receipts : List Receipt) : Traffic :=
  let payloads := receipts.filterMap Receipt.payload?
  { delivered := UInt64.ofNat payloads.length
    bytes := UInt64.ofNat (payloads.map List.length).sum
    dropped := UInt64.ofNat (receipts.countP Receipt.isDropped)
    errors := UInt64.ofNat (receipts.countP Receipt.isError) }

theorem after_ofReceipts (receipts : List Receipt) (receipt : Receipt) :
    (ofReceipts receipts).after receipt = ofReceipts (receipts ++ [receipt]) := by
  rcases receipt with e | _ | payload <;>
    simp [ofReceipts, after, List.filterMap_append, List.countP_append, UInt64.ofNat_add,
      List.filterMap_cons, Receipt.payload?, Receipt.isDropped, Receipt.isError]

end Traffic

variable {β μ : Type} [Transport β] [Stage μ]

namespace Inbound

open LengthPrefixed (header)

/-! ## One call -/

section

variable [Exponential] (c : Inbound β μ) (now : Float) (r : Registry)

theorem traffic_deliver (payload : Bytes) :
    (c.deliver now payload r).2.1.traffic =
      c.traffic.after (.ok (c.deliver now payload r).1) := by
  rw [deliver]
  cases c.chain? with
  | none => rfl
  | some chain =>
      dsimp only
      rcases chain.acceptInbound now ⟨c.route, payload⟩ r with ⟨_ | _, chain', r'⟩ <;> rfl

theorem traffic_receiveFrame (frame : Bytes) :
    (c.receiveFrame now frame r).2.1.traffic =
      c.traffic.after (c.receiveFrame now frame r).1 := by
  rw [receiveFrame]
  cases c.chain? with
  | none => rfl
  | some chain =>
      dsimp only
      rcases chain.readFrame frame with ⟨e | payload, chain'⟩
      · rfl
      · exact traffic_deliver { c with chain? := some chain' } now r payload

omit [Transport β] [Stage μ] [Exponential] in
theorem traffic_close : (c.close r).1.traffic = c.traffic := by
  rw [close]
  cases c.chain? <;> rfl

theorem isOpen_deliver (payload : Bytes) :
    (c.deliver now payload r).2.1.isOpen = c.isOpen := by
  rw [deliver]
  cases hchain : c.chain? with
  | none =>
      rw [isOpen, isOpen, hchain]
  | some chain =>
      have hopen : c.isOpen = true := by rw [isOpen, hchain]; rfl
      rw [hopen]
      dsimp only
      rcases chain.acceptInbound now ⟨c.route, payload⟩ r with ⟨_ | _, chain', r'⟩ <;> rfl

theorem isOpen_receiveFrame (frame : Bytes) :
    (c.receiveFrame now frame r).2.1.isOpen = c.isOpen := by
  rw [receiveFrame]
  cases hchain : c.chain? with
  | none =>
      rw [isOpen, isOpen, hchain]
  | some chain =>
      have hopen : c.isOpen = true := by rw [isOpen, hchain]; rfl
      dsimp only
      rcases chain.readFrame frame with ⟨e | payload, chain'⟩
      · exact hopen.symm
      · exact (isOpen_deliver { c with chain? := some chain' } now r payload).trans hopen.symm

variable {c}

omit [Transport β] [Stage μ] [Exponential] in
theorem chain?_of_closed (h : c.isOpen = false) : c.chain? = none := by
  rwa [isOpen, Option.isSome_eq_false_iff, Option.isNone_iff_eq_none] at h

theorem deliver_of_closed (h : c.isOpen = false) (payload : Bytes) :
    c.deliver now payload r = (none, { c with traffic := c.traffic.after (.ok none) }, r) := by
  rw [deliver, chain?_of_closed h]
  rfl

theorem receiveFrame_of_closed (h : c.isOpen = false) (frame : Bytes) :
    c.receiveFrame now frame r =
      (.ok none, { c with traffic := c.traffic.after (.ok none) }, r) := by
  rw [receiveFrame, chain?_of_closed h]
  rfl

/-- Nothing but the frame decides whether it can be read, and an unreadable one is only counted. -/
theorem receiveFrame_of_bottom {chain : Chain β μ} {t : LengthPrefixed}
    (hchain : c.chain? = some chain) (hbottom : chain.bottom = .lengthPrefixed t) (frame : Bytes) :
    c.receiveFrame now frame r =
      match LengthPrefixed.unframe frame with
      | .error e =>
        (.error (.frame e), { c with traffic := c.traffic.after (.error (.frame e)) }, r)
      | .ok payload => (c.deliver now payload r).map .ok id := by
  -- reading gives the chain back as it was, so putting it in again changes nothing
  have hsame : { c with chain? := some chain } = c := by rw [← hchain]
  rw [receiveFrame, hchain]
  dsimp only
  rw [Chain.readFrame_of_bottom hbottom]
  cases LengthPrefixed.unframe frame with
  | error e =>
      show (_, { c with chain? := some chain, traffic := c.traffic.recordError }, r) = _
      rw [← hchain]
      rfl
  | ok payload =>
      show ((.ok (deliver { c with chain? := some chain } now payload r).1 : Receipt), _) = _
      rw [hsame]
      rfl

/-- A side whose base carrier is one of the usual transports, unless it is closed. -/
def IsFramed (c : Inbound β μ) : Prop :=
  ∀ chain, c.chain? = some chain → ∃ t, chain.bottom = .lengthPrefixed t

theorem exists_receiveFrame_error_iff (h : c.IsFramed) (frame : Bytes) :
    (∃ e, (c.receiveFrame now frame r).1 = .error e) ↔
      c.isOpen = true ∧ ∀ payload : Bytes, payload.length < 0x100000000 →
        frame ≠ header payload.length ++ payload := by
  rw [← LengthPrefixed.exists_unframe_error_iff]
  cases hchain : c.chain? with
  | none =>
      have hclosed : c.isOpen = false := by rw [isOpen, hchain]; rfl
      rw [receiveFrame_of_closed now r hclosed, hclosed]
      exact ⟨nofun, nofun⟩
  | some chain =>
      have hopen : c.isOpen = true := by rw [isOpen, hchain]; rfl
      obtain ⟨t, hbottom⟩ := h chain hchain
      rw [receiveFrame_of_bottom now r hchain hbottom, hopen]
      cases LengthPrefixed.unframe frame with
      | error e => exact ⟨fun _ => ⟨rfl, e, rfl⟩, fun _ => ⟨_, rfl⟩⟩
      | ok payload => exact ⟨nofun, nofun⟩

theorem receiveFrame_of_error (h : c.IsFramed) {frame : Bytes} {e : CarrierError}
    (he : (c.receiveFrame now frame r).1 = .error e) :
    c.receiveFrame now frame r =
      (.error e, { c with traffic := c.traffic.after (.error e) }, r) := by
  rcases c.chain?.eq_none_or_eq_some with hchain | ⟨chain, hchain⟩
  · have hclosed : c.isOpen = false := by rw [isOpen, hchain]; rfl
    rw [receiveFrame_of_closed now r hclosed] at he
    cases he
  · obtain ⟨t, hbottom⟩ := h chain hchain
    rw [receiveFrame_of_bottom now r hchain hbottom] at he ⊢
    cases hread : LengthPrefixed.unframe frame with
    | error e' =>
        rw [hread] at he
        obtain rfl := Except.error.inj he
        rfl
    | ok payload =>
        rw [hread] at he
        cases he

end

/-! ## Many calls -/

inductive Call where
  | deliver (now : Float) (payload : Bytes)
  | receiveFrame (now : Float) (frame : Bytes)
  | close
  | elsewhere (r : Registry)

def Call.offers : Call → Bool
  | .deliver _ _ | .receiveFrame _ _ => true
  | .close | .elsewhere _ => false

/-- A receiving side in use, with all that it has answered. -/
structure Course (β μ : Type) where
  connection : Inbound β μ
  registry : Registry
  receipts : List Receipt := []

namespace Course

variable [Exponential]

def step (s : Course β μ) : Call → Course β μ
  | .deliver now payload =>
    let (delivered, connection, registry) := s.connection.deliver now payload s.registry
    ⟨connection, registry, s.receipts ++ [.ok delivered]⟩
  | .receiveFrame now frame =>
    let (receipt, connection, registry) := s.connection.receiveFrame now frame s.registry
    ⟨connection, registry, s.receipts ++ [receipt]⟩
  | .close =>
    let (connection, registry) := s.connection.close s.registry
    { s with connection, registry }
  | .elsewhere registry => { s with registry }

def run (s : Course β μ) (calls : List Call) : Course β μ :=
  calls.foldl step s

structure Sound (c : Catalog β μ) (route : Route) (s : Course β μ) : Prop where
  reached : s.connection.Reached c route
  counted : s.connection.traffic = Traffic.ofReceipts s.receipts

variable {c : Catalog β μ} {route : Route} {s : Course β μ}

theorem Sound.step (h : s.Sound c route) (call : Call) : (s.step call).Sound c route := by
  have hreceipt : ∀ receipt, s.connection.traffic.after receipt =
      Traffic.ofReceipts (s.receipts ++ [receipt]) := by
    intro receipt
    rw [h.counted, Traffic.after_ofReceipts]
  cases call with
  | deliver now payload =>
      exact ⟨h.reached.deliver now payload s.registry,
        (traffic_deliver _ now _ payload).trans (hreceipt _)⟩
  | receiveFrame now frame =>
      exact ⟨h.reached.receiveFrame now frame s.registry,
        (traffic_receiveFrame _ now _ frame).trans (hreceipt _)⟩
  | close => exact ⟨h.reached.close s.registry, (traffic_close _ _).trans h.counted⟩
  | elsewhere r => exact ⟨h.reached, h.counted⟩

theorem Sound.run (h : s.Sound c route) (calls : List Call) : (s.run calls).Sound c route := by
  induction calls generalizing s with
  | nil => exact h
  | cons call calls ih => exact ih (h.step call)

theorem length_receipts_step (s : Course β μ) (call : Call) :
    (s.step call).receipts.length = s.receipts.length + if call.offers then 1 else 0 := by
  cases call with
  | deliver now payload => exact List.length_append
  | receiveFrame now frame => exact List.length_append
  | close => rfl
  | elsewhere r => rfl

theorem length_receipts_run (s : Course β μ) (calls : List Call) :
    (s.run calls).receipts.length = s.receipts.length + calls.countP Call.offers := by
  induction calls generalizing s with
  | nil => rfl
  | cons call calls ih =>
      rw [run, List.foldl_cons, ← run, ih, length_receipts_step, List.countP_cons, Nat.add_assoc,
        Nat.add_comm (calls.countP Call.offers)]

theorem isOpen_step (s : Course β μ) (call : Call) :
    (s.step call).connection.isOpen = true ↔ s.connection.isOpen = true ∧ call ≠ .close := by
  cases call with
  | deliver now payload => simp [step, isOpen_deliver]
  | receiveFrame now frame => simp [step, isOpen_receiveFrame]
  | close =>
      simp only [step, close, ne_eq, not_true_eq_false, and_false, iff_false]
      cases hchain : s.connection.chain? <;> simp [isOpen, hchain]
  | elsewhere r => simp [step]

theorem isOpen_run (s : Course β μ) (calls : List Call) :
    (s.run calls).connection.isOpen = true ↔
      s.connection.isOpen = true ∧ ∀ call ∈ calls, call ≠ .close := by
  induction calls generalizing s with
  | nil => simp [run]
  | cons call calls ih =>
      rw [run, List.foldl_cons, ← run, ih, isOpen_step, List.forall_mem_cons, and_assoc]

end Course

theorem of_connect {c : Catalog β μ} {route : Route} {r r' : Registry} {i : Inbound β μ}
    (h : Inbound.connect c route r = (.ok i, r')) : i.isOpen = true ∧ i.traffic = {} := by
  rw [connect] at h
  generalize c.install .recv route r = installed at h
  obtain ⟨e | chain, r''⟩ := installed
  · cases h
  · cases h
    exact ⟨rfl, rfl⟩

theorem Reached.isFramed [Exponential] {c : Catalog β μ} {route : Route} {t : LengthPrefixed}
    (hbase : c.carrier? route.spec.base = some (.lengthPrefixed t)) {i : Inbound β μ}
    (h : i.Reached c route) : i.IsFramed := by
  intro chain hchain
  obtain ⟨_, _, hwoven⟩ := h.wove hbase chain hchain
  exact hwoven.bottom

/-- Every message that is offered to a receiving side is counted once. At any time the side is open
unless it was closed, and its counters are those of what it has answered so far: the payloads that
it handed over, after their transformation, the messages that it did not hand over, and the frames
that it could not read. These are the frames, offered to the open side, that are not made of a
length and just as many bytes; such a one changes one counter and neither a stage nor the registry.
A closed side hands over nothing and tells good frames and bad ones no longer apart. -/
theorem run_counted [Exponential] {c : Catalog β μ} {route : Route} {t : LengthPrefixed}
    (hbase : c.carrier? route.spec.base = some (.lengthPrefixed t)) {r₀ r : Registry}
    {i : Inbound β μ} (hconnect : connect c route r₀ = (.ok i, r)) (calls : List Call) :
    let s := Course.run ⟨i, r, []⟩ calls
    let i' := s.connection
    let delivered (now : Float) (payload : Bytes) := i'.deliver now payload s.registry
    let received (now : Float) (frame : Bytes) := i'.receiveFrame now frame s.registry
    let counted (receipt : Receipt) : Inbound β μ :=
      { i' with traffic := i'.traffic.after receipt }
    i'.traffic = Traffic.ofReceipts s.receipts ∧
    s.receipts.length = calls.countP Call.offers ∧
    (i'.isOpen = true ↔ ∀ call ∈ calls, call ≠ .close) ∧
    (∀ now payload, (delivered now payload).2.1.traffic =
      i'.traffic.after (.ok (delivered now payload).1)) ∧
    (∀ now frame, (received now frame).2.1.traffic = i'.traffic.after (received now frame).1) ∧
    (∀ now frame, (∃ e, (received now frame).1 = .error e) ↔
      i'.isOpen = true ∧ ∀ payload : Bytes, payload.length < 0x100000000 →
        frame ≠ header payload.length ++ payload) ∧
    (∀ now frame e, (received now frame).1 = .error e →
      received now frame = (.error e, counted (.error e), s.registry)) ∧
    (i'.isOpen = false → ∀ now message,
      delivered now message = (none, counted (.ok none), s.registry) ∧
      received now message = (.ok none, counted (.ok none), s.registry)) := by
  intro s i' delivered received counted
  obtain ⟨hopen, hzero⟩ := of_connect hconnect
  have hsound : s.Sound c route := Course.Sound.run ⟨.connect hconnect, hzero⟩ calls
  have hframed : i'.IsFramed := hsound.reached.isFramed hbase
  refine ⟨hsound.counted, ?_, ?_, fun now => traffic_deliver i' now s.registry,
    fun now => traffic_receiveFrame i' now s.registry,
    fun now => exists_receiveFrame_error_iff now s.registry hframed,
    fun now _ _ he => receiveFrame_of_error now s.registry hframed he,
    fun h now message =>
      ⟨deliver_of_closed now _ h message, receiveFrame_of_closed now _ h message⟩⟩
  · rw [Course.length_receipts_run]
    exact Nat.zero_add _
  · rw [Course.isOpen_run]
    exact and_iff_right hopen

/-- A message that is a byte shorter as it is handed over than it was in its frame, half a frame,
and half a frame once more when the side is closed. -/
theorem run_counted_ciphers :
    let _ : Exponential := ⟨fun _ => 0⟩
    let i : Inbound Empty Cipher := { route := Cipher.route, chain? := some Cipher.chain }
    let calls : List Call := [.receiveFrame 0 [0, 0, 0, 3, 0x5b, 0x5b, 0x58],
      .receiveFrame 0 [0, 0], .close, .receiveFrame 0 [0, 0]]
    let s := Course.run ⟨i, {}, []⟩ calls
    Cipher.catalog.carrier? Cipher.route.spec.base = some (.lengthPrefixed (.stream "tcp")) ∧
      connect Cipher.catalog Cipher.route {} = (.ok i, {}) ∧
      s.receipts = [.ok (some [1, 2]), .error (.frame (.short 2)), .ok none] ∧
      s.connection.traffic = { delivered := 1, bytes := 2, dropped := 1, errors := 1 } := by
  intro _ i calls s
  have hbase : Cipher.catalog.carrier? Cipher.route.spec.base =
      some (.lengthPrefixed (.stream "tcp")) := rfl
  have hconnect : connect Cipher.catalog Cipher.route {} = (.ok i, {}) := rfl
  have hreceipts : s.receipts = [.ok (some [1, 2]), .error (.frame (.short 2)), .ok none] := rfl
  obtain ⟨hcounted, -⟩ := run_counted hbase hconnect calls
  refine ⟨hbase, hconnect, hreceipts, hcounted.trans ?_⟩
  rw [hreceipts]
  rfl

end Inbound

end PortArbiter
