import PortArbiter.Proofs.Connection.Accounts
/-!
# Membership of connections

Whatever a program does with its connections, the group of a receiving port lists exactly the
priority layers of the connections that are open towards it, in the order in which they were
opened. Nothing stays registered for a connection that was refused, closed or dropped.
-/

namespace PortArbiter

variable {β μ : Type} [Transport β] [Stage μ]

/-! ## Messages on one connection -/

theorem Inbound.kept_deliver [Exponential] (c : Inbound β μ) (now : Float) (payload : Bytes)
    {r : Registry} (hr : r.Coherent) :
    c.Kept r (c.deliver now payload r).2.1 (c.deliver now payload r).2.2 := by
  rw [deliver]
  cases hchain : c.chain? with
  | none => exact ⟨rfl, by rw [hchain], hr, fun _ => rfl⟩
  | some chain =>
      have hlayers := chain.priorities_acceptInbound now ⟨c.route, payload⟩ r
      have hcoherent := chain.coherent_acceptInbound now ⟨c.route, payload⟩ hr
      have hseats := chain.seats_acceptInbound now ⟨c.route, payload⟩ r
      dsimp only
      generalize chain.acceptInbound now ⟨c.route, payload⟩ r = asked at hlayers hcoherent hseats ⊢
      obtain ⟨accepted, chain', r'⟩ := asked
      cases accepted with
      | false =>
          refine ⟨rfl, ?_, hcoherent, hseats⟩
          rw [hchain]
          exact congrArg some hlayers
      | true =>
          have htransform : (if chain'.transformsInbound then chain'.transformInbound payload
              else (payload, chain')).2.priorities = chain'.priorities := by
            split
            · exact chain'.priorities_transformInbound payload
            · rfl
          refine ⟨rfl, ?_, hcoherent, hseats⟩
          rw [hchain]
          exact congrArg some (htransform.trans hlayers)

theorem Inbound.kept_receiveFrame [Exponential] (c : Inbound β μ) (now : Float) (frame : Bytes)
    {r : Registry} (hr : r.Coherent) :
    c.Kept r (c.receiveFrame now frame r).2.1 (c.receiveFrame now frame r).2.2 := by
  rw [receiveFrame]
  cases hchain : c.chain? with
  | none => exact ⟨rfl, by rw [hchain], hr, fun _ => rfl⟩
  | some chain =>
      have hlayers := chain.priorities_readFrame frame
      dsimp only
      generalize chain.readFrame frame = read at hlayers ⊢
      obtain ⟨result, chain'⟩ := read
      have hread : (some chain').map Chain.priorities = c.chain?.map Chain.priorities := by
        rw [hchain]
        exact congrArg some hlayers
      cases result with
      | error e => exact ⟨rfl, hread, hr, fun _ => rfl⟩
      | ok payload =>
          have hkept := kept_deliver { c with chain? := some chain' } now payload hr
          exact ⟨hkept.route, hkept.layers.trans hread, hkept.coherent, hkept.seats⟩

theorem Outbound.route_encode (c : Outbound β μ) (payload : Bytes) :
    (c.encode payload).2.route = c.route := by
  rw [encode]
  generalize c.chain.acceptOutbound payload = asked
  obtain ⟨accepted, chain⟩ := asked
  cases accepted <;> rfl

theorem Outbound.layers_encode (c : Outbound β μ) (payload : Bytes) :
    (c.encode payload).2.chain.priorities = c.chain.priorities := by
  have hlayers := c.chain.priorities_acceptOutbound payload
  rw [encode]
  generalize c.chain.acceptOutbound payload = asked at hlayers ⊢
  obtain ⟨accepted, chain⟩ := asked
  cases accepted with
  | false => exact hlayers
  | true =>
      have htransform : (if chain.transformsOutbound then chain.transformOutbound payload
          else (payload, chain)).2.priorities = chain.priorities := by
        split
        · exact chain.priorities_transformOutbound payload
        · rfl
      exact ((Chain.priorities_writeFrame _ [] _).trans htransform).trans hlayers

/-! ## One operation -/

namespace Switchboard

theorem connected?_deliver [Exponential] {s : Switchboard β μ} (hr : s.registry.Coherent)
    (label : String) (now : Float) (payload : Bytes) :
    (s.deliver label now payload).2.connected? = s.connected? := by
  rw [Switchboard.deliver]
  cases hc : s.inbound? label with
  | none => rfl
  | some c => exact connected?_replace_inbound hc (c.kept_deliver now payload hr)

theorem connected?_receiveFrame [Exponential] {s : Switchboard β μ} (hr : s.registry.Coherent)
    (label : String) (now : Float) (frame : Bytes) :
    (s.receiveFrame label now frame).2.connected? = s.connected? := by
  rw [Switchboard.receiveFrame]
  cases hc : s.inbound? label with
  | none => rfl
  | some c => exact connected?_replace_inbound hc (c.kept_receiveFrame now frame hr)

theorem registry_encode (s : Switchboard β μ) (label : String) (payload : Bytes) :
    (s.encode label payload).2.registry = s.registry := by
  rw [Switchboard.encode]
  split <;> rfl

theorem connected?_encode (s : Switchboard β μ) (label : String) (payload : Bytes) :
    (s.encode label payload).2.connected? = s.connected? := by
  rw [Switchboard.encode]
  cases hc : s.outbound? label with
  | none => rfl
  | some c =>
      funext side' label'
      refine (connected?_put_outbound s s.registry label (c.encode payload).2 side' label').trans ?_
      split
      · rename_i hslot
        obtain ⟨rfl, rfl⟩ := Prod.mk.inj hslot
        rw [connected?_send, hc, c.route_encode, c.layers_encode]
        rfl
      · rfl

end Switchboard

namespace Switchboard.Accounts

variable {s : Switchboard β μ} {opened : List Opened}

theorem deliver [Exponential] (h : s.Accounts opened) (label : String) (now : Float)
    (payload : Bytes) : (s.deliver label now payload).2.Accounts opened := by
  rw [Switchboard.deliver]
  cases hc : s.inbound? label with
  | none => exact h
  | some c => exact h.replaceInbound hc (c.kept_deliver now payload h.coherent)

theorem receiveFrame [Exponential] (h : s.Accounts opened) (label : String) (now : Float)
    (frame : Bytes) : (s.receiveFrame label now frame).2.Accounts opened := by
  rw [Switchboard.receiveFrame]
  cases hc : s.inbound? label with
  | none => exact h
  | some c => exact h.replaceInbound hc (c.kept_receiveFrame now frame h.coherent)

theorem encode (h : s.Accounts opened) (label : String) (payload : Bytes) :
    (s.encode label payload).2.Accounts opened :=
  h.undisturbed (by rw [Switchboard.encode]; split <;> rfl)
    ((s.registry_encode label payload).symm ▸ h.coherent) (s.connected?_encode label payload)
    fun _ => by rw [s.registry_encode label payload]

theorem openInbound (h : s.Accounts opened) (label : String) (route : Route) :
    (s.openInbound label route).2.Accounts
      (Opened.reopen ⟨.recv, label, route⟩ (s.openInbound label route).1 opened) := by
  have hdropped := h.dropInbound label
  have hnone : (s.dropInbound label).connected? .recv label = none := by
    rw [Switchboard.dropInbound]
    cases hc : s.inbound? label with
    | none => rw [connected?_recv, hc]; rfl
    | some c => exact (connected?_remove_inbound s _ label .recv label).trans (if_pos rfl)
  rw [Switchboard.openInbound]
  generalize s.dropInbound label = s' at hdropped hnone ⊢
  rw [Inbound.connect]
  rcases hdropped.stock.install hdropped.coherent .recv route with
    ⟨e, r', hinstall, hcoherent, hroster⟩ | ⟨chain, r', hinstall, hinstalled⟩
  · rw [hinstall]
    exact hdropped.undisturbed rfl hcoherent rfl fun k =>
      congrArg (List.map Member.seat) (hroster k)
  · rw [hinstall]
    exact hdropped.enter hnone rfl (connected?_put_inbound s' r' label _) hinstalled

theorem openOutbound (h : s.Accounts opened) (label : String) (route : Route) :
    (s.openOutbound label route).2.Accounts
      (Opened.reopen ⟨.send, label, route⟩ (s.openOutbound label route).1 opened) := by
  have hdropped := h.dropOutbound label
  have hnone : (s.dropOutbound label).connected? .send label = none := by
    rw [Switchboard.dropOutbound]
    cases hc : s.outbound? label with
    | none => rw [connected?_send, hc]; rfl
    | some c => exact (connected?_remove_outbound s _ label .send label).trans (if_pos rfl)
  rw [Switchboard.openOutbound]
  generalize s.dropOutbound label = s' at hdropped hnone ⊢
  rw [Outbound.connect]
  rcases hdropped.stock.install hdropped.coherent .send route with
    ⟨e, r', hinstall, hcoherent, hroster⟩ | ⟨chain, r', hinstall, hinstalled⟩
  · rw [hinstall]
    exact hdropped.undisturbed rfl hcoherent rfl fun k =>
      congrArg (List.map Member.seat) (hroster k)
  · rw [hinstall]
    exact hdropped.enter hnone rfl (connected?_put_outbound s' r' label _) hinstalled

end Switchboard.Accounts

/-! ## Histories -/

inductive Operation where
  | openInbound (label : String) (route : Route)
  | openOutbound (label : String) (route : Route)
  | deliver (label : String) (now : Float) (payload : Bytes)
  | receiveFrame (label : String) (now : Float) (frame : Bytes)
  | encode (label : String) (payload : Bytes)
  | close (label : String)
  | dropInbound (label : String)
  | dropOutbound (label : String)

/-- A switchboard and the connections that are open on it, in the order of opening. -/
structure History (β μ : Type) where
  board : Switchboard β μ
  opened : List Opened := []

namespace History

def step [Exponential] (s : History β μ) : Operation → History β μ
  | .openInbound label route =>
    let opening := s.board.openInbound label route
    ⟨opening.2, Opened.reopen ⟨.recv, label, route⟩ opening.1 s.opened⟩
  | .openOutbound label route =>
    let opening := s.board.openOutbound label route
    ⟨opening.2, Opened.reopen ⟨.send, label, route⟩ opening.1 s.opened⟩
  | .deliver label now payload => { s with board := (s.board.deliver label now payload).2 }
  | .receiveFrame label now frame => { s with board := (s.board.receiveFrame label now frame).2 }
  | .encode label payload => { s with board := (s.board.encode label payload).2 }
  | .close label => ⟨s.board.close label, Opened.strike .recv label s.opened⟩
  | .dropInbound label => ⟨s.board.dropInbound label, Opened.strike .recv label s.opened⟩
  | .dropOutbound label => ⟨s.board.dropOutbound label, Opened.strike .send label s.opened⟩

def run [Exponential] (s : History β μ) (operations : List Operation) : History β μ :=
  operations.foldl step s

theorem accounts_step [Exponential] {s : History β μ} (h : s.board.Accounts s.opened)
    (operation : Operation) : (s.step operation).board.Accounts (s.step operation).opened := by
  cases operation with
  | openInbound label route =>
      simp only [step]
      exact h.openInbound label route
  | openOutbound label route =>
      simp only [step]
      exact h.openOutbound label route
  | deliver label now payload => exact h.deliver label now payload
  | receiveFrame label now frame => exact h.receiveFrame label now frame
  | encode label payload => exact h.encode label payload
  | close label => exact h.close label
  | dropInbound label => exact h.dropInbound label
  | dropOutbound label => exact h.dropOutbound label

theorem accounts_run [Exponential] {s : History β μ} (h : s.board.Accounts s.opened)
    (operations : List Operation) :
    (s.run operations).board.Accounts (s.run operations).opened := by
  induction operations generalizing s with
  | nil => exact h
  | cons operation operations ih => exact ih (accounts_step h operation)

/-- Along every history the open connections, in the order of opening, are known by their labels;
the group of a port lists one member for each priority layer of each open connection towards it,
declared as the route says; within one connection the innermost layer comes first, which is the
order of the carrier text, and each is listed under the identity it holds; a port without one has
no group; and once no connection is open, no group is left. -/
theorem run_seats [Exponential] {c : Catalog β μ} (hc : c.Stock) (operations : List Operation) :
    let s := run { board := { catalog := c } } operations
    (s.opened.map Opened.slot).Nodup ∧
    (∀ o, o ∈ s.opened ↔ (s.board.connected? o.side o.label).map Prod.fst = some o.route) ∧
    (∀ port, s.board.registry.lookup port = none ↔ Opened.claimants port s.opened = []) ∧
    (∀ port g, s.board.registry.lookup port = some g →
      (s.board.registry.group g).members.map (fun m => Except.ok m.contender.declared) =
        (Opened.claimants port s.opened).map fun o => PriorityLayer.contenderOf o.route) ∧
    (∀ port g, s.board.registry.lookup port = some g →
      (s.board.registry.group g).members.map Member.seat =
        (s.opened.filter (·.route.receiver = port)).flatMap s.board.seats) ∧
    (∀ o ∈ s.opened, (s.board.seats o).map (fun seat => Except.ok seat.2) =
      List.replicate (Catalog.seatsOf o.route o.side) (PriorityLayer.contenderOf o.route)) ∧
    (s.opened = [] → s.board.registry.size = 0) := by
  intro s
  have h : s.board.Accounts s.opened := accounts_run (Switchboard.Accounts.initial hc) operations
  have hnone : ∀ port, s.board.registry.lookup port = none ↔
      Opened.claimants port s.opened = [] := by
    intro port
    rw [← h.coherent.roster_eq_nil_iff]
    have hroster := h.contenders_roster port
    rw [← List.map_eq_nil_iff, hroster, List.map_eq_nil_iff]
  refine ⟨h.slots_nodup, h.connected_iff, hnone, ?_, ?_, fun o ho => h.contenders_seats ho, ?_⟩
  · intro port g hg
    rw [← Registry.roster_of_lookup hg]
    exact h.contenders_roster port
  · intro port g hg
    rw [← Registry.roster_of_lookup hg]
    exact h.rosters port
  · intro hopened
    apply Registry.size_eq_zero_of_lookup
    intro port
    rw [hnone, hopened]
    rfl

def mishaps : List Operation := [
  .openInbound "left" ⟨"/left:o", "/door:i", "tcp+recv.priority+recv.priority+level.2"⟩,
  .openOutbound "right" ⟨"/right:o", "/door:i", "udp+send.priority+level.3"⟩,
  .openInbound "lost" ⟨"/lost:o", "/door:i", "tcp+recv.priority+inhibit"⟩,
  .close "left"]

theorem run_seats_mishaps :
    let _ : Exponential := ⟨fun _ => 0⟩
    let c : Catalog Empty Empty := .standard
    let s := run { board := { catalog := c } } mishaps
    let right : Route := ⟨"/right:o", "/door:i", "udp+send.priority+level.3"⟩
    c.Stock ∧ s.opened = [⟨.send, "right", right⟩] ∧
      ∃ g, s.board.registry.lookup "/door:i" = some g ∧
        (s.board.registry.group g).members.map (fun m => Except.ok m.contender.declared) =
          [PriorityLayer.contenderOf right] ∧
        (s.board.registry.group g).members.map Member.seat =
          s.board.seats ⟨.send, "right", right⟩ := by
  intro _ c s right
  have hseats := run_seats (c := c) .standard mishaps
  have hclaimants : Opened.claimants "/door:i" s.opened = [⟨.send, "right", right⟩] := by
    decide +kernel
  have hsome : s.board.registry.lookup "/door:i" ≠ none := by
    rw [ne_eq, hseats.2.2.1, hclaimants]
    nofun
  obtain ⟨g, hg⟩ := Option.ne_none_iff_exists'.1 hsome
  have hopened : s.opened = [⟨.send, "right", right⟩] := by decide +kernel
  refine ⟨.standard, hopened, g, hg, ?_, ?_⟩
  · rw [hseats.2.2.2.1 _ g hg, hclaimants]
    rfl
  · rw [hseats.2.2.2.2.1 _ g hg, hopened]
    exact List.append_nil _

end History

end PortArbiter
