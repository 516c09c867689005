import PortArbiter.Proofs.Carrier.Twins
import PortArbiter.Proofs.Connection.Bystanders
/-!
# Sending sides are not noticed

A priority layer on the sending side of a route joins the group of the receiving port like any other
one, but no message is ever recorded for it, so it has no say there. Whatever a program does with
sending sides, its receiving sides open, deliver and refuse as if there were none.
-/

namespace PortArbiter

open View (Leads)

variable {β μ : Type}

/-! ## Receiving sides -/

structure Inbound.Twin (v : View) (c c' : Inbound β μ) : Prop where
  route : c'.route = c.route
  traffic : c'.traffic = c.traffic
  chain : c.chain? = none ∧ c'.chain? = none ∨
    ∃ chain chain', c.chain? = some chain ∧ c'.chain? = some chain' ∧ chain.Twin v chain'

namespace Inbound.Twin

variable {v w : View} {c c' : Inbound β μ}

theorem later (h : Twin v c c') (hlater : v.Later w) : Twin w c c' where
  route := h.route
  traffic := h.traffic
  chain := by
    rcases h.chain with hnone | ⟨chain, chain', hc, hc', hchain⟩
    · exact Or.inl hnone
    · exact Or.inr ⟨chain, chain', hc, hc', hchain.later hlater⟩

theorem close (h : Twin v c c') (hv : v.Sound) :
    v.Leads (c.close v.seen).2 (c'.close v.whole).2 ∧
      Twin ⟨v.name, (c.close v.seen).2, (c'.close v.whole).2⟩ (c.close v.seen).1
        (c'.close v.whole).1 := by
  rcases h.chain with ⟨hc, hc'⟩ | ⟨chain, chain', hc, hc', hchain⟩
  · simp only [Inbound.close, hc, hc']
    exact ⟨hv.leads, h⟩
  · simp only [Inbound.close, hc, hc']
    exact ⟨hchain.release hv, h.route, h.traffic, Or.inl ⟨rfl, rfl⟩⟩

variable [Transport β] [Stage μ] [Exponential]

theorem deliver (h : Twin v c c') (hv : v.Sound) (now : Float) (payload : Bytes) :
    View.Agree Twin v (c.deliver now payload v.seen) (c'.deliver now payload v.whole) := by
  rcases h.chain with ⟨hc, hc'⟩ | ⟨chain, chain', hc, hc', hchain⟩
  · simp only [Inbound.deliver, hc, hc']
    exact ⟨rfl, hv.leads, h.route, congrArg Traffic.recordDropped h.traffic, Or.inl ⟨rfl, rfl⟩⟩
  · have hasked := hchain.acceptInbound hv now ⟨c.route, payload⟩
    simp only [Inbound.deliver, hc, hc', h.route, h.traffic]
    generalize chain.acceptInbound now ⟨c.route, payload⟩ v.seen = a at hasked
    generalize chain'.acceptInbound now ⟨c.route, payload⟩ v.whole = a' at hasked
    obtain ⟨accepted, chain₁, r⟩ := a
    obtain ⟨accepted', chain₁', r'⟩ := a'
    obtain rfl : accepted' = accepted := hasked.result
    cases accepted' with
    | false => exact ⟨rfl, hasked.leads, rfl, rfl, Or.inr ⟨_, _, rfl, rfl, hasked.twin⟩⟩
    | true =>
        obtain ⟨hpayload, htwin⟩ := hasked.twin.transformInbound payload
        have htransforms : chain₁'.transformsInbound = chain₁.transformsInbound :=
          hasked.twin.transformsInbound
        dsimp only
        rw [htransforms]
        split
        · exact ⟨congrArg some hpayload, hasked.leads, rfl, by rw [hpayload],
            Or.inr ⟨_, _, rfl, rfl, htwin⟩⟩
        · exact ⟨rfl, hasked.leads, rfl, rfl, Or.inr ⟨_, _, rfl, rfl, hasked.twin⟩⟩

theorem receiveFrame (h : Twin v c c') (hv : v.Sound) (now : Float) (frame : Bytes) :
    View.Agree Twin v (c.receiveFrame now frame v.seen) (c'.receiveFrame now frame v.whole) := by
  rcases h.chain with ⟨hc, hc'⟩ | ⟨chain, chain', hc, hc', hchain⟩
  · simp only [Inbound.receiveFrame, hc, hc']
    exact ⟨rfl, hv.leads, h.route, congrArg Traffic.recordDropped h.traffic, Or.inl ⟨rfl, rfl⟩⟩
  · obtain ⟨hread, htwin⟩ := hchain.readFrame frame
    simp only [Inbound.receiveFrame, hc, hc']
    generalize chain.readFrame frame = a at hread htwin
    generalize chain'.readFrame frame = a' at hread htwin
    obtain ⟨result, chain₁⟩ := a
    obtain ⟨result', chain₁'⟩ := a'
    obtain rfl : result' = result := hread
    cases result' with
    | error e =>
        exact ⟨rfl, hv.leads, h.route, congrArg Traffic.recordError h.traffic,
          Or.inr ⟨_, _, rfl, rfl, htwin⟩⟩
    | ok payload =>
        have hread : Twin v { c with chain? := some chain₁ } { c' with chain? := some chain₁' } :=
          ⟨h.route, h.traffic, Or.inr ⟨_, _, rfl, rfl, htwin⟩⟩
        have hdelivered := hread.deliver hv now payload
        exact ⟨congrArg Except.ok hdelivered.result, hdelivered.leads, hdelivered.twin⟩

end Inbound.Twin

/-! ## Switchboards -/

inductive Outcome where
  | nothing
  | opened (result : Except CarrierError Unit)
  | delivered (payload? : Option Bytes)
  | framed (result : Except CarrierError (Option Bytes))

namespace Switchboard

variable {ρ : PeerId → PeerId} {s s' : Switchboard β μ}

/-- Two switchboards that have the same receiving sides, apart from the names of registrations. The
second one may have sending sides, which the first one does not notice. -/
structure Covered (ρ : PeerId → PeerId) (s s' : Switchboard β μ) : Prop where
  sound : View.Sound ⟨ρ, s.registry, s'.registry⟩
  catalog : s'.catalog = s.catalog
  inbound : ∀ label, s.inbound? label = none ∧ s'.inbound? label = none ∨
    ∃ c c', s.inbound? label = some c ∧ s'.inbound? label = some c' ∧
      c.Twin ⟨ρ, s.registry, s'.registry⟩ c'
  outbound : ∀ label c, s'.outbound? label = some c →
    c.chain.Hidden ⟨ρ, s.registry, s'.registry⟩

namespace Covered

theorem initial (c : Catalog β μ) : Covered id { catalog := c } { catalog := c } where
  sound := View.sound_initial
  catalog := rfl
  inbound _ := Or.inl ⟨rfl, rfl⟩
  outbound := nofun

theorem traffic (h : Covered ρ s s') (label : String) :
    (s'.inbound? label).map Inbound.traffic = (s.inbound? label).map Inbound.traffic := by
  rcases h.inbound label with ⟨hc, hc'⟩ | ⟨c, c', hc, hc', htwin⟩
  · rw [hc, hc']
  · rw [hc, hc']
    exact congrArg some htwin.traffic

/-- Nothing was ever heard of the members that a sending side has in any group. -/
theorem unheard (h : Covered ρ s s') {label : String} {c : Outbound β μ}
    (hc : s'.outbound? label = some c) {port : String} {m : Member}
    (hm : m ∈ s'.registry.roster port) (hmember : m.id ∈ c.chain.members.map Member.id) :
    m.contender.arrival? = none := by
  obtain ⟨m', hm', hid⟩ := List.mem_map.1 hmember
  obtain ⟨p, hp, hsome⟩ := List.mem_filterMap.1 hm'
  obtain ⟨t, ht, rfl⟩ := Option.map_eq_some_iff.1 hsome
  exact h.sound.silent port m hm (hid ▸ (h.outbound label c hc p hp t ht).2)

theorem move (h : Covered ρ s s') {ρ' : PeerId → PeerId} {r r' : Registry}
    (hsound : View.Sound ⟨ρ', r, r'⟩)
    (hlater : View.Later ⟨ρ, s.registry, s'.registry⟩ ⟨ρ', r, r'⟩) :
    Covered ρ' { s with registry := r } { s' with registry := r' } where
  sound := hsound
  catalog := h.catalog
  inbound label := by
    rcases h.inbound label with hnone | ⟨c, c', hc, hc', htwin⟩
    · exact Or.inl hnone
    · exact Or.inr ⟨c, c', hc, hc', htwin.later hlater⟩
  outbound label c hc := (h.outbound label c hc).later hlater

theorem putInbound (h : Covered ρ s s') (label : String) {c c' : Inbound β μ}
    (htwin : c.Twin ⟨ρ, s.registry, s'.registry⟩ c') :
    Covered ρ { s with inbound := Table.put label c s.inbound }
      { s' with inbound := Table.put label c' s'.inbound } where
  sound := h.sound
  catalog := h.catalog
  inbound other := by
    simp only [inbound?, Table.lookup_put]
    split
    · exact Or.inr ⟨c, c', rfl, rfl, htwin⟩
    · exact h.inbound other
  outbound := h.outbound

theorem removeInbound (h : Covered ρ s s') (label : String) :
    Covered ρ { s with inbound := Table.remove label s.inbound }
      { s' with inbound := Table.remove label s'.inbound } where
  sound := h.sound
  catalog := h.catalog
  inbound other := by
    simp only [inbound?, Table.lookup_remove]
    split
    · exact Or.inl ⟨rfl, rfl⟩
    · exact h.inbound other
  outbound := h.outbound

theorem putOutbound (h : Covered ρ s s') (label : String) {c : Outbound β μ}
    (hhidden : c.chain.Hidden ⟨ρ, s.registry, s'.registry⟩) :
    Covered ρ s { s' with outbound := Table.put label c s'.outbound } where
  sound := h.sound
  catalog := h.catalog
  inbound := h.inbound
  outbound other c' hc' := by
    have hlookup : List.lookup other (Table.put label c s'.outbound) = some c' := hc'
    rw [Table.lookup_put] at hlookup
    split at hlookup
    · obtain rfl := Option.some.inj hlookup
      exact hhidden
    · exact h.outbound other c' hlookup

theorem removeOutbound (h : Covered ρ s s') (label : String) :
    Covered ρ s { s' with outbound := Table.remove label s'.outbound } where
  sound := h.sound
  catalog := h.catalog
  inbound := h.inbound
  outbound other c' hc' := by
    have hlookup : List.lookup other (Table.remove label s'.outbound) = some c' := hc'
    rw [Table.lookup_remove] at hlookup
    split at hlookup
    · cases hlookup
    · exact h.outbound other c' hlookup

theorem dropInbound (h : Covered ρ s s') (label : String) :
    Covered ρ (s.dropInbound label) (s'.dropInbound label) := by
  rcases h.inbound label with ⟨hc, hc'⟩ | ⟨c, c', hc, hc', htwin⟩
  · simp only [Switchboard.dropInbound, hc, hc']
    exact h
  · simp only [Switchboard.dropInbound, hc, hc']
    have hleads := (htwin.close h.sound).1
    exact (h.move hleads.sound hleads.later).removeInbound label

theorem close (h : Covered ρ s s') (label : String) :
    Covered ρ (s.close label) (s'.close label) := by
  rcases h.inbound label with ⟨hc, hc'⟩ | ⟨c, c', hc, hc', htwin⟩
  · simp only [Switchboard.close, hc, hc']
    exact h
  · simp only [Switchboard.close, hc, hc']
    obtain ⟨hleads, hclosed⟩ := htwin.close h.sound
    exact (h.move hleads.sound hleads.later).putInbound label hclosed

theorem dropOutbound (h : Covered ρ s s') (label : String) :
    Covered ρ s (s'.dropOutbound label) := by
  cases hc : s'.outbound? label with
  | none =>
      simp only [Switchboard.dropOutbound, hc]
      exact h
  | some c =>
      simp only [Switchboard.dropOutbound, hc]
      have hleads := (h.outbound label c hc).release h.sound
      exact (h.move hleads.sound hleads.later).removeOutbound label

variable [Transport β] [Stage μ]

theorem openInbound (h : Covered ρ s s') (label : String) (route : Route) :
    (s'.openInbound label route).1 = (s.openInbound label route).1 ∧
      Covered ρ (s.openInbound label route).2 (s'.openInbound label route).2 := by
  have hdropped := h.dropInbound label
  rw [Switchboard.openInbound, Switchboard.openInbound]
  generalize s.dropInbound label = b at hdropped
  generalize s'.dropInbound label = b' at hdropped
  obtain ⟨catalog', registry', inbound', outbound'⟩ := b'
  obtain rfl : catalog' = b.catalog := hdropped.catalog
  obtain ⟨hleads, hinstalled⟩ := b.catalog.install_alike .recv route hdropped.sound
  have hmoved := hdropped.move hleads.sound hleads.later
  simp only [Inbound.connect]
  generalize b.catalog.install .recv route b.registry = a at hleads hinstalled hmoved
  generalize b.catalog.install .recv route registry' = a' at hleads hinstalled hmoved
  obtain ⟨result, r⟩ := a
  obtain ⟨result', r'⟩ := a'
  rcases hinstalled with ⟨e, rfl, rfl⟩ | ⟨chain, chain', rfl, rfl, htwin⟩
  · exact ⟨rfl, hmoved⟩
  · have hopened : Inbound.Twin ⟨ρ, r, r'⟩ ⟨route, some chain, {}⟩ ⟨route, some chain', {}⟩ :=
      ⟨rfl, rfl, Or.inr ⟨chain, chain', rfl, rfl, htwin⟩⟩
    exact ⟨rfl, hmoved.putInbound label hopened⟩

theorem openOutbound (h : Covered ρ s s') (label : String) (route : Route) :
    ∃ ρ', Covered ρ' s (s'.openOutbound label route).2 := by
  have hdropped := h.dropOutbound label
  rw [Switchboard.openOutbound]
  generalize s'.dropOutbound label = b' at hdropped
  obtain ⟨w, hseen, hwhole, hw, hlater, hhidden⟩ :=
    b'.catalog.install_hidden .send route hdropped.sound
  obtain ⟨ρ', r, r'⟩ := w
  obtain rfl : r = s.registry := hseen
  refine ⟨ρ', ?_⟩
  have hmoved := hdropped.move hw hlater
  simp only [Outbound.connect]
  generalize b'.catalog.install .send route b'.registry = a at hwhole hhidden
  obtain ⟨result, r₁⟩ := a
  obtain rfl : r' = r₁ := hwhole
  cases result with
  | error e => exact hmoved
  | ok chain => exact hmoved.putOutbound label (hhidden chain rfl)

variable [Exponential]

theorem deliver (h : Covered ρ s s') (label : String) (now : Float) (payload : Bytes) :
    (s'.deliver label now payload).1 = (s.deliver label now payload).1 ∧
      Covered ρ (s.deliver label now payload).2 (s'.deliver label now payload).2 := by
  rcases h.inbound label with ⟨hc, hc'⟩ | ⟨c, c', hc, hc', htwin⟩
  · simp only [Switchboard.deliver, hc, hc']
    exact ⟨trivial, h⟩
  · have hagree := htwin.deliver h.sound now payload
    simp only [Switchboard.deliver, hc, hc']
    exact ⟨hagree.result,
      (h.move hagree.leads.sound hagree.leads.later).putInbound label hagree.twin⟩

theorem receiveFrame (h : Covered ρ s s') (label : String) (now : Float) (frame : Bytes) :
    (s'.receiveFrame label now frame).1 = (s.receiveFrame label now frame).1 ∧
      Covered ρ (s.receiveFrame label now frame).2 (s'.receiveFrame label now frame).2 := by
  rcases h.inbound label with ⟨hc, hc'⟩ | ⟨c, c', hc, hc', htwin⟩
  · simp only [Switchboard.receiveFrame, hc, hc']
    exact ⟨trivial, h⟩
  · have hagree := htwin.receiveFrame h.sound now frame
    simp only [Switchboard.receiveFrame, hc, hc']
    exact ⟨hagree.result,
      (h.move hagree.leads.sound hagree.leads.later).putInbound label hagree.twin⟩

omit [Exponential] in
theorem encode (h : Covered ρ s s') (label : String) (payload : Bytes) :
    Covered ρ s (s'.encode label payload).2 := by
  cases hc : s'.outbound? label with
  | none =>
      simp only [Switchboard.encode, hc]
      exact h
  | some c =>
      simp only [Switchboard.encode, hc]
      apply h.putOutbound label
      rw [Chain.Hidden, c.layers_encode payload]
      exact h.outbound label c hc

end Covered

variable [Transport β] [Stage μ] [Exponential]

def outcome (s : Switchboard β μ) : Operation → Outcome
  | .openInbound label route => .opened (s.openInbound label route).1
  | .openOutbound label route => .opened (s.openOutbound label route).1
  | .deliver label now payload => .delivered (s.deliver label now payload).1
  | .receiveFrame label now frame => .framed (s.receiveFrame label now frame).1
  | .encode label payload => .framed (s.encode label payload).1
  | .close _ | .dropInbound _ | .dropOutbound _ => .nothing

def outcomes : Switchboard β μ → List Operation → List (Direction × Outcome)
  | _, [] => []
  | s, operation :: operations =>
    (operation.slot.1, s.outcome operation) :: (s.perform operation).outcomes operations

def performAll (s : Switchboard β μ) (operations : List Operation) : Switchboard β μ :=
  operations.foldl perform s

/-- An operation on a receiving side has the same outcome whether or not there are sending sides. -/
theorem Covered.perform_recv (h : Covered ρ s s') {operation : Operation}
    (hside : operation.slot.1 = .recv) :
    s'.outcome operation = s.outcome operation ∧
      Covered ρ (s.perform operation) (s'.perform operation) := by
  cases operation with
  | openInbound label route =>
      obtain ⟨hresult, hcovered⟩ := h.openInbound label route
      exact ⟨congrArg Outcome.opened hresult, hcovered⟩
  | deliver label now payload =>
      obtain ⟨hresult, hcovered⟩ := h.deliver label now payload
      exact ⟨congrArg Outcome.delivered hresult, hcovered⟩
  | receiveFrame label now frame =>
      obtain ⟨hresult, hcovered⟩ := h.receiveFrame label now frame
      exact ⟨congrArg Outcome.framed hresult, hcovered⟩
  | close label => exact ⟨rfl, h.close label⟩
  | dropInbound label => exact ⟨rfl, h.dropInbound label⟩
  | openOutbound | encode | dropOutbound => cases hside

/-- An operation on a sending side is not noticed. -/
theorem Covered.perform_send (h : Covered ρ s s') {operation : Operation}
    (hside : operation.slot.1 = .send) : ∃ ρ', Covered ρ' s (s'.perform operation) := by
  cases operation with
  | openOutbound label route => exact h.openOutbound label route
  | encode label payload => exact ⟨ρ, h.encode label payload⟩
  | dropOutbound label => exact ⟨ρ, h.dropOutbound label⟩
  | openInbound | deliver | receiveFrame | close | dropInbound => cases hside

theorem Covered.performAll (operations : List Operation) (h : Covered ρ s s') :
    s.outcomes (operations.filter (·.slot.1 = .recv)) =
        (s'.outcomes operations).filter (·.1 = .recv) ∧
      ∃ ρ', Covered ρ' (s.performAll (operations.filter (·.slot.1 = .recv)))
        (s'.performAll operations) := by
  induction operations generalizing ρ s s' with
  | nil => exact ⟨rfl, ρ, h⟩
  | cons operation operations ih =>
      cases hside : operation.slot.1 with
      | recv =>
          obtain ⟨houtcome, hcovered⟩ := h.perform_recv hside
          obtain ⟨houtcomes, hlast⟩ := ih hcovered
          rw [List.filter_cons_of_pos (by simpa using hside), outcomes, outcomes,
            List.filter_cons_of_pos (by simpa using hside), houtcome, houtcomes]
          exact ⟨rfl, hlast⟩
      | send =>
          obtain ⟨ρ', hcovered⟩ := h.perform_send hside
          obtain ⟨houtcomes, hlast⟩ := ih hcovered
          have hother : ¬ operation.slot.1 = .recv := by rw [hside]; nofun
          rw [List.filter_cons_of_neg (by simpa using hother), outcomes,
            List.filter_cons_of_neg (by simpa using hother)]
          exact ⟨houtcomes, hlast⟩

end Switchboard

/-! ## Members without a say -/

/-- A member that is never heard, or that has no positive time constant whatever it sends, might as
well not be there: with it and all its moves left out of a run, whatever the clock readings, all
others get the same answers, and the same is known of them in the end. In particular nothing is ever
heard of a priority layer on a sending side: with all operations on sending sides left out, every
operation on a receiving side has the same outcome, and the same is counted. -/
theorem silent_unnoticed [Transport β] [Stage μ] [Exponential] {x : PeerId} {moves : List Move}
    (hx : Move.Silent x moves ∨ Move.Floored x moves) (port : String) (catalog : Catalog β μ)
    (operations : List Operation) :
    (let g : Group := { endpoint := port }
      let others := moves.filter (·.subject ≠ x)
      g.run others = (g.run moves).leave x ∧
        g.transcript others =
          ((g.transcript moves).filter (·.1 ≠ x)).map (Prod.map id (Answer.only (· ≠ x)))) ∧
    (let s : Switchboard β μ := { catalog }
      let others := operations.filter (·.slot.1 = .recv)
      s.outcomes others = (s.outcomes operations).filter (·.1 = .recv) ∧
        (∀ label, ((s.performAll operations).inbound? label).map Inbound.traffic =
          ((s.performAll others).inbound? label).map Inbound.traffic) ∧
        ∀ label c, (s.performAll operations).outbound? label = some c →
          ∀ receiver, ∀ m ∈ (s.performAll operations).registry.roster receiver,
            m.id ∈ c.chain.members.map Member.id → m.contender.arrival? = none) := by
  refine ⟨Group.run_leave hx port, ?_⟩
  obtain ⟨houtcomes, ρ, hcovered⟩ :=
    (Switchboard.Covered.initial catalog).performAll operations
  exact ⟨houtcomes, hcovered.traffic, fun _ _ hc _ _ hm => hcovered.unheard hc hm⟩

def guarded : List Move := [
  .join ⟨1⟩ { source := "/cam:o", level := 5, timeConstant := 2 },
  .join ⟨2⟩ { source := "/guard:o", level := 100, timeConstant := 2, inhibitory := true },
  .ask ⟨1⟩ 0 .receive,
  .ask ⟨2⟩ 1 .arbitrate,
  .ask ⟨1⟩ 1 .receive,
  .ask ⟨1⟩ 1 .standings]

def guardedDoor : List Operation := [
  .openInbound "cam" ⟨"/cam:o", "/door:i", "tcp+recv.priority+level.5+time.2"⟩,
  .openOutbound "guard" ⟨"/guard:o", "/door:i", "tcp+send.priority+level.100+time.2+inhibit"⟩,
  .deliver "cam" 0 [78],
  .encode "guard" [78],
  .deliver "cam" 1 [79]]

theorem silent_unnoticed_guarded :
    let _ : Exponential := ⟨fun _ => 0⟩
    let g : Group := { endpoint := "/door:i" }
    let s : Switchboard Empty Empty := { catalog := .standard }
    Move.Silent ⟨2⟩ guarded ∧
      g.run (guarded.filter (·.subject ≠ ⟨2⟩)) = (g.run guarded).leave ⟨2⟩ ∧
      (g.run guarded).ids = [⟨1⟩, ⟨2⟩] ∧
      s.outcomes (guardedDoor.filter (·.slot.1 = .recv)) =
        (s.outcomes guardedDoor).filter (·.1 = .recv) ∧
      ((s.performAll guardedDoor).registry.roster "/door:i").length = 2 := by
  intro _ g s
  have hsilent : Move.Silent ⟨2⟩ guarded := by
    constructor
    · intro c hc
      simp only [guarded, List.mem_cons, Move.join.injEq, reduceCtorEq, PeerId.mk.injEq,
        or_false, List.not_mem_nil] at hc
      rcases hc with ⟨hid, _⟩ | ⟨_, rfl⟩
      · omega
      · rfl
    · intro now
      simp [guarded]
  obtain ⟨⟨hrun, _⟩, houtcomes, _⟩ := silent_unnoticed (Or.inl hsilent) "/door:i"
    (Catalog.standard : Catalog Empty Empty) guardedDoor
  exact ⟨hsilent, hrun, by decide +kernel, houtcomes, by decide +kernel⟩

end PortArbiter
