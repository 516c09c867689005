import PortArbiter.Proofs.Connection.Install
/-!
# Accounts of a switchboard

A list of the connections that are open, in the order of opening, accounts for the members of all
groups: the roster of a port is made of the members of the connections towards it. A message leaves
the accounts as they are, a connection that goes is struck out, and a new one comes last.
-/

namespace PortArbiter

/-- A connection that was opened, with the place of its label. -/
structure Opened where
  side : Direction
  label : String
  route : Route
deriving DecidableEq

namespace Opened

def slot (o : Opened) : Direction × String :=
  (o.side, o.label)

def strike (side : Direction) (label : String) (opened : List Opened) : List Opened :=
  opened.filter (·.slot ≠ (side, label))

/-- Labels are used once, so striking one out takes away one connection. -/
theorem strike_append {front back : List Opened} {o : Opened}
    (h : ((front ++ o :: back).map slot).Nodup) :
    strike o.side o.label (front ++ o :: back) = front ++ back := by
  have hsplit : front ++ o :: back = front ++ [o] ++ back := by
    rw [List.append_assoc]
    rfl
  rw [hsplit] at h ⊢
  simpa [strike, slot] using filter_not_mem_block slot h

/-- Setting up a connection drops the one that had its label, also when it is refused. -/
def reopen (o : Opened) (result : Except CarrierError Unit) (opened : List Opened) :
    List Opened :=
  match result with
  | .ok () => strike o.side o.label opened ++ [o]
  | .error _ => strike o.side o.label opened

/-- The open connections towards a port, each as often as it asks for a priority layer. -/
def claimants (port : String) (opened : List Opened) : List Opened :=
  (opened.filter (·.route.receiver = port)).flatMap fun o =>
    List.replicate (Catalog.seatsOf o.route o.side) o

end Opened

/-- A message leaves the route and the layers of a connection alone, and nobody's seat changes. -/
structure Inbound.Kept {β μ : Type} (c : Inbound β μ) (r : Registry) (c' : Inbound β μ)
    (r' : Registry) : Prop where
  route : c'.route = c.route
  layers : c'.chain?.map Chain.priorities = c.chain?.map Chain.priorities
  coherent : r'.Coherent
  seats : ∀ k, (r'.roster k).map Member.seat = (r.roster k).map Member.seat

namespace Switchboard

variable {β μ : Type}

/-- The route and the priority layers of the open connection of a label. -/
def connected? (s : Switchboard β μ) : Direction → String → Option (Route × List PriorityLayer)
  | .recv, label =>
    (s.inbound? label).bind fun c => c.chain?.map fun chain => (c.route, chain.priorities)
  | .send, label => (s.outbound? label).map fun c => (c.route, c.chain.priorities)

theorem connected?_put_inbound (s : Switchboard β μ) (r : Registry) (label : String)
    (c : Inbound β μ) (side' : Direction) (label' : String) :
    ({ s with registry := r, inbound := Table.put label c s.inbound } :
        Switchboard β μ).connected? side' label' =
      if (side', label') = (.recv, label) then
        c.chain?.map fun chain => (c.route, chain.priorities)
      else s.connected? side' label' := by
  cases side' with
  | send => rfl
  | recv =>
      simp only [connected?, inbound?, Table.lookup_put, Prod.mk.injEq, true_and]
      split <;> rfl

theorem connected?_put_outbound (s : Switchboard β μ) (r : Registry) (label : String)
    (c : Outbound β μ) (side' : Direction) (label' : String) :
    ({ s with registry := r, outbound := Table.put label c s.outbound } :
        Switchboard β μ).connected? side' label' =
      if (side', label') = (.send, label) then some (c.route, c.chain.priorities)
      else s.connected? side' label' := by
  cases side' with
  | recv => rfl
  | send =>
      simp only [connected?, outbound?, Table.lookup_put, Prod.mk.injEq, true_and]
      split <;> rfl

theorem connected?_remove_inbound (s : Switchboard β μ) (r : Registry) (label : String)
    (side' : Direction) (label' : String) :
    ({ s with registry := r, inbound := Table.remove label s.inbound } :
        Switchboard β μ).connected? side' label' =
      if (side', label') = (.recv, label) then none else s.connected? side' label' := by
  cases side' with
  | send => rfl
  | recv =>
      simp only [connected?, inbound?, Table.lookup_remove, Prod.mk.injEq, true_and]
      split <;> rfl

theorem connected?_remove_outbound (s : Switchboard β μ) (r : Registry) (label : String)
    (side' : Direction) (label' : String) :
    ({ s with registry := r, outbound := Table.remove label s.outbound } :
        Switchboard β μ).connected? side' label' =
      if (side', label') = (.send, label) then none else s.connected? side' label' := by
  cases side' with
  | recv => rfl
  | send =>
      simp only [connected?, outbound?, Table.lookup_remove, Prod.mk.injEq, true_and]
      split <;> rfl

theorem connected?_recv (s : Switchboard β μ) (label : String) :
    s.connected? .recv label =
      (s.inbound? label).bind fun c => c.chain?.map fun chain => (c.route, chain.priorities) :=
  rfl

theorem connected?_send (s : Switchboard β μ) (label : String) :
    s.connected? .send label =
      (s.outbound? label).map fun c => (c.route, c.chain.priorities) :=
  rfl

theorem connected?_replace_inbound {s : Switchboard β μ} {label : String} {c c' : Inbound β μ}
    {r' : Registry} (hc : s.inbound? label = some c) (hkept : c.Kept s.registry c' r') :
    ({ s with registry := r', inbound := Table.put label c' s.inbound } :
        Switchboard β μ).connected? = s.connected? := by
  funext side' label'
  rw [connected?_put_inbound]
  split
  · rename_i hslot
    obtain ⟨rfl, rfl⟩ := Prod.mk.inj hslot
    rw [connected?_recv, hc, hkept.route]
    have hlayers := hkept.layers
    cases hchain : c.chain? <;> cases hchain' : c'.chain? <;> simp_all
  · rfl

/-- The members that an open connection put into the group of its port. -/
def seats (s : Switchboard β μ) (o : Opened) : List (PeerId × Contender) :=
  (s.connected? o.side o.label).elim [] fun (_, layers) =>
    (layers.filterMap PriorityLayer.member?).map Member.seat

theorem seats_of_connected {s : Switchboard β μ} {o : Opened} {layers : List PriorityLayer}
    (h : s.connected? o.side o.label = some (o.route, layers)) :
    s.seats o = (layers.filterMap PriorityLayer.member?).map Member.seat := by
  rw [seats, h]
  rfl

theorem flatMap_seats_congr {s s' : Switchboard β μ} {os : List Opened}
    (h : ∀ o ∈ os, s'.connected? o.side o.label = s.connected? o.side o.label) :
    os.flatMap s'.seats = os.flatMap s.seats := by
  rw [List.flatMap_def, List.flatMap_def]
  congr 1
  apply List.map_congr_left
  intro o ho
  rw [seats, h o ho, seats]

variable [Stage μ]

/-- The list of opened connections accounts for every member of every group. -/
structure Accounts (s : Switchboard β μ) (opened : List Opened) : Prop where
  stock : s.catalog.Stock
  coherent : s.registry.Coherent
  slots_nodup : (opened.map Opened.slot).Nodup
  connected : ∀ o ∈ opened, ∃ layers, s.connected? o.side o.label = some (o.route, layers) ∧
    (∀ p ∈ layers, p.SeatedFor o.route) ∧ layers.length = Catalog.seatsOf o.route o.side
  opened_of_connected : ∀ side label, (s.connected? side label).isSome →
    (side, label) ∈ opened.map Opened.slot
  rosters : ∀ k, (s.registry.roster k).map Member.seat =
    (opened.filter (·.route.receiver = k)).flatMap s.seats

namespace Accounts

variable {s s' : Switchboard β μ} {opened : List Opened}

theorem initial {c : Catalog β μ} (h : c.Stock) : Accounts { catalog := c } [] where
  stock := h
  coherent := Registry.Coherent.empty
  slots_nodup := List.nodup_nil
  connected := nofun
  opened_of_connected side label hsome := by cases side <;> cases hsome
  rosters _ := rfl

/-- Messages, and whatever else leaves connections and seats alone. -/
theorem undisturbed (h : s.Accounts opened) (hcatalog : s'.catalog = s.catalog)
    (hcoherent : s'.registry.Coherent) (hconnected : s'.connected? = s.connected?)
    (hseats : ∀ k, (s'.registry.roster k).map Member.seat =
      (s.registry.roster k).map Member.seat) : s'.Accounts opened where
  stock := hcatalog ▸ h.stock
  coherent := hcoherent
  slots_nodup := h.slots_nodup
  connected := by rw [hconnected]; exact h.connected
  opened_of_connected := by rw [hconnected]; exact h.opened_of_connected
  rosters k := by
    have hsame : s'.seats = s.seats := by
      funext o
      rw [seats, hconnected, seats]
    rw [hseats, hsame, h.rosters]

theorem slot_not_mem (h : s.Accounts opened) {side : Direction} {label : String}
    (hnone : s.connected? side label = none) : (side, label) ∉ opened.map Opened.slot := by
  intro hmem
  obtain ⟨o, ho, hslot⟩ := List.mem_map.1 hmem
  obtain ⟨hside, hlabel⟩ := Prod.mk.inj hslot
  obtain ⟨layers, hsome, _⟩ := h.connected o ho
  rw [hside, hlabel, hnone] at hsome
  cases hsome

theorem strike_eq_self (h : s.Accounts opened) {side : Direction} {label : String}
    (hnone : s.connected? side label = none) : Opened.strike side label opened = opened := by
  apply List.filter_eq_self.2
  intro o ho
  exact decide_eq_true fun hslot => h.slot_not_mem hnone (hslot ▸ List.mem_map_of_mem ho)

theorem connected_iff (h : s.Accounts opened) (o : Opened) :
    o ∈ opened ↔ (s.connected? o.side o.label).map Prod.fst = some o.route := by
  constructor
  · intro ho
    obtain ⟨layers, hsome, _⟩ := h.connected o ho
    rw [hsome]
    rfl
  · intro hroute
    have hsome : (s.connected? o.side o.label).isSome := by
      rw [← Option.isSome_map (f := Prod.fst), hroute]
      rfl
    obtain ⟨o', ho', hslot⟩ := List.mem_map.1 (h.opened_of_connected _ _ hsome)
    obtain ⟨hside, hlabel⟩ := Prod.mk.inj hslot
    obtain ⟨layers, hsome', _⟩ := h.connected o' ho'
    rw [← hside, ← hlabel, hsome'] at hroute
    have hsame : o' = o := by
      cases o
      cases o'
      simp_all
    exact hsame ▸ ho'

/-- The members that an open connection has in the group of its port are those it asked for. -/
theorem contenders_seats (h : s.Accounts opened) {o : Opened} (ho : o ∈ opened) :
    (s.seats o).map (fun x => Except.ok x.2) =
      List.replicate (Catalog.seatsOf o.route o.side)
        (PriorityLayer.contenderOf o.route) := by
  obtain ⟨layers, hsome, hseated, hlength⟩ := h.connected o ho
  rw [seats_of_connected hsome, ← hlength]
  clear hsome hlength
  induction layers with
  | nil => rfl
  | cons p ps ih =>
      rw [List.forall_mem_cons] at hseated
      obtain ⟨⟨t, ht, _, hcontender⟩, hrest⟩ := hseated
      have hmember : p.member? = some ⟨t.id, p.contender⟩ := by rw [PriorityLayer.member?, ht]; rfl
      rw [List.filterMap_cons_some hmember, List.map_cons, List.map_cons, ih hrest,
        List.length_cons, List.replicate_succ]
      rw [Member.seat, PriorityLayer.declared_contenderOf hcontender, hcontender]

theorem contenders_roster (h : s.Accounts opened) (port : String) :
    (s.registry.roster port).map (fun m => Except.ok m.contender.declared) =
      (Opened.claimants port opened).map fun o => PriorityLayer.contenderOf o.route := by
  have hrosters := congrArg (List.map fun x : PeerId × Contender =>
    (Except.ok x.2 : Except CarrierError Contender)) (h.rosters port)
  rw [List.map_map] at hrosters
  refine hrosters.trans ?_
  rw [Opened.claimants, List.map_flatMap, List.map_flatMap, List.flatMap_def, List.flatMap_def]
  apply congrArg List.flatten
  apply List.map_congr_left
  intro o ho
  rw [h.contenders_seats (List.mem_filter.1 ho).1, List.map_replicate]

theorem seats_filter (ms : List Member) (ids : List PeerId) :
    (ms.filter (·.id ∉ ids)).map Member.seat = (ms.map Member.seat).filter (·.1 ∉ ids) := by
  rw [List.filter_map]
  rfl

/-- What a roster is without the members of one connection: those of the other ones. -/
theorem seats_strike {front back : List Opened} {o : Opened}
    (h : s.Accounts (front ++ o :: back)) (k : String) :
    ((front ++ back).filter (·.route.receiver = k)).flatMap s.seats =
      if k = o.route.receiver then
        ((s.registry.roster k).map Member.seat).filter (·.1 ∉ (s.seats o).map Prod.fst)
      else (s.registry.roster k).map Member.seat := by
  have hrosters := h.rosters k
  rw [List.filter_append, List.filter_cons, List.flatMap_append] at hrosters
  rw [List.filter_append, List.flatMap_append]
  by_cases hk : k = o.route.receiver
  · have hnodup : (((s.registry.roster k).map Member.seat).map Prod.fst).Nodup := by
      rw [List.map_map]
      exact h.coherent.roster_nodup k
    rw [if_pos (decide_eq_true hk.symm), List.flatMap_cons, ← List.append_assoc] at hrosters
    rw [if_pos hk]
    rw [hrosters] at hnodup ⊢
    exact (filter_not_mem_block Prod.fst hnodup).symm
  · have hother : ¬ decide (o.route.receiver = k) = true := by simpa using Ne.symm hk
    rw [if_neg hother] at hrosters
    rw [if_neg hk, hrosters]

/-- A connection that goes takes its members along. -/
theorem withdraw (h : s.Accounts opened) {side : Direction} {label : String} {route : Route}
    {layers : List PriorityLayer} (hsome : s.connected? side label = some (route, layers))
    (hcatalog : s'.catalog = s.catalog)
    (hconnected : ∀ side' label', s'.connected? side' label' =
      if (side', label') = (side, label) then none else s.connected? side' label')
    (hcoherent : s'.registry.Coherent)
    (hroster : ∀ k, s'.registry.roster k =
      if k = route.receiver then
        (s.registry.roster k).filter
          (·.id ∉ (layers.filterMap PriorityLayer.member?).map Member.id)
      else s.registry.roster k) :
    s'.Accounts (Opened.strike side label opened) := by
  have ho : ⟨side, label, route⟩ ∈ opened := (h.connected_iff _).2 (by rw [hsome]; rfl)
  obtain ⟨front, back, rfl⟩ := List.append_of_mem ho
  have hstrike : Opened.strike side label (front ++ ⟨side, label, route⟩ :: back) =
      front ++ back := Opened.strike_append h.slots_nodup
  have hother : ∀ o ∈ front ++ back,
      s'.connected? o.side o.label = s.connected? o.side o.label := by
    intro o ho'
    rw [← hstrike] at ho'
    have hslot : (o.side, o.label) ≠ (side, label) := of_decide_eq_true (List.mem_filter.1 ho').2
    rw [hconnected, if_neg hslot]
  have hsub : (front ++ back).Sublist (front ++ ⟨side, label, route⟩ :: back) :=
    (List.Sublist.refl front).append (List.sublist_cons_self _ back)
  rw [hstrike]
  exact {
    stock := hcatalog ▸ h.stock
    coherent := hcoherent
    slots_nodup := h.slots_nodup.sublist (hsub.map _)
    connected := by
      intro o ho'
      rw [hother o ho']
      exact h.connected o (hsub.subset ho')
    opened_of_connected := by
      intro side' label' hsome'
      rw [hconnected] at hsome'
      split at hsome'
      · cases hsome'
      · rename_i hne
        obtain ⟨o, ho', hslot⟩ := List.mem_map.1 (h.opened_of_connected side' label' hsome')
        refine List.mem_map.2 ⟨o, ?_, hslot⟩
        rw [← hstrike]
        exact List.mem_filter.2 ⟨ho', decide_eq_true (hslot ▸ hne)⟩
    rosters := by
      intro k
      have hseats : ((front ++ back).filter (·.route.receiver = k)).flatMap s'.seats =
          ((front ++ back).filter (·.route.receiver = k)).flatMap s.seats :=
        flatMap_seats_congr fun o ho' => hother o (List.mem_filter.1 ho').1
      have hids : (layers.filterMap PriorityLayer.member?).map Member.id =
          (s.seats ⟨side, label, route⟩).map Prod.fst := by
        rw [seats_of_connected hsome, List.map_map]
        rfl
      rw [hseats, h.seats_strike, hroster, hids, apply_ite (List.map Member.seat), seats_filter] }

theorem enter (h : s.Accounts opened) {side : Direction} {label : String} {route : Route}
    {chain : Chain β μ} (hnone : s.connected? side label = none)
    (hcatalog : s'.catalog = s.catalog)
    (hconnected : ∀ side' label', s'.connected? side' label' =
      if (side', label') = (side, label) then some (route, chain.priorities)
      else s.connected? side' label')
    (hinstalled : Catalog.Installed route side s.registry chain s'.registry) :
    s'.Accounts (opened ++ [⟨side, label, route⟩]) := by
  have hnew := h.slot_not_mem hnone
  have hself : s'.connected? side label = some (route, chain.priorities) := by
    rw [hconnected, if_pos rfl]
  have hother : ∀ o ∈ opened, s'.connected? o.side o.label = s.connected? o.side o.label := by
    intro o ho
    rw [hconnected, if_neg]
    exact fun hslot => hnew (hslot ▸ List.mem_map_of_mem ho)
  exact {
    stock := hcatalog ▸ h.stock
    coherent := hinstalled.coherent
    slots_nodup := by
      rw [List.map_append]
      refine List.nodup_append.2 ⟨h.slots_nodup, by simp, ?_⟩
      rintro slot hslot slot' hslot' rfl
      obtain rfl := List.mem_singleton.1 hslot'
      exact hnew hslot
    connected := by
      intro o ho
      rcases List.mem_append.1 ho with hold | hlast
      · rw [hother o hold]
        exact h.connected o hold
      · rw [List.mem_singleton.1 hlast]
        exact ⟨chain.priorities, hself, hinstalled.seated, hinstalled.length⟩
    opened_of_connected := by
      intro side' label' hsome
      rw [hconnected] at hsome
      rw [List.map_append]
      split at hsome
      · rename_i hslot
        rw [hslot]
        exact List.mem_append_right _ (List.mem_singleton_self _)
      · exact List.mem_append_left _ (h.opened_of_connected side' label' hsome)
    rosters := by
      intro k
      have hold : (opened.filter (·.route.receiver = k)).flatMap s'.seats =
          (opened.filter (·.route.receiver = k)).flatMap s.seats :=
        flatMap_seats_congr fun o ho => hother o (List.mem_filter.1 ho).1
      have hlast : s'.seats ⟨side, label, route⟩ = chain.members.map Member.seat :=
        seats_of_connected hself
      rw [hinstalled.roster, List.map_append, h.rosters, List.filter_append, List.flatMap_append,
        hold]
      congr 1
      by_cases hk : k = route.receiver
      · simp [hk, hlast]
      · simp [hk, Ne.symm hk] }

theorem replaceInbound (h : s.Accounts opened) {label : String} {c c' : Inbound β μ}
    {r' : Registry} (hc : s.inbound? label = some c) (hkept : c.Kept s.registry c' r') :
    Accounts { s with registry := r', inbound := Table.put label c' s.inbound } opened :=
  h.undisturbed rfl hkept.coherent (connected?_replace_inbound hc hkept) hkept.seats

/-- Closing a receiving side, whether it stays known as a closed one or is forgotten. -/
theorem withdrawInbound (h : s.Accounts opened) {s' : Switchboard β μ} {label : String}
    {c : Inbound β μ} (hc : s.inbound? label = some c) (hcatalog : s'.catalog = s.catalog)
    (hregistry : s'.registry = (c.close s.registry).2)
    (hconnected : ∀ side' label', s'.connected? side' label' =
      if (side', label') = (.recv, label) then none else s.connected? side' label') :
    s'.Accounts (Opened.strike .recv label opened) := by
  rw [Inbound.close] at hregistry
  cases hchain : c.chain? with
  | none =>
      have hnone : s.connected? .recv label = none := by
        rw [connected?_recv, hc, Option.bind_some, hchain]
        rfl
      rw [hchain] at hregistry
      rw [h.strike_eq_self hnone]
      refine h.undisturbed hcatalog (hregistry ▸ h.coherent) ?_ fun k => by rw [hregistry]
      funext side' label'
      rw [hconnected]
      split
      · rename_i hslot
        obtain ⟨rfl, rfl⟩ := Prod.mk.inj hslot
        exact hnone.symm
      · rfl
  | some chain =>
      have hsome : s.connected? .recv label = some (c.route, chain.priorities) := by
        rw [connected?_recv, hc, Option.bind_some, hchain]
        rfl
      rw [hchain] at hregistry
      obtain ⟨layers, hlayers, hseated, _⟩ := h.connected ⟨.recv, label, c.route⟩
        ((h.connected_iff _).2 (by rw [hsome]; rfl))
      obtain rfl : chain.priorities = layers :=
        congrArg Prod.snd (Option.some.inj (hsome.symm.trans hlayers))
      refine h.withdraw hsome hcatalog hconnected ?_ ?_
      · rw [hregistry]
        exact chain.coherent_release h.coherent
      · intro k
        rw [hregistry]
        exact chain.roster_release h.coherent (Chain.keyedBy_of_seated hseated) k

theorem close (h : s.Accounts opened) (label : String) :
    (s.close label).Accounts (Opened.strike .recv label opened) := by
  rw [Switchboard.close]
  cases hc : s.inbound? label with
  | none =>
      have hnone : s.connected? .recv label = none := by rw [connected?_recv, hc]; rfl
      rw [h.strike_eq_self hnone]
      exact h
  | some c =>
      refine h.withdrawInbound hc rfl rfl fun side' label' => ?_
      refine (connected?_put_inbound s _ label (c.close s.registry).1 side' label').trans ?_
      rw [Inbound.close]
      cases hchain : c.chain? <;> simp [hchain]

theorem dropInbound (h : s.Accounts opened) (label : String) :
    (s.dropInbound label).Accounts (Opened.strike .recv label opened) := by
  rw [Switchboard.dropInbound]
  cases hc : s.inbound? label with
  | none =>
      have hnone : s.connected? .recv label = none := by rw [connected?_recv, hc]; rfl
      rw [h.strike_eq_self hnone]
      exact h
  | some c => exact h.withdrawInbound hc rfl rfl (connected?_remove_inbound s _ label)

theorem dropOutbound (h : s.Accounts opened) (label : String) :
    (s.dropOutbound label).Accounts (Opened.strike .send label opened) := by
  rw [Switchboard.dropOutbound]
  cases hc : s.outbound? label with
  | none =>
      have hnone : s.connected? .send label = none := by rw [connected?_send, hc]; rfl
      rw [h.strike_eq_self hnone]
      exact h
  | some c =>
      have hsome : s.connected? .send label = some (c.route, c.chain.priorities) := by
        rw [connected?_send, hc]
        rfl
      obtain ⟨layers, hlayers, hseated, _⟩ := h.connected ⟨.send, label, c.route⟩
        ((h.connected_iff _).2 (by rw [hsome]; rfl))
      obtain rfl : c.chain.priorities = layers :=
        congrArg Prod.snd (Option.some.inj (hsome.symm.trans hlayers))
      exact h.withdraw hsome rfl (connected?_remove_outbound s _ label)
        (c.chain.coherent_release h.coherent)
        (c.chain.roster_release h.coherent (Chain.keyedBy_of_seated hseated))

end Accounts

end Switchboard

end PortArbiter
