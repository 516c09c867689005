import PortArbiter.Proofs.Carrier.Parameters
import PortArbiter.Proofs.Connection.Bystanders
import PortArbiter.Proofs.Priority.Alike
import PortArbiter.Proofs.Scenario.Justified
/-!
# Connections that are alone on their port

A connection without rivals still has as many members in the group of its port as its specification
asks for priority layers. With one of them it is always let through. With several the layers may
stand in each other's way: a source whose arrival only admitted messages refresh shuts itself out
for good.
-/

namespace PortArbiter

/-! ## The contender of a specification -/

theorem PriorityLayer.plain_contenderOf {route : Route} {c : Contender}
    (h : contenderOf route = .ok c) (hinhibit : route.spec.mentions "inhibit" = false)
    (hinhibitory : route.spec.mentions "inhibitory" = false) : c.Plain := by
  obtain ⟨hlevel, hnonneg⟩ := atLeastZero_magnitude (route.spec.number_finite "level")
  obtain ⟨htime, _⟩ := atLeastZero_magnitude (route.spec.number_finite "time")
  simp only [contenderOf, hinhibit, hinhibitory, Bool.or_false, Bool.false_eq_true, false_and,
    if_false] at h
  obtain rfl := Except.ok.inj h
  exact ⟨rfl, hlevel, hnonneg, htime⟩

/-! ## Chains of priority layers -/

namespace Registry

/-- Whether some layers are registered with the group of a port, one by one, and all members of that
group are declared alike. -/
structure Hosts (r : Registry) (port : String) (c : Contender) (layers : List PriorityLayer) :
    Prop where
  coherent : r.Coherent
  alike : (r.host port).Alike c
  seated : ∀ p ∈ layers, ∃ t, p.registration? = some t ∧ r.lookup port = some t.group ∧
    t.id ∈ (r.host port).ids
  distinct : (layers.map fun p => p.registration?.map Registration.id).Nodup

variable [Exponential] {r : Registry} {port : String} {c : Contender} {now : Float}
  {heard : Float → Prop}

/-- What a message of some registration makes of the group of a port, whose member it may be. -/
theorem host_receive (r : Registry) (t : Registration) (now : Float) (port : String) :
    (r.receive t now).2.host port = r.host port ∨
      (r.receive t now).2.host port = ((r.host port).receive t.id now).2 := by
  rw [receive_snd]
  by_cases hfounded : r.Founded t.group
  · rw [host_modifyGroup _ hfounded]
    split
    · exact Or.inr rfl
    · exact Or.inl rfl
  · rw [modifyGroup_of_not_founded _ hfounded]
    exact Or.inl rfl

theorem heardAt_receive (hheard : (r.host port).HeardAt heard) (hnow : heard now)
    (t : Registration) : ((r.receive t now).2.host port).HeardAt heard := by
  rcases host_receive r t now port with hhost | hhost <;> rw [hhost]
  · exact hheard
  · exact hheard.receive t.id hnow

namespace Hosts

variable {layers : List PriorityLayer}

omit [Exponential] in
theorem sublist (h : r.Hosts port c layers) {layers' : List PriorityLayer}
    (hsub : layers'.Sublist layers) : r.Hosts port c layers' where
  coherent := h.coherent
  alike := h.alike
  seated := fun p hp => h.seated p (hsub.subset hp)
  distinct := h.distinct.sublist (hsub.map _)

omit [Exponential] in
theorem ids_nodup (h : r.Hosts port c layers) : (r.host port).ids.Nodup :=
  h.coherent.roster_nodup port

theorem receive (h : r.Hosts port c layers) (t : Registration) (now : Float) :
    (r.receive t now).2.Hosts port c layers := by
  have hids : ((r.receive t now).2.host port).ids = (r.host port).ids := by
    rcases host_receive r t now port with hhost | hhost <;> rw [hhost]
    exact Group.ids_receive _ _ _
  have halike : ((r.receive t now).2.host port).Alike c := by
    rcases host_receive r t now port with hhost | hhost <;> rw [hhost]
    · exact h.alike
    · rcases (r.host port).receive_eq_self_or_observe t.id now with heq | heq <;> rw [heq]
      · exact h.alike
      · exact h.alike.observe t.id now
  exact {
    coherent := h.coherent.receive t now
    alike := halike
    seated := by
      intro p hp
      obtain ⟨t', ht', hlookup, hid⟩ := h.seated p hp
      exact ⟨t', ht', (lookup_receive r t now port).trans hlookup, hids.symm ▸ hid⟩
    distinct := h.distinct }

/-- What the group of the port says to a layer, and what becomes of the group. -/
theorem receive_layer (h : r.Hosts port c layers) {p : PriorityLayer} (hp : p ∈ layers) :
    ∃ t m, p.registration? = some t ∧ m ∈ (r.host port).members ∧ m.id = t.id ∧
      ∀ now, (p.receive now r).1 = ((r.host port).receive m.id now).1 ∧
        (p.receive now r).2 = (r.receive t now).2 ∧
        (p.receive now r).2.host port = ((r.host port).receive m.id now).2 := by
  obtain ⟨t, ht, hlookup, hid⟩ := h.seated p hp
  obtain ⟨m, hm, hmid⟩ := List.mem_map.1 hid
  refine ⟨t, m, ht, hm, hmid, fun now => ?_⟩
  have hreceive : p.receive now r = r.receive t now := by rw [PriorityLayer.receive, ht]
  rw [hreceive, hmid]
  exact ⟨receive_fst hlookup now, rfl, h.coherent.host_receive hlookup now⟩

theorem receive_favourite (h : r.Hosts port c layers) (hcontestant : c.inhibitory = false)
    (hpolicy : c.policy = .admitted) {p : PriorityLayer} (hp : p ∈ layers) {t : Registration}
    (ht : p.registration? = some t) (honly : (r.host port).OnlyHeard t.id) (now : Float) :
    (p.receive now r).1 = .accepted ∧ (p.receive now r).2.Hosts port c layers ∧
      (p.receive now r).2.host port = (r.host port).observe t.id now := by
  obtain ⟨t', m, ht', hm, hid, hreceive⟩ := h.receive_layer hp
  obtain rfl := Option.some.inj (ht.symm.trans ht')
  obtain ⟨hverdict, hregistry, hhost⟩ := hreceive now
  rw [← hid] at honly ⊢
  have hfavourite : (r.host port).receive m.id now = (.accepted, (r.host port).observe m.id now) :=
    h.alike.receive_favourite hcontestant hpolicy h.ids_nodup hm honly
  rw [hfavourite] at hverdict hhost
  exact ⟨hverdict, hregistry ▸ h.receive t now, hhost⟩

theorem receive_shut_out (h : r.Hosts port c layers) (hcontestant : c.inhibitory = false)
    (hjealous : Group.Jealous c now) {p q : PriorityLayer} (hp : p ∈ layers) (hq : q ∈ layers)
    {t u : Registration} (ht : p.registration? = some t) (hu : q.registration? = some u)
    (hne : u.id ≠ t.id) (honly : (r.host port).OnlyHeard t.id) :
    (q.receive now (p.receive now r).2).1 ≠ .accepted ∧
      (q.receive now (p.receive now r).2).2.host port = (r.host port).observe t.id now := by
  obtain ⟨_, hafter, hhost⟩ := h.receive_favourite hcontestant hjealous.1 hp ht honly now
  obtain ⟨t', m, ht', hm, hid, -⟩ := h.receive_layer hp
  obtain rfl := Option.some.inj (ht.symm.trans ht')
  obtain ⟨u', n, hu', hn, hnid, -⟩ := h.receive_layer hq
  obtain rfl := Option.some.inj (hu.symm.trans hu')
  obtain ⟨u', n', hu', _, hnid', hreceive⟩ := hafter.receive_layer hq
  obtain rfl := Option.some.inj (hu.symm.trans hu')
  obtain ⟨hverdict, -, hhost'⟩ := hreceive now
  rw [← hid] at honly hne hhost ⊢
  rw [← hnid] at hne
  obtain ⟨verdict, hrejected, hshut⟩ :=
    h.alike.receive_shut_out hcontestant hjealous h.ids_nodup hm honly hn hne
  rw [hhost, hnid', ← hnid, hshut] at hverdict hhost'
  exact ⟨hverdict ▸ hrejected, hhost'⟩

end Hosts

end Registry

theorem Layer.acceptInbound_priority [Exponential] (p : PriorityLayer) (now : Float)
    (message : Message) (r : Registry) :
    Layer.acceptInbound now message (.priority p : Layer Empty) r =
      (decide ((p.receive now r).1 = .accepted), .priority p, (p.receive now r).2) :=
  rfl

namespace Chain

variable [Exponential] {r : Registry} {port : String} {c : Contender} {now : Float}
  {heard : Float → Prop}

open Registry (Hosts)

/-- Equals that cannot hold each other back let a message pass, layer by layer. -/
theorem acceptInbound_of_calm (hc : c.Plain) {chain : Chain Empty Empty}
    (h : r.Hosts port c chain.priorities) (hheard : (r.host port).HeardAt heard)
    (hnow : heard now) (hcalm : Group.Calm c (r.host port).ids.length heard now)
    (message : Message) :
    ∃ r', chain.acceptInbound now message r = (true, chain, r') := by
  induction chain generalizing r with
  | base b =>
      cases b with
      | lengthPrefixed b => exact ⟨r, rfl⟩
      | custom e => exact e.elim
  | wrap outer inner ih =>
      cases outer with
      | custom e => exact e.elim
      | priority p =>
          have hp : p ∈ (Chain.wrap (.priority p) inner).priorities :=
            List.mem_append_right _ (List.mem_singleton_self p)
          obtain ⟨t, m, ht, hm, hid, hreceive⟩ := h.receive_layer hp
          obtain ⟨hverdict, hregistry, hhost⟩ := hreceive now
          have hlength : (r.host port).ids.length = (r.host port).members.length :=
            List.length_map _
          have haccepted := h.alike.receive_accepted hc h.ids_nodup hheard (hlength ▸ hcalm) hm
          have hinner : (p.receive now r).2.Hosts port c inner.priorities :=
            (hregistry ▸ h.receive t now).sublist (List.sublist_append_left _ _)
          have hheard' : ((p.receive now r).2.host port).HeardAt heard :=
            hhost ▸ hheard.receive m.id hnow
          have hids : ((p.receive now r).2.host port).ids = (r.host port).ids :=
            hhost ▸ Group.ids_receive _ _ _
          obtain ⟨r', hr'⟩ := ih hinner hheard' (hids.symm ▸ hcalm)
          refine ⟨r', ?_⟩
          have houter : Layer.acceptInbound now message (.priority p : Layer Empty) r =
              (true, .priority p, (p.receive now r).2) := by
            rw [Layer.acceptInbound_priority, hverdict, haccepted]
            rfl
          rw [acceptInbound, houter]
          dsimp only
          rw [hr']

omit [Exponential] in
theorem exists_of_two_le {chain : Chain Empty Empty} (h : 2 ≤ chain.priorities.length) :
    ∃ p q inner, chain = .wrap (.priority p) (.wrap (.priority q) inner) := by
  cases chain with
  | base b => simp [priorities] at h
  | wrap outer inner =>
      cases outer with
      | custom e => exact e.elim
      | priority p =>
          cases inner with
          | base b => simp [priorities, Layer.priority?] at h
          | wrap outer' inner =>
              cases outer' with
              | custom e => exact e.elim
              | priority q => exact ⟨p, q, inner, rfl⟩

/-- Of several jealous layers the outermost is let through, and thereby shuts out the next one. -/
theorem acceptInbound_of_jealous (hcontestant : c.inhibitory = false)
    (hjealous : Group.Jealous c now) {chain : Chain Empty Empty}
    (h : r.Hosts port c chain.priorities) (hseveral : 2 ≤ chain.priorities.length)
    {p : PriorityLayer} {t : Registration} (hlast : chain.priorities.getLast? = some p)
    (ht : p.registration? = some t) (honly : (r.host port).OnlyHeard t.id) (message : Message) :
    (chain.acceptInbound now message r).1 = false ∧
      ((chain.acceptInbound now message r).2.2.host port).OnlyHeard t.id := by
  obtain ⟨outer, q, inner, rfl⟩ := exists_of_two_le hseveral
  have hlayers : (Chain.wrap (.priority outer) (.wrap (.priority q) inner)).priorities =
      inner.priorities ++ [q] ++ [outer] := rfl
  rw [hlayers] at h hlast
  obtain rfl : outer = p := by simpa using hlast
  have hp : outer ∈ inner.priorities ++ [q] ++ [outer] := by simp
  have hq : q ∈ inner.priorities ++ [q] ++ [outer] := by simp
  obtain ⟨u, hu, -, -⟩ := h.seated q hq
  have hne : u.id ≠ t.id := by
    have hdistinct := h.distinct
    rw [List.map_append, List.nodup_append] at hdistinct
    have happart := hdistinct.2.2 (q.registration?.map Registration.id)
      (List.mem_map_of_mem (by simp)) (outer.registration?.map Registration.id) (by simp)
    rw [hu, ht, Option.map_some, Option.map_some] at happart
    exact fun heq => happart (congrArg some heq)
  obtain ⟨haccepted, -, -⟩ := h.receive_favourite hcontestant hjealous.1 hp ht honly now
  obtain ⟨hrejected, hhost⟩ := h.receive_shut_out hcontestant hjealous hp hq ht hu hne honly
  have houter : Layer.acceptInbound now message (.priority outer : Layer Empty) r =
      (true, .priority outer, (outer.receive now r).2) := by
    rw [Layer.acceptInbound_priority, haccepted]
    rfl
  have hinner : Layer.acceptInbound now message (.priority q : Layer Empty)
      (outer.receive now r).2 =
        (false, .priority q, (q.receive now (outer.receive now r).2).2) := by
    rw [Layer.acceptInbound_priority, decide_eq_false hrejected]
  rw [acceptInbound, houter]
  dsimp only
  rw [acceptInbound, hinner]
  refine ⟨rfl, ?_⟩
  dsimp only
  rw [hhost]
  exact honly.observe now

/-- Equals are heard at no other times than those of their messages. -/
theorem heardAt_acceptInbound (chain : Chain Empty Empty) (hheard : (r.host port).HeardAt heard)
    (hnow : heard now) (message : Message) :
    ((chain.acceptInbound now message r).2.2.host port).HeardAt heard := by
  let holds (r : Registry) : Prop := (r.host port).HeardAt heard
  have hlayer : ∀ (l : Layer Empty) r, holds r → holds (l.acceptInbound now message r).2.2 := by
    intro l r' hr'
    cases l with
    | custom m => exact hr'
    | priority p =>
        rw [Layer.acceptInbound_priority, PriorityLayer.receive]
        split
        · exact hr'
        · exact Registry.heardAt_receive hr' hnow _
  exact chain.acceptInbound_preserves hlayer hheard

theorem lookup_acceptInbound (chain : Chain Empty Empty) (now : Float) (message : Message)
    (r : Registry) (key : String) :
    (chain.acceptInbound now message r).2.2.lookup key = r.lookup key := by
  let holds (r' : Registry) : Prop := r'.lookup key = r.lookup key
  have hlayer : ∀ (l : Layer Empty) r', holds r' → holds (l.acceptInbound now message r').2.2 := by
    intro l r' hr'
    cases l with
    | custom m => exact hr'
    | priority p =>
        rw [Layer.acceptInbound_priority, PriorityLayer.receive]
        split
        · exact hr'
        · exact (Registry.lookup_receive r' _ now key).trans hr'
  exact chain.acceptInbound_preserves hlayer rfl

omit [Exponential] in
theorem not_transformsInbound (chain : Chain Empty Empty) : chain.transformsInbound = false := by
  induction chain with
  | base b =>
      cases b with
      | lengthPrefixed b => rfl
      | custom e => exact e.elim
  | wrap outer inner ih =>
      cases outer with
      | custom e => exact e.elim
      | priority p => exact ih

omit [Exponential] in
theorem live_configure (route : Route) (chain : Chain Empty Empty) (r : Registry)
    (hnew : ∀ p ∈ chain.priorities, p = {}) :
    ∀ p ∈ (chain.configure route r).2.1.priorities, ∀ t, p.registration? = some t →
      (chain.configure route r).2.2.lookup route.receiver = some t.group := by
  induction chain with
  | base b => exact nofun
  | wrap outer inner ih =>
      cases outer with
      | custom e => exact e.elim
      | priority p =>
          obtain rfl := hnew p (List.mem_append_right _ (List.mem_singleton_self p))
          have hinner := ih fun p hp => hnew p (List.mem_append_left _ hp)
          rw [configure]
          generalize inner.configure route r = configured at hinner
          obtain ⟨result, inner', r'⟩ := configured
          have hunseated : ∀ q ∈ (Chain.wrap (.priority {}) inner').priorities,
              ∀ t, q.registration? = some t → r'.lookup route.receiver = some t.group := by
            intro q hq t ht
            rcases List.mem_append.1 hq with hq | hq
            · exact hinner q hq t ht
            · rw [List.mem_singleton.1 hq] at ht
              cases ht
          cases result with
          | error e => exact hunseated
          | ok =>
              rcases PriorityLayer.configure_new route r' with ⟨e, he⟩ | ⟨c, _, hok⟩
              · simp only [Layer.configure, he]
                exact hunseated
              · simp only [Layer.configure, hok]
                intro q hq t ht
                rw [Registry.lookup_register, if_pos rfl]
                rcases List.mem_append.1 hq with hq | hq
                · have hlive := hinner q hq t ht
                  rw [Registry.target, hlive, Option.getD_some]
                · obtain rfl := List.mem_singleton.1 hq
                  obtain rfl := Option.some.inj ht
                  rw [Registry.register_fst]

end Chain

theorem Catalog.live_install (c : Catalog Empty Empty) (side : Direction) (route : Route)
    (r : Registry) {chain : Chain Empty Empty} (h : (c.install side route r).1 = .ok chain) :
    ∀ p ∈ chain.priorities, ∀ t, p.registration? = some t →
      (c.install side route r).2.lookup route.receiver = some t.group := by
  cases hinstall : c.install side route r with
  | mk result r' =>
      rw [hinstall] at h
      obtain rfl : result = .ok chain := h
      cases installing hinstall with
      | @done before _ _ hbuilt hconfigured =>
          have hlive := before.live_configure route r (priorities_build_new hbuilt)
          rw [hconfigured] at hlive
          exact hlive

/-! ## Histories with one connection to a port -/

theorem PriorityLayer.ids_of_seated {layers : List PriorityLayer} {route : Route}
    (h : ∀ p ∈ layers, p.SeatedFor route) :
    layers.map (fun p => p.registration?.map Registration.id) =
      ((layers.filterMap member?).map Member.id).map some := by
  induction layers with
  | nil => rfl
  | cons p ps ih =>
      rw [List.forall_mem_cons] at h
      obtain ⟨⟨t, ht, _, _⟩, hrest⟩ := h
      have hmember : p.member? = some ⟨t.id, p.contender⟩ := by rw [member?, ht]; rfl
      rw [List.filterMap_cons_some hmember, List.map_cons, List.map_cons, List.map_cons, ih hrest,
        ht]
      rfl

namespace History

open Registry (Hosts)

/-- What is known of a group, given the layers of a connection, is still known after a message that
all of these layers may be asked for. -/
def Keeps [Exponential] (Q : Group → List PriorityLayer → Prop) (port : String) (c : Contender)
    (now : Float) : Prop :=
  ∀ (r : Registry) (chain : Chain Empty Empty) (message : Message),
    r.Hosts port c chain.priorities → Q (r.host port) chain.priorities →
      Q ((chain.acceptInbound now message r).2.2.host port) chain.priorities

/-- A history after which one receiving side is open to a port and nothing else is. `Q` is what is
known of the group of the port, given the layers of the connection. -/
structure Alone (label : String) (route : Route) (Q : Group → List PriorityLayer → Prop)
    (s : History Empty Empty) : Prop where
  accounts : s.board.Accounts s.opened
  backed : ∀ slot, s.board.Backed (fun _ => False) slot
  opened : ⟨.recv, label, route⟩ ∈ s.opened
  others : ∀ o ∈ s.opened, o.route.receiver = route.receiver → o = ⟨.recv, label, route⟩
  live : ∀ layers, s.board.connected? .recv label = some (route, layers) → ∀ p ∈ layers,
    ∀ t, p.registration? = some t → s.board.registry.lookup route.receiver = some t.group
  known : ∀ layers, s.board.connected? .recv label = some (route, layers) →
    Q (s.board.registry.host route.receiver) layers

namespace Alone

variable {label : String} {route : Route} {Q : Group → List PriorityLayer → Prop}
  {s : History Empty Empty} {c : Contender}

theorem seats (h : s.Alone label route Q) :
    (s.board.registry.roster route.receiver).map Member.seat =
      s.board.seats ⟨.recv, label, route⟩ := by
  have hfilter : s.opened.filter (·.route.receiver = route.receiver) = [⟨.recv, label, route⟩] := by
    have hall : ∀ o ∈ s.opened.filter (·.route.receiver = route.receiver),
        o = ⟨.recv, label, route⟩ := by
      intro o ho
      obtain ⟨hmem, hreceiver⟩ := List.mem_filter.1 ho
      exact h.others o hmem (of_decide_eq_true hreceiver)
    have hnodup : (s.opened.filter (·.route.receiver = route.receiver)).Nodup :=
      (List.Nodup.of_map _ h.accounts.slots_nodup).filter _
    have hmem : ⟨.recv, label, route⟩ ∈ s.opened.filter (·.route.receiver = route.receiver) :=
      List.mem_filter.2 ⟨h.opened, decide_eq_true rfl⟩
    have hreplicate := List.eq_replicate_of_mem hall
    rw [hreplicate, List.nodup_replicate] at hnodup
    have hpos := List.length_pos_of_mem hmem
    rw [hreplicate, Nat.le_antisymm hnodup hpos]
    rfl
  rw [h.accounts.rosters, hfilter, List.flatMap_singleton]

theorem hosts (h : s.Alone label route Q) (hc : PriorityLayer.contenderOf route = .ok c)
    {layers : List PriorityLayer} (hsome : s.board.connected? .recv label = some (route, layers)) :
    s.board.registry.Hosts route.receiver c layers ∧
      layers.length = Catalog.seatsOf route .recv ∧
      (s.board.registry.host route.receiver).ids.length = layers.length := by
  obtain ⟨layers', hsome', hseated, hlength⟩ := h.accounts.connected _ h.opened
  obtain rfl : layers = layers' := congrArg Prod.snd (Option.some.inj (hsome.symm.trans hsome'))
  have hseats : s.board.seats ⟨.recv, label, route⟩ =
      (layers.filterMap PriorityLayer.member?).map Member.seat := by
    rw [Switchboard.seats, hsome']
    rfl
  have hids : (s.board.registry.host route.receiver).ids =
      (layers.filterMap PriorityLayer.member?).map Member.id := by
    have hfst := congrArg (List.map Prod.fst) (h.seats.trans hseats)
    rw [List.map_map, List.map_map] at hfst
    exact hfst
  have hregistrations := PriorityLayer.ids_of_seated hseated
  rw [← hids] at hregistrations
  refine ⟨⟨h.accounts.coherent, ?_, ?_, ?_⟩, hlength, ?_⟩
  · intro m hm
    have hseat := List.mem_map_of_mem (f := Member.seat) hm
    rw [show (s.board.registry.host route.receiver).members =
      s.board.registry.roster route.receiver from rfl, h.seats] at hseat
    have hcontender := List.mem_map_of_mem (f := fun x : PeerId × Contender =>
      (Except.ok x.2 : Except CarrierError Contender)) hseat
    rw [h.accounts.contenders_seats h.opened, hc] at hcontender
    exact Except.ok.inj (List.eq_of_mem_replicate hcontender)
  · intro p hp
    obtain ⟨t, ht, _, _⟩ := hseated p hp
    have hmem := List.mem_map_of_mem (f := fun p : PriorityLayer =>
      p.registration?.map Registration.id) hp
    rw [hregistrations, ht] at hmem
    obtain ⟨id, hid, heq⟩ := List.mem_map.1 hmem
    exact ⟨t, ht, h.live layers hsome p hp t ht, Option.some.inj heq ▸ hid⟩
  · rw [hregistrations]
    exact (h.accounts.coherent.roster_nodup route.receiver).map (Option.some_injective _)
  · have hlengths := congrArg List.length hregistrations
    rw [List.length_map, List.length_map] at hlengths
    exact hlengths.symm

theorem step_elsewhere [Exponential] (h : s.Alone label route Q) (operation : Operation)
    (hslot : operation.slot ≠ (.recv, label))
    (hroute : ∀ other, operation.route? = some other → other.receiver ≠ route.receiver) :
    (s.step operation).Alone label route Q := by
  have hr := h.accounts.coherent
  have hbacked : s.board.Backed (· = route.receiver) operation.slot := by
    intro other layers hsome p hp t ht
    refine ⟨(h.backed operation.slot other layers hsome p hp t ht).1, fun hkey => hslot ?_⟩
    have ho : ⟨operation.slot.1, operation.slot.2, other⟩ ∈ s.opened :=
      (h.accounts.connected_iff _).2 (by rw [hsome]; rfl)
    obtain ⟨layers', hsome', hseated, _⟩ := h.accounts.connected _ ho
    obtain rfl : layers = layers' := congrArg Prod.snd (Option.some.inj (hsome.symm.trans hsome'))
    obtain ⟨t', ht', hkey', _⟩ := hseated p hp
    obtain rfl := Option.some.inj (ht.symm.trans ht')
    exact congrArg Opened.slot (h.others _ ho (hkey'.symm.trans hkey))
  obtain ⟨helsewhere, _⟩ := elsewhere_step hr operation hbacked hroute
  have hconnected : (s.step operation).board.connected? .recv label =
      s.board.connected? .recv label := connected?_step_of_ne hr operation hslot.symm
  have haccounts := accounts_step h.accounts operation
  exact {
    accounts := haccounts
    backed := backed_step hr h.backed operation
    opened := by
      rw [haccounts.connected_iff]
      show ((s.step operation).board.connected? .recv label).map Prod.fst = some route
      rw [hconnected]
      exact (h.accounts.connected_iff _).1 h.opened
    others := by
      intro o ho hreceiver
      rcases of_opened_step ho with hold | hnew
      · exact h.others o hold hreceiver
      · exact absurd hreceiver (hroute _ hnew)
    live := by
      rw [hconnected]
      intro layers hsome p hp t ht
      rw [helsewhere.spares.lookup _ rfl]
      exact h.live layers hsome p hp t ht
    known := by
      rw [hconnected, helsewhere.host hr rfl]
      exact h.known }

/-- Messages for the connection itself change no more than what is known of the group. -/
theorem step_message [Exponential] (h : s.Alone label route Q)
    (hc : PriorityLayer.contenderOf route = .ok c) (operation : Operation)
    (hslot : operation.slot = (.recv, label)) {now : Float}
    (hreading : operation.reading? = some now) (hkeeps : Keeps Q route.receiver c now) :
    (s.step operation).Alone label route Q := by
  have hr := h.accounts.coherent
  have hconnected := connected?_step_of_reading hr operation hreading
  have hopened := opened_step_of_reading (s := s) hreading
  have hasked : ∀ layers, s.board.connected? .recv label = some (route, layers) →
      (s.step operation).board.registry = s.board.registry ∨
        ∃ (chain : Chain Empty Empty) (message : Message), chain.priorities = layers ∧
          (s.step operation).board.registry =
            (chain.acceptInbound now message s.board.registry).2.2 := by
    intro layers hsome
    obtain ⟨i, chain, hi, hchain, -, hlayers⟩ := Switchboard.of_connected?_recv hsome
    rcases asked_step operation hslot hreading hi with
      hsame | ⟨chain₁, chain₂, message, hsome₁, hpriorities, hregistry⟩
    · exact Or.inl hsame
    · obtain rfl := Option.some.inj (hchain.symm.trans hsome₁)
      exact Or.inr ⟨chain₂, message, hpriorities.trans hlayers, hregistry⟩
  exact {
    accounts := accounts_step h.accounts operation
    backed := backed_step hr h.backed operation
    opened := hopened ▸ h.opened
    others := by
      rw [hopened]
      exact h.others
    live := by
      rw [hconnected]
      intro layers hsome p hp t ht
      have hlive := h.live layers hsome p hp t ht
      rcases hasked layers hsome with hsame | ⟨chain, message, -, hregistry⟩
      · rwa [hsame]
      · rwa [hregistry, chain.lookup_acceptInbound]
    known := by
      rw [hconnected]
      intro layers hsome
      have hknown := h.known layers hsome
      rcases hasked layers hsome with hsame | ⟨chain, message, hpriorities, hregistry⟩
      · rwa [hsame]
      · rw [hregistry, ← hpriorities]
        have hhosts := (h.hosts hc hsome).1
        rw [← hpriorities] at hhosts hknown
        exact hkeeps _ chain message hhosts hknown }

/-- The connection stays alone as long as nobody opens another one to its port, and messages are all
that comes on it. -/
theorem run [Exponential] (h : s.Alone label route Q)
    (hc : PriorityLayer.contenderOf route = .ok c) {operations : List Operation}
    (hroute : ∀ operation ∈ operations, ∀ other, operation.route? = some other →
      other.receiver ≠ route.receiver)
    (hmine : ∀ operation ∈ operations, operation.slot = (.recv, label) →
      ∃ now, operation.reading? = some now ∧ Keeps Q route.receiver c now) :
    (s.run operations).Alone label route Q := by
  induction operations generalizing s with
  | nil => exact h
  | cons operation operations ih =>
      rw [List.forall_mem_cons] at hroute hmine
      have hstep : (s.step operation).Alone label route Q := by
        by_cases hslot : operation.slot = (.recv, label)
        · obtain ⟨now, hreading, hkeeps⟩ := hmine.1 hslot
          exact h.step_message hc operation hslot hreading hkeeps
        · exact h.step_elsewhere operation hslot hroute.1
      exact ih hstep hroute.2 hmine.2

theorem installed_of_openInbound {s : Switchboard Empty Empty} {opened : List Opened}
    (h : s.Accounts opened) (hnone : ∀ o ∈ opened, o.route.receiver ≠ route.receiver)
    (hopened : (s.openInbound label route).1 = .ok ()) :
    ∃ chain r', (s.dropInbound label).catalog.install .recv route
        (s.dropInbound label).registry = (.ok chain, r') ∧
      r'.roster route.receiver = chain.priorities.filterMap PriorityLayer.member? ∧
      ∀ p ∈ chain.priorities, p.SeatedFor route := by
  have hdropped := h.dropInbound label
  have hempty : (s.dropInbound label).registry.roster route.receiver = [] := by
    have hseats := hdropped.rosters route.receiver
    have hfilter : (Opened.strike .recv label opened).filter
        (·.route.receiver = route.receiver) = [] := by
      rw [List.filter_eq_nil_iff]
      intro o ho
      rw [decide_eq_true_iff]
      exact hnone o (List.mem_filter.1 ho).1
    rw [hfilter, List.flatMap_nil] at hseats
    exact List.map_eq_nil_iff.1 hseats
  rcases hdropped.stock.install hdropped.coherent .recv route with
    ⟨e, r', hinstall, _⟩ | ⟨chain, r', hinstall, hinstalled⟩
  · rw [Switchboard.openInbound, Inbound.connect, hinstall] at hopened
    cases hopened
  · refine ⟨chain, r', hinstall, ?_, hinstalled.seated⟩
    have hroster := hinstalled.roster route.receiver
    rwa [hempty, if_pos rfl, List.nil_append] at hroster

/-- The first connection to a port is alone there, and nobody was heard of yet. -/
theorem of_openInbound [Exponential] {s : History Empty Empty}
    (haccounts : s.board.Accounts s.opened)
    (hbacked : ∀ slot, s.board.Backed (fun _ => False) slot)
    (hnone : ∀ o ∈ s.opened, o.route.receiver ≠ route.receiver)
    (hopened : (s.board.openInbound label route).1 = .ok ())
    (hQ : ∀ g layers, (∀ m ∈ g.members, m.contender.arrival? = none) → Q g layers) :
    (s.step (.openInbound label route)).Alone label route Q := by
  obtain ⟨chain, r', hinstall, hroster, hseated⟩ :=
    installed_of_openInbound haccounts hnone hopened
  have hlive := (s.board.dropInbound label).catalog.live_install .recv route _
    (congrArg Prod.fst hinstall)
  rw [hinstall] at hlive
  have hregistry : (s.step (.openInbound label route)).board.registry = r' :=
    congrArg (fun opening => opening.2.registry) (Switchboard.openInbound_of_install hinstall)
  have hconnected : (s.step (.openInbound label route)).board.connected? .recv label =
      some (route, chain.priorities) := Switchboard.connected?_openInbound_of_install hinstall
  have hopened' : (s.step (.openInbound label route)).opened =
      Opened.strike .recv label s.opened ++ [⟨.recv, label, route⟩] := by
    simp only [step, hopened]
    rfl
  have hsilent : ∀ m ∈ (r'.host route.receiver).members, m.contender.arrival? = none := by
    intro m hm
    rw [show (r'.host route.receiver).members = r'.roster route.receiver from rfl, hroster] at hm
    obtain ⟨p, hp, hmember⟩ := List.mem_filterMap.1 hm
    obtain ⟨t, ht, -, hcontender⟩ := hseated p hp
    rw [PriorityLayer.member?, ht] at hmember
    obtain rfl := Option.some.inj hmember
    rw [← PriorityLayer.declared_contenderOf hcontender]
    rfl
  exact {
    accounts := accounts_step haccounts _
    backed := backed_step haccounts.coherent hbacked _
    opened := by
      rw [hopened']
      exact List.mem_append_right _ (List.mem_singleton_self _)
    others := by
      rw [hopened']
      intro o ho hreceiver
      rcases List.mem_append.1 ho with hold | hnew
      · exact absurd hreceiver (hnone o (List.mem_filter.1 hold).1)
      · exact List.mem_singleton.1 hnew
    live := by
      rw [hconnected, hregistry]
      intro layers hsome
      obtain rfl : chain.priorities = layers := congrArg Prod.snd (Option.some.inj hsome)
      exact hlive
    known := by
      rw [hregistry]
      exact fun layers _ => hQ _ layers hsilent }

end Alone

/-! ## What is delivered -/

variable [Exponential]

theorem deliver_fst {s : Switchboard Empty Empty} {label : String} {i : Inbound Empty Empty}
    {chain : Chain Empty Empty} (hi : s.inbound? label = some i) (hchain : i.chain? = some chain)
    (now : Float) (payload : Bytes) :
    (s.deliver label now payload).1 =
      if (chain.acceptInbound now ⟨i.route, payload⟩ s.registry).1 then some payload else none := by
  simp only [Switchboard.deliver, hi, Inbound.deliver, hchain]
  generalize chain.acceptInbound now ⟨i.route, payload⟩ s.registry = asked
  obtain ⟨accepted, chain', r'⟩ := asked
  cases accepted with
  | false => rfl
  | true => simp [chain'.not_transformsInbound]

theorem backed_run {s : History Empty Empty} (h : s.board.Accounts s.opened)
    (hbacked : ∀ slot, s.board.Backed (fun _ => False) slot) (operations : List Operation) :
    ∀ slot, (s.run operations).board.Backed (fun _ => False) slot := by
  induction operations generalizing s with
  | nil => exact hbacked
  | cons operation operations ih =>
      exact ih (accounts_step h operation) (backed_step h.coherent hbacked operation)

theorem of_opened_run {s : History Empty Empty} {operations : List Operation} {o : Opened}
    (h : o ∈ (s.run operations).opened) :
    o ∈ s.opened ∨ ∃ operation ∈ operations, operation.route? = some o.route := by
  induction operations generalizing s with
  | nil => exact Or.inl h
  | cons operation operations ih =>
      rcases ih h with hold | ⟨later, hlater, hroute⟩
      · rcases of_opened_step hold with hold | hnew
        · exact Or.inl hold
        · exact Or.inr ⟨operation, List.mem_cons_self, hnew⟩
      · exact Or.inr ⟨later, List.mem_cons_of_mem _ hlater, hroute⟩

namespace Alone

variable {label : String} {route : Route} {Q : Group → List PriorityLayer → Prop}
  {s : History Empty Empty} {c : Contender} {now : Float} {heard : Float → Prop}

omit [Exponential] in
theorem exists_chain (h : s.Alone label route Q) (hc : PriorityLayer.contenderOf route = .ok c) :
    ∃ i chain, s.board.inbound? label = some i ∧ i.chain? = some chain ∧
      s.board.registry.Hosts route.receiver c chain.priorities ∧
      chain.priorities.length = Catalog.seatsOf route .recv ∧
      (s.board.registry.host route.receiver).ids.length = Catalog.seatsOf route .recv ∧
      Q (s.board.registry.host route.receiver) chain.priorities := by
  obtain ⟨layers, hsome, -, -⟩ := h.accounts.connected _ h.opened
  obtain ⟨hhosts, hlength, hids⟩ := h.hosts hc hsome
  have hknown := h.known layers hsome
  obtain ⟨i, chain, hi, hchain, -, rfl⟩ := Switchboard.of_connected?_recv hsome
  exact ⟨i, chain, hi, hchain, hhosts, hlength, hids.trans hlength, hknown⟩

theorem deliver_of_calm (h : s.Alone label route fun g _ => g.HeardAt heard)
    (hc : PriorityLayer.contenderOf route = .ok c) (hplain : c.Plain) (hnow : heard now)
    (hcalm : Group.Calm c (Catalog.seatsOf route .recv) heard now) (payload : Bytes) :
    (s.board.deliver label now payload).1 = some payload := by
  obtain ⟨i, chain, hi, hchain, hhosts, -, hids, hheard⟩ := h.exists_chain hc
  obtain ⟨r', haccepted⟩ := Chain.acceptInbound_of_calm hplain hhosts hheard hnow
    (hids.symm ▸ hcalm) ⟨i.route, payload⟩
  rw [deliver_fst hi hchain, haccepted, if_pos rfl]

def OutermostOnly (g : Group) (layers : List PriorityLayer) : Prop :=
  2 ≤ layers.length → ∀ p t, layers.getLast? = some p → p.registration? = some t → g.OnlyHeard t.id

theorem keeps_outermostOnly {port : String} (hcontestant : c.inhibitory = false)
    (hjealous : Group.Jealous c now) : Keeps OutermostOnly port c now := by
  intro r chain message hhosts hknown hseveral p t hlast ht
  have honly := hknown hseveral p t hlast ht
  exact (chain.acceptInbound_of_jealous hcontestant hjealous hhosts hseveral hlast ht honly
    message).2

theorem deliver_of_jealous (h : s.Alone label route OutermostOnly)
    (hc : PriorityLayer.contenderOf route = .ok c) (hcontestant : c.inhibitory = false)
    (hseveral : 2 ≤ Catalog.seatsOf route .recv) (hjealous : Group.Jealous c now)
    (payload : Bytes) : (s.board.deliver label now payload).1 = none := by
  obtain ⟨i, chain, hi, hchain, hhosts, hlength, -, hknown⟩ := h.exists_chain hc
  have hlayers : 2 ≤ chain.priorities.length := hlength.symm ▸ hseveral
  obtain ⟨p, hp⟩ : ∃ p, chain.priorities.getLast? = some p :=
    Option.isSome_iff_exists.1 (List.getLast?_isSome.2 (List.ne_nil_of_length_pos (by omega)))
  obtain ⟨t, ht, -, -⟩ := hhosts.seated p (List.mem_of_getLast? hp)
  have hrejected := (chain.acceptInbound_of_jealous hcontestant hjealous hhosts hlayers hp ht
    (hknown hlayers p t hp ht) ⟨i.route, payload⟩).1
  rw [deliver_fst hi hchain, hrejected, if_neg Bool.false_ne_true]

end Alone

/-- A receiving side that is open since `before`, the only connection that is ever opened to its
port, and not inhibitory. Messages of it are always let through if its layers are calm with each
other: one layer alone is, several are if they never score, or if every message refreshes the
arrival and no clock goes back. Several layers of a source whose arrival only admitted messages
refresh, and that scores right after such a message, never let a message through. -/
theorem deliver_solitary (label : String) (route : Route) (before after : List Operation)
    (hroute : ∀ operation ∈ before ++ after, ∀ other, operation.route? = some other →
      other.receiver ≠ route.receiver)
    (hmine : ∀ operation ∈ after, operation.slot = (.recv, label) → operation.reading?.isSome)
    (hopened : ((run ({ board := {} } : History Empty Empty) before).board.openInbound
      label route).1 = .ok ())
    (hinhibit : route.spec.mentions "inhibit" = false)
    (hinhibitory : route.spec.mentions "inhibitory" = false)
    {c : Contender} (hc : PriorityLayer.contenderOf route = .ok c) (now : Float) (payload : Bytes) :
    let s : History Empty Empty := run { board := {} } (before ++ .openInbound label route :: after)
    let heard (t : Float) : Prop := t = now ∨
      ∃ operation ∈ after, operation.slot = (.recv, label) ∧ operation.reading? = some t
    (Group.Calm c (Catalog.seatsOf route .recv) heard now →
      (s.board.deliver label now payload).1 = some payload) ∧
    (2 ≤ Catalog.seatsOf route .recv → (∀ t, heard t → Group.Jealous c t) →
      (s.board.deliver label now payload).1 = none) := by
  intro s heard
  have hplain : c.Plain := PriorityLayer.plain_contenderOf hc hinhibit hinhibitory
  have hafter : s = ((run { board := {} } before).step (.openInbound label route)).run after := by
    simp only [s, run, List.foldl_append, List.foldl_cons]
  have hfresh : ({ board := {} } : History Empty Empty).board.Accounts [] :=
    Switchboard.Accounts.initial .standard
  have haccounts := accounts_run hfresh before
  have hbacked := backed_run hfresh (by rintro ⟨_ | _, _⟩ _ _ hsome <;> cases hsome) before
  have hnone : ∀ o ∈ (run { board := {} } before : History Empty Empty).opened,
      o.route.receiver ≠ route.receiver := by
    intro o ho
    rcases of_opened_run ho with hold | ⟨operation, hmem, hother⟩
    · cases hold
    · exact hroute operation (List.mem_append_left _ hmem) o.route hother
  -- what is known of a group where nobody was heard of is known as long as the messages keep it
  have halone : ∀ Q : Group → List PriorityLayer → Prop,
      (∀ g layers, (∀ m ∈ g.members, m.contender.arrival? = none) → Q g layers) →
      (∀ t, heard t → Keeps Q route.receiver c t) → s.Alone label route Q := by
    intro Q hQ hkeeps
    rw [hafter]
    apply (Alone.of_openInbound haccounts hbacked hnone hopened hQ).run hc
    · exact fun operation hmem => hroute operation (List.mem_append_right _ hmem)
    · intro operation hmem hslot
      obtain ⟨t, ht⟩ := Option.isSome_iff_exists.1 (hmine operation hmem hslot)
      exact ⟨t, ht, hkeeps t (Or.inr ⟨operation, hmem, hslot, ht⟩)⟩
  constructor
  · intro hcalm
    refine (halone (fun g _ => g.HeardAt heard) ?_ ?_).deliver_of_calm hc hplain (Or.inl rfl) hcalm
      payload
    · intro g _ hsilent m hm a ha
      rw [hsilent m hm] at ha
      cases ha
    · intro t ht r chain message _ hheard
      exact chain.heardAt_acceptInbound hheard ht message
  · intro hseveral hjealous
    refine (halone Alone.OutermostOnly ?_ ?_).deliver_of_jealous hc hplain.contestant hseveral
      (hjealous now (Or.inl rfl)) payload
    · intro g layers hsilent _ p t _ _ m hm _
      exact hsilent m hm
    · exact fun t ht => Alone.keeps_outermostOnly hplain.contestant (hjealous t ht)

omit [Exponential] in
theorem deliver_solitary_doubled :
    let _ : Exponential := ⟨Scenario.staircase⟩
    let before := [.openInbound "b" ⟨"/b", "/port2", "tcp+recv.priority"⟩]
    let after := [.deliver "a" 0 [1], .deliver "b" 0 [2]]
    let played (route : Route) : History Empty Empty :=
      run { board := {} } (before ++ .openInbound "a" route :: after)
    let observed : Route := ⟨"/a", "/port1", "tcp+recv.priority+recv.priority+level.5+time.2"⟩
    let admitted : Route :=
      ⟨"/a", "/port1", "tcp+recv.priority+recv.priority+level.5+time.2+arrival.admitted"⟩
    ((played observed).board.deliver "a" 1 [3]).1 = some [3] ∧
      ((played admitted).board.deliver "a" 1 [3]).1 = none := by
  intro _ before after played observed admitted
  have hmono : ∀ x y : Float, x ≤ y → Scenario.staircase x ≤ Scenario.staircase y :=
    fun _ _ => Scenario.staircase_mono
  have hzero : ∀ operation ∈ after, ∀ t, operation.reading? = some t → t = 0 := by
    intro operation hmem t ht
    have hreadings : after.filterMap Operation.reading? = List.replicate 2 0 := rfl
    exact List.eq_of_mem_replicate (hreadings ▸ List.mem_filterMap.2 ⟨operation, hmem, ht⟩)
  constructor
  · have hcalm := (deliver_solitary (c := ⟨"/a", 5, 2, none, false, .observed⟩) "a" observed
      before after (by decide +kernel) (by decide +kernel) (by decide +kernel) (by decide +kernel)
      (by decide +kernel) (by decide +kernel) 1 [3]).1
    refine hcalm (Or.inr (Or.inr ⟨rfl, hmono, by decide +kernel, ?_⟩))
    rintro t (rfl | ⟨operation, hmem, -, hreading⟩)
    · decide +kernel
    · obtain rfl := hzero operation hmem t hreading
      decide +kernel
  · have hjealous := (deliver_solitary (c := ⟨"/a", 5, 2, none, false, .admitted⟩) "a" admitted
      before after (by decide +kernel) (by decide +kernel) (by decide +kernel) (by decide +kernel)
      (by decide +kernel) (by decide +kernel) 1 [3]).2
    refine hjealous (by decide +kernel) ?_
    rintro t (rfl | ⟨operation, hmem, -, hreading⟩)
    · exact ⟨rfl, by decide +kernel⟩
    · obtain rfl := hzero operation hmem t hreading
      exact ⟨rfl, by decide +kernel⟩

omit [Exponential] in
/-- A source alone on its port, neither of whose messages arrives. -/
theorem not_deliver_alone :
    let _ : Exponential := ⟨Scenario.staircase⟩
    let route : Route :=
      ⟨"/a", "/port1", "tcp+recv.priority+recv.priority+level.5+time.2+arrival.admitted"⟩
    let opened := ({} : Switchboard Empty Empty).openInbound "a" route
    let first := opened.2.deliver "a" 0 [120]
    let second := first.2.deliver "a" 1 [120]
    opened.1 = .ok () ∧
      route.spec.mentions "inhibit" = false ∧ route.spec.mentions "inhibitory" = false ∧
      (0 : Float).isFinite = true ∧ (1 : Float).isFinite = true ∧
      first.1 = none ∧ second.1 = none := by
  decide +kernel

end History

end PortArbiter
