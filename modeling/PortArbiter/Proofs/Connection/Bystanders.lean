import PortArbiter.Proofs.Connection.Refusal
import PortArbiter.Proofs.Registry.Party
/-!
# Bystanders

What a program does with one connection does not concern the ports that no connection of that label
leads to: their groups, and the registrations that others hold in them, stay as they are. This needs
registrations to be what the registry gave out, so that nobody changes a group by way of a forged
one.
-/

namespace PortArbiter

/-! ## Changes elsewhere -/

namespace Registry

/-- A change that leaves all groups of the keys in `own` alone, and keeps every other one under its
key. -/
structure Elsewhere (own : String → Prop) (r r' : Registry) : Prop where
  spares : r.Spares own r'
  outlived : r.Outlived r'

variable {own : String → Prop} {r r' r'' : Registry}

theorem Coherent.elsewhere (h : Coherent r) : Elsewhere own r r where
  spares := ⟨h, fun _ hg _ => ⟨hg, rfl⟩, fun _ _ => rfl⟩
  outlived := Outlived.refl r

theorem Elsewhere.trans (h : Elsewhere own r r') (h' : Elsewhere own r' r'') :
    Elsewhere own r r'' where
  spares := {
    coherent := h'.spares.coherent
    group := by
      intro g hg hown
      obtain ⟨hfounded, hgroup⟩ := h.spares.group g hg hown
      obtain ⟨hfounded', hgroup'⟩ := h'.spares.group g hfounded (hgroup ▸ hown)
      exact ⟨hfounded', hgroup'.trans hgroup⟩
    lookup := fun key hkey => (h'.spares.lookup key hkey).trans (h.spares.lookup key hkey) }
  outlived := h.outlived.trans h'.outlived

theorem Elsewhere.host (h : Elsewhere own r r') (hr : r.Coherent) {key : String} (hkey : own key) :
    r'.host key = r.host key := by
  rw [Registry.host, h.spares.lookup key hkey, Registry.host]
  cases hlookup : r.lookup key with
  | none => rfl
  | some g =>
      have hown : own (r.group g).endpoint := (hr.endpoint hlookup).symm ▸ hkey
      exact (h.spares.group g (hr.founded hlookup) hown).2

theorem Coherent.elsewhere_register (h : Coherent r) {key : String} (hkey : ¬ own key)
    (c : Contender) : Elsewhere own r (r.register key c).2 :=
  ⟨h.spares_register hkey c, outlived_register h key c⟩

theorem Coherent.elsewhere_release (h : Coherent r) {t : Registration} (hkey : ¬ own t.key) :
    Elsewhere own r (r.release t) :=
  ⟨h.spares_deregister hkey t.id, outlived_deregister h t.key t.id⟩

theorem Coherent.elsewhere_receive [Exponential] (h : Coherent r) {t : Registration}
    (ht : r.Issued t) (hkey : ¬ own t.key) (now : Float) : Elsewhere own r (r.receive t now).2 := by
  have hids : ∀ g : Group, (g.receive t.id now).2.ids = g.ids := fun g => g.ids_receive t.id now
  have hend : ∀ g : Group, (g.receive t.id now).2.endpoint = g.endpoint :=
    fun g => g.endpoint_receive t.id now
  rw [receive_snd]
  exact ⟨h.spares_modifyGroup ht hkey hids hend, outlived_modifyGroup r t.group hend⟩

/-- Whether the registrations of some layers were given out by a registry, and none of them under a
key in `own`. -/
def Backs (own : String → Prop) (r : Registry) (layers : List PriorityLayer) : Prop :=
  ∀ p ∈ layers, ∀ t, p.registration? = some t → r.Issued t ∧ ¬ own t.key

theorem Backs.later {layers : List PriorityLayer} (h : r.Backs own layers) (h' : r.Outlived r') :
    r'.Backs own layers :=
  fun p hp t ht => ⟨h'.issued (h p hp t ht).1, (h p hp t ht).2⟩

end Registry

open Registry (Elsewhere Backs)

variable {β μ : Type} {own : String → Prop} {r : Registry}

/-! ## Chains -/

namespace Chain

theorem elsewhere_release (chain : Chain β μ) (hr : r.Coherent)
    (h : r.Backs own chain.priorities) : Elsewhere own r (chain.release r) := by
  induction chain with
  | base b => exact hr.elsewhere
  | wrap outer inner ih =>
      have hinner := ih fun p hp => h p (List.mem_append_left _ hp)
      cases outer with
      | custom m => exact hinner
      | priority p =>
          show Elsewhere own r (p.release (inner.release r))
          rw [PriorityLayer.release]
          split
          · exact hinner
          · rename_i t ht
            have hkey := (h p (List.mem_append_right _ (List.mem_singleton_self p)) t ht).2
            exact hinner.trans (hinner.spares.coherent.elsewhere_release hkey)

variable [Transport β] [Stage μ]

/-- Configuring a new chain concerns the receiving port of its route only. -/
theorem elsewhere_configure (route : Route) (chain : Chain β μ) (hr : r.Coherent)
    (hnew : ∀ p ∈ chain.priorities, p = {}) (hreceiver : ¬ own route.receiver) :
    Elsewhere own r (chain.configure route r).2.2 ∧
      (chain.configure route r).2.2.Backs own (chain.configure route r).2.1.priorities := by
  induction chain with
  | base b => exact ⟨hr.elsewhere, List.forall_mem_nil _⟩
  | wrap outer inner ih =>
      have hnone : ∀ p ∈ outer.priority?, p = {} := fun p hp =>
        hnew p (List.mem_append_right _ (Option.mem_toList.2 hp))
      obtain ⟨hinner, hbacks⟩ := ih fun p hp => hnew p (List.mem_append_left _ hp)
      rw [configure]
      generalize inner.configure route r = configured at hinner hbacks
      obtain ⟨result, inner', r'⟩ := configured
      -- a layer without a registration asks nothing more of the registry
      have hunseated : ∀ outer' : Layer μ, (∀ p ∈ outer'.priority?, p = {}) →
          r'.Backs own (Chain.wrap outer' inner').priorities := by
        intro outer' hempty p hp t ht
        rcases List.mem_append.1 hp with hp | hp
        · exact hbacks p hp t ht
        · rw [hempty p (Option.mem_toList.1 hp)] at ht
          cases ht
      cases result with
      | error e => exact ⟨hinner, hunseated outer hnone⟩
      | ok =>
          cases outer with
          | custom m =>
              refine ⟨hinner, hunseated (.custom (Stage.configure route m).2) fun p hp => ?_⟩
              cases hp
          | priority p =>
              obtain rfl := hnone p rfl
              rcases PriorityLayer.configure_new route r' with ⟨e, he⟩ | ⟨c, _, hok⟩
              · simp only [Layer.configure, he]
                exact ⟨hinner, hunseated (.priority {}) hnone⟩
              · have hregister := hinner.spares.coherent.elsewhere_register hreceiver c
                simp only [Layer.configure, hok]
                refine ⟨hinner.trans hregister, fun q hq t ht => ?_⟩
                rcases List.mem_append.1 hq with hq | hq
                · exact hbacks.later hregister.outlived q hq t ht
                · obtain rfl := List.mem_singleton.1 hq
                  obtain rfl := Option.some.inj ht
                  exact ⟨Registry.Party.issued_register hinner.spares.coherent route.receiver c,
                    hreceiver⟩

theorem elsewhere_acceptInbound [Exponential] (now : Float) (message : Message)
    (chain : Chain β μ) (hr : r.Coherent) (h : r.Backs own chain.priorities) :
    Elsewhere own r (chain.acceptInbound now message r).2.2 := by
  induction chain generalizing r with
  | base b => exact hr.elsewhere
  | wrap outer inner ih =>
      have houter : Elsewhere own r (outer.acceptInbound now message r).2.2 := by
        cases outer with
        | custom m => exact hr.elsewhere
        | priority p =>
            show Elsewhere own r (p.receive now r).2
            rw [PriorityLayer.receive]
            split
            · exact hr.elsewhere
            · rename_i t ht
              obtain ⟨hissued, hkey⟩ :=
                h p (List.mem_append_right _ (List.mem_singleton_self p)) t ht
              exact hr.elsewhere_receive hissued hkey now
      rw [acceptInbound]
      generalize outer.acceptInbound now message r = asked at houter
      obtain ⟨accepted, outer', r'⟩ := asked
      cases accepted with
      | false => exact houter
      | true =>
          have hbacks : r'.Backs own inner.priorities :=
            Backs.later (fun p hp => h p (List.mem_append_left _ hp)) houter.outlived
          exact houter.trans (ih houter.spares.coherent hbacks)

end Chain

variable [Transport β] [Stage μ]

theorem Catalog.elsewhere_install (c : Catalog β μ) (side : Direction) (route : Route)
    (hr : r.Coherent) (hreceiver : ¬ own route.receiver) :
    Elsewhere own r (c.install side route r).2 ∧
      ∀ chain, (c.install side route r).1 = .ok chain →
        (c.install side route r).2.Backs own chain.priorities := by
  cases hinstall : c.install side route r with
  | mk result r' =>
      cases installing hinstall with
      | unbuilt hbuilt => exact ⟨hr.elsewhere, nofun⟩
      | @refused before after _ _ hbuilt hconfigured =>
          obtain ⟨hconfigure, hbacks⟩ :=
            before.elsewhere_configure route hr (priorities_build_new hbuilt) hreceiver
          rw [hconfigured] at hconfigure hbacks
          have hrelease := after.elsewhere_release hconfigure.spares.coherent hbacks
          exact ⟨hconfigure.trans hrelease, nofun⟩
      | @done before after _ hbuilt hconfigured =>
          obtain ⟨hconfigure, hbacks⟩ :=
            before.elsewhere_configure route hr (priorities_build_new hbuilt) hreceiver
          rw [hconfigured] at hconfigure hbacks
          refine ⟨hconfigure, fun chain hchain => ?_⟩
          obtain rfl := Except.ok.inj hchain
          exact hbacks

/-! ## Messages -/

/-- What a message does to the registry at most: it is put to a chain with the layers that the
connection has. -/
def Inbound.Asked [Exponential] (c : Inbound β μ) (now : Float) (r r' : Registry) : Prop :=
  r' = r ∨ ∃ (chain chain' : Chain β μ) (message : Message),
    c.chain? = some chain ∧ chain'.priorities = chain.priorities ∧
      r' = (chain'.acceptInbound now message r).2.2

theorem Inbound.asked_deliver [Exponential] (c : Inbound β μ) (now : Float) (payload : Bytes)
    (r : Registry) : c.Asked now r (c.deliver now payload r).2.2 := by
  rw [deliver]
  cases hchain : c.chain? with
  | none => exact Or.inl rfl
  | some chain =>
      refine Or.inr ⟨chain, chain, ⟨c.route, payload⟩, hchain, rfl, ?_⟩
      dsimp only
      generalize chain.acceptInbound now ⟨c.route, payload⟩ r = asked
      obtain ⟨accepted, chain', r'⟩ := asked
      cases accepted <;> rfl

theorem Inbound.asked_receiveFrame [Exponential] (c : Inbound β μ) (now : Float) (frame : Bytes)
    (r : Registry) : c.Asked now r (c.receiveFrame now frame r).2.2 := by
  rw [receiveFrame]
  cases hchain : c.chain? with
  | none => exact Or.inl rfl
  | some chain =>
      have hlayers := chain.priorities_readFrame frame
      dsimp only
      generalize chain.readFrame frame = read at hlayers ⊢
      obtain ⟨_ | payload, chain'⟩ := read
      · exact Or.inl rfl
      · rcases asked_deliver { c with chain? := some chain' } now payload r with
          hsame | ⟨chain₁, chain₂, message, hsome, hpriorities, hregistry⟩
        · exact Or.inl hsame
        · obtain rfl := Option.some.inj hsome
          exact Or.inr ⟨chain, chain₂, message, hchain, hpriorities.trans hlayers, hregistry⟩

/-! ## Operations -/

namespace Operation

def slot : Operation → Direction × String
  | .openInbound label _ | .deliver label _ _ | .receiveFrame label _ _ | .close label
  | .dropInbound label => (.recv, label)
  | .openOutbound label _ | .encode label _ | .dropOutbound label => (.send, label)

def route? : Operation → Option Route
  | .openInbound _ route | .openOutbound _ route => some route
  | _ => none

/-- The time at which an operation offers a message to a receiving side. -/
def reading? : Operation → Option Float
  | .deliver _ now _ | .receiveFrame _ now _ => some now
  | _ => none

end Operation

namespace Switchboard

variable {s : Switchboard β μ}

def Backed (own : String → Prop) (s : Switchboard β μ) (slot : Direction × String) : Prop :=
  ∀ route layers, s.connected? slot.1 slot.2 = some (route, layers) → s.registry.Backs own layers

omit [Transport β] [Stage μ] in
theorem elsewhere_closing (i : Inbound β μ) (hr : r.Coherent)
    (h : ∀ chain, i.chain? = some chain → r.Backs own chain.priorities) :
    Elsewhere own r (i.close r).2 := by
  rw [Inbound.close]
  split
  · exact hr.elsewhere
  · rename_i chain hchain
    exact chain.elsewhere_release hr (h chain hchain)

omit [Transport β] [Stage μ] in
theorem Backed.inbound {label : String} (h : s.Backed own (.recv, label)) {c : Inbound β μ}
    (hc : s.inbound? label = some c) :
    ∀ chain, c.chain? = some chain → s.registry.Backs own chain.priorities := by
  intro chain hchain
  apply h c.route
  rw [connected?_recv, hc, Option.bind_some, hchain]
  rfl

omit [Transport β] [Stage μ] in
theorem Backed.later {s' : Switchboard β μ} {slot : Direction × String} (h : s.Backed own slot)
    (houtlived : s.registry.Outlived s'.registry) (hconnected : s'.connected? = s.connected?) :
    s'.Backed own slot := by
  intro route layers hsome
  rw [hconnected] at hsome
  exact (h route layers hsome).later houtlived

theorem elsewhere_asked [Exponential] {c : Inbound β μ} {now : Float} {r' : Registry}
    (hr : r.Coherent) (h : ∀ chain, c.chain? = some chain → r.Backs own chain.priorities)
    (hasked : c.Asked now r r') : Elsewhere own r r' := by
  rcases hasked with rfl | ⟨chain, chain', message, hchain, hlayers, rfl⟩
  · exact hr.elsewhere
  · exact chain'.elsewhere_acceptInbound now message hr (hlayers ▸ h chain hchain)

omit [Transport β] [Stage μ] in
theorem elsewhere_dropInbound (hr : s.registry.Coherent) {label : String}
    (h : s.Backed own (.recv, label)) :
    Elsewhere own s.registry (s.dropInbound label).registry := by
  rw [dropInbound]
  cases hc : s.inbound? label with
  | none => exact hr.elsewhere
  | some c => exact elsewhere_closing c hr (h.inbound hc)

omit [Transport β] [Stage μ] in
theorem elsewhere_dropOutbound (hr : s.registry.Coherent) {label : String}
    (h : s.Backed own (.send, label)) :
    Elsewhere own s.registry (s.dropOutbound label).registry := by
  rw [dropOutbound]
  cases hc : s.outbound? label with
  | none => exact hr.elsewhere
  | some c =>
      apply c.chain.elsewhere_release hr
      apply h c.route
      rw [connected?_send, hc]
      rfl

omit [Transport β] [Stage μ] in
theorem connected?_dropInbound (s : Switchboard β μ) (label : String) (side' : Direction)
    (label' : String) : (s.dropInbound label).connected? side' label' =
      if (side', label') = (.recv, label) then none else s.connected? side' label' := by
  rw [dropInbound]
  cases hc : s.inbound? label with
  | some c => exact connected?_remove_inbound s _ label side' label'
  | none =>
      dsimp only
      split
      · rename_i hslot
        obtain ⟨rfl, rfl⟩ := Prod.mk.inj hslot
        rw [connected?_recv, hc]
        rfl
      · rfl

omit [Transport β] [Stage μ] in
theorem connected?_close (s : Switchboard β μ) (label : String) (side' : Direction)
    (label' : String) : (s.close label).connected? side' label' =
      if (side', label') = (.recv, label) then none else s.connected? side' label' := by
  rw [Switchboard.close]
  cases hc : s.inbound? label with
  | some c =>
      refine (connected?_put_inbound s _ label (c.close s.registry).1 side' label').trans ?_
      rw [Inbound.close]
      cases hchain : c.chain? <;> simp [hchain]
  | none =>
      dsimp only
      split
      · rename_i hslot
        obtain ⟨rfl, rfl⟩ := Prod.mk.inj hslot
        rw [connected?_recv, hc]
        rfl
      · rfl

omit [Transport β] [Stage μ] in
theorem connected?_dropOutbound (s : Switchboard β μ) (label : String) (side' : Direction)
    (label' : String) : (s.dropOutbound label).connected? side' label' =
      if (side', label') = (.send, label) then none else s.connected? side' label' := by
  rw [dropOutbound]
  cases hc : s.outbound? label with
  | some c => exact connected?_remove_outbound s _ label side' label'
  | none =>
      dsimp only
      split
      · rename_i hslot
        obtain ⟨rfl, rfl⟩ := Prod.mk.inj hslot
        rw [connected?_send, hc]
        rfl
      · rfl

omit [Transport β] [Stage μ] in
theorem of_connected?_recv {label : String} {route : Route} {layers : List PriorityLayer}
    (h : s.connected? .recv label = some (route, layers)) :
    ∃ c chain, s.inbound? label = some c ∧ c.chain? = some chain ∧ c.route = route ∧
      chain.priorities = layers := by
  rw [connected?_recv] at h
  obtain ⟨c, hc, hmap⟩ := Option.bind_eq_some_iff.1 h
  obtain ⟨chain, hchain, heq⟩ := Option.map_eq_some_iff.1 hmap
  obtain ⟨hroute, hlayers⟩ := Prod.mk.inj heq
  exact ⟨c, chain, hc, hchain, hroute, hlayers⟩

/-! ### Opening -/

omit [Transport β] [Stage μ] in
theorem backed_of_none {slot : Direction × String} (h : s.connected? slot.1 slot.2 = none) :
    s.Backed own slot := by
  intro route layers hsome
  cases h.symm.trans hsome

theorem openInbound_of_install {label : String} {route : Route} {chain : Chain β μ} {r' : Registry}
    (h : (s.dropInbound label).catalog.install .recv route (s.dropInbound label).registry =
      (.ok chain, r')) :
    s.openInbound label route = (.ok (), { s.dropInbound label with
      registry := r'
      inbound := Table.put label ⟨route, some chain, {}⟩ (s.dropInbound label).inbound }) := by
  simp only [openInbound, Inbound.connect, h]
  rfl

theorem connected?_openInbound_of_install {label : String} {route : Route} {chain : Chain β μ}
    {r' : Registry}
    (h : (s.dropInbound label).catalog.install .recv route (s.dropInbound label).registry =
      (.ok chain, r')) :
    (s.openInbound label route).2.connected? .recv label = some (route, chain.priorities) := by
  rw [openInbound_of_install h]
  exact (connected?_put_inbound (s.dropInbound label) r' label ⟨route, some chain, {}⟩ .recv
    label).trans (if_pos rfl)

/-- Opening a receiving side concerns the port of the connection that had its label, and the port
of its route. -/
theorem elsewhere_openInbound (hr : s.registry.Coherent) {label : String} {route : Route}
    (h : s.Backed own (.recv, label)) (hreceiver : ¬ own route.receiver) :
    Elsewhere own s.registry (s.openInbound label route).2.registry ∧
      (s.openInbound label route).2.Backed own (.recv, label) := by
  have hdropped := elsewhere_dropInbound hr h
  obtain ⟨hinstall, hbacks⟩ := (s.dropInbound label).catalog.elsewhere_install .recv route
    hdropped.spares.coherent hreceiver
  cases hinstalled : (s.dropInbound label).catalog.install .recv route
      (s.dropInbound label).registry with
  | mk result r' =>
      rw [hinstalled] at hinstall hbacks
      cases result with
      | error e =>
          have hrefused : (s.openInbound label route).2 =
              { s.dropInbound label with registry := r' } := by
            simp only [openInbound, Inbound.connect, hinstalled]
            rfl
          rw [hrefused]
          refine ⟨hdropped.trans hinstall, backed_of_none ?_⟩
          exact (s.connected?_dropInbound label .recv label).trans (if_pos rfl)
      | ok chain =>
          have hconnected := connected?_openInbound_of_install hinstalled
          rw [openInbound_of_install hinstalled] at hconnected ⊢
          refine ⟨hdropped.trans hinstall, fun route' layers hsome => ?_⟩
          obtain ⟨rfl, rfl⟩ := Prod.mk.inj (Option.some.inj (hconnected.symm.trans hsome))
          exact hbacks chain rfl

theorem elsewhere_openOutbound (hr : s.registry.Coherent) {label : String} {route : Route}
    (h : s.Backed own (.send, label)) (hreceiver : ¬ own route.receiver) :
    Elsewhere own s.registry (s.openOutbound label route).2.registry ∧
      (s.openOutbound label route).2.Backed own (.send, label) := by
  have hdropped := elsewhere_dropOutbound hr h
  obtain ⟨hinstall, hbacks⟩ := (s.dropOutbound label).catalog.elsewhere_install .send route
    hdropped.spares.coherent hreceiver
  simp only [openOutbound, Outbound.connect]
  generalize (s.dropOutbound label).catalog.install .send route (s.dropOutbound label).registry =
    installed at hinstall hbacks
  obtain ⟨_ | chain, r'⟩ := installed
  · refine ⟨hdropped.trans hinstall, backed_of_none ?_⟩
    exact (s.connected?_dropOutbound label .send label).trans (if_pos rfl)
  · refine ⟨hdropped.trans hinstall, fun route' layers hsome => ?_⟩
    have hconnected := (connected?_put_outbound (s.dropOutbound label) r' label ⟨route, chain⟩ .send
      label).trans (if_pos rfl)
    obtain ⟨rfl, rfl⟩ := Prod.mk.inj (Option.some.inj (hconnected.symm.trans hsome))
    exact hbacks chain rfl

end Switchboard

namespace History

open Switchboard

variable [Exponential] {s : History β μ}

theorem connected?_step_of_ne (hr : s.board.registry.Coherent) (operation : Operation)
    {side : Direction} {label : String} (hslot : (side, label) ≠ operation.slot) :
    (s.step operation).board.connected? side label = s.board.connected? side label := by
  cases operation with
  | openInbound label' route =>
      have hdropped := (s.board.connected?_dropInbound label' side label).trans (if_neg hslot)
      simp only [step, openInbound]
      generalize Inbound.connect (s.board.dropInbound label').catalog route
        (s.board.dropInbound label').registry = connecting
      obtain ⟨_ | c, registry⟩ := connecting
      · rw [← hdropped]
        rfl
      · exact (connected?_put_inbound _ registry label' c side label).trans
          ((if_neg hslot).trans hdropped)
  | openOutbound label' route =>
      have hdropped := (s.board.connected?_dropOutbound label' side label).trans (if_neg hslot)
      simp only [step, openOutbound]
      generalize Outbound.connect (s.board.dropOutbound label').catalog route
        (s.board.dropOutbound label').registry = connecting
      obtain ⟨_ | c, registry⟩ := connecting
      · rw [← hdropped]
        rfl
      · exact (connected?_put_outbound _ registry label' c side label).trans
          ((if_neg hslot).trans hdropped)
  | deliver label' now payload =>
      exact congrFun (congrFun (connected?_deliver hr label' now payload) side) label
  | receiveFrame label' now frame =>
      exact congrFun (congrFun (connected?_receiveFrame hr label' now frame) side) label
  | encode label' payload =>
      exact congrFun (congrFun (s.board.connected?_encode label' payload) side) label
  | close label' => exact (s.board.connected?_close label' side label).trans (if_neg hslot)
  | dropInbound label' =>
      exact (s.board.connected?_dropInbound label' side label).trans (if_neg hslot)
  | dropOutbound label' =>
      exact (s.board.connected?_dropOutbound label' side label).trans (if_neg hslot)

/-- An operation that neither opens a route towards the ports in `own` nor is about a connection
that leads there happens elsewhere. What it leaves open under its label leads elsewhere too. -/
theorem elsewhere_step (hr : s.board.registry.Coherent) (operation : Operation)
    (hbacked : s.board.Backed own operation.slot)
    (hroute : ∀ route, operation.route? = some route → ¬ own route.receiver) :
    Elsewhere own s.board.registry (s.step operation).board.registry ∧
      (s.step operation).board.Backed own operation.slot := by
  cases operation with
  | openInbound label route => exact elsewhere_openInbound hr hbacked (hroute route rfl)
  | openOutbound label route => exact elsewhere_openOutbound hr hbacked (hroute route rfl)
  | deliver label now payload =>
      have helsewhere : Elsewhere own s.board.registry
          (s.board.deliver label now payload).2.registry := by
        rw [Switchboard.deliver]
        cases hc : s.board.inbound? label with
        | none => exact hr.elsewhere
        | some c => exact elsewhere_asked hr (hbacked.inbound hc) (c.asked_deliver now payload _)
      refine ⟨helsewhere, hbacked.later helsewhere.outlived ?_⟩
      exact connected?_deliver hr label now payload
  | receiveFrame label now frame =>
      have helsewhere : Elsewhere own s.board.registry
          (s.board.receiveFrame label now frame).2.registry := by
        rw [Switchboard.receiveFrame]
        cases hc : s.board.inbound? label with
        | none => exact hr.elsewhere
        | some c => exact elsewhere_asked hr (hbacked.inbound hc) (c.asked_receiveFrame now frame _)
      refine ⟨helsewhere, hbacked.later helsewhere.outlived ?_⟩
      exact connected?_receiveFrame hr label now frame
  | encode label payload =>
      have helsewhere : Elsewhere own s.board.registry
          (s.board.encode label payload).2.registry := by
        rw [s.board.registry_encode label payload]
        exact hr.elsewhere
      refine ⟨helsewhere, hbacked.later helsewhere.outlived ?_⟩
      exact s.board.connected?_encode label payload
  | close label =>
      have helsewhere : Elsewhere own s.board.registry (s.board.close label).registry := by
        rw [Switchboard.close]
        cases hc : s.board.inbound? label with
        | none => exact hr.elsewhere
        | some c => exact elsewhere_closing c hr (hbacked.inbound hc)
      refine ⟨helsewhere, backed_of_none ?_⟩
      exact (s.board.connected?_close label .recv label).trans (if_pos rfl)
  | dropInbound label =>
      refine ⟨elsewhere_dropInbound hr hbacked, backed_of_none ?_⟩
      exact (s.board.connected?_dropInbound label .recv label).trans (if_pos rfl)
  | dropOutbound label =>
      refine ⟨elsewhere_dropOutbound hr hbacked, backed_of_none ?_⟩
      exact (s.board.connected?_dropOutbound label .send label).trans (if_pos rfl)

theorem backed_step (hr : s.board.registry.Coherent)
    (h : ∀ slot, s.board.Backed (fun _ => False) slot) (operation : Operation) :
    ∀ slot, (s.step operation).board.Backed (fun _ => False) slot := by
  obtain ⟨helsewhere, hself⟩ := elsewhere_step hr operation (h operation.slot) fun _ _ => id
  intro slot
  by_cases hslot : slot = operation.slot
  · rw [hslot]
    exact hself
  · intro route layers hsome
    rw [connected?_step_of_ne hr operation hslot] at hsome
    exact (h slot route layers hsome).later helsewhere.outlived

/-! ### Messages -/

theorem opened_step_of_reading {operation : Operation} {now : Float}
    (h : operation.reading? = some now) : (s.step operation).opened = s.opened := by
  cases operation with
  | deliver label now' payload => rfl
  | receiveFrame label now' frame => rfl
  | _ => cases h

theorem connected?_step_of_reading (hr : s.board.registry.Coherent) (operation : Operation)
    {now : Float} (h : operation.reading? = some now) :
    (s.step operation).board.connected? = s.board.connected? := by
  cases operation with
  | deliver label now' payload => exact connected?_deliver hr label now' payload
  | receiveFrame label now' frame => exact connected?_receiveFrame hr label now' frame
  | _ => cases h

theorem asked_step (operation : Operation) {label : String}
    (hslot : operation.slot = (.recv, label)) {now : Float} (h : operation.reading? = some now)
    {c : Inbound β μ} (hc : s.board.inbound? label = some c) :
    c.Asked now s.board.registry (s.step operation).board.registry := by
  cases operation with
  | deliver label' now' payload =>
      obtain rfl : label' = label := congrArg Prod.snd hslot
      obtain rfl := Option.some.inj h
      simp only [step, Switchboard.deliver, hc]
      exact c.asked_deliver now' payload _
  | receiveFrame label' now' frame =>
      obtain rfl : label' = label := congrArg Prod.snd hslot
      obtain rfl := Option.some.inj h
      simp only [step, Switchboard.receiveFrame, hc]
      exact c.asked_receiveFrame now' frame _
  | _ => cases h

/-- A connection that an operation leaves open was open before, or is the one that it opened. -/
theorem of_opened_step {operation : Operation} {o : Opened} (h : o ∈ (s.step operation).opened) :
    o ∈ s.opened ∨ operation.route? = some o.route := by
  have hstrike : ∀ side label, o ∈ Opened.strike side label s.opened → o ∈ s.opened :=
    fun _ _ ho => (List.mem_filter.1 ho).1
  have hreopen : ∀ (opening : Opened) result, o ∈ Opened.reopen opening result s.opened →
      o ∈ s.opened ∨ o = opening := by
    intro opening result ho
    cases result with
    | error e => exact Or.inl (hstrike _ _ ho)
    | ok =>
        rcases List.mem_append.1 ho with hold | hnew
        · exact Or.inl (hstrike _ _ hold)
        · exact Or.inr (List.mem_singleton.1 hnew)
  cases operation with
  | openInbound label route =>
      rcases hreopen ⟨.recv, label, route⟩ _ h with hold | rfl
      · exact Or.inl hold
      · exact Or.inr rfl
  | openOutbound label route =>
      rcases hreopen ⟨.send, label, route⟩ _ h with hold | rfl
      · exact Or.inl hold
      · exact Or.inr rfl
  | deliver label now payload => exact Or.inl h
  | receiveFrame label now frame => exact Or.inl h
  | encode label payload => exact Or.inl h
  | close label => exact Or.inl (hstrike _ _ h)
  | dropInbound label => exact Or.inl (hstrike _ _ h)
  | dropOutbound label => exact Or.inl (hstrike _ _ h)

end History

end PortArbiter
