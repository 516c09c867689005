import PortArbiter.Proofs.Connection.Bystanders
import PortArbiter.Proofs.Registry.Later
/-!
# Inhibitory connections never deliver

A source that was declared inhibitory is never let through by its group, and by no group at all once
it has left. So a receiving side with a priority layer whose specification asks for inhibition
delivers nothing, wherever in its chain that layer is, whatever the other layers do, and whatever
happens to the registry, as long as nobody rewrites what is declared of its members.
-/

namespace PortArbiter

open Registry (Later Declares)

variable {β μ : Type} {r r' : Registry}

/-! ## The decision on an inhibitory source -/

theorem Group.receive_of_inhibitory [Exponential] {g : Group} {id : PeerId}
    (h : ∀ m ∈ g.members, m.id = id → m.contender.inhibitory = true) (now : Float) :
    (g.receive id now).1 ≠ .accepted := by
  have houtside : Verdict.notMember ≠ .accepted := by decide
  have harbitrate : ∀ g' : Group, (∀ m ∈ g'.members, m.id = id → m.contender.inhibitory = true) →
      g'.arbitrate id now ≠ .accepted := by
    intro g' h'
    cases hfind : g'.find? id with
    | none =>
        rw [arbitrate, hfind]
        exact houtside
    | some sender =>
        have hid : sender.id = id := by simpa using List.find?_some hfind
        have hinhibitory := h' sender (List.mem_of_find?_eq_some hfind) hid
        rw [arbitrate_eq_inhibitory hfind hinhibitory]
        decide
  rw [receive]
  cases g.find? id with
  | none => exact houtside
  | some sender =>
      dsimp only
      split
      · apply harbitrate
        intro m hm hid
        rcases of_mem_observe hm with ⟨_, hold⟩ | ⟨old, hold, hsame, rfl⟩
        · exact h m hold hid
        · exact h old hold hsame
      · exact harbitrate g h

/-- A registration that was made for an inhibitory source is refused for good. -/
theorem Registry.Declares.receive [Exponential] {t : Registration} {c : Contender}
    (h : r.Declares t c) (hc : c.inhibitory = true) (now : Float) :
    (r.receive t now).1 ≠ .accepted := by
  apply Group.receive_of_inhibitory
  intro m hm hid
  have hdeclared : m.contender.declared = c := h.2 m.seat (List.mem_map_of_mem hm) hid
  rw [← hc, ← hdeclared]
  rfl

theorem PriorityLayer.inhibitory_contenderOf {route : Route} {c : Contender}
    (h : contenderOf route = .ok c) :
    c.inhibitory = (route.spec.mentions "inhibit" || route.spec.mentions "inhibitory") := by
  unfold contenderOf at h
  dsimp only at h
  split at h
  · cases h
  · obtain rfl := Except.ok.inj h
    rfl

/-! ## Registries after what chains do -/

theorem PriorityLayer.later_release (p : PriorityLayer) (hr : r.Coherent) :
    r.Later (p.release r) := by
  rw [release]
  split
  · exact .refl r
  · exact hr.later_deregister _ _

namespace Chain

theorem later_release (chain : Chain β μ) (hr : r.Coherent) : r.Later (chain.release r) := by
  induction chain with
  | base b => exact .refl r
  | wrap outer inner ih =>
      cases outer with
      | custom m => exact ih
      | priority p => exact ih.trans (p.later_release (inner.coherent_release hr))

def Declared (r : Registry) (chain : Chain β μ) : Prop :=
  ∀ p ∈ chain.priorities, ∀ t, p.registration? = some t → r.Declares t p.contender

theorem Declared.later {chain : Chain β μ} (h : chain.Declared r) (hlater : r.Later r') :
    chain.Declared r' :=
  fun p hp t ht => (h p hp t ht).later hlater

variable [Transport β] [Stage μ]

theorem later_configure (route : Route) (chain : Chain β μ) (hr : r.Coherent)
    (hnew : ∀ p ∈ chain.priorities, p = {}) :
    r.Later (chain.configure route r).2.2 ∧
      (chain.configure route r).2.1.Declared (chain.configure route r).2.2 := by
  induction chain with
  | base b => exact ⟨.refl r, fun _ hp => absurd hp List.not_mem_nil⟩
  | wrap outer inner ih =>
      have houter : ∀ p ∈ outer.priority?, p = {} := fun p hp =>
        hnew p (List.mem_append_right _ (Option.mem_toList.2 hp))
      have hinner : ∀ p ∈ inner.priorities, p = {} := fun p hp =>
        hnew p (List.mem_append_left _ hp)
      obtain ⟨hlater, hdeclared⟩ := ih hinner
      have hcoherent := (inner.configure_enlists route hr hinner).coherent
      rw [configure]
      generalize inner.configure route r = configured at hlater hdeclared hcoherent
      obtain ⟨result, inner', r'⟩ := configured
      have hunseated : ∀ outer' : Layer μ, (∀ p ∈ outer'.priority?, p = {}) →
          (Chain.wrap outer' inner').Declared r' := by
        intro outer' hempty p hp t ht
        rcases List.mem_append.1 hp with hp | hp
        · exact hdeclared p hp t ht
        · rw [hempty p (Option.mem_toList.1 hp)] at ht
          cases ht
      cases result with
      | error e => exact ⟨hlater, hunseated outer houter⟩
      | ok =>
          cases outer with
          | custom m =>
              refine ⟨hlater, hunseated (.custom (Stage.configure route m).2) fun p hp => ?_⟩
              cases hp
          | priority p =>
              obtain rfl := houter p rfl
              rcases PriorityLayer.configure_new route r' with ⟨e, he⟩ | ⟨c, hc, hok⟩
              · simp only [Layer.configure, he]
                exact ⟨hlater, hunseated (.priority {}) houter⟩
              · have hregister := hcoherent.later_register route.receiver c
                simp only [Layer.configure, hok]
                refine ⟨hlater.trans hregister, fun q hq t ht => ?_⟩
                rcases List.mem_append.1 hq with hold | hnew
                · exact hdeclared.later hregister q hold t ht
                · obtain rfl := List.mem_singleton.1 hnew
                  obtain rfl := Option.some.inj ht
                  have hdeclares := hcoherent.declares_register route.receiver c
                  rwa [PriorityLayer.declared_contenderOf hc] at hdeclares

theorem later_acceptInbound [Exponential] (now : Float) (message : Message) (chain : Chain β μ)
    (r : Registry) : r.Later (chain.acceptInbound now message r).2.2 := by
  have hlayer : ∀ (l : Layer μ) r', r.Later r' → r.Later (l.acceptInbound now message r').2.2 := by
    intro l r' hr'
    cases l with
    | custom m => exact hr'
    | priority p =>
        show r.Later (p.receive now r').2
        rw [PriorityLayer.receive]
        split
        · exact hr'
        · exact hr'.trans (Registry.later_receive r' _ now)
  exact chain.acceptInbound_preserves hlayer (.refl r)

end Chain

variable [Transport β] [Stage μ]

theorem Catalog.later_install (c : Catalog β μ) (side : Direction) (route : Route)
    (hr : r.Coherent) :
    r.Later (c.install side route r).2 ∧
      ∀ chain, (c.install side route r).1 = .ok chain →
        chain.Declared (c.install side route r).2 := by
  cases hinstall : c.install side route r with
  | mk result r' =>
      cases installing hinstall with
      | unbuilt hbuilt => exact ⟨.refl r, nofun⟩
      | @refused before after _ _ hbuilt hconfigured =>
          have hnew := priorities_build_new hbuilt
          have hlater := (before.later_configure route hr hnew).1
          have henlists := before.configure_enlists route hr hnew
          rw [hconfigured] at hlater henlists
          exact ⟨hlater.trans (after.later_release henlists.coherent), nofun⟩
      | @done before after _ hbuilt hconfigured =>
          obtain ⟨hlater, hdeclared⟩ :=
            before.later_configure route hr (priorities_build_new hbuilt)
          rw [hconfigured] at hlater hdeclared
          refine ⟨hlater, fun chain hchain => ?_⟩
          obtain rfl := Except.ok.inj hchain
          exact hdeclared

/-! ## Chains that let nothing through -/

namespace Chain

/-- Whether a chain has priority layers, all of them for inhibitory sources. -/
structure Muzzled (r : Registry) (chain : Chain β μ) : Prop where
  layered : chain.priorities ≠ []
  inhibitory : ∀ p ∈ chain.priorities, ∃ t c, p.registration? = some t ∧ c.inhibitory = true ∧
    r.Declares t c

omit [Transport β] [Stage μ] in
theorem Muzzled.later {chain : Chain β μ} (h : chain.Muzzled r) (hlater : r.Later r') :
    chain.Muzzled r' where
  layered := h.layered
  inhibitory p hp := by
    obtain ⟨t, c, ht, hc, hdeclares⟩ := h.inhibitory p hp
    exact ⟨t, c, ht, hc, hdeclares.later hlater⟩

omit [Transport β] [Stage μ] in
theorem Muzzled.congr {chain chain' : Chain β μ} (h : chain.Muzzled r)
    (hlayers : chain'.priorities = chain.priorities) : chain'.Muzzled r :=
  ⟨hlayers ▸ h.layered, hlayers ▸ h.inhibitory⟩

/-- Whichever layer is asked first, one of the priority layers refuses at the latest. -/
theorem Muzzled.acceptInbound [Exponential] {chain : Chain β μ} (h : chain.Muzzled r) (now : Float)
    (message : Message) : (chain.acceptInbound now message r).1 = false := by
  induction chain with
  | base b => exact absurd rfl h.layered
  | wrap outer inner ih =>
      rw [Chain.acceptInbound]
      cases outer with
      | priority p =>
          obtain ⟨t, c, ht, hc, hdeclares⟩ :=
            h.inhibitory p (List.mem_append_right _ (List.mem_singleton_self p))
          have hrefused : (p.receive now r).1 ≠ .accepted := by
            rw [PriorityLayer.receive, ht]
            exact hdeclares.receive hc now
          simp only [Layer.acceptInbound, hrefused, decide_false]
      | custom m =>
          have hinner : inner.Muzzled r :=
            h.congr (List.append_nil inner.priorities).symm
          simp only [Layer.acceptInbound]
          cases (Stage.acceptInbound message m).1 with
          | false => rfl
          | true => exact ih hinner

end Chain

/-! ## Connections that deliver nothing -/

/-- Whether a receiving side has delivered nothing and has no chain that would let a message
through. -/
structure Inbound.Barred (r : Registry) (route : Route) (c : Inbound β μ) : Prop where
  route : c.route = route
  delivered : c.traffic.delivered = 0
  chain : ∀ chain, c.chain? = some chain → chain.Muzzled r

namespace Inbound.Barred

variable {route : Route} {c : Inbound β μ}

omit [Transport β] [Stage μ] in
theorem later (h : c.Barred r route) (hlater : r.Later r') : c.Barred r' route :=
  ⟨h.route, h.delivered, fun chain hchain => (h.chain chain hchain).later hlater⟩

omit [Transport β] [Stage μ] in
theorem of_closed (hroute : c.route = route) (hdelivered : c.traffic.delivered = 0)
    (hclosed : c.chain? = none) : c.Barred r route := by
  refine ⟨hroute, hdelivered, fun chain hchain => ?_⟩
  cases hclosed.symm.trans hchain

omit [Transport β] [Stage μ] in
theorem close (h : c.Barred r route) : (c.close r).1.Barred (c.close r).2 route := by
  rw [Inbound.close]
  split
  · exact h
  · exact .of_closed h.route h.delivered rfl

variable [Exponential]

theorem deliver (h : c.Barred r route) (now : Float) (payload : Bytes) :
    (c.deliver now payload r).1 = none ∧
      (c.deliver now payload r).2.1.Barred (c.deliver now payload r).2.2 route := by
  rw [Inbound.deliver]
  cases hchain : c.chain? with
  | none => exact ⟨rfl, .of_closed h.route h.delivered rfl⟩
  | some chain =>
      have hmuzzled := h.chain chain hchain
      have hrefused := hmuzzled.acceptInbound now ⟨c.route, payload⟩
      have hlayers := chain.priorities_acceptInbound now ⟨c.route, payload⟩ r
      have hlater := chain.later_acceptInbound now ⟨c.route, payload⟩ r
      dsimp only
      generalize chain.acceptInbound now ⟨c.route, payload⟩ r = asked at hrefused hlayers hlater
      obtain ⟨accepted, chain', r'⟩ := asked
      obtain rfl : accepted = false := hrefused
      refine ⟨rfl, h.route, h.delivered, fun chain hchain => ?_⟩
      obtain rfl := Option.some.inj hchain
      exact (hmuzzled.congr hlayers).later hlater

theorem receiveFrame (h : c.Barred r route) (now : Float) (frame : Bytes) :
    (∀ payload, (c.receiveFrame now frame r).1 ≠ .ok (some payload)) ∧
      (c.receiveFrame now frame r).2.1.Barred (c.receiveFrame now frame r).2.2 route := by
  rw [Inbound.receiveFrame]
  cases hchain : c.chain? with
  | none =>
      refine ⟨fun payload hpayload => ?_, .of_closed h.route h.delivered rfl⟩
      cases hpayload
  | some chain =>
      have hlayers := chain.priorities_readFrame frame
      dsimp only
      generalize chain.readFrame frame = read at hlayers
      obtain ⟨result, chain'⟩ := read
      have hread : ∀ chain'', some chain' = some chain'' → chain''.Muzzled r := by
        rintro _ ⟨⟩
        exact (h.chain chain hchain).congr hlayers
      cases result with
      | error e =>
          refine ⟨fun payload hpayload => ?_, h.route, h.delivered, hread⟩
          cases hpayload
      | ok payload =>
          have hbarred : Inbound.Barred r route { c with chain? := some chain' } :=
            ⟨h.route, h.delivered, hread⟩
          obtain ⟨hnone, hdelivered⟩ := hbarred.deliver now payload
          refine ⟨fun bytes hbytes => ?_, hdelivered⟩
          cases hnone.symm.trans (Except.ok.inj hbytes)

end Inbound.Barred

/-! ## Whatever happens to a switchboard -/

/-- What may happen to a switchboard and, past its connections, to its registry, as long as nobody
rewrites what is declared of a source. -/
inductive Deed (β μ : Type) where
  | perform (operation : Operation)
  | recatalog (c : Catalog β μ)
  | register (key : String) (c : Contender)
  | use (x : Registry.Use)

def Deed.replaces (label : String) : Deed β μ → Bool
  | .perform (.openInbound other _) | .perform (.dropInbound other) => other = label
  | _ => false

namespace Switchboard

variable {s : Switchboard β μ}

omit [Transport β] [Stage μ] in
theorem later_closing (c : Inbound β μ) (hr : r.Coherent) : r.Later (c.close r).2 := by
  rw [Inbound.close]
  split
  · exact .refl r
  · rename_i chain _
    exact chain.later_release hr

omit [Transport β] [Stage μ] in
theorem later_dropInbound (hr : s.registry.Coherent) (label : String) :
    s.registry.Later (s.dropInbound label).registry := by
  rw [dropInbound]
  split
  · exact .refl _
  · exact later_closing _ hr

omit [Transport β] [Stage μ] in
theorem later_dropOutbound (hr : s.registry.Coherent) (label : String) :
    s.registry.Later (s.dropOutbound label).registry := by
  rw [dropOutbound]
  split
  · exact .refl _
  · rename_i c _
    exact c.chain.later_release hr

theorem later_openInbound (hr : s.registry.Coherent) (label : String) (route : Route) :
    s.registry.Later (s.openInbound label route).2.registry := by
  have hdropped := later_dropInbound hr label
  have hcoherent := coherent_dropInbound hr label
  simp only [openInbound, Inbound.connect]
  generalize s.dropInbound label = b at hdropped hcoherent
  have hinstall := (b.catalog.later_install .recv route hcoherent).1
  generalize b.catalog.install .recv route b.registry = installed at hinstall
  obtain ⟨result, r'⟩ := installed
  cases result <;> exact hdropped.trans hinstall

theorem later_openOutbound (hr : s.registry.Coherent) (label : String) (route : Route) :
    s.registry.Later (s.openOutbound label route).2.registry := by
  have hdropped := later_dropOutbound hr label
  have hcoherent := coherent_dropOutbound hr label
  simp only [openOutbound, Outbound.connect]
  generalize s.dropOutbound label = b at hdropped hcoherent
  have hinstall := (b.catalog.later_install .send route hcoherent).1
  generalize b.catalog.install .send route b.registry = installed at hinstall
  obtain ⟨result, r'⟩ := installed
  cases result <;> exact hdropped.trans hinstall

variable [Exponential]

omit [Transport β] in
theorem later_asked [Transport β] {c : Inbound β μ} {now : Float} (hasked : c.Asked now r r') :
    r.Later r' := by
  rcases hasked with rfl | ⟨_, chain, message, _, _, rfl⟩
  · exact .refl _
  · exact chain.later_acceptInbound now message r

theorem later_perform (hr : s.registry.Coherent) (operation : Operation) :
    s.registry.Later (s.perform operation).registry := by
  cases operation with
  | openInbound label route => exact later_openInbound hr label route
  | openOutbound label route => exact later_openOutbound hr label route
  | deliver label now payload =>
      simp only [perform, History.step, deliver]
      split
      · exact .refl _
      · rename_i c _
        exact later_asked (c.asked_deliver now payload s.registry)
  | receiveFrame label now frame =>
      simp only [perform, History.step, receiveFrame]
      split
      · exact .refl _
      · rename_i c _
        exact later_asked (c.asked_receiveFrame now frame s.registry)
  | encode label payload =>
      show s.registry.Later (s.encode label payload).2.registry
      rw [s.registry_encode label payload]
      exact .refl _
  | close label =>
      simp only [perform, History.step, close]
      split
      · exact .refl _
      · exact later_closing _ hr
  | dropInbound label => exact later_dropInbound hr label
  | dropOutbound label => exact later_dropOutbound hr label

omit [Exponential] [Transport β] [Stage μ] in
theorem inbound?_put_of_ne (s : Switchboard β μ) (r : Registry) {label other : String}
    (hne : label ≠ other) (c : Inbound β μ) :
    inbound? { s with registry := r, inbound := Table.put other c s.inbound } label =
      s.inbound? label := by
  rw [inbound?, Table.lookup_put, if_neg hne]
  rfl

omit [Exponential] [Transport β] [Stage μ] in
theorem inbound?_dropInbound_of_ne (s : Switchboard β μ) {label other : String}
    (hne : label ≠ other) : (s.dropInbound other).inbound? label = s.inbound? label := by
  rw [dropInbound]
  split
  · rfl
  · rw [inbound?, Table.lookup_remove, if_neg hne]
    rfl

omit [Exponential] in
theorem inbound?_openInbound_of_ne (s : Switchboard β μ) {label other : String}
    (hne : label ≠ other) (route : Route) :
    (s.openInbound other route).2.inbound? label = s.inbound? label := by
  have hdropped := s.inbound?_dropInbound_of_ne hne
  rw [openInbound]
  generalize s.dropInbound other = b at hdropped
  split
  · exact hdropped
  · exact (inbound?_put_of_ne b _ hne _).trans hdropped

omit [Exponential] in
theorem inbound?_openOutbound (s : Switchboard β μ) (label other : String) (route : Route) :
    (s.openOutbound other route).2.inbound? label = s.inbound? label := by
  have hdropped : (s.dropOutbound other).inbound? label = s.inbound? label := by
    rw [dropOutbound]
    split <;> rfl
  rw [openOutbound]
  generalize s.dropOutbound other = b at hdropped
  split <;> exact hdropped

theorem inbound?_perform_of_ne (s : Switchboard β μ) {label : String} {operation : Operation}
    (hslot : operation.slot ≠ (.recv, label)) :
    (s.perform operation).inbound? label = s.inbound? label := by
  have hne : ∀ other, operation.slot = (.recv, other) → label ≠ other := by
    rintro other hother rfl
    exact hslot hother
  cases operation with
  | openInbound other route => exact s.inbound?_openInbound_of_ne (hne other rfl) route
  | openOutbound other route => exact s.inbound?_openOutbound label other route
  | deliver other now payload =>
      simp only [perform, History.step, deliver]
      split
      · rfl
      · exact s.inbound?_put_of_ne _ (hne other rfl) _
  | receiveFrame other now frame =>
      simp only [perform, History.step, receiveFrame]
      split
      · rfl
      · exact s.inbound?_put_of_ne _ (hne other rfl) _
  | encode other payload =>
      simp only [perform, History.step, encode]
      split <;> rfl
  | close other =>
      simp only [perform, History.step, close]
      split
      · rfl
      · exact s.inbound?_put_of_ne _ (hne other rfl) _
  | dropInbound other => exact s.inbound?_dropInbound_of_ne (hne other rfl)
  | dropOutbound other =>
      simp only [perform, History.step, dropOutbound]
      split <;> rfl

def act (s : Switchboard β μ) : Deed β μ → Switchboard β μ
  | .perform operation => s.perform operation
  | .recatalog c => { s with catalog := c }
  | .register key c => { s with registry := (s.registry.register key c).2 }
  | .use x => { s with registry := s.registry.use x }

def actAll (s : Switchboard β μ) (deeds : List (Deed β μ)) : Switchboard β μ :=
  deeds.foldl act s

theorem coherent_act (hr : s.registry.Coherent) (deed : Deed β μ) :
    (s.act deed).registry.Coherent := by
  cases deed with
  | perform operation => exact coherent_perform hr operation
  | recatalog c => exact hr
  | register key c => exact hr.register key c
  | use x => exact hr.use x

theorem coherent_actAll (hr : s.registry.Coherent) (deeds : List (Deed β μ)) :
    (s.actAll deeds).registry.Coherent := by
  induction deeds generalizing s with
  | nil => exact hr
  | cons deed deeds ih => exact ih (coherent_act hr deed)

theorem later_act (hr : s.registry.Coherent) (deed : Deed β μ) :
    s.registry.Later (s.act deed).registry := by
  cases deed with
  | perform operation => exact later_perform hr operation
  | recatalog c => exact .refl _
  | register key c => exact hr.later_register key c
  | use x => exact hr.later_use x

theorem later_actAll (hr : s.registry.Coherent) (deeds : List (Deed β μ)) :
    s.registry.Later (s.actAll deeds).registry := by
  induction deeds generalizing s with
  | nil => exact .refl _
  | cons deed deeds ih => exact (later_act hr deed).trans (ih (coherent_act hr deed))

def Silenced (s : Switchboard β μ) (label : String) (route : Route) : Prop :=
  ∃ c, s.inbound? label = some c ∧ c.Barred s.registry route

namespace Silenced

variable {label : String} {route : Route}

omit [Transport β] [Stage μ] [Exponential] in
theorem elsewhere {s' : Switchboard β μ} (h : s.Silenced label route)
    (hsame : s'.inbound? label = s.inbound? label) (hlater : s.registry.Later s'.registry) :
    s'.Silenced label route := by
  obtain ⟨c, hc, hbarred⟩ := h
  exact ⟨c, hsame.trans hc, hbarred.later hlater⟩

omit [Transport β] [Stage μ] [Exponential] in
theorem put {c : Inbound β μ} (hbarred : c.Barred r route) (s : Switchboard β μ) :
    Silenced { s with registry := r, inbound := Table.put label c s.inbound } label route := by
  refine ⟨c, ?_, hbarred⟩
  rw [inbound?, Table.lookup_put, if_pos rfl]

theorem deliver (h : s.Silenced label route) (now : Float) (payload : Bytes) :
    (s.deliver label now payload).1 = none ∧
      (s.deliver label now payload).2.Silenced label route := by
  obtain ⟨c, hc, hbarred⟩ := h
  obtain ⟨hnone, hafter⟩ := hbarred.deliver now payload
  simp only [Switchboard.deliver, hc]
  exact ⟨hnone, put hafter s⟩

theorem receiveFrame (h : s.Silenced label route) (now : Float) (frame : Bytes) :
    (∀ payload, (s.receiveFrame label now frame).1 ≠ .ok (some payload)) ∧
      (s.receiveFrame label now frame).2.Silenced label route := by
  obtain ⟨c, hc, hbarred⟩ := h
  obtain ⟨hnone, hafter⟩ := hbarred.receiveFrame now frame
  simp only [Switchboard.receiveFrame, hc]
  exact ⟨hnone, put hafter s⟩

omit [Transport β] [Stage μ] [Exponential] in
theorem close (h : s.Silenced label route) : (s.close label).Silenced label route := by
  obtain ⟨c, hc, hbarred⟩ := h
  simp only [Switchboard.close, hc]
  exact put hbarred.close s

theorem act (h : s.Silenced label route) (hr : s.registry.Coherent) {deed : Deed β μ}
    (hkept : deed.replaces label = false) : (s.act deed).Silenced label route := by
  have hlater := later_act hr deed
  cases deed with
  | recatalog c => exact h.elsewhere rfl hlater
  | register key c => exact h.elsewhere rfl hlater
  | use x => exact h.elsewhere rfl hlater
  | perform operation =>
      by_cases hslot : operation.slot = (.recv, label)
      case neg => exact h.elsewhere (s.inbound?_perform_of_ne hslot) hlater
      cases operation with
      | deliver other now payload =>
          obtain ⟨-, rfl⟩ := Prod.mk.inj hslot
          exact (h.deliver now payload).2
      | receiveFrame other now frame =>
          obtain ⟨-, rfl⟩ := Prod.mk.inj hslot
          exact (h.receiveFrame now frame).2
      | close other =>
          obtain ⟨-, rfl⟩ := Prod.mk.inj hslot
          exact h.close
      | openInbound other _ | dropInbound other =>
          have hother : ¬ other = label := of_decide_eq_false hkept
          exact absurd (Prod.mk.inj hslot).2 hother
      | openOutbound | encode | dropOutbound => cases (Prod.mk.inj hslot).1

theorem actAll (h : s.Silenced label route) (hr : s.registry.Coherent) {deeds : List (Deed β μ)}
    (hkept : ∀ deed ∈ deeds, deed.replaces label = false) :
    (s.actAll deeds).Silenced label route := by
  induction deeds generalizing s with
  | nil => exact h
  | cons deed deeds ih =>
      rw [List.forall_mem_cons] at hkept
      exact ih (h.act hr hkept.1) (coherent_act hr deed) hkept.2

end Silenced

/-! ## Opening -/

omit [Exponential] [Transport β] [Stage μ] in
/-- A chain that asks for priority layers and for inhibition lets nothing through. -/
theorem muzzled_of_installed {route : Route} {chain : Chain β μ}
    (h : Catalog.Installed route .recv r chain r') (hdeclared : chain.Declared r')
    (hasked : PriorityLayer.name ∈ route.spec.modifiers .recv)
    (hinhibit : route.spec.mentions "inhibit" = true ∨ route.spec.mentions "inhibitory" = true) :
    chain.Muzzled r' where
  layered := by
    intro hnone
    have hlength := h.length
    rw [hnone] at hlength
    exact absurd hasked (List.count_eq_zero.1 hlength.symm)
  inhibitory p hp := by
    obtain ⟨t, ht, _, hcontender⟩ := h.seated p hp
    refine ⟨t, p.contender, ht, ?_, hdeclared p hp t ht⟩
    rw [PriorityLayer.inhibitory_contenderOf hcontender, Bool.or_eq_true]
    exact hinhibit

omit [Exponential] in
theorem silenced_of_openInbound (hr : s.registry.Coherent) (hstock : s.catalog.Stock)
    {label : String} {route : Route}
    (hasked : PriorityLayer.name ∈ route.spec.modifiers .recv)
    (hinhibit : route.spec.mentions "inhibit" = true ∨ route.spec.mentions "inhibitory" = true)
    (hopened : (s.openInbound label route).1 = .ok ()) :
    (s.openInbound label route).2.Silenced label route := by
  have hcatalog : (s.dropInbound label).catalog = s.catalog := by
    rw [dropInbound]
    split <;> rfl
  have hcoherent := coherent_dropInbound hr label
  have hdeclared := ((s.dropInbound label).catalog.later_install .recv route hcoherent).2
  rw [← hcatalog] at hstock
  rcases hstock.install hcoherent .recv route with ⟨e, r', hinstall, _⟩ |
    ⟨chain, r', hinstall, hinstalled⟩
  · simp only [openInbound, Inbound.connect, hinstall] at hopened
    cases hopened
  · rw [hinstall] at hdeclared
    have hmuzzled := muzzled_of_installed hinstalled (hdeclared chain rfl) hasked hinhibit
    have hbarred : Inbound.Barred r' route ⟨route, some chain, {}⟩ := by
      refine ⟨rfl, rfl, ?_⟩
      rintro _ ⟨⟩
      exact hmuzzled
    rw [openInbound_of_install hinstall]
    exact Silenced.put hbarred _

/-- A receiving side that was opened, from a catalog with the stock priority layers, on a
specification that asks for at least one of them and names either key of inhibition, never delivers
anything: whatever happened before and whatever happens afterwards, on any connection, by any clock
readings and with any registrations given back by force, no message and no frame gets a payload
through it, and it counts no delivery. -/
theorem inhibitory_never_delivers {start : Catalog β μ} {before after : List (Deed β μ)}
    {label : String} {route : Route}
    (hstock : (actAll { catalog := start } before).catalog.Stock)
    (hasked : PriorityLayer.name ∈ route.spec.modifiers .recv)
    (hinhibit : route.spec.mentions "inhibit" = true ∨ route.spec.mentions "inhibitory" = true)
    (hopened : ((actAll { catalog := start } before).openInbound label route).1 = .ok ())
    (hkept : ∀ deed ∈ after, deed.replaces label = false) :
    let s := ((actAll { catalog := start } before).openInbound label route).2.actAll after
    (∃ c, s.inbound? label = some c ∧ c.route = route ∧ c.traffic.delivered = 0) ∧
      (∀ now payload, (s.deliver label now payload).1 = none) ∧
      ∀ now frame payload, (s.receiveFrame label now frame).1 ≠ .ok (some payload) := by
  have hr : (actAll { catalog := start } before).registry.Coherent :=
    coherent_actAll Registry.Coherent.empty before
  have hr' := coherent_perform hr (.openInbound label route)
  have hsilenced := (silenced_of_openInbound hr hstock hasked hinhibit hopened).actAll hr' hkept
  refine ⟨?_, fun now payload => (hsilenced.deliver now payload).1,
    fun now frame => (hsilenced.receiveFrame now frame).1⟩
  obtain ⟨c, hc, hbarred⟩ := hsilenced
  exact ⟨c, hc, hbarred.route, hbarred.delivered⟩

omit [Exponential] in
theorem inhibitory_never_delivers_guard :
    let _ : Exponential := ⟨fun _ => 0⟩
    let cam : Route := ⟨"/cam:o", "/door:i", "tcp+recv.priority+level.5+time.2"⟩
    let guard : Route := ⟨"/guard:o", "/door:i", "tcp+inhibit+time.2+recv.priority+recv.priority"⟩
    let start : Catalog Empty Empty := .standard
    let before : List (Deed Empty Empty) := [
      .register "/door:i" { source := "/fan:o", level := 1, timeConstant := 1 }]
    let after : List (Deed Empty Empty) := [
      .perform (.openInbound "cam" cam), .perform (.deliver "guard" 1 [78]),
      .perform (.deliver "cam" 2 [79]), .use (.deregister "/door:i" ⟨3⟩),
      .perform (.deliver "guard" 0 [80])]
    let opening := (actAll { catalog := start } before).openInbound "guard" guard
    let s := opening.2.actAll after
    start.Stock ∧ PriorityLayer.name ∈ guard.spec.modifiers .recv ∧
      guard.spec.mentions "inhibit" = true ∧ opening.1 = .ok () ∧
      (∀ deed ∈ after, deed.replaces "guard" = false) ∧
      (s.deliver "guard" 3 [81]).1 = none ∧
      ∃ c, s.inbound? "guard" = some c ∧ c.traffic.delivered = 0 := by
  intro _ cam guard start before after opening s
  have hasked : PriorityLayer.name ∈ guard.spec.modifiers .recv := by decide +kernel
  have hinhibit : guard.spec.mentions "inhibit" = true := by decide +kernel
  have hok : opening.1.isOk = true := by decide +kernel
  have hopened : opening.1 = .ok () := by
    cases hopening : opening.1 with
    | ok => rfl
    | error e =>
        rw [hopening] at hok
        cases hok
  have hkept : ∀ deed ∈ after, deed.replaces "guard" = false := by decide +kernel
  have hstock : (actAll { catalog := start } before).catalog.Stock := .standard
  obtain ⟨⟨c, hc, _, hdelivered⟩, hnone, _⟩ :=
    inhibitory_never_delivers hstock hasked (Or.inl hinhibit) hopened hkept
  exact ⟨.standard, hasked, hinhibit, hopened, hkept, hnone 3 [81], c, hc, hdelivered⟩

end Switchboard

end PortArbiter
