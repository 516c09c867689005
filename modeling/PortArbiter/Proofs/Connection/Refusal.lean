import PortArbiter.Proofs.Connection.Membership
import PortArbiter.Proofs.Registry.Restored
/-!
# Refused connections

A chain is configured from the base outwards, so when a stage refuses the route, priority layers
below it have already registered. Giving up the chain gives back exactly these registrations.
-/

namespace PortArbiter

open Registry (Untouched Grown Shrunk Request Party)

variable {β μ : Type}

/-! ## Chains -/

theorem PriorityLayer.shrunk_release (p : PriorityLayer) {r r' : Registry} (h : r.Shrunk r')
    (hr' : r'.Coherent) : r.Shrunk (p.release r') := by
  rw [release]
  split
  · exact h
  · exact h.release hr' _

theorem Chain.shrunk_release (chain : Chain β μ) {r : Registry} (hr : r.Coherent) :
    r.Shrunk (chain.release r) := by
  induction chain with
  | base b => exact Shrunk.refl r
  | wrap outer inner ih =>
      cases outer with
      | priority p => exact p.shrunk_release ih (inner.coherent_release hr)
      | custom m => exact ih

variable [Stage μ]

theorem Catalog.priorities_wrapAll_new {c : Catalog β μ} {chain chain' : Chain β μ}
    {names : List String} (hbuilt : c.wrapAll chain names = .ok chain')
    (hnew : ∀ p ∈ chain.priorities, p = {}) : ∀ p ∈ chain'.priorities, p = {} := by
  induction names generalizing chain with
  | nil =>
      obtain rfl := Except.ok.inj hbuilt
      exact hnew
  | cons name names ih =>
      rw [wrapAll] at hbuilt
      cases hprototype : c.modifier? name with
      | none =>
          rw [hprototype] at hbuilt
          cases hbuilt
      | some prototype =>
          rw [hprototype] at hbuilt
          apply ih hbuilt
          intro p hp
          rcases List.mem_append.1 hp with hinner | houter
          · exact hnew p hinner
          · cases prototype with
            | priority q => exact List.mem_singleton.1 houter
            | custom m => cases houter

variable [Transport β]

theorem Catalog.priorities_build_new {c : Catalog β μ} {carrier : String} {side : Direction}
    {chain : Chain β μ} (hbuilt : c.build carrier side = .ok chain) :
    ∀ p ∈ chain.priorities, p = {} := by
  simp only [build] at hbuilt
  split at hbuilt
  · cases hbuilt
  · split at hbuilt
    · cases hbuilt
    · exact priorities_wrapAll_new hbuilt fun _ hp => absurd hp List.not_mem_nil

/-- Configuration only adds to the registry, however far it gets. -/
theorem Chain.grown_configure (route : Route) (chain : Chain β μ) {r : Registry}
    (hr : r.Coherent) (hnew : ∀ p ∈ chain.priorities, p = {}) :
    r.Grown (chain.configure route r).2.2 := by
  induction chain with
  | base b => exact Grown.refl r
  | wrap outer inner ih =>
      have hinner : ∀ p ∈ inner.priorities, p = {} := fun p hp =>
        hnew p (List.mem_append_left _ hp)
      have hgrown := ih hinner
      have hcoherent := (inner.configure_enlists route hr hinner).coherent
      rw [configure]
      generalize inner.configure route r = configured at hgrown hcoherent
      obtain ⟨result, inner', r'⟩ := configured
      cases result with
      | error e => exact hgrown
      | ok =>
          cases outer with
          | custom m => exact hgrown
          | priority p =>
              obtain rfl := hnew p (List.mem_append_right _ (List.mem_singleton_self p))
              rcases PriorityLayer.configure_new route r' with ⟨e, he⟩ | ⟨c, _, hok⟩
              · simp only [Layer.configure, he]
                exact hgrown
              · simp only [Layer.configure, hok]
                exact hgrown.register hcoherent route.receiver c

/-! ## Setting up -/

namespace Catalog

theorem coherent_install (c : Catalog β μ) (side : Direction) (route : Route) {r : Registry}
    (hr : r.Coherent) : (c.install side route r).2.Coherent := by
  cases hinstall : c.install side route r with
  | mk result r' =>
      cases installing hinstall with
      | unbuilt hbuilt => exact hr
      | @refused before after _ _ hbuilt hconfigured =>
          have henlists := before.configure_enlists route hr (priorities_build_new hbuilt)
          rw [hconfigured] at henlists
          exact after.coherent_release henlists.coherent
      | @done before _ _ hbuilt hconfigured =>
          have henlists := before.configure_enlists route hr (priorities_build_new hbuilt)
          rw [hconfigured] at henlists
          exact henlists.coherent

theorem untouched_of_install (c : Catalog β μ) {side : Direction} {route : Route}
    {r r' : Registry} {e : CarrierError} (hr : r.Coherent)
    (hrefused : c.install side route r = (.error e, r')) : r.Untouched r' := by
  cases installing hrefused with
  | unbuilt hbuilt => exact Untouched.refl r
  | @refused before after _ _ hbuilt hconfigured =>
      have hnew := priorities_build_new hbuilt
      have henlists := before.configure_enlists route hr hnew
      have hgrown := before.grown_configure route hr hnew
      rw [hconfigured] at henlists hgrown
      -- the layers that got to register are those that the chain gives back
      exact Untouched.of_roster hr henlists.coherent
        (after.coherent_release henlists.coherent) hgrown
        (after.shrunk_release henlists.coherent) henlists.roster_release

theorem install_of_map {c : Catalog β μ} {side : Direction} {route : Route} {r r' : Registry}
    {α : Type} {f : Chain β μ → α} {e : CarrierError}
    (h : ((c.install side route r).1.map f, (c.install side route r).2) = (.error e, r')) :
    c.install side route r = (.error e, r') := by
  obtain ⟨hmap, rfl⟩ := Prod.mk.inj h
  generalize c.install side route r = installed at hmap ⊢
  obtain ⟨result, r'⟩ := installed
  cases result with
  | ok chain => cases hmap
  | error e' =>
      cases hmap
      rfl

end Catalog

/-! ## Reachable registries -/

namespace Switchboard

variable [Exponential]

def perform (s : Switchboard β μ) (operation : Operation) : Switchboard β μ :=
  (History.step ⟨s, []⟩ operation).board

/-- The switchboards that a program can come to. It may change its catalog at any time, to one with
any modifiers. -/
inductive Reached : Switchboard β μ → Prop where
  | initial (c : Catalog β μ) : Reached { catalog := c }
  | perform {s : Switchboard β μ} (h : Reached s) (operation : Operation) :
      Reached (s.perform operation)
  | recatalog {s : Switchboard β μ} (h : Reached s) (c : Catalog β μ) :
      Reached { s with catalog := c }

omit [Stage μ] [Transport β] [Exponential] in
theorem coherent_close (i : Inbound β μ) {r : Registry} (h : r.Coherent) :
    (i.close r).2.Coherent := by
  rw [Inbound.close]
  split
  · exact h
  · rename_i chain _
    exact chain.coherent_release h

omit [Stage μ] [Transport β] [Exponential] in
theorem coherent_dropInbound {s : Switchboard β μ} (h : s.registry.Coherent) (label : String) :
    (s.dropInbound label).registry.Coherent := by
  rw [dropInbound]
  split
  · exact h
  · exact coherent_close _ h

omit [Stage μ] [Transport β] [Exponential] in
theorem coherent_dropOutbound {s : Switchboard β μ} (h : s.registry.Coherent) (label : String) :
    (s.dropOutbound label).registry.Coherent := by
  rw [dropOutbound]
  split
  · exact h
  · rename_i c _
    exact c.chain.coherent_release h

theorem coherent_perform {s : Switchboard β μ} (h : s.registry.Coherent) (operation : Operation) :
    (s.perform operation).registry.Coherent := by
  cases operation with
  | openInbound label route =>
      have hdropped := coherent_dropInbound h label
      simp only [perform, History.step, openInbound, Inbound.connect]
      generalize s.dropInbound label = s' at hdropped
      have hinstall := s'.catalog.coherent_install .recv route hdropped
      generalize s'.catalog.install .recv route s'.registry = installed at hinstall
      obtain ⟨result, r'⟩ := installed
      cases result <;> exact hinstall
  | openOutbound label route =>
      have hdropped := coherent_dropOutbound h label
      simp only [perform, History.step, openOutbound, Outbound.connect]
      generalize s.dropOutbound label = s' at hdropped
      have hinstall := s'.catalog.coherent_install .send route hdropped
      generalize s'.catalog.install .send route s'.registry = installed at hinstall
      obtain ⟨result, r'⟩ := installed
      cases result <;> exact hinstall
  | deliver label now payload =>
      simp only [perform, History.step, deliver]
      split
      · exact h
      · rename_i c _
        exact (c.kept_deliver now payload h).coherent
  | receiveFrame label now frame =>
      simp only [perform, History.step, receiveFrame]
      split
      · exact h
      · rename_i c _
        exact (c.kept_receiveFrame now frame h).coherent
  | encode label payload =>
      simp only [perform, History.step, encode]
      split <;> exact h
  | close label =>
      simp only [perform, History.step, close]
      split
      · exact h
      · exact coherent_close _ h
  | dropInbound label => exact coherent_dropInbound h label
  | dropOutbound label => exact coherent_dropOutbound h label

theorem Reached.coherent {s : Switchboard β μ} (h : s.Reached) : s.registry.Coherent := by
  induction h with
  | initial c => exact Registry.Coherent.empty
  | perform _ operation ih => exact coherent_perform ih operation
  | recatalog _ c ih => exact ih

end Switchboard

/-! ## Refusals -/

/-- Identities after a refusal: the old ones stay, and new ones come later by as many as it used. -/
def Registry.skip (r r' : Registry) (id : PeerId) : PeerId :=
  ⟨if id.number < r.nextPeer then id.number else id.number + (r'.nextPeer - r.nextPeer)⟩

theorem Registry.skip_lt (r r' : Registry) {a b : PeerId} (h : a.number < b.number) :
    (r.skip r' a).number < (r.skip r' b).number := by
  have hnumber : ∀ id, (r.skip r' id).number =
      if id.number < r.nextPeer then id.number else id.number + (r'.nextPeer - r.nextPeer) :=
    fun _ => rfl
  rw [hnumber, hnumber]
  split <;> split <;> omega

/-- A connection that is refused on either side, whatever its catalog, its route and the connections
before it, leaves every entry and every group of the registry as they were, and at most uses up
identities. Whoever holds registrations then gets the very answers that he would have got without
the attempt, as long as nobody registers; and after any registrations those same answers but for
identities that are given out after the attempt. -/
theorem Switchboard.Reached.untouched_of_refused [Exponential] {s : Switchboard β μ}
    (h : s.Reached) (c : Catalog β μ) (route : Route) {r' : Registry}
    (hrefused : (∃ e, Inbound.connect c route s.registry = (.error e, r')) ∨
      ∃ e, Outbound.connect c route s.registry = (.error e, r')) :
    s.registry.Untouched r' ∧
    (∀ tokens, (∀ t ∈ tokens, s.registry.Gave t) → ∀ requests, Party.registrations requests = 0 →
      Party.answers ⟨r', tokens⟩ requests = Party.answers ⟨s.registry, tokens⟩ requests) ∧
    ∃ ρ : PeerId → PeerId,
      (∀ a b, a.number < b.number → (ρ a).number < (ρ b).number) ∧
      (∀ id, id.number < s.registry.nextPeer → ρ id = id) ∧
      ∀ tokens, (∀ t ∈ tokens, s.registry.Gave t) → ∀ requests,
        Party.answers ⟨r', tokens⟩ requests =
          (Party.answers ⟨s.registry, tokens⟩ requests).map (Answer.rename ρ) := by
  obtain ⟨side, e, hinstall⟩ :
      ∃ side e, c.install side route s.registry = (.error e, r') := by
    rcases hrefused with ⟨e, he⟩ | ⟨e, he⟩
    · exact ⟨.recv, e, Catalog.install_of_map he⟩
    · exact ⟨.send, e, Catalog.install_of_map he⟩
  have hr := h.coherent
  have hr' : r'.Coherent := by
    have hcoherent := c.coherent_install side route hr
    rwa [hinstall] at hcoherent
  have huntouched := c.untouched_of_install hr hinstall
  refine ⟨huntouched, ?_, s.registry.skip r', fun a b => s.registry.skip_lt r', ?_, ?_⟩
  · intro tokens htokens requests hnone
    have hanswers : Party.answers ⟨r', tokens⟩ requests =
        (Party.answers ⟨s.registry, tokens⟩ requests).map (Answer.rename id) :=
      huntouched.answers hr hr' (fun _ _ heq => heq) (fun _ _ => rfl) htokens
        (by rw [hnone]; nofun)
    rw [hanswers, List.map_congr_left fun a _ => a.rename_id, List.map_id']
  · intro id hid
    exact congrArg PeerId.mk (if_pos hid)
  · intro tokens htokens requests
    apply huntouched.answers hr hr'
      (PeerId.injective_of_ascending fun a b => s.registry.skip_lt r')
      (fun id hid => congrArg PeerId.mk (if_pos hid)) htokens
    intro n _
    have hnew : ¬ s.registry.nextPeer + n < s.registry.nextPeer := by omega
    have hle := huntouched.nextPeer
    have hnumber : s.registry.nextPeer + n + (r'.nextPeer - s.registry.nextPeer) =
        r'.nextPeer + n := by omega
    exact congrArg PeerId.mk ((if_neg hnew).trans hnumber)

inductive Refuser where
  | refuser

instance : Stage Refuser where
  name _ := "refuser"
  fresh s := s
  configure _ s := (.error (.misconfigured "refuser" "no route suits"), s)

theorem Switchboard.Reached.untouched_of_refused_door :
    let _ : Exponential := ⟨fun _ => 0⟩
    let c : Catalog Empty Refuser := Catalog.standard.addModifier (.custom .refuser)
    let s := Switchboard.perform { catalog := c }
      (.openInbound "left" ⟨"/left:o", "/door:i", "tcp+recv.priority+level.2"⟩)
    let route : Route := ⟨"/right:o", "/door:i", "tcp+recv.priority+recv.priority+recv.refuser"⟩
    s.Reached ∧ ∃ e r', Inbound.connect c route s.registry = (.error e, r') ∧
      s.registry.nextPeer = 2 ∧ r'.nextPeer = 4 ∧ s.registry.Untouched r' := by
  intro _ c s route
  have hreached : s.Reached := .perform (.initial c) _
  have hfailed : (Inbound.connect c route s.registry).1.isOk = false := by decide +kernel
  have hnext : (Inbound.connect c route s.registry).2.nextPeer = 4 := by decide +kernel
  cases hconnect : Inbound.connect c route s.registry with
  | mk result r' =>
      rw [hconnect] at hfailed hnext
      cases result with
      | ok opened => cases hfailed
      | error e =>
          exact ⟨hreached, e, r', rfl, by decide +kernel, hnext,
            (hreached.untouched_of_refused c route (Or.inl ⟨e, hconnect⟩)).1⟩

end PortArbiter
