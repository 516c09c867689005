import PortArbiter.Proofs.Connection.Inhibitory
import PortArbiter.Proofs.Priority.Unheard
import PortArbiter.Proofs.Priority.Decay
/-!
# Messages that are held back on their way in

The stages of a chain are asked for a message from the outside inwards, and each priority layer
settles it with its group as soon as it is asked. When a stage further in holds the message back,
the layers outside of it have let it through already. So among the layers of one connection whose
arrival only such messages refresh, it is refreshed for these, and for no other.
-/

namespace PortArbiter

open Registry (Declares)

variable {β μ : Type} {r : Registry} {t u : Registration} {now : Float}

/-! ## Recording the messages of a registration -/

theorem Group.find?_observe_of_ne {id other : PeerId} (hne : other ≠ id) (g : Group) (now : Float) :
    (g.observe id now).find? other = g.find? other := by
  have hobserve : (g.observe id now).only (· ≠ id) = g.only (· ≠ id) :=
    only_update_of_hidden (not_not.2 rfl) g _
  have hvisible : ∀ x : Group, (x.only (· ≠ id)).find? other = x.find? other := fun x =>
    @find?_only (· ≠ id) _ other hne x
  rw [← hvisible, hobserve, hvisible]

namespace Registry

def arrival? (r : Registry) (t : Registration) : Option Float :=
  ((r.group t.group).find? t.id).bind (·.contender.arrival?)

def hear (r : Registry) (t : Registration) (now : Float) : Registry :=
  r.modifyGroup t.group (·.observe t.id now)

theorem group_hear (r : Registry) (t : Registration) (now : Float) (g : GroupId) :
    (r.hear t now).group g = if g = t.group then (r.group g).observe t.id now else r.group g := by
  rw [hear]
  split
  · rename_i hg
    subst hg
    by_cases hfounded : r.Founded t.group
    · exact group_modifyGroup_self _ hfounded
    · rw [modifyGroup_of_not_founded _ hfounded, group_eq_of_not_founded hfounded]
      rfl
  · rename_i hg
    exact group_modifyGroup_of_ne r _ hg

theorem ids_hear (r : Registry) (t : Registration) (now : Float) (g : GroupId) :
    ((r.hear t now).group g).ids = (r.group g).ids := by
  rw [group_hear]
  split
  · exact Group.ids_observe _ _ _
  · rfl

theorem arrival?_hear_self (hmem : t.id ∈ (r.group t.group).ids) (now : Float) :
    (r.hear t now).arrival? t = some now := by
  obtain ⟨m, hm, hid⟩ := List.mem_map.1 hmem
  obtain ⟨sender, hfind⟩ : ∃ sender, (r.group t.group).find? t.id = some sender :=
    Option.isSome_iff_exists.1 (List.find?_isSome.2 ⟨m, hm, decide_eq_true hid⟩)
  rw [arrival?, group_hear, if_pos rfl, Group.find?_observe_of_find? hfind now]
  rfl

theorem arrival?_hear_of_ne (hne : u.id ≠ t.id) (r : Registry) (now : Float) :
    (r.hear t now).arrival? u = r.arrival? u := by
  rw [arrival?, group_hear]
  split
  · rw [Group.find?_observe_of_ne hne]
    rfl
  · rfl

/-- Record a message for several registrations, the last one first. -/
def hearAll (r : Registry) (ts : List Registration) (now : Float) : Registry :=
  ts.foldr (fun t r => r.hear t now) r

theorem hearAll_append (r : Registry) (ts us : List Registration) (now : Float) :
    r.hearAll (ts ++ us) now = (r.hearAll us now).hearAll ts now :=
  List.foldr_append

theorem ids_hearAll (r : Registry) (ts : List Registration) (now : Float) (g : GroupId) :
    ((r.hearAll ts now).group g).ids = (r.group g).ids := by
  induction ts with
  | nil => rfl
  | cons t ts ih => exact (ids_hear _ t now g).trans ih

theorem arrival?_hearAll_of_not_mem {ts : List Registration} (h : u.id ∉ ts.map Registration.id)
    (r : Registry) (now : Float) : (r.hearAll ts now).arrival? u = r.arrival? u := by
  induction ts with
  | nil => rfl
  | cons t ts ih =>
      rw [List.map_cons, List.mem_cons, not_or] at h
      exact (arrival?_hear_of_ne h.1 _ now).trans (ih h.2)

theorem arrival?_hearAll_of_mem {ts : List Registration} (hids : (ts.map Registration.id).Nodup)
    (hmem : ∀ t ∈ ts, t.id ∈ (r.group t.group).ids) (now : Float) :
    ∀ t ∈ ts, (r.hearAll ts now).arrival? t = some now := by
  induction ts with
  | nil => exact List.forall_mem_nil _
  | cons t ts ih =>
      rw [List.map_cons, List.nodup_cons] at hids
      rw [List.forall_mem_cons] at hmem ⊢
      constructor
      · apply arrival?_hear_self
        rw [← hearAll, ids_hearAll]
        exact hmem.1
      · intro u hu
        have hne : u.id ≠ t.id := fun heq => hids.1 (heq ▸ List.mem_map_of_mem hu)
        exact (arrival?_hear_of_ne hne _ now).trans (ih hids.2 hmem.2 u hu)

theorem later_hearAll (r : Registry) (ts : List Registration) (now : Float) :
    r.Later (r.hearAll ts now) := by
  induction ts with
  | nil => exact .refl r
  | cons t ts ih =>
      exact ih.trans ((r.hearAll ts now).later_modifyGroup t.group
        (fun g => g.seats_observe_subset t.id now) fun _ => rfl)

/-! ## Messages that are decided on -/

variable [Exponential]

theorem receive_of_accepted (h : (r.receive t now).1 = .accepted) :
    t.id ∈ (r.group t.group).ids ∧ (r.receive t now).2 = r.hear t now := by
  have haccepted : ((r.group t.group).receive t.id now).1 = .accepted := h
  cases hfind : (r.group t.group).find? t.id with
  | none =>
      rw [Group.receive_of_find?_eq_none hfind] at haccepted
      cases haccepted
  | some m =>
      have hid : m.id = t.id := by simpa using List.find?_some hfind
      have hafter := Group.receive_snd_of_find? hfind now
      rw [if_pos (Or.inr haccepted)] at hafter
      refine ⟨hid ▸ List.mem_map_of_mem (List.mem_of_find?_eq_some hfind), ?_⟩
      show r.modifyGroup t.group (fun _ => ((r.group t.group).receive t.id now).2) = _
      rw [hafter]
      exact modifyGroup_const r t.group (·.observe t.id now)

omit [Exponential] in
theorem modifyGroup_id (r : Registry) (g : GroupId) : r.modifyGroup g id = r := by
  have hsame : r.groups.modify g.index id = r.groups := by
    apply Array.ext
    · exact Array.size_modify
    · intro i _ hi
      rw [Array.getElem_modify]
      split <;> rfl
  rw [modifyGroup, hsame]

/-- A message of a source that counts only what is let through changes nothing if it is not. -/
theorem receive_of_held_back {c : Contender} (hdeclares : r.Declares t c)
    (hc : c.refreshesAlways = false) (h : (r.receive t now).1 ≠ .accepted) :
    (r.receive t now).2 = r := by
  have hrefused : ((r.group t.group).receive t.id now).1 ≠ .accepted := h
  have hsame : ((r.group t.group).receive t.id now).2 = r.group t.group := by
    cases hfind : (r.group t.group).find? t.id with
    | none => rw [Group.receive_of_find?_eq_none hfind]
    | some m =>
        have hid : m.id = t.id := by simpa using List.find?_some hfind
        have hseat := List.mem_map_of_mem (f := Member.seat) (List.mem_of_find?_eq_some hfind)
        have hdeclared : m.contender.declared = c := hdeclares.2 m.seat hseat hid
        have hquiet : ¬ m.contender.refreshesAlways = true := by
          rw [← hdeclared] at hc
          exact Bool.eq_false_iff.1 hc
        rw [Group.receive_snd_of_find? hfind, if_neg (not_or.2 ⟨hquiet, hrefused⟩)]
  show r.modifyGroup t.group (fun _ => ((r.group t.group).receive t.id now).2) = r
  rw [hsame]
  exact (modifyGroup_const r t.group id).trans (r.modifyGroup_id t.group)

end Registry

/-! ## Chains -/

def Layer.registrations (l : Layer μ) : List Registration :=
  l.priority?.toList.filterMap PriorityLayer.registration?

theorem Layer.registry_acceptInbound [Stage μ] [Exponential] {c : Contender}
    (hc : c.refreshesAlways = false) {l : Layer μ}
    (hdeclares : ∀ t ∈ l.registrations, r.Declares t c)
    (now : Float) (message : Message) :
    ((l.acceptInbound now message r).1 = false → (l.acceptInbound now message r).2.2 = r) ∧
    ((l.acceptInbound now message r).1 = true →
      (∀ t ∈ l.registrations, t.id ∈ (r.group t.group).ids) ∧
        (l.acceptInbound now message r).2.2 = r.hearAll l.registrations now) := by
  cases l with
  | custom m => exact ⟨fun _ => rfl, fun _ => ⟨List.forall_mem_nil _, rfl⟩⟩
  | priority p =>
      cases hp : p.registration? with
      | none =>
          have hnone : (Layer.priority p : Layer μ).registrations = [] :=
            List.filterMap_cons_none hp
          have hsame : (p.receive now r).2 = r := by rw [PriorityLayer.receive, hp]
          rw [hnone]
          exact ⟨fun _ => hsame, fun _ => ⟨List.forall_mem_nil _, hsame⟩⟩
      | some t =>
          have hsome : (Layer.priority p : Layer μ).registrations = [t] :=
            List.filterMap_cons_some hp
          rw [hsome] at hdeclares ⊢
          simp only [Layer.acceptInbound, PriorityLayer.receive, hp, decide_eq_false_iff_not,
            decide_eq_true_eq, List.forall_mem_singleton]
          have hdeclared := hdeclares t (List.mem_singleton_self t)
          exact ⟨Registry.receive_of_held_back hdeclared hc, Registry.receive_of_accepted⟩

namespace Chain

def registrations (chain : Chain β μ) : List Registration :=
  chain.priorities.filterMap PriorityLayer.registration?

theorem registrations_wrap (outer : Layer μ) (inner : Chain β μ) :
    (Chain.wrap outer inner).registrations = inner.registrations ++ outer.registrations :=
  List.filterMap_append

theorem map_id_members (chain : Chain β μ) :
    chain.members.map Member.id = chain.registrations.map Registration.id := by
  rw [members, registrations, List.map_filterMap, List.map_filterMap]
  apply List.filterMap_congr
  intro p _
  rw [PriorityLayer.member?, Option.map_map]
  rfl

variable [Transport β] [Stage μ] [Exponential]

/-- The part of a chain, from the stage that holds a message back inwards, if there is such a
stage. -/
def stop? (now : Float) (message : Message) : Chain β μ → Registry → Option (Chain β μ)
  | .base b, _ => if (Stage.acceptInbound message b).1 then none else some (.base b)
  | .wrap outer inner, r =>
    match outer.acceptInbound now message r with
    | (false, _, _) => some (.wrap outer inner)
    | (true, _, r) => inner.stop? now message r

theorem stop?_eq_none_iff (now : Float) (message : Message) (chain : Chain β μ) (r : Registry) :
    chain.stop? now message r = none ↔ (chain.acceptInbound now message r).1 = true := by
  induction chain generalizing r with
  | base b =>
      rw [stop?, acceptInbound]
      cases (Stage.acceptInbound message b).1 <;> simp
  | wrap outer inner ih =>
      rw [stop?, acceptInbound]
      generalize outer.acceptInbound now message r = asked
      obtain ⟨accepted, outer', r'⟩ := asked
      cases accepted with
      | false => simp
      | true => exact ih r'

/-- What is left of a message that is held back: it is recorded for the layers outside of the stage
that holds it back. -/
theorem registry_of_stop? {c : Contender} (hc : c.refreshesAlways = false) {message : Message}
    {chain rest : Chain β μ} (hdeclares : ∀ t ∈ chain.registrations, r.Declares t c)
    (hstop : chain.stop? now message r = some rest) :
    ∃ passed, chain.registrations = rest.registrations ++ passed ∧
      (∀ t ∈ passed, t.id ∈ (r.group t.group).ids) ∧
      (chain.acceptInbound now message r).2.2 = r.hearAll passed now := by
  induction chain generalizing r with
  | base b =>
      rw [stop?, Option.ite_none_left_eq_some] at hstop
      obtain rfl := Option.some.inj hstop.2
      exact ⟨[], rfl, List.forall_mem_nil _, rfl⟩
  | wrap outer inner ih =>
      rw [registrations_wrap, List.forall_mem_append] at hdeclares
      obtain ⟨hinner, houter⟩ := hdeclares
      obtain ⟨hrefused, haccepted⟩ := Layer.registry_acceptInbound hc houter now message
      rw [stop?] at hstop
      rw [acceptInbound]
      generalize outer.acceptInbound now message r = asked at hstop hrefused haccepted
      obtain ⟨accepted, outer', r'⟩ := asked
      cases accepted with
      | false =>
          obtain rfl := Option.some.inj hstop
          exact ⟨[], (List.append_nil _).symm, List.forall_mem_nil _, hrefused rfl⟩
      | true =>
          obtain ⟨hmem, rfl⟩ := haccepted rfl
          have hlater := r.later_hearAll outer.registrations now
          obtain ⟨passed, hsplit, hmem', hafter⟩ :=
            ih (fun t ht => (hinner t ht).later hlater) hstop
          refine ⟨passed ++ outer.registrations, ?_, ?_, ?_⟩
          · rw [registrations_wrap, hsplit, List.append_assoc]
          · rw [List.forall_mem_append]
            exact ⟨fun t ht => r.ids_hearAll _ now _ ▸ hmem' t ht, hmem⟩
          · exact hafter.trans (r.hearAll_append passed outer.registrations now).symm

/-! ### Chains that are registered -/

/-- Whether the layers of a chain hold registrations of their own, all of which were made for one
contender. -/
structure RegisteredAs (r : Registry) (c : Contender) (chain : Chain β μ) : Prop where
  distinct : (chain.registrations.map Registration.id).Nodup
  declares : ∀ t ∈ chain.registrations, r.Declares t c

omit [Transport β] [Stage μ] [Exponential] in
theorem RegisteredAs.later {c : Contender} {chain chain' : Chain β μ} {r' : Registry}
    (h : chain.RegisteredAs r c) (hlayers : chain'.priorities = chain.priorities)
    (hlater : r.Later r') : chain'.RegisteredAs r' c := by
  have hsame : chain'.registrations = chain.registrations := by
    rw [registrations, hlayers, registrations]
  exact ⟨hsame ▸ h.distinct, fun t ht => (h.declares t (hsame ▸ ht)).later hlater⟩

/-- A message that is held back refreshes the arrivals of the layers outside of the stage that holds
it back, and no others. -/
theorem RegisteredAs.arrivals {c : Contender} {chain rest : Chain β μ} {message : Message}
    (h : chain.RegisteredAs r c) (hc : c.refreshesAlways = false)
    (hstop : chain.stop? now message r = some rest) :
    ∃ passed, chain.registrations = rest.registrations ++ passed ∧
      (∀ t ∈ rest.registrations,
        (chain.acceptInbound now message r).2.2.arrival? t = r.arrival? t) ∧
      ∀ t ∈ passed, (chain.acceptInbound now message r).2.2.arrival? t = some now := by
  obtain ⟨passed, hsplit, hmem, hregistry⟩ := registry_of_stop? hc h.declares hstop
  have hdistinct := h.distinct
  rw [hsplit, List.map_append, List.nodup_append] at hdistinct
  obtain ⟨-, hpassed, happart⟩ := hdistinct
  rw [hregistry]
  refine ⟨passed, hsplit, fun t ht => ?_, Registry.arrival?_hearAll_of_mem hpassed hmem now⟩
  apply Registry.arrival?_hearAll_of_not_mem
  exact fun hid => happart t.id (List.mem_map_of_mem ht) t.id hid rfl

end Chain

/-! ## Connections -/

theorem PriorityLayer.refreshesAlways_contenderOf {route : Route} {c : Contender}
    (h : contenderOf route = .ok c) (hadmitted : route.spec.value? "arrival" = some "admitted")
    (hinhibit : route.spec.mentions "inhibit" = false)
    (hinhibitory : route.spec.mentions "inhibitory" = false) : c.refreshesAlways = false := by
  simp only [contenderOf, hadmitted, hinhibit, hinhibitory, Bool.or_false, Bool.false_eq_true,
    false_and, if_false] at h
  obtain rfl := Except.ok.inj h
  rfl

variable [Transport β] [Stage μ]

theorem Catalog.registeredAs_install {c : Catalog β μ} {side : Direction} {route : Route}
    {chain : Chain β μ} {r' : Registry} {contender : Contender} (hr : r.Coherent)
    (h : c.install side route r = (.ok chain, r'))
    (hcontender : PriorityLayer.contenderOf route = .ok contender) :
    r'.Coherent ∧ chain.RegisteredAs r' contender := by
  have hdeclared := (c.later_install side route hr).2
  rw [h] at hdeclared
  cases installing h with
  | @done before _ _ hbuilt hconfigured =>
      have henlists := before.configure_enlists route hr (priorities_build_new hbuilt)
      rw [hconfigured] at henlists
      refine ⟨henlists.coherent, ?_, fun t ht => ?_⟩
      · have hnodup := henlists.coherent.roster_nodup route.receiver
        rw [henlists.roster, if_pos rfl, List.map_append, Chain.map_id_members] at hnodup
        exact (List.nodup_append.1 hnodup).2.1
      · obtain ⟨p, hp, hpt⟩ := List.mem_filterMap.1 ht
        obtain ⟨_, _, _, hp'⟩ := henlists.complete rfl p hp
        obtain rfl := Except.ok.inj (hp'.symm.trans hcontender)
        exact hdeclared chain rfl p hp t hpt

theorem Inbound.deliver_of_chain [Exponential] {c : Inbound β μ} {chain : Chain β μ}
    (h : c.chain? = some chain) (now : Float) (payload : Bytes) (r : Registry) :
    ((c.deliver now payload r).1 = none ↔
        (chain.acceptInbound now ⟨c.route, payload⟩ r).1 = false) ∧
      (c.deliver now payload r).2.2 = (chain.acceptInbound now ⟨c.route, payload⟩ r).2.2 := by
  simp only [deliver, h]
  generalize chain.acceptInbound now ⟨c.route, payload⟩ r = asked
  obtain ⟨accepted, chain', r'⟩ := asked
  cases accepted with
  | false => exact ⟨iff_of_true rfl rfl, rfl⟩
  | true => exact ⟨iff_of_false (Option.some_ne_none _) Bool.noConfusion, rfl⟩

namespace Switchboard

variable {s : Switchboard β μ} {label : String} {route : Route}

theorem install_of_openInbound (h : (s.openInbound label route).1 = .ok ()) :
    ∃ chain r', (s.dropInbound label).catalog.install .recv route (s.dropInbound label).registry =
      (.ok chain, r') := by
  simp only [openInbound, Inbound.connect] at h
  generalize (s.dropInbound label).catalog.install .recv route (s.dropInbound label).registry =
    installed at h
  obtain ⟨_ | chain, r'⟩ := installed
  · cases h
  · exact ⟨chain, r', rfl⟩

variable [Exponential]

theorem connected?_act (hr : s.registry.Coherent) {deed : Deed β μ}
    (hkept : deed.replaces label = false) {connection : Route × List PriorityLayer}
    (h : (s.act deed).connected? .recv label = some connection) :
    s.connected? .recv label = some connection := by
  cases deed with
  | recatalog c => exact h
  | register key c => exact h
  | use x => exact h
  | perform operation =>
      have hstep : (s.perform operation).connected? .recv label = some connection := h
      by_cases hslot : (.recv, label) = operation.slot
      case neg =>
        rwa [perform, History.connected?_step_of_ne (s := ⟨s, []⟩) hr operation hslot] at hstep
      cases operation with
      | deliver other now payload =>
          rwa [perform, History.connected?_step_of_reading (s := ⟨s, []⟩) hr _ rfl] at hstep
      | receiveFrame other now frame =>
          rwa [perform, History.connected?_step_of_reading (s := ⟨s, []⟩) hr _ rfl] at hstep
      | close other =>
          have hclosed := (s.connected?_close other .recv label).trans (if_pos hslot)
          cases hclosed.symm.trans hstep
      | openInbound other _ | dropInbound other =>
          have hother : ¬ other = label := of_decide_eq_false hkept
          exact absurd (Prod.mk.inj hslot).2.symm hother
      | openOutbound | encode | dropOutbound => cases (Prod.mk.inj hslot).1

theorem connected?_actAll (hr : s.registry.Coherent) {deeds : List (Deed β μ)}
    (hkept : ∀ deed ∈ deeds, deed.replaces label = false)
    {connection : Route × List PriorityLayer}
    (h : (s.actAll deeds).connected? .recv label = some connection) :
    s.connected? .recv label = some connection := by
  induction deeds generalizing s with
  | nil => exact h
  | cons deed deeds ih =>
      rw [List.forall_mem_cons] at hkept
      exact connected?_act hr hkept.1 (ih (coherent_act hr deed) hkept.2 h)

/-- The chain of a receiving side holds the registrations that it made when it was opened, as long
as it does not give way. -/
theorem registeredAs_of_opened (hr : s.registry.Coherent) {contender : Contender}
    (hcontender : PriorityLayer.contenderOf route = .ok contender)
    (hopened : (s.openInbound label route).1 = .ok ()) {after : List (Deed β μ)}
    (hkept : ∀ deed ∈ after, deed.replaces label = false) {c : Inbound β μ} {chain : Chain β μ}
    (hc : ((s.openInbound label route).2.actAll after).inbound? label = some c)
    (hchain : c.chain? = some chain) :
    c.route = route ∧
      chain.RegisteredAs ((s.openInbound label route).2.actAll after).registry contender := by
  obtain ⟨first, r', hinstall⟩ := install_of_openInbound hopened
  obtain ⟨hcoherent, hregistered⟩ :=
    Catalog.registeredAs_install (coherent_dropInbound hr label) hinstall hcontender
  have hconnected := connected?_openInbound_of_install hinstall
  have hregistry : (s.openInbound label route).2.registry = r' := by
    rw [openInbound_of_install hinstall]
  rw [← hregistry] at hcoherent hregistered
  have hlast : ((s.openInbound label route).2.actAll after).connected? .recv label =
      some (c.route, chain.priorities) := by
    rw [connected?_recv, hc, Option.bind_some, hchain]
    rfl
  have hfirst := connected?_actAll hcoherent hkept hlast
  obtain ⟨hroute, hlayers⟩ := Prod.mk.inj (Option.some.inj (hconnected.symm.trans hfirst))
  exact ⟨hroute.symm, hregistered.later hlayers.symm (later_actAll hcoherent after)⟩

/-- What a discarded message does to a connection whose sources count only what is let through. A
receiving side was opened, from any catalog, on a specification that asks for the arrival of
admitted messages and for no inhibition; anything may have happened before and since, short of
rewriting what is declared of sources. When it delivers nothing, some stage of its chain has held
the message back. The arrivals of that stage and of all layers inside of it are as before, and those
of the layers outside of it, which the message has passed, are its time. -/
theorem discarded_arrivals {start : Catalog β μ} {before after : List (Deed β μ)} {label : String}
    {route : Route} (hadmitted : route.spec.value? "arrival" = some "admitted")
    (hinhibit : route.spec.mentions "inhibit" = false)
    (hinhibitory : route.spec.mentions "inhibitory" = false)
    (hopened : ((actAll { catalog := start } before).openInbound label route).1 = .ok ())
    (hkept : ∀ deed ∈ after, deed.replaces label = false) (now : Float) (payload : Bytes) :
    let s := ((actAll { catalog := start } before).openInbound label route).2.actAll after
    ∀ s' c chain, s.inbound? label = some c → c.chain? = some chain →
      s.deliver label now payload = (none, s') →
      ∃ rest passed, chain.stop? now ⟨route, payload⟩ s.registry = some rest ∧
        chain.registrations = rest.registrations ++ passed ∧
        (∀ t ∈ rest.registrations, s'.registry.arrival? t = s.registry.arrival? t) ∧
        ∀ t ∈ passed, s'.registry.arrival? t = some now := by
  intro s s' c chain hc hchain hdiscarded
  have hr : (actAll { catalog := start } before).registry.Coherent :=
    coherent_actAll Registry.Coherent.empty before
  obtain ⟨contender, hcontender⟩ :
      ∃ contender, PriorityLayer.contenderOf route = .ok contender := by
    simp [PriorityLayer.contenderOf, hinhibit, hinhibitory]
  have hquiet : contender.refreshesAlways = false :=
    PriorityLayer.refreshesAlways_contenderOf hcontender hadmitted hinhibit hinhibitory
  obtain ⟨hroute, hregistered⟩ := registeredAs_of_opened hr hcontender hopened hkept hc hchain
  obtain ⟨hanswer, hregistry⟩ := Inbound.deliver_of_chain hchain now payload s.registry
  rw [hroute] at hanswer hregistry
  have hdelivery : (c.deliver now payload s.registry).1 = none ∧
      (c.deliver now payload s.registry).2.2 = s'.registry := by
    simp only [Switchboard.deliver, hc, Prod.mk.injEq] at hdiscarded
    exact ⟨hdiscarded.1, hdiscarded.2 ▸ rfl⟩
  cases hstop : chain.stop? now ⟨route, payload⟩ s.registry with
  | none =>
      have haccepted := (Chain.stop?_eq_none_iff now _ chain s.registry).1 hstop
      rw [hanswer.1 hdelivery.1] at haccepted
      cases haccepted
  | some rest =>
      obtain ⟨passed, hsplit, hrest, hpassed⟩ := hregistered.arrivals hquiet hstop
      rw [← hdelivery.2, hregistry]
      exact ⟨rest, passed, rfl, hsplit, hrest, hpassed⟩

end Switchboard

structure Gate where
  most : Nat

instance : Stage Gate where
  name _ := "gate"
  fresh s := s
  acceptInbound message s := (message.payload.length ≤ s.most, s)

def Gate.catalog : Catalog Empty Gate :=
  Catalog.standard.addModifier (.custom ⟨1⟩)

/-- A gate between two priority layers: the outer one is refreshed, the inner one is not. -/
theorem Switchboard.discarded_arrivals_gate :
    let _ : Exponential := ⟨Exponential.coarse⟩
    let route : Route := ⟨"/a", "/port1",
      "tcp+recv.priority+recv.gate+recv.priority+level.5+time.2+arrival.admitted"⟩
    let opening := (actAll { catalog := Gate.catalog } []).openInbound "a" route
    let after : List (Deed Empty Gate) := [.perform (.deliver "a" 0 [1])]
    let s := opening.2.actAll after
    opening.1 = .ok () ∧ ∃ s' c chain rest passed, s.inbound? "a" = some c ∧
      c.chain? = some chain ∧ s.deliver "a" 2 [1, 2] = (none, s') ∧
      chain.stop? 2 ⟨route, [1, 2]⟩ s.registry = some rest ∧
      chain.registrations = rest.registrations ++ passed ∧
      chain.registrations.length = 2 ∧ rest.registrations.length = 1 ∧
      (∀ t ∈ rest.registrations, s'.registry.arrival? t = s.registry.arrival? t) ∧
      ∀ t ∈ passed, s'.registry.arrival? t = some 2 := by
  intro _ route opening after s
  have hadmitted : route.spec.value? "arrival" = some "admitted" := by decide +kernel
  have hinhibit : route.spec.mentions "inhibit" = false := by decide +kernel
  have hinhibitory : route.spec.mentions "inhibitory" = false := by decide +kernel
  have hopened : opening.1 = .ok () := by decide +kernel
  have hkept : ∀ deed ∈ after, deed.replaces "a" = false := by decide +kernel
  have hnone : (s.deliver "a" 2 [1, 2]).1 = none := by decide +kernel
  have hopen : ((s.inbound? "a").bind Inbound.chain?).isSome = true := by decide +kernel
  have hlengths : ((s.inbound? "a").bind Inbound.chain?).map (fun chain =>
      (chain.registrations.length,
        (chain.stop? 2 ⟨route, [1, 2]⟩ s.registry).map (·.registrations.length))) =
      some (2, some 1) := by decide +kernel
  obtain ⟨chain, hbind⟩ := Option.isSome_iff_exists.1 hopen
  obtain ⟨c, hc, hchain⟩ := Option.bind_eq_some_iff.1 hbind
  cases hs' : s.deliver "a" 2 [1, 2] with
  | mk answer s' =>
      rw [hs'] at hnone
      obtain rfl : answer = none := hnone
      obtain ⟨rest, passed, hstop, hsplit, hrest, hpassed⟩ :=
        discarded_arrivals hadmitted hinhibit hinhibitory hopened hkept 2 [1, 2] s' c chain hc
          hchain
          hs'
      rw [hbind, Option.map_some, hstop, Option.map_some] at hlengths
      obtain ⟨hall, hsome⟩ := Prod.mk.inj (Option.some.inj hlengths)
      exact ⟨hopened, s', c, chain, rest, passed, hc, hchain, rfl, hstop, hsplit, hall,
        Option.some.inj hsome, hrest, hpassed⟩

/-- With the gate innermost, a message that is discarded refreshes the only layer. -/
theorem Switchboard.not_discarded_unheard :
    let _ : Exponential := ⟨Exponential.coarse⟩
    let route : Route := ⟨"/a", "/port1",
      "tcp+recv.gate+recv.priority+level.5+time.2+arrival.admitted"⟩
    let opening := ({ catalog := Gate.catalog } : Switchboard Empty Gate).openInbound "a" route
    let s := opening.2
    let delivery := s.deliver "a" 0 [1, 2]
    opening.1 = .ok () ∧ route.spec.value? "arrival" = some "admitted" ∧
      route.spec.mentions "inhibit" = false ∧ route.spec.mentions "inhibitory" = false ∧
      ¬ ∀ c chain, s.inbound? "a" = some c → c.chain? = some chain → delivery.1 = none →
        ∀ t ∈ chain.registrations, delivery.2.registry.arrival? t = s.registry.arrival? t := by
  intro _ route opening s delivery
  have hopen : ((s.inbound? "a").bind Inbound.chain?).isSome = true := by decide +kernel
  have harrivals : ((s.inbound? "a").bind Inbound.chain?).map (fun chain =>
      chain.registrations.map fun t =>
        (s.registry.arrival? t, delivery.2.registry.arrival? t)) = some [(none, some 0)] := by
    decide +kernel
  refine ⟨by decide +kernel, by decide +kernel, by decide +kernel, by decide +kernel, ?_⟩
  intro hall
  obtain ⟨chain, hbind⟩ := Option.isSome_iff_exists.1 hopen
  obtain ⟨c, hc, hchain⟩ := Option.bind_eq_some_iff.1 hbind
  rw [hbind, Option.map_some] at harrivals
  have hmem : (none, some 0) ∈ chain.registrations.map fun t =>
      (s.registry.arrival? t, delivery.2.registry.arrival? t) := by
    rw [Option.some.inj harrivals]
    exact List.mem_singleton_self _
  obtain ⟨t, ht, heq⟩ := List.mem_map.1 hmem
  obtain ⟨hbefore, hafter⟩ := Prod.mk.inj heq
  have hsame := hall c chain hc hchain (by decide +kernel) t ht
  rw [hbefore, hafter] at hsame
  cases hsame

end PortArbiter
