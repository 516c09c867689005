import PortArbiter.Carrier.Catalog
import PortArbiter.Proofs.Registry.Roster
/-!
# The priority layers of a chain

Of all the stages of a chain only its priority layers touch the registry. Configuring a chain adds
their members to the roster of the receiving port, the innermost first, releasing it takes the same
members away, and no message changes which layers a chain has or what they hold.
-/

namespace PortArbiter

def Layer.priority? {μ : Type} : Layer μ → Option PriorityLayer
  | .priority p => some p
  | .custom _ => none

namespace PriorityLayer

def member? (p : PriorityLayer) : Option Member :=
  p.registration?.map fun t => ⟨t.id, p.contender⟩

/-- A layer that is registered for a route, under the receiving port and as the contender that the
route describes. -/
def SeatedFor (route : Route) (p : PriorityLayer) : Prop :=
  ∃ t, p.registration? = some t ∧ t.key = route.receiver ∧ contenderOf route = .ok p.contender

theorem declared_contenderOf {route : Route} {c : Contender} (h : contenderOf route = .ok c) :
    c.declared = c := by
  unfold contenderOf at h
  dsimp only at h
  split at h
  · cases h
  · obtain rfl := Except.ok.inj h
    rfl

end PriorityLayer

namespace Chain

variable {β μ : Type}

/-- The priority layers of a chain, the innermost first. -/
def priorities : Chain β μ → List PriorityLayer
  | .base _ => []
  | .wrap outer inner => inner.priorities ++ outer.priority?.toList

def members (chain : Chain β μ) : List Member :=
  chain.priorities.filterMap PriorityLayer.member?

def KeyedBy (port : String) (chain : Chain β μ) : Prop :=
  ∀ p ∈ chain.priorities, ∀ t, p.registration? = some t → t.key = port

theorem members_wrap_priority (p : PriorityLayer) (inner : Chain β μ) :
    (Chain.wrap (.priority p) inner).members = inner.members ++ p.member?.toList := by
  rw [members, priorities, List.filterMap_append]
  show inner.members ++ [p].filterMap PriorityLayer.member? = _
  cases hmember : p.member? with
  | none => rw [List.filterMap_cons_none hmember]; rfl
  | some m => rw [List.filterMap_cons_some hmember]; rfl

theorem members_wrap_custom (m : μ) (inner : Chain β μ) :
    (Chain.wrap (.custom m) inner).members = inner.members := by
  rw [members, priorities]
  exact congrArg _ (List.append_nil _)

theorem KeyedBy.inner {port : String} {outer : Layer μ} {inner : Chain β μ}
    (h : (Chain.wrap outer inner).KeyedBy port) : inner.KeyedBy port :=
  fun p hp => h p (List.mem_append_left _ hp)

theorem keyedBy_of_seated {chain : Chain β μ} {route : Route}
    (h : ∀ p ∈ chain.priorities, p.SeatedFor route) : chain.KeyedBy route.receiver := by
  intro p hp t ht
  obtain ⟨t', ht', hkey, _⟩ := h p hp
  obtain rfl := Option.some.inj (ht.symm.trans ht')
  exact hkey

end Chain

/-! ## Releasing -/

namespace PriorityLayer

theorem coherent_release (p : PriorityLayer) {r : Registry} (h : r.Coherent) :
    (p.release r).Coherent := by
  rw [release]
  split
  · exact h
  · exact h.release _

theorem roster_release (p : PriorityLayer) {r : Registry} (h : r.Coherent) {port : String}
    (hkey : ∀ t, p.registration? = some t → t.key = port) (k : String) :
    (p.release r).roster k =
      if k = port then (r.roster k).filter (·.id ∉ p.member?.toList.map Member.id)
      else r.roster k := by
  rw [release, member?]
  cases hreg : p.registration? with
  | none =>
      show r.roster k = _
      split
      · exact (List.filter_eq_self.2 fun _ _ => rfl).symm
      · rfl
  | some t =>
      rw [h.roster_release, hkey t hreg]
      simp

end PriorityLayer

namespace Chain

variable {β μ : Type}

theorem coherent_release (chain : Chain β μ) {r : Registry} (h : r.Coherent) :
    (chain.release r).Coherent := by
  induction chain with
  | base b => exact h
  | wrap outer inner ih =>
      cases outer with
      | priority p => exact p.coherent_release ih
      | custom m => exact ih

theorem roster_release (chain : Chain β μ) {r : Registry} (h : r.Coherent) {port : String}
    (hkey : chain.KeyedBy port) (k : String) :
    (chain.release r).roster k =
      if k = port then (r.roster k).filter (·.id ∉ chain.members.map Member.id)
      else r.roster k := by
  induction chain with
  | base b =>
      split
      · exact (List.filter_eq_self.2 fun _ _ => rfl).symm
      · rfl
  | wrap outer inner ih =>
      cases outer with
      | priority p =>
          have hp : ∀ t, p.registration? = some t → t.key = port :=
            hkey p (List.mem_append_right _ (List.mem_singleton_self p))
          show (p.release (inner.release r)).roster k = _
          rw [p.roster_release (inner.coherent_release h) hp, ih hkey.inner, members_wrap_priority]
          split
          · rw [List.filter_filter, List.map_append]
            apply List.filter_congr
            intro m _
            rw [← Bool.decide_and, decide_eq_decide, List.mem_append, not_or, and_comm]
          · rfl
      | custom m =>
          show (inner.release r).roster k = _
          rw [ih hkey.inner, members_wrap_custom]

end Chain

/-! ## Configuring -/

/-- A new layer refuses a route and changes nothing, or registers as the contender of the route. -/
theorem PriorityLayer.configure_new (route : Route) (r : Registry) :
    (∃ e, configure {} route r = (.error e, {}, r)) ∨
      ∃ c, contenderOf route = .ok c ∧
        configure {} route r =
          (.ok (), ⟨c, some (r.register route.receiver c).1⟩,
            (r.register route.receiver c).2) := by
  unfold configure
  split
  · exact Or.inl ⟨_, rfl⟩
  · split
    · exact Or.inl ⟨_, rfl⟩
    · rename_i c hc
      exact Or.inr ⟨c, hc, rfl⟩

namespace Chain

variable {β μ : Type}

/-- What configuring a new chain does, whether all of its stages agree or one refuses: the priority
layers that were reached are seated, and their members stand at the end of the roster. -/
structure Enlists (route : Route) (r : Registry) (before : Chain β μ)
    (result : Except CarrierError Unit) (after : Chain β μ) (r' : Registry) : Prop where
  coherent : r'.Coherent
  roster : ∀ k, r'.roster k = r.roster k ++ if k = route.receiver then after.members else []
  seated : ∀ p ∈ after.priorities, p = {} ∨ p.SeatedFor route
  length : after.priorities.length = before.priorities.length
  complete : result = .ok () → ∀ p ∈ after.priorities, p.SeatedFor route

/-- A layer that registers nothing, because it cannot or because it was not reached. -/
theorem Enlists.wrap_unseated {route : Route} {r r' : Registry} {inner inner' : Chain β μ}
    {outer outer' : Layer μ} {result result' : Except CarrierError Unit}
    (h : Enlists route r inner result inner' r')
    (hlength : outer'.priority?.toList.length = outer.priority?.toList.length)
    (hnew : ∀ p ∈ outer'.priority?, p = {})
    (hresult : result' = .ok () → result = .ok () ∧ outer'.priority? = none) :
    Enlists route r (.wrap outer inner) result' (.wrap outer' inner') r' where
  coherent := h.coherent
  roster := by
    have hmembers : (Chain.wrap outer' inner').members = inner'.members := by
      cases outer' with
      | custom m => exact members_wrap_custom m inner'
      | priority p =>
          rw [members_wrap_priority, hnew p rfl]
          exact List.append_nil _
    intro k
    rw [hmembers]
    exact h.roster k
  seated := by
    intro p hp
    rcases List.mem_append.1 hp with hinner | houter
    · exact h.seated p hinner
    · exact Or.inl (hnew p (Option.mem_toList.1 houter))
  length := by
    rw [priorities, priorities, List.length_append, List.length_append, h.length, hlength]
  complete := by
    intro hok p hp
    obtain ⟨hinner, hnone⟩ := hresult hok
    rw [priorities, hnone] at hp
    exact h.complete hinner p (by simpa using hp)

/-- A layer that registers behind the layers below it. -/
theorem Enlists.wrap_seated {route : Route} {r r' : Registry} {inner inner' : Chain β μ}
    {p : PriorityLayer} {c : Contender} (h : Enlists route r inner (.ok ()) inner' r')
    (hcontender : PriorityLayer.contenderOf route = .ok c) :
    Enlists route r (.wrap (.priority p) inner) (.ok ())
      (.wrap (.priority ⟨c, some (r'.register route.receiver c).1⟩) inner')
      (r'.register route.receiver c).2 := by
  have hseated : PriorityLayer.SeatedFor route ⟨c, some (r'.register route.receiver c).1⟩ :=
    ⟨_, rfl, rfl, hcontender⟩
  have hall : ∀ q ∈ (Chain.wrap (.priority ⟨c, some (r'.register route.receiver c).1⟩)
      inner').priorities, q.SeatedFor route := by
    intro q hq
    rcases List.mem_append.1 hq with hinner | houter
    · exact h.complete rfl q hinner
    · rw [List.mem_singleton.1 houter]
      exact hseated
  exact {
    coherent := h.coherent.register route.receiver c
    roster := by
      intro k
      rw [h.coherent.roster_register, h.roster, members_wrap_priority]
      split
      · rw [List.append_assoc]
        rfl
      · rw [List.append_nil]
    seated := fun q hq => Or.inr (hall q hq)
    length := by
      rw [priorities, priorities, List.length_append, List.length_append, h.length]
      rfl
    complete := fun _ => hall }

variable [Transport β] [Stage μ]

theorem configure_enlists (route : Route) (chain : Chain β μ) {r : Registry} (h : r.Coherent)
    (hnew : ∀ p ∈ chain.priorities, p = {}) :
    Enlists route r chain (chain.configure route r).1 (chain.configure route r).2.1
      (chain.configure route r).2.2 := by
  induction chain with
  | base b =>
      exact {
        coherent := h
        roster := fun k => by
          show r.roster k = r.roster k ++ if k = route.receiver then [] else []
          rw [ite_self, List.append_nil]
        seated := nofun
        length := rfl
        complete := nofun }
  | wrap outer inner ih =>
      have hinner := ih fun p hp => hnew p (List.mem_append_left _ hp)
      have houter : ∀ p ∈ outer.priority?, p = {} := fun p hp =>
        hnew p (List.mem_append_right _ (Option.mem_toList.2 hp))
      rw [configure]
      generalize inner.configure route r = configured at hinner
      obtain ⟨result, inner', r'⟩ := configured
      cases result with
      | error e => exact hinner.wrap_unseated rfl houter nofun
      | ok =>
          cases outer with
          | custom m => exact hinner.wrap_unseated rfl nofun fun _ => ⟨rfl, rfl⟩
          | priority p =>
              obtain rfl := houter p rfl
              rcases PriorityLayer.configure_new route r' with ⟨e, he⟩ | ⟨c, hc, hok⟩
              · simp only [Layer.configure, he]
                exact hinner.wrap_unseated rfl houter nofun
              · simp only [Layer.configure, hok]
                exact hinner.wrap_seated hc

end Chain

/-! ## Messages -/

namespace Layer

variable {μ : Type} [Stage μ]

theorem priority?_acceptInbound [Exponential] (now : Float) (message : Message) (l : Layer μ)
    (r : Registry) : (l.acceptInbound now message r).2.1.priority? = l.priority? := by
  cases l <;> rfl

theorem coherent_acceptInbound [Exponential] (now : Float) (message : Message) (l : Layer μ)
    {r : Registry} (h : r.Coherent) : (l.acceptInbound now message r).2.2.Coherent := by
  cases l with
  | custom m => exact h
  | priority p =>
      show (p.receive now r).2.Coherent
      rw [PriorityLayer.receive]
      split
      · exact h
      · exact h.receive _ now

theorem seats_acceptInbound [Exponential] (now : Float) (message : Message) (l : Layer μ)
    (r : Registry) (k : String) :
    ((l.acceptInbound now message r).2.2.roster k).map Member.seat =
      (r.roster k).map Member.seat := by
  cases l with
  | custom m => rfl
  | priority p =>
      show ((p.receive now r).2.roster k).map Member.seat = _
      rw [PriorityLayer.receive]
      split
      · rfl
      · exact Registry.seats_receive r _ now k

end Layer

namespace Chain

variable {β μ : Type} [Transport β]

theorem priorities_writeFrame (payload written : Bytes) (chain : Chain β μ) :
    (chain.writeFrame payload written).2.priorities = chain.priorities := by
  induction chain with
  | base b => rfl
  | wrap outer inner ih => exact congrArg (· ++ outer.priority?.toList) ih

theorem priorities_readFrame (frame : Bytes) (chain : Chain β μ) :
    (chain.readFrame frame).2.priorities = chain.priorities := by
  induction chain with
  | base b => rfl
  | wrap outer inner ih => exact congrArg (· ++ outer.priority?.toList) ih

variable [Stage μ]

theorem priorities_acceptInbound [Exponential] (now : Float) (message : Message)
    (chain : Chain β μ) (r : Registry) :
    (chain.acceptInbound now message r).2.1.priorities = chain.priorities := by
  induction chain generalizing r with
  | base b => rfl
  | wrap outer inner ih =>
      have houter := outer.priority?_acceptInbound now message r
      rw [acceptInbound]
      generalize outer.acceptInbound now message r = asked at houter
      obtain ⟨accepted, outer', r'⟩ := asked
      have hpriority : outer'.priority? = outer.priority? := houter
      cases accepted with
      | false =>
          show inner.priorities ++ outer'.priority?.toList = _
          rw [hpriority]
          rfl
      | true =>
          show (inner.acceptInbound now message r').2.1.priorities ++ outer'.priority?.toList = _
          rw [hpriority, ih]
          rfl

/-- What no layer breaks when it is asked for a message, the whole chain does not break. -/
theorem acceptInbound_preserves [Exponential] {holds : Registry → Prop} {now : Float}
    {message : Message}
    (hlayer : ∀ (l : Layer μ) r, holds r → holds (l.acceptInbound now message r).2.2)
    (chain : Chain β μ) {r : Registry} (h : holds r) :
    holds (chain.acceptInbound now message r).2.2 := by
  induction chain generalizing r with
  | base b => exact h
  | wrap outer inner ih =>
      have houter := hlayer outer r h
      rw [acceptInbound]
      generalize outer.acceptInbound now message r = asked at houter
      obtain ⟨accepted, outer', r'⟩ := asked
      cases accepted with
      | false => exact houter
      | true => exact ih houter

theorem coherent_acceptInbound [Exponential] (now : Float) (message : Message)
    (chain : Chain β μ) {r : Registry} (h : r.Coherent) :
    (chain.acceptInbound now message r).2.2.Coherent :=
  chain.acceptInbound_preserves (fun l _ hr => l.coherent_acceptInbound now message hr) h

theorem seats_acceptInbound [Exponential] (now : Float) (message : Message) (chain : Chain β μ)
    (r : Registry) (k : String) :
    ((chain.acceptInbound now message r).2.2.roster k).map Member.seat =
      (r.roster k).map Member.seat := by
  let holds (r' : Registry) : Prop := (r'.roster k).map Member.seat = (r.roster k).map Member.seat
  have hlayer : ∀ (l : Layer μ) r', holds r' → holds (l.acceptInbound now message r').2.2 :=
    fun l r' hr' => (l.seats_acceptInbound now message r' k).trans hr'
  exact chain.acceptInbound_preserves hlayer rfl

theorem priorities_transformInbound (payload : Bytes) (chain : Chain β μ) :
    (chain.transformInbound payload).2.priorities = chain.priorities := by
  induction chain generalizing payload with
  | base b => rfl
  | wrap outer inner ih =>
      cases outer with
      | priority p => exact congrArg (· ++ [p]) (ih payload)
      | custom m => exact congrArg (· ++ []) (ih payload)

theorem priorities_acceptOutbound (payload : Bytes) (chain : Chain β μ) :
    (chain.acceptOutbound payload).2.priorities = chain.priorities := by
  induction chain with
  | base b => rfl
  | wrap outer inner ih =>
      cases outer with
      | priority p => exact congrArg (· ++ [p]) ih
      | custom m =>
          rw [acceptOutbound, Layer.acceptOutbound]
          rcases Stage.acceptOutbound payload m with ⟨accepted, m'⟩
          cases accepted with
          | false => rfl
          | true => exact congrArg (· ++ []) ih

theorem priorities_transformOutbound (payload : Bytes) (chain : Chain β μ) :
    (chain.transformOutbound payload).2.priorities = chain.priorities := by
  induction chain generalizing payload with
  | base b => rfl
  | wrap outer inner ih =>
      cases outer with
      | priority p => exact congrArg (· ++ [p]) (ih payload)
      | custom m => exact congrArg (· ++ []) (ih _)

end Chain

end PortArbiter
