import PortArbiter.Proofs.Carrier.Priorities
import PortArbiter.Proofs.Float.Arithmetic
import PortArbiter.Proofs.Registry.Later
/-!
# The parameters that get into the registry

Whatever a specification says, the contender that is read from it has a level and a time constant
that are finite and not below zero, and an inhibitory one has a time constant above zero. So as long
as sources join by way of priority layers only, every member of every group is like that.
-/

namespace PortArbiter

/-! ## The contender of a specification -/

theorem Spec.number_finite (s : Spec) (key : String) : (s.number key 0).isFinite = true := by
  rw [number]
  split
  · decide +kernel
  · split
    · assumption
    · decide +kernel

/-- A contender with numbers that arbitration can work with. -/
structure Contender.Sane (c : Contender) : Prop where
  level_finite : c.level.isFinite = true
  level_nonneg : 0 ≤ c.level
  timeConstant_finite : c.timeConstant.isFinite = true
  timeConstant_nonneg : 0 ≤ c.timeConstant
  /-- An inhibitory contender takes part in the comparison of scores. -/
  timeConstant_pos : c.inhibitory = true → 0 < c.timeConstant

namespace PriorityLayer

open Double

theorem atLeastZero_magnitude {x : Float} (hx : x.isFinite = true) :
    (atLeastZero x).isFinite = true ∧ ¬ atLeastZero x < 0 := by
  rw [atLeastZero]
  split
  · exact ⟨by decide +kernel, by decide +kernel⟩
  · exact ⟨hx, ‹_›⟩

theorem not_lt_iff_le {x y : Float} (hx : x.isFinite = true) (hy : y.isFinite = true) :
    ¬ x < y ↔ y ≤ x := by
  constructor
  · exact float_le_of_not_lt (isNumber_of_isFinite hy) (isNumber_of_isFinite hx)
  · exact fun h hlt => Int.not_lt.2 (le_iff.1 h).2.2 (lt_iff.1 hlt).2.2

theorem not_le_iff_lt {x y : Float} (hx : x.isFinite = true) (hy : y.isFinite = true) :
    ¬ x ≤ y ↔ y < x := by
  rw [← not_lt_iff_le hy hx, Classical.not_not]

theorem sane_contenderOf {route : Route} {c : Contender} (h : contenderOf route = .ok c) :
    c.Sane ∧ c.source = route.sender := by
  have hzero : (0 : Float).isFinite = true := by decide +kernel
  obtain ⟨hlevel, hlevel₀⟩ := atLeastZero_magnitude (route.spec.number_finite "level")
  obtain ⟨htime, htime₀⟩ := atLeastZero_magnitude (route.spec.number_finite "time")
  unfold contenderOf at h
  dsimp only at h
  split at h
  · cases h
  · rename_i haccepted
    obtain rfl := Except.ok.inj h
    refine ⟨?_, rfl⟩
    exact {
      level_finite := hlevel
      level_nonneg := (not_lt_iff_le hlevel hzero).1 hlevel₀
      timeConstant_finite := htime
      timeConstant_nonneg := (not_lt_iff_le htime hzero).1 htime₀
      timeConstant_pos := fun hinhibitory =>
        (not_le_iff_lt htime hzero).1 fun hfloor => haccepted ⟨hinhibitory, hfloor⟩ }

end PriorityLayer

/-! ## Registries that sources join with leave only -/

namespace Registry

/-- Every member of every group is declared as `declared` says, and no group belongs to the port
without a name. -/
structure Peopled (declared : PeerId → Contender → Prop) (r : Registry) : Prop where
  founded : ∀ {key g}, r.lookup key = some g → r.Founded g
  lookup_empty : r.lookup "" = none
  endpoint : ∀ {g}, r.Founded g → (r.group g).endpoint ≠ ""
  seats : ∀ {g seat}, seat ∈ r.seats g → declared seat.1 seat.2

namespace Peopled

variable {declared declared' : PeerId → Contender → Prop} {r : Registry}

theorem empty : Peopled declared {} where
  founded := nofun
  lookup_empty := rfl
  endpoint hg := absurd hg (Nat.not_lt_zero _)
  seats := nofun

theorem mono (h : Peopled declared r) (himp : ∀ id c, declared id c → declared' id c) :
    Peopled declared' r :=
  { h with seats := fun hseat => himp _ _ (h.seats hseat) }

theorem register (h : Peopled declared r) {key : String} {c : Contender} (hkey : key ≠ "")
    (hnew : declared ⟨r.nextPeer⟩ c.declared) : Peopled declared (r.register key c).2 where
  founded := by
    intro k g hg
    rw [lookup_register] at hg
    split at hg
    · obtain rfl := Option.some.inj hg
      exact founded_register_target c fun _ => h.founded
    · exact founded_register (h.founded hg)
  lookup_empty := by
    rw [lookup_register, if_neg hkey.symm]
    exact h.lookup_empty
  endpoint := by
    intro g hg
    by_cases htarget : g = r.target key
    · rw [htarget, group_register_target c fun _ => h.founded, Group.endpoint_join, host]
      cases hlookup : r.lookup key with
      | none => exact hkey
      | some g' => exact h.endpoint (h.founded hlookup)
    · rw [group_register_of_ne c htarget]
      have hold := (founded_register_iff (fun _ => h.founded) g).1 hg
      exact h.endpoint (hold.resolve_right htarget)
  seats := by
    intro g seat hseat
    rcases mem_seats_register h.founded hseat with hold | ⟨_, rfl⟩
    · exact h.seats hold
    · exact hnew

theorem deregister (h : Peopled declared r) (key : String) (id : PeerId) :
    Peopled declared (r.deregister key id).2 where
  founded hg := (founded_deregister r key id _).2 (h.founded (Coherent.lookup_of_deregister hg))
  lookup_empty := by
    cases hlookup : (r.deregister key id).2.lookup "" with
    | none => rfl
    | some g =>
        rw [← h.lookup_empty]
        exact (Coherent.lookup_of_deregister hlookup).symm
  endpoint hg := by
    rw [endpoint_deregister]
    exact h.endpoint ((founded_deregister r key id _).1 hg)
  seats hseat := h.seats (r.seats_deregister_subset key id _ hseat)

/-- A change to a group that lets nobody in, such as a message or somebody's leaving. -/
theorem modifyGroup (h : Peopled declared r) (g : GroupId) {f : Group → Group}
    (hseats : ∀ x, (f x).members.map Member.seat ⊆ x.members.map Member.seat)
    (hend : ∀ x, (f x).endpoint = x.endpoint) : Peopled declared (r.modifyGroup g f) where
  founded hg := (founded_modifyGroup r g f _).2 (h.founded hg)
  lookup_empty := h.lookup_empty
  endpoint hg := by
    rw [endpoint_modifyGroup r g hend]
    exact h.endpoint ((founded_modifyGroup r g f _).1 hg)
  seats hseat := h.seats (r.seats_modifyGroup_subset g hseats _ hseat)

theorem leave (h : Peopled declared r) (g : GroupId) (id : PeerId) :
    Peopled declared (r.modifyGroup g (·.leave id)) :=
  h.modifyGroup g (fun x => x.seats_leave_subset id) fun _ => rfl

theorem use [Exponential] (h : Peopled declared r) (x : Use) : Peopled declared (r.use x) := by
  cases x with
  | deregister key id => exact h.deregister key id
  | observe g id now => exact h.modifyGroup g (fun x => x.seats_observe_subset id now) fun _ => rfl
  | receive g id now =>
      exact h.modifyGroup g (fun x => x.seats_receive_subset id now)
        fun x => x.endpoint_receive id now

theorem release (h : Peopled declared r) (p : PriorityLayer) : Peopled declared (p.release r) := by
  rw [PriorityLayer.release]
  split
  · exact h
  · exact h.deregister _ _

theorem receive [Exponential] (h : Peopled declared r) (p : PriorityLayer) (now : Float) :
    Peopled declared (p.receive now r).2 := by
  rw [PriorityLayer.receive]
  split
  · exact h
  · rw [receive_snd]
    exact h.use (.receive _ _ now)

end Peopled

end Registry

/-! ## Priority layers that share a registry -/

namespace PriorityLayer

theorem nextPeer_release (p : PriorityLayer) (r : Registry) :
    (p.release r).nextPeer = r.nextPeer := by
  rw [release]
  split
  · rfl
  · exact Registry.nextPeer_deregister r _ _

theorem nextPeer_receive [Exponential] (p : PriorityLayer) (now : Float) (r : Registry) :
    (p.receive now r).2.nextPeer = r.nextPeer := by
  rw [receive]
  split <;> rfl

/-- What a call of `configure` does to the registry: nothing, or it gives up the registration that
the layer has and makes one for the route. -/
theorem configure_cases (p : PriorityLayer) (route : Route) (r : Registry) :
    (∃ e, p.configure route r = (.error e, p, r)) ∨
      ∃ c, route.receiver ≠ "" ∧ contenderOf route = .ok c ∧
        p.configure route r =
          (.ok (), ⟨c, some ((p.release r).register route.receiver c).1⟩,
            ((p.release r).register route.receiver c).2) := by
  unfold configure
  split
  · exact Or.inl ⟨_, rfl⟩
  · split
    · exact Or.inl ⟨_, rfl⟩
    · rename_i hport _ c hc
      exact Or.inr ⟨c, hport, hc, rfl⟩

/-- Some priority layers with the registry that they share, and the route behind each identity that
was given to one of them. -/
structure Floor where
  registry : Registry := {}
  layers : List PriorityLayer := []
  admitted : List (PeerId × Route) := []

/-- What may happen to priority layers and to their registry, as long as nobody joins but by way of
a layer and nobody rewrites what is declared of a member. Layers are named by their places. -/
inductive Call where
  | create
  | configure (place : Nat) (route : Route)
  | receive (place : Nat) (now : Float)
  | drop (place : Nat)
  | use (x : Registry.Use)
  /-- Somebody strikes a member out of a group and leaves its registration alone. -/
  | leave (g : GroupId) (id : PeerId)

namespace Floor

def step [Exponential] (s : Floor) : Call → Floor
  | .create => { s with layers := s.layers ++ [{}] }
  | .configure place route =>
    match s.layers[place]? with
    | none => s
    | some p =>
      match p.configure route s.registry with
      | (.error _, p, registry) => { s with registry, layers := s.layers.set place p }
      | (.ok (), p, registry) =>
        { registry
          layers := s.layers.set place p
          admitted := s.admitted ++ (p.registration?.map fun t => (t.id, route)).toList }
  | .receive place now =>
    match s.layers[place]? with
    | none => s
    | some p => { s with registry := (p.receive now s.registry).2 }
  | .drop place =>
    match s.layers[place]? with
    | none => s
    | some p => { s with registry := p.release s.registry, layers := s.layers.eraseIdx place }
  | .use x => { s with registry := s.registry.use x }
  | .leave g id => { s with registry := s.registry.modifyGroup g (·.leave id) }

def run [Exponential] (s : Floor) (calls : List Call) : Floor :=
  calls.foldl step s

/-- Some route was admitted under an identity, and it describes a contender. -/
def Describes (s : Floor) (id : PeerId) (c : Contender) : Prop :=
  ∃ route, (id, route) ∈ s.admitted ∧ contenderOf route = .ok c

/-- Every member of the registry is as a route describes it, and no two routes were admitted under
one identity. -/
structure Sound (s : Floor) : Prop where
  peopled : s.registry.Peopled s.Describes
  admitted_nodup : (s.admitted.map Prod.fst).Nodup
  admitted_old : ∀ x ∈ s.admitted, x.1.number < s.registry.nextPeer

namespace Sound

theorem empty : Sound {} where
  peopled := .empty
  admitted_nodup := List.nodup_nil
  admitted_old := nofun

theorem of_registry {s s' : Floor} (h : s.Sound) (hadmitted : s'.admitted = s.admitted)
    (hnext : s'.registry.nextPeer = s.registry.nextPeer)
    (hpeopled : s'.registry.Peopled s.Describes) : s'.Sound where
  peopled := hpeopled.mono fun id c hdescribed => by rwa [Describes, hadmitted]
  admitted_nodup := hadmitted ▸ h.admitted_nodup
  admitted_old := by
    rw [hadmitted, hnext]
    exact h.admitted_old

theorem seat {s : Floor} (h : s.Sound) (p : PriorityLayer) (layers : List PriorityLayer)
    {route : Route} {c : Contender} (hport : route.receiver ≠ "")
    (hc : contenderOf route = .ok c) :
    Sound ⟨((p.release s.registry).register route.receiver c).2, layers,
      s.admitted ++ [(⟨s.registry.nextPeer⟩, route)]⟩ := by
  have hnext := nextPeer_release p s.registry
  exact {
    peopled := by
      have hold : (p.release s.registry).Peopled s.Describes := h.peopled.release p
      refine (hold.mono ?_).register hport ?_
      · rintro id c ⟨route, hmem, hroute⟩
        exact ⟨route, List.mem_append_left _ hmem, hroute⟩
      · rw [hnext, declared_contenderOf hc]
        exact ⟨route, List.mem_append_right _ (List.mem_singleton_self _), hc⟩
    admitted_nodup := by
      rw [List.map_append]
      refine List.nodup_append.2 ⟨h.admitted_nodup, List.nodup_singleton _, ?_⟩
      rintro id hid _ hnew rfl
      obtain ⟨x, hx, rfl⟩ := List.mem_map.1 hid
      have hsame : x.1 = ⟨s.registry.nextPeer⟩ := List.mem_singleton.1 hnew
      exact Nat.lt_irrefl _ (hsame ▸ h.admitted_old x hx)
    admitted_old := by
      intro x hx
      rw [Registry.nextPeer_register, hnext]
      rcases List.mem_append.1 hx with hold | hnew
      · exact Nat.lt_succ_of_lt (h.admitted_old x hold)
      · rw [List.mem_singleton.1 hnew]
        exact Nat.lt_succ_self _ }

variable [Exponential]

theorem step {s : Floor} (h : s.Sound) (call : Call) : (s.step call).Sound := by
  cases call with
  | create => exact h.of_registry rfl rfl h.peopled
  | configure place route =>
      rw [Floor.step]
      cases hlayer : s.layers[place]? with
      | none => exact h
      | some p =>
          rcases p.configure_cases route s.registry with ⟨e, he⟩ | ⟨c, hport, hc, hok⟩
          · simp only [he]
            exact h.of_registry rfl rfl h.peopled
          · simp only [hok, Option.map_some, Option.toList_some]
            show Sound ⟨_, _, s.admitted ++ [(⟨(p.release s.registry).nextPeer⟩, route)]⟩
            rw [nextPeer_release]
            exact h.seat p _ hport hc
  | receive place now =>
      rw [Floor.step]
      split
      · exact h
      · rename_i p _
        exact h.of_registry rfl (nextPeer_receive p now s.registry) (h.peopled.receive p now)
  | drop place =>
      rw [Floor.step]
      split
      · exact h
      · rename_i p _
        exact h.of_registry rfl (nextPeer_release p s.registry) (h.peopled.release p)
  | use x => exact h.of_registry rfl (Registry.nextPeer_use s.registry x) (h.peopled.use x)
  | leave g id => exact h.of_registry rfl rfl (h.peopled.leave g id)

theorem run {s : Floor} (h : s.Sound) (calls : List Call) : (s.run calls).Sound := by
  induction calls generalizing s with
  | nil => exact h
  | cons call calls ih => exact ih (h.step call)

end Sound

/-- Whatever happens to priority layers, on whatever routes they are configured, all members of all
groups are sane, each is named after the sender of the one route that was admitted under its
identity, and there is no group for the port without a name. -/
theorem run_sane [Exponential] (calls : List Call) :
    let s := run {} calls
    (∀ g, ∀ m ∈ (s.registry.group g).members, m.contender.Sane ∧
      ∃ route, (∀ route', (m.id, route') ∈ s.admitted ↔ route' = route) ∧
        m.contender.source = route.sender) ∧
      s.registry.lookup "" = none ∧
      ∀ g, s.registry.Founded g → (s.registry.group g).endpoint ≠ "" := by
  have h := Sound.empty.run calls
  refine ⟨?_, h.peopled.lookup_empty, fun _ => h.peopled.endpoint⟩
  intro g m hm
  obtain ⟨route, hadmitted, hroute⟩ := h.peopled.seats (List.mem_map_of_mem hm)
  obtain ⟨hsane, hsource⟩ := sane_contenderOf hroute
  refine ⟨⟨hsane.1, hsane.2, hsane.3, hsane.4, hsane.5⟩, route, fun route' => ?_, hsource⟩
  constructor
  · intro hother
    exact congrArg Prod.snd (List.inj_on_of_nodup_map h.admitted_nodup hother hadmitted rfl)
  · rintro rfl
    exact hadmitted

end Floor

end PriorityLayer

end PortArbiter
