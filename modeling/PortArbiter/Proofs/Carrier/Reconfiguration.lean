import PortArbiter.Proofs.Carrier.Parameters
import PortArbiter.Proofs.Registry.Teardown
/-!
# Configuring a priority layer again

A priority layer that is configured for another route leaves the group that it is in and joins the
one of the new port, under a new identity. Where the two ports are the same, it leaves first, so a
layer that was alone there comes into a new group, and otherwise it goes to the end of the old one.
-/

namespace PortArbiter

namespace Registry

/-- Whether two registries differ by a move alone: some members are gone, and one has joined as a
contender, with what it got for registering. -/
structure Moved (gone : List PeerId) (t : Registration) (c : Contender) (r r' : Registry) :
    Prop where
  id : t.id = ⟨r.nextPeer⟩
  new : ∀ g, t.id ∉ (r.group g).ids
  nextPeer : r'.nextPeer = r.nextPeer + 1
  group : ∀ g, g ≠ t.group → r'.group g = (r.group g).only (· ∉ gone)
  /-- A key is given up when everybody in its group is gone. -/
  lookup : ∀ key g, key ≠ t.key →
    (r'.lookup key = some g ↔
      r.lookup key = some g ∧ ((r.group g).only (· ∉ gone)).members ≠ [])
  home : r'.lookup t.key = some t.group
  enrolled : ∀ key, r'.enrolled key =
    (r.enrolled key).filter (· ∉ gone) ++ if key = t.key then [t.id] else []
  /-- The new member stands last in the group of its key, a new one if nobody is left in the old. -/
  joined :
    (r.lookup t.key = some t.group ∧ ((r.group t.group).only (· ∉ gone)).members ≠ [] ∧
      r'.group t.group = ((r.group t.group).only (· ∉ gone)).join t.id c) ∨
    ((∀ g, r.lookup t.key = some g → ((r.group g).only (· ∉ gone)).members = []) ∧
      ¬ r.Founded t.group ∧ r'.group t.group = { endpoint := t.key, members := [⟨t.id, c⟩] })

theorem Coherent.enrolled_dismissAll {r : Registry} (h : r.Coherent) {xs : List Dismissal}
    (hxs : ∀ x ∈ xs, r.Homed x.registration) (key : String) :
    (r.dismissAll xs).enrolled key =
      (r.enrolled key).filter (· ∉ xs.map (·.registration.id)) := by
  obtain ⟨hleft, hshrunk⟩ := shrunk_dismissAll h xs
  have hlookup := hshrunk.lookup_eq_some_iff h hleft key
  have hroster : (r.dismissAll xs).roster key =
      (r.roster key).filter (·.id ∉ xs.map (·.registration.id)) := by
    have hgroup : ∀ g, ((r.dismissAll xs).group g).members =
        (r.group g).members.filter (·.id ∉ xs.map (·.registration.id)) := by
      intro g
      rw [h.dismissAll_eq_without hxs, group_without]
      rfl
    cases hnew : (r.dismissAll xs).lookup key with
    | some g =>
        rw [roster_of_lookup hnew, roster_of_lookup ((hlookup g).1 hnew).1, hgroup]
    | none =>
        rw [(hleft.roster_eq_nil_iff key).2 hnew]
        cases hold : r.lookup key with
        | none => rw [(h.roster_eq_nil_iff key).2 hold, List.filter_nil]
        | some g =>
            rw [roster_of_lookup hold, ← hgroup]
            apply Classical.byContradiction
            intro hne
            rw [(hlookup g).2 ⟨hold, fun hnil => hne hnil.symm⟩] at hnew
            cases hnew
  rw [← hleft.ids_roster, ← h.ids_roster, hroster, List.filter_map]
  rfl

theorem Coherent.moved_register {r : Registry} (h : r.Coherent) {xs : List Dismissal}
    (hxs : ∀ x ∈ xs, r.Homed x.registration) (key : String) (c : Contender) :
    Moved (xs.map (·.registration.id)) ((r.dismissAll xs).register key c).1 c r
      ((r.dismissAll xs).register key c).2 := by
  obtain ⟨hleft, hshrunk⟩ := shrunk_dismissAll h xs
  have hgroup : ∀ g, (r.dismissAll xs).group g =
      (r.group g).only (· ∉ xs.map (·.registration.id)) := by
    intro g
    rw [h.dismissAll_eq_without hxs, group_without]
  have hlookup := hshrunk.lookup_eq_some_iff h hleft
  have henrolled := h.enrolled_dismissAll hxs
  simp only [hgroup] at hlookup
  generalize r.dismissAll xs = left at hleft hshrunk hgroup hlookup henrolled
  rw [register_fst]
  have hid : (⟨left.nextPeer⟩ : PeerId) = ⟨r.nextPeer⟩ := congrArg PeerId.mk hshrunk.nextPeer
  exact {
    id := hid
    new := fun g => hid ▸ h.next_not_mem g
    nextPeer := by rw [nextPeer_register, hshrunk.nextPeer]
    group := fun g hg => (group_register_of_ne c hg).trans (hgroup g)
    lookup := by
      intro k g hk
      rw [lookup_register, if_neg hk]
      exact hlookup k g
    home := by
      rw [lookup_register]
      exact if_pos rfl
    enrolled := by
      intro k
      rw [enrolled_register, henrolled, hid]
    joined := by
      have htarget : (left.register key c).2.group (left.target key) =
          (left.host key).join ⟨left.nextPeer⟩ c :=
        group_register_target c fun _ => hleft.founded
      -- the key still has its group exactly if somebody is left in it
      cases hkey : left.lookup key with
      | some g =>
          left
          have hg : left.target key = g := by rw [target, hkey, Option.getD_some]
          obtain ⟨hold, hne⟩ := (hlookup key g).1 hkey
          rw [host, hkey, Option.elim_some, hgroup, hg] at htarget
          rw [hg]
          exact ⟨hold, hne, htarget⟩
      | none =>
          right
          have hg : left.target key = ⟨left.groups.size⟩ := by rw [target, hkey, Option.getD_none]
          rw [host, hkey, Option.elim_none] at htarget
          refine ⟨fun g hold => ?_, fun hfounded => ?_, htarget⟩
          · apply Classical.byContradiction
            intro hne
            rw [(hlookup key g).2 ⟨hold, hne⟩] at hkey
            cases hkey
          · have hstill := (hshrunk.outlived _ hfounded).1
            rw [hg] at hstill
            exact Nat.lt_irrefl _ hstill }

end Registry

namespace PriorityLayer

open Registry (Session Moved)

def ids (p : PriorityLayer) : List PeerId :=
  p.registration?.toList.map Registration.id

def dismissals (p : PriorityLayer) : List Registry.Dismissal :=
  p.registration?.toList.map .release

theorem release_eq_dismissAll (p : PriorityLayer) (r : Registry) :
    p.release r = r.dismissAll p.dismissals := by
  rw [release, dismissals]
  cases p.registration? <;> rfl

theorem ids_dismissals (p : PriorityLayer) :
    p.dismissals.map (·.registration.id) = p.ids := by
  rw [dismissals, List.map_map]
  rfl

theorem arrival?_contenderOf {route : Route} {c : Contender} (h : contenderOf route = .ok c) :
    c.arrival? = none := by
  rw [← declared_contenderOf h]
  rfl

/-- Configuring a layer is all or nothing, whatever was done to its registry before, whether the
layer has no registration, one in force, or one whose source somebody has deregistered. Where the
route has no receiving port or describes no contender, the layer and the registry stay as they are.
Otherwise the layer has the contender of the route and a registration under its receiving port, and
the registry differs by this move only: the former member is gone if it was still there, and a new
one that was never heard stands last in the group of the port. -/
theorem configure_moves [Exponential] (calls : List Registry.Call) (p : PriorityLayer)
    (hp : ∀ t, p.registration? = some t → t ∈ (Session.run {} calls).held) (route : Route) :
    let r := (Session.run {} calls).registry
    ((p.configure route r).1 = .ok () ↔ route.receiver ≠ "" ∧ ∃ c, contenderOf route = .ok c) ∧
    (∀ e, (p.configure route r).1 = .error e → (p.configure route r).2 = (p, r)) ∧
    ∀ p' r', p.configure route r = (.ok (), p', r') →
      ∃ c t, p' = ⟨c, some t⟩ ∧ contenderOf route = .ok c ∧ c.source = route.sender ∧
        c.arrival? = none ∧ t.key = route.receiver ∧ Moved p.ids t c r r' := by
  intro r
  have hcoherent : r.Coherent := (Session.Sound.initial.run calls).coherent
  have hhomed : ∀ x ∈ p.dismissals, r.Homed x.registration := by
    intro x hx
    obtain ⟨t, ht, rfl⟩ := List.mem_map.1 hx
    exact Session.homed_of_mem_held calls t (hp t (Option.mem_toList.1 ht))
  rcases p.configure_cases route r with ⟨e, he⟩ | ⟨c, hport, hc, hok⟩
  · have hrefused : ¬ (route.receiver ≠ "" ∧ ∃ c, contenderOf route = .ok c) := by
      rintro ⟨hport, c, hc⟩
      rw [configure, if_neg hport, hc] at he
      cases he
    rw [he]
    exact ⟨⟨nofun, fun h => absurd h hrefused⟩, fun _ _ => rfl, nofun⟩
  · rw [hok]
    refine ⟨⟨fun _ => ⟨hport, c, hc⟩, fun _ => rfl⟩, nofun, ?_⟩
    rintro _ _ ⟨⟩
    refine ⟨c, _, rfl, hc, (sane_contenderOf hc).2, arrival?_contenderOf hc, ?_, ?_⟩
    · rw [Registry.register_fst]
    · rw [release_eq_dismissAll, ← ids_dismissals]
      exact hcoherent.moved_register hhomed route.receiver c

/-- A layer that shares its port is configured for the same port once more, and for none. -/
theorem configure_moves_arm :
    let _ : Exponential := ⟨fun _ => 0⟩
    let c : Contender := { source := "/cam", level := 5, timeConstant := 2 }
    let s := Session.run {} [.register "/arm" c, .register "/arm" c]
    let t : Registration := ⟨"/arm", ⟨1⟩, ⟨0⟩⟩
    let p : PriorityLayer := ⟨c, some t⟩
    let route : Route := ⟨"/cam", "/arm", "tcp+recv.priority+level.2"⟩
    t ∈ s.held ∧ (s.registry.group ⟨0⟩).ids = [⟨1⟩, ⟨2⟩] ∧
      (∃ c' t' r', p.configure route s.registry = (.ok (), ⟨c', some t'⟩, r') ∧
        (r'.group ⟨0⟩).ids = [⟨2⟩, ⟨3⟩] ∧ Moved [⟨1⟩] t' c' s.registry r') ∧
      (p.configure { route with receiver := "" } s.registry).2 = (p, s.registry) := by
  intro _ c s t p route
  have hheld : t ∈ s.held := List.mem_cons_self
  have hp : ∀ t', p.registration? = some t' → t' ∈ s.held := by
    rintro _ ⟨⟩
    exact hheld
  obtain ⟨-, -, hmoved⟩ := configure_moves _ p hp route
  obtain ⟨-, hrefused, -⟩ := configure_moves _ p hp { route with receiver := "" }
  have hdone : (p.configure route s.registry).1.isOk = true := by decide +kernel
  have hids : ((p.configure route s.registry).2.2.group ⟨0⟩).ids = [⟨2⟩, ⟨3⟩] := by
    decide +kernel
  refine ⟨hheld, by decide +kernel, ?_, hrefused _ rfl⟩
  rcases hresult : p.configure route s.registry with ⟨e | _, p', r'⟩
  · rw [hresult] at hdone
    cases hdone
  · rw [hresult] at hids
    obtain ⟨c', t', rfl, -, -, -, -, hmoved⟩ := hmoved p' r' hresult
    exact ⟨c', t', r', rfl, hids, hmoved⟩

end PriorityLayer

end PortArbiter
