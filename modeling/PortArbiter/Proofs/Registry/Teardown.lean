import PortArbiter.Proofs.Registry.Concealed
import PortArbiter.Proofs.Registry.Restored
import PortArbiter.Proofs.Registry.Session
/-!
# Registrations given back in any order

Giving a registration back, or deregistering its source by name, takes one member out of the
registry and nothing else. So what is left after many of them is the registry without their
members, whatever the order was, and a registration whose member is gone has no effect any more.
-/

namespace PortArbiter

/-! ## A registry without some of its members -/

theorem filter_not_mem_append {α : Type} (f : α → PeerId) (xs : List α) (ids ids' : List PeerId) :
    (xs.filter (f · ∉ ids)).filter (f · ∉ ids') = xs.filter (f · ∉ ids ++ ids') := by
  rw [List.filter_filter]
  apply List.filter_congr
  intro x _
  rw [← Bool.decide_and, decide_eq_decide, List.mem_append, not_or, and_comm]

def Entry.without? (ids : List PeerId) (e : Entry) : Option Entry :=
  let members := e.members.filter (· ∉ ids)
  if members = [] then none else some { e with members }

theorem Entry.without?_of_forall_not_mem {ids : List PeerId} {e : Entry} (hne : e.members ≠ [])
    (h : ∀ id ∈ e.members, id ∉ ids) : e.without? ids = some e := by
  have hall : e.members.filter (· ∉ ids) = e.members :=
    List.filter_eq_self.2 fun id hid => decide_eq_true (h id hid)
  rw [without?, hall]
  exact if_neg hne

theorem Entry.without?_append (ids ids' : List PeerId) (e : Entry) :
    (e.without? ids).bind (Entry.without? ids') = e.without? (ids ++ ids') := by
  have hfilter : (e.members.filter (· ∉ ids)).filter (· ∉ ids') =
      e.members.filter (· ∉ ids ++ ids') := filter_not_mem_append (fun id => id) e.members ids ids'
  rw [without?, without?, ← hfilter]
  by_cases hnone : e.members.filter (· ∉ ids) = []
  · simp only [hnone, if_true, Option.bind_none, List.filter_nil]
  · simp only [hnone, if_false, Option.bind_some, without?]

namespace Group

theorem only_of_forall_not_mem {g : Group} {ids : List PeerId} (h : ∀ id ∈ ids, id ∉ g.ids) :
    g.only (· ∉ ids) = g := by
  rw [only, List.filter_eq_self.2]
  intro m hm
  exact decide_eq_true fun hid => h m.id hid (List.mem_map_of_mem hm)

theorem only_only (g : Group) (ids ids' : List PeerId) :
    (g.only (· ∉ ids)).only (· ∉ ids') = g.only (· ∉ ids ++ ids') :=
  congrArg (Group.mk g.endpoint) (filter_not_mem_append Member.id g.members ids ids')

theorem leave_eq_only (g : Group) (id : PeerId) : g.leave id = g.only (· ∉ [id]) := by
  apply congrArg (Group.mk g.endpoint)
  apply List.filter_congr
  intro m _
  exact decide_eq_decide.2 (not_congr List.mem_singleton.symm)

end Group

namespace Registry

/-- The registry without some of its members: every group keeps the others, and a key whose group
is left without any is given up. -/
def without (r : Registry) (ids : List PeerId) : Registry where
  groups := r.groups.map (·.only (· ∉ ids))
  live := r.live.filterMap (Entry.without? ids)
  nextPeer := r.nextPeer

theorem group_without (r : Registry) (ids : List PeerId) (g : GroupId) :
    (r.without ids).group g = (r.group g).only (· ∉ ids) := by
  simp only [group, without, Array.getD_eq_getD_getElem?, Array.getElem?_map]
  cases r.groups[g.index]? <;> rfl

theorem group_getElem (r : Registry) {i : Nat} (hi : i < r.groups.size) :
    r.group ⟨i⟩ = r.groups[i] := by
  simp [group, Array.getD_eq_getD_getElem?, hi]

theorem without_append (r : Registry) (ids ids' : List PeerId) :
    (r.without ids).without ids' = r.without (ids ++ ids') := by
  have hgroups : (r.groups.map (·.only (· ∉ ids))).map (·.only (· ∉ ids')) =
      r.groups.map (·.only (· ∉ ids ++ ids')) := by
    rw [Array.map_map]
    exact Array.map_congr_left fun g _ => g.only_only ids ids'
  have hlive : (r.live.filterMap (Entry.without? ids)).filterMap (Entry.without? ids') =
      r.live.filterMap (Entry.without? (ids ++ ids')) := by
    rw [List.filterMap_filterMap]
    exact List.filterMap_congr fun e _ => e.without?_append ids ids'
  rw [without, without, without, hgroups, hlive]

/-- Which members are taken out is all that counts. -/
theorem without_congr (r : Registry) {ids ids' : List PeerId} (h : ∀ id, id ∈ ids ↔ id ∈ ids') :
    r.without ids = r.without ids' := by
  have hsame : (fun id : PeerId => decide (id ∉ ids)) = fun id => decide (id ∉ ids') :=
    funext fun id => decide_eq_decide.2 (not_congr (h id))
  have hgroup : (fun g : Group => g.only (· ∉ ids)) = fun g => g.only (· ∉ ids') :=
    funext fun g => congrArg (Group.mk g.endpoint)
      (List.filter_congr fun m _ => congrFun hsame m.id)
  have hentry : Entry.without? ids = Entry.without? ids' := by
    funext e
    rw [Entry.without?, Entry.without?, hsame]
  rw [without, without, hgroup, hentry]

namespace Coherent

variable {r : Registry}

theorem entryOf?_of_mem (h : Coherent r) {e : Entry} (he : e ∈ r.live) :
    r.entryOf? e.key = some e :=
  find?_of_nodup_map h.keys_nodup he

theorem not_mem_enrolled (h : Coherent r) {id : PeerId} (hid : ∀ g, id ∉ (r.group g).ids)
    (key : String) : id ∉ r.enrolled key := by
  rw [← h.ids_target]
  exact hid _

theorem without_of_forall_not_mem (h : Coherent r) {ids : List PeerId}
    (hids : ∀ id ∈ ids, ∀ g, id ∉ (r.group g).ids) : r.without ids = r := by
  have hgroups : r.groups.map (·.only (· ∉ ids)) = r.groups := by
    apply Array.ext
    · exact Array.size_map
    · intro i _ hi
      rw [Array.getElem_map]
      apply Group.only_of_forall_not_mem
      intro id hid
      exact r.group_getElem hi ▸ hids id hid ⟨i⟩
  have hlive : r.live.filterMap (Entry.without? ids) = r.live := by
    rw [List.filterMap_congr (g := some), List.filterMap_some]
    intro e he
    have hentry := h.entryOf?_of_mem he
    apply Entry.without?_of_forall_not_mem (h.members_ne_nil hentry)
    intro id hid hmem
    rw [← h.ids_group hentry] at hid
    exact hids id hmem e.group hid
  rw [without, hgroups, hlive]

/-! ## Giving back -/

theorem enrolled_of_homed (h : Coherent r) {t : Registration} (ht : r.Homed t) {g : GroupId}
    (hid : t.id ∈ (r.group g).ids) : t.id ∈ r.enrolled t.key := by
  obtain rfl := ht.home g hid
  rw [← h.ids_target, target, h.lookup_of_issued ht.issued hid]
  exact hid

theorem groups_leave (h : Coherent r) {key : String} {e : Entry} {id : PeerId}
    (hentry : r.entryOf? key = some e) (hmem : id ∈ e.members) :
    r.groups.modify e.group.index (·.leave id) = r.groups.map (·.only (· ∉ [id])) := by
  have hmine : id ∈ (r.group e.group).ids := h.ids_group hentry ▸ hmem
  apply Array.ext
  · rw [Array.size_modify, Array.size_map]
  · intro i hi _
    rw [Array.size_modify] at hi
    rw [Array.getElem_modify, Array.getElem_map]
    split
    · exact Group.leave_eq_only _ _
    · rename_i hindex
      symm
      apply Group.only_of_forall_not_mem
      intro other hsingle hother
      rw [List.mem_singleton.1 hsingle, ← group_getElem r hi] at hother
      exact hindex (congrArg GroupId.index (h.disjoint hmine hother))

/-- Only the entry that an identity is in changes, and goes with its last one. -/
theorem live_leave (h : Coherent r) {key : String} {e : Entry} {id : PeerId}
    (hentry : r.entryOf? key = some e) (hmem : id ∈ e.members) :
    (if (e.members.filter (· ≠ id)).isEmpty then r.live.filter (·.key ≠ key)
      else r.live.map fun x =>
        if x.key = key then { x with members := e.members.filter (· ≠ id) } else x) =
      r.live.filterMap (Entry.without? [id]) := by
  have hself : ∀ x ∈ r.live, x.key = key → x = e := fun x hx hkey =>
    Option.some.inj ((h.entryOf?_of_mem hx).symm.trans (hkey ▸ hentry))
  -- an identity is in one group only, so the entries of the other keys stay whole
  have hothers : ∀ x ∈ r.live, x.key ≠ key → x.without? [id] = some x := by
    intro x hx hkey
    have hx := h.entryOf?_of_mem hx
    apply Entry.without?_of_forall_not_mem (h.members_ne_nil hx)
    intro other hin hsingle
    rw [List.mem_singleton.1 hsingle, ← h.ids_group hx] at hin
    have hlookup := lookup_of_entryOf? hx
    rw [h.disjoint hin (h.ids_group hentry ▸ hmem)] at hlookup
    exact hkey (h.lookup_inj hlookup (lookup_of_entryOf? hentry))
  have hfilter : e.members.filter (· ≠ id) = e.members.filter (· ∉ [id]) :=
    List.filter_congr fun _ _ => decide_eq_decide.2 (not_congr List.mem_singleton.symm)
  split
  · rename_i hlast
    rw [List.isEmpty_iff, hfilter] at hlast
    rw [← List.filterMap_eq_filter]
    apply List.filterMap_congr
    intro x hx
    by_cases hkey : x.key = key
    · rw [hself x hx hkey, Option.guard, if_neg (by simpa using key_of_entryOf? hentry)]
      exact (if_pos hlast).symm
    · rw [hothers x hx hkey, Option.guard, if_pos (decide_eq_true hkey)]
  · rename_i hleft
    rw [List.isEmpty_iff, hfilter] at hleft
    rw [← List.filterMap_eq_map]
    apply List.filterMap_congr
    intro x hx
    by_cases hkey : x.key = key
    · rw [hself x hx hkey, Function.comp_apply, if_pos (key_of_entryOf? hentry), hfilter]
      exact (if_neg hleft).symm
    · rw [hothers x hx hkey, Function.comp_apply, if_neg hkey]

/-- Deregistering a source takes its member out, if it still has one. -/
theorem deregister_eq_without (h : Coherent r) {t : Registration} (ht : r.Homed t) :
    (r.deregister t.key t.id).2 = r.without [t.id] := by
  by_cases hid : t.id ∈ r.enrolled t.key
  · obtain ⟨e, hentry, hmem⟩ := exists_entry_of_mem hid
    simp only [Registry.deregister, hentry, hmem, if_true]
    rw [without, ← h.groups_leave hentry hmem, ← h.live_leave hentry hmem]
    rfl
  · rw [deregister_of_not_mem hid, h.without_of_forall_not_mem]
    intro id hsingle g hgroup
    rw [List.mem_singleton.1 hsingle] at hgroup
    exact hid (h.enrolled_of_homed ht hgroup)

end Coherent

/-! ## Many of them -/

/-- A step of giving registrations back: whoever holds one drops it, or somebody deregisters its
source by name. -/
inductive Dismissal where
  | release (t : Registration)
  | deregister (t : Registration)

namespace Dismissal

def registration : Dismissal → Registration
  | .release t => t
  | .deregister t => t

def released? : Dismissal → Option Registration
  | .release t => some t
  | .deregister _ => none

/-- Whether some steps give back exactly these registrations, each of them once. Their sources may
be deregistered by name besides, at any point and any number of times. -/
structure Covers (ts : List Registration) (xs : List Dismissal) : Prop where
  released : (xs.filterMap released?).Perm ts
  deregistered : ∀ t, .deregister t ∈ xs → t ∈ ts

theorem Covers.mem_registration_iff {ts : List Registration} {xs : List Dismissal}
    (h : Covers ts xs) (t : Registration) : t ∈ xs.map registration ↔ t ∈ ts := by
  constructor
  · intro ht
    obtain ⟨x, hx, rfl⟩ := List.mem_map.1 ht
    cases x with
    | release t => exact h.released.subset (List.mem_filterMap.2 ⟨_, hx, rfl⟩)
    | deregister t => exact h.deregistered t hx
  · intro ht
    obtain ⟨x, hx, hreleased⟩ := List.mem_filterMap.1 (h.released.symm.subset ht)
    cases x with
    | release t' => exact List.mem_map.2 ⟨_, hx, Option.some.inj hreleased⟩
    | deregister t' => cases hreleased

theorem Covers.mem_id_iff {ts : List Registration} {xs : List Dismissal} (h : Covers ts xs)
    (id : PeerId) : id ∈ xs.map (·.registration.id) ↔ id ∈ ts.map Registration.id := by
  have hmap : xs.map (·.registration.id) = (xs.map registration).map Registration.id := by
    rw [List.map_map]
    rfl
  rw [hmap, List.mem_map, List.mem_map]
  simp only [h.mem_registration_iff]

end Dismissal

def dismiss (r : Registry) : Dismissal → Registry
  | .release t => r.release t
  | .deregister t => (r.deregister t.key t.id).2

def dismissAll (r : Registry) (xs : List Dismissal) : Registry :=
  xs.foldl dismiss r

theorem dismiss_eq_release (r : Registry) (x : Dismissal) :
    r.dismiss x = r.release x.registration := by
  cases x <;> rfl

theorem shrunk_dismissAll {r : Registry} (h : r.Coherent) (xs : List Dismissal) :
    (r.dismissAll xs).Coherent ∧ r.Shrunk (r.dismissAll xs) := by
  induction xs using List.reverseRecOn with
  | nil => exact ⟨h, .refl r⟩
  | append_singleton xs x ih =>
      rw [dismissAll, List.foldl_append]
      show (dismiss (r.dismissAll xs) x).Coherent ∧ r.Shrunk (dismiss (r.dismissAll xs) x)
      rw [dismiss_eq_release]
      exact ⟨ih.1.release _, ih.2.release ih.1 _⟩

/-- After releases a key has its old group or none, and none only when nobody is left in it. -/
theorem Shrunk.lookup_eq_some_iff {r r' : Registry} (h : r.Shrunk r') (hr : r.Coherent)
    (hr' : r'.Coherent) (key : String) (g : GroupId) :
    r'.lookup key = some g ↔ r.lookup key = some g ∧ (r'.group g).members ≠ [] := by
  constructor
  · intro hg
    refine ⟨h.lookup key g hg, ?_⟩
    rw [← roster_of_lookup hg, ne_eq, hr'.roster_eq_nil_iff, hg]
    exact Option.some_ne_none g
  · rintro ⟨hg, hne⟩
    apply Classical.byContradiction
    intro hgone
    apply hne
    rw [Group.members_eq_nil_iff]
    apply hr'.retired
    intro k hk
    obtain rfl := hr.lookup_inj (h.lookup k g hk) hg
    exact hgone hk

theorem Coherent.dismissAll_eq_without {r : Registry} (h : r.Coherent) {xs : List Dismissal}
    (hxs : ∀ x ∈ xs, r.Homed x.registration) :
    r.dismissAll xs = r.without (xs.map (·.registration.id)) := by
  induction xs generalizing r with
  | nil => exact (h.without_of_forall_not_mem fun _ hid => absurd hid List.not_mem_nil).symm
  | cons x xs ih =>
      rw [List.forall_mem_cons] at hxs
      have hstep : r.dismiss x = r.without [x.registration.id] := by
        rw [dismiss_eq_release]
        exact h.deregister_eq_without hxs.1
      have hlater : r.Onward (r.dismiss x) := by
        rw [dismiss_eq_release]
        exact (h.later_deregister _ _).onward
      have hcoherent : (r.dismiss x).Coherent := by
        rw [dismiss_eq_release]
        exact h.release _
      calc (r.dismiss x).dismissAll xs
          = (r.dismiss x).without (xs.map (·.registration.id)) :=
            ih hcoherent fun y hy => (hxs.2 y hy).onward hlater
        _ = r.without (x.registration.id :: xs.map (·.registration.id)) := by
            rw [hstep, without_append]
            rfl

/-! ## In the course of a session -/

theorem Onward.not_mem_ids {r r' : Registry} (h : r.Onward r') {id : PeerId}
    (hold : id.number < r.nextPeer) (hid : ∀ g, id ∉ (r.group g).ids) (g : GroupId) :
    id ∉ (r'.group g).ids :=
  fun hmem => hid g (h.ids_old hold hmem)

namespace Session

variable [Exponential] {s : Session}

theorem onward_step (h : s.Sound) (call : Call) : s.registry.Onward (s.step call).registry := by
  cases call with
  | register key c => exact (h.coherent.later_register key c).onward
  | deregister key id => exact (h.coherent.later_deregister key id).onward
  | drop place =>
      simp only [step]
      split
      · exact .refl _
      · exact (h.coherent.later_deregister _ _).onward
  | lookup key => exact .refl _
  | observe g id now => exact onward_modifyGroup _ g (fun x => x.ids_observe id now) fun _ => rfl
  | update g id f => exact onward_modifyGroup _ g (fun x => x.ids_update id f) fun _ => rfl
  | arbitrate g id now => exact .refl _
  | receive g id now =>
      exact onward_modifyGroup _ g (fun x => x.ids_receive id now)
        fun x => x.endpoint_receive id now

theorem onward_run (h : s.Sound) (calls : List Call) :
    s.registry.Onward (s.run calls).registry := by
  induction calls generalizing s with
  | nil => exact .refl _
  | cons call calls ih => exact (onward_step h call).trans (ih (h.step call))

theorem homed_step (h : s.Sound) (hheld : ∀ t ∈ s.held, s.registry.Homed t) (call : Call) :
    ∀ t ∈ (s.step call).held, (s.step call).registry.Homed t := by
  have honward := onward_step h call
  intro t ht
  by_cases hold : t ∈ s.held
  · exact (hheld t hold).onward honward
  · cases call with
    | register key c =>
        have hnew := (List.mem_append.1 ht).resolve_left hold
        rw [List.mem_singleton.1 hnew]
        exact h.coherent.homed_register key c
    | drop place =>
        simp only [step] at ht
        split at ht
        · exact absurd ht hold
        · exact absurd ((List.eraseIdx_sublist _ _).subset ht) hold
    | _ => exact absurd ht hold

theorem homed_of_mem_held (calls : List Call) :
    ∀ t ∈ (run {} calls).held, (run {} calls).registry.Homed t := by
  have hrun : ∀ (s : Session), s.Sound → (∀ t ∈ s.held, s.registry.Homed t) →
      ∀ t ∈ (s.run calls).held, (s.run calls).registry.Homed t := by
    induction calls with
    | nil => exact fun _ _ hheld => hheld
    | cons call calls ih => exact fun s hs hheld => ih _ (hs.step call) (homed_step hs hheld call)
  exact hrun {} Sound.initial nofun

/-- Registrations that are held may be given back in any order, and their sources may be
deregistered by name before or in between: what is left is the same registry. Every group has lost
the members of these registrations and has all others as they were, and just the keys whose groups
are left without members are given up. Once a source was deregistered, giving back its registration
changes nothing at any later time, whoever has the key by then. -/
theorem dismissAll_any_order (calls : List Call) {ts : List Registration} {xs : List Dismissal}
    (hheld : ts ⊆ (run {} calls).held) (hxs : Dismissal.Covers ts xs) :
    let s := run {} calls
    let r := s.registry
    let r' := r.dismissAll xs
    (∀ ys, Dismissal.Covers ts ys → r.dismissAll ys = r') ∧
    (∀ g, r'.group g = (r.group g).only (· ∉ ts.map Registration.id)) ∧
    (∀ key g, r'.lookup key = some g ↔ r.lookup key = some g ∧ (r'.group g).members ≠ []) ∧
    r'.nextPeer = r.nextPeer ∧
    ∀ t ∈ s.held, ∀ later,
      let s' := (s.step (.deregister t.key t.id)).run later
      s'.registry.release t = s'.registry := by
  intro s r r'
  have hs : s.Sound := Sound.initial.run calls
  have hwithout : ∀ ys, Dismissal.Covers ts ys →
      r.dismissAll ys = r.without (ts.map Registration.id) := by
    intro ys hys
    have hhomed : ∀ y ∈ ys, r.Homed y.registration := fun y hy =>
      homed_of_mem_held calls _
        (hheld ((hys.mem_registration_iff _).1 (List.mem_map_of_mem hy)))
    rw [hs.coherent.dismissAll_eq_without hhomed]
    exact r.without_congr hys.mem_id_iff
  obtain ⟨hcoherent, hshrunk⟩ := shrunk_dismissAll hs.coherent xs
  refine ⟨fun ys hys => (hwithout ys hys).trans (hwithout xs hxs).symm, fun g => ?_,
    hshrunk.lookup_eq_some_iff hs.coherent hcoherent, hshrunk.nextPeer, ?_⟩
  · rw [← group_without, ← hwithout xs hxs]
  · intro t ht later s'
    have hhomed := homed_of_mem_held calls t ht
    have hstep : (s.step (.deregister t.key t.id)).Sound := hs.step _
    have hgone : ∀ g, t.id ∉ ((s.step (.deregister t.key t.id)).registry.group g).ids := by
      intro g hmem
      have hgroup : (s.step (.deregister t.key t.id)).registry = r.without [t.id] :=
        hs.coherent.deregister_eq_without hhomed
      rw [hgroup, group_without] at hmem
      obtain ⟨m, hm, hid⟩ := List.mem_map.1 hmem
      exact of_decide_eq_true (List.mem_filter.1 hm).2 (List.mem_singleton.2 hid)
    -- no identity is given out twice, so the member that is gone cannot be back
    have hnever := (onward_run hstep later).not_mem_ids
      (hhomed.onward (onward_step hs (.deregister t.key t.id))).old hgone
    rw [release, deregister_of_not_mem ((hstep.run later).coherent.not_mem_enrolled hnever t.key)]

omit [Exponential] in
/-- Both sources of one port leave, one of them by name first; the other port is not concerned. -/
theorem dismissAll_any_order_arm :
    let _ : Exponential := ⟨fun _ => 0⟩
    let c : Contender := { source := "/cam", level := 5, timeConstant := 2 }
    let r := (run {} [.register "/arm" c, .register "/arm" c, .register "/door" c]).registry
    let t₁ : Registration := ⟨"/arm", ⟨1⟩, ⟨0⟩⟩
    let t₂ : Registration := ⟨"/arm", ⟨2⟩, ⟨0⟩⟩
    let r' := r.dismissAll [.deregister t₁, .release t₂, .deregister t₁, .release t₁]
    r.dismissAll [.release t₁, .release t₂] = r' ∧ r.lookup "/arm" = some ⟨0⟩ ∧
      r'.lookup "/arm" = none ∧ r'.lookup "/door" = some ⟨1⟩ ∧
      r'.group ⟨1⟩ = (r.group ⟨1⟩).only (· ∉ [⟨1⟩, ⟨2⟩]) := by
  intro _ c r t₁ t₂ r'
  have hheld : [t₁, t₂] ⊆
      (run {} [.register "/arm" c, .register "/arm" c, .register "/door" c]).held :=
    List.subset_append_left [t₁, t₂] [⟨"/door", ⟨3⟩, ⟨1⟩⟩]
  have hnamed : Dismissal.Covers [t₁, t₂]
      [.deregister t₁, .release t₂, .deregister t₁, .release t₁] :=
    ⟨.swap t₁ t₂ [], by simp⟩
  have hplain : Dismissal.Covers [t₁, t₂] [.release t₁, .release t₂] := ⟨.refl _, by simp⟩
  obtain ⟨horder, hgroup, -⟩ := dismissAll_any_order _ hheld hnamed
  exact ⟨horder _ hplain, by decide +kernel, by decide +kernel, by decide +kernel, hgroup ⟨1⟩⟩

end Session

end Registry

end PortArbiter
