import PortArbiter.Proofs.Registry.Coherence
/-!
# Rosters

The roster of a key lists the members of its live group. A registration adds one line at the end,
a release strikes one out, and a message rewrites no more than the arrival of its sender.
-/

namespace PortArbiter

/-- What was declared of a source, without what was heard of it. -/
def Contender.declared (c : Contender) : Contender :=
  { c with arrival? := none }

/-- What stays of a member whatever is heard. -/
def Member.seat (m : Member) : PeerId × Contender :=
  (m.id, m.contender.declared)

theorem Group.seats_observe (g : Group) (id : PeerId) (now : Float) :
    (g.observe id now).members.map Member.seat = g.members.map Member.seat := by
  rw [observe, update, List.map_map]
  apply List.map_congr_left
  intro m _
  simp only [Function.comp_apply]
  split <;> rfl

theorem Group.seats_receive [Exponential] (g : Group) (id : PeerId) (now : Float) :
    (g.receive id now).2.members.map Member.seat = g.members.map Member.seat := by
  rcases receive_eq_self_or_observe g id now with h | h <;> rw [h]
  exact seats_observe g id now

namespace Registry

def roster (r : Registry) (key : String) : List Member :=
  (r.host key).members

theorem roster_of_lookup {r : Registry} {key : String} {g : GroupId}
    (h : r.lookup key = some g) : r.roster key = (r.group g).members := by
  rw [roster, host, h]
  rfl

theorem size_eq_zero_of_lookup {r : Registry} (h : ∀ key, r.lookup key = none) : r.size = 0 := by
  cases hlive : r.live with
  | nil => rw [size, hlive]; rfl
  | cons e live =>
      have hsome : r.lookup e.key = some e.group := by
        simp [lookup, entryOf?, hlive]
      rw [h e.key] at hsome
      cases hsome

theorem host_modifyGroup {r : Registry} {key : String} {g : GroupId} (f : Group → Group)
    (hfounded : r.Founded g) :
    (r.modifyGroup g f).host key =
      if r.lookup key = some g then f (r.host key) else r.host key := by
  rw [host, lookup_modifyGroup, host]
  cases hlookup : r.lookup key with
  | none => rfl
  | some g' =>
      simp only [Option.elim_some, Option.some.injEq]
      split
      · rename_i hg
        rw [hg, group_modifyGroup_self f hfounded]
      · rename_i hg
        rw [group_modifyGroup_of_ne r f hg]

theorem seats_receive [Exponential] (r : Registry) (t : Registration) (now : Float)
    (k : String) :
    ((r.receive t now).2.roster k).map Member.seat = (r.roster k).map Member.seat := by
  rw [receive_snd]
  by_cases hfounded : r.Founded t.group
  · rw [roster, host_modifyGroup _ hfounded]
    split
    · exact (r.host k).seats_receive t.id now
    · rfl
  · rw [modifyGroup_of_not_founded _ hfounded]

theorem lookup_receive [Exponential] (r : Registry) (t : Registration) (now : Float) (k : String) :
    (r.receive t now).2.lookup k = r.lookup k := by
  rw [receive_snd, lookup_modifyGroup]

theorem receive_fst [Exponential] {r : Registry} {t : Registration} {key : String}
    (hkey : r.lookup key = some t.group) (now : Float) :
    (r.receive t now).1 = ((r.host key).receive t.id now).1 := by
  rw [host, hkey]
  rfl

namespace Coherent

variable {r : Registry}

theorem ids_roster (h : Coherent r) (key : String) :
    (r.roster key).map Member.id = r.enrolled key :=
  h.ids_host key

theorem roster_eq_nil_iff (h : Coherent r) (key : String) :
    r.roster key = [] ↔ r.lookup key = none := by
  rw [← h.enrolled_eq_nil_iff, ← h.ids_roster, List.map_eq_nil_iff]

theorem roster_nodup (h : Coherent r) (key : String) : ((r.roster key).map Member.id).Nodup := by
  show (r.host key).ids.Nodup
  cases hlookup : r.lookup key with
  | none =>
      rw [h.ids_host, (h.enrolled_eq_nil_iff key).2 hlookup]
      exact List.nodup_nil
  | some g =>
      rw [host, hlookup]
      apply (h.ascending g).imp
      rintro a b hlt rfl
      exact Nat.lt_irrefl _ hlt

theorem roster_register (h : Coherent r) (key : String) (c : Contender) (k : String) :
    (r.register key c).2.roster k =
      r.roster k ++ if k = key then [⟨⟨r.nextPeer⟩, c⟩] else [] := by
  rw [roster, host, lookup_register]
  split
  · rename_i hk
    rw [Option.elim_some, group_register_target c fun _ hg => h.founded hg, hk]
    rfl
  · rename_i hk
    rw [List.append_nil, roster, host]
    cases hlookup : r.lookup k with
    | none => rfl
    | some g =>
        rw [Option.elim_some, Option.elim_some, group_register_of_ne c (h.target_ne hlookup hk)]

theorem roster_release (h : Coherent r) (t : Registration) (k : String) :
    (r.release t).roster k =
      if k = t.key then (r.roster k).filter (·.id ≠ t.id) else r.roster k := by
  rw [Registry.release]
  by_cases hid : t.id ∈ r.enrolled t.key
  case neg =>
    rw [deregister_of_not_mem hid]
    split
    · rename_i hk
      rw [← h.ids_host, ← hk] at hid
      exact congrArg Group.members (Group.leave_of_not_mem hid).symm
    · rfl
  obtain ⟨e, hentry, hmem⟩ := exists_entry_of_mem hid
  have hlookup := lookup_of_entryOf? hentry
  split
  · rename_i hk
    subst hk
    rw [roster_of_lookup hlookup]
    have hgroup := group_deregister_self hentry hmem (h.founded hlookup)
    cases hafter : (r.deregister t.key t.id).2.lookup t.key with
    | some g =>
        obtain rfl : e.group = g :=
          Option.some.inj (hlookup.symm.trans (lookup_of_deregister hafter))
        rw [roster_of_lookup hafter, hgroup]
        rfl
    | none =>
        have hnone := ((h.deregister t.key t.id).enrolled_eq_nil_iff t.key).2 hafter
        have hids : ((r.group e.group).leave t.id).ids = [] := by
          rw [Group.ids_leave, h.ids_group hentry]
          rw [enrolled_deregister, if_pos rfl, enrolled, hentry] at hnone
          exact hnone
        rw [((h.deregister t.key t.id).roster_eq_nil_iff t.key).2 hafter]
        exact ((Group.members_eq_nil_iff _).2 hids).symm
  · rename_i hk
    rw [roster, host, lookup_deregister_of_ne hk, roster, host]
    cases hother : r.lookup k with
    | none => rfl
    | some g =>
        have hg : g ≠ e.group := by
          rintro rfl
          exact hk (h.lookup_inj hother hlookup)
        rw [Option.elim_some, Option.elim_some, group_deregister_of_ne hentry hg]

theorem receive [Exponential] (h : Coherent r) (t : Registration) (now : Float) :
    Coherent (r.receive t now).2 := by
  rw [receive_snd]
  exact h.modifyGroup t.group (fun g => g.ids_receive t.id now)
    fun g => g.endpoint_receive t.id now

/-- A message of a member of a live group is handled by that group. -/
theorem host_receive [Exponential] (h : Coherent r) {t : Registration} {key : String}
    (hkey : r.lookup key = some t.group) (now : Float) :
    (r.receive t now).2.host key = ((r.host key).receive t.id now).2 := by
  rw [receive_snd, host_modifyGroup _ (h.founded hkey), if_pos hkey]

end Coherent

end Registry

end PortArbiter
