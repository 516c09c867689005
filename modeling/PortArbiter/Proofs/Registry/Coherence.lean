import PortArbiter.Proofs.Registry.Effects
/-!
# Coherence of the registry

Membership is written down twice, in the entry of a key and in the group of that key, and a group
stays in reach of whoever keeps its `GroupId`. `Coherent` says that the two records agree and that
retired groups are empty. Every operation keeps it.
-/

namespace PortArbiter.Registry

/-- The entries and the groups of a registry describe the same membership. -/
structure Coherent (r : Registry) : Prop where
  keys_nodup : (r.live.map Entry.key).Nodup
  members_ne_nil : ∀ {key e}, r.entryOf? key = some e → e.members ≠ []
  ids_group : ∀ {key e}, r.entryOf? key = some e → (r.group e.group).ids = e.members
  founded : ∀ {key g}, r.lookup key = some g → r.Founded g
  endpoint : ∀ {key g}, r.lookup key = some g → (r.group g).endpoint = key
  /-- A group that no key has is empty. -/
  retired : ∀ {g}, (∀ key, r.lookup key ≠ some g) → (r.group g).ids = []
  ascending : ∀ g, (r.group g).ids.Pairwise (·.number < ·.number)
  disjoint : ∀ {g g' id}, id ∈ (r.group g).ids → id ∈ (r.group g').ids → g = g'
  below_next : ∀ {g id}, id ∈ (r.group g).ids → id.number < r.nextPeer

namespace Coherent

variable {r : Registry}

theorem empty : Coherent {} where
  keys_nodup := List.nodup_nil
  members_ne_nil := nofun
  ids_group := nofun
  founded := nofun
  endpoint := nofun
  retired _ := rfl
  ascending _ := List.Pairwise.nil
  disjoint := nofun
  below_next := nofun

/-- Two keys never share a group. -/
theorem lookup_inj (h : Coherent r) {key key' : String} {g : GroupId}
    (hkey : r.lookup key = some g) (hkey' : r.lookup key' = some g) : key = key' := by
  rw [← h.endpoint hkey, h.endpoint hkey']

theorem ids_host (h : Coherent r) (key : String) : (r.host key).ids = r.enrolled key := by
  cases hentry : r.entryOf? key with
  | none => simp [host, enrolled, lookup, hentry, Group.ids]
  | some e =>
      rw [host, enrolled, lookup_of_entryOf? hentry, hentry]
      exact h.ids_group hentry

theorem endpoint_host (h : Coherent r) (key : String) : (r.host key).endpoint = key := by
  rw [host]
  cases hkey : r.lookup key with
  | none => rfl
  | some g => exact h.endpoint hkey

theorem key_eq_of_mem (h : Coherent r) {key key' : String} {e e' : Entry}
    (hentry : r.entryOf? key = some e) (hentry' : r.entryOf? key' = some e') {id : PeerId}
    (hid : id ∈ e.members) (hid' : id ∈ e'.members) : key = key' := by
  have hgroup : e.group = e'.group := by
    rw [← h.ids_group hentry] at hid
    rw [← h.ids_group hentry'] at hid'
    exact h.disjoint hid hid'
  apply h.lookup_inj (lookup_of_entryOf? hentry)
  rw [hgroup, lookup_of_entryOf? hentry']

theorem enrolled_eq_nil_iff (h : Coherent r) (key : String) :
    r.enrolled key = [] ↔ r.lookup key = none := by
  cases hentry : r.entryOf? key with
  | none => simp [enrolled, lookup, hentry]
  | some e => simpa [enrolled, lookup, hentry] using h.members_ne_nil hentry

theorem next_not_mem (h : Coherent r) (g : GroupId) : (⟨r.nextPeer⟩ : PeerId) ∉ (r.group g).ids :=
  fun hid => Nat.lt_irrefl _ (h.below_next hid)

/-! ## Messages -/

/-- A change to a group that leaves its membership alone, such as the handling of a message. -/
theorem modifyGroup (h : Coherent r) (g : GroupId) {f : Group → Group}
    (hids : ∀ x, (f x).ids = x.ids) (hend : ∀ x, (f x).endpoint = x.endpoint) :
    Coherent (r.modifyGroup g f) := by
  by_cases hfounded : r.Founded g
  case neg => rwa [modifyGroup_of_not_founded f hfounded]
  have hsame : ∀ g', ((r.modifyGroup g f).group g').ids = (r.group g').ids ∧
      ((r.modifyGroup g f).group g').endpoint = (r.group g').endpoint := by
    intro g'
    by_cases hg : g' = g
    · subst hg
      rw [group_modifyGroup_self f hfounded]
      exact ⟨hids _, hend _⟩
    · rw [group_modifyGroup_of_ne r f hg]
      exact ⟨rfl, rfl⟩
  exact {
    keys_nodup := h.keys_nodup
    members_ne_nil := h.members_ne_nil
    ids_group := fun he => (hsame _).1.trans (h.ids_group he)
    founded := fun hg => (founded_modifyGroup r g f _).2 (h.founded hg)
    endpoint := fun hg => (hsame _).2.trans (h.endpoint hg)
    retired := fun hg => (hsame _).1.trans (h.retired hg)
    ascending := fun g' => (hsame g').1 ▸ h.ascending g'
    disjoint := fun hid hid' => h.disjoint ((hsame _).1 ▸ hid) ((hsame _).1 ▸ hid')
    below_next := fun hid => h.below_next ((hsame _).1 ▸ hid) }

/-! ## Registering -/

theorem target_ne (h : Coherent r) {key k : String} {g : GroupId} (hg : r.lookup k = some g)
    (hk : k ≠ key) : g ≠ r.target key := by
  intro heq
  rw [target] at heq
  cases hkey : r.lookup key with
  | none =>
      have hfounded := h.founded hg
      simp [heq, hkey, Founded] at hfounded
  | some g' =>
      rw [hkey, Option.getD_some] at heq
      exact hk (h.lookup_inj hg (heq ▸ hkey))

theorem ids_register_target (h : Coherent r) (key : String) (c : Contender) :
    ((r.register key c).2.group (r.target key)).ids = r.enrolled key ++ [⟨r.nextPeer⟩] := by
  rw [group_register_target c (fun _ hg => h.founded hg), Group.ids_join, h.ids_host]

theorem ids_target (h : Coherent r) (key : String) :
    (r.group (r.target key)).ids = r.enrolled key := by
  rw [← h.ids_host key, target, host]
  cases hkey : r.lookup key with
  | some g => rfl
  | none =>
      have hnew : ¬ r.Founded ⟨r.groups.size⟩ := Nat.lt_irrefl _
      rw [Option.getD_none, group_eq_of_not_founded hnew]
      rfl

/-- A registration adds its identity to one group, behind all others. -/
theorem ids_register (h : Coherent r) (key : String) (c : Contender) (g : GroupId) :
    ((r.register key c).2.group g).ids =
      (r.group g).ids ++ if g = r.target key then [⟨r.nextPeer⟩] else [] := by
  by_cases hg : g = r.target key
  · rw [hg, h.ids_register_target, h.ids_target, if_pos rfl]
  · rw [group_register_of_ne c hg, if_neg hg, List.append_nil]

theorem mem_ids_register (h : Coherent r) {key : String} {c : Contender} {g : GroupId}
    {id : PeerId} :
    id ∈ ((r.register key c).2.group g).ids ↔
      id ∈ (r.group g).ids ∨ g = r.target key ∧ id = ⟨r.nextPeer⟩ := by
  rw [h.ids_register, List.mem_append]
  by_cases hg : g = r.target key <;> simp [hg]

theorem keys_found (r : Registry) (key : String) :
    (r.found key).2.live.map Entry.key =
      r.live.map Entry.key ++ if r.lookup key = none then [key] else [] := by
  simp only [found]
  split <;> simp_all

private theorem map_key_eq {live : List Entry} (f : Entry → Entry) (hf : ∀ e, (f e).key = e.key) :
    (live.map f).map Entry.key = live.map Entry.key := by
  rw [List.map_map]
  exact List.map_congr_left fun e _ => hf e

theorem keys_register (r : Registry) (key : String) (c : Contender) :
    (r.register key c).2.live.map Entry.key = (r.found key).2.live.map Entry.key :=
  map_key_eq _ fun e => by split <;> rfl

theorem not_mem_keys_of_lookup {key : String} (hkey : r.lookup key = none) :
    key ∉ r.live.map Entry.key := by
  intro hmem
  obtain ⟨e, he, heq⟩ := List.mem_map.1 hmem
  have hnone : r.live.find? (·.key = key) = none := Option.map_eq_none_iff.1 hkey
  simpa [heq] using List.find?_eq_none.1 hnone e he

theorem nodup_keys_register (h : Coherent r) (key : String) (c : Contender) :
    ((r.register key c).2.live.map Entry.key).Nodup := by
  rw [keys_register, keys_found]
  split
  · rename_i hnone
    refine List.nodup_append.2 ⟨h.keys_nodup, by simp, ?_⟩
    rintro k hk k' hk' rfl
    obtain rfl := List.mem_singleton.1 hk'
    exact not_mem_keys_of_lookup hnone hk
  · rw [List.append_nil]
    exact h.keys_nodup

theorem endpoint_register (h : Coherent r) (key : String) (c : Contender) (g : GroupId) :
    ((r.register key c).2.group g).endpoint =
      if g = r.target key then key else (r.group g).endpoint := by
  by_cases hg : g = r.target key
  · rw [hg, if_pos rfl, group_register_target c fun _ hg => h.founded hg, Group.endpoint_join,
      h.endpoint_host]
  · rw [if_neg hg, group_register_of_ne c hg]

theorem lookup_register_of_ne_target {key k : String} {g : GroupId} (c : Contender)
    (hg : g ≠ r.target key) (hk : r.lookup k = some g) :
    (r.register key c).2.lookup k = some g := by
  rw [lookup_register, if_neg, hk]
  rintro rfl
  rw [target, hk] at hg
  exact hg rfl

theorem register (h : Coherent r) (key : String) (c : Contender) :
    Coherent (r.register key c).2 where
  keys_nodup := h.nodup_keys_register key c
  members_ne_nil := by
    intro k e he
    rw [entryOf?_register] at he
    split at he
    · obtain rfl := Option.some.inj he
      simp
    · exact h.members_ne_nil he
  ids_group := by
    intro k e he
    rw [entryOf?_register] at he
    split at he
    · obtain rfl := Option.some.inj he
      exact h.ids_register_target key c
    · rename_i hk
      rw [group_register_of_ne c (h.target_ne (lookup_of_entryOf? he) hk)]
      exact h.ids_group he
  founded := by
    intro k g hg
    rw [lookup_register] at hg
    split at hg
    · obtain rfl := Option.some.inj hg
      exact founded_register_target c (fun _ hg => h.founded hg)
    · exact founded_register (h.founded hg)
  endpoint := by
    intro k g hg
    rw [lookup_register] at hg
    rw [h.endpoint_register]
    split at hg
    · rename_i hk
      rw [if_pos (Option.some.inj hg).symm, hk]
    · rename_i hk
      rw [if_neg (h.target_ne hg hk), h.endpoint hg]
  retired := by
    intro g hg
    have htarget : g ≠ r.target key := fun heq =>
      hg key (by rw [lookup_register, if_pos rfl, heq])
    rw [group_register_of_ne c htarget]
    exact h.retired fun k hk => hg k (lookup_register_of_ne_target c htarget hk)
  ascending := by
    intro g
    rw [h.ids_register]
    split
    · refine List.pairwise_append.2 ⟨h.ascending g, List.pairwise_singleton _ _, ?_⟩
      intro id hid id' hid'
      rw [List.mem_singleton.1 hid']
      exact h.below_next hid
    · rw [List.append_nil]
      exact h.ascending g
  disjoint := by
    intro g g' id hid hid'
    rcases h.mem_ids_register.1 hid with hold | ⟨hg, hnew⟩ <;>
      rcases h.mem_ids_register.1 hid' with hold' | ⟨hg', hnew'⟩
    · exact h.disjoint hold hold'
    · exact absurd (hnew' ▸ hold) (h.next_not_mem g)
    · exact absurd (hnew ▸ hold') (h.next_not_mem g')
    · rw [hg, hg']
  below_next := by
    intro g id hid
    rw [nextPeer_register]
    rcases h.mem_ids_register.1 hid with hold | ⟨_, rfl⟩
    · exact Nat.lt_succ_of_lt (h.below_next hold)
    · exact Nat.lt_succ_self _

/-! ## Leaving -/

/-- An identity that leaves disappears from every group, since it was in one only. -/
theorem ids_deregister (h : Coherent r) {key : String} {id : PeerId} (hid : id ∈ r.enrolled key)
    (g : GroupId) :
    ((r.deregister key id).2.group g).ids = (r.group g).ids.filter (· ≠ id) := by
  obtain ⟨e, hentry, hmem⟩ := exists_entry_of_mem hid
  by_cases hg : g = e.group
  · have hfounded := h.founded (lookup_of_entryOf? hentry)
    rw [hg, group_deregister_self hentry hmem hfounded, Group.ids_leave]
  · rw [group_deregister_of_ne hentry hg, filter_ne_of_not_mem]
    intro hother
    exact hg (h.disjoint hother (by rw [h.ids_group hentry]; exact hmem))

theorem mem_ids_deregister (h : Coherent r) {key : String} {id : PeerId}
    (hid : id ∈ r.enrolled key) {g : GroupId} {other : PeerId} :
    other ∈ ((r.deregister key id).2.group g).ids ↔ other ∈ (r.group g).ids ∧ other ≠ id := by
  rw [h.ids_deregister hid, List.mem_filter]
  simp

private theorem map_key_sublist {live : List Entry} (f : Entry → Entry)
    (hf : ∀ e, (f e).key = e.key) :
    ((live.map f).map Entry.key).Sublist (live.map Entry.key) :=
  (map_key_eq f hf).symm ▸ List.Sublist.refl _

theorem keys_deregister_sublist (r : Registry) (key : String) (id : PeerId) :
    ((r.deregister key id).2.live.map Entry.key).Sublist (r.live.map Entry.key) := by
  simp only [Registry.deregister]
  split
  · exact List.Sublist.refl _
  · split
    · dsimp only
      split
      · exact List.filter_sublist.map _
      · exact map_key_sublist _ fun e => by split <;> rfl
    · exact List.Sublist.refl _

theorem entryOf?_of_deregister {key k : String} {id : PeerId} {e e' : Entry}
    (hentry : r.entryOf? key = some e) (hmem : id ∈ e.members)
    (he : (r.deregister key id).2.entryOf? k = some e') :
    (k = key ∧ e' = { e with members := e.members.filter (· ≠ id) } ∧ e'.members ≠ []) ∨
      k ≠ key ∧ r.entryOf? k = some e' := by
  rw [entryOf?_deregister hentry hmem] at he
  split at he
  · split at he
    · cases he
    · obtain rfl := Option.some.inj he
      exact Or.inl ⟨‹_›, rfl, ‹_›⟩
  · exact Or.inr ⟨‹_›, he⟩

theorem lookup_of_deregister {key k : String} {id : PeerId} {g : GroupId}
    (hg : (r.deregister key id).2.lookup k = some g) : r.lookup k = some g := by
  by_cases hid : id ∈ r.enrolled key
  case neg => rwa [deregister_of_not_mem hid] at hg
  obtain ⟨e, hentry, hmem⟩ := exists_entry_of_mem hid
  obtain ⟨e', he', rfl⟩ := (lookup_eq_some_iff _ _ _).1 hg
  rcases entryOf?_of_deregister hentry hmem he' with ⟨hk, rfl, _⟩ | ⟨_, hold⟩
  · have hlive : r.lookup key = some e.group := lookup_of_entryOf? hentry
    rw [hk]
    exact hlive
  · exact lookup_of_entryOf? hold

theorem lookup_deregister_of_ne {key k : String} {id : PeerId} (hk : k ≠ key) :
    (r.deregister key id).2.lookup k = r.lookup k := by
  by_cases hid : id ∈ r.enrolled key
  case neg => rw [deregister_of_not_mem hid]
  obtain ⟨e, hentry, hmem⟩ := exists_entry_of_mem hid
  rw [lookup, entryOf?_deregister hentry hmem, if_neg hk, lookup]

/-- What leaving does to the groups: only the live group of the key is left. -/
theorem group_deregister (h : Coherent r) (key : String) (id : PeerId) (g : GroupId) :
    (r.deregister key id).2.group g =
      if r.lookup key = some g then (r.group g).leave id else r.group g := by
  by_cases hid : id ∈ r.enrolled key
  · obtain ⟨e, hentry, hmem⟩ := exists_entry_of_mem hid
    have hlookup := lookup_of_entryOf? hentry
    split
    · rename_i hg
      obtain rfl : e.group = g := Option.some.inj (hlookup.symm.trans hg)
      exact group_deregister_self hentry hmem (h.founded hlookup)
    · rename_i hg
      exact group_deregister_of_ne hentry fun heq => hg (heq ▸ hlookup)
  · rw [deregister_of_not_mem hid]
    split
    · rename_i hg
      have hids : (r.group g).ids = r.enrolled key := by
        rw [← h.ids_host key, host, hg]
        rfl
      exact (Group.leave_of_not_mem (hids ▸ hid)).symm
    · rfl

theorem endpoint_deregister (h : Coherent r) (key : String) (id : PeerId) (g : GroupId) :
    ((r.deregister key id).2.group g).endpoint = (r.group g).endpoint := by
  rw [h.group_deregister]
  split <;> rfl

/-- A group that no key has after somebody left has no members any more. -/
theorem ids_retired_deregister (h : Coherent r) {key : String} {id : PeerId} {e : Entry}
    (hentry : r.entryOf? key = some e) (hmem : id ∈ e.members) {g : GroupId}
    (hg : ∀ k, (r.deregister key id).2.lookup k ≠ some g) :
    (r.group g).ids.filter (· ≠ id) = [] := by
  by_cases hsame : g = e.group
  · rw [hsame, h.ids_group hentry]
    apply Classical.byContradiction
    intro hne
    apply hg key
    rw [lookup, entryOf?_deregister hentry hmem, if_pos rfl, if_neg hne, hsame]
    rfl
  · have hnone : ∀ k, r.lookup k ≠ some g := by
      intro k hk
      by_cases hkey : k = key
      · rw [hkey, lookup_of_entryOf? hentry] at hk
        exact hsame (Option.some.inj hk).symm
      · exact hg k (by rw [lookup_deregister_of_ne hkey, hk])
    rw [h.retired hnone]
    rfl

theorem deregister (h : Coherent r) (key : String) (id : PeerId) :
    Coherent (r.deregister key id).2 := by
  by_cases hid : id ∈ r.enrolled key
  case neg => rwa [deregister_of_not_mem hid]
  obtain ⟨e, hentry, hmem⟩ := exists_entry_of_mem hid
  exact {
    keys_nodup := h.keys_nodup.sublist (keys_deregister_sublist r key id)
    members_ne_nil := by
      intro k e' he'
      rcases entryOf?_of_deregister hentry hmem he' with ⟨_, _, hne⟩ | ⟨_, hold⟩
      · exact hne
      · exact h.members_ne_nil hold
    ids_group := by
      intro k e' he'
      rw [h.ids_deregister hid]
      rcases entryOf?_of_deregister hentry hmem he' with ⟨_, rfl, _⟩ | ⟨hk, hold⟩
      · rw [h.ids_group hentry]
      · rw [h.ids_group hold, filter_ne_of_not_mem]
        exact fun hother => hk (h.key_eq_of_mem hold hentry hother hmem)
    founded := fun hg => (founded_deregister r key id _).2 (h.founded (lookup_of_deregister hg))
    endpoint := fun hg =>
      (h.endpoint_deregister key id _).trans (h.endpoint (lookup_of_deregister hg))
    retired := by
      intro g hg
      rw [h.ids_deregister hid]
      exact h.ids_retired_deregister hentry hmem hg
    ascending := by
      intro g
      rw [h.ids_deregister hid]
      exact (h.ascending g).filter _
    disjoint := fun hid₁ hid₂ =>
      h.disjoint ((h.mem_ids_deregister hid).1 hid₁).1 ((h.mem_ids_deregister hid).1 hid₂).1
    below_next := by
      intro g other hother
      rw [nextPeer_deregister]
      exact h.below_next ((h.mem_ids_deregister hid).1 hother).1 }

theorem release (h : Coherent r) (t : Registration) : Coherent (r.release t) :=
  h.deregister t.key t.id

end Coherent

end PortArbiter.Registry
