import PortArbiter.Priority.Registry
import PortArbiter.Proofs.Priority.Members
/-!
# Effects on the registry

What each operation of the registry does to the entry of every key and to the state of every
group. Later proofs use these equations instead of the operations.
-/

namespace PortArbiter.Registry

def Founded (r : Registry) (g : GroupId) : Prop :=
  g.index < r.groups.size

theorem lookup_eq_some_iff (r : Registry) (key : String) (g : GroupId) :
    r.lookup key = some g ↔ ∃ e, r.entryOf? key = some e ∧ e.group = g := by
  simp [lookup]

theorem lookup_of_entryOf? {r : Registry} {key : String} {e : Entry}
    (h : r.entryOf? key = some e) : r.lookup key = some e.group := by
  rw [lookup, h]
  rfl

theorem key_of_entryOf? {r : Registry} {key : String} {e : Entry}
    (h : r.entryOf? key = some e) : e.key = key := by
  simpa using List.find?_some h

/-! ## Changing one group -/

@[simp] theorem entryOf?_modifyGroup (r : Registry) (g : GroupId) (f : Group → Group)
    (key : String) : (r.modifyGroup g f).entryOf? key = r.entryOf? key := rfl

@[simp] theorem lookup_modifyGroup (r : Registry) (g : GroupId) (f : Group → Group)
    (key : String) : (r.modifyGroup g f).lookup key = r.lookup key := rfl

@[simp] theorem live_modifyGroup (r : Registry) (g : GroupId) (f : Group → Group) :
    (r.modifyGroup g f).live = r.live := rfl

@[simp] theorem nextPeer_modifyGroup (r : Registry) (g : GroupId) (f : Group → Group) :
    (r.modifyGroup g f).nextPeer = r.nextPeer := rfl

@[simp] theorem founded_modifyGroup (r : Registry) (g : GroupId) (f : Group → Group)
    (g' : GroupId) : (r.modifyGroup g f).Founded g' ↔ r.Founded g' := by
  simp [Founded, modifyGroup]

theorem group_eq_of_not_founded {r : Registry} {g : GroupId} (h : ¬ r.Founded g) :
    r.group g = { endpoint := "" } := by
  simp [group, Array.getD, Founded] at h ⊢
  omega

theorem group_modifyGroup_self {r : Registry} {g : GroupId} (f : Group → Group)
    (h : r.Founded g) : (r.modifyGroup g f).group g = f (r.group g) := by
  have hlt : g.index < r.groups.size := h
  simp [group, modifyGroup, Array.getD_eq_getD_getElem?, Array.getElem_modify, hlt]

theorem group_modifyGroup_of_ne (r : Registry) {g g' : GroupId} (f : Group → Group)
    (h : g' ≠ g) : (r.modifyGroup g f).group g' = r.group g' := by
  have hindex : g.index ≠ g'.index := by
    intro heq
    exact h (by cases g; cases g'; simp_all)
  simp [group, modifyGroup, Array.getD_eq_getD_getElem?, Array.getElem?_modify, hindex]

theorem modifyGroup_of_not_founded {r : Registry} {g : GroupId} (f : Group → Group)
    (h : ¬ r.Founded g) : r.modifyGroup g f = r := by
  have hsize : r.groups.size ≤ g.index := Nat.le_of_not_lt h
  have hsame : r.groups.modify g.index f = r.groups := by
    apply Array.ext
    · simp
    · intro i _ hi
      rw [Array.getElem_modify, if_neg (by omega)]
  rw [modifyGroup, hsame]

theorem modifyGroup_const (r : Registry) (g : GroupId) (f : Group → Group) :
    (r.modifyGroup g fun _ => f (r.group g)) = r.modifyGroup g f := by
  by_cases hfounded : r.Founded g
  · have hlt : g.index < r.groups.size := hfounded
    have hsame : (r.groups.modify g.index fun _ => f (r.group g)) = r.groups.modify g.index f := by
      apply Array.ext
      · rw [Array.size_modify, Array.size_modify]
      · intro i hi _
        rw [Array.getElem_modify, Array.getElem_modify]
        split
        · rename_i hindex
          subst hindex
          simp [group, Array.getD_eq_getD_getElem?, hlt]
        · rfl
    rw [modifyGroup, hsame, modifyGroup]
  · rw [modifyGroup_of_not_founded _ hfounded, modifyGroup_of_not_founded _ hfounded]

theorem receive_snd [Exponential] (r : Registry) (t : Registration) (now : Float) :
    (r.receive t now).2 = r.modifyGroup t.group fun g => (g.receive t.id now).2 :=
  modifyGroup_const r t.group fun g => (g.receive t.id now).2

/-! ## Looking up entries -/

private theorem find?_map_key (f : Entry → Entry) (hf : ∀ e, (f e).key = e.key) (key : String)
    (live : List Entry) :
    (live.map f).find? (·.key = key) = (live.find? (·.key = key)).map f := by
  rw [List.find?_map]
  congr 2
  funext e
  simp [hf]

private theorem find?_filter_key (key other : String) (live : List Entry) :
    (live.filter (·.key ≠ key)).find? (·.key = other) =
      if other = key then none else live.find? (·.key = other) := by
  rw [List.find?_filter]
  by_cases h : other = key
  · subst h
    simp
  · rw [if_neg h]
    congr 1
    funext e
    by_cases he : e.key = other
    · simp [he, h]
    · simp [he]

private theorem entryOf?_map_ite {r : Registry} {key k : String} (f : Entry → Entry) :
    (r.entryOf? k).map (fun e => if e.key = key then f e else e) =
      if k = key then (r.entryOf? key).map f else r.entryOf? k := by
  by_cases hk : k = key
  · subst hk
    rw [if_pos rfl]
    cases h : r.entryOf? k with
    | none => rfl
    | some e => simp [key_of_entryOf? h]
  · rw [if_neg hk]
    cases h : r.entryOf? k with
    | none => rfl
    | some e => simp [key_of_entryOf? h, hk]

/-! ## Registering -/

def enrolled (r : Registry) (key : String) : List PeerId :=
  (r.entryOf? key).elim [] Entry.members

/-- The live group of a key, or the empty one that would be founded under it. -/
def host (r : Registry) (key : String) : Group :=
  (r.lookup key).elim { endpoint := key } r.group

def target (r : Registry) (key : String) : GroupId :=
  (r.lookup key).getD ⟨r.groups.size⟩

theorem found_fst (r : Registry) (key : String) : (r.found key).1 = r.target key := by
  simp only [found, target]
  split <;> simp_all

theorem exists_entry_of_mem {r : Registry} {key : String} {id : PeerId}
    (hid : id ∈ r.enrolled key) : ∃ e, r.entryOf? key = some e ∧ id ∈ e.members := by
  cases hentry : r.entryOf? key with
  | none => simp [enrolled, hentry] at hid
  | some e => exact ⟨e, rfl, by simpa [enrolled, hentry] using hid⟩

theorem entryOf?_found (r : Registry) (key k : String) :
    (r.found key).2.entryOf? k =
      if k = key then some ⟨key, r.target key, r.enrolled key⟩ else r.entryOf? k := by
  cases h : r.entryOf? key with
  | none =>
      have hlookup : r.lookup key = none := by simp [lookup, h]
      have hfind : r.live.find? (·.key = key) = none := h
      simp only [found, hlookup, target, enrolled, entryOf?, List.find?_append]
      by_cases hk : k = key
      · subst hk
        simp [hfind]
      · have hk' : ¬ key = k := fun heq => hk heq.symm
        simp [hk, hk']
  | some e =>
      have hlookup : r.lookup key = some e.group := lookup_of_entryOf? h
      simp only [found, hlookup, target, enrolled, h]
      by_cases hk : k = key
      · obtain rfl : e.key = key := key_of_entryOf? h
        rw [hk, if_pos rfl]
        exact h
      · rw [if_neg hk]

theorem register_fst (r : Registry) (key : String) (c : Contender) :
    (r.register key c).1 = ⟨key, ⟨r.nextPeer⟩, r.target key⟩ := by
  rw [← found_fst]
  rfl

@[simp] theorem nextPeer_register (r : Registry) (key : String) (c : Contender) :
    (r.register key c).2.nextPeer = r.nextPeer + 1 := rfl

theorem entryOf?_register (r : Registry) (key : String) (c : Contender) (k : String) :
    (r.register key c).2.entryOf? k =
      if k = key then some ⟨key, r.target key, r.enrolled key ++ [⟨r.nextPeer⟩]⟩
      else r.entryOf? k := by
  let enroll (e : Entry) : Entry := { e with members := e.members ++ [⟨r.nextPeer⟩] }
  have hkey : ∀ e : Entry, (if e.key = key then enroll e else e).key = e.key := by
    intro e
    split <;> rfl
  calc (r.register key c).2.entryOf? k
      = ((r.found key).2.entryOf? k).map fun e => if e.key = key then enroll e else e :=
        find?_map_key _ hkey k _
    _ = if k = key then ((r.found key).2.entryOf? key).map enroll else (r.found key).2.entryOf? k :=
        entryOf?_map_ite enroll
    _ = _ := by
        rw [entryOf?_found, entryOf?_found, if_pos rfl]
        by_cases hk : k = key
        · simp [hk, enroll]
        · simp [hk]

theorem lookup_register (r : Registry) (key : String) (c : Contender) (k : String) :
    (r.register key c).2.lookup k = if k = key then some (r.target key) else r.lookup k := by
  rw [lookup, entryOf?_register]
  split <;> rfl

theorem enrolled_register (r : Registry) (key : String) (c : Contender) (k : String) :
    (r.register key c).2.enrolled k =
      r.enrolled k ++ if k = key then [⟨r.nextPeer⟩] else [] := by
  rw [enrolled, entryOf?_register]
  split
  · rename_i hk
    rw [hk]
    rfl
  · rw [List.append_nil]
    rfl

theorem founded_found {r : Registry} {key : String} {g : GroupId} (h : r.Founded g) :
    (r.found key).2.Founded g := by
  simp only [found]
  split
  · exact h
  · simp only [Founded, Array.size_push]
    exact Nat.lt_succ_of_lt h

theorem founded_target {r : Registry} {key : String}
    (h : ∀ g, r.lookup key = some g → r.Founded g) :
    (r.found key).2.Founded (r.target key) := by
  simp only [found, target]
  split
  · rename_i g hg
    rw [hg]
    exact h g hg
  · rename_i hnone
    simp [hnone, Founded]

theorem group_found_target (r : Registry) (key : String) :
    (r.found key).2.group (r.target key) = r.host key := by
  simp only [found, target, host]
  split
  · rename_i g hg
    simp [hg]
  · rename_i hnone
    simp [hnone, group]

theorem group_found_of_ne {r : Registry} {key : String} {g : GroupId} (h : g ≠ r.target key) :
    (r.found key).2.group g = r.group g := by
  simp only [found]
  split
  · rfl
  · rename_i hnone
    have hindex : g.index ≠ r.groups.size := by
      intro heq
      exact h (by cases g; simp_all [target])
    simp [group, Array.getD_eq_getD_getElem?, Array.getElem?_push, hindex]

theorem founded_register {r : Registry} {key : String} {c : Contender} {g : GroupId}
    (h : r.Founded g) : (r.register key c).2.Founded g :=
  (founded_modifyGroup _ _ _ g).2 (founded_found h)

theorem founded_register_target {r : Registry} {key : String} (c : Contender)
    (h : ∀ g, r.lookup key = some g → r.Founded g) :
    (r.register key c).2.Founded (r.target key) :=
  (founded_modifyGroup _ _ _ _).2 (founded_target h)

theorem group_register_target {r : Registry} {key : String} (c : Contender)
    (h : ∀ g, r.lookup key = some g → r.Founded g) :
    (r.register key c).2.group (r.target key) = (r.host key).join ⟨r.nextPeer⟩ c := by
  rw [← group_found_target]
  show ((r.found key).2.modifyGroup (r.found key).1 _).group (r.target key) = _
  rw [found_fst]
  exact group_modifyGroup_self _ (founded_target h)

theorem group_register_of_ne {r : Registry} {key : String} {g : GroupId} (c : Contender)
    (h : g ≠ r.target key) : (r.register key c).2.group g = r.group g := by
  rw [← group_found_of_ne h]
  show ((r.found key).2.modifyGroup (r.found key).1 _).group g = _
  rw [found_fst]
  exact group_modifyGroup_of_ne _ _ h

/-! ## Leaving -/

/-- Leaving under a key without a group, or under a key where one is not registered, changes
nothing. -/
theorem deregister_of_not_mem {r : Registry} {key : String} {id : PeerId}
    (h : id ∉ r.enrolled key) : r.deregister key id = (false, r) := by
  cases hentry : r.entryOf? key with
  | none => simp [deregister, hentry]
  | some e =>
      have hid : id ∉ e.members := by simpa [enrolled, hentry] using h
      simp [deregister, hentry, hid]

theorem entryOf?_deregister {r : Registry} {key : String} {e : Entry} {id : PeerId}
    (hentry : r.entryOf? key = some e) (hid : id ∈ e.members) (k : String) :
    (r.deregister key id).2.entryOf? k =
      if k = key then
        if e.members.filter (· ≠ id) = [] then none
        else some { e with members := e.members.filter (· ≠ id) }
      else r.entryOf? k := by
  simp only [deregister, hentry, hid, if_true, List.isEmpty_iff]
  by_cases hlast : e.members.filter (· ≠ id) = []
  · calc _ = (r.live.filter (·.key ≠ key)).find? (·.key = k) := by rw [if_pos hlast]; rfl
      _ = if k = key then none else r.entryOf? k := find?_filter_key key k r.live
      _ = _ := by rw [if_pos hlast]
  · let leave (x : Entry) : Entry := { x with members := e.members.filter (· ≠ id) }
    have hkey : ∀ x : Entry, (if x.key = key then leave x else x).key = x.key := by
      intro x
      split <;> rfl
    calc _ = (r.live.map fun x => if x.key = key then leave x else x).find? (·.key = k) := by
          rw [if_neg hlast]; rfl
      _ = (r.entryOf? k).map fun x => if x.key = key then leave x else x := find?_map_key _ hkey k _
      _ = if k = key then (r.entryOf? key).map leave else r.entryOf? k := entryOf?_map_ite leave
      _ = _ := by rw [hentry, if_neg hlast]; rfl

theorem enrolled_deregister (r : Registry) (key : String) (id : PeerId) (k : String) :
    (r.deregister key id).2.enrolled k =
      if k = key then (r.enrolled k).filter (· ≠ id) else r.enrolled k := by
  by_cases hid : id ∈ r.enrolled key
  · obtain ⟨e, hentry, hmem⟩ := exists_entry_of_mem hid
    rw [enrolled, entryOf?_deregister hentry hmem, enrolled]
    by_cases hk : k = key
    · rw [if_pos hk, if_pos hk, hk, hentry]
      split
      · rename_i hlast
        exact hlast.symm
      · rfl
    · rw [if_neg hk, if_neg hk]
  · rw [deregister_of_not_mem hid]
    split
    · rename_i hk
      rw [hk, filter_ne_of_not_mem hid]
    · rfl

theorem group_deregister_self {r : Registry} {key : String} {e : Entry} {id : PeerId}
    (hentry : r.entryOf? key = some e) (hid : id ∈ e.members) (h : r.Founded e.group) :
    (r.deregister key id).2.group e.group = (r.group e.group).leave id := by
  simp only [deregister, hentry, hid, if_true]
  exact group_modifyGroup_self _ h

theorem group_deregister_of_ne {r : Registry} {key : String} {e : Entry} {id : PeerId}
    {g : GroupId} (hentry : r.entryOf? key = some e) (h : g ≠ e.group) :
    (r.deregister key id).2.group g = r.group g := by
  simp only [deregister, hentry]
  split
  · exact group_modifyGroup_of_ne r _ h
  · rfl

@[simp] theorem founded_deregister (r : Registry) (key : String) (id : PeerId) (g : GroupId) :
    (r.deregister key id).2.Founded g ↔ r.Founded g := by
  simp only [deregister]
  split
  · rfl
  · split
    · exact founded_modifyGroup r _ _ g
    · rfl

@[simp] theorem nextPeer_deregister (r : Registry) (key : String) (id : PeerId) :
    (r.deregister key id).2.nextPeer = r.nextPeer := by
  simp only [deregister]
  split
  · rfl
  · split <;> rfl

end PortArbiter.Registry
