import PortArbiter.Proofs.Registry.Mirror
/-!
# Registries later on

Whatever is done to a registry, short of rewriting what a source has declared, the sources in it
were there before, declared as they are now, or they are new and have new identities.
-/

namespace PortArbiter

namespace Group

theorem seats_observe_subset (g : Group) (id : PeerId) (now : Float) :
    (g.observe id now).members.map Member.seat ⊆ g.members.map Member.seat := by
  rw [seats_observe]
  exact List.Subset.refl _

theorem seats_receive_subset [Exponential] (g : Group) (id : PeerId) (now : Float) :
    (g.receive id now).2.members.map Member.seat ⊆ g.members.map Member.seat := by
  rw [seats_receive]
  exact List.Subset.refl _

theorem seats_leave_subset (g : Group) (id : PeerId) :
    (g.leave id).members.map Member.seat ⊆ g.members.map Member.seat :=
  (List.filter_sublist.map _).subset

end Group

namespace Registry

def seats (r : Registry) (g : GroupId) : List (PeerId × Contender) :=
  (r.group g).members.map Member.seat

/-! ## Who is in a group -/

theorem endpoint_modifyGroup (r : Registry) (g : GroupId) {f : Group → Group}
    (hend : ∀ x, (f x).endpoint = x.endpoint) (g' : GroupId) :
    ((r.modifyGroup g f).group g').endpoint = (r.group g').endpoint := by
  by_cases hfounded : r.Founded g
  · by_cases hg : g' = g
    · subst hg
      rw [group_modifyGroup_self f hfounded, hend]
    · rw [group_modifyGroup_of_ne r f hg]
  · rw [modifyGroup_of_not_founded f hfounded]

/-- A change to a group that lets nobody in and leaves alone what is declared of its members. -/
theorem seats_modifyGroup_subset (r : Registry) (g : GroupId) {f : Group → Group}
    (hseats : ∀ x, (f x).members.map Member.seat ⊆ x.members.map Member.seat) (g' : GroupId) :
    (r.modifyGroup g f).seats g' ⊆ r.seats g' := by
  by_cases hfounded : r.Founded g
  · by_cases hg : g' = g
    · subst hg
      rw [seats, group_modifyGroup_self f hfounded]
      exact hseats _
    · rw [seats, group_modifyGroup_of_ne r f hg]
      exact List.Subset.refl _
  · rw [modifyGroup_of_not_founded f hfounded]
    exact List.Subset.refl _

theorem seats_deregister_subset (r : Registry) (key : String) (id : PeerId) (g : GroupId) :
    (r.deregister key id).2.seats g ⊆ r.seats g := by
  rw [deregister]
  split
  · exact List.Subset.refl _
  · split
    · exact r.seats_modifyGroup_subset _ (fun x => x.seats_leave_subset id) g
    · exact List.Subset.refl _

theorem endpoint_deregister (r : Registry) (key : String) (id : PeerId) (g : GroupId) :
    ((r.deregister key id).2.group g).endpoint = (r.group g).endpoint := by
  rw [deregister]
  split
  · rfl
  · split
    · exact r.endpoint_modifyGroup _ (fun x => x.endpoint_leave id) g
    · rfl

theorem mem_seats_register {r : Registry} (h : ∀ {k g}, r.lookup k = some g → r.Founded g)
    {key : String} {c : Contender} {g : GroupId} {seat : PeerId × Contender}
    (hseat : seat ∈ (r.register key c).2.seats g) :
    seat ∈ r.seats g ∨ g = r.target key ∧ seat = (⟨r.nextPeer⟩, c.declared) := by
  by_cases hg : g = r.target key
  · rw [seats, hg, group_register_target c fun _ => h, Group.members_join, List.map_append,
      List.mem_append] at hseat
    rcases hseat with hold | hnew
    · left
      rw [host] at hold
      cases hkey : r.lookup key with
      | none =>
          rw [hkey] at hold
          cases hold
      | some g' =>
          rw [hkey] at hold
          rwa [hg, target, hkey]
    · exact Or.inr ⟨hg, List.mem_singleton.1 hnew⟩
  · rw [seats, group_register_of_ne c hg] at hseat
    exact Or.inl hseat

/-! ## Later registries -/

/-- A registry after whatever was done to it: no group is lost, and whoever is in a group was in it
before or is new. -/
structure Onward (r r' : Registry) : Prop where
  outlived : r.Outlived r'
  nextPeer : r.nextPeer ≤ r'.nextPeer
  ids : ∀ g, ∀ id ∈ (r'.group g).ids, id ∈ (r.group g).ids ∨ r.nextPeer ≤ id.number

namespace Onward

variable {r r' r'' : Registry}

theorem refl (r : Registry) : r.Onward r :=
  ⟨Outlived.refl r, Nat.le_refl _, fun _ _ => Or.inl⟩

theorem trans (h : r.Onward r') (h' : r'.Onward r'') : r.Onward r'' where
  outlived := h.outlived.trans h'.outlived
  nextPeer := Nat.le_trans h.nextPeer h'.nextPeer
  ids g id hid := by
    rcases h'.ids g id hid with hold | hnew
    · exact h.ids g id hold
    · exact Or.inr (Nat.le_trans h.nextPeer hnew)

theorem ids_old (h : r.Onward r') {id : PeerId} (hold : id.number < r.nextPeer) {g : GroupId}
    (hid : id ∈ (r'.group g).ids) : id ∈ (r.group g).ids :=
  (h.ids g id hid).resolve_right (Nat.not_le.2 hold)

end Onward

theorem onward_modifyGroup (r : Registry) (g : GroupId) {f : Group → Group}
    (hids : ∀ x, (f x).ids = x.ids) (hend : ∀ x, (f x).endpoint = x.endpoint) :
    r.Onward (r.modifyGroup g f) where
  outlived := outlived_modifyGroup r g hend
  nextPeer := Nat.le_refl _
  ids g' id hid := by
    left
    by_cases hfounded : r.Founded g
    · by_cases hg : g' = g
      · subst hg
        rwa [group_modifyGroup_self f hfounded, hids] at hid
      · rwa [group_modifyGroup_of_ne r f hg] at hid
    · rwa [modifyGroup_of_not_founded f hfounded] at hid

/-- A registry later on: whom it has is an old source, declared as before, or a new one. -/
structure Later (r r' : Registry) : Prop where
  outlived : r.Outlived r'
  nextPeer : r.nextPeer ≤ r'.nextPeer
  seats : ∀ g, ∀ seat ∈ r'.seats g, seat ∈ r.seats g ∨ r.nextPeer ≤ seat.1.number

namespace Later

variable {r r' r'' : Registry}

theorem refl (r : Registry) : r.Later r :=
  ⟨Outlived.refl r, Nat.le_refl _, fun _ _ => Or.inl⟩

theorem trans (h : r.Later r') (h' : r'.Later r'') : r.Later r'' where
  outlived := h.outlived.trans h'.outlived
  nextPeer := Nat.le_trans h.nextPeer h'.nextPeer
  seats g seat hseat := by
    rcases h'.seats g seat hseat with hold | hnew
    · exact h.seats g seat hold
    · exact Or.inr (Nat.le_trans h.nextPeer hnew)

theorem onward (h : r.Later r') : r.Onward r' where
  outlived := h.outlived
  nextPeer := h.nextPeer
  ids g id hid := by
    obtain ⟨m, hm, rfl⟩ := List.mem_map.1 hid
    rcases h.seats g m.seat (List.mem_map_of_mem hm) with hold | hnew
    · obtain ⟨m', hm', hseat⟩ := List.mem_map.1 hold
      have hsame : m'.id = m.id := congrArg Prod.fst hseat
      exact Or.inl (hsame ▸ List.mem_map_of_mem hm')
    · exact Or.inr hnew

end Later

theorem later_modifyGroup (r : Registry) (g : GroupId) {f : Group → Group}
    (hseats : ∀ x, (f x).members.map Member.seat ⊆ x.members.map Member.seat)
    (hend : ∀ x, (f x).endpoint = x.endpoint) : r.Later (r.modifyGroup g f) where
  outlived := outlived_modifyGroup r g hend
  nextPeer := Nat.le_refl _
  seats g' _ hseat := Or.inl (r.seats_modifyGroup_subset g hseats g' hseat)

theorem later_receive [Exponential] (r : Registry) (t : Registration) (now : Float) :
    r.Later (r.receive t now).2 := by
  rw [receive_snd]
  exact r.later_modifyGroup t.group (fun x => x.seats_receive_subset t.id now)
    fun x => x.endpoint_receive t.id now

namespace Coherent

variable {r : Registry}

theorem later_register (h : Coherent r) (key : String) (c : Contender) :
    r.Later (r.register key c).2 where
  outlived := h.outlived_register key c
  nextPeer := Nat.le_succ _
  seats g seat hseat := by
    rcases mem_seats_register h.founded hseat with hold | ⟨_, rfl⟩
    · exact Or.inl hold
    · exact Or.inr (Nat.le_refl _)

theorem later_deregister (h : Coherent r) (key : String) (id : PeerId) :
    r.Later (r.deregister key id).2 where
  outlived := h.outlived_deregister key id
  nextPeer := Nat.le_of_eq (nextPeer_deregister r key id).symm
  seats g _ hseat := Or.inl (r.seats_deregister_subset key id g hseat)

end Coherent

/-! ## Registrations -/

/-- Whether the source of a registration, as long as it is in its group, is declared as some
contender. -/
def Declares (r : Registry) (t : Registration) (c : Contender) : Prop :=
  t.id.number < r.nextPeer ∧ ∀ seat ∈ r.seats t.group, seat.1 = t.id → seat.2 = c

theorem Declares.later {r r' : Registry} {t : Registration} {c : Contender} (h : r.Declares t c)
    (hlater : r.Later r') : r'.Declares t c := by
  refine ⟨Nat.lt_of_lt_of_le h.1 hlater.nextPeer, fun seat hseat hid => ?_⟩
  rcases hlater.seats t.group seat hseat with hold | hnew
  · exact h.2 seat hold hid
  · rw [hid] at hnew
    exact absurd h.1 (Nat.not_lt.2 hnew)

theorem Coherent.declares_register {r : Registry} (h : Coherent r) (key : String) (c : Contender) :
    (r.register key c).2.Declares (r.register key c).1 c.declared := by
  rw [register_fst]
  refine ⟨Nat.lt_succ_self _, fun seat hseat hid => ?_⟩
  rcases mem_seats_register h.founded hseat with hold | ⟨_, rfl⟩
  · -- whoever was there before has an older identity
    obtain ⟨m, hm, rfl⟩ := List.mem_map.1 hold
    have hlt : m.id.number < r.nextPeer := h.below_next (List.mem_map_of_mem hm)
    have hnumber : m.id.number = r.nextPeer := congrArg PeerId.number hid
    exact absurd hlt (Nat.not_lt.2 (Nat.le_of_eq hnumber.symm))
  · rfl

/-! ## What users do by hand -/

/-- What whoever has a registry at hand may do to it, apart from registering and from rewriting
what is declared of a source. -/
inductive Use where
  | deregister (key : String) (id : PeerId)
  | observe (g : GroupId) (id : PeerId) (now : Float)
  | receive (g : GroupId) (id : PeerId) (now : Float)

variable [Exponential]

def use (r : Registry) : Use → Registry
  | .deregister key id => (r.deregister key id).2
  | .observe g id now => r.modifyGroup g (·.observe id now)
  | .receive g id now => r.modifyGroup g fun x => (x.receive id now).2

theorem nextPeer_use (r : Registry) (x : Use) : (r.use x).nextPeer = r.nextPeer := by
  cases x with
  | deregister key id => exact nextPeer_deregister r key id
  | observe g id now => rfl
  | receive g id now => rfl

namespace Coherent

variable {r : Registry}

theorem use (h : Coherent r) (x : Use) : Coherent (r.use x) := by
  cases x with
  | deregister key id => exact h.deregister key id
  | observe g id now => exact h.modifyGroup g (fun x => x.ids_observe id now) fun _ => rfl
  | receive g id now =>
      exact h.modifyGroup g (fun x => x.ids_receive id now) fun x => x.endpoint_receive id now

theorem later_use (h : Coherent r) (x : Use) : r.Later (r.use x) := by
  cases x with
  | deregister key id => exact h.later_deregister key id
  | observe g id now =>
      exact r.later_modifyGroup g (fun x => x.seats_observe_subset id now) fun _ => rfl
  | receive g id now =>
      exact r.later_modifyGroup g (fun x => x.seats_receive_subset id now)
        fun x => x.endpoint_receive id now

end Coherent

end Registry

end PortArbiter
