import PortArbiter.Proofs.Registry.Coherence
/-!
# Sessions

A session is any sequence of calls on a registry and on the groups that callers keep, retired ones
included. Along every session the entries and the groups agree, whoever holds a registration is
enrolled until it is revoked, and a group that was retired never comes back.
-/

namespace PortArbiter.Registry

/-- The source of a registration is enrolled, and its group is the live group of its key. -/
def InForce (r : Registry) (t : Registration) : Prop :=
  t.id ∈ r.enrolled t.key ∧ r.lookup t.key = some t.group

def Retired (r : Registry) (g : GroupId) : Prop :=
  r.Founded g ∧ ∀ key, r.lookup key ≠ some g

inductive Call where
  | register (key : String) (c : Contender)
  | deregister (key : String) (id : PeerId)
  /-- Give back the registration at some place among those held. -/
  | drop (place : Nat)
  | lookup (key : String)
  | observe (g : GroupId) (id : PeerId) (now : Float)
  | update (g : GroupId) (id : PeerId) (f : Contender → Contender)
  | arbitrate (g : GroupId) (id : PeerId) (now : Float)
  | receive (g : GroupId) (id : PeerId) (now : Float)

/-- A registry, the registrations that are held, and what was deregistered by name. -/
structure Session where
  registry : Registry := {}
  held : List Registration := []
  revoked : List (String × PeerId) := []

namespace Session

def step [Exponential] (s : Session) : Call → Session
  | .register key c =>
    let (t, registry) := s.registry.register key c
    { s with registry, held := s.held ++ [t] }
  | .deregister key id =>
    { s with registry := (s.registry.deregister key id).2, revoked := (key, id) :: s.revoked }
  | .drop place =>
    match s.held[place]? with
    | none => s
    | some t => { s with registry := s.registry.release t, held := s.held.eraseIdx place }
  | .lookup _ => s
  | .observe g id now => { s with registry := s.registry.modifyGroup g (·.observe id now) }
  | .update g id f => { s with registry := s.registry.modifyGroup g (·.update id f) }
  | .arbitrate _ _ _ => s
  | .receive g id now =>
    { s with registry := s.registry.modifyGroup g fun x => (x.receive id now).2 }

def run [Exponential] (s : Session) (calls : List Call) : Session :=
  calls.foldl step s

structure Sound (s : Session) : Prop where
  coherent : s.registry.Coherent
  held_nodup : (s.held.map Registration.id).Nodup
  held_old : ∀ t ∈ s.held, t.id.number < s.registry.nextPeer
  in_force : ∀ t ∈ s.held, (t.key, t.id) ∉ s.revoked → InForce s.registry t

end Session

/-! ## Registrations in force -/

theorem inForce_register_self (r : Registry) (key : String) (c : Contender) :
    InForce (r.register key c).2 (r.register key c).1 := by
  rw [register_fst]
  constructor
  · simp [enrolled_register]
  · rw [lookup_register, if_pos rfl]

theorem inForce_register {r : Registry} {t : Registration} (key : String) (c : Contender)
    (h : InForce r t) : InForce (r.register key c).2 t := by
  constructor
  · rw [enrolled_register]
    exact List.mem_append_left _ h.1
  · rw [lookup_register]
    split
    · rename_i hkey
      rw [target, ← hkey, h.2]
      rfl
    · exact h.2

theorem Coherent.inForce_deregister {r : Registry} (hr : r.Coherent) {t : Registration}
    {key : String} {id : PeerId} (hne : (t.key, t.id) ≠ (key, id)) (h : InForce r t) :
    InForce (r.deregister key id).2 t := by
  have hmem : t.id ∈ (r.deregister key id).2.enrolled t.key := by
    rw [enrolled_deregister]
    split
    · rename_i hkey
      refine List.mem_filter.2 ⟨h.1, ?_⟩
      have hid : t.id ≠ id := fun heq => hne (by rw [hkey, heq])
      simpa using hid
    · exact h.1
  refine ⟨hmem, ?_⟩
  cases hlookup : (r.deregister key id).2.lookup t.key with
  | none =>
      rw [((hr.deregister key id).enrolled_eq_nil_iff t.key).2 hlookup] at hmem
      exact absurd hmem List.not_mem_nil
  | some g =>
      rw [← Coherent.lookup_of_deregister hlookup]
      exact h.2

/-! ## Retired groups -/

theorem retired_modifyGroup {r : Registry} {g : GroupId} (g' : GroupId) (f : Group → Group)
    (h : Retired r g) : Retired (r.modifyGroup g' f) g :=
  ⟨(founded_modifyGroup r g' f g).2 h.1, h.2⟩

theorem retired_register {r : Registry} {g : GroupId} (key : String) (c : Contender)
    (h : Retired r g) : Retired (r.register key c).2 g := by
  refine ⟨founded_register h.1, ?_⟩
  intro k hk
  rw [lookup_register] at hk
  split at hk
  · have hg : r.target key = g := Option.some.inj hk
    rw [target] at hg
    cases hkey : r.lookup key with
    | none =>
        have hfounded := h.1
        rw [← hg, hkey] at hfounded
        exact Nat.lt_irrefl _ hfounded
    | some g' =>
        rw [hkey] at hg
        exact h.2 key (hg ▸ hkey)
  · exact h.2 k hk

theorem retired_deregister {r : Registry} {g : GroupId} (key : String) (id : PeerId)
    (h : Retired r g) : Retired (r.deregister key id).2 g :=
  ⟨(founded_deregister r key id g).2 h.1, fun k hk => h.2 k (Coherent.lookup_of_deregister hk)⟩

namespace Session.Sound

variable {s : Session}

theorem initial : Sound {} where
  coherent := Coherent.empty
  held_nodup := List.nodup_nil
  held_old := nofun
  in_force := nofun

theorem modifyGroup (h : s.Sound) (g : GroupId) {f : Group → Group}
    (hids : ∀ x, (f x).ids = x.ids) (hend : ∀ x, (f x).endpoint = x.endpoint) :
    Sound { s with registry := s.registry.modifyGroup g f } where
  coherent := h.coherent.modifyGroup g hids hend
  held_nodup := h.held_nodup
  held_old := h.held_old
  in_force := h.in_force

variable [Exponential]

theorem register (h : s.Sound) (key : String) (c : Contender) :
    (s.step (.register key c)).Sound where
  coherent := h.coherent.register key c
  held_nodup := by
    show ((s.held ++ [(s.registry.register key c).1]).map Registration.id).Nodup
    rw [List.map_append, List.nodup_append]
    refine ⟨h.held_nodup, by simp, ?_⟩
    intro id hid id' hid'
    obtain ⟨t, ht, rfl⟩ := List.mem_map.1 hid
    have hnew : id' = ⟨s.registry.nextPeer⟩ := by simpa [register_fst] using hid'
    rintro rfl
    have hold := h.held_old t ht
    rw [hnew] at hold
    exact Nat.lt_irrefl _ hold
  held_old := by
    intro t ht
    rcases List.mem_append.1 ht with hold | hnew
    · exact Nat.lt_succ_of_lt (h.held_old t hold)
    · rw [List.mem_singleton.1 hnew]
      exact Nat.lt_succ_self _
  in_force := by
    intro t ht hrevoked
    rcases List.mem_append.1 ht with hold | hnew
    · exact inForce_register key c (h.in_force t hold hrevoked)
    · rw [List.mem_singleton.1 hnew]
      exact inForce_register_self s.registry key c

theorem deregister (h : s.Sound) (key : String) (id : PeerId) :
    (s.step (.deregister key id)).Sound where
  coherent := h.coherent.deregister key id
  held_nodup := h.held_nodup
  held_old := by
    intro t ht
    show t.id.number < (s.registry.deregister key id).2.nextPeer
    rw [nextPeer_deregister]
    exact h.held_old t ht
  in_force := by
    intro t ht hrevoked
    obtain ⟨hne, hold⟩ := not_or.1 (mt List.mem_cons.2 hrevoked)
    exact h.coherent.inForce_deregister hne (h.in_force t ht hold)

theorem drop (h : s.Sound) (place : Nat) : (s.step (.drop place)).Sound := by
  simp only [step]
  split
  · exact h
  · rename_i t ht
    have hsub : (s.held.eraseIdx place).Sublist s.held := List.eraseIdx_sublist _ _
    exact {
      coherent := h.coherent.release t
      held_nodup := h.held_nodup.sublist (hsub.map _)
      held_old := by
        intro t' ht'
        show t'.id.number < (s.registry.deregister t.key t.id).2.nextPeer
        rw [nextPeer_deregister]
        exact h.held_old t' (hsub.subset ht')
      in_force := by
        intro t' ht' hrevoked
        have hid : t'.id ≠ t.id := by
          obtain ⟨i, hi, hget⟩ := List.mem_eraseIdx_iff_getElem?.1 ht'
          intro heq
          have hplace : (s.held.map Registration.id)[place]? = some t.id := by simp [ht]
          have hother : (s.held.map Registration.id)[i]? = some t.id := by simp [hget, heq]
          have hlt : i < (s.held.map Registration.id).length :=
            (List.getElem?_eq_some_iff.1 hother).1
          exact hi ((List.getElem?_inj hlt h.held_nodup).1 (hother.trans hplace.symm))
        exact h.coherent.inForce_deregister (fun heq => hid (Prod.mk.inj heq).2)
          (h.in_force t' (hsub.subset ht') hrevoked) }

theorem step (h : s.Sound) (call : Call) : (s.step call).Sound := by
  cases call with
  | register key c => exact h.register key c
  | deregister key id => exact h.deregister key id
  | drop place => exact h.drop place
  | lookup key => exact h
  | observe g id now => exact h.modifyGroup g (fun x => x.ids_observe id now) (fun _ => rfl)
  | update g id f => exact h.modifyGroup g (fun x => x.ids_update id f) (fun _ => rfl)
  | arbitrate g id now => exact h
  | receive g id now =>
      exact h.modifyGroup g (fun x => x.ids_receive id now) (fun x => x.endpoint_receive id now)

theorem run (h : s.Sound) (calls : List Call) : (s.run calls).Sound := by
  induction calls generalizing s with
  | nil => exact h
  | cons call calls ih => exact ih (h.step call)

end Session.Sound

namespace Session

variable [Exponential]

theorem retired_step {s : Session} {g : GroupId} (call : Call) (h : Retired s.registry g) :
    Retired (s.step call).registry g := by
  cases call with
  | register key c => exact retired_register key c h
  | deregister key id => exact retired_deregister key id h
  | drop place =>
      simp only [step]
      split
      · exact h
      · exact retired_deregister _ _ h
  | lookup key => exact h
  | observe g' id now => exact retired_modifyGroup g' _ h
  | update g' id f => exact retired_modifyGroup g' _ h
  | arbitrate g' id now => exact h
  | receive g' id now => exact retired_modifyGroup g' _ h

theorem founded_step {s : Session} {g : GroupId} (call : Call) (h : s.registry.Founded g) :
    (s.step call).registry.Founded g := by
  cases call with
  | register key c => exact founded_register h
  | deregister key id => exact (founded_deregister _ key id g).2 h
  | drop place =>
      simp only [step]
      split
      · exact h
      · exact (founded_deregister _ _ _ g).2 h
  | lookup key => exact h
  | observe g' id now => exact (founded_modifyGroup _ g' _ g).2 h
  | update g' id f => exact (founded_modifyGroup _ g' _ g).2 h
  | arbitrate g' id now => exact h
  | receive g' id now => exact (founded_modifyGroup _ g' _ g).2 h

theorem retired_run {s : Session} {g : GroupId} (calls : List Call) (h : Retired s.registry g) :
    Retired (s.run calls).registry g := by
  induction calls generalizing s with
  | nil => exact h
  | cons call calls ih => exact ih (retired_step call h)

theorem founded_run {s : Session} {g : GroupId} (calls : List Call) (h : s.registry.Founded g) :
    (s.run calls).registry.Founded g := by
  induction calls generalizing s with
  | nil => exact h
  | cons call calls ih => exact ih (founded_step call h)

/-- Along every session: each key has one entry, and has one exactly while someone is enrolled
under it; its group lists the enrolled identities in the order of registration; no identity is in
two groups; a registration that is held and was not revoked by name is in force, so that two of one
key share their group; and a group that left the registry is empty and never comes back. -/
theorem run_membership (calls : List Call) :
    let s := run {} calls
    (s.registry.live.map Entry.key).Nodup ∧
    (∀ key, (∃ g, s.registry.lookup key = some g) ↔ s.registry.enrolled key ≠ []) ∧
    (∀ key g, s.registry.lookup key = some g →
      (s.registry.group g).ids.Pairwise (·.number < ·.number) ∧
      (s.registry.group g).ids = s.registry.enrolled key) ∧
    (∀ g g' id, id ∈ (s.registry.group g).ids → id ∈ (s.registry.group g').ids → g = g') ∧
    (∀ t ∈ s.held, (t.key, t.id) ∉ s.revoked →
      t.id ∈ s.registry.enrolled t.key ∧ s.registry.lookup t.key = some t.group) ∧
    (∀ t ∈ s.held, ∀ t' ∈ s.held, (t.key, t.id) ∉ s.revoked → (t'.key, t'.id) ∉ s.revoked →
      t.key = t'.key → t.group = t'.group) ∧
    (∀ key g between, s.registry.lookup key = some g →
      (∀ k, (s.run between).registry.lookup k ≠ some g) →
      ∀ later, (((s.run between).run later).registry.group g).members = [] ∧
        ∀ k, ((s.run between).run later).registry.lookup k ≠ some g) := by
  intro s
  have hs : s.Sound := Sound.initial.run calls
  refine ⟨hs.coherent.keys_nodup, ?_, ?_, fun g g' id => hs.coherent.disjoint, hs.in_force, ?_, ?_⟩
  · intro key
    rw [ne_eq, hs.coherent.enrolled_eq_nil_iff, ← ne_eq, Option.ne_none_iff_exists']
  · intro key g hg
    obtain ⟨e, he, rfl⟩ := (lookup_eq_some_iff _ _ _).1 hg
    refine ⟨hs.coherent.ascending _, ?_⟩
    rw [hs.coherent.ids_group he, enrolled, he]
    rfl
  · intro t ht t' ht' hrevoked hrevoked' hkey
    have hlookup := (hs.in_force t ht hrevoked).2
    rw [hkey, (hs.in_force t' ht' hrevoked').2] at hlookup
    exact (Option.some.inj hlookup).symm
  · intro key g between hg hleft later
    have hretired : Retired ((s.run between).run later).registry g :=
      retired_run later ⟨founded_run between (hs.coherent.founded hg), hleft⟩
    refine ⟨?_, hretired.2⟩
    rw [Group.members_eq_nil_iff]
    exact ((hs.run between).run later).coherent.retired hretired.2

end Session

end PortArbiter.Registry
