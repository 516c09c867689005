import PortArbiter.Proofs.Registry.Party
/-!
# Registrations made and given back

Registrations only add to a registry, and giving them back only takes away. When everything that
was added is taken away again, every entry and every group that there was is as before. What is left
are retired groups that nobody knows, and a counter of identities that has gone on.
-/

namespace PortArbiter.Registry

structure Grown (r r' : Registry) : Prop where
  outlived : r.Outlived r'
  lookup : ∀ key g, r.lookup key = some g → r'.lookup key = some g
  keys : ∃ new, r'.live.map Entry.key = r.live.map Entry.key ++ new
  nextPeer : r.nextPeer ≤ r'.nextPeer

structure Shrunk (r r' : Registry) : Prop where
  outlived : r.Outlived r'
  lookup : ∀ key g, r'.lookup key = some g → r.lookup key = some g
  keys : (r'.live.map Entry.key).Sublist (r.live.map Entry.key)
  nextPeer : r'.nextPeer = r.nextPeer

structure Untouched (r r' : Registry) : Prop where
  live : r'.live = r.live
  group : ∀ g, r.Founded g → r'.Founded g ∧ r'.group g = r.group g
  nextPeer : r.nextPeer ≤ r'.nextPeer

theorem Untouched.refl (r : Registry) : r.Untouched r :=
  ⟨rfl, fun _ hg => ⟨hg, rfl⟩, Nat.le_refl _⟩

theorem Grown.refl (r : Registry) : r.Grown r :=
  ⟨Outlived.refl r, fun _ _ hg => hg, ⟨[], (List.append_nil _).symm⟩, Nat.le_refl _⟩

theorem Shrunk.refl (r : Registry) : r.Shrunk r :=
  ⟨Outlived.refl r, fun _ _ hg => hg, List.Sublist.refl _, rfl⟩

theorem Grown.register {r r' : Registry} (h : r.Grown r') (hr' : r'.Coherent) (key : String)
    (c : Contender) : r.Grown (r'.register key c).2 where
  outlived := h.outlived.trans (hr'.outlived_register key c)
  lookup := by
    intro k g hg
    have hold := h.lookup k g hg
    rw [lookup_register]
    split
    · rename_i hk
      rw [target, ← hk, hold, Option.getD_some]
    · exact hold
  keys := by
    obtain ⟨new, hnew⟩ := h.keys
    rw [Coherent.keys_register, Coherent.keys_found, hnew, List.append_assoc]
    exact ⟨_, rfl⟩
  nextPeer := by
    rw [nextPeer_register]
    exact Nat.le_succ_of_le h.nextPeer

theorem Shrunk.release {r r' : Registry} (h : r.Shrunk r') (hr' : r'.Coherent)
    (t : Registration) : r.Shrunk (r'.release t) where
  outlived := h.outlived.trans (hr'.outlived_deregister t.key t.id)
  lookup k g hg := h.lookup k g (Coherent.lookup_of_deregister hg)
  keys := (Coherent.keys_deregister_sublist r' t.key t.id).trans h.keys
  nextPeer := (nextPeer_deregister r' t.key t.id).trans h.nextPeer

/-! ## Entries -/

theorem entryOf?_congr {r r' : Registry} {key : String} (hlookup : r'.lookup key = r.lookup key)
    (henrolled : r'.enrolled key = r.enrolled key) : r'.entryOf? key = r.entryOf? key := by
  rw [lookup, lookup] at hlookup
  rw [enrolled, enrolled] at henrolled
  cases he : r.entryOf? key with
  | none =>
      rw [he] at hlookup
      exact Option.map_eq_none_iff.1 hlookup
  | some e =>
      rw [he] at hlookup henrolled
      obtain ⟨e', he', hgroup⟩ := Option.map_eq_some_iff.1 hlookup
      rw [he'] at henrolled
      have hkey : e'.key = e.key := (key_of_entryOf? he').trans (key_of_entryOf? he).symm
      have hmembers : e'.members = e.members := henrolled
      rw [he']
      cases e
      cases e'
      simp_all

/-- With one entry for each key, the keys in their order and the entry of each make the registry's
list of entries. -/
theorem live_eq {r : Registry} (h : (r.live.map Entry.key).Nodup) :
    r.live.map some = (r.live.map Entry.key).map r.entryOf? := by
  rw [List.map_map]
  apply List.map_congr_left
  intro e he
  exact (find?_of_nodup_map h he).symm

theorem eq_of_sublist_append {ks ks' new : List String} (hsub : ks'.Sublist (ks ++ new))
    (hnodup : (ks ++ new).Nodup) (hmem : ∀ k, k ∈ ks' ↔ k ∈ ks) : ks' = ks := by
  obtain ⟨hks, _, hdisjoint⟩ := List.nodup_append.1 hnodup
  obtain ⟨front, back, rfl, hfront, hback⟩ := List.sublist_append_iff.1 hsub
  have hnone : back = [] := by
    apply List.eq_nil_iff_forall_not_mem.2
    intro k hk
    exact hdisjoint k ((hmem k).1 (List.mem_append_right _ hk)) k (hback.subset hk) rfl
  subst hnone
  rw [List.append_nil] at hmem ⊢
  exact hfront.eq_of_length_le (hks.length_le_of_subset fun k hk => (hmem k).2 hk)

/-- Giving back all that was registered restores a registry: where registrations and then releases
lead to the old members in all groups, nothing is touched. -/
theorem Untouched.of_roster {r r₁ r₂ : Registry} (hr : r.Coherent) (hr₁ : r₁.Coherent)
    (hr₂ : r₂.Coherent) (hgrown : r.Grown r₁) (hshrunk : r₁.Shrunk r₂)
    (hroster : ∀ key, r₂.roster key = r.roster key) : r.Untouched r₂ := by
  have hlookup : ∀ key, r₂.lookup key = r.lookup key := by
    intro key
    cases hold : r.lookup key with
    | none => rw [← hr₂.roster_eq_nil_iff, hroster, hr.roster_eq_nil_iff, hold]
    | some g =>
        cases hnew : r₂.lookup key with
        | none =>
            rw [← hr₂.roster_eq_nil_iff, hroster, hr.roster_eq_nil_iff, hold] at hnew
            cases hnew
        | some g' => rw [← hshrunk.lookup key g' hnew, hgrown.lookup key g hold]
  have hentry : ∀ key, r₂.entryOf? key = r.entryOf? key := by
    intro key
    apply entryOf?_congr (hlookup key)
    rw [← hr₂.ids_roster, hroster, hr.ids_roster]
  have hkeys : r₂.live.map Entry.key = r.live.map Entry.key := by
    -- new keys came behind the old ones, and taking some away has moved none of the others
    obtain ⟨new, hnew⟩ := hgrown.keys
    have hsub := hshrunk.keys
    have hnodup := hr₁.keys_nodup
    rw [hnew] at hsub hnodup
    apply eq_of_sublist_append hsub hnodup
    have hmem : ∀ (r : Registry) key, key ∈ r.live.map Entry.key ↔ (r.entryOf? key).isSome := by
      intro r key
      rw [entryOf?, List.find?_isSome]
      simp
    intro key
    rw [hmem, hmem, hentry]
  have hlive : r₂.live = r.live := by
    apply (List.map_inj_right fun _ _ => Option.some.inj).1
    rw [live_eq hr₂.keys_nodup, live_eq hr.keys_nodup, hkeys, funext hentry]
  refine ⟨hlive, ?_, hshrunk.nextPeer ▸ hgrown.nextPeer⟩
  intro g hg
  obtain ⟨hfounded, hend⟩ := (hgrown.outlived.trans hshrunk.outlived) g hg
  refine ⟨hfounded, ?_⟩
  have hmembers : (r₂.group g).members = (r.group g).members := by
    by_cases hkept : ∃ key, r.lookup key = some g
    · obtain ⟨key, hkey⟩ := hkept
      rw [← roster_of_lookup hkey, ← hroster, roster_of_lookup ((hlookup key).trans hkey)]
    · -- a group without a key is retired, before and after
      have hgone : ∀ key, r.lookup key ≠ some g := fun key hkey => hkept ⟨key, hkey⟩
      have hgone' : ∀ key, r₂.lookup key ≠ some g := fun key => hlookup key ▸ hgone key
      rw [(Group.members_eq_nil_iff _).2 (hr.retired hgone),
        (Group.members_eq_nil_iff _).2 (hr₂.retired hgone')]
  cases hold : r.group g
  cases hnew : r₂.group g
  simp_all

/-! ## What users notice -/

def Gave (r : Registry) (t : Registration) : Prop :=
  r.Issued t ∧ t.id.number < r.nextPeer

namespace Untouched

variable {r r' : Registry}

theorem rename_group {ρ : PeerId → PeerId} (h : r.Coherent)
    (hρ : ∀ id, id.number < r.nextPeer → ρ id = id) (g : GroupId) :
    (r.group g).rename ρ = r.group g := by
  have hmembers : (r.group g).members.map (Member.rename ρ) = (r.group g).members := by
    rw [List.map_congr_left (g := id), List.map_id]
    intro m hm
    have hold : ρ m.id = m.id := hρ m.id (h.below_next (List.mem_map_of_mem hm))
    rw [Member.rename, hold]
    rfl
  rw [Group.rename, hmembers]

theorem mirrors (h : r.Untouched r') (hr : r.Coherent) (hr' : r'.Coherent) {ρ : PeerId → PeerId}
    (hρ : ∀ id, id.number < r.nextPeer → ρ id = id) : Mirrors (fun _ => True) ρ id r r' where
  coherent := hr
  coherent' := hr'
  own_endpoint _ _ := trivial
  founded g hg := (h.group g hg).1
  injective _ _ _ _ heq := heq
  group g hg := (h.group g hg).2.trans (rename_group hr hρ g).symm
  lookup key _ := by
    rw [lookup, entryOf?, h.live, Option.map_id]
    rfl

/-- Whoever holds registrations of the old registry gets the same answers from an untouched one:
the very same as long as nobody registers, and otherwise new identities alone can differ. -/
theorem answers [Exponential] (h : r.Untouched r') (hr : r.Coherent) (hr' : r'.Coherent)
    {ρ : PeerId → PeerId} (hinj : Function.Injective ρ)
    (hρ : ∀ id, id.number < r.nextPeer → ρ id = id) {tokens : List Registration}
    (htokens : ∀ t ∈ tokens, r.Gave t) {requests : List Request}
    (hnext : ∀ n < Party.registrations requests, ρ ⟨r.nextPeer + n⟩ = ⟨r'.nextPeer + n⟩) :
    Party.answers ⟨r', tokens⟩ requests =
      (Party.answers ⟨r, tokens⟩ requests).map (Answer.rename ρ) := by
  have halike : Party.Alike (fun _ => True) ρ id ⟨r, tokens⟩ ⟨r', tokens⟩ := {
    mirrors := h.mirrors hr hr' hρ
    tokens := by
      symm
      show tokens.map (Registration.rename ρ id) = tokens
      rw [List.map_congr_left (g := id), List.map_id]
      intro t ht
      rw [Registration.rename, hρ _ (htokens t ht).2]
      rfl
    issued := fun t ht => (htokens t ht).1 }
  exact halike.answers hinj requests (fun _ _ _ _ => trivial) hnext

end Untouched

end PortArbiter.Registry
