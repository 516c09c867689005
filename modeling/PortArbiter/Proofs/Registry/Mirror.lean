import PortArbiter.Proofs.Priority.Renaming
import PortArbiter.Proofs.Registry.Roster
/-!
# A registry within another one

One registry can stand inside another: whatever the first one knows, the second one knows of the
same keys, under other identities and group numbers. Operations on these keys keep the two alike,
and operations on other keys do not concern the first one at all.
-/

namespace PortArbiter

def Registration.rename (ρ : PeerId → PeerId) (γ : GroupId → GroupId) (t : Registration) :
    Registration :=
  ⟨t.key, ρ t.id, γ t.group⟩

namespace Registry

/-! ## Groups for good -/

def Issued (r : Registry) (t : Registration) : Prop :=
  r.Founded t.group ∧ (r.group t.group).endpoint = t.key

def Outlived (r r' : Registry) : Prop :=
  ∀ g, r.Founded g → r'.Founded g ∧ (r'.group g).endpoint = (r.group g).endpoint

theorem Outlived.refl (r : Registry) : r.Outlived r :=
  fun _ hg => ⟨hg, rfl⟩

theorem Outlived.trans {r r' r'' : Registry} (h : r.Outlived r') (h' : r'.Outlived r'') :
    r.Outlived r'' := by
  intro g hg
  obtain ⟨hfounded, hend⟩ := h g hg
  obtain ⟨hfounded', hend'⟩ := h' g hfounded
  exact ⟨hfounded', hend'.trans hend⟩

theorem Outlived.issued {r r' : Registry} (h : r.Outlived r') {t : Registration}
    (ht : r.Issued t) : r'.Issued t :=
  ⟨(h t.group ht.1).1, (h t.group ht.1).2.trans ht.2⟩

theorem founded_register_iff {r : Registry} {key : String} {c : Contender}
    (h : ∀ g, r.lookup key = some g → r.Founded g) (g : GroupId) :
    (r.register key c).2.Founded g ↔ r.Founded g ∨ g = r.target key := by
  constructor
  · intro hg
    have hfound : (r.found key).2.Founded g := (founded_modifyGroup _ _ _ g).1 hg
    cases hkey : r.lookup key with
    | some g' =>
        left
        simpa [found, hkey] using hfound
    | none =>
        simp only [found, hkey, Founded, Array.size_push] at hfound
        rcases Nat.lt_succ_iff_lt_or_eq.1 hfound with hlt | heq
        · exact Or.inl hlt
        · right
          rw [target, hkey, Option.getD_none]
          cases g
          exact congrArg GroupId.mk heq
  · rintro (hg | rfl)
    · exact founded_register hg
    · exact founded_register_target c h

/-- A registration goes to an old group only where that is the live group of its key. -/
theorem lookup_of_target {r : Registry} {key : String} {g : GroupId} (hg : r.Founded g)
    (htarget : g = r.target key) : r.lookup key = some g := by
  rw [target] at htarget
  cases hkey : r.lookup key with
  | some g' => rw [htarget, hkey, Option.getD_some]
  | none =>
      rw [htarget, hkey] at hg
      exact absurd hg (Nat.lt_irrefl _)

namespace Coherent

variable {r : Registry}

theorem outlived_register (h : Coherent r) (key : String) (c : Contender) :
    r.Outlived (r.register key c).2 := by
  intro g hg
  refine ⟨founded_register hg, ?_⟩
  rw [h.endpoint_register]
  split
  · rename_i htarget
    exact (h.endpoint (lookup_of_target hg htarget)).symm
  · rfl

/-- What leaving does to the keys: one whose last member leaves is given up. -/
theorem lookup_deregister (h : Coherent r) (key : String) (id : PeerId) (k : String) :
    (r.deregister key id).2.lookup k =
      if k = key ∧ (r.enrolled key).filter (· ≠ id) = [] then none else r.lookup k := by
  have hnone := (h.deregister key id).enrolled_eq_nil_iff k
  rw [enrolled_deregister] at hnone
  by_cases hk : k = key
  · subst hk
    rw [if_pos rfl] at hnone
    by_cases hlast : (r.enrolled k).filter (· ≠ id) = []
    · rw [if_pos ⟨rfl, hlast⟩, hnone.1 hlast]
    · rw [if_neg fun hboth => hlast hboth.2]
      cases hafter : (r.deregister k id).2.lookup k with
      | none => exact absurd (hnone.2 hafter) hlast
      | some g => exact (lookup_of_deregister hafter).symm
  · rw [if_neg fun hboth => hk hboth.1, lookup_deregister_of_ne hk]

theorem outlived_deregister (h : Coherent r) (key : String) (id : PeerId) :
    r.Outlived (r.deregister key id).2 :=
  fun g hg => ⟨(founded_deregister r key id g).2 hg, h.endpoint_deregister key id g⟩

end Coherent

theorem outlived_modifyGroup (r : Registry) (g : GroupId) {f : Group → Group}
    (hend : ∀ x, (f x).endpoint = x.endpoint) : r.Outlived (r.modifyGroup g f) := by
  intro g' hg'
  refine ⟨(founded_modifyGroup r g f g').2 hg', ?_⟩
  by_cases heq : g' = g
  · subst heq
    rw [group_modifyGroup_self f hg', hend]
  · rw [group_modifyGroup_of_ne r f heq]

/-! ## Mirrored registries -/

/-- A registry as a part of a larger one: its keys are `own`, and the larger registry has all of its
groups, under numbers of their own and with renamed members, and has them under the same keys. -/
structure Mirrors (own : String → Prop) (ρ : PeerId → PeerId) (γ : GroupId → GroupId)
    (r r' : Registry) : Prop where
  coherent : r.Coherent
  coherent' : r'.Coherent
  own_endpoint : ∀ g, r.Founded g → own (r.group g).endpoint
  founded : ∀ g, r.Founded g → r'.Founded (γ g)
  injective : ∀ g₁ g₂, r.Founded g₁ → r.Founded g₂ → γ g₁ = γ g₂ → g₁ = g₂
  group : ∀ g, r.Founded g → r'.group (γ g) = (r.group g).rename ρ
  lookup : ∀ key, own key → r'.lookup key = (r.lookup key).map γ

namespace Mirrors

variable {own : String → Prop} {ρ : PeerId → PeerId} {γ : GroupId → GroupId} {r r' : Registry}

theorem initial (own : String → Prop) (ρ : PeerId → PeerId) (γ : GroupId → GroupId) :
    Mirrors own ρ γ {} {} where
  coherent := Coherent.empty
  coherent' := Coherent.empty
  own_endpoint _ hg := absurd hg (Nat.not_lt_zero _)
  founded _ hg := absurd hg (Nat.not_lt_zero _)
  injective _ _ hg := absurd hg (Nat.not_lt_zero _)
  group _ hg := absurd hg (Nat.not_lt_zero _)
  lookup _ _ := rfl

theorem host (h : Mirrors own ρ γ r r') {key : String} (hkey : own key) :
    r'.host key = (r.host key).rename ρ := by
  rw [Registry.host, h.lookup key hkey, Registry.host]
  cases hlookup : r.lookup key with
  | none => rfl
  | some g => exact h.group g (h.coherent.founded hlookup)

theorem roster (h : Mirrors own ρ γ r r') {key : String} (hkey : own key) :
    r'.roster key = (r.roster key).map (Member.rename ρ) := by
  rw [Registry.roster, h.host hkey]
  rfl

theorem enrolled (h : Mirrors own ρ γ r r') {key : String} (hkey : own key) :
    r'.enrolled key = (r.enrolled key).map ρ := by
  rw [← h.coherent'.ids_host, h.host hkey, Group.ids_rename, h.coherent.ids_host]

theorem lookup_eq_iff (h : Mirrors own ρ γ r r') {key : String} (hkey : own key) {g : GroupId}
    (hg : r.Founded g) : r'.lookup key = some (γ g) ↔ r.lookup key = some g := by
  rw [h.lookup key hkey]
  constructor
  · intro heq
    obtain ⟨g', hg', hγ⟩ := Option.map_eq_some_iff.1 heq
    rw [hg', h.injective g' g (h.coherent.founded hg') hg hγ]
  · intro heq
    rw [heq]
    rfl

/-! ### Operations on own keys -/

theorem target_of_founded (h : Mirrors own ρ γ r r') {key : String} (hkey : own key) {g : GroupId}
    (hg : r.Founded g) : γ g = r'.target key ↔ g = r.target key := by
  constructor
  · intro heq
    have hlive := lookup_of_target (h.founded g hg) heq
    rw [target, (h.lookup_eq_iff hkey hg).1 hlive, Option.getD_some]
  · intro heq
    have hlive := lookup_of_target hg heq
    rw [target, (h.lookup_eq_iff hkey hg).2 hlive, Option.getD_some]

/-- The partner of a group once both sides have registered under a key. Where it had a group already
nothing changes, since the targets are partners then. -/
def partner (γ : GroupId → GroupId) (r r' : Registry) (key : String) (g : GroupId) : GroupId :=
  if g = r.target key then r'.target key else γ g

theorem partner_target (γ : GroupId → GroupId) (r r' : Registry) (key : String) :
    partner γ r r' key (r.target key) = r'.target key :=
  if_pos rfl

theorem partner_of_founded (h : Mirrors own ρ γ r r') {key : String} (hkey : own key)
    {g : GroupId} (hg : r.Founded g) : partner γ r r' key g = γ g := by
  rw [partner]
  split
  · rename_i heq
    exact ((h.target_of_founded hkey hg).2 heq).symm
  · rfl

theorem partner_eq_target_iff (h : Mirrors own ρ γ r r') {key : String} (hkey : own key)
    {c : Contender} {g : GroupId} (hg : (r.register key c).2.Founded g) :
    partner γ r r' key g = r'.target key ↔ g = r.target key := by
  rcases (founded_register_iff (fun _ => h.coherent.founded) g).1 hg with hg | rfl
  · rw [h.partner_of_founded hkey hg]
    exact h.target_of_founded hkey hg
  · exact iff_of_true (partner_target γ r r' key) rfl

theorem partner_injective (h : Mirrors own ρ γ r r') {key : String} (hkey : own key)
    {c : Contender} {g₁ g₂ : GroupId} (hg₁ : (r.register key c).2.Founded g₁)
    (hg₂ : (r.register key c).2.Founded g₂)
    (heq : partner γ r r' key g₁ = partner γ r r' key g₂) : g₁ = g₂ := by
  have hiff₁ := h.partner_eq_target_iff hkey hg₁
  have hiff₂ := h.partner_eq_target_iff hkey hg₂
  rw [heq, hiff₂] at hiff₁
  have hlive : ∀ g, r.lookup key = some g → r.Founded g := fun _ => h.coherent.founded
  by_cases htarget : g₂ = r.target key
  · exact (hiff₁.1 htarget).trans htarget.symm
  · have hold₁ := ((founded_register_iff hlive g₁).1 hg₁).resolve_right (mt hiff₁.2 htarget)
    have hold₂ := ((founded_register_iff hlive g₂).1 hg₂).resolve_right htarget
    rw [h.partner_of_founded hkey hold₁, h.partner_of_founded hkey hold₂] at heq
    exact h.injective g₁ g₂ hold₁ hold₂ heq

/-- A registration on both sides, the two new groups or the two old ones becoming partners. -/
theorem register (h : Mirrors own ρ γ r r') {key : String} (hkey : own key)
    (hnext : ρ ⟨r.nextPeer⟩ = ⟨r'.nextPeer⟩) (c : Contender) :
    ∃ γ' : GroupId → GroupId, (∀ g, r.Founded g → γ' g = γ g) ∧ γ' (r.target key) = r'.target key ∧
      Mirrors own ρ γ' (r.register key c).2 (r'.register key c).2 := by
  have hlive : ∀ g, r.lookup key = some g → r.Founded g := fun _ => h.coherent.founded
  have hlive' : ∀ g, r'.lookup key = some g → r'.Founded g := fun _ => h.coherent'.founded
  have htarget := partner_target γ r r' key
  refine ⟨partner γ r r' key, fun g => h.partner_of_founded hkey, htarget, ?_⟩
  exact {
    coherent := h.coherent.register key c
    coherent' := h.coherent'.register key c
    own_endpoint := by
      intro g hg
      rw [h.coherent.endpoint_register]
      split
      · exact hkey
      · rename_i hne
        exact h.own_endpoint g (((founded_register_iff hlive g).1 hg).resolve_right hne)
    founded := by
      intro g hg
      rcases (founded_register_iff hlive g).1 hg with hg | rfl
      · rw [h.partner_of_founded hkey hg]
        exact founded_register (h.founded g hg)
      · rw [htarget]
        exact founded_register_target c hlive'
    injective := fun _ _ => h.partner_injective hkey
    group := by
      intro g hg
      have htarget_iff := h.partner_eq_target_iff hkey hg
      by_cases heq : g = r.target key
      · rw [heq, htarget, group_register_target c hlive, group_register_target c hlive',
          Group.rename_join, h.host hkey, hnext]
      · have hold := ((founded_register_iff hlive g).1 hg).resolve_right heq
        rw [group_register_of_ne c heq, group_register_of_ne c (mt htarget_iff.1 heq),
          h.partner_of_founded hkey hold, h.group g hold]
    lookup := by
      intro k hk
      rw [lookup_register, lookup_register]
      split
      · rw [Option.map_some, htarget]
      · rw [h.lookup k hk]
        apply Option.map_congr
        intro g hg
        exact (h.partner_of_founded hkey (h.coherent.founded hg)).symm }

theorem deregister (h : Mirrors own ρ γ r r') (hρ : Function.Injective ρ) {key : String}
    (hkey : own key) (id : PeerId) :
    Mirrors own ρ γ (r.deregister key id).2 (r'.deregister key (ρ id)).2 := by
  have hrest : (r'.enrolled key).filter (· ≠ ρ id) =
      ((r.enrolled key).filter (· ≠ id)).map ρ := by
    rw [h.enrolled hkey, List.filter_map]
    congr 1
    apply List.filter_congr
    intro other _
    exact decide_eq_decide.2 (not_congr hρ.eq_iff)
  exact {
    coherent := h.coherent.deregister key id
    coherent' := h.coherent'.deregister key (ρ id)
    own_endpoint := by
      intro g hg
      rw [founded_deregister] at hg
      rw [((h.coherent.outlived_deregister key id) g hg).2]
      exact h.own_endpoint g hg
    founded := by
      intro g hg
      rw [founded_deregister] at hg ⊢
      exact h.founded g hg
    injective := by
      intro g₁ g₂ hg₁ hg₂
      rw [founded_deregister] at hg₁ hg₂
      exact h.injective g₁ g₂ hg₁ hg₂
    group := by
      intro g hg
      rw [founded_deregister] at hg
      rw [h.coherent'.group_deregister, h.coherent.group_deregister, h.group g hg]
      simp only [h.lookup_eq_iff hkey hg]
      split
      · exact (Group.rename_leave hρ _ id).symm
      · rfl
    lookup := by
      intro k hk
      rw [h.coherent'.lookup_deregister, h.coherent.lookup_deregister]
      simp only [hrest, List.map_eq_nil_iff]
      split
      · rfl
      · exact h.lookup k hk }

/-- A change to a group that knows no identities but those that it is told. -/
theorem modifyGroup (h : Mirrors own ρ γ r r') {g : GroupId} (hg : r.Founded g)
    {f f' : Group → Group} (hf : ∀ x, f' (x.rename ρ) = (f x).rename ρ)
    (hids : ∀ x, (f x).ids = x.ids ∧ (f' x).ids = x.ids)
    (hend : ∀ x, (f x).endpoint = x.endpoint ∧ (f' x).endpoint = x.endpoint) :
    Mirrors own ρ γ (r.modifyGroup g f) (r'.modifyGroup (γ g) f') where
  coherent := h.coherent.modifyGroup g (fun x => (hids x).1) fun x => (hend x).1
  coherent' := h.coherent'.modifyGroup (γ g) (fun x => (hids x).2) fun x => (hend x).2
  own_endpoint := by
    intro g' hg'
    rw [founded_modifyGroup] at hg'
    rw [((outlived_modifyGroup r g fun x => (hend x).1) g' hg').2]
    exact h.own_endpoint g' hg'
  founded := by
    intro g' hg'
    rw [founded_modifyGroup] at hg' ⊢
    exact h.founded g' hg'
  injective := by
    intro g₁ g₂ hg₁ hg₂
    rw [founded_modifyGroup] at hg₁ hg₂
    exact h.injective g₁ g₂ hg₁ hg₂
  group := by
    intro g' hg'
    rw [founded_modifyGroup] at hg'
    by_cases heq : g' = g
    · rw [heq, group_modifyGroup_self f hg, group_modifyGroup_self f' (h.founded g hg),
        h.group g hg, hf]
    · have hne : γ g' ≠ γ g := fun hγ => heq (h.injective g' g hg' hg hγ)
      rw [group_modifyGroup_of_ne r f heq, group_modifyGroup_of_ne r' f' hne, h.group g' hg']
  lookup k hk := h.lookup k hk

end Mirrors

/-! ### Operations on other keys -/

/-- Whether a change leaves alone all groups of the keys in `own`, and which key has which. -/
structure Spares (own : String → Prop) (r r' : Registry) : Prop where
  coherent : r'.Coherent
  group : ∀ g, r.Founded g → own (r.group g).endpoint → r'.Founded g ∧ r'.group g = r.group g
  lookup : ∀ key, own key → r'.lookup key = r.lookup key

theorem Mirrors.of_spares {own : String → Prop} {ρ : PeerId → PeerId} {γ : GroupId → GroupId}
    {r r' r'' : Registry} (h : Mirrors own ρ γ r r') (hspares : r'.Spares own r'') :
    Mirrors own ρ γ r r'' := by
  have hgroup : ∀ g, r.Founded g → r''.Founded (γ g) ∧ r''.group (γ g) = r'.group (γ g) := by
    intro g hg
    apply hspares.group (γ g) (h.founded g hg)
    rw [h.group g hg]
    exact h.own_endpoint g hg
  exact {
    coherent := h.coherent
    coherent' := hspares.coherent
    own_endpoint := h.own_endpoint
    founded := fun g hg => (hgroup g hg).1
    injective := h.injective
    group := fun g hg => (hgroup g hg).2.trans (h.group g hg)
    lookup := fun key hkey => (hspares.lookup key hkey).trans (h.lookup key hkey) }

namespace Coherent

variable {own : String → Prop} {r : Registry}

theorem spares_register (h : Coherent r) {key : String} (hkey : ¬ own key) (c : Contender) :
    r.Spares own (r.register key c).2 where
  coherent := h.register key c
  group := by
    intro g hg hown
    refine ⟨founded_register hg, group_register_of_ne c ?_⟩
    intro htarget
    rw [h.endpoint (lookup_of_target hg htarget)] at hown
    exact hkey hown
  lookup := by
    intro k hk
    rw [lookup_register, if_neg]
    rintro rfl
    exact hkey hk

theorem spares_deregister (h : Coherent r) {key : String} (hkey : ¬ own key) (id : PeerId) :
    r.Spares own (r.deregister key id).2 where
  coherent := h.deregister key id
  group := by
    intro g hg hown
    refine ⟨(founded_deregister r key id g).2 hg, ?_⟩
    rw [h.group_deregister, if_neg]
    intro hlive
    rw [h.endpoint hlive] at hown
    exact hkey hown
  lookup := by
    intro k hk
    apply lookup_deregister_of_ne
    rintro rfl
    exact hkey hk

theorem spares_modifyGroup (h : Coherent r) {t : Registration} (ht : r.Issued t)
    (hkey : ¬ own t.key) {f : Group → Group} (hids : ∀ x, (f x).ids = x.ids)
    (hend : ∀ x, (f x).endpoint = x.endpoint) : r.Spares own (r.modifyGroup t.group f) where
  coherent := h.modifyGroup t.group hids hend
  group := by
    intro g hg hown
    refine ⟨(founded_modifyGroup r t.group f g).2 hg, group_modifyGroup_of_ne r f ?_⟩
    rintro rfl
    rw [ht.2] at hown
    exact hkey hown
  lookup _ _ := rfl

end Coherent

end Registry

end PortArbiter
