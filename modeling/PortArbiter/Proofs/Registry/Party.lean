import PortArbiter.Proofs.Registry.Mirror
/-!
# Users of a registry

A user of a registry registers sources, gives registrations back, and puts questions to the groups
of those that it got. Two users whose registries mirror each other get the same answers to the same
requests, under the names of their own registry.
-/

namespace PortArbiter.Registry

/-- What a user does. A registration is named by its place among all those that the user got. -/
inductive Request where
  | register (key : String) (c : Contender)
  /-- Give a registration back. The user still has its group and its identity. -/
  | drop (place : Nat)
  /-- Ask the group of one registration about the identity of another one. -/
  | ask (host source : Nat) (now : Float) (q : Query)

def Request.key? : Request → Option String
  | .register key _ => some key
  | .drop _ | .ask _ _ _ _ => none

/-- A registry, and the registrations that a user got of it, given back or not. -/
structure Party where
  registry : Registry := {}
  tokens : List Registration := []

namespace Party

variable [Exponential]

def step (s : Party) : Request → Answer × Party
  | .register key c =>
    let (t, registry) := s.registry.register key c
    (.registered t.key t.id, { registry, tokens := s.tokens ++ [t] })
  | .drop place =>
    match s.tokens[place]? with
    | none => (.nothing, s)
    | some t => (.nothing, { s with registry := s.registry.release t })
  | .ask host source now q =>
    match s.tokens[host]?, s.tokens[source]? with
    | some t, some t' =>
      (((s.registry.group t.group).ask t'.id now q).1,
        { s with registry := s.registry.modifyGroup t.group fun g => (g.ask t'.id now q).2 })
    | _, _ => (.nothing, s)

def run (s : Party) (requests : List Request) : Party :=
  requests.foldl (fun s x => (s.step x).2) s

def answers : Party → List Request → List Answer
  | _, [] => []
  | s, x :: requests => (s.step x).1 :: (s.step x).2.answers requests

def registrations (requests : List Request) : Nat :=
  requests.countP (·.key?.isSome)

theorem nextPeer_step (s : Party) (x : Request) :
    (s.step x).2.registry.nextPeer =
      s.registry.nextPeer + if x.key?.isSome then 1 else 0 := by
  cases x with
  | register key c => exact nextPeer_register s.registry key c
  | drop place =>
      simp only [step]
      split
      · rfl
      · exact nextPeer_deregister s.registry _ _
  | ask host source now q =>
      simp only [step]
      split <;> rfl

/-! ## The registry around a user -/

theorem outlived_step {s : Party} (h : s.registry.Coherent) (x : Request) :
    s.registry.Outlived (s.step x).2.registry := by
  cases x with
  | register key c => exact h.outlived_register key c
  | drop place =>
      simp only [step]
      split
      · exact Outlived.refl _
      · exact h.outlived_deregister _ _
  | ask host source now q =>
      simp only [step]
      split
      · exact outlived_modifyGroup _ _ fun g => g.endpoint_ask _ now q
      · exact Outlived.refl _

omit [Exponential] in
theorem issued_register {r : Registry} (h : r.Coherent) (key : String) (c : Contender) :
    (r.register key c).2.Issued (r.register key c).1 := by
  rw [register_fst]
  refine ⟨founded_register_target c fun _ hg => h.founded hg, ?_⟩
  apply (h.register key c).endpoint
  rw [lookup_register, if_pos rfl]

/-- A registration that a request leaves its user with is an old one, or one under the key that the
request was for. -/
theorem issued_step {s : Party} (h : s.registry.Coherent) (ht : ∀ t ∈ s.tokens, s.registry.Issued t)
    (x : Request) : ∀ t ∈ (s.step x).2.tokens,
      (s.step x).2.registry.Issued t ∧ (t ∈ s.tokens ∨ x.key? = some t.key) := by
  intro t hmem
  cases x with
  | register key c =>
      rcases List.mem_append.1 hmem with hold | hnew
      · exact ⟨(outlived_step h (.register key c)).issued (ht t hold), Or.inl hold⟩
      · rw [List.mem_singleton.1 hnew]
        exact ⟨issued_register h key c, Or.inr rfl⟩
  | drop place =>
      have hold : t ∈ s.tokens := by
        simp only [step] at hmem
        split at hmem <;> exact hmem
      exact ⟨(outlived_step h (.drop place)).issued (ht t hold), Or.inl hold⟩
  | ask host source now q =>
      have hold : t ∈ s.tokens := by
        simp only [step] at hmem
        split at hmem <;> exact hmem
      exact ⟨(outlived_step h (.ask host source now q)).issued (ht t hold), Or.inl hold⟩

theorem spares_step {own : String → Prop} {s : Party} (h : s.registry.Coherent)
    (ht : ∀ t ∈ s.tokens, s.registry.Issued t ∧ ¬ own t.key) {x : Request}
    (hx : ∀ key, x.key? = some key → ¬ own key) :
    s.registry.Spares own (s.step x).2.registry := by
  have hself : s.registry.Spares own s.registry := ⟨h, fun _ hg _ => ⟨hg, rfl⟩, fun _ _ => rfl⟩
  cases x with
  | register key c => exact h.spares_register (hx key rfl) c
  | drop place =>
      simp only [step]
      split
      · exact hself
      · rename_i t hplace
        exact h.spares_deregister (ht t (List.mem_of_getElem? hplace)).2 t.id
  | ask host source now q =>
      simp only [step]
      split
      · rename_i t t' hhost hsource
        obtain ⟨hissued, hkey⟩ := ht t (List.mem_of_getElem? hhost)
        exact h.spares_modifyGroup hissued hkey (fun g => g.ids_ask t'.id now q)
          fun g => g.endpoint_ask t'.id now q
      · exact hself

/-! ## Users of mirrored registries -/

structure Alike (own : String → Prop) (ρ : PeerId → PeerId) (γ : GroupId → GroupId)
    (s s' : Party) : Prop where
  mirrors : Mirrors own ρ γ s.registry s'.registry
  tokens : s'.tokens = s.tokens.map (Registration.rename ρ γ)
  issued : ∀ t ∈ s.tokens, s.registry.Issued t

namespace Alike

variable {own : String → Prop} {ρ : PeerId → PeerId} {γ : GroupId → GroupId} {s s' : Party}

omit [Exponential] in
theorem token? (h : Alike own ρ γ s s') (place : Nat) :
    s'.tokens[place]? = s.tokens[place]?.map (Registration.rename ρ γ) := by
  rw [h.tokens, List.getElem?_map]

omit [Exponential] in
theorem own_key (h : Alike own ρ γ s s') {t : Registration} (ht : t ∈ s.tokens) : own t.key := by
  obtain ⟨hfounded, hend⟩ := h.issued t ht
  rw [← hend]
  exact h.mirrors.own_endpoint t.group hfounded

omit [Exponential] in
theorem tokens_congr (h : Alike own ρ γ s s') {γ' : GroupId → GroupId}
    (hγ : ∀ g, s.registry.Founded g → γ' g = γ g) :
    s'.tokens = s.tokens.map (Registration.rename ρ γ') := by
  rw [h.tokens]
  apply List.map_congr_left
  intro t ht
  rw [Registration.rename, Registration.rename, hγ _ (h.issued t ht).1]

theorem register (h : Alike own ρ γ s s') {key : String} (hkey : own key)
    (hnext : ρ ⟨s.registry.nextPeer⟩ = ⟨s'.registry.nextPeer⟩) (c : Contender) :
    ∃ γ' : GroupId → GroupId, (∀ g, s.registry.Founded g → γ' g = γ g) ∧
      (s'.step (.register key c)).1 = (s.step (.register key c)).1.rename ρ ∧
      Alike own ρ γ' (s.step (.register key c)).2 (s'.step (.register key c)).2 := by
  obtain ⟨γ', hγ', htarget, hmirrors⟩ := h.mirrors.register hkey hnext c
  refine ⟨γ', hγ', ?_, hmirrors, ?_, ?_⟩
  · simp only [step, register_fst, Answer.rename, hnext]
  · have hnew : (s'.registry.register key c).1 =
        (s.registry.register key c).1.rename ρ γ' := by
      rw [register_fst, register_fst, Registration.rename, hnext, htarget]
    show s'.tokens ++ [(s'.registry.register key c).1] =
      (s.tokens ++ [(s.registry.register key c).1]).map (Registration.rename ρ γ')
    rw [List.map_append, ← h.tokens_congr hγ', hnew]
    rfl
  · intro t ht
    exact (issued_step h.mirrors.coherent h.issued (.register key c) t ht).1

theorem drop (h : Alike own ρ γ s s') (hρ : Function.Injective ρ) (place : Nat) :
    (s'.step (.drop place)).1 = (s.step (.drop place)).1.rename ρ ∧
      Alike own ρ γ (s.step (.drop place)).2 (s'.step (.drop place)).2 := by
  have htoken := h.token? place
  cases hplace : s.tokens[place]? with
  | none =>
      rw [hplace] at htoken
      simp only [step, hplace, htoken, Option.map_none]
      exact ⟨rfl, h⟩
  | some t =>
      have hmem := List.mem_of_getElem? hplace
      rw [hplace] at htoken
      simp only [step, hplace, htoken, Option.map_some]
      exact ⟨rfl, {
        mirrors := h.mirrors.deregister hρ (h.own_key hmem) t.id
        tokens := h.tokens
        issued := fun t' ht' => (h.mirrors.coherent.outlived_deregister _ _).issued
          (h.issued t' ht') }⟩

theorem ask (h : Alike own ρ γ s s') (hρ : Function.Injective ρ) (host source : Nat) (now : Float)
    (q : Query) :
    (s'.step (.ask host source now q)).1 = (s.step (.ask host source now q)).1.rename ρ ∧
      Alike own ρ γ (s.step (.ask host source now q)).2
        (s'.step (.ask host source now q)).2 := by
  have hhost := h.token? host
  have hsource := h.token? source
  cases ht : s.tokens[host]? with
  | none =>
      rw [ht] at hhost
      simp only [step, ht, hhost, Option.map_none]
      exact ⟨rfl, h⟩
  | some t =>
      rw [ht] at hhost
      cases ht' : s.tokens[source]? with
      | none =>
          rw [ht'] at hsource
          simp only [step, ht, ht', hhost, hsource, Option.map_some, Option.map_none]
          exact ⟨rfl, h⟩
      | some t' =>
          rw [ht'] at hsource
          have hfounded := (h.issued t (List.mem_of_getElem? ht)).1
          have hask := Group.ask_rename hρ (s.registry.group t.group) t'.id now q
          simp only [step, ht, ht', hhost, hsource, Option.map_some, Registration.rename]
          constructor
          · rw [h.mirrors.group _ hfounded, hask]
          · exact {
              mirrors := h.mirrors.modifyGroup hfounded
                (fun g => by rw [Group.ask_rename hρ])
                (fun g => ⟨g.ids_ask _ now q, g.ids_ask _ now q⟩)
                (fun g => ⟨g.endpoint_ask _ now q, g.endpoint_ask _ now q⟩)
              tokens := h.tokens
              issued := fun t'' ht'' => (outlived_modifyGroup _ _ fun g =>
                g.endpoint_ask _ now q).issued (h.issued t'' ht'') }

theorem step (h : Alike own ρ γ s s') (hρ : Function.Injective ρ) {x : Request}
    (hkey : ∀ key, x.key? = some key → own key)
    (hnext : x.key?.isSome → ρ ⟨s.registry.nextPeer⟩ = ⟨s'.registry.nextPeer⟩) :
    ∃ γ' : GroupId → GroupId, (∀ g, s.registry.Founded g → γ' g = γ g) ∧
      (s'.step x).1 = (s.step x).1.rename ρ ∧ Alike own ρ γ' (s.step x).2 (s'.step x).2 := by
  cases x with
  | register key c => exact h.register (hkey key rfl) (hnext rfl) c
  | drop place => exact ⟨γ, fun _ _ => rfl, h.drop hρ place⟩
  | ask host source now q => exact ⟨γ, fun _ _ => rfl, h.ask hρ host source now q⟩

/-- The same requests for own keys: the same answers, provided that the identities to come are
partners. -/
theorem answers (hρ : Function.Injective ρ) (requests : List Request) (h : Alike own ρ γ s s')
    (hkeys : ∀ x ∈ requests, ∀ key, x.key? = some key → own key)
    (hnext : ∀ n < registrations requests,
      ρ ⟨s.registry.nextPeer + n⟩ = ⟨s'.registry.nextPeer + n⟩) :
    s'.answers requests = (s.answers requests).map (Answer.rename ρ) := by
  induction requests generalizing s s' γ with
  | nil => rfl
  | cons x requests ih =>
      have hcount : registrations (x :: requests) =
          registrations requests + if x.key?.isSome then 1 else 0 := List.countP_cons
      have hfirst : x.key?.isSome → ρ ⟨s.registry.nextPeer⟩ = ⟨s'.registry.nextPeer⟩ := by
        intro hsome
        apply hnext 0
        rw [hcount, if_pos hsome]
        exact Nat.succ_pos _
      obtain ⟨γ', -, hanswer, halike⟩ := h.step hρ (hkeys x List.mem_cons_self) hfirst
      have hlater : ∀ n < registrations requests,
          ρ ⟨(s.step x).2.registry.nextPeer + n⟩ = ⟨(s'.step x).2.registry.nextPeer + n⟩ := by
        intro n hn
        rw [nextPeer_step, nextPeer_step, Nat.add_assoc, Nat.add_assoc]
        apply hnext
        rw [hcount, Nat.add_comm]
        exact Nat.add_lt_add_right hn _
      rw [Party.answers, Party.answers, List.map_cons, hanswer,
        ih halike (fun y hy => hkeys y (List.mem_cons_of_mem x hy)) hlater]

end Alike

end Party

end PortArbiter.Registry
