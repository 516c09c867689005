import PortArbiter.Proofs.Registry.Party
/-!
# Endpoints do not interfere

Several parties share one registry. Each has keys of its own, and their requests come in any order.
Every party gets the answers that it would get from a registry of its own, but for the identities:
those of the shared registry are larger, by as many as others took before.
-/

namespace PortArbiter.Registry

variable {π : Type} [DecidableEq π]

def ofParty {α : Type} (p : π) (xs : List (π × α)) : List α :=
  xs.filterMap fun x => if x.1 = p then some x.2 else none

def keysOf (p : π) (events : List (π × Request)) : List String :=
  (ofParty p events).filterMap Request.key?

structure Shared (π : Type) where
  registry : Registry := {}
  tokens : π → List Registration := fun _ => []

namespace Shared

def party (s : Shared π) (p : π) : Party :=
  ⟨s.registry, s.tokens p⟩

variable [Exponential]

def step (s : Shared π) (x : π × Request) : Answer × Shared π :=
  let (answer, after) := (s.party x.1).step x.2
  (answer, ⟨after.registry, fun p => if p = x.1 then after.tokens else s.tokens p⟩)

def run (s : Shared π) (events : List (π × Request)) : Shared π :=
  events.foldl (fun s x => (s.step x).2) s

def answers : Shared π → List (π × Request) → List (π × Answer)
  | _, [] => []
  | s, x :: events => (x.1, (s.step x).1) :: (s.step x).2.answers events

theorem party_step_self (s : Shared π) (p : π) (x : Request) :
    (s.step (p, x)).2.party p = ((s.party p).step x).2 := by
  simp only [party, step, if_pos]

theorem party_step_of_ne (s : Shared π) {p q : π} (h : p ≠ q) (x : Request) :
    (s.step (q, x)).2.party p = ⟨((s.party q).step x).2.registry, s.tokens p⟩ := by
  simp only [party, step, if_neg h]

end Shared

/-! ## Identities of the shared registry -/

/-- How many registrations of others come before registration number `n` of a party, counted from
zero, or altogether if it does not come to it. -/
def others (p : π) : List (π × Request) → Nat → Nat
  | [], _ => 0
  | (q, x) :: events, n =>
    if x.key?.isNone then others p events n
    else if q ≠ p then others p events n + 1
    else
      match n with
      | 0 => 0
      | n + 1 => others p events n

theorem others_mono (p : π) (events : List (π × Request)) {m n : Nat} (h : m ≤ n) :
    others p events m ≤ others p events n := by
  induction events generalizing m n with
  | nil => exact Nat.le_refl 0
  | cons event events ih =>
      obtain ⟨q, x⟩ := event
      simp only [others]
      split
      · exact ih h
      · split
        · exact Nat.succ_le_succ (ih h)
        · cases m with
          | zero => exact Nat.zero_le _
          | succ m =>
              cases n with
              | zero => exact absurd h (Nat.not_succ_le_zero m)
              | succ n => exact ih (Nat.le_of_succ_le_succ h)

/-- What a party's identities become among those of all. The first one given out is number one. -/
def renumber (p : π) (events : List (π × Request)) (id : PeerId) : PeerId :=
  ⟨id.number + others p events (id.number - 1)⟩

theorem renumber_lt (p : π) (events : List (π × Request)) {a b : PeerId}
    (h : a.number < b.number) : (renumber p events a).number < (renumber p events b).number :=
  Nat.add_lt_add_of_lt_of_le h (others_mono p events (Nat.sub_le_sub_right (Nat.le_of_lt h) 1))

/-- The identities from `a` on alone become those from `b` on among all. -/
def Aligned (p : π) (ρ : PeerId → PeerId) (events : List (π × Request)) (a b : Nat) : Prop :=
  ∀ n, ρ ⟨a + n⟩ = ⟨b + n + others p events n⟩

namespace Aligned

variable {p q : π} {ρ : PeerId → PeerId} {x : Request} {events : List (π × Request)} {a b : Nat}

theorem own (h : Aligned p ρ ((p, x) :: events) a b) :
    (x.key?.isSome → ρ ⟨a⟩ = ⟨b⟩) ∧
      Aligned p ρ events (a + if x.key?.isSome then 1 else 0)
        (b + if x.key?.isSome then 1 else 0) := by
  unfold Aligned at h
  cases hkey : x.key? with
  | none =>
      simp only [others, hkey, Option.isNone_none, if_true] at h
      exact ⟨nofun, h⟩
  | some key =>
      simp only [others, hkey, Option.isNone_some, Bool.false_eq_true, if_false, ne_eq,
        not_true_eq_false] at h
      refine ⟨fun _ => h 0, ?_⟩
      intro n
      have hn := h (n + 1)
      simp only [Option.isSome_some, if_true]
      rw [Nat.add_right_comm a, Nat.add_assoc a, Nat.add_right_comm b, Nat.add_assoc b, hn]

theorem other (h : Aligned p ρ ((q, x) :: events) a b) (hq : q ≠ p) :
    Aligned p ρ events a (b + if x.key?.isSome then 1 else 0) := by
  intro n
  have hn := h n
  cases hkey : x.key? with
  | none =>
      simp only [others, hkey, Option.isNone_none, if_true] at hn
      exact hn
  | some key =>
      simp only [others, hkey, Option.isNone_some, Bool.false_eq_true, if_false, ne_eq, hq,
        not_false_eq_true, if_true] at hn
      simp only [hn, Option.isSome_some, if_true, PeerId.mk.injEq]
      omega

end Aligned

/-! ## One party and all of them -/

/-- A party with a registry of its own, and its counterpart among others. The keys in `own` are
the party's. -/
structure Fits (own : String → Prop) (ρ : PeerId → PeerId) (γ : GroupId → GroupId) (p : π)
    (s : Party) (s' : Shared π) : Prop where
  alike : Party.Alike own ρ γ s (s'.party p)
  foreign : ∀ q, q ≠ p → ∀ t ∈ s'.tokens q, s'.registry.Issued t ∧ ¬ own t.key

namespace Fits

variable [Exponential] {own : String → Prop} {ρ : PeerId → PeerId} {γ : GroupId → GroupId}
  {p q : π} {s : Party} {s' : Shared π}

omit [DecidableEq π] [Exponential] in
theorem initial (own : String → Prop) (ρ : PeerId → PeerId) (p : π) :
    Fits own ρ id p {} {} where
  alike := { mirrors := Mirrors.initial own ρ id, tokens := rfl, issued := nofun }
  foreign _ _ := nofun

theorem own_step (h : Fits own ρ γ p s s') (hρ : Function.Injective ρ) {x : Request}
    (hkey : ∀ key, x.key? = some key → own key)
    (hnext : x.key?.isSome → ρ ⟨s.registry.nextPeer⟩ = ⟨s'.registry.nextPeer⟩) :
    (s'.step (p, x)).1 = (s.step x).1.rename ρ ∧
      ∃ γ', Fits own ρ γ' p (s.step x).2 (s'.step (p, x)).2 := by
  obtain ⟨γ', -, hanswer, halike⟩ := h.alike.step hρ hkey hnext
  refine ⟨hanswer, γ', ?_, ?_⟩
  · rw [Shared.party_step_self]
    exact halike
  · intro q hq t ht
    simp only [Shared.step, if_neg hq] at ht
    obtain ⟨hissued, hown⟩ := h.foreign q hq t ht
    exact ⟨(Party.outlived_step h.alike.mirrors.coherent' x).issued hissued, hown⟩

theorem other_step (h : Fits own ρ γ p s s') (hq : q ≠ p) {x : Request}
    (hkey : ∀ key, x.key? = some key → ¬ own key) :
    Fits own ρ γ p s (s'.step (q, x)).2 := by
  have hcoherent : (s'.party q).registry.Coherent := h.alike.mirrors.coherent'
  constructor
  · rw [Shared.party_step_of_ne s' hq.symm]
    exact {
      mirrors := h.alike.mirrors.of_spares (Party.spares_step hcoherent (h.foreign q hq) hkey)
      tokens := h.alike.tokens
      issued := h.alike.issued }
  · intro q' hq' t ht
    simp only [Shared.step] at ht
    split at ht
    · obtain ⟨hissued, hkeys⟩ := Party.issued_step hcoherent
        (fun t ht => (h.foreign q hq t ht).1) x t ht
      refine ⟨hissued, ?_⟩
      rcases hkeys with hold | hnew
      · exact (h.foreign q hq t hold).2
      · exact hkey t.key hnew
    · obtain ⟨hissued, hown⟩ := h.foreign q' hq' t ht
      exact ⟨(Party.outlived_step hcoherent x).issued hissued, hown⟩

/-- Through the requests of all, the induction being on them: those of the party keep it alike and
get the same answers, those of the others do not concern it. -/
theorem run (hρ : Function.Injective ρ) (events : List (π × Request)) (h : Fits own ρ γ p s s')
    (hkeys : ∀ x ∈ events, ∀ key, x.2.key? = some key → (own key ↔ x.1 = p))
    (haligned : Aligned p ρ events s.registry.nextPeer s'.registry.nextPeer) :
    ofParty p (s'.answers events) = (s.answers (ofParty p events)).map (Answer.rename ρ) ∧
      ∃ γ', Fits own ρ γ' p (s.run (ofParty p events)) (s'.run events) := by
  induction events generalizing s s' γ with
  | nil => exact ⟨rfl, γ, h⟩
  | cons event events ih =>
      obtain ⟨q, x⟩ := event
      have hrest := fun x hx => hkeys x (List.mem_cons_of_mem _ hx)
      have hnext' : (s'.step (q, x)).2.registry.nextPeer = _ :=
        Party.nextPeer_step (s'.party q) x
      by_cases hq : q = p
      · subst hq
        have hmine : ofParty q ((q, x) :: events) = x :: ofParty q events := by
          simp [ofParty]
        obtain ⟨hfirst, haligned⟩ := haligned.own
        obtain ⟨hanswer, γ', hfits⟩ := h.own_step hρ
          (fun key hx => (hkeys _ List.mem_cons_self key hx).2 rfl) hfirst
        obtain ⟨hanswers, hafter⟩ := ih hfits hrest (by
          rw [Party.nextPeer_step, hnext']
          exact haligned)
        rw [hmine]
        refine ⟨?_, hafter⟩
        have htold : ofParty q (s'.answers ((q, x) :: events)) =
            (s'.step (q, x)).1 :: ofParty q ((s'.step (q, x)).2.answers events) := by
          simp [ofParty, Shared.answers]
        rw [htold, hanswer, hanswers]
        rfl
      · have hmine : ofParty p ((q, x) :: events) = ofParty p events := by
          simp [ofParty, hq]
        have hfits := h.other_step hq (x := x) fun key hx hown =>
          hq ((hkeys _ List.mem_cons_self key hx).1 hown)
        obtain ⟨hanswers, hafter⟩ := ih hfits hrest (by
          rw [hnext']
          exact haligned.other hq)
        rw [hmine]
        refine ⟨?_, hafter⟩
        have htold : ofParty p (s'.answers ((q, x) :: events)) =
            ofParty p ((s'.step (q, x)).2.answers events) := by
          simp [ofParty, Shared.answers, hq]
        rw [htold, hanswers]

end Fits

/-- Parties that register under keys of their own do not notice each other, however their requests
are interleaved. For each of them there is an ascending renaming of identities, and one of groups,
that turns what it gets alone into what it gets among the others: every answer, every registration
and the state of every group that it founded. And each key that no other party uses has a live
group in both registries or in none, with the same members in the same order. -/
theorem answers_isolated [Exponential] (p : π) (events : List (π × Request))
    (hkeys : ∀ q, q ≠ p → ∀ key ∈ keysOf p events, key ∉ keysOf q events) :
    let alone := Party.run {} (ofParty p events)
    let among := Shared.run ({} : Shared π) events
    ∃ (ρ : PeerId → PeerId) (γ : GroupId → GroupId),
      (∀ a b, a.number < b.number → (ρ a).number < (ρ b).number) ∧
      ofParty p (Shared.answers {} events) =
        (Party.answers {} (ofParty p events)).map (Answer.rename ρ) ∧
      among.tokens p = alone.tokens.map (Registration.rename ρ γ) ∧
      (∀ g g', alone.registry.Founded g → alone.registry.Founded g' → γ g = γ g' → g = g') ∧
      (∀ g, alone.registry.Founded g →
        among.registry.group (γ g) = (alone.registry.group g).rename ρ) ∧
      ∀ key, (∀ q, q ≠ p → key ∉ keysOf q events) →
        among.registry.lookup key = (alone.registry.lookup key).map γ ∧
        among.registry.roster key = (alone.registry.roster key).map (Member.rename ρ) := by
  intro alone among
  have hascending := fun a b => renumber_lt p events (a := a) (b := b)
  have hmem : ∀ x ∈ events, ∀ key, x.2.key? = some key → key ∈ keysOf x.1 events := by
    intro x hx key hkey
    refine List.mem_filterMap.2 ⟨x.2, List.mem_filterMap.2 ⟨x, hx, if_pos rfl⟩, hkey⟩
  obtain ⟨hanswers, γ, hfits⟩ := (Fits.initial (fun key => ∀ q, q ≠ p → key ∉ keysOf q events)
    (renumber p events) p).run (PeerId.injective_of_ascending hascending) events (by
      intro x hx key hkey
      constructor
      · intro hown
        exact Classical.byContradiction fun hne => hown x.1 hne (hmem x hx key hkey)
      · rintro rfl q hq
        exact hkeys q hq key (hmem x hx key hkey)) (by
      intro n
      show renumber p events ⟨1 + n⟩ = ⟨1 + n + others p events n⟩
      rw [renumber, Nat.add_sub_cancel_left])
  have hmirrors := hfits.alike.mirrors
  exact ⟨renumber p events, γ, hascending, hanswers, hfits.alike.tokens, hmirrors.injective,
    hmirrors.group, fun key hkey => ⟨hmirrors.lookup key hkey, hmirrors.roster hkey⟩⟩

def churn : List (Bool × Request) := [
  (false, .register "/door" { source := "near", level := 1, timeConstant := 1 }),
  (true, .register "/arm" { source := "left", level := 2, timeConstant := 1 }),
  (true, .ask 0 0 0 .receive),
  (false, .drop 0),
  (false, .register "/door" { source := "far", level := 1, timeConstant := 1 }),
  (true, .register "/arm" { source := "right", level := 3, timeConstant := 1 }),
  (true, .ask 1 1 0 .receive),
  (true, .ask 1 0 0 .receive)]

theorem answers_isolated_churn :
    letI : Exponential := ⟨fun _ => 0⟩
    keysOf true churn = ["/arm", "/arm"] ∧ keysOf false churn = ["/door", "/door"] ∧
      (Party.answers {} (ofParty true churn)).getLast? = some (.verdict (.outranked ⟨2⟩)) ∧
      (ofParty true (Shared.answers {} churn)).getLast? = some (.verdict (.outranked ⟨4⟩)) ∧
      ∃ ρ : PeerId → PeerId, (∀ a b, a.number < b.number → (ρ a).number < (ρ b).number) ∧
        ofParty true (Shared.answers {} churn) =
          (Party.answers {} (ofParty true churn)).map (Answer.rename ρ) := by
  let _ : Exponential := ⟨fun _ => 0⟩
  have harm : keysOf true churn = ["/arm", "/arm"] := by rfl
  have hdoor : keysOf false churn = ["/door", "/door"] := by rfl
  have hkeys : ∀ q, q ≠ true → ∀ key ∈ keysOf true churn, key ∉ keysOf q churn := by
    intro q hq
    rw [eq_false_of_ne_true hq, harm, hdoor]
    decide
  obtain ⟨ρ, γ, hascending, hanswers, -⟩ := answers_isolated true churn hkeys
  exact ⟨harm, hdoor, by decide +kernel, by decide +kernel, ρ, hascending, hanswers⟩

end PortArbiter.Registry
