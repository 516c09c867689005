import PortArbiter.Proofs.Priority.Alike
import PortArbiter.Proofs.Priority.Unheard
/-!
# Runs by the clock

The arrivals that a group knows of are those that its members brought along when they joined, and
the readings of the clock at messages. In a run whose clock does not go back, and whose members join
without an arrival, none of them lies in the future. What else is known of a member is what it
joined with.
-/

namespace PortArbiter

namespace Move

def reading? : Move → Option Float
  | .ask _ now .observe | .ask _ now .receive => some now
  | _ => none

/-- Whether the messages of a run come at finite times, none earlier than one before it. -/
structure Clocked (moves : List Move) : Prop where
  finite : ∀ t ∈ moves.filterMap reading?, t.isFinite = true
  ordered : (moves.filterMap reading?).Pairwise (· ≤ ·)

def Joining (allowed : Contender → Prop) (moves : List Move) : Prop :=
  ∀ id c, .join id c ∈ moves → allowed c

def newcomer? : Move → Option Contender
  | .join _ c => some c
  | .leave _ | .ask _ _ _ => none

theorem joining_iff {allowed : Contender → Prop} {moves : List Move} :
    Joining allowed moves ↔ ∀ c ∈ moves.filterMap newcomer?, allowed c := by
  constructor
  · intro h c hc
    obtain ⟨move, hmem, hjoins⟩ := List.mem_filterMap.1 hc
    cases move with
    | join id c' =>
        obtain rfl : c' = c := Option.some.inj hjoins
        exact h id c' hmem
    | leave _ | ask _ _ _ => cases hjoins
  · exact fun h id c hmem => h c (List.mem_filterMap.2 ⟨_, hmem, rfl⟩)

instance {allowed : Contender → Prop} [DecidablePred allowed] {moves : List Move} :
    Decidable (Joining allowed moves) :=
  decidable_of_iff _ joining_iff.symm

theorem Joining.mono {allowed allowed' : Contender → Prop} {moves : List Move}
    (h : Joining allowed moves) (hallowed : ∀ c, allowed c → allowed' c) : Joining allowed' moves :=
  fun id c hmem => hallowed c (h id c hmem)

section

variable {allowed : Contender → Prop} {moves before after : List Move} {id : PeerId} {now : Float}

theorem Joining.of_cons {move : Move} (h : Joining allowed (move :: moves)) :
    Joining allowed moves :=
  fun id c hmem => h id c (List.mem_cons_of_mem move hmem)

theorem Joining.of_append (h : Joining allowed (before ++ after)) : Joining allowed before :=
  fun id c hmem => h id c (List.mem_append_left after hmem)

theorem Clocked.receive (h : Clocked (before ++ .ask id now .receive :: after)) :
    now.isFinite = true ∧ ∀ t ∈ before.filterMap reading?, t ≤ now := by
  obtain ⟨hfinite, hordered⟩ := h
  have hsplit : (before ++ .ask id now .receive :: after).filterMap reading? =
      before.filterMap reading? ++ now :: after.filterMap reading? := by
    rw [List.filterMap_append, List.filterMap_cons]
    rfl
  rw [hsplit] at hfinite hordered
  refine ⟨hfinite now (List.mem_append_right _ List.mem_cons_self), fun t ht => ?_⟩
  exact (List.pairwise_append.1 hordered).2.2 t ht now List.mem_cons_self

end

end Move

namespace Group

variable [Exponential] {g : Group} {moves : List Move}

theorem run_cons (g : Group) (move : Move) (moves : List Move) :
    g.run (move :: moves) = (g.make move).2.run moves := rfl

theorem run_append (g : Group) (before after : List Move) :
    g.run (before ++ after) = (g.run before).run after :=
  List.foldl_append

/-! ## Arrivals -/

variable {heard : Float → Prop}

theorem HeardAt.make (h : g.HeardAt heard) {move : Move}
    (hjoin : ∀ id c, move = .join id c → ∀ a, c.arrival? = some a → heard a)
    (hreading : ∀ t, move.reading? = some t → heard t) : (g.make move).2.HeardAt heard := by
  cases move with
  | join id c =>
      intro m hm a ha
      rcases List.mem_append.1 hm with hold | hnew
      · exact h m hold a ha
      · obtain rfl := List.mem_singleton.1 hnew
        exact hjoin id c rfl a ha
  | leave id => exact fun m hm => h m (List.mem_of_mem_filter hm)
  | ask id now q =>
      cases q with
      | observe => exact h.observe id (hreading now rfl)
      | receive => exact h.receive id (hreading now rfl)
      | arbitrate | score | standings => exact h

theorem HeardAt.run (h : g.HeardAt heard)
    (hjoin : Move.Joining (fun c => ∀ a, c.arrival? = some a → heard a) moves)
    (hreading : ∀ t ∈ moves.filterMap Move.reading?, heard t) : (g.run moves).HeardAt heard := by
  induction moves generalizing g with
  | nil => exact h
  | cons move moves ih =>
      refine ih (h.make ?_ ?_) hjoin.of_cons ?_
      · rintro id c rfl
        exact hjoin id c List.mem_cons_self
      · exact fun t ht => hreading t (List.mem_filterMap.2 ⟨move, List.mem_cons_self, ht⟩)
      · intro t ht
        obtain ⟨later, hlater, hlater'⟩ := List.mem_filterMap.1 ht
        exact hreading t (List.mem_filterMap.2 ⟨later, List.mem_cons_of_mem move hlater, hlater'⟩)

theorem heardAt_run (port : String)
    (hjoin : Move.Joining (fun c => ∀ a, c.arrival? = some a → heard a) moves)
    (hreading : ∀ t ∈ moves.filterMap Move.reading?, heard t) :
    (run { endpoint := port } moves).HeardAt heard := by
  have hempty : HeardAt heard { endpoint := port } := fun _ hm => absurd hm List.not_mem_nil
  exact hempty.run hjoin hreading

/-- Nobody was heard in the future. -/
theorem heardAt_of_clocked {before after : List Move} {id : PeerId} {now : Float}
    (hclock : Move.Clocked (before ++ .ask id now .receive :: after))
    (hjoin : Move.Joining (·.arrival? = none) before) (port : String) :
    (run { endpoint := port } before).HeardAt (· ≤ now) := by
  refine heardAt_run port (hjoin.mono fun c hnone a ha => ?_) hclock.receive.2
  rw [hnone] at ha
  cases ha

/-! ## What members joined with -/

variable {allowed : Contender → Prop}

/-- What is allowed of all sources that join, and does not depend on what is heard of them, is so
of all members. -/
theorem forall_members_run (hhear : ∀ c now, allowed c → allowed (c.hear now))
    (h : ∀ m ∈ g.members, allowed m.contender) (hjoin : Move.Joining allowed moves) :
    ∀ m ∈ (g.run moves).members, allowed m.contender := by
  induction moves generalizing g with
  | nil => exact h
  | cons move moves ih =>
      refine ih (fun m hm => ?_) hjoin.of_cons
      have hknown : g.Knows m.id allowed := fun r hr _ => h r hr
      have hjoins : ∀ c, move = .join m.id c → allowed c := by
        rintro c rfl
        exact hjoin m.id c List.mem_cons_self
      exact hknown.make hjoins (Or.inl fun c now => hhear c now) m hm rfl

end Group

end PortArbiter
