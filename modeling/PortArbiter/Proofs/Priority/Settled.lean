import PortArbiter.Proofs.Priority.Clock
/-!
# Asking again

The verdict on a message is given from what is known before the message is recorded, or part of it.
At the same instant the group stands by it: asked once more it answers the same, and nothing changes
any more. A message that was let through only raises the score of its sender, unless the sender was
heard in the future.
-/

namespace PortArbiter

open Double

section

variable [Exponential]

theorem Member.objection_eq_none_of_le {r : Member} {score score' now : Float}
    (hle : score ≤ score') (h : r.objection score now = none) :
    r.objection score' now = none := by
  rw [objection_eq_none_iff] at h ⊢
  split
  · rename_i hinhibitory
    rw [if_pos hinhibitory] at h
    exact fun hstops => h ⟨hstops.1, float_le_trans hle hstops.2⟩
  · rename_i hinhibitory
    rw [if_neg hinhibitory] at h
    exact fun hlow => h (float_lt_of_le_of_lt hle hlow)

namespace Group

variable {g : Group} {id : PeerId} {now : Float}

/-! ## Messages of a source that was heard just now -/

theorem receive_observe (g : Group) (id : PeerId) (now : Float) :
    (g.observe id now).receive id now =
      ((g.observe id now).arbitrate id now, g.observe id now) := by
  cases hfind : g.find? id with
  | none =>
      have hnone : (g.observe id now).find? id = none := by
        rw [observe, find?_update_self, hfind]
        rfl
      rw [receive_of_find?_eq_none hnone, arbitrate, hnone]
  | some m =>
      have hsome := find?_observe_of_find? hfind now
      apply Prod.ext
      · rw [receive_fst_of_find? hsome, observe_observe, ite_self]
      · rw [receive_snd_of_find? hsome, observe_observe, ite_self]

def Raises (g : Group) (id : PeerId) (now : Float) : Prop :=
  ∀ m, g.find? id = some m → m.contender.score now ≤ (m.contender.hear now).score now

/-- A message that is let through would still be, had it been recorded before. -/
theorem Raises.arbitrate_observe (h : g.Raises id now)
    (haccepted : g.arbitrate id now = .accepted) :
    (g.observe id now).arbitrate id now = .accepted := by
  cases hfind : g.find? id with
  | none =>
      rw [arbitrate, hfind] at haccepted
      cases haccepted
  | some m =>
      have hsome := find?_observe_of_find? hfind now
      rw [arbitrate_eq_accepted_iff_of_find? hfind] at haccepted
      rw [arbitrate_eq_accepted_iff_of_find? hsome]
      refine ⟨haccepted.1, fun r hr hne => ?_⟩
      rcases of_mem_observe hr with ⟨_, hold⟩ | ⟨_, _, _, rfl⟩
      · exact Member.objection_eq_none_of_le (h m hfind) (haccepted.2 r hold hne)
      · exact absurd rfl hne

/-- A verdict is the one of the group as it is afterwards, whether or not the message was recorded
and when. -/
theorem Raises.receive_cases (h : g.Raises id now) :
    g.receive id now = (g.arbitrate id now, g) ∨
      g.receive id now = ((g.observe id now).arbitrate id now, g.observe id now) := by
  cases hfind : g.find? id with
  | none =>
      left
      rw [receive_of_find?_eq_none hfind, arbitrate, hfind]
  | some m =>
      have hfst := receive_fst_of_find? hfind now
      have hsnd := receive_snd_of_find? hfind now
      by_cases hrefreshes : m.contender.refreshesAlways = true
      · right
        rw [if_pos hrefreshes] at hfst
        rw [if_pos (Or.inl hrefreshes)] at hsnd
        exact Prod.ext hfst hsnd
      · rw [if_neg hrefreshes] at hfst
        by_cases haccepted : g.arbitrate id now = .accepted
        · -- the message is recorded after the decision, which recording it first would not change
          right
          have hlater := h.arbitrate_observe haccepted
          rw [if_pos (Or.inr (hfst.trans haccepted))] at hsnd
          exact Prod.ext (hfst.trans (haccepted.trans hlater.symm)) hsnd
        · left
          have hnot : ¬ (m.contender.refreshesAlways = true ∨ (g.receive id now).1 = .accepted) :=
            not_or.2 ⟨hrefreshes, hfst ▸ haccepted⟩
          rw [if_neg hnot] at hsnd
          exact Prod.ext hfst hsnd

theorem Raises.receive_receive (h : g.Raises id now) :
    (g.receive id now).2.arbitrate id now = (g.receive id now).1 ∧
      (g.receive id now).2.receive id now = g.receive id now := by
  rcases h.receive_cases with hcase | hcase
  · rw [hcase]
    exact ⟨rfl, hcase⟩
  · rw [hcase]
    exact ⟨rfl, receive_observe g id now⟩

/-! ## Runs -/

/-- A verdict is stable at its own instant. At any point of a run whose clock does not go back and
whose members join without an arrival, the group repeats the verdict on a message that it has just
handled, and handling the message again changes nothing. The exponential function has to be
monotone, and no more than one at zero if there are sources with a negative level. -/
theorem receive_again (hexp : ∀ x y : Float, x ≤ y → Exponential.exp x ≤ Exponential.exp y)
    (port : String) {before after : List Move} {id : PeerId} {now : Float}
    (hclock : Move.Clocked (before ++ .ask id now .receive :: after))
    (hjoin : Move.Joining (·.arrival? = none) (before ++ .ask id now .receive :: after))
    (hlevel : Move.Joining (fun c => c.level < 0 → Exponential.exp 0 ≤ 1)
      (before ++ .ask id now .receive :: after)) :
    let g := run { endpoint := port } before
    (g.receive id now).2.arbitrate id now = (g.receive id now).1 ∧
      (g.receive id now).2.receive id now = g.receive id now := by
  intro g
  have hpast : g.HeardAt (· ≤ now) := heardAt_of_clocked hclock hjoin.of_append port
  have hlevels : ∀ m ∈ g.members, m.contender.level < 0 → Exponential.exp 0 ≤ 1 :=
    forall_members_run (fun _ _ h => h) (fun _ hm => absurd hm List.not_mem_nil) hlevel.of_append
  have hraises : g.Raises id now := by
    intro m hfind
    have hm : m ∈ g.members := List.mem_of_find?_eq_some hfind
    exact Contender.score_le_score_hear hexp (hlevels m hm) hclock.receive.1 (hpast m hm)
  exact hraises.receive_receive

end Group

end

def Move.handover : List Move := [
  .join ⟨1⟩ { source := "/a", level := 10, timeConstant := 2, policy := .admitted },
  .join ⟨2⟩ { source := "/b", level := 5, timeConstant := 2 },
  .join ⟨3⟩ { source := "/c", level := -1, timeConstant := 2, policy := .admitted },
  .ask ⟨1⟩ 0 .receive,
  .ask ⟨2⟩ 0 .receive]

theorem Group.receive_again_handover :
    letI : Exponential := ⟨Exponential.coarse⟩
    let g := run { endpoint := "/port1" } Move.handover
    (∀ x y : Float, x ≤ y → Exponential.coarse x ≤ Exponential.coarse y) ∧
      Move.Clocked (Move.handover ++ [.ask ⟨1⟩ 2 .receive]) ∧
      Move.Joining (·.arrival? = none) (Move.handover ++ [.ask ⟨1⟩ 2 .receive]) ∧
      Move.Joining (fun c => c.level < 0 → Exponential.coarse 0 ≤ 1)
        (Move.handover ++ [.ask ⟨1⟩ 2 .receive]) ∧
      g.score? ⟨1⟩ 2 = some 0 ∧ 0 < ((g.receive ⟨1⟩ 2).2.score? ⟨1⟩ 2).getD 0 ∧
      (g.receive ⟨1⟩ 2).1 = .accepted ∧ (g.receive ⟨1⟩ 2).2.arbitrate ⟨1⟩ 2 = .accepted := by
  let _ : Exponential := ⟨Exponential.coarse⟩
  have hmono : ∀ x y : Float, x ≤ y → Exponential.coarse x ≤ Exponential.coarse y :=
    fun _ _ => Exponential.coarse_mono
  have hclock : Move.Clocked (Move.handover ++ [.ask ⟨1⟩ 2 .receive]) :=
    ⟨by decide +kernel, by decide +kernel⟩
  have hjoin : Move.Joining (·.arrival? = none) (Move.handover ++ [.ask ⟨1⟩ 2 .receive]) := by
    decide +kernel
  have hlevel : Move.Joining (fun c => c.level < 0 → Exponential.coarse 0 ≤ 1)
      (Move.handover ++ [.ask ⟨1⟩ 2 .receive]) :=
    fun _ _ _ _ => by decide +kernel
  have hverdict : ((run { endpoint := "/port1" } Move.handover).receive ⟨1⟩ 2).1 = .accepted := by
    decide +kernel
  have hagain := (receive_again hmono "/port1" hclock hjoin hlevel).1
  exact ⟨hmono, hclock, hjoin, hlevel, by decide +kernel, by decide +kernel, hverdict,
    hagain.trans hverdict⟩

end PortArbiter
