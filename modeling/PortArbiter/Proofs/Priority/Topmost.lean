import PortArbiter.Proofs.Priority.Clock
/-!
# The source of the highest level

A source scores most at the instant at which it is heard, and then its level alone tells its score
from that of another source just heard. So a source of the highest level, all of whose messages
count, is never outranked, whatever the ages of all arrivals and whatever the time constants: only
an inhibitory source can hold it back.
-/

namespace PortArbiter

open Contender Double

section

variable [Exponential]

/-! ## Scores at the instant of a message -/

theorem Contender.score_hear {c : Contender} {now : Float} (hnow : now.isFinite = true)
    (hdecays : 0 < c.timeConstant) :
    (c.hear now).score now = scoreAfter c.level c.timeConstant 0 := by
  rw [score_of_heard (c := c.hear now) rfl hdecays, sub_self_of_isFinite hnow]
  rfl

theorem Contender.score_le_score_hear_of_level
    (hexp : ∀ x y : Float, x ≤ y → Exponential.exp x ≤ Exponential.exp y)
    (hunit : ∀ x : Float, x ≤ 0 → 0 ≤ Exponential.exp x ∧ Exponential.exp x ≤ 1)
    {c top : Contender} {now : Float} (hnow : now.isFinite = true)
    (hpast : ∀ a, c.arrival? = some a → a ≤ now) (hlevel : c.level.isFinite = true)
    (hnonneg : ¬ c.level < 0) (htop : top.level.isFinite = true) (hle : c.level ≤ top.level)
    (htime : top.timeConstant.isFinite = true) (hpos : 0 < top.timeConstant)
    (hsame : 0 < c.timeConstant → exponent c.timeConstant 0 = exponent top.timeConstant 0) :
    c.score now ≤ (top.hear now).score now := by
  have hclamped := (top.hear now).clamped_score now
  by_cases hdecays : 0 < c.timeConstant
  · cases ha : c.arrival? with
    | none =>
        rw [score, ha]
        exact hclamped.zero_le
    | some a =>
        have helapsed : 0 ≤ now - a := zero_le_sub hnow (hpast a ha)
        rw [score_of_heard ha hdecays, score_hear hnow hpos]
        exact scoreAfter_le_scoreAfter_zero hexp hunit hlevel hnonneg htop hle hdecays htime hpos
          (hsame hdecays) helapsed
  · rw [score_of_not_decays hdecays]
    exact hclamped.zero_le

namespace Group

variable {g : Group} {m : Member} {id : PeerId} {now : Float}

/-- Whom no contestant outscores, only an inhibitory member can hold back. -/
theorem arbitrate_of_not_outscored (hm : g.find? id = some m)
    (hcontestant : m.contender.inhibitory = false)
    (h : ∀ r ∈ g.members, r.id ≠ id → r.contender.inhibitory = false →
      ¬ m.contender.score now < r.contender.score now) :
    g.arbitrate id now = .accepted ∨ ∃ rival, g.arbitrate id now = .inhibited rival := by
  rcases arbitrate_cases hm hcontestant now with ⟨haccepted, -⟩ | ⟨r, hr, hne, hobjects⟩
  · exact Or.inl haccepted
  · right
    cases hinhibitory : r.contender.inhibitory with
    | true =>
        simp only [Member.objection, hinhibitory, if_true, Option.ite_none_right_eq_some,
          Option.some.injEq] at hobjects
        exact ⟨r.id, hobjects.2.symm⟩
    | false =>
        have hnone := (r.objection_eq_none_iff (m.contender.score now) now).2 (by
          rw [if_neg (by simp [hinhibitory])]
          exact h r hr hne hinhibitory)
        rw [hnone] at hobjects
        cases hobjects

/-- The source of the highest level is never outranked. At any point of a run whose clock does not
go back, and whose members join without an arrival and with finite levels not below zero, a message
of a contestant with a positive time constant whose messages all count, and whose level is no lower
than that of any other contestant, is let through or held back by an inhibitory member. The
exponential function has to be monotone, and between zero and one up to zero, and all decays have to
begin at one exponent. -/
theorem receive_topmost (hexp : ∀ x y : Float, x ≤ y → Exponential.exp x ≤ Exponential.exp y)
    (hunit : ∀ x : Float, x ≤ 0 → 0 ≤ Exponential.exp x ∧ Exponential.exp x ≤ 1)
    (port : String) {before after : List Move} {id : PeerId} {now : Float}
    (hclock : Move.Clocked (before ++ .ask id now .receive :: after))
    (hjoin : Move.Joining (fun c => c.arrival? = none ∧ c.level.isFinite = true ∧ ¬ c.level < 0)
      (before ++ .ask id now .receive :: after)) {m : Member}
    (hm : (run { endpoint := port } before).find? id = some m)
    (hcontestant : m.contender.inhibitory = false) (hpolicy : m.contender.policy = .observed)
    (htime : m.contender.timeConstant.isFinite = true) (hpos : 0 < m.contender.timeConstant)
    (htop : ∀ r ∈ (run { endpoint := port } before).members, r.id ≠ id →
      r.contender.inhibitory = false → r.contender.level ≤ m.contender.level)
    (hexponent : ∀ r ∈ (run { endpoint := port } before).members, 0 < r.contender.timeConstant →
      exponent r.contender.timeConstant 0 = exponent m.contender.timeConstant 0) :
    ((run { endpoint := port } before).receive id now).1 = .accepted ∨
      ∃ rival, ((run { endpoint := port } before).receive id now).1 = .inhibited rival := by
  obtain ⟨g, hg⟩ : ∃ g : Group, g = run { endpoint := port } before := ⟨_, rfl⟩
  have hpast : g.HeardAt (· ≤ now) :=
    hg ▸ heardAt_of_clocked hclock (hjoin.of_append.mono fun _ h => h.1) port
  have hlevels : ∀ r ∈ g.members, r.contender.level.isFinite = true ∧ ¬ r.contender.level < 0 :=
    hg ▸ forall_members_run (fun _ _ h => h) (fun _ hr => absurd hr List.not_mem_nil)
      (hjoin.of_append.mono fun _ h => h.2)
  rw [← hg] at hm htop hexponent ⊢
  have hmem : m ∈ g.members := List.mem_of_find?_eq_some hm
  have hrefreshes : m.contender.refreshesAlways = true :=
    m.contender.refreshesAlways_iff.2 (Or.inr hpolicy)
  rw [receive_fst_of_find? hm, if_pos hrefreshes]
  refine arbitrate_of_not_outscored (find?_observe_of_find? hm now) hcontestant ?_
  intro r hr hne hkind
  rcases of_mem_observe hr with ⟨_, hold⟩ | ⟨_, _, _, rfl⟩
  · have hle : r.contender.score now ≤ (m.contender.hear now).score now :=
      score_le_score_hear_of_level hexp hunit hclock.receive.1 (hpast r hold)
        (hlevels r hold).1 (hlevels r hold).2 (hlevels m hmem).1 (htop r hold hne hkind)
        htime hpos (hexponent r hold)
    exact ((clamped_score _ now).not_lt (clamped_score _ now)).2 hle
  · exact absurd rfl hne

end Group

end

theorem Exponential.coarse_between (x : Float) : 0 ≤ coarse x ∧ coarse x ≤ 1 := by
  unfold coarse
  split <;> decide +kernel

def Contender.leader : Contender where
  source := "/a"
  level := 10
  timeConstant := 2

def Move.contest : List Move := [
  .join ⟨1⟩ .leader,
  .join ⟨2⟩ { source := "/b", level := 10, timeConstant := 3, policy := .admitted },
  .join ⟨3⟩ { source := "/stop", level := 1, timeConstant := 3, inhibitory := true },
  .ask ⟨2⟩ 0 .receive,
  .ask ⟨3⟩ 3 .receive]

theorem Group.receive_topmost_contest :
    letI : Exponential := ⟨Exponential.coarse⟩
    let g := run { endpoint := "/port1" } Move.contest
    (∀ x y : Float, x ≤ y → Exponential.coarse x ≤ Exponential.coarse y) ∧
      (∀ x : Float, x ≤ 0 → 0 ≤ Exponential.coarse x ∧ Exponential.coarse x ≤ 1) ∧
      Move.Clocked (Move.contest ++ [.ask ⟨1⟩ 3 .receive]) ∧
      Move.Joining (fun c => c.arrival? = none ∧ c.level.isFinite = true ∧ ¬ c.level < 0)
        (Move.contest ++ [.ask ⟨1⟩ 3 .receive]) ∧
      g.find? ⟨1⟩ = some ⟨⟨1⟩, .leader⟩ ∧
      (∀ r ∈ g.members, r.id ≠ ⟨1⟩ → r.contender.inhibitory = false → r.contender.level ≤ 10) ∧
      (∀ r ∈ g.members, 0 < r.contender.timeConstant →
        exponent r.contender.timeConstant 0 = exponent 2 0) ∧
      ((g.receive ⟨1⟩ 3).1 = .accepted ∨ ∃ rival, (g.receive ⟨1⟩ 3).1 = .inhibited rival) := by
  let _ : Exponential := ⟨Exponential.coarse⟩
  have hmono : ∀ x y : Float, x ≤ y → Exponential.coarse x ≤ Exponential.coarse y :=
    fun _ _ => Exponential.coarse_mono
  have hunit : ∀ x : Float, x ≤ 0 → 0 ≤ Exponential.coarse x ∧ Exponential.coarse x ≤ 1 :=
    fun x _ => Exponential.coarse_between x
  have hclock : Move.Clocked (Move.contest ++ [.ask ⟨1⟩ 3 .receive]) :=
    ⟨by decide +kernel, by decide +kernel⟩
  have hjoin : Move.Joining (fun c => c.arrival? = none ∧ c.level.isFinite = true ∧ ¬ c.level < 0)
      (Move.contest ++ [.ask ⟨1⟩ 3 .receive]) := by
    decide +kernel
  have hfind : (run { endpoint := "/port1" } Move.contest).find? ⟨1⟩ = some ⟨⟨1⟩, .leader⟩ := by
    decide +kernel
  have htop : ∀ r ∈ (run { endpoint := "/port1" } Move.contest).members, r.id ≠ ⟨1⟩ →
      r.contender.inhibitory = false → r.contender.level ≤ 10 := by decide +kernel
  have hexponent : ∀ r ∈ (run { endpoint := "/port1" } Move.contest).members,
      0 < r.contender.timeConstant → exponent r.contender.timeConstant 0 = exponent 2 0 := by
    decide +kernel
  exact ⟨hmono, hunit, hclock, hjoin, hfind, htop, hexponent,
    receive_topmost hmono hunit "/port1" hclock hjoin hfind rfl rfl (by decide +kernel)
      (by decide +kernel) htop hexponent⟩

end PortArbiter
