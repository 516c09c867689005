import PortArbiter.Proofs.Priority.Clock
import PortArbiter.Proofs.Priority.Curve
/-!
# Rivals that were heard lately

Whoever stands in the way of a message scores at its instant, so it was heard, and no more than its
time constant ago. Nothing keeps its arrival from lying ahead: a source that was heard before the
clock was set back scores at least as much as at its arrival until the clock has caught up.
-/

namespace PortArbiter

open Double

def Verdict.rival? : Verdict → Option PeerId
  | .outranked rival | .inhibited rival => some rival
  | .accepted | .inhibitory | .notMember => none

section

variable [Exponential]

/-! ## Rivals score -/

theorem Member.objection_rival {m : Member} {score now : Float} (hscore : Clamped score)
    {v : Verdict} (h : m.objection score now = some v) :
    v.rival? = some m.id ∧ 0 < m.contender.score now := by
  unfold objection at h
  cases hinhibitory : m.contender.inhibitory with
  | true =>
      rw [hinhibitory, if_pos rfl, Option.ite_none_right_eq_some] at h
      obtain ⟨⟨hpos, -⟩, hv⟩ := h
      obtain rfl := Option.some.inj hv
      exact ⟨rfl, hpos⟩
  | false =>
      rw [hinhibitory, if_neg Bool.false_ne_true, Option.ite_none_right_eq_some] at h
      obtain ⟨hlower, hv⟩ := h
      obtain rfl := Option.some.inj hv
      exact ⟨rfl, float_lt_of_le_of_lt hscore.zero_le hlower⟩

namespace Group

variable {g : Group} {id rival : PeerId} {now : Float}

theorem arbitrate_rival (h : (g.arbitrate id now).rival? = some rival) :
    rival ≠ id ∧ ∃ m ∈ g.members, m.id = rival ∧ 0 < m.contender.score now := by
  cases hfind : g.find? id with
  | none =>
      rw [arbitrate, hfind] at h
      cases h
  | some sender =>
      cases hinhibitory : sender.contender.inhibitory with
      | true =>
          rw [arbitrate_eq_inhibitory hfind hinhibitory] at h
          cases h
      | false =>
          rcases arbitrate_cases hfind hinhibitory now with ⟨haccepted, -⟩ | ⟨m, hm, hne, hobjects⟩
          · rw [haccepted] at h
            cases h
          · obtain ⟨hrival, hpos⟩ :=
              Member.objection_rival (sender.contender.clamped_score now) hobjects
            obtain rfl : m.id = rival := Option.some.inj (hrival.symm.trans h)
            exact ⟨hne, m, hm, rfl, hpos⟩

theorem receive_rival (h : (g.receive id now).1.rival? = some rival) :
    rival ≠ id ∧ ∃ m ∈ g.members, m.id = rival ∧ 0 < m.contender.score now := by
  cases hfind : g.find? id with
  | none =>
      rw [receive_of_find?_eq_none hfind] at h
      cases h
  | some sender =>
      rw [receive_fst_of_find? hfind] at h
      split at h
      · obtain ⟨hne, m, hm, rfl, hpos⟩ := arbitrate_rival h
        rcases of_mem_observe hm with ⟨_, hold⟩ | ⟨_, _, _, rfl⟩
        · exact ⟨hne, m, hold, rfl, hpos⟩
        · exact absurd rfl hne
      · exact arbitrate_rival h

end Group

/-! ## When rivals were heard -/

/-- Who scores at some time was heard within its time constant before, or will be heard yet and
scores no less than then. -/
theorem Contender.heard_of_score_pos (hexp : Exponential.Lawful) {c : Contender} {now : Float}
    (hnow : now.isFinite = true) (hpos : 0 < c.score now) :
    ∃ a, c.arrival? = some a ∧ now - a ≤ c.timeConstant ∧
      (0 ≤ now - a ∨ now < a ∧ c.score a ≤ c.score now) := by
  rcases score_eq_zero_or hexp c now with hzero | ⟨a, h⟩
  · rw [hzero] at hpos
    exact absurd hpos (by decide +kernel)
  · refine ⟨a, h.arrival, h.within, ?_⟩
    by_cases hahead : now < a
    · exact Or.inr ⟨hahead, score_antitone hexp c (float_le_of_lt hahead)⟩
    · have hpast : a ≤ now := float_le_of_not_lt h.isNumber (isNumber_of_isFinite hnow) hahead
      exact Or.inl (zero_le_sub hnow hpast)

/-- Only a member that was heard lately stands in the way of others. At any point of any run and at
any finite time, whoever a verdict names is another member, was heard, and no more than its time
constant ago. It was not heard in the future if the clock has never been ahead of that time and no
member brought an arrival ahead of it along. Else it may have been, and then it scores no less than
it will when the clock is back at its arrival. -/
theorem Group.rival_recent (hexp : Exponential.Lawful) (port : String) (moves : List Move)
    {id rival : PeerId} {now : Float} (hnow : now.isFinite = true)
    (h : ((run { endpoint := port } moves).arbitrate id now).rival? = some rival ∨
      ((run { endpoint := port } moves).receive id now).1.rival? = some rival) :
    rival ≠ id ∧ ∃ m ∈ (run { endpoint := port } moves).members, m.id = rival ∧
      ∃ a, m.contender.arrival? = some a ∧ now - a ≤ m.contender.timeConstant ∧
        (0 ≤ now - a ∨ now < a ∧ m.contender.score a ≤ m.contender.score now) ∧
        ((∀ t ∈ moves.filterMap Move.reading?, t ≤ now) →
          Move.Joining (fun c => ∀ a, c.arrival? = some a → a ≤ now) moves → 0 ≤ now - a) := by
  obtain ⟨hne, m, hm, hid, hpos⟩ := h.elim arbitrate_rival receive_rival
  obtain ⟨a, ha, hwithin, hsign⟩ := Contender.heard_of_score_pos hexp hnow hpos
  refine ⟨hne, m, hm, hid, a, ha, hwithin, hsign, fun hreading hjoin => ?_⟩
  have hpast : (run { endpoint := port } moves).HeardAt (· ≤ now) := heardAt_run port hjoin hreading
  exact zero_le_sub hnow (hpast m hm a ha)

end

def Move.setBack : List Move := [
  .join ⟨1⟩ { source := "/a", level := 5, timeConstant := 2 },
  .join ⟨2⟩ { source := "/b", level := 10, timeConstant := 2 },
  .ask ⟨2⟩ 1000 .receive]

/-- Before the clock is set back the stronger source is in the way as it should be, and afterwards
as one that was heard in the future. -/
theorem Group.rival_recent_setBack :
    letI : Exponential := ⟨Exponential.landmarks⟩
    let g := run { endpoint := "/port1" } Move.setBack
    Exponential.Lawful ∧ (g.receive ⟨1⟩ 1000).1.rival? = some ⟨2⟩ ∧
      (g.receive ⟨1⟩ 0).1.rival? = some ⟨2⟩ ∧
      (∃ m ∈ g.members, m.id = ⟨2⟩ ∧ ∃ a, m.contender.arrival? = some a ∧ 0 ≤ 1000 - a ∧
        1000 - a ≤ m.contender.timeConstant) ∧
      ∃ m ∈ g.members, m.id = ⟨2⟩ ∧ ∃ a, m.contender.arrival? = some a ∧
        0 - a ≤ m.contender.timeConstant := by
  let _ : Exponential := ⟨Exponential.landmarks⟩
  have hexp := Exponential.lawful_landmarks
  have hintime : ((run { endpoint := "/port1" } Move.setBack).receive ⟨1⟩ 1000).1.rival? =
      some ⟨2⟩ := by decide +kernel
  have hahead : ((run { endpoint := "/port1" } Move.setBack).receive ⟨1⟩ 0).1.rival? =
      some ⟨2⟩ := by decide +kernel
  obtain ⟨-, m, hm, hid, a, ha, hwithin, -, hpast⟩ :=
    rival_recent hexp "/port1" Move.setBack (by decide +kernel) (Or.inr hintime)
  obtain ⟨-, m', hm', hid', a', ha', hwithin', -, -⟩ :=
    rival_recent hexp "/port1" Move.setBack (by decide +kernel) (Or.inr hahead)
  have hreading : ∀ t ∈ Move.setBack.filterMap Move.reading?, t ≤ 1000 := by decide +kernel
  have hjoin : Move.Joining (fun c => ∀ a, c.arrival? = some a → a ≤ 1000) Move.setBack := by
    decide +kernel
  exact ⟨hexp, hintime, hahead, ⟨m, hm, hid, a, ha, hpast hreading hjoin, hwithin⟩,
    m', hm', hid', a', ha', hwithin'⟩

/-- A source may stand in the way without having been heard yet. -/
theorem Group.not_rival_heard_before :
    letI : Exponential := ⟨Exponential.landmarks⟩
    let g := run { endpoint := "/port1" } Move.setBack
    ¬ ∀ rival, (g.receive ⟨1⟩ 0).1.rival? = some rival →
      ∃ m ∈ g.members, m.id = rival ∧ ∃ a, m.contender.arrival? = some a ∧
        0 ≤ 0 - a ∧ 0 - a ≤ m.contender.timeConstant := by
  let _ : Exponential := ⟨Exponential.landmarks⟩
  intro g hrecent
  have hahead : (g.receive ⟨1⟩ 0).1.rival? = some ⟨2⟩ := by decide +kernel
  obtain ⟨m, hm, hid, a, ha, hpast, -⟩ := hrecent ⟨2⟩ hahead
  have harrival : ∀ m ∈ g.members, m.id = ⟨2⟩ → m.contender.arrival? = some 1000 := by
    decide +kernel
  have hfuture : ¬ (0 : Float) ≤ 0 - 1000 := by decide +kernel
  rw [harrival m hm hid] at ha
  obtain rfl := Option.some.inj ha
  exact hfuture hpast

end PortArbiter
