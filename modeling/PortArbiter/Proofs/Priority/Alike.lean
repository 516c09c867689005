import PortArbiter.Proofs.Priority.Decay
import PortArbiter.Proofs.Registry.Roster
/-!
# Groups of equals

The layers of one connection that asks for several of them are members of one group and declared
alike, so only what was heard of each can set them apart. A message of such a member is let through
exactly if none of the others scores higher. Where every message refreshes the arrival of its
sender, the sender is among the last ones heard; where only admitted messages do, a member that was
heard once can shut out all others for good.
-/

namespace PortArbiter

open Contender Double

/-- A source that is not inhibitory, and whose numbers are those that a specification can give. -/
structure Contender.Plain (c : Contender) : Prop where
  contestant : c.inhibitory = false
  level : c.level.isFinite = true
  nonneg : ¬ c.level < 0
  timeConstant : c.timeConstant.isFinite = true

theorem Contender.Plain.score_eq_zero [Exponential] {c : Contender} (hc : c.Plain)
    (h : ¬ 0 < c.level ∨ ¬ 0 < c.timeConstant) (t : Float) : c.score t = 0 := by
  by_cases hdecays : 0 < c.timeConstant
  · have hzero : ¬ 0 < c.level := h.resolve_right fun hnot => hnot hdecays
    cases ha : c.arrival? with
    | none => rw [score, ha]
    | some a =>
        rw [score_of_heard ha hdecays, scoreAfter]
        split
        · rfl
        · exact if_neg (not_zero_lt_mul hc.level hc.nonneg hzero _)
  · exact score_of_not_decays hdecays t

namespace Group

def Alike (c : Contender) (g : Group) : Prop :=
  ∀ m ∈ g.members, m.contender.declared = c

def HeardAt (heard : Float → Prop) (g : Group) : Prop :=
  ∀ m ∈ g.members, ∀ a, m.contender.arrival? = some a → heard a

variable {c : Contender} {g : Group} {m : Member} {now : Float} {heard : Float → Prop}

theorem Alike.observe (h : g.Alike c) (id : PeerId) (now : Float) : (g.observe id now).Alike c := by
  intro m hm
  rcases of_mem_observe hm with ⟨_, hold⟩ | ⟨sender, hsender, _, rfl⟩
  · exact h m hold
  · exact h sender hsender

theorem HeardAt.observe (h : g.HeardAt heard) (id : PeerId) (hnow : heard now) :
    (g.observe id now).HeardAt heard := by
  intro m hm a ha
  rcases of_mem_observe hm with ⟨_, hold⟩ | ⟨_, _, _, rfl⟩
  · exact h m hold a ha
  · exact Option.some.inj ha ▸ hnow

variable [Exponential]

theorem HeardAt.receive (h : g.HeardAt heard) (id : PeerId) (hnow : heard now) :
    (g.receive id now).2.HeardAt heard := by
  rcases receive_eq_self_or_observe g id now with heq | heq <;> rw [heq]
  · exact h
  · exact h.observe id hnow

theorem receive_fst (hids : g.ids.Nodup) (hm : m ∈ g.members) (now : Float) :
    (g.receive m.id now).1 =
      (if m.contender.refreshesAlways then g.observe m.id now else g).arbitrate m.id now :=
  receive_fst_of_find? (find?_of_mem hids hm) now

/-- Among equals only a higher score stands in the way. -/
theorem Alike.arbitrate_eq_accepted_iff (h : g.Alike c) (hcontestant : c.inhibitory = false)
    (hids : g.ids.Nodup) (hm : m ∈ g.members) :
    g.arbitrate m.id now = .accepted ↔
      ∀ r ∈ g.members, ¬ m.contender.score now < r.contender.score now := by
  have hinh : ∀ r ∈ g.members, r.contender.inhibitory = false := by
    intro r hr
    rw [← hcontestant, ← h r hr]
    rfl
  rw [Group.arbitrate_eq_accepted_iff hids hm]
  constructor
  · intro haccepted r hr
    have hnone := (r.objection_eq_none_iff _ now).1 (haccepted.2 r hr)
    rwa [hinh r hr, if_neg Bool.false_ne_true] at hnone
  · intro hbest
    refine ⟨hinh m hm, fun r hr => ?_⟩
    rw [r.objection_eq_none_iff, hinh r hr, if_neg Bool.false_ne_true]
    exact hbest r hr

theorem not_score_lt_self (c : Contender) (now : Float) : ¬ c.score now < c.score now :=
  have hclamped := c.clamped_score now
  (hclamped.not_lt hclamped).2 hclamped.refl

/-! ## Messages that are let through -/

theorem Alike.arbitrate_of_single (h : g.Alike c) (hcontestant : c.inhibitory = false)
    (hsingle : g.members.length ≤ 1) (hids : g.ids.Nodup) (hm : m ∈ g.members) :
    g.arbitrate m.id now = .accepted := by
  rw [h.arbitrate_eq_accepted_iff hcontestant hids hm]
  obtain ⟨only, honly⟩ : ∃ only, g.members = [only] :=
    List.length_eq_one_iff.1 (Nat.le_antisymm hsingle (List.length_pos_of_mem hm))
  rw [honly, List.mem_singleton] at hm
  intro r hr
  rw [honly, List.mem_singleton] at hr
  rw [hr, hm]
  exact not_score_lt_self only.contender now

theorem Alike.arbitrate_of_scoreless (h : g.Alike c) (hc : c.Plain)
    (hzero : ¬ 0 < c.level ∨ ¬ 0 < c.timeConstant) (hids : g.ids.Nodup) (hm : m ∈ g.members) :
    g.arbitrate m.id now = .accepted := by
  have hscores : ∀ r ∈ g.members, r.contender.score now = 0 := by
    intro r hr
    obtain rfl := h r hr
    have hplain : r.contender.Plain := ⟨hc.contestant, hc.level, hc.nonneg, hc.timeConstant⟩
    exact hplain.score_eq_zero hzero now
  rw [h.arbitrate_eq_accepted_iff hc.contestant hids hm]
  intro r hr
  rw [hscores m hm, hscores r hr]
  exact (Clamped.zero.not_lt Clamped.zero).2 Clamped.zero.refl

theorem Alike.arbitrate_of_latest
    (hexp : ∀ x y : Float, x ≤ y → Exponential.exp x ≤ Exponential.exp y) (h : g.Alike c)
    (hc : c.Plain) (hnow : now.isFinite = true)
    (hpast : g.HeardAt fun a => a.isFinite = true ∧ a ≤ now)
    (hids : g.ids.Nodup) (hm : m ∈ g.members) (hlatest : m.contender.arrival? = some now) :
    g.arbitrate m.id now = .accepted := by
  have hheard : ∀ r ∈ g.members, r.contender.hear now = c.hear now := by
    intro r hr
    obtain rfl := h r hr
    rfl
  have hsender : m.contender = c.hear now := by
    rw [← hheard m hm, hear, ← hlatest]
  rw [h.arbitrate_eq_accepted_iff hc.contestant hids hm]
  intro r hr
  have hle : r.contender.score now ≤ (c.hear now).score now := by
    have hdeclared := h r hr
    rw [← hheard r hr]
    subst hdeclared
    exact score_le_score_hear (c := r.contender) hexp (fun hneg => absurd hneg hc.nonneg) hnow
      fun a ha => (hpast r hr a ha).2
  rw [hsender]
  exact ((clamped_score _ now).not_lt (clamped_score _ now)).2 hle

/-- When equals cannot hold each other back: if there is at most one of them, if they never score,
or if each message refreshes the arrival of its sender and comes no earlier than those before. -/
def Calm (c : Contender) (seats : Nat) (heard : Float → Prop) (now : Float) : Prop :=
  seats ≤ 1 ∨ (¬ 0 < c.level ∨ ¬ 0 < c.timeConstant) ∨
    c.policy = .observed ∧ (∀ x y : Float, x ≤ y → Exponential.exp x ≤ Exponential.exp y) ∧
      now.isFinite = true ∧ ∀ a, heard a → a.isFinite = true ∧ a ≤ now

theorem Alike.receive_accepted (h : g.Alike c) (hc : c.Plain) (hids : g.ids.Nodup)
    (hheard : g.HeardAt heard)
    (hcalm : Calm c g.members.length heard now) (hm : m ∈ g.members) :
    (g.receive m.id now).1 = .accepted := by
  have hids' : (g.observe m.id now).ids.Nodup := (g.ids_observe m.id now).symm ▸ hids
  have halike' := h.observe m.id now
  obtain ⟨sender, hs⟩ : ∃ sender : Member, sender = ⟨m.id, m.contender.hear now⟩ := ⟨_, rfl⟩
  have hsender : sender ∈ (g.observe m.id now).members := hs ▸ mem_observe hm now
  have hid : sender.id = m.id := by rw [hs]
  rw [receive_fst hids hm]
  obtain hsingle | hzero | ⟨hpolicy, hexp, hnow, hpast⟩ := hcalm
  · split
    · have hsingle' : (g.observe m.id now).members.length ≤ 1 :=
        (List.length_map _).trans_le hsingle
      exact hid ▸ halike'.arbitrate_of_single hc.contestant hsingle' hids' hsender
    · exact h.arbitrate_of_single hc.contestant hsingle hids hm
  · split
    · exact hid ▸ halike'.arbitrate_of_scoreless hc hzero hids' hsender
    · exact h.arbitrate_of_scoreless hc hzero hids hm
  · have hrefreshes : m.contender.refreshesAlways = true := by
      obtain rfl := h m hm
      exact m.contender.refreshesAlways_iff.2 (Or.inr hpolicy)
    have hself : now ≤ now := le_iff.2 ⟨isNumber_of_isFinite hnow, isNumber_of_isFinite hnow,
      Int.le_refl _⟩
    have hpast' : (g.observe m.id now).HeardAt fun a => a.isFinite = true ∧ a ≤ now := by
      have hold : g.HeardAt fun a => a.isFinite = true ∧ a ≤ now :=
        fun r hr a ha => hpast a (hheard r hr a ha)
      exact hold.observe m.id ⟨hnow, hself⟩
    rw [if_pos hrefreshes]
    have hlatest : sender.contender.arrival? = some now := by
      rw [hs]
      rfl
    have haccepted := Alike.arbitrate_of_latest hexp halike' hc hnow hpast' hids' hsender hlatest
    rwa [hid] at haccepted

/-! ## Members that are shut out -/

def OnlyHeard (id : PeerId) (g : Group) : Prop :=
  ∀ m ∈ g.members, m.id ≠ id → m.contender.arrival? = none

/-- When a source scores right after a message of its own, which is recorded only if it is let
through. -/
def Jealous (c : Contender) (now : Float) : Prop :=
  c.policy = .admitted ∧ 0 < (c.hear now).score now

omit [Exponential] in
theorem OnlyHeard.observe {id : PeerId} (h : g.OnlyHeard id) (now : Float) :
    (g.observe id now).OnlyHeard id := by
  intro m hm hne
  rcases of_mem_observe hm with ⟨_, hold⟩ | ⟨_, _, _, rfl⟩
  · exact h m hold hne
  · exact absurd rfl hne

omit [Exponential] in
theorem Alike.not_refreshesAlways (h : g.Alike c) (hcontestant : c.inhibitory = false)
    (hpolicy : c.policy = .admitted) (hm : m ∈ g.members) :
    m.contender.refreshesAlways = false := by
  obtain rfl := h m hm
  have hinh : m.contender.inhibitory = false := hcontestant
  have hadmitted : m.contender.policy = .admitted := hpolicy
  rw [refreshesAlways, hinh, hadmitted]
  rfl

/-- The one member that is ever heard is let through. -/
theorem Alike.receive_favourite (h : g.Alike c) (hcontestant : c.inhibitory = false)
    (hpolicy : c.policy = .admitted) (hids : g.ids.Nodup) (hm : m ∈ g.members)
    (honly : g.OnlyHeard m.id) : g.receive m.id now = (.accepted, g.observe m.id now) := by
  have haccepted : g.arbitrate m.id now = .accepted := by
    rw [h.arbitrate_eq_accepted_iff hcontestant hids hm]
    intro r hr
    by_cases hid : r.id = m.id
    · rw [List.inj_on_of_nodup_map hids hr hm hid]
      exact not_score_lt_self m.contender now
    · have hzero : r.contender.score now = 0 := by rw [score, honly r hr hid]
      rw [hzero, (m.contender.clamped_score now).not_lt Clamped.zero]
      exact (m.contender.clamped_score now).zero_le
  have hrefreshes := h.not_refreshesAlways hcontestant hpolicy hm
  simp [receive, find?_of_mem hids hm, hrefreshes, haccepted]

/-- Right after that the others are not. -/
theorem Alike.receive_shut_out (h : g.Alike c) (hcontestant : c.inhibitory = false)
    (hjealous : Jealous c now) (hids : g.ids.Nodup) (hm : m ∈ g.members)
    (honly : g.OnlyHeard m.id) {r : Member} (hr : r ∈ g.members) (hne : r.id ≠ m.id) :
    ∃ verdict, verdict ≠ .accepted ∧
      (g.observe m.id now).receive r.id now = (verdict, g.observe m.id now) := by
  have hids' : (g.observe m.id now).ids.Nodup := (g.ids_observe m.id now).symm ▸ hids
  have halike' := h.observe m.id now
  have hr' : r ∈ (g.observe m.id now).members := List.mem_map.2 ⟨r, hr, if_neg hne⟩
  have hsent : m.contender.hear now = c.hear now := by
    obtain rfl := h m hm
    rfl
  have hrejected : (g.observe m.id now).arbitrate r.id now ≠ .accepted := by
    rw [ne_eq, halike'.arbitrate_eq_accepted_iff hcontestant hids' hr']
    intro hbest
    have hzero : r.contender.score now = 0 := by rw [score, honly r hr hne]
    have hfavourite := hbest _ (mem_observe hm now)
    rw [hzero, hsent] at hfavourite
    exact hfavourite hjealous.2
  have hrefreshes := halike'.not_refreshesAlways hcontestant hjealous.1 hr'
  refine ⟨_, hrejected, ?_⟩
  simp [receive, find?_of_mem hids' hr', hrefreshes, hrejected]

end Group

end PortArbiter
