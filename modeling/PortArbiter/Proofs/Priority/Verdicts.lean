import PortArbiter.Proofs.Priority.Unheard
/-!
# Verdicts

The answer of a group to a message, case by case. The members speak in the order in which they
joined, and the first one that stands in the way of the sender is named. Whether there is such a
member at all does not depend on the order.
-/

namespace PortArbiter

section

variable [Exponential]

/-! ## Standing in the way -/

def Member.Blocks (r m : Member) (now : Float) : Prop :=
  r.id ≠ m.id ∧
    if r.contender.inhibitory then
      0 < r.contender.score now ∧ m.contender.score now ≤ r.contender.score now
    else m.contender.score now < r.contender.score now

instance (r m : Member) (now : Float) : Decidable (r.Blocks m now) :=
  inferInstanceAs (Decidable (_ ∧ _))

def Member.blame (r : Member) : Verdict :=
  if r.contender.inhibitory then .inhibited r.id else .outranked r.id

theorem Member.objection_of_ne {r m : Member} {now : Float} (hne : r.id ≠ m.id) :
    r.objection (m.contender.score now) now =
      if r.Blocks m now then some r.blame else none := by
  by_cases hinhibitory : r.contender.inhibitory = true
  · simp [objection, Blocks, blame, hne, hinhibitory]
  · simp [objection, Blocks, blame, hne, hinhibitory]

namespace Group

variable {g : Group} {m r : Member} {id : PeerId} {now : Float}

/-- Those that stand in the way object, and nobody else does. -/
theorem objection_eq (hids : g.ids.Nodup) (hm : m ∈ g.members)
    (hcontestant : m.contender.inhibitory = false) (hr : r ∈ g.members) :
    r.objection (m.contender.score now) now = if r.Blocks m now then some r.blame else none := by
  by_cases hid : r.id = m.id
  · have hself : r = m := List.inj_on_of_nodup_map hids hr hm hid
    have hnot : ¬ r.Blocks m now := fun hblocks => hblocks.1 hid
    rw [if_neg hnot, hself]
    exact m.objection_self now hcontestant
  · exact Member.objection_of_ne hid

/-- A contestant does not object to itself, so all members may be asked. -/
theorem arbitrate_of_contestant (hids : g.ids.Nodup) (hm : m ∈ g.members)
    (hcontestant : m.contender.inhibitory = false) :
    g.arbitrate m.id now =
      (g.members.findSome? (·.objection (m.contender.score now) now)).getD .accepted := by
  have hself : ∀ r ∈ g.members, decide (r.id ≠ m.id) = false →
      r.objection (m.contender.score now) now = none := by
    intro r hr hid
    have hsame : r.id = m.id := by simpa using hid
    rw [List.inj_on_of_nodup_map hids hr hm hsame]
    exact m.objection_self now hcontestant
  rw [arbitrate, find?_of_mem hids hm]
  simp only [hcontestant, Bool.false_eq_true, if_false]
  rw [findSome?_filter_of_none hself]

theorem arbitrate_of_inhibitory (hids : g.ids.Nodup) (hm : m ∈ g.members)
    (hinhibitory : m.contender.inhibitory = true) : g.arbitrate m.id now = .inhibitory :=
  arbitrate_eq_inhibitory (find?_of_mem hids hm) hinhibitory now

/-- Whether `r` is the member that joined first of all those that stand in the way of `m`. -/
def FirstBlocker (g : Group) (m r : Member) (now : Float) : Prop :=
  ∃ before after, g.members = before ++ r :: after ∧ r.Blocks m now ∧
    ∀ b ∈ before, ¬ b.Blocks m now

theorem arbitrate_of_firstBlocker (hids : g.ids.Nodup) (hm : m ∈ g.members)
    (hcontestant : m.contender.inhibitory = false) (h : g.FirstBlocker m r now) :
    g.arbitrate m.id now = r.blame := by
  obtain ⟨before, after, hsplit, hblocks, hfirst⟩ := h
  have hr : r ∈ g.members := hsplit ▸ List.mem_append_right before List.mem_cons_self
  have hfound : g.members.findSome? (·.objection (m.contender.score now) now) = some r.blame := by
    rw [List.findSome?_eq_some_iff]
    refine ⟨before, r, after, hsplit, ?_, ?_⟩
    · rw [objection_eq hids hm hcontestant hr, if_pos hblocks]
    · intro b hb
      have hmem : b ∈ g.members := hsplit ▸ List.mem_append_left _ hb
      rw [objection_eq hids hm hcontestant hmem, if_neg (hfirst b hb)]
  rw [arbitrate_of_contestant hids hm hcontestant, hfound, Option.getD_some]

theorem arbitrate_of_unblocked (hids : g.ids.Nodup) (hm : m ∈ g.members)
    (hcontestant : m.contender.inhibitory = false) (h : ∀ r ∈ g.members, ¬ r.Blocks m now) :
    g.arbitrate m.id now = .accepted := by
  rw [arbitrate_eq_accepted_iff hids hm]
  refine ⟨hcontestant, fun r hr => ?_⟩
  rw [objection_eq hids hm hcontestant hr, if_neg (h r hr)]

theorem exists_firstBlocker (h : ∃ r ∈ g.members, r.Blocks m now) :
    ∃ r, g.FirstBlocker m r now := by
  have hsome : (g.members.find? (fun r => decide (r.Blocks m now))).isSome := by
    rw [List.find?_isSome]
    simpa using h
  obtain ⟨r, hr⟩ := Option.isSome_iff_exists.1 hsome
  rw [List.find?_eq_some_iff_append] at hr
  obtain ⟨hblocks, before, after, hsplit, hfirst⟩ := hr
  refine ⟨r, before, after, hsplit, of_decide_eq_true hblocks, fun b hb => ?_⟩
  simpa using hfirst b hb

/-! ## The rules -/

/-- The rules by which a group answers to a message of `id`. -/
inductive Ruling (g : Group) (id : PeerId) (now : Float) : Verdict → Prop where
  | notMember (hid : id ∉ g.ids) : Ruling g id now .notMember
  | inhibitory {m : Member} (hm : m ∈ g.members) (hid : m.id = id)
      (hinhibitory : m.contender.inhibitory = true) : Ruling g id now .inhibitory
  /-- Nobody stands in the way. -/
  | accepted {m : Member} (hm : m ∈ g.members) (hid : m.id = id)
      (hcontestant : m.contender.inhibitory = false)
      (hfree : ∀ r ∈ g.members, ¬ r.Blocks m now) : Ruling g id now .accepted
  /-- The first member in the way scores strictly higher and is not inhibitory. -/
  | outranked {m r : Member} (hm : m ∈ g.members) (hid : m.id = id)
      (hcontestant : m.contender.inhibitory = false) (hfirst : g.FirstBlocker m r now)
      (hkind : r.contender.inhibitory = false) : Ruling g id now (.outranked r.id)
  /-- The first member in the way is an active inhibitory one. -/
  | inhibited {m r : Member} (hm : m ∈ g.members) (hid : m.id = id)
      (hcontestant : m.contender.inhibitory = false) (hfirst : g.FirstBlocker m r now)
      (hkind : r.contender.inhibitory = true) : Ruling g id now (.inhibited r.id)

theorem Ruling.arbitrate_eq {v : Verdict} (hids : g.ids.Nodup) (h : g.Ruling id now v) :
    g.arbitrate id now = v := by
  cases h with
  | notMember hid => exact arbitrate_of_not_mem hid
  | inhibitory hm hid hinhibitory => exact hid ▸ arbitrate_of_inhibitory hids hm hinhibitory
  | accepted hm hid hcontestant hfree =>
      exact hid ▸ arbitrate_of_unblocked hids hm hcontestant hfree
  | outranked hm hid hcontestant hfirst hkind =>
      rw [← hid, arbitrate_of_firstBlocker hids hm hcontestant hfirst, Member.blame, hkind]
      rfl
  | inhibited hm hid hcontestant hfirst hkind =>
      rw [← hid, arbitrate_of_firstBlocker hids hm hcontestant hfirst, Member.blame, hkind]
      rfl

/-- The rules leave no message without a verdict. -/
theorem exists_ruling (g : Group) (id : PeerId) (now : Float) : ∃ v, g.Ruling id now v := by
  by_cases hid : id ∈ g.ids
  · obtain ⟨m, hm, hid⟩ := List.mem_map.1 hid
    cases hinhibitory : m.contender.inhibitory with
    | true => exact ⟨_, .inhibitory hm hid hinhibitory⟩
    | false =>
        by_cases hblocked : ∃ r ∈ g.members, r.Blocks m now
        · obtain ⟨r, hfirst⟩ := exists_firstBlocker hblocked
          cases hkind : r.contender.inhibitory with
          | true => exact ⟨_, .inhibited hm hid hinhibitory hfirst hkind⟩
          | false => exact ⟨_, .outranked hm hid hinhibitory hfirst hkind⟩
        · have hfree : ∀ r ∈ g.members, ¬ r.Blocks m now :=
            fun r hr hblocks => hblocked ⟨r, hr, hblocks⟩
          exact ⟨_, .accepted hm hid hinhibitory hfree⟩
  · exact ⟨_, .notMember hid⟩

theorem arbitrate_eq_iff_ruling (hids : g.ids.Nodup) (v : Verdict) :
    g.arbitrate id now = v ↔ g.Ruling id now v := by
  constructor
  · rintro rfl
    obtain ⟨v, hv⟩ := exists_ruling g id now
    rwa [hv.arbitrate_eq hids]
  · exact Ruling.arbitrate_eq hids

/-! ## The order of the members -/

theorem Ruling.accepted_of_perm {g' : Group} (hperm : g'.members.Perm g.members)
    (h : g.Ruling id now .accepted) : g'.Ruling id now .accepted := by
  cases h with
  | accepted hm hid hcontestant hfree =>
      exact .accepted (hperm.mem_iff.2 hm) hid hcontestant fun r hr => hfree r (hperm.mem_iff.1 hr)

/-- The verdict on a message is the one that the rules give: a stranger is no member, an inhibitory
member is never let through, any other one is let through if nobody stands in its way, and is told
of the first member to join among those that do otherwise. Whether it is let through does not depend
on who joined when. -/
theorem arbitrate_exact (g : Group) (hids : g.ids.Nodup) (id : PeerId) (now : Float) :
    (∀ v, g.arbitrate id now = v ↔ g.Ruling id now v) ∧
    (∀ g' : Group, g'.members.Perm g.members →
      (g'.arbitrate id now = .accepted ↔ g.arbitrate id now = .accepted)) := by
  refine ⟨arbitrate_eq_iff_ruling hids, fun g' hperm => ?_⟩
  have hids' : g'.ids.Nodup := (hperm.map Member.id).nodup_iff.2 hids
  rw [arbitrate_eq_iff_ruling hids, arbitrate_eq_iff_ruling hids']
  exact ⟨Ruling.accepted_of_perm hperm.symm, Ruling.accepted_of_perm hperm⟩

end Group

end

/-- A source that two others stand in the way of: a tied inhibitory one, and a stronger one that
joined later. The strongest of all was never heard. -/
def Group.crossfire : Group where
  endpoint := "/door:i"
  members := [
    ⟨⟨1⟩, { source := "left", level := 1, timeConstant := 1, arrival? := some 0 }⟩,
    ⟨⟨2⟩, { source := "idle", level := 5, timeConstant := 1, inhibitory := true }⟩,
    ⟨⟨3⟩, { source := "guard", level := 1, timeConstant := 1, arrival? := some 0,
            inhibitory := true }⟩,
    ⟨⟨4⟩, { source := "right", level := 2, timeConstant := 1, arrival? := some 0 }⟩]

theorem Group.arbitrate_exact_crossfire :
    letI : Exponential := ⟨Exponential.coarse⟩
    crossfire.ids.Nodup ∧ crossfire.Ruling ⟨1⟩ 0 (.inhibited ⟨3⟩) ∧
      { crossfire with members := crossfire.members.reverse }.arbitrate ⟨1⟩ 0 ≠ .accepted := by
  let _ : Exponential := ⟨Exponential.coarse⟩
  have hids : crossfire.ids.Nodup := by decide
  have hexact := arbitrate_exact crossfire hids ⟨1⟩ 0
  have hverdict : crossfire.arbitrate ⟨1⟩ 0 = .inhibited ⟨3⟩ := by decide +kernel
  refine ⟨hids, (hexact.1 _).1 hverdict, fun haccepted => ?_⟩
  have hback := (hexact.2 _ (List.reverse_perm _)).1 haccepted
  rw [hverdict] at hback
  nomatch hback

end PortArbiter
