import PortArbiter.Proofs.Priority.Winners
import PortArbiter.Scenario.Replay
/-!
# The bare arbitration loop

A replay without groups, registries, carriers or connections: a plain list of sources, each with
the time it was last heard at, and one pass over the events. A group whose members go by distinct
names handles a message just as the loop does.
-/

namespace PortArbiter.Bare

def hear (name : String) (now : Float) (cs : List Contender) : List Contender :=
  cs.map fun c => if c.source = name then c.hear now else c

/-- Hear a message of a source if that does not depend on its being let through. -/
def overhear (name : String) (now : Float) (cs : List Contender) : List Contender :=
  cs.map fun c =>
    if c.source = name ∧ (c.inhibitory = true ∨ c.policy = .observed) then c.hear now else c

variable [Exponential]

/-- Whether a source lets a score pass: an inhibitory one does unless its own score is above zero
and at least as high, any other one does unless its own score is higher. -/
def yields (c : Contender) (score now : Float) : Bool :=
  if c.inhibitory then !(0 < c.score now && score ≤ c.score now) else !(score < c.score now)

/-- Whether a message of a source is let through: never that of an inhibitory source, and
otherwise if all other sources let its score pass. -/
def admits (cs : List Contender) (name : String) (now : Float) : Bool :=
  cs.any fun sender => sender.source = name && !sender.inhibitory &&
    (cs.filter (·.source ≠ name)).all fun other => yields other (sender.score now) now

def handle (cs : List Contender) (name : String) (now : Float) : Bool × List Contender :=
  let heard := overhear name now cs
  let admitted := admits heard name now
  (admitted, if admitted then hear name now heard else heard)

theorem names_handle (cs : List Contender) (name : String) (now : Float) :
    (handle cs name now).2.map Contender.source = cs.map Contender.source := by
  have hstamp : ∀ (stamp : Contender → Contender) (cs : List Contender),
      (∀ c, (stamp c).source = c.source) →
        (cs.map stamp).map Contender.source = cs.map Contender.source := by
    intro stamp cs hkeeps
    rw [List.map_map]
    exact List.map_congr_left fun c _ => hkeeps c
  have hheard : (overhear name now cs).map Contender.source = cs.map Contender.source :=
    hstamp _ cs fun c => by split <;> rfl
  rw [handle]
  dsimp only
  split
  · rw [hear, hstamp _ _ fun c => by split <;> rfl, hheard]
  · exact hheard

def replay : List Contender → List Scenario.Event → List Scenario.Outcome
  | _, [] => []
  | cs, e :: rest =>
    let (delivered, cs) := handle cs e.source e.time
    ⟨e.time, e.source, delivered, cs.map fun c => (c.source, c.score e.time)⟩ :: replay cs rest

theorem events_replay (cs : List Contender) (events : List Scenario.Event) :
    (replay cs events).map (fun o => (o.time, o.source)) =
      events.map fun e => (e.time, e.source) := by
  induction events generalizing cs with
  | nil => rfl
  | cons e events ih =>
      rw [replay, List.map_cons, List.map_cons, ih]

end PortArbiter.Bare

namespace PortArbiter.Group

def contenders (g : Group) : List Contender :=
  g.members.map Member.contender

structure Named (g : Group) : Prop where
  ids : g.ids.Nodup
  names : (g.contenders.map Contender.source).Nodup

variable {g : Group} {m : Member}

theorem Named.names_members (h : g.Named) :
    (g.members.map fun m => m.contender.source).Nodup := by
  have hnames := h.names
  rw [contenders, List.map_map] at hnames
  exact hnames

theorem Named.eq_of_name (h : g.Named) (hm : m ∈ g.members) {r : Member} (hr : r ∈ g.members)
    (hname : r.contender.source = m.contender.source) : r = m :=
  List.inj_on_of_nodup_map h.names_members hr hm hname

theorem Named.id_eq_iff (h : g.Named) (hm : m ∈ g.members) {r : Member} (hr : r ∈ g.members) :
    r.id = m.id ↔ r.contender.source = m.contender.source := by
  constructor
  · intro hid
    rw [List.inj_on_of_nodup_map h.ids hr hm hid]
  · intro hname
    rw [h.eq_of_name hm hr hname]

theorem Named.find?_name (h : g.Named) (hm : m ∈ g.members) :
    g.members.find? (·.contender.source = m.contender.source) = some m :=
  find?_of_nodup_map h.names_members hm

theorem names_observe (g : Group) (id : PeerId) (now : Float) :
    (g.observe id now).contenders.map Contender.source = g.contenders.map Contender.source := by
  rw [contenders, contenders, observe, update, List.map_map, List.map_map, List.map_map]
  apply List.map_congr_left
  intro r _
  simp only [Function.comp_apply]
  split <;> rfl

theorem Named.observe (h : g.Named) (id : PeerId) (now : Float) : (g.observe id now).Named where
  ids := by
    rw [ids_observe]
    exact h.ids
  names := by
    rw [names_observe]
    exact h.names

theorem Named.contenders_observe (h : g.Named) (hm : m ∈ g.members) (now : Float) :
    (g.observe m.id now).contenders = Bare.hear m.contender.source now g.contenders := by
  rw [contenders, Group.observe, update, Bare.hear, contenders, List.map_map, List.map_map]
  apply List.map_congr_left
  intro r hr
  simp only [Function.comp_apply, h.id_eq_iff hm hr]
  split <;> rfl

theorem Named.contenders_heard (h : g.Named) (hm : m ∈ g.members) (now : Float) :
    (if m.contender.refreshesAlways then g.observe m.id now else g).contenders =
      Bare.overhear m.contender.source now g.contenders := by
  have hrefreshes := m.contender.refreshesAlways_iff
  by_cases hrefresh : m.contender.refreshesAlways = true
  · rw [if_pos hrefresh, h.contenders_observe hm, Bare.hear, Bare.overhear, contenders,
      List.map_map, List.map_map]
    apply List.map_congr_left
    intro r hr
    simp only [Function.comp_apply]
    by_cases hname : r.contender.source = m.contender.source
    · have hheard := hrefreshes.1 hrefresh
      rw [← h.eq_of_name hm hr hname] at hheard
      rw [if_pos hname, if_pos ⟨hname, hheard⟩]
    · rw [if_neg hname, if_neg fun hboth => hname hboth.1]
  · rw [if_neg hrefresh, Bare.overhear, contenders, List.map_map]
    apply List.map_congr_left
    intro r hr
    rw [Function.comp_apply, if_neg]
    rintro ⟨hname, hboth⟩
    rw [h.eq_of_name hm hr hname] at hboth
    exact hrefresh (hrefreshes.2 hboth)

variable [Exponential]

theorem yields_iff (r : Member) (score now : Float) :
    Bare.yields r.contender score now = true ↔ r.objection score now = none := by
  rw [Member.objection_eq_none_iff, Bare.yields]
  split
  · rw [Bool.not_eq_true', Bool.and_eq_false_iff, decide_eq_false_iff_not, decide_eq_false_iff_not,
      not_and_or]
  · rw [Bool.not_eq_true', decide_eq_false_iff_not]

/-- The decision of a group, in terms of its sources alone. -/
theorem Named.arbitrate_eq_accepted_iff (h : g.Named) (hm : m ∈ g.members) (now : Float) :
    g.arbitrate m.id now = .accepted ↔
      Bare.admits g.contenders m.contender.source now = true := by
  rw [Group.arbitrate_eq_accepted_iff h.ids hm, Bare.admits, List.any_eq_true]
  constructor
  · rintro ⟨hinhibitory, hnone⟩
    refine ⟨m.contender, List.mem_map_of_mem hm, ?_⟩
    rw [hinhibitory, decide_eq_true rfl, Bool.not_false, Bool.true_and, Bool.true_and,
      List.all_eq_true]
    intro c hc
    obtain ⟨r, hr, rfl⟩ := List.mem_map.1 (List.mem_filter.1 hc).1
    exact (yields_iff r _ now).2 (hnone r hr)
  · rintro ⟨c, hc, hpasses⟩
    obtain ⟨r, hr, rfl⟩ := List.mem_map.1 hc
    rw [Bool.and_eq_true, Bool.and_eq_true, decide_eq_true_iff, Bool.not_eq_true'] at hpasses
    obtain ⟨⟨hname, hinhibitory⟩, hothers⟩ := hpasses
    obtain rfl : r = m := h.eq_of_name hm hr hname
    refine ⟨hinhibitory, fun o ho => ?_⟩
    by_cases hsame : o.contender.source = r.contender.source
    · rw [h.eq_of_name hr ho hsame]
      exact r.objection_self now hinhibitory
    · have hmem : o.contender ∈ g.contenders.filter (·.source ≠ r.contender.source) :=
        List.mem_filter.2 ⟨List.mem_map_of_mem ho, decide_eq_true hsame⟩
      exact (yields_iff o _ now).1 (List.all_eq_true.1 hothers _ hmem)

/-- A group handles a message of a member just as the loop does. -/
theorem Named.receive_eq_handle (h : g.Named) (hm : m ∈ g.members) (now : Float) :
    (decide ((g.receive m.id now).1 = .accepted), (g.receive m.id now).2.contenders) =
      Bare.handle g.contenders m.contender.source now := by
  obtain ⟨heard, hheard⟩ :
      ∃ heard, heard = if m.contender.refreshesAlways then g.observe m.id now else g := ⟨_, rfl⟩
  have hcontenders : heard.contenders = Bare.overhear m.contender.source now g.contenders := by
    rw [hheard]
    exact h.contenders_heard hm now
  have hreceive : g.receive m.id now = (heard.arbitrate m.id now,
      if heard.arbitrate m.id now = .accepted then heard.observe m.id now else heard) := by
    rw [receive, find?_of_mem h.ids hm, hheard]
  have hfound : heard.Named ∧
      ∃ m' ∈ heard.members, m'.id = m.id ∧ m'.contender.source = m.contender.source := by
    rw [hheard]
    split
    · exact ⟨h.observe m.id now, _, mem_observe hm now, rfl, rfl⟩
    · exact ⟨h, m, hm, rfl, rfl⟩
  obtain ⟨hnamed, m', hm', hid, hname⟩ := hfound
  have haccepted := hnamed.arbitrate_eq_accepted_iff hm' now
  rw [hid, hname, hcontenders] at haccepted
  rw [hreceive, Bare.handle]
  by_cases hadmits : Bare.admits (Bare.overhear m.contender.source now g.contenders)
      m.contender.source now = true
  · have hafter := hnamed.contenders_observe hm' now
    rw [hid, hname, hcontenders] at hafter
    rw [if_pos hadmits, if_pos (haccepted.2 hadmits), decide_eq_true (haccepted.2 hadmits),
      hadmits, hafter]
  · rw [if_neg hadmits, if_neg (mt haccepted.1 hadmits), decide_eq_false (mt haccepted.1 hadmits),
      Bool.eq_false_of_not_eq_true hadmits, hcontenders]

theorem names_receive (g : Group) (id : PeerId) (now : Float) :
    (g.receive id now).2.contenders.map Contender.source =
      g.contenders.map Contender.source := by
  rcases receive_eq_self_or_observe g id now with heq | heq <;> rw [heq]
  exact names_observe g id now

end PortArbiter.Group
