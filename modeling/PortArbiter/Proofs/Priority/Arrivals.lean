import PortArbiter.Proofs.Priority.Clock
/-!
# Arrivals as history

The arrival that a group keeps of a member is the time of the last message that refreshed it since
the member joined. Which messages did can be read off a log of the run, since it depends on nothing
but the verdict and on what the member declared.
-/

namespace PortArbiter

/-! ## Logs -/

/-- The time to which a logged move refreshed the arrival of a member that had joined as `c`: that
of a message that was recorded only, of one that was handled, if all messages of the member count,
and of one that was let through. -/
def Contender.refreshedTo? (c : Contender) (id : PeerId) : Move × Answer → Option Float
  | (.ask x now .observe, _) => if x = id then some now else none
  | (.ask x now .receive, answer) =>
    if x = id ∧ (c.inhibitory = true ∨ c.policy = .observed ∨ answer = .verdict .accepted)
      then some now else none
  | _ => none

/-- What is known of a member that joined as `c`, by the log since then: the arrival is the last one
that a move refreshed, or the one it joined with if none did. -/
def Contender.since (c : Contender) (id : PeerId) (log : List (Move × Answer)) : Contender :=
  { c with arrival? := (log.filterMap (c.refreshedTo? id)).getLast?.or c.arrival? }

theorem Contender.since_cons (c : Contender) (id : PeerId) (x : Move × Answer)
    (log : List (Move × Answer)) : c.since id (x :: log) = (c.since id [x]).since id log := by
  have hsame : (c.since id [x]).refreshedTo? id = c.refreshedTo? id := rfl
  rw [since, since, hsame, List.filterMap_cons]
  cases hx : c.refreshedTo? id x with
  | none => simp [since, hx]
  | some t =>
      have hlast : ∀ ts : List Float, (t :: ts).getLast? = ts.getLast?.or (some t) := by
        intro ts
        rw [List.getLast?_cons]
        cases ts.getLast? <;> rfl
      simp [since, hx, hlast]

theorem Contender.since_observe (c : Contender) (id : PeerId) (now : Float) (answer : Answer) :
    c.since id [(.ask id now .observe, answer)] = c.hear now := by
  simp [since, refreshedTo?, hear]

theorem Contender.since_receive (c : Contender) (id : PeerId) (now : Float) (v : Verdict) :
    c.since id [(.ask id now .receive, .verdict v)] =
      if c.inhibitory = true ∨ c.policy = .observed ∨ v = .accepted then c.hear now else c := by
  split <;> simp [since, refreshedTo?, hear, *]

theorem Contender.since_of_ne (c : Contender) {id x : PeerId} (hne : x ≠ id) (now : Float)
    (q : Query) (answer : Answer) : c.since id [(.ask x now q, answer)] = c := by
  cases q <;> simp [since, refreshedTo?, hne]

section

variable [Exponential] {g : Group} {m : Member} {moves : List Move}

namespace Group

def log : Group → List Move → List (Move × Answer)
  | _, [] => []
  | g, move :: moves => (move, (g.make move).1) :: (g.make move).2.log moves

/-- Whether nobody joins as somebody who is there already. A registry hands out every identity only
once, so none of its groups sees that. -/
def Fresh : Group → List Move → Prop
  | _, [] => True
  | g, move :: moves => (∀ id c, move = .join id c → id ∉ g.ids) ∧ (g.make move).2.Fresh moves

theorem Fresh.of_append {before after : List Move} (h : g.Fresh (before ++ after)) :
    g.Fresh before ∧ (g.run before).Fresh after := by
  induction before generalizing g with
  | nil => exact ⟨trivial, h⟩
  | cons move before ih =>
      obtain ⟨hmove, hrest⟩ := h
      exact ⟨⟨hmove, (ih hrest).1⟩, (ih hrest).2⟩

/-! ## Single moves -/

theorem ids_make (g : Group) (move : Move) :
    (g.make move).2.ids = match move with
      | .join id _ => g.ids ++ [id]
      | .leave id => g.ids.filter (· ≠ id)
      | .ask _ _ _ => g.ids := by
  cases move with
  | join id c => exact g.ids_join id c
  | leave id => exact g.ids_leave id
  | ask id now q => exact g.ids_ask id now q

theorem nodup_make (hids : g.ids.Nodup) {move : Move}
    (hfresh : ∀ id c, move = .join id c → id ∉ g.ids) : (g.make move).2.ids.Nodup := by
  rw [ids_make]
  cases move with
  | join id c => exact List.nodup_append.2 ⟨hids, List.nodup_singleton id, by
      rintro a ha b hb rfl
      exact hfresh id c rfl (List.mem_singleton.1 hb ▸ ha)⟩
  | leave id => exact hids.filter _
  | ask id now q => exact hids

theorem Fresh.nodup_run (h : g.Fresh moves) (hids : g.ids.Nodup) : (g.run moves).ids.Nodup := by
  induction moves generalizing g with
  | nil => exact hids
  | cons move moves ih => exact ih h.2 (nodup_make hids h.1)

theorem filter_members_ask (g : Group) (id : PeerId) (now : Float) (q : Query) :
    (g.ask id now q).2.members.filter (·.id ≠ id) = g.members.filter (·.id ≠ id) := by
  have hobserve : (g.observe id now).only (· ≠ id) = g.only (· ≠ id) :=
    only_update_of_hidden (not_not.2 rfl) g _
  cases q with
  | observe => exact congrArg members hobserve
  | receive =>
      show ((g.receive id now).2.only (· ≠ id)).members = (g.only (· ≠ id)).members
      rcases receive_eq_self_or_observe g id now with hsame | hobserved
      · rw [hsame]
      · rw [hobserved, hobserve]
  | arbitrate | score | standings => rfl

omit [Exponential] in
theorem observe_of_not_mem {id : PeerId} (h : id ∉ g.ids) (now : Float) : g.observe id now = g := by
  have hne : ∀ m ∈ g.members, m.id ≠ id := fun m hm heq => h (heq ▸ List.mem_map_of_mem hm)
  rw [observe, update, List.map_congr_left fun m hm => if_neg (hne m hm), List.map_id']

theorem ask_of_not_mem {id : PeerId} (h : id ∉ g.ids) (now : Float) (q : Query) :
    (g.ask id now q).2 = g := by
  cases q with
  | observe => exact observe_of_not_mem h now
  | receive =>
      show (g.receive id now).2 = g
      rw [receive_of_find?_eq_none (find?_of_not_mem h)]
  | arbitrate | score | standings => rfl

theorem mem_ask_self (hids : g.ids.Nodup) (hm : m ∈ g.members) (now : Float) (q : Query) :
    ⟨m.id, m.contender.since m.id [(.ask m.id now q, (g.ask m.id now q).1)]⟩ ∈
      (g.ask m.id now q).2.members := by
  cases q with
  | observe =>
      rw [Contender.since_observe]
      exact mem_observe hm now
  | receive =>
      have hanswer : (g.ask m.id now .receive).1 = .verdict (g.receive m.id now).1 := rfl
      have hafter := receive_snd_of_find? (find?_of_mem hids hm) now
      simp only [Contender.refreshesAlways_iff, or_assoc] at hafter
      rw [hanswer, Contender.since_receive]
      show _ ∈ (g.receive m.id now).2.members
      rw [hafter]
      split
      · exact mem_observe hm now
      · exact hm
  | arbitrate | score | standings => exact hm

theorem mem_make (hids : g.ids.Nodup) (hm : m ∈ g.members) {move : Move}
    (hstays : move ≠ .leave m.id) :
    ⟨m.id, m.contender.since m.id [(move, (g.make move).1)]⟩ ∈ (g.make move).2.members := by
  cases move with
  | join id c => exact List.mem_append_left _ hm
  | leave id =>
      have hne : m.id ≠ id := fun heq => hstays (heq ▸ rfl)
      exact List.mem_filter.2 ⟨hm, by simpa using hne⟩
  | ask id now q =>
      by_cases hid : id = m.id
      · exact hid ▸ mem_ask_self hids hm now q
      · have hmem : m ∈ (g.ask id now q).2.members.filter (·.id ≠ id) := by
          rw [filter_members_ask]
          exact List.mem_filter.2 ⟨hm, by simpa using Ne.symm hid⟩
        rw [Contender.since_of_ne _ hid]
        exact List.mem_of_mem_filter hmem

/-! ## Runs -/

theorem mem_run (hids : g.ids.Nodup) (hfresh : g.Fresh moves) (hm : m ∈ g.members)
    (hstays : .leave m.id ∉ moves) :
    ⟨m.id, m.contender.since m.id (g.log moves)⟩ ∈ (g.run moves).members := by
  -- along the moves, with what is known of the member after the first one in place of `m.contender`
  induction moves generalizing g m with
  | nil => exact hm
  | cons move moves ih =>
      have hmove := mem_make hids hm fun heq => hstays (heq ▸ List.mem_cons_self)
      have hrest := ih (nodup_make hids hfresh.1) hfresh.2 hmove
        fun hmem => hstays (List.mem_cons_of_mem move hmem)
      rwa [← Contender.since_cons] at hrest

theorem exists_join_of_mem_run {id : PeerId} (hnew : id ∉ g.ids) (h : id ∈ (g.run moves).ids) :
    ∃ before c after, moves = before ++ .join id c :: after ∧ .leave id ∉ after := by
  -- from the end, since it is the last join that counts
  induction moves using List.reverseRecOn with
  | nil => exact absurd h hnew
  | append_singleton moves move ih =>
      have hlater : id ∈ (g.run moves).ids → move ≠ .leave id →
          ∃ before c after, moves ++ [move] = before ++ .join id c :: after ∧
            .leave id ∉ after := by
        intro hold hstays
        obtain ⟨before, c, after, rfl, hafter⟩ := ih hold
        refine ⟨before, c, after ++ [move], by simp, ?_⟩
        simpa [hafter] using Ne.symm hstays
      have hlast : (g.run (moves ++ [move])).ids = ((g.run moves).make move).2.ids :=
        congrArg ids (run_append g moves [move])
      rw [hlast, ids_make] at h
      cases move with
      | join id' c =>
          rcases List.mem_append.1 h with hold | hjoined
          · exact hlater hold nofun
          · obtain rfl := List.mem_singleton.1 hjoined
            exact ⟨moves, c, [], rfl, List.not_mem_nil⟩
      | leave id' =>
          obtain ⟨hold, hne⟩ := List.mem_filter.1 h
          refine hlater hold fun heq => ?_
          cases heq
          simp at hne
      | ask id' now q => exact hlater h nofun

/-- Stored arrivals are the history of refreshing messages. After any run in which nobody joins as
somebody who is there, the members are those that have joined and not left since, and all that is
known of one is what it joined with, but for the arrival, which is the time of the last message that
refreshed it since. A question on behalf of one identity changes no other member, a mere decision
changes nothing, and neither does a question on behalf of somebody who is no member. -/
theorem arrivals_recorded (port : String) {moves : List Move}
    (hfresh : Fresh { endpoint := port } moves) :
    (∀ m, m ∈ (run { endpoint := port } moves).members ↔
      ∃ before c after, moves = before ++ .join m.id c :: after ∧ .leave m.id ∉ after ∧
        m.contender =
          c.since m.id (((run { endpoint := port } before).join m.id c).log after)) ∧
    ∀ (g : Group) (id : PeerId) (now : Float),
      (∀ q, (g.ask id now q).2.ids = g.ids ∧
        (g.ask id now q).2.members.filter (·.id ≠ id) = g.members.filter (·.id ≠ id) ∧
        (id ∉ g.ids → (g.ask id now q).2 = g)) ∧
      (g.ask id now .arbitrate).2 = g := by
  have hempty : (Group.ids { endpoint := port }).Nodup := List.nodup_nil
  have hmem : ∀ before id c after, moves = before ++ .join id c :: after → .leave id ∉ after →
      ⟨id, c.since id (((run { endpoint := port } before).join id c).log after)⟩ ∈
        (run { endpoint := port } moves).members := by
    rintro before id c after rfl hstays
    obtain ⟨hbefore, hjoin, hafter⟩ := hfresh.of_append
    have hids := nodup_make (hbefore.nodup_run hempty) hjoin
    rw [run_append, run_cons]
    exact mem_run hids hafter (m := ⟨id, c⟩) (List.mem_append_right _ List.mem_cons_self) hstays
  refine ⟨fun m => ⟨fun hm => ?_, ?_⟩, fun g id now => ⟨fun q => ?_, rfl⟩⟩
  · obtain ⟨before, c, after, hsplit, hstays⟩ :=
      exists_join_of_mem_run (g := { endpoint := port }) List.not_mem_nil (List.mem_map_of_mem hm)
    have hknown := hmem before m.id c after hsplit hstays
    have hsame := List.inj_on_of_nodup_map (hfresh.nodup_run hempty) hm hknown rfl
    exact ⟨before, c, after, hsplit, hstays, congrArg Member.contender hsame⟩
  · rintro ⟨before, c, after, hsplit, hstays, hcontender⟩
    have hknown := hmem before m.id c after hsplit hstays
    rwa [← hcontender] at hknown
  · exact ⟨g.ids_ask id now q, filter_members_ask g id now q, fun h => ask_of_not_mem h now q⟩

end Group

end

def Contender.picky : Contender where
  source := "/a"
  level := 10
  timeConstant := 2
  policy := .admitted

def Contender.eager : Contender where
  source := "/b"
  level := 5
  timeConstant := 2

def Move.succession : List Move := [
  .join ⟨2⟩ .eager,
  .join ⟨1⟩ .picky,
  .ask ⟨1⟩ 0 .receive,
  .ask ⟨2⟩ 0 .receive,
  .ask ⟨2⟩ 2 .receive,
  .ask ⟨1⟩ 2 .receive,
  .leave ⟨2⟩,
  .join ⟨3⟩ .eager,
  .ask ⟨2⟩ 3 .observe,
  .ask ⟨3⟩ 3 .arbitrate]

theorem Group.arrivals_recorded_succession :
    letI : Exponential := ⟨Exponential.coarse⟩
    Fresh { endpoint := "/port1" } Move.succession ∧
      ⟨⟨1⟩, Contender.picky.hear 0⟩ ∈ (run { endpoint := "/port1" } Move.succession).members ∧
      ⟨⟨3⟩, Contender.eager⟩ ∈ (run { endpoint := "/port1" } Move.succession).members := by
  let _ : Exponential := ⟨Exponential.coarse⟩
  have hfresh : Fresh { endpoint := "/port1" } Move.succession := by
    refine ⟨?_, ?_, nofun, nofun, nofun, nofun, nofun, ?_, nofun, nofun, trivial⟩ <;>
      rintro _ _ ⟨⟩ <;> decide +kernel
  have hmembers := (arrivals_recorded "/port1" hfresh).1
  refine ⟨hfresh, ?_, ?_⟩
  · refine (hmembers _).2 ⟨[.join ⟨2⟩ .eager], .picky, _, rfl, ?_, ?_⟩
    · simp
    · decide +kernel
  · refine (hmembers _).2 ⟨Move.succession.take 7, .eager, _, rfl, ?_, ?_⟩
    · simp
    · decide +kernel

end PortArbiter
