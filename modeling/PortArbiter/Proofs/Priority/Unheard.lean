import PortArbiter.Proofs.Priority.Decay
import PortArbiter.Proofs.Priority.Renaming
/-!
# Members that are never heard

A member that was never heard, or that has no positive time constant, scores zero at every instant.
No score is below zero, so such a member objects to nobody, and the group decides on the messages of
everybody else as if it were not there.
-/

namespace PortArbiter

open Double

/-! ## Members that score zero -/

def Contender.Mute (c : Contender) : Prop :=
  c.arrival? = none ∨ ¬ 0 < c.timeConstant

theorem Contender.Mute.score [Exponential] {c : Contender} (h : c.Mute) (t : Float) :
    c.score t = 0 := by
  rcases h with hsilent | hfloor
  · rw [Contender.score, hsilent]
  · exact score_of_not_decays hfloor t

theorem Member.objection_of_mute [Exponential] {m : Member} (h : m.contender.Mute) {score : Float}
    (hscore : Clamped score) (now : Float) : m.objection score now = none := by
  have hinactive : ¬ ((0 : Float) < 0 ∧ score ≤ 0) := fun h => absurd h.1 (by decide +kernel)
  have hbelow : ¬ score < 0 := (hscore.not_lt Clamped.zero).2 hscore.zero_le
  rw [objection, h.score]
  by_cases hinhibitory : m.contender.inhibitory
  · simp only [hinhibitory, if_true, hinactive, if_false]
  · simp only [hinhibitory, hbelow, if_false, Bool.false_eq_true]

/-! ## A group without some of its members -/

namespace Group

/-- A group with the members alone whose identities are visible. -/
def only (visible : PeerId → Prop) [DecidablePred visible] (g : Group) : Group :=
  { g with members := g.members.filter (visible ·.id) }

variable {visible : PeerId → Prop} [DecidablePred visible]

theorem only_join_of_visible {id : PeerId} (hid : visible id) (g : Group) (c : Contender) :
    (g.join id c).only visible = (g.only visible).join id c := by
  rw [only, members_join, List.filter_append, List.filter_singleton, decide_eq_true hid]
  rfl

theorem only_join_of_hidden {id : PeerId} (hid : ¬ visible id) (g : Group) (c : Contender) :
    (g.join id c).only visible = g.only visible := by
  rw [only, members_join, List.filter_append, List.filter_singleton, decide_eq_false hid,
    cond_false, List.append_nil]
  rfl

theorem only_leave (g : Group) (id : PeerId) :
    (g.leave id).only visible = (g.only visible).leave id := by
  apply congrArg (Group.mk g.endpoint)
  show (g.members.filter _).filter _ = (g.members.filter _).filter _
  rw [List.filter_filter, List.filter_filter]
  apply List.filter_congr
  intro m _
  exact Bool.and_comm _ _

theorem only_leave_of_hidden {id : PeerId} (hid : ¬ visible id) (g : Group) :
    (g.leave id).only visible = g.only visible := by
  apply congrArg (Group.mk g.endpoint)
  show (g.members.filter _).filter _ = _
  rw [List.filter_filter]
  apply List.filter_congr
  intro m _
  by_cases hm : visible m.id
  · have hne : m.id ≠ id := fun heq => hid (heq ▸ hm)
    simp [hm, hne]
  · simp [hm]

theorem only_update (g : Group) (id : PeerId) (f : Contender → Contender) :
    (g.update id f).only visible = (g.only visible).update id f := by
  have hid : ∀ m : Member, (if m.id = id then ⟨m.id, f m.contender⟩ else m : Member).id = m.id := by
    intro m
    split <;> rfl
  rw [only, update, List.filter_map, update, only]
  congr 2
  apply List.filter_congr
  intro m _
  have hsame := hid m
  exact decide_eq_decide.2 (hsame ▸ Iff.rfl)

theorem only_observe (g : Group) (id : PeerId) (now : Float) :
    (g.observe id now).only visible = (g.only visible).observe id now :=
  only_update g id _

theorem only_update_of_hidden {id : PeerId} (hid : ¬ visible id) (g : Group)
    (f : Contender → Contender) : (g.update id f).only visible = g.only visible := by
  rw [only_update, update, only, List.map_congr_left (g := fun m => m), List.map_id']
  intro m hm
  have hvisible : visible m.id := by simpa using List.of_mem_filter hm
  have hne : m.id ≠ id := fun heq => hid (heq ▸ hvisible)
  exact if_neg hne

theorem find?_only {id : PeerId} (hid : visible id) (g : Group) :
    (g.only visible).find? id = g.find? id := by
  rw [find?, only, List.find?_filter, find?]
  congr 1
  funext m
  by_cases hm : m.id = id
  · simp [hm, hid]
  · simp [hm]

theorem contains_only {id : PeerId} (hid : visible id) (g : Group) :
    (g.only visible).contains id = g.contains id := by
  rw [contains, only, List.any_filter, contains]
  congr 1
  funext m
  by_cases hm : m.id = id
  · simp [hm, hid]
  · simp [hm]

def Muted (visible : PeerId → Prop) (g : Group) : Prop :=
  ∀ m ∈ g.members, ¬ visible m.id → m.contender.Mute

omit [DecidablePred visible] in
theorem Muted.observe {g : Group} (h : g.Muted visible) {id : PeerId} (hid : visible id)
    (now : Float) : (g.observe id now).Muted visible := by
  intro m hm hhidden
  rcases of_mem_observe hm with ⟨_, hold⟩ | ⟨sender, _, _, rfl⟩
  · exact h m hold hhidden
  · exact absurd hid hhidden

theorem findSome?_filter_of_none {α β : Type} {f : α → Option β} {p : α → Bool} {xs : List α}
    (h : ∀ x ∈ xs, p x = false → f x = none) : (xs.filter p).findSome? f = xs.findSome? f := by
  induction xs with
  | nil => rfl
  | cons x xs ih =>
      rw [List.forall_mem_cons] at h
      rw [List.filter_cons, List.findSome?_cons, ← ih h.2]
      cases hp : p x with
      | true => exact List.findSome?_cons
      | false => rw [h.1 hp]; rfl

variable [Exponential]

/-- Hidden members that score zero have no say in what happens to the others. -/
theorem arbitrate_only {g : Group} (h : g.Muted visible) {id : PeerId} (hid : visible id)
    (now : Float) : (g.only visible).arbitrate id now = g.arbitrate id now := by
  have hothers : ∀ score, Clamped score →
      ((g.only visible).members.filter (·.id ≠ id)).findSome? (·.objection score now) =
        (g.members.filter (·.id ≠ id)).findSome? (·.objection score now) := by
    intro score hscore
    have hswap : (g.only visible).members.filter (·.id ≠ id) =
        (g.members.filter (·.id ≠ id)).filter (visible ·.id) :=
      congrArg members (only_leave g id).symm
    rw [hswap]
    apply findSome?_filter_of_none
    intro m hm hhidden
    exact Member.objection_of_mute
      (h m (List.mem_of_mem_filter hm) (of_decide_eq_false hhidden)) hscore now
  rw [arbitrate, find?_only hid, arbitrate]
  cases g.find? id with
  | none => rfl
  | some sender =>
      dsimp only
      rw [hothers _ (sender.contender.clamped_score now)]

theorem receive_only {g : Group} (h : g.Muted visible) {id : PeerId} (hid : visible id)
    (now : Float) :
    (g.only visible).receive id now =
      ((g.receive id now).1, (g.receive id now).2.only visible) := by
  rw [receive, find?_only hid, receive]
  cases g.find? id with
  | none => rfl
  | some sender =>
      obtain ⟨heard, hheard⟩ : ∃ heard, heard =
          if sender.contender.refreshesAlways then g.observe id now else g := ⟨_, rfl⟩
      have hmuted : heard.Muted visible := by
        rw [hheard]
        split
        · exact h.observe hid now
        · exact h
      have honly : (if sender.contender.refreshesAlways then (g.only visible).observe id now
          else g.only visible) = heard.only visible := by
        rw [hheard]
        split
        · exact (only_observe g id now).symm
        · rfl
      dsimp only
      rw [honly, ← hheard, arbitrate_only hmuted hid, ← only_observe]
      simp only [apply_ite (Group.only visible)]

end Group

/-! ## Runs on one group -/

inductive Move where
  | join (id : PeerId) (c : Contender)
  | leave (id : PeerId)
  | ask (id : PeerId) (now : Float) (q : Query)

namespace Move

def subject : Move → PeerId
  | .join id _ | .leave id | .ask id _ _ => id

/-- Whether a source always joins without an arrival, and no message of it is ever recorded. -/
def Silent (x : PeerId) (moves : List Move) : Prop :=
  (∀ c, .join x c ∈ moves → c.arrival? = none) ∧
    ∀ now, .ask x now .observe ∉ moves ∧ .ask x now .receive ∉ moves

def Floored (x : PeerId) (moves : List Move) : Prop :=
  ∀ c, .join x c ∈ moves → ¬ 0 < c.timeConstant

end Move

def Answer.only (visible : PeerId → Prop) [DecidablePred visible] : Answer → Answer
  | .standings all => .standings (all.filter (visible ·.id))
  | answer => answer

namespace Group

variable [Exponential]

def make (g : Group) : Move → Answer × Group
  | .join id c => (.nothing, g.join id c)
  | .leave id => (.nothing, g.leave id)
  | .ask id now q => g.ask id now q

def run (g : Group) (moves : List Move) : Group :=
  moves.foldl (fun g move => (g.make move).2) g

def transcript : Group → List Move → List (PeerId × Answer)
  | _, [] => []
  | g, move :: moves => (move.subject, (g.make move).1) :: (g.make move).2.transcript moves

section

variable {visible : PeerId → Prop} [DecidablePred visible]

theorem standings_only (g : Group) (now : Float) :
    (g.only visible).standings now = (g.standings now).filter (visible ·.id) := by
  rw [standings, only, standings, List.filter_map]
  rfl

theorem make_only {g : Group} (h : g.Muted visible) {move : Move}
    (hsubject : visible move.subject) :
    (g.only visible).make move =
      ((g.make move).1.only visible, (g.make move).2.only visible) := by
  cases move with
  | join id c => exact congrArg (Prod.mk _) (only_join_of_visible hsubject g c).symm
  | leave id => exact congrArg (Prod.mk _) (only_leave g id).symm
  | ask id now q =>
      have hid : visible id := hsubject
      cases q with
      | observe => rw [make, ask, contains_only hid, ← only_observe]; rfl
      | receive => rw [make, ask, receive_only h hid]; rfl
      | arbitrate => rw [make, ask, arbitrate_only h hid]; rfl
      | score => rw [make, ask, score?, find?_only hid]; rfl
      | standings => rw [make, ask, standings_only]; rfl

theorem only_make_of_hidden (g : Group) {move : Move} (hsubject : ¬ visible move.subject) :
    (g.make move).2.only visible = g.only visible := by
  cases move with
  | join id c => exact only_join_of_hidden hsubject g c
  | leave id => exact only_leave_of_hidden hsubject g
  | ask id now q =>
      cases q with
      | observe => exact only_update_of_hidden hsubject g _
      | receive =>
          rw [make, ask]
          rcases receive_eq_self_or_observe g id now with hsame | hobserved
          · rw [hsame]
          · rw [hobserved]
            exact only_update_of_hidden hsubject g _
      | arbitrate | score | standings => rfl

end

def Knows (x : PeerId) (allowed : Contender → Prop) (g : Group) : Prop :=
  ∀ m ∈ g.members, m.id = x → allowed m.contender

variable {x : PeerId} {allowed : Contender → Prop}

omit [Exponential] in
theorem Knows.observe {g : Group} (h : g.Knows x allowed) {id : PeerId} {now : Float}
    (hheard : id = x → ∀ c, allowed c → allowed (c.hear now)) :
    (g.observe id now).Knows x allowed := by
  intro m hm hx
  rcases of_mem_observe hm with ⟨_, hold⟩ | ⟨sender, hsender, hid, rfl⟩
  · exact h m hold hx
  · exact hheard hx _ (h sender hsender (hid.trans hx))

/-- What is allowed of a member stays so, as long as it joins like that, and either messages do not
matter or there are none. -/
theorem Knows.make {g : Group} (h : g.Knows x allowed) {move : Move}
    (hjoin : ∀ c, move = .join x c → allowed c)
    (hheard : (∀ c now, allowed c → allowed (c.hear now)) ∨
      ∀ now, move ≠ .ask x now .observe ∧ move ≠ .ask x now .receive) :
    (g.make move).2.Knows x allowed := by
  cases move with
  | join id c =>
      intro m hm hx
      rcases List.mem_append.1 hm with hold | hnew
      · exact h m hold hx
      · obtain rfl := List.mem_singleton.1 hnew
        exact hjoin c (congrArg (Move.join · c) hx)
  | leave id => exact fun m hm => h m (List.mem_of_mem_filter hm)
  | ask id now q =>
      cases q with
      | observe =>
          apply h.observe
          rintro rfl c hc
          exact hheard.elim (fun hkeep => hkeep c now hc) fun hnone => absurd rfl (hnone now).1
      | receive =>
          show (g.receive id now).2.Knows x allowed
          rcases receive_eq_self_or_observe g id now with hsame | hobserved
          · rwa [hsame]
          · rw [hobserved]
            apply h.observe
            rintro rfl c hc
            exact hheard.elim (fun hkeep => hkeep c now hc) fun hnone => absurd rfl (hnone now).2
      | arbitrate | score | standings => exact h

/-- The others in a group cannot tell a run from the same run without a member that scores zero
throughout. -/
theorem run_only (hmute : ∀ c, allowed c → c.Mute) {moves : List Move}
    (hjoin : ∀ c, .join x c ∈ moves → allowed c)
    (hheard : (∀ c now, allowed c → allowed (c.hear now)) ∨
      ∀ now, .ask x now .observe ∉ moves ∧ .ask x now .receive ∉ moves)
    {g : Group} (h : g.Knows x allowed) :
    (g.only (· ≠ x)).run (moves.filter (·.subject ≠ x)) = (g.run moves).only (· ≠ x) ∧
      (g.only (· ≠ x)).transcript (moves.filter (·.subject ≠ x)) =
        ((g.transcript moves).filter (·.1 ≠ x)).map (Prod.map id (Answer.only (· ≠ x))) := by
  induction moves generalizing g with
  | nil => exact ⟨rfl, rfl⟩
  | cons move moves ih =>
      have hmuted : g.Muted (· ≠ x) := fun m hm hx => hmute _ (h m hm (Classical.not_not.1 hx))
      have hnext : (g.make move).2.Knows x allowed := by
        apply h.make
        · rintro c rfl
          exact hjoin c List.mem_cons_self
        · apply hheard.imp_right
          intro hnone now
          exact ⟨fun heq => (hnone now).1 (heq ▸ List.mem_cons_self),
            fun heq => (hnone now).2 (heq ▸ List.mem_cons_self)⟩
      have hrest := ih (fun c hc => hjoin c (List.mem_cons_of_mem _ hc))
        (hheard.imp_right fun hnone now =>
          ⟨fun hmem => (hnone now).1 (List.mem_cons_of_mem _ hmem),
            fun hmem => (hnone now).2 (List.mem_cons_of_mem _ hmem)⟩) hnext
      by_cases hsubject : move.subject = x
      · rw [List.filter_cons_of_neg (by simpa using hsubject), transcript,
          List.filter_cons_of_neg (by simpa using hsubject)]
        rwa [only_make_of_hidden g (Classical.not_not.2 hsubject)] at hrest
      · have hmake := make_only hmuted hsubject
        rw [List.filter_cons_of_pos (by simpa using hsubject), transcript, transcript,
          List.filter_cons_of_pos (by simpa using hsubject), List.map_cons]
        rw [run, List.foldl_cons, hmake]
        exact ⟨hrest.1, congrArg _ hrest.2⟩

/-- A member that is never heard, or that has no positive time constant whatever it sends, might as
well not be there: with it and all its moves left out of a run, whatever the clock readings, all
others get the same answers, and the same is known of them in the end. -/
theorem run_leave {moves : List Move} (hx : Move.Silent x moves ∨ Move.Floored x moves)
    (port : String) :
    let g : Group := { endpoint := port }
    let others := moves.filter (·.subject ≠ x)
    g.run others = (g.run moves).leave x ∧
      g.transcript others =
        ((g.transcript moves).filter (·.1 ≠ x)).map (Prod.map id (Answer.only (· ≠ x))) := by
  have hsilent : ∀ c : Contender, c.arrival? = none → c.Mute := fun _ => Or.inl
  have hfloored : ∀ c : Contender, ¬ 0 < c.timeConstant → c.Mute := fun _ => Or.inr
  have hempty : ∀ allowed, Knows x allowed { endpoint := port } :=
    fun _ _ hm => absurd hm List.not_mem_nil
  rcases hx with ⟨hjoin, hnone⟩ | hjoin
  · exact run_only hsilent hjoin (Or.inr hnone) (hempty _)
  · exact run_only hfloored hjoin (Or.inl fun _ _ hc => hc) (hempty _)

end Group

end PortArbiter
