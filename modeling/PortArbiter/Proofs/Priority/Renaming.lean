import PortArbiter.Proofs.Priority.Members
/-!
# Renaming identities

To a group identities are mere names. With all of them replaced, no two by the same one, a group
answers every question as before, but for the names in its answers.
-/

namespace PortArbiter

/-! ## Questions to a group -/

inductive Query where
  | observe
  | receive
  | arbitrate
  | score
  | standings
deriving DecidableEq

deriving instance DecidableEq for Contender, Member, Standing

inductive Answer where
  /-- Nothing is told about a registration that was given back. -/
  | nothing
  | registered (key : String) (id : PeerId)
  /-- Whether the message was one of a member. -/
  | observed (member : Bool)
  | verdict (v : Verdict)
  | score (score? : Option Float)
  | standings (all : List Standing)
deriving DecidableEq

def Group.ask [Exponential] (g : Group) (id : PeerId) (now : Float) : Query → Answer × Group
  | .observe => (.observed (g.contains id), g.observe id now)
  | .receive => ((.verdict (g.receive id now).1), (g.receive id now).2)
  | .arbitrate => (.verdict (g.arbitrate id now), g)
  | .score => (.score (g.score? id now), g)
  | .standings => (.standings (g.standings now), g)

theorem Group.endpoint_ask [Exponential] (g : Group) (id : PeerId) (now : Float) (q : Query) :
    (g.ask id now q).2.endpoint = g.endpoint := by
  cases q with
  | receive => exact g.endpoint_receive id now
  | observe | arbitrate | score | standings => rfl

theorem Group.ids_ask [Exponential] (g : Group) (id : PeerId) (now : Float) (q : Query) :
    (g.ask id now q).2.ids = g.ids := by
  cases q with
  | observe => exact g.ids_observe id now
  | receive => exact g.ids_receive id now
  | arbitrate | score | standings => rfl

/-! ## New names -/

theorem PeerId.injective_of_ascending {ρ : PeerId → PeerId}
    (h : ∀ a b, a.number < b.number → (ρ a).number < (ρ b).number) : Function.Injective ρ := by
  intro a b heq
  rcases Nat.lt_trichotomy a.number b.number with hlt | hsame | hgt
  · exact absurd (heq ▸ h a b hlt) (Nat.lt_irrefl _)
  · cases a
    exact congrArg PeerId.mk hsame
  · exact absurd (heq ▸ h b a hgt) (Nat.lt_irrefl _)

def Member.rename (ρ : PeerId → PeerId) (m : Member) : Member :=
  ⟨ρ m.id, m.contender⟩

def Standing.rename (ρ : PeerId → PeerId) (s : Standing) : Standing :=
  { s with id := ρ s.id }

def Verdict.rename (ρ : PeerId → PeerId) : Verdict → Verdict
  | .accepted => .accepted
  | .outranked rival => .outranked (ρ rival)
  | .inhibited rival => .inhibited (ρ rival)
  | .inhibitory => .inhibitory
  | .notMember => .notMember

def Answer.rename (ρ : PeerId → PeerId) : Answer → Answer
  | .nothing => .nothing
  | .registered key id => .registered key (ρ id)
  | .observed member => .observed member
  | .verdict v => .verdict (v.rename ρ)
  | .score score? => .score score?
  | .standings all => .standings (all.map (Standing.rename ρ))

theorem Answer.rename_id (a : Answer) : a.rename id = a := by
  cases a with
  | verdict v => cases v <;> rfl
  | standings all => exact congrArg Answer.standings (List.map_id all)
  | nothing | registered | observed | score => rfl

def Group.rename (ρ : PeerId → PeerId) (g : Group) : Group :=
  { g with members := g.members.map (Member.rename ρ) }

theorem Member.objection_rename [Exponential] (ρ : PeerId → PeerId) (m : Member)
    (score now : Float) :
    (m.rename ρ).objection score now = (m.objection score now).map (Verdict.rename ρ) := by
  cases hinhibitory : m.contender.inhibitory with
  | true =>
      simp only [objection, rename, hinhibitory, if_true, apply_ite (Option.map (Verdict.rename ρ))]
      rfl
  | false =>
      simp only [objection, rename, hinhibitory, Bool.false_eq_true, if_false,
        apply_ite (Option.map (Verdict.rename ρ))]
      rfl

theorem Verdict.rename_eq_accepted_iff (ρ : PeerId → PeerId) (v : Verdict) :
    v.rename ρ = .accepted ↔ v = .accepted := by
  cases v <;> simp [rename]

namespace Group

variable {ρ : PeerId → PeerId}

theorem ids_rename (g : Group) : (g.rename ρ).ids = g.ids.map ρ := by
  rw [ids, rename, ids, List.map_map, List.map_map]
  rfl

theorem rename_join (g : Group) (id : PeerId) (c : Contender) :
    (g.join id c).rename ρ = (g.rename ρ).join (ρ id) c := by
  rw [join, rename, List.map_append]
  rfl

variable (hρ : Function.Injective ρ)

include hρ

theorem rename_leave (g : Group) (id : PeerId) :
    (g.leave id).rename ρ = (g.rename ρ).leave (ρ id) := by
  rw [leave, rename, rename, leave, List.filter_map]
  congr 2
  apply List.filter_congr
  intro m _
  exact decide_eq_decide.2 (not_congr hρ.eq_iff.symm)

theorem rename_update (g : Group) (id : PeerId) (f : Contender → Contender) :
    (g.update id f).rename ρ = (g.rename ρ).update (ρ id) f := by
  rw [update, rename, rename, update, List.map_map, List.map_map]
  congr 1
  apply List.map_congr_left
  intro m _
  by_cases h : m.id = id
  · simp only [Function.comp_apply, Member.rename, h, if_true]
  · have hnew : ¬ ρ m.id = ρ id := fun heq => h (hρ heq)
    simp only [Function.comp_apply, Member.rename, h, hnew, if_false]

theorem rename_observe (g : Group) (id : PeerId) (now : Float) :
    (g.observe id now).rename ρ = (g.rename ρ).observe (ρ id) now :=
  rename_update hρ g id _

theorem find?_rename (g : Group) (id : PeerId) :
    (g.rename ρ).find? (ρ id) = (g.find? id).map (Member.rename ρ) := by
  rw [find?, rename, List.find?_map, find?]
  congr 2
  funext m
  exact decide_eq_decide.2 hρ.eq_iff

theorem contains_rename (g : Group) (id : PeerId) :
    (g.rename ρ).contains (ρ id) = g.contains id := by
  rw [contains, rename, List.any_map, contains]
  congr 1
  funext m
  exact decide_eq_decide.2 hρ.eq_iff

variable [Exponential]

theorem score?_rename (g : Group) (id : PeerId) (now : Float) :
    (g.rename ρ).score? (ρ id) now = g.score? id now := by
  rw [score?, find?_rename hρ, Option.map_map, score?]
  rfl

omit hρ in
theorem standings_rename (g : Group) (now : Float) :
    (g.rename ρ).standings now = (g.standings now).map (Standing.rename ρ) := by
  rw [standings, rename, standings, List.map_map, List.map_map]
  rfl

theorem arbitrate_rename (g : Group) (id : PeerId) (now : Float) :
    (g.rename ρ).arbitrate (ρ id) now = (g.arbitrate id now).rename ρ := by
  rw [arbitrate, find?_rename hρ, arbitrate]
  cases g.find? id with
  | none => rfl
  | some sender =>
      have hothers : (g.rename ρ).members.filter (·.id ≠ ρ id) =
          (g.members.filter (·.id ≠ id)).map (Member.rename ρ) :=
        congrArg members (rename_leave hρ g id).symm
      have hobjection : ∀ score, (((g.rename ρ).members.filter (·.id ≠ ρ id)).findSome?
          (·.objection score now)) =
            ((g.members.filter (·.id ≠ id)).findSome? (·.objection score now)).map
              (Verdict.rename ρ) := by
        intro score
        rw [hothers, List.findSome?_map, List.map_findSome?]
        congr 1
        funext m
        exact m.objection_rename ρ score now
      dsimp only [Option.map_some, Member.rename]
      rw [hobjection]
      split
      · rfl
      · exact Option.getD_map (Verdict.rename ρ) .accepted _

theorem receive_rename (g : Group) (id : PeerId) (now : Float) :
    (g.rename ρ).receive (ρ id) now =
      ((g.receive id now).1.rename ρ, (g.receive id now).2.rename ρ) := by
  rw [receive, find?_rename hρ, receive]
  cases g.find? id with
  | none => rfl
  | some sender =>
      obtain ⟨heard, hheard⟩ : ∃ heard, heard =
          if sender.contender.refreshesAlways then g.observe id now else g := ⟨_, rfl⟩
      have hrenamed : (if sender.contender.refreshesAlways then (g.rename ρ).observe (ρ id) now
          else g.rename ρ) = heard.rename ρ := by
        rw [hheard]
        split
        · exact (rename_observe hρ g id now).symm
        · rfl
      dsimp only [Option.map_some, Member.rename]
      rw [hrenamed, ← hheard, arbitrate_rename hρ, ← rename_observe hρ]
      simp only [Verdict.rename_eq_accepted_iff, apply_ite (Group.rename ρ)]

/-- A renamed group answers by the new names, and is still renamed afterwards. -/
theorem ask_rename (g : Group) (id : PeerId) (now : Float) (q : Query) :
    (g.rename ρ).ask (ρ id) now q =
      ((g.ask id now q).1.rename ρ, (g.ask id now q).2.rename ρ) := by
  cases q with
  | observe => rw [ask, contains_rename hρ, ← rename_observe hρ]; rfl
  | receive => rw [ask, receive_rename hρ]; rfl
  | arbitrate => rw [ask, arbitrate_rename hρ]; rfl
  | score => rw [ask, score?_rename hρ]; rfl
  | standings => rw [ask, standings_rename]; rfl

end Group

end PortArbiter
