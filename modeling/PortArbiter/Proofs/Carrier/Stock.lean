import PortArbiter.Proofs.Carrier.Priorities
/-!
# Stock catalogs

A stock catalog is the standard one, possibly with further modifiers under names of their own. A
chain that is built from it has one new priority layer for each place where its specification asks
for one.
-/

namespace PortArbiter.Catalog

variable {β μ : Type} [Stage μ]

/-- An entry in front of all that do not have its name takes the place of one that has. -/
theorem find?_replace {α : Type} (nameOf : α → String) (x : α) (xs : List α) (name : String) :
    (x :: xs.filter (nameOf · ≠ nameOf x)).find? (nameOf · = name) =
      if name = nameOf x then some x else xs.find? (nameOf · = name) := by
  rw [List.find?_cons, List.find?_filter]
  by_cases h : nameOf x = name
  · simp [h]
  · have hswap : ¬ name = nameOf x := fun heq => h heq.symm
    simp only [h, hswap, decide_false, if_false]
    congr 1
    funext y
    by_cases hy : nameOf y = name
    · simp [hy, hswap]
    · simp [hy]

theorem modifier?_addModifier (c : Catalog β μ) (l : Layer μ) (name : String) :
    (c.addModifier l).modifier? name = if name = l.name then some l else c.modifier? name :=
  find?_replace Layer.name l c.modifiers name

/-- The standard catalog, extended by modifiers that are not called like priority layers. -/
inductive Stock : Catalog β μ → Prop where
  | standard : Stock .standard
  | extend {c : Catalog β μ} {m : μ} (h : Stock c) (hname : Stage.name m ≠ PriorityLayer.name) :
      Stock (c.addModifier (.custom m))

theorem Stock.modifier? {c : Catalog β μ} (h : Stock c) (name : String) :
    (name = PriorityLayer.name ∧ c.modifier? name = some (.priority {})) ∨
      name ≠ PriorityLayer.name ∧
        (c.modifier? name = none ∨ ∃ m, c.modifier? name = some (.custom m)) := by
  induction h with
  | standard =>
      by_cases hname : name = PriorityLayer.name
      · subst hname
        exact Or.inl ⟨rfl, List.find?_cons_of_pos (decide_eq_true rfl)⟩
      · refine Or.inr ⟨hname, Or.inl ?_⟩
        have hother : ¬ PriorityLayer.name = name := fun heq => hname heq.symm
        rw [Catalog.modifier?, List.find?_eq_none]
        intro l hl
        rw [List.mem_singleton.1 hl, decide_eq_true_iff]
        exact hother
  | @extend c m h hname ih =>
      rw [modifier?_addModifier]
      by_cases hm : name = Stage.name m
      · exact Or.inr ⟨hm ▸ hname, Or.inr ⟨m, if_pos hm⟩⟩
      · rw [if_neg (show ¬ name = (Layer.custom m).name from hm)]
        exact ih

def newPriorities (names : List String) : List PriorityLayer :=
  List.replicate (names.count PriorityLayer.name) {}

theorem newPriorities_cons_self (names : List String) :
    newPriorities (PriorityLayer.name :: names) = {} :: newPriorities names := by
  rw [newPriorities, List.count_cons_self, List.replicate_succ]
  rfl

theorem newPriorities_cons_of_ne {name : String} (names : List String)
    (h : name ≠ PriorityLayer.name) : newPriorities (name :: names) = newPriorities names := by
  rw [newPriorities, List.count_cons_of_ne h]
  rfl

theorem Stock.priorities_wrapAll {c : Catalog β μ} (h : Stock c) {chain chain' : Chain β μ}
    {names : List String} (hbuilt : c.wrapAll chain names = .ok chain') :
    chain'.priorities = chain.priorities ++ newPriorities names := by
  induction names generalizing chain with
  | nil =>
      obtain rfl := Except.ok.inj hbuilt
      exact (List.append_nil _).symm
  | cons name names ih =>
      rw [wrapAll] at hbuilt
      rcases h.modifier? name with ⟨rfl, hpriority⟩ | ⟨hname, hnone | ⟨m, hcustom⟩⟩
      · rw [hpriority] at hbuilt
        rw [ih hbuilt, newPriorities_cons_self, List.append_cons]
        rfl
      · rw [hnone] at hbuilt
        cases hbuilt
      · rw [hcustom] at hbuilt
        rw [ih hbuilt, newPriorities_cons_of_ne names hname, Chain.priorities]
        exact congrArg (· ++ _) (List.append_nil _)

variable [Transport β]

theorem Stock.priorities_build {c : Catalog β μ} (h : Stock c) {carrier : String}
    {side : Direction} {chain : Chain β μ} (hbuilt : c.build carrier side = .ok chain) :
    chain.priorities = newPriorities ((Spec.parse carrier).modifiers side) := by
  simp only [build] at hbuilt
  split at hbuilt
  · cases hbuilt
  · split at hbuilt
    · cases hbuilt
    · rw [h.priorities_wrapAll hbuilt, Chain.priorities, List.nil_append]

end PortArbiter.Catalog
