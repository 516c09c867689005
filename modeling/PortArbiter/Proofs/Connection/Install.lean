import PortArbiter.Connection.Switchboard
import PortArbiter.Proofs.Carrier.Stock
/-!
# Setting up chains

What setting up one side of a route does to the rosters: a refusal leaves them as they were,
whatever had been registered before it, and a success adds the members of the new chain.
-/

namespace PortArbiter

/-! ## Tables -/

namespace Table

variable {α : Type}

theorem lookup_put (label other : String) (x : α) (t : Table α) :
    List.lookup other (put label x t) = if other = label then some x else List.lookup other t := by
  induction t with
  | nil =>
      rw [put, List.lookup_cons]
      split <;> simp_all
  | cons entry t ih =>
      obtain ⟨l, y⟩ := entry
      rw [put]
      split
      · rename_i hl
        rw [List.lookup_cons, List.lookup_cons]
        by_cases h : other = label
        · simp [h]
        · have hbeq : (other == label) = false := by simpa using h
          simp [hl, h, hbeq]
      · rename_i hl
        rw [List.lookup_cons, List.lookup_cons, ih]
        by_cases h : other = l
        · have hne : ¬ other = label := fun heq => hl (h.symm.trans heq)
          simp [h, hl]
        · have hbeq : (other == l) = false := by simpa using h
          simp [hbeq]

theorem lookup_remove (label other : String) (t : Table α) :
    List.lookup other (remove label t) =
      if other = label then none else List.lookup other t := by
  induction t with
  | nil => simp [remove]
  | cons entry t ih =>
      obtain ⟨l, y⟩ := entry
      rw [remove, List.filter_cons]
      by_cases hl : l = label
      · simp only [hl, ne_eq, not_true_eq_false, decide_false, Bool.false_eq_true, if_false]
        rw [← remove, ih]
        by_cases h : other = label
        · simp [h]
        · have hbeq : (other == label) = false := by simpa using h
          simp [h, List.lookup_cons, hbeq]
      · simp only [hl, ne_eq, not_false_eq_true, decide_true, if_true]
        rw [← remove, List.lookup_cons, ih, List.lookup_cons]
        by_cases h : other = l
        · simp [h, hl]
        · have hbeq : (other == l) = false := by simpa using h
          simp [hbeq]

end Table

/-! ## Striking out -/

theorem filter_not_mem_block {α ν : Type} [DecidableEq ν] (name : α → ν)
    {front block back : List α} (h : ((front ++ block ++ back).map name).Nodup) :
    (front ++ block ++ back).filter (name · ∉ block.map name) = front ++ back := by
  rw [List.map_append, List.map_append, List.nodup_append, List.nodup_append] at h
  obtain ⟨⟨_, _, hfront⟩, _, hback⟩ := h
  have hkeep : ∀ xs : List α, (∀ x ∈ xs, name x ∉ block.map name) →
      xs.filter (name · ∉ block.map name) = xs := by
    intro xs hxs
    apply List.filter_eq_self.2
    intro x hx
    exact decide_eq_true (hxs x hx)
  have hdrop : block.filter (name · ∉ block.map name) = [] := by
    rw [List.filter_eq_nil_iff]
    intro x hx
    have hmem : name x ∈ block.map name := List.mem_map_of_mem hx
    simpa using hmem
  rw [List.filter_append, List.filter_append, hdrop, List.append_nil, hkeep front, hkeep back]
  · intro x hx hmem
    exact hback (name x) (List.mem_append_right _ hmem) (name x) (List.mem_map_of_mem hx) rfl
  · intro x hx hmem
    exact hfront (name x) (List.mem_map_of_mem hx) (name x) hmem rfl

/-! ## Installing -/

/-- A chain that is given up after its configuration, complete or not, leaves the rosters as they
were before it. -/
theorem Chain.Enlists.roster_release {β μ : Type} {route : Route} {r r' : Registry}
    {before after : Chain β μ} {result : Except CarrierError Unit}
    (h : Enlists route r before result after r') (k : String) :
    (after.release r').roster k = r.roster k := by
  have hkeyed : after.KeyedBy route.receiver := by
    intro p hp t ht
    rcases h.seated p hp with rfl | ⟨t', ht', hkey, _⟩
    · cases ht
    · obtain rfl := Option.some.inj (ht.symm.trans ht')
      exact hkey
  rw [after.roster_release h.coherent hkeyed]
  split
  · rename_i hk
    have hnodup := h.coherent.roster_nodup k
    rw [h.roster, if_pos hk, ← List.append_nil (r.roster k ++ after.members)] at hnodup ⊢
    rw [filter_not_mem_block Member.id hnodup, List.append_nil]
  · rename_i hk
    rw [h.roster, if_neg hk, List.append_nil]

namespace Catalog

variable {β μ : Type} [Transport β] [Stage μ]

/-- The ways in which setting up one side of a route can go: no chain can be built, the chain is
refused and gives up what it registered, or it is there. -/
inductive Installing (c : Catalog β μ) (side : Direction) (route : Route) (r : Registry) :
    Except CarrierError (Chain β μ) → Registry → Prop where
  | unbuilt {e : CarrierError} (hbuilt : c.build route.carrier side = .error e) :
      Installing c side route r (.error e) r
  | refused {before after : Chain β μ} {r' : Registry} {e : CarrierError}
      (hbuilt : c.build route.carrier side = .ok before)
      (hconfigured : before.configure route r = (.error e, after, r')) :
      Installing c side route r (.error e) (after.release r')
  | done {before after : Chain β μ} {r' : Registry}
      (hbuilt : c.build route.carrier side = .ok before)
      (hconfigured : before.configure route r = (.ok (), after, r')) :
      Installing c side route r (.ok after) r'

theorem installing {c : Catalog β μ} {side : Direction} {route : Route} {r r' : Registry}
    {result : Except CarrierError (Chain β μ)} (h : c.install side route r = (result, r')) :
    c.Installing side route r result r' := by
  unfold install at h
  cases hbuilt : c.build route.carrier side with
  | error e =>
      rw [hbuilt] at h
      obtain ⟨rfl, rfl⟩ := Prod.mk.inj h
      exact .unbuilt hbuilt
  | ok before =>
      rw [hbuilt] at h
      dsimp only at h
      cases hconfigured : before.configure route r with
      | mk configured rest =>
          obtain ⟨after, r''⟩ := rest
          rw [hconfigured] at h
          cases configured with
          | error e =>
              obtain ⟨rfl, rfl⟩ := Prod.mk.inj h
              exact .refused hbuilt hconfigured
          | ok =>
              obtain ⟨rfl, rfl⟩ := Prod.mk.inj h
              exact .done hbuilt hconfigured

/-- How many members a side of a route is to have: one for each priority layer it asks for. -/
def seatsOf (route : Route) (side : Direction) : Nat :=
  (route.spec.modifiers side).count PriorityLayer.name

structure Installed (route : Route) (side : Direction) (r : Registry) (chain : Chain β μ)
    (r' : Registry) : Prop where
  coherent : r'.Coherent
  roster : ∀ k, r'.roster k = r.roster k ++ if k = route.receiver then chain.members else []
  seated : ∀ p ∈ chain.priorities, p.SeatedFor route
  length : chain.priorities.length = seatsOf route side

theorem Stock.install {c : Catalog β μ} (h : c.Stock) {r : Registry} (hr : r.Coherent)
    (side : Direction) (route : Route) :
    (∃ e r', c.install side route r = (.error e, r') ∧ r'.Coherent ∧
        ∀ k, r'.roster k = r.roster k) ∨
      ∃ chain r', c.install side route r = (.ok chain, r') ∧ Installed route side r chain r' := by
  cases hinstall : c.install side route r with
  | mk result r' =>
      -- a chain that was built has its layers from the stock, not one of them registered yet
      have henlists {before : Chain β μ} (hbuilt : c.build route.carrier side = .ok before) :=
        before.configure_enlists route hr fun p hp => by
          rw [h.priorities_build hbuilt] at hp
          exact List.eq_of_mem_replicate hp
      cases installing hinstall with
      | unbuilt hbuilt => exact Or.inl ⟨_, r, rfl, hr, fun _ => rfl⟩
      | @refused _ after _ e hbuilt hconfigured =>
          have henlists := henlists hbuilt
          rw [hconfigured] at henlists
          exact Or.inl ⟨e, _, rfl, after.coherent_release henlists.coherent,
            henlists.roster_release⟩
      | @done _ after r' hbuilt hconfigured =>
          have henlists := henlists hbuilt
          rw [hconfigured] at henlists
          refine Or.inr
            ⟨after, r', rfl, henlists.coherent, henlists.roster, henlists.complete rfl, ?_⟩
          rw [henlists.length, h.priorities_build hbuilt]
          exact List.length_replicate

end Catalog

end PortArbiter
