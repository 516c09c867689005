import PortArbiter.Priority.Group
/-!
# Members of a group

What the operations of a group do to its members. Handling a message never changes who belongs to
the group, nor what is declared of anyone: at most the arrival of the sender moves.
-/

namespace PortArbiter

theorem find?_of_nodup_map {α β : Type} [DecidableEq β] {f : α → β} {xs : List α}
    (hxs : (xs.map f).Nodup) {x : α} (hx : x ∈ xs) : xs.find? (f · = f x) = some x := by
  induction xs with
  | nil => cases hx
  | cons y ys ih =>
      rw [List.map_cons, List.nodup_cons] at hxs
      rcases List.mem_cons.1 hx with rfl | hrest
      · exact List.find?_cons_of_pos (decide_eq_true rfl)
      · have hne : f y ≠ f x := fun heq => hxs.1 (heq ▸ List.mem_map_of_mem hrest)
        rw [List.find?_cons_of_neg (by simpa using hne), ih hxs.2 hrest]

theorem Contender.refreshesAlways_iff (c : Contender) :
    c.refreshesAlways = true ↔ c.inhibitory = true ∨ c.policy = .observed := by
  rw [refreshesAlways, Bool.or_eq_true, decide_eq_true_iff]

theorem filter_ne_of_not_mem {ids : List PeerId} {id : PeerId} (h : id ∉ ids) :
    ids.filter (· ≠ id) = ids := by
  rw [List.filter_eq_self]
  intro other hother
  exact decide_eq_true fun heq => h (heq ▸ hother)

namespace Group

def ids (g : Group) : List PeerId :=
  g.members.map Member.id

@[simp] theorem members_join (g : Group) (id : PeerId) (c : Contender) :
    (g.join id c).members = g.members ++ [⟨id, c⟩] := rfl

@[simp] theorem members_leave (g : Group) (id : PeerId) :
    (g.leave id).members = g.members.filter (·.id ≠ id) := rfl

@[simp] theorem endpoint_join (g : Group) (id : PeerId) (c : Contender) :
    (g.join id c).endpoint = g.endpoint := rfl

@[simp] theorem endpoint_leave (g : Group) (id : PeerId) :
    (g.leave id).endpoint = g.endpoint := rfl

@[simp] theorem endpoint_update (g : Group) (id : PeerId) (f : Contender → Contender) :
    (g.update id f).endpoint = g.endpoint := rfl

@[simp] theorem ids_join (g : Group) (id : PeerId) (c : Contender) :
    (g.join id c).ids = g.ids ++ [id] := by
  simp [ids]

@[simp] theorem ids_leave (g : Group) (id : PeerId) :
    (g.leave id).ids = g.ids.filter (· ≠ id) := by
  rw [ids, members_leave, ids, List.filter_map]
  rfl

theorem leave_of_not_mem {g : Group} {id : PeerId} (h : id ∉ g.ids) : g.leave id = g := by
  rw [leave, List.filter_eq_self.2]
  intro m hm
  exact decide_eq_true fun heq => h (heq ▸ List.mem_map_of_mem hm)

@[simp] theorem ids_update (g : Group) (id : PeerId) (f : Contender → Contender) :
    (g.update id f).ids = g.ids := by
  rw [ids, update, List.map_map]
  apply List.map_congr_left
  intro m _
  simp only [Function.comp_apply]
  split <;> rfl

@[simp] theorem ids_observe (g : Group) (id : PeerId) (now : Float) :
    (g.observe id now).ids = g.ids :=
  ids_update g id _

theorem mem_observe {g : Group} {m : Member} (hm : m ∈ g.members) (now : Float) :
    ⟨m.id, m.contender.hear now⟩ ∈ (g.observe m.id now).members :=
  List.mem_map.2 ⟨m, hm, if_pos rfl⟩

/-- Recording a message changes what is known of its sender only. -/
theorem of_mem_observe {g : Group} {id : PeerId} {now : Float} {m : Member}
    (hm : m ∈ (g.observe id now).members) :
    (m.id ≠ id ∧ m ∈ g.members) ∨
      ∃ sender ∈ g.members, sender.id = id ∧ m = ⟨id, sender.contender.hear now⟩ := by
  obtain ⟨old, hold, rfl⟩ := List.mem_map.1 hm
  by_cases hid : old.id = id
  · exact Or.inr ⟨old, hold, hid, by rw [if_pos hid, hid]⟩
  · rw [if_neg hid]
    exact Or.inl ⟨hid, hold⟩

theorem observe_observe (g : Group) (id : PeerId) (now : Float) :
    (g.observe id now).observe id now = g.observe id now := by
  simp only [observe, update, List.map_map, Group.mk.injEq, true_and]
  apply List.map_congr_left
  intro m _
  simp only [Function.comp_apply]
  split <;> simp_all [Contender.hear]

theorem find?_update_self (g : Group) (id : PeerId) (f : Contender → Contender) :
    (g.update id f).find? id = (g.find? id).map fun m => ⟨m.id, f m.contender⟩ := by
  have hsame : (fun m : Member => decide (m.id = id)) ∘
      (fun m => if m.id = id then ⟨m.id, f m.contender⟩ else m) =
        fun m => decide (m.id = id) := by
    funext m
    rw [Function.comp_apply]
    split <;> rfl
  rw [find?, update, List.find?_map, hsame, find?]
  cases hfound : g.members.find? (·.id = id) with
  | none => rfl
  | some m =>
      have hid : m.id = id := by simpa using List.find?_some hfound
      exact congrArg some (if_pos hid)

theorem find?_observe_of_find? {g : Group} {id : PeerId} {m : Member} (h : g.find? id = some m)
    (now : Float) : (g.observe id now).find? id = some ⟨m.id, m.contender.hear now⟩ := by
  rw [observe, find?_update_self, h]
  rfl

/-- Handling a message leaves the group alone or moves the arrival of the sender. -/
theorem receive_eq_self_or_observe [Exponential] (g : Group) (id : PeerId) (now : Float) :
    (g.receive id now).2 = g ∨ (g.receive id now).2 = g.observe id now := by
  unfold receive
  split
  · exact Or.inl rfl
  · dsimp only
    split <;> split <;> simp [observe_observe]

section

variable [Exponential] {g : Group} {id : PeerId} {m : Member}

theorem arbitrate_eq_inhibitory (h : g.find? id = some m)
    (hinhibitory : m.contender.inhibitory = true)
    (now : Float) : g.arbitrate id now = .inhibitory := by
  rw [arbitrate, h]
  exact if_pos hinhibitory

theorem receive_of_find?_eq_none (h : g.find? id = none) (now : Float) :
    g.receive id now = (.notMember, g) := by
  rw [receive, h]

theorem receive_fst_of_find? (h : g.find? id = some m) (now : Float) :
    (g.receive id now).1 =
      (if m.contender.refreshesAlways then g.observe id now else g).arbitrate id now := by
  rw [receive, h]

/-- A message of a member is recorded if every one of its messages is, or if it is let through. -/
theorem receive_snd_of_find? (h : g.find? id = some m) (now : Float) :
    (g.receive id now).2 =
      if m.contender.refreshesAlways = true ∨ (g.receive id now).1 = .accepted
        then g.observe id now else g := by
  rw [receive, h]
  dsimp only
  by_cases hrefreshes : m.contender.refreshesAlways = true
  · simp [hrefreshes, observe_observe]
  · simp [hrefreshes]

end

@[simp] theorem ids_receive [Exponential] (g : Group) (id : PeerId) (now : Float) :
    (g.receive id now).2.ids = g.ids := by
  rcases receive_eq_self_or_observe g id now with h | h <;> rw [h]
  exact ids_observe g id now

@[simp] theorem endpoint_receive [Exponential] (g : Group) (id : PeerId) (now : Float) :
    (g.receive id now).2.endpoint = g.endpoint := by
  rcases receive_eq_self_or_observe g id now with h | h <;> rw [h]
  rfl

theorem members_eq_nil_iff (g : Group) : g.members = [] ↔ g.ids = [] := by
  simp [ids]

end Group

end PortArbiter
