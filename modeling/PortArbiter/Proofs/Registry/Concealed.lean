import PortArbiter.Proofs.Priority.Unheard
import PortArbiter.Proofs.Registry.Later
import PortArbiter.Proofs.Registry.Party
/-!
# Registries with members that are never heard

One registry may have all the members of another one, under later identities, and besides them
members that were never heard. Whoever belongs to both is let through by both or by neither, and
the two stay alike whoever comes and goes.
-/

namespace PortArbiter

namespace Group

theorem receive_of_not_mem [Exponential] {g : Group} {id : PeerId} (h : id ∉ g.ids) (now : Float) :
    g.receive id now = (.notMember, g) := by
  rw [receive, find?_of_not_mem h]

end Group

namespace Registry

/-! ## Registrations for good -/

/-- A registration that the registry gave out: its source is in the group that it names, or in none
at all. -/
structure Homed (r : Registry) (t : Registration) : Prop where
  issued : r.Issued t
  old : t.id.number < r.nextPeer
  home : ∀ g, t.id ∈ (r.group g).ids → g = t.group

theorem Homed.onward {r r' : Registry} {t : Registration} (h : r.Homed t) (honward : r.Onward r') :
    r'.Homed t where
  issued := honward.outlived.issued h.issued
  old := Nat.lt_of_lt_of_le h.old honward.nextPeer
  home g hid := h.home g (honward.ids_old h.old hid)

theorem Homed.later {r r' : Registry} {t : Registration} (h : r.Homed t) (hlater : r.Later r') :
    r'.Homed t :=
  h.onward hlater.onward

namespace Coherent

variable {r : Registry}

theorem homed_register (h : Coherent r) (key : String) (c : Contender) :
    (r.register key c).2.Homed (r.register key c).1 where
  issued := Party.issued_register h key c
  old := by
    rw [register_fst]
    exact Nat.lt_succ_self _
  home g hid := by
    rw [register_fst] at hid ⊢
    apply (h.register key c).disjoint hid
    rw [h.ids_register_target]
    exact List.mem_append_right _ (List.mem_singleton_self _)

theorem roster_below (h : Coherent r) {key : String} {m : Member} (hm : m ∈ r.roster key) :
    m.id.number < r.nextPeer := by
  rw [roster, host] at hm
  cases hlookup : r.lookup key with
  | none =>
      rw [hlookup] at hm
      cases hm
  | some g =>
      rw [hlookup] at hm
      exact h.below_next (List.mem_map_of_mem hm)

theorem lookup_of_issued (h : Coherent r) {t : Registration} (ht : r.Issued t)
    (hid : t.id ∈ (r.group t.group).ids) : r.lookup t.key = some t.group := by
  have hlive : ∃ key, r.lookup key = some t.group := by
    apply Classical.byContradiction
    intro hnone
    rw [h.retired fun key hkey => hnone ⟨key, hkey⟩] at hid
    cases hid
  obtain ⟨key, hkey⟩ := hlive
  have hsame : key = t.key := (h.endpoint hkey).symm.trans ht.2
  exact hsame ▸ hkey

/-- Whether or not its source still is a member, the message of a registration is one for the live
group of its key. -/
theorem receive_of_homed [Exponential] (h : Coherent r) {t : Registration} (ht : r.Homed t)
    (now : Float) :
    (r.receive t now).1 = ((r.host t.key).receive t.id now).1 ∧
      ∀ k, (r.receive t now).2.roster k =
        if k = t.key then ((r.host t.key).receive t.id now).2.members else r.roster k := by
  by_cases hid : t.id ∈ (r.group t.group).ids
  · have hkey := h.lookup_of_issued ht.issued hid
    refine ⟨receive_fst hkey now, fun k => ?_⟩
    split
    · rename_i hk
      rw [hk, roster, h.host_receive hkey]
    · rename_i hk
      have hne : r.lookup k ≠ some t.group := fun heq => hk (h.lookup_inj heq hkey)
      rw [receive_snd, roster, host_modifyGroup _ (h.founded hkey), if_neg hne, roster]
  · have hnobody : t.id ∉ (r.host t.key).ids := by
      rw [host]
      cases hlookup : r.lookup t.key with
      | none => exact List.not_mem_nil
      | some g => exact fun hmem => hid (ht.home g hmem ▸ hmem)
    have hsame : (r.receive t now).2.roster = r.roster := by
      funext k
      have hgroup : ∀ g : Group, g = r.group t.group → (g.receive t.id now).2 = g := by
        rintro g rfl
        rw [Group.receive_of_not_mem hid]
      rw [receive_snd, ← modifyGroup_const r t.group fun g => (g.receive t.id now).2]
      by_cases hfounded : r.Founded t.group
      · rw [roster, host_modifyGroup _ hfounded, hgroup _ rfl]
        split
        · rename_i hk
          rw [roster, host, hk]
          rfl
        · rfl
      · rw [modifyGroup_of_not_founded _ hfounded]
    rw [hsame]
    rw [Group.receive_of_not_mem hnobody, Registry.receive, Group.receive_of_not_mem hid]
    refine ⟨rfl, fun k => ?_⟩
    split
    · rename_i hk
      rw [hk, roster]
    · rfl

end Coherent

end Registry

/-! ## Two registries, one within the other -/

/-- A registry, a whole one that has more members, and the names in the whole one of the identities
in the other one. -/
structure View where
  name : PeerId → PeerId
  seen : Registry
  whole : Registry

namespace View

open Classical Registry

def Visible (v : View) (id : PeerId) : Prop :=
  ∃ old, v.name old = id

/-- The whole registry has the members that are seen, in their order, and besides them only members
that were never heard. -/
structure Sound (v : View) : Prop where
  coherent_seen : v.seen.Coherent
  coherent_whole : v.whole.Coherent
  ascending : ∀ a b, a.number < b.number → (v.name a).number < (v.name b).number
  next : ∀ n, v.name ⟨v.seen.nextPeer + n⟩ = ⟨v.whole.nextPeer + n⟩
  roster : ∀ k, (v.whole.roster k).filter (v.Visible ·.id) =
    (v.seen.roster k).map (Member.rename v.name)
  silent : ∀ k, ∀ m ∈ v.whole.roster k, ¬ v.Visible m.id → m.contender.arrival? = none

/-- A view later on: old identities have the same names, and none of those that were concealed
came to light. -/
structure Later (v w : View) : Prop where
  seen : v.seen.Later w.seen
  whole : v.whole.Later w.whole
  name : ∀ id, id.number < v.seen.nextPeer → w.name id = v.name id
  concealed : ∀ id, id.number < v.whole.nextPeer → ¬ v.Visible id → ¬ w.Visible id

theorem Later.refl (v : View) : v.Later v :=
  ⟨.refl _, .refl _, fun _ _ => rfl, fun _ _ => id⟩

theorem Later.trans {v w u : View} (h : v.Later w) (h' : w.Later u) : v.Later u where
  seen := h.seen.trans h'.seen
  whole := h.whole.trans h'.whole
  name id hid := (h'.name id (Nat.lt_of_lt_of_le hid h.seen.nextPeer)).trans (h.name id hid)
  concealed id hid hhidden :=
    h'.concealed id (Nat.lt_of_lt_of_le hid h.whole.nextPeer) (h.concealed id hid hhidden)

theorem later_of_registries {v : View} {r r' : Registry} (hseen : v.seen.Later r)
    (hwhole : v.whole.Later r') : v.Later ⟨v.name, r, r'⟩ :=
  ⟨hseen, hwhole, fun _ _ => rfl, fun _ _ => id⟩

theorem sound_initial : Sound ⟨id, {}, {}⟩ where
  coherent_seen := .empty
  coherent_whole := .empty
  ascending _ _ := id
  next _ := rfl
  roster _ := rfl
  silent _ _ hm := absurd hm List.not_mem_nil

namespace Sound

variable {v : View}

theorem injective (h : v.Sound) : Function.Injective v.name :=
  PeerId.injective_of_ascending h.ascending

theorem name_next (h : v.Sound) : v.name ⟨v.seen.nextPeer⟩ = ⟨v.whole.nextPeer⟩ :=
  h.next 0

theorem name_lt_iff (h : v.Sound) (id : PeerId) :
    (v.name id).number < v.whole.nextPeer ↔ id.number < v.seen.nextPeer := by
  constructor
  · intro hlt
    apply Classical.byContradiction
    intro hnew
    have hid : v.seen.nextPeer + (id.number - v.seen.nextPeer) = id.number := by omega
    have hname := h.next (id.number - v.seen.nextPeer)
    rw [hid] at hname
    rw [hname] at hlt
    exact absurd hlt (Nat.not_lt.2 (Nat.le_add_right _ _))
  · intro hlt
    have hname := h.ascending id ⟨v.seen.nextPeer⟩ hlt
    rwa [h.name_next] at hname

/-- Seen from a port, the whole group is the one that is seen, apart from members that score
zero. -/
theorem host (h : v.Sound) (k : String) :
    (v.whole.host k).only v.Visible = (v.seen.host k).rename v.name := by
  have hend : (v.whole.host k).endpoint = (v.seen.host k).endpoint := by
    rw [h.coherent_whole.endpoint_host, h.coherent_seen.endpoint_host]
  rw [Group.only, Group.rename, hend]
  exact congrArg _ (h.roster k)

theorem muted (h : v.Sound) (k : String) : (v.whole.host k).Muted v.Visible :=
  fun m hm hhidden => Or.inl (h.silent k m hm hhidden)

theorem register (h : v.Sound) (key : String) (c : Contender) :
    Sound ⟨v.name, (v.seen.register key c).2, (v.whole.register key c).2⟩ where
  coherent_seen := h.coherent_seen.register key c
  coherent_whole := h.coherent_whole.register key c
  ascending := h.ascending
  next n := by
    show v.name ⟨v.seen.nextPeer + 1 + n⟩ = ⟨v.whole.nextPeer + 1 + n⟩
    rw [Nat.add_right_comm _ 1 n, Nat.add_right_comm _ 1 n]
    exact h.next (n + 1)
  roster k := by
    have hvisible : v.Visible ⟨v.whole.nextPeer⟩ := ⟨_, h.name_next⟩
    show ((v.whole.register key c).2.roster k).filter (v.Visible ·.id) =
      ((v.seen.register key c).2.roster k).map (Member.rename v.name)
    rw [h.coherent_whole.roster_register, h.coherent_seen.roster_register, List.filter_append,
      List.map_append]
    refine congrArg₂ _ (h.roster k) ?_
    split
    · rw [List.filter_singleton, decide_eq_true hvisible, cond_true, List.map_singleton,
        Member.rename, h.name_next]
    · rfl
  silent k m hm hhidden := by
    rw [h.coherent_whole.roster_register, List.mem_append] at hm
    rcases hm with hold | hnew
    · exact h.silent k m hold hhidden
    · split at hnew
      · rw [List.mem_singleton.1 hnew] at hhidden
        exact absurd ⟨_, h.name_next⟩ hhidden
      · cases hnew

end Sound

/-- The view after a registration in the whole registry alone: whoever registers from now on is
called by one identity later. -/
def shift (v : View) (whole : Registry) : View where
  name id := ⟨if id.number < v.seen.nextPeer then (v.name id).number else (v.name id).number + 1⟩
  seen := v.seen
  whole := whole

theorem name_shift_of_old {v : View} (whole : Registry) {id : PeerId}
    (hid : id.number < v.seen.nextPeer) : (v.shift whole).name id = v.name id :=
  congrArg PeerId.mk (if_pos hid)

theorem name_shift_of_new {v : View} (whole : Registry) {id : PeerId}
    (hid : ¬ id.number < v.seen.nextPeer) :
    (v.shift whole).name id = ⟨(v.name id).number + 1⟩ :=
  congrArg PeerId.mk (if_neg hid)

namespace Sound

variable {v : View}

theorem visible_shift_iff (h : v.Sound) (whole : Registry) {id : PeerId}
    (hid : id.number < v.whole.nextPeer) : (v.shift whole).Visible id ↔ v.Visible id := by
  constructor
  · rintro ⟨old, hold⟩
    by_cases hseen : old.number < v.seen.nextPeer
    · exact ⟨old, (name_shift_of_old whole hseen).symm.trans hold⟩
    · rw [name_shift_of_new whole hseen] at hold
      have hnumber : (v.name old).number + 1 = id.number := congrArg PeerId.number hold
      have hnew := mt (h.name_lt_iff old).1 hseen
      omega
  · rintro ⟨old, rfl⟩
    exact ⟨old, name_shift_of_old whole ((h.name_lt_iff old).1 hid)⟩

theorem ascending_shift (h : v.Sound) (whole : Registry) {a b : PeerId}
    (hab : a.number < b.number) :
    ((v.shift whole).name a).number < ((v.shift whole).name b).number := by
  have hname := h.ascending a b hab
  by_cases ha : a.number < v.seen.nextPeer <;> by_cases hb : b.number < v.seen.nextPeer
  · rwa [name_shift_of_old _ ha, name_shift_of_old _ hb]
  · rw [name_shift_of_old _ ha, name_shift_of_new _ hb]
    exact Nat.lt_succ_of_lt hname
  · omega
  · rw [name_shift_of_new _ ha, name_shift_of_new _ hb]
    exact Nat.succ_lt_succ hname

/-- Nobody who is seen is called by the identity that was passed over. -/
theorem not_visible_shift (h : v.Sound) (whole : Registry) :
    ¬ (v.shift whole).Visible ⟨v.whole.nextPeer⟩ := by
  rintro ⟨old, hold⟩
  have hiff := h.name_lt_iff old
  by_cases hseen : old.number < v.seen.nextPeer
  · rw [name_shift_of_old _ hseen] at hold
    rw [hold] at hiff
    exact Nat.lt_irrefl _ (hiff.2 hseen)
  · rw [name_shift_of_new _ hseen] at hold
    have hnumber : (v.name old).number + 1 = v.whole.nextPeer := congrArg PeerId.number hold
    omega

theorem filter_visible_shift (h : v.Sound) (whole : Registry) (k : String) :
    (v.whole.roster k).filter ((v.shift whole).Visible ·.id) =
      (v.whole.roster k).filter (v.Visible ·.id) := by
  apply List.filter_congr
  intro m hm
  exact decide_eq_decide.2 (h.visible_shift_iff whole (h.coherent_whole.roster_below hm))

theorem map_rename_shift (h : v.Sound) (whole : Registry) (k : String) :
    (v.seen.roster k).map (Member.rename (v.shift whole).name) =
      (v.seen.roster k).map (Member.rename v.name) := by
  apply List.map_congr_left
  intro m hm
  rw [Member.rename, name_shift_of_old whole (h.coherent_seen.roster_below hm)]
  rfl

/-- A source that joins the whole registry without an arrival is concealed. -/
theorem conceal (h : v.Sound) (key : String) {c : Contender} (hc : c.arrival? = none) :
    Sound (v.shift (v.whole.register key c).2) ∧
      ¬ (v.shift (v.whole.register key c).2).Visible ⟨v.whole.nextPeer⟩ := by
  have hhidden := h.not_visible_shift (v.whole.register key c).2
  refine ⟨?_, hhidden⟩
  exact {
    coherent_seen := h.coherent_seen
    coherent_whole := h.coherent_whole.register key c
    ascending := fun _ _ => h.ascending_shift _
    next := by
      intro n
      have hnew : ¬ v.seen.nextPeer + n < v.seen.nextPeer := by omega
      show (v.shift _).name ⟨v.seen.nextPeer + n⟩ = ⟨v.whole.nextPeer + 1 + n⟩
      rw [name_shift_of_new _ hnew, h.next, Nat.add_right_comm]
    roster := by
      intro k
      show ((v.whole.register key c).2.roster k).filter _ = (v.seen.roster k).map _
      rw [h.coherent_whole.roster_register, List.filter_append, h.filter_visible_shift,
        h.map_rename_shift, h.roster]
      split
      · rw [List.filter_singleton]
        show _ ++ (bif decide ((v.shift _).Visible ⟨v.whole.nextPeer⟩) then _ else _) = _
        rw [decide_eq_false hhidden, cond_false, List.append_nil]
      · exact List.append_nil _
    silent := by
      intro k m hm hinvisible
      have hm : m ∈ (v.whole.register key c).2.roster k := hm
      rw [h.coherent_whole.roster_register, List.mem_append] at hm
      rcases hm with hold | hnew
      · have hbelow := h.coherent_whole.roster_below hold
        exact h.silent k m hold fun hvisible =>
          hinvisible ((h.visible_shift_iff _ hbelow).2 hvisible)
      · split at hnew
        · rw [List.mem_singleton.1 hnew]
          exact hc
        · cases hnew }

theorem later_conceal (h : v.Sound) (key : String) (c : Contender) :
    v.Later (v.shift (v.whole.register key c).2) where
  seen := .refl _
  whole := h.coherent_whole.later_register key c
  name _ hid := name_shift_of_old _ hid
  concealed _ hid hhidden hvisible := hhidden ((h.visible_shift_iff _ hid).1 hvisible)

theorem release (h : v.Sound) {t t' : Registration} (hkey : t'.key = t.key)
    (hid : t'.id = v.name t.id) : Sound ⟨v.name, v.seen.release t, v.whole.release t'⟩ where
  coherent_seen := h.coherent_seen.release t
  coherent_whole := h.coherent_whole.release t'
  ascending := h.ascending
  next n := by
    show v.name ⟨(v.seen.deregister t.key t.id).2.nextPeer + n⟩ =
      ⟨(v.whole.deregister t'.key t'.id).2.nextPeer + n⟩
    rw [nextPeer_deregister, nextPeer_deregister]
    exact h.next n
  roster k := by
    show ((v.whole.release t').roster k).filter (v.Visible ·.id) = _
    rw [h.coherent_whole.roster_release, h.coherent_seen.roster_release, hkey, hid]
    split
    · have hleave : ((v.whole.host k).leave (v.name t.id)).only v.Visible =
          ((v.seen.host k).leave t.id).rename v.name := by
        rw [Group.only_leave, h.host, Group.rename_leave h.injective]
      exact congrArg Group.members hleave
    · exact h.roster k
  silent k m hm hhidden := by
    have hm : m ∈ (v.whole.release t').roster k := hm
    rw [h.coherent_whole.roster_release] at hm
    split at hm
    · exact h.silent k m (List.mem_of_mem_filter hm) hhidden
    · exact h.silent k m hm hhidden

theorem release_whole (h : v.Sound) {t : Registration} (hhidden : ¬ v.Visible t.id) :
    Sound ⟨v.name, v.seen, v.whole.release t⟩ where
  coherent_seen := h.coherent_seen
  coherent_whole := h.coherent_whole.release t
  ascending := h.ascending
  next n := by
    show _ = (⟨(v.whole.deregister t.key t.id).2.nextPeer + n⟩ : PeerId)
    rw [nextPeer_deregister]
    exact h.next n
  roster k := by
    show ((v.whole.release t).roster k).filter (v.Visible ·.id) = _
    rw [h.coherent_whole.roster_release, ← h.roster]
    split
    · exact congrArg Group.members (Group.only_leave_of_hidden hhidden (v.whole.host k))
    · rfl
  silent k m hm hinvisible := by
    have hm : m ∈ (v.whole.release t).roster k := hm
    rw [h.coherent_whole.roster_release] at hm
    split at hm
    · exact h.silent k m (List.mem_of_mem_filter hm) hinvisible
    · exact h.silent k m hm hinvisible

/-- Both registries decide alike on the message of a source that is seen, whoever is concealed. -/
theorem receive [Exponential] (h : v.Sound) {t t' : Registration} (hkey : t'.key = t.key)
    (hid : t'.id = v.name t.id) (ht : v.seen.Homed t) (ht' : v.whole.Homed t') (now : Float) :
    (v.whole.receive t' now).1 = (v.seen.receive t now).1.rename v.name ∧
      Sound ⟨v.name, (v.seen.receive t now).2, (v.whole.receive t' now).2⟩ := by
  obtain ⟨hverdict, hroster⟩ := h.coherent_seen.receive_of_homed ht now
  obtain ⟨hverdict', hroster'⟩ := h.coherent_whole.receive_of_homed ht' now
  have hvisible : v.Visible t'.id := ⟨t.id, hid.symm⟩
  have hreceive := Group.receive_only (h.muted t.key) hvisible now
  rw [h.host, hid, Group.receive_rename h.injective] at hreceive
  rw [hkey, hid] at hverdict' hroster'
  obtain ⟨hsame, hgroup⟩ := Prod.mk.inj hreceive
  refine ⟨by rw [hverdict', hverdict, hsame], ?_⟩
  exact {
    coherent_seen := h.coherent_seen.receive t now
    coherent_whole := h.coherent_whole.receive t' now
    ascending := h.ascending
    next := h.next
    roster := by
      intro k
      show ((v.whole.receive t' now).2.roster k).filter (v.Visible ·.id) = _
      rw [hroster', hroster]
      split
      · exact congrArg Group.members hgroup.symm
      · exact h.roster k
    silent := by
      intro k m hm hhidden
      have hm : m ∈ (v.whole.receive t' now).2.roster k := hm
      rw [hroster'] at hm
      split at hm
      · -- only the sender's arrival moves, and the sender is visible
        rcases Group.receive_eq_self_or_observe (v.whole.host t.key) (v.name t.id) now with
          hsame | hobserved
        · rw [hsame] at hm
          exact h.silent t.key m hm hhidden
        · rw [hobserved] at hm
          rcases Group.of_mem_observe hm with ⟨_, hold⟩ | ⟨_, _, _, rfl⟩
          · exact h.silent t.key m hold hhidden
          · exact absurd ⟨t.id, rfl⟩ hhidden
      · exact h.silent k m hm hhidden }

end Sound

end View

end PortArbiter
