import PortArbiter.Proofs.Connection.Refusal
import PortArbiter.Proofs.Registry.Concealed
/-!
# Chains on two registries

Two chains are twins if they differ in nothing but the names of their registrations, one chain being
registered in what is seen of a registry and the other one in the whole registry. Twins do the same
to their registries and to their messages, and a chain that is configured in the whole registry
alone stays concealed.
-/

namespace PortArbiter

namespace View

structure Names (v : View) (t t' : Registration) : Prop where
  key : t'.key = t.key
  id : t'.id = v.name t.id
  seen : v.seen.Homed t
  whole : v.whole.Homed t'

theorem Names.later {v w : View} {t t' : Registration} (h : v.Names t t') (hlater : v.Later w) :
    w.Names t t' where
  key := h.key
  id := h.id.trans (hlater.name t.id h.seen.old).symm
  seen := h.seen.later hlater.seen
  whole := h.whole.later hlater.whole

/-- A view leads to two registries if it is sound of them, under the names that it has. -/
structure Leads (v : View) (r r' : Registry) : Prop where
  sound : Sound ⟨v.name, r, r'⟩
  later : v.Later ⟨v.name, r, r'⟩

theorem Leads.trans {v : View} {r r' r₁ r₁' : Registry} (h : v.Leads r r')
    (h' : Leads ⟨v.name, r, r'⟩ r₁ r₁') : v.Leads r₁ r₁' :=
  ⟨h'.sound, h.later.trans h'.later⟩

theorem Sound.leads {v : View} (h : v.Sound) : v.Leads v.seen v.whole :=
  ⟨h, .refl v⟩

structure Agree {τ α : Type} (twin : View → α → α → Prop) (v : View) (a a' : τ × α × Registry) :
    Prop where
  result : a'.1 = a.1
  leads : v.Leads a.2.2 a'.2.2
  twin : twin ⟨v.name, a.2.2, a'.2.2⟩ a.2.1 a'.2.1

end View

open View (Names Leads Agree)

/-! ## Layers -/

def PriorityLayer.Twin (v : View) (p p' : PriorityLayer) : Prop :=
  p.registration? = none ∧ p'.registration? = none ∨
    ∃ t t', p.registration? = some t ∧ p'.registration? = some t' ∧ v.Names t t'

namespace PriorityLayer.Twin

variable {v w : View} {p p' : PriorityLayer}

theorem later (h : Twin v p p') (hlater : v.Later w) : Twin w p p' := by
  rcases h with hnone | ⟨t, t', hp, hp', hnames⟩
  · exact Or.inl hnone
  · exact Or.inr ⟨t, t', hp, hp', hnames.later hlater⟩

theorem release (h : Twin v p p') (hv : v.Sound) :
    v.Leads (p.release v.seen) (p'.release v.whole) := by
  rcases h with ⟨hp, hp'⟩ | ⟨t, t', hp, hp', hnames⟩
  · rw [PriorityLayer.release, hp, PriorityLayer.release, hp']
    exact hv.leads
  · rw [PriorityLayer.release, hp, PriorityLayer.release, hp']
    exact ⟨hv.release hnames.key hnames.id, View.later_of_registries
      (hv.coherent_seen.later_deregister _ _) (hv.coherent_whole.later_deregister _ _)⟩

theorem receive [Exponential] (h : Twin v p p') (hv : v.Sound) (now : Float) :
    ((p'.receive now v.whole).1 = .accepted ↔ (p.receive now v.seen).1 = .accepted) ∧
      v.Leads (p.receive now v.seen).2 (p'.receive now v.whole).2 := by
  rcases h with ⟨hp, hp'⟩ | ⟨t, t', hp, hp', hnames⟩
  · simp only [PriorityLayer.receive, hp, hp']
    exact ⟨trivial, hv.leads⟩
  · simp only [PriorityLayer.receive, hp, hp']
    obtain ⟨hverdict, hsound⟩ := hv.receive hnames.key hnames.id hnames.seen hnames.whole now
    exact ⟨by rw [hverdict, Verdict.rename_eq_accepted_iff], hsound, View.later_of_registries
      (Registry.later_receive _ t now) (Registry.later_receive _ t' now)⟩

theorem configure_new (hv : v.Sound) (route : Route) :
    Agree Twin v (PriorityLayer.configure {} route v.seen)
      (PriorityLayer.configure {} route v.whole) := by
  unfold PriorityLayer.configure
  split
  · exact ⟨rfl, hv.leads, Or.inl ⟨rfl, rfl⟩⟩
  · cases contenderOf route with
    | error e => exact ⟨rfl, hv.leads, Or.inl ⟨rfl, rfl⟩⟩
    | ok c =>
        have hleads : v.Leads (v.seen.register route.receiver c).2
            (v.whole.register route.receiver c).2 :=
          ⟨hv.register route.receiver c, View.later_of_registries
            (hv.coherent_seen.later_register _ c) (hv.coherent_whole.later_register _ c)⟩
        exact ⟨rfl, hleads, Or.inr ⟨_, _, rfl, rfl, {
          key := rfl
          id := hv.name_next.symm
          seen := hv.coherent_seen.homed_register route.receiver c
          whole := hv.coherent_whole.homed_register route.receiver c }⟩⟩

end PriorityLayer.Twin

inductive Layer.Twin {μ : Type} (v : View) : Layer μ → Layer μ → Prop where
  | priority {p p' : PriorityLayer} (h : p.Twin v p') : Twin v (.priority p) (.priority p')
  | custom (m : μ) : Twin v (.custom m) (.custom m)

namespace Layer.Twin

variable {μ : Type} {v w : View} {l l' : Layer μ}

theorem later (h : Twin v l l') (hlater : v.Later w) : Twin w l l' := by
  cases h with
  | custom m => exact .custom m
  | priority hp => exact .priority (hp.later hlater)

theorem release (h : Twin v l l') (hv : v.Sound) :
    v.Leads (l.release v.seen) (l'.release v.whole) := by
  cases h with
  | custom m => exact hv.leads
  | priority hp => exact hp.release hv

variable [Stage μ]

theorem configure_new (hnew : ∀ p ∈ l.priority?, p = {}) (hv : v.Sound) (route : Route) :
    Agree Twin v (l.configure route v.seen) (l.configure route v.whole) := by
  cases l with
  | custom m => exact ⟨rfl, hv.leads, .custom _⟩
  | priority p =>
      obtain rfl := hnew p rfl
      have h := PriorityLayer.Twin.configure_new hv route
      exact ⟨h.result, h.leads, .priority h.twin⟩

theorem acceptInbound [Exponential] (h : Twin v l l') (hv : v.Sound) (now : Float)
    (message : Message) :
    Agree Twin v (l.acceptInbound now message v.seen) (l'.acceptInbound now message v.whole) := by
  cases h with
  | custom m => exact ⟨rfl, hv.leads, .custom _⟩
  | priority hp =>
      obtain ⟨haccepted, hleads⟩ := hp.receive hv now
      exact ⟨decide_eq_decide.2 haccepted, hleads, .priority (hp.later hleads.later)⟩

theorem transformsInbound (h : Twin v l l') : l'.transformsInbound = l.transformsInbound := by
  cases h <;> rfl

theorem transformInbound (h : Twin v l l') (payload : Bytes) :
    (l'.transformInbound payload).1 = (l.transformInbound payload).1 ∧
      Twin v (l.transformInbound payload).2 (l'.transformInbound payload).2 := by
  cases h with
  | custom m => exact ⟨rfl, .custom _⟩
  | priority hp => exact ⟨rfl, .priority hp⟩

end Layer.Twin

/-! ## Chains -/

inductive Chain.Twin {β μ : Type} (v : View) : Chain β μ → Chain β μ → Prop where
  | base (b : Base β) : Twin v (.base b) (.base b)
  | wrap {outer outer' : Layer μ} {inner inner' : Chain β μ} (houter : outer.Twin v outer')
      (hinner : Twin v inner inner') : Twin v (.wrap outer inner) (.wrap outer' inner')

namespace Chain.Twin

variable {β μ : Type} {v w : View} {chain chain' : Chain β μ}

theorem later (h : Twin v chain chain') (hlater : v.Later w) : Twin w chain chain' := by
  induction h with
  | base b => exact .base b
  | wrap houter _ ih => exact .wrap (houter.later hlater) ih

theorem release (h : Twin v chain chain') (hv : v.Sound) :
    v.Leads (chain.release v.seen) (chain'.release v.whole) := by
  induction h with
  | base b => exact hv.leads
  | wrap houter _ ih => exact ih.trans ((houter.later ih.later).release ih.sound)

variable [Transport β] [Stage μ]

theorem configure_new {chain : Chain β μ} (hnew : ∀ p ∈ chain.priorities, p = {}) (hv : v.Sound)
    (route : Route) :
    Agree Twin v (chain.configure route v.seen) (chain.configure route v.whole) := by
  induction chain with
  | base b => exact ⟨rfl, hv.leads, .base _⟩
  | wrap outer inner ih =>
      have houter : ∀ p ∈ outer.priority?, p = {} := fun p hp =>
        hnew p (List.mem_append_right _ (Option.mem_toList.2 hp))
      -- a layer that was not reached is still a new one
      have hunreached : ∀ w : View, outer.Twin w outer := by
        intro w
        cases outer with
        | custom m => exact .custom m
        | priority p =>
            obtain rfl := houter p rfl
            exact .priority (Or.inl ⟨rfl, rfl⟩)
      have hinner := ih fun p hp => hnew p (List.mem_append_left _ hp)
      rw [Chain.configure, Chain.configure]
      generalize inner.configure route v.seen = a at hinner
      generalize inner.configure route v.whole = a' at hinner
      obtain ⟨result, inner₁, r⟩ := a
      obtain ⟨result', inner₁', r'⟩ := a'
      obtain rfl : result' = result := hinner.result
      cases result' with
      | error e => exact ⟨rfl, hinner.leads, .wrap (hunreached _) hinner.twin⟩
      | ok =>
          have hlayer := Layer.Twin.configure_new houter hinner.leads.sound route
          exact ⟨hlayer.result, hinner.leads.trans hlayer.leads,
            .wrap hlayer.twin (hinner.twin.later hlayer.leads.later)⟩

theorem acceptInbound [Exponential] (h : Twin v chain chain') (hv : v.Sound) (now : Float)
    (message : Message) :
    Agree Twin v (chain.acceptInbound now message v.seen)
      (chain'.acceptInbound now message v.whole) := by
  induction chain generalizing v chain' with
  | base b =>
      cases h
      exact ⟨rfl, hv.leads, .base _⟩
  | wrap outer inner ih =>
      obtain - | @⟨_, outer', _, inner', houter, hinner⟩ := h
      have hlayer := houter.acceptInbound hv now message
      rw [Chain.acceptInbound, Chain.acceptInbound]
      generalize outer.acceptInbound now message v.seen = a at hlayer
      generalize outer'.acceptInbound now message v.whole = a' at hlayer
      obtain ⟨accepted, outer₁, r⟩ := a
      obtain ⟨accepted', outer₁', r'⟩ := a'
      obtain rfl : accepted' = accepted := hlayer.result
      cases accepted' with
      | false => exact ⟨rfl, hlayer.leads, .wrap hlayer.twin (hinner.later hlayer.leads.later)⟩
      | true =>
          have hrest := ih (hinner.later hlayer.leads.later) hlayer.leads.sound
          exact ⟨hrest.result, hlayer.leads.trans hrest.leads,
            .wrap (hlayer.twin.later hrest.leads.later) hrest.twin⟩

theorem transformsInbound (h : Twin v chain chain') :
    chain'.transformsInbound = chain.transformsInbound := by
  induction h with
  | base b => rfl
  | wrap houter _ ih => exact congrArg₂ or houter.transformsInbound ih

theorem transformInbound (h : Twin v chain chain') (payload : Bytes) :
    (chain'.transformInbound payload).1 = (chain.transformInbound payload).1 ∧
      Twin v (chain.transformInbound payload).2 (chain'.transformInbound payload).2 := by
  induction h with
  | base b => exact ⟨rfl, .base _⟩
  | @wrap outer outer' inner inner' houter _ ih =>
      obtain ⟨hpayload, hinner⟩ := ih
      have hlayer := houter.transformInbound (inner.transformInbound payload).1
      simp only [Chain.transformInbound]
      rw [hpayload]
      exact ⟨hlayer.1, .wrap hlayer.2 hinner⟩

omit [Stage μ] in
theorem readFrame (h : Twin v chain chain') (frame : Bytes) :
    (chain'.readFrame frame).1 = (chain.readFrame frame).1 ∧
      Twin v (chain.readFrame frame).2 (chain'.readFrame frame).2 := by
  induction h with
  | base b => exact ⟨rfl, .base _⟩
  | wrap houter _ ih => exact ⟨ih.1, .wrap houter ih.2⟩

end Chain.Twin

/-! ## Chains that are concealed -/

/-- Whether all registrations of a chain are old ones that cannot be seen. -/
def Chain.Hidden {β μ : Type} (v : View) (chain : Chain β μ) : Prop :=
  ∀ p ∈ chain.priorities, ∀ t, p.registration? = some t →
    t.id.number < v.whole.nextPeer ∧ ¬ v.Visible t.id

namespace Chain.Hidden

variable {β μ : Type} {v w : View} {chain : Chain β μ}

theorem later (h : Hidden v chain) (hlater : v.Later w) : Hidden w chain := by
  intro p hp t ht
  obtain ⟨hold, hhidden⟩ := h p hp t ht
  exact ⟨Nat.lt_of_lt_of_le hold hlater.whole.nextPeer, hlater.concealed t.id hold hhidden⟩

theorem wrap_unseated (h : Hidden v chain) {outer : Layer μ}
    (houter : ∀ p ∈ outer.priority?, p = {}) : Hidden v (.wrap outer chain) := by
  intro p hp t ht
  rcases List.mem_append.1 hp with hinner | hlayer
  · exact h p hinner t ht
  · rw [houter p (Option.mem_toList.1 hlayer)] at ht
    cases ht

theorem release (h : Hidden v chain) (hv : v.Sound) :
    v.Leads v.seen (chain.release v.whole) := by
  induction chain with
  | base b => exact hv.leads
  | wrap outer inner ih =>
      have hinner := ih fun p hp => h p (List.mem_append_left _ hp)
      cases outer with
      | custom m => exact hinner
      | priority p =>
          show v.Leads v.seen (p.release (inner.release v.whole))
          rw [PriorityLayer.release]
          split
          · exact hinner
          · rename_i t ht
            have hhidden := (h p (List.mem_append_right _ (List.mem_singleton_self p)) t ht).2
            exact hinner.trans ⟨hinner.sound.release_whole hhidden, View.later_of_registries
              (.refl _) (hinner.sound.coherent_whole.later_deregister _ _)⟩

variable [Transport β] [Stage μ]

theorem configure_new (hnew : ∀ p ∈ chain.priorities, p = {}) (hv : v.Sound) (route : Route) :
    ∃ w, w.seen = v.seen ∧ w.whole = (chain.configure route v.whole).2.2 ∧ w.Sound ∧ v.Later w ∧
      Hidden w (chain.configure route v.whole).2.1 := by
  induction chain with
  | base b => exact ⟨v, rfl, rfl, hv, .refl v, fun _ hp => absurd hp List.not_mem_nil⟩
  | wrap outer inner ih =>
      have houter : ∀ p ∈ outer.priority?, p = {} := fun p hp =>
        hnew p (List.mem_append_right _ (Option.mem_toList.2 hp))
      obtain ⟨w, hseen, hwhole, hw, hlater, hinner⟩ := ih fun p hp =>
        hnew p (List.mem_append_left _ hp)
      rw [configure]
      generalize inner.configure route v.whole = a at hwhole hinner
      obtain ⟨result, inner₁, r⟩ := a
      obtain rfl : w.whole = r := hwhole
      cases result with
      | error e => exact ⟨w, hseen, rfl, hw, hlater, hinner.wrap_unseated houter⟩
      | ok =>
          cases outer with
          | custom m =>
              refine ⟨w, hseen, rfl, hw, hlater, hinner.wrap_unseated fun p hp => ?_⟩
              cases hp
          | priority p =>
              obtain rfl := houter p rfl
              rcases PriorityLayer.configure_new route w.whole with ⟨e, he⟩ | ⟨c, hc, hok⟩
              · simp only [Layer.configure, he]
                exact ⟨w, hseen, rfl, hw, hlater, hinner.wrap_unseated houter⟩
              · have hunheard : c.arrival? = none :=
                  congrArg Contender.arrival? (PriorityLayer.declared_contenderOf hc).symm
                obtain ⟨hsound, hhidden⟩ := hw.conceal route.receiver hunheard
                have hlater' := hw.later_conceal route.receiver c
                simp only [Layer.configure, hok]
                refine ⟨w.shift (w.whole.register route.receiver c).2, hseen, rfl, hsound,
                  hlater.trans hlater', ?_⟩
                intro q hq t ht
                rcases List.mem_append.1 hq with hold | hnew
                · exact hinner.later hlater' q hold t ht
                · obtain rfl := List.mem_singleton.1 hnew
                  obtain rfl := Option.some.inj ht
                  exact ⟨Nat.lt_succ_self _, hhidden⟩

end Chain.Hidden

/-! ## Setting up -/

namespace Catalog

variable {β μ : Type} [Transport β] [Stage μ] {v : View}

/-- Setting up one side of a route in both registries fails in both or gives twins. -/
theorem install_alike (c : Catalog β μ) (side : Direction) (route : Route) (hv : v.Sound) :
    v.Leads (c.install side route v.seen).2 (c.install side route v.whole).2 ∧
      ((∃ e, (c.install side route v.seen).1 = .error e ∧
          (c.install side route v.whole).1 = .error e) ∨
        ∃ chain chain', (c.install side route v.seen).1 = .ok chain ∧
          (c.install side route v.whole).1 = .ok chain' ∧
          chain.Twin ⟨v.name, (c.install side route v.seen).2, (c.install side route v.whole).2⟩
            chain') := by
  unfold install
  cases hbuilt : c.build route.carrier side with
  | error e => exact ⟨hv.leads, Or.inl ⟨e, rfl, rfl⟩⟩
  | ok chain =>
      have hconfigured := Chain.Twin.configure_new (priorities_build_new hbuilt) hv route
      dsimp only
      generalize chain.configure route v.seen = a at hconfigured
      generalize chain.configure route v.whole = a' at hconfigured
      obtain ⟨result, chain₁, r⟩ := a
      obtain ⟨result', chain₁', r'⟩ := a'
      obtain rfl : result' = result := hconfigured.result
      cases result' with
      | error e =>
          have hreleased := hconfigured.twin.release hconfigured.leads.sound
          exact ⟨hconfigured.leads.trans hreleased, Or.inl ⟨e, rfl, rfl⟩⟩
      | ok => exact ⟨hconfigured.leads, Or.inr ⟨chain₁, chain₁', rfl, rfl, hconfigured.twin⟩⟩

/-- Setting up one side of a route in the whole registry alone cannot be seen. -/
theorem install_hidden (c : Catalog β μ) (side : Direction) (route : Route) (hv : v.Sound) :
    ∃ w, w.seen = v.seen ∧ w.whole = (c.install side route v.whole).2 ∧ w.Sound ∧ v.Later w ∧
      ∀ chain, (c.install side route v.whole).1 = .ok chain → chain.Hidden w := by
  cases hinstall : c.install side route v.whole with
  | mk result r' =>
      cases installing hinstall with
      | unbuilt hbuilt => exact ⟨v, rfl, rfl, hv, .refl v, nofun⟩
      | @refused before after _ _ hbuilt hconfigured =>
          obtain ⟨w, hseen, hwhole, hw, hlater, hhidden⟩ :=
            Chain.Hidden.configure_new (priorities_build_new hbuilt) hv route
          rw [hconfigured] at hwhole hhidden
          have hreleased := hhidden.release hw
          refine ⟨⟨w.name, w.seen, after.release w.whole⟩, hseen, ?_, hreleased.sound,
            hlater.trans hreleased.later, nofun⟩
          rw [hwhole]
      | @done before after _ hbuilt hconfigured =>
          obtain ⟨w, hseen, hwhole, hw, hlater, hhidden⟩ :=
            Chain.Hidden.configure_new (priorities_build_new hbuilt) hv route
          rw [hconfigured] at hwhole hhidden
          refine ⟨w, hseen, hwhole, hw, hlater, fun chain hchain => ?_⟩
          obtain rfl := Except.ok.inj hchain
          exact hhidden

end Catalog

end PortArbiter
