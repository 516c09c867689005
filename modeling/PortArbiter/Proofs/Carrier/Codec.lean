import PortArbiter.Carrier.Catalog
import PortArbiter.Proofs.Carrier.Framing
/-!
# Codecs

A codec is a modifier that undoes on the receiving side what it does on the sending side. Two
chains that are woven from the same codecs undo each other as a whole: outbound payloads pass the
layers from the outside inwards and inbound ones from the base outwards, so the layer that
transformed last is the first to be undone.
-/

namespace PortArbiter

/-! ## Instances -/

namespace Stage

variable {σ : Type} [Stage σ]

/-- The states that a stage made after a prototype can come to be in. -/
inductive Descends (prototype : σ) : σ → Prop where
  | fresh : Descends prototype (Stage.fresh prototype)
  | configure {s : σ} (route : Route) (h : Descends prototype s) :
      Descends prototype (Stage.configure route s).2
  | acceptInbound {s : σ} (message : Message) (h : Descends prototype s) :
      Descends prototype (Stage.acceptInbound message s).2
  | transformInbound {s : σ} (payload : Bytes) (h : Descends prototype s) :
      Descends prototype (Stage.transformInbound payload s).2
  | acceptOutbound {s : σ} (payload : Bytes) (h : Descends prototype s) :
      Descends prototype (Stage.acceptOutbound payload s).2
  | transformOutbound {s : σ} (payload : Bytes) (h : Descends prototype s) :
      Descends prototype (Stage.transformOutbound payload s).2

/-- A modifier whose inbound transformation undoes the outbound one on every payload, and which
leaves the payloads of a direction alone where it says that it does not transform them. It may keep
a state, as long as these rules hold in all states of its instances. -/
structure Codec (prototype : σ) : Prop where
  inverse : ∀ {sender receiver : σ}, Descends prototype sender → Descends prototype receiver →
    ∀ payload,
      (Stage.transformInbound (Stage.transformOutbound payload sender).1 receiver).1 = payload
  quiet_inbound : ∀ {s : σ}, Descends prototype s → Stage.transformsInbound s = false →
    ∀ payload, (Stage.transformInbound payload s).1 = payload
  quiet_outbound : ∀ {s : σ}, Descends prototype s → Stage.transformsOutbound s = false →
    ∀ payload, (Stage.transformOutbound payload s).1 = payload

end Stage

namespace Layer

variable {μ : Type} [Stage μ]

inductive Descends : Layer μ → Layer μ → Prop where
  | priority (prototype p : PriorityLayer) : Descends (.priority prototype) (.priority p)
  | custom {prototype m : μ} (h : Stage.Descends prototype m) :
      Descends (.custom prototype) (.custom m)

/-- Priority layers are codecs, since they transform nothing. -/
def Codec : Layer μ → Prop
  | .priority _ => True
  | .custom m => Stage.Codec m

variable {prototype l : Layer μ}

theorem descends_fresh (prototype : Layer μ) : Descends prototype prototype.fresh := by
  cases prototype with
  | priority p => exact .priority p {}
  | custom m => exact .custom .fresh

namespace Descends

theorem configure (h : Descends prototype l) (route : Route) (r : Registry) :
    Descends prototype (l.configure route r).2.1 := by
  cases h with
  | priority prototype p => exact .priority prototype _
  | custom h => exact .custom (h.configure route)

theorem acceptInbound [Exponential] (h : Descends prototype l) (now : Float) (message : Message)
    (r : Registry) : Descends prototype (l.acceptInbound now message r).2.1 := by
  cases h with
  | priority prototype p => exact .priority prototype p
  | custom h => exact .custom (h.acceptInbound message)

theorem transformInbound (h : Descends prototype l) (payload : Bytes) :
    Descends prototype (l.transformInbound payload).2 := by
  cases h with
  | priority prototype p => exact .priority prototype p
  | custom h => exact .custom (h.transformInbound payload)

theorem acceptOutbound (h : Descends prototype l) (payload : Bytes) :
    Descends prototype (l.acceptOutbound payload).2 := by
  cases h with
  | priority prototype p => exact .priority prototype p
  | custom h => exact .custom (h.acceptOutbound payload)

theorem transformOutbound (h : Descends prototype l) (payload : Bytes) :
    Descends prototype (l.transformOutbound payload).2 := by
  cases h with
  | priority prototype p => exact .priority prototype p
  | custom h => exact .custom (h.transformOutbound payload)

end Descends

theorem Codec.inverse {sender receiver : Layer μ} (h : Codec prototype)
    (hsender : Descends prototype sender) (hreceiver : Descends prototype receiver)
    (payload : Bytes) :
    (receiver.transformInbound (sender.transformOutbound payload).1).1 = payload := by
  cases hsender with
  | priority prototype p =>
      cases hreceiver
      rfl
  | custom hsender =>
      cases hreceiver with
      | custom hreceiver => exact Stage.Codec.inverse h hsender hreceiver payload

theorem Codec.quiet_inbound (h : Codec prototype) (hl : Descends prototype l)
    (hquiet : l.transformsInbound = false) (payload : Bytes) :
    (l.transformInbound payload).1 = payload := by
  cases hl with
  | priority prototype p => rfl
  | custom hm => exact Stage.Codec.quiet_inbound h hm hquiet payload

theorem Codec.quiet_outbound (h : Codec prototype) (hl : Descends prototype l)
    (hquiet : l.transformsOutbound = false) (payload : Bytes) :
    (l.transformOutbound payload).1 = payload := by
  cases hl with
  | priority prototype p => rfl
  | custom hm => exact Stage.Codec.quiet_outbound h hm hquiet payload

end Layer

/-! ## Chains -/

namespace Chain

variable {β μ : Type} [Stage μ]

/-- A chain around a built-in transport whose layers descend from some prototypes, the outermost
first. -/
inductive Woven : List (Layer μ) → Chain β μ → Prop where
  | base (t : LengthPrefixed) : Woven [] (.base (.lengthPrefixed t))
  | wrap {prototype outer : Layer μ} {prototypes : List (Layer μ)} {inner : Chain β μ}
      (houter : Layer.Descends prototype outer) (hinner : Woven prototypes inner) :
      Woven (prototype :: prototypes) (.wrap outer inner)

namespace Woven

variable {prototypes : List (Layer μ)} {chain : Chain β μ}

theorem bottom (h : chain.Woven prototypes) : ∃ t, chain.bottom = .lengthPrefixed t := by
  induction h with
  | base t => exact ⟨t, rfl⟩
  | wrap _ _ ih => exact ih

variable [Transport β]

theorem configure (h : chain.Woven prototypes) (route : Route) (r : Registry) :
    (chain.configure route r).2.1.Woven prototypes := by
  induction h generalizing r with
  | base t => exact .base t
  | @wrap prototype outer prototypes inner houter hinner ih =>
      have hinner' := ih r
      rw [Chain.configure]
      generalize inner.configure route r = configured at hinner'
      obtain ⟨result, inner', r'⟩ := configured
      cases result with
      | error e => exact .wrap houter hinner'
      | ok => exact .wrap (houter.configure route r') hinner'

theorem acceptInbound [Exponential] (h : chain.Woven prototypes) (now : Float) (message : Message)
    (r : Registry) : (chain.acceptInbound now message r).2.1.Woven prototypes := by
  induction h generalizing r with
  | base t => exact .base t
  | @wrap prototype outer prototypes inner houter hinner ih =>
      have houter' := houter.acceptInbound now message r
      rw [Chain.acceptInbound]
      generalize outer.acceptInbound now message r = asked at houter'
      obtain ⟨accepted, outer', r'⟩ := asked
      cases accepted with
      | false => exact .wrap houter' hinner
      | true => exact .wrap houter' (ih r')

theorem transformInbound (h : chain.Woven prototypes) (payload : Bytes) :
    (chain.transformInbound payload).2.Woven prototypes := by
  induction h with
  | base t => exact .base t
  | wrap houter _ ih => exact .wrap (houter.transformInbound _) ih

theorem acceptOutbound (h : chain.Woven prototypes) (payload : Bytes) :
    (chain.acceptOutbound payload).2.Woven prototypes := by
  induction h with
  | base t => exact .base t
  | @wrap prototype outer prototypes inner houter hinner ih =>
      have houter' := houter.acceptOutbound payload
      rw [Chain.acceptOutbound]
      generalize outer.acceptOutbound payload = asked at houter'
      obtain ⟨accepted, outer'⟩ := asked
      cases accepted with
      | false => exact .wrap houter' hinner
      | true => exact .wrap houter' ih

theorem transformOutbound (h : chain.Woven prototypes) (payload : Bytes) :
    (chain.transformOutbound payload).2.Woven prototypes := by
  induction h generalizing payload with
  | base t => exact .base t
  | wrap houter _ ih => exact .wrap (houter.transformOutbound payload) (ih _)

/-- The receiving chain undoes the sending one, layer by layer. -/
theorem inverse {sender receiver : Chain β μ} (hsender : sender.Woven prototypes)
    (hreceiver : receiver.Woven prototypes) (hcodec : ∀ l ∈ prototypes, l.Codec)
    (payload : Bytes) :
    (receiver.transformInbound (sender.transformOutbound payload).1).1 = payload := by
  induction hsender generalizing receiver payload with
  | base t =>
      cases hreceiver
      rfl
  | @wrap prototype outer prototypes inner houter hinner ih =>
      cases hreceiver with
      | @wrap _ outer' _ inner' houter' hinner' =>
          rw [List.forall_mem_cons] at hcodec
          have hbelow := ih hinner' hcodec.2 (outer.transformOutbound payload).1
          calc ((Chain.wrap outer' inner').transformInbound
                  ((Chain.wrap outer inner).transformOutbound payload).1).1
              = (outer'.transformInbound (inner'.transformInbound
                  (inner.transformOutbound (outer.transformOutbound payload).1).1).1).1 := rfl
            _ = (outer'.transformInbound (outer.transformOutbound payload).1).1 := by rw [hbelow]
            _ = payload := hcodec.1.inverse houter houter' payload

/-- Passing over the transformation is no loss where no layer says that it transforms. -/
theorem quiet_inbound (h : chain.Woven prototypes) (hcodec : ∀ l ∈ prototypes, l.Codec)
    (hquiet : chain.transformsInbound = false) (payload : Bytes) :
    (chain.transformInbound payload).1 = payload := by
  induction h with
  | base t => rfl
  | @wrap prototype outer prototypes inner houter hinner ih =>
      rw [List.forall_mem_cons] at hcodec
      obtain ⟨hquiet, hquiet'⟩ := Bool.or_eq_false_iff.1 hquiet
      show (outer.transformInbound (inner.transformInbound payload).1).1 = payload
      rw [ih hcodec.2 hquiet', hcodec.1.quiet_inbound houter hquiet]

theorem quiet_outbound (h : chain.Woven prototypes) (hcodec : ∀ l ∈ prototypes, l.Codec)
    (hquiet : chain.transformsOutbound = false) (payload : Bytes) :
    (chain.transformOutbound payload).1 = payload := by
  induction h generalizing payload with
  | base t => rfl
  | @wrap prototype outer prototypes inner houter hinner ih =>
      rw [List.forall_mem_cons] at hcodec
      obtain ⟨hquiet, hquiet'⟩ := Bool.or_eq_false_iff.1 hquiet
      show (inner.transformOutbound (outer.transformOutbound payload).1).1 = payload
      rw [hcodec.1.quiet_outbound houter hquiet, ih hcodec.2 hquiet']

end Woven

end Chain

/-! ## Building -/

namespace Catalog

variable {β μ : Type} [Stage μ]

theorem woven_of_wrapAll {c : Catalog β μ} {chain chain' : Chain β μ} {below : List (Layer μ)}
    {names : List String} (h : chain.Woven below) (hbuilt : c.wrapAll chain names = .ok chain') :
    ∃ prototypes : List (Layer μ), names.map c.modifier? = prototypes.map some ∧
      chain'.Woven (prototypes.reverse ++ below) := by
  induction names generalizing chain below with
  | nil =>
      obtain rfl := Except.ok.inj hbuilt
      exact ⟨[], rfl, h⟩
  | cons name names ih =>
      rw [wrapAll] at hbuilt
      cases hname : c.modifier? name with
      | none =>
          rw [hname] at hbuilt
          cases hbuilt
      | some prototype =>
          rw [hname] at hbuilt
          obtain ⟨prototypes, hnames, hwoven⟩ :=
            ih (.wrap prototype.descends_fresh h) hbuilt
          refine ⟨prototype :: prototypes, ?_, ?_⟩
          · rw [List.map_cons, List.map_cons, hname, hnames]
          · rwa [List.reverse_cons, List.append_assoc]

variable [Transport β]

theorem woven_of_build {c : Catalog β μ} {carrier : String} {side : Direction} {chain : Chain β μ}
    {t : LengthPrefixed} (hbase : c.carrier? (Spec.parse carrier).base = some (.lengthPrefixed t))
    (hbuilt : c.build carrier side = .ok chain) :
    ∃ prototypes : List (Layer μ),
      ((Spec.parse carrier).modifiers side).map c.modifier? = prototypes.map some ∧
      chain.Woven prototypes.reverse := by
  simp only [build] at hbuilt
  split at hbuilt
  · cases hbuilt
  · rw [hbase] at hbuilt
    have hfresh : (Chain.base (Stage.fresh (Base.lengthPrefixed t)) : Chain β μ).Woven [] := .base t
    obtain ⟨prototypes, hnames, hwoven⟩ := woven_of_wrapAll hfresh hbuilt
    rw [List.append_nil] at hwoven
    exact ⟨prototypes, hnames, hwoven⟩

end Catalog

end PortArbiter
