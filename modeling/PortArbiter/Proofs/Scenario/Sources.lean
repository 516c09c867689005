import PortArbiter.Proofs.Carrier.SpecText
import PortArbiter.Proofs.Decimal.ReadBack
import PortArbiter.Scenario.Replay
/-!
# Sources of a valid scenario

What validation promises, and what becomes of a source in the text of its carrier: the contender
that is read out of it is the one that was declared, to the last bit of its numbers.
-/

namespace PortArbiter

theorem Parameter.legible_number {key : String} {x : Float} (hne : key.toList ≠ [])
    (hkey : '.' ∉ key.toList) (hinner : key.toList.all Spec.isInner = true)
    (hx : x.isFinite = true) : Parameter.Legible ⟨key, some (NumberStyle.plain.text x)⟩ := by
  have htext : (Parameter.text ⟨key, some (NumberStyle.plain.text x)⟩).toList =
      key.toList ++ '.' :: (NumberStyle.plain.text x).toList := by
    rw [Parameter.text, String.toList_append, String.toList_append, List.append_assoc]
    rfl
  have hnumber : (NumberStyle.plain.text x).toList.all Spec.isInner = true := by
    rw [List.all_eq_true]
    intro c hc
    rcases mem_text hx hc with hdigit | rfl | rfl
    · exact Spec.isInner_digit hdigit
    · rfl
    · rfl
  apply legible_of_inner
  · rw [htext]
    exact List.append_ne_nil_of_left_ne_nil hne _
  · exact hkey
  · rw [htext, List.all_append, hinner, List.all_cons, hnumber]
    rfl

namespace Scenario

/-! ## Validation -/

structure Source.Valid (x : Source) : Prop where
  name : x.name ≠ ""
  level : Source.isMagnitude x.level = true
  timeConstant : Source.isMagnitude x.timeConstant = true
  inhibitory : x.inhibitory = true → ¬ x.timeConstant ≤ 0
  policy : ∀ word ∈ x.arrival?, ∃ p, ArrivalPolicy.ofToken? word = some p

structure Valid (s : Scenario) : Prop where
  endpoint : s.endpoint ≠ ""
  carrier : '+' ∉ s.carrier.toList
  sources : ∀ x ∈ s.sources, x.Valid
  names : (s.sources.map Source.name).Nodup
  times : ∀ e ∈ s.events, Source.isMagnitude e.time = true
  known : ∀ e ∈ s.events, e.source ∈ s.sources.map Source.name

theorem not_of_guard {c : Prop} [Decidable c] {fault : Fault} {k : Unit → Except Fault Unit}
    {rest : Except Fault Unit} (h : (if c then throw fault >>= k else rest) = .ok ()) :
    ¬ c ∧ rest = .ok () := by
  by_cases hc : c
  · rw [if_pos hc] at h
    cases h
  · rw [if_neg hc] at h
    exact ⟨hc, h⟩

theorem of_guard {c : Prop} [Decidable c] {fault : Fault} {k : Unit → Except Fault Unit}
    {rest : Except Fault Unit} (h : (if c then rest else throw fault >>= k) = .ok ()) :
    c ∧ rest = .ok () := by
  by_cases hc : c
  · rw [if_pos hc] at h
    exact ⟨hc, h⟩
  · rw [if_neg hc] at h
    cases h

theorem of_bind {check rest : Except Fault Unit} (h : (check >>= fun _ => rest) = .ok ()) :
    check = .ok () ∧ rest = .ok () := by
  cases check with
  | error fault => cases h
  | ok => exact ⟨rfl, h⟩

theorem Source.valid_of_validate {x : Source} (h : x.validate = .ok ()) : x.Valid := by
  unfold Source.validate at h
  obtain ⟨hname, h⟩ := not_of_guard h
  obtain ⟨hlevel, h⟩ := of_guard h
  obtain ⟨htime, h⟩ := of_guard h
  obtain ⟨hinhibitory, h⟩ := not_of_guard h
  refine ⟨hname, hlevel, htime, fun hi hle => hinhibitory ⟨hi, hle⟩, ?_⟩
  intro word hword
  rw [Option.mem_def] at hword
  rw [hword] at h
  cases hpolicy : ArrivalPolicy.ofToken? word with
  | some p => exact ⟨p, rfl⟩
  | none =>
      simp only [hpolicy] at h
      cases h

theorem valid_of_checkSources {seen : List String} {sources : List Source}
    (h : checkSources seen sources = .ok ()) :
    (∀ x ∈ sources, x.Valid) ∧ (∀ x ∈ sources, x.name ∉ seen) ∧
      (sources.map Source.name).Nodup := by
  induction sources generalizing seen with
  | nil => exact ⟨nofun, nofun, List.nodup_nil⟩
  | cons x sources ih =>
      unfold checkSources at h
      obtain ⟨hvalid, h⟩ := of_bind h
      obtain ⟨hseen, h⟩ := not_of_guard h
      obtain ⟨hsources, hfresh, hnodup⟩ := ih h
      refine ⟨?_, ?_, ?_⟩
      · exact List.forall_mem_cons.2 ⟨Source.valid_of_validate hvalid, hsources⟩
      · refine List.forall_mem_cons.2 ⟨hseen, fun y hy hmem => hfresh y hy ?_⟩
        exact List.mem_cons_of_mem _ hmem
      · rw [List.map_cons, List.nodup_cons]
        refine ⟨fun hmem => ?_, hnodup⟩
        obtain ⟨y, hy, hname⟩ := List.mem_map.1 hmem
        exact hfresh y hy (hname ▸ List.mem_cons_self)

theorem valid_of_checkEvents {names : List String} {index : Nat} {events : List Event}
    (h : checkEvents names index events = .ok ()) :
    ∀ e ∈ events, Source.isMagnitude e.time = true ∧ e.source ∈ names := by
  induction events generalizing index with
  | nil => exact nofun
  | cons e events ih =>
      unfold checkEvents at h
      obtain ⟨htime, h⟩ := of_guard h
      obtain ⟨hknown, h⟩ := of_guard h
      exact List.forall_mem_cons.2 ⟨⟨htime, hknown⟩, ih h⟩

theorem valid_of_validate {s : Scenario} (h : s.validate = .ok ()) : s.Valid := by
  unfold validate at h
  obtain ⟨hendpoint, h⟩ := not_of_guard h
  obtain ⟨hcarrier, h⟩ := not_of_guard h
  obtain ⟨_, h⟩ := not_of_guard h
  obtain ⟨hsources, h⟩ := of_bind h
  obtain ⟨hvalid, _, hnodup⟩ := valid_of_checkSources hsources
  have hevents := valid_of_checkEvents h
  exact {
    endpoint := hendpoint
    carrier := fun hplus => hcarrier (Or.inr hplus)
    sources := hvalid
    names := hnodup
    times := fun e he => (hevents e he).1
    known := fun e he => (hevents e he).2 }

/-! ## The text of a carrier -/

def Source.parameters (x : Source) : List Parameter :=
  [⟨"recv", some "priority"⟩, ⟨"level", some (NumberStyle.plain.text x.level)⟩,
    ⟨"time", some (NumberStyle.plain.text x.timeConstant)⟩]
    ++ (if x.inhibitory then [⟨"inhibit", none⟩] else [])
    ++ x.arrival?.toList.map fun word => ⟨"arrival", some word⟩

theorem Source.carrierSpec_eq (x : Source) (carrier : String) :
    x.carrierSpec carrier = Spec.text ⟨carrier, x.parameters⟩ := by
  apply String.toList_inj.1
  rw [Spec.toList_text, carrierSpec, parameters]
  cases x.inhibitory <;> cases x.arrival? <;>
    simp [Parameter.text]

theorem isFinite_of_isMagnitude {x : Float} (h : Source.isMagnitude x = true) :
    x.isFinite = true :=
  (Bool.and_eq_true_iff.1 h).1

theorem Source.Valid.legible {x : Source} (h : x.Valid) : ∀ p ∈ x.parameters, p.Legible := by
  intro p hp
  rcases List.mem_append.1 hp with hp | hp
  · rcases List.mem_append.1 hp with hp | hp
    · simp only [List.mem_cons, List.not_mem_nil, or_false] at hp
      rcases hp with rfl | rfl | rfl
      · exact Parameter.legible_of_inner (by decide) (by decide) rfl
      · exact Parameter.legible_number (by decide) (by decide) rfl (isFinite_of_isMagnitude h.level)
      · exact Parameter.legible_number (by decide) (by decide) rfl
          (isFinite_of_isMagnitude h.timeConstant)
    · split at hp
      · rw [List.mem_singleton.1 hp]
        exact Parameter.legible_of_inner (by decide) (by decide) rfl
      · cases hp
  · obtain ⟨word, hword, rfl⟩ := List.mem_map.1 hp
    obtain ⟨policy, hpolicy⟩ := h.policy word (Option.mem_toList.1 hword)
    unfold ArrivalPolicy.ofToken? at hpolicy
    split_ifs at hpolicy with hobserved hadmitted
    · rw [hobserved]
      exact Parameter.legible_of_inner (by decide) (by decide) rfl
    · rw [hadmitted]
      exact Parameter.legible_of_inner (by decide) (by decide) rfl

def carrierName (s : Scenario) : String :=
  String.ofList (Text.trim s.carrier.toList)

theorem Valid.spec_route {s : Scenario} (h : s.Valid) {x : Source} (hx : x ∈ s.sources) :
    (s.route x).spec = ⟨s.carrierName, x.parameters⟩ := by
  rw [Route.spec, route, Source.carrierSpec_eq]
  exact Spec.parse_text h.carrier (h.sources x hx).legible

/-! ## The contender of a source -/

/-- The contender that a source is declared as, not yet heard of. -/
def Source.contender (x : Source) : Contender where
  source := x.name
  level := x.level
  timeConstant := x.timeConstant
  inhibitory := x.inhibitory
  policy := (x.arrival?.bind ArrivalPolicy.ofToken?).getD .observed

theorem number_eq {spec : Spec} {key : String} {v : Float}
    (hvalue : spec.value? key = some (NumberStyle.plain.text v))
    (hv : Source.isMagnitude v = true) :
    PriorityLayer.atLeastZero (spec.number key 0) = v := by
  have hfinite := isFinite_of_isMagnitude hv
  have hnumber : spec.number key 0 = v := by
    rw [Spec.number, hvalue, Option.bind_some, readNumber?_text hfinite]
    exact if_pos hfinite
  rw [hnumber, PriorityLayer.atLeastZero, if_neg]
  intro hneg
  rw [Source.isMagnitude, Bool.and_eq_true_iff, decide_eq_true hneg] at hv
  exact Bool.false_ne_true hv.2

theorem Valid.contenderOf_route {s : Scenario} (h : s.Valid) {x : Source} (hx : x ∈ s.sources) :
    PriorityLayer.contenderOf (s.route x) = .ok x.contender := by
  have hspec := h.spec_route hx
  have hvalid := h.sources x hx
  have hlevel : (s.route x).spec.value? "level" = some (NumberStyle.plain.text x.level) := by
    rw [hspec, Spec.value?, Source.parameters]
    cases x.inhibitory <;> cases x.arrival? <;> simp
  have htime : (s.route x).spec.value? "time" = some (NumberStyle.plain.text x.timeConstant) := by
    rw [hspec, Spec.value?, Source.parameters]
    cases x.inhibitory <;> cases x.arrival? <;> simp
  have harrival : (s.route x).spec.value? "arrival" = x.arrival? := by
    rw [hspec, Spec.value?, Source.parameters]
    cases x.inhibitory <;> cases x.arrival? <;> simp
  have hinhibitory : ((s.route x).spec.mentions "inhibit" ||
      (s.route x).spec.mentions "inhibitory") = x.inhibitory := by
    rw [hspec, Spec.mentions, Spec.mentions, Source.parameters]
    cases x.inhibitory <;> cases x.arrival? <;> simp
  have hpositive : ¬ (x.inhibitory = true ∧ x.timeConstant ≤ 0) :=
    fun hboth => hvalid.inhibitory hboth.1 hboth.2
  simp only [PriorityLayer.contenderOf, number_eq hlevel hvalid.level,
    number_eq htime hvalid.timeConstant, harrival, hinhibitory, if_neg hpositive]
  rfl

end Scenario

end PortArbiter
