import PortArbiter.Proofs.Priority.Decay
import PortArbiter.Proofs.Scenario.Refinement
import PortArbiter.Proofs.Scenario.Schedule
/-!
# Reports explain themselves

A decision is taken before its own message is recorded, and a report shows the scores afterwards. A
recorded message only raises the score of its sender, and only that of a sender that was let
through. So the scores of an outcome give the same decision again.
-/

namespace PortArbiter

open Double

namespace Bare

variable {cs : List Contender} {name : String} {now : Float}

def stamp (selects : Contender → Prop) [DecidablePred selects] (now : Float)
    (cs : List Contender) : List Contender :=
  cs.map fun c => if selects c then c.hear now else c

theorem declared_stamp (selects : Contender → Prop) [DecidablePred selects] (now : Float)
    (cs : List Contender) :
    (stamp selects now cs).map Contender.declared = cs.map Contender.declared := by
  rw [stamp, List.map_map]
  apply List.map_congr_left
  intro c _
  rw [Function.comp_apply]
  split <;> rfl

structure Steady (cs : List Contender) (now : Float) : Prop where
  levels : ∀ c ∈ cs, c.level.isFinite = true ∧ ¬ c.level < 0
  timeConstants : ∀ c ∈ cs, c.timeConstant.isFinite = true
  arrivals : ∀ c ∈ cs, ∀ a, c.arrival? = some a → a.isFinite = true ∧ a ≤ now

theorem Steady.later (h : Steady cs now) {t : Float} (ht : now ≤ t) : Steady cs t where
  levels := h.levels
  timeConstants := h.timeConstants
  arrivals c hc a ha := by
    obtain ⟨hfinite, hle⟩ := h.arrivals c hc a ha
    exact ⟨hfinite, float_le_trans hle ht⟩

theorem Steady.stamp (h : Steady cs now) (hnow : now.isFinite = true)
    (selects : Contender → Prop) [DecidablePred selects] :
    Steady (stamp selects now cs) now := by
  have hself : now ≤ now :=
    le_iff.2 ⟨isNumber_of_isFinite hnow, isNumber_of_isFinite hnow, le_rfl⟩
  constructor
  · intro c' hc'
    obtain ⟨c, hc, rfl⟩ := List.mem_map.1 hc'
    split
    · exact h.levels c hc
    · exact h.levels c hc
  · intro c' hc'
    obtain ⟨c, hc, rfl⟩ := List.mem_map.1 hc'
    split
    · exact h.timeConstants c hc
    · exact h.timeConstants c hc
  · intro c' hc' a ha
    obtain ⟨c, hc, rfl⟩ := List.mem_map.1 hc'
    split at ha
    · obtain rfl := Option.some.inj ha
      exact ⟨hnow, hself⟩
    · exact h.arrivals c hc a ha

variable [Exponential]

theorem handle_eq_stamp (cs : List Contender) (name : String) (now : Float) :
    (handle cs name now).2 =
      if (handle cs name now).1 then stamp (·.source = name) now (overhear name now cs)
      else overhear name now cs := rfl

theorem declared_handle (cs : List Contender) (name : String) (now : Float) :
    (handle cs name now).2.map Contender.declared = cs.map Contender.declared := by
  have hheard : (overhear name now cs).map Contender.declared = cs.map Contender.declared :=
    declared_stamp _ now cs
  rw [handle_eq_stamp]
  split
  · rw [declared_stamp, hheard]
  · exact hheard

theorem Steady.handle (h : Steady cs now) (hnow : now.isFinite = true) (name : String) :
    Steady (handle cs name now).2 now := by
  have hheard : Steady (overhear name now cs) now := h.stamp hnow _
  rw [handle_eq_stamp]
  split
  · exact hheard.stamp hnow _
  · exact hheard

/-! ## Deciding once more -/

theorem admits_iff (cs : List Contender) (name : String) (now : Float) :
    admits cs name now = true ↔ ∃ sender ∈ cs, sender.source = name ∧ sender.inhibitory = false ∧
      ∀ other ∈ cs, other.source ≠ name → yields other (sender.score now) now = true := by
  simp only [admits, List.any_eq_true, Bool.and_eq_true, decide_eq_true_eq, Bool.not_eq_true',
    List.all_eq_true, List.mem_filter, and_imp, and_assoc]

theorem yields_of_le {c : Contender} {score score' now : Float} (hle : score ≤ score')
    (h : yields c score now = true) : yields c score' now = true := by
  unfold yields at h ⊢
  split
  · rename_i hinhibitory
    rw [if_pos hinhibitory, Bool.not_eq_true', Bool.and_eq_false_iff, decide_eq_false_iff_not,
      decide_eq_false_iff_not] at h
    rw [Bool.not_eq_true', Bool.and_eq_false_iff, decide_eq_false_iff_not,
      decide_eq_false_iff_not]
    exact h.imp_right fun hlow hlow' => hlow (float_le_trans hle hlow')
  · rename_i hinhibitory
    rw [if_neg hinhibitory, Bool.not_eq_true', decide_eq_false_iff_not] at h
    rw [Bool.not_eq_true', decide_eq_false_iff_not]
    exact fun hlow => h (float_lt_of_le_of_lt hle hlow)

/-- Recording a message that was let through does not make the decision on it wrong. -/
theorem admits_stamp (hexp : ∀ x y : Float, x ≤ y → Exponential.exp x ≤ Exponential.exp y)
    (h : Steady cs now) (hnow : now.isFinite = true) (hadmits : admits cs name now = true) :
    admits (stamp (·.source = name) now cs) name now = true := by
  rw [admits_iff] at hadmits ⊢
  obtain ⟨sender, hsender, hname, hinhibitory, hothers⟩ := hadmits
  have hraised : sender.score now ≤ (sender.hear now).score now :=
    Contender.score_le_score_hear hexp (fun hneg => absurd hneg (h.levels sender hsender).2) hnow
      fun a ha => (h.arrivals sender hsender a ha).2
  refine ⟨sender.hear now, List.mem_map.2 ⟨sender, hsender, if_pos hname⟩, hname, hinhibitory, ?_⟩
  intro other' hother' hother
  obtain ⟨other, hmem, rfl⟩ := List.mem_map.1 hother'
  -- the others were not heard, so that their scores are the old ones
  by_cases hself : other.source = name
  · rw [if_pos hself] at hother
    exact absurd hself hother
  · rw [if_neg hself] at hother ⊢
    exact yields_of_le hraised (hothers other hmem hother)

/-- What is known after a message gives the decision on it again. -/
theorem admits_handle (hexp : ∀ x y : Float, x ≤ y → Exponential.exp x ≤ Exponential.exp y)
    (h : Steady cs now) (hnow : now.isFinite = true) (name : String) :
    admits (handle cs name now).2 name now = (handle cs name now).1 := by
  have hheard : Steady (overhear name now cs) now := h.stamp hnow _
  have hdecision : (handle cs name now).1 = admits (overhear name now cs) name now := rfl
  rw [handle_eq_stamp, hdecision]
  cases hadmits : admits (overhear name now cs) name now with
  | false => exact hadmits
  | true => exact admits_stamp hexp hheard hnow hadmits

/-- Along a whole run every outcome shows the scores of contenders by whom the decision can be
taken again. The induction is on the events, which come one after another in time. -/
theorem replay_admits (hexp : ∀ x y : Float, x ≤ y → Exponential.exp x ≤ Exponential.exp y)
    {events : List Scenario.Event} (hordered : events.Pairwise fun a b => a.time ≤ b.time)
    (htimes : ∀ e ∈ events, e.time.isFinite = true) (h : ∀ e ∈ events, Steady cs e.time) :
    ∀ o ∈ replay cs events, ∃ after : List Contender,
      after.map Contender.declared = cs.map Contender.declared ∧
      o.scores = after.map (fun c => (c.source, c.score o.time)) ∧
      o.delivered = admits after o.source o.time := by
  induction events generalizing cs with
  | nil => exact nofun
  | cons e events ih =>
      rw [List.pairwise_cons] at hordered
      rw [List.forall_mem_cons] at htimes h
      have hsteady := h.1.handle htimes.1 e.source
      intro o ho
      rw [replay] at ho
      rcases List.mem_cons.1 ho with rfl | hlater
      · exact ⟨_, declared_handle cs e.source e.time, rfl,
          (admits_handle hexp h.1 htimes.1 e.source).symm⟩
      · obtain ⟨after, hdeclared, hscores, hdelivered⟩ := ih hordered.2 htimes.2
          (fun e' he' => hsteady.later (hordered.1 e' he')) o hlater
        exact ⟨after, hdeclared.trans (declared_handle cs e.source e.time), hscores, hdelivered⟩

end Bare

namespace Scenario

def inhibits (s : Scenario) (name : String) : Bool :=
  (s.source? name).any Source.inhibitory

/-- What the scores of an outcome say on its delivery: its source is not inhibitory, no other source
that is not inhibitory scores strictly higher, and no other inhibitory source has a score above
zero and at least as high. -/
def Outcome.Justified (s : Scenario) (o : Outcome) : Prop :=
  s.inhibits o.source = false ∧ ∃ score, (o.source, score) ∈ o.scores ∧
    ∀ rival theirs, (rival, theirs) ∈ o.scores → rival ≠ o.source →
      (s.inhibits rival = false → ¬ score < theirs) ∧
      (s.inhibits rival = true → ¬ (0 < theirs ∧ score ≤ theirs))

variable {s : Scenario}

theorem inhibits_of_mem (hnames : (s.sources.map Source.name).Nodup) {x : Source}
    (hx : x ∈ s.sources) : s.inhibits x.name = x.inhibitory := by
  rw [inhibits, source?, find?_of_nodup_map hnames hx]
  rfl

variable [Exponential]

theorem justified_iff_admits {o : Outcome} {after : List Contender}
    (hinhibits : ∀ c ∈ after, s.inhibits c.source = c.inhibitory)
    (hscores : o.scores = after.map fun c => (c.source, c.score o.time)) :
    o.Justified s ↔ Bare.admits after o.source o.time = true := by
  have hyields : ∀ other ∈ after, ∀ score, Bare.yields other score o.time = true ↔
      (s.inhibits other.source = false → ¬ score < other.score o.time) ∧
      (s.inhibits other.source = true →
        ¬ (0 < other.score o.time ∧ score ≤ other.score o.time)) := by
    intro other hother score
    rw [hinhibits other hother, Bare.yields]
    cases other.inhibitory <;> simp [imp_iff_not_or]
  rw [Bare.admits_iff, Outcome.Justified, hscores]
  constructor
  · rintro ⟨hfree, score, hmem, hrivals⟩
    obtain ⟨sender, hsender, heq⟩ := List.mem_map.1 hmem
    obtain ⟨hname, rfl⟩ := Prod.mk.inj heq
    refine ⟨sender, hsender, hname, ?_, fun other hother hne => ?_⟩
    · rw [← hinhibits sender hsender, hname, hfree]
    · exact (hyields other hother _).2
        (hrivals _ _ (List.mem_map.2 ⟨other, hother, rfl⟩) hne)
  · rintro ⟨sender, hsender, hname, hfree, hothers⟩
    refine ⟨?_, sender.score o.time, List.mem_map.2 ⟨sender, hsender, by rw [hname]⟩, ?_⟩
    · rw [← hname, hinhibits sender hsender, hfree]
    · intro rival theirs hmem hne
      obtain ⟨other, hother, heq⟩ := List.mem_map.1 hmem
      obtain ⟨rfl, rfl⟩ := Prod.mk.inj heq
      exact (hyields other hother _).1 (hothers other hother hne)

omit [Exponential] in
theorem steady_contenders (h : s.Valid) (t : Float) :
    Bare.Steady (s.sources.map Source.contender) t := by
  constructor
  · intro c hc
    obtain ⟨x, hx, rfl⟩ := List.mem_map.1 hc
    have hlevel := (h.sources x hx).level
    rw [Source.isMagnitude, Bool.and_eq_true, Bool.not_eq_true', decide_eq_false_iff_not] at hlevel
    exact hlevel
  · intro c hc
    obtain ⟨x, hx, rfl⟩ := List.mem_map.1 hc
    exact isFinite_of_isMagnitude (h.sources x hx).timeConstant
  · intro c hc a ha
    obtain ⟨x, _, rfl⟩ := List.mem_map.1 hc
    cases ha

/-! ## Scenarios that can be replayed -/

omit [Exponential] in
theorem of_openInbound {p p' : Playback} {label : String} {route : Route}
    (h : p.openInbound label route = (.ok (), p')) :
    ∃ b, p.catalog.carrier? route.spec.base = some b := by
  have hcatalog : (p.dropInbound label).catalog = p.catalog := by
    rw [Switchboard.dropInbound]
    split <;> rfl
  rw [Switchboard.openInbound, Inbound.connect, Catalog.install, hcatalog] at h
  cases hbuilt : p.catalog.build route.carrier .recv with
  | error e =>
      rw [hbuilt] at h
      cases h
  | ok chain =>
      rw [Catalog.build] at hbuilt
      split at hbuilt
      · cases hbuilt
      · split at hbuilt
        · cases hbuilt
        · rename_i b hb
          exact ⟨b, hb⟩

omit [Exponential] in
theorem sources_ne_nil (h : s.validate = .ok ()) : s.sources ≠ [] := by
  unfold validate at h
  obtain ⟨_, h⟩ := not_of_guard h
  obtain ⟨_, h⟩ := not_of_guard h
  obtain ⟨hsome, _⟩ := not_of_guard h
  intro hnil
  rw [hnil] at hsome
  exact hsome rfl

theorem of_replay {report : Report} (h : s.replay = .ok report) :
    s.validate = .ok () ∧ ∃ p, s.connectAll {} s.sources = .ok p := by
  rw [replay] at h
  cases hvalidate : s.validate with
  | error fault =>
      rw [hvalidate] at h
      cases h
  | ok =>
      rw [hvalidate] at h
      cases hconnect : s.connectAll {} s.sources with
      | error e =>
          rw [hconnect] at h
          cases h
      | ok p => exact ⟨rfl, p, rfl⟩

/-- On a stock carrier a valid scenario is replayed as the bare loop runs. -/
theorem replay_of_validate (hvalidate : s.validate = .ok ())
    (hcarrier : s.carrierName ∈ (Catalog.standard : Catalog Empty Empty).carrierNames) :
    s.replay = .ok ⟨s.name, s.endpoint,
      Bare.replay (s.sources.map Source.contender) s.schedule⟩ := by
  have h := valid_of_validate hvalidate
  obtain ⟨hname, b, hstock⟩ := exists_stock hcarrier
  obtain ⟨p, hconnect, hp⟩ := h.connectAll hstock hname
  have hnames : (s.contest p).contenders.map Contender.source = s.sources.map Source.name := by
    rw [hp.contenders, names_contenders]
  have hknown : ∀ e ∈ s.schedule, e.source ∈ s.sources.map Source.name :=
    fun e he => h.known e (List.mem_mergeSort.1 he)
  rw [← hp.contenders, ← hp.ready.deliverAll hnames hknown, replay, hvalidate]
  dsimp only
  rw [hconnect]
  rfl

omit [Exponential] in
theorem Valid.carrierName_mem (h : s.Valid) (hsome : s.sources ≠ []) {p : Playback}
    (hconnect : s.connectAll {} s.sources = .ok p) :
    s.carrierName ∈ (Catalog.standard : Catalog Empty Empty).carrierNames := by
  obtain ⟨x, rest, hsources⟩ := List.exists_cons_of_ne_nil hsome
  have hx : x ∈ s.sources := by
    rw [hsources]
    exact List.mem_cons_self
  rw [hsources, Scenario.connectAll] at hconnect
  split at hconnect
  · cases hconnect
  · rename_i hopen
    obtain ⟨b, hb⟩ := of_openInbound hopen
    rw [h.spec_route hx] at hb
    rw [Catalog.carrierNames, List.mem_mergeSort]
    exact List.mem_map.2 ⟨b, List.mem_of_find?_eq_some hb, by simpa using List.find?_some hb⟩

/-- Every outcome of every replay lists each source with its score, once, and was delivered exactly
if that list and the sources that are inhibitory justify it. -/
theorem replay_justified
    (hexp : ∀ x y : Float, x ≤ y → Exponential.exp x ≤ Exponential.exp y) {report : Report}
    (h : s.replay = .ok report) :
    ∀ o ∈ report.outcomes, o.scores.map Prod.fst = s.sources.map Source.name ∧
      (s.sources.map Source.name).Nodup ∧ (o.delivered = true ↔ o.Justified s) := by
  obtain ⟨hvalidate, p, hconnect⟩ := of_replay h
  have hvalid := valid_of_validate hvalidate
  have hcarrier := hvalid.carrierName_mem (sources_ne_nil hvalidate) hconnect
  obtain rfl := Except.ok.inj (h.symm.trans (replay_of_validate hvalidate hcarrier))
  have hfinite : ∀ e ∈ s.events, e.time.isFinite = true :=
    fun e he => isFinite_of_isMagnitude (hvalid.times e he)
  intro o ho
  obtain ⟨after, hdeclared, hscores, hdelivered⟩ := Bare.replay_admits hexp
    (schedule_ordered fun e he => isNumber_of_isFinite (hfinite e he))
    (fun e he => hfinite e (List.mem_mergeSort.1 he))
    (fun e _ => steady_contenders hvalid e.time) o ho
  have hsame : after.map Contender.declared = s.sources.map Source.contender := by
    rw [hdeclared, List.map_map]
    rfl
  have hinhibits : ∀ c ∈ after, s.inhibits c.source = c.inhibitory := by
    intro c hc
    have hmem : c.declared ∈ s.sources.map Source.contender := by
      rw [← hsame]
      exact List.mem_map_of_mem hc
    obtain ⟨x, hx, heq⟩ := List.mem_map.1 hmem
    have hsource : x.name = c.source := congrArg Contender.source heq
    have hflag : x.inhibitory = c.inhibitory := congrArg Contender.inhibitory heq
    rw [← hsource, inhibits_of_mem hvalid.names hx, hflag]
  refine ⟨?_, hvalid.names, ?_⟩
  · rw [hscores, List.map_map, ← names_contenders, ← hsame, List.map_map]
    rfl
  · rw [hdelivered, justified_iff_admits hinhibits hscores]

/-- The exponential function at the exponents that come up zero, one half and one time constant
after a message, and constant in between. -/
def staircase (x : Float) : Float :=
  if x < -4 then 0.006737946999085467 else if x < -1 then 0.0820849986238988 else 1

omit [Exponential] in
theorem staircase_mono {x y : Float} (h : x ≤ y) : staircase x ≤ staircase y := by
  have hbelow : ∀ {z : Float}, y < z → x < z := float_lt_of_le_of_lt h
  unfold staircase
  split_ifs with hx hy hy' hx' hy hy' hy hy'
  · decide +kernel
  · decide +kernel
  · decide +kernel
  · exact absurd (hbelow hy) hx
  · decide +kernel
  · decide +kernel
  · exact absurd (hbelow hy) hx
  · exact absurd (hbelow hy') hx'
  · decide +kernel

def standoff : Scenario where
  sources := [
    { name := "/a", level := 10, timeConstant := 2, arrival? := some "admitted" },
    { name := "/b", level := 5, timeConstant := 2 },
    { name := "/stop", level := 50, timeConstant := 2, inhibitory := true }]
  events := [
    { time := 0, source := "/a" },
    { time := 1, source := "/b" },
    { time := 1, source := "/a" },
    { time := 2, source := "/stop" },
    { time := 3, source := "/a" },
    { time := 4, source := "/b" }]

omit [Exponential] in
theorem replay_justified_standoff :
    (∀ x y : Float, x ≤ y → staircase x ≤ staircase y) ∧
      ∃ report, @replay ⟨staircase⟩ standoff = .ok report ∧
        report.delivered = [true, false, true, false, false, true] ∧
        ∀ o ∈ report.outcomes, (o.delivered = true ↔ o.Justified standoff) := by
  let _ : Exponential := ⟨staircase⟩
  have hmono : ∀ x y : Float, x ≤ y → staircase x ≤ staircase y := fun _ _ => staircase_mono
  have hcarrier : standoff.carrierName ∈
      (Catalog.standard : Catalog Empty Empty).carrierNames := by
    rw [Catalog.carrierNames, List.mem_mergeSort]
    decide
  have hschedule : standoff.schedule = standoff.events :=
    List.mergeSort_of_pairwise (by decide +kernel)
  have hreplay := replay_of_validate (s := standoff) rfl hcarrier
  rw [hschedule] at hreplay
  refine ⟨hmono, _, hreplay, by decide +kernel, fun o ho => ?_⟩
  exact (replay_justified hmono hreplay o ho).2.2

end Scenario

end PortArbiter
