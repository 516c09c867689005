import PortArbiter.Proofs.Scenario.Justified
/-!
# What a report tells of the events

A report has one outcome for each event, in the order of their times. Events of the same time are
reported as they are listed, and those at a negative zero before those at a positive one.
-/

namespace PortArbiter.Scenario

open Double

section

variable [Exponential] {s : Scenario} {report : Report}

theorem events_deliverAll (s : Scenario) (p : Playback) (events : List Event) :
    (s.deliverAll p events).map (fun o => (o.time, o.source)) =
      events.map fun e => (e.time, e.source) := by
  induction events generalizing p with
  | nil => rfl
  | cons e events ih =>
      rw [deliverAll, List.map_cons, List.map_cons, ih]
      rfl

theorem events_of_replay (h : s.replay = .ok report) :
    report.outcomes.map (fun o => (o.time, o.source)) =
      s.schedule.map fun e => (e.time, e.source) := by
  obtain ⟨hvalidate, p, hconnect⟩ := of_replay h
  rw [replay, hvalidate] at h
  dsimp only at h
  rw [hconnect] at h
  obtain rfl := Except.ok.inj h
  exact s.events_deliverAll p s.schedule

omit [Exponential] in
theorem Valid.isNumber_time (h : s.Valid) {e : Event} (he : e ∈ s.events) : IsNumber e.time :=
  isNumber_of_isFinite (isFinite_of_isMagnitude (h.times e he))

/-- A report has the outcomes of all events of a scenario, once each and in an order in which every
event is given with its place in the scenario. -/
structure Report.Recounts (report : Report) (s : Scenario) (order : List (Event × Nat)) : Prop where
  perm : order.Perm s.events.zipIdx
  outcomes : report.outcomes.map (fun o => (o.time, o.source)) =
    order.map fun x => (x.1.time, x.1.source)

theorem recounts_of_replay (h : s.replay = .ok report) :
    report.Recounts s s.numberedSchedule where
  perm := s.numberedSchedule_perm
  outcomes := by
    rw [events_of_replay h, ← map_fst_numberedSchedule, List.map_map]
    rfl

/-- Every report recounts the events of its scenario in an order in which no time is less than one
before it. Of two events whose times are equal as numbers the one that is listed first comes first,
unless one time is a negative zero and the other one a positive zero: then the negative one does. -/
theorem replay_chronological (h : s.replay = .ok report) :
    ∃ order, report.Recounts s order ∧
      (report.outcomes.Pairwise fun a b => a.time ≤ b.time) ∧
      order.Pairwise fun x y => (x.1.time == y.1.time) = true →
        x.1.time = y.1.time ∧ x.2 < y.2 ∨ x.1.time = -0.0 ∧ y.1.time = 0 := by
  have hvalid := valid_of_validate (of_replay h).1
  refine ⟨s.numberedSchedule, recounts_of_replay h, ?_, ?_⟩
  · have htimes : report.outcomes.map Outcome.time = s.schedule.map Event.time := by
      have hevents := congrArg (List.map Prod.fst) (events_of_replay h)
      rwa [List.map_map, List.map_map] at hevents
    rw [← List.pairwise_map, htimes, List.pairwise_map]
    exact schedule_ordered fun e he => hvalid.isNumber_time he
  · refine s.numberedSchedule_ordered.imp fun {x y} horder heq => ?_
    rcases horder with hlt | hplace
    · refine Or.inr ((eq_or_zeros_of_beq heq hlt.le).resolve_left fun hsame => ?_)
      exact hlt.ne (orderKey_inj.2 hsame)
    · exact Or.inl hplace

end

/-! ## Messages at zero -/

def midnight (events : List Event) : Scenario where
  sources := [
    { name := "/a", level := 10, timeConstant := 2 },
    { name := "/b", level := 5, timeConstant := 2 }]
  events := events

def midnightMessages : List Event :=
  [⟨0.5, "/b", none⟩, ⟨0, "/a", none⟩, ⟨-0.0, "/b", none⟩, ⟨0, "/b", none⟩, ⟨0.5, "/a", none⟩]

theorem exists_replay_midnight {events : List Event} (h : (midnight events).validate = .ok ()) :
    ∃ report, @replay .machine (midnight events) = .ok report := by
  let _ : Exponential := .machine
  have hcarrier : (midnight events).carrierName ∈
      (Catalog.standard : Catalog Empty Empty).carrierNames := by
    rw [Catalog.carrierNames, List.mem_mergeSort]
    show String.ofList (Text.trim "tcp".toList) ∈ _
    decide
  exact ⟨_, replay_of_validate h hcarrier⟩

theorem orderKey_half : orderKey 0.5 = 4602678819172646912 := by decide +kernel

theorem replay_chronological_midnight :
    ∃ report, @replay .machine (midnight midnightMessages) = .ok report ∧
      (∃ order, report.Recounts (midnight midnightMessages) order ∧
        (report.outcomes.Pairwise fun a b => a.time ≤ b.time) ∧
        order.Pairwise fun x y => (x.1.time == y.1.time) = true →
          x.1.time = y.1.time ∧ x.2 < y.2 ∨ x.1.time = -0.0 ∧ y.1.time = 0) ∧
      report.outcomes.map (fun o => (o.time, o.source)) =
        [(-0.0, "/b"), (0, "/a"), (0, "/b"), (0.5, "/b"), (0.5, "/a")] := by
  let _ : Exponential := .machine
  have hvalid : (midnight midnightMessages).validate = .ok () := rfl
  obtain ⟨report, hreport⟩ := exists_replay_midnight hvalid
  refine ⟨report, hreport, replay_chronological hreport, ?_⟩
  rw [events_of_replay hreport]
  simp [schedule, midnight, midnightMessages, List.mergeSort, orderKey_zero, orderKey_negativeZero,
    orderKey_half]

/-- Messages at numerically equal times need not be replayed as they are listed. -/
theorem not_recounts_as_listed :
    let s := midnight [⟨0, "/a", none⟩, ⟨-0.0, "/b", none⟩]
    ((0 : Float) == -0.0) = true ∧
      ∃ report, @replay .machine s = .ok report ∧
        report.outcomes.map Outcome.source = ["/b", "/a"] ∧
        ¬ ∃ order, report.Recounts s order ∧
          order.Pairwise fun x y => (x.1.time == y.1.time) = true → x.2 < y.2 := by
  let _ : Exponential := .machine
  intro s
  have heq : ((-0.0 : Float) == 0) = true := by decide +kernel
  have hvalid : (midnight [⟨0, "/a", none⟩, ⟨-0.0, "/b", none⟩]).validate = .ok () := rfl
  obtain ⟨report, hreport⟩ := exists_replay_midnight hvalid
  have houtcomes : report.outcomes.map (fun o => (o.time, o.source)) =
      [(-0.0, "/b"), (0, "/a")] := by
    rw [events_of_replay hreport]
    simp [schedule, midnight, List.mergeSort, orderKey_zero, orderKey_negativeZero]
  refine ⟨by decide +kernel, report, hreport, ?_, ?_⟩
  · have hsources := congrArg (List.map Prod.snd) houtcomes
    rwa [List.map_map] at hsources
  · rintro ⟨order, horder, hlisted⟩
    have hmem : ∀ x ∈ order, x = (⟨0, "/a", none⟩, 0) ∨ x = (⟨-0.0, "/b", none⟩, 1) := by
      intro x hx
      simpa [s, midnight] using horder.perm.mem_iff.1 hx
    have hlength : order.length = 2 := horder.perm.length_eq
    obtain ⟨x, y, rfl⟩ := List.length_eq_two.1 hlength
    have hsources := congrArg (List.map Prod.snd) (houtcomes.symm.trans horder.outcomes)
    obtain ⟨hx, hy⟩ : "/b" = x.1.source ∧ "/a" = y.1.source := by simpa using hsources
    have hplaces := List.pairwise_pair.1 hlisted
    rcases hmem x List.mem_cons_self with rfl | rfl
    · exact absurd hx (by decide)
    rcases hmem y (List.mem_cons_of_mem _ List.mem_cons_self) with rfl | rfl
    · exact absurd (hplaces heq) (by decide)
    · exact absurd hy (by decide)

end PortArbiter.Scenario
