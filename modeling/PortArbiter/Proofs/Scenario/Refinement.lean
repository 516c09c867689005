import PortArbiter.Proofs.Scenario.Setup
/-!
# Replays refine the bare loop

Every message goes through its connection to the group of the port, and the group handles it as the
loop does. So a replay that uses connections reports what the loop computes, event by event.
-/

namespace PortArbiter

namespace Scenario

/-! ## Counting -/

theorem sum_ite_eq_one {names : List String} (hnames : names.Nodup) {a : String}
    (ha : a ∈ names) : (names.map fun name => if a = name then 1 else 0).sum = 1 := by
  induction names with
  | nil => cases ha
  | cons name names ih =>
      rw [List.nodup_cons] at hnames
      rw [List.map_cons, List.sum_cons]
      by_cases hname : a = name
      · have hrest : (names.map fun other => if a = other then 1 else 0) =
            names.map fun _ => 0 := by
          apply List.map_congr_left
          intro other hother
          rw [if_neg]
          rintro rfl
          exact hnames.1 (hname ▸ hother)
        rw [if_pos hname, hrest, List.map_const', List.sum_replicate, nsmul_zero, add_zero]
      · rw [if_neg hname, ih hnames.2 ((List.mem_cons.1 ha).resolve_left hname)]

/-- Counted by source, with each source counted once, the delivered messages are all there are. -/
theorem sum_countP_source {names : List String} (hnames : names.Nodup) {outcomes : List Outcome}
    (h : ∀ o ∈ outcomes, o.source ∈ names) :
    (names.map fun name => outcomes.countP fun o => o.delivered && o.source = name).sum =
      outcomes.countP Outcome.delivered := by
  induction outcomes with
  | nil =>
      simp only [List.countP_nil]
      rw [List.map_const', List.sum_replicate, nsmul_zero]
  | cons o outcomes ih =>
      rw [List.forall_mem_cons] at h
      have hone : (names.map fun name => if (o.delivered && decide (o.source = name)) = true
          then 1 else 0).sum = if o.delivered = true then 1 else 0 := by
        cases o.delivered with
        | false =>
            simp only [Bool.false_and, Bool.false_eq_true, if_false]
            rw [List.map_const', List.sum_replicate, nsmul_zero]
        | true =>
            simp only [Bool.true_and, decide_eq_true_eq, if_true]
            exact sum_ite_eq_one hnames h.1
      simp only [List.countP_cons]
      rw [List.sum_map_add, ih h.2, hone]

end Scenario

section

variable [Exponential]

/-! ## Messages -/

theorem Inbound.Wired.deliver {c : Inbound Empty Empty} {r : Registry} {port : String} {id : PeerId}
    (h : c.Wired r port id) (hr : r.Coherent) (now : Float) (payload : Bytes) :
    ∃ c' r', c.deliver now payload r =
        (if ((r.host port).receive id now).1 = .accepted then some payload else none, c', r') ∧
      c'.chain? = c.chain? ∧ r'.Coherent ∧ (∀ k, r'.lookup k = r.lookup k) ∧
      r'.host port = ((r.host port).receive id now).2 := by
  obtain ⟨contender, t, b, hchain, rfl, hport⟩ := h
  have hfst := Registry.receive_fst hport now
  have hhost := hr.host_receive hport now
  have hcoherent := hr.receive t now
  have hlookup := r.lookup_receive t now
  rw [← hfst, ← hhost]
  rw [Inbound.deliver, hchain]
  dsimp only
  rw [Chain.acceptInbound, Layer.acceptInbound, PriorityLayer.receive]
  dsimp only
  generalize r.receive t now = received at hcoherent hlookup ⊢
  obtain ⟨verdict, r'⟩ := received
  by_cases haccepted : verdict = .accepted
  · subst haccepted
    exact ⟨_, r', rfl, rfl, hcoherent, hlookup, rfl⟩
  · rw [if_neg haccepted, decide_eq_false haccepted]
    exact ⟨_, r', rfl, rfl, hcoherent, hlookup, rfl⟩

namespace Scenario

variable {s : Scenario} {p : Playback}

/-- The scores that are reported are those of the sources that compete. -/
theorem scoresAt_eq (h : s.Ready p)
    (hnames : (s.contest p).contenders.map Contender.source = s.sources.map Source.name)
    (now : Float) :
    s.scoresAt p.registry now = (s.contest p).contenders.map fun c => (c.source, c.score now) := by
  have hstandings : ((p.registry.lookup s.endpoint).map p.registry.group).elim []
      (·.standings now) = (s.contest p).standings now := by
    rw [contest, Registry.host]
    cases p.registry.lookup s.endpoint <;> rfl
  let scoreOf (name : String) : Float :=
    ((((s.contest p).standings now).find? (·.contender.source = name)).map Standing.score).getD 0
  have hscore : ∀ c ∈ (s.contest p).contenders, scoreOf c.source = c.score now := by
    intro c hc
    obtain ⟨m, hm, rfl⟩ := List.mem_map.1 hc
    have hfind : ((s.contest p).members.find? (·.contender.source = m.contender.source)) =
        some m := h.named.find?_name hm
    simp only [scoreOf, Group.standings, List.find?_map, Function.comp_def, hfind]
    rfl
  calc s.scoresAt p.registry now
      = s.sources.map fun source => (source.name, scoreOf source.name) := by
        rw [scoresAt, hstandings]
    _ = (s.sources.map Source.name).map fun name => (name, scoreOf name) := by
        rw [List.map_map]
        rfl
    _ = (s.contest p).contenders.map fun c => (c.source, scoreOf c.source) := by
        rw [← hnames, List.map_map]
        rfl
    _ = (s.contest p).contenders.map fun c => (c.source, c.score now) :=
        List.map_congr_left fun c hc => by rw [hscore c hc]

theorem Ready.receive (h : s.Ready p) {m : Member}
    {c c' : Inbound Empty Empty} {p' : Playback} {now : Float}
    (hinbound : p.inbound? m.contender.source = some c) (hchain : c'.chain? = c.chain?)
    (hcoherent : p'.registry.Coherent) (hlookup : ∀ k, p'.registry.lookup k = p.registry.lookup k)
    (hcontest : s.contest p' = ((s.contest p).receive m.id now).2)
    (hput : p'.inbound = Table.put m.contender.source c' p.inbound) : s.Ready p' where
  coherent := hcoherent
  names := by
    rw [hcontest, Group.names_receive]
    exact h.names
  wired := by
    intro r hr
    rw [hcontest] at hr
    -- what was heard of the sender has moved, but identities and names have not
    have hseat : r.seat ∈ (s.contest p).members.map Member.seat := by
      rw [← (s.contest p).seats_receive m.id now]
      exact List.mem_map_of_mem hr
    obtain ⟨r₀, hr₀, heq⟩ := List.mem_map.1 hseat
    have hid : r.id = r₀.id := congrArg Prod.fst heq.symm
    have hname : r.contender.source = r₀.contender.source :=
      congrArg (·.2.source) heq.symm
    have hentry : p'.inbound? r₀.contender.source =
        if r₀.contender.source = m.contender.source then some c'
        else p.inbound? r₀.contender.source := by
      rw [Switchboard.inbound?, hput, Table.lookup_put]
      rfl
    obtain ⟨c₀, hc₀, contender, t, b, hchain₀, ht, hgroup⟩ := h.wired r₀ hr₀
    rw [hid, hname]
    by_cases hself : r₀.contender.source = m.contender.source
    · rw [if_pos hself] at hentry
      rw [hself, hinbound] at hc₀
      obtain rfl := Option.some.inj hc₀
      exact ⟨c', hentry, contender, t, b, hchain.trans hchain₀, ht, (hlookup _).trans hgroup⟩
    · rw [if_neg hself] at hentry
      exact ⟨c₀, hentry.trans hc₀, contender, t, b, hchain₀, ht, (hlookup _).trans hgroup⟩

theorem deliver_of_inbound {e : Event} {c c' : Inbound Empty Empty} {verdict : Verdict}
    {r' : Registry} (hinbound : p.inbound? e.source = some c)
    (hdeliver : c.deliver e.time e.text.toUTF8.toList p.registry =
      (if verdict = .accepted then some e.text.toUTF8.toList else none, c', r')) :
    s.deliver p e =
      (⟨e.time, e.source, decide (verdict = .accepted), s.scoresAt r' e.time⟩,
        { p with registry := r', inbound := Table.put e.source c' p.inbound }) := by
  rw [Scenario.deliver, Switchboard.deliver, hinbound]
  dsimp only
  rw [hdeliver]
  by_cases haccepted : verdict = .accepted
  · rw [if_pos haccepted, decide_eq_true haccepted]
    rfl
  · rw [if_neg haccepted, decide_eq_false haccepted]
    rfl

theorem Ready.deliver (h : s.Ready p)
    (hnames : (s.contest p).contenders.map Contender.source = s.sources.map Source.name)
    {e : Event} (he : e.source ∈ s.sources.map Source.name) :
    (s.deliver p e).1 =
        ⟨e.time, e.source, (Bare.handle (s.contest p).contenders e.source e.time).1,
          (Bare.handle (s.contest p).contenders e.source e.time).2.map
            fun c => (c.source, c.score e.time)⟩ ∧
      s.Ready (s.deliver p e).2 ∧
      (s.contest (s.deliver p e).2).contenders =
        (Bare.handle (s.contest p).contenders e.source e.time).2 := by
  rw [← hnames] at he
  obtain ⟨_, hc, hname⟩ := List.mem_map.1 he
  obtain ⟨m, hm, rfl⟩ := List.mem_map.1 hc
  obtain ⟨c, hinbound, hwired⟩ := h.wired m hm
  obtain ⟨c', r', hdeliver, hchain, hcoherent, hlookup, hhost⟩ :=
    hwired.deliver h.coherent e.time e.text.toUTF8.toList
  have hhandle := h.named.receive_eq_handle hm e.time
  obtain ⟨p', hp'⟩ : ∃ p' : Playback,
      p' = { p with registry := r', inbound := Table.put e.source c' p.inbound } := ⟨_, rfl⟩
  have hcontest : s.contest p' = ((s.contest p).receive m.id e.time).2 := by
    rw [contest, hp']
    exact hhost
  have hready : s.Ready p' := by
    refine h.receive hinbound hchain ?_ ?_ hcontest ?_
    · rw [hp']
      exact hcoherent
    · rw [hp']
      exact hlookup
    · rw [hp', hname]
  have hkept : (s.contest p').contenders.map Contender.source = s.sources.map Source.name := by
    rw [hcontest, Group.names_receive, hnames]
  rw [hname] at hhandle hinbound
  have hplayback := deliver_of_inbound (s := s) hinbound hdeliver
  rw [← hp'] at hplayback
  have hscores : s.scoresAt r' e.time =
      (s.contest p').contenders.map fun c => (c.source, c.score e.time) := by
    have hregistry : p'.registry = r' := by rw [hp']
    rw [← hregistry]
    exact scoresAt_eq hready hkept e.time
  rw [hplayback, hscores, hcontest, ← hhandle]
  exact ⟨rfl, hready, rfl⟩

/-- Whole runs: connections report what the loop computes. -/
theorem Ready.deliverAll (h : s.Ready p)
    (hnames : (s.contest p).contenders.map Contender.source = s.sources.map Source.name)
    {events : List Event} (hevents : ∀ e ∈ events, e.source ∈ s.sources.map Source.name) :
    s.deliverAll p events = Bare.replay (s.contest p).contenders events := by
  -- the invariant: all members stay reachable, and the names that compete are the declared ones
  induction events generalizing p with
  | nil => rfl
  | cons e events ih =>
      rw [List.forall_mem_cons] at hevents
      obtain ⟨houtcome, hready, hcontenders⟩ := h.deliver hnames hevents.1
      have hkept : (s.contest (s.deliver p e).2).contenders.map Contender.source =
          s.sources.map Source.name := by
        rw [hcontenders, Bare.names_handle, hnames]
      rw [Scenario.deliverAll, Bare.replay]
      dsimp only
      rw [houtcome, ih hready hkept hevents.2, hcontenders]

/-! ## Replays -/

/-- A valid scenario on a stock carrier is replayed, and its report is that of the bare loop, with
one outcome for each event, every delivered one of them due to one of the sources. -/
theorem replay_eq_bare (s : Scenario) (hvalid : s.validate = .ok ())
    (hcarrier : s.carrierName ∈ (Catalog.standard : Catalog Empty Empty).carrierNames) :
    ∃ report, s.replay = .ok report ∧
      report.outcomes = Bare.replay (s.sources.map Source.contender)
        (s.events.mergeSort fun a b => orderKey a.time ≤ orderKey b.time) ∧
      report.outcomes.length = s.events.length ∧
      (s.sources.map fun x => report.deliveredFrom x.name).sum =
        report.outcomes.countP Outcome.delivered := by
  have h := valid_of_validate hvalid
  obtain ⟨hname, b, hstock⟩ := exists_stock hcarrier
  obtain ⟨p, hconnect, hp⟩ := h.connectAll hstock hname
  have hnames : (s.contest p).contenders.map Contender.source = s.sources.map Source.name := by
    rw [hp.contenders, names_contenders]
  have hknown : ∀ e ∈ s.schedule, e.source ∈ s.sources.map Source.name :=
    fun e he => h.known e (List.mem_mergeSort.1 he)
  have houtcomes := hp.ready.deliverAll hnames hknown
  rw [hp.contenders] at houtcomes
  refine ⟨⟨s.name, s.endpoint, s.deliverAll p s.schedule⟩, ?_, houtcomes, ?_, ?_⟩
  · rw [Scenario.replay, hvalid]
    dsimp only
    rw [hconnect]
    rfl
  · have hevents := congrArg List.length (Bare.events_replay (s.sources.map Source.contender)
      s.schedule)
    rw [List.length_map, List.length_map, ← houtcomes] at hevents
    rw [hevents, schedule, List.length_mergeSort]
  · have hsources : ∀ o ∈ s.deliverAll p s.schedule, o.source ∈ s.sources.map Source.name := by
      intro o ho
      rw [houtcomes] at ho
      have hmem := List.mem_map_of_mem (f := fun o : Outcome => (o.time, o.source)) ho
      rw [Bare.events_replay] at hmem
      obtain ⟨e, he, heq⟩ := List.mem_map.1 hmem
      have hsource : e.source = o.source := congrArg Prod.snd heq
      rw [← hsource]
      exact hknown e he
    have hsum := sum_countP_source h.names hsources
    rw [List.map_map] at hsum
    exact hsum

end Scenario

end

theorem Scenario.replay_eq_bare_twoSources :
    twoSources.validate = .ok () ∧
      twoSources.carrierName ∈ (Catalog.standard : Catalog Empty Empty).carrierNames ∧
      ∃ report, @replay .machine twoSources = .ok report ∧
        report.outcomes = @Bare.replay .machine (twoSources.sources.map Source.contender)
          (twoSources.events.mergeSort fun a b => orderKey a.time ≤ orderKey b.time) ∧
        report.outcomes.length = 7 := by
  have hvalid : twoSources.validate = .ok () := rfl
  have hcarrier : twoSources.carrierName ∈
      (Catalog.standard : Catalog Empty Empty).carrierNames := by
    rw [Catalog.carrierNames, List.mem_mergeSort]
    decide
  obtain ⟨report, hreport, houtcomes, hlength, _⟩ :=
    @replay_eq_bare .machine twoSources hvalid hcarrier
  exact ⟨hvalid, hcarrier, report, hreport, houtcomes, hlength⟩

end PortArbiter
