import PortArbiter.Proofs.Scenario.Justified
/-!
# Validation and connection setup

A scenario is checked twice: by its own validation, and by the carriers of its sources, which read
the parameters back out of a text. The two agree. What passes validation is refused by the carriers
only if there is no base carrier of that name, and every source is otherwise enrolled as declared.
-/

namespace PortArbiter.Scenario

/-- Whether a member is what a source was declared as, its numbers the same to the last bit, and was
not heard of yet. -/
structure Source.Enrolled (x : Source) (m : Member) : Prop where
  source : m.contender.source = x.name
  level : m.contender.level = x.level
  timeConstant : m.contender.timeConstant = x.timeConstant
  inhibitory : m.contender.inhibitory = x.inhibitory
  policy : m.contender.policy.token = x.arrival?.getD ArrivalPolicy.observed.token
  unheard : m.contender.arrival? = none

theorem token_of_ofToken? {word : String} {policy : ArrivalPolicy}
    (h : ArrivalPolicy.ofToken? word = some policy) : policy.token = word := by
  unfold ArrivalPolicy.ofToken? at h
  split_ifs at h with hobserved hadmitted
  · cases h
    exact hobserved.symm
  · cases h
    exact hadmitted.symm

theorem Source.Valid.enrolled {x : Source} (h : x.Valid) (id : PeerId) :
    x.Enrolled ⟨id, x.contender⟩ where
  source := rfl
  level := rfl
  timeConstant := rfl
  inhibitory := rfl
  policy := by
    cases harrival : x.arrival? with
    | none => simp [contender, harrival]
    | some word =>
        obtain ⟨policy, hpolicy⟩ := h.policy word harrival
        simp [contender, harrival, hpolicy, token_of_ofToken? hpolicy]
  unheard := rfl

variable {s : Scenario}

theorem refused_of_connectAll {p : Playback} {sources : List Source} {e : ReplayError}
    (h : s.connectAll p sources = .error e) : ∃ source error, e = .refused source error := by
  induction sources generalizing p with
  | nil => cases h
  | cons x sources ih =>
      rw [connectAll] at h
      split at h
      · cases h
        exact ⟨_, _, rfl⟩
      · exact ih h

theorem Valid.connect_enrolls (h : s.Valid)
    (hcarrier : s.carrierName ∈ (Catalog.standard : Catalog Empty Empty).carrierNames)
    {x : Source} (hx : x ∈ s.sources) {r : Registry} (hr : r.Coherent) :
    ∃ (c : Inbound Empty Empty) (r' : Registry) (m : Member),
      Inbound.connect .standard (s.route x) r = (.ok c, r') ∧ x.Enrolled m ∧
      ∀ key, r'.roster key = r.roster key ++ if key = s.endpoint then [m] else [] := by
  obtain ⟨hname, b, hstock⟩ := exists_stock hcarrier
  exact ⟨_, _, ⟨⟨r.nextPeer⟩, x.contender⟩, h.connect_route hx hstock hname r,
    (h.sources x hx).enrolled _, hr.roster_register s.endpoint x.contender⟩

/-- After the connections of all sources are set up, the roster of the endpoint has one member for
each of them, in the order of declaration. -/
theorem Valid.roster_enrolled (h : s.Valid) {p : Playback} (hp : s.Connected s.sources p) :
    List.Forall₂ Source.Enrolled s.sources (p.registry.roster s.endpoint) := by
  have hcontenders : (p.registry.roster s.endpoint).map Member.contender =
      s.sources.map Source.contender := hp.contenders
  rw [List.forall₂_iff_get]
  have hlength := congrArg List.length hcontenders
  rw [List.length_map, List.length_map] at hlength
  refine ⟨hlength.symm, fun i hi hi' => ?_⟩
  have hith : ((p.registry.roster s.endpoint).get ⟨i, hi'⟩).contender =
      (s.sources.get ⟨i, hi⟩).contender := by
    have := congrArg (·[i]?) hcontenders
    simpa [hi, hi'] using this
  have henrolled := (h.sources _ (List.get_mem s.sources ⟨i, hi⟩)).enrolled
    ((p.registry.roster s.endpoint).get ⟨i, hi'⟩).id
  rwa [← hith] at henrolled

variable [Exponential]

/-- A scenario that passes validation is refused exactly if no base carrier goes by the name it
gives, trimmed. Otherwise the connection of every source is set up, whatever is registered already,
and it enrolls the source as declared at the endpoint and nothing else anywhere; when all are set
up, the endpoint has one member for each source. -/
theorem setup_of_validate (s : Scenario) (hvalidate : s.validate = .ok ()) :
    ((∃ source error, s.replay = .error (.refused source error)) ↔
      s.carrierName ∉ (Catalog.standard : Catalog Empty Empty).carrierNames) ∧
    (s.carrierName ∈ (Catalog.standard : Catalog Empty Empty).carrierNames →
      (∀ x ∈ s.sources, ∀ r : Registry, r.Coherent →
        ∃ (c : Inbound Empty Empty) (r' : Registry) (m : Member),
          Inbound.connect .standard ⟨x.name, s.endpoint, x.carrierSpec s.carrier⟩ r = (.ok c, r') ∧
          x.Enrolled m ∧
          ∀ key, r'.roster key = r.roster key ++ if key = s.endpoint then [m] else []) ∧
      ∃ p, s.connectAll {} s.sources = .ok p ∧
        List.Forall₂ Source.Enrolled s.sources (p.registry.roster s.endpoint)) := by
  have h := valid_of_validate hvalidate
  refine ⟨⟨?_, fun hcarrier => ?_⟩, fun hcarrier => ⟨?_, ?_⟩⟩
  · rintro ⟨source, error, hrefused⟩ hcarrier
    rw [replay_of_validate hvalidate hcarrier] at hrefused
    cases hrefused
  · cases hconnect : s.connectAll {} s.sources with
    | ok p => exact absurd (h.carrierName_mem (sources_ne_nil hvalidate) hconnect) hcarrier
    | error e =>
        obtain ⟨source, error, rfl⟩ := refused_of_connectAll hconnect
        refine ⟨source, error, ?_⟩
        rw [replay, hvalidate]
        dsimp only
        rw [hconnect]
        rfl
  · exact fun x hx r hr => h.connect_enrolls hcarrier hx hr
  · obtain ⟨hname, b, hstock⟩ := exists_stock hcarrier
    obtain ⟨p, hconnect, hp⟩ := h.connectAll hstock hname
    exact ⟨p, hconnect, h.roster_enrolled hp⟩

omit [Exponential] in
theorem setup_of_validate_twoSources :
    twoSources.validate = .ok () ∧
      ¬ (∃ source error, @replay .machine twoSources = .error (.refused source error)) ∧
      ∃ p, twoSources.connectAll {} twoSources.sources = .ok p ∧
        List.Forall₂ Source.Enrolled twoSources.sources (p.registry.roster "/port1") := by
  have hvalid : twoSources.validate = .ok () := rfl
  have hcarrier : twoSources.carrierName ∈
      (Catalog.standard : Catalog Empty Empty).carrierNames := by
    rw [Catalog.carrierNames, List.mem_mergeSort]
    decide
  obtain ⟨hrefused, hsetup⟩ := @setup_of_validate .machine twoSources hvalid
  exact ⟨hvalid, fun h => hrefused.1 h hcarrier, (hsetup hcarrier).2⟩

end PortArbiter.Scenario
