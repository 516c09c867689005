import PortArbiter.Proofs.Connection.Install
import PortArbiter.Proofs.Scenario.Bare
import PortArbiter.Proofs.Scenario.Sources
/-!
# Setting up a replay

If the carrier of a valid scenario is a stock one, every source gets a connection, and the group of
the port then consists of the declared contenders in the order of declaration. Each member is
reached through the connection that goes by its name.
-/

namespace PortArbiter

/-! ## Wiring -/

/-- A connection of one priority layer around a built-in transport, through which a member of the
live group of a port is heard. -/
def Inbound.Wired {β μ : Type} (c : Inbound β μ) (r : Registry) (port : String) (id : PeerId) :
    Prop :=
  ∃ contender t b, c.chain? = some (.wrap (.priority ⟨contender, some t⟩)
      (.base (.lengthPrefixed b))) ∧
    t.id = id ∧ r.lookup port = some t.group

section

variable {β μ : Type}

theorem Inbound.Wired.register {c : Inbound β μ} {r : Registry} {port : String} {id : PeerId}
    (h : c.Wired r port id) (contender : Contender) :
    c.Wired (r.register port contender).2 port id := by
  obtain ⟨c₀, t, b, hchain, hid, hport⟩ := h
  refine ⟨c₀, t, b, hchain, hid, ?_⟩
  rw [Registry.lookup_register, if_pos rfl, Registry.target, hport]
  rfl

theorem Inbound.wired_of_register {c : Inbound β μ} {r : Registry} {port : String}
    {contender : Contender} {b : LengthPrefixed}
    (hchain : c.chain? = some (.wrap (.priority ⟨contender, some (r.register port contender).1⟩)
      (.base (.lengthPrefixed b)))) :
    c.Wired (r.register port contender).2 port ⟨r.nextPeer⟩ := by
  refine ⟨_, _, b, hchain, ?_, ?_⟩
  · rw [Registry.register_fst]
  · rw [Registry.lookup_register, if_pos rfl, Registry.register_fst]

end

namespace Scenario

def contest (s : Scenario) (p : Playback) : Group :=
  p.registry.host s.endpoint

/-- A replay in which every competing source can be told by its name and reached under it. -/
structure Ready (s : Scenario) (p : Playback) : Prop where
  coherent : p.registry.Coherent
  names : ((s.contest p).contenders.map Contender.source).Nodup
  wired : ∀ m ∈ (s.contest p).members, ∃ c, p.inbound? m.contender.source = some c ∧
    c.Wired p.registry s.endpoint m.id

theorem Ready.named {s : Scenario} {p : Playback} (h : s.Ready p) : (s.contest p).Named where
  ids := h.coherent.roster_nodup s.endpoint
  names := h.names

/-! ## Chains -/

variable {s : Scenario}

theorem Source.modifiers_recv (x : Source) (base : String) :
    Spec.modifiers ⟨base, x.parameters⟩ .recv = [PriorityLayer.name] := by
  rw [Spec.modifiers, Source.parameters]
  cases x.inhibitory <;> cases x.arrival? <;> simp [Direction.token, PriorityLayer.name]

theorem modifier?_priority :
    (Catalog.standard : Catalog Empty Empty).modifier? PriorityLayer.name =
      some (.priority {}) :=
  List.find?_cons_of_pos (decide_eq_true rfl)

theorem Valid.build_route (h : s.Valid) {x : Source} (hx : x ∈ s.sources) {b : Base Empty}
    (hcarrier : (Catalog.standard : Catalog Empty Empty).carrier? s.carrierName = some b)
    (hname : s.carrierName ≠ "") :
    (Catalog.standard : Catalog Empty Empty).build (s.route x).carrier .recv =
      .ok (.wrap (.priority {}) (.base (Stage.fresh b))) := by
  have hspec : Spec.parse (s.route x).carrier = ⟨s.carrierName, x.parameters⟩ := h.spec_route hx
  simp only [Catalog.build, hspec, if_neg hname, hcarrier, x.modifiers_recv, Catalog.wrapAll,
    modifier?_priority]
  rfl

theorem exists_stock
    (hcarrier : s.carrierName ∈ (Catalog.standard : Catalog Empty Empty).carrierNames) :
    s.carrierName ≠ "" ∧ ∃ b, (Catalog.standard : Catalog Empty Empty).carrier? s.carrierName =
      some (.lengthPrefixed b) := by
  rw [Catalog.carrierNames, List.mem_mergeSort] at hcarrier
  obtain ⟨b, hb, hname⟩ := List.mem_map.1 hcarrier
  constructor
  · rw [← hname]
    simp only [Catalog.standard, List.mem_cons, List.not_mem_nil, or_false] at hb
    rcases hb with rfl | rfl | rfl | rfl | rfl <;> decide
  · have hsome : ((Catalog.standard : Catalog Empty Empty).carrier? s.carrierName).isSome := by
      rw [Catalog.carrier?, List.find?_isSome]
      exact ⟨b, hb, decide_eq_true hname⟩
    obtain ⟨b', hb'⟩ := Option.isSome_iff_exists.1 hsome
    cases b' with
    | lengthPrefixed t => exact ⟨t, hb'⟩
    | custom e => exact e.elim

theorem Valid.install_route (h : s.Valid) {x : Source} (hx : x ∈ s.sources) {b : LengthPrefixed}
    (hcarrier : (Catalog.standard : Catalog Empty Empty).carrier? s.carrierName =
      some (.lengthPrefixed b))
    (hname : s.carrierName ≠ "") (r : Registry) :
    (Catalog.standard : Catalog Empty Empty).install .recv (s.route x) r =
      (.ok (.wrap (.priority ⟨x.contender, some (r.register s.endpoint x.contender).1⟩)
          (.base (.lengthPrefixed b))),
        (r.register s.endpoint x.contender).2) := by
  have hreceiver : ¬ (s.route x).receiver = "" := h.endpoint
  have hconfigure : PriorityLayer.configure {} (s.route x) r =
      (.ok (), ⟨x.contender, some (r.register s.endpoint x.contender).1⟩,
        (r.register s.endpoint x.contender).2) := by
    rw [PriorityLayer.configure, if_neg hreceiver, h.contenderOf_route hx]
    rfl
  have hbase : Chain.configure (s.route x)
      (.base (Stage.fresh (Base.lengthPrefixed b)) : Chain Empty Empty) r =
        (.ok (), .base (.lengthPrefixed b), r) := rfl
  rw [Catalog.install, h.build_route hx hcarrier hname]
  dsimp only
  rw [Chain.configure, hbase]
  dsimp only
  rw [Layer.configure, hconfigure]

/-! ## Connections -/

def connection (s : Scenario) (b : LengthPrefixed) (x : Source) (r : Registry) :
    Inbound Empty Empty :=
  ⟨s.route x, some (.wrap (.priority ⟨x.contender, some (r.register s.endpoint x.contender).1⟩)
    (.base (.lengthPrefixed b))), {}⟩

theorem Valid.connect_route (h : s.Valid) {x : Source} (hx : x ∈ s.sources) {b : LengthPrefixed}
    (hcarrier : (Catalog.standard : Catalog Empty Empty).carrier? s.carrierName =
      some (.lengthPrefixed b))
    (hname : s.carrierName ≠ "") (r : Registry) :
    Inbound.connect (Catalog.standard : Catalog Empty Empty) (s.route x) r =
      (.ok (s.connection b x r), (r.register s.endpoint x.contender).2) := by
  rw [Inbound.connect, h.install_route hx hcarrier hname]
  rfl

def enroll (s : Scenario) (b : LengthPrefixed) (x : Source) (p : Playback) : Playback :=
  { p with
    registry := (p.registry.register s.endpoint x.contender).2
    inbound := Table.put x.name (s.connection b x p.registry) p.inbound }

section

variable {b : LengthPrefixed} {x : Source} {p : Playback}

theorem inbound?_enroll (other : String) :
    (s.enroll b x p).inbound? other =
      if other = x.name then some (s.connection b x p.registry) else p.inbound? other :=
  Table.lookup_put x.name other _ p.inbound

theorem members_enroll (hr : p.registry.Coherent) :
    (s.contest (s.enroll b x p)).members =
      (s.contest p).members ++ [⟨⟨p.registry.nextPeer⟩, x.contender⟩] := by
  have hroster := hr.roster_register s.endpoint x.contender s.endpoint
  rwa [if_pos rfl] at hroster

theorem contenders_enroll (hr : p.registry.Coherent) :
    (s.contest (s.enroll b x p)).contenders = (s.contest p).contenders ++ [x.contender] := by
  rw [Group.contenders, members_enroll hr, List.map_append]
  rfl

theorem Ready.enroll (h : s.Ready p) (hunknown : p.inbound? x.name = none)
    (hnew : x.name ∉ (s.contest p).contenders.map Contender.source) :
    s.Ready (s.enroll b x p) where
  coherent := h.coherent.register s.endpoint x.contender
  names := by
    rw [contenders_enroll h.coherent, List.map_append, List.map_singleton, ← List.concat_eq_append]
    exact h.names.concat hnew
  wired := by
    intro m hm
    rw [members_enroll h.coherent] at hm
    rw [inbound?_enroll]
    rcases List.mem_append.1 hm with hold | hlast
    · obtain ⟨c, hc, hwired⟩ := h.wired m hold
      have hother : m.contender.source ≠ x.name := by
        intro heq
        rw [heq, hunknown] at hc
        cases hc
      rw [if_neg hother]
      exact ⟨c, hc, hwired.register x.contender⟩
    · rw [List.mem_singleton.1 hlast]
      exact ⟨_, if_pos rfl, Inbound.wired_of_register rfl⟩

end

structure Connected (s : Scenario) (done : List Source) (p : Playback) : Prop where
  catalog : p.catalog = .standard
  ready : s.Ready p
  contenders : (s.contest p).contenders = done.map Source.contender
  unknown : ∀ name, name ∉ done.map Source.name → p.inbound? name = none

theorem connected_none (s : Scenario) : s.Connected [] {} where
  catalog := rfl
  ready := {
    coherent := Registry.Coherent.empty
    names := List.nodup_nil
    wired := nofun }
  contenders := rfl
  unknown _ _ := rfl

theorem names_contenders (sources : List Source) :
    (sources.map Source.contender).map Contender.source = sources.map Source.name := by
  rw [List.map_map]
  rfl

theorem Connected.enroll {done : List Source} {p : Playback} (hp : s.Connected done p)
    (b : LengthPrefixed) {x : Source} (hnew : x.name ∉ done.map Source.name) :
    s.Connected (done ++ [x]) (s.enroll b x p) where
  catalog := hp.catalog
  ready := by
    refine hp.ready.enroll (hp.unknown x.name hnew) ?_
    rwa [hp.contenders, names_contenders]
  contenders := by
    rw [contenders_enroll hp.ready.coherent, hp.contenders, List.map_append]
    rfl
  unknown := by
    intro name hname
    rw [List.map_append, List.mem_append, not_or] at hname
    rw [inbound?_enroll, if_neg fun heq => hname.2 (List.mem_singleton.2 heq),
      hp.unknown name hname.1]

theorem Connected.openInbound {done : List Source} {p : Playback} (hp : s.Connected done p)
    (h : s.Valid) {b : LengthPrefixed}
    (hcarrier : (Catalog.standard : Catalog Empty Empty).carrier? s.carrierName =
      some (.lengthPrefixed b))
    (hname : s.carrierName ≠ "") {x : Source} (hx : x ∈ s.sources)
    (hnew : x.name ∉ done.map Source.name) :
    ∃ p', p.openInbound x.name (s.route x) = (.ok (), p') ∧ s.Connected (done ++ [x]) p' := by
  have hdrop : p.dropInbound x.name = p := by
    rw [Switchboard.dropInbound, hp.unknown x.name hnew]
  have hconnect : Inbound.connect p.catalog (s.route x) p.registry =
      (.ok (s.connection b x p.registry), (p.registry.register s.endpoint x.contender).2) := by
    rw [hp.catalog, h.connect_route hx hcarrier hname]
  refine ⟨s.enroll b x p, ?_, hp.enroll b hnew⟩
  rw [Switchboard.openInbound, hdrop, hconnect]
  rfl

/-- Every source of a valid scenario on a stock carrier gets its connection. -/
theorem Valid.connectAll (h : s.Valid) {b : LengthPrefixed}
    (hcarrier : (Catalog.standard : Catalog Empty Empty).carrier? s.carrierName =
      some (.lengthPrefixed b))
    (hname : s.carrierName ≠ "") :
    ∃ p, s.connectAll {} s.sources = .ok p ∧ s.Connected s.sources p := by
  have hall : ∀ rest done p, done ++ rest = s.sources → s.Connected done p →
      ∃ p', s.connectAll p rest = .ok p' ∧ s.Connected s.sources p' := by
    intro rest
    -- on the sources that are still to be connected; `done` are those before them
    induction rest with
    | nil =>
        intro done p hdone hp
        rw [List.append_nil] at hdone
        exact ⟨p, rfl, hdone ▸ hp⟩
    | cons x rest ih =>
        intro done p hdone hp
        have hx : x ∈ s.sources := by
          rw [← hdone]
          exact List.mem_append_right _ List.mem_cons_self
        have hnew : x.name ∉ done.map Source.name := by
          have hnames := h.names
          rw [← hdone, List.map_append, List.nodup_append] at hnames
          intro hmem
          exact hnames.2.2 x.name hmem x.name (List.mem_map_of_mem List.mem_cons_self) rfl
        obtain ⟨p', hopen, hp'⟩ := hp.openInbound h hcarrier hname hx hnew
        rw [Scenario.connectAll, hopen]
        exact ih (done ++ [x]) p' (by rw [List.append_assoc]; exact hdone) hp'
  exact hall s.sources [] {} rfl (connected_none s)

end Scenario

end PortArbiter
