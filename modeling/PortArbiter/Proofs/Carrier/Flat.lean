import Mathlib.Data.List.Induction
import PortArbiter.Carrier.Catalog
/-!
# Chains as lists of stages

A chain is nested, one layer around the other, but what it does can be said of the plain list of
its stages: which of them are asked and in which order, where the asking stops, and whose states
change. Here every call on a chain is defined once more, on a base carrier and a list of layers, and
a run of calls on a chain turns out to be the run on its list.
-/

namespace PortArbiter

/-! ## Walks over a list -/

section

variable {τ α ρ : Type}

/-- Let stages answer one after another, up to the first whose answer is final. Those behind it are
not asked and keep their states. -/
def askAll (final : α → Bool) (idle : α) (ask : τ → ρ → α × τ × ρ) : List τ → ρ → α × List τ × ρ
  | [], r => (idle, [], r)
  | x :: xs, r =>
    match ask x r with
    | (answer, x, r) =>
      if final answer then (answer, x :: xs, r)
      else
        match askAll final idle ask xs r with
        | (answer, xs, r) => (answer, x :: xs, r)

def passAll (pass : Bytes → τ → Bytes × τ) : Bytes → List τ → Bytes × List τ
  | payload, [] => (payload, [])
  | payload, x :: xs =>
    match pass payload x with
    | (payload, x) =>
      match passAll pass payload xs with
      | (payload, xs) => (payload, x :: xs)

theorem askAll_concat {final : α → Bool} {idle : α} (hidle : final idle = false)
    (ask : τ → ρ → α × τ × ρ) (xs : List τ) (x : τ) (r : ρ) :
    askAll final idle ask (xs ++ [x]) r =
      match askAll final idle ask xs r with
      | (answer, xs', r') =>
        if final answer then (answer, xs' ++ [x], r')
        else
          match askAll final idle ask [x] r' with
          | (answer, last, r'') => (answer, xs' ++ last, r'') := by
  induction xs generalizing r with
  | nil =>
      rw [List.nil_append, askAll.eq_1]
      simp only [hidle, Bool.false_eq_true, if_false, List.nil_append]
  | cons y ys ih =>
      rw [List.cons_append, askAll, askAll]
      obtain ⟨answer, y', r'⟩ := ask y r
      by_cases hfinal : final answer = true
      · simp only [hfinal, if_true, List.cons_append]
      · simp only [hfinal, ih, List.cons_append, Bool.false_eq_true, if_false]
        split <;> rfl

theorem passAll_concat (pass : Bytes → τ → Bytes × τ) (payload : Bytes) (xs : List τ) (x : τ) :
    passAll pass payload (xs ++ [x]) =
      match passAll pass payload xs with
      | (payload', xs') =>
        match pass payload' x with
        | (payload'', x') => (payload'', xs' ++ [x']) := by
  induction xs generalizing payload with
  | nil => rfl
  | cons y ys ih =>
      rw [List.cons_append, passAll, passAll]
      simp only [ih, List.cons_append]

end

/-! ## Calls -/

def refused : Except CarrierError Unit → Bool
  | .error _ => true
  | .ok () => false

inductive Call where
  | flags
  | configure (route : Route)
  | acceptInbound (now : Float) (message : Message)
  | transformsInbound
  | transformInbound (payload : Bytes)
  | acceptOutbound (payload : Bytes)
  | transformsOutbound
  | transformOutbound (payload : Bytes)
  | writeFrame (payload written : Bytes)
  | readFrame (frame : Bytes)

inductive Reply where
  | flags (flags : Flags)
  | configured (result : Except CarrierError Unit)
  | decision (yes : Bool)
  | payload (payload : Bytes)
  | frame (result : Except CarrierError Bytes)

variable {β μ : Type} [Transport β] [Stage μ] [Exponential]

namespace Chain

def perform (chain : Chain β μ) (r : Registry) : Call → Reply × Chain β μ × Registry
  | .flags => (.flags chain.flags, chain, r)
  | .configure route => (chain.configure route r).map .configured id
  | .acceptInbound now message => (chain.acceptInbound now message r).map .decision id
  | .transformsInbound => (.decision chain.transformsInbound, chain, r)
  | .transformInbound payload => (chain.transformInbound payload).map .payload (·, r)
  | .acceptOutbound payload => (chain.acceptOutbound payload).map .decision (·, r)
  | .transformsOutbound => (.decision chain.transformsOutbound, chain, r)
  | .transformOutbound payload => (chain.transformOutbound payload).map .payload (·, r)
  | .writeFrame payload written => (chain.writeFrame payload written).map .frame (·, r)
  | .readFrame frame => (chain.readFrame frame).map .frame (·, r)

def run (chain : Chain β μ) (r : Registry) : List Call → List Reply × Chain β μ × Registry
  | [] => ([], chain, r)
  | call :: calls =>
    let (reply, chain, r) := chain.perform r call
    (chain.run r calls).map (reply :: ·) id

end Chain

/-- A base carrier and the layers around it, in the order of declaration. -/
structure Flat (β μ : Type) where
  base : Base β
  layers : List (Layer μ)

namespace Flat

/-- The chain in which each layer stands around all that were declared before it. -/
def nest (f : Flat β μ) : Chain β μ :=
  f.layers.foldl (fun inner outer => .wrap outer inner) (.base f.base)

/-- The flags of the base carrier; with a layer it needs a companion. -/
def flags (f : Flat β μ) : Flags :=
  if f.layers = [] then Transport.flags f.base
  else { Transport.flags f.base with requiresCompanion := true }

/-- The base carrier first, then the layers as declared, up to the first that refuses. -/
def configure (route : Route) (f : Flat β μ) (r : Registry) :
    Except CarrierError Unit × Flat β μ × Registry :=
  match Stage.configure route f.base with
  | (.error e, base) => (.error e, { f with base }, r)
  | (.ok (), base) =>
    let (result, layers, r) := askAll refused (.ok ()) (Layer.configure route) f.layers r
    (result, ⟨base, layers⟩, r)

/-- The layers from the last to the first, then the base carrier, up to the first that holds the
message back. -/
def acceptInbound (now : Float) (message : Message) (f : Flat β μ) (r : Registry) :
    Bool × Flat β μ × Registry :=
  match askAll (!·) true (Layer.acceptInbound now message) f.layers.reverse r with
  | (false, layers, r) => (false, { f with layers := layers.reverse }, r)
  | (true, layers, r) =>
    let (accepted, base) := Stage.acceptInbound message f.base
    (accepted, ⟨base, layers.reverse⟩, r)

def transformsInbound (f : Flat β μ) : Bool :=
  Stage.transformsInbound f.base || f.layers.any Layer.transformsInbound

def transformInbound (payload : Bytes) (f : Flat β μ) : Bytes × Flat β μ :=
  let (payload, base) := Stage.transformInbound payload f.base
  let (payload, layers) := passAll Layer.transformInbound payload f.layers
  (payload, ⟨base, layers⟩)

def acceptOutbound (payload : Bytes) (f : Flat β μ) : Bool × Flat β μ :=
  let ask (l : Layer μ) (u : Unit) := (l.acceptOutbound payload).map id (·, u)
  match askAll (!·) true ask f.layers.reverse () with
  | (false, layers, _) => (false, { f with layers := layers.reverse })
  | (true, layers, _) =>
    let (accepted, base) := Stage.acceptOutbound payload f.base
    (accepted, ⟨base, layers.reverse⟩)

def transformsOutbound (f : Flat β μ) : Bool :=
  Stage.transformsOutbound f.base || f.layers.any Layer.transformsOutbound

def transformOutbound (payload : Bytes) (f : Flat β μ) : Bytes × Flat β μ :=
  let (payload, layers) := passAll Layer.transformOutbound payload f.layers.reverse
  let (payload, base) := Stage.transformOutbound payload f.base
  (payload, ⟨base, layers.reverse⟩)

def writeFrame (payload written : Bytes) (f : Flat β μ) : Except CarrierError Bytes × Flat β μ :=
  let (frame, base) := Transport.frame payload f.base
  (frame.map (written ++ ·), { f with base })

def readFrame (frame : Bytes) (f : Flat β μ) : Except CarrierError Bytes × Flat β μ :=
  let (payload, base) := Transport.unframe frame f.base
  (payload, { f with base })

def perform (f : Flat β μ) (r : Registry) : Call → Reply × Flat β μ × Registry
  | .flags => (.flags f.flags, f, r)
  | .configure route => (f.configure route r).map .configured id
  | .acceptInbound now message => (f.acceptInbound now message r).map .decision id
  | .transformsInbound => (.decision f.transformsInbound, f, r)
  | .transformInbound payload => (f.transformInbound payload).map .payload (·, r)
  | .acceptOutbound payload => (f.acceptOutbound payload).map .decision (·, r)
  | .transformsOutbound => (.decision f.transformsOutbound, f, r)
  | .transformOutbound payload => (f.transformOutbound payload).map .payload (·, r)
  | .writeFrame payload written => (f.writeFrame payload written).map .frame (·, r)
  | .readFrame frame => (f.readFrame frame).map .frame (·, r)

def run (f : Flat β μ) (r : Registry) : List Call → List Reply × Flat β μ × Registry
  | [] => ([], f, r)
  | call :: calls =>
    let (reply, f, r) := f.perform r call
    (f.run r calls).map (reply :: ·) id

end Flat

/-! ## Nesting and flattening -/

namespace Flat

omit [Transport β] [Stage μ] [Exponential] in
theorem nest_concat (b : Base β) (layers : List (Layer μ)) (outer : Layer μ) :
    (Flat.mk b (layers ++ [outer])).nest = .wrap outer (Flat.mk b layers).nest := by
  simp only [nest, List.foldl_append, List.foldl_cons, List.foldl_nil]

end Flat

namespace Chain

omit [Transport β] [Stage μ] [Exponential]

def flat (chain : Chain β μ) : Flat β μ :=
  ⟨chain.bottom, chain.layers⟩

theorem nest_flat (chain : Chain β μ) : chain.flat.nest = chain := by
  induction chain with
  | base b => rfl
  | wrap outer inner ih =>
      show (Flat.mk inner.bottom (inner.layers ++ [outer])).nest = _
      rw [Flat.nest_concat]
      exact congrArg (Chain.wrap outer) ih

theorem flat_nest (f : Flat β μ) : f.nest.flat = f := by
  obtain ⟨b, layers⟩ := f
  induction layers using List.reverseRecOn with
  | nil => rfl
  | append_singleton layers outer ih =>
      rw [Flat.nest_concat]
      have hbottom : (Flat.mk b layers).nest.bottom = b := congrArg Flat.base ih
      have hlayers : (Flat.mk b layers).nest.layers = layers := congrArg Flat.layers ih
      rw [flat, bottom, Chain.layers, hbottom, hlayers]

end Chain

/-! ## One more layer

What a call on a list does when a layer is added to it, outermost. -/

namespace Flat

section

variable (b : Base β) (layers : List (Layer μ)) (outer : Layer μ)

omit [Exponential] in
theorem configure_concat (route : Route) (r : Registry) :
    (Flat.mk b (layers ++ [outer])).configure route r =
      match (Flat.mk b layers).configure route r with
      | (.error e, f, r) => (.error e, { f with layers := f.layers ++ [outer] }, r)
      | (.ok (), f, r) =>
        match outer.configure route r with
        | (result, outer, r) => (result, { f with layers := f.layers ++ [outer] }, r) := by
  have hidle : refused (.ok ()) = false := rfl
  rcases hb : Stage.configure route b with ⟨_ | _, b'⟩
  · simp only [configure, hb]
  · rcases hlayers : askAll refused (.ok ()) (Layer.configure route) layers r with ⟨_ | _, ls, r'⟩
    · simp only [configure, hb, askAll_concat hidle, hlayers, refused, if_true]
    · rcases houter : outer.configure route r' with ⟨_ | _, o, r''⟩ <;>
        simp [configure, hb, askAll_concat hidle, hlayers, houter, refused, askAll]

theorem acceptInbound_concat (now : Float) (message : Message) (r : Registry) :
    (Flat.mk b (layers ++ [outer])).acceptInbound now message r =
      match outer.acceptInbound now message r with
      | (false, outer, r) => (false, ⟨b, layers ++ [outer]⟩, r)
      | (true, outer, r) =>
        match (Flat.mk b layers).acceptInbound now message r with
        | (accepted, f, r) => (accepted, { f with layers := f.layers ++ [outer] }, r) := by
  rcases houter : outer.acceptInbound now message r with ⟨_ | _, o, r'⟩
  · simp [acceptInbound, askAll, houter]
  · rcases hlayers : askAll (!·) true (Layer.acceptInbound now message) layers.reverse r'
      with ⟨_ | _, ls, r''⟩ <;>
      simp [acceptInbound, askAll, houter, hlayers]

omit [Exponential] in
theorem acceptOutbound_concat (payload : Bytes) :
    (Flat.mk b (layers ++ [outer])).acceptOutbound payload =
      match outer.acceptOutbound payload with
      | (false, outer) => (false, ⟨b, layers ++ [outer]⟩)
      | (true, outer) =>
        match (Flat.mk b layers).acceptOutbound payload with
        | (accepted, f) => (accepted, { f with layers := f.layers ++ [outer] }) := by
  rcases houter : outer.acceptOutbound payload with ⟨_ | _, o⟩
  · simp [acceptOutbound, askAll, houter]
  · rcases hlayers : askAll (!·) true
        (fun (l : Layer μ) (u : Unit) => (l.acceptOutbound payload).map id (·, u)) layers.reverse ()
      with ⟨_ | _, ls, u⟩ <;>
      simp [acceptOutbound, askAll, houter, hlayers]

omit [Exponential] in
theorem transformInbound_concat (payload : Bytes) :
    (Flat.mk b (layers ++ [outer])).transformInbound payload =
      match (Flat.mk b layers).transformInbound payload with
      | (payload, f) =>
        match outer.transformInbound payload with
        | (payload, outer) => (payload, { f with layers := f.layers ++ [outer] }) := by
  simp only [transformInbound, passAll_concat]

omit [Exponential] in
theorem transformOutbound_concat (payload : Bytes) :
    (Flat.mk b (layers ++ [outer])).transformOutbound payload =
      match outer.transformOutbound payload with
      | (payload, outer) =>
        match (Flat.mk b layers).transformOutbound payload with
        | (payload, f) => (payload, { f with layers := f.layers ++ [outer] }) := by
  simp only [transformOutbound, List.reverse_append, List.reverse_cons, List.reverse_nil,
    List.nil_append, List.cons_append, passAll]

end

/-! ## Every call -/

variable (f : Flat β μ)

omit [Exponential]

omit [Stage μ] in
theorem nest_flags : f.nest.flags = f.flags := by
  obtain ⟨b, layers⟩ := f
  induction layers using List.reverseRecOn with
  | nil => rfl
  | append_singleton layers outer ih =>
      rw [nest_concat, Chain.flags, ih]
      cases layers <;> simp [flags]

theorem nest_configure (route : Route) (r : Registry) :
    f.nest.configure route r = (f.configure route r).map id (Prod.map nest id) := by
  obtain ⟨b, layers⟩ := f
  induction layers using List.reverseRecOn with
  | nil =>
      rcases hb : Stage.configure route b with ⟨_ | _, b'⟩ <;>
        simp [nest, Chain.configure, configure, hb, askAll]
  | append_singleton layers outer ih =>
      rw [nest_concat, Chain.configure, ih, configure_concat]
      rcases (Flat.mk b layers).configure route r with ⟨_ | _, f, r'⟩
      · simp [nest_concat]
      · simp [nest_concat]

theorem nest_acceptInbound [Exponential] (now : Float) (message : Message) (r : Registry) :
    f.nest.acceptInbound now message r =
      (f.acceptInbound now message r).map id (Prod.map nest id) := by
  obtain ⟨b, layers⟩ := f
  induction layers using List.reverseRecOn generalizing r with
  | nil => rfl
  | append_singleton layers outer ih =>
      rw [nest_concat, Chain.acceptInbound, acceptInbound_concat]
      rcases outer.acceptInbound now message r with ⟨_ | _, o, r'⟩
      · simp [nest_concat]
      · simp [ih, nest_concat]

theorem nest_transformsInbound : f.nest.transformsInbound = f.transformsInbound := by
  obtain ⟨b, layers⟩ := f
  induction layers using List.reverseRecOn with
  | nil => simp [nest, Chain.transformsInbound, transformsInbound]
  | append_singleton layers outer ih =>
      rw [nest_concat, Chain.transformsInbound, ih]
      simp [transformsInbound, Bool.or_comm, Bool.or_left_comm, Bool.or_assoc]

theorem nest_transformInbound (payload : Bytes) :
    f.nest.transformInbound payload = (f.transformInbound payload).map id nest := by
  obtain ⟨b, layers⟩ := f
  induction layers using List.reverseRecOn generalizing payload with
  | nil => rfl
  | append_singleton layers outer ih =>
      rw [nest_concat, Chain.transformInbound, ih, transformInbound_concat]
      simp [nest_concat]

theorem nest_acceptOutbound (payload : Bytes) :
    f.nest.acceptOutbound payload = (f.acceptOutbound payload).map id nest := by
  obtain ⟨b, layers⟩ := f
  induction layers using List.reverseRecOn with
  | nil => rfl
  | append_singleton layers outer ih =>
      rw [nest_concat, Chain.acceptOutbound, ih, acceptOutbound_concat]
      rcases outer.acceptOutbound payload with ⟨_ | _, o⟩
      · simp [nest_concat]
      · simp [nest_concat]

theorem nest_transformsOutbound : f.nest.transformsOutbound = f.transformsOutbound := by
  obtain ⟨b, layers⟩ := f
  induction layers using List.reverseRecOn with
  | nil => simp [nest, Chain.transformsOutbound, transformsOutbound]
  | append_singleton layers outer ih =>
      rw [nest_concat, Chain.transformsOutbound, ih]
      simp [transformsOutbound, Bool.or_comm, Bool.or_left_comm, Bool.or_assoc]

theorem nest_transformOutbound (payload : Bytes) :
    f.nest.transformOutbound payload = (f.transformOutbound payload).map id nest := by
  obtain ⟨b, layers⟩ := f
  induction layers using List.reverseRecOn generalizing payload with
  | nil => rfl
  | append_singleton layers outer ih =>
      rw [nest_concat, Chain.transformOutbound, transformOutbound_concat]
      simp [ih, nest_concat]

omit [Stage μ] in
theorem nest_writeFrame (payload written : Bytes) :
    f.nest.writeFrame payload written = (f.writeFrame payload written).map id nest := by
  obtain ⟨b, layers⟩ := f
  induction layers using List.reverseRecOn with
  | nil => rfl
  | append_singleton layers outer ih =>
      rw [nest_concat, Chain.writeFrame, ih]
      simp [writeFrame, nest_concat]

omit [Stage μ] in
theorem nest_readFrame (frame : Bytes) :
    f.nest.readFrame frame = (f.readFrame frame).map id nest := by
  obtain ⟨b, layers⟩ := f
  induction layers using List.reverseRecOn with
  | nil => rfl
  | append_singleton layers outer ih =>
      rw [nest_concat, Chain.readFrame, ih]
      simp [readFrame, nest_concat]

variable [Exponential]

theorem nest_perform (r : Registry) (call : Call) :
    f.nest.perform r call = (f.perform r call).map id (Prod.map nest id) := by
  cases call with
  | flags =>
      rw [Chain.perform, nest_flags]
      rfl
  | configure route =>
      rw [Chain.perform, nest_configure]
      rfl
  | acceptInbound now message =>
      rw [Chain.perform, nest_acceptInbound]
      rfl
  | transformsInbound =>
      rw [Chain.perform, nest_transformsInbound]
      rfl
  | transformInbound payload =>
      rw [Chain.perform, nest_transformInbound]
      rfl
  | acceptOutbound payload =>
      rw [Chain.perform, nest_acceptOutbound]
      rfl
  | transformsOutbound =>
      rw [Chain.perform, nest_transformsOutbound]
      rfl
  | transformOutbound payload =>
      rw [Chain.perform, nest_transformOutbound]
      rfl
  | writeFrame payload written =>
      rw [Chain.perform, nest_writeFrame]
      rfl
  | readFrame frame =>
      rw [Chain.perform, nest_readFrame]
      rfl

theorem nest_run (r : Registry) (calls : List Call) :
    f.nest.run r calls = (f.run r calls).map id (Prod.map nest id) := by
  induction calls generalizing f r with
  | nil => rfl
  | cons call calls ih =>
      rw [Chain.run, run, nest_perform]
      dsimp only [Prod.map]
      rw [ih]
      rfl

end Flat

/-! ## Chains that a catalog builds -/

namespace Catalog

omit [Transport β] [Exponential] in
theorem wrapAll_eq_ok_iff (c : Catalog β μ) (chain chain' : Chain β μ) (names : List String) :
    c.wrapAll chain names = .ok chain' ↔
      ∃ prototypes : List (Layer μ), names.map c.modifier? = prototypes.map some ∧
        chain' =
          (prototypes.map Layer.fresh).foldl (fun inner outer => .wrap outer inner) chain := by
  induction names generalizing chain with
  | nil =>
      constructor
      · rintro ⟨⟩
        exact ⟨[], rfl, rfl⟩
      · rintro ⟨prototypes, hnames, rfl⟩
        obtain rfl : prototypes = [] := by simpa using hnames.symm
        rfl
  | cons name names ih =>
      rw [wrapAll]
      cases hname : c.modifier? name with
      | none =>
          refine ⟨nofun, ?_⟩
          rintro ⟨_ | ⟨prototype, prototypes⟩, hnames, -⟩
          · cases hnames
          · simp [hname] at hnames
      | some prototype =>
          dsimp only
          rw [ih]
          constructor
          · rintro ⟨prototypes, hnames, rfl⟩
            exact ⟨prototype :: prototypes, by simp [hname, hnames], rfl⟩
          · rintro ⟨_ | ⟨first, prototypes⟩, hnames, rfl⟩
            · cases hnames
            · obtain ⟨rfl, hrest⟩ :
                  prototype = first ∧ names.map c.modifier? = prototypes.map some := by
                simpa [hname] using hnames
              exact ⟨prototypes, hrest, rfl⟩

/-- A chain that a catalog builds is the flat list of its stages. It has new instances of the base
carrier and of the modifiers that the specification names, each around those named before it, and
whatever is called on it, one call after another, it answers as the list does, with the same states
of all stages and the same registry afterwards. -/
theorem build_flat (c : Catalog β μ) (carrier : String) (side : Direction) :
    (∀ chain, c.build carrier side = .ok chain ↔
      (Spec.parse carrier).base ≠ "" ∧
        ∃ (b : Base β) (prototypes : List (Layer μ)),
          c.carrier? (Spec.parse carrier).base = some b ∧
          ((Spec.parse carrier).modifiers side).map c.modifier? = prototypes.map some ∧
          chain = Flat.nest ⟨Stage.fresh b, prototypes.map Layer.fresh⟩) ∧
    ∀ (f : Flat β μ) (r : Registry) (calls : List Call),
      f.nest.run r calls =
        ((f.run r calls).1, (f.run r calls).2.1.nest, (f.run r calls).2.2) := by
  refine ⟨fun chain => ?_, fun f r calls => f.nest_run r calls⟩
  simp only [build]
  split
  · next hempty => simp [hempty]
  · next hne =>
      cases hcarrier : c.carrier? (Spec.parse carrier).base with
      | none => simp
      | some b => simp [wrapAll_eq_ok_iff, hne, Flat.nest]

end Catalog

end PortArbiter
