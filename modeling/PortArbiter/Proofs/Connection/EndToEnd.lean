import PortArbiter.Proofs.Carrier.Codec
import PortArbiter.Proofs.Connection.Install
/-!
# From one end to the other

A frame that one side of a route encodes is readable on the other side, and what is let through
there is the payload that was sent, however many codecs the two sides are woven from and whatever
went over the connections before.
-/

namespace PortArbiter

variable {β μ : Type} [Transport β] [Stage μ]

/-! ## Connections in use -/

/-- The sending sides of a route that can be come across, from setting up on. -/
inductive Outbound.Reached (c : Catalog β μ) (route : Route) : Outbound β μ → Prop where
  | connect {r r' : Registry} {o : Outbound β μ}
      (h : Outbound.connect c route r = (.ok o, r')) : Reached c route o
  | encode {o : Outbound β μ} (payload : Bytes) (h : Reached c route o) :
      Reached c route (o.encode payload).2

/-- The receiving sides of a route that can be come across, from setting up on, the closed ones
included. -/
inductive Inbound.Reached [Exponential] (c : Catalog β μ) (route : Route) : Inbound β μ → Prop where
  | connect {r r' : Registry} {i : Inbound β μ}
      (h : Inbound.connect c route r = (.ok i, r')) : Reached c route i
  | deliver {i : Inbound β μ} (now : Float) (payload : Bytes) (r : Registry)
      (h : Reached c route i) : Reached c route (i.deliver now payload r).2.1
  | receiveFrame {i : Inbound β μ} (now : Float) (frame : Bytes) (r : Registry)
      (h : Reached c route i) : Reached c route (i.receiveFrame now frame r).2.1
  | close {i : Inbound β μ} (r : Registry) (h : Reached c route i) :
      Reached c route (i.close r).1

/-- Two ends of one carrier: built-in transports, and around them the same modifiers in the same
order, which both ends know by the same names. -/
structure Route.Facing (c c' : Catalog β μ) (route route' : Route) : Prop where
  sender : ∃ t, c.carrier? route.spec.base = some (.lengthPrefixed t)
  receiver : ∃ t, c'.carrier? route'.spec.base = some (.lengthPrefixed t)
  names : route.spec.modifiers .send = route'.spec.modifiers .recv
  prototypes : ∀ name ∈ route.spec.modifiers .send, c'.modifier? name = c.modifier? name

def Catalog.Wove (c : Catalog β μ) (route : Route) (side : Direction) (chain : Chain β μ) : Prop :=
  ∃ prototypes : List (Layer μ),
    (route.spec.modifiers side).map c.modifier? = prototypes.map some ∧
      chain.Woven prototypes.reverse

theorem Catalog.wove_of_install {c : Catalog β μ} {side : Direction} {route : Route}
    {r r' : Registry} {chain : Chain β μ} {t : LengthPrefixed}
    (hbase : c.carrier? route.spec.base = some (.lengthPrefixed t))
    (h : c.install side route r = (.ok chain, r')) : c.Wove route side chain := by
  cases installing h with
  | done hbuilt hconfigured =>
      obtain ⟨prototypes, hnames, hwoven⟩ := c.woven_of_build hbase hbuilt
      have hconfigure := hwoven.configure route r
      rw [hconfigured] at hconfigure
      exact ⟨prototypes, hnames, hconfigure⟩

section

variable {c : Catalog β μ} {route : Route} {t : LengthPrefixed}

theorem Outbound.Reached.wove (hbase : c.carrier? route.spec.base = some (.lengthPrefixed t))
    {o : Outbound β μ} (h : o.Reached c route) : c.Wove route .send o.chain := by
  induction h with
  | @connect r r' o h =>
      unfold Outbound.connect at h
      cases hinstall : c.install .send route r with
      | mk result r'' =>
          rw [hinstall] at h
          cases result with
          | error e => cases h
          | ok chain =>
              obtain rfl := Except.ok.inj (congrArg Prod.fst h)
              exact c.wove_of_install hbase hinstall
  | @encode o payload _ ih =>
      obtain ⟨prototypes, hnames, hwoven⟩ := ih
      refine ⟨prototypes, hnames, ?_⟩
      have hasked := hwoven.acceptOutbound payload
      rw [Outbound.encode]
      generalize o.chain.acceptOutbound payload = asked at hasked
      obtain ⟨accepted, chain⟩ := asked
      cases accepted with
      | false => exact hasked
      | true =>
          have htransformed : (if chain.transformsOutbound then chain.transformOutbound payload
              else (payload, chain)).2.Woven prototypes.reverse := by
            split
            · exact hasked.transformOutbound payload
            · exact hasked
          obtain ⟨t', hbottom⟩ := htransformed.bottom
          dsimp only
          rw [Chain.writeFrame_of_bottom hbottom]
          exact htransformed

variable [Exponential]

theorem Catalog.Wove.deliver {i : Inbound β μ}
    (h : ∀ chain, i.chain? = some chain → c.Wove route .recv chain) (now : Float) (payload : Bytes)
    (r : Registry) :
    ∀ chain, (i.deliver now payload r).2.1.chain? = some chain → c.Wove route .recv chain := by
  rw [Inbound.deliver]
  cases hchain : i.chain? with
  | none => exact nofun
  | some chain =>
      obtain ⟨prototypes, hnames, hwoven⟩ := h chain hchain
      have hasked := hwoven.acceptInbound now ⟨i.route, payload⟩ r
      dsimp only
      generalize chain.acceptInbound now ⟨i.route, payload⟩ r = asked at hasked
      obtain ⟨accepted, chain', r'⟩ := asked
      cases accepted with
      | false =>
          rintro _ ⟨⟩
          exact ⟨prototypes, hnames, hasked⟩
      | true =>
          rintro _ ⟨⟩
          refine ⟨prototypes, hnames, ?_⟩
          split
          · exact hasked.transformInbound payload
          · exact hasked

theorem Inbound.Reached.wove (hbase : c.carrier? route.spec.base = some (.lengthPrefixed t))
    {i : Inbound β μ} (h : i.Reached c route) :
    ∀ chain, i.chain? = some chain → c.Wove route .recv chain := by
  induction h with
  | @connect r r' i h =>
      unfold Inbound.connect at h
      cases hinstall : c.install .recv route r with
      | mk result r'' =>
          rw [hinstall] at h
          cases result with
          | error e => cases h
          | ok chain =>
              obtain rfl := Except.ok.inj (congrArg Prod.fst h)
              rintro _ ⟨⟩
              exact c.wove_of_install hbase hinstall
  | deliver now payload r _ ih => exact Catalog.Wove.deliver ih now payload r
  | @receiveFrame i now frame r _ ih =>
      rw [Inbound.receiveFrame]
      cases hchain : i.chain? with
      | none => exact nofun
      | some chain =>
          obtain ⟨prototypes, hnames, hwoven⟩ := ih chain hchain
          obtain ⟨t', hbottom⟩ := hwoven.bottom
          have hread : ∀ chain', some chain = some chain' → c.Wove route .recv chain' := by
            rintro _ ⟨⟩
            exact ⟨prototypes, hnames, hwoven⟩
          dsimp only
          rw [Chain.readFrame_of_bottom hbottom]
          cases LengthPrefixed.unframe frame with
          | error e => exact hread
          | ok payload =>
              exact Catalog.Wove.deliver (i := { i with chain? := some chain }) hread now payload r
  | @close i r _ ih =>
      rw [Inbound.close]
      cases hchain : i.chain? with
      | none => exact fun chain h => absurd (hchain.symm.trans h) nofun
      | some chain => nofun

end

/-! ## Frames -/

theorem Outbound.of_encode {prototypes : List (Layer μ)} {o : Outbound β μ}
    (hwoven : o.chain.Woven prototypes) (hcodec : ∀ l ∈ prototypes, l.Codec) {payload frame : Bytes}
    (h : (o.encode payload).1 = .ok (some frame)) :
    ∃ sender : Chain β μ, sender.Woven prototypes ∧
      LengthPrefixed.unframe frame = .ok (sender.transformOutbound payload).1 := by
  have hasked := hwoven.acceptOutbound payload
  rw [Outbound.encode] at h
  generalize o.chain.acceptOutbound payload = asked at hasked h
  obtain ⟨accepted, sender⟩ := asked
  cases accepted with
  | false => cases h
  | true =>
      have htransformed : ∃ sender', sender'.Woven prototypes ∧
          (if sender.transformsOutbound then sender.transformOutbound payload
            else (payload, sender)) = ((sender.transformOutbound payload).1, sender') := by
        split
        · exact ⟨_, hasked.transformOutbound payload, rfl⟩
        · rename_i hquiet
          rw [hasked.quiet_outbound hcodec (eq_false_of_ne_true hquiet)]
          exact ⟨sender, hasked, rfl⟩
      obtain ⟨sender', hwoven', hwire⟩ := htransformed
      obtain ⟨t, hbottom⟩ := hwoven'.bottom
      dsimp only at h
      rw [hwire] at h
      dsimp only at h
      rw [Chain.writeFrame_of_bottom hbottom] at h
      refine ⟨sender, hasked, ?_⟩
      cases hframe : LengthPrefixed.frame (sender.transformOutbound payload).1 with
      | error e =>
          rw [hframe] at h
          cases h
      | ok frame' =>
          rw [hframe] at h
          obtain rfl : frame' = frame := Option.some.inj (Except.ok.inj h)
          exact LengthPrefixed.unframe_of_frame hframe

theorem Inbound.receiveFrame_of_unframe [Exponential] {prototypes : List (Layer μ)}
    {i : Inbound β μ} {receiver : Chain β μ} (hopen : i.chain? = some receiver)
    (hwoven : receiver.Woven prototypes) (hcodec : ∀ l ∈ prototypes, l.Codec) {frame wire : Bytes}
    (hframe : LengthPrefixed.unframe frame = .ok wire) (now : Float) (r : Registry) :
    (i.receiveFrame now frame r).1 =
      .ok (if (receiver.acceptInbound now ⟨i.route, wire⟩ r).1 then
        some ((receiver.acceptInbound now ⟨i.route, wire⟩ r).2.1.transformInbound wire).1
      else none) := by
  obtain ⟨t, hbottom⟩ := hwoven.bottom
  have hasked := hwoven.acceptInbound now ⟨i.route, wire⟩ r
  have hread : receiver.readFrame frame = (.ok wire, receiver) := by
    rw [Chain.readFrame_of_bottom hbottom, hframe]
    rfl
  rw [Inbound.receiveFrame, hopen]
  dsimp only
  rw [hread]
  simp only [Inbound.deliver]
  generalize receiver.acceptInbound now ⟨i.route, wire⟩ r = asked at hasked
  obtain ⟨accepted, receiver', r'⟩ := asked
  cases accepted with
  | false => rfl
  | true =>
      by_cases hquiet : receiver'.transformsInbound = true
      · simp only [hquiet, if_true]
      · simp only [hquiet, if_true]
        rw [hasked.quiet_inbound hcodec (eq_false_of_ne_true hquiet)]
        rfl

/-- From one end to the other: with one list of codecs on both sides of length-prefixed transports,
every frame that is encoded can be read, and if the receiving side lets the message through then
what it hands over is the payload that was sent. A payload too long for its length to be written
down is not encoded in the first place. -/
theorem Inbound.receiveFrame_of_encode [Exponential] {c c' : Catalog β μ} {route route' : Route}
    (hfacing : route.Facing c c' route')
    (hcodec : ∀ name ∈ route.spec.modifiers .send, ∀ l ∈ c.modifier? name, l.Codec)
    {o : Outbound β μ} (ho : o.Reached c route) {i : Inbound β μ} (hi : i.Reached c' route')
    {receiver : Chain β μ} (hopen : i.chain? = some receiver) {payload frame : Bytes}
    (hencode : (o.encode payload).1 = .ok (some frame)) (now : Float) (r : Registry) :
    ∃ wire, (receiver.readFrame frame).1 = .ok wire ∧
      (i.receiveFrame now frame r).1 =
        .ok (if (receiver.acceptInbound now ⟨i.route, wire⟩ r).1 then some payload else none) := by
  obtain ⟨t, hbase⟩ := hfacing.sender
  obtain ⟨t', hbase'⟩ := hfacing.receiver
  obtain ⟨prototypes, hprototypes, hsending⟩ := ho.wove hbase
  obtain ⟨prototypes', hprototypes', hreceiving⟩ := hi.wove hbase' receiver hopen
  have hsame : prototypes'.map some = prototypes.map some := by
    rw [← hprototypes', ← hfacing.names, List.map_congr_left hfacing.prototypes, hprototypes]
  obtain rfl : prototypes' = prototypes := (List.map_inj_right fun _ _ => Option.some.inj).1 hsame
  have hcodecs : ∀ l ∈ prototypes'.reverse, l.Codec := by
    intro l hl
    have hmem : some l ∈ (route.spec.modifiers .send).map c.modifier? := by
      rw [hprototypes]
      exact List.mem_map_of_mem (List.mem_reverse.1 hl)
    obtain ⟨name, hname, hprototype⟩ := List.mem_map.1 hmem
    exact hcodec name hname l hprototype
  obtain ⟨sender, hsender, hframe⟩ := Outbound.of_encode hsending hcodecs hencode
  obtain ⟨t'', hbottom⟩ := hreceiving.bottom
  refine ⟨(sender.transformOutbound payload).1, ?_, ?_⟩
  · rw [Chain.readFrame_of_bottom hbottom, hframe]
    rfl
  · rw [Inbound.receiveFrame_of_unframe hopen hreceiving hcodecs hframe now r,
      hsender.inverse (hreceiving.acceptInbound now _ r) hcodecs]

/-! ## Two codecs that do not commute -/

/-- A mask over every byte, and a number in front of every payload. -/
inductive Cipher where
  | mask (key : UInt8)
  | count (sent : UInt8)

instance : Stage Cipher where
  name
    | .mask _ => "mask"
    | .count _ => "count"
  fresh
    | .mask key => .mask key
    | .count _ => .count 0
  transformsInbound _ := true
  transformInbound payload
    | .mask key => (payload.map (· ^^^ key), .mask key)
    | .count n => (payload.tail, .count n)
  transformsOutbound _ := true
  transformOutbound payload
    | .mask key => (payload.map (· ^^^ key), .mask key)
    | .count n => (n :: payload, .count (n + 1))

namespace Cipher

theorem eq_mask_of_descends {key : UInt8} {s : Cipher} (h : Stage.Descends (.mask key) s) :
    s = .mask key := by
  induction h with
  | fresh => rfl
  | configure _ _ ih | acceptInbound _ _ ih | acceptOutbound _ _ ih => exact ih
  | transformInbound _ _ ih | transformOutbound _ _ ih => rw [ih]; rfl

theorem eq_count_of_descends {n : UInt8} {s : Cipher} (h : Stage.Descends (.count n) s) :
    ∃ k, s = .count k := by
  induction h with
  | fresh => exact ⟨0, rfl⟩
  | configure _ _ ih | acceptInbound _ _ ih | acceptOutbound _ _ ih => exact ih
  | transformInbound _ _ ih =>
      obtain ⟨k, rfl⟩ := ih
      exact ⟨k, rfl⟩
  | transformOutbound _ _ ih =>
      obtain ⟨k, rfl⟩ := ih
      exact ⟨k + 1, rfl⟩

theorem codec_mask (key : UInt8) : Stage.Codec (mask key) where
  inverse := by
    intro sender receiver hsender hreceiver payload
    rw [eq_mask_of_descends hsender, eq_mask_of_descends hreceiver]
    show (payload.map (· ^^^ key)).map (· ^^^ key) = payload
    rw [List.map_map]
    have hundo : ((· ^^^ key) ∘ (· ^^^ key) : UInt8 → UInt8) = id := by
      funext b
      rw [Function.comp_apply, UInt8.xor_assoc, UInt8.xor_self, UInt8.xor_zero, id]
    rw [hundo, List.map_id]
  quiet_inbound _ hquiet := nomatch hquiet
  quiet_outbound _ hquiet := nomatch hquiet

theorem codec_count (n : UInt8) : Stage.Codec (count n) where
  inverse := by
    intro sender receiver hsender hreceiver payload
    obtain ⟨k, rfl⟩ := eq_count_of_descends hsender
    obtain ⟨k', rfl⟩ := eq_count_of_descends hreceiver
    rfl
  quiet_inbound _ hquiet := nomatch hquiet
  quiet_outbound _ hquiet := nomatch hquiet

def catalog : Catalog Empty Cipher :=
  (Catalog.standard.addModifier (.custom (.mask 0x5a))).addModifier (.custom (.count 7))

def route : Route :=
  ⟨"/a:o", "/b:i", "tcp+send.mask+send.count+recv.mask+recv.count"⟩

def chain : Chain Empty Cipher :=
  .wrap (.custom (.count 0))
    (.wrap (.custom (.mask 0x5a)) (.base (.lengthPrefixed (.stream "tcp"))))

end Cipher

/-- The second message of a connection, with its number in front and masked as a whole. -/
theorem Inbound.receiveFrame_of_encode_ciphers :
    letI : Exponential := ⟨fun _ => 0⟩
    let sender : Outbound Empty Cipher := (Outbound.encode ⟨Cipher.route, Cipher.chain⟩ [9]).2
    let receiver : Inbound Empty Cipher := { route := Cipher.route, chain? := some Cipher.chain }
    Cipher.route.Facing Cipher.catalog Cipher.catalog Cipher.route ∧
      sender.Reached Cipher.catalog Cipher.route ∧ receiver.Reached Cipher.catalog Cipher.route ∧
      (sender.encode [1, 2]).1 = .ok (some [0, 0, 0, 3, 0x5b, 0x5b, 0x58]) ∧
      (receiver.receiveFrame 0 [0, 0, 0, 3, 0x5b, 0x5b, 0x58] {}).1 = .ok (some [1, 2]) := by
  let _ : Exponential := ⟨fun _ => 0⟩
  intro sender receiver
  have hnames : Cipher.route.spec.modifiers .send = ["mask", "count"] := by decide +kernel
  have hfacing : Cipher.route.Facing Cipher.catalog Cipher.catalog Cipher.route :=
    ⟨⟨_, rfl⟩, ⟨_, rfl⟩, by decide +kernel, fun _ _ => rfl⟩
  have hsending : Outbound.connect Cipher.catalog Cipher.route {} =
      (.ok ⟨Cipher.route, Cipher.chain⟩, {}) := rfl
  have hreceiving : Inbound.connect Cipher.catalog Cipher.route {} = (.ok receiver, {}) := rfl
  have hsender : sender.Reached Cipher.catalog Cipher.route := .encode [9] (.connect hsending)
  have hreceiver : receiver.Reached Cipher.catalog Cipher.route := .connect hreceiving
  have hencode : (sender.encode [1, 2]).1 = .ok (some [0, 0, 0, 3, 0x5b, 0x5b, 0x58]) := rfl
  have hcodec : ∀ name ∈ Cipher.route.spec.modifiers .send,
      ∀ l ∈ Cipher.catalog.modifier? name, l.Codec := by
    rw [hnames]
    intro name hname l hl
    simp only [List.mem_cons, List.not_mem_nil, or_false] at hname
    rcases hname with rfl | rfl
    · obtain rfl : Layer.custom (.mask 0x5a) = l := Option.some.inj hl
      exact Cipher.codec_mask 0x5a
    · obtain rfl : Layer.custom (.count 7) = l := Option.some.inj hl
      exact Cipher.codec_count 7
  obtain ⟨wire, _, hreceived⟩ :=
    receiveFrame_of_encode hfacing hcodec hsender hreceiver rfl hencode 0 {}
  exact ⟨hfacing, hsender, hreceiver, hencode, hreceived⟩

end PortArbiter
