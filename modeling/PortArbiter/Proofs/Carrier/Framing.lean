import PortArbiter.Carrier.Catalog
/-!
# Frames of built-in transports

A frame announces the length of its payload in four bytes, so the payload of a frame is read back
from it, and nothing is read from bytes that are not exactly one frame. The layers of a chain add
nothing to a frame and take nothing away.
-/

namespace PortArbiter

namespace LengthPrefixed

theorem announced_header {size : Nat} (h : size < 0x100000000) :
    announced (UInt8.ofNat (size / 0x1000000)) (UInt8.ofNat (size / 0x10000))
      (UInt8.ofNat (size / 0x100)) (UInt8.ofNat size) = size := by
  simp only [announced, UInt8.toNat_ofNat']
  omega

theorem unframe_of_frame {payload frame : Bytes} (h : LengthPrefixed.frame payload = .ok frame) :
    unframe frame = .ok payload := by
  unfold LengthPrefixed.frame at h
  split at h
  · rename_i hsize
    obtain rfl := Except.ok.inj h
    have hannounced := announced_header hsize
    rw [header]
    simp only [List.cons_append, List.nil_append, unframe, hannounced, if_true]
  · cases h

/-! ## Exactly one frame -/

/-- The number that some bytes spell, the most significant one first. -/
def bigEndian (bytes : Bytes) : Nat :=
  bytes.foldl (fun n b => 0x100 * n + b.toNat) 0

theorem bigEndian_header {size : Nat} (h : size < 0x100000000) :
    bigEndian (header size) = size := by
  simp only [bigEndian, header, List.foldl_cons, List.foldl_nil, UInt8.toNat_ofNat']
  omega

theorem announced_lt (b₃ b₂ b₁ b₀ : UInt8) : announced b₃ b₂ b₁ b₀ < 0x100000000 := by
  have h₃ := b₃.toNat_lt
  have h₂ := b₂.toNat_lt
  have h₁ := b₁.toNat_lt
  have h₀ := b₀.toNat_lt
  rw [announced]
  omega

/-- A length is written down in one way only. -/
theorem header_announced (b₃ b₂ b₁ b₀ : UInt8) :
    header (announced b₃ b₂ b₁ b₀) = [b₃, b₂, b₁, b₀] := by
  have h₃ := b₃.toNat_lt
  have h₂ := b₂.toNat_lt
  have h₁ := b₁.toNat_lt
  have h₀ := b₀.toNat_lt
  simp only [header, announced, List.cons.injEq, and_true, ← UInt8.toNat_inj, UInt8.toNat_ofNat']
  omega

theorem unframe_eq_ok_iff {frame payload : Bytes} :
    unframe frame = .ok payload ↔
      payload.length < 0x100000000 ∧ frame = header payload.length ++ payload := by
  constructor
  · intro h
    unfold unframe at h
    split at h
    · rename_i b₃ b₂ b₁ b₀ body
      dsimp only at h
      split at h
      · rename_i hlength
        obtain rfl := Except.ok.inj h
        rw [hlength, header_announced]
        exact ⟨announced_lt b₃ b₂ b₁ b₀, rfl⟩
      · cases h
    · cases h
  · rintro ⟨hlength, rfl⟩
    exact unframe_of_frame (if_pos hlength)

theorem exists_unframe_error_iff {frame : Bytes} :
    (∃ e, unframe frame = .error e) ↔
      ∀ payload : Bytes, payload.length < 0x100000000 →
        frame ≠ header payload.length ++ payload := by
  constructor
  · rintro ⟨e, he⟩ payload hlength hframe
    rw [unframe_eq_ok_iff.2 ⟨hlength, hframe⟩] at he
    cases he
  · intro h
    cases hread : unframe frame with
    | error e => exact ⟨e, rfl⟩
    | ok payload =>
        obtain ⟨hlength, hframe⟩ := unframe_eq_ok_iff.1 hread
        exact absurd hframe (h payload hlength)

/-- What is cut off behind a frame is missed. -/
theorem unframe_of_part {payload part : Bytes} (hlength : payload.length < 0x100000000)
    (hpart : part <+: header payload.length ++ payload)
    (hne : part ≠ header payload.length ++ payload) : ∃ e, unframe part = .error e := by
  cases hread : unframe part with
  | error e => exact ⟨e, rfl⟩
  | ok payload' =>
      obtain ⟨hlength', rfl⟩ := unframe_eq_ok_iff.1 hread
      obtain ⟨rest, hrest⟩ := hpart
      -- both headers are the first four bytes, so the two payloads are equally long
      rw [List.append_assoc] at hrest
      obtain ⟨hheader, hpayload⟩ := List.append_inj hrest rfl
      have hsame : payload'.length = payload.length := by
        rw [← bigEndian_header hlength', hheader, bigEndian_header hlength]
      have hwhole : payload' = payload :=
        List.IsPrefix.eq_of_length ⟨rest, hpayload⟩ hsame
      exact absurd (by rw [hwhole]) hne

theorem unframe_append (payload : Bytes) {extra : Bytes} (hlength : payload.length < 0x100000000)
    (hextra : extra ≠ []) :
    unframe (header payload.length ++ payload ++ extra) =
      .error (.mismatch payload.length (payload.length + extra.length)) := by
  have hannounced := announced_header hlength
  have hmore : 0 < extra.length := List.length_pos_iff.2 hextra
  have hlonger : ¬ payload.length + extra.length = payload.length := by omega
  rw [header]
  simp only [List.cons_append, List.nil_append, unframe, hannounced, List.length_append, hlonger,
    if_false]

end LengthPrefixed

namespace Chain

variable {β μ : Type} [Transport β]

theorem writeFrame_of_bottom {chain : Chain β μ} {t : LengthPrefixed}
    (h : chain.bottom = .lengthPrefixed t) (payload written : Bytes) :
    chain.writeFrame payload written =
      (((LengthPrefixed.frame payload).mapError .frame).map (written ++ ·), chain) := by
  induction chain with
  | base b =>
      obtain rfl : b = .lengthPrefixed t := h
      rfl
  | wrap outer inner ih =>
      rw [writeFrame, ih h]
      rfl

theorem readFrame_of_bottom {chain : Chain β μ} {t : LengthPrefixed}
    (h : chain.bottom = .lengthPrefixed t) (frame : Bytes) :
    chain.readFrame frame = ((LengthPrefixed.unframe frame).mapError .frame, chain) := by
  induction chain with
  | base b =>
      obtain rfl : b = .lengthPrefixed t := h
      rfl
  | wrap outer inner ih =>
      rw [readFrame, ih h]
      rfl

open LengthPrefixed (header bigEndian)

/-- Framing is exact, whatever layers there are around a built-in transport. A payload that is not
too long is written behind what is written already, after its length in four bytes. Exactly what is
so written for some payload is read, as that payload; so whatever was cut off, stands behind a
frame or is missing from it makes an error. -/
theorem frames_exact {chain : Chain β μ} {t : LengthPrefixed}
    (hbase : chain.bottom = .lengthPrefixed t) :
    (∀ size < 0x100000000, (header size).length = 4 ∧ bigEndian (header size) = size) ∧
    (∀ payload written : Bytes, payload.length < 0x100000000 →
      chain.writeFrame payload written =
        (.ok (written ++ (header payload.length ++ payload)), chain)) ∧
    (∀ frame, (chain.readFrame frame).2 = chain ∧
      ∀ payload, (chain.readFrame frame).1 = .ok payload ↔
        payload.length < 0x100000000 ∧ frame = header payload.length ++ payload) ∧
    (∀ frame payload, (chain.readFrame frame).1 = .ok payload →
      (chain.writeFrame payload []).1 = .ok frame) ∧
    ∀ frame payload, (chain.writeFrame payload []).1 = .ok frame →
      (chain.readFrame frame).1 = .ok payload ∧
      (∀ part, part <+: frame → part ≠ frame → ∃ e, (chain.readFrame part).1 = .error (.frame e)) ∧
      ∀ extra, extra ≠ [] → (chain.readFrame (frame ++ extra)).1 =
        .error (.frame (.mismatch payload.length (payload.length + extra.length))) := by
  have hwrite : ∀ payload written : Bytes, payload.length < 0x100000000 →
      chain.writeFrame payload written =
        (.ok (written ++ (header payload.length ++ payload)), chain) := by
    intro payload written hlength
    rw [writeFrame_of_bottom hbase, LengthPrefixed.frame, if_pos hlength]
    rfl
  have hread : ∀ frame payload, (chain.readFrame frame).1 = .ok payload ↔
      payload.length < 0x100000000 ∧ frame = header payload.length ++ payload := by
    intro frame payload
    rw [readFrame_of_bottom hbase, ← LengthPrefixed.unframe_eq_ok_iff]
    cases LengthPrefixed.unframe frame with
    | error e => constructor <;> intro h <;> cases h
    | ok payload' => constructor <;> intro h <;> exact congrArg Except.ok (Except.ok.inj h)
  refine ⟨fun size h => ⟨rfl, LengthPrefixed.bigEndian_header h⟩, hwrite,
    fun frame => ⟨by rw [readFrame_of_bottom hbase], hread frame⟩, ?_, ?_⟩
  · intro frame payload h
    obtain ⟨hlength, rfl⟩ := (hread frame payload).1 h
    rw [hwrite payload [] hlength]
    rfl
  · intro frame payload h
    obtain ⟨hlength, rfl⟩ : payload.length < 0x100000000 ∧
        frame = header payload.length ++ payload := by
      rw [writeFrame_of_bottom hbase, LengthPrefixed.frame] at h
      split at h
      · rename_i hlength
        exact ⟨hlength, (Except.ok.inj h).symm⟩
      · cases h
    refine ⟨(hread _ _).2 ⟨hlength, rfl⟩, fun part hpart hne => ?_, fun extra hextra => ?_⟩
    · obtain ⟨e, he⟩ := LengthPrefixed.unframe_of_part hlength hpart hne
      exact ⟨e, by rw [readFrame_of_bottom hbase, he]; rfl⟩
    · rw [readFrame_of_bottom hbase, LengthPrefixed.unframe_append payload hlength hextra]
      rfl

/-- A frame below two layers: behind other bytes, alone, without its payload, and with an empty
frame behind it. -/
theorem frames_exact_layered :
    let chain : Chain Empty Empty :=
      .wrap (.priority {}) (.wrap (.priority {}) (.base (.lengthPrefixed (.stream "tcp"))))
    chain.bottom = .lengthPrefixed (.stream "tcp") ∧
      chain.writeFrame [7, 8] [9] = (.ok [9, 0, 0, 0, 2, 7, 8], chain) ∧
      (chain.readFrame [0, 0, 0, 2, 7, 8]).1 = .ok [7, 8] ∧
      (∃ e, (chain.readFrame [0, 0, 0, 2]).1 = .error (.frame e)) ∧
      (chain.readFrame [0, 0, 0, 2, 7, 8, 0, 0, 0, 0]).1 = .error (.frame (.mismatch 2 6)) := by
  intro chain
  have hbase : chain.bottom = .lengthPrefixed (.stream "tcp") := rfl
  obtain ⟨-, hwrite, -, -, hframe⟩ := frames_exact hbase
  have hwritten : (chain.writeFrame [7, 8] []).1 = .ok [0, 0, 0, 2, 7, 8] :=
    congrArg Prod.fst (hwrite [7, 8] [] (by decide))
  obtain ⟨hread, hpart, hextra⟩ := hframe [0, 0, 0, 2, 7, 8] [7, 8] hwritten
  exact ⟨hbase, hwrite [7, 8] [9] (by decide), hread, hpart [0, 0, 0, 2] (by decide) (by decide),
    hextra [0, 0, 0, 0] (by decide)⟩

end Chain

end PortArbiter
