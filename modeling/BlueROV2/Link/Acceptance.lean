import BlueROV2.Link.Receivers

/-!
# What the Pi's parser accepts

Library `Link`. `decode_packet` in `modules/autonomy_pi/ros/autonomy_teensy/src/packet.cpp` has
no bound on the payload, as its sibling on the Teensy and both encoders do. Apart from that it
accepts just what `encode_packet` writes.
-/

namespace BlueROV2.Link

open BlueROV2.Base BlueROV2.Base.Cobs BlueROV2.Wire
open Driver (decodePacket encodePacket maxPayloadSize calculateCrc)

/-- The parser refuses a string, or it accepts it as a packet whose frame it is. -/
def AcceptsOwn (f : List UInt8) : Prop :=
  (∃ what, decodePacket f = .error (.invalidArgument what)) ∨
    ∃ p, decodePacket f = .ok p ∧
      encodePacket p.packetId p.deviceId p.payload = .ok (f ++ [0])

/-- A string that stands for identifiers, a payload above the limit, and their check byte. -/
def Oversized (f : List UInt8) : Prop :=
  ∃ m : Message, maxPayloadSize < m.payload.length ∧
    bytes.Stuffs (m.body ++ [calculateCrc m.body]) f

/-- A zero-free string is read as the messages it stands for, with their check bytes. -/
theorem readFrame_eq_some_iff {f : List UInt8} (hf : (0 : UInt8) ∉ f) {m : Message} :
    readFrame calculateCrc f = some m ↔ bytes.Stuffs (m.body ++ [calculateCrc m.body]) f := by
  rw [← Alphabet.decode_eq_some_iff ((plain_bytes f).mpr hf), readFrame]
  constructor
  · intro h
    rcases Option.bind_eq_some_iff.mp h with ⟨d, hd, hm⟩
    rwa [← readBody_eq_some.mp hm]
  · intro h
    rw [h, Option.bind_some, readBody_eq_some]

/-- The parser returns a packet just for the strings that stand for it. -/
theorem decodePacket_eq_ok_iff {f : List UInt8} (hf : (0 : UInt8) ∉ f) {m : Message} :
    decodePacket f = .ok m ↔ bytes.Stuffs (m.body ++ [calculateCrc m.body]) f := by
  rw [← readFrame_eq_some_iff hf, ← decoded_eq, decoded]
  cases decodePacket f with
  | error e =>
    constructor
    · intro h
      cases h
    · intro h
      cases h
  | ok p => exact ⟨fun h ↦ congrArg some (Except.ok.inj h), fun h ↦ congrArg _ (Option.some.inj h)⟩

/-- Whatever is accepted is the stuffing of what it is accepted as, but for an empty block behind
a full one at its end. -/
theorem accepted_stuffing {f : List UInt8} (hne : f ≠ []) (hf : (0 : UInt8) ∉ f) {m : Message}
    (h : decodePacket f = .ok m) :
    f = frame calculateCrc m ∨ f ++ [0x01] = frame calculateCrc m :=
  ((decodePacket_eq_ok_iff hf).mp h).eq_encode hne

/-- The parser accepts a string as something else than its own packet just when the string is
oversized. -/
theorem acceptsOwn_iff {f : List UInt8} (hf : (0 : UInt8) ∉ f) : AcceptsOwn f ↔ ¬ Oversized f := by
  constructor
  · rintro hown ⟨m, hlarge, hstuffs⟩
    have hok := (decodePacket_eq_ok_iff hf).mpr hstuffs
    rcases hown with ⟨what, hwhat⟩ | ⟨p, hp, henc⟩
    · rw [hok] at hwhat
      cases hwhat
    · cases hok.symm.trans hp
      rw [Driver.encodePacket_of_large m hlarge] at henc
      cases henc
  · intro hsmall
    have h := Driver.decodePacket_eq f
    cases hr : readFrame calculateCrc f with
    | none =>
      rw [hr] at h
      exact Or.inl h
    | some m =>
      rw [hr] at h
      have hle : m.payload.length ≤ maxPayloadSize := by
        apply Nat.le_of_not_lt
        intro hlarge
        exact hsmall ⟨m, hlarge, (readFrame_eq_some_iff hf).mp hr⟩
      have hmax : maxPayloadSize = 64 := rfl
      refine Or.inr ⟨m, h, ?_⟩
      rw [Driver.encodePacket_eq m hle, ← eq_frame_of_readFrame hf hr (by omega)]

/-- The parser accepts exactly the wire format on every string but the oversized ones; and the
packets dispatched from a stream, however it was cut, are all within the limit, each from its own
frame, exactly when none of the stream's complete segments is oversized. -/
theorem accepts_own_frames (f : List UInt8) (chunks : List (List UInt8)) :
    (f ≠ [] → (0 : UInt8) ∉ f → (AcceptsOwn f ↔ ¬ Oversized f)) ∧
    ∃ r packets,
      Driver.pollConnection record (chunks.map .data) .start [] = .ok (r, packets) ∧
      ((∀ p ∈ packets, p.payload.length ≤ maxPayloadSize ∧
          ∃ segment ∈ Framing.complete 0 chunks.flatten,
            encodePacket p.packetId p.deviceId p.payload = .ok (segment ++ [0])) ↔
        ∀ segment ∈ Framing.complete 0 chunks.flatten, ¬ Oversized segment) := by
  refine ⟨fun _ hf ↦ acceptsOwn_iff hf, _, _, pollConnection_record chunks, ?_, ?_⟩
  · rintro hsmall segment hmem ⟨m, hlarge, hstuffs⟩
    have hread := (readFrame_eq_some_iff (Framing.notMem_of_complete 0 hmem)).mpr hstuffs
    have hne : segment ≠ [] := by
      rintro rfl
      rw [readFrame_nil] at hread
      cases hread
    have hin : m ∈ messages calculateCrc chunks.flatten :=
      List.mem_filterMap.mpr ⟨segment, List.mem_filter.mpr ⟨hmem, decide_eq_true hne⟩, hread⟩
    exact Nat.not_lt.mpr (hsmall m hin).1 hlarge
  · intro hnone m hin
    rcases List.mem_filterMap.mp hin with ⟨segment, hmem, hread⟩
    have hcomplete := (List.mem_filter.mp hmem).1
    have hf := Framing.notMem_of_complete 0 hcomplete
    have hstuffs := (readFrame_eq_some_iff hf).mp hread
    constructor
    · apply Nat.le_of_not_lt
      intro hlarge
      exact hnone segment hcomplete ⟨m, hlarge, hstuffs⟩
    · have hok := (decodePacket_eq_ok_iff hf).mpr hstuffs
      rcases (acceptsOwn_iff hf).mpr (hnone segment hcomplete) with ⟨what, hwhat⟩ | ⟨p, hp, henc⟩
      · rw [hok] at hwhat
        cases hwhat
      · cases hok.symm.trans hp
        exact ⟨segment, hcomplete, henc⟩

/-- A command's frame is not oversized, and it is accepted as its own: what it is decoded into is
encoded into the same bytes. -/
theorem accepts_own_frames_startCommand :
    ¬ Oversized [5, 16, 1, 1, 1, 2, 90] ∧ AcceptsOwn [5, 16, 1, 1, 1, 2, 90] ∧
      decodePacket [5, 16, 1, 1, 1, 2, 90] = .ok ⟨.command, .imu01, [1, 1, 0]⟩ ∧
      encodePacket .command .imu01 [1, 1, 0] = .ok [5, 16, 1, 1, 1, 2, 90, 0] := by
  have hdecode : decodePacket [5, 16, 1, 1, 1, 2, 90] = .ok ⟨.command, .imu01, [1, 1, 0]⟩ := by
    decide +kernel
  have hencode : encodePacket .command .imu01 [1, 1, 0] = .ok [5, 16, 1, 1, 1, 2, 90, 0] := by
    decide +kernel
  have hown : AcceptsOwn [5, 16, 1, 1, 1, 2, 90] := .inr ⟨_, hdecode, hencode⟩
  exact ⟨((accepts_own_frames _ [[5, 16, 1, 1], [1, 2, 90, 0]]).1 (by decide) (by decide)).mp hown,
    hown, hdecode, hencode⟩

/-- A measurement of 65 bytes, one more than a packet may carry. -/
def largeMessage : Message := ⟨.imuData, .imu01, List.replicate 65 7⟩

/-- Its stuffed bytes are accepted as a packet that the encoder refuses, and dispatched. -/
theorem accepts_large_frame :
    frame calculateCrc largeMessage ≠ [] ∧ (0 : UInt8) ∉ frame calculateCrc largeMessage ∧
      ¬ AcceptsOwn (frame calculateCrc largeMessage) ∧
      Driver.pollConnection record [.data (frame calculateCrc largeMessage ++ [0])] .start [] =
        .ok (.start, [largeMessage]) := by
  have hok : decodePacket (frame calculateCrc largeMessage) = .ok largeMessage := by
    have h := Driver.decodePacket_eq (frame calculateCrc largeMessage)
    rwa [readFrame_frame] at h
  have henc := Driver.encodePacket_of_large largeMessage (by decide)
  refine ⟨frame_ne_nil _, notMem_frame _, ?_, ?_⟩
  · rintro (⟨what, hwhat⟩ | ⟨p, hp, hframe⟩)
    · rw [hok] at hwhat
      cases hwhat
    · cases hok.symm.trans hp
      rw [henc] at hframe
      cases hframe
  · have hpoll := pollConnection_record [frame calculateCrc largeMessage ++ [0]]
    rw [List.flatten_singleton, messages_frame, messages_of_notMem List.not_mem_nil,
      Framing.unfinished_frame 0 _ _ (notMem_frame _)] at hpoll
    exact hpoll

end BlueROV2.Link
