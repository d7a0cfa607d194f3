import BlueROV2.Driver.Packet
import BlueROV2.Firmware.Packet

/-!
# The two codecs

Library `Link`. The Teensy's `crc.cpp`, `cobs.cpp` and `packet.cpp` against the files of the
same names on the Pi: one checksum, one stuffing, one frame for every packet.
-/

namespace BlueROV2.Link

open BlueROV2.Base BlueROV2.Base.Cobs BlueROV2.Wire

/-- What an encoder into a caller's buffer reports after writing `frame`: its size, and the
buffer with the frame at its start. -/
def written (frame out : List UInt8) : Int × List UInt8 :=
  (frame.length, frame ++ out.drop frame.length)

/-- A packet of the Teensy built from a message of any size: its size field is the payload's,
and its array holds as much of the payload as it can. -/
structure Carries (p : Firmware.Packet) (m : Message) : Prop where
  packetId : p.packetId = m.packetId
  deviceId : p.deviceId = m.deviceId
  size : p.size = m.payload.length
  payload : p.payload.toList.take m.payload.length = m.payload.take Firmware.maxPayloadSize

/-- A packet that carries a message of admissible size says just that message. -/
theorem Carries.message {p : Firmware.Packet} {m : Message} (h : Carries p m)
    (hm : m.payload.length ≤ Firmware.maxPayloadSize) : p.message = m := by
  have hp := h.payload
  rw [List.take_of_length_le hm, ← h.size] at hp
  rw [Firmware.Packet.message, hp, h.packetId, h.deviceId]

/-- Both sides compute the same check byte. -/
theorem crcOf_eq_calculateCrc : Firmware.crcOf = Driver.calculateCrc := rfl

/-- Both sides refuse payloads beyond the same size. -/
theorem maxPayloadSize_eq : Firmware.maxPayloadSize = Driver.maxPayloadSize := rfl

/-- The Teensy's encoder writes what the Pi's encoder returns, and refuses when it throws. -/
theorem encode_eq_encodePacket {p : Firmware.Packet} {m : Message} (h : Carries p m)
    (out : List UInt8) (outSize : Nat) (hs : Firmware.maxEncodedSize ≤ outSize)
    (ho : outSize ≤ out.length) :
    Firmware.encode p out outSize =
      match Driver.encodePacket m.packetId m.deviceId m.payload with
      | .ok frame => .ok (written frame out)
      | .error _ => .ok (-1, out) := by
  have hmax : Firmware.maxPayloadSize = 64 := rfl
  have henc : Firmware.maxEncodedSize = 69 := rfl
  have hsize := h.size
  by_cases hm : m.payload.length ≤ Firmware.maxPayloadSize
  · rw [Driver.encodePacket_eq m hm, Firmware.encode_eq p out outSize (by omega) (by omega) ho,
      h.message hm, crcOf_eq_calculateCrc]
    simp [written]
  · rw [Driver.encodePacket_of_large m (by rw [← maxPayloadSize_eq]; omega),
      Firmware.encode_of_large p out outSize (by omega)]

/-- Stuffing into an accepted buffer writes what the Pi's stuffing returns. -/
theorem encodeCobs_eq_encodeCobs (data out : List UInt8) (size outSize : Nat)
    (hs : size ≤ data.length) (ho : outSize ≤ out.length) (hc : size + size / 254 + 1 ≤ outSize) :
    ∃ frame, Driver.encodeCobs (data.take size) = .ok frame ∧
      Firmware.encodeCobs data size out outSize = .ok (written frame out) :=
  ⟨_, Driver.encodeCobs_eq _, Firmware.encodeCobs_eq data out size outSize hs ho hc⟩

/-- The two encoders are one function: on packets of every size, on byte strings of every
length that the caller's buffer has room for, and in the check byte. -/
theorem encoders_agree :
    (∀ (m : Message) (p : Firmware.Packet) (out : List UInt8) (outSize : Nat),
      Carries p m → Firmware.maxEncodedSize ≤ outSize → outSize ≤ out.length →
        (∀ frame, Driver.encodePacket m.packetId m.deviceId m.payload = .ok frame →
          Firmware.encode p out outSize = .ok (written frame out)) ∧
        (∀ e, Driver.encodePacket m.packetId m.deviceId m.payload = .error e →
          Firmware.encode p out outSize = .ok (-1, out))) ∧
    (∀ (data out : List UInt8) (size outSize : Nat), size ≤ data.length → outSize ≤ out.length →
      Firmware.encodeCobs data size out outSize = .ok (-1, out) ∨
        ∃ frame, Driver.encodeCobs (data.take size) = .ok frame ∧
          Firmware.encodeCobs data size out outSize = .ok (written frame out)) ∧
    (∀ (data out : List UInt8) (size outSize : Nat), size ≤ data.length → outSize ≤ out.length →
      (Firmware.encodeCobs data size out outSize = .ok (-1, out) ↔
        outSize < size + size / 254 + 1)) ∧
    (∀ (data : List UInt8) (size : Nat), size ≤ data.length →
      Firmware.calculateCrc data size = .ok (Driver.calculateCrc (data.take size))) := by
  refine ⟨?_, ?_, ?_, ?_⟩
  · intro m p out outSize h hs ho
    have henc := encode_eq_encodePacket h out outSize hs ho
    constructor
    · intro frame hf
      rw [henc, hf]
    · intro e he
      rw [henc, he]
  · intro data out size outSize hs ho
    by_cases hc : outSize < size + size / 254 + 1
    · exact Or.inl (Firmware.encodeCobs_of_small data out size outSize hc)
    · exact Or.inr (encodeCobs_eq_encodeCobs data out size outSize hs ho (by omega))
  · intro data out size outSize hs ho
    constructor
    · intro h
      rcases Nat.lt_or_ge outSize (size + size / 254 + 1) with hc | hc
      · exact hc
      · obtain ⟨frame, -, hw⟩ := encodeCobs_eq_encodeCobs data out size outSize hs ho hc
        rw [h, written] at hw
        cases hw
    · exact Firmware.encodeCobs_of_small data out size outSize
  · intro data size hs
    rw [Firmware.calculateCrc_eq data size hs, crcOf_eq_calculateCrc]

/-- A calibration command as the Pi numbers its first attempt. -/
def startCommand : Message := ⟨.command, .imu01, [0x01, 0x01, 0x00]⟩

/-- The same command as the Teensy stores it. -/
def startPacket : Firmware.Packet where
  packetId := .command
  deviceId := .imu01
  payload := (Vector.replicate Firmware.maxPayloadSize 0).set 0 0x01 |>.set 1 0x01
  size := 3

theorem carries_startCommand : Carries startPacket startCommand :=
  ⟨rfl, rfl, rfl, by decide +kernel⟩

/-- The agreement for one command, one stuffed string and one check byte. -/
theorem encoders_agree_startCommand :
    Firmware.encode startPacket (List.replicate 69 0xAA) 69 =
      .ok (written [5, 16, 1, 1, 1, 2, 90, 0] (List.replicate 69 0xAA)) ∧
    (∃ frame, Driver.encodeCobs [0, 7] = .ok frame ∧
      Firmware.encodeCobs [0, 7, 9] 2 [1, 2, 3, 4] 4 = .ok (written frame [1, 2, 3, 4])) ∧
    Firmware.calculateCrc [16, 1, 5] 2 = .ok (Driver.calculateCrc [16, 1]) := by
  obtain ⟨hpackets, hcobs, haccept, hcrc⟩ := encoders_agree
  have hpi : Driver.encodePacket startCommand.packetId startCommand.deviceId
      startCommand.payload = .ok [5, 16, 1, 1, 1, 2, 90, 0] := by decide +kernel
  have hframe := (hpackets startCommand startPacket (List.replicate 69 0xAA) 69
    carries_startCommand (Nat.le_refl _) (Nat.le_of_eq List.length_replicate.symm)).1 _ hpi
  refine ⟨hframe, ?_, hcrc [16, 1, 5] 2 (by decide)⟩
  refine (hcobs [0, 7, 9] [1, 2, 3, 4] 2 4 (by decide) (by decide)).resolve_left ?_
  rw [haccept [0, 7, 9] [1, 2, 3, 4] 2 4 (by decide) (by decide)]
  decide

/-! ### Accepted frames -/

open Firmware (Packet decode encode maxPayloadSize maxEncodedSize)

/-- Two packets agree in their identifiers, their sizes and the payload bytes in use. -/
def Same (p q : Packet) : Prop := p.size = q.size ∧ p.message = q.message

private theorem same_of_message {p q : Packet} (hp : p.size ≤ maxPayloadSize)
    (hq : q.size ≤ maxPayloadSize) (h : p.message = q.message) : Same p q := by
  refine ⟨?_, h⟩
  rw [← Firmware.length_message_payload hp, ← Firmware.length_message_payload hq, h]

/-- A delimiter-free string decodes to a packet exactly when it is the frame of that packet. -/
theorem decode_iff_frame (f stale : List UInt8) (hf : (0 : UInt8) ∉ f) (p : Packet) :
    (∃ q, decode (f ++ stale) f.length = .ok (some q) ∧ Same q p) ↔
      p.size ≤ maxPayloadSize ∧ f = frame Firmware.crcOf p.message := by
  have hmax : maxPayloadSize = 64 := rfl
  obtain ⟨r, hr, hmsg, hsize⟩ := Firmware.decode_eq (f ++ stale) f.length (by simp)
  rw [List.take_left] at hmsg
  constructor
  · rintro ⟨q, hq, hqs, hqm⟩
    obtain rfl : r = some q := Except.ok.inj (hr.symm.trans hq)
    have hqsize := hsize q rfl
    obtain ⟨hread, -⟩ := Option.filter_eq_some_iff.mp hmsg.symm
    refine ⟨hqs ▸ hqsize, ?_⟩
    have hlen := Firmware.length_message_payload hqsize
    rw [← hqm]
    exact eq_frame_of_readFrame hf hread (by omega)
  · rintro ⟨hp, rfl⟩
    have hlen := Firmware.length_message_payload hp
    rw [readFrame_frame, Option.filter_some, if_pos (by rw [hlen]; exact decide_eq_true hp)] at hmsg
    obtain ⟨q, rfl, hqm⟩ := Option.map_eq_some_iff.mp hmsg
    exact ⟨q, hr, same_of_message (hsize q rfl) hp hqm⟩

/-- Encoding a packet writes a given string and a delimiter exactly when the string is the
frame of that packet. -/
theorem encode_iff_frame (f : List UInt8) (p : Packet) (out : List UInt8)
    (hp : p.size ≤ maxPayloadSize) (ho : out.length = maxEncodedSize) :
    encode p out maxEncodedSize = .ok (written (f ++ [0]) out) ↔
      f = frame Firmware.crcOf p.message := by
  have hmax : maxPayloadSize = 64 := rfl
  have hcap : maxEncodedSize = 69 := rfl
  have hw : encode p out maxEncodedSize =
      .ok (written (frame Firmware.crcOf p.message ++ [0]) out) := by
    rw [Firmware.encode_eq p out maxEncodedSize hp (by omega) (by omega)]
    simp [written]
  rw [hw]
  constructor
  · intro h
    obtain ⟨hn, hb⟩ := Prod.mk.inj (Except.ok.inj h)
    have hframe := (List.append_inj hb (Int.ofNat_inj.mp hn)).1
    exact (List.append_cancel_right hframe).symm
  · rintro rfl
    rfl

/-- Every packet has exactly one accepted frame, the one its encoder writes: delimiter-free
strings outside the encoder's image are rejected, and different ones decode differently. -/
theorem accepts_only_own_frame :
    (∀ (f stale : List UInt8) (p : Packet) (out : List UInt8), (0 : UInt8) ∉ f →
      out.length = maxEncodedSize →
        ((∃ q, decode (f ++ stale) f.length = .ok (some q) ∧ Same q p) ↔
          p.size ≤ maxPayloadSize ∧ encode p out maxEncodedSize = .ok (written (f ++ [0]) out))) ∧
    (∀ f stale : List UInt8, (0 : UInt8) ∉ f →
      (∀ (p : Packet) (out : List UInt8), out.length = maxEncodedSize →
        encode p out maxEncodedSize ≠ .ok (written (f ++ [0]) out)) →
      decode (f ++ stale) f.length = .ok none) ∧
    (∀ (f g stale stale' : List UInt8) (p q : Packet), (0 : UInt8) ∉ f → (0 : UInt8) ∉ g →
      decode (f ++ stale) f.length = .ok (some p) → decode (g ++ stale') g.length = .ok (some q) →
      Same p q → f = g) := by
  refine ⟨?_, ?_, ?_⟩
  · intro f stale p out hf ho
    rw [decode_iff_frame f stale hf p]
    exact and_congr_right (fun hp ↦ (encode_iff_frame f p out hp ho).symm)
  · intro f stale hf hno
    obtain ⟨r, hr, -, hsize⟩ := Firmware.decode_eq (f ++ stale) f.length (by simp)
    cases r with
    | none => exact hr
    | some q =>
      have ho : (List.replicate maxEncodedSize (0 : UInt8)).length = maxEncodedSize :=
        List.length_replicate
      have hq := (decode_iff_frame f stale hf q).mp ⟨q, hr, rfl, rfl⟩
      exact absurd ((encode_iff_frame f q _ hq.1 ho).mpr hq.2) (hno q _ ho)
  · intro f g stale stale' p q hf hg hp hq hsame
    have hfp := (decode_iff_frame f stale hf q).mp ⟨p, hp, hsame⟩
    have hgq := (decode_iff_frame g stale' hg q).mp ⟨q, hq, rfl, rfl⟩
    rw [hfp.2, hgq.2]

/-- One frame of the Teensy's decoder, and one string that is nobody's frame. -/
theorem accepts_only_own_frame_startCommand :
    (∃ q, decode ([5, 16, 1, 1, 1, 2, 90] ++ [7, 7]) 7 = .ok (some q) ∧ Same q startPacket) ∧
      decode ([] ++ [7, 7]) 0 = .ok none := by
  obtain ⟨hiff, hreject, -⟩ := accepts_only_own_frame
  have hout : (List.replicate 69 (0 : UInt8)).length = maxEncodedSize := List.length_replicate
  refine ⟨(hiff [5, 16, 1, 1, 1, 2, 90] [7, 7] startPacket (List.replicate 69 0) (by decide)
    hout).mpr
    (by decide +kernel), hreject [] [7, 7] List.not_mem_nil ?_⟩
  intro p out ho henc
  by_cases hp : p.size ≤ maxPayloadSize
  · exact frame_ne_nil p.message ((encode_iff_frame [] p out hp ho).mp henc).symm
  · rw [Firmware.encode_of_large p out maxEncodedSize (by omega), written] at henc
    cases henc

end BlueROV2.Link
