import BlueROV2.Driver.Cobs

/-!
# Packets on the Pi

Library `Driver`. `modules/autonomy_pi/ros/autonomy_teensy/src/crc.cpp` and `packet.cpp`.
Iterators into a vector are indices; a `catch` for `std::invalid_argument` lets an access
out of bounds through.
-/

namespace BlueROV2.Driver

open BlueROV2.Base BlueROV2.Base.Cobs BlueROV2.Wire

/-- One bit of `calculate_crc`; `crc.cpp:11–16`. -/
def crcBit (crc : UInt8) : UInt8 :=
  if crc &&& 0x80 ≠ 0 then (crc <<< 1) ^^^ 0x07 else crc <<< 1

/-- `calculate_crc`; `crc.cpp:6–21`. -/
def calculateCrc (packet : List UInt8) : UInt8 :=
  packet.foldl (fun crc data ↦ Nat.repeat crcBit 8 (crc ^^^ data)) 0x00

/-- `MAX_PAYLOAD_SIZE`; `packet.hpp:19`. -/
def maxPayloadSize : Nat := 64

def packetDelimiter : UInt8 := 0x00
def headerSize : Nat := 2
def crcSize : Nat := 1

/-- `struct Packet`, which holds just what it says; `packet.hpp:21`. -/
abbrev Packet := Message

/-- `decode_packet`; `packet.cpp:22–43`. -/
def decodePacket (data : List UInt8) : Cpp Packet := do
  let decodedData ← decodeCobs data
  if decodedData.length < headerSize + crcSize then
    .error (.invalidArgument "The decoded data is too short to parse.")
  else do
    let payloadSize := decodedData.length - crcSize
    let body := decodedData.take payloadSize
    let expectedCrc := calculateCrc body
    let actualCrc ← load decodedData payloadSize
    if actualCrc ≠ expectedCrc then
      .error (.invalidArgument "The expected CRC value does not match the true CRC value.")
    else do
      let packetId ← load decodedData 0
      let deviceId ← load decodedData 1
      pure ⟨⟨packetId⟩, ⟨deviceId⟩, (decodedData.take payloadSize).drop headerSize⟩

/-- `std::find` from index `start` on; the size of the vector when there is no such byte. -/
def find (data : List UInt8) (start : Nat) (byte : UInt8) : Nat :=
  start + (data.drop start).idxOf byte

/-- The loop of `decode_packets`; every iteration passes a delimiter, so `data.length`
iterations suffice; `packet.cpp:53–70`. -/
def decodePacketsLoop (data : List UInt8) : Nat → Nat → Nat → List Packet → Cpp (List Packet × Nat)
  | 0, start, _, packets => pure (packets, start)
  | fuel + 1, start, delimiter, packets =>
    if delimiter = data.length then pure (packets, start)
    else
      let packetData := (data.drop start).take (delimiter - start)
      let start := delimiter + 1
      let delimiter := find data start packetDelimiter
      if packetData.isEmpty then decodePacketsLoop data fuel start delimiter packets
      else
        match decodePacket packetData with
        | .ok packet => decodePacketsLoop data fuel start delimiter (packets ++ [packet])
        -- a malformed frame does not stop the rest of the batch
        | .error (.invalidArgument _) => decodePacketsLoop data fuel start delimiter packets
        | .error e => .error e

/-- `decode_packets`: the packets and the index behind the last delimiter; `packet.cpp:45–73`. -/
def decodePackets (data : List UInt8) : Cpp (List Packet × Nat) :=
  decodePacketsLoop data data.length 0 (find data 0 packetDelimiter) []

/-- `encode_packet`; `packet.cpp:75–93`. -/
def encodePacket (packetId : PacketId) (deviceId : DeviceId) (payload : List UInt8) :
    Cpp (List UInt8) :=
  if payload.length > maxPayloadSize then
    .error (.invalidArgument "The payload exceeds the maximum payload size.")
  else do
    let body := packetId.byte :: deviceId.byte :: payload
    let body := body ++ [calculateCrc body]
    let frame ← encodeCobs body
    pure (frame ++ [packetDelimiter])

/-- Encoding an admissible payload returns the delimited frame. -/
theorem encodePacket_eq (m : Message) (h : m.payload.length ≤ maxPayloadSize) :
    encodePacket m.packetId m.deviceId m.payload = .ok (frame calculateCrc m ++ [0]) := by
  rw [encodePacket, if_neg (by omega)]
  simp only [encodeCobs_eq, Cpp.ok_bind]
  rfl

/-- An oversized payload is refused. -/
theorem encodePacket_of_large (m : Message) (h : maxPayloadSize < m.payload.length) :
    encodePacket m.packetId m.deviceId m.payload =
      .error (.invalidArgument "The payload exceeds the maximum payload size.") := by
  rw [encodePacket, if_pos h]

/-- Decoding returns the message of a frame and throws when it has none. -/
theorem decodePacket_eq (data : List UInt8) :
    Cpp.ReturnsOrThrows (readFrame calculateCrc data) (decodePacket data) := by
  have h := decodeCobs_eq data
  cases hd : bytes.decode data with
  | none =>
    rw [hd] at h
    obtain ⟨what, hw⟩ := h
    rw [readFrame, hd]
    exact ⟨what, by rw [decodePacket, hw]; rfl⟩
  | some d =>
    rw [hd] at h
    have hok : decodeCobs data = .ok d := h
    rw [readFrame, hd, Option.bind_some, decodePacket, hok, Cpp.ok_bind]
    by_cases hshort : d.length < 3
    · rw [readBody_of_short hshort, if_pos (by simpa [headerSize, crcSize] using hshort)]
      exact ⟨_, rfl⟩
    · obtain ⟨p, v, payload, c, rfl⟩ := exists_body_of_three_le hshort
      have hsize : (p :: v :: payload ++ [c]).length - crcSize = (p :: v :: payload).length := by
        rw [List.length_append, List.length_singleton, crcSize, Nat.add_sub_cancel]
      have hload : load (p :: v :: payload ++ [c]) (p :: v :: payload).length = .ok c := by
        simp [load]
      have h0 : load (p :: v :: payload ++ [c]) 0 = .ok p := rfl
      have h1 : load (p :: v :: payload ++ [c]) 1 = .ok v := rfl
      have hlong : ¬ (p :: v :: payload ++ [c]).length < headerSize + crcSize := hshort
      rw [readBody_append _ c p v payload rfl, if_neg hlong]
      simp only [hsize, List.take_left, hload, h0, h1, Cpp.ok_bind, Cpp.pure_eq, ne_eq, ite_not]
      by_cases hc : c = calculateCrc (p :: v :: payload)
      · rw [if_pos hc, if_pos hc]
        rfl
      · rw [if_neg hc, if_neg hc]
        exact ⟨_, rfl⟩

/-- The batch loop collects the messages of the remaining data and stops behind its last
delimiter. -/
theorem decodePacketsLoop_eq (data : List UInt8) (fuel start : Nat) (packets : List Packet)
    (hs : start ≤ data.length) (hf : data.length - start ≤ fuel) :
    ∃ stop, decodePacketsLoop data fuel start (find data start packetDelimiter) packets =
        .ok (packets ++ messages calculateCrc (data.drop start), stop) ∧
      data.drop stop = Framing.unfinished 0 (data.drop start) := by
  induction fuel generalizing start packets with
  | zero =>
    have hnil : data.drop start = [] := List.drop_eq_nil_iff.mpr (by omega)
    refine ⟨start, ?_, by rw [hnil]; rfl⟩
    rw [hnil, decodePacketsLoop]
    simp [messages, Framing.complete, Framing.segment]
  | succ fuel ih =>
    by_cases h0 : (0 : UInt8) ∈ data.drop start
    · obtain ⟨b, s, hbs, hb⟩ := List.eq_append_cons_of_mem h0
      have hlen := congrArg List.length hbs
      simp only [List.length_drop, List.length_append, List.length_cons] at hlen
      have hfind : find data start packetDelimiter = start + b.length := by
        rw [find, packetDelimiter, hbs, List.idxOf_append, if_neg hb]
        simp
      have hnext : data.drop (start + b.length + 1) = s := by
        rw [Nat.add_assoc, ← List.drop_drop, hbs, ← List.drop_drop, List.drop_left]
        rfl
      have htake : (data.drop start).take (start + b.length - start) = b := by
        rw [Nat.add_sub_cancel_left, hbs, List.take_left]
      rw [decodePacketsLoop, hfind, if_neg (by omega)]
      simp only [htake]
      rw [hbs, messages_segment hb, Framing.unfinished_frame 0 b s hb, ← hnext]
      by_cases hne : b = []
      · simp only [hne, List.isEmpty_nil, if_true, List.nil_append]
        exact ih _ _ (by simp only [hne, List.length_nil] at hlen ⊢; omega)
          (by simp only [List.length_nil]; omega)
      · have hemp : b.isEmpty = false := by simpa using hne
        simp only [hemp, Bool.false_eq_true, if_false, if_neg hne]
        have hd := decodePacket_eq b
        cases hr : readFrame calculateCrc b with
        | none =>
          rw [hr] at hd
          obtain ⟨what, hw⟩ := hd
          simp only [hw]
          exact ih _ _ (by omega) (by omega)
        | some m =>
          rw [hr] at hd
          have hok : decodePacket b = .ok m := hd
          simp only [hok]
          obtain ⟨stop, hloop, hstop⟩ := ih (start + b.length + 1) (packets ++ [m]) (by omega)
            (by omega)
          exact ⟨stop, by simpa using hloop, hstop⟩
    · have hfind : find data start packetDelimiter = data.length := by
        rw [find, packetDelimiter, List.idxOf_eq_length h0, List.length_drop]
        omega
      refine ⟨start, ?_, (Framing.unfinished_of_notMem 0 _ h0).symm⟩
      rw [decodePacketsLoop, hfind, if_pos rfl, messages_of_notMem h0, List.append_nil, Cpp.pure_eq]

/-- A batch yields the messages of its data, and what is left of the data afterwards is its
unfinished segment. -/
theorem decodePackets_eq (data : List UInt8) :
    ∃ stop, decodePackets data = .ok (messages calculateCrc data, stop) ∧
      data.drop stop = Framing.unfinished 0 data :=
  decodePacketsLoop_eq data data.length 0 [] (Nat.zero_le _) (Nat.le_refl _)

end BlueROV2.Driver
