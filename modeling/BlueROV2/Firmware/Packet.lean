import BlueROV2.Firmware.Cobs

/-!
# Packets on the Teensy

Library `Firmware`. `modules/teensy/lib/packet/crc.cpp` and `packet.cpp`. A packet embeds an
array of the largest payload and a size; only the first `size` bytes of it mean anything.
-/

namespace BlueROV2.Firmware

open BlueROV2.Base BlueROV2.Base.Cobs BlueROV2.Wire

/-- One bit of `calculate_crc`; `crc.cpp:13–17`. -/
def crcBit (crc : UInt8) : UInt8 :=
  if crc &&& 0x80 ≠ 0 then (crc <<< 1) ^^^ 0x07 else crc <<< 1

/-- One byte of `calculate_crc`; `crc.cpp:11–18`. -/
def crcByte (crc byte : UInt8) : UInt8 := Nat.repeat crcBit 8 (crc ^^^ byte)

/-- `calculate_crc`; `crc.cpp:6–22`. -/
def calculateCrc (data : List UInt8) (size : Nat) : Cpp UInt8 :=
  forData data size 0x00 (fun crc byte ↦ pure (crcByte crc byte))

/-- Largest payload a single packet can carry; `packet.h:17`. -/
def maxPayloadSize : Nat := 64

/-- Buffer size a caller must provide to `encode`; `packet.h:21`. -/
def maxEncodedSize : Nat := (maxPayloadSize + 3) + (maxPayloadSize + 3) / 254 + 2

def headerSize : Nat := 2
def crcSize : Nat := 1
def maxFrameSize : Nat := headerSize + maxPayloadSize + crcSize

/-- `struct Packet`; `packet.h:27`. -/
structure Packet where
  packetId : PacketId
  deviceId : DeviceId
  payload : Vector UInt8 maxPayloadSize
  size : Nat
  deriving DecidableEq, Repr

/-- What a packet says: its identifiers and the first `size` bytes of its payload. -/
def Packet.message (p : Packet) : Message where
  packetId := p.packetId
  deviceId := p.deviceId
  payload := p.payload.toList.take p.size

/-- `encode`: the number of bytes written, or `-1`, and the buffer; `packet.cpp:20–44`. -/
def encode (packet : Packet) (out : List UInt8) (outSize : Nat) : Cpp (Int × List UInt8) :=
  if packet.size > maxPayloadSize ∨ outSize = 0 then pure (-1, out)
  else do
    let frame := List.replicate maxFrameSize 0
    let frame ← store frame 0 packet.packetId.byte
    let frame ← store frame 1 packet.deviceId.byte
    let frame ← copyLoop frame headerSize packet.payload.toList 0 packet.size
    let frameSize := headerSize + packet.size
    let crc ← calculateCrc frame frameSize
    let frame ← store frame frameSize crc
    let (encodedSize, out) ← encodeCobs frame (frameSize + crcSize) out (outSize - 1)
    if encodedSize < 0 then pure (-1, out)
    else do
      let out ← store out encodedSize.toNat 0x00
      pure (encodedSize + 1, out)

/-- The first part of `encode`, for a payload array of any length: the frame before it is
stuffed; `packet.cpp:26–34`. -/
def fillFrame (packetId : PacketId) (deviceId : DeviceId) (payload : List UInt8) (size : Nat) :
    Cpp (List UInt8) := do
  let frame := List.replicate maxFrameSize 0
  let frame ← store frame 0 packetId.byte
  let frame ← store frame 1 deviceId.byte
  let frame ← copyLoop frame headerSize payload 0 size
  let crc ← calculateCrc frame (headerSize + size)
  store frame (headerSize + size) crc

/-- `encode`, for a payload array of any length; `packet.cpp:20–44`. -/
def encodeFrom (packetId : PacketId) (deviceId : DeviceId) (payload : List UInt8) (size : Nat)
    (out : List UInt8) (outSize : Nat) : Cpp (Int × List UInt8) :=
  if size > maxPayloadSize ∨ outSize = 0 then pure (-1, out)
  else do
    let frame ← fillFrame packetId deviceId payload size
    let (encodedSize, out) ← encodeCobs frame (headerSize + size + crcSize) out (outSize - 1)
    if encodedSize < 0 then pure (-1, out)
    else do
      let out ← store out encodedSize.toNat 0x00
      pure (encodedSize + 1, out)

/-- `decode`; `packet.cpp:46–73`. -/
def decode (data : List UInt8) (size : Nat) : Cpp (Option Packet) := do
  let decoded := List.replicate maxFrameSize 0
  let (decodedSize, decoded) ← decodeCobs data size decoded maxFrameSize
  if decodedSize < 0 ∨ decodedSize.toNat < headerSize + crcSize then pure none
  else do
    let bodySize := decodedSize.toNat - crcSize
    let expectedCrc ← calculateCrc decoded bodySize
    let actualCrc ← load decoded bodySize
    if actualCrc ≠ expectedCrc then pure none
    else do
      let packetId ← load decoded 0
      let deviceId ← load decoded 1
      let payload ← copyArray (Vector.replicate maxPayloadSize 0) 0 decoded headerSize
        (bodySize - headerSize)
      pure (some ⟨⟨packetId⟩, ⟨deviceId⟩, payload, bodySize - headerSize⟩)

/-- The check byte of a byte string. -/
def crcOf (data : List UInt8) : UInt8 := data.foldl crcByte 0x00

/-- The checksum of a buffer is that of its first `size` bytes. -/
theorem calculateCrc_eq (data : List UInt8) (size : Nat) (h : size ≤ data.length) :
    calculateCrc data size = .ok (crcOf (data.take size)) := by
  rw [calculateCrc, forData_eq _ _ _ _ h, List.foldlM_pure]
  rfl

/-- A packet of admissible size says as many payload bytes as its size field. -/
theorem length_message_payload {p : Packet} (h : p.size ≤ maxPayloadSize) :
    p.message.payload.length = p.size := by
  simp only [Packet.message, List.length_take, Vector.length_toList]
  omega

/-- Encoding a packet is encoding from its own array. -/
theorem encode_eq_encodeFrom (p : Packet) (out : List UInt8) (outSize : Nat) :
    encode p out outSize =
      encodeFrom p.packetId p.deviceId p.payload.toList p.size out outSize := by
  simp only [encode, encodeFrom, fillFrame, bind_assoc]

section Encoding

variable (packetId : PacketId) (deviceId : DeviceId) (payload : List UInt8) {size : Nat}

/-- The frame starts with the body of the message and its check byte. -/
theorem fillFrame_eq (hp : size ≤ maxPayloadSize) (hs : size ≤ payload.length) :
    ∃ pad, fillFrame packetId deviceId payload size =
      .ok ((Message.body ⟨packetId, deviceId, payload.take size⟩ ++
        [crcOf (Message.body ⟨packetId, deviceId, payload.take size⟩)]) ++ pad) := by
  have hm : maxPayloadSize = 64 := rfl
  have hf : maxFrameSize = 67 := rfl
  obtain ⟨body, hbody⟩ : ∃ body, Message.body ⟨packetId, deviceId, payload.take size⟩ = body :=
    ⟨_, rfl⟩
  have hcons : body = packetId.byte :: deviceId.byte :: payload.take size := hbody.symm
  have hlb : body.length = 2 + size := by
    rw [hcons, List.length_cons, List.length_cons, List.length_take]
    omega
  rw [hbody]
  refine ⟨List.replicate (64 - size) 0, ?_⟩
  have h0 : store (List.replicate maxFrameSize 0) 0 packetId.byte =
      .ok (packetId.byte :: List.replicate 66 0) := rfl
  have h1 : store (packetId.byte :: List.replicate 66 0) 1 deviceId.byte =
      .ok (packetId.byte :: deviceId.byte :: List.replicate 65 0) := rfl
  have h2 : copyLoop (packetId.byte :: deviceId.byte :: List.replicate 65 0) headerSize
      payload 0 size = .ok (body ++ 0 :: List.replicate (64 - size) 0) := by
    have hr : List.drop (headerSize + size)
        (packetId.byte :: deviceId.byte :: List.replicate 65 0) =
          0 :: List.replicate (64 - size) (0 : UInt8) := by
      rw [← List.replicate_succ, show headerSize + size = size + 2 by rw [headerSize]; omega,
        List.drop_succ_cons, List.drop_succ_cons, List.drop_replicate]
      congr 1
      omega
    rw [copyLoop_eq _ _ _ _ _ (by omega)
      (by simp only [List.length_cons, List.length_replicate, headerSize]; omega), hr, hcons]
    rfl
  have h3 : calculateCrc (body ++ 0 :: List.replicate (64 - size) 0)
      (headerSize + size) = .ok (crcOf body) := by
    rw [calculateCrc_eq _ _ (by rw [List.length_append, hlb, headerSize]; omega),
      show headerSize + size = body.length by rw [hlb, headerSize], List.take_left]
  have h4 := store_middle (i := headerSize + size) hlb 0 (List.replicate (64 - size) 0)
    (crcOf body)
  rw [fillFrame]
  simp only [h0, Cpp.ok_bind, h1, h2, h3, h4]
  rw [List.append_assoc]
  rfl

/-- Encoding into a large enough buffer writes the frame and a delimiter, and keeps what lies
behind them. Neither array need be longer than what is read and written. -/
theorem encodeFrom_eq {outSize : Nat} {out : List UInt8} (hp : size ≤ maxPayloadSize)
    (hl : size ≤ payload.length) (hs : size + 5 ≤ outSize) (ho : size + 5 ≤ out.length) :
    (frame crcOf ⟨packetId, deviceId, payload.take size⟩).length = size + 4 ∧
    encodeFrom packetId deviceId payload size out outSize =
      .ok ((((frame crcOf ⟨packetId, deviceId, payload.take size⟩).length + 1 : Nat) : Int),
        frame crcOf ⟨packetId, deviceId, payload.take size⟩ ++
          0 :: out.drop ((frame crcOf ⟨packetId, deviceId, payload.take size⟩).length + 1)) := by
  have hm : maxPayloadSize = 64 := rfl
  obtain ⟨m, hmsg⟩ : ∃ m : Message, ⟨packetId, deviceId, payload.take size⟩ = m := ⟨_, rfl⟩
  have hpay : m.payload.length = size := by
    rw [← hmsg, List.length_take]
    omega
  rcases fillFrame_eq packetId deviceId payload hp hl with ⟨pad, hfill⟩
  rw [hmsg] at hfill ⊢
  have hlen : (frame crcOf m).length = size + 4 := by
    rw [length_frame (by omega), hpay]
  have hsize : (m.body ++ [crcOf m.body]).length = headerSize + size + crcSize := by
    rw [List.length_append, Message.body, List.length_cons, List.length_cons, hpay,
      List.length_singleton, headerSize, crcSize]
    omega
  have hdiv : (headerSize + size + crcSize) / 254 = 0 :=
    Nat.div_eq_of_lt (by simp only [headerSize, crcSize]; omega)
  have hcobs := encodeCobs_of_room ((m.body ++ [crcOf m.body]) ++ pad) out
    (headerSize + size + crcSize) (outSize - 1)
    (by rw [List.length_append, hsize]; omega)
    (by rw [hdiv]; simp only [headerSize, crcSize]; omega)
    (by rw [hdiv]; simp only [headerSize, crcSize]; omega)
  rw [List.take_left' hsize, ← frame] at hcobs
  obtain ⟨x, rest, hx⟩ : ∃ x xs, out.drop (frame crcOf m).length = x :: xs :=
    List.exists_cons_of_length_pos (by rw [List.length_drop]; omega)
  have hrest : out.drop ((frame crcOf m).length + 1) = rest := by
    rw [← List.drop_drop, hx, List.drop_one, List.tail_cons]
  refine ⟨hlen, ?_⟩
  rw [encodeFrom, if_neg (by omega)]
  simp only [hfill, Cpp.ok_bind, hcobs]
  rw [if_neg (by omega), Int.toNat_natCast, hx, store_middle rfl, Cpp.ok_bind, Cpp.pure_eq, hrest]
  rfl

/-- A payload above the limit, or a buffer that is too small, is refused. Nothing is written. -/
theorem encodeFrom_refused {outSize : Nat} (out : List UInt8)
    (hl : size ≤ maxPayloadSize → size ≤ payload.length)
    (h : maxPayloadSize < size ∨ outSize < size + 5) :
    encodeFrom packetId deviceId payload size out outSize = .ok (-1, out) := by
  rw [encodeFrom]
  split
  · rfl
  · next hcond =>
    rw [not_or, Nat.not_lt] at hcond
    have hshort : outSize - 1 <
        headerSize + size + crcSize + (headerSize + size + crcSize) / 254 + 1 := by
      have := h.resolve_left (Nat.not_lt.mpr hcond.1)
      simp only [headerSize, crcSize]
      omega
    rcases fillFrame_eq packetId deviceId payload hcond.1 (hl hcond.1) with ⟨pad, hfill⟩
    simp only [hfill, Cpp.ok_bind, encodeCobs_of_small _ out _ _ hshort]
    rfl

end Encoding

/-- Encoding into a large enough buffer writes the packet's frame and a delimiter, and
keeps what lies behind them. -/
theorem encode_eq (p : Packet) (out : List UInt8) (outSize : Nat) (hp : p.size ≤ maxPayloadSize)
    (hs : p.size + 5 ≤ outSize) (ho : outSize ≤ out.length) :
    encode p out outSize =
      .ok ((((frame crcOf p.message).length + 1 : Nat) : Int),
        frame crcOf p.message ++ 0 :: out.drop ((frame crcOf p.message).length + 1)) := by
  rw [encode_eq_encodeFrom]
  apply (encodeFrom_eq p.packetId p.deviceId p.payload.toList hp _ hs (Nat.le_trans hs ho)).2
  rw [Vector.length_toList]
  exact hp

/-- A packet whose size field exceeds the largest payload is refused. -/
theorem encode_of_large (p : Packet) (out : List UInt8) (outSize : Nat)
    (hp : maxPayloadSize < p.size) : encode p out outSize = .ok (-1, out) := by
  rw [encode, if_pos (Or.inl hp), Cpp.pure_eq]

-- the part of `decode` behind the unstuffing, on data that holds a header and a check byte
private theorem decode_of_data {data pad payload : List UInt8} {size : Nat} {p v c : UInt8}
    (hp : payload.length ≤ maxPayloadSize)
    (h : decodeCobs data size (List.replicate maxFrameSize 0) maxFrameSize =
      .ok (((p :: v :: payload ++ [c]).length : Int), (p :: v :: payload ++ [c]) ++ pad)) :
    ∃ a : Vector UInt8 maxPayloadSize, a.toList.take payload.length = payload ∧
      decode data size = .ok (if c = crcOf (p :: v :: payload) then
        some ⟨⟨p⟩, ⟨v⟩, a, payload.length⟩ else none) := by
  have hm : maxPayloadSize = 64 := rfl
  have hlb : (p :: v :: payload).length = payload.length + 2 := by simp
  have hl : (p :: v :: payload ++ [c]).length = payload.length + 3 := by
    rw [List.length_append, hlb, List.length_singleton]
  have hsplit : (p :: v :: payload ++ [c]) ++ pad = p :: v :: payload ++ c :: pad :=
    (List.append_cons _ _ _).symm
  have hbs : payload.length + 3 - crcSize = (p :: v :: payload).length := by
    rw [hlb, crcSize]
    omega
  rw [hsplit, hl] at h
  obtain ⟨a, ha, hal⟩ := copyArray_eq (Vector.replicate maxPayloadSize 0) 0
    (p :: v :: payload ++ c :: pad) headerSize ((p :: v :: payload).length - headerSize)
    (by simp only [List.length_append, hlb, headerSize]; omega)
    (by rw [hlb, headerSize]; omega)
  refine ⟨a, ?_, ?_⟩
  · have hn : (p :: v :: payload).length - headerSize = payload.length := by
      rw [hlb, headerSize, Nat.add_sub_cancel]
    rw [hal, hn]
    simp [headerSize]
  · have hcrc : calculateCrc (p :: v :: payload ++ c :: pad) (p :: v :: payload).length =
        .ok (crcOf (p :: v :: payload)) := by
      rw [calculateCrc_eq _ _ (by rw [List.length_append]; omega), List.take_left]
    have hload : load (p :: v :: payload ++ c :: pad) (p :: v :: payload).length = .ok c := by
      simp [load]
    have h0 : load (p :: v :: payload ++ c :: pad) 0 = .ok p := rfl
    have h1 : load (p :: v :: payload ++ c :: pad) 1 = .ok v := rfl
    rw [decode, h]
    simp only [Cpp.ok_bind, Int.toNat_natCast]
    rw [if_neg (by simp only [headerSize, crcSize]; omega), hbs]
    simp only [hcrc, hload, h0, h1, ha, Cpp.ok_bind, Cpp.pure_eq, ne_eq, ite_not]
    split
    · rfl
    · rfl

/-- Decoding returns the packet that says the message of the frame, if that message fits
into a packet. -/
theorem decode_eq (data : List UInt8) (size : Nat) (hs : size ≤ data.length) :
    ∃ r, decode data size = .ok r ∧
      r.map Packet.message = (readFrame crcOf (data.take size)).filter
        (fun m ↦ m.payload.length ≤ maxPayloadSize) ∧
      ∀ q ∈ r, q.size ≤ maxPayloadSize := by
  have hm : maxPayloadSize = 64 := rfl
  have hf : maxFrameSize = 67 := rfl
  have h := decodeCobs_eq data (List.replicate maxFrameSize 0) size maxFrameSize hs
    (Nat.le_of_eq List.length_replicate.symm)
  -- a failure of the decoder is a frame without a message that fits
  have hnone : ∀ {o}, decodeCobs data size (List.replicate maxFrameSize 0) maxFrameSize =
      .ok (-1, o) → decode data size = .ok none := fun ho ↦ by
    rw [decode, ho]
    rfl
  cases hd : bytes.decode (data.take size) with
  | none =>
    rw [hd] at h
    obtain ⟨o, ho⟩ := h
    exact ⟨none, hnone ho, by simp [readFrame, hd], by simp⟩
  | some d =>
    rw [hd, Unstuffs] at h
    simp only [List.length_nil, Nat.zero_add, List.nil_append] at h
    have hread : readFrame crcOf (data.take size) = readBody crcOf d := by
      rw [readFrame, hd, Option.bind_some]
    by_cases hshort : d.length < 3
    · rw [if_pos (by omega)] at h
      refine ⟨none, ?_, by rw [hread, readBody_of_short hshort]; rfl, by simp⟩
      rw [decode, h]
      simp only [Cpp.ok_bind, Int.toNat_natCast]
      rw [if_pos (Or.inr (by simpa [headerSize, crcSize] using hshort)), Cpp.pure_eq]
    · obtain ⟨p, v, payload, c, rfl⟩ := exists_body_of_three_le hshort
      have hlen : (p :: v :: payload ++ [c]).length = payload.length + 3 := by simp
      rw [readBody_append _ c p v payload rfl] at hread
      rw [hread]
      by_cases hl : payload.length ≤ maxPayloadSize
      · rw [if_pos (by omega)] at h
        obtain ⟨a, ha, hdec⟩ := decode_of_data hl h
        refine ⟨_, hdec, ?_, ?_⟩
        · split
          · rw [Option.filter_some, if_pos (decide_eq_true hl), Option.map_some, Packet.message, ha]
          · rfl
        · intro q hq
          split at hq
          · cases hq
            exact hl
          · cases hq
      · rw [if_neg (by omega)] at h
        obtain ⟨o, ho⟩ := h
        refine ⟨none, hnone ho, ?_, by simp⟩
        split
        · rw [Option.filter_some, if_neg (by simpa using hl)]
          rfl
        · rfl

end BlueROV2.Firmware
