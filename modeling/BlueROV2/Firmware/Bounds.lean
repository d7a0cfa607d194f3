import BlueROV2.Base.Transition
import BlueROV2.Firmware.Client

/-!
# The arrays of the Teensy's client

Library `Firmware`. `serial_buffer.cpp`, `packet.cpp` and `client.cpp` of
`modules/teensy/lib/packet` index arrays of three related sizes without a test of their own. An
access outside an array aborts a computation here, so what returns made none.
-/

namespace BlueROV2.Firmware

open BlueROV2.Base BlueROV2.Wire

/-- The calls that change a `SerialBuffer`. -/
inductive BufferCall where
  | push (byte : UInt8)
  | reset
  deriving DecidableEq, Repr

namespace SerialBuffer

/-- One call, unless it accesses the buffer out of bounds. -/
def step : BufferCall → SerialBuffer → Option SerialBuffer
  | .push byte, b => (b.push byte).toOption.map Prod.snd
  | .reset, b => some b.reset

/-- A push into a buffer within its bounds stays within them. -/
theorem push_in_bounds {b : SerialBuffer} (h : b.len ≤ maxEncodedSize) (byte : UInt8) :
    ∃ haveFrame b', b.push byte = .ok (haveFrame, b') ∧ b'.len ≤ maxEncodedSize := by
  unfold push
  split
  · refine ⟨_, _, rfl, ?_⟩
    split
    · exact Nat.zero_le _
    · exact h
  · split
    · exact ⟨false, _, rfl, h⟩
    · next hlt =>
      have hlen := Nat.lt_of_not_ge hlt
      rw [storeArray, dif_pos hlen]
      exact ⟨false, _, rfl, hlen⟩

/-- Any calls in any order keep the buffer within its bounds. -/
theorem run_in_bounds (calls : List BufferCall) {b : SerialBuffer} (h : b.len ≤ maxEncodedSize) :
    ∃ b', Transition.run step calls b = some b' ∧ b'.len ≤ maxEncodedSize := by
  induction calls generalizing b with
  | nil => exact ⟨b, rfl, h⟩
  | cons call calls ih =>
    cases call with
    | push byte =>
      rcases push_in_bounds h byte with ⟨haveFrame, b₁, hpush, h₁⟩
      rcases ih h₁ with ⟨b', hrun, h'⟩
      refine ⟨b', ?_, h'⟩
      rw [Transition.run, step, hpush]
      exact hrun
    | reset => exact ih (Nat.zero_le _)

/-- A buffer that holds a segment is within its bounds. -/
theorem Holds.len_le {b : SerialBuffer} {cur : List UInt8} (h : b.Holds cur) :
    b.len ≤ maxEncodedSize := by
  unfold Holds at h
  split at h
  · next hle =>
    rw [h.2.1]
    exact hle
  · exact Nat.le_of_eq h.2

end SerialBuffer

/-- What `encode` does to arrays: it refuses and writes nothing, or it writes just the first `n`
bytes of the buffer. Either way it would do so with a payload array of `size` bytes and with a
buffer of no more than these `n` bytes, so it accesses no others. -/
def EncodesWithin (p : Packet) (out : List UInt8) (outSize : Nat) : Prop :=
  (encode p out outSize = .ok (-1, out) ∧
    encodeFrom p.packetId p.deviceId (p.payload.toList.take p.size) p.size [] outSize =
      .ok (-1, [])) ∨
  ∃ n text, 1 ≤ n ∧ n ≤ outSize ∧ text.length = n ∧
    encode p out outSize = .ok ((n : Int), text ++ out.drop n) ∧
    encodeFrom p.packetId p.deviceId (p.payload.toList.take p.size) p.size (out.take n) outSize =
      .ok ((n : Int), text)

/-- Whatever the size fields say, `encode` stays within its arrays. -/
theorem encodesWithin (p : Packet) (out : List UInt8) (outSize : Nat) (ho : outSize ≤ out.length) :
    EncodesWithin p out outSize := by
  have hfield : p.payload.toList.length = maxPayloadSize := Vector.length_toList
  have hcut : p.size ≤ maxPayloadSize → (p.payload.toList.take p.size).length = p.size := by
    intro hp
    rw [List.length_take, hfield]
    exact Nat.min_eq_left hp
  by_cases hfits : p.size ≤ maxPayloadSize ∧ p.size + 5 ≤ outSize
  · have hlen := hcut hfits.1
    have hroom : p.size + 5 ≤ (out.take (p.size + 5)).length := by
      rw [List.length_take]
      omega
    have hwhole := encodeFrom_eq p.packetId p.deviceId p.payload.toList hfits.1
      (by rw [hfield]; exact hfits.1) hfits.2 (Nat.le_trans hfits.2 ho)
    have hpart := encodeFrom_eq p.packetId p.deviceId (p.payload.toList.take p.size) hfits.1
      (Nat.le_of_eq hlen.symm) hfits.2 hroom
    rw [List.take_take, Nat.min_self] at hpart
    have hend : (frame crcOf ⟨p.packetId, p.deviceId, p.payload.toList.take p.size⟩).length + 1 =
        p.size + 5 := by
      rw [hwhole.1]
    rw [hend] at hwhole hpart
    refine Or.inr ⟨p.size + 5, frame crcOf ⟨p.packetId, p.deviceId, p.payload.toList.take p.size⟩
      ++ [0], by omega, hfits.2, ?_, ?_, ?_⟩
    · rw [List.length_append, List.length_singleton]
      exact hend
    · rw [encode_eq_encodeFrom, hwhole.2, List.append_assoc]
      rfl
    · rw [hpart.2, List.drop_of_length_le (by rw [List.length_take]; omega)]
  · have hno : maxPayloadSize < p.size ∨ outSize < p.size + 5 := by omega
    refine Or.inl ⟨?_, ?_⟩
    · rw [encode_eq_encodeFrom]
      apply encodeFrom_refused _ _ _ out _ hno
      intro hp
      rw [hfield]
      exact hp
    · apply encodeFrom_refused _ _ _ [] _ hno
      intro hp
      exact Nat.le_of_eq (hcut hp).symm

variable {W : Type}

/-- No index leaves its array: not in the serial buffer after any calls, not in any number of
polls over any bytes, not in decoding, and not in the table of handlers. `encode` refuses or
writes a size within the buffer it was given, and accesses nothing else. -/
theorem accesses_in_bounds (handlers : CommandHandlers W) :
    (∀ calls : List BufferCall, ∃ b, Transition.run SerialBuffer.step calls .start = some b ∧
      b.len ≤ maxEncodedSize) ∧
    (∀ (arrivals : List (List UInt8)) (w : W), ∃ trace c w',
      pollCommands handlers arrivals .start w = .ok (trace, c, w') ∧
      c.buffer.len ≤ maxEncodedSize) ∧
    (∀ (data : List UInt8) (size : Nat), size ≤ data.length →
      ∃ r, decode data size = .ok r ∧ ∀ p ∈ r, p.size ≤ maxPayloadSize) ∧
    (∀ commandId : CommandId, ∃ handler, findHandler handlers commandId = .ok handler) ∧
    ∀ (p : Packet) (out : List UInt8) (outSize : Nat), outSize ≤ out.length →
      EncodesWithin p out outSize := by
  refine ⟨fun calls ↦ SerialBuffer.run_in_bounds calls (Nat.zero_le _), ?_, ?_, ?_, encodesWithin⟩
  · intro arrivals w
    rcases pollCommands_eq handlers arrivals .start [] w SerialBuffer.holds_start List.not_mem_nil
      with ⟨consumed, trace, c, -, hpoll, -, -, hholds⟩
    exact ⟨trace, c, _, hpoll, hholds.len_le⟩
  · intro data size hs
    rcases decode_eq data size hs with ⟨r, hr, -, hsize⟩
    exact ⟨r, hr, hsize⟩
  · intro commandId
    exact ⟨_, findHandler_eq handlers commandId⟩

/-- A frame of three bytes, and a packet whose size field says more than its array holds. -/
theorem accesses_in_bounds_large :
    (∃ r, decode [3, 7, 7] 3 = .ok r ∧ ∀ p ∈ r, p.size ≤ maxPayloadSize) ∧
    EncodesWithin ⟨.command, .imu01, Vector.replicate maxPayloadSize 0, 65⟩ [1, 2, 3] 3 := by
  rcases accesses_in_bounds (W := Unit) (Vector.replicate 3 none) with ⟨-, -, hdec, -, henc⟩
  exact ⟨hdec [3, 7, 7] 3 (by decide), henc _ [1, 2, 3] 3 (by decide)⟩

end BlueROV2.Firmware
