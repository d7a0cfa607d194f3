import BlueROV2.Base.History
import BlueROV2.Firmware.Packet

/-!
# The serial client on the Teensy

Library `Firmware`. `modules/teensy/lib/packet/serial_buffer.cpp` and `client.cpp`. Command
handlers act on the rest of the firmware, a state `W`. What a poll does besides changing
state is recorded as a list of effects, in the order in which they happen.
-/

namespace BlueROV2.Firmware

open BlueROV2.Base BlueROV2.Base.History BlueROV2.Wire

/-- `SerialBuffer`; `serial_buffer.h:14`. -/
structure SerialBuffer where
  buffer : Vector UInt8 maxEncodedSize
  len : Nat
  overflowed : Bool
  deriving DecidableEq, Repr

namespace SerialBuffer

/-- A buffer just constructed. -/
def start : SerialBuffer := ⟨Vector.replicate maxEncodedSize 0, 0, false⟩

/-- `reset`; the bytes stay where they are; `serial_buffer.cpp:29–33`. -/
def reset (b : SerialBuffer) : SerialBuffer := { b with len := 0, overflowed := false }

/-- `push`: whether a complete frame is buffered now; `serial_buffer.cpp:6–23`. -/
def push (b : SerialBuffer) (byte : UInt8) : Cpp (Bool × SerialBuffer) :=
  if byte = 0x00 then
    let haveFrame := decide (b.len > 0) && !b.overflowed
    pure (haveFrame, if !haveFrame then b.reset else b)
  else if b.len ≥ maxEncodedSize then pure (false, { b with overflowed := true })
  else do
    let buffer ← storeArray b.buffer b.len byte
    pure (false, { b with buffer, len := b.len + 1 })

end SerialBuffer

variable {W : Type}

/-- `CommandHandler`, a function of the firmware's state. -/
abbrev CommandHandler (W : Type) := W → CommandResponse × W

/-- Set to the number of `CommandId` values; `client.h:51`. -/
def maxCommandHandlers : Nat := 3

/-- The table of registered handlers. -/
abbrev CommandHandlers (W : Type) := Vector (Option (CommandHandler W)) maxCommandHandlers

/-- What the client does to its surroundings: it decodes a frame, to a message or to nothing,
runs a handler, or writes to the stream. -/
inductive Effect where
  | decode (frame : List UInt8) (message : Option Message)
  | handle (commandId : CommandId) (result : CommandResponse)
  | write (bytes : List UInt8)
  deriving DecidableEq, Repr

/-- Command identifiers are 1-indexed; `size_t` has 32 bits on the Teensy and wraps. -/
def handlerIndex (commandId : CommandId) : UInt32 := commandId.byte.toUInt32 - 1

/-- `register_handler`; `client.cpp:29–35`. -/
def registerHandler (handlers : CommandHandlers W) (commandId : CommandId)
    (handler : Option (CommandHandler W)) : Cpp (CommandHandlers W) :=
  let index := (handlerIndex commandId).toNat
  if index < maxCommandHandlers then storeArray handlers index handler else pure handlers

/-- Successive calls of `register_handler`. -/
def registerHandlers : List (CommandId × Option (CommandHandler W)) → CommandHandlers W →
    Cpp (CommandHandlers W)
  | [], handlers => pure handlers
  | (commandId, handler) :: later, handlers => do
    let handlers ← registerHandler handlers commandId handler
    registerHandlers later handlers

/-- `find_handler`; `client.cpp:65–69`. -/
def findHandler (handlers : CommandHandlers W) (commandId : CommandId) :
    Cpp (Option (CommandHandler W)) :=
  let index := (handlerIndex commandId).toNat
  if index < maxCommandHandlers then load handlers.toList index else pure none

/-- `send_bytes`; `client.cpp:14–27`. -/
def sendBytes (packetId : PacketId) (deviceId : DeviceId) (data : List UInt8) (size : Nat) :
    Cpp (Bool × List Effect) := do
  let payload ← memcpy (Vector.replicate maxPayloadSize 0) data size
  let packet : Packet := ⟨packetId, deviceId, payload, size⟩
  let (n, out) ← encode packet (List.replicate maxEncodedSize 0) maxEncodedSize
  if n < 0 then pure (false, []) else pure (true, [.write (out.take n.toNat)])

/-- `send`, of a payload that is its bytes; `client.h:29–34`. -/
def send (packetId : PacketId) (deviceId : DeviceId) (payload : List UInt8) :
    Cpp (Bool × List Effect) :=
  sendBytes packetId deviceId payload payload.length

/-- `dispatch_command`; `client.cpp:51–63`. -/
def dispatchCommand (handlers : CommandHandlers W) (packet : Packet) (w : W) :
    Cpp (List Effect × W) :=
  if packet.packetId ≠ .command ∨ packet.size ≠ 3 then pure ([], w)
  else do
    let id ← load packet.payload.toList 0
    let handler ← findHandler handlers ⟨id⟩
    let (result, ran, w) :=
      match handler with
      | some handler => ((handler w).1, [Effect.handle ⟨id⟩ (handler w).1], (handler w).2)
      | none => (.unknownCommand, [], w)
    let seq ← load packet.payload.toList 1
    let (_, sent) ← send .commandResponse packet.deviceId [id, seq, result.byte]
    pure (ran ++ sent, w)

/-- The loop of `poll_command` over the bytes of the stream that are available; it leaves the
rest behind when a frame completes; `client.cpp:37–49`. -/
def pollBytes (handlers : CommandHandlers W) :
    List UInt8 → SerialBuffer → W → Cpp (List Effect × List UInt8 × SerialBuffer × W)
  | [], b, w => pure ([], [], b, w)
  | byte :: available, b, w => do
    let (complete, b) ← b.push byte
    if complete then do
      let packet ← decode b.buffer.toList b.len
      let decoded := Effect.decode (b.buffer.toList.take b.len) (packet.map Packet.message)
      let b := b.reset
      match packet with
      | some packet => do
        let (effects, w) ← dispatchCommand handlers packet w
        pure (decoded :: effects, available, b, w)
      | none => pure ([decoded], available, b, w)
    else pollBytes handlers available b w

/-- The members of `Client` that polling changes: the bytes waiting in its stream and the
serial buffer. -/
structure Client where
  available : List UInt8
  buffer : SerialBuffer
  deriving DecidableEq, Repr

/-- A client just constructed. -/
def Client.start : Client := ⟨[], .start⟩

/-- `poll_command`, with `arrived` the bytes received since the last call. -/
def pollCommand (handlers : CommandHandlers W) (arrived : List UInt8) (c : Client) (w : W) :
    Cpp (List Effect × Client × W) := do
  let (effects, available, buffer, w) ← pollBytes handlers (c.available ++ arrived) c.buffer w
  pure (effects, ⟨available, buffer⟩, w)

/-- Successive calls of `poll_command`, with the effects of each. -/
def pollCommands (handlers : CommandHandlers W) :
    List (List UInt8) → Client → W → Cpp (List (List Effect) × Client × W)
  | [], c, w => pure ([], c, w)
  | arrived :: later, c, w => do
    let (effects, c, w) ← pollCommand handlers arrived c w
    let (trace, c, w) ← pollCommands handlers later c w
    pure (effects :: trace, c, w)

/-! ### Handlers and responses -/

/-- The handler in effect for a command identifier. -/
def handlerFor (handlers : CommandHandlers W) (commandId : CommandId) : Option (CommandHandler W) :=
  if h : 1 ≤ commandId.byte.toNat ∧ commandId.byte.toNat ≤ maxCommandHandlers then
    handlers[commandId.byte.toNat - 1]
  else none

/-- The handler registered for a command: that of the last registration for it, or else its entry
in the table before. There are entries for the commands 1 to 3 only. -/
def registeredFor (handlers : CommandHandlers W)
    (registrations : List (CommandId × Option (CommandHandler W))) (commandId : CommandId) :
    Option (CommandHandler W) :=
  if 1 ≤ commandId.byte.toNat ∧ commandId.byte.toNat ≤ 3 then
    lastSeen (fun r ↦ if r.1 = commandId then some r.2 else none) (handlerFor handlers commandId)
      registrations
  else none

/-- The index of an identifier is one less; zero wraps to the largest index. -/
theorem toNat_handlerIndex (commandId : CommandId) :
    (handlerIndex commandId).toNat =
      if commandId.byte.toNat = 0 then 4294967295 else commandId.byte.toNat - 1 := by
  have hlt := commandId.byte.toNat_lt
  rw [handlerIndex, UInt32.toNat_sub, UInt8.toNat_toUInt32]
  split
  · next h => rw [h]; rfl
  · simp
    omega

/-- Lookup finds the handler in effect and never leaves the table. -/
theorem findHandler_eq (handlers : CommandHandlers W) (commandId : CommandId) :
    findHandler handlers commandId = .ok (handlerFor handlers commandId) := by
  have hm : maxCommandHandlers = 3 := rfl
  have hlt := commandId.byte.toNat_lt
  rw [findHandler, handlerFor, toNat_handlerIndex]
  by_cases h0 : commandId.byte.toNat = 0
  · rw [if_pos h0, if_neg (by omega), dif_neg (by omega), Cpp.pure_eq]
  · rw [if_neg h0]
    by_cases h3 : commandId.byte.toNat ≤ 3
    · rw [if_pos (by omega), dif_pos ⟨by omega, by omega⟩,
        load_of_lt (by rw [Vector.length_toList]; omega), Vector.getElem_toList]
    · rw [if_neg (by omega), dif_neg (by omega), Cpp.pure_eq]

/-- Registration replaces the handler of its own identifier and no other. -/
theorem registerHandler_eq (handlers : CommandHandlers W) (commandId : CommandId)
    (handler : Option (CommandHandler W))
    (h : 1 ≤ commandId.byte.toNat ∧ commandId.byte.toNat ≤ maxCommandHandlers) :
    ∃ handlers', registerHandler handlers commandId handler = .ok handlers' ∧
      ∀ id, handlerFor handlers' id =
        if id = commandId then handler else handlerFor handlers id := by
  have hm : maxCommandHandlers = 3 := rfl
  have hi : (handlerIndex commandId).toNat = commandId.byte.toNat - 1 := by
    rw [toNat_handlerIndex, if_neg (by omega)]
  refine ⟨handlers.set (commandId.byte.toNat - 1) handler (by omega), ?_, ?_⟩
  · simp only [registerHandler, hi]
    rw [if_pos (by omega), storeArray, dif_pos (by omega)]
  · intro id
    unfold handlerFor
    by_cases hid : id = commandId
    · subst hid
      rw [dif_pos h, if_pos rfl, Vector.getElem_set_self]
    · rw [if_neg hid]
      by_cases hr : 1 ≤ id.byte.toNat ∧ id.byte.toNat ≤ maxCommandHandlers
      · have hne : commandId.byte.toNat - 1 ≠ id.byte.toNat - 1 := by
          intro he
          have : id.byte.toNat = commandId.byte.toNat := by omega
          cases id
          cases commandId
          exact hid (congrArg CommandId.mk (UInt8.toNat_inj.mp this))
        rw [dif_pos hr, dif_pos hr, Vector.getElem_set_ne _ _ hne]
      · rw [dif_neg hr, dif_neg hr]

/-- A command without an entry is not registered. -/
theorem registerHandler_of_not (handlers : CommandHandlers W) {commandId : CommandId}
    (handler : Option (CommandHandler W))
    (h : ¬ (1 ≤ commandId.byte.toNat ∧ commandId.byte.toNat ≤ maxCommandHandlers)) :
    registerHandler handlers commandId handler = .ok handlers := by
  have hm : maxCommandHandlers = 3 := rfl
  have hindex : ¬ (handlerIndex commandId).toNat < maxCommandHandlers := by
    rw [toNat_handlerIndex]
    split <;> omega
  simp only [registerHandler]
  rw [if_neg hindex, Cpp.pure_eq]

/-- After any registrations, the handler in effect for a command is the one registered for it. -/
theorem registerHandlers_registered (registrations : List (CommandId × Option (CommandHandler W)))
    (handlers : CommandHandlers W) :
    ∃ handlers', registerHandlers registrations handlers = .ok handlers' ∧
      ∀ id, handlerFor handlers' id = registeredFor handlers registrations id := by
  have hm : maxCommandHandlers = 3 := rfl
  induction registrations generalizing handlers with
  | nil =>
    refine ⟨handlers, rfl, fun id ↦ ?_⟩
    unfold registeredFor
    split
    · rfl
    · next hid => rw [handlerFor, dif_neg (by omega)]
  | cons r registrations ih =>
    obtain ⟨commandId, handler⟩ := r
    by_cases hc : 1 ≤ commandId.byte.toNat ∧ commandId.byte.toNat ≤ maxCommandHandlers
    · obtain ⟨handlers₁, hfirst, hentry⟩ := registerHandler_eq handlers commandId handler hc
      obtain ⟨handlers', hlater, hall⟩ := ih handlers₁
      refine ⟨handlers', ?_, fun id ↦ ?_⟩
      · rw [registerHandlers, hfirst, Cpp.ok_bind, hlater]
      · rw [hall, registeredFor, registeredFor, lastSeen_cons, hentry]
        by_cases hid : id = commandId
        · rw [if_pos hid, if_pos hid.symm]
          rfl
        · rw [if_neg hid, if_neg (Ne.symm hid)]
          rfl
    · obtain ⟨handlers', hlater, hall⟩ := ih handlers
      refine ⟨handlers', ?_, fun id ↦ ?_⟩
      · rw [registerHandlers, registerHandler_of_not handlers handler hc, Cpp.ok_bind, hlater]
      · rw [hall, registeredFor, registeredFor]
        by_cases hid : 1 ≤ id.byte.toNat ∧ id.byte.toNat ≤ 3
        · have hne : commandId ≠ id := by
            rintro rfl
            exact hc hid
          rw [if_pos hid, if_pos hid, lastSeen_cons, if_neg hne]
          rfl
        · rw [if_neg hid, if_neg hid]

/-- Sending an admissible payload writes the frame of its message and a delimiter. -/
theorem send_eq (packetId : PacketId) (deviceId : DeviceId) (payload : List UInt8)
    (h : payload.length ≤ maxPayloadSize) :
    send packetId deviceId payload =
      .ok (true, [.write (frame crcOf ⟨packetId, deviceId, payload⟩ ++ [0])]) := by
  have hm : maxPayloadSize = 64 := rfl
  have he : maxEncodedSize = 69 := rfl
  obtain ⟨a, ha, hal⟩ := copyArray_eq (Vector.replicate maxPayloadSize 0) 0 payload 0 payload.length
    (by omega) (by omega)
  have hmsg : Packet.message ⟨packetId, deviceId, a, payload.length⟩ =
      ⟨packetId, deviceId, payload⟩ := by
    rw [Packet.message]
    simp [hal]
  have henc := encode_eq ⟨packetId, deviceId, a, payload.length⟩
    (List.replicate maxEncodedSize 0) maxEncodedSize h (by simp only; omega)
    (Nat.le_of_eq List.length_replicate.symm)
  rw [hmsg] at henc
  rw [send, sendBytes, memcpy, ha]
  simp only [Cpp.ok_bind, henc]
  rw [if_neg (by omega), Int.toNat_natCast, List.append_cons,
    List.take_left' (by rw [List.length_append, List.length_singleton]), Cpp.pure_eq]

/-- What executing a command yields: its result, the effect of its handler and the new state. -/
def execute (handlers : CommandHandlers W) (commandId : CommandId) (w : W) :
    CommandResponse × List Effect × W :=
  match handlerFor handlers commandId with
  | some handler => ((handler w).1, [.handle commandId (handler w).1], (handler w).2)
  | none => (.unknownCommand, [], w)

/-- What dispatching a message yields: a command with a three-byte payload is executed and
answered, anything else is ignored. -/
def respond (handlers : CommandHandlers W) (m : Message) (w : W) : List Effect × W :=
  match m.payload with
  | [id, seq, _] =>
    if m.packetId = .command then
      ((execute handlers ⟨id⟩ w).2.1 ++ [.write (frame crcOf
        ⟨.commandResponse, m.deviceId, [id, seq, (execute handlers ⟨id⟩ w).1.byte]⟩ ++ [0])],
        (execute handlers ⟨id⟩ w).2.2)
    else ([], w)
  | _ => ([], w)

/-- A message other than a command with a three-byte payload changes nothing. -/
theorem respond_of_not_command (handlers : CommandHandlers W) {m : Message} (w : W)
    (h : ¬ (m.packetId = .command ∧ m.payload.length = 3)) : respond handlers m w = ([], w) := by
  unfold respond
  split
  · next he =>
    rw [he] at h
    exact if_neg (fun hid ↦ h ⟨hid, rfl⟩)
  · rfl

/-- A command with a three-byte payload is executed and answered. -/
theorem respond_command (handlers : CommandHandlers W) {m : Message} (w : W)
    {id seq arg result : UInt8} {ran : List Effect} {w' : W} (hid : m.packetId = .command)
    (hm : m.payload = [id, seq, arg]) (he : execute handlers ⟨id⟩ w = (⟨result⟩, ran, w')) :
    respond handlers m w =
      (ran ++ [.write (frame crcOf ⟨.commandResponse, m.deviceId, [id, seq, result]⟩ ++ [0])],
        w') := by
  unfold respond
  simp only [hm, he, if_pos hid]

private theorem exists_of_length_three {l : List UInt8} (h : l.length = 3) :
    ∃ a b c, l = [a, b, c] := by
  match l, h with
  | [a, b, c], _ => exact ⟨a, b, c, rfl⟩

/-- Dispatching a packet responds to its message. -/
theorem dispatchCommand_eq (handlers : CommandHandlers W) (p : Packet) (w : W)
    (hp : p.size ≤ maxPayloadSize) :
    dispatchCommand handlers p w = .ok (respond handlers p.message w) := by
  have hlen := length_message_payload hp
  by_cases hc : p.packetId = .command ∧ p.size = 3
  · obtain ⟨id, seq, arg, hpay⟩ := exists_of_length_three (hlen.trans hc.2)
    obtain ⟨⟨⟨result⟩, ran, w'⟩, he⟩ : ∃ x, execute handlers ⟨id⟩ w = x := ⟨_, rfl⟩
    have h0 : load p.payload.toList 0 = .ok id :=
      load_of_drop_take (n := p.size) (b := [seq, arg]) hpay
    have h1 : load p.payload.toList 1 = .ok seq :=
      load_of_drop_take (n := p.size) (b := [arg]) (congrArg (List.drop 1) hpay)
    have hsend := send_eq .commandResponse p.deviceId [id, seq, result] (by decide : 3 ≤ 64)
    rw [respond_command handlers w hc.1 hpay he, dispatchCommand, if_neg (by simp [hc])]
    unfold execute at he
    simp only [h0, findHandler_eq, he, h1, hsend, Cpp.ok_bind, Cpp.pure_eq]
    rfl
  · rw [respond_of_not_command handlers w (by rwa [hlen]), dispatchCommand,
      if_pos (Decidable.not_and_iff_or_not.mp hc), Cpp.pure_eq]

/-! ### Receiving -/

/-- The frames of a stream that a serial buffer can hold. -/
def accepted (s : List UInt8) : List (List UInt8) :=
  (Framing.complete 0 s).filter (fun f ↦ f ≠ [] ∧ f.length ≤ maxEncodedSize)

/-- A complete segment is accepted when it is not empty and fits. -/
theorem accepted_segment {b : List UInt8} (hb : (0 : UInt8) ∉ b) (s : List UInt8) :
    accepted (b ++ 0 :: s) =
      (if b ≠ [] ∧ b.length ≤ maxEncodedSize then [b] else []) ++ accepted s := by
  rw [accepted, Framing.complete_frame 0 b s hb, accepted]
  by_cases h : b ≠ [] ∧ b.length ≤ maxEncodedSize
  · rw [List.filter_cons_of_pos (by simpa using h), if_pos h]
    rfl
  · rw [List.filter_cons_of_neg (by simpa using h), if_neg h]
    rfl

/-- A stream without a delimiter has no frame yet. -/
theorem accepted_of_notMem {b : List UInt8} (hb : (0 : UInt8) ∉ b) : accepted b = [] := by
  rw [accepted, Framing.complete_of_notMem 0 b hb]
  rfl

/-- The frames of two streams in a row. -/
theorem accepted_append (s t : List UInt8) :
    accepted (s ++ t) = accepted s ++ accepted (Framing.unfinished 0 s ++ t) := by
  simp only [accepted, Framing.complete_append 0 s t, List.filter_append]

/-- The segment that a serial buffer stands for: it is stored while it fits, and only known to
be too long afterwards. -/
def SerialBuffer.Holds (b : SerialBuffer) (cur : List UInt8) : Prop :=
  if cur.length ≤ maxEncodedSize then
    b.overflowed = false ∧ b.len = cur.length ∧ b.buffer.toList.take cur.length = cur
  else b.overflowed = true ∧ b.len = maxEncodedSize

namespace SerialBuffer

/-- An emptied buffer holds the empty segment. -/
theorem holds_reset (b : SerialBuffer) : b.reset.Holds [] := by
  rw [Holds, if_pos (by simp)]
  exact ⟨rfl, rfl, rfl⟩

/-- A new buffer holds the empty segment. -/
theorem holds_start : start.Holds [] := holds_reset start

/-- A byte other than the delimiter extends the segment. -/
theorem push_data {b : SerialBuffer} {cur : List UInt8} (h : b.Holds cur) {byte : UInt8}
    (hb : byte ≠ 0) : ∃ b', b.push byte = .ok (false, b') ∧ b'.Holds (cur ++ [byte]) := by
  have hl : (cur ++ [byte]).length = cur.length + 1 := by
    rw [List.length_append, List.length_singleton]
  rw [push, if_neg hb]
  by_cases hlt : cur.length < maxEncodedSize
  · rw [Holds, if_pos (by omega)] at h
    obtain ⟨ho, hn, ht⟩ := h
    rw [if_neg (by omega), storeArray, dif_pos (by omega), Cpp.ok_bind, Cpp.pure_eq]
    refine ⟨_, rfl, ?_⟩
    rw [Holds, if_pos (by omega)]
    refine ⟨ho, by simp only [hn, hl], ?_⟩
    have hlen : cur.length < b.buffer.toList.length := by rw [Vector.length_toList]; omega
    simp only [hn, hl, Vector.toList_set]
    rw [List.take_succ_eq_append_getElem (by rwa [List.length_set]), List.getElem_set_self,
      List.take_set_of_le (Nat.le_refl _), ht]
  · by_cases heq : cur.length = maxEncodedSize
    · rw [Holds, if_pos (by omega)] at h
      rw [if_pos (by omega), Cpp.pure_eq]
      refine ⟨_, rfl, ?_⟩
      rw [Holds, if_neg (by omega)]
      exact ⟨rfl, by rw [h.2.1, heq]⟩
    · rw [Holds, if_neg (by omega)] at h
      rw [if_pos (by omega), Cpp.pure_eq]
      refine ⟨_, rfl, ?_⟩
      rw [Holds, if_neg (by omega)]
      exact ⟨rfl, h.2⟩

/-- A delimiter completes a segment that is not empty and fits. -/
theorem push_delimiter {b : SerialBuffer} {cur : List UInt8} (h : b.Holds cur)
    (hc : cur ≠ [] ∧ cur.length ≤ maxEncodedSize) :
    b.push 0 = .ok (true, b) ∧ b.len = cur.length ∧ b.buffer.toList.take b.len = cur := by
  rw [Holds, if_pos hc.2] at h
  obtain ⟨ho, hn, ht⟩ := h
  have hpos : b.len > 0 := by rw [hn]; exact List.length_pos_iff.mpr hc.1
  refine ⟨?_, hn, by rw [hn, ht]⟩
  simp [push, ho, hpos]

/-- A delimiter behind an empty or an overlong segment starts afresh. -/
theorem push_delimiter_of_not {b : SerialBuffer} {cur : List UInt8} (h : b.Holds cur)
    (hc : ¬ (cur ≠ [] ∧ cur.length ≤ maxEncodedSize)) : b.push 0 = .ok (false, b.reset) := by
  by_cases hl : cur.length ≤ maxEncodedSize
  · rw [Holds, if_pos hl] at h
    have hnil : cur = [] := by
      rcases Decidable.em (cur = []) with hn | hn
      · exact hn
      · exact absurd ⟨hn, hl⟩ hc
    have hz : b.len = 0 := by rw [h.2.1, hnil, List.length_nil]
    simp [push, hz]
  · rw [Holds, if_neg hl] at h
    simp [push, h.1]

end SerialBuffer

/-- The message a frame is decoded to: the one it is read as, if that fits into a packet. -/
def received (f : List UInt8) : Option Message :=
  (readFrame crcOf f).filter (fun m ↦ m.payload.length ≤ maxPayloadSize)

/-- What serving a frame yields: it is decoded, and its message dispatched if it has one. -/
def serve (handlers : CommandHandlers W) (f : List UInt8) (w : W) : List Effect × W :=
  match received f with
  | some m => (.decode f (some m) :: (respond handlers m w).1, (respond handlers m w).2)
  | none => ([.decode f none], w)

/-- Serving frames one after the other. -/
def serveAll (handlers : CommandHandlers W) : List (List UInt8) → W → List Effect × W
  | [], w => ([], w)
  | f :: fs, w =>
    ((serve handlers f w).1 ++ (serveAll handlers fs (serve handlers f w).2).1,
      (serveAll handlers fs (serve handlers f w).2).2)

/-- Serving a list of frames in two parts. -/
theorem serveAll_append (handlers : CommandHandlers W) (fs gs : List (List UInt8)) (w : W) :
    serveAll handlers (fs ++ gs) w =
      ((serveAll handlers fs w).1 ++ (serveAll handlers gs (serveAll handlers fs w).2).1,
        (serveAll handlers gs (serveAll handlers fs w).2).2) := by
  induction fs generalizing w with
  | nil => rfl
  | cons f fs ih => simp only [List.cons_append, serveAll, ih, List.append_assoc]

/-- A poll consumes a prefix of what is available and serves the frames completed by it, at
most one; it leaves bytes behind only after a frame. -/
theorem pollBytes_eq (handlers : CommandHandlers W) (available : List UInt8) (b : SerialBuffer)
    (cur : List UInt8) (w : W) (hb : b.Holds cur) (hc : (0 : UInt8) ∉ cur) :
    ∃ consumed rest b', available = consumed ++ rest ∧ (available ≠ [] → consumed ≠ []) ∧
      pollBytes handlers available b w =
        .ok ((serveAll handlers (accepted (cur ++ consumed)) w).1, rest, b',
          (serveAll handlers (accepted (cur ++ consumed)) w).2) ∧
      b'.Holds (Framing.unfinished 0 (cur ++ consumed)) ∧
      (accepted (cur ++ consumed)).length ≤ 1 ∧ (rest ≠ [] → accepted (cur ++ consumed) ≠ []) := by
  induction available generalizing b cur with
  | nil =>
    refine ⟨[], [], b, rfl, by simp, ?_, ?_, ?_, by simp⟩
    · rw [List.append_nil, accepted_of_notMem hc, pollBytes]
      rfl
    · rwa [List.append_nil, Framing.unfinished_of_notMem 0 cur hc]
    · rw [List.append_nil, accepted_of_notMem hc]
      exact Nat.zero_le 1
  | cons byte available ih =>
    by_cases hz : byte = 0
    · subst hz
      by_cases hacc : cur ≠ [] ∧ cur.length ≤ maxEncodedSize
      · -- the frame is complete: the rest stays in the stream
        obtain ⟨hpush, hlen, htake⟩ := SerialBuffer.push_delimiter hb hacc
        obtain ⟨r, hdec, hmsg, hsize⟩ := decode_eq b.buffer.toList b.len
          (by rw [Vector.length_toList, hlen]; exact hacc.2)
        have hone : accepted (cur ++ [0]) = [cur] := by
          rw [accepted_segment hc [], if_pos hacc, accepted_of_notMem List.not_mem_nil]
          rfl
        refine ⟨[0], available, b.reset, rfl, by simp, ?_, ?_, ?_, by simp [hone]⟩
        · rw [htake] at hmsg
          rw [pollBytes, hpush, hone]
          simp only [Cpp.ok_bind, if_true, hdec, htake, serveAll, List.append_nil]
          rw [serve, received, ← hmsg]
          cases r with
          | none => rfl
          | some p =>
            simp only [dispatchCommand_eq handlers p w (hsize p rfl), Cpp.ok_bind, Cpp.pure_eq]
            rfl
        · rw [Framing.unfinished_frame 0 cur [] hc]
          exact b.holds_reset
        · rw [hone]
          exact Nat.le_refl 1
      · obtain ⟨consumed, rest, b', hav, -, hpoll, hholds, hone, hstop⟩ :=
          ih b.reset [] b.holds_reset List.not_mem_nil
        have hskip : accepted (cur ++ 0 :: consumed) = accepted consumed := by
          rw [accepted_segment hc consumed, if_neg hacc, List.nil_append]
        refine ⟨0 :: consumed, rest, b', by rw [hav]; rfl, by simp, ?_, ?_, ?_, ?_⟩
        · rw [pollBytes, SerialBuffer.push_delimiter_of_not hb hacc, hskip]
          simpa using hpoll
        · rw [Framing.unfinished_frame 0 cur consumed hc]
          exact hholds
        · rw [hskip]
          exact hone
        · rw [hskip]
          exact hstop
    · obtain ⟨b₁, hpush, hb₁⟩ := SerialBuffer.push_data hb hz
      have hc₁ : (0 : UInt8) ∉ cur ++ [byte] := by
        simp only [List.mem_append, List.mem_singleton, not_or]
        exact ⟨hc, Ne.symm hz⟩
      obtain ⟨consumed, rest, b', hav, -, hpoll, hholds, hone, hstop⟩ :=
        ih b₁ (cur ++ [byte]) hb₁ hc₁
      rw [List.append_assoc, List.singleton_append] at hpoll hholds hone hstop
      refine ⟨byte :: consumed, rest, b', by rw [hav]; rfl, by simp, ?_, hholds, hone, hstop⟩
      rw [pollBytes, hpush]
      simpa using hpoll

/-- The frames that were decoded, in order. -/
def framesOf (effects : List Effect) : List (List UInt8) :=
  effects.filterMap fun | .decode f _ => some f | _ => none

/-- The messages that frames were decoded to, in order. -/
def messagesOf (effects : List Effect) : List Message :=
  effects.filterMap fun | .decode _ m => m | _ => none

/-- The handlers that ran, with their results, in order. -/
def handledBy (effects : List Effect) : List (CommandId × CommandResponse) :=
  effects.filterMap fun | .handle commandId result => some (commandId, result) | _ => none

/-- What was written, call by call. -/
def writtenBy (effects : List Effect) : List (List UInt8) :=
  effects.filterMap fun | .write bytes => some bytes | _ => none

/-- Responding decodes nothing further. -/
theorem decodes_respond (handlers : CommandHandlers W) (m : Message) (w : W) :
    framesOf (respond handlers m w).1 = [] ∧ messagesOf (respond handlers m w).1 = [] := by
  unfold respond execute
  repeat' split
  all_goals exact ⟨rfl, rfl⟩

/-- Serving frames decodes each of them once. -/
theorem framesOf_serveAll (handlers : CommandHandlers W) (fs : List (List UInt8)) (w : W) :
    framesOf (serveAll handlers fs w).1 = fs := by
  induction fs generalizing w with
  | nil => rfl
  | cons f fs ih =>
    have hone : framesOf (serve handlers f w).1 = [f] := by
      unfold serve
      cases received f with
      | none => rfl
      | some m => exact congrArg (f :: ·) (decodes_respond handlers m w).1
    rw [serveAll, framesOf, List.filterMap_append, ← framesOf, ← framesOf, hone, ih]
    rfl

/-- Serving frames receives their messages. -/
theorem messagesOf_serveAll (handlers : CommandHandlers W) (fs : List (List UInt8)) (w : W) :
    messagesOf (serveAll handlers fs w).1 = fs.filterMap received := by
  induction fs generalizing w with
  | nil => rfl
  | cons f fs ih =>
    have hone : messagesOf (serve handlers f w).1 = (received f).toList := by
      unfold serve
      cases received f with
      | none => rfl
      | some m => exact congrArg (m :: ·) (decodes_respond handlers m w).2
    rw [serveAll, messagesOf, List.filterMap_append, ← messagesOf, ← messagesOf, hone, ih,
      List.filterMap_cons]
    cases received f with
    | none => rfl
    | some m => rfl

/-! ### Runs of polls -/

/-- One poll: what it consumes of the waiting bytes, and what it serves. -/
theorem pollCommand_eq (handlers : CommandHandlers W) (arrived : List UInt8) (c : Client)
    (cur : List UInt8) (w : W) (hb : c.buffer.Holds cur) (hc : (0 : UInt8) ∉ cur) :
    ∃ consumed c', c.available ++ arrived = consumed ++ c'.available ∧
      (c.available ++ arrived ≠ [] → consumed ≠ []) ∧
      pollCommand handlers arrived c w =
        .ok ((serveAll handlers (accepted (cur ++ consumed)) w).1, c',
          (serveAll handlers (accepted (cur ++ consumed)) w).2) ∧
      c'.buffer.Holds (Framing.unfinished 0 (cur ++ consumed)) ∧
      (accepted (cur ++ consumed)).length ≤ 1 ∧
      (c'.available ≠ [] → accepted (cur ++ consumed) ≠ []) := by
  obtain ⟨consumed, rest, b', hav, hne, hpoll, hholds, hone, hstop⟩ :=
    pollBytes_eq handlers (c.available ++ arrived) c.buffer cur w hb hc
  exact ⟨consumed, ⟨rest, b'⟩, hav, hne, by rw [pollCommand, hpoll]; rfl, hholds, hone, hstop⟩

/-- A client with nothing received but not yet served. -/
def Client.Idle (c : Client) : Prop := c.available = [] ∧ c.buffer.Holds []

/-- A poll of an idle client at which one whole frame arrives serves that frame. -/
theorem pollCommand_frame (handlers : CommandHandlers W) {f : List UInt8} {c : Client} (w : W)
    (hidle : c.Idle) (hfree : (0 : UInt8) ∉ f) (hne : f ≠ []) (hle : f.length ≤ maxEncodedSize) :
    ∃ c', pollCommand handlers (f ++ [0]) c w =
      .ok ((serve handlers f w).1, c', (serve handlers f w).2) ∧ c'.Idle := by
  rcases pollCommand_eq handlers (f ++ [0]) c [] w hidle.2 List.not_mem_nil with
    ⟨consumed, c', hav, -, hpoll, hholds, -, hstop⟩
  rw [hidle.1, List.nil_append] at hav
  simp only [List.nil_append] at hpoll hholds hstop
  -- whatever is left behind would begin with the frame's own delimiter
  have hnil : c'.available = [] := by
    apply Decidable.byContradiction
    intro hrest
    apply hstop hrest
    rw [← List.dropLast_concat_getLast hrest, ← List.append_assoc] at hav
    have hf : f = consumed ++ c'.available.dropLast := (List.append_inj' hav rfl).1
    apply accepted_of_notMem
    intro h0
    exact hfree (hf ▸ List.mem_append_left _ h0)
  rw [hnil, List.append_nil] at hav
  subst hav
  have hone : accepted (f ++ [0]) = [f] := by
    rw [accepted_segment hfree, if_pos ⟨hne, hle⟩, accepted_of_notMem List.not_mem_nil]
    rfl
  have hend : Framing.unfinished 0 (f ++ [0]) = [] := Framing.unfinished_frame 0 f [] hfree
  rw [hone] at hpoll
  rw [hend] at hholds
  simp only [serveAll, List.append_nil] at hpoll
  exact ⟨c', hpoll, hnil, hholds⟩

/-- A poll of an idle client at which the frame of a command arrives executes the command and
writes its response. -/
theorem pollCommand_command (handlers : CommandHandlers W) (deviceId : DeviceId)
    (commandId : CommandId) (seq arg : UInt8) {c : Client} {w w' : W} {result : CommandResponse}
    {ran : List Effect} (hidle : c.Idle)
    (he : execute handlers commandId w = (result, ran, w')) :
    ∃ c', pollCommand handlers
        (frame crcOf ⟨.command, deviceId, [commandId.byte, seq, arg]⟩ ++ [0]) c w =
      .ok (.decode (frame crcOf ⟨.command, deviceId, [commandId.byte, seq, arg]⟩)
          (some ⟨.command, deviceId, [commandId.byte, seq, arg]⟩) :: (ran ++ [.write (frame crcOf
            ⟨.commandResponse, deviceId, [commandId.byte, seq, result.byte]⟩ ++ [0])]), c', w') ∧
      c'.Idle := by
  obtain ⟨m, hm⟩ : ∃ m : Message, m = ⟨.command, deviceId, [commandId.byte, seq, arg]⟩ := ⟨_, rfl⟩
  have hlen : (frame crcOf m).length = 3 + 4 := hm ▸ length_frame (by decide : 3 < 251)
  have hcap : maxEncodedSize = 69 := rfl
  have hfits : (frame crcOf m).length ≤ maxEncodedSize := by omega
  rcases pollCommand_frame handlers w hidle (notMem_frame m) (frame_ne_nil m) hfits with
    ⟨c', hpoll, hidle'⟩
  have hread : received (frame crcOf m) = some m := by
    rw [received, readFrame_frame, Option.filter_some, hm]
    rfl
  simp only [serve, hread, respond_command handlers w (congrArg Message.packetId hm)
    (congrArg Message.payload hm) he] at hpoll
  rw [hm] at hpoll
  exact ⟨c', hpoll, hidle'⟩

/-- Successive polls serve the frames of what they consume, at most one in each poll. -/
theorem pollCommands_eq (handlers : CommandHandlers W) (arrivals : List (List UInt8)) (c : Client)
    (cur : List UInt8) (w : W) (hb : c.buffer.Holds cur) (hc : (0 : UInt8) ∉ cur) :
    ∃ consumed trace c', c.available ++ arrivals.flatten = consumed ++ c'.available ∧
      pollCommands handlers arrivals c w =
        .ok (trace, c', (serveAll handlers (accepted (cur ++ consumed)) w).2) ∧
      trace.flatten = (serveAll handlers (accepted (cur ++ consumed)) w).1 ∧
      (∀ effects ∈ trace, (framesOf effects).length ≤ 1) ∧
      c'.buffer.Holds (Framing.unfinished 0 (cur ++ consumed)) := by
  induction arrivals generalizing c cur w with
  | nil =>
    refine ⟨[], [], c, by simp, ?_, ?_, by simp, ?_⟩
    · rw [List.append_nil, accepted_of_notMem hc]
      rfl
    · rw [List.append_nil, accepted_of_notMem hc]
      rfl
    · rwa [List.append_nil, Framing.unfinished_of_notMem 0 cur hc]
  | cons arrived later ih =>
    obtain ⟨consumed₁, c₁, hav₁, -, hpoll, hholds₁, hone, -⟩ :=
      pollCommand_eq handlers arrived c cur w hb hc
    obtain ⟨consumed₂, trace, c', hav₂, hpolls, htrace, htrace₁, hholds⟩ :=
      ih c₁ (Framing.unfinished 0 (cur ++ consumed₁))
        (serveAll handlers (accepted (cur ++ consumed₁)) w).2 hholds₁
        (Framing.notMem_unfinished 0 _)
    -- the second part is served where the first one left off
    have hsplit : accepted (cur ++ (consumed₁ ++ consumed₂)) =
        accepted (cur ++ consumed₁) ++
          accepted (Framing.unfinished 0 (cur ++ consumed₁) ++ consumed₂) := by
      rw [← List.append_assoc, accepted_append]
    refine ⟨consumed₁ ++ consumed₂, (serveAll handlers (accepted (cur ++ consumed₁)) w).1 :: trace,
      c', ?_, ?_, ?_, ?_, ?_⟩
    · rw [List.flatten_cons, ← List.append_assoc, hav₁, List.append_assoc, hav₂, List.append_assoc]
    · rw [pollCommands, hpoll, hsplit, serveAll_append]
      simp only [Cpp.ok_bind, hpolls, Cpp.pure_eq]
    · rw [List.flatten_cons, htrace, hsplit, serveAll_append]
    · intro effects he
      rcases List.mem_cons.mp he with rfl | he
      · rwa [framesOf_serveAll]
      · exact htrace₁ effects he
    · rw [← List.append_assoc, Framing.unfinished_append]
      exact hholds

/-- Polling in two parts. -/
theorem pollCommands_append (handlers : CommandHandlers W) (arrivals later : List (List UInt8))
    (c : Client) (w : W) :
    pollCommands handlers (arrivals ++ later) c w =
      (pollCommands handlers arrivals c w >>= fun (trace, c, w) ↦
        pollCommands handlers later c w >>= fun (trace', c, w) ↦ pure (trace ++ trace', c, w)) := by
  induction arrivals generalizing c w with
  | nil => exact (Cpp.bind_ok _).symm
  | cons arrived arrivals ih =>
    rw [List.cons_append, pollCommands, pollCommands]
    cases pollCommand handlers arrived c w with
    | error e => rfl
    | ok x =>
      simp only [Cpp.ok_bind, ih, bind_assoc]
      congr 1

/-- Each poll takes at least one byte while there are some, so enough polls drain the stream. -/
theorem pollCommands_drain (handlers : CommandHandlers W) (n : Nat) (c : Client)
    (cur : List UInt8) (w : W) (hb : c.buffer.Holds cur) (hc : (0 : UInt8) ∉ cur)
    (hn : c.available.length ≤ n) :
    ∃ trace c' w', pollCommands handlers (List.replicate n []) c w = .ok (trace, c', w') ∧
      c'.available = [] := by
  induction n generalizing c cur w with
  | zero => exact ⟨[], c, w, rfl, List.eq_nil_of_length_eq_zero (Nat.le_zero.mp hn)⟩
  | succ n ih =>
    obtain ⟨consumed, c₁, hav, hne, hpoll, hholds, -⟩ := pollCommand_eq handlers [] c cur w hb hc
    have hl := congrArg List.length hav
    simp only [List.append_nil, List.length_append] at hl hne
    have hless : c₁.available.length ≤ n := by
      by_cases hz : c.available = []
      · rw [hz, List.length_nil] at hl
        omega
      · have := List.length_pos_iff.mpr (hne hz)
        omega
    obtain ⟨trace, c', w', hpolls, hnil⟩ := ih c₁ _
      (serveAll handlers (accepted (cur ++ consumed)) w).2 hholds
      (Framing.notMem_unfinished 0 _) hless
    refine ⟨(serveAll handlers (accepted (cur ++ consumed)) w).1 :: trace, c', w', ?_, hnil⟩
    rw [List.replicate_succ, pollCommands, hpoll]
    simp only [Cpp.ok_bind, hpolls, Cpp.pure_eq]

/-! ### Handlers that run in a poll -/

/-- The serial buffer of a client holds what it received of some segment. -/
def Client.Sound (c : Client) : Prop := ∃ cur, c.buffer.Holds cur ∧ (0 : UInt8) ∉ cur

/-- A client just constructed is sound. -/
theorem sound_start : Client.start.Sound := ⟨[], SerialBuffer.holds_start, List.not_mem_nil⟩

/-- What a list of effects says about handlers: none ran and the state is as it was, or one ran,
once, and the state is as it left it. -/
def RanOnce (handlers : CommandHandlers W) (effects : List Effect) (w w' : W) : Prop :=
  (handledBy effects = [] ∧ w' = w) ∨ ∃ commandId handler,
    handlerFor handlers commandId = some handler ∧
    handledBy effects = [(commandId, (handler w).1)] ∧ w' = (handler w).2

private theorem ranOnce_respond (handlers : CommandHandlers W) (m : Message) (w : W) :
    RanOnce handlers (respond handlers m w).1 w (respond handlers m w).2 := by
  unfold respond
  split
  · next id seq arg _ =>
    split
    · cases hh : handlerFor handlers ⟨id⟩ with
      | none =>
        simp only [execute, hh]
        exact Or.inl ⟨rfl, rfl⟩
      | some handler =>
        simp only [execute, hh]
        exact Or.inr ⟨⟨id⟩, handler, hh, rfl, rfl⟩
    · exact Or.inl ⟨rfl, rfl⟩
  · exact Or.inl ⟨rfl, rfl⟩

private theorem ranOnce_serve (handlers : CommandHandlers W) (f : List UInt8) (w : W) :
    RanOnce handlers (serve handlers f w).1 w (serve handlers f w).2 := by
  unfold serve
  cases received f with
  | none => exact Or.inl ⟨rfl, rfl⟩
  | some m => exact ranOnce_respond handlers m w

/-! ### The message of a poll -/

/-- The segment that a buffer stands for. Of one that is too long nothing else is known. -/
def SerialBuffer.segment (b : SerialBuffer) : List UInt8 :=
  if b.overflowed then List.replicate (maxEncodedSize + 1) 1 else b.buffer.toList.take b.len

/-- The message that a poll receives: that of the first frame to be completed by the bytes that
wait and those that arrive. -/
def Client.receives (arrived : List UInt8) (c : Client) : Option Message :=
  (accepted (c.buffer.segment ++ (c.available ++ arrived))).head?.bind received

/-- A message asks for a command to be executed. -/
def Asks (commandId : CommandId) (m : Message) : Prop :=
  m.packetId = .command ∧ ∃ seq arg, m.payload = [commandId.byte, seq, arg]

/-- Behind a segment that is too long, it does not matter which one it was. -/
theorem accepted_of_large {b b' : List UInt8} (hb : (0 : UInt8) ∉ b) (hb' : (0 : UInt8) ∉ b')
    (h : maxEncodedSize < b.length) (h' : maxEncodedSize < b'.length) (s : List UInt8) :
    accepted (b ++ s) = accepted (b' ++ s) := by
  have hskip : ∀ {b : List UInt8}, (0 : UInt8) ∉ b → maxEncodedSize < b.length →
      ∀ pre post : List UInt8, (0 : UInt8) ∉ pre →
        accepted (b ++ (pre ++ 0 :: post)) = accepted post := by
    intro b hb h pre post hpre
    have hfree : (0 : UInt8) ∉ b ++ pre := fun hmem ↦ (List.mem_append.mp hmem).elim hb hpre
    have hlarge : ¬ (b ++ pre ≠ [] ∧ (b ++ pre).length ≤ maxEncodedSize) := by
      rw [List.length_append]
      omega
    rw [← List.append_assoc, accepted_segment hfree, if_neg hlarge, List.nil_append]
  by_cases hs : (0 : UInt8) ∈ s
  · rcases List.eq_append_cons_of_mem hs with ⟨pre, post, rfl, hpre⟩
    rw [hskip hb h pre post hpre, hskip hb' h' pre post hpre]
  · rw [accepted_of_notMem fun hmem ↦ (List.mem_append.mp hmem).elim hb hs,
      accepted_of_notMem fun hmem ↦ (List.mem_append.mp hmem).elim hb' hs]

/-- The frames behind the segment that a buffer holds are those behind the one it stands for. -/
theorem SerialBuffer.accepted_segment_append {b : SerialBuffer} {cur : List UInt8}
    (h : b.Holds cur) (hcur : (0 : UInt8) ∉ cur) (s : List UInt8) :
    accepted (b.segment ++ s) = accepted (cur ++ s) := by
  unfold Holds at h
  split at h
  · rw [segment, h.1, h.2.1, h.2.2]
    rfl
  · next hlarge =>
    rw [segment, if_pos h.1]
    apply accepted_of_large _ hcur _ (Nat.lt_of_not_le hlarge)
    · intro hmem
      exact absurd (List.eq_of_mem_replicate hmem) (by decide)
    · rw [List.length_replicate]
      exact Nat.lt_succ_self _

/-- A poll of a sound client returns and leaves the client sound. It serves one frame, that of
the message it receives, or none. -/
theorem pollCommand_receives (handlers : CommandHandlers W) (arrived : List UInt8) {c : Client}
    (w : W) (hc : c.Sound) : ∃ (f : Option (List UInt8)) (c' : Client),
      pollCommand handlers arrived c w =
        .ok ((serveAll handlers f.toList w).1, c', (serveAll handlers f.toList w).2) ∧
      c'.Sound ∧ c.receives arrived = f.bind received := by
  rcases hc with ⟨cur, hb, hcur⟩
  rcases pollCommand_eq handlers arrived c cur w hb hcur with
    ⟨consumed, c', hav, -, hpoll, hholds, hone, hstop⟩
  have hsound : c'.Sound := ⟨_, hholds, Framing.notMem_unfinished 0 _⟩
  rw [Client.receives, SerialBuffer.accepted_segment_append hb hcur, hav, ← List.append_assoc,
    accepted_append]
  cases hf : accepted (cur ++ consumed) with
  | nil =>
    -- no frame was completed, so nothing is left waiting
    have hnil : c'.available = [] := Classical.not_not.mp fun hne ↦ hstop hne hf
    rw [hf] at hpoll
    rw [hnil, List.append_nil, accepted_of_notMem (Framing.notMem_unfinished 0 _)]
    exact ⟨none, c', hpoll, hsound, rfl⟩
  | cons f fs =>
    rw [hf] at hpoll hone
    have hfs : fs = [] :=
      List.eq_nil_of_length_eq_zero (Nat.le_zero.mp (Nat.le_of_succ_le_succ hone))
    rw [hfs] at hpoll
    exact ⟨some f, c', hpoll, hsound, rfl⟩

/-- A poll of a sound client returns, at most one handler runs in it, and the client stays
sound. -/
theorem pollCommand_ranOnce (handlers : CommandHandlers W) (arrived : List UInt8) {c : Client}
    (w : W) (hc : c.Sound) : ∃ effects c' w', pollCommand handlers arrived c w =
      .ok (effects, c', w') ∧ c'.Sound ∧ RanOnce handlers effects w w' := by
  rcases pollCommand_receives handlers arrived w hc with ⟨f, c', hpoll, hsound, -⟩
  refine ⟨_, c', _, hpoll, hsound, ?_⟩
  cases f with
  | none => exact Or.inl ⟨rfl, rfl⟩
  | some f =>
    rw [Option.toList_some, serveAll, serveAll, List.append_nil]
    exact ranOnce_serve handlers f w

/-- Responding handles the command that is asked for, if it has a handler. -/
theorem mem_handledBy_respond {handlers : CommandHandlers W} {m : Message} {w : W}
    {commandId : CommandId} {result : CommandResponse} :
    (commandId, result) ∈ handledBy (respond handlers m w).1 ↔ Asks commandId m ∧
      ∃ handler, handlerFor handlers commandId = some handler ∧ result = (handler w).1 := by
  constructor
  · intro h
    unfold respond at h
    split at h
    · next id seq arg hpay =>
      split at h
      · next hid =>
        unfold execute at h
        cases hh : handlerFor handlers ⟨id⟩ with
        | none =>
          simp only [hh] at h
          cases h
        | some handler =>
          simp only [hh] at h
          rcases Prod.mk.inj (List.mem_singleton.mp h) with ⟨rfl, hresult⟩
          exact ⟨⟨hid, seq, arg, hpay⟩, handler, hh, hresult⟩
      · cases h
    · cases h
  · rintro ⟨⟨hid, seq, arg, hpay⟩, handler, hh, rfl⟩
    have he : execute handlers commandId w =
        ((handler w).1, [.handle commandId (handler w).1], (handler w).2) := by
      rw [execute, hh]
    rw [respond_command handlers w hid hpay he]
    exact List.mem_cons_self

/-- A poll handles a command just when it receives a message that asks for it and the command has
a handler. -/
theorem pollCommand_handles {handlers : CommandHandlers W} {arrived : List UInt8} {c c' : Client}
    {w w' : W} {effects : List Effect} (hc : c.Sound)
    (hpoll : pollCommand handlers arrived c w = .ok (effects, c', w')) {commandId : CommandId}
    {result : CommandResponse} :
    (commandId, result) ∈ handledBy effects ↔
      (∃ m ∈ c.receives arrived, Asks commandId m) ∧
        ∃ handler, handlerFor handlers commandId = some handler ∧ result = (handler w).1 := by
  rcases pollCommand_receives handlers arrived w hc with ⟨f, c₁, hpoll₁, -, hreceives⟩
  cases hpoll.symm.trans hpoll₁
  rw [hreceives]
  cases f with
  | none => exact ⟨nofun, nofun⟩
  | some f =>
    rw [Option.toList_some, serveAll, serveAll, List.append_nil, Option.bind_some, serve]
    cases received f with
    | none => exact ⟨nofun, nofun⟩
    | some m =>
      change (commandId, result) ∈ handledBy (respond handlers m w).1 ↔ _
      rw [mem_handledBy_respond]
      constructor
      · exact fun ⟨hasks, hhandler⟩ ↦ ⟨⟨m, rfl, hasks⟩, hhandler⟩
      · rintro ⟨⟨m', hm', hasks⟩, hhandler⟩
        cases hm'
        exact ⟨hasks, hhandler⟩

end BlueROV2.Firmware
