import BlueROV2.Firmware.Main

/-!
# The packets of the Teensy

Library `Firmware`. What one iteration of `loop` in `modules/teensy/src/main.cpp` writes on the
port to the Pi: the response to a command, then a sample, then a calibration status, each in one
frame and each only if it is due.
-/

namespace BlueROV2.Firmware

open BlueROV2.Base BlueROV2.Wire

/-- What is written on the port to the Pi, one call after another. -/
def writesOf (outputs : List Output) : List (List UInt8) :=
  outputs.filterMap fun
    | .client (.write bytes) => some bytes
    | _ => none

/-- The packets on the port, as they are read from its bytes. -/
def packetsOf (outputs : List Output) : List Message := messages crcOf (writesOf outputs).flatten

/-- The outputs put these packets on the port, each in one frame, and nothing else. -/
def Puts (ms : List Message) (outputs : List Output) : Prop :=
  writesOf outputs = ms.map fun m ↦ frame crcOf m ++ [0]

/-- The output that carries a packet. -/
def packetOutput (m : Message) : Output := .client (.write (frame crcOf m ++ [0]))

/-- The packet of a sample. -/
def Sample.packet (s : Sample) : Message := ⟨.imuData, .imu01, s.bytes⟩

/-- The packet of a calibration status. -/
def BNO085.statusPacket (x : BNO085) : Message where
  packetId := .calStatus
  deviceId := .imu01
  payload := [x.accuracy.accel, x.accuracy.gyro, x.accuracy.mag, x.accuracy.quat,
    x.calibrationMask] ++ wordBytes x.accuracy.quatRad

/-- The packet of a response. -/
def responsePacket (deviceId : DeviceId) (commandId : CommandId) (seq : UInt8)
    (result : CommandResponse) : Message :=
  ⟨.commandResponse, deviceId, [commandId.byte, seq, result.byte]⟩

theorem puts_nil : Puts [] [] := rfl

theorem puts_println (line : String) : Puts [] [.println line] := rfl

theorem puts_packetOutput (m : Message) : Puts [m] [packetOutput m] := rfl

theorem writesOf_append (outputs later : List Output) :
    writesOf (outputs ++ later) = writesOf outputs ++ writesOf later := List.filterMap_append

/-- Packets that are put one after another. -/
theorem Puts.append {ms ms' : List Message} {outputs later : List Output} (h : Puts ms outputs)
    (h' : Puts ms' later) : Puts (ms ++ ms') (outputs ++ later) := by
  rw [Puts, writesOf_append, List.map_append, h, h']

/-- What is put on the port is read there. -/
theorem Puts.packetsOf_eq {ms : List Message} {outputs : List Output} (h : Puts ms outputs) :
    packetsOf outputs = ms := by
  rw [packetsOf, h, ← List.flatMap_def]
  exact messages_frames ms

/-! ### The parts of an iteration -/

/-- The IMU after the sample is read, with the sample if there is one. -/
def Teensy.reading (i : Iteration) (t : Teensy) : Option Sample × BNO085 :=
  (t.imu.facing i.sample).read

theorem send_eq_ok (t : Teensy) {m : Message} (failure : String) (hdev : m.deviceId = .imu01)
    (h : m.payload.length ≤ maxPayloadSize) :
    t.send m.packetId m.payload failure =
      .ok { t with outputs := t.outputs ++ [packetOutput m] } := by
  rw [Teensy.send, Firmware.send_eq m.packetId .imu01 m.payload h, ← hdev]
  rfl

/-- The state after the sample was read, and sent if there is one. -/
def Teensy.sampled (i : Iteration) (t : Teensy) : Teensy :=
  { t with
    imu := (t.reading i).2
    outputs := t.outputs ++ ((t.reading i).1.map fun s ↦ packetOutput s.packet).toList }

/-- The sample, if there is one, is sent. -/
theorem sampleStep_eq (i : Iteration) (t : Teensy) : sampleStep i t = .ok (t.sampled i) := by
  rw [sampleStep, ← Teensy.reading, Teensy.sampled]
  rcases t.reading i with ⟨_ | s, imu⟩
  · simp only [Option.map_none, Option.toList_none, List.append_nil, Cpp.pure_eq]
  · exact send_eq_ok { t with imu } (m := s.packet) _ rfl (by decide : 40 ≤ 64)

/-- The clock that the status is checked against. -/
def Teensy.clock (i : Iteration) (t : Teensy) : UInt32 × BNO085 :=
  (t.imu.facing i.status).call BNO08x.millis

/-- A status is due: the firmware is in its calibration mode and the interval is over. -/
def Teensy.Due (i : Iteration) (t : Teensy) : Prop :=
  t.imu.calibrating = true ∧ (t.clock i).1 - t.lastCalStatusMs ≥ calStatusPeriodMs

instance (i : Iteration) (t : Teensy) : Decidable (t.Due i) := inferInstanceAs (Decidable (_ ∧ _))

/-- The state after a status was sent. -/
def Teensy.reported (i : Iteration) (t : Teensy) : Teensy where
  imu := ((t.clock i).2.call BNO08x.millis).2
  client := t.client
  handlers := t.handlers
  lastCalStatusMs := ((t.clock i).2.call BNO08x.millis).1
  outputs := t.outputs ++ [packetOutput t.imu.statusPacket]

/-- A status that is due is sent, and the time of that is kept. -/
theorem statusStep_of_due {i : Iteration} {t : Teensy} (h : t.Due i) :
    statusStep i t = .ok (t.reported i) := by
  have hsend := send_eq_ok { t with imu := (t.clock i).2 } (m := t.imu.statusPacket)
    "Failed to send CAL_STATUS" rfl (by decide : 9 ≤ 64)
  rw [statusStep, if_pos h.1]
  simp only
  rw [← Teensy.clock, if_pos h.2, sendCalibrationStatus]
  exact congrArg (· >>= _) hsend

/-- A status that is not due is not sent; only the clock may have been read. -/
theorem statusStep_of_not_due {i : Iteration} {t : Teensy} (h : ¬ t.Due i) :
    ∃ imu, statusStep i t = .ok { t with imu } ∧ t.imu.Passive imu := by
  rw [statusStep]
  split
  · next hc =>
    simp only
    rw [← Teensy.clock, if_neg fun hd ↦ h ⟨hc, hd⟩]
    exact ⟨_, rfl, (t.imu.passive_facing i.status).trans (t.imu.facing i.status).passive_millis⟩
  · exact ⟨t.imu, rfl, t.imu.passive_refl⟩

/-- The recovery puts nothing on the port. -/
theorem recoverStep_outputs (i : Iteration) (t : Teensy) :
    ∃ later, (recoverStep i t).outputs = t.outputs ++ later ∧ Puts [] later := by
  rw [recoverStep]
  simp only
  split
  · split
    · exact ⟨[], (List.append_nil _).symm, puts_nil⟩
    · exact ⟨_, rfl, puts_println _⟩
  · exact ⟨[], (List.append_nil _).symm, puts_nil⟩

/-! ### Responses -/

variable {W : Type} {handlers : CommandHandlers W}

/-- What the effects of the client write. -/
theorem writesOf_client (effects : List Effect) :
    writesOf (effects.map .client) = writtenBy effects := by
  rw [writesOf, writtenBy, List.filterMap_map]
  congr 1
  funext e
  cases e <;> rfl

/-- What a poll does: nothing, or it executes a command and puts its response on the port. -/
inductive Responds (handlers : CommandHandlers W) (effects : List Effect) (w w' : W) : Prop where
  | nothing (hw : w' = w) (handled : handledBy effects = []) (written : writtenBy effects = [])
  | command (deviceId : DeviceId) (commandId : CommandId) (seq : UInt8) (result : CommandResponse)
      (ran : List Effect) (hw : execute handlers commandId w = (result, ran, w'))
      (handled : handledBy effects = handledBy ran)
      (written : writtenBy effects =
        [frame crcOf (responsePacket deviceId commandId seq result) ++ [0]])

private theorem writtenBy_execute (commandId : CommandId) (w : W) :
    writtenBy (execute handlers commandId w).2.1 = [] := by
  unfold execute
  split
  · rfl
  · rfl

private theorem responds_respond (m : Message) (w : W) :
    Responds handlers (respond handlers m w).1 w (respond handlers m w).2 := by
  unfold respond
  split
  · next id seq arg _ =>
    split
    · refine .command m.deviceId ⟨id⟩ seq (execute handlers ⟨id⟩ w).1
        (execute handlers ⟨id⟩ w).2.1 rfl ?_ ?_
      · rw [handledBy, List.filterMap_append]
        exact List.append_nil _
      · rw [writtenBy, List.filterMap_append, ← writtenBy, writtenBy_execute]
        rfl
    · exact .nothing rfl rfl rfl
  · exact .nothing rfl rfl rfl

/-- Decoding a frame first makes no difference. -/
private theorem Responds.decode {effects : List Effect} {w w' : W}
    (h : Responds handlers effects w w') (f : List UInt8) (m : Option Message) :
    Responds handlers (.decode f m :: effects) w w' := by
  cases h with
  | nothing hw handled written => exact .nothing hw handled written
  | command deviceId commandId seq result ran hw handled written =>
    exact .command deviceId commandId seq result ran hw handled written

/-- A poll of a sound client does nothing, or responds to a command. -/
theorem pollCommand_responds (handlers : CommandHandlers W) (arrived : List UInt8) {c : Client}
    (w : W) (hc : c.Sound) : ∃ effects c' w', pollCommand handlers arrived c w =
      .ok (effects, c', w') ∧ c'.Sound ∧ Responds handlers effects w w' := by
  rcases pollCommand_receives handlers arrived w hc with ⟨f, c', hpoll, hsound, -⟩
  refine ⟨_, c', _, hpoll, hsound, ?_⟩
  cases f with
  | none => exact .nothing rfl rfl rfl
  | some f =>
    rw [Option.toList_some, serveAll, serveAll, List.append_nil, serve]
    cases received f with
    | none => exact .nothing rfl rfl rfl
    | some m => exact (responds_respond m w).decode f (some m)

/-! ### A whole iteration -/

private theorem defaultsStep_frame (s : Startup) (t : Teensy) :
    (∃ later, (defaultsStep s t).outputs = t.outputs ++ later ∧ Puts [] later) ∧
      (defaultsStep s t).handlers = t.handlers ∧ (defaultsStep s t).client = t.client ∧
      (defaultsStep s t).lastCalStatusMs = t.lastCalStatusMs := by
  rw [defaultsStep]
  simp only
  split
  · exact ⟨⟨[], (List.append_nil _).symm, puts_nil⟩, rfl, rfl, rfl⟩
  · exact ⟨⟨_, rfl, puts_println _⟩, rfl, rfl, rfl⟩

/-- Before `loop` nothing is put on the port, and nothing was received there. -/
theorem setup_outputs {s : Startup} {powerOnConfig : UInt8} {t : Teensy}
    (h : setup s (.start powerOnConfig) = .ok (some t)) :
    Puts [] t.outputs ∧ t.client = .start ∧ t.lastCalStatusMs = 0 := by
  rw [setup] at h
  split at h
  · next imu _ =>
    rcases defaultsStep_frame s { (Teensy.start powerOnConfig).println
      "Initializing BNO08x IMU..." with imu } with ⟨⟨later, houtputs, hputs⟩, hhandlers,
      hclient, hlast⟩
    rcases registerHandlers_eq hhandlers with ⟨handlers, hr, -⟩
    simp only [hr, Cpp.ok_bind, Cpp.pure_eq] at h
    cases h
    refine ⟨?_, hclient, hlast⟩
    rw [Teensy.println, houtputs]
    exact ((puts_println _).append hputs).append (puts_println _)
  · cases h

/-- What an iteration does, part by part. -/
def Iterates (i : Iteration) (t t' : Teensy) : Prop :=
  ∃ effects client imu, pollStep i t = .ok (effects, client, imu) ∧ client.Sound ∧
    Responds t.handlers effects (t.imu.facing i.command) imu ∧
    statusStep i ((recoverStep i (t.polled effects client imu)).sampled i) = .ok t'

/-- Every iteration that starts with a sound client returns, and does this. -/
theorem loop_iterates (i : Iteration) {t : Teensy} (h : t.client.Sound) :
    ∃ t', loop i t = .ok t' ∧ Iterates i t t' := by
  rcases pollCommand_responds t.handlers i.arrived (t.imu.facing i.command) h with
    ⟨effects, client, imu, hpoll, hsound, hresponds⟩
  rcases statusStep_follows i ((recoverStep i (t.polled effects client imu)).sampled i) with
    ⟨t', hstatus, -⟩
  refine ⟨t', ?_, ⟨effects, client, imu, hpoll, hsound, hresponds, hstatus⟩⟩
  rw [loop, pollStep, hpoll]
  simp only [Cpp.ok_bind]
  rw [← Teensy.polled, sampleStep_eq, Cpp.ok_bind, hstatus]

/-- A step from a sound client does this. -/
theorem iterates_of_step {i : Iteration} {t t' : Teensy} (h : step i t = some t')
    (hc : t.client.Sound) : Iterates i t t' := by
  rcases loop_iterates i hc with ⟨t₁, hloop, hit⟩
  cases (step_eq_some.mp h).symm.trans hloop
  exact hit

end BlueROV2.Firmware
