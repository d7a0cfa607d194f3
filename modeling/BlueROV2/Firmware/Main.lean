import BlueROV2.Base.Transition
import BlueROV2.Firmware.Bno085
import BlueROV2.Firmware.Client

/-!
# The program on the Teensy

Library `Firmware`. `modules/teensy/src/main.cpp`. Handlers act on the object `imu`. The moments
ahead are given for each part of `setup` and `loop`. What goes to the two serial ports is kept
as a list, which the program does not read.
-/

namespace BlueROV2.Firmware

open BlueROV2.Base BlueROV2.Wire

/-- Minimum interval between `CAL_STATUS` packets sent while calibrating; `calibration.h:7`. -/
def calStatusPeriodMs : UInt32 := 100

/-- What the program does to its surroundings: a line on the debugging port, or an effect of the
client. -/
inductive Output where
  | println (line : String)
  | client (effect : Effect)
  deriving DecidableEq, Repr

/-- The program's state; `main.cpp:15–18`. -/
structure Teensy where
  imu : BNO085
  client : Client
  handlers : CommandHandlers BNO085
  lastCalStatusMs : UInt32
  outputs : List Output

/-- The program before `setup`, for an IMU with given settings at power-on. -/
def Teensy.start (powerOnConfig : UInt8) : Teensy where
  imu := .start powerOnConfig
  client := .start
  handlers := Vector.replicate maxCommandHandlers none
  lastCalStatusMs := 0
  outputs := []

def Teensy.println (line : String) (t : Teensy) : Teensy :=
  { t with outputs := t.outputs ++ [.println line] }

/-- `start_calibration_command`; `main.cpp:79–85`. -/
def startCalibrationCommand : CommandHandler BNO085 := fun imu ↦
  if imu.calibrating then (.ok, imu)
  else
    let (started, imu) := imu.startCalibration
    (if started then .ok else .sensorError, imu)

/-- `save_calibration_command`; `main.cpp:87–93`. -/
def saveCalibrationCommand : CommandHandler BNO085 := fun imu ↦
  if !imu.calibrating then (.invalidState, imu)
  else
    let (saved, imu) := imu.saveCalibration
    (if saved then .ok else .sensorError, imu)

/-- `stop_calibration_command`; `main.cpp:95–101`. -/
def stopCalibrationCommand : CommandHandler BNO085 := fun imu ↦
  if !imu.calibrating then (.ok, imu)
  else
    let (stopped, imu) := imu.stopCalibration
    (if stopped then .ok else .sensorError, imu)

/-- The bytes of a `float` or of another word of 32 bits in memory. -/
def wordBytes (w : Word) : List UInt8 :=
  [w.toUInt8, (w >>> 8).toUInt8, (w >>> 16).toUInt8, (w >>> 24).toUInt8]

/-- The bytes of a `Sample` in memory; it has no padding. -/
def Sample.bytes (s : Sample) : List UInt8 :=
  [s.qx, s.qy, s.qz, s.qw, s.gx, s.gy, s.gz, s.ax, s.ay, s.az].flatMap wordBytes

theorem Sample.length_bytes (s : Sample) : s.bytes.length = 40 := rfl

/-- `client.send` in `main.cpp`, with the line that reports its failure. -/
def Teensy.send (packetId : PacketId) (payload : List UInt8) (failure : String) (t : Teensy) :
    Cpp Teensy := do
  let (sent, effects) ← Firmware.send packetId .imu01 payload
  let t := { t with outputs := t.outputs ++ effects.map .client }
  pure (if sent then t else t.println failure)

/-- `send_calibration_status`; `main.cpp:103–120`. -/
def sendCalibrationStatus (t : Teensy) : Cpp Teensy := do
  let accuracy := t.imu.accuracy
  let status := [accuracy.accel, accuracy.gyro, accuracy.mag, accuracy.quat, t.imu.calibrationMask]
    ++ wordBytes accuracy.quatRad
  let t ← t.send .calStatus status "Failed to send CAL_STATUS"
  let (now, imu) := t.imu.call BNO08x.millis
  pure { t with imu, lastCalStatusMs := now }

/-- `client.register_handler` in `main.cpp`. -/
def Teensy.registerHandler (commandId : CommandId) (handler : CommandHandler BNO085) (t : Teensy) :
    Cpp Teensy := do
  let handlers ← Firmware.registerHandler t.handlers commandId (some handler)
  pure { t with handlers }

/-- The handlers in `setup`; `main.cpp:49–51`. -/
def Teensy.registerHandlers (t : Teensy) : Cpp Teensy := do
  let t ← t.registerHandler .calibrationStart startCalibrationCommand
  let t ← t.registerHandler .calibrationSave saveCalibrationCommand
  t.registerHandler .calibrationStop stopCalibrationCommand

/-- The moments of `imu.begin` and `imu.stop_calibration` in `setup`. -/
structure Startup where
  begin : List Moment
  defaults : List Moment
  deriving DecidableEq, Repr

/-- The default calibration configuration in `setup`; `main.cpp:45–47`. -/
def defaultsStep (s : Startup) (t : Teensy) : Teensy :=
  let (applied, imu) := (t.imu.facing s.defaults).stopCalibration
  let t := { t with imu }
  if applied then t else t.println "Failed to apply the default calibration configuration"

/-- `setup`; there is no state after it when it ends in `error_loop`; `main.cpp:32–54`. -/
def setup (s : Startup) (t : Teensy) : Cpp (Option Teensy) :=
  let t := t.println "Initializing BNO08x IMU..."
  match (t.imu.facing s.begin).begin with
  | some (true, imu) => do
    let t ← (defaultsStep s { t with imu }).registerHandlers
    pure (some (t.println "Teensy successfully initialized."))
  | _ => pure none

/-- The surroundings of one iteration: the bytes received since the last one, and the moments of
the command, of the recovery, of the sample and of the status. -/
structure Iteration where
  arrived : List UInt8
  command : List Moment
  recovery : List Moment
  sample : List Moment
  status : List Moment
  deriving DecidableEq, Repr

/-- `client.poll_command()` in `loop`; `main.cpp:58`. -/
def pollStep (i : Iteration) (t : Teensy) : Cpp (List Effect × Client × BNO085) :=
  pollCommand t.handlers i.arrived t.client (t.imu.facing i.command)

/-- The recovery in `loop`; `main.cpp:60–62`. -/
def recoverStep (i : Iteration) (t : Teensy) : Teensy :=
  let (reset, imu) := (t.imu.facing i.recovery).wasReset
  if reset then
    let (recovered, imu) := imu.reset
    let t := { t with imu }
    if recovered then t else t.println "Failed to recover the IMU after a reset"
  else { t with imu }

/-- The sample in `loop`; `main.cpp:64–69`. -/
def sampleStep (i : Iteration) (t : Teensy) : Cpp Teensy :=
  let (sample, imu) := (t.imu.facing i.sample).read
  let t := { t with imu }
  match sample with
  | some sample => t.send .imuData sample.bytes "Failed to send IMU_DATA"
  | none => pure t

/-- The status in `loop`; `main.cpp:71–73`. -/
def statusStep (i : Iteration) (t : Teensy) : Cpp Teensy :=
  if t.imu.calibrating then
    let (now, imu) := (t.imu.facing i.status).call BNO08x.millis
    let t := { t with imu }
    if now - t.lastCalStatusMs ≥ calStatusPeriodMs then sendCalibrationStatus t else pure t
  else pure t

/-- `loop`; `main.cpp:56–74`. -/
def loop (i : Iteration) (t : Teensy) : Cpp Teensy := do
  let (effects, client, imu) ← pollStep i t
  let t := { t with client, imu, outputs := t.outputs ++ effects.map .client }
  let t := recoverStep i t
  let t ← sampleStep i t
  statusStep i t

/-- `loop` as a step of a system, which goes on unless an access aborts it. -/
def step (i : Iteration) (t : Teensy) : Option Teensy := (loop i t).toOption

/-! ### One iteration -/

/-- The commands handled, with their results, in order. -/
def handlesOf (outputs : List Output) : List (CommandId × CommandResponse) :=
  outputs.filterMap fun
    | .client (.handle commandId result) => some (commandId, result)
    | _ => none

/-- The commands that a client handled. -/
theorem handlesOf_client (effects : List Effect) :
    handlesOf (effects.map .client) = handledBy effects := by
  rw [handlesOf, handledBy, List.filterMap_map]
  congr 1
  funext e
  cases e <;> rfl

theorem handlesOf_append (outputs later : List Output) :
    handlesOf (outputs ++ later) = handlesOf outputs ++ handlesOf later :=
  List.filterMap_append

/-- One state after another, with only such parts of an iteration between them as handle no
command and set nothing on the IMU. -/
structure Follows (t t' : Teensy) : Prop where
  client : t'.client = t.client
  handlers : t'.handlers = t.handlers
  imu : t.imu.Passive t'.imu
  handles : handlesOf t'.outputs = handlesOf t.outputs

variable {t t₁ t₂ : Teensy}

theorem Follows.trans (h₁ : Follows t t₁) (h₂ : Follows t₁ t₂) : Follows t t₂ where
  client := h₂.client.trans h₁.client
  handlers := h₂.handlers.trans h₁.handlers
  imu := h₁.imu.trans h₂.imu
  handles := h₂.handles.trans h₁.handles

/-- The IMU is used without setting it. -/
theorem follows_imu {imu : BNO085} (h : t.imu.Passive imu) : Follows t { t with imu } :=
  ⟨rfl, rfl, h, rfl⟩

/-- An admissible payload is sent. -/
theorem send_follows (packetId : PacketId) {payload : List UInt8} (failure : String) (t : Teensy)
    (h : payload.length ≤ maxPayloadSize) :
    ∃ t', t.send packetId payload failure = .ok t' ∧ Follows t t' := by
  rw [Teensy.send, send_eq packetId .imu01 payload h]
  refine ⟨_, rfl, rfl, rfl, t.imu.passive_refl, ?_⟩
  simp only [if_true]
  rw [handlesOf_append]
  exact List.append_nil _

/-- The sample is read and sent. -/
theorem sampleStep_follows (i : Iteration) (t : Teensy) :
    ∃ t', sampleStep i t = .ok t' ∧ Follows t t' := by
  have hread :=
    follows_imu ((t.imu.passive_facing i.sample).trans (t.imu.facing i.sample).passive_read)
  rw [sampleStep]
  simp only
  split
  · next sample _ =>
    have hle : sample.bytes.length ≤ maxPayloadSize := by
      rw [sample.length_bytes]
      decide
    rcases send_follows .imuData "Failed to send IMU_DATA" _ hle with ⟨t', hsend, hfollows⟩
    exact ⟨t', hsend, hread.trans hfollows⟩
  · exact ⟨_, rfl, hread⟩

private theorem sendCalibrationStatus_follows (t : Teensy) :
    ∃ t', sendCalibrationStatus t = .ok t' ∧ Follows t t' := by
  have hle : ([t.imu.accuracy.accel, t.imu.accuracy.gyro, t.imu.accuracy.mag, t.imu.accuracy.quat,
      t.imu.calibrationMask] ++ wordBytes t.imu.accuracy.quatRad).length ≤ maxPayloadSize := by
    change 9 ≤ 64
    decide
  rcases send_follows .calStatus "Failed to send CAL_STATUS" t hle with ⟨t', hsend, hfollows⟩
  rw [sendCalibrationStatus]
  simp only [hsend, Cpp.ok_bind, Cpp.pure_eq]
  exact ⟨_, rfl, hfollows.trans ⟨rfl, rfl, t'.imu.passive_millis, rfl⟩⟩

/-- The status is sent, if it is due. -/
theorem statusStep_follows (i : Iteration) (t : Teensy) :
    ∃ t', statusStep i t = .ok t' ∧ Follows t t' := by
  have hclock := follows_imu
    ((t.imu.passive_facing i.status).trans (t.imu.facing i.status).passive_millis)
  rw [statusStep]
  split
  · simp only
    split
    · rcases sendCalibrationStatus_follows { t with
        imu := ((t.imu.facing i.status).call BNO08x.millis).2 } with ⟨t', hsend, hfollows⟩
      exact ⟨t', hsend, hclock.trans hfollows⟩
    · exact ⟨_, rfl, hclock⟩
  · exact ⟨t, rfl, ⟨rfl, rfl, t.imu.passive_refl, rfl⟩⟩

/-- The recovery handles no command and leaves the client alone. -/
theorem recoverStep_frame (i : Iteration) (t : Teensy) :
    (recoverStep i t).client = t.client ∧ (recoverStep i t).handlers = t.handlers ∧
      handlesOf (recoverStep i t).outputs = handlesOf t.outputs := by
  rw [recoverStep]
  simp only
  split
  · split
    · exact ⟨rfl, rfl, rfl⟩
    · refine ⟨rfl, rfl, ?_⟩
      rw [Teensy.println, handlesOf_append]
      exact List.append_nil _
  · exact ⟨rfl, rfl, rfl⟩

/-- A recovery that finds no reset sets nothing on the IMU; otherwise it is `reset`, with what
was remembered before and the moments that are left. -/
theorem recoverStep_imu (i : Iteration) (t : Teensy) :
    t.imu.Passive (recoverStep i t).imu ∨ ∃ x : BNO085, x.calMask = t.imu.calMask ∧
      x.reportPeriodMs = t.imu.reportPeriodMs ∧ x.imu.ahead = i.recovery.tail ∧
      (recoverStep i t).imu = x.reset.2 := by
  rw [recoverStep]
  simp only
  cases h : (t.imu.facing i.recovery).wasReset.1 with
  | false => exact Or.inl ((t.imu.passive_facing _).trans (BNO085.passive_wasReset _ h))
  | true =>
    refine Or.inr ⟨(t.imu.facing i.recovery).wasReset.2, rfl, rfl, rfl, ?_⟩
    rw [if_pos rfl]
    split <;> rfl

/-- The state in an iteration after the poll. -/
def Teensy.polled (effects : List Effect) (client : Client) (imu : BNO085) (t : Teensy) : Teensy :=
  { t with client, imu, outputs := t.outputs ++ effects.map .client }

/-- An iteration that starts with a sound client returns: the poll runs at most one handler, and
what follows the recovery sets nothing on the IMU. -/
theorem loop_spec (i : Iteration) (h : t.client.Sound) :
    ∃ effects client imu t', pollStep i t = .ok (effects, client, imu) ∧ client.Sound ∧
      RanOnce t.handlers effects (t.imu.facing i.command) imu ∧ loop i t = .ok t' ∧
      Follows (recoverStep i (t.polled effects client imu)) t' := by
  rcases pollCommand_ranOnce t.handlers i.arrived (t.imu.facing i.command) h with
    ⟨effects, client, imu, hpoll, hsound, hran⟩
  rcases sampleStep_follows i (recoverStep i (t.polled effects client imu)) with ⟨t₁, h₁, hf₁⟩
  rcases statusStep_follows i t₁ with ⟨t₂, h₂, hf₂⟩
  refine ⟨effects, client, imu, t₂, hpoll, hsound, hran, ?_, hf₁.trans hf₂⟩
  rw [loop, pollStep, hpoll]
  simp only [Cpp.ok_bind]
  rw [Teensy.polled] at h₁
  rw [h₁, Cpp.ok_bind, h₂]

/-- An iteration is a step to where it returns. -/
theorem step_eq_some {i : Iteration} {t' : Teensy} : step i t = some t' ↔ loop i t = .ok t' := by
  rw [step]
  cases loop i t with
  | error e => exact ⟨nofun, nofun⟩
  | ok t₁ => exact ⟨fun h ↦ congrArg _ (Option.some.inj h), fun h ↦ congrArg _ (Except.ok.inj h)⟩

/-! ### After `setup` -/

/-- The handlers that `setup` registers. -/
def commandHandler (commandId : CommandId) : Option (CommandHandler BNO085) :=
  if commandId = .calibrationStart then some startCalibrationCommand
  else if commandId = .calibrationSave then some saveCalibrationCommand
  else if commandId = .calibrationStop then some stopCalibrationCommand
  else none

/-- What holds between iterations: the client is sound and the handlers are registered. -/
structure Teensy.Ready (t : Teensy) : Prop where
  client : t.client.Sound
  handlers : ∀ commandId, handlerFor t.handlers commandId = commandHandler commandId

private theorem handlerFor_none (commandId : CommandId) :
    handlerFor (Vector.replicate maxCommandHandlers (none : Option (CommandHandler BNO085)))
      commandId = none := by
  unfold handlerFor
  split
  · exact Vector.getElem_replicate _
  · rfl

/-- Registering the handlers fills an empty table. -/
theorem registerHandlers_eq (h : t.handlers = Vector.replicate maxCommandHandlers none) :
    ∃ handlers, t.registerHandlers = .ok { t with handlers } ∧
      ∀ commandId, handlerFor handlers commandId = commandHandler commandId := by
  rcases registerHandler_eq t.handlers .calibrationStart (some startCalibrationCommand) (by decide)
    with ⟨h₁, hr₁, hf₁⟩
  rcases registerHandler_eq h₁ .calibrationSave (some saveCalibrationCommand) (by decide) with
    ⟨h₂, hr₂, hf₂⟩
  rcases registerHandler_eq h₂ .calibrationStop (some stopCalibrationCommand) (by decide) with
    ⟨h₃, hr₃, hf₃⟩
  refine ⟨h₃, ?_, fun commandId ↦ ?_⟩
  · simp only [Teensy.registerHandlers, Teensy.registerHandler, hr₁, hr₂, hr₃, Cpp.ok_bind,
      Cpp.pure_eq]
  · rw [hf₃, hf₂, hf₁, h, handlerFor_none, commandHandler]
    -- the three identifiers are different, so the order of the tests does not matter
    by_cases hstart : commandId = .calibrationStart
    · subst hstart
      rfl
    · by_cases hsave : commandId = .calibrationSave
      · subst hsave
        rfl
      · rw [if_neg hstart, if_neg hsave, if_neg hsave, if_neg hstart]

private theorem defaultsStep_eq (s : Startup) (t : Teensy) :
    (defaultsStep s t).imu = (t.imu.facing s.defaults).stopCalibration.2 ∧
      (defaultsStep s t).client = t.client ∧ (defaultsStep s t).handlers = t.handlers ∧
      handlesOf (defaultsStep s t).outputs = handlesOf t.outputs := by
  rw [defaultsStep]
  simp only
  split
  · exact ⟨rfl, rfl, rfl, rfl⟩
  · refine ⟨rfl, rfl, rfl, ?_⟩
    rw [Teensy.println, handlesOf_append]
    exact List.append_nil _

/-- When `setup` returns, the handlers are registered, no command was handled, and the IMU was
configured before its calibration was set to the default. -/
theorem setup_spec {s : Startup} {powerOnConfig : UInt8}
    (h : setup s (.start powerOnConfig) = .ok (some t)) : t.Ready ∧ handlesOf t.outputs = [] ∧
      ∃ x y : BNO085, x.calMask = 0 ∧ x.reportPeriodMs = 5 ∧
        (Accepting 0 s.begin → Accepting 0 x.imu.ahead) ∧ x.configure = (true, y) ∧
        t.imu = (y.facing s.defaults).stopCalibration.2 := by
  rcases BNO085.begin_spec ((BNO085.start powerOnConfig).facing s.begin) 5 100 5000 with
    ⟨ok, y, hbegin, hok⟩
  have hstart : ((Teensy.start powerOnConfig).println "Initializing BNO08x IMU...").imu.facing
      s.begin = (BNO085.start powerOnConfig).facing s.begin := rfl
  rw [setup] at h
  simp only [hstart, hbegin] at h
  cases ok with
  | false => cases h
  | true =>
    rcases hok rfl with ⟨x, hx, hconf⟩
    rcases defaultsStep_eq s
      { (Teensy.start powerOnConfig).println "Initializing BNO08x IMU..." with imu := y } with
      ⟨himu, hclient, hhandlers, hhandles⟩
    rcases registerHandlers_eq hhandlers with ⟨handlers, hr, hf⟩
    simp only [hr, Cpp.ok_bind, Cpp.pure_eq] at h
    cases h
    refine ⟨⟨?_, hf⟩, ?_, x, y, hx.calMask, hx.reportPeriodMs, hx.ahead, hconf, himu⟩
    · change (defaultsStep s _).client.Sound
      rw [hclient]
      exact sound_start
    · rw [Teensy.println, handlesOf_append, hhandles]
      rfl

end BlueROV2.Firmware
