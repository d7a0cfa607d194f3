/-!
# The IMU behind its library

Library `Firmware`. What `modules/teensy/lib/bno085/bno085.cpp` calls in the BNO08x library and
in the Arduino core, neither of which is part of the repository. A request returns `true` and
takes effect, or returns `false` and changes nothing; the IMU may reset itself before any call.
Both, the events and the time that passes are up to the surroundings: each call uses up one
moment of those that lie ahead.
-/

namespace BlueROV2.Firmware

/-- The identifiers of sensor reports: those with a case in `read`, and all others. -/
inductive SensorId where
  | accelerometer
  | gyroscopeCalibrated
  | magneticFieldCalibrated
  | rotationVector
  | other (id : UInt8)
  deriving DecidableEq, Repr

def sh2CalAccel : UInt8 := 0x01
def sh2CalGyro : UInt8 := 0x02
def sh2CalMag : UInt8 := 0x04

/-- A `float`, by its bits. -/
abbrev Word := UInt32

/-- `sh2_SensorValue_t`: an event. Its variants overlap, so a vector and the imaginary part of a
rotation are the same words. -/
structure SensorValue where
  sensorId : SensorId
  status : UInt8
  x : Word
  y : Word
  z : Word
  real : Word
  accuracy : Word
  deriving DecidableEq, Repr

/-- What happens around one call: the milliseconds that pass before it, whether the IMU resets
itself before it, whether the IMU begins, accepts a setting or saves its calibration if that is
what it is asked, and the event that waits. -/
structure Moment where
  elapsed : Nat
  reset : Bool
  begins : Bool
  accepts : Bool
  saves : Bool
  event : Option SensorValue
  deriving DecidableEq, Repr

/-- A moment at which nothing happens and nothing is refused. -/
def Moment.quiet : Moment := ⟨0, false, true, true, true, none⟩

/-- The IMU: the interval of each report in microseconds, zero when it is disabled; the sensors
that calibrate themselves, now and after power-on; the flag that `wasReset` reads; and the
configurations in force at each save, the last one first. -/
structure Imu where
  reports : SensorId → UInt32
  calibrationConfig : UInt8
  powerOnConfig : UInt8
  resetOccurred : Bool
  saves : List UInt8

namespace Imu

/-- Settings at power-on, with the flag as given. -/
def powerOn (flag : Bool) (d : Imu) : Imu :=
  { d with reports := fun _ ↦ 0, calibrationConfig := d.powerOnConfig, resetOccurred := flag }

def enableReport (sensor : SensorId) (interval : UInt32) (d : Imu) : Imu :=
  { d with reports := fun s ↦ if s = sensor then interval else d.reports s }

/-- The reports of accelerometer, gyroscope and rotation vector, those that are granted. -/
def setReports (interval : UInt32) (accel gyro quat : Bool) (d : Imu) : Imu :=
  let d := if accel then d.enableReport .accelerometer interval else d
  let d := if gyro then d.enableReport .gyroscopeCalibrated interval else d
  if quat then d.enableReport .rotationVector interval else d

def setCalibrationConfig (sensors : UInt8) (d : Imu) : Imu :=
  { d with calibrationConfig := sensors }

def saveCalibration (d : Imu) : Imu := { d with saves := d.calibrationConfig :: d.saves }

@[simp] theorem reports_enableReport_self (sensor : SensorId) (interval : UInt32) (d : Imu) :
    (d.enableReport sensor interval).reports sensor = interval := if_pos rfl

/-- Enabling one report leaves the others alone. -/
theorem reports_enableReport_of_ne {sensor other : SensorId} (h : other ≠ sensor)
    (interval : UInt32) (d : Imu) :
    (d.enableReport sensor interval).reports other = d.reports other := if_neg h

@[simp] theorem reports_setCalibrationConfig (sensors : UInt8) (d : Imu) :
    (d.setCalibrationConfig sensors).reports = d.reports := rfl

@[simp] theorem resetOccurred_enableReport (sensor : SensorId) (interval : UInt32) (d : Imu) :
    (d.enableReport sensor interval).resetOccurred = d.resetOccurred := rfl

@[simp] theorem resetOccurred_setCalibrationConfig (sensors : UInt8) (d : Imu) :
    (d.setCalibrationConfig sensors).resetOccurred = d.resetOccurred := rfl

@[simp] theorem resetOccurred_saveCalibration (d : Imu) :
    d.saveCalibration.resetOccurred = d.resetOccurred := rfl

end Imu

/-- `BNO08x`, with the IMU, the board's clock and the moments ahead. -/
structure BNO08x where
  device : Imu
  sensorValue : SensorValue
  now : Nat
  ahead : List Moment

/-- The first of the moments ahead. -/
def nextMoment (ahead : List Moment) : Moment := ahead.headD .quiet

namespace BNO08x

/-- What happens before a call. -/
def tick (b : BNO08x) : BNO08x where
  device := if (nextMoment b.ahead).reset then b.device.powerOn true else b.device
  sensorValue := b.sensorValue
  now := b.now + (nextMoment b.ahead).elapsed
  ahead := b.ahead.tail

/-- A call that the IMU grants and carries out, or refuses. -/
def request (granted : Moment → Bool) (effect : Imu → Imu) (b : BNO08x) : Bool × BNO08x :=
  if granted (nextMoment b.ahead) then (true, { b.tick with device := effect b.tick.device })
  else (false, b.tick)

/-- Whether the IMU answers; it starts from its settings at power-on. A reset before the next
call stands for a flag that is already raised here. -/
def begin (b : BNO08x) : Bool × BNO08x := b.request (·.begins) (·.powerOn false)

def enableReport (sensor : SensorId) (interval : UInt32) (b : BNO08x) : Bool × BNO08x :=
  b.request (·.accepts) (·.enableReport sensor interval)

def setCalibrationConfig (sensors : UInt8) (b : BNO08x) : Bool × BNO08x :=
  b.request (·.accepts) (·.setCalibrationConfig sensors)

def saveCalibration (b : BNO08x) : Bool × BNO08x := b.request (·.saves) (·.saveCalibration)

/-- Whether the IMU was reset since the last call. -/
def wasReset (b : BNO08x) : Bool × BNO08x :=
  (b.tick.device.resetOccurred,
    { b.tick with device := { b.tick.device with resetOccurred := false } })

/-- Whether an event waits; it becomes `sensorValue`. -/
def getSensorEvent (b : BNO08x) : Bool × BNO08x :=
  match (nextMoment b.ahead).event with
  | some event => (true, { b.tick with sensorValue := event })
  | none => (false, b.tick)

/-- The clock of the board, in 32 bits. -/
def millis (b : BNO08x) : UInt32 × BNO08x := (UInt32.ofNat b.tick.now, b.tick)

def delay (ms : Nat) (b : BNO08x) : BNO08x := { b.tick with now := b.tick.now + ms }

variable (b : BNO08x)

/-- Without a reset, nothing happens to the IMU before a call. -/
theorem device_tick (h : b.tick.device.resetOccurred = false) :
    b.device.resetOccurred = false ∧ b.tick.device = b.device := by
  unfold tick at h ⊢
  by_cases hr : (nextMoment b.ahead).reset
  · rw [if_pos hr] at h
    cases h
  · rw [if_neg hr] at h ⊢
    exact ⟨h, rfl⟩

@[simp] theorem fst_request (granted : Moment → Bool) (effect : Imu → Imu) :
    (b.request granted effect).1 = granted (nextMoment b.ahead) := by
  unfold request
  cases granted (nextMoment b.ahead) <;> rfl

@[simp] theorem ahead_request (granted : Moment → Bool) (effect : Imu → Imu) :
    (b.request granted effect).2.ahead = b.ahead.tail := by
  unfold request
  cases granted (nextMoment b.ahead) <;> rfl

/-- A reset waits to be noticed after a request if one did before, or if it happens at that
moment. -/
theorem resetOccurred_request {granted : Moment → Bool} {effect : Imu → Imu}
    (heffect : ∀ d, (effect d).resetOccurred = d.resetOccurred) :
    (b.request granted effect).2.device.resetOccurred =
      ((nextMoment b.ahead).reset || b.device.resetOccurred) := by
  have htick : b.tick.device.resetOccurred =
      ((nextMoment b.ahead).reset || b.device.resetOccurred) := by
    unfold tick
    cases (nextMoment b.ahead).reset <;> rfl
  unfold request
  split
  · exact (heffect _).trans htick
  · exact htick

/-- If no reset waits to be noticed after a request, none did before, and the IMU changed just
as the answer says. -/
theorem device_request {granted : Moment → Bool} {effect : Imu → Imu}
    (heffect : ∀ d, (effect d).resetOccurred = d.resetOccurred)
    (h : (b.request granted effect).2.device.resetOccurred = false) :
    b.device.resetOccurred = false ∧ (b.request granted effect).2.device =
      if granted (nextMoment b.ahead) then effect b.device else b.device := by
  unfold request at h ⊢
  by_cases hg : granted (nextMoment b.ahead)
  · simp only [if_pos hg, heffect] at h ⊢
    have hd := b.device_tick h
    exact ⟨hd.1, by rw [hd.2]⟩
  · simp only [if_neg hg] at h ⊢
    exact b.device_tick h

end BNO08x

/-- Every moment from the `n`-th on accepts. -/
def Accepting (n : Nat) (ahead : List Moment) : Prop := ∀ m ∈ ahead.drop n, m.accepts = true

instance (n : Nat) (ahead : List Moment) : Decidable (Accepting n ahead) :=
  inferInstanceAs (Decidable (∀ m ∈ ahead.drop n, m.accepts = true))

/-- A call uses up the first moment. -/
theorem Accepting.tail {n : Nat} {ahead : List Moment} (h : Accepting (n + 1) ahead) :
    Accepting n ahead.tail := by
  rwa [Accepting, List.drop_tail]

theorem Accepting.rest {ahead : List Moment} (h : Accepting 0 ahead) : Accepting 0 ahead.tail :=
  fun m hm ↦ h m (List.mem_of_mem_tail hm)

/-- What accepts at all moments accepts from any one on. -/
theorem Accepting.weaken {ahead : List Moment} (h : Accepting 0 ahead) (n : Nat) :
    Accepting n ahead :=
  fun m hm ↦ h m (List.mem_of_mem_drop hm)

/-- The next moment accepts, if all do. -/
theorem Accepting.next {ahead : List Moment} (h : Accepting 0 ahead) :
    (nextMoment ahead).accepts = true := by
  cases ahead with
  | nil => rfl
  | cons m ahead => exact h m List.mem_cons_self

end BlueROV2.Firmware
