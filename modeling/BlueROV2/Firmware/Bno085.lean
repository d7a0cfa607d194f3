import BlueROV2.Firmware.Bno08x

/-!
# The driver of the IMU on the Teensy

Library `Firmware`. `modules/teensy/lib/bno085/bno085.h` and `bno085.cpp`. Each method takes the
object and returns it with its result, and each call of the library uses up a moment.
-/

namespace BlueROV2.Firmware

/-- One fused orientation/motion reading from the IMU; `bno085.h:11`. -/
structure Sample where
  qx : Word
  qy : Word
  qz : Word
  qw : Word
  gx : Word
  gy : Word
  gz : Word
  ax : Word
  ay : Word
  az : Word
  deriving DecidableEq, Repr

/-- Per-sensor accuracy/status reported alongside a sample; `bno085.h:19`. -/
structure SensorAccuracy where
  accel : UInt8
  gyro : UInt8
  mag : UInt8
  quat : UInt8
  quatRad : Word
  deriving DecidableEq, Repr

/-- `CAL_MASK_CALIBRATING`; `bno085.cpp:10`. -/
def calMaskCalibrating : UInt8 := sh2CalAccel ||| sh2CalGyro ||| sh2CalMag

/-- `CAL_MASK_DEFAULT`; `bno085.cpp:11`. -/
def calMaskDefault : UInt8 := sh2CalGyro

/-- `normalize_quat`, in the arithmetic of `float`, with every product and every sum rounded on its
own; a compiler that fuses them may get another last bit; `bno085.cpp:13–21`. -/
def normalizeQuat (q : Vector Word 4) : Vector Word 4 :=
  let f := q.map Float32.ofBits
  let norm := Float32.sqrt (f[0] * f[0] + f[1] * f[1] + f[2] * f[2] + f[3] * f[3])
  if norm > 0.0 then f.map (fun c ↦ (c / norm).toBits) else q

/-- `BNO085`; `bno085.h:29`. -/
structure BNO085 where
  imu : BNO08x
  sample : Sample
  accuracy : SensorAccuracy
  reportPeriodMs : UInt32
  gyroStaleMs : UInt32
  haveAccel : Bool
  haveQuat : Bool
  lastGyroMs : UInt32
  calMask : UInt8

namespace BNO085

/-- An object just constructed, for an IMU with given settings at power-on. -/
def start (powerOnConfig : UInt8) : BNO085 where
  imu := ⟨⟨fun _ ↦ 0, powerOnConfig, powerOnConfig, false, []⟩, ⟨.other 0, 0, 0, 0, 0, 0, 0⟩, 0, []⟩
  sample := ⟨0, 0, 0, 0, 0, 0, 0, 0, 0, 0⟩
  accuracy := ⟨0, 0, 0, 0, 0⟩
  reportPeriodMs := 0
  gyroStaleMs := 0
  haveAccel := false
  haveQuat := false
  lastGyroMs := 0
  calMask := 0

/-- The IMU itself. -/
abbrev device (x : BNO085) : Imu := x.imu.device

/-- The same object with other moments ahead. -/
def facing (ahead : List Moment) (x : BNO085) : BNO085 := { x with imu := { x.imu with ahead } }

/-- A call of the library, or of `millis`. -/
def call {α : Type} (f : BNO08x → α × BNO08x) (x : BNO085) : α × BNO085 :=
  ((f x.imu).1, { x with imu := (f x.imu).2 })

def delay (ms : Nat) (x : BNO085) : BNO085 := { x with imu := x.imu.delay ms }

/-- `calibrating`; `bno085.cpp:157`. -/
def calibrating (x : BNO085) : Bool := x.calMask &&& sh2CalMag ≠ 0

/-- `calibration_mask`; `bno085.cpp:159`. -/
def calibrationMask (x : BNO085) : UInt8 := x.calMask

/-- `set_reports`; it ignores `accel_ok`; `bno085.cpp:59–67`. -/
def setReports (x : BNO085) : Bool × BNO085 :=
  let (_, x) := x.call (·.enableReport .accelerometer (x.reportPeriodMs * 1000))
  let (gyroOk, x) := x.call (·.enableReport .gyroscopeCalibrated (x.reportPeriodMs * 1000))
  let (quatOk, x) := x.call (·.enableReport .rotationVector (x.reportPeriodMs * 1000))
  (gyroOk && quatOk, x)

/-- `configure`; `bno085.cpp:47–57`. -/
def configure (x : BNO085) : Bool × BNO085 :=
  let x := { x with haveAccel := false, haveQuat := false, lastGyroMs := 0 }
  let (ok, x) := x.setReports
  (ok, x.delay 100)

/-- The loop of `begin`, in which at most `fuel` attempts are made; `bno085.cpp:37–43`. -/
def beginLoop (start timeoutMs : UInt32) : Nat → BNO085 → Option (Bool × BNO085)
  | 0, _ => none
  | fuel + 1, x =>
    let (now, x) := x.call BNO08x.millis
    if now - start < timeoutMs then
      let (begun, x) := x.call BNO08x.begin
      if begun then some x.configure else beginLoop start timeoutMs fuel (x.delay 100)
    else some (false, x)

/-- `begin`, with the defaults of `bno085.h:39–41`; the attempts are no more than the moments
ahead, and one; `bno085.cpp:25–45`. -/
def begin (x : BNO085) (reportPeriodMs : UInt32 := 5) (gyroStaleMs : UInt32 := 100)
    (timeoutMs : UInt32 := 5000) : Option (Bool × BNO085) :=
  let x := { x with reportPeriodMs, gyroStaleMs }
  let (start, x) := x.call BNO08x.millis
  beginLoop start timeoutMs (x.imu.ahead.length + 1) x

/-- `was_reset`; `bno085.cpp:69`. -/
def wasReset (x : BNO085) : Bool × BNO085 := x.call BNO08x.wasReset

/-- `calibrate`; `bno085.cpp:139–151`. -/
def calibrate (sensors : UInt8) (x : BNO085) (magReportPeriodMs : UInt32 := 20) : Bool × BNO085 :=
  let (enabled, x) := x.call (·.enableReport .magneticFieldCalibrated (magReportPeriodMs * 1000))
  if !enabled then (false, x)
  else
    let (applied, x) := x.call (·.setCalibrationConfig sensors)
    if !applied then (false, x)
    else (true, { x with calMask := sensors, accuracy := { x.accuracy with mag := 0 } })

/-- `start_calibration`; `bno085.cpp:135`. -/
def startCalibration (x : BNO085) : Bool × BNO085 := x.calibrate calMaskCalibrating

/-- `stop_calibration`; `bno085.cpp:137`. -/
def stopCalibration (x : BNO085) : Bool × BNO085 := x.calibrate calMaskDefault 0

/-- `save_calibration`; `bno085.cpp:153`. -/
def saveCalibration (x : BNO085) : Bool × BNO085 := x.call BNO08x.saveCalibration

/-- `reset`; `bno085.cpp:71–77`. -/
def reset (x : BNO085) : Bool × BNO085 :=
  let (configured, x) := x.configure
  if !configured then (false, x)
  else if x.calibrating then x.startCalibration else x.stopCalibration

/-- The event that `read` took, by its identifier; `bno085.cpp:82–115`. -/
def takeEvent (x : BNO085) : BNO085 :=
  let v := x.imu.sensorValue
  let status := v.status &&& 0x03
  match v.sensorId with
  | .accelerometer =>
    { x with
      sample := { x.sample with ax := v.x, ay := v.y, az := v.z }
      accuracy := { x.accuracy with accel := status }
      haveAccel := true }
  | .gyroscopeCalibrated =>
    let x := { x with
      sample := { x.sample with gx := v.x, gy := v.y, gz := v.z }
      accuracy := { x.accuracy with gyro := status } }
    let (now, x) := x.call BNO08x.millis
    { x with lastGyroMs := now }
  | .magneticFieldCalibrated => { x with accuracy := { x.accuracy with mag := status } }
  | .rotationVector =>
    let q := normalizeQuat #v[v.x, v.y, v.z, v.real]
    { x with
      sample := { x.sample with qx := q[0], qy := q[1], qz := q[2], qw := q[3] }
      accuracy := { x.accuracy with quat := status, quatRad := v.accuracy }
      haveQuat := true }
  | .other _ => x

/-- `read`; `bno085.cpp:79–133`. -/
def read (x : BNO085) : Option Sample × BNO085 :=
  let (waiting, x) := x.call BNO08x.getSensorEvent
  let x := if waiting then x.takeEvent else x
  if !x.haveAccel || !x.haveQuat then (none, x)
  else
    let x := { x with haveAccel := false, haveQuat := false }
    let (now, x) := x.call BNO08x.millis
    let x :=
      if now - x.lastGyroMs > x.gyroStaleMs then
        { x with sample := { x.sample with gx := 0, gy := 0, gz := 0 } }
      else x
    (some x.sample, x)

/-! ### What the methods do to the IMU -/

variable (x : BNO085)

/-- One object after another: the program set nothing on the IMU meanwhile and did not change
what it remembers of it. A reset that happened still waits to be noticed. -/
structure Passive (x y : BNO085) : Prop where
  calMask : y.calMask = x.calMask
  reportPeriodMs : y.reportPeriodMs = x.reportPeriodMs
  device : y.device.resetOccurred = false →
    x.device.resetOccurred = false ∧ y.device = x.device

variable {x} in
theorem Passive.trans {y z : BNO085} (hxy : Passive x y) (hyz : Passive y z) : Passive x z where
  calMask := hyz.calMask.trans hxy.calMask
  reportPeriodMs := hyz.reportPeriodMs.trans hxy.reportPeriodMs
  device h :=
    have hy := hyz.device h
    ⟨(hxy.device hy.1).1, hy.2.trans (hxy.device hy.1).2⟩

theorem passive_refl : Passive x x := ⟨rfl, rfl, fun h ↦ ⟨h, rfl⟩⟩

/-- Other moments ahead make no difference to the IMU. -/
theorem passive_facing (ahead : List Moment) : Passive x (x.facing ahead) :=
  ⟨rfl, rfl, fun h ↦ ⟨h, rfl⟩⟩

/-- Reading the clock sets nothing. -/
theorem passive_millis : Passive x (x.call BNO08x.millis).2 :=
  ⟨rfl, rfl, x.imu.device_tick⟩

/-- Waiting sets nothing. -/
theorem passive_delay (ms : Nat) : Passive x (x.delay ms) :=
  ⟨rfl, rfl, x.imu.device_tick⟩

private theorem passive_getSensorEvent : Passive x (x.call BNO08x.getSensorEvent).2 := by
  refine ⟨rfl, rfl, ?_⟩
  unfold call BNO08x.getSensorEvent
  split
  · exact x.imu.device_tick
  · exact x.imu.device_tick

private theorem passive_takeEvent : Passive x x.takeEvent := by
  unfold takeEvent
  simp only
  split
  · exact ⟨rfl, rfl, fun h ↦ ⟨h, rfl⟩⟩
  · exact ⟨rfl, rfl, x.imu.device_tick⟩
  · exact ⟨rfl, rfl, fun h ↦ ⟨h, rfl⟩⟩
  · exact ⟨rfl, rfl, fun h ↦ ⟨h, rfl⟩⟩
  · exact ⟨rfl, rfl, fun h ↦ ⟨h, rfl⟩⟩

/-- Reading a sample sets nothing. -/
theorem passive_read : Passive x x.read.2 := by
  have hevent := x.passive_getSensorEvent
  rw [read]
  generalize x.call BNO08x.getSensorEvent = r at hevent ⊢
  rcases r with ⟨waiting, x₁⟩
  have htaken : Passive x (if waiting then x₁.takeEvent else x₁) := by
    cases waiting with
    | true => exact hevent.trans x₁.passive_takeEvent
    | false => exact hevent
  simp only
  generalize (if waiting then x₁.takeEvent else x₁) = x₂ at htaken ⊢
  split
  · exact htaken
  · apply htaken.trans
    -- whether the rates are stale or not, only the clock was read
    split
    · exact ⟨rfl, rfl, x₂.imu.device_tick⟩
    · exact ⟨rfl, rfl, x₂.imu.device_tick⟩

/-- When no reset is noticed, looking for one sets nothing. -/
theorem passive_wasReset (h : x.wasReset.1 = false) : Passive x x.wasReset.2 := by
  refine ⟨rfl, rfl, fun _ ↦ ?_⟩
  have hd := x.imu.device_tick h
  refine ⟨hd.1, ?_⟩
  change { x.imu.tick.device with resetOccurred := false } = x.device
  rw [hd.2, ← hd.1]

/-- The object before and after a request: what the program remembers stays, one moment is used
up, and the IMU changed just as the answer says, if no reset waits to be noticed. -/
structure Requested (granted : Bool) (effect : Imu → Imu) (x y : BNO085) : Prop where
  calMask : y.calMask = x.calMask
  accuracy : y.accuracy = x.accuracy
  reportPeriodMs : y.reportPeriodMs = x.reportPeriodMs
  ahead : y.imu.ahead = x.imu.ahead.tail
  device : y.device.resetOccurred = false →
    x.device.resetOccurred = false ∧ y.device = if granted then effect x.device else x.device

/-- A request that does not touch the flag, by its answer. -/
theorem call_request (granted : Moment → Bool) {effect : Imu → Imu}
    (heffect : ∀ d, (effect d).resetOccurred = d.resetOccurred) :
    ∃ y, x.call (·.request granted effect) = (granted (nextMoment x.imu.ahead), y) ∧
      Requested (granted (nextMoment x.imu.ahead)) effect x y :=
  ⟨_, Prod.ext (x.imu.fst_request granted effect) rfl, rfl, rfl, rfl,
    x.imu.ahead_request granted effect, x.imu.device_request heffect⟩

/-- A call for a report. -/
theorem call_enableReport (sensor : SensorId) (interval : UInt32) :
    ∃ y, x.call (·.enableReport sensor interval) = ((nextMoment x.imu.ahead).accepts, y) ∧
      Requested (nextMoment x.imu.ahead).accepts (·.enableReport sensor interval) x y :=
  x.call_request _ (Imu.resetOccurred_enableReport sensor interval)

/-- A call for a calibration configuration. -/
theorem call_setCalibrationConfig (sensors : UInt8) :
    ∃ y, x.call (·.setCalibrationConfig sensors) = ((nextMoment x.imu.ahead).accepts, y) ∧
      Requested (nextMoment x.imu.ahead).accepts (·.setCalibrationConfig sensors) x y :=
  x.call_request _ (Imu.resetOccurred_setCalibrationConfig sensors)

/-- A call to save the calibration. -/
theorem call_saveCalibration :
    ∃ y, x.saveCalibration = ((nextMoment x.imu.ahead).saves, y) ∧
      Requested (nextMoment x.imu.ahead).saves (·.saveCalibration) x y :=
  x.call_request _ Imu.resetOccurred_saveCalibration

/-- The object before and after a change of calibration: it is made when both settings are
accepted, and only then remembered. The report of the magnetometer is set first; if the
configuration is then refused, that report stays as set. -/
structure Calibrated (sensors : UInt8) (ms : UInt32) (ok : Bool) (x y : BNO085) : Prop where
  granted : ok = ((nextMoment x.imu.ahead).accepts && (nextMoment x.imu.ahead.tail).accepts)
  calMask : y.calMask = if ok then sensors else x.calMask
  accuracy : y.accuracy = if ok then { x.accuracy with mag := 0 } else x.accuracy
  reportPeriodMs : y.reportPeriodMs = x.reportPeriodMs
  device : y.device.resetOccurred = false → x.device.resetOccurred = false ∧ y.device =
    if (nextMoment x.imu.ahead).accepts then
      if (nextMoment x.imu.ahead.tail).accepts then
        (x.device.enableReport .magneticFieldCalibrated (ms * 1000)).setCalibrationConfig sensors
      else x.device.enableReport .magneticFieldCalibrated (ms * 1000)
    else x.device

/-- What `calibrate` does, by the answers to its two requests. -/
theorem calibrate_spec (sensors : UInt8) (ms : UInt32) :
    Calibrated sensors ms (x.calibrate sensors ms).1 x (x.calibrate sensors ms).2 := by
  rcases x.call_enableReport .magneticFieldCalibrated (ms * 1000) with ⟨y, hy, ry⟩
  rcases y.call_setCalibrationConfig sensors with ⟨z, hz, rz⟩
  rw [ry.ahead] at hz rz
  rw [calibrate]
  simp only [hy, hz]
  cases hm : (nextMoment x.imu.ahead).accepts with
  | false =>
    rw [hm] at ry
    refine ⟨by rw [hm]; rfl, ry.calMask, ry.accuracy, ry.reportPeriodMs, fun h ↦ ?_⟩
    rw [hm]
    exact ry.device h
  | true =>
    have hdevice : z.device.resetOccurred = false → x.device.resetOccurred = false ∧ z.device =
        if (nextMoment x.imu.ahead.tail).accepts then
          (x.device.enableReport .magneticFieldCalibrated (ms * 1000)).setCalibrationConfig sensors
        else x.device.enableReport .magneticFieldCalibrated (ms * 1000) := by
      intro h
      have hdz := rz.device h
      have hdy := ry.device hdz.1
      rw [hm] at hdy
      rw [hdz.2, hdy.2]
      exact ⟨hdy.1, rfl⟩
    cases hc : (nextMoment x.imu.ahead.tail).accepts with
    | false =>
      rw [hc] at hdevice
      refine ⟨by rw [hm, hc]; rfl, rz.calMask.trans ry.calMask, rz.accuracy.trans ry.accuracy,
        rz.reportPeriodMs.trans ry.reportPeriodMs, fun h ↦ ?_⟩
      rw [hm, hc]
      exact hdevice h
    | true =>
      rw [hc] at hdevice
      refine ⟨by rw [hm, hc]; rfl, rfl, ?_, rz.reportPeriodMs.trans ry.reportPeriodMs,
        fun h ↦ ?_⟩
      · simp only [Bool.not_true, Bool.false_eq_true, if_false, if_true, rz.accuracy, ry.accuracy]
      · rw [hm, hc]
        exact hdevice h

/-- The object before and after `configure`: the reports are requested in order whatever the
answers, of which the second and the third count. -/
structure Configured (ok : Bool) (x y : BNO085) : Prop where
  granted : ok =
    ((nextMoment x.imu.ahead.tail).accepts && (nextMoment x.imu.ahead.tail.tail).accepts)
  calMask : y.calMask = x.calMask
  reportPeriodMs : y.reportPeriodMs = x.reportPeriodMs
  ahead : y.imu.ahead = x.imu.ahead.tail.tail.tail.tail
  device : y.device.resetOccurred = false → x.device.resetOccurred = false ∧
    y.device = x.device.setReports (x.reportPeriodMs * 1000) (nextMoment x.imu.ahead).accepts
      (nextMoment x.imu.ahead.tail).accepts (nextMoment x.imu.ahead.tail.tail).accepts

/-- What `configure` does, by the answers to its three requests. -/
theorem configure_spec : Configured x.configure.1 x x.configure.2 := by
  rcases call_enableReport { x with haveAccel := false, haveQuat := false, lastGyroMs := 0 }
    .accelerometer (x.reportPeriodMs * 1000) with ⟨x₁, h₁, r₁⟩
  rcases x₁.call_enableReport .gyroscopeCalibrated (x.reportPeriodMs * 1000) with ⟨x₂, h₂, r₂⟩
  rcases x₂.call_enableReport .rotationVector (x.reportPeriodMs * 1000) with ⟨x₃, h₃, r₃⟩
  have hp₁ := r₁.reportPeriodMs
  have hp₂ := r₂.reportPeriodMs.trans hp₁
  have ha₁ := r₁.ahead
  have ha₂ := r₂.ahead.trans (congrArg List.tail ha₁)
  rw [ha₁] at h₂ r₂
  rw [ha₂] at h₃ r₃
  simp only at hp₁ hp₂ ha₁ ha₂ h₁ h₂ h₃
  have heq : x.configure =
      ((nextMoment x.imu.ahead.tail).accepts && (nextMoment x.imu.ahead.tail.tail).accepts,
        x₃.delay 100) := by
    rw [configure, setReports]
    simp only [h₁, hp₁, h₂, hp₂, h₃]
  rw [heq]
  refine ⟨rfl, r₃.calMask.trans (r₂.calMask.trans r₁.calMask), r₃.reportPeriodMs.trans hp₂, ?_, ?_⟩
  · exact congrArg List.tail (r₃.ahead.trans (congrArg List.tail ha₂))
  · intro h
    have hd := (x₃.passive_delay 100).device h
    have hd₃ := r₃.device hd.1
    have hd₂ := r₂.device hd₃.1
    have hd₁ := r₁.device hd₂.1
    rw [hd.2, hd₃.2, hd₂.2, hd₁.2]
    exact ⟨hd₁.1, rfl⟩

/-- What `begin` leaves before it calls `configure`: only the library was called. -/
structure Began (x y : BNO085) : Prop where
  calMask : y.calMask = x.calMask
  reportPeriodMs : y.reportPeriodMs = x.reportPeriodMs
  ahead : Accepting 0 x.imu.ahead → Accepting 0 y.imu.ahead

variable {x} in
theorem Began.trans {y z : BNO085} (hxy : Began x y) (hyz : Began y z) : Began x z where
  calMask := hyz.calMask.trans hxy.calMask
  reportPeriodMs := hyz.reportPeriodMs.trans hxy.reportPeriodMs
  ahead h := hyz.ahead (hxy.ahead h)

/-- An attempt is made as long as the time is not over; the last moments ahead let it succeed. -/
theorem beginLoop_spec (start timeoutMs : UInt32) (fuel : Nat) (h : x.imu.ahead.length < fuel) :
    ∃ ok y, beginLoop start timeoutMs fuel x = some (ok, y) ∧
      (ok = true → ∃ z, Began x z ∧ z.configure = (true, y)) := by
  induction fuel generalizing x with
  | zero => exact absurd h (Nat.not_lt_zero _)
  | succ fuel ih =>
    rw [beginLoop]
    simp only
    by_cases hnow : (x.call BNO08x.millis).1 - start < timeoutMs
    · rw [if_pos hnow]
      obtain ⟨y, hy⟩ : ∃ y, y = ((x.call BNO08x.millis).2.call BNO08x.begin).2 := ⟨_, rfl⟩
      have hfst : ((x.call BNO08x.millis).2.call BNO08x.begin).1 =
          (nextMoment x.imu.ahead.tail).begins := BNO08x.fst_request _ _ _
      have hahead : y.imu.ahead = x.imu.ahead.tail.tail := hy ▸ BNO08x.ahead_request _ _ _
      have hbegan : Began x y := by
        refine ⟨hy ▸ rfl, hy ▸ rfl, fun ha ↦ ?_⟩
        rw [hahead]
        exact ha.rest.rest
      rw [← hy, hfst]
      cases hb : (nextMoment x.imu.ahead.tail).begins with
      | true => exact ⟨y.configure.1, y.configure.2, rfl, fun hok ↦ ⟨y, hbegan, Prod.ext hok rfl⟩⟩
      | false =>
        -- an IMU that does not answer used up a moment
        have hless : (y.delay 100).imu.ahead.length < fuel := by
          have hdelay : (y.delay 100).imu.ahead = x.imu.ahead.tail.tail.tail :=
            congrArg List.tail hahead
          rw [hdelay]
          cases hx : x.imu.ahead with
          | nil =>
            rw [hx] at hb
            cases hb
          | cons m ahead =>
            rw [hx, List.length_cons] at h
            simp only [List.tail_cons, List.length_tail]
            omega
        rcases ih (y.delay 100) hless with ⟨ok, z, hz, hok⟩
        refine ⟨ok, z, hz, fun htrue ↦ ?_⟩
        rcases hok htrue with ⟨w, hw, hconf⟩
        have hwait : Began y (y.delay 100) := ⟨rfl, rfl, Accepting.rest⟩
        exact ⟨w, (hbegan.trans hwait).trans hw, hconf⟩
    · rw [if_neg hnow]
      exact ⟨false, _, rfl, nofun⟩

/-- `begin` returns; when it succeeds, it ended in a successful call of `configure`. -/
theorem begin_spec (reportPeriodMs gyroStaleMs timeoutMs : UInt32) :
    ∃ ok y, x.begin reportPeriodMs gyroStaleMs timeoutMs = some (ok, y) ∧
      (ok = true → ∃ z, Began { x with reportPeriodMs, gyroStaleMs } z ∧
        z.configure = (true, y)) := by
  rcases beginLoop_spec (({ x with reportPeriodMs, gyroStaleMs } : BNO085).call BNO08x.millis).2
    (({ x with reportPeriodMs, gyroStaleMs } : BNO085).call BNO08x.millis).1 timeoutMs _
    (Nat.lt_succ_self _) with ⟨ok, y, hy, hok⟩
  refine ⟨ok, y, hy, fun htrue ↦ ?_⟩
  rcases hok htrue with ⟨z, hz, hconf⟩
  have hclock : Began { x with reportPeriodMs, gyroStaleMs }
      (({ x with reportPeriodMs, gyroStaleMs } : BNO085).call BNO08x.millis).2 :=
    ⟨rfl, rfl, Accepting.rest⟩
  exact ⟨z, hclock.trans hz, hconf⟩

end BNO085

end BlueROV2.Firmware
