import BlueROV2.Driver.Telemetry
import BlueROV2.Firmware.Main
import BlueROV2.Link.Codecs

/-!
# Telemetry from end to end

Library `Link`. The payloads that `modules/teensy/src/main.cpp` copies out of memory against the
order in which the callbacks of the Pi's `driver.cpp` take them apart.
-/

namespace BlueROV2.Link

open BlueROV2.Base BlueROV2.Wire
open Firmware (Teensy Iteration Sample SensorAccuracy wordBytes sampleStep sendCalibrationStatus)
open Driver (TeensyDriver takeImu takeCalStatus dispatch driverCallbacks pollConnection)

/-- The bytes of a word stand for it. -/
theorem wordBytes_eq (w : UInt32) : wordBytes w = LittleEndian.toBytes 4 w.toNat := by
  have h₁ : (w >>> 8).toUInt8 = UInt8.ofNat (w.toNat / 256) := by
    apply UInt8.toNat_inj.mp
    simp [Nat.shiftRight_eq_div_pow]
  have h₂ : (w >>> 16).toUInt8 = UInt8.ofNat (w.toNat / 256 / 256) := by
    apply UInt8.toNat_inj.mp
    simp [Nat.shiftRight_eq_div_pow, Nat.div_div_eq_div_mul]
  have h₃ : (w >>> 24).toUInt8 = UInt8.ofNat (w.toNat / 256 / 256 / 256) := by
    apply UInt8.toNat_inj.mp
    simp [Nat.shiftRight_eq_div_pow, Nat.div_div_eq_div_mul]
  rw [wordBytes, h₁, h₂, h₃]
  rfl

/-- The Pi takes a word as the Teensy stored it. -/
theorem wordOf_wordBytes (w : UInt32) : Driver.wordOf (wordBytes w) = w := by
  apply UInt32.toNat_inj.mp
  rw [Driver.wordOf, wordBytes_eq, LittleEndian.toNat_toBytes, UInt32.toNat_ofNat']
  have hw := w.toNat_lt
  omega

theorem ofNat_toNat_singleton (b : UInt8) : UInt8.ofNat (LittleEndian.toNat [b]) = b := by
  apply UInt8.toNat_inj.mp
  simp [LittleEndian.toNat]

/-- What the Pi makes of a sample. -/
def imuOf (params : Driver.Params) (now : Nat) (s : Sample) : Driver.Imu where
  header := ⟨params.frameId, now⟩
  orientation := ⟨s.qx, s.qy, s.qz, s.qw⟩
  orientationCovariance := Driver.diagonal params.orientationCovariance
  angularVelocity := ⟨s.gx, s.gy, s.gz⟩
  angularVelocityCovariance := Driver.diagonal params.angularVelocityCovariance
  linearAcceleration := ⟨s.ax, s.ay, s.az⟩
  linearAccelerationCovariance := Driver.diagonal params.linearAccelerationCovariance

/-- What the Teensy sends of an accuracy record and a calibration mask. -/
def statusBytes (accuracy : SensorAccuracy) (mask : UInt8) : List UInt8 :=
  [accuracy.accel, accuracy.gyro, accuracy.mag, accuracy.quat, mask] ++ wordBytes accuracy.quatRad

/-- What the Pi makes of it. -/
def statusOf (params : Driver.Params) (now : Nat) (accuracy : SensorAccuracy) (mask : UInt8) :
    Driver.ImuCalibrationStatus where
  header := ⟨params.frameId, now⟩
  accelerometerAccuracy := accuracy.accel
  gyroscopeAccuracy := accuracy.gyro
  magnetometerAccuracy := accuracy.mag
  orientationAccuracy := accuracy.quat
  orientationAccuracyRad := accuracy.quatRad
  accelerometerCalibrationEnabled := mask &&& Firmware.sh2CalAccel ≠ 0
  gyroscopeCalibrationEnabled := mask &&& Firmware.sh2CalGyro ≠ 0
  magnetometerCalibrationEnabled := mask &&& Firmware.sh2CalMag ≠ 0

/-- The words of a sample are taken in the order in which they lie in memory. -/
theorem takeImu_bytes (params : Driver.Params) (now : Nat) (s : Sample) :
    takeImu params now s.bytes = .ok (imuOf params now s, []) := by
  have htaken : takeImu params now s.bytes = .ok
      (imuOf params now ⟨Driver.wordOf (wordBytes s.qx), Driver.wordOf (wordBytes s.qy),
        Driver.wordOf (wordBytes s.qz), Driver.wordOf (wordBytes s.qw),
        Driver.wordOf (wordBytes s.gx), Driver.wordOf (wordBytes s.gy),
        Driver.wordOf (wordBytes s.gz), Driver.wordOf (wordBytes s.ax),
        Driver.wordOf (wordBytes s.ay), Driver.wordOf (wordBytes s.az)⟩, []) := rfl
  rw [htaken]
  simp only [wordOf_wordBytes]

/-- The bytes of a status are taken in the order in which they are filled in. -/
theorem takeCalStatus_bytes (params : Driver.Params) (now : Nat) (accuracy : SensorAccuracy)
    (mask : UInt8) : takeCalStatus params now (statusBytes accuracy mask) =
      .ok (statusOf params now accuracy mask, []) := by
  rcases accuracy with ⟨accel, gyro, mag, quat, rad⟩
  have htaken : takeCalStatus params now (statusBytes ⟨accel, gyro, mag, quat, rad⟩ mask) = .ok
      (statusOf params now ⟨UInt8.ofNat (LittleEndian.toNat [accel]),
        UInt8.ofNat (LittleEndian.toNat [gyro]), UInt8.ofNat (LittleEndian.toNat [mag]),
        UInt8.ofNat (LittleEndian.toNat [quat]), Driver.wordOf (wordBytes rad)⟩
        (UInt8.ofNat (LittleEndian.toNat [mask])), []) := rfl
  rw [htaken]
  simp only [wordOf_wordBytes, ofNat_toNat_singleton]

/-- An active driver publishes a sample once. -/
theorem dispatch_sample (s : Sample) {d : TeensyDriver} (h : d.imuActivated = true) :
    dispatch driverCallbacks ⟨.imuData, .imu01, s.bytes⟩ d =
      .ok { d with published := d.published ++ [.imu (imuOf d.params d.now s)] } := by
  rw [Driver.dispatch_driverCallbacks, if_pos rfl, Driver.imuData, h]
  simp only [s.length_bytes, takeImu_bytes, Cpp.ok_bind]
  rfl

/-- An active driver publishes a status once. -/
theorem dispatch_status (accuracy : SensorAccuracy) (mask : UInt8) {d : TeensyDriver}
    (h : d.calibActivated = true) :
    dispatch driverCallbacks ⟨.calStatus, .imu01, statusBytes accuracy mask⟩ d =
      .ok { d with published := d.published ++
        [.calibrationStatus (statusOf d.params d.now accuracy mask)] } := by
  have hlen : (statusBytes accuracy mask).length = 9 := rfl
  have hid : PacketId.calStatus ≠ .imuData := by decide
  rw [Driver.dispatch_driverCallbacks, if_neg hid, if_pos rfl, Driver.calStatus, h]
  simp only [hlen, takeCalStatus_bytes, Cpp.ok_bind]
  rfl

/-- What is sent of an admissible payload. -/
theorem send_outputs (packetId : PacketId) {payload : List UInt8} (failure : String) (t : Teensy)
    (h : payload.length ≤ Firmware.maxPayloadSize) :
    t.send packetId payload failure = .ok { t with outputs := t.outputs ++
      [.client (.write (frame Driver.calculateCrc ⟨packetId, .imu01, payload⟩ ++ [0]))] } := by
  rw [Teensy.send, Firmware.send_eq packetId .imu01 payload h]
  rfl

/-- Every sample and every status that the Teensy sends is one frame. However it is cut, an active
driver publishes one message of it, which has the words and bits of the same names, and nothing
of the payload is left. And whatever packet is dispatched, no pop fails; one of a wrong size, or
without a callback, changes nothing. -/
theorem telemetry_agrees :
    (∀ (i : Iteration) (t : Teensy) (s : Sample), (t.imu.facing i.sample).read.1 = some s →
      ∃ t', sampleStep i t = .ok t' ∧
        t'.outputs = t.outputs ++ [.client (.write
          (frame Driver.calculateCrc ⟨.imuData, .imu01, s.bytes⟩ ++ [0]))] ∧
        ∀ (d : TeensyDriver) (chunks : List (List UInt8)), d.imuActivated = true →
          chunks.flatten = frame Driver.calculateCrc ⟨.imuData, .imu01, s.bytes⟩ ++ [0] →
          ∃ msg, pollConnection (dispatch driverCallbacks) (chunks.map .data) .start d =
              .ok (.start, { d with published := d.published ++ [.imu msg] }) ∧
            takeImu d.params d.now s.bytes = .ok (msg, []) ∧
            msg.orientation = ⟨s.qx, s.qy, s.qz, s.qw⟩ ∧
            msg.angularVelocity = ⟨s.gx, s.gy, s.gz⟩ ∧
            msg.linearAcceleration = ⟨s.ax, s.ay, s.az⟩) ∧
    (∀ t : Teensy, ∃ t', sendCalibrationStatus t = .ok t' ∧
      t'.outputs = t.outputs ++ [.client (.write (frame Driver.calculateCrc
        ⟨.calStatus, .imu01, statusBytes t.imu.accuracy t.imu.calibrationMask⟩ ++ [0]))] ∧
      ∀ (d : TeensyDriver) (chunks : List (List UInt8)), d.calibActivated = true →
        chunks.flatten = frame Driver.calculateCrc
          ⟨.calStatus, .imu01, statusBytes t.imu.accuracy t.imu.calibrationMask⟩ ++ [0] →
        ∃ msg, pollConnection (dispatch driverCallbacks) (chunks.map .data) .start d =
            .ok (.start, { d with published := d.published ++ [.calibrationStatus msg] }) ∧
          takeCalStatus d.params d.now (statusBytes t.imu.accuracy t.imu.calibrationMask) =
            .ok (msg, []) ∧
          msg.accelerometerAccuracy = t.imu.accuracy.accel ∧
          msg.gyroscopeAccuracy = t.imu.accuracy.gyro ∧
          msg.magnetometerAccuracy = t.imu.accuracy.mag ∧
          msg.orientationAccuracy = t.imu.accuracy.quat ∧
          msg.orientationAccuracyRad = t.imu.accuracy.quatRad ∧
          (msg.accelerometerCalibrationEnabled = true ↔
            t.imu.calibrationMask &&& Firmware.sh2CalAccel ≠ 0) ∧
          (msg.gyroscopeCalibrationEnabled = true ↔
            t.imu.calibrationMask &&& Firmware.sh2CalGyro ≠ 0) ∧
          (msg.magnetometerCalibrationEnabled = true ↔
            t.imu.calibrationMask &&& Firmware.sh2CalMag ≠ 0)) ∧
    (∀ (packet : Driver.Packet) (d : TeensyDriver) (what : String),
      dispatch driverCallbacks packet d ≠ .error (.invalidArgument what)) ∧
    (∀ (packet : Driver.Packet) (d : TeensyDriver),
      Driver.expectedSize packet.packetId ≠ some packet.payload.length →
        dispatch driverCallbacks packet d = .ok d) := by
  refine ⟨?_, ?_, Driver.dispatch_ne_invalidArgument, fun _ ↦ Driver.dispatch_of_wrong_size⟩
  · intro i t s hread
    have hle : s.bytes.length ≤ Firmware.maxPayloadSize := by
      rw [s.length_bytes]
      decide
    have hstep : sampleStep i t = .ok { t with
        imu := (t.imu.facing i.sample).read.2
        outputs := t.outputs ++ [.client (.write
          (frame Driver.calculateCrc ⟨.imuData, .imu01, s.bytes⟩ ++ [0]))] } := by
      rw [sampleStep]
      simp only [hread]
      exact send_outputs .imuData "Failed to send IMU_DATA" _ hle
    refine ⟨_, hstep, rfl, fun d chunks hactive hchunks ↦ ?_⟩
    refine ⟨imuOf d.params d.now s, ?_, takeImu_bytes _ _ _, rfl, rfl, rfl⟩
    rw [Driver.pollConnection_frame _ _ d rfl hchunks, dispatch_sample s hactive]
    rfl
  · intro t
    have hle : (statusBytes t.imu.accuracy t.imu.calibrationMask).length ≤
        Firmware.maxPayloadSize := (by decide : 9 ≤ 64)
    have hsend := send_outputs .calStatus "Failed to send CAL_STATUS" t hle
    have hstep : sendCalibrationStatus t =
        (t.send .calStatus (statusBytes t.imu.accuracy t.imu.calibrationMask)
          "Failed to send CAL_STATUS" >>= fun t ↦ pure { t with
            imu := (t.imu.call Firmware.BNO08x.millis).2
            lastCalStatusMs := (t.imu.call Firmware.BNO08x.millis).1 }) := rfl
    rw [hsend, Cpp.ok_bind] at hstep
    refine ⟨_, hstep, rfl, fun d chunks hactive hchunks ↦ ?_⟩
    refine ⟨statusOf d.params d.now t.imu.accuracy t.imu.calibrationMask, ?_,
      takeCalStatus_bytes _ _ _ _, rfl, rfl, rfl, rfl, rfl, ?_, ?_, ?_⟩
    · rw [Driver.pollConnection_frame _ _ d rfl hchunks, dispatch_status _ _ hactive]
      rfl
    · exact decide_eq_true_iff
    · exact decide_eq_true_iff
    · exact decide_eq_true_iff

/-- A sample whose ten words are different. -/
def tenWords : Sample := ⟨1, 2, 3, 4, 5, 6, 7, 8, 9, 10⟩

/-- A program whose next iteration returns that sample. -/
def measuring : Teensy :=
  { Teensy.start 0 with
    imu := { Firmware.BNO085.start 0 with
      sample := tenWords
      haveAccel := true
      haveQuat := true } }

/-- An active driver. -/
def activeDriver : TeensyDriver where
  params := ⟨"bno08x", #v[1, 2, 3], #v[4, 5, 6], #v[7, 8, 9]⟩
  imuActivated := true
  calibActivated := true
  commands := .start
  now := 0
  published := []

/-- The sample is sent, and published with its own rates; a status that is too long is not. -/
theorem telemetry_agrees_tenWords :
    (∃ t' msg, sampleStep ⟨[], [], [], [], []⟩ measuring = .ok t' ∧
      pollConnection (dispatch driverCallbacks)
        (List.map .data [frame Driver.calculateCrc ⟨.imuData, .imu01, tenWords.bytes⟩ ++ [0]])
        .start activeDriver = .ok (.start, { activeDriver with published := [.imu msg] }) ∧
      msg.angularVelocity = ⟨5, 6, 7⟩) ∧
    (∃ msg, pollConnection (dispatch driverCallbacks) (List.map .data [frame Driver.calculateCrc
        ⟨.calStatus, .imu01, statusBytes measuring.imu.accuracy measuring.imu.calibrationMask⟩ ++
          [0]]) .start activeDriver =
        .ok (.start, { activeDriver with published := [.calibrationStatus msg] })) ∧
    dispatch driverCallbacks ⟨.calStatus, .imu01, List.replicate 10 0⟩ activeDriver =
      .ok activeDriver := by
  rcases telemetry_agrees with ⟨hsample, hstatus, -, hwrong⟩
  refine ⟨?_, ?_, hwrong ⟨.calStatus, .imu01, List.replicate 10 0⟩ activeDriver (by decide)⟩
  · rcases hsample ⟨[], [], [], [], []⟩ measuring tenWords rfl with ⟨t', hstep, -, hpublish⟩
    rcases hpublish activeDriver [_] rfl List.flatten_singleton with
      ⟨msg, hpoll, -, -, hrates, -⟩
    exact ⟨t', msg, hstep, hpoll, hrates⟩
  · rcases hstatus measuring with ⟨-, -, -, hpublish⟩
    rcases hpublish activeDriver [_] rfl List.flatten_singleton with ⟨msg, hpoll, -⟩
    exact ⟨msg, hpoll⟩

end BlueROV2.Link
