import BlueROV2.Base.LittleEndian
import BlueROV2.Driver.Command

/-!
# Telemetry on the Pi

Library `Driver`. The callbacks that `on_configure` registers in
`modules/autonomy_pi/ros/autonomy_teensy/src/driver.cpp`, and `pop_front` in
`include/autonomy_teensy/packet.hpp`. A callback works on its own copy of the packet. A `float` is
the word of its bits, also where it is assigned to a `double`, which changes no value; the
covariances are `double`s by their bits. What is logged is left out.
-/

namespace BlueROV2.Driver

open BlueROV2.Base BlueROV2.Wire

/-- `Packet::pop_front` for a type of `size` bytes: the value and the rest of the payload;
`packet.hpp:27–41`. -/
def popFront {α : Type} (size : Nat) (value : List UInt8 → α) (payload : List UInt8) :
    Cpp (α × List UInt8) :=
  if payload.length < size then
    .error (.invalidArgument
      "Not enough bytes remaining in the payload to extract the requested type.")
  else pure (value (payload.take size), payload.drop size)

/-- The bytes of a `float` in memory. -/
def wordOf (bytes : List UInt8) : UInt32 := UInt32.ofNat (LittleEndian.toNat bytes)

/-- `pop_front<float>`. -/
def popFloat : List UInt8 → Cpp (UInt32 × List UInt8) := popFront 4 wordOf

/-- `pop_front<std::uint8_t>`. -/
def popByte : List UInt8 → Cpp (UInt8 × List UInt8) :=
  popFront 1 fun bytes ↦ UInt8.ofNat (LittleEndian.toNat bytes)

/-- The parameters that the callbacks use; `teensy_driver_parameters.yaml`. -/
structure Params where
  frameId : String
  orientationCovariance : Vector UInt64 3
  angularVelocityCovariance : Vector UInt64 3
  linearAccelerationCovariance : Vector UInt64 3
  deriving DecidableEq, Repr

/-- `std_msgs/Header`. -/
structure Header where
  frameId : String
  stamp : Nat
  deriving DecidableEq, Repr

/-- `geometry_msgs/Quaternion`. -/
structure Quaternion where
  x : UInt32
  y : UInt32
  z : UInt32
  w : UInt32
  deriving DecidableEq, Repr

/-- `geometry_msgs/Vector3`. -/
structure Vector3 where
  x : UInt32
  y : UInt32
  z : UInt32
  deriving DecidableEq, Repr

/-- `sensor_msgs/Imu`. -/
structure Imu where
  header : Header
  orientation : Quaternion
  orientationCovariance : Vector UInt64 9
  angularVelocity : Vector3
  angularVelocityCovariance : Vector UInt64 9
  linearAcceleration : Vector3
  linearAccelerationCovariance : Vector UInt64 9
  deriving DecidableEq, Repr

/-- `autonomy_msgs/ImuCalibrationStatus`. -/
structure ImuCalibrationStatus where
  header : Header
  accelerometerAccuracy : UInt8
  gyroscopeAccuracy : UInt8
  magnetometerAccuracy : UInt8
  orientationAccuracy : UInt8
  orientationAccuracyRad : UInt32
  accelerometerCalibrationEnabled : Bool
  gyroscopeCalibrationEnabled : Bool
  magnetometerCalibrationEnabled : Bool
  deriving DecidableEq, Repr

/-- A message that was published. -/
inductive Published where
  | imu (msg : Imu)
  | calibrationStatus (msg : ImuCalibrationStatus)
  deriving DecidableEq, Repr

/-- What the callbacks work with: the members of the driver, what its publishers were told by the
lifecycle and have published, and what its clock shows; `driver.hpp:44–60`. -/
structure TeensyDriver where
  params : Params
  imuActivated : Bool
  calibActivated : Bool
  commands : Commands
  now : Nat
  published : List Published
  deriving DecidableEq, Repr

/-- The loop over the diagonal of a covariance matrix; `driver.cpp:80–84`. -/
def diagonal (v : Vector UInt64 3) : Vector UInt64 9 :=
  (List.finRange 3).foldl (fun c (i : Fin 3) ↦ c.set (i * 3 + i) v[i] (by omega))
    (Vector.replicate 9 0)

/-- The message of an `IMU_DATA` payload, and what is left of the payload; `driver.cpp:63–84`. -/
def takeImu (params : Params) (now : Nat) (payload : List UInt8) : Cpp (Imu × List UInt8) := do
  let (qx, payload) ← popFloat payload
  let (qy, payload) ← popFloat payload
  let (qz, payload) ← popFloat payload
  let (qw, payload) ← popFloat payload
  let (gx, payload) ← popFloat payload
  let (gy, payload) ← popFloat payload
  let (gz, payload) ← popFloat payload
  let (ax, payload) ← popFloat payload
  let (ay, payload) ← popFloat payload
  let (az, payload) ← popFloat payload
  let msg : Imu := {
    header := ⟨params.frameId, now⟩
    orientation := ⟨qx, qy, qz, qw⟩
    orientationCovariance := diagonal params.orientationCovariance
    angularVelocity := ⟨gx, gy, gz⟩
    angularVelocityCovariance := diagonal params.angularVelocityCovariance
    linearAcceleration := ⟨ax, ay, az⟩
    linearAccelerationCovariance := diagonal params.linearAccelerationCovariance }
  pure (msg, payload)

/-- The `IMU_DATA` callback; `driver.cpp:51–87`. -/
def imuData : Callback TeensyDriver := fun packet d ↦
  if !d.imuActivated then pure d
  else if packet.payload.length ≠ 40 then pure d
  else do
    let (msg, _) ← takeImu d.params d.now packet.payload
    pure { d with published := d.published ++ [.imu msg] }

/-- The message of a `CAL_STATUS` payload, and what is left of the payload;
`driver.cpp:100–114`. -/
def takeCalStatus (params : Params) (now : Nat) (payload : List UInt8) :
    Cpp (ImuCalibrationStatus × List UInt8) := do
  let (accel, payload) ← popByte payload
  let (gyro, payload) ← popByte payload
  let (mag, payload) ← popByte payload
  let (quat, payload) ← popByte payload
  let (calConfig, payload) ← popByte payload
  let (rad, payload) ← popFloat payload
  let msg : ImuCalibrationStatus := {
    header := ⟨params.frameId, now⟩
    accelerometerAccuracy := accel
    gyroscopeAccuracy := gyro
    magnetometerAccuracy := mag
    orientationAccuracy := quat
    orientationAccuracyRad := rad
    accelerometerCalibrationEnabled := calConfig &&& 0x01 ≠ 0
    gyroscopeCalibrationEnabled := calConfig &&& 0x02 ≠ 0
    magnetometerCalibrationEnabled := calConfig &&& 0x04 ≠ 0 }
  pure (msg, payload)

/-- The `CAL_STATUS` callback; `driver.cpp:89–117`. -/
def calStatus : Callback TeensyDriver := fun packet d ↦
  if !d.calibActivated then pure d
  else if packet.payload.length ≠ 9 then pure d
  else do
    let (msg, _) ← takeCalStatus d.params d.now packet.payload
    pure { d with published := d.published ++ [.calibrationStatus msg] }

/-- The `COMMAND_RESPONSE` callback, on the members it works with; `driver.cpp:119–133`. -/
def commandResponseOf : Callback TeensyDriver := fun packet d ↦ do
  let commands ← commandResponse packet d.commands
  pure { d with commands }

/-- The callbacks in `on_configure`; `driver.cpp:51–133`. -/
def driverCallbacks : Callbacks TeensyDriver :=
  registerCallback (registerCallback (registerCallback (fun _ ↦ []) .imuData imuData) .calStatus
    calStatus) .commandResponse commandResponseOf

/-- The size of payload that a registered callback asks for. -/
def expectedSize (packetId : PacketId) : Option Nat :=
  if packetId = .imuData then some 40
  else if packetId = .calStatus then some 9
  else if packetId = .commandResponse then some 3
  else none

/-! ### What a dispatch does -/

/-- A packet is handed to the one callback of its identifier, if there is one. -/
theorem dispatch_driverCallbacks (packet : Packet) (d : TeensyDriver) :
    dispatch driverCallbacks packet d =
      if packet.packetId = .imuData then imuData packet d
      else if packet.packetId = .calStatus then calStatus packet d
      else if packet.packetId = .commandResponse then commandResponseOf packet d
      else .ok d := by
  rw [dispatch, driverCallbacks]
  simp only [registerCallback]
  by_cases himu : packet.packetId = .imuData
  · rw [himu]
    exact Cpp.bind_ok _
  · by_cases hcal : packet.packetId = .calStatus
    · rw [hcal]
      exact Cpp.bind_ok _
    · by_cases hcommand : packet.packetId = .commandResponse
      · rw [hcommand]
        exact Cpp.bind_ok _
      · simp only [if_neg himu, if_neg hcal, if_neg hcommand]
        rfl

/-- What is popped from a rest of a payload that is long enough. -/
theorem popFront_drop {α : Type} {size k : Nat} (value : List UInt8 → α) {payload : List UInt8}
    (h : k + size ≤ payload.length) : popFront size value (payload.drop k) =
      .ok (value ((payload.drop k).take size), payload.drop (k + size)) := by
  have hsize : ¬ (payload.drop k).length < size := by
    rw [List.length_drop]
    omega
  rw [popFront, if_neg hsize, List.drop_drop]
  rfl

/-- A payload of the right size holds all that is popped from it, and nothing else. -/
theorem exists_takeImu (params : Params) (now : Nat) {payload : List UInt8}
    (h : payload.length = 40) : ∃ msg, takeImu params now payload = .ok (msg, []) := by
  have hrest : payload.drop 40 = [] := List.drop_eq_nil_of_le (Nat.le_of_eq h)
  rw [← payload.drop_zero]
  unfold takeImu popFloat
  simp (disch := omega) only [popFront_drop, Cpp.ok_bind, Cpp.pure_eq]
  exact ⟨_, congrArg (fun rest ↦ Except.ok (_, rest)) hrest⟩

theorem exists_takeCalStatus (params : Params) (now : Nat) {payload : List UInt8}
    (h : payload.length = 9) : ∃ msg, takeCalStatus params now payload = .ok (msg, []) := by
  have hrest : payload.drop 9 = [] := List.drop_eq_nil_of_le (Nat.le_of_eq h)
  rw [← payload.drop_zero]
  unfold takeCalStatus popFloat popByte
  simp (disch := omega) only [popFront_drop, Cpp.ok_bind, Cpp.pure_eq]
  exact ⟨_, congrArg (fun rest ↦ Except.ok (_, rest)) hrest⟩

/-- A callback that asks for its publisher and for a size of payload returns if it does so then. -/
private theorem guarded_returns {active : Bool} {size : Nat} {payload : List UInt8}
    {d : TeensyDriver} {publish : Cpp TeensyDriver}
    (h : payload.length = size → ∃ d', publish = .ok d') :
    ∃ d', (if !active then pure d else if payload.length ≠ size then pure d else publish) =
      .ok d' := by
  split
  · exact ⟨d, rfl⟩
  · split
    · exact ⟨d, rfl⟩
    · next hsize => exact h (Classical.not_not.mp hsize)

/-- The callback of a measurement returns, whatever it is handed. -/
theorem imuData_returns (packet : Packet) (d : TeensyDriver) :
    ∃ d', imuData packet d = .ok d' := by
  apply guarded_returns
  intro hsize
  rcases exists_takeImu d.params d.now hsize with ⟨msg, hmsg⟩
  rw [hmsg]
  exact ⟨_, rfl⟩

theorem calStatus_returns (packet : Packet) (d : TeensyDriver) :
    ∃ d', calStatus packet d = .ok d' := by
  apply guarded_returns
  intro hsize
  rcases exists_takeCalStatus d.params d.now hsize with ⟨msg, hmsg⟩
  rw [hmsg]
  exact ⟨_, rfl⟩

theorem setValue_ne_invalidArgument (shared : List (Option Response)) (promise : Nat)
    (value : Response) (what : String) :
    setValue shared promise value ≠ .error (.invalidArgument what) := by
  unfold setValue load store
  cases shared[promise]? with
  | none => exact nofun
  | some slot =>
    cases slot with
    | some _ => exact nofun
    | none =>
      simp only [Cpp.ok_bind]
      split
      · exact nofun
      · exact nofun

/-- The callback of a response pops nothing: it throws at most what a promise throws. -/
theorem commandResponse_ne_invalidArgument (packet : Packet) (c : Commands) (what : String) :
    commandResponse packet c ≠ .error (.invalidArgument what) := by
  unfold commandResponse
  split
  · exact nofun
  · next hsize =>
    have hlen := Classical.not_not.mp hsize
    split
    · exact nofun
    · next p hp =>
      have h0 := load_of_lt (a := packet.payload) (i := 0) (by omega)
      have h1 := load_of_lt (a := packet.payload) (i := 1) (by omega)
      have h2 := load_of_lt (a := packet.payload) (i := 2) (by omega)
      simp only [h0, h1, h2, Cpp.ok_bind]
      split
      · intro h
        generalize hset : setValue c.shared p _ = r at h
        cases r with
        | ok shared => cases h
        | error e =>
          cases h
          exact setValue_ne_invalidArgument _ _ _ _ hset
      · exact nofun

/-- No dispatch lets the exception of `pop_front` escape. -/
theorem dispatch_ne_invalidArgument (packet : Packet) (d : TeensyDriver) (what : String) :
    dispatch driverCallbacks packet d ≠ .error (.invalidArgument what) := by
  rw [dispatch_driverCallbacks]
  split
  · rcases imuData_returns packet d with ⟨d', h⟩
    rw [h]
    exact nofun
  · split
    · rcases calStatus_returns packet d with ⟨d', h⟩
      rw [h]
      exact nofun
    · split
      · intro h
        rw [commandResponseOf] at h
        have hcommand := commandResponse_ne_invalidArgument packet d.commands what
        cases hc : commandResponse packet d.commands with
        | ok c =>
          rw [hc] at h
          cases h
        | error e =>
          rw [hc] at h hcommand
          exact hcommand (congrArg Except.error (Except.error.inj h))
      · exact nofun

/-- A packet of a wrong size changes nothing, and so does one without a callback. -/
theorem dispatch_of_wrong_size {packet : Packet} (d : TeensyDriver)
    (h : expectedSize packet.packetId ≠ some packet.payload.length) :
    dispatch driverCallbacks packet d = .ok d := by
  rw [dispatch_driverCallbacks]
  rw [expectedSize] at h
  split
  · next hid =>
    rw [if_pos hid, ne_eq, Option.some.injEq] at h
    unfold imuData
    split
    · rfl
    · exact if_pos fun heq ↦ h heq.symm
  · next himu =>
    rw [if_neg himu] at h
    split
    · next hid =>
      rw [if_pos hid, ne_eq, Option.some.injEq] at h
      unfold calStatus
      split
      · rfl
      · exact if_pos fun heq ↦ h heq.symm
    · next hcal =>
      rw [if_neg hcal] at h
      split
      · next hid =>
        rw [if_pos hid, ne_eq, Option.some.injEq] at h
        rw [commandResponseOf, commandResponse, if_pos fun heq ↦ h heq.symm]
        rfl
      · rfl

end BlueROV2.Driver
