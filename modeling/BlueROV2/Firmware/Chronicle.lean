import BlueROV2.Firmware.Modes
import BlueROV2.Firmware.Samples

/-!
# What telemetry should say

Library `Firmware`. A chronicle, which the program does not have, keeps what is read from the IMU,
when it is configured and when its calibration changes, and which samples and statuses are sent.
Each part of `loop` in `modules/teensy/src/main.cpp` adds to it. Samples and statuses are right if
they say what the chronicle says up to them.
-/

namespace BlueROV2.Firmware

open BlueROV2.Base BlueROV2.Base.History BlueROV2.Wire

/-- What happens: an entry of the history of samples; the IMU is set to calibrate, or set not to;
a status is sent. -/
inductive Happening where
  | imu (entry : Entry)
  | calibrated (calibrating : Bool)
  | status (accuracy : SensorAccuracy) (mask : UInt8)
  deriving DecidableEq, Repr

namespace Happening

/-- The entry of the history of samples. -/
def entry : Happening → Option Entry
  | imu entry => some entry
  | calibrated _ | status _ _ => none

/-- The event that is read. -/
def event : Happening → Option SensorValue
  | imu (.read event _) => event.map (·.2)
  | imu .configured | calibrated _ | status _ _ => none

/-- The accuracy that the event of a sensor shows; `bno085.cpp:87,95,101,110`. -/
def statusOf (sensor : SensorId) (x : Happening) : Option UInt8 :=
  (x.event.filter (·.sensorId = sensor)).map (·.status &&& 0x03)

/-- That of the magnetometer starts again with every change of the calibration. -/
def magStatus : Happening → Option UInt8
  | calibrated _ => some 0
  | x => x.statusOf .magneticFieldCalibrated

/-- The accuracy of the heading that an event shows. -/
def radians (x : Happening) : Option Word :=
  (x.event.filter (·.sensorId = .rotationVector)).map (·.accuracy)

/-- The mode that is set. -/
def mode : Happening → Option Bool
  | calibrated calibrating => some calibrating
  | imu _ | status _ _ => none

/-- The packet that is sent. -/
def packet : Happening → Option Message
  | imu (.read _ result) => result.map (·.sample.packet)
  | status accuracy mask => some
    ⟨.calStatus, .imu01, [accuracy.accel, accuracy.gyro, accuracy.mag, accuracy.quat, mask] ++
      wordBytes accuracy.quatRad⟩
  | imu .configured | calibrated _ => none

end Happening

/-- The history of samples. -/
def entriesOf (log : List Happening) : List Entry := log.filterMap Happening.entry

/-- What the chronicle says of the accuracy of each sensor. -/
def accuracyOf (log : List Happening) : SensorAccuracy where
  accel := lastSeen (·.statusOf .accelerometer) 0 log
  gyro := lastSeen (·.statusOf .gyroscopeCalibrated) 0 log
  mag := lastSeen Happening.magStatus 0 log
  quat := lastSeen (·.statusOf .rotationVector) 0 log
  quatRad := lastSeen Happening.radians 0 log

/-- What the chronicle says of the mode. -/
def calibratingOf (log : List Happening) : Bool := lastSeen Happening.mode false log

/-- Rates are zero, or those of the latest event of the gyroscope. -/
def Rated (log : List Entry) (rates : Vector Word 3) : Prop :=
  rates = #v[0, 0, 0] ∨
    ∃ j e, LatestAt (Entry.eventOf .gyroscopeCalibrated) log j e ∧ rates = e.2.vector

/-- What is sent says what was read: a sample the latest events, of which those of acceleration
and orientation are new ones; a status, which is sent only in the calibration mode, the accuracy of
each sensor. -/
def Current (before : List Happening) : Happening → Prop
  | .imu .configured => True
  | .imu (.read event result) =>
    AssembledFresh (entriesOf before) (.read event result) ∧
      ∀ r ∈ result, Rated (entriesOf before ++ [.read event result]) r.sample.rates
  | .calibrated _ => True
  | .status accuracy mask =>
    calibratingOf before = true ∧ accuracy = accuracyOf before ∧ mask = calMaskCalibrating

/-! ### What the parts of `loop` add -/

/-- A change of the mode. -/
def turned (x y : BNO085) : List Happening :=
  if y.calibrating = x.calibrating then [] else [.calibrated y.calibrating]

/-- The recovery; `main.cpp:60–62`. -/
def recovered (i : Iteration) (t : Teensy) : List Happening :=
  let (reset, imu) := (t.imu.facing i.recovery).wasReset
  if reset then
    .imu .configured :: if imu.reset.1 then [.calibrated imu.calibrating] else []
  else []

/-- The sample; `main.cpp:64–69`. -/
def measured (i : Iteration) (t : Teensy) : Happening := .imu (t.imu.facing i.sample).readEntry

/-- The status; `main.cpp:71–73`. -/
def reports (i : Iteration) (t : Teensy) : List Happening :=
  if t.Due i then [.status t.imu.accuracy t.imu.calibrationMask] else []

/-! ### The chronicle -/

variable {log : List Happening} {x y : BNO085} {t t' : Teensy} {i : Iteration}

@[simp] theorem entriesOf_append (log later : List Happening) :
    entriesOf (log ++ later) = entriesOf log ++ entriesOf later := List.filterMap_append

/-- What a happening shows is said from then on. -/
theorem accuracyOf_concat (x : Happening) : accuracyOf (log ++ [x]) = {
    accel := (x.statusOf .accelerometer).getD (accuracyOf log).accel
    gyro := (x.statusOf .gyroscopeCalibrated).getD (accuracyOf log).gyro
    mag := x.magStatus.getD (accuracyOf log).mag
    quat := (x.statusOf .rotationVector).getD (accuracyOf log).quat
    quatRad := x.radians.getD (accuracyOf log).quatRad } := by
  simp only [accuracyOf, lastSeen_concat]

theorem calibratingOf_concat (x : Happening) :
    calibratingOf (log ++ [x]) = x.mode.getD (calibratingOf log) := lastSeen_concat

/-- A change of the calibration makes the magnetometer start again. -/
theorem accuracyOf_calibrated (calibrating : Bool) :
    accuracyOf (log ++ [.calibrated calibrating]) = { accuracyOf log with mag := 0 } :=
  accuracyOf_concat _

/-- A configuration says nothing of the accuracy. -/
theorem accuracyOf_configured : accuracyOf (log ++ [.imu .configured]) = accuracyOf log :=
  accuracyOf_concat _

/-- Neither does a status. -/
theorem accuracyOf_status (accuracy : SensorAccuracy) (mask : UInt8) :
    accuracyOf (log ++ [.status accuracy mask]) = accuracyOf log := accuracyOf_concat _

namespace BNO085

/-- What the object remembers of the accuracy after it took an event. -/
theorem accuracy_taking (h : x.accuracy = accuracyOf log) (result : Option Returned) :
    x.taking.accuracy = accuracyOf (log ++ [.imu (.read
      ((nextMoment x.imu.ahead).event.map fun v ↦ (x.taking.imu.now, v)) result)]) := by
  rw [accuracyOf_concat, ← h]
  generalize x.taking.imu.now = now
  rw [taking, call, BNO08x.getSensorEvent]
  cases (nextMoment x.imu.ahead).event with
  | none => rfl
  | some v =>
    rcases v with ⟨sensor, status, vx, vy, vz, real, accuracy⟩
    cases sensor <;> rfl

/-- Returning a sample leaves it. -/
theorem accuracy_assemble (x : BNO085) : x.assemble.2.accuracy = x.accuracy := by
  rw [assemble]
  split
  · rfl
  · simp only
    split <;> rfl

/-- A change of calibration that is made makes the magnetometer start again. -/
theorem accuracy_setCalibrating (calibrating : Bool) (x : BNO085) :
    (x.setCalibrating calibrating).2.accuracy =
      if (x.setCalibrating calibrating).1 then { x.accuracy with mag := 0 } else x.accuracy := by
  rcases setCalibrating_spec calibrating x with ⟨ms, -, hspec⟩
  exact hspec.accuracy

theorem kept_setCalibrating (calibrating : Bool) (x : BNO085) :
    Kept x (x.setCalibrating calibrating).2 := by
  cases calibrating with
  | true => exact kept_calibrate x _ _
  | false => exact kept_calibrate x _ _

end BNO085

theorem turned_of_eq (h : y.calibrating = x.calibrating) : turned x y = [] := if_pos h

theorem turned_of_ne (h : y.calibrating ≠ x.calibrating) :
    turned x y = [.calibrated y.calibrating] := if_neg h

/-! ### The program tells what the chronicle says -/

/-- A packet other than a response. -/
def isTelemetry (m : Message) : Bool := m.packetId ≠ .commandResponse

/-- What the program remembers and what it sent agree with the chronicle. -/
structure Told (t : Teensy) (log : List Happening) : Prop where
  tracked : Logged.Tracked ⟨t.imu, entriesOf log⟩
  rated : Rated (entriesOf log) t.imu.sample.rates
  accuracy : t.imu.accuracy = accuracyOf log
  masked : t.imu.Masked
  calibrating : t.imu.calibrating = calibratingOf log
  current : Throughout Current log
  packets : ∃ ms, Puts ms t.outputs ∧ ms.filter isTelemetry = log.filterMap Happening.packet

/-- What is stored of the samples stays. -/
theorem Logged.Tracked.kept {entries : List Entry} (h : Logged.Tracked ⟨x, entries⟩)
    (hxy : Kept x y) : Logged.Tracked ⟨y, entries⟩ := by
  refine ⟨?_, ?_, h.fresh⟩
  · simp only [hxy.haveAccel, hxy.sample]
    exact h.accel
  · simp only [hxy.haveQuat, hxy.sample]
    exact h.quat

theorem Rated.concat {entries : List Entry} {rates : Vector Word 3} (h : Rated entries rates)
    {entry : Entry} (hentry : entry.eventOf .gyroscopeCalibrated = none) :
    Rated (entries ++ [entry]) rates := by
  rcases h with hzero | ⟨j, e, hlatest, heq⟩
  · exact Or.inl hzero
  · exact Or.inr ⟨j, e, (latestAt_concat_of_none hentry).mpr hlatest, heq⟩

/-- What is sent goes on the port, and into the chronicle. -/
private theorem packets_append (h : Told t log) {later : List Output} {ms : List Message}
    {more : List Happening} (houtputs : t'.outputs = t.outputs ++ later) (hputs : Puts ms later)
    (hms : ms.filter isTelemetry = more.filterMap Happening.packet) :
    ∃ ms, Puts ms t'.outputs ∧
      ms.filter isTelemetry = (log ++ more).filterMap Happening.packet := by
  rcases h.packets with ⟨before, hbefore, hpackets⟩
  refine ⟨before ++ ms, ?_, ?_⟩
  · rw [houtputs]
    exact hbefore.append hputs
  · rw [List.filter_append, List.filterMap_append, hpackets, hms]

/-- The IMU is used, and nothing happens that telemetry depends on. -/
theorem Told.keep (h : Told t log) {later : List Output} {ms : List Message}
    (hkept : Kept t.imu t'.imu) (haccuracy : t'.imu.accuracy = t.imu.accuracy)
    (hmode : t'.imu.Masked ∧ t'.imu.calibrating = t.imu.calibrating)
    (houtputs : t'.outputs = t.outputs ++ later) (hputs : Puts ms later)
    (hms : ms.filter isTelemetry = []) : Told t' log where
  tracked := h.tracked.kept hkept
  rated := by
    rw [hkept.sample]
    exact h.rated
  accuracy := haccuracy.trans h.accuracy
  masked := hmode.1
  calibrating := hmode.2.trans h.calibrating
  current := h.current
  packets := by
    rw [← List.append_nil log]
    exact packets_append h houtputs hputs hms

/-- The calibration is changed. -/
theorem Told.calibrate (h : Told t log) {later : List Output} {ms : List Message}
    {calibrating : Bool} (hkept : Kept t.imu t'.imu)
    (haccuracy : t'.imu.accuracy = { t.imu.accuracy with mag := 0 })
    (hmode : t'.imu.Masked ∧ t'.imu.calibrating = calibrating)
    (houtputs : t'.outputs = t.outputs ++ later)
    (hputs : Puts ms later) (hms : ms.filter isTelemetry = []) :
    Told t' (log ++ [.calibrated calibrating]) where
  tracked := by
    rw [entriesOf_append]
    change Logged.Tracked ⟨t'.imu, entriesOf log ++ []⟩
    rw [List.append_nil]
    exact h.tracked.kept hkept
  rated := by
    rw [hkept.sample, entriesOf_append]
    change Rated (entriesOf log ++ []) _
    rw [List.append_nil]
    exact h.rated
  accuracy := by
    rw [accuracyOf_calibrated, haccuracy, h.accuracy]
  masked := hmode.1
  calibrating := by
    rw [calibratingOf_concat, hmode.2]
    rfl
  current := h.current.concat trivial
  packets := packets_append h houtputs hputs hms

/-! ### Commands -/

section Commands

/-- One object after another: the calibration changed and with it the mode, or neither. -/
structure Turns (x y : BNO085) : Prop where
  kept : Kept x y
  accuracy : y.accuracy =
    if y.calibrating = x.calibrating then x.accuracy else { x.accuracy with mag := 0 }

theorem Turns.refl (x : BNO085) : Turns x x :=
  ⟨⟨rfl, rfl, rfl, rfl, Nat.le_refl _⟩, (if_pos rfl).symm⟩

theorem turns_calibrationCommand (target : Bool) (x : BNO085) :
    Turns x (calibrationCommand target x).2 := by
  by_cases heq : x.calibrating = target
  · rw [calibrationCommand_of_eq heq]
    exact .refl x
  rw [calibrationCommand_of_ne heq]
  refine ⟨BNO085.kept_setCalibrating target x, ?_⟩
  have haccuracy := BNO085.accuracy_setCalibrating target x
  rcases BNO085.setCalibrating_spec target x with ⟨ms, -, hspec⟩
  have hmask := hspec.calMask
  cases hok : (x.setCalibrating target).1 with
  | true =>
    rw [hok, if_pos rfl] at hmask haccuracy
    rw [BNO085.calibrating_of_calMask hmask, if_neg (Ne.symm heq)]
    exact haccuracy
  | false =>
    rw [hok] at hmask haccuracy
    rw [if_pos (BNO085.calibrating_of_eq hmask)]
    exact haccuracy

theorem turns_saveCalibrationCommand (x : BNO085) : Turns x (saveCalibrationCommand x).2 := by
  rw [saveCalibrationCommand]
  split
  · exact .refl x
  · rcases x.call_saveCalibration with ⟨y, hy, hreq⟩
    refine ⟨kept_request x _ _, ?_⟩
    simp only [hy]
    rw [if_pos (BNO085.calibrating_of_eq hreq.calMask)]
    exact hreq.accuracy

variable {handlers : CommandHandlers BNO085}

/-- Every command does one or the other. -/
theorem turns_execute (hh : ∀ commandId, handlerFor handlers commandId = commandHandler commandId)
    (commandId : CommandId) (x : BNO085) : Turns x (execute handlers commandId x).2.2 := by
  rw [execute, hh]
  cases hc : commandHandler commandId with
  | none => exact .refl x
  | some handler =>
    rcases commandHandler_eq_some hc with ⟨target, rfl, rfl⟩ | ⟨rfl, rfl⟩
    · exact turns_calibrationCommand target x
    · exact turns_saveCalibrationCommand x

/-- A poll tells what was told before, and of a change of the calibration. -/
theorem Told.polled {effects : List Effect} {imu : BNO085}
    (hh : ∀ commandId, handlerFor t.handlers commandId = commandHandler commandId) (h : Told t log)
    (hresponds : Responds t.handlers effects (t.imu.facing i.command) imu) (client : Client) :
    Told (t.polled effects client imu) (log ++ turned t.imu imu) := by
  have hmasked : (t.imu.facing i.command).Masked := h.masked
  have hmode := responds_mode hh hmasked hresponds
  have hturns : Turns (t.imu.facing i.command) imu ∧
      ∃ ms, Puts ms (effects.map .client) ∧ ms.filter isTelemetry = [] := by
    cases hresponds with
    | nothing hw _ hwritten =>
      rw [hw]
      refine ⟨.refl _, [], ?_, rfl⟩
      rw [Puts, writesOf_client, hwritten]
      rfl
    | command deviceId commandId seq result ran hw _ hwritten =>
      have hturns := turns_execute hh commandId (t.imu.facing i.command)
      rw [hw] at hturns
      refine ⟨hturns, [responsePacket deviceId commandId seq result], ?_, rfl⟩
      rw [Puts, writesOf_client, hwritten]
      rfl
  rcases hturns with ⟨⟨hkept, haccuracy⟩, ms, hputs, hms⟩
  have hfacing : Kept t.imu (t.imu.facing i.command) := ⟨rfl, rfl, rfl, rfl, Nat.le_refl _⟩
  by_cases hsame : imu.calibrating = t.imu.calibrating
  · rw [turned_of_eq hsame, List.append_nil]
    have heq := haccuracy.trans (if_pos hsame)
    exact h.keep (hfacing.trans hkept) heq ⟨hmode.1, hsame⟩ rfl
      hputs hms
  · rw [turned_of_ne hsame]
    have heq := haccuracy.trans (if_neg hsame)
    exact h.calibrate (hfacing.trans hkept) heq ⟨hmode.1, rfl⟩
      rfl hputs hms

end Commands

/-! ### The other parts -/

/-- The IMU is configured. -/
theorem Told.configured (h : Told t log) :
    Told { t with imu := t.imu.configure.2 } (log ++ [.imu .configured]) where
  tracked := by
    rw [entriesOf_append]
    exact tracked_act (c := (.configure, t.imu.imu.ahead)) (s := ⟨t.imu, entriesOf log⟩) rfl
      h.tracked
  rated := by
    rw [entriesOf_append]
    exact h.rated.concat rfl
  accuracy := by
    rw [accuracyOf_configured]
    exact h.accuracy
  masked := h.masked.of_eq t.imu.configure_spec.calMask
  calibrating := by
    rw [calibratingOf_concat]
    exact (BNO085.calibrating_of_eq t.imu.configure_spec.calMask).trans h.calibrating
  current := h.current.concat trivial
  packets := packets_append h (List.append_nil _).symm puts_nil rfl

/-- The IMU is set up again, with the calibration that is remembered. -/
theorem Told.reset (h : Told t log) : Told { t with imu := t.imu.reset.2 }
    (log ++ .imu .configured ::
      if t.imu.reset.1 then [.calibrated t.imu.calibrating] else []) := by
  have hconfigured := h.configured
  have hmode := BNO085.setCalibrating_mode t.imu.configure.2.calibrating hconfigured.masked
  have haccuracy := BNO085.accuracy_setCalibrating t.imu.configure.2.calibrating t.imu.configure.2
  have hkept := BNO085.kept_setCalibrating t.imu.configure.2.calibrating t.imu.configure.2
  have hcal : t.imu.configure.2.calibrating = t.imu.calibrating :=
    BNO085.calibrating_of_eq t.imu.configure_spec.calMask
  have hreset : t.imu.reset = if !t.imu.configure.1 then (false, t.imu.configure.2)
      else t.imu.configure.2.setCalibrating t.imu.configure.2.calibrating := rfl
  rw [ite_self] at hmode
  rw [hreset, ← List.singleton_append, ← List.append_assoc]
  split
  · rw [if_neg Bool.false_ne_true, List.append_nil]
    exact hconfigured
  · split
    · next hok =>
      rw [if_pos hok] at haccuracy
      exact hconfigured.calibrate hkept haccuracy ⟨hmode.1, hmode.2.trans hcal⟩
        (List.append_nil _).symm puts_nil rfl
    · next hno =>
      rw [if_neg hno] at haccuracy
      rw [List.append_nil]
      exact hconfigured.keep hkept haccuracy hmode (List.append_nil _).symm puts_nil rfl

/-- The recovery tells of what it did. -/
theorem Told.recoverStep (h : Told t log) (i : Iteration) :
    Told (recoverStep i t) (log ++ recovered i t) := by
  obtain ⟨x, hx⟩ : ∃ x, x = (t.imu.facing i.recovery).wasReset := ⟨_, rfl⟩
  have hlooked : Told { t with imu := x.2 } log := by
    refine h.keep ?_ ?_ ⟨?_, ?_⟩ (List.append_nil _).symm puts_nil rfl
    · rw [hx]
      exact ⟨rfl, rfl, rfl, rfl, Nat.le_add_right _ _⟩
    · rw [hx]
      rfl
    · rw [hx]
      exact h.masked
    · rw [hx]
      rfl
  rw [Firmware.recoverStep, recovered]
  simp only [← hx]
  split
  · have hreset := hlooked.reset
    change Told _ (log ++ .imu .configured ::
      if x.2.reset.1 then [.calibrated x.2.calibrating] else []) at hreset
    generalize (if x.2.reset.1 then [Happening.calibrated x.2.calibrating] else []) = more
      at hreset ⊢
    split
    · exact hreset
    · have hprinted := puts_println "Failed to recover the IMU after a reset"
      exact hreset.keep ⟨rfl, rfl, rfl, rfl, Nat.le_refl _⟩ rfl
        ⟨hreset.masked, rfl⟩ rfl hprinted rfl
  · rw [List.append_nil]
    exact hlooked

/-- What is stored of the rates, and what is returned of them. -/
theorem rated_read {entries : List Entry} (h : Rated entries x.sample.rates) :
    Rated (entries ++ [x.readEntry]) x.read.2.sample.rates ∧
      ∀ s ∈ x.read.1, s.rates = x.read.2.sample.rates := by
  have htaken := (taken_taking x).rates
  rw [BNO085.readEntry, BNO085.read_eq]
  generalize (nextMoment x.imu.ahead).event.map (fun v ↦ (x.taking.imu.now, v)) = event at htaken ⊢
  have hrated (result : Option Returned) :
      Rated (entries ++ [.read event result]) x.taking.sample.rates := by
    have hshown := Entry.eventOf_read event result .gyroscopeCalibrated
    rw [htaken]
    cases he : eventOf .gyroscopeCalibrated event with
    | none => exact h.concat (hshown.trans he)
    | some e =>
      exact Or.inr ⟨_, e, (latestAt_concat_of_some (hshown.trans he)).mpr ⟨rfl, rfl⟩, rfl⟩
  rcases assemble_spec x.taking with ⟨heq, -⟩ | ⟨s, y, heq, -, hassembled⟩
  · rw [heq]
    refine ⟨hrated none, fun s hs ↦ ?_⟩
    cases hs
  · rw [heq]
    refine ⟨?_, fun s' hs' ↦ ?_⟩
    · rw [hassembled.sample, hassembled.rates]
      split
      · exact Or.inl rfl
      · exact hrated _
    · cases hs'
      rw [hassembled.sample]

/-- The sample that is read and sent is told of. -/
theorem Told.sampled (h : Told t log) (i : Iteration) :
    Told (t.sampled i) (log ++ [measured i t]) := by
  obtain ⟨x, hx⟩ : ∃ x, x = t.imu.facing i.sample := ⟨_, rfl⟩
  have hread : t.reading i = x.read := by
    rw [Teensy.reading, hx]
  have hfacing : Kept t.imu x := hx ▸ ⟨rfl, rfl, rfl, rfl, Nat.le_refl _⟩
  have htracked : Logged.Tracked ⟨x.read.2, entriesOf log ++ [x.readEntry]⟩ :=
    tracked_act (c := (.read, x.imu.ahead)) (s := ⟨x, entriesOf log⟩) rfl (h.tracked.kept hfacing)
  have hstored : Rated (entriesOf log) x.sample.rates := hfacing.sample ▸ h.rated
  have hrated := rated_read hstored
  have haccuracy : x.accuracy = accuracyOf log := hx ▸ h.accuracy
  have hmask : x.read.2.calMask = t.imu.calMask := by
    rw [x.passive_read.calMask, hx]
    rfl
  have hentries : entriesOf (log ++ [measured i t]) = entriesOf log ++ [x.readEntry] := by
    rw [entriesOf_append, measured, ← hx]
    rfl
  have hcurrent : Current log (measured i t) := by
    rw [measured, ← hx, BNO085.readEntry]
    refine ⟨?_, fun r hr ↦ ?_⟩
    · apply htracked.fresh (entriesOf log) x.readEntry []
      rfl
    · rcases Option.map_eq_some_iff.mp hr with ⟨s, hs, rfl⟩
      rw [hrated.2 s hs]
      exact hrated.1
  have hsampled : (t.sampled i).imu = x.read.2 := by
    rw [← hread]
    rfl
  refine ⟨?_, ?_, ?_, ?_, ?_, h.current.concat hcurrent, ?_⟩
  · rw [hsampled, hentries]
    exact htracked
  · rw [hsampled, hentries]
    exact hrated.1
  · rw [hsampled, BNO085.read_eq, BNO085.accuracy_assemble, BNO085.accuracy_taking haccuracy,
      measured, ← hx]
    rfl
  · rw [hsampled]
    exact h.masked.of_eq hmask
  · rw [hsampled, calibratingOf_concat]
    exact (BNO085.calibrating_of_eq hmask).trans h.calibrating
  · have hputs : Puts (x.read.1.map Sample.packet).toList
        ((t.reading i).1.map fun s ↦ packetOutput s.packet).toList := by
      rw [hread]
      cases x.read.1 <;> rfl
    refine packets_append h rfl hputs ?_
    rw [measured, ← hx, BNO085.readEntry]
    cases x.read.1 <;> rfl

/-- Whatever the status needs of the clock is not told of. -/
private theorem kept_statusStep (hdue : ¬ t.Due i) (h : statusStep i t = .ok t') :
    Kept t.imu t'.imu ∧ t'.imu.accuracy = t.imu.accuracy ∧ t'.imu.calMask = t.imu.calMask ∧
      t'.outputs = t.outputs := by
  rw [statusStep] at h
  split at h
  · next hc =>
    simp only at h
    rw [← Teensy.clock, if_neg fun hd ↦ hdue ⟨hc, hd⟩] at h
    cases h
    exact ⟨⟨rfl, rfl, rfl, rfl, Nat.le_add_right _ _⟩, rfl, rfl, rfl⟩
  · cases h
    exact ⟨⟨rfl, rfl, rfl, rfl, Nat.le_refl _⟩, rfl, rfl, rfl⟩

/-- The status that is sent is told of. -/
theorem Told.statusStep (h : Told t log) (hstep : statusStep i t = .ok t') :
    Told t' (log ++ reports i t) := by
  rw [reports]
  by_cases hdue : t.Due i
  · rw [if_pos hdue]
    cases (statusStep_of_due hdue).symm.trans hstep
    have hcurrent : Current log (.status t.imu.accuracy t.imu.calibrationMask) :=
      ⟨h.calibrating ▸ hdue.1, h.accuracy, h.masked hdue.1⟩
    have hkept : Kept t.imu (t.reported i).imu := ⟨rfl, rfl, rfl, rfl,
      Nat.le_trans (Nat.le_add_right _ _) (Nat.le_add_right _ _)⟩
    refine ⟨?_, ?_, ?_, h.masked, ?_, h.current.concat hcurrent, ?_⟩
    · rw [entriesOf_append]
      exact (List.append_nil (entriesOf log)).symm ▸ h.tracked.kept hkept
    · rw [entriesOf_append]
      exact (List.append_nil (entriesOf log)).symm ▸ h.rated
    · rw [accuracyOf_status]
      exact h.accuracy
    · rw [calibratingOf_concat]
      exact h.calibrating
    · exact packets_append h rfl (puts_packetOutput t.imu.statusPacket) rfl
  · rw [if_neg hdue, List.append_nil]
    rcases kept_statusStep hdue hstep with ⟨hkept, haccuracy, hmask, houtputs⟩
    exact h.keep hkept haccuracy ⟨h.masked.of_eq hmask, BNO085.calibrating_of_eq hmask⟩
      (houtputs.trans (List.append_nil _).symm) puts_nil rfl

/-! ### After `setup` -/

end BlueROV2.Firmware
