import BlueROV2.Firmware.Calibration

/-!
# Recovery from resets of the IMU

Library `Firmware`. When the IMU accepts its settings, resets are made good wherever they
strike: what is remembered follows the commands, and `reset` restores the IMU from it.
-/

namespace BlueROV2.Firmware

open BlueROV2.Base BlueROV2.Wire

/-- The reports that `set_reports` enables are enabled. -/
def Imu.Reporting (d : Imu) : Prop :=
  d.reports .accelerometer ≠ 0 ∧ d.reports .gyroscopeCalibrated ≠ 0 ∧ d.reports .rotationVector ≠ 0

/-- Whether to calibrate after a command, by whether to calibrate before it. -/
def commandedAfter (commanded : Bool) (commandId : CommandId) : Bool :=
  if commandId = .calibrationStart then true
  else if commandId = .calibrationStop then false
  else commanded

/-- Whether the last command handled to start or to stop was one to start. -/
def calibrationCommanded (handled : List (CommandId × CommandResponse)) : Bool :=
  handled.foldl (fun commanded h ↦ commandedAfter commanded h.1) false

/-- What is remembered is what was commanded, and the IMU is set up for it, unless a reset waits
to be noticed. -/
structure Restored (commanded : Bool) (x : BNO085) : Prop where
  calMask : x.calMask = maskFor commanded
  reportPeriodMs : x.reportPeriodMs = 5
  device : x.device.resetOccurred = false → x.device.InForce commanded ∧ x.device.Reporting

variable {commanded : Bool} {x y : BNO085}

/-- Setting nothing keeps the IMU set up. -/
theorem Restored.passive (h : x.Passive y) (hx : Restored commanded x) : Restored commanded y where
  calMask := h.calMask.trans hx.calMask
  reportPeriodMs := h.reportPeriodMs.trans hx.reportPeriodMs
  device hf := by
    rw [(h.device hf).2]
    exact hx.device (h.device hf).1

private theorem reporting_congr {d d' : Imu} (hd : d.Reporting)
    (h : ∀ sensor, sensor ≠ .magneticFieldCalibrated → d'.reports sensor = d.reports sensor) :
    d'.Reporting := by
  refine ⟨?_, ?_, ?_⟩
  · rw [h _ (by decide)]
    exact hd.1
  · rw [h _ (by decide)]
    exact hd.2.1
  · rw [h _ (by decide)]
    exact hd.2.2

/-- The reports of `set_reports`, all granted, at the period of `begin`. -/
private theorem reporting_setReports (d : Imu) :
    (d.setReports (5 * 1000) true true true).Reporting := by
  have hne : (5 * 1000 : UInt32) ≠ 0 := by decide
  exact ⟨hne, hne, hne⟩

/-- A change of calibration, when the other reports are enabled. -/
theorem restored_setCalibrating (calibrating : Bool) (ha : Accepting 0 x.imu.ahead)
    (hperiod : x.reportPeriodMs = 5)
    (hreports : x.device.resetOccurred = false → x.device.Reporting) :
    Restored calibrating (x.setCalibrating calibrating).2 := by
  rcases x.setCalibrating_spec calibrating with ⟨ms, -, r⟩
  have hmade : (x.setCalibrating calibrating).1 = true := by
    rw [r.granted, ha.next, ha.rest.next]
    rfl
  have hset := BNO085.setCalibrating_made hmade
  refine ⟨hset.1, r.reportPeriodMs.trans hperiod, fun hf ↦ ⟨(hset.2 hf).2, ?_⟩⟩
  have hd := r.device hf
  rw [if_pos ha.next, if_pos ha.rest.next] at hd
  apply reporting_congr (hreports hd.1)
  intro sensor hsensor
  rw [hd.2, Imu.reports_setCalibrationConfig, Imu.reports_enableReport_of_ne hsensor]

/-- A recovery, whatever the IMU was set up for before. -/
theorem restored_reset (ha : Accepting 0 x.imu.ahead) (hmask : x.calMask = maskFor commanded)
    (hperiod : x.reportPeriodMs = 5) : Restored commanded x.reset.2 := by
  rcases BNO085.reset_spec (ha.weaken 1) with ⟨-, hmask', hperiod', hdevice⟩
  rw [BNO085.calibrating_of_calMask hmask] at hmask' hdevice
  refine ⟨hmask', hperiod'.trans hperiod, fun hf ↦ ⟨(hdevice hf).1, ?_⟩⟩
  apply reporting_congr (reporting_setReports x.device)
  intro sensor hsensor
  rw [(hdevice hf).2 sensor hsensor, hperiod, ha.next]

private theorem restored_save (hx : Restored commanded x) :
    Restored commanded (saveCalibrationCommand x).2 := by
  rcases x.call_saveCalibration with ⟨y, hy, r⟩
  rw [saveCalibrationCommand]
  split
  · exact hx
  · simp only [hy]
    refine ⟨r.calMask.trans hx.calMask, r.reportPeriodMs.trans hx.reportPeriodMs, fun hf ↦ ?_⟩
    have hd := r.device hf
    rw [hd.2]
    -- saving changes neither the configuration nor the reports
    split
    · exact hx.device hd.1
    · exact hx.device hd.1

/-- A handler keeps the IMU set up, for what is commanded after it. -/
theorem restored_commandHandler {commandId : CommandId} {handler : CommandHandler BNO085}
    (h : commandHandler commandId = some handler) (ha : Accepting 0 x.imu.ahead)
    (hx : Restored commanded x) : Restored (commandedAfter commanded commandId) (handler x).2 := by
  have hcal := BNO085.calibrating_of_calMask hx.calMask
  rcases commandHandler_eq_some h with ⟨calibrating, rfl, rfl⟩ | ⟨rfl, rfl⟩
  · have hafter : commandedAfter commanded (commandFor calibrating) = calibrating := by
      cases calibrating <;> rfl
    rw [hafter]
    by_cases hc : x.calibrating = calibrating
    · rw [calibrationCommand_of_eq hc, ← hc, hcal]
      exact hx
    · rw [calibrationCommand_of_ne hc]
      exact restored_setCalibrating calibrating ha hx.reportPeriodMs fun hf ↦ (hx.device hf).2
  · exact restored_save hx

/-- In an iteration every setting is accepted. -/
def Iteration.Accepted (i : Iteration) : Prop := Accepting 0 i.command ∧ Accepting 0 i.recovery

instance (i : Iteration) : Decidable i.Accepted :=
  inferInstanceAs (Decidable (Accepting 0 i.command ∧ Accepting 0 i.recovery))

variable {i : Iteration} {t t' : Teensy}

/-- Polling keeps the IMU set up, for what is commanded by then. -/
private theorem restored_poll {effects : List Effect} {imu : BNO085} (hr : t.Ready)
    (ha : Accepting 0 i.command) (hx : Restored (calibrationCommanded (handlesOf t.outputs)) t.imu)
    (hran : RanOnce t.handlers effects (t.imu.facing i.command) imu) :
    Restored (calibrationCommanded (handlesOf t.outputs ++ handledBy effects)) imu := by
  have hfacing := hx.passive (t.imu.passive_facing i.command)
  rcases hran with ⟨hnone, rfl⟩ | ⟨commandId, handler, hh, hone, rfl⟩
  · rwa [hnone, List.append_nil]
  · rw [hr.handlers] at hh
    rw [hone, calibrationCommanded, List.foldl_append]
    exact restored_commandHandler hh ha hfacing

/-- The recovery keeps the IMU set up. -/
private theorem restored_recoverStep (ha : Accepting 0 i.recovery) (hx : Restored commanded t.imu) :
    Restored commanded (recoverStep i t).imu := by
  rcases recoverStep_imu i t with hpassive | ⟨y, hmask, hperiod, hahead, heq⟩
  · exact hx.passive hpassive
  · rw [heq]
    apply restored_reset _ (hmask.trans hx.calMask) (hperiod.trans hx.reportPeriodMs)
    rw [hahead]
    exact ha.rest

/-- An iteration in which every setting is accepted keeps the IMU set up. -/
theorem restored_step (ha : i.Accepted) (h : step i t = some t') (hr : t.Ready)
    (hx : Restored (calibrationCommanded (handlesOf t.outputs)) t.imu) :
    Restored (calibrationCommanded (handlesOf t'.outputs)) t'.imu := by
  rcases loop_spec i hr.client with ⟨effects, client, imu, t₁, -, -, hran, hloop, hfollows⟩
  cases (step_eq_some.mp h).symm.trans hloop
  have hframe := recoverStep_frame i (t.polled effects client imu)
  have hhandles : handlesOf t'.outputs = handlesOf t.outputs ++ handledBy effects := by
    rw [hfollows.handles, hframe.2.2, Teensy.polled, handlesOf_append, handlesOf_client]
  rw [hhandles]
  apply Restored.passive hfollows.imu
  exact restored_recoverStep ha.2 (restored_poll hr ha.1 hx hran)

/-- After a `setup` in which every setting was accepted the IMU is set up. -/
theorem restored_setup {s : Startup} {powerOnConfig : UInt8}
    (h : setup s (.start powerOnConfig) = .ok (some t)) (hb : Accepting 0 s.begin)
    (hd : Accepting 0 s.defaults) :
    Restored (calibrationCommanded (handlesOf t.outputs)) t.imu := by
  rcases setup_spec h with ⟨-, hnone, x, y, -, hperiod, hahead, hconf, himu⟩
  have hc := x.configure_spec
  rw [hconf] at hc
  have ha := hahead hb
  have hreports : y.device.resetOccurred = false → y.device.Reporting := by
    intro hf
    have hdevice := hc.device hf
    rw [hperiod, ha.next, ha.rest.next, ha.rest.rest.next] at hdevice
    rw [hdevice.2]
    exact reporting_setReports x.device
  rw [hnone, himu]
  exact restored_setCalibrating (x := y.facing s.defaults) false hd
    (hc.reportPeriodMs.trans hperiod) hreports

/-- When the IMU accepts its settings from `setup` on, then after every run of `loop`, with any
bytes received and any resets, wherever no reset waits to be noticed: all reports are enabled
that should be, and the calibration is the one remembered. That is the one last commanded. -/
theorem resets_transparent (powerOnConfig : UInt8) (s : Startup) (t : Teensy)
    (is : List Iteration) (hsetup : setup s (.start powerOnConfig) = .ok (some t))
    (hb : Accepting 0 s.begin) (hd : Accepting 0 s.defaults) (his : ∀ i ∈ is, i.Accepted) :
    ∃ t', Transition.run step is t = some t' ∧
      (t'.imu.device.resetOccurred = false →
        t'.imu.device.reports .accelerometer ≠ 0 ∧
        t'.imu.device.reports .gyroscopeCalibrated ≠ 0 ∧
        t'.imu.device.reports .rotationVector ≠ 0 ∧
        (t'.imu.device.reports .magneticFieldCalibrated ≠ 0 ↔ t'.imu.calibrating = true) ∧
        t'.imu.device.calibrationConfig = t'.imu.calibrationMask) ∧
      t'.imu.calibrating = calibrationCommanded (handlesOf t'.outputs) := by
  have hready := (setup_spec hsetup).1
  rcases exists_run hready is with ⟨t', hrun⟩
  have hinv : t'.Ready ∧ Restored (calibrationCommanded (handlesOf t'.outputs)) t'.imu := by
    refine Transition.invariant_run (P := fun i _ ↦ i.Accepted)
      (I := fun t ↦ t.Ready ∧ Restored (calibrationCommanded (handlesOf t.outputs)) t.imu) ?_
      ⟨hready, restored_setup hsetup hb hd⟩ (Transition.along_of_mem his t) hrun
    exact fun i t t' ha h hi ↦ ⟨ready_step h hi.1, restored_step ha h hi.1 hi.2⟩
  have hcal := BNO085.calibrating_of_calMask hinv.2.calMask
  refine ⟨t', hrun, fun hf ↦ ?_, hcal⟩
  rcases hinv.2.device hf with ⟨hforce, haccel, hgyro, hquat⟩
  rw [← hcal] at hforce
  refine ⟨haccel, hgyro, hquat, hforce.2, ?_⟩
  rw [hforce.1, BNO085.calibrationMask, hinv.2.calMask, hcal]

/-- A moment at which the IMU resets itself. -/
def disturbance : Moment := { Moment.quiet with reset := true }

/-- The IMU resets itself between the two settings of a start, and again while it is set up
after that. -/
def disturbedStart : List Iteration := [
  { commandArrives .calibrationStart [.quiet, disturbance] with
    recovery := [.quiet, .quiet, .quiet, disturbance] },
  commandArrives .calibrationSave []]

/-- A start that is disturbed twice is handled, and its settings are made: the magnetometer reports
beside the others, and the calibration is the one that the program remembers. -/
theorem resets_transparent_disturbedStart : ∃ t t', setup ⟨[], []⟩ (.start 0) = .ok (some t) ∧
    Transition.run step disturbedStart t = some t' ∧ t'.imu.device.resetOccurred = false ∧
    handlesOf t'.outputs = [(.calibrationStart, .ok), (.calibrationSave, .ok)] ∧
    t'.imu.device.reports .accelerometer ≠ 0 ∧
    t'.imu.device.reports .gyroscopeCalibrated ≠ 0 ∧
    t'.imu.device.reports .rotationVector ≠ 0 ∧
    t'.imu.device.reports .magneticFieldCalibrated ≠ 0 ∧
    t'.imu.device.calibrationConfig = t'.imu.calibrationMask ∧ t'.imu.calibrating = true := by
  rcases exists_setup (s := ⟨[], []⟩) (t := .start 0) (by decide +kernel) with ⟨t, ht⟩
  rcases resets_transparent 0 ⟨[], []⟩ t disturbedStart ht (by decide) (by decide) (by decide) with
    ⟨t', hrun, hrestored, hcal⟩
  have hend : ((setup ⟨[], []⟩ (.start 0)).toOption.join.bind (Transition.run step
      disturbedStart)).map (fun t' ↦ (t'.imu.device.resetOccurred, handlesOf t'.outputs)) =
        some (false, [(.calibrationStart, .ok), (.calibrationSave, .ok)]) := by
    decide +kernel
  have hstart : (setup ⟨[], []⟩ (.start 0)).toOption.join = some t := by
    rw [ht]
    rfl
  rw [hstart, Option.bind_some, hrun, Option.map_some, Option.some_inj, Prod.mk.injEq] at hend
  rw [hend.2] at hcal
  rcases hrestored hend.1 with ⟨haccel, hgyro, hquat, hmag, hconfig⟩
  exact ⟨t, t', ht, hrun, hend.1, hend.2, haccel, hgyro, hquat, hmag.mpr hcal, hconfig, hcal⟩

end BlueROV2.Firmware
