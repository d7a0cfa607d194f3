import BlueROV2.Firmware.Calibration

/-!
# Changes of calibration that fail

Library `Firmware`. `BNO085::calibrate` asks the IMU twice. When the second request is refused it
reports a failure with the first one carried out: the report of the magnetometer is set, and
nothing else. Whether that shows depends on how the report was set before.
-/

namespace BlueROV2.Firmware

open BlueROV2.Base BlueROV2.Wire

/-- The IMU does not reset itself in any of the moments. -/
def Undisturbed (ahead : List Moment) : Prop := ∀ m ∈ ahead, m.reset = false

instance (ahead : List Moment) : Decidable (Undisturbed ahead) :=
  inferInstanceAs (Decidable (∀ m ∈ ahead, m.reset = false))

theorem Undisturbed.tail {ahead : List Moment} (h : Undisturbed ahead) : Undisturbed ahead.tail :=
  fun m hm ↦ h m (List.mem_of_mem_tail hm)

theorem Undisturbed.next {ahead : List Moment} (h : Undisturbed ahead) :
    (nextMoment ahead).reset = false := by
  cases ahead with
  | nil => rfl
  | cons m ahead => exact h m List.mem_cons_self

/-- Without a reset, a request does to the IMU just what the answer says. -/
theorem BNO08x.device_request_undisturbed {b : BNO08x} (h : Undisturbed b.ahead)
    (granted : Moment → Bool) (effect : Imu → Imu) : (b.request granted effect).2.device =
      if granted (nextMoment b.ahead) then effect b.device else b.device := by
  have htick : b.tick.device = b.device := by
    rw [tick, h.next]
    rfl
  unfold request
  split
  · exact congrArg effect htick
  · exact htick

namespace BNO085

variable {x : BNO085}

/-- Without a reset, a change of calibration does to the IMU just what its two requests were
granted. -/
theorem device_calibrate (h : Undisturbed x.imu.ahead) (sensors : UInt8) (ms : UInt32) :
    (x.calibrate sensors ms).2.device =
      if (nextMoment x.imu.ahead).accepts then
        if (nextMoment x.imu.ahead.tail).accepts then
          (x.device.enableReport .magneticFieldCalibrated (ms * 1000)).setCalibrationConfig sensors
        else x.device.enableReport .magneticFieldCalibrated (ms * 1000)
      else x.device := by
  obtain ⟨y, hy⟩ : ∃ y, y =
      (x.call (·.enableReport .magneticFieldCalibrated (ms * 1000))).2 := ⟨_, rfl⟩
  have hydevice : y.device = if (nextMoment x.imu.ahead).accepts then
      x.device.enableReport .magneticFieldCalibrated (ms * 1000) else x.device :=
    hy ▸ BNO08x.device_request_undisturbed h _ _
  have hyahead : y.imu.ahead = x.imu.ahead.tail := hy ▸ BNO08x.ahead_request _ _ _
  have hyfst : (x.call (·.enableReport .magneticFieldCalibrated (ms * 1000))).1 =
      (nextMoment x.imu.ahead).accepts := BNO08x.fst_request _ _ _
  have hzdevice : (y.call (·.setCalibrationConfig sensors)).2.device =
      if (nextMoment y.imu.ahead).accepts then y.device.setCalibrationConfig sensors
      else y.device :=
    BNO08x.device_request_undisturbed (hyahead ▸ h.tail) _ _
  have hzfst : (y.call (·.setCalibrationConfig sensors)).1 = (nextMoment y.imu.ahead).accepts :=
    BNO08x.fst_request _ _ _
  rw [hyahead] at hzdevice hzfst
  rw [calibrate]
  simp only [← hy, hyfst, hzfst]
  cases hm : (nextMoment x.imu.ahead).accepts with
  | false =>
    rw [hm] at hydevice
    exact hydevice
  | true =>
    rw [hm] at hydevice
    simp only [Bool.not_true, Bool.false_eq_true, if_false, if_true]
    cases hc : (nextMoment x.imu.ahead.tail).accepts with
    | false =>
      rw [hc] at hzdevice
      exact hzdevice.trans hydevice
    | true =>
      rw [hc] at hzdevice
      exact hzdevice.trans (congrArg (·.setCalibrationConfig sensors) hydevice)

end BNO085

/-- The interval of the report of the magnetometer that goes with calibrating or not. -/
def intervalFor (calibrating : Bool) : UInt32 := if calibrating then 20 * 1000 else 0

/-- What a change of calibration is about is as it was. -/
structure Unchanged (x y : BNO085) : Prop where
  report : y.device.reports .magneticFieldCalibrated = x.device.reports .magneticFieldCalibrated
  config : y.device.calibrationConfig = x.device.calibrationConfig
  calMask : y.calMask = x.calMask
  accuracy : y.accuracy = x.accuracy

/-- What is remembered tells whether the magnetometer reports, and which sensors calibrate
themselves. -/
def Described (x : BNO085) : Prop :=
  (x.device.reports .magneticFieldCalibrated ≠ 0 ↔ x.calibrating = true) ∧
    x.calibrationMask = x.device.calibrationConfig

/-- What changes nothing keeps the description right. -/
theorem Unchanged.described {x y : BNO085} (h : Unchanged x y) (hx : Described x) :
    Described y := by
  refine ⟨?_, ?_⟩
  · rw [h.report, BNO085.calibrating, h.calMask]
    exact hx.1
  · rw [h.config, BNO085.calibrationMask, h.calMask]
    exact hx.2

/-- A command changes the calibration, its first request is accepted, its second one is not, and
the first one makes a difference. -/
def HalfMade (calibrating : Bool) (command : List Moment) (x : BNO085) : Prop :=
  x.calibrating ≠ calibrating ∧ (nextMoment command).accepts = true ∧
    (nextMoment command.tail).accepts = false ∧
    x.device.reports .magneticFieldCalibrated ≠ intervalFor calibrating

/-- What a change does to the IMU when no reset comes between. -/
theorem device_setCalibrating {x : BNO085} (h : Undisturbed x.imu.ahead) (calibrating : Bool) :
    (x.setCalibrating calibrating).2.device =
      if (nextMoment x.imu.ahead).accepts then
        if (nextMoment x.imu.ahead.tail).accepts then
          (x.device.enableReport .magneticFieldCalibrated
            (intervalFor calibrating)).setCalibrationConfig (maskFor calibrating)
        else x.device.enableReport .magneticFieldCalibrated (intervalFor calibrating)
      else x.device := by
  cases calibrating with
  | true => exact BNO085.device_calibrate h calMaskCalibrating 20
  | false => exact BNO085.device_calibrate h calMaskDefault 0

/-- A command that fails leaves everything as it was, unless it is half made. -/
theorem unchanged_iff (x : BNO085) (calibrating : Bool) {command : List Moment}
    (h : Undisturbed command) :
    ((calibrationCommand calibrating (x.facing command)).1 = .sensorError →
        Unchanged x (calibrationCommand calibrating (x.facing command)).2) ↔
      ¬ HalfMade calibrating command x := by
  by_cases hc : x.calibrating = calibrating
  · rw [calibrationCommand_of_eq (x := x.facing command) hc]
    exact ⟨fun _ hhalf ↦ hhalf.1 hc, fun _ hfail ↦ nomatch hfail⟩
  · have hdevice := device_setCalibrating (x := x.facing command) h calibrating
    rcases BNO085.setCalibrating_spec calibrating (x.facing command) with ⟨ms, -, r⟩
    rw [calibrationCommand_of_ne (x := x.facing command) hc]
    generalize (x.facing command).setCalibrating calibrating = made at hdevice r ⊢
    rcases made with ⟨ok, y⟩
    change y.device = if (nextMoment command).accepts then
      if (nextMoment command.tail).accepts then
        (x.device.enableReport .magneticFieldCalibrated
          (intervalFor calibrating)).setCalibrationConfig (maskFor calibrating)
      else x.device.enableReport .magneticFieldCalibrated (intervalFor calibrating)
      else x.device at hdevice
    have hgranted : ok = ((nextMoment command).accepts && (nextMoment command.tail).accepts) :=
      r.granted
    have hmask := r.calMask
    have haccuracy := r.accuracy
    cases hm : (nextMoment command).accepts with
    | false =>
      -- nothing was asked for after the first refusal
      rw [hm] at hgranted hdevice
      rw [hgranted] at hmask haccuracy
      refine ⟨fun _ hhalf ↦ ?_, fun _ _ ↦ ?_⟩
      · rw [HalfMade, hm] at hhalf
        cases hhalf.2.1
      · exact ⟨by rw [hdevice]; rfl, by rw [hdevice]; rfl, hmask, haccuracy⟩
    | true =>
      cases hs : (nextMoment command.tail).accepts with
      | true =>
        rw [hm, hs] at hgranted
        refine ⟨fun _ hhalf ↦ ?_, fun _ hfail ↦ ?_⟩
        · rw [HalfMade, hs] at hhalf
          cases hhalf.2.2.1
        · rw [hgranted] at hfail
          cases hfail
      | false =>
        rw [hm, hs] at hgranted hdevice
        have hset : y.device = x.device.enableReport .magneticFieldCalibrated
            (intervalFor calibrating) := hdevice
        rw [hgranted] at hmask haccuracy ⊢
        constructor
        · intro hkept hhalf
          apply hhalf.2.2.2
          have hreport := (hkept rfl).report
          rw [hset, Imu.reports_enableReport_self] at hreport
          exact hreport.symm
        · intro hhalf _
          have hsame : x.device.reports .magneticFieldCalibrated = intervalFor calibrating :=
            Classical.not_not.mp fun hne ↦ hhalf ⟨hc, hm, hs, hne⟩
          refine ⟨?_, by rw [hset]; rfl, hmask, haccuracy⟩
          rw [hset, Imu.reports_enableReport_self, hsame]

/-! ### Runs -/

/-- A START or STOP that fails, without a reset while it is handled, leaves everything as it was,
and what is remembered describes the IMU as well as before. -/
def KeepsOnFailure (i : Iteration) (t : Teensy) : Prop :=
  Undisturbed i.command → ∀ effects client imu, pollStep i t = .ok (effects, client, imu) →
    ∀ calibrating, (commandFor calibrating, CommandResponse.sensorError) ∈ handledBy effects →
      Unchanged t.imu imu ∧ (Described t.imu → Described imu)

/-- No START or STOP that is received is half made. -/
def NoneHalfMade (i : Iteration) (t : Teensy) : Prop :=
  Undisturbed i.command → ∀ calibrating, ∀ m ∈ t.client.receives i.arrived,
    Asks (commandFor calibrating) m → ¬ HalfMade calibrating i.command t.imu

/-- In an iteration failed changes are kept apart just when none is half made. -/
theorem keepsOnFailure_iff {i : Iteration} {t : Teensy} (hr : t.Ready) :
    KeepsOnFailure i t ↔ NoneHalfMade i t := by
  rcases loop_spec i hr.client with ⟨effects, client, imu, -, hpoll, -, hran, -, -⟩
  -- the handler of a command that was handled, and its result
  have hhandled : ∀ {calibrating result}, (commandFor calibrating, result) ∈ handledBy effects →
      result = (calibrationCommand calibrating (t.imu.facing i.command)).1 ∧
        imu = (calibrationCommand calibrating (t.imu.facing i.command)).2 := by
    intro calibrating result hmem
    rcases hran with ⟨hnone, -⟩ | ⟨commandId, handler, hh, hone, himu⟩
    · rw [hnone] at hmem
      cases hmem
    · rw [hone] at hmem
      rcases Prod.mk.inj (List.mem_singleton.mp hmem) with ⟨rfl, hresult⟩
      rw [hr.handlers, commandHandler_commandFor] at hh
      cases hh
      exact ⟨hresult, himu⟩
  constructor
  · intro hkeeps hquiet calibrating m hm hasks
    have hmem : (commandFor calibrating,
        (calibrationCommand calibrating (t.imu.facing i.command)).1) ∈ handledBy effects :=
      (pollCommand_handles hr.client hpoll).mpr ⟨⟨m, hm, hasks⟩, _,
        (hr.handlers _).trans (commandHandler_commandFor calibrating), rfl⟩
    apply (unchanged_iff t.imu calibrating hquiet).mp
    intro hfail
    rw [hfail] at hmem
    rw [← (hhandled hmem).2]
    exact (hkeeps hquiet effects client imu hpoll calibrating hmem).1
  · intro hnone hquiet effects' client' imu' hpoll' calibrating hmem
    cases hpoll.symm.trans hpoll'
    rcases hhandled hmem with ⟨hresult, himu⟩
    rcases ((pollCommand_handles hr.client hpoll).mp hmem).1 with ⟨m, hm, hasks⟩
    have hkept := (unchanged_iff t.imu calibrating hquiet).mpr
      (hnone hquiet calibrating m hm hasks) hresult.symm
    rw [← himu] at hkept
    exact ⟨hkept, hkept.described⟩

/-- In every run of `setup` and `loop`, with any bytes received, any refusals and any resets, the
commands that fail leave everything as it was just when none of them is half made. -/
theorem failed_changes_kept (powerOnConfig : UInt8) (s : Startup) (t : Teensy)
    (is : List Iteration) (hsetup : setup s (.start powerOnConfig) = .ok (some t)) :
    (∃ t', Transition.run step is t = some t') ∧
      (Transition.Along step KeepsOnFailure is t ↔ Transition.Along step NoneHalfMade is t) := by
  have hready := (setup_spec hsetup).1
  refine ⟨exists_run hready is, ?_⟩
  apply Transition.along_congr (I := Teensy.Ready) _ _ is hready
  · exact fun i t t' _ h hr ↦ ready_step h hr
  · exact fun i t hr ↦ keepsOnFailure_iff hr

/-- A start that is refused at once, a start, and a stop that is half made. -/
theorem failed_changes_kept_refused : ∃ t, setup ⟨[], []⟩ (.start 0) = .ok (some t) ∧
    (Transition.Along step KeepsOnFailure [commandArrives .calibrationStart [refusal],
        commandArrives .calibrationStart [], commandArrives .calibrationStop [.quiet, refusal]] t ↔
      Transition.Along step NoneHalfMade [commandArrives .calibrationStart [refusal],
        commandArrives .calibrationStart [],
        commandArrives .calibrationStop [.quiet, refusal]] t) := by
  rcases exists_setup (s := ⟨[], []⟩) (t := .start 0) (by decide +kernel) with ⟨t, ht⟩
  exact ⟨t, ht, (failed_changes_kept 0 ⟨[], []⟩ t _ ht).2⟩

/-- A start whose second request is refused is answered with an error. It leaves the report of
the magnetometer enabled, which was disabled. -/
theorem failed_start_enables_report : ∃ t, setup ⟨[], []⟩ (.start 0) = .ok (some t) ∧
    ¬ KeepsOnFailure (commandArrives .calibrationStart [.quiet, refusal]) t := by
  rcases exists_setup (s := ⟨[], []⟩) (t := .start 0) (by decide +kernel) with ⟨t, ht⟩
  have hpolled : (do
      let r ← setup ⟨[], []⟩ (.start 0)
      let p ← pollStep (commandArrives .calibrationStart [.quiet, refusal]) (r.getD (.start 0))
      pure (handledBy p.1, (r.getD (.start 0)).imu.device.reports .magneticFieldCalibrated,
        p.2.2.device.reports .magneticFieldCalibrated)) =
      .ok ([(CommandId.calibrationStart, CommandResponse.sensorError)], 0, 20000) := by
    decide +kernel
  rw [ht, Cpp.ok_bind, Option.getD_some] at hpolled
  rcases Cpp.bind_eq_ok.mp hpolled with ⟨⟨effects, client, imu⟩, hpoll, hlast⟩
  rcases Prod.mk.inj (Except.ok.inj hlast) with ⟨hhandled, hreports⟩
  rcases Prod.mk.inj hreports with ⟨hbefore, hafter⟩
  refine ⟨t, ht, fun hkeeps ↦ ?_⟩
  have hkept := (hkeeps (by decide) effects client imu hpoll true
    (by rw [hhandled]; exact List.mem_singleton.mpr rfl)).1.report
  rw [hbefore, hafter] at hkept
  cases hkept

end BlueROV2.Firmware
