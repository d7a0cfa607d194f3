import BlueROV2.Firmware.Main

/-!
# Calibration: what is remembered and what is in force

Library `Firmware`. The handlers decide by `cal_mask_`, which changes when both requests of a
change of calibration were accepted. A reset that waits to be noticed excuses everything: the
recovery sets the IMU up again from what is remembered.
-/

namespace BlueROV2.Firmware

open BlueROV2.Base BlueROV2.Wire

/-- The calibration configuration that goes with calibrating or not. -/
def maskFor (calibrating : Bool) : UInt8 :=
  if calibrating then calMaskCalibrating else calMaskDefault

/-- The IMU is set to calibrate, or set not to. -/
def Imu.InForce (calibrating : Bool) (d : Imu) : Prop :=
  d.calibrationConfig = maskFor calibrating ∧
    (d.reports .magneticFieldCalibrated ≠ 0 ↔ calibrating = true)

instance (calibrating : Bool) (d : Imu) : Decidable (d.InForce calibrating) :=
  inferInstanceAs (Decidable (_ ∧ _))

namespace BNO085

variable {x y : BNO085}

/-- What is remembered is in force, unless a reset waits to be noticed. -/
def InSync (x : BNO085) : Prop :=
  x.device.resetOccurred = false → x.device.InForce x.calibrating

/-- What is remembered is known from the mask. -/
theorem calibrating_of_calMask {calibrating : Bool} (h : x.calMask = maskFor calibrating) :
    x.calibrating = calibrating := by
  rw [BNO085.calibrating, h]
  cases calibrating <;> rfl

theorem Passive.calibrating (h : Passive x y) : y.calibrating = x.calibrating := by
  rw [BNO085.calibrating, h.calMask, BNO085.calibrating]

/-- Setting nothing keeps the IMU in step. -/
theorem Passive.inSync (h : Passive x y) (hx : x.InSync) : y.InSync := by
  intro hy
  rw [(h.device hy).2, h.calibrating]
  exact hx (h.device hy).1

/-- `start_calibration` or `stop_calibration`. -/
def setCalibrating (calibrating : Bool) (x : BNO085) : Bool × BNO085 :=
  if calibrating then x.startCalibration else x.stopCalibration

theorem setCalibrating_spec (calibrating : Bool) (x : BNO085) :
    ∃ ms, (ms * 1000 ≠ 0 ↔ calibrating = true) ∧ Calibrated (maskFor calibrating) ms
      (x.setCalibrating calibrating).1 x (x.setCalibrating calibrating).2 := by
  cases calibrating with
  | true => exact ⟨20, by decide, x.calibrate_spec _ _⟩
  | false => exact ⟨0, by decide, x.calibrate_spec _ _⟩

/-- A change that is made is remembered and in force. -/
theorem setCalibrating_made {calibrating : Bool} (h : (x.setCalibrating calibrating).1 = true) :
    (x.setCalibrating calibrating).2.calMask = maskFor calibrating ∧
      ((x.setCalibrating calibrating).2.device.resetOccurred = false →
        x.device.resetOccurred = false ∧
          (x.setCalibrating calibrating).2.device.InForce calibrating) := by
  rcases setCalibrating_spec calibrating x with ⟨ms, hms, r⟩
  rw [h] at r
  refine ⟨r.calMask, fun hf ↦ ?_⟩
  have hgranted := r.granted.symm
  rw [Bool.and_eq_true] at hgranted
  have hd := r.device hf
  rw [if_pos hgranted.1, if_pos hgranted.2] at hd
  rw [hd.2]
  refine ⟨hd.1, rfl, ?_⟩
  rwa [Imu.reports_setCalibrationConfig, Imu.reports_enableReport_self]

/-- A change that is not made, when only its first request can be refused, leaves everything as
it was. -/
theorem setCalibrating_refused {calibrating : Bool} (ha : Accepting 1 x.imu.ahead)
    (h : (x.setCalibrating calibrating).1 = false) :
    (x.setCalibrating calibrating).2.calMask = x.calMask ∧
      ((x.setCalibrating calibrating).2.device.resetOccurred = false →
        x.device.resetOccurred = false ∧
          (x.setCalibrating calibrating).2.device = x.device) := by
  rcases setCalibrating_spec calibrating x with ⟨ms, -, r⟩
  rw [h] at r
  have hgranted := r.granted.symm
  rw [ha.tail.next, Bool.and_true] at hgranted
  refine ⟨r.calMask, fun hf ↦ ?_⟩
  have hd := r.device hf
  rwa [if_neg (Bool.eq_false_iff.mp hgranted)] at hd

/-- A change of which only the first request can be refused keeps the IMU in step. -/
theorem inSync_setCalibrating (calibrating : Bool) (ha : Accepting 1 x.imu.ahead)
    (hx : x.InSync) : (x.setCalibrating calibrating).2.InSync := by
  intro hf
  cases h : (x.setCalibrating calibrating).1 with
  | true =>
    have hmade := setCalibrating_made h
    rw [calibrating_of_calMask hmade.1]
    exact (hmade.2 hf).2
  | false =>
    have hkept := setCalibrating_refused ha h
    have hd := hkept.2 hf
    rw [hd.2, BNO085.calibrating, hkept.1]
    exact hx hd.1

/-- A recovery of which only the first request can be refused succeeds; what was remembered is
in force again, and the other reports are set as `configure` sets them. -/
theorem reset_spec (ha : Accepting 1 x.imu.ahead) :
    x.reset.1 = true ∧ x.reset.2.calMask = maskFor x.calibrating ∧
      x.reset.2.reportPeriodMs = x.reportPeriodMs ∧
      (x.reset.2.device.resetOccurred = false → x.reset.2.device.InForce x.calibrating ∧
        ∀ sensor, sensor ≠ .magneticFieldCalibrated → x.reset.2.device.reports sensor =
          (x.device.setReports (x.reportPeriodMs * 1000) (nextMoment x.imu.ahead).accepts
            true true).reports sensor) := by
  have hc := x.configure_spec
  have hgyro := ha.tail.next
  have hquat := ha.tail.rest.next
  have hok : x.configure.1 = true := by rw [hc.granted, hgyro, hquat]; rfl
  have hcal : x.configure.2.calibrating = x.calibrating := by
    rw [BNO085.calibrating, hc.calMask, BNO085.calibrating]
  have heq : x.reset = x.configure.2.setCalibrating x.calibrating := by
    rw [reset]
    simp only [hok, hcal]
    cases x.calibrating <;> rfl
  rw [heq]
  rcases setCalibrating_spec x.calibrating x.configure.2 with ⟨ms, hms, r⟩
  have hleft : Accepting 0 x.configure.2.imu.ahead := by
    rw [hc.ahead]
    exact ha.tail.rest.rest.rest
  have hmade : (x.configure.2.setCalibrating x.calibrating).1 = true := by
    rw [r.granted, hleft.next, hleft.rest.next]
    rfl
  have hset := setCalibrating_made hmade
  refine ⟨hmade, hset.1, r.reportPeriodMs.trans hc.reportPeriodMs, fun hf ↦ ⟨(hset.2 hf).2, ?_⟩⟩
  intro sensor hsensor
  have hd := r.device hf
  rw [if_pos hleft.next, if_pos hleft.rest.next] at hd
  rw [hd.2, Imu.reports_setCalibrationConfig, Imu.reports_enableReport_of_ne hsensor,
    (hc.device hd.1).2, hgyro, hquat]

/-- A recovery of which only the first request can be refused brings the IMU in step. -/
theorem inSync_reset (ha : Accepting 1 x.imu.ahead) : x.reset.2.InSync := by
  rcases reset_spec ha with ⟨-, hmask, -, hdevice⟩
  intro hf
  rw [calibrating_of_calMask hmask]
  exact (hdevice hf).1

end BNO085

/-! ### Commands -/

/-- The command that asks for calibrating, or for not calibrating. -/
def commandFor (calibrating : Bool) : CommandId :=
  if calibrating then .calibrationStart else .calibrationStop

/-- The handler of that command. -/
def calibrationCommand (calibrating : Bool) : CommandHandler BNO085 :=
  if calibrating then startCalibrationCommand else stopCalibrationCommand

/-- The handlers that are registered. -/
theorem commandHandler_commandFor (calibrating : Bool) :
    commandHandler (commandFor calibrating) = some (calibrationCommand calibrating) := by
  cases calibrating <;> rfl

/-- A registered handler is that of one of the three commands. -/
theorem commandHandler_eq_some {commandId : CommandId} {handler : CommandHandler BNO085}
    (h : commandHandler commandId = some handler) :
    (∃ calibrating, commandId = commandFor calibrating ∧ handler = calibrationCommand calibrating) ∨
      commandId = .calibrationSave ∧ handler = saveCalibrationCommand := by
  unfold commandHandler at h
  split at h
  · next hid =>
    cases h
    exact Or.inl ⟨true, hid, rfl⟩
  · split at h
    · next hid =>
      cases h
      exact Or.inr ⟨hid, rfl⟩
    · split at h
      · next hid =>
        cases h
        exact Or.inl ⟨false, hid, rfl⟩
      · cases h

variable {x : BNO085} {calibrating : Bool}

/-- Asking for what is remembered does nothing. -/
theorem calibrationCommand_of_eq (h : x.calibrating = calibrating) :
    calibrationCommand calibrating x = (.ok, x) := by
  cases calibrating with
  | true => exact if_pos h
  | false => exact if_pos (by rw [h]; rfl)

/-- Asking for anything else changes the calibration. -/
theorem calibrationCommand_of_ne (h : x.calibrating ≠ calibrating) :
    calibrationCommand calibrating x =
      (if (x.setCalibrating calibrating).1 then .ok else .sensorError,
        (x.setCalibrating calibrating).2) := by
  cases calibrating with
  | true => exact if_neg h
  | false => exact if_neg (by simpa using h)

/-! ### Answers -/

/-- What the answer `OK` to a command says of the IMU, if no reset waits to be noticed: it is
set to calibrate, or set not to, or its calibration was saved while it was set to. -/
def Truthful (commandId : CommandId) (x y : BNO085) : Prop :=
  y.device.resetOccurred = false →
    (commandId = .calibrationStart → y.device.InForce true) ∧
    (commandId = .calibrationStop → y.device.InForce false) ∧
    (commandId = .calibrationSave → y.device.saves = calMaskCalibrating :: x.device.saves)

/-- The commands answered `OK` in an iteration are answered truthfully. -/
def AnswersTruthfully (i : Iteration) (t : Teensy) : Prop :=
  ∀ effects client imu, pollStep i t = .ok (effects, client, imu) →
    ∀ commandId, (commandId, CommandResponse.ok) ∈ handledBy effects →
      Truthful commandId t.imu imu

/-- Only the first setting of a command and the first one of a recovery can be refused: the
latter is the report of the accelerometer, and the moment before it that of `was_reset`. -/
def Iteration.AllOrNothing (i : Iteration) : Prop :=
  Accepting 1 i.command ∧ Accepting 2 i.recovery

instance (i : Iteration) : Decidable i.AllOrNothing :=
  inferInstanceAs (Decidable (Accepting 1 i.command ∧ Accepting 2 i.recovery))

/-- If what is remembered is that the IMU calibrates, and it saves its calibration without a reset
before that, then all three sensors calibrate. -/
def BNO085.SavesInForce (x : BNO085) : Prop :=
  x.calibrating = true → (nextMoment x.imu.ahead).saves = true →
    (nextMoment x.imu.ahead).reset = false → x.device.resetOccurred = false →
    x.device.calibrationConfig = calMaskCalibrating

/-- When the command that is received asks for what is remembered, so that it is answered without
asking the IMU, that is in force; when it asks to save, what is saved is in force. -/
def InForceWhenAsked (i : Iteration) (t : Teensy) : Prop :=
  ∀ m ∈ t.client.receives i.arrived,
    (Asks (commandFor t.imu.calibrating) m → t.imu.InSync) ∧
    (Asks .calibrationSave m → (t.imu.facing i.command).SavesInForce)

section Handlers

variable {x : BNO085}

/-- The answer to a START or STOP is truthful if what it asks for is in force. -/
private theorem truthful_commandFor {calibrating : Bool} {x y : BNO085} :
    Truthful (commandFor calibrating) x y ↔
      (y.device.resetOccurred = false → y.device.InForce calibrating) := by
  cases calibrating with
  | true => exact ⟨fun h hf ↦ (h hf).1 rfl, fun h hf ↦ ⟨fun _ ↦ h hf, nofun, nofun⟩⟩
  | false => exact ⟨fun h hf ↦ (h hf).2.1 rfl, fun h hf ↦ ⟨nofun, fun _ ↦ h hf, nofun⟩⟩

/-- A change that is made is answered truthfully; the answer to a command that asks for what is
remembered is truthful just when that is in force. -/
private theorem truthful_calibration_iff (calibrating : Bool) :
    ((calibrationCommand calibrating x).1 = .ok →
      Truthful (commandFor calibrating) x (calibrationCommand calibrating x).2) ↔
        (x.calibrating = calibrating → x.InSync) := by
  rw [truthful_commandFor]
  by_cases hc : x.calibrating = calibrating
  · subst hc
    rw [calibrationCommand_of_eq rfl]
    exact ⟨fun h _ ↦ h rfl, fun h _ ↦ h rfl⟩
  · rw [calibrationCommand_of_ne hc]
    refine ⟨fun _ heq ↦ absurd heq hc, fun _ hok hf ↦ ?_⟩
    cases hmade : (x.setCalibrating calibrating).1 with
    | true => exact ((BNO085.setCalibrating_made hmade).2 hf).2
    | false =>
      simp only [hmade] at hok
      cases hok

/-- The answer to a SAVE is truthful just when what is saved is in force. -/
private theorem truthful_save_iff :
    ((saveCalibrationCommand x).1 = .ok →
      Truthful .calibrationSave x (saveCalibrationCommand x).2) ↔ x.SavesInForce := by
  rcases x.call_saveCalibration with ⟨y, hy, r⟩
  rw [saveCalibrationCommand]
  cases hc : x.calibrating with
  | false =>
    refine ⟨fun _ hcal ↦ ?_, fun _ ↦ nofun⟩
    cases hc.symm.trans hcal
  | true =>
    simp only [Bool.not_true, Bool.false_eq_true, if_false, hy]
    have hsaves {d : Imu} : d.saveCalibration.saves = calMaskCalibrating :: d.saves ↔
        d.calibrationConfig = calMaskCalibrating :=
      ⟨fun h ↦ (List.cons_eq_cons.mp h).1, fun h ↦ congrArg (· :: d.saves) h⟩
    have hflag : y.device.resetOccurred =
        ((nextMoment x.imu.ahead).reset || x.device.resetOccurred) :=
      (congrArg (fun r ↦ r.2.device.resetOccurred) hy.symm).trans
        (x.imu.resetOccurred_request Imu.resetOccurred_saveCalibration)
    constructor
    · intro h _ hs hreset hf
      rw [hreset, hf] at hflag
      have hanswer := (h (if_pos hs) hflag).2.2 rfl
      rw [(r.device hflag).2, if_pos hs] at hanswer
      exact hsaves.mp hanswer
    · intro h hok hf
      have hs : (nextMoment x.imu.ahead).saves = true := by
        cases hs : (nextMoment x.imu.ahead).saves with
        | true => rfl
        | false =>
          simp only [hs] at hok
          cases hok
      rw [hflag, Bool.or_eq_false_iff] at hf
      refine ⟨nofun, nofun, fun _ ↦ ?_⟩
      have hd := r.device (hflag.trans (Bool.or_eq_false_iff.mpr hf))
      rw [hd.2, if_pos hs]
      exact hsaves.mpr (h hc hs hf.1 hf.2)

private theorem truthful_calibration (calibrating : Bool) (hx : x.InSync)
    (ha : Accepting 1 x.imu.ahead) :
    (calibrationCommand calibrating x).2.InSync ∧ ((calibrationCommand calibrating x).1 = .ok →
      Truthful (commandFor calibrating) x (calibrationCommand calibrating x).2) := by
  refine ⟨?_, (truthful_calibration_iff calibrating).mpr fun _ ↦ hx⟩
  by_cases hc : x.calibrating = calibrating
  · rw [calibrationCommand_of_eq hc]
    exact hx
  · rw [calibrationCommand_of_ne hc]
    exact BNO085.inSync_setCalibrating calibrating ha hx

private theorem truthful_save (hx : x.InSync) :
    (saveCalibrationCommand x).2.InSync ∧ ((saveCalibrationCommand x).1 = .ok →
      Truthful .calibrationSave x (saveCalibrationCommand x).2) := by
  refine ⟨?_, truthful_save_iff.mpr fun hc _ _ hf ↦ ?_⟩
  · rcases x.call_saveCalibration with ⟨y, hy, r⟩
    rw [saveCalibrationCommand]
    cases hc : x.calibrating with
    | false => exact hx
    | true =>
      simp only [Bool.not_true, Bool.false_eq_true, if_false, hy]
      have hcal : y.calibrating = x.calibrating := by
        rw [BNO085.calibrating, r.calMask, BNO085.calibrating]
      intro hf
      have hd := r.device hf
      rw [hd.2, hcal]
      -- saving changes neither the configuration nor the reports
      split
      · exact hx hd.1
      · exact hx hd.1
  · have hforce := (hx hf).1
    rwa [hc] at hforce

/-- A handler keeps the IMU in step, and its answer is truthful. -/
theorem truthful_commandHandler {commandId : CommandId} {handler : CommandHandler BNO085}
    (h : commandHandler commandId = some handler) (hx : x.InSync) (ha : Accepting 1 x.imu.ahead) :
    (handler x).2.InSync ∧ ((handler x).1 = .ok → Truthful commandId x (handler x).2) := by
  rcases commandHandler_eq_some h with ⟨calibrating, rfl, rfl⟩ | ⟨rfl, rfl⟩
  · exact truthful_calibration calibrating hx ha
  · exact truthful_save hx

end Handlers

section Runs

variable {i : Iteration} {t t' : Teensy}

/-- Polling keeps the IMU in step, and what is answered is truthful. -/
private theorem truthful_poll {effects : List Effect} {imu : BNO085} (hr : t.Ready)
    (hx : t.imu.InSync) (ha : Accepting 1 i.command)
    (hran : RanOnce t.handlers effects (t.imu.facing i.command) imu) :
    imu.InSync ∧ ∀ commandId, (commandId, CommandResponse.ok) ∈ handledBy effects →
      Truthful commandId t.imu imu := by
  have hfacing := (t.imu.passive_facing i.command).inSync hx
  rcases hran with ⟨hnone, rfl⟩ | ⟨commandId, handler, hh, hone, rfl⟩
  · refine ⟨hfacing, fun commandId hmem ↦ ?_⟩
    rw [hnone] at hmem
    cases hmem
  · rw [hr.handlers] at hh
    have htrue := truthful_commandHandler hh hfacing ha
    refine ⟨htrue.1, fun commandId' hmem ↦ ?_⟩
    rw [hone] at hmem
    rcases Prod.mk.inj (List.mem_singleton.mp hmem) with ⟨rfl, hok⟩
    exact htrue.2 hok.symm

/-- The recovery keeps the IMU in step. -/
private theorem inSync_recoverStep (hx : t.imu.InSync) (ha : Accepting 2 i.recovery) :
    (recoverStep i t).imu.InSync := by
  rcases recoverStep_imu i t with hpassive | ⟨x, -, -, hahead, heq⟩
  · exact hpassive.inSync hx
  · rw [heq]
    apply BNO085.inSync_reset
    rw [hahead]
    exact ha.tail

/-- An iteration leaves the program ready for the next one. -/
theorem ready_step (h : step i t = some t') (hr : t.Ready) : t'.Ready := by
  rcases loop_spec i hr.client with ⟨effects, client, imu, t₁, -, hsound, -, hloop, hfollows⟩
  cases (step_eq_some.mp h).symm.trans hloop
  have hframe := recoverStep_frame i (t.polled effects client imu)
  refine ⟨?_, fun commandId ↦ ?_⟩
  · rw [hfollows.client, hframe.1]
    exact hsound
  · rw [hfollows.handlers, hframe.2.1]
    exact hr.handlers commandId

/-- The program goes on: any list of iterations is a run. -/
theorem exists_run (hr : t.Ready) (is : List Iteration) :
    ∃ t', Transition.run step is t = some t' := by
  induction is generalizing t with
  | nil => exact ⟨t, rfl⟩
  | cons i is ih =>
    rcases loop_spec i hr.client with ⟨-, -, -, t₁, -, -, -, hloop, -⟩
    have hstep := step_eq_some.mpr hloop
    rcases ih (ready_step hstep hr) with ⟨t', ht'⟩
    refine ⟨t', ?_⟩
    rw [Transition.run, hstep]
    exact ht'

/-- An iteration that sets all or nothing keeps the IMU in step. -/
theorem inSync_step (ha : i.AllOrNothing) (h : step i t = some t') (hr : t.Ready)
    (hx : t.imu.InSync) : t'.imu.InSync := by
  rcases loop_spec i hr.client with ⟨effects, client, imu, t₁, -, -, hran, hloop, hfollows⟩
  cases (step_eq_some.mp h).symm.trans hloop
  apply hfollows.imu.inSync
  apply inSync_recoverStep _ ha.2
  exact (truthful_poll hr hx ha.1 hran).1

/-- An iteration that sets all or nothing answers truthfully. -/
theorem answersTruthfully_of_inSync (ha : i.AllOrNothing) (hr : t.Ready) (hx : t.imu.InSync) :
    AnswersTruthfully i t := by
  intro effects client imu hpoll
  rcases loop_spec i hr.client with ⟨effects', client', imu', t₁, hpoll', -, hran, -, -⟩
  cases hpoll.symm.trans hpoll'
  exact (truthful_poll hr hx ha.1 hran).2

/-- After a `setup` whose default configuration was accepted the IMU is in step. -/
theorem inSync_setup {s : Startup} {powerOnConfig : UInt8}
    (h : setup s (.start powerOnConfig) = .ok (some t)) (ha : Accepting 0 s.defaults) :
    t.imu.InSync := by
  rcases setup_spec h with ⟨-, -, x, y, -, -, -, -, himu⟩
  have hmade : ((y.facing s.defaults).setCalibrating false).1 = true := by
    have hspec := (y.facing s.defaults).calibrate_spec calMaskDefault 0
    change ((y.facing s.defaults).calibrate calMaskDefault 0).1 = true
    rw [hspec.granted]
    change ((nextMoment s.defaults).accepts && (nextMoment s.defaults.tail).accepts) = true
    rw [ha.next, ha.rest.next]
    rfl
  have hset := BNO085.setCalibrating_made hmade
  rw [himu]
  intro hf
  rw [show (y.facing s.defaults).stopCalibration.2.calibrating = false from
    BNO085.calibrating_of_calMask hset.1]
  exact (hset.2 hf).2

/-- In an iteration every `OK` is truthful just when what it rests on is in force. -/
theorem answersTruthfully_iff (hr : t.Ready) : AnswersTruthfully i t ↔ InForceWhenAsked i t := by
  rcases loop_spec i hr.client with ⟨effects, client, imu, -, hpoll, -, hran, -, -⟩
  -- a command that is received and has a handler is handled, and leaves what its handler does
  have hran_of : ∀ {commandId handler}, commandHandler commandId = some handler →
      ∀ m ∈ t.client.receives i.arrived, Asks commandId m →
        (commandId, (handler (t.imu.facing i.command)).1) ∈ handledBy effects := by
    intro commandId handler hh m hm hasks
    rw [pollCommand_handles hr.client hpoll, hr.handlers]
    exact ⟨⟨m, hm, hasks⟩, handler, hh, rfl⟩
  have hleft : ∀ {commandId handler result}, commandHandler commandId = some handler →
      (commandId, result) ∈ handledBy effects → imu = (handler (t.imu.facing i.command)).2 := by
    intro commandId handler result hh hmem
    rcases hran with ⟨hnone, -⟩ | ⟨commandId', handler', hh', hone, himu⟩
    · rw [hnone] at hmem
      cases hmem
    · rw [hone] at hmem
      rcases Prod.mk.inj (List.mem_singleton.mp hmem) with ⟨rfl, -⟩
      rw [hr.handlers, hh] at hh'
      cases hh'
      exact himu
  constructor
  · intro htrue m hm
    refine ⟨fun hasks ↦ ?_, fun hasks ↦ truthful_save_iff.mp fun hok ↦ ?_⟩
    · have hh := commandHandler_commandFor t.imu.calibrating
      refine (truthful_calibration_iff (x := t.imu.facing i.command) t.imu.calibrating).mp
        (fun hok ↦ ?_) rfl
      have hmem := hran_of hh m hm hasks
      have hanswer := htrue effects client imu hpoll _ (hok ▸ hmem)
      rwa [hleft hh hmem] at hanswer
    · have hh : commandHandler .calibrationSave = some saveCalibrationCommand := rfl
      have hmem := hran_of hh m hm hasks
      have hanswer := htrue effects client imu hpoll _ (hok ▸ hmem)
      rwa [hleft hh hmem] at hanswer
  · intro hforce effects' client' imu' hpoll' commandId hmem
    cases hpoll.symm.trans hpoll'
    rcases (pollCommand_handles hr.client hpoll).mp hmem with ⟨⟨m, hm, hasks⟩, handler, hh, hok⟩
    rw [hr.handlers] at hh
    rw [hleft hh hmem]
    rcases commandHandler_eq_some hh with ⟨calibrating, rfl, rfl⟩ | ⟨rfl, rfl⟩
    · refine (truthful_calibration_iff (x := t.imu.facing i.command) calibrating).mpr
        (fun heq ↦ ?_) hok.symm
      have hasked : t.imu.calibrating = calibrating := heq
      subst hasked
      exact (hforce m hm).1 hasks
    · exact truthful_save_iff.mpr ((hforce m hm).2 hasks) hok.symm

/-- In every run of `setup` and `loop`, with any bytes received, any refusals and any resets of the
IMU, the answers `OK` are truthful just when what they rest on is in force; so it is when settings
are refused only where nothing was set before. -/
theorem calibration_answers_hold (powerOnConfig : UInt8) (s : Startup) (t : Teensy)
    (is : List Iteration) (hsetup : setup s (.start powerOnConfig) = .ok (some t)) :
    (∃ t', Transition.run step is t = some t') ∧
      (Transition.Along step AnswersTruthfully is t ↔ Transition.Along step InForceWhenAsked is t) ∧
      (Accepting 0 s.defaults → (∀ i ∈ is, i.AllOrNothing) →
        Transition.Along step AnswersTruthfully is t) := by
  have hready := (setup_spec hsetup).1
  refine ⟨exists_run hready is, ?_, fun hs his ↦ ?_⟩
  · apply Transition.along_congr (I := Teensy.Ready) _ _ is hready
    · exact fun i t t' _ h hr ↦ ready_step h hr
    · exact fun i t hr ↦ answersTruthfully_iff hr
  · apply Transition.along_imp (I := fun t ↦ t.Ready ∧ t.imu.InSync) _ _
      ⟨hready, inSync_setup hsetup hs⟩ (Transition.along_of_mem his t)
    · exact fun i t t' ha h hi ↦ ⟨ready_step h hi.1, inSync_step ha h hi.1 hi.2⟩
    · exact fun i t hi ha ↦ answersTruthfully_of_inSync ha hi.1 hi.2

end Runs

/-- The frame of a command arrives, with given moments for its handler. -/
def commandArrives (commandId : CommandId) (command : List Moment) : Iteration where
  arrived := frame crcOf ⟨.command, .imu01, [commandId.byte, 1, 0]⟩ ++ [0]
  command
  recovery := []
  sample := []
  status := []

/-- A moment at which the IMU refuses a setting. -/
def refusal : Moment := { Moment.quiet with accepts := false }

theorem exists_setup {s : Startup} {t : Teensy}
    (h : (setup s t).map Option.isSome = .ok true) : ∃ t', setup s t = .ok (some t') := by
  cases hs : setup s t with
  | error e =>
    rw [hs] at h
    cases h
  | ok r =>
    cases r with
    | none =>
      rw [hs] at h
      cases h
    | some t' => exact ⟨t', rfl⟩

/-- A start that is refused at once, a start, a save and a stop are answered truthfully: what they
rest on is in force. -/
theorem calibration_answers_hold_refused : ∃ t, setup ⟨[], []⟩ (.start 0) = .ok (some t) ∧
    Transition.Along step AnswersTruthfully [commandArrives .calibrationStart [refusal],
      commandArrives .calibrationStart [], commandArrives .calibrationSave [],
      commandArrives .calibrationStop []] t ∧
    Transition.Along step InForceWhenAsked [commandArrives .calibrationStart [refusal],
      commandArrives .calibrationStart [], commandArrives .calibrationSave [],
      commandArrives .calibrationStop []] t := by
  rcases exists_setup (s := ⟨[], []⟩) (t := .start 0) (by decide +kernel) with ⟨t, ht⟩
  have hold := calibration_answers_hold 0 ⟨[], []⟩ t [commandArrives .calibrationStart [refusal],
    commandArrives .calibrationStart [], commandArrives .calibrationSave [],
    commandArrives .calibrationStop []] ht
  have htrue := hold.2.2 (by decide) (by decide)
  exact ⟨t, ht, htrue, hold.2.1.mp htrue⟩

/-- A start whose configuration is refused after the report of the magnetometer was enabled is
answered with an error. The stop after it is answered `OK`, with the report still enabled. -/
theorem stop_answers_ok_untouched : ∃ t₀ t, setup ⟨[], []⟩ (.start 0) = .ok (some t₀) ∧
    Transition.run step [commandArrives .calibrationStart [.quiet, refusal]] t₀ = some t ∧
    ¬ AnswersTruthfully (commandArrives .calibrationStop []) t := by
  rcases exists_setup (s := ⟨[], []⟩) (t := .start 0) (by decide +kernel) with ⟨t₀, ht₀⟩
  have hrun : (do
      let r ← setup ⟨[], []⟩ (.start 0)
      let t ← loop (commandArrives .calibrationStart [.quiet, refusal]) (r.getD (.start 0))
      let r ← pollStep (commandArrives .calibrationStop []) t
      pure (handledBy r.1, r.2.2.device.resetOccurred,
        r.2.2.device.reports .magneticFieldCalibrated)) =
      .ok ([(CommandId.calibrationStop, CommandResponse.ok)], false, 20000) := by decide +kernel
  rw [ht₀, Cpp.ok_bind, Option.getD_some] at hrun
  rcases Cpp.bind_eq_ok.mp hrun with ⟨t, hloop, hrest⟩
  rcases Cpp.bind_eq_ok.mp hrest with ⟨⟨effects, client, imu⟩, hpoll, hlast⟩
  rcases Prod.mk.inj (Except.ok.inj hlast) with ⟨hhandled, hstate⟩
  rcases Prod.mk.inj hstate with ⟨hflag, hreport⟩
  refine ⟨t₀, t, ht₀, ?_, ?_⟩
  · rw [Transition.run, step_eq_some.mpr hloop]
    rfl
  · intro htrue
    have hstop := (htrue effects client imu hpoll .calibrationStop
      (by rw [hhandled]; exact List.mem_singleton.mpr rfl) hflag).2.1 rfl
    have hoff := hstop.2.mp (by rw [hreport]; decide)
    cases hoff

/-- A command that asks for what is remembered is answered `OK`, and does nothing. -/
private theorem execute_remembered {t : Teensy} (hr : t.Ready) (command : List Moment) :
    execute t.handlers (commandFor t.imu.calibrating) (t.imu.facing command) =
      (.ok, [.handle (commandFor t.imu.calibrating) .ok], t.imu.facing command) := by
  unfold execute
  rw [hr.handlers, commandHandler_commandFor]
  have hdone : calibrationCommand t.imu.calibrating (t.imu.facing command) =
      (.ok, t.imu.facing command) := calibrationCommand_of_eq rfl
  simp only [hdone]

/-- Wherever the IMU is not in step and no byte waits, the next command that asks for what is
remembered is answered `OK` all the same. -/
theorem disagreement_shows {t : Teensy} (hr : t.Ready) (hidle : t.client.Idle)
    (hx : ¬ t.imu.InSync) :
    ¬ AnswersTruthfully (commandArrives (commandFor t.imu.calibrating) []) t := by
  rw [BNO085.InSync, Classical.not_imp] at hx
  rcases hx with ⟨hf, hforce⟩
  rcases pollCommand_command t.handlers .imu01 _ 1 0 hidle (execute_remembered hr []) with
    ⟨c, hpoll, -⟩
  intro htrue
  have hanswer := htrue _ c _ hpoll _ List.mem_cons_self hf
  apply hforce
  cases hc : t.imu.calibrating with
  | true => exact hanswer.1 (by rw [hc]; rfl)
  | false => exact hanswer.2.1 (by rw [hc]; rfl)

end BlueROV2.Firmware
