import BlueROV2.Firmware.Calibration
import BlueROV2.Firmware.Outputs

/-!
# The modes of the Teensy

Library `Firmware`. Seen from the Pi, the program on the Teensy is a machine with two modes that
is told which packets it may send in each. What is remembered in `cal_mask_` refines it.
-/

namespace BlueROV2.Firmware

open BlueROV2.Base BlueROV2.Wire

/-! ### The machine -/

/-- The mode after a command is answered, if that answer may be given: `CALIBRATION_SAVE` is
refused when not calibrating, and asking for the present mode never fails. -/
def afterResponse (commandId : CommandId) (result : CommandResponse) (calibrating : Bool) :
    Option Bool :=
  let change (target : Bool) : Option Bool :=
    if result = .ok then some target
    else if result = .sensorError ∧ calibrating ≠ target then some calibrating
    else none
  if commandId = .calibrationStart then change true
  else if commandId = .calibrationStop then change false
  else if commandId = .calibrationSave then
    if calibrating then if result = .ok ∨ result = .sensorError then some true else none
    else if result = .invalidState then some false else none
  else if result = .unknownCommand then some calibrating
  else none

/-- The mode after a packet, if it may be sent: samples in both modes, a status only when
calibrating, with the mask of the sensors that are. -/
def afterPacket (m : Message) (calibrating : Bool) : Option Bool :=
  if m.packetId = .imuData then
    if m.deviceId = .imu01 ∧ m.payload.length = 40 then some calibrating else none
  else if m.packetId = .calStatus then
    if calibrating = true ∧ m.deviceId = .imu01 ∧ m.payload.length = 9 ∧
      m.payload[4]? = some calMaskCalibrating then some true else none
  else if m.packetId = .commandResponse then
    match m.payload with
    | [id, _, result] => afterResponse ⟨id⟩ ⟨result⟩ calibrating
    | _ => none
  else none

/-! ### Handlers -/

namespace BNO085

variable {x y : BNO085}

/-- While it calibrates, the mask is that of all three sensors. -/
def Masked (x : BNO085) : Prop := x.calibrating = true → x.calMask = calMaskCalibrating

theorem masked_of_calMask {calibrating : Bool} (h : x.calMask = maskFor calibrating) :
    x.Masked := by
  intro hc
  rw [calibrating_of_calMask h] at hc
  rw [h, hc]
  rfl

/-- What keeps the mask keeps this. -/
theorem Masked.of_eq (hx : x.Masked) (h : y.calMask = x.calMask) : y.Masked := by
  intro hc
  rw [BNO085.calibrating, h] at hc
  exact h.trans (hx hc)

theorem calibrating_of_eq (h : y.calMask = x.calMask) : y.calibrating = x.calibrating := by
  rw [BNO085.calibrating, h, BNO085.calibrating]

/-- A change of calibration is made, or the mode stays. -/
theorem setCalibrating_mode (calibrating : Bool) (hx : x.Masked) :
    (x.setCalibrating calibrating).2.Masked ∧ (x.setCalibrating calibrating).2.calibrating =
      if (x.setCalibrating calibrating).1 then calibrating else x.calibrating := by
  rcases setCalibrating_spec calibrating x with ⟨ms, -, hspec⟩
  have hmask := hspec.calMask
  cases hok : (x.setCalibrating calibrating).1 with
  | true =>
    rw [hok, if_pos rfl] at hmask
    exact ⟨masked_of_calMask hmask, calibrating_of_calMask hmask⟩
  | false =>
    rw [hok] at hmask
    exact ⟨hx.of_eq hmask, calibrating_of_eq hmask⟩

/-- A reset goes back to the mode that is remembered, whether the IMU accepts it or not. -/
theorem reset_mode (hx : x.Masked) :
    x.reset.2.Masked ∧ x.reset.2.calibrating = x.calibrating := by
  have hspec := x.configure_spec
  have hmasked : x.configure.2.Masked := hx.of_eq hspec.calMask
  have hmode : x.configure.2.calibrating = x.calibrating := calibrating_of_eq hspec.calMask
  have hset := setCalibrating_mode x.configure.2.calibrating hmasked
  rw [ite_self, hmode] at hset
  have hreset : x.reset =
      if !x.configure.1 then (false, x.configure.2)
      else x.configure.2.setCalibrating x.calibrating := by
    rw [reset, setCalibrating]
    simp only [hmode]
  rw [hreset]
  split
  · exact ⟨hmasked, hmode⟩
  · exact hset

end BNO085

variable {x : BNO085}

/-- The answers to a command that asks for a mode. -/
theorem afterResponse_commandFor (target : Bool) (result : CommandResponse) (calibrating : Bool) :
    afterResponse (commandFor target) result calibrating =
      if result = .ok then some target
      else if result = .sensorError ∧ calibrating ≠ target then some calibrating
      else none := by
  cases target <;> rfl

/-- The answer to a command that has no handler. -/
theorem afterResponse_unknown {commandId : CommandId} (h : commandHandler commandId = none)
    (result : CommandResponse) (calibrating : Bool) :
    afterResponse commandId result calibrating =
      if result = .unknownCommand then some calibrating else none := by
  have hother : ∀ other handler, commandHandler other = some handler → commandId ≠ other := by
    rintro other handler ho rfl
    cases h.symm.trans ho
  simp only [afterResponse, if_neg (hother .calibrationStart _ rfl),
    if_neg (hother .calibrationStop _ rfl), if_neg (hother .calibrationSave _ rfl)]

/-- Asking for a mode is answered as the machine does. -/
theorem calibrationCommand_mode (target : Bool) (hx : x.Masked) :
    (calibrationCommand target x).2.Masked ∧
      afterResponse (commandFor target) (calibrationCommand target x).1 x.calibrating =
        some (calibrationCommand target x).2.calibrating := by
  rw [afterResponse_commandFor]
  by_cases heq : x.calibrating = target
  · rw [calibrationCommand_of_eq heq, heq]
    exact ⟨hx, rfl⟩
  · have hset := BNO085.setCalibrating_mode target hx
    rw [calibrationCommand_of_ne heq]
    refine ⟨hset.1, ?_⟩
    simp only [hset.2]
    cases (x.setCalibrating target).1 with
    | true => rfl
    | false => exact if_pos (And.intro rfl heq)

/-- Saving is answered as the machine does. -/
theorem saveCalibrationCommand_mode (hx : x.Masked) :
    (saveCalibrationCommand x).2.Masked ∧
      afterResponse .calibrationSave (saveCalibrationCommand x).1 x.calibrating =
        some (saveCalibrationCommand x).2.calibrating := by
  rw [saveCalibrationCommand]
  cases hc : x.calibrating with
  | false => exact ⟨hx, congrArg some hc.symm⟩
  | true =>
    rcases x.call_saveCalibration with ⟨y, hy, hreq⟩
    have hmode : y.calibrating = true := by
      rw [BNO085.calibrating, hreq.calMask]
      exact hc
    simp only [Bool.not_true, Bool.false_eq_true, if_false, hy]
    refine ⟨hx.of_eq hreq.calMask, ?_⟩
    rw [hmode]
    cases (nextMoment x.imu.ahead).saves <;> rfl

/-- What is answered to a command that is executed is an answer of the machine, which goes on to
the mode of the firmware. -/
theorem execute_mode {handlers : CommandHandlers BNO085}
    (hh : ∀ commandId, handlerFor handlers commandId = commandHandler commandId)
    (commandId : CommandId) (hx : x.Masked) :
    (execute handlers commandId x).2.2.Masked ∧
      afterResponse commandId (execute handlers commandId x).1 x.calibrating =
        some (execute handlers commandId x).2.2.calibrating := by
  rw [execute, hh]
  cases hc : commandHandler commandId with
  | none =>
    refine ⟨hx, ?_⟩
    simp only [afterResponse_unknown hc, if_true]
  | some handler =>
    rcases commandHandler_eq_some hc with ⟨target, rfl, rfl⟩ | ⟨rfl, rfl⟩
    · exact calibrationCommand_mode target hx
    · exact saveCalibrationCommand_mode hx

/-- The mode after a command was handled with a result. -/
def afterHandle (x : CommandId × CommandResponse) (calibrating : Bool) : Option Bool :=
  afterResponse x.1 x.2 calibrating

/-- What a poll handles is a run of the machine, up to the mode of the firmware. -/
theorem responds_mode {handlers : CommandHandlers BNO085}
    (hh : ∀ commandId, handlerFor handlers commandId = commandHandler commandId) (hx : x.Masked)
    {effects : List Effect} {y : BNO085} (h : Responds handlers effects x y) :
    y.Masked ∧
      Transition.run afterHandle (handledBy effects) x.calibrating = some y.calibrating := by
  cases h with
  | nothing hw handled =>
    rw [hw, handled]
    exact ⟨hx, rfl⟩
  | command deviceId commandId seq result ran hw handled =>
    have hmode := execute_mode hh commandId hx
    rw [hw] at hmode
    refine ⟨hmode.1, ?_⟩
    rw [handled]
    unfold execute at hw
    cases hc : handlerFor handlers commandId with
    | none =>
      simp only [hc] at hw
      cases hw
      rfl
    | some handler =>
      simp only [hc] at hw
      cases hw
      exact congrArg (Option.bind · some) hmode.2

/-! ### Iterations -/

variable {i : Iteration} {t t' : Teensy}

/-- What was put on the port so far is a run of the machine from not calibrating, up to the mode
of the firmware. -/
structure Moded (t : Teensy) : Prop where
  masked : t.imu.Masked
  packets : ∃ ms, Puts ms t.outputs ∧ Transition.run afterPacket ms false = some t.imu.calibrating

/-- A part of an iteration, with the packets that it puts on the port. -/
theorem Moded.append (ht : Moded t) {ms : List Message} {later : List Output}
    (hmasked : t'.imu.Masked) (houtputs : t'.outputs = t.outputs ++ later) (hputs : Puts ms later)
    (hrun : Transition.run afterPacket ms t.imu.calibrating = some t'.imu.calibrating) :
    Moded t' := by
  rcases ht.packets with ⟨before, hbefore, hrunBefore⟩
  refine ⟨hmasked, before ++ ms, ?_, ?_⟩
  · rw [houtputs]
    exact hbefore.append hputs
  · rw [Transition.run_append, hrunBefore]
    exact hrun

/-- A part that neither sends nor sets anything. -/
theorem Moded.passive (ht : Moded t) (himu : t.imu.Passive t'.imu)
    (houtputs : t'.outputs = t.outputs) : Moded t' := by
  have houtputs' : t'.outputs = t.outputs ++ [] := by
    rw [houtputs, List.append_nil]
  exact ht.append (ht.masked.of_eq himu.calMask) houtputs' puts_nil
    (congrArg some himu.calibrating.symm)

private theorem Moded.polled (ht : Moded t) (hr : t.Ready) {effects : List Effect}
    {client : Client} {imu : BNO085}
    (hresponds : Responds t.handlers effects (t.imu.facing i.command) imu) :
    Moded (t.polled effects client imu) := by
  cases hresponds with
  | nothing hw _ hwritten =>
    have hpassive : t.imu.Passive imu := hw ▸ t.imu.passive_facing i.command
    have hputs : Puts [] (effects.map .client) := by
      rw [Puts, writesOf_client, hwritten]
      rfl
    exact ht.append (ht.masked.of_eq hpassive.calMask) rfl hputs
      (congrArg some hpassive.calibrating.symm)
  | command deviceId commandId seq result ran hw _ hwritten =>
    have hmode := execute_mode hr.handlers commandId (x := t.imu.facing i.command) ht.masked
    rw [hw] at hmode
    have hputs : Puts [responsePacket deviceId commandId seq result] (effects.map .client) := by
      rw [Puts, writesOf_client, hwritten]
      rfl
    refine ht.append hmode.1 rfl hputs ?_
    rw [Transition.run]
    exact congrArg (Option.bind · some) hmode.2

private theorem Moded.recovered (ht : Moded t) : Moded (recoverStep i t) := by
  rcases recoverStep_outputs i t with ⟨later, houtputs, hputs⟩
  rcases recoverStep_imu i t with hpassive | ⟨x, hmask, -, -, heq⟩
  · exact ht.append (ht.masked.of_eq hpassive.calMask) houtputs hputs
      (congrArg some hpassive.calibrating.symm)
  · have hreset := BNO085.reset_mode (ht.masked.of_eq hmask)
    rw [← heq, BNO085.calibrating_of_eq hmask] at hreset
    exact ht.append hreset.1 houtputs hputs (congrArg some hreset.2.symm)

private theorem Moded.sampled (ht : Moded t) : Moded (t.sampled i) := by
  have himu : t.imu.Passive (t.reading i).2 :=
    (t.imu.passive_facing i.sample).trans (t.imu.facing i.sample).passive_read
  have hputs : Puts ((t.reading i).1.map Sample.packet).toList
      ((t.reading i).1.map fun s ↦ packetOutput s.packet).toList := by
    cases (t.reading i).1 <;> rfl
  refine ht.append (ht.masked.of_eq himu.calMask) rfl hputs ?_
  rw [Teensy.sampled, himu.calibrating]
  cases (t.reading i).1 <;> rfl

private theorem Moded.status (ht : Moded t) (h : statusStep i t = .ok t') : Moded t' := by
  by_cases hdue : t.Due i
  · cases (statusStep_of_due hdue).symm.trans h
    have himu : t.imu.Passive (t.reported i).imu :=
      ((t.imu.passive_facing i.status).trans (BNO085.passive_millis _)).trans
        (BNO085.passive_millis _)
    refine ht.append (ht.masked.of_eq himu.calMask) rfl (puts_packetOutput _) ?_
    have hafter : afterPacket t.imu.statusPacket true = some true := by
      have hallowed : t.imu.statusPacket.payload[4]? = some calMaskCalibrating :=
        congrArg some (ht.masked hdue.1)
      have hid : t.imu.statusPacket.packetId ≠ .imuData := by
        change PacketId.calStatus ≠ .imuData
        decide
      have hstatus : t.imu.statusPacket.packetId = .calStatus := rfl
      rw [afterPacket, if_neg hid, if_pos hstatus]
      exact if_pos ⟨rfl, rfl, rfl, hallowed⟩
    rw [himu.calibrating, hdue.1, Transition.run, hafter]
    rfl
  · rcases statusStep_of_not_due hdue with ⟨imu, hstatus, hpassive⟩
    cases hstatus.symm.trans h
    exact ht.passive hpassive rfl

/-- An iteration goes on as the machine does. -/
theorem moded_step (h : step i t = some t') (hr : t.Ready) (ht : Moded t) : Moded t' := by
  rcases iterates_of_step h hr.client with ⟨effects, client, imu, -, -, hresponds, hstatus⟩
  exact (ht.polled hr hresponds).recovered.sampled.status hstatus

/-- `setup` leaves the program not calibrating. -/
theorem masked_setup {s : Startup} {powerOnConfig : UInt8}
    (h : setup s (.start powerOnConfig) = .ok (some t)) :
    t.imu.Masked ∧ t.imu.calibrating = false := by
  rcases setup_spec h with ⟨-, -, x, y, hmask, -, -, hconf, himu⟩
  have hy : y.calMask = 0 := by
    have hspec := x.configure_spec
    rw [hconf] at hspec
    exact hspec.calMask.trans hmask
  have hmode : (y.facing s.defaults).calibrating = false := by
    rw [BNO085.calibrating]
    change decide (y.calMask &&& sh2CalMag ≠ 0) = false
    rw [hy]
    rfl
  have hset := BNO085.setCalibrating_mode false (x := y.facing s.defaults)
    (fun hc ↦ absurd (hmode.symm.trans hc) Bool.false_ne_true)
  rw [hmode, ite_self] at hset
  change (y.facing s.defaults).stopCalibration.2.Masked ∧
    (y.facing s.defaults).stopCalibration.2.calibrating = false at hset
  rwa [← himu] at hset

/-- Then nothing was sent. -/
theorem moded_setup {s : Startup} {powerOnConfig : UInt8}
    (h : setup s (.start powerOnConfig) = .ok (some t)) : Moded t :=
  ⟨(masked_setup h).1, [], (setup_outputs h).1, congrArg some (masked_setup h).2.symm⟩

/-- In every run of `setup` and `loop`, whatever bytes arrive and whatever the IMU refuses or
resets, the packets that are read off the port are a run of the machine; it ends in the mode of
the firmware, which is therefore known from the answers to the commands alone. -/
theorem packets_follow_modes (powerOnConfig : UInt8) (s : Startup) (t t' : Teensy)
    (is : List Iteration) (hsetup : setup s (.start powerOnConfig) = .ok (some t))
    (h : Transition.run step is t = some t') :
    Transition.run afterPacket (packetsOf t'.outputs) false = some t'.imu.calibrating := by
  have hinv := Transition.invariant (I := fun t ↦ t.Ready ∧ Moded t)
    (fun i t t' h hi ↦ ⟨ready_step h hi.1, moded_step h hi.1 hi.2⟩)
    ⟨(setup_spec hsetup).1, moded_setup hsetup⟩ h
  rcases hinv.2.packets with ⟨ms, hputs, hrun⟩
  rwa [hputs.packetsOf_eq]

/-- A start that the IMU refuses and one that it accepts, with a status after it, and a save. -/
def startedAtLast : List Iteration := [
  commandArrives .calibrationStart [refusal],
  { commandArrives .calibrationStart [] with status := [{ Moment.quiet with elapsed := 100 }] },
  commandArrives .calibrationSave []]

/-- The error is followed by the success, the status and the answer to the save, and they lead to
the calibration mode. -/
theorem packets_follow_modes_started : ∃ t t', setup ⟨[], []⟩ (.start 0) = .ok (some t) ∧
    Transition.run step startedAtLast t = some t' ∧
    packetsOf t'.outputs = [⟨.commandResponse, .imu01, [1, 1, 2]⟩,
      ⟨.commandResponse, .imu01, [1, 1, 0]⟩, ⟨.calStatus, .imu01, [0, 0, 0, 0, 7, 0, 0, 0, 0]⟩,
      ⟨.commandResponse, .imu01, [2, 1, 0]⟩] ∧
    Transition.run afterPacket (packetsOf t'.outputs) false = some true ∧
    t'.imu.calibrating = true := by
  rcases exists_setup (s := ⟨[], []⟩) (t := .start 0) (by decide +kernel) with ⟨t, ht⟩
  rcases exists_run (setup_spec ht).1 startedAtLast with ⟨t', ht'⟩
  have hfollows := packets_follow_modes 0 ⟨[], []⟩ t t' startedAtLast ht ht'
  have hend : ((setup ⟨[], []⟩ (.start 0)).toOption.join.bind
      (Transition.run step startedAtLast)).map (packetsOf ·.outputs) = some [
        ⟨.commandResponse, .imu01, [1, 1, 2]⟩, ⟨.commandResponse, .imu01, [1, 1, 0]⟩,
        ⟨.calStatus, .imu01, [0, 0, 0, 0, 7, 0, 0, 0, 0]⟩,
        ⟨.commandResponse, .imu01, [2, 1, 0]⟩] := by
    decide +kernel
  have hstart : (setup ⟨[], []⟩ (.start 0)).toOption.join = some t := by
    rw [ht]
    rfl
  rw [hstart, Option.bind_some, ht', Option.map_some, Option.some_inj] at hend
  have hmode : Transition.run afterPacket (packetsOf t'.outputs) false = some true := by
    rw [hend]
    rfl
  exact ⟨t, t', ht, ht', hend, hmode, Option.some.inj (hfollows.symm.trans hmode)⟩

end BlueROV2.Firmware
