import Mathlib.Algebra.Group.Nat.Defs
import BlueROV2.Firmware.Modes
import BlueROV2.Firmware.Rates

/-!
# When a calibration status is sent

Library `Firmware`. The interval between two statuses in `modules/teensy/src/main.cpp` is taken
on a clock of 32 bits, which is read twice in an iteration that sends one. A history, which the
code does not have, keeps when the clock was read and when a status was sent.
-/

namespace BlueROV2.Firmware

open BlueROV2.Base BlueROV2.Base.History BlueROV2.Wire

/-- What is kept of an iteration: whether the IMU was calibrating when a status could be sent,
the time at which that was decided, and the time kept of a status that was sent. -/
structure Stamp where
  calibrating : Bool
  checked : Nat
  sent : Option Nat
  deriving DecidableEq, Repr

/-- The state in an iteration before the status. -/
def Teensy.beforeStatus (i : Iteration) (t : Teensy) : Cpp Teensy := do
  let (effects, client, imu) ← pollStep i t
  pure ((recoverStep i (t.polled effects client imu)).sampled i)

/-- What is kept of an iteration, from the state before its status. -/
def stampOf (i : Iteration) (u : Teensy) : Stamp where
  calibrating := u.imu.calibrating
  checked := (u.clock i).2.imu.now
  sent := if u.Due i then some (u.reported i).imu.imu.now else none

/-- The program with its history. -/
structure Stamped where
  teensy : Teensy
  log : List Stamp

/-- An iteration as a step of the program with its history. -/
def Stamped.act (i : Iteration) (s : Stamped) : Option Stamped := do
  let u ← (s.teensy.beforeStatus i).toOption
  let t ← (statusStep i u).toOption
  pure ⟨t, s.log ++ [stampOf i u]⟩

/-- The times at which a status was sent. -/
def sentTimes (log : List Stamp) : List Nat := log.filterMap Stamp.sent

/-- The time of the last status, or zero. -/
def lastSent (log : List Stamp) : Nat := (sentTimes log).getLast?.getD 0

/-- A status is sent just when the firmware is in its calibration mode and 100 ms or more have
passed since the last one, of which the clock cannot tell whole turns. -/
def OnTime (before : List Stamp) (x : Stamp) : Prop :=
  (x.sent.isSome ↔ x.calibrating = true ∧ 100 ≤ (x.checked - lastSent before) % 2 ^ 32) ∧
    lastSent before ≤ x.checked ∧ ∀ time ∈ x.sent, x.checked ≤ time

/-- Whether a packet is a status. -/
def isStatus (m : Message) : Bool := m.packetId = .calStatus

/-! ### The clock and the time of the last status -/

variable {i : Iteration} {t t' : Teensy}

/-- One state after another, before the status of an iteration: it is later, no status was sent
and the time of the last one is kept. -/
structure Awaits (t t' : Teensy) : Prop where
  now : t.imu.imu.now ≤ t'.imu.imu.now
  lastCalStatusMs : t'.lastCalStatusMs = t.lastCalStatusMs
  outputs : ∃ ms later, t'.outputs = t.outputs ++ later ∧ Puts ms later ∧ ms.countP isStatus = 0

theorem Awaits.trans {t₁ : Teensy} (h : Awaits t t₁) (h' : Awaits t₁ t') : Awaits t t' := by
  rcases h.outputs with ⟨ms, later, houtputs, hputs, hcount⟩
  rcases h'.outputs with ⟨ms', later', houtputs', hputs', hcount'⟩
  refine ⟨Nat.le_trans h.now h'.now, h'.lastCalStatusMs.trans h.lastCalStatusMs,
    ms ++ ms', later ++ later', ?_, hputs.append hputs', ?_⟩
  · rw [houtputs', houtputs, List.append_assoc]
  · rw [List.countP_append, hcount, hcount']

private theorem now_execute {handlers : CommandHandlers BNO085}
    (hh : ∀ commandId, handlerFor handlers commandId = commandHandler commandId)
    (commandId : CommandId) (x : BNO085) :
    x.imu.now ≤ (execute handlers commandId x).2.2.imu.now := by
  rw [execute, hh]
  cases hc : commandHandler commandId with
  | none => exact Nat.le_refl _
  | some handler =>
    rcases commandHandler_eq_some hc with ⟨target, rfl, rfl⟩ | ⟨rfl, rfl⟩
    · by_cases heq : x.calibrating = target
      · simp only [calibrationCommand_of_eq heq]
        exact Nat.le_refl _
      · simp only [calibrationCommand_of_ne heq]
        rw [BNO085.setCalibrating]
        split
        · exact (kept_calibrate x _ _).now
        · exact (kept_calibrate x _ _).now
    · simp only [saveCalibrationCommand]
      split
      · exact Nat.le_refl _
      · exact (kept_request x _ _).now

private theorem awaits_polled (hr : t.Ready) {effects : List Effect} {client : Client}
    {imu : BNO085} (h : Responds t.handlers effects (t.imu.facing i.command) imu) :
    Awaits t (t.polled effects client imu) := by
  cases h with
  | nothing hw _ hwritten =>
    refine ⟨hw ▸ Nat.le_refl _, rfl, [], _, rfl, ?_, rfl⟩
    rw [Puts, writesOf_client, hwritten]
    rfl
  | command deviceId commandId seq result ran hw _ hwritten =>
    have hnow := now_execute hr.handlers commandId (t.imu.facing i.command)
    rw [hw] at hnow
    refine ⟨hnow, rfl, [responsePacket deviceId commandId seq result], _, rfl, ?_, rfl⟩
    rw [Puts, writesOf_client, hwritten]
    rfl

private theorem awaits_recoverStep (i : Iteration) (t : Teensy) : Awaits t (recoverStep i t) := by
  rcases recoverStep_outputs i t with ⟨later, houtputs, hputs⟩
  have hnoticed : t.imu.imu.now ≤ (t.imu.facing i.recovery).wasReset.2.imu.now :=
    Nat.le_add_right _ _
  refine ⟨?_, ?_, [], later, houtputs, hputs, rfl⟩
  · rw [recoverStep]
    simp only
    split
    · split
      · exact Nat.le_trans hnoticed (lowered_reset _).now
      · exact Nat.le_trans hnoticed (lowered_reset _).now
    · exact hnoticed
  · rw [recoverStep]
    simp only
    split
    · split <;> rfl
    · rfl

private theorem read_now (x : BNO085) : x.imu.now ≤ x.read.2.imu.now := by
  rw [BNO085.read_eq]
  rcases assemble_spec x.taking with ⟨heq, -⟩ | ⟨s, y, heq, -, ha⟩
  · rw [heq]
    exact (taken_taking x).now
  · rw [heq]
    exact Nat.le_trans (taken_taking x).now ha.now

private theorem awaits_sampled (i : Iteration) (t : Teensy) : Awaits t (t.sampled i) := by
  refine ⟨read_now (t.imu.facing i.sample), rfl, ((t.reading i).1.map Sample.packet).toList, _,
    rfl, ?_, ?_⟩
  · cases (t.reading i).1 <;> rfl
  · cases (t.reading i).1 <;> rfl

/-- The parts before the status. -/
theorem beforeStatus_awaits (i : Iteration) (hr : t.Ready) :
    ∃ u, t.beforeStatus i = .ok u ∧ Awaits t u ∧ loop i t = statusStep i u := by
  rcases pollCommand_responds t.handlers i.arrived (t.imu.facing i.command) hr.client with
    ⟨effects, client, imu, hpoll, -, hresponds⟩
  refine ⟨(recoverStep i (t.polled effects client imu)).sampled i, ?_, ?_, ?_⟩
  · rw [Teensy.beforeStatus, pollStep, hpoll]
    rfl
  · exact ((awaits_polled hr hresponds).trans (awaits_recoverStep i _)).trans (awaits_sampled i _)
  · rw [loop, pollStep, hpoll]
    simp only [Cpp.ok_bind]
    rw [← Teensy.polled, sampleStep_eq, Cpp.ok_bind]

/-! ### The history -/

variable {s s' : Stamped}

theorem sentTimes_concat (log : List Stamp) (x : Stamp) :
    sentTimes (log ++ [x]) = sentTimes log ++ x.sent.toList := by
  rw [sentTimes, List.filterMap_append]
  cases hx : x.sent with
  | none => rw [List.filterMap_cons_none hx]; rfl
  | some time => rw [List.filterMap_cons_some hx]; rfl

/-- The program agrees with its history, in which statuses are on time. -/
structure Stamped.Agrees (s : Stamped) : Prop where
  last : s.teensy.lastCalStatusMs = UInt32.ofNat (lastSent s.log)
  past : lastSent s.log ≤ s.teensy.imu.imu.now
  bound : ∀ time ∈ sentTimes s.log, time ≤ lastSent s.log
  spaced : (sentTimes s.log).Pairwise fun time later ↦ time + 100 ≤ later
  onTime : Throughout OnTime s.log
  count : ∃ ms, Puts ms s.teensy.outputs ∧ ms.countP isStatus = (sentTimes s.log).length

/-- A status is due by the clock just when it is by the time. -/
theorem due_iff {time : Nat} (hlast : t.lastCalStatusMs = UInt32.ofNat time)
    (hpast : time ≤ t.imu.imu.now) : t.Due i ↔
      t.imu.calibrating = true ∧ 100 ≤ ((t.clock i).2.imu.now - time) % 2 ^ 32 := by
  have hle : time ≤ (t.clock i).2.imu.now :=
    Nat.le_trans hpast (kept_millis (t.imu.facing i.status)).now
  have hclock : (t.clock i).1 = UInt32.ofNat (t.clock i).2.imu.now := rfl
  rw [Teensy.Due, hclock, hlast, ge_iff_le, UInt32.le_iff_toNat_le, toNat_sub_ofNat hle]
  rfl

/-- A status that is sent follows the ones before. -/
private theorem agrees_sent {u : Teensy} {log : List Stamp} (h : Stamped.Agrees ⟨t, log⟩)
    (hu : Awaits t u) (hdue : u.Due i) : Stamped.Agrees ⟨u.reported i, log ++ [stampOf i u]⟩ := by
  have hpast : lastSent log ≤ u.imu.imu.now := Nat.le_trans h.past hu.now
  have hlast : u.lastCalStatusMs = UInt32.ofNat (lastSent log) := hu.lastCalStatusMs.trans h.last
  have hchecked : u.imu.imu.now ≤ (u.clock i).2.imu.now := (kept_millis (u.imu.facing i.status)).now
  have hnow : (u.clock i).2.imu.now ≤ (u.reported i).imu.imu.now := (kept_millis (u.clock i).2).now
  have hcond := (due_iff hlast hpast).mp hdue
  have hsent : (stampOf i u).sent = some (u.reported i).imu.imu.now := if_pos hdue
  have htimes : sentTimes (log ++ [stampOf i u]) =
      sentTimes log ++ [(u.reported i).imu.imu.now] := by
    rw [sentTimes_concat, hsent]
    rfl
  have hnew : lastSent (log ++ [stampOf i u]) = (u.reported i).imu.imu.now := by
    rw [lastSent, htimes, List.getLast?_concat]
    rfl
  -- a distance that is known up to whole turns is no less than what is left of it
  have hspace : lastSent log + 100 ≤ (u.reported i).imu.imu.now := by
    have hmod := Nat.mod_le ((u.clock i).2.imu.now - lastSent log) (2 ^ 32)
    have := hcond.2
    omega
  refine ⟨?_, ?_, ?_, ?_, ?_, ?_⟩
  · simp only [hnew]
    rfl
  · exact Nat.le_of_eq hnew
  · intro time ht
    simp only [htimes] at ht
    simp only [hnew]
    rcases List.mem_append.mp ht with ht | ht
    · have := h.bound time ht
      simp only at this
      omega
    · exact Nat.le_of_eq (List.mem_singleton.mp ht)
  · simp only [htimes]
    refine List.pairwise_append.mpr ⟨h.spaced, List.pairwise_singleton _ _, ?_⟩
    intro time ht later hlater
    rw [List.mem_singleton.mp hlater]
    have := h.bound time ht
    simp only at this
    omega
  · refine h.onTime.concat ⟨?_, Nat.le_trans hpast hchecked, ?_⟩
    · rw [hsent]
      exact ⟨fun _ ↦ hcond, fun _ ↦ rfl⟩
    · intro time ht
      rw [hsent] at ht
      cases ht
      exact hnow
  · rcases h.count with ⟨ms, hputs, hcount⟩
    rcases hu.outputs with ⟨ms', later, houtputs, hputs', hcount'⟩
    refine ⟨ms ++ ms' ++ [u.imu.statusPacket], ?_, ?_⟩
    · have := (hputs.append hputs').append (puts_packetOutput u.imu.statusPacket)
      rw [← houtputs] at this
      exact this
    · simp only [htimes]
      rw [List.countP_append, List.countP_append, hcount', hcount, List.length_append]
      rfl

/-- An iteration that sends none leaves everything as it was. -/
private theorem agrees_unsent {u : Teensy} {log : List Stamp} {imu : BNO085}
    (h : Stamped.Agrees ⟨t, log⟩) (hu : Awaits t u) (hdue : ¬ u.Due i)
    (himu : u.imu.imu.now ≤ imu.imu.now) :
    Stamped.Agrees ⟨{ u with imu }, log ++ [stampOf i u]⟩ := by
  have hpast : lastSent log ≤ u.imu.imu.now := Nat.le_trans h.past hu.now
  have hlast : u.lastCalStatusMs = UInt32.ofNat (lastSent log) := hu.lastCalStatusMs.trans h.last
  have hsent : (stampOf i u).sent = none := if_neg hdue
  have htimes : sentTimes (log ++ [stampOf i u]) = sentTimes log := by
    rw [sentTimes_concat, hsent]
    exact List.append_nil _
  have hsame : lastSent (log ++ [stampOf i u]) = lastSent log := by rw [lastSent, htimes, lastSent]
  refine ⟨?_, ?_, ?_, ?_, ?_, ?_⟩
  · rw [hsame]
    exact hlast
  · rw [hsame]
    exact Nat.le_trans hpast himu
  · simp only [hsame, htimes]
    exact h.bound
  · simp only [htimes]
    exact h.spaced
  · refine h.onTime.concat ⟨?_, ?_, ?_⟩
    · rw [hsent]
      exact ⟨nofun, fun hcond ↦ absurd ((due_iff hlast hpast).mpr hcond) hdue⟩
    · exact Nat.le_trans hpast (kept_millis (u.imu.facing i.status)).now
    · rw [hsent]
      nofun
  · rcases h.count with ⟨ms, hputs, hcount⟩
    rcases hu.outputs with ⟨ms', later, houtputs, hputs', hcount'⟩
    refine ⟨ms ++ ms', ?_, ?_⟩
    · have := hputs.append hputs'
      rw [← houtputs] at this
      exact this
    · simp only [htimes]
      rw [List.countP_append, hcount', hcount, Nat.add_zero]

/-- When the clock is read in `statusStep` or not. -/
private theorem statusStep_unsent {u : Teensy} (hdue : ¬ u.Due i) :
    ∃ imu, statusStep i u = .ok { u with imu } ∧ u.imu.imu.now ≤ imu.imu.now := by
  rw [statusStep]
  split
  · next hc =>
    simp only
    rw [← Teensy.clock, if_neg fun hd ↦ hdue ⟨hc, hd⟩]
    exact ⟨_, rfl, (kept_millis (u.imu.facing i.status)).now⟩
  · exact ⟨u.imu, rfl, Nat.le_refl _⟩

/-- A step keeps the history right, and is a step of the program. -/
theorem agrees_act (i : Iteration) (hr : s.teensy.Ready) (hs : s.Agrees) :
    ∃ s', s.act i = some s' ∧ step i s.teensy = some s'.teensy ∧ s'.Agrees := by
  rcases beforeStatus_awaits i hr with ⟨u, hbefore, hu, hloop⟩
  have hact : s.act i =
      (statusStep i u).toOption.bind fun t ↦ some ⟨t, s.log ++ [stampOf i u]⟩ := by
    rw [Stamped.act, hbefore]
    rfl
  rw [step, hloop, hact]
  by_cases hdue : u.Due i
  · rw [statusStep_of_due hdue]
    exact ⟨_, rfl, rfl, agrees_sent hs hu hdue⟩
  · rcases statusStep_unsent hdue with ⟨imu, hstatus, himu⟩
    rw [hstatus]
    exact ⟨_, rfl, rfl, agrees_unsent hs hu hdue himu⟩

/-- Every run of the program is one with its history, which is right. -/
theorem agrees_run (is : List Iteration) (hr : s.teensy.Ready) (hs : s.Agrees)
    (h : Transition.run step is s.teensy = some t') :
    ∃ log, Transition.run Stamped.act is s = some ⟨t', log⟩ ∧ Stamped.Agrees ⟨t', log⟩ := by
  induction is generalizing s with
  | nil =>
    cases h
    exact ⟨s.log, rfl, hs⟩
  | cons i is ih =>
    rcases agrees_act i hr hs with ⟨s₁, hact, hstep, hs₁⟩
    rw [Transition.run, hstep] at h
    rcases ih (ready_step hstep hr) hs₁ h with ⟨log, hrun, hlog⟩
    refine ⟨log, ?_, hlog⟩
    rw [Transition.run, hact]
    exact hrun

/-- After `setup` no status was sent. -/
theorem agrees_setup {startup : Startup} {powerOnConfig : UInt8}
    (h : setup startup (.start powerOnConfig) = .ok (some t)) : Stamped.Agrees ⟨t, []⟩ :=
  have houtputs := setup_outputs h
  ⟨houtputs.2.2, Nat.zero_le _, nofun, List.Pairwise.nil, throughout_nil, [], houtputs.1, rfl⟩

/-- In every run of `setup` and `loop`, a status is sent in an iteration just when the firmware is
in its calibration mode, as `calibrating()` tells, and 100 ms or more have passed since the last
one, up to whole turns of the clock; successive statuses are 100 ms or more apart; and no others
are on the port. -/
theorem statuses_on_time (powerOnConfig : UInt8) (startup : Startup) (t t' : Teensy)
    (is : List Iteration) (hsetup : setup startup (.start powerOnConfig) = .ok (some t))
    (h : Transition.run step is t = some t') :
    ∃ log, Transition.run Stamped.act is ⟨t, []⟩ = some ⟨t', log⟩ ∧ Throughout OnTime log ∧
      (sentTimes log).Pairwise (fun time later ↦ time + 100 ≤ later) ∧
      (packetsOf t'.outputs).countP isStatus = (sentTimes log).length := by
  rcases agrees_run is (s := ⟨t, []⟩) (setup_spec hsetup).1 (agrees_setup hsetup) h with
    ⟨log, hrun, hlog⟩
  rcases hlog.count with ⟨ms, hputs, hcount⟩
  refine ⟨log, hrun, hlog.onTime, hlog.spaced, ?_⟩
  rw [hputs.packetsOf_eq, hcount]

/-- An iteration at whose status the clock is read after some time. -/
def afterMs (elapsed : Nat) : Iteration := ⟨[], [], [], [], [{ Moment.quiet with elapsed }]⟩

/-- A start, and four iterations after it, of which the third reads a clock that has turned by 60
ms more than a whole turn since the last status. -/
def fiveChecks : List Iteration :=
  [commandArrives .calibrationStart [], afterMs 60, afterMs 60, afterMs (2 ^ 32 + 60), afterMs 60]

theorem statuses_on_time_fiveChecks : ∃ t t' log, setup ⟨[], []⟩ (.start 0) = .ok (some t) ∧
    Transition.run step fiveChecks t = some t' ∧
    sentTimes log = [100, 220, 2 ^ 32 + 340] ∧ Throughout OnTime log ∧
    (packetsOf t'.outputs).countP isStatus = 3 := by
  rcases exists_setup (s := ⟨[], []⟩) (t := .start 0) (by decide +kernel) with ⟨t, ht⟩
  rcases exists_run (setup_spec ht).1 fiveChecks with ⟨t', ht'⟩
  rcases statuses_on_time 0 ⟨[], []⟩ t t' fiveChecks ht ht' with ⟨log, hrun, honTime, -, hcount⟩
  have htimes : (do
      let r ← setup ⟨[], []⟩ (.start 0)
      pure ((Transition.run Stamped.act fiveChecks ⟨r.getD (.start 0), []⟩).map
        fun s ↦ sentTimes s.log)) =
      (.ok (some [100, 220, 2 ^ 32 + 340]) : Cpp (Option (List Nat))) := by decide +kernel
  rw [ht, Cpp.ok_bind, Option.getD_some, hrun] at htimes
  have hsent : sentTimes log = [100, 220, 2 ^ 32 + 340] := Option.some.inj (Except.ok.inj htimes)
  refine ⟨t, t', log, ht, ht', hsent, honTime, ?_⟩
  rw [hcount, hsent]
  rfl

end BlueROV2.Firmware
