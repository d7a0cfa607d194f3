import BlueROV2.Base.Exchange
import BlueROV2.Tool.Calibration
import BlueROV2.Vehicle.Progress
import BlueROV2.Vehicle.Services

/-!
# The tool and the vehicle

Library `Tool`. The calibration tool is the only client of the services, and all that it knows of
the Teensy is what they answer. From its phase it can still be told which mode the firmware is in,
though it may be interrupted while it waits for an answer, and then goes on without it.
-/

namespace BlueROV2.Tool

open BlueROV2.Base BlueROV2.Wire
open Firmware (BNO085 CommandHandlers commandHandler handlerFor)
open Vehicle (Exchange Inv Moded Still Within boot exchanges sessionOf)

/-- The command that the driver sends for a service; `driver.cpp:135–151`. -/
def Service.commandId : Service → CommandId
  | .start => .calibrationStart
  | .save => .calibrationSave
  | .stop => .calibrationStop

/-- What passes between the tool and the driver when the tool acts. -/
def Action.passes : Action → Option Exchange
  | .print _ | .call _ => none
  | .request service => some (.request service.commandId 0)
  | .answered service success => some (.answer service.commandId success)

/-- What the driver and the tool have passed: the requests reach the driver in the order in which
they are made, and may not have reached it yet; an answer may come when the tool no longer waits for
it, or may not have come yet. -/
def Passed : List Exchange → List Exchange → Prop :=
  Transition.Matched (·.isAnswer = true) (·.isAnswer = false)

/-- The calibration was started, and `stop` was not called. -/
def Phase.calibrates : Phase → Bool
  | .started | .calling .save | .requested .save => true
  | _ => false

/-- What can be told of the vehicle from the phase of the tool, and from the mode before. -/
def Agrees (before : Bool) : Phase → Vehicle.State → Prop
  | .idle, s | .calling .start, s => Still before s
  | .started, s | .calling .save, s | .requested .save, s => Still true s
  | .over true, s => Still false s
  | _, _ => True

/-- What holds of the tool and the vehicle together. -/
structure Together (handlers : CommandHandlers BNO085) (before : Bool) (p : Phase)
    (s : Vehicle.State) : Prop where
  inv : Inv handlers s
  own : Session.Own (sessionOf s)
  moded : Moded s
  agrees : Agrees before p s

variable {handlers : CommandHandlers BNO085} {before : Bool} {p p' : Phase}
  {s s' : Vehicle.State} {l : Vehicle.Label}

theorem Agrees.still (h : Agrees before p s)
    (hs : ∀ calibrating, Still calibrating s → Still calibrating s') : Agrees before p s' := by
  unfold Agrees at h ⊢
  split at h <;> first | exact hs _ h | trivial

/-- The tool goes on for itself, or makes a request that does not reach the driver. -/
theorem Agrees.act {a : Action} (h : Agrees before p s)
    (hmissed : ∀ e ∈ a.passes, e.isAnswer = false) (ha : after a p = some p') :
    Agrees before p' s := by
  cases a with
  | print text =>
    cases ha
    exact h
  | call service =>
    cases service with
    | start =>
      simp only [after, Option.ite_none_right_eq_some] at ha
      rcases ha with ⟨rfl, ha⟩
      cases ha
      exact h
    | save =>
      simp only [after, Option.ite_none_right_eq_some] at ha
      rcases ha with ⟨rfl, ha⟩
      cases ha
      exact h
    | stop =>
      simp only [after, Option.ite_none_right_eq_some] at ha
      cases ha.2
      trivial
  | request service =>
    simp only [after, Option.ite_none_right_eq_some] at ha
    rcases ha with ⟨rfl, ha⟩
    cases ha
    cases service with
    | start | stop => trivial
    | save => exact h
  | answered service success => cases hmissed _ rfl

/-- A success is answered in the mode that it tells. -/
private theorem still_of_answer {r : Session.Return} {calibrating : Bool} (hi : Inv handlers s)
    (hown : Session.Own (sessionOf s)) (hm : Moded s)
    (hh : ∀ commandId, handlerFor handlers commandId = commandHandler commandId)
    (h : Vehicle.step (.pi .ready) s = some s') (hlast : r ∈ s'.pi.returned.getLast?)
    (htells : ∀ mode, Vehicle.Tells r mode → mode = calibrating) : Still calibrating s' := by
  rcases Vehicle.tells_of_ready hi hown hm hh h with ⟨r', hr', htold, hup, hcall⟩
  rw [hr', List.getLast?_concat] at hlast
  cases hlast
  refine ⟨⟨fun c arg n phase hc ↦ ?_, fun f hf ↦ ?_⟩, htells _ htold⟩
  · have hsame : (sessionOf s').call = s'.pi.call := rfl
    rw [hsame, hcall] at hc
    cases hc
  · have hsame : (sessionOf s').uplink = s'.pi.uplink := rfl
    rw [hsame, hup] at hf
    cases hf

/-- Something passes between the tool and the vehicle. -/
private theorem Together.agrees_both {a : Action} {e : Exchange} (h : Together handlers before p s)
    (hh : ∀ commandId, handlerFor handlers commandId = commandHandler commandId)
    (hm' : Moded s') (hs : Vehicle.step l s = some s') (hpasses : Vehicle.Passes s' l [e])
    (ha : a.passes = some e) (hact : after a p = some p') : Agrees before p' s' := by
  have hstill (hsave : ∀ c ∈ l.called, c = .calibrationSave) (hs₀ : Still true s) :
      Still true s' := Vehicle.still_step hsave hs h.inv h.moded hm' hs₀
  cases a with
  | print | call => cases ha
  | request service =>
    simp only [after, Option.ite_none_right_eq_some] at hact
    rcases hact with ⟨rfl, hact⟩
    cases hact
    cases ha
    cases hpasses with
    | request =>
      cases service with
      | start | stop => trivial
      | save =>
        refine hstill (fun c hc ↦ ?_) h.agrees
        cases hc
        rfl
  | answered service success =>
    simp only [after, Option.ite_none_right_eq_some] at hact
    rcases hact with ⟨rfl, hact⟩
    cases hact
    generalize hcommand : service.commandId = commandId at *
    simp only [Action.passes, hcommand] at ha
    cases ha
    cases hpasses with
    | answer r hcalled hlast hready =>
      cases service with
      | save =>
        refine hstill (fun c hc ↦ ?_) h.agrees
        rw [hcalled] at hc
        cases hc
      | start =>
        cases hsuccess : r.success with
        | false => trivial
        | true =>
          cases hready hsuccess
          exact still_of_answer h.inv h.own h.moded hh hs hlast
            fun mode htells ↦ htells.started hcommand.symm hsuccess
      | stop =>
        cases hsuccess : r.success with
        | false => trivial
        | true =>
          cases hready hsuccess
          exact still_of_answer h.inv h.own h.moded hh hs hlast
            fun mode htells ↦ htells.stopped hcommand.symm hsuccess

/-- The tool and the vehicle keep together, whatever they do for themselves and whatever passes
between them. -/
theorem exchanges_together
    (hh : ∀ commandId, handlerFor handlers commandId = commandHandler commandId) (before : Bool) :
    Transition.Exchanges after Action.passes Vehicle.step exchanges (·.isAnswer = true)
      (·.isAnswer = false) Within (Together handlers before) where
  keepsAct a p p' s hmissed ha h := ⟨h.inv, h.own, h.moded, h.agrees.act hmissed ha⟩
  keepsStep l p s s' hl hs hlost h := by
    have hm' := Vehicle.moded_step l hs h.inv hh h.moded
    refine ⟨(Vehicle.simulates handlers).keeps l s s' hs h.inv,
      Vehicle.own_within hl hs h.inv h.own, hm', h.agrees.still fun calibrating hstill ↦ ?_⟩
    -- a step that makes no request leaves the mode, and an answer that is lost tells nothing
    have hcalled : l.called = none := by
      have hpasses := Vehicle.passes_of_step hs
      generalize exchanges l s = es at hlost hpasses
      cases hpasses with
      | request => cases hlost _ List.mem_cons_self
      | nothing hcalled => exact hcalled
      | answer r hcalled => exact hcalled
    refine Vehicle.still_step (fun c hc ↦ ?_) hs h.inv h.moded hm' hstill
    rw [hcalled] at hc
    cases hc
  keepsBoth a l e p p' s s' hl hs hone ha hact h := by
    have hm' := Vehicle.moded_step l hs h.inv hh h.moded
    refine ⟨(Vehicle.simulates handlers).keeps l s s' hs h.inv,
      Vehicle.own_within hl hs h.inv h.own, hm', ?_⟩
    have hpasses := Vehicle.passes_of_step hs
    rw [hone] at hpasses
    exact h.agrees_both hh hm' hs hpasses ha hact
  single l p s s' h hs := by
    have hpasses := Vehicle.passes_of_step hs
    generalize exchanges l s = es at hpasses ⊢
    cases hpasses with
    | request => exact Or.inr ⟨_, rfl⟩
    | nothing => exact Or.inl rfl
    | answer => exact Or.inr ⟨_, rfl⟩

/-- When the tool is the only client of the services, in a session in which no response arrives 256
or more attempts late, and whenever the tool is interrupted: the firmware stays in its mode until
`start` is called; while the tool goes through the stages of a calibration that was started, and
while it saves it, however often the responses to that are lost, the firmware is in its calibration
mode; and when the tool has been told that the calibration is stopped, the firmware is out of that
mode, and stays so. -/
theorem tool_knows_mode (params : Driver.Params) (powerOnConfig : UInt8)
    (startup : Firmware.Startup) (t : Firmware.Teensy) (ls₀ ls : List Vehicle.Label)
    (s₀ s : Vehicle.State) (tool : CalibrationTool) (w : Surroundings)
    (hsetup : Firmware.setup startup (.start powerOnConfig) = .ok (some t))
    (h₀ : Transition.run Vehicle.step ls₀ (boot params t) = some s₀)
    (hfresh : Session.Fresh (sessionOf s₀)) (hidle : s₀.pi.call = none)
    (hall : Transition.Along Vehicle.step Within ls s₀)
    (h : Transition.run Vehicle.step ls s₀ = some s)
    (hpassed : Passed (Transition.traces Vehicle.step exchanges ls s₀)
      ((run tool w).did.filterMap Action.passes)) :
    ∃ phase, Transition.run after (run tool w).did .idle = some phase ∧
      Ended (run tool w).result phase ∧
      (phase = .idle → s.teensy.imu.calibrating = s₀.teensy.imu.calibrating) ∧
      (phase.calibrates = true → s.teensy.imu.calibrating = true) ∧
      (phase = .over true → s.teensy.imu.calibrating = false) := by
  rcases leads_run tool w with ⟨phase, hrun, hended⟩
  rcases Vehicle.moded_run hsetup h₀ with ⟨hi₀, hm₀⟩
  have hh := (Firmware.setup_spec hsetup).1.handlers
  have hstill : Still s₀.teensy.imu.calibrating s₀ := by
    refine ⟨⟨fun c arg n phase hc ↦ ?_, fun f hf ↦ ?_⟩, rfl⟩
    · have hsame : (sessionOf s₀).call = s₀.pi.call := rfl
      rw [hsame, hidle] at hc
      cases hc
    · rw [hfresh.uplink] at hf
      cases hf
  have htogether := (exchanges_together hh s₀.teensy.imu.calibrating).run hall h hrun hpassed
    ⟨hi₀, hfresh.own hi₀.session, hm₀, hstill⟩
  refine ⟨phase, hrun, hended, ?_, ?_, ?_⟩
  · rintro rfl
    exact htogether.agrees.mode
  · intro hcalibrates
    have hagrees := htogether.agrees
    unfold Phase.calibrates at hcalibrates
    split at hcalibrates
    · exact hagrees.mode
    · exact hagrees.mode
    · exact hagrees.mode
    · cases hcalibrates
  · rintro rfl
    exact htogether.agrees.mode

/-- An operator who interrupts the tool while it waits for the response to `start`; that to `stop`
comes. -/
def interruptedWait : Surroundings := answering [typed "y", interrupted, typed ""]

/-- The calibration is started and stopped. -/
def startedAndStopped : List Vehicle.Label :=
  [.pi (.call .calibrationStart 0), .pi .attempt, .pi .send] ++ Vehicle.iteration ++
    [.deliver 0, .pi .ready, .pi (.call .calibrationStop 0), .deliver 0, .pi .attempt, .pi .send] ++
    Vehicle.iteration ++ [.deliver 0, .pi .ready]

/-- The driver answers both requests, and the tool takes the second answer only: it then knows that
the firmware is out of its calibration mode. -/
theorem tool_knows_mode_interrupted : ∃ s₀ s,
    Transition.run Vehicle.step [.pi (.configure 3)] (boot Vehicle.someParams Vehicle.started) =
      some s₀ ∧
    Transition.run Vehicle.step startedAndStopped s₀ = some s ∧
    Transition.traces Vehicle.step exchanges startedAndStopped s₀ =
      [.request .calibrationStart 0, .answer .calibrationStart true,
        .request .calibrationStop 0, .answer .calibrationStop true] ∧
    (run ⟨5000, fun _ ↦ ""⟩ interruptedWait).did.filterMap Action.passes =
      [.request .calibrationStart 0, .request .calibrationStop 0, .answer .calibrationStop true] ∧
    Transition.run after (run ⟨5000, fun _ ↦ ""⟩ interruptedWait).did .idle = some (.over true) ∧
    s.teensy.imu.calibrating = false := by
  obtain ⟨s₀, h₀, hfresh, hidle, hall, hrun, hvehicle⟩ : ∃ s₀,
      Transition.run Vehicle.step [.pi (.configure 3)] (boot Vehicle.someParams Vehicle.started) =
        some s₀ ∧ Session.Fresh (sessionOf s₀) ∧ s₀.pi.call = none ∧
      Transition.Along Vehicle.step Within startedAndStopped s₀ ∧
      (Transition.run Vehicle.step startedAndStopped s₀).isSome = true ∧
      Transition.traces Vehicle.step exchanges startedAndStopped s₀ =
        [.request .calibrationStart 0, .answer .calibrationStart true,
          .request .calibrationStop 0, .answer .calibrationStop true] :=
    ⟨_, rfl, ⟨nofun, rfl, rfl, rfl⟩, rfl, by decide +kernel, by decide +kernel, by decide +kernel⟩
  have htool : (run ⟨5000, fun _ ↦ ""⟩ interruptedWait).did.filterMap Action.passes = [
      .request .calibrationStart 0, .request .calibrationStop 0,
      .answer .calibrationStop true] := by
    decide +kernel
  have hover : Transition.run after (run ⟨5000, fun _ ↦ ""⟩ interruptedWait).did .idle =
      some (.over true) := by
    decide +kernel
  rcases Option.isSome_iff_exists.mp hrun with ⟨s, hs⟩
  have hpassed : Passed (Transition.traces Vehicle.step exchanges startedAndStopped s₀)
      ((run ⟨5000, fun _ ↦ ""⟩ interruptedWait).did.filterMap Action.passes) := by
    rw [hvehicle, htool]
    exact .both _ (.lost _ rfl (.both _ (.both _ .nil)))
  rcases tool_knows_mode Vehicle.someParams 0 ⟨[], []⟩ Vehicle.started [.pi (.configure 3)]
    startedAndStopped s₀ s ⟨5000, fun _ ↦ ""⟩ interruptedWait Vehicle.setup_started h₀ hfresh hidle
    hall hs hpassed with ⟨phase, hphase, -, -, -, hstopped⟩
  cases hover.symm.trans hphase
  exact ⟨s₀, s, h₀, hs, hvehicle, htool, hover, hstopped rfl⟩

end BlueROV2.Tool
