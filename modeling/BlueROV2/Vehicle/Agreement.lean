import BlueROV2.Vehicle.Refinement

/-!
# What the answer to a service call says about the Teensy

Library `Vehicle`. The mode of the IMU follows from the commands that were executed, and in a
session of its own `send_command` returns what the last of them returned. So while nothing else
is commanded, its caller knows the mode.
-/

namespace BlueROV2.Vehicle

open BlueROV2.Base BlueROV2.Wire
open Driver (Params report)
open Firmware (BNO085 CommandHandlers Iteration afterHandle afterResponse commandHandler handledBy
  handlerFor)

/-! ### The mode and the commands that were executed -/

/-- The commands that were executed, with their results, in order. -/
def handles (s : State) : List (CommandId × CommandResponse) :=
  s.pi.executed.flatMap fun x ↦ handledBy x.2

/-- The commands that were executed lead to the mode of the IMU. -/
structure Moded (s : State) : Prop where
  masked : s.teensy.imu.Masked
  handles : Transition.run afterHandle (handles s) false = some s.teensy.imu.calibrating

variable {handlers : CommandHandlers BNO085} {s s' : State} {i : Iteration}

/-- Steps that execute nothing and stay in the mode. -/
theorem Moded.of_eq (h : Moded s) (hexecuted : s'.pi.executed = s.pi.executed)
    (hmode : s.teensy.imu.Masked →
      s'.teensy.imu.Masked ∧ s'.teensy.imu.calibrating = s.teensy.imu.calibrating) : Moded s' := by
  refine ⟨(hmode h.masked).1, ?_⟩
  rw [Vehicle.handles, hexecuted, (hmode h.masked).2]
  exact h.handles

/-- The parts of `loop` without a command stay in the mode. -/
theorem Moded.goesOn (h : Moded s) (hgoes : GoesOn s s') : Moded s' :=
  h.of_eq (congrArg Session.State.executed hgoes.pi) hgoes.teensy.mode

/-- The driver executes nothing itself. -/
theorem executed_onPi {l : Session.Label} {pi pi' : Session.State Unit}
    (hl : l.onPi = true) (h : Session.step noHandlers l pi = some pi') :
    pi'.executed = pi.executed := by
  cases Session.takes_of_step h with
  | poll | deliver | loseResponse => cases hl
  | _ => rfl

/-- A command that is polled leads on as it is answered. -/
private theorem moded_command (hi : Inv handlers s)
    (hh : ∀ commandId, handlerFor handlers commandId = commandHandler commandId) (hm : Moded s)
    (h : s.command i = some s') : Moded s' := by
  unfold State.command at h
  split at h
  · next f uplink _ hup =>
    split at h
    · next effects client imu hpoll =>
      cases h
      have hidle : s.teensy.client.Idle := hi.session.idle
      have hsound : s.teensy.client.Sound := ⟨[], hidle.2, List.not_mem_nil⟩
      rcases Firmware.pollCommand_responds s.teensy.handlers f.bytes
        (s.teensy.imu.facing i.command) hsound with ⟨effects', client', imu', hpoll', -, hresponds⟩
      cases hpoll.symm.trans hpoll'
      rw [hi.registered] at hresponds
      have hmasked : (s.teensy.imu.facing i.command).Masked := hm.masked
      have hmode := Firmware.responds_mode hh hmasked hresponds
      refine ⟨hmode.1, ?_⟩
      rw [Vehicle.handles, List.flatMap_append, List.flatMap_singleton, Transition.run_append,
        ← Vehicle.handles, hm.handles]
      exact hmode.2
    · cases h
  · cases h

/-- Every step leads on. -/
theorem moded_step (l : Label) (h : step l s = some s') (hi : Inv handlers s)
    (hh : ∀ commandId, handlerFor handlers commandId = commandHandler commandId) (hm : Moded s) :
    Moded s' := by
  cases l with
  | pi l =>
    simp only [step, State.onPi, Option.ite_none_right_eq_some, Option.map_eq_some_iff] at h
    rcases h with ⟨hl, pi, hpi, rfl⟩
    exact hm.of_eq (executed_onPi hl hpi) fun hx ↦ ⟨hx, rfl⟩
  | activate | deactivate =>
    simp only [step, State.activate, Option.ite_none_right_eq_some] at h
    rcases h with ⟨-, h⟩
    cases h
    exact ⟨hm.masked, hm.handles⟩
  | command i => exact moded_command hi hh hm h
  | noCommand i =>
    cases noCommand_eq hi h
    exact ⟨hm.masked, hm.handles⟩
  | recovery i => exact hm.goesOn (goesOn_recovery h)
  | sample i => exact hm.goesOn (goesOn_sample h)
  | status i => exact hm.goesOn (goesOn_status h)
  | deliver now =>
    cases delivers_of_deliver hi h with
    | response n bytes downlink hdown hstep hrest hexecuted hteensy =>
      refine hm.of_eq hexecuted fun hx ↦ ?_
      rw [hteensy]
      exact ⟨hx, rfl⟩
    | telemetry x downlink hdown => exact ⟨hm.masked, hm.handles⟩
  | lose n =>
    simp only [step, Option.ite_none_right_eq_some] at h
    rcases h with ⟨-, h⟩
    cases h
    exact ⟨hm.masked, hm.handles⟩

/-! ### Within a session -/

/-- A step within a session: no lifecycle transition, and no response that arrives 256 or more
attempts after its own. -/
def Within : Label → State → Prop
  | .pi l, _ => l.lifecycle = false
  | .deliver _, s => ∀ f ∈ s.downlink.head?, ∀ n ∈ f.attempt, s.pi.attempts.length - 1 - n < 256
  | _, _ => True

instance instDecidableWithin : ∀ (l : Label) (s : State), Decidable (Within l s)
  | .pi l, _ => inferInstanceAs (Decidable (l.lifecycle = false))
  | .deliver _, s => inferInstanceAs (Decidable (∀ f ∈ s.downlink.head?, ∀ n ∈ f.attempt,
      s.pi.attempts.length - 1 - n < 256))
  | .activate, _ | .deactivate, _ | .command _, _ | .noCommand _, _ | .recovery _, _
  | .sample _, _ | .status _, _ | .lose _, _ => isTrue trivial

/-- A step other than a delivery is timely. -/
private theorem timely_of_ne {l : Session.Label} {pi : Session.State BNO085} (h : l ≠ .deliver) :
    Session.Timely l pi := fun hl ↦ absurd hl h

/-- The moves that such a step stands for are within the session. -/
private theorem timely_trace {l : Label} (h : Within l s) :
    Transition.Along (Session.move handlers) Session.Move.Timely (trace l s) (sessionOf s) := by
  have hworld (w : BNO085) : Transition.Along (Session.move handlers) Session.Move.Timely
      [.world w] (sessionOf s) := ⟨trivial, fun _ _ ↦ trivial⟩
  cases l with
  | pi l =>
    rw [trace]
    split
    · next hl =>
      refine ⟨⟨h, ?_⟩, fun _ _ ↦ trivial⟩
      rintro rfl
      cases hl
    · exact trivial
  | activate | deactivate => exact trivial
  | command i =>
    exact ⟨trivial, fun _ _ ↦ ⟨⟨rfl, timely_of_ne (by decide)⟩, fun _ _ ↦ trivial⟩⟩
  | noCommand i => exact hworld _
  | recovery i | sample i | status i =>
    rw [trace]
    cases step _ s with
    | none => exact trivial
    | some s' => exact hworld _
  | deliver now =>
    rw [trace]
    split
    · next n hn =>
      refine ⟨⟨rfl, fun _ g hg ↦ ?_⟩, fun _ _ ↦ trivial⟩
      rcases Option.bind_eq_some_iff.mp hn with ⟨f, hf, hattempt⟩
      rcases List.head?_eq_some_iff.mp hf with ⟨downlink, hdown⟩
      have hhead : (sessionOf s).downlink = ⟨n, f.bytes⟩ :: responses downlink := by
        change responses s.downlink = _
        rw [hdown, responses, List.filterMap_cons, hattempt]
        rfl
      rw [hhead] at hg
      cases hg
      exact h f hf n hattempt
    · exact trivial
  | lose n =>
    rw [trace]
    split
    · refine ⟨⟨rfl, timely_of_ne ?_⟩, fun _ _ ↦ trivial⟩
      intro hl
      cases hl
    · exact trivial

/-! ### What an answer tells -/

/-- What the answer of `send_command` tells about the mode. -/
structure Tells (r : Session.Return) (calibrating : Bool) : Prop where
  started : r.commandId = .calibrationStart → r.success = true → calibrating = true
  saved : r.commandId = .calibrationSave → r.success = true → calibrating = true
  stopped : r.commandId = .calibrationStop → r.success = true → calibrating = false
  refused : r.message = "The command is not valid in the Teensy's current calibration state" →
    r.commandId = .calibrationSave ∧ calibrating = false
  failed : r.message = "The Teensy reported a sensor error while executing the command" →
    (r.commandId = .calibrationStart ∧ calibrating = false) ∨
      (r.commandId = .calibrationSave ∧ calibrating = true) ∨
      r.commandId = .calibrationStop ∧ calibrating = true

/-- The answers that the machine gives, by the mode after them. -/
inductive Answered (calibrating : Bool) : CommandId → CommandResponse → Prop
  | changed : Answered calibrating (Firmware.commandFor calibrating) .ok
  | failed : Answered calibrating (Firmware.commandFor !calibrating) .sensorError
  | saved (r : CommandResponse) (hr : r = .ok ∨ r = .sensorError) (h : calibrating = true) :
      Answered calibrating .calibrationSave r
  | refused (h : calibrating = false) : Answered calibrating .calibrationSave .invalidState
  | unknown (commandId : CommandId) (h : commandHandler commandId = none) :
      Answered calibrating commandId .unknownCommand

/-- It gives no others. -/
theorem answered_of_afterResponse {commandId : CommandId} {r : CommandResponse}
    {before calibrating : Bool} (h : afterResponse commandId r before = some calibrating) :
    Answered calibrating commandId r := by
  cases hc : commandHandler commandId with
  | none =>
    simp only [Firmware.afterResponse_unknown hc, Option.ite_none_right_eq_some] at h
    rw [h.1]
    exact .unknown commandId hc
  | some handler =>
    rcases Firmware.commandHandler_eq_some hc with ⟨target, rfl, -⟩ | ⟨rfl, -⟩
    · rw [Firmware.afterResponse_commandFor] at h
      split at h
      · next hr =>
        cases h
        rw [hr]
        exact .changed
      · simp only [Option.ite_none_right_eq_some] at h
        rcases h with ⟨⟨hr, hne⟩, h⟩
        cases h
        have htarget : target = !before := by
          revert hne
          cases target <;> cases before <;> decide
        rw [hr, htarget]
        exact .failed
    · cases before with
      | true =>
        have hsaved : (if r = .ok ∨ r = .sensorError then some true else none) =
            some calibrating := h
        simp only [Option.ite_none_right_eq_some] at hsaved
        exact .saved r hsaved.1 (Option.some.inj hsaved.2).symm
      | false =>
        have hrefused : (if r = .invalidState then some false else none) = some calibrating := h
        simp only [Option.ite_none_right_eq_some] at hrefused
        rw [hrefused.1]
        exact .refused (Option.some.inj hrefused.2).symm

/-- What is reported of an answer tells about the mode. -/
theorem tells_of_answered {commandId : CommandId} {r : CommandResponse} {calibrating : Bool}
    (h : Answered calibrating commandId r) :
    Tells ⟨commandId, (report r).1, (report r).2⟩ calibrating := by
  cases h with
  | changed | failed => cases calibrating <;> constructor <;> decide
  | saved r hr h =>
    rw [h]
    rcases hr with rfl | rfl
    · constructor <;> decide
    · constructor <;> decide
  | refused h =>
    rw [h]
    constructor <;> decide
  | unknown commandId h =>
    have hfailed : (report .unknownCommand).1 ≠ true := by decide
    have hrefused : (report .unknownCommand).2 ≠
        "The command is not valid in the Teensy's current calibration state" := by decide
    have herror : (report .unknownCommand).2 ≠
        "The Teensy reported a sensor error while executing the command" := by decide
    exact ⟨fun _ hs ↦ absurd hs hfailed, fun _ hs ↦ absurd hs hfailed,
      fun _ hs ↦ absurd hs hfailed, fun hm ↦ absurd hm hrefused, fun hm ↦ absurd hm herror⟩

/-- The last command that was executed is answered by the machine. -/
private theorem answered_of_last (hm : Moded s)
    (hh : ∀ commandId, handlerFor handlers commandId = commandHandler commandId) {future : Nat}
    {effects : List Firmware.Effect} (hlast : s.pi.executed.getLast? = some (future, effects))
    {commandId : CommandId} {r : CommandResponse}
    (hproduces : Session.Produces handlers effects commandId r) :
    Answered s.teensy.imu.calibrating commandId r := by
  rcases List.getLast?_eq_some_iff.mp hlast with ⟨before, hbefore⟩
  have hrun := hm.handles
  rw [handles, hbefore, List.flatMap_append, List.flatMap_singleton, Transition.run_append] at hrun
  rcases Option.bind_eq_some_iff.mp hrun with ⟨mode, -, hmode⟩
  rcases hproduces with hone | ⟨hnone, -, rfl⟩
  · simp only [hone, Transition.run, Option.bind_eq_some_iff] at hmode
    rcases hmode with ⟨mode', hafter, hsame⟩
    cases hsame
    exact answered_of_afterResponse hafter
  · rw [Firmware.findHandler_eq, hh] at hnone
    exact .unknown commandId (Except.ok.inj hnone)

/-- What holds of every state of the system that is reached. -/
theorem moded_run {params : Params} {powerOnConfig : UInt8} {startup : Firmware.Startup}
    {t : Firmware.Teensy} {ls : List Label}
    (hsetup : Firmware.setup startup (.start powerOnConfig) = .ok (some t))
    (h : Transition.run step ls (boot params t) = some s) : Inv t.handlers s ∧ Moded s := by
  have hready := (Firmware.setup_spec hsetup).1
  have hmasked := Firmware.masked_setup hsetup
  have hboot : Moded (boot params t) := ⟨hmasked.1, congrArg some hmasked.2.symm⟩
  refine Transition.invariant (I := fun s ↦ Inv t.handlers s ∧ Moded s) ?_
    ⟨inv_boot params hsetup, hboot⟩ h
  exact fun l s s' hs hi ↦
    ⟨(simulates t.handlers).keeps l s s' hs hi.1, moded_step l hs hi.1 hready.handlers hi.2⟩

/-- What belongs to a session is kept by a step within it. -/
theorem own_within {l : Label} (hl : Within l s) (h : step l s = some s') (hi : Inv handlers s)
    (hown : Session.Own (sessionOf s)) : Session.Own (sessionOf s') :=
  ((simulates handlers).invariant_step (J := fun s ↦ Session.Inv handlers s ∧ Session.Own s)
    Session.own_move hi (timely_trace hl) h ⟨hi.session, hown⟩).2

/-- What is returned of a response tells the mode. -/
theorem tells_of_ready (hi : Inv handlers s) (hown : Session.Own (sessionOf s)) (hm : Moded s)
    (hh : ∀ commandId, handlerFor handlers commandId = commandHandler commandId)
    (h : step (.pi .ready) s = some s') :
    ∃ r, s'.pi.returned = s.pi.returned ++ [r] ∧ Tells r s'.teensy.imu.calibrating ∧
      s'.pi.uplink = [] ∧ s'.pi.call = none := by
  have hmove : Session.step handlers .ready (sessionOf s) = some (sessionOf s') := sessionOf_onPi h
  rcases hown.returnsOwnResult hi.session _ hmove with
    ⟨commandId, -, -, future, -, effects, r, -, -, -, -, -, -, hlast, hproduces, hup, heq⟩
  have hteensy : s'.teensy = s.teensy := by
    simp only [step, State.onPi, Option.ite_none_right_eq_some, Option.map_eq_some_iff] at h
    rcases h with ⟨-, pi, -, rfl⟩
    rfl
  refine ⟨⟨commandId, (report r).1, (report r).2⟩, ?_, ?_, ?_, ?_⟩
  · exact congrArg Session.State.returned heq
  · rw [hteensy]
    exact tells_of_answered (answered_of_last hm hh hlast hproduces)
  · exact (congrArg Session.State.uplink heq).trans hup
  · exact congrArg Session.State.call heq

/-- In the whole system, with telemetry on the same link, resets and refusals of the IMU, and any
loss of frames: whatever `send_command` returns of a response, in a session of its own in which
none arrives 256 or more attempts late, tells the mode that the Teensy is in, and no command is
on its way that could change it. -/
theorem answers_tell_mode (params : Params) (powerOnConfig : UInt8) (startup : Firmware.Startup)
    (t : Firmware.Teensy) (ls₀ ls : List Label) (s₀ s s' : State)
    (hsetup : Firmware.setup startup (.start powerOnConfig) = .ok (some t))
    (h₀ : Transition.run step ls₀ (boot params t) = some s₀)
    (hfresh : Session.Fresh (sessionOf s₀)) (hall : Transition.Along step Within ls s₀)
    (h : Transition.run step ls s₀ = some s) (hready : step (.pi .ready) s = some s') :
    ∃ r, s'.pi.returned = s.pi.returned ++ [r] ∧ Tells r s'.teensy.imu.calibrating ∧
      s'.pi.uplink = [] := by
  have hi₀ := (moded_run hsetup h₀).1
  have hown := Transition.invariant_run
    (I := fun s ↦ Inv t.handlers s ∧ Session.Own (sessionOf s))
    (fun l s s' hl hs hi ↦
      ⟨(simulates t.handlers).keeps l s s' hs hi.1, own_within hl hs hi.1 hi.2⟩)
    ⟨hi₀, hfresh.own hi₀.session⟩ hall h
  have hmoded : Moded s := by
    have hwhole : Transition.run step (ls₀ ++ ls) (boot params t) = some s := by
      rw [Transition.run_append, h₀]
      exact h
    exact (moded_run hsetup hwhole).2
  rcases tells_of_ready hown.1 hown.2 hmoded (Firmware.setup_spec hsetup).1.handlers hready with
    ⟨r, hreturned, htells, hup, -⟩
  exact ⟨r, hreturned, htells, hup⟩

/-- A Teensy after a `setup` at which nothing is refused. -/
def started : Firmware.Teensy :=
  ((Firmware.setup ⟨[], []⟩ (.start 0)).toOption.getD none).getD (.start 0)

theorem setup_started : Firmware.setup ⟨[], []⟩ (.start 0) = .ok (some started) := by
  rcases Firmware.exists_setup (s := ⟨[], []⟩) (t := .start 0) (by decide +kernel) with ⟨t, ht⟩
  rw [started, ht]
  rfl

/-- An iteration at which nothing happens. -/
def uneventful : Iteration := ⟨[], [], [], [], []⟩

/-- Parameters that no step of this file depends on. -/
def someParams : Params := ⟨"imu", #v[0, 0, 0], #v[0, 0, 0], #v[0, 0, 0]⟩

/-- The first answer to a start is lost, and the status behind it arrives; the second one is
delivered. -/
def retriedStart : List Label := [
  .pi (.call .calibrationStart 0), .pi .attempt, .pi .send, .command uneventful,
  .recovery uneventful, .sample uneventful, .status uneventful, .lose 0, .deliver 0, .pi .timeout,
  .pi .attempt, .pi .send, .command uneventful, .deliver 0]

theorem answers_tell_mode_retriedStart : ∃ s₀ s s',
    Transition.run step [.pi (.configure 3)] (boot someParams started) = some s₀ ∧
    Transition.run step retriedStart s₀ = some s ∧ step (.pi .ready) s = some s' ∧
    ∃ r, s'.pi.returned = s.pi.returned ++ [r] ∧ Tells r s'.teensy.imu.calibrating ∧
      s'.pi.uplink = [] := by
  obtain ⟨s₀, h₀, hfresh, hall, hrun⟩ : ∃ s₀,
      Transition.run step [.pi (.configure 3)] (boot someParams started) = some s₀ ∧
      Session.Fresh (sessionOf s₀) ∧ Transition.Along step Within retriedStart s₀ ∧
      ((Transition.run step retriedStart s₀).bind (step (.pi .ready))).isSome = true :=
    ⟨_, rfl, ⟨nofun, rfl, rfl, rfl⟩, by decide +kernel, by decide +kernel⟩
  rcases Option.isSome_iff_exists.mp hrun with ⟨s', hs'⟩
  rcases Option.bind_eq_some_iff.mp hs' with ⟨s, hs, hready⟩
  exact ⟨s₀, s, s', h₀, hs, hready, answers_tell_mode someParams 0 ⟨[], []⟩ started
    [.pi (.configure 3)] retriedStart s₀ s s' setup_started h₀ hfresh hall hs hready⟩

end BlueROV2.Vehicle
