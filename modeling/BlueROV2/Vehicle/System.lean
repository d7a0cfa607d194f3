import BlueROV2.Driver.Telemetry
import BlueROV2.Firmware.Outputs
import BlueROV2.Session.Interference

/-!
# The whole link between the Pi and the Teensy

Library `Vehicle`. The driver with all its callbacks on one side, the program of the Teensy with
the four parts of its `loop` on the other, in any order; samples, statuses and responses share
the link to the Pi. Both links keep frames in order and may lose any of them. The attempt that
a response answers is history, as in `Session`.
-/

namespace BlueROV2.Vehicle

open BlueROV2.Base BlueROV2.Wire
open Driver (Params Published TeensyDriver)
open Firmware (BNO085 CommandHandlers Iteration Teensy)

/-- Where the Teensy stands in `loop`: before the command, the recovery, the sample or the
status. -/
inductive Part where
  | command
  | recovery
  | sample
  | status
  deriving DecidableEq, Repr

/-- The bytes of one write of the Teensy, on their way. -/
structure Frame where
  attempt : Option Nat
  bytes : List UInt8
  deriving DecidableEq, Repr

/-- The driver, the links and the Teensy. -/
structure State where
  /-- The driver's commands, those on their way and their history; the part of the Teensy in it
  is not used. -/
  pi : Session.State Unit
  params : Params
  /-- Both publishers are activated. -/
  activated : Bool
  published : List Published
  teensy : Teensy
  part : Part
  downlink : List Frame

/-- The steps. Those of the Teensy are given the surroundings of an iteration, of which each
uses its part; a delivery is given what the clock of the driver shows. -/
inductive Label where
  | pi (l : Session.Label)
  | activate
  | deactivate
  | command (i : Iteration)
  | noCommand (i : Iteration)
  | recovery (i : Iteration)
  | sample (i : Iteration)
  | status (i : Iteration)
  | deliver (now : Nat)
  | lose (i : Nat)

/-- A driver just constructed, and a Teensy before its first iteration. -/
def boot (params : Params) (t : Teensy) : State where
  pi := Session.boot ()
  params
  activated := false
  published := []
  teensy := t
  part := .command
  downlink := []

/-- Handlers of a Teensy that is not there. -/
def noHandlers : CommandHandlers Unit := Vector.replicate Firmware.maxCommandHandlers none

/-- The frames that the Teensy wrote between two states. -/
def written (before after : Teensy) : List Frame :=
  (Firmware.writesOf (after.outputs.drop before.outputs.length)).map (⟨none, ·⟩)

namespace State

/-- A step of the driver, or the loss of a command; `on_configure` creates the publishers, and
`on_cleanup` drops them; `driver.cpp:32–36,175–195`. -/
def onPi (l : Session.Label) (s : State) : Option State :=
  if l.onPi then
    (Session.step noHandlers l s.pi).map fun pi ↦
      { s with pi, activated := if l.lifecycle then false else s.activated }
  else none

/-- `on_activate` and `on_deactivate`; `driver.cpp:157–173`. -/
def activate (activated : Bool) (s : State) : Option State :=
  if s.pi.client.isSome then some { s with activated } else none

/-- The next command frame arrives at the Teensy and is polled. -/
def command (i : Iteration) (s : State) : Option State :=
  match s.part, s.pi.uplink with
  | .command, f :: uplink =>
    match Firmware.pollStep { i with arrived := f.bytes } s.teensy with
    | .ok (effects, client, imu) =>
      some { s with
        pi := { s.pi with uplink, executed := s.pi.executed ++ [(f.attempt, effects)] }
        teensy := s.teensy.polled effects client imu
        part := .recovery
        downlink := s.downlink ++ (Firmware.writtenBy effects).map (⟨some f.attempt, ·⟩) }
    | .error _ => none
  | _, _ => none

/-- A poll at which nothing arrives. -/
def noCommand (i : Iteration) (s : State) : Option State :=
  match s.part with
  | .command =>
    match Firmware.pollStep { i with arrived := [] } s.teensy with
    | .ok (effects, client, imu) =>
      some { s with
        teensy := s.teensy.polled effects client imu
        part := .recovery
        downlink := s.downlink ++ (Firmware.writtenBy effects).map (⟨none, ·⟩) }
    | .error _ => none
  | _ => none

/-- Another part of `loop`, after which the next one is due. -/
def goOn (part next : Part) (f : Teensy → Cpp Teensy) (s : State) : Option State :=
  if s.part = part then
    match f s.teensy with
    | .ok t =>
      some { s with teensy := t, part := next, downlink := s.downlink ++ written s.teensy t }
    | .error _ => none
  else none

/-- The members that the callbacks of the driver work with. -/
def driver (now : Nat) (s : State) : TeensyDriver where
  params := s.params
  imuActivated := s.activated
  calibActivated := s.activated
  commands := s.pi.commands
  now
  published := s.published

/-- The next frame arrives at the read thread and is dispatched; an exception out of a callback
would end the program. -/
def deliver (now : Nat) (s : State) : Option State :=
  match s.downlink, s.pi.client with
  | f :: downlink, some reader =>
    match Driver.pollConnection (Driver.dispatch Driver.driverCallbacks) [.data f.bytes] reader
        (s.driver now) with
    | .ok (reader, d) =>
      some { s with
        pi := { s.pi with
          client := some reader
          commands := d.commands
          completed := s.pi.completed ++ f.attempt.toList.flatMap fun n ↦
            Session.State.completion ⟨n, f.bytes⟩ s.pi.commands d.commands }
        published := d.published
        downlink }
    | .error _ => none
  | _, _ => none

end State

/-- The steps of the system. -/
def step : Label → State → Option State
  | .pi l, s => s.onPi l
  | .activate, s => s.activate true
  | .deactivate, s => s.activate false
  | .command i, s => s.command i
  | .noCommand i, s => s.noCommand i
  | .recovery i, s => s.goOn .recovery .sample fun t ↦ .ok (Firmware.recoverStep i t)
  | .sample i, s => s.goOn .sample .status (Firmware.sampleStep i)
  | .status i, s => s.goOn .status .command (Firmware.statusStep i)
  | .deliver now, s => s.deliver now
  | .lose i, s =>
    if i < s.downlink.length then some { s with downlink := s.downlink.eraseIdx i } else none

/-! ### The parts of `loop` -/

variable {s s' : State} {i : Iteration}

theorem goOn_eq_some {part next : Part} {f : Teensy → Cpp Teensy}
    (h : s.goOn part next f = some s') : f s.teensy = .ok s'.teensy := by
  unfold State.goOn at h
  split at h
  · split at h
    · next t ht =>
      cases h
      exact ht
    · cases h
  · cases h

/-- A poll, with a command or without one, is the one in `loop`. -/
private theorem poll_eq_some {l : Label} (hl : l = .command i ∨ l = .noCommand i)
    (h : step l s = some s') : ∃ arrived effects client imu,
      Firmware.pollStep { i with arrived } s.teensy = .ok (effects, client, imu) ∧
      s'.teensy = s.teensy.polled effects client imu := by
  rcases hl with rfl | rfl
  · simp only [step, State.command] at h
    split at h
    · split at h
      · next hpoll =>
        cases h
        exact ⟨_, _, _, _, hpoll, rfl⟩
      · cases h
    · cases h
  · simp only [step, State.noCommand] at h
    split at h
    · split at h
      · next hpoll =>
        cases h
        exact ⟨_, _, _, _, hpoll, rfl⟩
      · cases h
    · cases h

/-- The four steps of the Teensy, one after another, are an iteration of `loop`. -/
theorem loop_of_parts {l : Label} (hl : l = .command i ∨ l = .noCommand i)
    (h : Transition.run step [l, .recovery i, .sample i, .status i] s = some s') :
    ∃ arrived, Firmware.loop { i with arrived } s.teensy = .ok s'.teensy := by
  simp only [Transition.run, Option.bind_eq_some_iff] at h
  rcases h with ⟨s₁, hpoll, s₂, hrecovery, s₃, hsample, s₄, hstatus, heq⟩
  cases heq
  rcases poll_eq_some hl hpoll with ⟨arrived, effects, client, imu, hpolled, hs₁⟩
  have hrecovered : s₁.goOn .recovery .sample (fun t ↦ .ok (Firmware.recoverStep i t)) = some s₂ :=
    hrecovery
  have hok : (.ok (Firmware.recoverStep i s₁.teensy) : Cpp Teensy) = .ok s₂.teensy :=
    goOn_eq_some hrecovered
  have hs₂ := Except.ok.inj hok
  have hs₃ : Firmware.sampleStep i s₂.teensy = .ok s₃.teensy := goOn_eq_some hsample
  have hs₄ : Firmware.statusStep i s₃.teensy = .ok s'.teensy := goOn_eq_some hstatus
  refine ⟨arrived, ?_⟩
  rw [Firmware.loop, hpolled]
  simp only [Cpp.ok_bind]
  rw [← Teensy.polled, ← hs₁]
  change Firmware.sampleStep i (Firmware.recoverStep i s₁.teensy) >>= Firmware.statusStep i = _
  rw [hs₂, hs₃, Cpp.ok_bind, hs₄]

end BlueROV2.Vehicle
