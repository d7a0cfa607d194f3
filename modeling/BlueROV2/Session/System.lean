import BlueROV2.Base.Transition
import BlueROV2.Driver.Command
import BlueROV2.Firmware.Client

/-!
# The command protocol as a system

Library `Session`. The service thread in `send_command`, the read thread in the
`COMMAND_RESPONSE` callback, the Teensy in `poll_command`, and two links that keep frames in
order and may lose any of them. `driver.cpp` and `client.cpp` of
`modules/autonomy_pi/ros/autonomy_teensy/src`, `client.cpp` of `modules/teensy/lib/packet`.
A frame in flight carries the number of the attempt it belongs to; that number, the list of
attempts and the logs are history, which no step of the program reads.
-/

namespace BlueROV2.Session

open BlueROV2.Base BlueROV2.Wire
open Driver (Commands Reader Response)
open Firmware (CommandHandlers Effect)

/-- An attempt to execute a command: its session, its number in it from one, the command. -/
structure Attempt where
  session : Nat
  ordinal : Nat
  commandId : CommandId
  arg : UInt8
  deriving DecidableEq, Repr

/-- The sequence number that goes with the number of an attempt. -/
def Attempt.seq (a : Attempt) : UInt8 := UInt8.ofNat a.ordinal

/-- The bytes written to a serial port in one call, on their way. -/
structure Flight where
  attempt : Nat
  bytes : List UInt8
  deriving DecidableEq, Repr

/-- Where a call of `send_command` stands: at the test of its loop, between its locked block
and the write, or waiting for a future. -/
inductive Phase where
  | loop
  | send (future : Nat) (seq : UInt8)
  | wait (future : Nat)
  deriving DecidableEq, Repr

/-- A call of `send_command` in progress. -/
structure Call where
  commandId : CommandId
  arg : UInt8
  attempt : Nat
  phase : Phase
  deriving DecidableEq, Repr

/-- What a call of `send_command` returned. -/
structure Return where
  commandId : CommandId
  success : Bool
  message : String
  deriving DecidableEq, Repr

/-- The driver, the links and the Teensy, with its state `W` beyond the serial client. -/
structure State (W : Type) where
  /-- The read thread of `client_`, if the driver has a client. -/
  client : Option Reader
  /-- `params_.command_retries`. -/
  commandRetries : Nat
  commands : Commands
  call : Option Call
  uplink : List Flight
  downlink : List Flight
  teensy : Firmware.Client
  world : W
  /-- How often the driver was configured. -/
  sessions : Nat
  /-- How many attempts were made before this session. -/
  base : Nat
  attempts : List Attempt
  /-- The attempts whose frames the Teensy took, and what it did with each. -/
  executed : List (Nat × List Effect)
  /-- The responses that satisfied a promise, each by its attempt, with the promise. -/
  completed : List (Nat × Nat)
  returned : List Return
  deriving DecidableEq, Repr

/-- The steps of the system. -/
inductive Label where
  | configure (commandRetries : Nat)
  | cleanup
  | call (commandId : CommandId) (arg : UInt8)
  | attempt
  | giveUp
  | send
  | linkDown
  | timeout
  | ready
  | poll
  | deliver
  | loseCommand (i : Nat)
  | loseResponse (i : Nat)
  deriving DecidableEq, Repr

/-- The lifecycle transitions of the driver. -/
def Label.lifecycle : Label → Bool
  | .configure _ | .cleanup => true
  | _ => false

variable {W : Type}

/-- A driver just constructed, and a Teensy in state `w`. -/
def boot (w : W) : State W where
  client := none
  commandRetries := 0
  commands := .start
  call := none
  uplink := []
  downlink := []
  teensy := .start
  world := w
  sessions := 0
  base := 0
  attempts := []
  executed := []
  completed := []
  returned := []

namespace State

/-- `send_command` returns. -/
def finish (s : State W) (commandId : CommandId) (r : Bool × String) : State W :=
  { s with call := none, returned := s.returned ++ [⟨commandId, r.1, r.2⟩] }

/-- The promise that a delivery satisfied, if it did: its slot was cleared. -/
def completion (f : Flight) (before after : Commands) : List (Nat × Nat) :=
  match before.pendingPromise with
  | some p => if after.pendingPromise = none then [(f.attempt, p)] else []
  | none => []

/-- The locked block of an attempt; `driver.cpp:199–209`. -/
def attempt (s : State W) : Option (State W) :=
  match s.call with
  | some ⟨commandId, arg, n, .loop⟩ =>
    if n < s.commandRetries then
      let (seq, future, commands) := s.commands.attempt
      some { s with
        commands
        call := some ⟨commandId, arg, n, .send future seq⟩
        attempts := s.attempts ++ [⟨s.sessions, s.attempts.length - s.base + 1, commandId, arg⟩] }
    else none
  | _ => none

/-- The loop is left; `driver.cpp:199,248–249`. -/
def giveUp (s : State W) : Option (State W) :=
  match s.call with
  | some ⟨commandId, _, n, .loop⟩ =>
    if n < s.commandRetries then none
    else some (s.finish commandId (false, "Timed out waiting for a response from the Teensy"))
  | _ => none

/-- The frame is encoded and handed to `Client::send`; `driver.cpp:211–223`. -/
def send (s : State W) : Option (State W) :=
  match s.call, s.client with
  | some ⟨commandId, arg, n, .send future seq⟩, some reader =>
    match Driver.encodePacket .command .imu01 [commandId.byte, seq, arg] with
    | .ok frame =>
      if reader.connected then
        some { s with
          call := some ⟨commandId, arg, n, .wait future⟩
          uplink := s.uplink ++ [⟨future, frame⟩] }
      else some (s.finish commandId (false, "The serial link to the Teensy is down"))
    | .error (.invalidArgument what) =>
      some (s.finish commandId (false, "Failed to encode the command: " ++ what))
    | .error _ => none
  | _, _ => none

/-- The write fails; `client.cpp:57–67`, `driver.cpp:220–223`. -/
def linkDown (s : State W) : Option (State W) :=
  match s.call, s.client with
  | some ⟨commandId, _, _, .send _ _⟩, some reader =>
    some { s.finish commandId (false, "The serial link to the Teensy is down") with
      client := some { reader with connected := false } }
  | _, _ => none

/-- `wait_for` ends without a value; `driver.cpp:225–227`. -/
def timeout (s : State W) : Option (State W) :=
  match s.call with
  | some ⟨commandId, arg, n, .wait future⟩ =>
    if s.commands.shared[future]? = some none then
      some { s with call := some ⟨commandId, arg, n + 1, .loop⟩ }
    else none
  | _ => none

/-- `wait_for` ends with a value, whose last byte is the result; `driver.cpp:229–245`. -/
def ready (s : State W) : Option (State W) :=
  match s.call with
  | some ⟨commandId, _, _, .wait future⟩ =>
    match s.commands.shared[future]? with
    | some (some value) => some (s.finish commandId (Driver.report ⟨value[2]⟩))
    | _ => none
  | _ => none

/-- The next command frame arrives at the Teensy and is polled. -/
def poll (handlers : CommandHandlers W) (s : State W) : Option (State W) :=
  match s.uplink with
  | f :: uplink =>
    match Firmware.pollCommand handlers f.bytes s.teensy s.world with
    | .ok (effects, teensy, world) =>
      some { s with
        uplink, teensy, world
        downlink := s.downlink ++ (Firmware.writtenBy effects).map (⟨f.attempt, ·⟩)
        executed := s.executed ++ [(f.attempt, effects)] }
    | .error _ => none
  | [] => none

/-- The next response frame arrives at the read thread and is dispatched; an exception out of
a callback would end the program. -/
def deliver (s : State W) : Option (State W) :=
  match s.downlink, s.client with
  | f :: downlink, some reader =>
    match Driver.pollConnection (Driver.dispatch Driver.commandCallbacks) [.data f.bytes] reader
        s.commands with
    | .ok (reader, commands) =>
      some { s with
        downlink, commands
        client := some reader
        completed := s.completed ++ completion f s.commands commands }
    | .error _ => none
  | _, _ => none

end State

/-- The steps. `send_command` runs in a service callback, the lifecycle transitions in another
of the same callback group, so a call is never under way in a transition. -/
def step (handlers : CommandHandlers W) : Label → State W → Option (State W)
  | .configure commandRetries, s =>
    if s.client.isNone then
      some { s with
        client := some .start, commandRetries
        sessions := s.sessions + 1, base := s.attempts.length }
    else none
  | .cleanup, s =>
    if s.client.isSome ∧ s.call.isNone then
      some { s with client := none, commands := s.commands.cleanup }
    else none
  | .call commandId arg, s =>
    if s.client.isSome ∧ s.call.isNone then some { s with call := some ⟨commandId, arg, 0, .loop⟩ }
    else none
  | .attempt, s => s.attempt
  | .giveUp, s => s.giveUp
  | .send, s => s.send
  | .linkDown, s => s.linkDown
  | .timeout, s => s.timeout
  | .ready, s => s.ready
  | .poll, s => s.poll handlers
  | .deliver, s => s.deliver
  | .loseCommand i, s =>
    if i < s.uplink.length then some { s with uplink := s.uplink.eraseIdx i } else none
  | .loseResponse i, s =>
    if i < s.downlink.length then some { s with downlink := s.downlink.eraseIdx i } else none

/-- What each step needs and what it leads to. A delivery is left as it is; it is looked into
where the frames on the link are known. -/
inductive Takes (handlers : CommandHandlers W) (s : State W) : Label → State W → Prop
  | configure (n : Nat) (hclient : s.client = none) : Takes handlers s (.configure n) { s with
      client := some .start, commandRetries := n
      sessions := s.sessions + 1, base := s.attempts.length }
  | cleanup (hcall : s.call = none) :
      Takes handlers s .cleanup { s with client := none, commands := s.commands.cleanup }
  | call (commandId : CommandId) (arg : UInt8) (hclient : s.client ≠ none) :
      Takes handlers s (.call commandId arg) { s with call := some ⟨commandId, arg, 0, .loop⟩ }
  | attempt {commandId : CommandId} {arg : UInt8} {n : Nat}
      (hcall : s.call = some ⟨commandId, arg, n, .loop⟩) (hn : n < s.commandRetries) :
      Takes handlers s .attempt { s with
        commands := s.commands.attempt.2.2
        call := some ⟨commandId, arg, n, .send s.commands.attempt.2.1 s.commands.attempt.1⟩
        attempts := s.attempts ++ [⟨s.sessions, s.attempts.length - s.base + 1, commandId, arg⟩] }
  | giveUp {commandId : CommandId} {arg : UInt8} {n : Nat}
      (hcall : s.call = some ⟨commandId, arg, n, .loop⟩) (hn : ¬ n < s.commandRetries) :
      Takes handlers s .giveUp
        (s.finish commandId (false, "Timed out waiting for a response from the Teensy"))
  | send {commandId : CommandId} {arg seq : UInt8} {n future : Nat} {frame : List UInt8}
      (hcall : s.call = some ⟨commandId, arg, n, .send future seq⟩)
      (hframe : Driver.encodePacket .command .imu01 [commandId.byte, seq, arg] = .ok frame) :
      Takes handlers s .send { s with
        call := some ⟨commandId, arg, n, .wait future⟩
        uplink := s.uplink ++ [⟨future, frame⟩] }
  | unsent (commandId : CommandId) (r : Bool × String) :
      Takes handlers s .send (s.finish commandId r)
  | linkDown (commandId : CommandId) {reader : Reader} (hclient : s.client = some reader) :
      Takes handlers s .linkDown
        { s.finish commandId (false, "The serial link to the Teensy is down") with
          client := some { reader with connected := false } }
  | timeout {commandId : CommandId} {arg : UInt8} {n future : Nat}
      (hcall : s.call = some ⟨commandId, arg, n, .wait future⟩)
      (hvalue : s.commands.shared[future]? = some none) :
      Takes handlers s .timeout { s with call := some ⟨commandId, arg, n + 1, .loop⟩ }
  | ready {commandId : CommandId} {arg : UInt8} {n future : Nat} {value : Response}
      (hcall : s.call = some ⟨commandId, arg, n, .wait future⟩)
      (hvalue : s.commands.shared[future]? = some (some value)) :
      Takes handlers s .ready (s.finish commandId (Driver.report ⟨value[2]⟩))
  | poll {f : Flight} {uplink : List Flight} {effects : List Effect} {teensy : Firmware.Client}
      {world : W} (hup : s.uplink = f :: uplink)
      (hpoll : Firmware.pollCommand handlers f.bytes s.teensy s.world =
        .ok (effects, teensy, world)) :
      Takes handlers s .poll { s with
        uplink, teensy, world
        downlink := s.downlink ++ (Firmware.writtenBy effects).map (⟨f.attempt, ·⟩)
        executed := s.executed ++ [(f.attempt, effects)] }
  | deliver {s' : State W} (h : s.deliver = some s') : Takes handlers s .deliver s'
  | loseCommand (i : Nat) :
      Takes handlers s (.loseCommand i) { s with uplink := s.uplink.eraseIdx i }
  | loseResponse (i : Nat) :
      Takes handlers s (.loseResponse i) { s with downlink := s.downlink.eraseIdx i }

/-- Every step is one of these. -/
theorem takes_of_step {handlers : CommandHandlers W} {l : Label} {s s' : State W}
    (h : step handlers l s = some s') : Takes handlers s l s' := by
  cases l with
  | configure n =>
    simp only [step, Option.isNone_iff_eq_none, Option.ite_none_right_eq_some] at h
    rcases h with ⟨hclient, h⟩
    cases h
    exact .configure n hclient
  | cleanup =>
    simp only [step, Option.isNone_iff_eq_none, Option.ite_none_right_eq_some] at h
    rcases h with ⟨hc, h⟩
    cases h
    exact .cleanup hc.2
  | call commandId arg =>
    simp only [step, Option.ite_none_right_eq_some] at h
    rcases h with ⟨hc, h⟩
    cases h
    exact .call commandId arg (Option.isSome_iff_ne_none.mp hc.1)
  | attempt =>
    simp only [step, State.attempt] at h
    split at h
    · next hcall =>
      split at h
      · next hn =>
        cases h
        exact .attempt hcall hn
      · cases h
    · cases h
  | giveUp =>
    simp only [step, State.giveUp] at h
    split at h
    · next hcall =>
      split at h
      · cases h
      · next hn =>
        cases h
        exact .giveUp hcall hn
    · cases h
  | send =>
    simp only [step, State.send] at h
    split at h
    · next hcall hclient =>
      split at h
      · next hframe =>
        split at h
        · cases h
          exact .send hcall hframe
        · cases h
          exact .unsent _ _
      · cases h
        exact .unsent _ _
      · cases h
    · cases h
  | linkDown =>
    simp only [step, State.linkDown] at h
    split at h
    · next hcall hclient =>
      cases h
      exact .linkDown _ hclient
    · cases h
  | timeout =>
    simp only [step, State.timeout] at h
    split at h
    · next hcall =>
      split at h
      · next hvalue =>
        cases h
        exact .timeout hcall hvalue
      · cases h
    · cases h
  | ready =>
    simp only [step, State.ready] at h
    split at h
    · next hcall =>
      split at h
      · next hvalue =>
        cases h
        exact .ready hcall hvalue
      · cases h
    · cases h
  | poll =>
    simp only [step, State.poll] at h
    split at h
    · next hup =>
      split at h
      · next hpoll =>
        cases h
        exact .poll hup hpoll
      · cases h
    · cases h
  | deliver => exact .deliver h
  | loseCommand i =>
    simp only [step, Option.ite_none_right_eq_some] at h
    cases h.2
    exact .loseCommand i
  | loseResponse i =>
    simp only [step, Option.ite_none_right_eq_some] at h
    cases h.2
    exact .loseResponse i

end BlueROV2.Session
