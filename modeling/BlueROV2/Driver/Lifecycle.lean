import BlueROV2.Base.Transition

/-!
# Lifetimes in the driver

Library `Driver`. `modules/autonomy_pi/ros/autonomy_teensy/include/autonomy_teensy/driver.hpp`
and `src/driver.cpp`. A transition is the list of what it does to the members, one action at a
time; the read thread of `client_`, which `src/client.cpp` starts in the constructor and joins
in the destructor, runs callbacks in between.
-/

namespace BlueROV2.Driver.Lifecycle

open BlueROV2.Base

/-- The members of `TeensyDriver`. -/
inductive Member where
  | client
  | paramListener
  | params
  | imuPub
  | calibPub
  | startCalSrv
  | saveCalSrv
  | stopCalSrv
  | commandLock
  | pendingPromise
  | pendingSeq
  | commandSeq
  deriving DecidableEq, Repr

/-- Their order of declaration; `driver.hpp:44–60`. -/
def declared : List Member :=
  [.client, .paramListener, .params, .imuPub, .calibPub, .startCalSrv, .saveCalSrv, .stopCalSrv,
    .commandLock, .pendingPromise, .pendingSeq, .commandSeq]

/-- The packets with a callback. -/
inductive Kind where
  | imuData
  | calStatus
  | commandResponse
  deriving DecidableEq, Repr

/-- A read thread: whether `running_` is still set, whether `poll_connection` has returned, the
callbacks registered with its client, and the members that the callback in progress uses. -/
structure ReadThread where
  running : Bool
  finished : Bool
  registered : List Kind
  callback : Option (List Member)
  deriving DecidableEq, Repr

/-- The states of a lifecycle node that matter here. -/
inductive Phase where
  | unconfigured
  | inactive
  | active
  | destroyed
  deriving DecidableEq, Repr

/-- What a transition does: it makes or resets what a member holds, activates a publisher or
not, starts the client, registers a callback, clears `running_`, joins the read thread, or
ends the lifetime of a member. -/
inductive Action where
  | set (m : Member)
  | reset (m : Member)
  | activate (m : Member) (value : Bool)
  | openClient
  | register (kind : Kind)
  | stopClient
  | joinClient
  | destroy (m : Member)
  deriving DecidableEq, Repr

/-- The driver: its phase, what is left of the transition under way, the thread of its client,
the members that hold something, the activated publishers, the members destroyed. -/
structure State where
  phase : Phase
  script : List Action
  client : Option ReadThread
  held : List Member
  activated : List Member
  destroyed : List Member
  deriving DecidableEq, Repr

/-- A driver just constructed. -/
def start : State := ⟨.unconfigured, [], none, [], [], []⟩

/-- How `on_configure` ends: without parameters, without a serial port, or well. -/
inductive Configured where
  | noParameters
  | noPort
  | opened
  deriving DecidableEq, Repr

/-- `on_configure`; `driver.cpp:23–154`. -/
def onConfigure : Configured → List Action
  | .noParameters => [.set .paramListener]
  | .noPort => [.set .paramListener, .set .imuPub, .set .calibPub, .reset .imuPub, .reset .calibPub]
  | .opened =>
    [.set .paramListener, .set .imuPub, .set .calibPub, .openClient, .register .imuData,
      .register .calStatus, .register .commandResponse, .set .startCalSrv, .set .saveCalSrv,
      .set .stopCalSrv]

/-- `on_activate` and `on_deactivate`; `driver.cpp:157–173`. -/
def onActivate (value : Bool) : List Action := [.activate .imuPub value, .activate .calibPub value]

/-- `on_cleanup`, with the destructor of the client; `driver.cpp:175–195`,
`client.cpp:36–43`. -/
def onCleanup : List Action :=
  [.stopClient, .joinClient, .reset .imuPub, .reset .calibPub, .reset .startCalSrv,
    .reset .saveCalSrv, .reset .stopCalSrv, .reset .paramListener, .reset .pendingPromise]

/-- What destroying a member does: `client_` also runs the destructor of its client. -/
def destroyMember : Member → List Action
  | .client => [.stopClient, .joinClient, .destroy .client]
  | m => [.destroy m]

/-- The destructor, which is defaulted: members go in the reverse order of declaration;
`driver.cpp:21`. -/
def destructor : List Action := declared.reverse.flatMap destroyMember

/-- One action; joining a thread waits until it has finished. -/
def perform : Action → State → Option State
  | .set m, s => some { s with held := m :: s.held, activated := s.activated.filter (· ≠ m) }
  | .reset m, s => some { s with held := s.held.filter (· ≠ m) }
  | .activate m value, s =>
    some { s with activated := if value then m :: s.activated else s.activated.filter (· ≠ m) }
  | .openClient, s => some { s with client := some ⟨true, false, [], none⟩ }
  | .register kind, s =>
    s.client.map fun t ↦ { s with client := some { t with registered := t.registered ++ [kind] } }
  | .stopClient, s => some { s with client := s.client.map ({ · with running := false }) }
  | .joinClient, s =>
    match s.client with
    | none => some s
    | some t => if t.finished then some { s with client := none } else none
  | .destroy m, s =>
    some { s with held := s.held.filter (· ≠ m), destroyed := m :: s.destroyed }

/-- The members a callback uses for a packet with a payload of `size` bytes;
`driver.cpp:56–133`. -/
def uses (s : State) : Kind → Nat → List Member
  | .imuData, size => if .imuPub ∈ s.activated ∧ size = 40 then [.imuPub, .params] else [.imuPub]
  | .calStatus, size =>
    if .calibPub ∈ s.activated ∧ size = 9 then [.calibPub, .params] else [.calibPub]
  | .commandResponse, size =>
    if size = 3 then [.commandLock, .pendingPromise, .pendingSeq] else []

/-- The steps: transitions begin, the executor performs their actions, the read thread enters
and leaves callbacks and ends, at the test of its loop or on an error. -/
inductive Label where
  | configure (outcome : Configured)
  | activate
  | deactivate
  | cleanup
  | destroy
  | act
  | dispatch (kind : Kind) (size : Nat)
  | leave
  | finish
  | readError
  deriving DecidableEq, Repr

/-- Begin a transition, if none is under way and the phase admits it. A failed `on_configure`
leaves no client, so what the node may do afterwards is what it may do unconfigured. -/
def begin (s : State) (allowed : Bool) (phase : Phase) (script : List Action) : Option State :=
  if s.script = [] ∧ allowed then some { s with phase, script } else none

/-- The read thread does something, if there is one that has not finished. -/
def onThread (s : State) (f : ReadThread → Option ReadThread) : Option State :=
  match s.client with
  | some t => if t.finished then none else (f t).map fun t ↦ { s with client := some t }
  | none => none

/-- The steps of executor and read thread. -/
def step : Label → State → Option State
  | .configure outcome, s =>
    begin s (s.phase = .unconfigured) (if outcome = .opened then .inactive else .unconfigured)
      (onConfigure outcome)
  | .activate, s => begin s (s.phase = .inactive) .active (onActivate true)
  | .deactivate, s => begin s (s.phase = .active) .inactive (onActivate false)
  | .cleanup, s => begin s (s.phase = .inactive) .unconfigured onCleanup
  | .destroy, s => begin s (s.phase ≠ .destroyed) .destroyed destructor
  | .act, s =>
    match s.script with
    | a :: script => (perform a s).map ({ · with script })
    | [] => none
  | .dispatch kind size, s => onThread s fun t ↦
    if t.callback = none ∧ kind ∈ t.registered then
      some { t with callback := some (uses s kind size) }
    else none
  | .leave, s => onThread s fun t ↦
    if t.callback = none then none else some { t with callback := none }
  | .finish, s => onThread s fun t ↦
    if t.callback = none ∧ t.running = false then some { t with finished := true } else none
  | .readError, s => onThread s fun t ↦
    if t.callback = none then some { t with finished := true } else none

/-- A member can be used: it is not destroyed, and if it is a publisher it is set. The optional
`pending_promise_` can be used with and without a value. -/
def Usable (s : State) (m : Member) : Prop :=
  m ∉ s.destroyed ∧ (m = .imuPub ∨ m = .calibPub → m ∈ s.held)

instance (s : State) (m : Member) : Decidable (Usable s m) :=
  inferInstanceAs (Decidable (m ∉ s.destroyed ∧ (m = .imuPub ∨ m = .calibPub → m ∈ s.held)))

/-- Whatever the callback in progress uses can be used. -/
def Safe (s : State) : Prop :=
  ∀ t ∈ s.client, ∀ used ∈ t.callback, ∀ m ∈ used, Usable s m

instance (s : State) : Decidable (Safe s) :=
  inferInstanceAs (Decidable (∀ t ∈ s.client, ∀ used ∈ t.callback, ∀ m ∈ used, Usable s m))

/-- The driver is destroyed only when no read thread is running. -/
def DestroyedQuiet (l : Label) (s : State) : Prop := l = .destroy → ∀ t ∈ s.client, t.finished

instance (l : Label) (s : State) : Decidable (DestroyedQuiet l s) :=
  inferInstanceAs (Decidable (l = .destroy → ∀ t ∈ s.client, t.finished))

end BlueROV2.Driver.Lifecycle
