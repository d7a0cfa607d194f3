import BlueROV2.Driver.Client

/-!
# Commands and their responses on the Pi

Library `Driver`. The parts of `modules/autonomy_pi/ros/autonomy_teensy/src/driver.cpp` that
work on the members guarded by `command_lock_`. A promise is the index of its shared state in
the list of all states made so far; its future is the same index.
-/

namespace BlueROV2.Driver

open BlueROV2.Base BlueROV2.Wire

/-- Identifier, sequence number and result of a response: the value a promise is given. -/
abbrev Response := Vector UInt8 3

/-- The members guarded by `command_lock_`, and the shared states; `driver.hpp:56–60`. -/
structure Commands where
  commandSeq : UInt8
  pendingSeq : UInt8
  pendingPromise : Option Nat
  shared : List (Option Response)
  deriving DecidableEq, Repr

namespace Commands

/-- The members of a driver just constructed. -/
def start : Commands := ⟨0, 0, none, []⟩

/-- The locked block with which an attempt begins: its sequence number and its future;
`driver.cpp:203–209`. -/
def attempt (c : Commands) : UInt8 × Nat × Commands :=
  let seq := c.commandSeq + 1
  (seq, c.shared.length, ⟨seq, seq, some c.shared.length, c.shared ++ [none]⟩)

@[simp] theorem shared_attempt (c : Commands) : c.attempt.2.2.shared = c.shared ++ [none] := rfl

/-- The locked block of `on_cleanup`; `driver.cpp:187–192`. -/
def cleanup (c : Commands) : Commands :=
  { c with pendingPromise := none, pendingSeq := 0, commandSeq := 0 }

end Commands

/-- `std::promise::set_value`, which throws when the promise already has a value. -/
def setValue (shared : List (Option Response)) (promise : Nat) (value : Response) :
    Cpp (List (Option Response)) := do
  match ← load shared promise with
  | none => store shared promise (some value)
  | some _ => .error .promiseAlreadySatisfied

/-- The `COMMAND_RESPONSE` callback; `driver.cpp:119–133`. -/
def commandResponse : Callback Commands := fun packet c ↦
  if packet.payload.length ≠ 3 then pure c
  else
    match c.pendingPromise with
    | none => pure c
    | some promise => do
      if (← load packet.payload 1) = c.pendingSeq then do
        let value :=
          #v[← load packet.payload 0, ← load packet.payload 1, ← load packet.payload 2]
        let shared ← setValue c.shared promise value
        pure { c with shared, pendingPromise := none }
      else pure c

/-- The callbacks that work on these members; `driver.cpp:119`. -/
def commandCallbacks : Callbacks Commands :=
  registerCallback (fun _ ↦ []) .commandResponse commandResponse

/-- What `send_command` returns and leaves in `message` for a result; `driver.cpp:229–245`. -/
def report (result : CommandResponse) : Bool × String :=
  if result = .ok then (true, "Command executed successfully")
  else if result = .unknownCommand then (false, "The Teensy did not recognize the command")
  else if result = .sensorError then
    (false, "The Teensy reported a sensor error while executing the command")
  else if result = .invalidState then
    (false, "The command is not valid in the Teensy's current calibration state")
  else (false, "The Teensy returned an unrecognized result code")

/-- A response that matches no pending attempt is discarded. -/
theorem commandResponse_of_stale {c : Commands} {m : Message} {id seq result : UInt8}
    (hm : m.payload = [id, seq, result])
    (h : ∀ p, c.pendingPromise = some p → seq ≠ c.pendingSeq) : commandResponse m c = .ok c := by
  unfold commandResponse
  rw [hm, if_neg (by simp)]
  split
  · rfl
  · next p hp =>
    simp only [load, List.getElem?_cons_succ, List.getElem?_cons_zero, Cpp.ok_bind]
    rw [if_neg (h p hp), Cpp.pure_eq]

/-- A response that matches the pending attempt satisfies its promise and clears the slot. -/
theorem commandResponse_of_pending {c : Commands} {m : Message} {id seq result : UInt8} {p : Nat}
    (hm : m.payload = [id, seq, result]) (hp : c.pendingPromise = some p)
    (hseq : seq = c.pendingSeq) (hfree : c.shared[p]? = some none) :
    commandResponse m c = .ok { c with
      shared := c.shared.set p (some #v[id, seq, result]), pendingPromise := none } := by
  rcases List.getElem?_eq_some_iff.mp hfree with ⟨hlt, hnone⟩
  have hload : load c.shared p = .ok none := by rw [load_of_lt hlt, hnone]
  have hset : setValue c.shared p #v[id, seq, result] =
      .ok (c.shared.set p (some #v[id, seq, result])) := by
    rw [setValue, hload]
    exact if_pos hlt
  unfold commandResponse
  rw [hm, if_neg (by simp), hp]
  simp only [load, List.getElem?_cons_succ, List.getElem?_cons_zero, Cpp.ok_bind]
  rw [if_pos hseq, hset]
  rfl

/-- The read thread hands a response that arrives as one chunk to its callback. -/
theorem pollConnection_response {r : Reader} (hr : r.accumulated = []) (c : Commands) (m : Message)
    (hm : m.packetId = .commandResponse) :
    pollConnection (dispatch commandCallbacks) [.data (frame calculateCrc m ++ [0])] r c =
      (commandResponse m c).map (fun c' ↦ (r, c')) := by
  have hdispatch : dispatch commandCallbacks m c = commandResponse m c := by
    rw [dispatch, hm]
    exact Cpp.bind_ok _
  rw [← List.map_singleton, pollConnection_frame _ m c hr List.flatten_singleton, hdispatch]

end BlueROV2.Driver
