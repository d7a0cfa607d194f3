import BlueROV2.Base.Program
import BlueROV2.Driver.Telemetry

/-!
# The calibration tool

Library `Tool`. `modules/autonomy_pi/scripts/calibrate_imu.py`. The tool reads the clock and what
the thread that receives statuses has left; it waits for the operator, for a time to pass and for
the services. Wherever it reads or waits, and before it sends a request, it may be interrupted:
`KeyboardInterrupt` is raised, or `EOFError`.
-/

namespace BlueROV2.Tool

open BlueROV2.Base
open Driver (ImuCalibrationStatus)

/-- The services of the driver that the tool calls; `calibrate_imu.py:48–50`. -/
inductive Service where
  | start
  | save
  | stop
  deriving DecidableEq, Repr

/-- What is read without waiting: an exception is raised; the clock, in milliseconds; and the status
received last. -/
structure Reading where
  raises : Bool
  now : Nat
  status : Option ImuCalibrationStatus
  deriving DecidableEq, Repr

/-- What happens at a wait: an exception is raised; the operator's line, or whether there is one;
and whether a response has come, and what it says. -/
structure Turn where
  raises : Bool
  line : String
  ready : Bool
  done : Bool
  success : Bool
  message : String
  deriving DecidableEq, Repr

/-- What the tool does: it prints; it calls a service, which begins before the request is sent and
ends with the response. -/
inductive Action where
  | print (text : String)
  | call (service : Service)
  | request (service : Service)
  | answered (service : Service) (success : Bool)
  deriving DecidableEq, Repr

/-- What the tool will read, and what will happen at its waits. -/
abbrev Surroundings := Base.Surroundings Reading Turn

abbrev Script := Program Reading Turn Action

/-- The parameters: the value of `--timeout` in milliseconds, and how an angle given in radians is
written in degrees, with one digit behind the point. -/
structure CalibrationTool where
  timeout : Nat
  degrees : UInt32 → String

/-! ### Reading and waiting -/

/-- What is there now. -/
def look : Script Reading := do
  let r ← Program.read
  if r.raises then Program.raise else pure r

/-- What happens next. -/
def next : Script Turn := do
  let t ← Program.ask
  if t.raises then Program.raise else pure t

def print (text : String) : Script Unit := Program.tell (.print text)

def sleep : Script Unit := do
  let _ ← next
  pure ()

def monotonic : Script Nat := do
  let r ← look
  pure r.now

/-- `tool.status`. -/
def status : Script (Option ImuCalibrationStatus) := do
  let r ← look
  pure r.status

/-- The characters that `str.strip` removes. -/
def isSpace (c : Char) : Bool :=
  9 ≤ c.toNat && c.toNat ≤ 13 || 28 ≤ c.toNat && c.toNat ≤ 32 || c.toNat == 0x85 ||
    c.toNat == 0xA0 || c.toNat == 0x1680 || 0x2000 ≤ c.toNat && c.toNat ≤ 0x200A ||
    c.toNat == 0x2028 || c.toNat == 0x2029 || c.toNat == 0x202F || c.toNat == 0x205F ||
    c.toNat == 0x3000

def strip (s : String) : String :=
  String.ofList ((s.toList.dropWhile isSpace).reverse.dropWhile isSpace).reverse

/-- `prompt`; letters that are not in ASCII are left as they are; `calibrate_imu.py:72–73`. -/
def prompt (message : String) : Script String := do
  print message
  let t ← next
  pure (strip t.line).toLower

/-- `wait_for_keypress`; `calibrate_imu.py:76–81`. -/
def waitForKeypress : Script Bool := do
  let t ← next
  pure t.ready

/-- `CalibrationTool.call`; `calibrate_imu.py:55–61`. -/
def call (service : Service) : Script (Bool × String) := do
  Program.tell (.call service)
  let _ ← look
  Program.tell (.request service)
  let response ← Program.loop do
    let t ← next
    pure (if t.done then some (t.success, t.message) else none)
  Program.tell (.answered service response.1)
  pure response

/-! ### Readings -/

/-- `get_accuracy`; `calibrate_imu.py:15–19`. -/
def getAccuracy (level : UInt8) : String :=
  match level.toNat with
  | 0 => "Unreliable"
  | 1 => "Low"
  | 2 => "Medium"
  | 3 => "High"
  | _ => "?"

/-- `get_heading_accuracy`, of the text of an angle; `calibrate_imu.py:22–25`. -/
def getHeadingAccuracy : Option String → String
  | none => "?"
  | some degrees => s!"{degrees} deg (goal <=5)"

/-- `CalibrationTool.accuracy`; `calibrate_imu.py:63–64`. -/
def accuracy (field : ImuCalibrationStatus → UInt8) : Script UInt8 := do
  let status ← status
  pure ((status.map field).getD 0)

/-- `CalibrationTool.heading_accuracy_deg`; `calibrate_imu.py:66–69`. -/
def headingAccuracyDeg (tool : CalibrationTool) : Script (Option String) := do
  let status ← status
  pure (status.map fun s ↦ tool.degrees s.orientationAccuracyRad)

/-! ### The stages -/

/-- `wait_for_first_status`; `calibrate_imu.py:84–88`. -/
def waitForFirstStatus (tool : CalibrationTool) : Script Bool := do
  let start ← monotonic
  let deadline := start + tool.timeout
  Program.loop do
    let received ← status
    if received.isSome then pure (some ())
    else
      let now ← monotonic
      if now < deadline then
        sleep
        pure none
      else pure (some ())
  let received ← status
  pure received.isSome

/-- `preflight`; `calibrate_imu.py:91–98`. -/
def preflight : Script Bool := do
  print ("Before starting IMU calibration, verify that\n" ++
    "  1. the vehicle is out of the water\n" ++
    "  2. the thrusters are disabled\n" ++
    "  3. the vehicle is away from major sources of magnetic interference\n")
  let answer ← prompt "Continue? [y/N] "
  pure (answer == "y")

/-- The orientations of `calibrate_accel`; `calibrate_imu.py:105–112`. -/
def orientations : List String := [
  "level", "on its left side", "on its right side", "nose down", "nose up",
  "on its back (upside down)"]

/-- `calibrate_accel`; `calibrate_imu.py:101–118`. -/
def calibrateAccel : Script Unit := do
  print "\n--- Accelerometer calibration ---"
  print "Hold the vehicle still at each orientation for ~2s after confirming."
  orientations.forM fun orientation ↦ do
    let _ ← prompt s!"Place the vehicle {orientation}, then press ENTER: "
    sleep
    let level ← accuracy (·.accelerometerAccuracy)
    print s!"  accelerometer accuracy: {level} ({getAccuracy level})"

/-- The seconds that are counted down in `calibrate_gyro`; `calibrate_imu.py:126–129`. -/
def countdown : List Nat := [5, 4, 3, 2, 1]

/-- `calibrate_gyro`; `calibrate_imu.py:121–144`. -/
def calibrateGyro : Script Unit := do
  print "\n--- Gyroscope calibration ---"
  print "Set the vehicle down on a stable surface and do not touch it."
  let _ ← prompt "Press ENTER once the vehicle is settled: "
  Program.loop do
    countdown.forM fun remaining ↦ do
      let level ← accuracy (·.gyroscopeAccuracy)
      print s!"\rgyro accuracy: {getAccuracy level} "
      print s!"({remaining}/5s remaining)  \x1b[K"
      sleep
    print ""
    let level ← accuracy (·.gyroscopeAccuracy)
    if level ≥ 2 then
      print s!"  gyro accuracy: {level} ({getAccuracy level})"
      pure (some ())
    else
      let answer ← prompt s!"Gyro accuracy is {getAccuracy level}. Wait longer? [Y/n] "
      pure (if answer == "n" then some () else none)

/-- `calibrate_compass`; `calibrate_imu.py:147–174`. -/
def calibrateCompass (tool : CalibrationTool) : Script Unit := do
  print "\n--- Compass calibration ---"
  print "Rotate the vehicle about a fixed coordinate frame, covering a sphere."
  let _ ← prompt "Press ENTER once you are ready to start: "
  print "Press ENTER again at any time to stop and check the calibration result.\n"
  Program.loop do
    Program.loop do
      let pressed ← waitForKeypress
      if pressed then pure (some ())
      else
        let level ← accuracy (·.magnetometerAccuracy)
        let heading ← headingAccuracyDeg tool
        print (s!"\r  compass accuracy: {level} ({getAccuracy level})" ++
          s!"   heading accuracy: {getHeadingAccuracy heading}  \x1b[K")
        pure none
    print ""
    let level ← accuracy (·.magnetometerAccuracy)
    let heading ← headingAccuracyDeg tool
    let summary := s!"Compass accuracy is {getAccuracy level}, " ++
      s!"heading accuracy {getHeadingAccuracy heading}."
    if level ≥ 2 then
      let answer ← prompt s!"{summary} Keep sweeping? [y/N] "
      pure (if answer != "y" then some () else none)
    else
      let answer ← prompt s!"{summary} Keep sweeping? [Y/n] "
      pure (if answer == "n" then some () else none)

/-- `save_and_continue`; `calibrate_imu.py:177–185`. -/
def saveAndContinue : Script Unit :=
  Program.loop do
    let answer ← prompt "Save the current calibration? [Y/n] "
    if answer != "n" then
      let (success, message) ← call .save
      print s!"  {message}"
      if !success then
        let again ← prompt "Retry the save? [Y/n] "
        pure (if again != "n" then none else some ())
      else pure (some ())
    else pure (some ())

/-- What `run` tries; `calibrate_imu.py:194–209`. -/
def calibrate (tool : CalibrationTool) : Script Unit := do
  let (success, message) ← call .start
  print message
  if !success then print "Failed to start calibration. Aborting."
  else
    let received ← waitForFirstStatus tool
    if !received then
      print ("Warning: no calibration status received yet, so live accuracy" ++
        " readouts may be unavailable.")
    calibrateAccel
    calibrateGyro
    calibrateCompass tool
    saveAndContinue

/-- What it does finally; `calibrate_imu.py:211–216`. -/
def stop : Script Unit := do
  let (_, message) ← call .stop
  print s!"\n{message}"
  print ("\nRemember to run `reset-ekf` before diving: the state estimate is stale" ++
    " after calibration.")

/-- `run`; `calibrate_imu.py:188–216`. -/
def run (tool : CalibrationTool) : Script Unit := do
  let confirmed ← preflight
  if !confirmed then print "Aborted."
  else (calibrate tool).always stop

/-! ### The calls that are allowed -/

/-- How far a calibration has come. -/
inductive Phase where
  | idle
  | started
  | failed
  | calling (service : Service)
  | requested (service : Service)
  | over (success : Bool)
  deriving DecidableEq, Repr

/-- The phase after a response. -/
def Phase.answered (service : Service) (success : Bool) : Phase :=
  match service with
  | .start => if success then .started else .failed
  | .save => .started
  | .stop => .over success

/-- The calibration may have been started, and was not stopped. -/
def Phase.isOpen : Phase → Bool
  | .started | .failed | .calling .start | .calling .save | .requested .start | .requested .save =>
    true
  | .idle | .calling .stop | .requested .stop | .over _ => false

/-- The phase after an action, if it is allowed: `start` is called once, `save` only after `start`
succeeded and before `stop`, and `stop` once, after `start` was called. -/
def after : Action → Phase → Option Phase
  | .print _, p => some p
  | .call .start, p => if p = .idle then some (.calling .start) else none
  | .call .save, p => if p = .started then some (.calling .save) else none
  | .call .stop, p => if p.isOpen then some (.calling .stop) else none
  | .request service, p => if p = .calling service then some (.requested service) else none
  | .answered service success, p =>
    if p = .requested service then some (.answered service success) else none

/-! ### Programs that call no service -/

variable {β γ : Type}

/-- A program that calls no service, and that uses so many answers if it ends. -/
structure Plain (n : Nat) (m : Script β) : Prop where
  quiet : ∀ p, Program.Leads after p m fun r p' ↦ r ≠ .error .endless ∧ p' = p
  uses : Program.Uses n m

variable {m : Script β} {f : β → Script γ} {n k : Nat}

theorem Plain.weaken (h : Plain n m) : Plain 0 m := ⟨h.quiet, h.uses.weaken (Nat.zero_le n)⟩

theorem plain_pure (b : β) : Plain 0 (pure b : Script β) :=
  ⟨fun _ ↦ Program.leads_pure ⟨nofun, rfl⟩, Program.uses_pure b⟩

theorem plain_print (text : String) : Plain 0 (print text) :=
  ⟨fun _ ↦ Program.leads_tell rfl ⟨nofun, rfl⟩, Program.uses_tell _⟩

theorem Plain.bind (hm : Plain n m) (hf : ∀ b, Plain k (f b)) : Plain (n + k) (m >>= f) := by
  refine ⟨fun p ↦ Program.Leads.bind ((hm.quiet p).mono fun r p' hr ↦ ?_),
    hm.uses.bind fun b ↦ (hf b).uses⟩
  cases r with
  | error e => exact ⟨fun he ↦ hr.1 (by cases he; rfl), hr.2⟩
  | ok b =>
    cases hr.2
    exact (hf b).quiet _

theorem Plain.first (hm : Plain n m) (hf : ∀ b, Plain 0 (f b)) : Plain n (m >>= f) := hm.bind hf

theorem Plain.rest (hm : Plain n m) (hf : ∀ b, Plain k (f b)) : Plain k (m >>= f) :=
  ⟨(hm.bind hf).quiet, hm.uses.rest fun b ↦ (hf b).uses⟩

theorem plain_look : Plain 0 look := by
  refine ⟨fun p ↦ Program.Leads.bind (Program.leads_read fun r ↦ ?_),
    Program.uses_read.rest fun r ↦ ?_⟩
  · simp only [Program.Then]
    split
    · exact Program.leads_raise ⟨nofun, rfl⟩
    · exact Program.leads_pure ⟨nofun, rfl⟩
  · split
    · exact Program.uses_raise
    · exact Program.uses_pure r

theorem plain_next : Plain 1 next := by
  refine ⟨fun p ↦ Program.Leads.bind (Program.leads_ask (fun t ↦ ?_) ⟨nofun, rfl⟩),
    Program.uses_ask.first fun t ↦ ?_⟩
  · simp only [Program.Then]
    split
    · exact Program.leads_raise ⟨nofun, rfl⟩
    · exact Program.leads_pure ⟨nofun, rfl⟩
  · split
    · exact Program.uses_raise
    · exact Program.uses_pure t

theorem Plain.loop {body : Script (Option β)} (h : Plain 0 body) (hasks : Program.Asks body) :
    Plain 0 (Program.loop body) := by
  refine ⟨fun p ↦ Program.Leads.loop (I := (· = p)) hasks rfl fun p₁ hp₁ ↦ ?_, h.uses.loop⟩
  refine (h.quiet p₁).mono fun r p' hr ↦ ?_
  have hp : p' = p := hr.2.trans hp₁
  cases r with
  | error e => exact ⟨fun he ↦ hr.1 (by cases he; rfl), hp⟩
  | ok o =>
    cases o with
    | none => exact hp
    | some b => exact ⟨nofun, hp⟩

/-- A loop each of whose rounds asks. -/
theorem Plain.loop_asks {body : Script (Option β)} (h : Plain 1 body) :
    Plain 0 (Program.loop body) := h.weaken.loop h.uses.asks

theorem Plain.forM {α : Type} {g : α → Script Unit} (h : ∀ x, Plain 0 (g x)) (xs : List α) :
    Plain 0 (xs.forM g) := by
  induction xs with
  | nil => exact plain_pure _
  | cons x xs ih => exact (h x).rest fun _ ↦ ih

theorem plain_sleep : Plain 1 sleep := plain_next.first fun _ ↦ plain_pure _

theorem plain_monotonic : Plain 0 monotonic := plain_look.rest fun _ ↦ plain_pure _

theorem plain_status : Plain 0 status := plain_look.rest fun _ ↦ plain_pure _

theorem plain_prompt (message : String) : Plain 1 (prompt message) :=
  (plain_print message).rest fun _ ↦ plain_next.first fun _ ↦ plain_pure _

theorem plain_accuracy (field : ImuCalibrationStatus → UInt8) : Plain 0 (accuracy field) :=
  plain_status.rest fun _ ↦ plain_pure _

theorem plain_headingAccuracyDeg (tool : CalibrationTool) : Plain 0 (headingAccuracyDeg tool) :=
  plain_status.rest fun _ ↦ plain_pure _

theorem plain_preflight : Plain 0 preflight :=
  (plain_print _).rest fun _ ↦ (plain_prompt _).rest fun _ ↦ plain_pure _

theorem plain_waitForFirstStatus (tool : CalibrationTool) : Plain 0 (waitForFirstStatus tool) := by
  refine plain_monotonic.rest fun start ↦ ?_
  refine (Plain.loop ?_ ?_).rest fun _ ↦ plain_status.rest fun _ ↦ plain_pure _
  · refine plain_status.rest fun received ↦ ?_
    split
    · exact plain_pure _
    · refine plain_monotonic.rest fun now ↦ ?_
      split
      · exact plain_sleep.rest fun _ ↦ plain_pure _
      · exact plain_pure _
  · -- only a round that sleeps is followed by another one
    refine plain_status.uses.asks_bind fun received ↦ ?_
    split
    · exact Program.asks_some _
    · refine plain_monotonic.uses.asks_bind fun now ↦ ?_
      split
      · exact (plain_sleep.first fun _ ↦ plain_pure _).uses.asks
      · exact Program.asks_some _

theorem plain_calibrateAccel : Plain 0 calibrateAccel := by
  refine (plain_print _).rest fun _ ↦ (plain_print _).rest fun _ ↦
    Plain.forM (fun orientation ↦ ?_) _
  exact (plain_prompt _).rest fun _ ↦ plain_sleep.rest fun _ ↦
    (plain_accuracy _).rest fun _ ↦ plain_print _

theorem plain_calibrateGyro : Plain 0 calibrateGyro := by
  refine (plain_print _).rest fun _ ↦ (plain_print _).rest fun _ ↦
    (plain_prompt _).rest fun _ ↦ Plain.loop_asks ?_
  -- a round sleeps in its countdown
  have hsecond (remaining : Nat) : Plain 1 (do
      let level ← accuracy (·.gyroscopeAccuracy)
      print s!"\rgyro accuracy: {getAccuracy level} "
      print s!"({remaining}/5s remaining)  \x1b[K"
      sleep) :=
    (plain_accuracy _).rest fun _ ↦ (plain_print _).rest fun _ ↦
      (plain_print _).rest fun _ ↦ plain_sleep
  have hcountdown : Plain 1 (countdown.forM fun remaining ↦ do
      let level ← accuracy (·.gyroscopeAccuracy)
      print s!"\rgyro accuracy: {getAccuracy level} "
      print s!"({remaining}/5s remaining)  \x1b[K"
      sleep) :=
    (hsecond 5).first fun _ ↦ Plain.forM (fun remaining ↦ (hsecond remaining).weaken) [4, 3, 2, 1]
  refine hcountdown.first fun _ ↦ (plain_print _).rest fun _ ↦
    (plain_accuracy _).rest fun level ↦ ?_
  split
  · exact (plain_print _).rest fun _ ↦ plain_pure _
  · exact (plain_prompt _).rest fun _ ↦ plain_pure _

theorem plain_calibrateCompass (tool : CalibrationTool) : Plain 0 (calibrateCompass tool) := by
  refine (plain_print _).rest fun _ ↦ (plain_print _).rest fun _ ↦
    (plain_prompt _).rest fun _ ↦ (plain_print _).rest fun _ ↦ Plain.loop_asks ?_
  have hkeypress : Plain 1 waitForKeypress := plain_next.first fun _ ↦ plain_pure _
  refine (Plain.loop_asks ?_).rest fun _ ↦ (plain_print _).rest fun _ ↦
    (plain_accuracy _).rest fun level ↦ (plain_headingAccuracyDeg tool).rest fun heading ↦ ?_
  · refine hkeypress.first fun pressed ↦ ?_
    split
    · exact plain_pure _
    · exact (plain_accuracy _).rest fun _ ↦ (plain_headingAccuracyDeg tool).rest fun _ ↦
        (plain_print _).rest fun _ ↦ plain_pure _
  · simp only
    split
    · exact (plain_prompt _).first fun _ ↦ plain_pure _
    · exact (plain_prompt _).first fun _ ↦ plain_pure _

/-! ### Programs that call services -/

/-- Where a call of a service leads. -/
def Called (service : Service) : Except Stop (Bool × String) → Phase → Prop
  | .ok response, p => p = .answered service response.1
  | .error e, p => e ≠ .endless ∧ (p = .calling service ∨ p = .requested service)

/-- To wait for a response, the tool asks again and again whether it has come. -/
theorem plain_response : Plain 0 (Program.loop (do
    let t ← next
    pure (if t.done then some (t.success, t.message) else none) :
      Script (Option (Bool × String)))) :=
  Plain.loop_asks (plain_next.first fun _ ↦ plain_pure _)

theorem uses_call (service : Service) : Program.Uses 0 (call service) :=
  (Program.uses_tell _).rest fun _ ↦ plain_look.uses.rest fun _ ↦ (Program.uses_tell _).rest fun _ ↦
    plain_response.uses.rest fun _ ↦ (Program.uses_tell _).rest fun _ ↦ Program.uses_pure _

theorem leads_call {service : Service} {p : Phase}
    (h : after (.call service) p = some (.calling service)) :
    Program.Leads after p (call service) (Called service) := by
  refine Program.Leads.bind (Program.leads_tell h ?_)
  refine Program.Leads.bind ((plain_look.quiet _).mono fun r p₁ hr ↦ ?_)
  cases r with
  | error e => exact ⟨fun he ↦ hr.1 (by rw [he]), Or.inl hr.2⟩
  | ok t =>
    cases hr.2
    refine Program.Leads.bind (Program.leads_tell (if_pos rfl) ?_)
    refine Program.Leads.bind ((plain_response.quiet _).mono fun r p₂ hr ↦ ?_)
    cases r with
    | error e => exact ⟨fun he ↦ hr.1 (by rw [he]), Or.inr hr.2⟩
    | ok response =>
      cases hr.2
      exact Program.Leads.bind (Program.leads_tell (if_pos rfl) (Program.leads_pure rfl))

/-- Where a part of a calibration leads: it can be stopped, and if the part ended, it stands in one
of some phases. -/
def Goes (phases : Phase → Prop) : Except Stop β → Phase → Prop
  | .ok _, p => phases p
  | .error e, p => e ≠ .endless ∧ p.isOpen = true

/-- Behind a program that calls no service, in a phase of a calibration. -/
theorem Plain.leads (hm : Plain n m) {p : Phase} {Q : Except Stop γ → Phase → Prop}
    (hstop : ∀ e, e ≠ .endless → Q (.error e) p) (hf : ∀ b, Program.Leads after p (f b) Q) :
    Program.Leads after p (m >>= f) Q := by
  refine Program.Leads.bind ((hm.quiet p).mono fun r p' hr ↦ ?_)
  cases hr.2
  cases r with
  | error e => exact hstop e fun he ↦ hr.1 (by rw [he])
  | ok b => exact hf b

theorem leads_saveAndContinue :
    Program.Leads after .started saveAndContinue (Goes (· = .started)) := by
  refine Program.Leads.loop (I := (· = .started)) ?_ rfl fun p hp ↦ ?_
  · refine ((plain_prompt _).uses.first fun answer ↦ ?_).asks
    split
    · refine (uses_call .save).rest fun response ↦ (plain_print _).uses.rest fun _ ↦ ?_
      split
      · exact (plain_prompt _).uses.rest fun _ ↦ Program.uses_pure _
      · exact Program.uses_pure _
    · exact Program.uses_pure _
  · subst hp
    refine (plain_prompt _).leads (fun e he ↦ ⟨he, rfl⟩) fun answer ↦ ?_
    split
    · have hcall : after (.call .save) .started = some (.calling .save) := rfl
      refine Program.Leads.bind ((leads_call hcall).mono fun r p hr ↦ ?_)
      cases r with
      | error e =>
        refine ⟨hr.1, ?_⟩
        rcases hr.2 with rfl | rfl
        · rfl
        · rfl
      | ok response =>
        cases hr
        refine (plain_print _).leads (fun e he ↦ ⟨he, rfl⟩) fun _ ↦ ?_
        split
        · refine (plain_prompt _).leads (fun e he ↦ ⟨he, rfl⟩) fun again ↦ Program.leads_pure ?_
          split
          · rfl
          · rfl
        · exact Program.leads_pure rfl
    · exact Program.leads_pure rfl

/-- What is tried starts the calibration before anything else, and leaves it to be stopped. -/
theorem leads_calibrate (tool : CalibrationTool) :
    Program.Leads after .idle (calibrate tool) (Goes (·.isOpen = true)) := by
  have hcall : after (.call .start) .idle = some (.calling .start) := rfl
  refine Program.Leads.bind ((leads_call hcall).mono fun r p hr ↦ ?_)
  cases r with
  | error e =>
    refine ⟨hr.1, ?_⟩
    rcases hr.2 with rfl | rfl
    · rfl
    · rfl
  | ok response =>
    rcases response with ⟨success, message⟩
    cases hr
    cases success with
    | false =>
      refine (plain_print _).leads (fun e he ↦ ⟨he, rfl⟩) fun _ ↦ ?_
      exact ((plain_print _).quiet _).mono fun r p hr ↦ by
        cases hr.2
        cases r with
        | error e => exact ⟨fun he ↦ hr.1 (by rw [he]), rfl⟩
        | ok _ => rfl
    | true =>
      have hopen : ∀ e, e ≠ Stop.endless → Goes (β := Unit) (·.isOpen = true) (.error e) .started :=
        fun e he ↦ ⟨he, rfl⟩
      refine (plain_print _).leads hopen fun _ ↦ ?_
      refine (plain_waitForFirstStatus tool).leads hopen fun received ↦ ?_
      have hstages : Program.Leads after .started (do
          calibrateAccel
          calibrateGyro
          calibrateCompass tool
          saveAndContinue) (Goes (·.isOpen = true)) := by
        refine plain_calibrateAccel.leads hopen fun _ ↦ plain_calibrateGyro.leads hopen fun _ ↦
          (plain_calibrateCompass tool).leads hopen fun _ ↦ leads_saveAndContinue.mono ?_
        intro r p hr
        cases r with
        | error e => exact hr
        | ok _ =>
          cases hr
          rfl
      split
      · exact (plain_print _).leads hopen fun _ ↦ hstages
      · exact hstages

/-- Where `run` ends or stops: with nothing called, or with a response to `stop`, unless the call
of `stop` was itself interrupted. -/
def Ended : Except Stop Unit → Phase → Prop
  | .ok (), p => p = .idle ∨ ∃ success, p = .over success
  | .error .raised, p =>
    p = .idle ∨ p = .calling .stop ∨ p = .requested .stop ∨ ∃ success, p = .over success
  | .error .waiting, _ => True
  | .error .endless, _ => False

/-- What is done finally calls `stop`. -/
def Stopped : Except Stop Unit → Phase → Prop
  | .ok _, p => ∃ success, p = .over success
  | .error e, p => e ≠ .endless ∧ (p = .calling .stop ∨ p = .requested .stop)

theorem leads_stop {p : Phase} (h : p.isOpen = true) : Program.Leads after p stop Stopped := by
  have hcall : after (.call .stop) p = some (.calling .stop) := if_pos h
  refine Program.Leads.bind ((leads_call hcall).mono fun r p₁ hr ↦ ?_)
  cases r with
  | error e => exact hr
  | ok response =>
    cases hr
    have hover : Stopped (.ok ()) (.over response.1) := ⟨response.1, rfl⟩
    exact Program.Leads.bind (Program.leads_tell rfl (Program.leads_tell rfl hover))

theorem ended_of_stopped {e : Stop} {p : Phase} (h : Stopped (.error e) p) :
    Ended (.error e) p := by
  cases e with
  | waiting => trivial
  | raised =>
    rcases h.2 with hcalling | hrequested
    · exact Or.inr (Or.inl hcalling)
    · exact Or.inr (Or.inr (Or.inl hrequested))
  | endless => exact h.1 rfl

theorem leads_run (tool : CalibrationTool) : Program.Leads after .idle (run tool) Ended := by
  refine Program.Leads.bind ((plain_preflight.quiet .idle).mono fun r p hr ↦ ?_)
  cases hr.2
  cases r with
  | error e =>
    cases e with
    | waiting => trivial
    | raised => exact Or.inl rfl
    | endless => exact hr.1 rfl
  | ok confirmed =>
    cases confirmed with
    | false => exact Program.leads_tell rfl (Or.inl rfl)
    | true =>
      -- however the calibration ends or is interrupted, `stop` is called
      refine Program.Leads.always ((leads_calibrate tool).mono fun r p hr ↦ ?_)
      cases r with
      | ok _ =>
        refine (leads_stop hr).mono fun r' p' hr' ↦ ?_
        cases r' with
        | error e => exact ended_of_stopped hr'
        | ok _ => exact Program.leads_pure (Or.inr hr')
      | error e =>
        cases e with
        | waiting => trivial
        | endless => exact hr.1 rfl
        | raised =>
          refine (leads_stop hr.2).mono fun r' p' hr' ↦ ?_
          cases r' with
          | error e => exact ended_of_stopped hr'
          | ok _ => exact Program.leads_raise (Or.inr (Or.inr (Or.inr hr')))

/-- The operator's line confirms the preflight. -/
def Turn.confirms (t : Turn) : Bool := !t.raises && (strip t.line).toLower == "y"

/-- What `preflight` returns is the operator's answer. -/
theorem confirms_of_preflight {w : Surroundings} (h : (preflight w).result = .ok true) :
    ∃ t ∈ w.answers.head?, t.confirms = true := by
  rcases w with ⟨readings, turns⟩
  cases turns with
  | nil => cases h
  | cons t turns =>
    refine ⟨t, rfl, ?_⟩
    rcases t with ⟨raises, line, ready, done, success, message⟩
    cases raises with
    | true => cases h
    | false => exact Except.ok.inj h

/-- However the operator, the clock and the services answer and whenever the tool is interrupted,
it calls the services in order: `start` once, after the operator confirmed; `save` only when `start`
succeeded; `stop` once and last. Once it has called `start` it does not end without a response to
`stop`, unless the call of `stop` is itself interrupted; and it does not run for ever without
waiting for the operator, for a time to pass or for a response. -/
theorem calibration_is_stopped (tool : CalibrationTool) (w : Surroundings) : ∃ phase,
    Transition.run after (run tool w).did .idle = some phase ∧
      Ended (run tool w).result phase ∧
      (phase ≠ .idle → ∃ t ∈ w.answers.head?, t.confirms = true) := by
  rcases leads_run tool w with ⟨phase, hrun, hended⟩
  refine ⟨phase, hrun, hended, fun hphase ↦ ?_⟩
  rcases plain_preflight.quiet .idle w with ⟨p, hpreflight, -, hp⟩
  subst hp
  change Transition.run after (Program.andThen preflight _ w).did .idle = _ at hrun
  unfold Program.andThen at hrun
  cases hr : (preflight w).result with
  | error e =>
    simp only [hr, hpreflight] at hrun
    exact absurd (Option.some.inj hrun).symm hphase
  | ok confirmed =>
    cases confirmed with
    | true => exact confirms_of_preflight hr
    | false =>
      -- nothing is called, so the phase is still the first one
      simp only [hr, Transition.run_append, hpreflight, Option.bind_some] at hrun
      exact absurd (Option.some.inj hrun).symm hphase

/-- A wait at which the operator types a line, and at which a response would have come. -/
def typed (line : String) : Turn := ⟨false, line, true, true, true, ""⟩

/-- A wait that is interrupted. -/
def interrupted : Turn := { typed "" with raises := true }

/-- Surroundings in which the clock stands still and no status is received. -/
def answering (turns : List Turn) : Surroundings := ⟨fun _ ↦ ⟨false, 0, none⟩, turns⟩

example : Transition.run after (run ⟨5000, fun _ ↦ ""⟩ (answering [
    typed " Y ", typed "", interrupted, typed ""])).did .idle =
      some (.over true) := by decide +kernel

end BlueROV2.Tool
