import BlueROV2.Base.History
import BlueROV2.Base.Transition
import BlueROV2.Firmware.Bno085

/-!
# How samples are assembled

Library `Firmware`. Any public methods of `BNO085` are called in any order, with any events and
any clock. A history, which the code does not have, keeps what was configured, which events were
read and which samples were returned. `sample_` and the two flags of `bno085.h` are told by it.
-/

namespace BlueROV2.Firmware

open BlueROV2.Base BlueROV2.Base.History

/-- A sample as `read` returned it: when, and with which limit for the age of the rates. -/
structure Returned where
  sample : Sample
  time : Nat
  gyroStaleMs : UInt32
  deriving DecidableEq, Repr

/-- An entry of the history: `configure` was called, or `read`, which took an event or none, at
some time, and returned a sample or none. -/
inductive Entry where
  | configured
  | read (event : Option (Nat × SensorValue)) (result : Option Returned)
  deriving DecidableEq, Repr

/-- The public methods that are not `const`; the parameters of `begin` are those that are kept. -/
inductive Method where
  | begin (reportPeriodMs gyroStaleMs timeoutMs : UInt32)
  | configure
  | wasReset
  | reset
  | read
  | startCalibration
  | stopCalibration
  | saveCalibration
  deriving DecidableEq, Repr

namespace BNO085

variable (x : BNO085)

/-- The first half of `read`: an event is taken, if one waits; `bno085.cpp:81–116`. -/
def taking : BNO085 :=
  let (waiting, x) := x.call BNO08x.getSensorEvent
  if waiting then x.takeEvent else x

/-- The second half of `read`; `bno085.cpp:118–132`. -/
def assemble : Option Sample × BNO085 :=
  if !x.haveAccel || !x.haveQuat then (none, x)
  else
    let x := { x with haveAccel := false, haveQuat := false }
    let (now, x) := x.call BNO08x.millis
    let x :=
      if now - x.lastGyroMs > x.gyroStaleMs then
        { x with sample := { x.sample with gx := 0, gy := 0, gz := 0 } }
      else x
    (some x.sample, x)

theorem read_eq : x.read = x.taking.assemble := rfl

/-- What a call of `read` adds to the history. -/
def readEntry : Entry :=
  .read ((nextMoment x.imu.ahead).event.map fun v ↦ (x.taking.imu.now, v))
    (x.read.1.map fun sample ↦ ⟨sample, x.read.2.imu.now, x.gyroStaleMs⟩)

/-- Whether the loop of `begin` gets as far as to call `configure`. -/
def configuresIn (start timeoutMs : UInt32) : Nat → BNO085 → Bool
  | 0, _ => false
  | fuel + 1, x =>
    let (now, x) := x.call BNO08x.millis
    if now - start < timeoutMs then
      let (begun, x) := x.call BNO08x.begin
      if begun then true else configuresIn start timeoutMs fuel (x.delay 100)
    else false

/-- Whether `begin` calls `configure`. -/
def beginConfigures (reportPeriodMs gyroStaleMs timeoutMs : UInt32) : Bool :=
  let x := { x with reportPeriodMs, gyroStaleMs }
  let (start, x) := x.call BNO08x.millis
  configuresIn start timeoutMs (x.imu.ahead.length + 1) x

end BNO085

/-- A method is called. -/
def Method.invoke : Method → BNO085 → Option BNO085
  | .begin reportPeriodMs gyroStaleMs timeoutMs, x =>
    (x.begin reportPeriodMs gyroStaleMs timeoutMs).map Prod.snd
  | .configure, x => some x.configure.2
  | .wasReset, x => some x.wasReset.2
  | .reset, x => some x.reset.2
  | .read, x => some x.read.2
  | .startCalibration, x => some x.startCalibration.2
  | .stopCalibration, x => some x.stopCalibration.2
  | .saveCalibration, x => some x.saveCalibration.2

/-- What the call adds to the history. -/
def Method.entries : Method → BNO085 → List Entry
  | .begin reportPeriodMs gyroStaleMs timeoutMs, x =>
    if x.beginConfigures reportPeriodMs gyroStaleMs timeoutMs then [.configured] else []
  | .configure, _ => [.configured]
  | .reset, _ => [.configured]
  | .read, x => [x.readEntry]
  | _, _ => []

/-- The object with its history. -/
structure Logged where
  imu : BNO085
  log : List Entry

/-- The object just constructed, before anything happened. -/
def Logged.start (powerOnConfig : UInt8) : Logged := ⟨.start powerOnConfig, []⟩

/-- A call of a method with the moments it uses. -/
abbrev Call : Type := Method × List Moment

/-- A call as a step of a system. -/
def Call.act (c : Call) (s : Logged) : Option Logged :=
  (c.1.invoke (s.imu.facing c.2)).map fun imu ↦ ⟨imu, s.log ++ c.1.entries (s.imu.facing c.2)⟩

/-! ### What a method does to the sample -/

def Sample.acceleration (s : Sample) : Vector Word 3 := #v[s.ax, s.ay, s.az]

def Sample.rates (s : Sample) : Vector Word 3 := #v[s.gx, s.gy, s.gz]

def Sample.orientation (s : Sample) : Vector Word 4 := #v[s.qx, s.qy, s.qz, s.qw]

/-- The vector of an event. -/
def SensorValue.vector (v : SensorValue) : Vector Word 3 := #v[v.x, v.y, v.z]

/-- The length of the rotation of an event. -/
def SensorValue.length (v : SensorValue) : Float32 :=
  let square (w : Word) : Float32 := Float32.ofBits w * Float32.ofBits w
  Float32.sqrt (square v.x + square v.y + square v.z + square v.real)

/-- The rotation of an event, normalised: each component is divided by the length if that is
positive, and otherwise left as it is. -/
def SensorValue.rotation (v : SensorValue) : Vector Word 4 :=
  let scaled (w : Word) : Word := if 0 < v.length then (Float32.ofBits w / v.length).toBits else w
  #v[scaled v.x, scaled v.y, scaled v.z, scaled v.real]

/-- An event of a sensor. -/
def eventOf (sensor : SensorId) (event : Option (Nat × SensorValue)) :
    Option (Nat × SensorValue) :=
  event.filter fun e ↦ e.2.sensorId = sensor

/-- The event of a sensor that an entry shows. -/
def Entry.eventOf (sensor : SensorId) : Entry → Option (Nat × SensorValue)
  | .configured => none
  | .read event _ => Firmware.eventOf sensor event

/-- The flags are lowered: `configure` was called or a sample was returned. -/
def Entry.Lowers : Entry → Prop
  | .configured => True
  | .read _ result => result.isSome

/-- The parts of the object that `read` works with stay as they are. -/
structure Kept (x y : BNO085) : Prop where
  sample : y.sample = x.sample
  haveAccel : y.haveAccel = x.haveAccel
  haveQuat : y.haveQuat = x.haveQuat
  lastGyroMs : y.lastGyroMs = x.lastGyroMs
  now : x.imu.now ≤ y.imu.now

/-- They are set as `configure` sets them. -/
structure Lowered (x y : BNO085) : Prop where
  sample : y.sample = x.sample
  haveAccel : y.haveAccel = false
  haveQuat : y.haveQuat = false
  lastGyroMs : y.lastGyroMs = 0
  now : x.imu.now ≤ y.imu.now

variable {x y z : BNO085}

theorem Kept.trans (h : Kept x y) (h' : Kept y z) : Kept x z :=
  ⟨h'.sample.trans h.sample, h'.haveAccel.trans h.haveAccel, h'.haveQuat.trans h.haveQuat,
    h'.lastGyroMs.trans h.lastGyroMs, Nat.le_trans h.now h'.now⟩

theorem Kept.lowered (h : Kept x y) (h' : Lowered y z) : Lowered x z :=
  ⟨h'.sample.trans h.sample, h'.haveAccel, h'.haveQuat, h'.lastGyroMs, Nat.le_trans h.now h'.now⟩

theorem Lowered.kept (h : Lowered x y) (h' : Kept y z) : Lowered x z :=
  ⟨h'.sample.trans h.sample, h'.haveAccel.trans h.haveAccel, h'.haveQuat.trans h.haveQuat,
    h'.lastGyroMs.trans h.lastGyroMs, Nat.le_trans h.now h'.now⟩

/-- A call of the library, after which it is as late as before, or later. -/
theorem kept_call {α : Type} (x : BNO085) (f : BNO08x → α × BNO08x)
    (h : x.imu.now ≤ (f x.imu).2.now) : Kept x (x.call f).2 := ⟨rfl, rfl, rfl, rfl, h⟩

theorem kept_delay (x : BNO085) (ms : Nat) : Kept x (x.delay ms) :=
  ⟨rfl, rfl, rfl, rfl, Nat.le_trans (Nat.le_add_right _ _) (Nat.le_add_right _ _)⟩

theorem kept_request (x : BNO085) (granted : Moment → Bool) (effect : Imu → Imu) :
    Kept x (x.call (·.request granted effect)).2 := by
  apply kept_call
  unfold BNO08x.request
  split
  · exact Nat.le_add_right _ _
  · exact Nat.le_add_right _ _

theorem kept_millis (x : BNO085) : Kept x (x.call BNO08x.millis).2 :=
  kept_call x _ (Nat.le_add_right _ _)

/-- A change of calibration does not touch the sample. -/
theorem kept_calibrate (x : BNO085) (sensors : UInt8) (ms : UInt32) :
    Kept x (x.calibrate sensors ms).2 := by
  obtain ⟨r, hr⟩ : ∃ r, r = x.call (·.enableReport .magneticFieldCalibrated (ms * 1000)) :=
    ⟨_, rfl⟩
  obtain ⟨r', hr'⟩ : ∃ r', r' = r.2.call (·.setCalibrationConfig sensors) := ⟨_, rfl⟩
  have hreport : Kept x r.2 := hr ▸ kept_request x _ _
  have hconfig : Kept r.2 r'.2 := hr' ▸ kept_request r.2 _ _
  rw [BNO085.calibrate]
  simp only [← hr, ← hr']
  split
  · exact hreport
  · split
    · exact hreport.trans hconfig
    · exact (hreport.trans hconfig).trans ⟨rfl, rfl, rfl, rfl, Nat.le_refl _⟩

theorem kept_setReports (x : BNO085) : Kept x x.setReports.2 :=
  ((kept_request x _ _).trans (kept_request _ _ _)).trans (kept_request _ _ _)

theorem lowered_configure (x : BNO085) : Lowered x x.configure.2 := by
  have hclear : Lowered x { x with haveAccel := false, haveQuat := false, lastGyroMs := 0 } :=
    ⟨rfl, rfl, rfl, rfl, Nat.le_refl _⟩
  exact (hclear.kept (kept_setReports _)).kept (kept_delay _ 100)

theorem lowered_reset (x : BNO085) : Lowered x x.reset.2 := by
  rw [BNO085.reset]
  simp only
  split
  · exact lowered_configure x
  · split
    · exact (lowered_configure x).kept (kept_calibrate _ _ _)
    · exact (lowered_configure x).kept (kept_calibrate _ _ _)

/-- The loop of `begin` ends in `configure`, or leaves the sample alone. -/
theorem beginLoop_sample (start timeoutMs : UInt32) (fuel : Nat) (x : BNO085) {ok : Bool}
    (h : BNO085.beginLoop start timeoutMs fuel x = some (ok, y)) :
    (BNO085.configuresIn start timeoutMs fuel x = true ∧ Lowered x y) ∨
      (BNO085.configuresIn start timeoutMs fuel x = false ∧ Kept x y) := by
  induction fuel generalizing x with
  | zero => cases h
  | succ fuel ih =>
    rw [BNO085.beginLoop] at h
    rw [BNO085.configuresIn]
    simp only at h ⊢
    by_cases hnow : (x.call BNO08x.millis).1 - start < timeoutMs
    · rw [if_pos hnow] at h ⊢
      obtain ⟨r, hr⟩ : ∃ r, r = (x.call BNO08x.millis).2.call BNO08x.begin := ⟨_, rfl⟩
      -- what the attempt called leaves the sample alone
      have hkept : Kept x r.2 := hr ▸ (kept_millis x).trans (kept_request _ _ _)
      have hwait : Kept x (r.2.delay 100) := hkept.trans (kept_delay r.2 100)
      rw [← hr] at h ⊢
      cases hb : r.1 with
      | true =>
        simp only [hb, if_true] at h ⊢
        have hy : r.2.configure.2 = y := congrArg Prod.snd (Option.some.inj h)
        rw [← hy]
        exact Or.inl ⟨trivial, hkept.lowered (lowered_configure r.2)⟩
      | false =>
        simp only [hb, Bool.false_eq_true, if_false] at h ⊢
        rcases ih _ h with ⟨hc, hlowered⟩ | ⟨hc, hleft⟩
        · exact Or.inl ⟨hc, hwait.lowered hlowered⟩
        · exact Or.inr ⟨hc, hwait.trans hleft⟩
    · rw [if_neg hnow] at h ⊢
      cases h
      exact Or.inr ⟨rfl, kept_millis x⟩

/-- `begin` ends in `configure`, or leaves the sample alone. -/
theorem begin_sample (reportPeriodMs gyroStaleMs timeoutMs : UInt32) (x : BNO085) {ok : Bool}
    (h : x.begin reportPeriodMs gyroStaleMs timeoutMs = some (ok, y)) :
    (x.beginConfigures reportPeriodMs gyroStaleMs timeoutMs = true ∧ Lowered x y) ∨
      (x.beginConfigures reportPeriodMs gyroStaleMs timeoutMs = false ∧ Kept x y) := by
  obtain ⟨r, hr⟩ : ∃ r, r = ({ x with reportPeriodMs, gyroStaleMs } : BNO085).call BNO08x.millis :=
    ⟨_, rfl⟩
  have hstart : Kept x { x with reportPeriodMs, gyroStaleMs } :=
    ⟨rfl, rfl, rfl, rfl, Nat.le_refl _⟩
  have hkept : Kept x r.2 := hr ▸ hstart.trans (kept_millis _)
  rw [BNO085.begin] at h
  rw [BNO085.beginConfigures]
  simp only [← hr] at h ⊢
  rcases beginLoop_sample _ _ _ _ h with ⟨hc, hlowered⟩ | ⟨hc, hleft⟩
  · exact Or.inl ⟨hc, hkept.lowered hlowered⟩
  · exact Or.inr ⟨hc, hkept.trans hleft⟩

/-- A method other than `read` keeps the sample, and it lowers the flags just when it calls
`configure`, of which the history knows. -/
theorem invoke_sample {m : Method} (hm : m ≠ .read) (h : m.invoke x = some y) :
    (m.entries x = [] ∧ Kept x y) ∨ (m.entries x = [.configured] ∧ Lowered x y) := by
  cases m with
  | begin p g t =>
    rcases Option.map_eq_some_iff.mp h with ⟨⟨ok, y'⟩, hbegin, rfl⟩
    rcases begin_sample p g t x hbegin with ⟨hc, hlowered⟩ | ⟨hc, hkept⟩
    · exact Or.inr ⟨if_pos hc, hlowered⟩
    · exact Or.inl ⟨if_neg (Bool.eq_false_iff.mp hc), hkept⟩
  | configure =>
    cases h
    exact Or.inr ⟨rfl, lowered_configure x⟩
  | wasReset =>
    cases h
    exact Or.inl ⟨rfl, kept_call x _ (Nat.le_add_right _ _)⟩
  | reset =>
    cases h
    exact Or.inr ⟨rfl, lowered_reset x⟩
  | read => exact absurd rfl hm
  | startCalibration =>
    cases h
    exact Or.inl ⟨rfl, kept_calibrate _ _ _⟩
  | stopCalibration =>
    cases h
    exact Or.inl ⟨rfl, kept_calibrate _ _ _⟩
  | saveCalibration =>
    cases h
    exact Or.inl ⟨rfl, kept_request x _ _⟩

/-- Every method returns. -/
theorem exists_invoke (m : Method) (x : BNO085) : ∃ y, m.invoke x = some y := by
  cases m with
  | begin p g t =>
    rcases x.begin_spec p g t with ⟨ok, y, hy, -⟩
    exact ⟨y, congrArg (Option.map Prod.snd) hy⟩
  | _ => exact ⟨_, rfl⟩

/-! ### What `read` does to the sample -/

/-- What is stored after an event was taken: what it brings, or what was stored before. -/
structure Taken (event : Option (Nat × SensorValue)) (x y : BNO085) : Prop where
  acceleration : y.sample.acceleration =
    ((eventOf .accelerometer event).map (·.2.vector)).getD x.sample.acceleration
  haveAccel : y.haveAccel = ((eventOf .accelerometer event).isSome || x.haveAccel)
  orientation : y.sample.orientation =
    ((eventOf .rotationVector event).map (·.2.rotation)).getD x.sample.orientation
  haveQuat : y.haveQuat = ((eventOf .rotationVector event).isSome || x.haveQuat)
  rates : y.sample.rates =
    ((eventOf .gyroscopeCalibrated event).map (·.2.vector)).getD x.sample.rates
  lastGyroMs : y.lastGyroMs =
    ((eventOf .gyroscopeCalibrated event).map (UInt32.ofNat ·.1)).getD x.lastGyroMs
  gyroStaleMs : y.gyroStaleMs = x.gyroStaleMs
  now : x.imu.now ≤ y.imu.now

/-- What `read` returns with a sample: the stored one, with zero rates if they are too old. -/
structure Assembled (s : Sample) (x y : BNO085) : Prop where
  sample : y.sample = s
  acceleration : s.acceleration = x.sample.acceleration
  orientation : s.orientation = x.sample.orientation
  rates : s.rates =
    if UInt32.ofNat y.imu.now - x.lastGyroMs > x.gyroStaleMs then #v[0, 0, 0] else x.sample.rates
  haveAccel : y.haveAccel = false
  haveQuat : y.haveQuat = false
  lastGyroMs : y.lastGyroMs = x.lastGyroMs
  now : x.imu.now ≤ y.imu.now

/-- What `read` stores of a rotation is the normalised one. -/
theorem normalizeQuat_eq_rotation (v : SensorValue) :
    normalizeQuat #v[v.x, v.y, v.z, v.real] = v.rotation := by
  have hzero : (0.0 : Float32) = 0 := by decide +kernel
  have hlength : normalizeQuat #v[v.x, v.y, v.z, v.real] =
      if 0 < v.length then
        (#v[v.x, v.y, v.z, v.real].map Float32.ofBits).map (fun c ↦ (c / v.length).toBits)
      else #v[v.x, v.y, v.z, v.real] := by
    simp only [normalizeQuat, hzero, Vector.getElem_map]
    rfl
  rw [hlength, SensorValue.rotation]
  by_cases h : 0 < v.length
  · simp only [if_pos h, Vector.map_mk, List.map_toArray, List.map_cons, List.map_nil]
  · simp only [if_neg h]

private theorem vector_eta (q : Vector Word 4) : #v[q.get 0, q.get 1, q.get 2, q.get 3] = q := by
  ext i hi
  match i, hi with
  | 0, _ | 1, _ | 2, _ | 3, _ => rfl

/-- The event that waits is taken, at the time when that is done. -/
theorem taken_taking (x : BNO085) :
    Taken ((nextMoment x.imu.ahead).event.map fun v ↦ (x.taking.imu.now, v)) x x.taking := by
  rw [BNO085.taking, BNO085.call, BNO08x.getSensorEvent]
  cases (nextMoment x.imu.ahead).event with
  | none => exact ⟨rfl, rfl, rfl, rfl, rfl, rfl, rfl, Nat.le_add_right _ _⟩
  | some v =>
    rcases v with ⟨sensor, status, vx, vy, vz, real, accuracy⟩
    cases sensor with
    | rotationVector =>
      have hrotation :=
        normalizeQuat_eq_rotation ⟨.rotationVector, status, vx, vy, vz, real, accuracy⟩
      exact ⟨rfl, rfl, (vector_eta _).trans hrotation, rfl, rfl, rfl, rfl, Nat.le_add_right _ _⟩
    | gyroscopeCalibrated =>
      -- the clock is read once more
      exact ⟨rfl, rfl, rfl, rfl, rfl, rfl, rfl,
        Nat.le_trans (Nat.le_add_right _ _) (Nat.le_add_right _ _)⟩
    | _ => exact ⟨rfl, rfl, rfl, rfl, rfl, rfl, rfl, Nat.le_add_right _ _⟩

/-- A sample is returned just when both flags are raised. -/
theorem assemble_spec (x : BNO085) :
    (x.assemble = (none, x) ∧ ¬ (x.haveAccel = true ∧ x.haveQuat = true)) ∨
      ∃ s y, x.assemble = (some s, y) ∧ (x.haveAccel = true ∧ x.haveQuat = true) ∧
        Assembled s x y := by
  rw [BNO085.assemble]
  cases ha : x.haveAccel with
  | false => exact Or.inl ⟨rfl, nofun⟩
  | true =>
    cases hq : x.haveQuat with
    | false => exact Or.inl ⟨rfl, nofun⟩
    | true =>
      refine Or.inr ⟨_, _, rfl, ⟨rfl, rfl⟩, ?_⟩
      simp only
      split
      · next hold =>
        exact ⟨rfl, rfl, rfl, (if_pos hold).symm, rfl, rfl, rfl, Nat.le_add_right _ _⟩
      · next hnew =>
        exact ⟨rfl, rfl, rfl, (if_neg hnew).symm, rfl, rfl, rfl, Nat.le_add_right _ _⟩

/-! ### What the flags and the sample tell of the history -/

/-- A flag tells whether an event of its sensor was read since the flags were lowered, and what is
stored is what the latest one brought. -/
structure Tracks {γ : Type} (sensor : SensorId) (view : SensorValue → γ) (log : List Entry)
    (flag : Bool) (stored : γ) : Prop where
  flag : flag = true ↔ SeenSince (Entry.eventOf sensor) Entry.Lowers log
  stored : ∀ j e, LatestAt (Entry.eventOf sensor) log j e → stored = view e.2

/-- With an entry, the latest event of a sensor is such a one, and it was read since the flags
were lowered before that entry. -/
def Arrived (sensor : SensorId) (log : List Entry) (entry : Entry) (e : Nat × SensorValue) : Prop :=
  ∃ j, LatestAt (Entry.eventOf sensor) (log ++ [entry]) j e ∧ NoneFrom Entry.Lowers log j

section Tracking

variable {γ : Type} {sensor : SensorId} {view : SensorValue → γ} {log : List Entry} {flag : Bool}
  {stored : γ}

theorem tracks_nil (stored : γ) : Tracks sensor view [] false stored :=
  ⟨⟨nofun, fun h ↦ absurd h not_seenSince_nil⟩, fun _ _ hl ↦ absurd hl.lt (Nat.not_lt_zero _)⟩

/-- A configuration lowers the flag and leaves what is stored. -/
theorem Tracks.configured (h : Tracks sensor view log flag stored) :
    Tracks sensor view (log ++ [.configured]) false stored := by
  refine ⟨⟨nofun, fun hs ↦ absurd hs (not_seenSince_concat trivial)⟩, fun j e hl ↦ ?_⟩
  exact h.stored j e ((latestAt_concat_of_none rfl).mp hl)

variable (event : Option (Nat × SensorValue)) (result : Option Returned)

/-- What a call of `read` shows of a sensor is the event it took. -/
theorem Entry.eventOf_read (sensor : SensorId) :
    Entry.eventOf sensor (.read event result) = Firmware.eventOf sensor event := rfl

/-- What is stored after an event was taken. -/
theorem Tracks.stored_read (h : Tracks sensor view log flag stored) {j : Nat}
    {e : Nat × SensorValue}
    (hl : LatestAt (Entry.eventOf sensor) (log ++ [.read event result]) j e) :
    ((eventOf sensor event).map (view ·.2)).getD stored = view e.2 := by
  have hshown := Entry.eventOf_read event result sensor
  cases he : eventOf sensor event with
  | none => exact h.stored j e ((latestAt_concat_of_none (hshown.trans he)).mp hl)
  | some e' =>
    rw [((latestAt_concat_of_some (hshown.trans he)).mp hl).2]
    rfl

/-- The flag after an event was taken tells whether there is one to return. -/
theorem Tracks.arrived_read (h : Tracks sensor view log flag stored) :
    ((eventOf sensor event).isSome || flag) = true ↔
      ∃ e, Arrived sensor log (.read event result) e := by
  have hshown := Entry.eventOf_read event result sensor
  cases he : eventOf sensor event with
  | none =>
    rw [Option.isSome_none, Bool.false_or, h.flag]
    constructor
    · rintro ⟨j, e, hl, hn⟩
      exact ⟨e, j, (latestAt_concat_of_none (hshown.trans he)).mpr hl, hn⟩
    · rintro ⟨e, j, hl, hn⟩
      exact ⟨j, e, (latestAt_concat_of_none (hshown.trans he)).mp hl, hn⟩
  | some e =>
    have hlatest := (latestAt_concat_of_some (h := log) (hshown.trans he)).mpr ⟨rfl, rfl⟩
    exact ⟨fun _ ↦ ⟨e, log.length, hlatest, noneFrom_length⟩, fun _ ↦ rfl⟩

/-- The flag is lowered with a sample returned, and otherwise stays as the event left it. -/
theorem Tracks.read (h : Tracks sensor view log flag stored) :
    Tracks sensor view (log ++ [.read event result])
      (!result.isSome && ((eventOf sensor event).isSome || flag))
      (((eventOf sensor event).map (view ·.2)).getD stored) := by
  refine ⟨?_, fun j e hl ↦ h.stored_read event result hl⟩
  cases result with
  | some r => exact ⟨nofun, fun hs ↦ absurd hs (not_seenSince_concat rfl)⟩
  | none =>
    have hshown := Entry.eventOf_read event none sensor
    have hraised : ¬ Entry.Lowers (.read event none) := nofun
    cases he : eventOf sensor event with
    | none => exact h.flag.trans (seenSince_concat_of_none (hshown.trans he) hraised).symm
    | some e => exact ⟨fun _ ↦ seenSince_concat_of_some (hshown.trans he) hraised, fun _ ↦ rfl⟩

end Tracking

/-! ### Runs -/

/-- A read returns a sample just when an event of both kinds has arrived, and the sample carries
the latest ones. -/
def AssembledFresh (log : List Entry) : Entry → Prop
  | .configured => True
  | .read event result =>
    (result.isSome ↔ (∃ e, Arrived .accelerometer log (.read event result) e) ∧
      ∃ e, Arrived .rotationVector log (.read event result) e) ∧
    ∀ r ∈ result,
      (∃ e, Arrived .accelerometer log (.read event result) e ∧
        r.sample.acceleration = e.2.vector) ∧
      ∃ e, Arrived .rotationVector log (.read event result) e ∧
        r.sample.orientation = e.2.rotation

/-- The sample returned at place `i` carries the event of a sensor at place `j`. -/
def Carries (log : List Entry) (i : Nat) (sensor : SensorId) (j : Nat) : Prop :=
  (∃ event r, log[i]? = some (.read event (some r))) ∧
    ∃ e, LatestAt (Entry.eventOf sensor) (log.take (i + 1)) j e

/-- The object agrees with its history, which is right throughout. -/
structure Logged.Tracked (s : Logged) : Prop where
  accel : Tracks .accelerometer SensorValue.vector s.log s.imu.haveAccel s.imu.sample.acceleration
  quat : Tracks .rotationVector SensorValue.rotation s.log s.imu.haveQuat s.imu.sample.orientation
  fresh : Throughout AssembledFresh s.log

theorem tracked_start (powerOnConfig : UInt8) : (Logged.start powerOnConfig).Tracked :=
  ⟨tracks_nil _, tracks_nil _, throughout_nil⟩

/-- What lowers the flags, as `configure` does, keeps the agreement. -/
private theorem tracked_lowered {log : List Entry} (h : Logged.Tracked ⟨x, log⟩)
    (hxy : Lowered x y) : Logged.Tracked ⟨y, log ++ [.configured]⟩ := by
  refine ⟨?_, ?_, h.fresh.concat trivial⟩
  · simp only [hxy.haveAccel, hxy.sample]
    exact h.accel.configured
  · simp only [hxy.haveQuat, hxy.sample]
    exact h.quat.configured

private theorem tracked_read {log : List Entry} (h : Logged.Tracked ⟨x, log⟩) :
    Logged.Tracked ⟨x.read.2, log ++ [x.readEntry]⟩ := by
  have ht := taken_taking x
  rw [BNO085.readEntry]
  simp only [BNO085.read_eq]
  generalize (nextMoment x.imu.ahead).event.map (fun v ↦ (x.taking.imu.now, v)) = event at ht ⊢
  rcases assemble_spec x.taking with ⟨heq, hflags⟩ | ⟨s, y, heq, hflags, ha⟩
  · -- no sample: the flags are as the event left them
    rw [heq]
    have haccel := h.accel.read event none
    have hquat := h.quat.read event none
    refine ⟨?_, ?_, h.fresh.concat ⟨?_, nofun⟩⟩
    · simp only [ht.haveAccel, ht.acceleration]
      exact haccel
    · simp only [ht.haveQuat, ht.orientation]
      exact hquat
    · rw [ht.haveAccel, ht.haveQuat, h.accel.arrived_read event none,
        h.quat.arrived_read event none] at hflags
      exact ⟨nofun, fun hboth ↦ absurd hboth hflags⟩
  · rw [heq]
    obtain ⟨r, hr⟩ : ∃ r : Returned, r = ⟨s, y.imu.now, x.gyroStaleMs⟩ := ⟨_, rfl⟩
    have haccel := h.accel.read event (some r)
    have hquat := h.quat.read event (some r)
    rw [ht.haveAccel, ht.haveQuat, h.accel.arrived_read event (some r),
      h.quat.arrived_read event (some r)] at hflags
    simp only [Option.map_some, ← hr]
    refine ⟨?_, ?_, h.fresh.concat ⟨⟨fun _ ↦ hflags, fun _ ↦ rfl⟩, ?_⟩⟩
    · simp only [ha.haveAccel, ha.sample, ha.acceleration, ht.acceleration]
      exact haccel
    · simp only [ha.haveQuat, ha.sample, ha.orientation, ht.orientation]
      exact hquat
    · intro r' hr'
      cases hr'
      rcases hflags with ⟨⟨a, j, hlatest, hnone⟩, ⟨q, k, hlatest', hnone'⟩⟩
      refine ⟨⟨a, ⟨j, hlatest, hnone⟩, ?_⟩, ⟨q, ⟨k, hlatest', hnone'⟩, ?_⟩⟩
      · rw [hr, ha.acceleration, ht.acceleration]
        exact h.accel.stored_read event (some r) hlatest
      · rw [hr, ha.orientation, ht.orientation]
        exact h.quat.stored_read event (some r) hlatest'

/-- A call keeps the agreement. -/
theorem tracked_act {c : Call} {s s' : Logged} (h : c.act s = some s') (hs : s.Tracked) :
    s'.Tracked := by
  have hfacing : Logged.Tracked ⟨s.imu.facing c.2, s.log⟩ := ⟨hs.accel, hs.quat, hs.fresh⟩
  rcases Option.map_eq_some_iff.mp h with ⟨y, hy, rfl⟩
  by_cases hm : c.1 = .read
  · rw [hm] at hy ⊢
    cases hy
    exact tracked_read hfacing
  · rcases invoke_sample hm hy with ⟨hentries, hkept⟩ | ⟨hentries, hlowered⟩
    · rw [hentries, List.append_nil]
      refine ⟨?_, ?_, hs.fresh⟩
      · simp only [hkept.haveAccel, hkept.sample]
        exact hfacing.accel
      · simp only [hkept.haveQuat, hkept.sample]
        exact hfacing.quat
    · rw [hentries]
      exact tracked_lowered hfacing hlowered

/-- Any list of calls is a run. -/
theorem exists_calls (calls : List Call) (s : Logged) :
    ∃ s', Transition.run Call.act calls s = some s' := by
  induction calls generalizing s with
  | nil => exact ⟨s, rfl⟩
  | cons c calls ih =>
    rcases exists_invoke c.1 (s.imu.facing c.2) with ⟨y, hy⟩
    rcases ih ⟨y, s.log ++ c.1.entries (s.imu.facing c.2)⟩ with ⟨s', hs'⟩
    refine ⟨s', ?_⟩
    rw [Transition.run, Call.act, hy]
    exact hs'

/-- The events of a sample were read after every sample before it. -/
private theorem carries_lt {log : List Entry} (hall : Throughout AssembledFresh log)
    {sensor : SensorId} (hsensor : sensor = .accelerometer ∨ sensor = .rotationVector)
    {i i' j j' : Nat} (h : Carries log i sensor j) (h' : Carries log i' sensor j') (hi : i < i') :
    j < j' := by
  rcases h with ⟨⟨event, r, hentry⟩, e, hlatest⟩
  rcases h' with ⟨⟨event', r', hentry'⟩, e', hlatest'⟩
  have harrived : ∃ e, Arrived sensor (log.take i') (.read event' (some r')) e := by
    have hfresh := (hall.getElem? hentry').1.mp rfl
    rcases hsensor with rfl | rfl
    · exact hfresh.1
    · exact hfresh.2
  rcases harrived with ⟨a, k, hk, hnone⟩
  have hconcat : log.take i' ++ [.read event' (some r')] = log.take (i' + 1) := by
    rw [List.take_add_one, hentry']
    rfl
  rw [hconcat] at hk
  rw [(hlatest'.unique hk).1]
  have hlt : j < i + 1 := Nat.lt_of_lt_of_le hlatest.lt (List.length_take_le _ _)
  -- the earlier sample lies before the later one's event
  have hik : i < k := by
    apply Nat.lt_of_not_le
    intro hki
    refine hnone i (.read event (some r)) hki ?_ rfl
    rw [List.getElem?_take_of_lt hi]
    exact hentry
  exact Nat.lt_of_lt_of_le hlt hik

/-- In every sequence of calls of the methods, with any events, each sample carries the latest
acceleration and the latest orientation, both of which were read after the sample before it and
after the last configuration. It is returned by the first read at which there are both. No event
is carried by two samples. -/
theorem samples_not_reused (powerOnConfig : UInt8) (calls : List Call) :
    ∃ s, Transition.run Call.act calls (.start powerOnConfig) = some s ∧
      Throughout AssembledFresh s.log ∧
      ∀ sensor, sensor = .accelerometer ∨ sensor = .rotationVector → ∀ i i' j,
        Carries s.log i sensor j → Carries s.log i' sensor j → i = i' := by
  rcases exists_calls calls (.start powerOnConfig) with ⟨s, hs⟩
  have htracked : s.Tracked := by
    refine Transition.invariant ?_ (tracked_start powerOnConfig) hs
    exact fun c s s' h hi ↦ tracked_act h hi
  refine ⟨s, hs, htracked.fresh, fun sensor hsensor i i' j hi hi' ↦ ?_⟩
  rcases Nat.lt_trichotomy i i' with hlt | heq | hgt
  · exact absurd (carries_lt htracked.fresh hsensor hi hi' hlt) (Nat.lt_irrefl j)
  · exact heq
  · exact absurd (carries_lt htracked.fresh hsensor hi' hi hgt) (Nat.lt_irrefl j)

/-- A call of `read` some time after the call before it, when an event of a sensor waits. -/
def reading (elapsed : Nat) (sensor : SensorId) (x : Word) : Call :=
  (.read, [{ Moment.quiet with elapsed, event := some ⟨sensor, 3, x, 0, 0, 0, 0⟩ }])

/-- Two samples are read, with a different acceleration each, and with rotations of length 2 and
3. -/
def twoSamples : List Call := [
  (.begin 5 100 5000, []), reading 5 .accelerometer 1, reading 5 .rotationVector 0x40000000,
  reading 5 .accelerometer 3, reading 5 .rotationVector 0x40400000]

/-- Whether an entry shows an acceleration, and the orientation of a sample that it returned. -/
def Entry.outline : Entry → Bool × Option (Vector Word 4)
  | .configured => (false, none)
  | .read event result =>
    ((Firmware.eventOf .accelerometer event).isSome, result.map (·.sample.orientation))

/-- The first acceleration is carried by the first sample, and by no other one; the orientation of
that sample is normalised. -/
theorem samples_not_reused_twoSamples : ∃ s event r,
    Transition.run Call.act twoSamples (.start 0) = some s ∧
      s.log[2]? = some (.read event (some r)) ∧
      r.sample.orientation = #v[0x3F800000, 0, 0, 0] ∧
      Carries s.log 2 .accelerometer 1 ∧ ∀ i, Carries s.log i .accelerometer 1 → i = 2 := by
  rcases samples_not_reused 0 twoSamples with ⟨s, hs, -, honce⟩
  have hlog : (Transition.run Call.act twoSamples (.start 0)).map (·.log.map Entry.outline) =
      some [(false, none), (true, none), (false, some #v[0x3F800000, 0, 0, 0]), (true, none),
        (false, some #v[0x3F800000, 0, 0, 0])] := by
    decide +kernel
  rw [hs] at hlog
  have hat : ∀ (i : Nat) o, ([(false, none), (true, none), (false, some #v[0x3F800000, 0, 0, 0]),
      (true, none), (false, some #v[0x3F800000, 0, 0, 0])] :
        List (Bool × Option (Vector Word 4)))[i]? = some o →
      ∃ e : Entry, s.log[i]? = some e ∧ e.outline = o := by
    intro i o hi
    rw [← Option.some.inj hlog, List.getElem?_map] at hi
    exact Option.map_eq_some_iff.mp hi
  rcases hat 1 _ rfl with ⟨entry, hentry, hshows⟩
  rcases hat 2 _ rfl with ⟨entry', hentry', hreturns⟩
  cases entry with
  | configured => cases hshows
  | read event result =>
    cases entry' with
    | configured => cases hreturns
    | read event' result' =>
      rcases Option.isSome_iff_exists.mp (Prod.mk.inj hshows).1 with ⟨e, he⟩
      rcases Option.map_eq_some_iff.mp (Prod.mk.inj hreturns).2 with ⟨r, rfl, horientation⟩
      have hcarries : Carries s.log 2 .accelerometer 1 := by
        refine ⟨⟨event', r, hentry'⟩, e, ?_, fun k hk ↦ ?_⟩
        · rw [List.getElem?_take_of_lt (by decide), hentry]
          exact he
        · rcases Nat.lt_or_ge k 3 with hlt | hge
          · obtain rfl : k = 2 := by omega
            rw [List.getElem?_take_of_lt hlt, hentry']
            exact Option.not_isSome_iff_eq_none.mp
              (Bool.eq_false_iff.mp (Prod.mk.inj hreturns).1)
          · rw [List.getElem?_eq_none (Nat.le_trans (List.length_take_le _ _) hge)]
            rfl
      exact ⟨s, event', r, hs, hentry', horientation, hcarries,
        fun i hi ↦ honce .accelerometer (Or.inl rfl) i 2 1 hi hcarries⟩

end BlueROV2.Firmware
