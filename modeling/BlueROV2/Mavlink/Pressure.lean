import BlueROV2.Mavlink.Delivery

/-!
# Depth and bottle pressure on the Pi

Library `Mavlink`. `modules/autonomy_pi/ros/autonomy_routers/bar30_router/bar30.py` and
`modules/autonomy_pi/scripts/status.py`. Both unpack the words of a pressure message again. An
exception ends a callback, and nothing it did before is published or stored.
-/

namespace BlueROV2.Mavlink

open BlueROV2.Base

/-- The exceptions that are raised. -/
inductive PyError where
  | structError
  | zeroDivisionError
  | osError (errno : Nat)
  deriving DecidableEq, Repr

abbrev Py (α : Type) := Except PyError α

@[simp] theorem Py.ok_bind {α β : Type} (x : α) (f : α → Py β) :
    ((Except.ok x : Py α) >>= f) = f x := rfl

/-! ### The module `struct`, on a little-endian machine -/

/-- `pack`, for a format of `count` times `Q`. -/
def pack (count : Nat) (words : List UInt64) : Py (List UInt8) :=
  if words.length ≠ count then .error .structError
  else .ok (words.flatMap (LittleEndian.toBytes 8 ·.toNat))

/-- The fields `Iffh` at the start of a buffer; a float is the word of its bits. -/
def fields (p : List UInt8) : UInt32 × UInt32 × UInt32 × UInt16 :=
  (UInt32.ofNat (LittleEndian.toNat (p.take 4)),
    UInt32.ofNat (LittleEndian.toNat ((p.drop 4).take 4)),
    UInt32.ofNat (LittleEndian.toNat ((p.drop 8).take 4)),
    UInt16.ofNat (LittleEndian.toNat ((p.drop 12).take 2)))

/-- `unpack("Iffhxx", p)`: the buffer has just the size of the format. -/
def unpack (p : List UInt8) : Py (UInt32 × UInt32 × UInt32 × UInt16) :=
  if p.length ≠ 16 then .error .structError else .ok (fields p)

/-- `unpack_from("<Iffh", p)`: the buffer has at least the size of the format. -/
def unpackFrom (p : List UInt8) : Py (UInt32 × UInt32 × UInt32 × UInt16) :=
  if p.length < 14 then .error .structError else .ok (fields p)

/-! ### `Bar30Router` -/

/-- The parameters that the callback uses; the density is a `double` by its bits. -/
structure Bar30Params where
  frameId : String
  fluidDensity : UInt64
  deriving DecidableEq, Repr

/-- The fields that are set of a `geometry_msgs/PoseWithCovarianceStamped`. -/
structure PoseWithCovarianceStamped where
  stamp : Nat
  frameId : String
  z : Float
  covariance : Vector Float 36

/-- A division by a `double`, which raises an exception when that is zero, of either sign. -/
def divide (a : Float) (b : UInt64) : Py Float :=
  if b &&& 0x7FFFFFFFFFFFFFFF = 0 then .error .zeroDivisionError else .ok (a / Float.ofBits b)

/-- The estimate for a pressure in hectopascals; `bar30.py:63–80`. -/
def poseOf (params : Bar30Params) (now : Nat) (pressAbs : UInt32) :
    Py PoseWithCovarianceStamped := do
  let atmPress : Float := 101325
  let g : Float := -9.80665
  let depth ← divide ((Float32.ofBits pressAbs).toFloat * 100 - atmPress) params.fluidDensity
  let cov ← divide (Float.pow (0.2 * 100) 2) params.fluidDensity
  pure {
    stamp := now
    frameId := params.frameId
    z := depth / g
    covariance := (Vector.replicate 36 0).set 14 (cov / -g) }

/-- `route_depth_cb`: what it publishes; `bar30.py:52–82`. -/
def routeDepthCb (params : Bar30Params) (now : Nat) (data : MavlinkMessage) :
    Py (Option PoseWithCovarianceStamped) :=
  if data.msgid ≠ 137 then .ok none
  else do
    let p ← pack 2 data.payload64
    let (_, pressAbs, _, _) ← unpack p
    let msg ← poseOf params now pressAbs
    pure (some msg)

/-! ### `StatusDisplay` -/

/-- A reading of a bottle. -/
inductive Reading where
  | fluidPressure (pascals : Float)
  | temperature (celsius : Float)
  | relativeHumidity (percent : Float)

/-- `StatusDisplay`: the readings, each with the time at which it was stored, in seconds as
`time.monotonic` gives them. -/
structure StatusDisplay where
  readings : String → Option (Reading × Float)

/-- `store`; `status.py:154–155`. -/
def StatusDisplay.store (key : String) (msg : Reading) (now : Float) (s : StatusDisplay) :
    StatusDisplay :=
  { s with readings := fun k ↦ if k = key then some (msg, now) else s.readings k }

/-- The pressure that is stored. -/
def fluidPressure (pressure : UInt32) : Reading :=
  .fluidPressure ((Float32.ofBits pressure).toFloat * 100)

/-- The temperature that is stored. -/
def bottleTemperature (temperature : UInt16) : Reading :=
  .temperature (Float.ofInt temperature.toInt16.toInt / 100)

/-- `on_mavlink`, with the times at which it stores; `status.py:161–169`. -/
def onMavlink (now later : Float) (msg : MavlinkMessage) (s : StatusDisplay) : Py StatusDisplay :=
  if msg.msgid ≠ 29 then .ok s
  else do
    let payload ← pack msg.payload64.length msg.payload64
    let (_, pressure, _, temperature) ← unpackFrom payload
    let s := s.store "main/pressure" (fluidPressure pressure) now
    pure (s.store "main/temperature" (bottleTemperature temperature) later)

/-! ### What survives -/

/-- A depth is published for a message, from just the pressure that was sent. -/
def RoutesDepth (params : Bar30Params) (m : ScaledPressure) : Prop :=
  ∀ now, ∃ msg, routeDepthCb params now (m.deliver 137) = .ok (some msg) ∧
    poseOf params now m.pressAbs = .ok msg

/-- The readings of the bottle are stored for a message, from just the pressure and the
temperature that were sent, and no others. -/
def StoresReadings (m : ScaledPressure) : Prop :=
  ∀ now later s, ∃ s', onMavlink now later (m.deliver 29) s = .ok s' ∧
    s'.readings "main/pressure" = some (fluidPressure m.pressAbs, now) ∧
    s'.readings "main/temperature" = some (bottleTemperature m.temperature, later) ∧
    ∀ key, key ≠ "main/pressure" → key ≠ "main/temperature" → s'.readings key = s.readings key

/-- The fields of the whole payload are those that were sent. -/
theorem fields_bytes (m : ScaledPressure) :
    fields m.bytes = (m.timeBootMs, m.pressAbs, m.pressDiff, m.temperature) := by
  have hword : ∀ v : UInt32,
      UInt32.ofNat (LittleEndian.toNat (LittleEndian.toBytes 4 v.toNat)) = v := by
    intro v
    have hlt : v.toNat < 256 ^ 4 := v.toNat_lt
    rw [LittleEndian.toNat_toBytes, Nat.mod_eq_of_lt hlt, UInt32.ofNat_toNat]
  have hhalf : ∀ v : UInt16,
      UInt16.ofNat (LittleEndian.toNat (LittleEndian.toBytes 2 v.toNat)) = v := by
    intro v
    have hlt : v.toNat < 256 ^ 2 := v.toNat_lt
    rw [LittleEndian.toNat_toBytes, Nat.mod_eq_of_lt hlt, UInt16.ofNat_toNat]
  have hfields : fields m.bytes =
      (UInt32.ofNat (LittleEndian.toNat (LittleEndian.toBytes 4 m.timeBootMs.toNat)),
        UInt32.ofNat (LittleEndian.toNat (LittleEndian.toBytes 4 m.pressAbs.toNat)),
        UInt32.ofNat (LittleEndian.toNat (LittleEndian.toBytes 4 m.pressDiff.toNat)),
        UInt16.ofNat (LittleEndian.toNat (LittleEndian.toBytes 2 m.temperature.toNat))) := rfl
  rw [hfields, hword, hword, hword, hhalf]

section Message

variable {m : ScaledPressure}

/-- Two words are packed into the whole payload. -/
theorem pack_of_arrives (msgid : Nat) (h : m.Arrives) :
    pack 2 (m.deliver msgid).payload64 = .ok m.bytes := by
  have hlen := m.length_deliver msgid
  rw [if_pos h] at hlen
  rw [pack, if_neg (Classical.not_not.mpr hlen), m.bytes_deliver msgid h]

/-- A single word is packed into eight bytes, if that is what is asked for. -/
theorem length_deliver_of_not_arrives (msgid : Nat) (h : ¬ m.Arrives) :
    (m.deliver msgid).payload64.length = 1 := by
  rw [m.length_deliver, if_neg h]

/-- With two words, the estimate is that for the pressure that was sent. -/
theorem routeDepthCb_of_arrives (params : Bar30Params) (now : Nat) (h : m.Arrives) :
    routeDepthCb params now (m.deliver 137) = (poseOf params now m.pressAbs).map some := by
  have hid : ¬ (m.deliver 137).msgid ≠ 137 := fun hne ↦ hne rfl
  rw [routeDepthCb, if_neg hid, pack_of_arrives 137 h]
  have hunpack : unpack m.bytes = .ok (m.timeBootMs, m.pressAbs, m.pressDiff, m.temperature) := by
    rw [unpack, if_neg (Classical.not_not.mpr m.length_bytes), fields_bytes]
  simp only [Py.ok_bind, hunpack]
  cases poseOf params now m.pressAbs with
  | error e => rfl
  | ok msg => rfl

/-- A single word is not what the router packs. -/
theorem routeDepthCb_of_not_arrives (params : Bar30Params) (now : Nat) (h : ¬ m.Arrives) :
    routeDepthCb params now (m.deliver 137) = .error .structError := by
  have hid : ¬ (m.deliver 137).msgid ≠ 137 := fun hne ↦ hne rfl
  have hlen : (m.deliver 137).payload64.length ≠ 2 := by
    rw [length_deliver_of_not_arrives 137 h]
    decide
  rw [routeDepthCb, if_neg hid, pack, if_pos hlen]
  rfl

/-- The estimate needs a density. -/
theorem poseOf_eq_ok_iff (params : Bar30Params) (now : Nat) (pressAbs : UInt32) :
    (∃ msg, poseOf params now pressAbs = .ok msg) ↔
      params.fluidDensity &&& 0x7FFFFFFFFFFFFFFF ≠ 0 := by
  rw [poseOf, divide, divide]
  by_cases h : params.fluidDensity &&& 0x7FFFFFFFFFFFFFFF = 0
  · rw [if_pos h]
    exact ⟨fun ⟨_, hok⟩ ↦ (nomatch hok), fun hne ↦ absurd h hne⟩
  · rw [if_neg h, if_neg h]
    exact ⟨fun _ ↦ h, fun _ ↦ ⟨_, rfl⟩⟩

/-- With two words, the readings that were sent are stored. -/
theorem onMavlink_of_arrives (now later : Float) (s : StatusDisplay) (h : m.Arrives) :
    onMavlink now later (m.deliver 29) s =
      .ok ((s.store "main/pressure" (fluidPressure m.pressAbs) now).store "main/temperature"
        (bottleTemperature m.temperature) later) := by
  have hid : ¬ (m.deliver 29).msgid ≠ 29 := fun hne ↦ hne rfl
  have hlen : (m.deliver 29).payload64.length = 2 := by
    rw [m.length_deliver, if_pos h]
  have hunpack : unpackFrom m.bytes =
      .ok (m.timeBootMs, m.pressAbs, m.pressDiff, m.temperature) := by
    rw [unpackFrom, if_neg (by rw [m.length_bytes]; decide), fields_bytes]
  rw [onMavlink, if_neg hid, hlen, pack_of_arrives 29 h]
  simp only [Py.ok_bind, hunpack]
  rfl

/-- A single word is shorter than what the display unpacks. -/
theorem onMavlink_of_not_arrives (now later : Float) (s : StatusDisplay) (h : ¬ m.Arrives) :
    onMavlink now later (m.deliver 29) s = .error .structError := by
  have hid : ¬ (m.deliver 29).msgid ≠ 29 := fun hne ↦ hne rfl
  have hlen := length_deliver_of_not_arrives 29 h
  obtain ⟨w, hw⟩ : ∃ w, (m.deliver 29).payload64 = [w] := List.length_eq_one_iff.mp hlen
  rw [onMavlink, if_neg hid, hw]
  rfl

end Message

/-- A pressure message survives the removal of its trailing zeros just when something behind the
first two fields is not zero; the router needs a density besides. -/
theorem pressure_survives (params : Bar30Params) (m : ScaledPressure) :
    (RoutesDepth params m ↔
      params.fluidDensity &&& 0x7FFFFFFFFFFFFFFF ≠ 0 ∧ m.Arrives) ∧
    (StoresReadings m ↔ m.Arrives) := by
  refine ⟨⟨fun h ↦ ?_, fun h now ↦ ?_⟩, ⟨fun h ↦ ?_, fun h now later s ↦ ?_⟩⟩
  · rcases h 0 with ⟨msg, hroute, hpose⟩
    refine ⟨(poseOf_eq_ok_iff params 0 m.pressAbs).mp ⟨msg, hpose⟩, ?_⟩
    apply Classical.byContradiction
    intro hnot
    rw [routeDepthCb_of_not_arrives params 0 hnot] at hroute
    cases hroute
  · rcases (poseOf_eq_ok_iff params now m.pressAbs).mpr h.1 with ⟨msg, hpose⟩
    refine ⟨msg, ?_, hpose⟩
    rw [routeDepthCb_of_arrives params now h.2, hpose]
    rfl
  · apply Classical.byContradiction
    intro hnot
    rcases h 0 0 ⟨fun _ ↦ none⟩ with ⟨s', hstore, -⟩
    rw [onMavlink_of_not_arrives 0 0 _ hnot] at hstore
    cases hstore
  · refine ⟨_, onMavlink_of_arrives now later s h, rfl, rfl, fun key hpressure htemperature ↦ ?_⟩
    change (if key = "main/temperature" then _ else if key = "main/pressure" then _ else _) = _
    rw [if_neg htemperature, if_neg hpressure]

/-- The default density. -/
def freshWater : Bar30Params := ⟨"bar30_link", 0x408F286113404EA5⟩

/-- Standard pressure, no difference to the last one, at zero degrees. -/
def freezing : ScaledPressure := ⟨1000, 0x447D5000, 0, 0, 0⟩

/-- Both callbacks raise an exception for such a message. -/
theorem pressure_lost : ¬ RoutesDepth freshWater freezing ∧ ¬ StoresReadings freezing ∧
    routeDepthCb freshWater 0 (freezing.deliver 137) = .error .structError ∧
    onMavlink 0 0 (freezing.deliver 29) ⟨fun _ ↦ none⟩ = .error .structError := by
  have hnot : ¬ freezing.Arrives := by decide
  refine ⟨fun h ↦ ?_, fun h ↦ ?_, routeDepthCb_of_not_arrives freshWater 0 hnot,
    onMavlink_of_not_arrives 0 0 _ hnot⟩
  · rcases h 0 with ⟨msg, hroute, -⟩
    rw [routeDepthCb_of_not_arrives freshWater 0 hnot] at hroute
    cases hroute
  · rcases h 0 0 ⟨fun _ ↦ none⟩ with ⟨s', hstore, -⟩
    rw [onMavlink_of_not_arrives 0 0 _ hnot] at hstore
    cases hstore

end BlueROV2.Mavlink
