import BlueROV2.Base.History
import BlueROV2.Base.Transition
import BlueROV2.Mavlink.Pressure

/-!
# What the display shows of the bottles

Library `Mavlink`. `modules/autonomy_pi/scripts/status.py`. A display runs from one callback to the
next; an exception in one ends it. It holds the last reading that was stored under each key, and
shows one that is younger than five seconds, by the difference of two floating-point times. The
battery and the autopilot have readings and rows of their own, and are left out.
-/

namespace BlueROV2.Mavlink

open BlueROV2.Base BlueROV2.Base.History BlueROV2.Base.Transition

/-- `STALE_AFTER`; `status.py:26`. -/
def staleAfter : Float := 5

/-- `MAX_BOTTLE_PSI`; `status.py:25`. -/
def maxBottlePsi : Float := 10

/-- `fresh`; `status.py:157–159`. -/
def StatusDisplay.fresh (key : String) (now : Float) (s : StatusDisplay) : Option Reading :=
  (s.readings key).bind fun (msg, stamp) ↦ if now - stamp < staleAfter then some msg else none

/-! ### Rows -/

/-- `Level`. -/
inductive Level where
  | ok
  | warn
  | fail
  deriving DecidableEq, Repr

/-- A number as it is formatted into a row: with its width, its decimals and its unit. -/
structure Figure where
  number : Float
  width : Nat
  decimals : Nat
  unit : String

/-- `Row`. -/
structure Row where
  label : String
  value : List Figure := []
  level : Option Level := none
  status : String := ""

/-- `no_data`; `status.py:48–49`. -/
def noData (label : String) : Row := { label, level := some .fail, status := "NO DATA" }

/-- The number that a message carries. -/
def Reading.number : Reading → Float
  | .fluidPressure pascals => pascals
  | .temperature celsius => celsius
  | .relativeHumidity percent => percent

/-- `bottle`; `status.py:66–85`. -/
def bottle (label : String) (pressure temperature humidity : Option Reading) : Row :=
  match pressure with
  | none => noData label
  | some pressure =>
    let psi := pressure.number / 6894.76
    let value := [⟨psi, 5, 2, " psi"⟩] ++ (temperature.map (⟨·.number, 4, 1, " C"⟩)).toList ++
      (humidity.map (⟨·.number, 3, 0, "% RH"⟩)).toList
    if psi > maxBottlePsi then ⟨label, value, some .fail, "NO VACUUM"⟩
    else ⟨label, value, some .ok, "SEALED"⟩

/-- `PINS`; `power.py:8`. -/
def pins : List (String × Nat) := [("arm1", 24), ("arm2", 25), ("sonar", 26), ("dvl", 27)]

/-- `Value`, of a line. -/
inductive Value where
  | inactive
  | active
  deriving DecidableEq, Repr

/-- `EBUSY`. -/
def ebusy : Nat := 16

/-- `switches`, by what the request of the lines brings: their values by pin, or an `OSError`;
`status.py:98–117`. -/
def switches (lines : Except Nat (Nat → Value)) : Py (List Row) :=
  match lines with
  | .ok value => .ok (pins.map fun (name, pin) ↦
      if value pin = .inactive then { label := name, level := some .ok, status := "ON" }
      else { label := name, status := "OFF" })
  | .error errno =>
    if errno ≠ ebusy then .error (.osError errno)
    else .ok (pins.map fun (name, _) ↦ { label := name, level := some .warn, status := "BUSY" })

/-! ### Callbacks -/

/-- The topics of the other bottle; `status.py:142–146`. -/
inductive Topic where
  | pressure
  | temperature
  | humidity
  deriving DecidableEq, Repr

/-- The name of a topic, under which its readings are stored. -/
def Topic.name : Topic → String
  | .pressure => "/bme680/pressure"
  | .temperature => "/bme680/temperature"
  | .humidity => "/bme680/humidity"

/-- A message of a topic. -/
def Topic.reading : Topic → Float → Reading
  | .pressure => .fluidPressure
  | .temperature => .temperature
  | .humidity => .relativeHumidity

/-- What a redraw finds: the clock when it looks up the pressure and the temperature of the main
bottle, and when it looks up those of the other one; what the request of the lines brings; and
whether the text is written. -/
structure Redraw where
  mainPressure : Float
  mainTemperature : Float
  other : Topic → Float
  lines : Except Nat (Nat → Value)
  written : Except Nat Unit

/-- `draw`: the sections that it prints, but for the battery and the autopilot;
`status.py:171–194`. -/
def StatusDisplay.draw (r : Redraw) (s : StatusDisplay) : Py (List (String × List Row)) := do
  let main := bottle "main" (s.fresh "main/pressure" r.mainPressure)
    (s.fresh "main/temperature" r.mainTemperature) none
  let fresh (topic : Topic) := s.fresh topic.name (r.other topic)
  let autonomy := bottle "autonomy" (fresh .pressure) (fresh .temperature) (fresh .humidity)
  let power ← switches r.lines
  match r.written with
  | .ok () => pure [("BOTTLE PRESSURE", [main, autonomy]), ("POWER", power)]
  | .error errno => throw (.osError errno)

/-- What the executor calls, with the times that are read in it. -/
inductive Callback where
  /-- `on_mavlink`, for `SCALED_PRESSURE` as it was sent. -/
  | pressure (now later : Float) (m : ScaledPressure)
  /-- `on_mavlink`, for any other message. -/
  | mavlink (now later : Float) (msg : MavlinkMessage) (other : msg.msgid ≠ 29)
  /-- `store`, for the other bottle. -/
  | store (topic : Topic) (now : Float) (number : Float)
  | draw (r : Redraw)

/-- What a callback does to the readings. -/
def Callback.call : Callback → StatusDisplay → Py StatusDisplay
  | .pressure now later m, s => onMavlink now later (m.deliver 29) s
  | .mavlink now later msg _, s => onMavlink now later msg s
  | .store topic now number, s => .ok (s.store topic.name (topic.reading number) now)
  | .draw r, s => (s.draw r).map fun _ ↦ s

/-- A callback that raises no exception. -/
def callback (c : Callback) (s : StatusDisplay) : Option StatusDisplay := (c.call s).toOption

/-- `StatusDisplay()`, without readings. -/
def StatusDisplay.start : StatusDisplay := ⟨fun _ ↦ none⟩

/-! ### Which callbacks fail -/

/-- The lines cannot be requested, and not because they are held, or the text is not written. -/
def Redraw.Fails (r : Redraw) : Prop :=
  (∃ errno, r.lines = .error errno ∧ errno ≠ ebusy) ∨ ∃ errno, r.written = .error errno

/-- Too little is left of a pressure message, or a redraw fails. -/
def Callback.Fails : Callback → Prop
  | .pressure _ _ m => ¬ m.Arrives
  | .draw r => r.Fails
  | .mavlink .. | .store .. => False

variable {c : Callback} {cs : List Callback} {s s' : StatusDisplay} {key : String} {r : Redraw}
  {sections : List (String × List Row)}

/-- The rows of the switches are there unless the lines cannot be requested. -/
theorem switches_cases (lines : Except Nat (Nat → Value)) :
    (∃ power, switches lines = .ok power) ∧ (¬ ∃ errno, lines = .error errno ∧ errno ≠ ebusy) ∨
      ∃ errno, switches lines = .error (.osError errno) ∧ lines = .error errno ∧ errno ≠ ebusy := by
  cases lines with
  | ok value =>
    refine .inl ⟨⟨_, rfl⟩, ?_⟩
    rintro ⟨errno, h, -⟩
    cases h
  | error errno =>
    by_cases h : errno = ebusy
    · subst h
      refine .inl ⟨⟨_, rfl⟩, ?_⟩
      rintro ⟨errno, h, hne⟩
      cases h
      exact hne rfl
    · exact .inr ⟨errno, if_pos h, rfl, h⟩

/-- A redraw that does not fail prints the rows of the bottles and of the switches. -/
theorem draw_cases (r : Redraw) (s : StatusDisplay) :
    (∃ power, switches r.lines = .ok power ∧ s.draw r = .ok [
      ("BOTTLE PRESSURE", [
        bottle "main" (s.fresh "main/pressure" r.mainPressure)
          (s.fresh "main/temperature" r.mainTemperature) none,
        bottle "autonomy" (s.fresh Topic.pressure.name (r.other .pressure))
          (s.fresh Topic.temperature.name (r.other .temperature))
          (s.fresh Topic.humidity.name (r.other .humidity))]),
      ("POWER", power)]) ∧ ¬ r.Fails ∨
    (∃ e, s.draw r = .error e) ∧ r.Fails := by
  rcases switches_cases r.lines with ⟨⟨power, hpower⟩, hlines⟩ | ⟨errno, hswitches, hlines⟩
  · cases hwritten : r.written with
    | ok =>
      refine .inl ⟨⟨power, hpower, ?_⟩, ?_⟩
      · simp only [StatusDisplay.draw, hpower, Py.ok_bind, hwritten]
        rfl
      · rintro (h | ⟨errno, h⟩)
        · exact hlines h
        · cases hwritten.symm.trans h
    | error errno =>
      refine .inr ⟨⟨.osError errno, ?_⟩, .inr ⟨errno, hwritten⟩⟩
      simp only [StatusDisplay.draw, hpower, Py.ok_bind, hwritten]
      rfl
  · refine .inr ⟨⟨.osError errno, ?_⟩, .inl ⟨errno, hlines⟩⟩
    simp only [StatusDisplay.draw, hswitches]
    rfl

/-- Only these callbacks raise an exception. -/
theorem callback_eq_none_iff : callback c s = none ↔ c.Fails := by
  cases c with
  | pressure now later m =>
    by_cases h : m.Arrives
    · rw [callback, Callback.call, onMavlink_of_arrives now later s h]
      exact ⟨fun hnone ↦ (by cases hnone), fun hnot ↦ absurd h hnot⟩
    · rw [callback, Callback.call, onMavlink_of_not_arrives now later s h]
      exact ⟨fun _ ↦ h, fun _ ↦ rfl⟩
  | mavlink now later msg other =>
    rw [callback, Callback.call, onMavlink, if_pos other]
    exact ⟨fun hnone ↦ (by cases hnone), fun h ↦ h.elim⟩
  | store topic now number => exact ⟨fun hnone ↦ (by cases hnone), fun h ↦ h.elim⟩
  | draw r =>
    rcases draw_cases r s with ⟨⟨power, -, hdraw⟩, hnot⟩ | ⟨⟨e, hdraw⟩, hfails⟩
    · rw [callback, Callback.call, hdraw]
      exact ⟨fun hnone ↦ (by cases hnone), fun h ↦ absurd h hnot⟩
    · rw [callback, Callback.call, hdraw]
      exact ⟨fun _ ↦ hfails, fun _ ↦ rfl⟩

/-- A display ends just when a callback fails. -/
theorem run_eq_none_iff : run callback cs s = none ↔ ∃ c ∈ cs, c.Fails := by
  induction cs generalizing s with
  | nil =>
    constructor
    · intro hnone
      cases hnone
    · rintro ⟨c, hmem, -⟩
      exact absurd hmem List.not_mem_nil
  | cons c cs ih =>
    simp only [run, List.mem_cons, exists_eq_or_imp]
    cases hc : callback c s with
    | none => exact ⟨fun _ ↦ .inl (callback_eq_none_iff.mp hc), fun _ ↦ rfl⟩
    | some s₁ =>
      rw [Option.bind_some, ih]
      refine ⟨.inr, fun h ↦ h.resolve_left fun hfails ↦ ?_⟩
      cases (callback_eq_none_iff.mpr hfails).symm.trans hc

/-! ### What is stored -/

/-- What a callback stores under a key, and when. -/
def Callback.stored (key : String) : Callback → Option (Reading × Float)
  | .pressure now later m =>
    if key = "main/temperature" then some (bottleTemperature m.temperature, later)
    else if key = "main/pressure" then some (fluidPressure m.pressAbs, now)
    else none
  | .store topic now number =>
    if key = topic.name then some (topic.reading number, now) else none
  | .mavlink .. | .draw .. => none

/-- Under a key, a callback leaves what it stores there, or else what was there. -/
theorem readings_callback (h : callback c s = some s') (key : String) :
    s'.readings key = (c.stored key).or (s.readings key) := by
  cases c with
  | pressure now later m =>
    have harrives : m.Arrives := by
      apply Classical.byContradiction
      intro hnot
      have hfails : (Callback.pressure now later m).Fails := hnot
      cases (callback_eq_none_iff.mpr hfails).symm.trans h
    rw [callback, Callback.call, onMavlink_of_arrives now later s harrives] at h
    cases h
    simp only [StatusDisplay.store, Callback.stored]
    split
    · rfl
    · split <;> rfl
  | mavlink now later msg other =>
    rw [callback, Callback.call, onMavlink, if_pos other] at h
    cases h
    rfl
  | store topic now number =>
    cases h
    simp only [StatusDisplay.store, Callback.stored]
    split <;> rfl
  | draw r =>
    rcases draw_cases r s with ⟨⟨power, -, hdraw⟩, -⟩ | ⟨⟨e, hdraw⟩, -⟩
    · rw [callback, Callback.call, hdraw] at h
      cases h
      rfl
    · rw [callback, Callback.call, hdraw] at h
      cases h

/-- A display holds what was stored last under each key. -/
theorem readings_run (h : run callback cs .start = some s) (key : String) :
    s.readings key = lastSeen (fun c ↦ (c.stored key).map some) none cs := by
  refine Transition.history
    (fun log s ↦ s.readings key = lastSeen (fun c ↦ (c.stored key).map some) none log)
    (fun log c s s' hc hlog ↦ ?_) [] rfl h
  rw [lastSeen_concat, readings_callback hc, hlog]
  cases c.stored key <;> rfl

/-! ### The last callback of a kind -/

/-- A callback for a pressure message. -/
def Callback.IsPressure : Callback → Prop
  | .pressure .. => True
  | .mavlink .. | .store .. | .draw .. => False

/-- A callback for a message of a topic. -/
def Callback.IsOf (topic : Topic) : Callback → Prop
  | .store t _ _ => t = topic
  | .pressure .. | .mavlink .. | .draw .. => False

/-- A callback is the last one of a kind. -/
def IsLast (kind : Callback → Prop) (cs : List Callback) (c : Callback) : Prop :=
  ∃ before after, cs = before ++ c :: after ∧ kind c ∧ ∀ d ∈ after, ¬ kind d

/-- Only pressure messages reach the readings of the main bottle, and each reaches both. -/
theorem stored_main (hkey : key = "main/pressure" ∨ key = "main/temperature") (c : Callback) :
    c.stored key = none ↔ ¬ c.IsPressure := by
  cases c with
  | pressure now later m =>
    refine ⟨fun hnone ↦ ?_, fun hnot ↦ absurd trivial hnot⟩
    rcases hkey with rfl | rfl <;> cases hnone
  | store topic now number =>
    have hname : key ≠ topic.name := by
      rcases hkey with rfl | rfl <;> cases topic <;> decide
    exact ⟨fun _ h ↦ h, fun _ ↦ if_neg hname⟩
  | mavlink now later msg other => exact ⟨fun _ h ↦ h, fun _ ↦ rfl⟩
  | draw r => exact ⟨fun _ h ↦ h, fun _ ↦ rfl⟩

/-- Only the messages of a topic reach its readings. -/
theorem stored_name (topic : Topic) (c : Callback) :
    c.stored topic.name = none ↔ ¬ c.IsOf topic := by
  cases c with
  | pressure now later m =>
    refine ⟨fun _ h ↦ h, fun _ ↦ ?_⟩
    cases topic <;> rfl
  | store t now number =>
    have hname : topic.name = t.name ↔ t = topic := by
      cases topic <;> cases t <;> decide
    simp only [Callback.stored, Callback.IsOf, hname, ite_eq_right_iff, reduceCtorEq, imp_false]
  | mavlink now later msg other => exact ⟨fun _ h ↦ h, fun _ ↦ rfl⟩
  | draw r => exact ⟨fun _ h ↦ h, fun _ ↦ rfl⟩

section Last

variable {kind : Callback → Prop}

/-- If just the callbacks of a kind store something under a key, what the last of them stored is
shown until it is too old. -/
theorem fresh_of_isLast {msg : Reading} {stamp : Float} (h : run callback cs .start = some s)
    (hkind : ∀ c : Callback, c.stored key = none ↔ ¬ kind c) (hlast : IsLast kind cs c)
    (hc : c.stored key = some (msg, stamp)) (now : Float) :
    s.fresh key now = if now - stamp < 5 then some msg else none := by
  rcases hlast with ⟨before, after, rfl, -, hafter⟩
  have hsilent : ∀ d ∈ after, (d.stored key).map some = none := by
    intro d hd
    rw [(hkind d).mpr (hafter d hd)]
    rfl
  have hshown : (c.stored key).map some = some (some (msg, stamp)) := congrArg _ hc
  have hreading : s.readings key = some (msg, stamp) := by
    rw [readings_run h]
    exact lastSeen_append_cons hshown hsilent
  rw [StatusDisplay.fresh, hreading]
  rfl

/-- Otherwise there was none, and there is nothing to show. -/
theorem isLast_or_none (h : run callback cs .start = some s)
    (hkind : ∀ c : Callback, c.stored key = none ↔ ¬ kind c) :
    (∃ c, IsLast kind cs c) ∨
      (∀ c, ¬ IsLast kind cs c) ∧ ∀ now, s.fresh key now = none := by
  rcases lastSeen_cases (fun c : Callback ↦ (c.stored key).map some) none cs with
    ⟨hnone, hlast⟩ | ⟨before, c, x, after, hcs, hc, hnone, -⟩
  · refine .inr ⟨?_, fun now ↦ ?_⟩
    · rintro c ⟨before, after, rfl, hc, -⟩
      have hmem : c ∈ before ++ c :: after := List.mem_append_right _ List.mem_cons_self
      exact (hkind c).mp (Option.map_eq_none_iff.mp (hnone c hmem)) hc
    · rw [StatusDisplay.fresh, readings_run h, hlast]
      rfl
  · refine .inl ⟨c, before, after, hcs, ?_, fun d hd ↦
      (hkind d).mp (Option.map_eq_none_iff.mp (hnone d hd))⟩
    apply Classical.byContradiction
    intro hnot
    rw [(hkind c).mpr hnot] at hc
    cases hc

end Last

/-! ### The rows of the bottles -/

/-- A row shows the pressure of a bottle in psi, the temperature and the humidity beside it if there
are any, and whether the bottle is sealed. -/
structure Row.Shows (row : Row) (label : String) (pascals : Float)
    (celsius percent : Option Float) : Prop where
  label : row.label = label
  value : row.value = ⟨pascals / 6894.76, 5, 2, " psi"⟩ ::
    ((celsius.map (⟨·, 4, 1, " C"⟩)).toList ++ (percent.map (⟨·, 3, 0, "% RH"⟩)).toList)
  noVacuum : pascals / 6894.76 > 10 → row.level = some .fail ∧ row.status = "NO VACUUM"
  vacuum : ¬ pascals / 6894.76 > 10 → row.level = some .ok ∧ row.status = "SEALED"

section Bottle

variable (label : String) (pressure : Reading) (temperature humidity : Option Reading)

/-- A row with a pressure shows it, and all that is known besides. -/
theorem shows_bottle :
    (bottle label (some pressure) temperature humidity).Shows label pressure.number
      (temperature.map Reading.number) (humidity.map Reading.number) := by
  have hvalue : [⟨pressure.number / 6894.76, 5, 2, " psi"⟩] ++
      (temperature.map fun t ↦ (⟨t.number, 4, 1, " C"⟩ : Figure)).toList ++
        (humidity.map fun h ↦ (⟨h.number, 3, 0, "% RH"⟩ : Figure)).toList =
      ⟨pressure.number / 6894.76, 5, 2, " psi"⟩ ::
        (((temperature.map Reading.number).map (⟨·, 4, 1, " C"⟩)).toList ++
          ((humidity.map Reading.number).map (⟨·, 3, 0, "% RH"⟩)).toList) := by
    rw [Option.map_map, Option.map_map, List.append_assoc]
    rfl
  simp only [bottle]
  by_cases h : pressure.number / 6894.76 > maxBottlePsi
  · rw [if_pos h]
    exact ⟨rfl, hvalue, fun _ ↦ ⟨rfl, rfl⟩, fun hnot ↦ absurd h hnot⟩
  · rw [if_neg h]
    exact ⟨rfl, hvalue, fun hpsi ↦ absurd hpsi h, fun _ ↦ ⟨rfl, rfl⟩⟩

/-- Then it does not say that there is none. -/
theorem bottle_ne_noData : bottle label (some pressure) temperature humidity ≠ noData label := by
  have hvacuum : "NO VACUUM" ≠ "NO DATA" := by decide
  have hsealed : "SEALED" ≠ "NO DATA" := by decide
  have hshows := shows_bottle label pressure temperature humidity
  intro h
  rw [h] at hshows
  by_cases hpsi : pressure.number / 6894.76 > 10
  · exact hvacuum (hshows.noVacuum hpsi).2.symm
  · exact hsealed (hshows.vacuum hpsi).2.symm

end Bottle

/-- The row of the main bottle has no data just when the last pressure message is too old or there
was none; else it shows the pressure of that message, and its temperature until that is too old
itself. -/
structure MainRow (cs : List Callback) (r : Redraw) (row : Row) : Prop where
  noData_iff : row = ⟨"main", [], some .fail, "NO DATA"⟩ ↔ ∀ now later m,
    IsLast Callback.IsPressure cs (.pressure now later m) → ¬ r.mainPressure - now < 5
  latest : ∀ now later m, IsLast Callback.IsPressure cs (.pressure now later m) →
    r.mainPressure - now < 5 → row.Shows "main" ((Float32.ofBits m.pressAbs).toFloat * 100)
      (if r.mainTemperature - later < 5 then some (Float.ofInt m.temperature.toInt16.toInt / 100)
      else none) none

/-- What is shown of a topic: the number of the last message, until that is too old. -/
structure TopicShown (cs : List Callback) (r : Redraw) (topic : Topic) (o : Option Float) :
    Prop where
  none_iff : o = none ↔ ∀ now number, IsLast (Callback.IsOf topic) cs (.store topic now number) →
    ¬ r.other topic - now < 5
  latest : ∀ now number, IsLast (Callback.IsOf topic) cs (.store topic now number) →
    r.other topic - now < 5 → o = some number

/-- The row of the other bottle likewise, with what is shown of its other topics. -/
structure OtherRow (cs : List Callback) (r : Redraw) (row : Row) : Prop where
  noData_iff : row = ⟨"autonomy", [], some .fail, "NO DATA"⟩ ↔ ∀ now pascals,
    IsLast (Callback.IsOf .pressure) cs (.store .pressure now pascals) →
      ¬ r.other .pressure - now < 5
  latest : ∀ now pascals, IsLast (Callback.IsOf .pressure) cs (.store .pressure now pascals) →
    r.other .pressure - now < 5 → ∃ celsius percent, TopicShown cs r .temperature celsius ∧
      TopicShown cs r .humidity percent ∧ row.Shows "autonomy" pascals celsius percent

/-- The rows of the two bottles, each of its own readings, and those of the switches. -/
def ShowsLatest (cs : List Callback) (r : Redraw) (sections : List (String × List Row)) : Prop :=
  ∃ main autonomy power,
    sections = [("BOTTLE PRESSURE", [main, autonomy]), ("POWER", power)] ∧
      switches r.lines = .ok power ∧ MainRow cs r main ∧ OtherRow cs r autonomy

theorem mainRow_draw (h : run callback cs .start = some s) (r : Redraw) :
    MainRow cs r (bottle "main" (s.fresh "main/pressure" r.mainPressure)
      (s.fresh "main/temperature" r.mainTemperature) none) := by
  have hpressure : ∀ c : Callback, c.stored "main/pressure" = none ↔ ¬ c.IsPressure :=
    stored_main (.inl rfl)
  have htemperature : ∀ c : Callback, c.stored "main/temperature" = none ↔ ¬ c.IsPressure :=
    stored_main (.inr rfl)
  have hrow {now later : Float} {m : ScaledPressure}
      (hlast : IsLast Callback.IsPressure cs (.pressure now later m)) :
      bottle "main" (s.fresh "main/pressure" r.mainPressure)
        (s.fresh "main/temperature" r.mainTemperature) none =
      if r.mainPressure - now < 5 then
        bottle "main" (some (fluidPressure m.pressAbs))
          (if r.mainTemperature - later < 5 then some (bottleTemperature m.temperature)
          else none) none
      else noData "main" := by
    rw [fresh_of_isLast h hpressure hlast rfl, fresh_of_isLast h htemperature hlast rfl]
    split <;> rfl
  refine ⟨⟨fun hnone now later m hlast hfresh ↦ ?_, fun hold ↦ ?_⟩,
    fun now later m hlast hfresh ↦ ?_⟩
  · rw [hrow hlast, if_pos hfresh] at hnone
    exact bottle_ne_noData _ _ _ _ hnone
  · rcases isLast_or_none h hpressure with ⟨c, hlast⟩ | ⟨-, hnone⟩
    · cases c with
      | pressure now later m =>
        rw [hrow hlast, if_neg (hold now later m hlast)]
        rfl
      | mavlink | store | draw =>
        rcases hlast with ⟨_, _, _, hkind, _⟩
        exact hkind.elim
    · rw [hnone]
      rfl
  · have hnumber : (if r.mainTemperature - later < 5 then some (bottleTemperature m.temperature)
          else none).map Reading.number =
        if r.mainTemperature - later < 5 then some (Float.ofInt m.temperature.toInt16.toInt / 100)
        else none := by
      split <;> rfl
    rw [hrow hlast, if_pos hfresh, ← hnumber]
    exact shows_bottle "main" (fluidPressure m.pressAbs) _ none

theorem topicShown_draw (h : run callback cs .start = some s) (r : Redraw) (topic : Topic) :
    TopicShown cs r topic ((s.fresh topic.name (r.other topic)).map Reading.number) := by
  have hshown {now number : Float}
      (hlast : IsLast (Callback.IsOf topic) cs (.store topic now number)) :
      (s.fresh topic.name (r.other topic)).map Reading.number =
        if r.other topic - now < 5 then some number else none := by
    rw [fresh_of_isLast h (stored_name topic) hlast (if_pos rfl)]
    split
    · cases topic <;> rfl
    · rfl
  refine ⟨⟨fun hnone now number hlast hfresh ↦ ?_, fun hold ↦ ?_⟩, fun now number hlast hfresh ↦ ?_⟩
  · rw [hshown hlast, if_pos hfresh] at hnone
    cases hnone
  · rcases isLast_or_none h (stored_name topic) with ⟨c, hlast⟩ | ⟨-, hnone⟩
    · cases c with
      | store t now number =>
        obtain rfl : t = topic := hlast.choose_spec.choose_spec.2.1
        rw [hshown hlast, if_neg (hold now number hlast)]
      | pressure | mavlink | draw =>
        rcases hlast with ⟨_, _, _, hkind, _⟩
        exact hkind.elim
    · rw [hnone]
      rfl
  · rw [hshown hlast, if_pos hfresh]

theorem otherRow_draw (h : run callback cs .start = some s) (r : Redraw) :
    OtherRow cs r (bottle "autonomy" (s.fresh Topic.pressure.name (r.other .pressure))
      (s.fresh Topic.temperature.name (r.other .temperature))
      (s.fresh Topic.humidity.name (r.other .humidity))) := by
  have hpressure := topicShown_draw h r .pressure
  cases hfresh : s.fresh Topic.pressure.name (r.other .pressure) with
  | none =>
    rw [hfresh] at hpressure
    have hold := hpressure.none_iff.mp rfl
    exact ⟨⟨fun _ ↦ hold, fun _ ↦ rfl⟩,
      fun now pascals hlast hnew ↦ absurd hnew (hold now pascals hlast)⟩
  | some msg =>
    rw [hfresh] at hpressure
    refine ⟨⟨fun hnone ↦ absurd hnone (bottle_ne_noData _ _ _ _), fun hold ↦ ?_⟩,
      fun now pascals hlast hnew ↦
        ⟨_, _, topicShown_draw h r .temperature, topicShown_draw h r .humidity, ?_⟩⟩
    · cases hpressure.none_iff.mpr hold
    · cases hpressure.latest now pascals hlast hnew
      exact shows_bottle "autonomy" msg _ _

/-- A display runs until too little is left of a pressure message, the lines of the switches cannot
be requested though nobody holds them, or its text is not written. Up to then a redraw shows of
each bottle the last messages, and no reading that is too old. -/
theorem bottles_show_latest (cs : List Callback) :
    (run callback cs .start = none ↔ ∃ c ∈ cs, c.Fails) ∧
    ∀ s, run callback cs .start = some s → ∀ r,
      ((∃ e, s.draw r = .error e) ↔ r.Fails) ∧
      ∀ sections, s.draw r = .ok sections → ShowsLatest cs r sections := by
  refine ⟨run_eq_none_iff, fun s h r ↦ ?_⟩
  rcases draw_cases r s with ⟨⟨power, hpower, hdraw⟩, hnot⟩ | ⟨⟨e, hdraw⟩, hfails⟩
  · refine ⟨⟨?_, fun h ↦ absurd h hnot⟩, fun sections hsections ↦ ?_⟩
    · rintro ⟨e, he⟩
      cases hdraw.symm.trans he
    · cases hdraw.symm.trans hsections
      exact ⟨_, _, power, rfl, hpower, mainRow_draw h r, otherRow_draw h r⟩
  · refine ⟨⟨fun _ ↦ hfails, fun _ ↦ ⟨e, hdraw⟩⟩, fun sections hsections ↦ ?_⟩
    cases hdraw.symm.trans hsections

/-- A message that arrives. -/
def mild : ScaledPressure := ⟨2000, 0x447D5000, 0, 1850, 0⟩

/-- Another message, a humidity of the other bottle, a redraw while the lines are held, the message,
and a pressure and a humidity of the other bottle. -/
def mildAtLast : List Callback := [
  .pressure 2040.5 2040.625 ⟨1000, 0x447A0000, 0, 1200, 0⟩, .store .humidity 2041 60,
  .draw ⟨2041.5, 2041.5, fun _ ↦ 2041.5, .error ebusy, .ok ()⟩,
  .pressure 2043.272357343 2043.2723575 mild, .store .pressure 2046 62000,
  .store .humidity 2047 55]

/-- A redraw five seconds after the pressure was stored, and a little more after the temperature. -/
def fiveSecondsLater : Redraw :=
  ⟨2048.272357343, 2048.2723576, fun _ ↦ 2048.5,
    .ok fun pin ↦ if pin = 24 then .inactive else .active, .ok ()⟩

/-- By the difference of the times, which is rounded, the pressure is not yet too old; the
temperature is. -/
theorem bottles_show_latest_mild : ∃ s main, run callback mildAtLast .start = some s ∧
    s.draw fiveSecondsLater = .ok [
      ("BOTTLE PRESSURE", [main,
        ⟨"autonomy", [⟨62000 / 6894.76, 5, 2, " psi"⟩, ⟨55, 3, 0, "% RH"⟩], some .ok, "SEALED"⟩]),
      ("POWER", [⟨"arm1", [], some .ok, "ON"⟩, ⟨"arm2", [], none, "OFF"⟩,
        ⟨"sonar", [], none, "OFF"⟩, ⟨"dvl", [], none, "OFF"⟩])] ∧
    main.label = "main" ∧
    main.value = [⟨(Float32.ofBits 0x447D5000).toFloat * 100 / 6894.76, 5, 2, " psi"⟩] := by
  have h := bottles_show_latest mildAtLast
  have hrun : run callback mildAtLast .start ≠ none := by
    rw [Ne, h.1]
    rintro ⟨c, hmem, hfails⟩
    simp only [mildAtLast, List.mem_cons, List.not_mem_nil, or_false] at hmem
    rcases hmem with rfl | rfl | rfl | rfl | rfl | rfl
    · exact hfails (by decide)
    · exact hfails
    · rcases hfails with ⟨errno, heq, hne⟩ | ⟨errno, heq⟩
      · cases heq
        exact hne rfl
      · cases heq
    · exact hfails (by decide)
    · exact hfails
    · exact hfails
  rcases Option.ne_none_iff_exists'.mp hrun with ⟨s, hs⟩
  rcases h.2 s hs fiveSecondsLater with ⟨herror, hshows⟩
  cases hdraw : s.draw fiveSecondsLater with
  | error e =>
    rcases herror.mp ⟨e, hdraw⟩ with ⟨errno, heq, -⟩ | ⟨errno, heq⟩
    · cases heq
    · cases heq
  | ok sections =>
    rcases hshows sections hdraw with ⟨main, autonomy, power, rfl, hpower, hmain, hother⟩
    have hmild : IsLast Callback.IsPressure mildAtLast
        (.pressure 2043.272357343 2043.2723575 mild) := by
      refine ⟨mildAtLast.take 3, mildAtLast.drop 4, rfl, trivial, fun d hd ↦ ?_⟩
      rcases List.mem_cons.mp hd with rfl | hd
      · exact id
      · rw [List.mem_singleton.mp hd]
        exact id
    have hpascals : IsLast (Callback.IsOf .pressure) mildAtLast (.store .pressure 2046 62000) := by
      refine ⟨mildAtLast.take 4, mildAtLast.drop 5, rfl, rfl, fun d hd ↦ ?_⟩
      rw [List.mem_singleton.mp hd]
      nofun
    have hpercent : IsLast (Callback.IsOf .humidity) mildAtLast (.store .humidity 2047 55) :=
      ⟨mildAtLast.take 5, [], rfl, rfl, fun d hd ↦ absurd hd List.not_mem_nil⟩
    have hfresh : (2048.272357343 : Float) - 2043.272357343 < 5 := by decide +kernel
    have hstale : ¬ (2048.2723576 : Float) - 2043.2723575 < 5 := by decide +kernel
    have hvacuum : ¬ (62000 : Float) / 6894.76 > 10 := by decide +kernel
    have hmainRow := hmain.latest _ _ _ hmild hfresh
    rw [show fiveSecondsLater.mainTemperature = 2048.2723576 from rfl, if_neg hstale] at hmainRow
    rcases hother.latest _ _ hpascals (by decide +kernel) with
      ⟨celsius, percent, hcelsius, hhumidity, hotherRow⟩
    have hnone : celsius = none := by
      refine hcelsius.none_iff.mpr fun now number hlast ↦ ?_
      rcases hlast with ⟨before, after, hcs, -⟩
      have hmem : Callback.store .temperature now number ∈ mildAtLast :=
        hcs ▸ List.mem_append_right _ List.mem_cons_self
      simp only [mildAtLast, List.mem_cons, List.not_mem_nil, or_false, reduceCtorEq,
        Callback.store.injEq, false_and] at hmem
    rw [hnone, hhumidity.latest _ _ hpercent (by decide +kernel)] at hotherRow
    rcases autonomy with ⟨label, value, level, status⟩
    obtain rfl : label = "autonomy" := hotherRow.label
    obtain rfl : value = [⟨62000 / 6894.76, 5, 2, " psi"⟩, ⟨55, 3, 0, "% RH"⟩] := hotherRow.value
    obtain ⟨rfl, rfl⟩ : level = some .ok ∧ status = "SEALED" := hotherRow.vacuum hvacuum
    cases hpower
    exact ⟨s, main, hs, hdraw, hmainRow.label, hmainRow.value⟩

end BlueROV2.Mavlink
