import Mathlib.Algebra.Group.Nat.Defs
import BlueROV2.Firmware.Samples

/-!
# The age of the angular rates

Library `Firmware`. `read` returns the rates of the last event of the gyroscope unless the clock,
in 32 bits, tells that they are too old; zero stands for a time at which there was no event. The
clock starts again at zero after 2³² milliseconds, and `configure` leaves the stored rates.
-/

namespace BlueROV2.Firmware

open BlueROV2.Base BlueROV2.Base.History

/-- All components are zero, of either sign. -/
def AllZero (v : Vector Word 3) : Prop := ∀ w ∈ v.toList, w &&& 0x7FFFFFFF = 0

instance (v : Vector Word 3) : Decidable (AllZero v) :=
  inferInstanceAs (Decidable (∀ w ∈ v.toList, w &&& 0x7FFFFFFF = 0))

theorem allZero_zeros : AllZero #v[0, 0, 0] := by
  intro w hw
  have hw0 : w = 0 := by simpa using hw
  rw [hw0, UInt32.zero_and]

/-- `configure` was called. -/
def Entry.Configures : Entry → Prop
  | .configured => True
  | .read _ _ => False

/-- The latest event of the gyroscope since the last configuration is `e`. -/
def LatestRates (log : List Entry) (e : Nat × SensorValue) : Prop :=
  ∃ j, LatestAt (Entry.eventOf .gyroscopeCalibrated) log j e ∧ NoneFrom Entry.Configures log j

/-- If a call returns a sample, its rates are zero, or those of the latest event since the last
configuration, which was read no longer ago than the limit. -/
def FreshRates (c : Call) (s : Logged) : Prop :=
  ∀ event r, c.1.entries (s.imu.facing c.2) = [.read event (some r)] →
    AllZero r.sample.rates ∨ ∃ e, LatestRates (s.log ++ [.read event (some r)]) e ∧
      r.sample.rates = e.2.vector ∧ r.time - e.1 ≤ r.gyroStaleMs.toNat

/-- If a call returns a sample, the rates that were stored before or that it read are zero; or
the clock in 32 bits tells the age of the latest event since the last configuration from a fresh
one; or, if there was none, it is beyond the limit itself. -/
def ClockTells (c : Call) (s : Logged) : Prop :=
  ∀ event r, c.1.entries (s.imu.facing c.2) = [.read event (some r)] →
    AllZero (((eventOf .gyroscopeCalibrated event).map (·.2.vector)).getD s.imu.sample.rates) ∨
    (∀ e, LatestRates (s.log ++ [.read event (some r)]) e →
      r.time - e.1 ≤ r.gyroStaleMs.toNat ∨ r.gyroStaleMs.toNat < (r.time - e.1) % 2 ^ 32) ∧
    ((∀ e, ¬ LatestRates (s.log ++ [.read event (some r)]) e) →
      r.gyroStaleMs.toNat < r.time % 2 ^ 32)

/-- The stored time is that of the latest event since the last configuration, and the stored
rates are those of that event if they were not cleared. Without an event the time is zero. -/
structure Dated (log : List Entry) (x : BNO085) : Prop where
  seen : ∀ e, LatestRates log e → x.lastGyroMs = UInt32.ofNat e.1 ∧
    (x.sample.rates = e.2.vector ∨ x.sample.rates = #v[0, 0, 0])
  never : (∀ e, ¬ LatestRates log e) → x.lastGyroMs = 0
  past : ∀ j e, LatestAt (Entry.eventOf .gyroscopeCalibrated) log j e → e.1 ≤ x.imu.now

variable {log : List Entry} {x y : BNO085} {e : Nat × SensorValue}

theorem LatestRates.unique {e' : Nat × SensorValue} (h : LatestRates log e)
    (h' : LatestRates log e') : e = e' := by
  rcases h with ⟨j, hl, -⟩
  rcases h' with ⟨j', hl', -⟩
  exact (hl.unique hl').2

/-- The difference of two readings of the clock, in true time. -/
theorem toNat_sub_ofNat {a b : Nat} (h : b ≤ a) :
    (UInt32.ofNat a - UInt32.ofNat b).toNat = (a - b) % 2 ^ 32 := by
  rw [UInt32.toNat_sub, UInt32.toNat_ofNat', UInt32.toNat_ofNat']
  omega

/-! ### What keeps the dates -/

theorem dated_start (powerOnConfig : UInt8) : Dated [] (.start powerOnConfig) := by
  have hnone : ∀ e, ¬ LatestRates [] e := fun e ⟨_, hl, _⟩ ↦ Nat.not_lt_zero _ hl.lt
  exact ⟨fun e he ↦ absurd he (hnone e), fun _ ↦ rfl, fun _ _ hl ↦ absurd hl.lt (Nat.not_lt_zero _)⟩

theorem Dated.kept (h : Dated log x) (hxy : Kept x y) : Dated log y := by
  refine ⟨fun e he ↦ ?_, fun hnone ↦ ?_, fun j e hl ↦ Nat.le_trans (h.past j e hl) hxy.now⟩
  · rw [hxy.lastGyroMs, hxy.sample]
    exact h.seen e he
  · rw [hxy.lastGyroMs]
    exact h.never hnone

theorem Dated.lowered (h : Dated log x) (hxy : Lowered x y) : Dated (log ++ [.configured]) y := by
  have hnone : ∀ e, ¬ LatestRates (log ++ [.configured]) e :=
    fun e ⟨j, hl⟩ ↦ not_seenSince_concat trivial ⟨j, e, hl⟩
  refine ⟨fun e he ↦ absurd he (hnone e), fun _ ↦ hxy.lastGyroMs, fun j e hl ↦ ?_⟩
  exact Nat.le_trans (h.past j e ((latestAt_concat_of_none rfl).mp hl)) hxy.now

/-- The event that is read is the latest one of its sensor; any other one changes nothing. -/
theorem latestRates_read (event : Option (Nat × SensorValue)) (result : Option Returned) :
    LatestRates (log ++ [.read event result]) e ↔
      match eventOf .gyroscopeCalibrated event with
      | some e' => e = e'
      | none => LatestRates log e := by
  have hshown := Entry.eventOf_read event result .gyroscopeCalibrated
  have hread : ¬ Entry.Configures (.read event result) := id
  cases he : eventOf .gyroscopeCalibrated event with
  | some e' =>
    constructor
    · rintro ⟨j, hl, -⟩
      exact ((latestAt_concat_of_some (hshown.trans he)).mp hl).2
    · rintro rfl
      exact ⟨log.length, (latestAt_concat_of_some (hshown.trans he)).mpr ⟨rfl, rfl⟩,
        (noneFrom_concat (Nat.le_refl _)).mpr ⟨noneFrom_length, hread⟩⟩
  | none =>
    have hnone := hshown.trans he
    constructor
    · rintro ⟨j, hl, hn⟩
      rw [latestAt_concat_of_none hnone] at hl
      exact ⟨j, hl, ((noneFrom_concat (Nat.le_of_lt hl.lt)).mp hn).1⟩
    · rintro ⟨j, hl, hn⟩
      exact ⟨j, (latestAt_concat_of_none hnone).mpr hl,
        (noneFrom_concat (Nat.le_of_lt hl.lt)).mpr ⟨hn, hread⟩⟩

/-- Taking an event keeps the dates. -/
theorem Dated.taken (h : Dated log x) {event : Option (Nat × SensorValue)}
    (ht : Taken event x y) (htime : ∀ e ∈ event, e.1 ≤ y.imu.now) (result : Option Returned) :
    Dated (log ++ [.read event result]) y := by
  have hrates := ht.rates
  have hlast := ht.lastGyroMs
  have hpast : ∀ j e, LatestAt (Entry.eventOf .gyroscopeCalibrated)
      (log ++ [.read event result]) j e → e.1 ≤ y.imu.now := by
    intro j e hl
    have hshown := Entry.eventOf_read event result .gyroscopeCalibrated
    cases he : eventOf .gyroscopeCalibrated event with
    | some e' =>
      rw [((latestAt_concat_of_some (hshown.trans he)).mp hl).2]
      exact htime e' (Option.filter_eq_some_iff.mp he).1
    | none =>
      exact Nat.le_trans (h.past j e ((latestAt_concat_of_none (hshown.trans he)).mp hl)) ht.now
  cases he : eventOf .gyroscopeCalibrated event with
  | some e' =>
    rw [he] at hrates hlast
    refine ⟨fun e hl ↦ ?_, fun hnone ↦ ?_, hpast⟩
    · rw [latestRates_read, he] at hl
      rw [hl]
      exact ⟨hlast, Or.inl hrates⟩
    · refine absurd ?_ (hnone e')
      rw [latestRates_read, he]
  | none =>
    rw [he] at hrates hlast
    have hsame : ∀ e, LatestRates (log ++ [.read event result]) e ↔ LatestRates log e := by
      intro e
      rw [latestRates_read, he]
    refine ⟨fun e hl ↦ ?_, fun hnone ↦ ?_, hpast⟩
    · rw [hlast, hrates]
      exact h.seen e ((hsame e).mp hl)
    · rw [hlast]
      exact h.never fun e hl ↦ hnone e ((hsame e).mpr hl)

/-- Returning a sample keeps the dates. -/
theorem Dated.assembled (h : Dated log x) {s : Sample} (ha : Assembled s x y) : Dated log y := by
  refine ⟨fun e he ↦ ?_, fun hnone ↦ ?_, fun j e hl ↦ Nat.le_trans (h.past j e hl) ha.now⟩
  · rw [ha.lastGyroMs, ha.sample, ha.rates]
    refine ⟨(h.seen e he).1, ?_⟩
    split
    · exact Or.inr rfl
    · exact (h.seen e he).2
  · rw [ha.lastGyroMs]
    exact h.never hnone

/-- The time of the event that `read` takes is not after it was taken. -/
private theorem time_taken (x : BNO085) : ∀ e ∈ (nextMoment x.imu.ahead).event.map
    (fun v ↦ (x.taking.imu.now, v)), e.1 ≤ x.taking.imu.now := by
  intro e he
  rcases Option.map_eq_some_iff.mp he with ⟨v, -, rfl⟩
  exact Nat.le_refl _

/-- A call keeps the dates. -/
theorem dated_act {c : Call} {s s' : Logged} (h : c.act s = some s') (hs : Dated s.log s.imu) :
    Dated s'.log s'.imu := by
  have hfacing : Dated s.log (s.imu.facing c.2) := ⟨hs.seen, hs.never, hs.past⟩
  rcases Option.map_eq_some_iff.mp h with ⟨y, hy, rfl⟩
  by_cases hm : c.1 = .read
  · rw [hm] at hy ⊢
    cases hy
    have htaken := hfacing.taken (taken_taking _) (time_taken _)
    change Dated (s.log ++ [(s.imu.facing c.2).readEntry]) (s.imu.facing c.2).read.2
    rw [BNO085.readEntry, BNO085.read_eq]
    rcases assemble_spec (s.imu.facing c.2).taking with ⟨heq, -⟩ | ⟨sample, y, heq, -, ha⟩
    · rw [heq]
      exact htaken none
    · rw [heq]
      exact (htaken _).assembled ha
  · rcases invoke_sample hm hy with ⟨hentries, hkept⟩ | ⟨hentries, hlowered⟩
    · rw [hentries, List.append_nil]
      exact hfacing.kept hkept
    · rw [hentries]
      exact hfacing.lowered hlowered

/-! ### When the clock tells -/

/-- What the comparison of the code says when there was an event. -/
theorem Dated.clock_of_seen (h : Dated log x) (he : LatestRates log e) {now : Nat}
    (hnow : x.imu.now ≤ now) : UInt32.ofNat now - x.lastGyroMs > x.gyroStaleMs ↔
      x.gyroStaleMs.toNat < (now - e.1) % 2 ^ 32 := by
  rcases id he with ⟨j, hl, -⟩
  rw [(h.seen e he).1, gt_iff_lt, UInt32.lt_iff_toNat_lt,
    toNat_sub_ofNat (Nat.le_trans (h.past j e hl) hnow)]

/-- What it says when there was none. -/
theorem Dated.clock_of_never (h : Dated log x) (hnone : ∀ e, ¬ LatestRates log e) {now : Nat} :
    UInt32.ofNat now - x.lastGyroMs > x.gyroStaleMs ↔ x.gyroStaleMs.toNat < now % 2 ^ 32 := by
  rw [h.never hnone, UInt32.sub_zero, gt_iff_lt, UInt32.lt_iff_toNat_lt, UInt32.toNat_ofNat']

/-- The rates of a sample are fresh just when the stored ones are zero or the clock tells their
age. -/
theorem fresh_assembled_iff (h : Dated log x) {s : Sample} (ha : Assembled s x y) :
    (AllZero s.rates ∨ ∃ e, LatestRates log e ∧ s.rates = e.2.vector ∧
        y.imu.now - e.1 ≤ x.gyroStaleMs.toNat) ↔
      (AllZero x.sample.rates ∨
        (∀ e, LatestRates log e → y.imu.now - e.1 ≤ x.gyroStaleMs.toNat ∨
          x.gyroStaleMs.toNat < (y.imu.now - e.1) % 2 ^ 32) ∧
        ((∀ e, ¬ LatestRates log e) → x.gyroStaleMs.toNat < y.imu.now % 2 ^ 32)) := by
  have hseen : ∀ e, LatestRates log e → (UInt32.ofNat y.imu.now - x.lastGyroMs > x.gyroStaleMs ↔
      x.gyroStaleMs.toNat < (y.imu.now - e.1) % 2 ^ 32) := fun e he ↦ h.clock_of_seen he ha.now
  rw [ha.rates]
  by_cases hstored : AllZero x.sample.rates
  · refine ⟨fun _ ↦ Or.inl hstored, fun _ ↦ Or.inl ?_⟩
    split
    · exact allZero_zeros
    · exact hstored
  by_cases hold : UInt32.ofNat y.imu.now - x.lastGyroMs > x.gyroStaleMs
  · -- the rates are cleared
    rw [if_pos hold]
    refine ⟨fun _ ↦ Or.inr ⟨fun e he ↦ Or.inr ((hseen e he).mp hold), fun hnone ↦ ?_⟩,
      fun _ ↦ Or.inl allZero_zeros⟩
    exact (h.clock_of_never hnone).mp hold
  · -- the stored rates are returned
    rw [if_neg hold]
    constructor
    · intro hfresh
      rcases hfresh.resolve_left hstored with ⟨e, he, -, hage⟩
      refine Or.inr ⟨fun e' he' ↦ ?_, fun hnone ↦ absurd he (hnone e)⟩
      rw [he'.unique he]
      exact Or.inl hage
    · intro htells
      rcases htells.resolve_left hstored with ⟨hage, hnone⟩
      by_cases hsome : ∃ e, LatestRates log e
      · rcases hsome with ⟨e, he⟩
        refine Or.inr ⟨e, he, ?_, (hage e he).resolve_right fun hlt ↦ hold ((hseen e he).mpr hlt)⟩
        exact (h.seen e he).2.resolve_right fun hcleared ↦ hstored (hcleared ▸ allZero_zeros)
      · have hno := not_exists.mp hsome
        exact absurd ((h.clock_of_never hno).mpr (hnone hno)) hold

/-- What a call returns is fresh just when the clock tells. -/
theorem freshRates_iff {c : Call} {s : Logged} (hs : Dated s.log s.imu) :
    FreshRates c s ↔ ClockTells c s := by
  apply forall_congr'
  intro event
  apply forall_congr'
  intro r
  apply imp_congr_right
  intro hentries
  by_cases hm : c.1 = .read
  · rw [hm] at hentries
    have hentry : (s.imu.facing c.2).readEntry = .read event (some r) :=
      List.singleton_inj.mp hentries
    rw [BNO085.readEntry, BNO085.read_eq] at hentry
    have ht := taken_taking (s.imu.facing c.2)
    have hdated := (show Dated s.log (s.imu.facing c.2) from ⟨hs.seen, hs.never, hs.past⟩).taken
      ht (time_taken _) (some r)
    rcases Entry.read.inj hentry with ⟨hevent, hresult⟩
    rw [hevent] at ht hdated
    rcases assemble_spec (s.imu.facing c.2).taking with ⟨heq, -⟩ | ⟨sample, y, heq, -, ha⟩
    · rw [heq] at hresult
      cases hresult
    · rw [heq] at hresult
      have hr := Option.some.inj hresult
      have hiff := fresh_assembled_iff hdated ha
      rw [ht.gyroStaleMs, ht.rates] at hiff
      rw [← hr] at hiff ⊢
      exact hiff
  · -- no other method returns a sample
    rcases c with ⟨m, ahead⟩
    cases m with
    | read => exact absurd rfl hm
    | begin p g t =>
      change (if _ then _ else _) = _ at hentries
      split at hentries
      · cases hentries
      · cases hentries
    | _ => cases hentries

/-- In every sequence of calls of the methods, with any events and any clock, the rates of every
sample are zero or fresh just when the clock tells in every call. -/
theorem rates_fresh (powerOnConfig : UInt8) (calls : List Call) :
    (∃ s, Transition.run Call.act calls (.start powerOnConfig) = some s) ∧
      (Transition.Along Call.act FreshRates calls (.start powerOnConfig) ↔
        Transition.Along Call.act ClockTells calls (.start powerOnConfig)) := by
  refine ⟨exists_calls calls _, ?_⟩
  apply Transition.along_congr (I := fun s ↦ Dated s.log s.imu) _ _ calls
    (dated_start powerOnConfig)
  · exact fun c s s' _ h hs ↦ dated_act h hs
  · exact fun c s hs ↦ freshRates_iff hs

/-- The rates that a history returned last. -/
def lastRates (log : List Entry) : Option (Vector Word 3) :=
  match log.getLast? with
  | some (.read _ (some r)) => some r.sample.rates
  | _ => none

/-- An event of the gyroscope is read shortly after the start. -/
def turning : List Call := [(.begin 5 100 5000, []), reading 5 .gyroscopeCalibrated 1]

/-- Weeks later the IMU is reset, just before the clock starts again, and an acceleration is read
behind that. -/
def resetLate : List Call := [
  (.reset, [{ Moment.quiet with elapsed := 2 ^ 32 - 155 }]), reading 5 .accelerometer 2]

/-- The sample that is returned then has the rates of weeks ago, though the IMU was configured
since. -/
theorem stale_rates_returned : ∃ s,
    Transition.run Call.act (turning ++ resetLate) (.start 0) = some s ∧
      ¬ FreshRates (reading 5 .rotationVector 3) s := by
  have hrates : ((Transition.run Call.act (turning ++ resetLate) (.start 0)).bind
      (reading 5 .rotationVector 3).act).map (lastRates ·.log) = some (some #v[1, 0, 0]) := by
    decide +kernel
  rcases exists_calls turning (.start 0) with ⟨s, hs⟩
  rcases exists_calls resetLate s with ⟨s', hs'⟩
  have hrun : Transition.run Call.act (turning ++ resetLate) (.start 0) = some s' := by
    rw [Transition.run_append, hs]
    exact hs'
  refine ⟨s', hrun, fun hfresh ↦ ?_⟩
  obtain ⟨x, hx⟩ : ∃ x, x = s'.imu.facing (reading 5 .rotationVector 3).2 := ⟨_, rfl⟩
  have hshown : lastRates (s'.log ++ [x.readEntry]) = some #v[1, 0, 0] := by
    rw [hrun] at hrates
    rw [hx]
    exact Option.some.inj hrates
  rw [lastRates, List.getLast?_concat, BNO085.readEntry] at hshown
  cases hread : x.read.1 with
  | none =>
    rw [hread] at hshown
    cases hshown
  | some sample =>
    rw [hread] at hshown
    have hsample : sample.rates = #v[1, 0, 0] := Option.some.inj hshown
    have hentry : (reading 5 .rotationVector 3).1.entries x = [.read
        (some (x.taking.imu.now, ⟨.rotationVector, 3, 3, 0, 0, 0, 0⟩))
        (some ⟨sample, x.read.2.imu.now, x.gyroStaleMs⟩)] := by
      change [x.readEntry] = _
      rw [BNO085.readEntry, hread, hx]
      rfl
    rcases hfresh _ _ (hx ▸ hentry) with hzero | ⟨e, hl, -⟩
    · rw [hsample] at hzero
      exact absurd (hzero 1 List.mem_cons_self) (by decide)
    · -- no event of the gyroscope was read after the configuration
      have hlog : ∃ time result, s'.log = (s.log ++ [.configured]) ++
          [.read (some (time, ⟨.accelerometer, 3, 2, 0, 0, 0, 0⟩)) result] :=
        ⟨_, _, congrArg Logged.log (Option.some.inj hs').symm⟩
      rcases hlog with ⟨time, result, hlog⟩
      rw [latestRates_read, hlog] at hl
      have hl' := (latestRates_read _ result).mp hl
      rcases hl' with ⟨j, hl'⟩
      exact not_seenSince_concat trivial ⟨j, e, hl'⟩

end BlueROV2.Firmware
