import BlueROV2.Base.LittleEndian

/-!
# What is delivered of a pressure message

Library `Mavlink`. Neither MAVLink nor MAVROS is part of the repository. MAVLink 2 removes trailing
zero bytes of a payload, all but the first byte of it; MAVROS hands on what is left as words of 64
bits. Both pressure messages that the repository reads have the same payload.
-/

namespace BlueROV2.Mavlink

open BlueROV2.Base

/-- `SCALED_PRESSURE` and `SCALED_PRESSURE2`. Two fields are `float`s, by their bits, and two are
signed, by the bits of their two's complement; the last one is an extension. -/
structure ScaledPressure where
  timeBootMs : UInt32
  pressAbs : UInt32
  pressDiff : UInt32
  temperature : UInt16
  temperaturePressDiff : UInt16
  deriving DecidableEq, Repr

/-- `mavros_msgs/Mavlink`, as far as it is read here. -/
structure MavlinkMessage where
  msgid : Nat
  payload64 : List UInt64
  deriving DecidableEq, Repr

/-- The payload before anything is removed. -/
def ScaledPressure.bytes (m : ScaledPressure) : List UInt8 :=
  LittleEndian.toBytes 4 m.timeBootMs.toNat ++ LittleEndian.toBytes 4 m.pressAbs.toNat ++
    LittleEndian.toBytes 4 m.pressDiff.toNat ++ LittleEndian.toBytes 2 m.temperature.toNat ++
    LittleEndian.toBytes 2 m.temperaturePressDiff.toNat

/-- Trailing zeros are removed, but for the first byte. -/
def truncate (payload : List UInt8) : List UInt8 :=
  let kept := (payload.reverse.dropWhile (· = 0)).reverse
  if kept = [] then payload.take 1 else kept

/-- The words that are delivered of a payload. -/
def payload64 (payload : List UInt8) : List UInt64 :=
  (LittleEndian.words 8 (truncate payload)).map UInt64.ofNat

/-- The message as a subscriber gets it. -/
def ScaledPressure.deliver (msgid : Nat) (m : ScaledPressure) : MavlinkMessage :=
  ⟨msgid, payload64 m.bytes⟩

theorem ScaledPressure.length_bytes (m : ScaledPressure) : m.bytes.length = 16 := by
  simp [ScaledPressure.bytes]

/-! ### Truncation -/

-- the payload in two parts, the second one of zeros
private theorem exists_kept (payload : List UInt8) : ∃ n, payload =
    (payload.reverse.dropWhile (· = 0)).reverse ++ List.replicate n 0 := by
  refine ⟨(payload.reverse.takeWhile (· = 0)).length, ?_⟩
  have hzeros : payload.reverse.takeWhile (· = 0) =
      List.replicate (payload.reverse.takeWhile (· = 0)).length 0 := by
    apply List.eq_replicate_of_mem
    intro b hb
    exact of_decide_eq_true (List.all_eq_true.mp List.all_takeWhile b hb)
  have hsplit := congrArg List.reverse
    (List.takeWhile_append_dropWhile (p := fun b : UInt8 ↦ decide (b = 0)) (l := payload.reverse))
  rw [List.reverse_append, List.reverse_reverse, hzeros, List.reverse_replicate] at hsplit
  exact hsplit.symm

/-- What was removed are zeros. -/
theorem truncate_append (payload : List UInt8) :
    ∃ n, payload = truncate payload ++ List.replicate n 0 := by
  rcases exists_kept payload with ⟨n, hkept⟩
  rw [truncate]
  split
  · next hnone =>
    rw [hnone, List.nil_append] at hkept
    refine ⟨n - 1, ?_⟩
    rw [hkept, List.take_replicate, List.replicate_append_replicate]
    congr 1
    omega
  · exact ⟨n, hkept⟩

/-- A payload is cut to at most `k` bytes just when all bytes behind them are zero. -/
theorem length_truncate_le_iff {k : Nat} (hk : 0 < k) (payload : List UInt8) :
    (truncate payload).length ≤ k ↔ ∀ b ∈ payload.drop k, b = 0 := by
  constructor
  · intro hle b hb
    rcases truncate_append payload with ⟨n, hsplit⟩
    rw [hsplit, List.drop_append, List.drop_eq_nil_of_le hle, List.nil_append] at hb
    exact List.eq_of_mem_replicate (List.mem_of_mem_drop hb)
  · intro hzeros
    rcases exists_kept payload with ⟨n, hkept⟩
    rw [truncate]
    split
    · exact Nat.le_trans (List.length_take_le _ _) hk
    · next hne =>
      apply Nat.le_of_not_lt
      intro hlong
      generalize hrev : payload.reverse.dropWhile (· = 0) = rev at hkept hne hlong
      have hhead := List.head?_dropWhile_not (fun b : UInt8 ↦ decide (b = 0)) payload.reverse
      rw [hrev] at hhead
      cases rev with
      | nil => exact hne rfl
      | cons z rev =>
        -- the last byte that is kept is not zero, and it lies behind the first `k`
        rw [List.reverse_cons] at hkept hlong
        rw [List.length_append, List.length_singleton] at hlong
        refine of_decide_eq_false hhead (hzeros z ?_)
        rw [hkept, List.append_assoc, List.drop_append_of_le_length (Nat.le_of_lt_succ hlong)]
        exact List.mem_append_right _ (List.mem_append_left _ List.mem_cons_self)

theorem truncate_ne_nil {payload : List UInt8} (h : payload ≠ []) : truncate payload ≠ [] := by
  rw [truncate]
  split
  · cases payload with
    | nil => exact h
    | cons b payload => exact List.cons_ne_nil _ _
  · next hne => exact hne

/-! ### What arrives -/

/-- Something is left behind the first two fields. -/
def ScaledPressure.Arrives (m : ScaledPressure) : Prop :=
  m.pressDiff ≠ 0 ∨ m.temperature ≠ 0 ∨ m.temperaturePressDiff ≠ 0

instance (m : ScaledPressure) : Decidable m.Arrives :=
  inferInstanceAs (Decidable (_ ∨ _ ∨ _))

/-- The bytes of a field are zero just when the field is. -/
theorem bytes_zeros₄ (v : UInt32) : (∀ b ∈ LittleEndian.toBytes 4 v.toNat, b = 0) ↔ v = 0 :=
  (LittleEndian.toBytes_zeros v.toNat_lt).trans (UInt32.toNat_inj (b := 0))

theorem bytes_zeros₂ (v : UInt16) : (∀ b ∈ LittleEndian.toBytes 2 v.toNat, b = 0) ↔ v = 0 :=
  (LittleEndian.toBytes_zeros v.toNat_lt).trans (UInt16.toNat_inj (b := 0))

/-- No more than the first two fields are left just when all fields behind them are zero. -/
theorem ScaledPressure.length_truncate_le_iff (m : ScaledPressure) :
    (truncate m.bytes).length ≤ 8 ↔ ¬ m.Arrives := by
  have hdrop : m.bytes.drop 8 = LittleEndian.toBytes 4 m.pressDiff.toNat ++
      (LittleEndian.toBytes 2 m.temperature.toNat ++
        LittleEndian.toBytes 2 m.temperaturePressDiff.toNat) := rfl
  rw [Mavlink.length_truncate_le_iff (by decide), hdrop, List.forall_mem_append,
    List.forall_mem_append, bytes_zeros₄, bytes_zeros₂, bytes_zeros₂, ScaledPressure.Arrives,
    not_or, not_or, Classical.not_not, Classical.not_not, Classical.not_not]

/-- One word is delivered, or two. -/
theorem ScaledPressure.length_deliver (msgid : Nat) (m : ScaledPressure) :
    (m.deliver msgid).payload64.length = if m.Arrives then 2 else 1 := by
  have hle : (truncate m.bytes).length ≤ 16 := by
    rcases truncate_append m.bytes with ⟨n, hsplit⟩
    have hsum := congrArg List.length hsplit
    rw [m.length_bytes, List.length_append] at hsum
    exact Nat.le_of_add_right_le (Nat.le_of_eq hsum.symm)
  have hpos : 0 < (truncate m.bytes).length := by
    apply List.length_pos_iff.mpr
    apply truncate_ne_nil
    rw [← List.length_pos_iff, m.length_bytes]
    decide
  have hshort := m.length_truncate_le_iff
  rw [ScaledPressure.deliver, payload64, List.length_map, LittleEndian.length_words,
    LittleEndian.wordCount]
  split
  · next h =>
    have hlong : ¬ (truncate m.bytes).length ≤ 8 := fun hle ↦ hshort.mp hle h
    omega
  · next h =>
    have hle8 := hshort.mpr h
    omega

/-- The bytes of the words are those of the fields, if two words are delivered. -/
theorem ScaledPressure.bytes_deliver (msgid : Nat) {m : ScaledPressure} (h : m.Arrives) :
    (m.deliver msgid).payload64.flatMap (LittleEndian.toBytes 8 ·.toNat) = m.bytes := by
  have hlen := m.length_deliver msgid
  rw [if_pos h, ScaledPressure.deliver, payload64, List.length_map,
    LittleEndian.length_words] at hlen
  have hwords : ∀ w ∈ LittleEndian.words 8 (truncate m.bytes), (UInt64.ofNat w).toNat = w := by
    intro w hw
    exact UInt64.toNat_ofNat_of_lt (LittleEndian.lt_of_mem_words hw)
  rcases truncate_append m.bytes with ⟨n, hsplit⟩
  have hn : n = 16 - (truncate m.bytes).length := by
    have hsum := congrArg List.length hsplit
    rw [m.length_bytes, List.length_append, List.length_replicate] at hsum
    omega
  rw [ScaledPressure.deliver, payload64, List.flatMap_map, List.flatMap_def,
    List.map_congr_left fun w hw ↦ congrArg (LittleEndian.toBytes 8) (hwords w hw),
    ← List.flatMap_def, LittleEndian.flatMap_words (by decide), hlen]
  rw [hn] at hsplit
  exact hsplit.symm

end BlueROV2.Mavlink
