import Mathlib.Algebra.Group.Nat.Defs

/-!
# Little-endian numbers

Library `Base`. A natural number as a given count of bytes, the lowest first, and the number that
bytes stand for. Both ways round nothing is lost but what does not fit. Bytes are also cut into
words of several bytes each; the last word is filled up with zeros.
-/

namespace BlueROV2.Base.LittleEndian

/-- The lowest `n` bytes of a number. -/
def toBytes : Nat → Nat → List UInt8
  | 0, _ => []
  | n + 1, v => UInt8.ofNat v :: toBytes n (v / 256)

/-- The number that bytes stand for. -/
def toNat : List UInt8 → Nat
  | [] => 0
  | b :: bytes => b.toNat + 256 * toNat bytes

@[simp] theorem length_toBytes (n v : Nat) : (toBytes n v).length = n := by
  induction n generalizing v with
  | zero => rfl
  | succ n ih => rw [toBytes, List.length_cons, ih]

/-- What fits into the bytes is what they stand for. -/
theorem toNat_toBytes (n v : Nat) : toNat (toBytes n v) = v % 256 ^ n := by
  induction n generalizing v with
  | zero => rw [toBytes, toNat, Nat.pow_zero, Nat.mod_one]
  | succ n ih =>
    have hpow : 256 ^ (n + 1) = 256 * 256 ^ n := Nat.pow_succ'
    rw [toBytes, toNat, ih, UInt8.toNat_ofNat', hpow, Nat.mod_mul]

/-- Bytes are told by their number and what they stand for. -/
theorem toBytes_toNat (bytes : List UInt8) : toBytes bytes.length (toNat bytes) = bytes := by
  induction bytes with
  | nil => rfl
  | cons b bytes ih =>
    have hlow : UInt8.ofNat (b.toNat + 256 * toNat bytes) = b := by
      apply UInt8.toNat_inj.mp
      rw [UInt8.toNat_ofNat', Nat.add_mul_mod_self_left, Nat.mod_eq_of_lt b.toNat_lt]
    have hhigh : (b.toNat + 256 * toNat bytes) / 256 = toNat bytes := by
      rw [Nat.add_mul_div_left _ _ (by decide), Nat.div_eq_of_lt b.toNat_lt, Nat.zero_add]
    rw [List.length_cons, toBytes, toNat, hlow, hhigh, ih]

theorem toNat_lt (bytes : List UInt8) : toNat bytes < 256 ^ bytes.length := by
  rw [← toBytes_toNat bytes, toNat_toBytes, length_toBytes]
  exact Nat.mod_lt _ (Nat.pow_pos (by decide))

/-- Bytes stand for zero just when all of them are zero. -/
theorem toNat_eq_zero {bytes : List UInt8} : toNat bytes = 0 ↔ ∀ b ∈ bytes, b = 0 := by
  induction bytes with
  | nil => exact ⟨fun _ ↦ nofun, fun _ ↦ rfl⟩
  | cons b bytes ih =>
    have hb : b.toNat = 0 ↔ b = 0 := UInt8.toNat_inj (b := 0)
    rw [toNat, Nat.add_eq_zero_iff, hb, List.forall_mem_cons, ← ih, Nat.mul_eq_zero]
    simp

/-- A number that fits has zero bytes only if it is zero. -/
theorem toBytes_zeros {n v : Nat} (h : v < 256 ^ n) : (∀ b ∈ toBytes n v, b = 0) ↔ v = 0 := by
  rw [← toNat_eq_zero, toNat_toBytes, Nat.mod_eq_of_lt h]

/-! ### Words -/

/-- How many words of `n` bytes are needed. -/
def wordCount (n size : Nat) : Nat := (size + n - 1) / n

/-- The words of `n` bytes each, the last of them filled up with zeros. -/
def words (n : Nat) (bytes : List UInt8) : List Nat :=
  let padded := bytes ++ List.replicate (n * wordCount n bytes.length - bytes.length) 0
  (List.range (wordCount n bytes.length)).map fun i ↦ toNat ((padded.drop (n * i)).take n)

@[simp] theorem length_words (n : Nat) (bytes : List UInt8) :
    (words n bytes).length = wordCount n bytes.length := by
  rw [words, List.length_map, List.length_range]

/-- A word fits into its bytes. -/
theorem lt_of_mem_words {n w : Nat} {bytes : List UInt8} (h : w ∈ words n bytes) :
    w < 256 ^ n := by
  rcases List.mem_map.mp h with ⟨i, -, rfl⟩
  exact Nat.lt_of_lt_of_le (toNat_lt _)
    (Nat.pow_le_pow_right (by decide) (List.length_take_le _ _))

/-- The words have room for the bytes. -/
theorem le_mul_wordCount {n : Nat} (hn : 0 < n) (size : Nat) : size ≤ n * wordCount n size := by
  have hdiv := Nat.div_add_mod (size + n - 1) n
  have hmod := Nat.mod_lt (size + n - 1) hn
  rw [wordCount]
  omega

-- the pieces of `n` bytes from the front
private theorem flatMap_range_take (n k : Nat) (bytes : List UInt8) :
    (List.range k).flatMap (fun i ↦ (bytes.drop (n * i)).take n) = bytes.take (n * k) := by
  induction k with
  | zero => rfl
  | succ k ih =>
    rw [List.range_succ, List.flatMap_append, ih, List.flatMap_singleton, Nat.mul_succ,
      List.take_add]

/-- The bytes of the words are the bytes that were cut, and zeros behind them. -/
theorem flatMap_words {n : Nat} (hn : 0 < n) (bytes : List UInt8) :
    (words n bytes).flatMap (toBytes n) =
      bytes ++ List.replicate (n * wordCount n bytes.length - bytes.length) 0 := by
  have hle := le_mul_wordCount hn bytes.length
  generalize hpad : bytes ++ List.replicate (n * wordCount n bytes.length - bytes.length) 0 = padded
  have hlen : padded.length = n * wordCount n bytes.length := by
    rw [← hpad, List.length_append, List.length_replicate]
    omega
  have hpieces : ∀ i ∈ List.range (wordCount n bytes.length),
      toBytes n (toNat ((padded.drop (n * i)).take n)) = (padded.drop (n * i)).take n := by
    intro i hi
    have hroom : n * i + n ≤ n * wordCount n bytes.length := by
      rw [← Nat.mul_succ]
      exact Nat.mul_le_mul_left n (List.mem_range.mp hi)
    have hpiece : ((padded.drop (n * i)).take n).length = n := by
      rw [List.length_take, List.length_drop, hlen]
      omega
    have htold := toBytes_toNat ((padded.drop (n * i)).take n)
    rwa [hpiece] at htold
  rw [words, hpad]
  rw [List.flatMap_map, List.flatMap_def, List.map_congr_left hpieces, ← List.flatMap_def,
    flatMap_range_take, ← hlen, List.take_length]

end BlueROV2.Base.LittleEndian
