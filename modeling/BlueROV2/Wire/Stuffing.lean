import BlueROV2.Base.Memory
import BlueROV2.Wire.Format

/-!
# Stuffing into a buffer with a reserved code byte

Library `Wire`. Both encoders fill a buffer from the left and keep three loop variables:
where to write next, where the code byte of the open block will go, and its value. This
module relates that state to the blocks it stands for and follows one whole pass.
-/

namespace BlueROV2.Wire

open BlueROV2.Base BlueROV2.Base.Cobs

/-- The loop variables of an encoder and the buffer it writes. -/
structure Stuffer where
  out : List UInt8
  write : Nat
  codeIndex : Nat
  code : UInt8
  deriving DecidableEq, Repr

namespace Stuffer

/-- The state in which `closed` blocks are finished and `cur` is open behind a reserved
byte `x`; `tail` is the part of the buffer that is not in use yet. -/
def openAt (closed : List (List UInt8)) (cur : List UInt8) (x : UInt8) (tail : List UInt8) :
    Stuffer where
  out := bytes.ser closed ++ x :: (cur ++ tail)
  write := (bytes.ser closed).length + (1 + cur.length)
  codeIndex := (bytes.ser closed).length
  code := bytes.code cur.length

/-- One iteration over a data byte. -/
def put (s : Stuffer) (byte : UInt8) : Cpp Stuffer :=
  if byte = 0 then do
    let out ← store s.out s.codeIndex s.code
    pure { out, write := s.write + 1, codeIndex := s.write, code := 1 }
  else do
    let out ← store s.out s.write byte
    if s.code + 1 = 0xFF then do
      let out ← store out s.codeIndex (s.code + 1)
      pure { out, write := s.write + 2, codeIndex := s.write + 1, code := 1 }
    else pure { s with out, write := s.write + 1, code := s.code + 1 }

/-- The assignment of the last code byte, after the loop. -/
def finish (s : Stuffer) : Cpp (Nat × List UInt8) := do
  let out ← store s.out s.codeIndex s.code
  pure (s.write, out)

private theorem code_succ {n : Nat} : bytes.code n + 1 = bytes.code (n + 1) := by
  simp [Alphabet.code, bytes, UInt8.ofNat_add]

private theorem code_eq_last {n : Nat} (h : n ≤ 254) : bytes.code n = 0xFF ↔ n = 254 := by
  constructor
  · intro hc
    have hr := Alphabet.rank_code (A := bytes) h
    rw [hc] at hr
    exact (Nat.succ.inj hr).symm
  · rintro rfl
    rfl

/-- A zero closes the open block and reserves the next byte. -/
theorem put_zero (closed : List (List UInt8)) (cur : List UInt8) (x t : UInt8)
    (tail : List UInt8) :
    put (.openAt closed cur x (t :: tail)) 0 = .ok (.openAt (closed ++ [cur]) [] t tail) := by
  have hs := store_middle (a := bytes.ser closed) rfl x (cur ++ t :: tail) (bytes.code cur.length)
  simp only [put, openAt, if_pos, hs, Cpp.ok_bind, Cpp.pure_eq]
  simp [Alphabet.ser_append, Alphabet.ser, Alphabet.code, bytes]
  omega

/-- A byte that does not fill the block extends it. -/
theorem put_data (closed : List (List UInt8)) (cur : List UInt8) (x t : UInt8)
    (tail : List UInt8) (byte : UInt8) (hb : byte ≠ 0) (hl : cur.length + 1 < 254) :
    put (.openAt closed cur x (t :: tail)) byte = .ok (.openAt closed (cur ++ [byte]) x tail) := by
  have hlen : (bytes.ser closed ++ x :: cur).length =
      (bytes.ser closed).length + (1 + cur.length) := by
    simp only [List.length_append, List.length_cons]
    omega
  have hs := store_middle hlen t tail byte
  simp only [List.append_assoc, List.cons_append] at hs
  have hc : ¬ bytes.code (cur.length + 1) = 0xFF := by
    rw [code_eq_last (by omega)]
    omega
  simp only [put, openAt, if_neg hb, hs, Cpp.ok_bind, code_succ, if_neg hc, Cpp.pure_eq]
  simp
  omega

/-- A byte that fills the block closes it and reserves the byte after it. -/
theorem put_full (closed : List (List UInt8)) (cur : List UInt8) (x t u : UInt8)
    (tail : List UInt8) (byte : UInt8) (hb : byte ≠ 0) (hl : cur.length + 1 = 254) :
    put (.openAt closed cur x (t :: u :: tail)) byte =
      .ok (.openAt (closed ++ [cur ++ [byte]]) [] u tail) := by
  have hlen : (bytes.ser closed ++ x :: cur).length =
      (bytes.ser closed).length + (1 + cur.length) := by
    simp only [List.length_append, List.length_cons]
    omega
  have hs := store_middle hlen t (u :: tail) byte
  simp only [List.append_assoc, List.cons_append] at hs
  have hc : bytes.code (cur.length + 1) = 0xFF := (code_eq_last (by omega)).mpr hl
  have hf := store_middle (a := bytes.ser closed) rfl x (cur ++ byte :: u :: tail)
    (bytes.code (cur.length + 1))
  simp only [put, openAt, if_neg hb, hs, Cpp.ok_bind, code_succ, if_pos hc, hf, Cpp.pure_eq]
  simp [Alphabet.ser_append, Alphabet.ser, Alphabet.code, bytes]
  omega

/-- The last code byte closes the last block. -/
theorem finish_openAt (closed : List (List UInt8)) (cur : List UInt8) (x : UInt8)
    (tail : List UInt8) :
    finish (.openAt closed cur x tail) =
      .ok ((bytes.ser (closed ++ [cur])).length, bytes.ser (closed ++ [cur]) ++ tail) := by
  have hs := store_middle (a := bytes.ser closed) rfl x (cur ++ tail) (bytes.code cur.length)
  simp only [finish, openAt, hs, Cpp.ok_bind, Cpp.pure_eq]
  simp [Alphabet.ser_append, Alphabet.ser]
  omega

/-- A whole pass writes the serialised blocks and nothing behind them, provided the buffer
holds them. -/
theorem run_openAt (closed : List (List UInt8)) (cur : List UInt8) (x : UInt8)
    (tail data : List UInt8) (hl : cur.length < 254)
    (hcap : (bytes.ser (bytes.splitFrom cur data)).length ≤ 1 + cur.length + tail.length) :
    (data.foldlM put (.openAt closed cur x tail) >>= finish) =
      .ok ((bytes.ser (closed ++ bytes.splitFrom cur data)).length,
        bytes.ser (closed ++ bytes.splitFrom cur data) ++
          tail.drop ((bytes.ser (bytes.splitFrom cur data)).length - (1 + cur.length))) := by
  induction data generalizing closed cur x tail with
  | nil =>
    rw [List.foldlM_nil, Cpp.pure_eq, Cpp.ok_bind, finish_openAt]
    simp [Alphabet.splitFrom, Alphabet.ser, Nat.add_comm]
  | cons b data ih =>
    have hpos := Alphabet.length_lt_ser_splitFrom (A := bytes) [] data
    rw [List.foldlM_cons]
    unfold Alphabet.splitFrom at hcap ⊢
    by_cases hb : b = 0
    · have hr : bytes.rank b = 0 := by rw [hb]; rfl
      simp only [if_pos hr, Alphabet.ser, List.length_cons, List.length_append] at hcap ⊢
      obtain ⟨t, tail, rfl⟩ : ∃ t ts, tail = t :: ts := by
        cases tail with
        | nil => simp only [List.length_nil] at hcap; omega
        | cons t ts => exact ⟨t, ts, rfl⟩
      rw [hb, put_zero, Cpp.ok_bind, ih (closed ++ [cur]) [] t tail (by decide)
        (by simp only [List.length_cons, List.length_nil] at hcap ⊢; omega)]
      obtain ⟨k, hk⟩ : ∃ k, (bytes.ser (bytes.splitFrom [] data)).length = k + 1 :=
        ⟨_, (Nat.sub_add_cancel hpos).symm⟩
      have hd : cur.length + (k + 1) + 1 - (1 + cur.length) = k + 1 := by omega
      simp [hk, hd]
    · have hr : ¬ bytes.rank b = 0 := fun h ↦ hb (UInt8.toNat_inj.mp h)
      simp only [if_neg hr] at hcap ⊢
      split
      · next hf =>
        have hf' : cur.length + 1 = 254 := hf
        rw [if_pos hf] at hcap
        simp only [Alphabet.ser, List.length_cons, List.length_append, List.length_nil] at hcap ⊢
        obtain ⟨t, u, tail, rfl⟩ : ∃ t u ts, tail = t :: u :: ts := by
          rcases tail with _ | ⟨t, _ | ⟨u, ts⟩⟩
          · simp only [List.length_nil] at hcap; omega
          · simp only [List.length_cons, List.length_nil] at hcap; omega
          · exact ⟨t, u, ts, rfl⟩
        rw [put_full closed cur x t u tail b hb hf', Cpp.ok_bind,
          ih (closed ++ [cur ++ [b]]) [] u tail (by decide)
            (by simp only [List.length_cons, List.length_nil] at hcap ⊢; omega)]
        obtain ⟨k, hk⟩ : ∃ k, (bytes.ser (bytes.splitFrom [] data)).length = k + 1 :=
          ⟨_, (Nat.sub_add_cancel hpos).symm⟩
        have hd : cur.length + (0 + 1) + (k + 1) + 1 - (1 + cur.length) = k + 2 := by omega
        simp [hk, hd]
      · next hf =>
        rw [if_neg hf] at hcap
        have hne : cur.length + 1 ≠ 254 := hf
        have hlt := Alphabet.length_lt_ser_splitFrom (A := bytes) (cur ++ [b]) data
        rw [List.length_append, List.length_singleton] at hlt
        obtain ⟨t, tail, rfl⟩ : ∃ t ts, tail = t :: ts := by
          cases tail with
          | nil => simp only [List.length_nil] at hcap; omega
          | cons t ts => exact ⟨t, ts, rfl⟩
        rw [put_data closed cur x t tail b hb (by omega), Cpp.ok_bind,
          ih closed (cur ++ [b]) x tail
            (by simp only [List.length_append, List.length_singleton]; omega)
            (by simp only [List.length_append, List.length_cons, List.length_nil] at hcap ⊢; omega)]
        obtain ⟨k, hk⟩ : ∃ k, (bytes.ser (bytes.splitFrom (cur ++ [b]) data)).length =
            cur.length + 1 + 1 + k := ⟨_, (Nat.add_sub_cancel' hlt).symm⟩
        have hd : cur.length + 1 + 1 + k - (1 + cur.length) = k + 1 := by omega
        have hd' : cur.length + 1 + 1 + k - (1 + (cur ++ [b]).length) = k := by
          rw [List.length_append, List.length_singleton]
          omega
        rw [hk, hd, hd', List.drop_succ_cons]

end Stuffer

end BlueROV2.Wire
