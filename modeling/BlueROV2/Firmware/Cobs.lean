import BlueROV2.Wire.Stuffing

/-!
# COBS on the Teensy

Library `Firmware`. `modules/teensy/lib/packet/cobs.cpp`. Buffers are a pointer with a
size; `ssize_t` results are integers with `-1` for failure, as in the source. `size_t`
arithmetic is unbounded: no buffer of the address space makes `size + size / 254 + 1` wrap.
-/

namespace BlueROV2.Firmware

open BlueROV2.Base BlueROV2.Base.Cobs BlueROV2.Wire

/-- The loop body of `encode_cobs`; `cobs.cpp:16–32`. -/
def encodeCobsByte (s : Stuffer) (byte : UInt8) : Cpp Stuffer :=
  if byte = 0 then do
    let out ← store s.out s.codeIndex s.code
    pure { out, write := s.write + 1, codeIndex := s.write, code := 1 }
  else do
    let out ← store s.out s.write byte
    -- a block holds at most 254 data bytes
    if s.code + 1 = 0xFF then do
      let out ← store out s.codeIndex (s.code + 1)
      pure { out, write := s.write + 2, codeIndex := s.write + 1, code := 1 }
    else pure { s with out, write := s.write + 1, code := s.code + 1 }

/-- `encode_cobs`: the number of bytes written, or `-1`, and the buffer; `cobs.cpp:6–38`. -/
def encodeCobs (data : List UInt8) (size : Nat) (out : List UInt8) (outSize : Nat) :
    Cpp (Int × List UInt8) :=
  if outSize < size + size / 254 + 1 then pure (-1, out)
  else do
    let s ← forData data size { out, write := 1, codeIndex := 0, code := 1 } encodeCobsByte
    let out ← store s.out s.codeIndex s.code
    pure (s.write, out)

/-- The loop variables of `decode_cobs`. -/
structure CobsReader where
  read : Nat
  write : Nat
  out : List UInt8
  deriving DecidableEq, Repr

/-- The inner loop of `decode_cobs` over `n` data bytes; `false` stands for its `return -1`;
`cobs.cpp:53–61`. -/
def copyBlock (data : List UInt8) (size outSize : Nat) : Nat → CobsReader → Cpp (Bool × CobsReader)
  | 0, s => pure (true, s)
  | n + 1, s =>
    if s.read ≥ size then pure (false, s)
    else if s.write ≥ outSize then pure (false, s)
    else do
      let byte ← load data s.read
      let out ← store s.out s.write byte
      copyBlock data size outSize n { read := s.read + 1, write := s.write + 1, out }

/-- The outer loop of `decode_cobs`; every iteration reads a code byte, so `size` iterations
suffice; `cobs.cpp:44–69`. -/
def decodeCobsLoop (data : List UInt8) (size outSize : Nat) :
    Nat → CobsReader → Cpp (Int × List UInt8)
  | 0, s => pure (s.write, s.out)
  | fuel + 1, s =>
    if s.read ≥ size then pure (s.write, s.out)
    else do
      let code ← load data s.read
      if code = 0x00 then pure (-1, s.out)
      else do
        let (copied, s) ← copyBlock data size outSize (code.toNat - 1) { s with read := s.read + 1 }
        if !copied then pure (-1, s.out)
        else if code ≠ 0xFF ∧ s.read < size then
          if s.write ≥ outSize then pure (-1, s.out)
          else do
            let out ← store s.out s.write 0x00
            decodeCobsLoop data size outSize fuel { s with write := s.write + 1, out }
        else decodeCobsLoop data size outSize fuel s

/-- `decode_cobs`: the number of bytes written, or `-1`, and the buffer; `cobs.cpp:40–72`. -/
def decodeCobs (data : List UInt8) (size : Nat) (out : List UInt8) (outSize : Nat) :
    Cpp (Int × List UInt8) :=
  decodeCobsLoop data size outSize size { read := 0, write := 0, out }

/-- The loop body is the stuffing step. -/
theorem encodeCobsByte_eq : encodeCobsByte = Stuffer.put := rfl

/-- An accepted buffer that is as large as the capacity formula receives the frame of the data
and keeps what lies behind it, whatever size it is said to have. -/
theorem encodeCobs_of_room (data out : List UInt8) (size outSize : Nat) (hs : size ≤ data.length)
    (ho : size + size / 254 + 1 ≤ out.length) (hc : size + size / 254 + 1 ≤ outSize) :
    encodeCobs data size out outSize =
      .ok (((bytes.encode (data.take size)).length : Int), bytes.encode (data.take size) ++
        out.drop (bytes.encode (data.take size)).length) := by
  obtain ⟨x, tail, rfl⟩ : ∃ x tail, out = x :: tail := by
    cases out with
    | nil => simp only [List.length_nil] at ho; omega
    | cons x tail => exact ⟨x, tail, rfl⟩
  have hle := Alphabet.length_encode_le (A := bytes) (data.take size)
  have hlen : (data.take size).length = size := by rw [List.length_take]; omega
  have hpos := Alphabet.length_lt_ser_splitFrom (A := bytes) [] (data.take size)
  rw [hlen] at hle
  have hrun := Stuffer.run_openAt [] [] x tail (data.take size) (by decide) (by
    have : bytes.limit = 254 := rfl
    rw [List.length_cons] at ho
    rw [Alphabet.encode, this] at hle
    simp only [List.length_nil]
    omega)
  have hstart : Stuffer.openAt [] [] x tail = ⟨x :: tail, 1, 0, 1⟩ := rfl
  rw [hstart] at hrun
  rw [encodeCobs, if_neg (by omega), forData_eq _ _ _ _ hs, encodeCobsByte_eq]
  obtain ⟨s, hfold, hfin⟩ := Cpp.bind_eq_ok.mp hrun
  obtain ⟨o, hst, hres⟩ := Cpp.bind_eq_ok.mp hfin
  obtain ⟨hw, hb⟩ := Prod.mk.inj (Except.ok.inj hres)
  rw [hfold, Cpp.ok_bind, hst, Cpp.ok_bind, Cpp.pure_eq, hw, hb]
  obtain ⟨k, hk⟩ : ∃ k, (bytes.ser (bytes.splitFrom [] (data.take size))).length = k + 1 :=
    ⟨_, (Nat.sub_add_cancel hpos).symm⟩
  simp [Alphabet.encode, hk]

/-- An accepted buffer receives the frame of the data and keeps what lies behind it. -/
theorem encodeCobs_eq (data out : List UInt8) (size outSize : Nat) (hs : size ≤ data.length)
    (ho : outSize ≤ out.length) (hc : size + size / 254 + 1 ≤ outSize) :
    encodeCobs data size out outSize =
      .ok (((bytes.encode (data.take size)).length : Int), bytes.encode (data.take size) ++
        out.drop (bytes.encode (data.take size)).length) :=
  encodeCobs_of_room data out size outSize hs (Nat.le_trans hc ho) hc

/-- A buffer below the capacity formula is refused and left alone. -/
theorem encodeCobs_of_small (data out : List UInt8) (size outSize : Nat)
    (hc : outSize < size + size / 254 + 1) : encodeCobs data size out outSize = .ok (-1, out) := by
  rw [encodeCobs, if_pos hc, Cpp.pure_eq]

section Decoding

variable {data : List UInt8} {size outSize : Nat}

private theorem exists_cons_of_append {pre tail : List UInt8} {n : Nat}
    (ho : n ≤ (pre ++ tail).length) (hw : pre.length < n) : ∃ t ts, tail = t :: ts := by
  rw [List.length_append] at ho
  exact List.exists_cons_of_length_pos (by omega)

private theorem drop_take_succ {read : Nat} {b : UInt8} {rest : List UInt8}
    (hr : (data.take size).drop read = b :: rest) :
    read < size ∧ (data.take size).drop (read + 1) = rest := by
  refine ⟨?_, by rw [← List.drop_drop, hr, List.drop_one, List.tail_cons]⟩
  have hl := congrArg List.length hr
  simp only [List.length_drop, List.length_take, List.length_cons] at hl
  omega

/-- Copying a block that is present and fits appends it to what was written. -/
theorem copyBlock_of_fits (n read : Nat) (pre rest tail : List UInt8)
    (hr : (data.take size).drop read = rest) (ho : outSize ≤ (pre ++ tail).length)
    (hn : n ≤ rest.length) (hw : pre.length + n ≤ outSize) :
    copyBlock data size outSize n ⟨read, pre.length, pre ++ tail⟩ =
      .ok (true, ⟨read + n, pre.length + n, (pre ++ rest.take n) ++ tail.drop n⟩) := by
  induction n generalizing pre rest tail read with
  | zero => simp [copyBlock]
  | succ n ih =>
    obtain ⟨b, rest', rfl⟩ : ∃ b bs, rest = b :: bs := List.exists_cons_of_length_pos (by omega)
    obtain ⟨t, tail', rfl⟩ := exists_cons_of_append ho (by omega)
    obtain ⟨hread, hr'⟩ := drop_take_succ hr
    have hi := ih (read + 1) (pre ++ [b]) rest' tail' hr' (by simpa using ho)
      (by simpa using hn) (by rw [List.length_append, List.length_singleton]; omega)
    rw [List.length_append, List.length_singleton, List.append_assoc, List.singleton_append] at hi
    rw [copyBlock, if_neg (by simp only; omega), if_neg (by simp only; omega)]
    simp only [load_of_drop_take hr, Cpp.ok_bind, store_middle rfl, hi]
    simp [Nat.add_assoc, Nat.add_comm 1]

/-- Copying a block that is cut off or does not fit fails, within both buffers. -/
theorem copyBlock_of_not_fits (hs : size ≤ data.length) (n read : Nat) (pre rest tail : List UInt8)
    (hr : (data.take size).drop read = rest) (ho : outSize ≤ (pre ++ tail).length)
    (hpre : pre.length ≤ outSize) (hn : ¬ (n ≤ rest.length ∧ pre.length + n ≤ outSize)) :
    ∃ s, copyBlock data size outSize n ⟨read, pre.length, pre ++ tail⟩ = .ok (false, s) := by
  induction n generalizing pre rest tail read with
  | zero => exact absurd ⟨Nat.zero_le _, hpre⟩ hn
  | succ n ih =>
    cases rest with
    | nil =>
      have hread : read ≥ size := by
        have := List.drop_eq_nil_iff.mp hr
        rw [List.length_take] at this
        omega
      exact ⟨_, by rw [copyBlock, if_pos hread, Cpp.pure_eq]⟩
    | cons b rest' =>
      obtain ⟨hread, hr'⟩ := drop_take_succ hr
      rw [copyBlock, if_neg (by simp only; omega)]
      by_cases hw : pre.length ≥ outSize
      · exact ⟨_, by rw [if_pos hw, Cpp.pure_eq]⟩
      · obtain ⟨t, tail', rfl⟩ := exists_cons_of_append ho (by omega)
        obtain ⟨s, hi⟩ := ih (read + 1) (pre ++ [b]) rest' tail' hr' (by simpa using ho)
          (by rw [List.length_append, List.length_singleton]; omega)
          (by
            rw [List.length_append, List.length_singleton]
            rw [List.length_cons] at hn
            omega)
        rw [List.length_append, List.length_singleton, List.append_assoc,
          List.singleton_append] at hi
        refine ⟨s, ?_⟩
        rw [if_neg hw]
        simp only [load_of_drop_take hr, Cpp.ok_bind, store_middle rfl, hi]

/-- What a decoder with room for `outSize` bytes makes of data `d`, behind `pre` written
already: it appends the data, or it fails. -/
def Unstuffs (outSize : Nat) (pre tail : List UInt8) (d : Option (List UInt8))
    (r : Cpp (Int × List UInt8)) : Prop :=
  match d with
  | some d =>
    if pre.length + d.length ≤ outSize then
      r = .ok (((pre ++ d).length : Int), (pre ++ d) ++ tail.drop d.length)
    else ∃ o, r = .ok (-1, o)
  | none => ∃ o, r = .ok (-1, o)

-- the output overflows before the bytes `b` in front of the remaining data are written
private theorem unstuffs_fail_map (pre tail : List UInt8) {b : List UInt8}
    (d : Option (List UInt8)) (o : List UInt8) (hb : outSize < pre.length + b.length) :
    Unstuffs outSize pre tail (d.map (b ++ ·)) (.ok (-1, o)) := by
  cases d with
  | none => exact ⟨o, rfl⟩
  | some x =>
    rw [Option.map_some, Unstuffs, if_neg (by rw [List.length_append]; omega)]
    exact ⟨o, rfl⟩

-- data decoded behind `pre ++ b` is data decoded behind `pre`, with `b` in front of it
private theorem unstuffs_append {pre b tail : List UInt8} {d : Option (List UInt8)}
    {r : Cpp (Int × List UInt8)} (h : Unstuffs outSize (pre ++ b) (tail.drop b.length) d r) :
    Unstuffs outSize pre tail (d.map (b ++ ·)) r := by
  cases d with
  | none => exact h
  | some d =>
    simp only [Unstuffs, Option.map_some, List.length_append, List.append_assoc, List.drop_drop,
      Nat.add_assoc] at h ⊢
    exact h

/-- The decoding loop fails at a zero code byte, and at a block that is cut off or does not fit. -/
private theorem decodeCobsLoop_fails (hs : size ≤ data.length) (fuel : Nat) {c : UInt8} {read : Nat}
    {pre rest tail : List UInt8} (hr : (data.take size).drop read = c :: rest)
    (ho : outSize ≤ (pre ++ tail).length) (hpre : pre.length ≤ outSize)
    (h : c = 0 ∨ ¬ (c.toNat - 1 ≤ rest.length ∧ pre.length + (c.toNat - 1) ≤ outSize)) :
    ∃ o, decodeCobsLoop data size outSize (fuel + 1) ⟨read, pre.length, pre ++ tail⟩ =
      .ok (-1, o) := by
  obtain ⟨hread, hr'⟩ := drop_take_succ hr
  rw [decodeCobsLoop, if_neg (by simp only; omega)]
  simp only [load_of_drop_take hr, Cpp.ok_bind]
  by_cases hc : c = 0
  · exact ⟨_, by rw [if_pos hc, Cpp.pure_eq]⟩
  · obtain ⟨s, hcopy⟩ := copyBlock_of_not_fits hs (c.toNat - 1) (read + 1) pre rest tail hr' ho
      hpre (h.resolve_left hc)
    refine ⟨s.out, ?_⟩
    rw [if_neg hc, hcopy]
    rfl

/-- The decoding loop writes a block that fits, and the zero behind it if that fits too. -/
private theorem decodeCobsLoop_block (hs : size ≤ data.length) (fuel : Nat) {c : UInt8}
    {read n : Nat} {pre rest tail b : List UInt8} (hr : (data.take size).drop read = c :: rest)
    (ho : outSize ≤ (pre ++ tail).length) (hc : c ≠ 0) (hn : n = c.toNat - 1)
    (hle : n ≤ rest.length) (hfit : pre.length + n ≤ outSize)
    (hb : b = rest.take n ++ if c ≠ 0xFF ∧ rest.drop n ≠ [] then [0] else []) :
    if pre.length + b.length ≤ outSize then
      decodeCobsLoop data size outSize (fuel + 1) ⟨read, pre.length, pre ++ tail⟩ =
        decodeCobsLoop data size outSize fuel
          ⟨read + 1 + n, (pre ++ b).length, (pre ++ b) ++ tail.drop b.length⟩
    else ∃ o, decodeCobsLoop data size outSize (fuel + 1) ⟨read, pre.length, pre ++ tail⟩ =
      .ok (-1, o) := by
  obtain ⟨hread, hr'⟩ := drop_take_succ hr
  have hlen : (rest.take n).length = n := by rw [List.length_take]; omega
  have hpn : (pre ++ rest.take n).length = pre.length + n := by rw [List.length_append, hlen]
  have hmore : read + 1 + n < size ↔ rest.drop n ≠ [] := by
    have hin := congrArg List.length hr'
    simp only [List.length_drop, List.length_take] at hin
    rw [ne_eq, List.drop_eq_nil_iff]
    omega
  have hstep : decodeCobsLoop data size outSize (fuel + 1) ⟨read, pre.length, pre ++ tail⟩ =
      if c ≠ 0xFF ∧ rest.drop n ≠ [] then
        if pre.length + n ≥ outSize then .ok (-1, pre ++ rest.take n ++ tail.drop n)
        else do
          let out ← store (pre ++ rest.take n ++ tail.drop n) (pre.length + n) 0
          decodeCobsLoop data size outSize fuel ⟨read + 1 + n, pre.length + n + 1, out⟩
      else decodeCobsLoop data size outSize fuel
        ⟨read + 1 + n, pre.length + n, pre ++ rest.take n ++ tail.drop n⟩ := by
    rw [decodeCobsLoop, if_neg (by simp only; omega)]
    simp only [load_of_drop_take hr, Cpp.ok_bind]
    rw [if_neg hc, ← hn, copyBlock_of_fits n (read + 1) pre rest tail hr' ho hle hfit]
    simp only [Cpp.ok_bind, Bool.not_true, Bool.false_eq_true, if_false, hmore]
    rfl
  rw [hstep]
  by_cases hz : c ≠ 0xFF ∧ rest.drop n ≠ []
  · rw [if_pos hz] at hb
    have hbn : b.length = n + 1 := by rw [hb, List.length_append, hlen, List.length_singleton]
    rw [if_pos hz]
    by_cases hw : pre.length + n ≥ outSize
    · rw [if_neg (by omega), if_pos hw]
      exact ⟨_, rfl⟩
    · have hroom : outSize ≤ ((pre ++ rest.take n) ++ tail.drop n).length := by
        rw [List.length_append] at ho
        rw [List.length_append, hpn, List.length_drop]
        omega
      obtain ⟨t, ts, htail⟩ := exists_cons_of_append hroom (by rw [hpn]; omega)
      rw [if_pos (by omega), if_neg hw, htail, store_middle hpn, Cpp.ok_bind]
      rw [hbn, ← List.drop_drop, htail, List.drop_one, List.tail_cons, List.length_append, hbn, hb]
      simp only [List.append_assoc, List.singleton_append, Nat.add_assoc]
  · rw [if_neg hz, List.append_nil] at hb
    subst hb
    rw [hlen, if_pos hfit, if_neg hz, hpn]

/-- The decoding loop yields the data of the remaining input behind what it has written. -/
theorem decodeCobsLoop_unstuffs (hs : size ≤ data.length) (fuel read : Nat)
    (pre rest tail : List UInt8) (hr : (data.take size).drop read = rest)
    (ho : outSize ≤ (pre ++ tail).length) (hpre : pre.length ≤ outSize) (hf : rest.length ≤ fuel) :
    Unstuffs outSize pre tail (bytes.decode rest)
      (decodeCobsLoop data size outSize fuel ⟨read, pre.length, pre ++ tail⟩) := by
  induction fuel generalizing read pre rest tail with
  | zero =>
    have hnil : rest = [] := List.eq_nil_of_length_eq_zero (by omega)
    subst hnil
    rw [Alphabet.decode_nil, Unstuffs, if_pos (by simpa using hpre)]
    simp [decodeCobsLoop]
  | succ fuel ih =>
    cases rest with
    | nil =>
      have hread : read ≥ size := by
        have := List.drop_eq_nil_iff.mp hr
        rw [List.length_take] at this
        omega
      rw [Alphabet.decode_nil, Unstuffs, if_pos (by simpa using hpre), decodeCobsLoop,
        if_pos hread]
      simp
    | cons c rest =>
      rw [List.length_cons] at hf
      by_cases hcut : c = 0 ∨ rest.length < c.toNat - 1
      · obtain ⟨o, hfails⟩ := decodeCobsLoop_fails hs fuel hr ho hpre
          (hcut.imp_right fun hshort hfits ↦ absurd hfits.1 (Nat.not_le_of_lt hshort))
        rw [hfails, decode_cut hcut]
        exact ⟨o, rfl⟩
      rw [not_or, Nat.not_lt] at hcut
      obtain ⟨n, hn⟩ : ∃ n, n = c.toNat - 1 := ⟨_, rfl⟩
      rw [← hn] at hcut
      obtain ⟨b, hb⟩ : ∃ b, b = rest.take n ++ if c ≠ 0xFF ∧ rest.drop n ≠ [] then [0] else [] :=
        ⟨_, rfl⟩
      have hnb : n ≤ b.length := by
        rw [hb, List.length_append, List.length_take]
        omega
      rw [decode_block hcut.1 hn hcut.2, ← hb]
      by_cases hfit : pre.length + n ≤ outSize
      · have hblock := decodeCobsLoop_block hs fuel hr ho hcut.1 hn hcut.2 hfit hb
        by_cases hroom : pre.length + b.length ≤ outSize
        · rw [if_pos hroom] at hblock
          rw [hblock]
          refine unstuffs_append (ih (read + 1 + n) (pre ++ b) (rest.drop n) (tail.drop b.length) ?_
            ?_ ?_ ?_)
          · rw [← List.drop_drop, (drop_take_succ hr).2]
          · rw [List.length_append] at ho
            rw [List.length_append, List.length_append, List.length_drop]
            omega
          · rw [List.length_append]
            exact hroom
          · rw [List.length_drop]
            omega
        · rw [if_neg hroom] at hblock
          obtain ⟨o, hfails⟩ := hblock
          rw [hfails]
          exact unstuffs_fail_map pre tail _ o (by omega)
      · obtain ⟨o, hfails⟩ := decodeCobsLoop_fails hs fuel hr ho hpre
          (Or.inr fun hfits ↦ hfit (hn ▸ hfits.2))
        rw [hfails]
        exact unstuffs_fail_map pre tail _ o (by omega)

end Decoding

/-- The decoder yields the data of its input if there is room for it, and `-1` otherwise;
it accesses neither buffer out of bounds. -/
theorem decodeCobs_eq (data out : List UInt8) (size outSize : Nat) (hs : size ≤ data.length)
    (ho : outSize ≤ out.length) :
    Unstuffs outSize [] out (bytes.decode (data.take size)) (decodeCobs data size out outSize) :=
  decodeCobsLoop_unstuffs hs size 0 [] (data.take size) out rfl ho (Nat.zero_le _)
    (by rw [List.length_take]; omega)

end BlueROV2.Firmware
