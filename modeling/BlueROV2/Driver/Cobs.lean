import BlueROV2.Wire.Stuffing

/-!
# COBS on the Pi

Library `Driver`. `modules/autonomy_pi/ros/autonomy_teensy/src/cobs.cpp`. Vectors are lists;
their unchecked `operator[]` is a checked access here, and `std::invalid_argument` is thrown
with the text of the source.
-/

namespace BlueROV2.Driver

open BlueROV2.Base BlueROV2.Base.Cobs BlueROV2.Wire

/-- The inner loop of `decode_cobs` over `n` data bytes; `cobs.cpp:20–25`. -/
def copyData (packet : List UInt8) : Nat → Nat → List UInt8 → Cpp (Nat × List UInt8)
  | 0, i, decodedData => pure (i, decodedData)
  | n + 1, i, decodedData =>
    if i ≥ packet.length then
      .error (.invalidArgument "Code byte claims more data bytes than are present")
    else do
      let byte ← load packet i
      copyData packet n (i + 1) (decodedData ++ [byte])

/-- The outer loop of `decode_cobs`; every iteration reads a code byte, so `packet.length`
iterations suffice; `cobs.cpp:13–30`. -/
def decodeCobsLoop (packet : List UInt8) : Nat → Nat → List UInt8 → Cpp (List UInt8)
  | 0, _, decodedData => pure decodedData
  | fuel + 1, i, decodedData =>
    if i ≥ packet.length then pure decodedData
    else do
      let byte ← load packet i
      if byte = 0x00 then .error (.invalidArgument "Encountered a 0x00 byte inside the frame")
      else do
        let (i, decodedData) ← copyData packet (byte.toNat - 1) (i + 1) decodedData
        if byte ≠ 0xFF ∧ i < packet.length then
          decodeCobsLoop packet fuel i (decodedData ++ [0x00])
        else decodeCobsLoop packet fuel i decodedData

/-- `decode_cobs`; `cobs.cpp:8–33`. -/
def decodeCobs (packet : List UInt8) : Cpp (List UInt8) :=
  decodeCobsLoop packet packet.length 0 []

/-- The loop body of `encode_cobs`; `cobs.cpp:43–60`. -/
def encodeCobsByte (s : Stuffer) (byte : UInt8) : Cpp Stuffer :=
  if byte = 0x00 then do
    let out ← store s.out s.codeIndex s.code
    pure { out, write := s.write + 1, codeIndex := s.write, code := 1 }
  else do
    let out ← store s.out s.write byte
    -- a block holds at most 254 data bytes
    if s.code + 1 = 0xFF then do
      let out ← store out s.codeIndex (s.code + 1)
      pure { out, write := s.write + 2, codeIndex := s.write + 1, code := 1 }
    else pure { s with out, write := s.write + 1, code := s.code + 1 }

/-- `encode_cobs`: fill a vector of the capacity formula, then cut it; `cobs.cpp:35–66`. -/
def encodeCobs (data : List UInt8) : Cpp (List UInt8) := do
  let out := List.replicate (data.length + data.length / 254 + 1) 0x00
  let s ← data.foldlM encodeCobsByte { out, write := 1, codeIndex := 0, code := 1 }
  let out ← store s.out s.codeIndex s.code
  pure (resize out s.write 0x00)

/-- The loop body is the stuffing step. -/
theorem encodeCobsByte_eq : encodeCobsByte = Stuffer.put := rfl

/-- The encoder returns the frame of its input; the vector is neither overrun nor grown. -/
theorem encodeCobs_eq (data : List UInt8) : encodeCobs data = .ok (bytes.encode data) := by
  have hle : (bytes.encode data).length ≤ data.length + data.length / 254 + 1 :=
    Alphabet.length_encode_le (A := bytes) data
  have hrun := Stuffer.run_openAt [] [] 0 (List.replicate (data.length + data.length / 254) 0) data
    (by decide) (by
      simp only [List.length_nil, List.length_replicate]
      rw [Alphabet.encode] at hle
      omega)
  have hstart : Stuffer.openAt [] [] 0 (List.replicate (data.length + data.length / 254) 0) =
      ⟨List.replicate (data.length + data.length / 254 + 1) 0, 1, 0, 1⟩ := by
    rw [List.replicate_succ]
    rfl
  rw [hstart] at hrun
  rw [encodeCobs, encodeCobsByte_eq]
  obtain ⟨s, hfold, hfin⟩ := Cpp.bind_eq_ok.mp hrun
  obtain ⟨o, hst, hres⟩ := Cpp.bind_eq_ok.mp hfin
  obtain ⟨hw, hb⟩ := Prod.mk.inj (Except.ok.inj hres)
  rw [hfold, Cpp.ok_bind, hst, Cpp.ok_bind, Cpp.pure_eq, hw, hb]
  simp [resize, Alphabet.encode]

private theorem drop_succ_of_cons {packet : List UInt8} {i : Nat} {b : UInt8} {rest : List UInt8}
    (hr : packet.drop i = b :: rest) : i < packet.length ∧ packet.drop (i + 1) = rest := by
  refine ⟨?_, by rw [← List.drop_drop, hr, List.drop_one, List.tail_cons]⟩
  have hl := congrArg List.length hr
  simp only [List.length_drop, List.length_cons] at hl
  omega

private theorem load_of_drop {packet : List UInt8} {i : Nat} {b : UInt8} {rest : List UInt8}
    (hr : packet.drop i = b :: rest) : load packet i = .ok b :=
  load_of_drop_take (n := packet.length) (by rwa [List.take_length])

/-- Copying a block that is present appends it. -/
theorem copyData_of_le (packet : List UInt8) (n i : Nat) (pre rest : List UInt8)
    (hr : packet.drop i = rest) (hn : n ≤ rest.length) :
    copyData packet n i pre = .ok (i + n, pre ++ rest.take n) := by
  induction n generalizing i pre rest with
  | zero => simp [copyData]
  | succ n ih =>
    obtain ⟨b, rest', rfl⟩ : ∃ b bs, rest = b :: bs := List.exists_cons_of_length_pos (by omega)
    obtain ⟨hi, hr'⟩ := drop_succ_of_cons hr
    rw [copyData, if_neg (by omega), load_of_drop hr, Cpp.ok_bind,
      ih (i + 1) (pre ++ [b]) rest' hr' (by simpa using hn)]
    simp [Nat.add_assoc, Nat.add_comm 1]

/-- Copying a block that is cut off throws. -/
theorem copyData_of_lt (packet : List UInt8) (n i : Nat) (pre rest : List UInt8)
    (hr : packet.drop i = rest) (hn : rest.length < n) :
    ∃ what, copyData packet n i pre = .error (.invalidArgument what) := by
  induction n generalizing i pre rest with
  | zero => omega
  | succ n ih =>
    cases rest with
    | nil => exact ⟨_, by rw [copyData, if_pos (List.drop_eq_nil_iff.mp hr)]⟩
    | cons b rest =>
      obtain ⟨hi, hr'⟩ := drop_succ_of_cons hr
      obtain ⟨what, h⟩ := ih (i + 1) (pre ++ [b]) rest hr' (by simpa using hn)
      exact ⟨what, by rw [copyData, if_neg (by omega), load_of_drop hr, Cpp.ok_bind, h]⟩

private theorem returnsOrThrows_append {pre b : List UInt8} {d : Option (List UInt8)}
    {r : Cpp (List UInt8)} (h : Cpp.ReturnsOrThrows (d.map ((pre ++ b) ++ ·)) r) :
    Cpp.ReturnsOrThrows ((d.map (b ++ ·)).map (pre ++ ·)) r := by
  cases d with
  | none => exact h
  | some d => simpa using h

/-- The decoding loop returns the data of the remaining input behind what it has collected. -/
theorem decodeCobsLoop_eq (packet : List UInt8) (fuel i : Nat) (pre rest : List UInt8)
    (hr : packet.drop i = rest) (hf : rest.length ≤ fuel) :
    Cpp.ReturnsOrThrows ((bytes.decode rest).map (pre ++ ·))
      (decodeCobsLoop packet fuel i pre) := by
  induction fuel generalizing i pre rest with
  | zero =>
    have hnil : rest = [] := List.eq_nil_of_length_eq_zero (by omega)
    simp [hnil, Alphabet.decode_nil, Cpp.ReturnsOrThrows, decodeCobsLoop]
  | succ fuel ih =>
    cases rest with
    | nil =>
      rw [decodeCobsLoop, if_pos (List.drop_eq_nil_iff.mp hr)]
      simp [Alphabet.decode_nil, Cpp.ReturnsOrThrows]
    | cons c rest =>
      obtain ⟨hi, hr'⟩ := drop_succ_of_cons hr
      rw [List.length_cons] at hf
      rw [decodeCobsLoop, if_neg (by omega), load_of_drop hr, Cpp.ok_bind]
      by_cases hc : c = 0
      · rw [if_pos hc, decode_cut (Or.inl hc)]
        exact ⟨_, rfl⟩
      rw [if_neg hc]
      by_cases hshort : rest.length < c.toNat - 1
      · obtain ⟨what, hcopy⟩ := copyData_of_lt packet (c.toNat - 1) (i + 1) pre rest hr' hshort
        rw [hcopy, decode_cut (Or.inr hshort)]
        exact ⟨what, rfl⟩
      obtain ⟨n, hn⟩ : ∃ n, n = c.toNat - 1 := ⟨_, rfl⟩
      rw [decode_block hc hn (by omega), ← hn,
        copyData_of_le packet n (i + 1) pre rest hr' (by omega), Cpp.ok_bind]
      have hr'' : packet.drop (i + 1 + n) = rest.drop n := by rw [← List.drop_drop, hr']
      have hmore : i + 1 + n < packet.length ↔ rest.drop n ≠ [] := by
        rw [← hr'', ne_eq, List.drop_eq_nil_iff]
        omega
      have hf' : (rest.drop n).length ≤ fuel := by rw [List.length_drop]; omega
      apply returnsOrThrows_append
      simp only [hmore]
      split
      · rw [← List.append_assoc]
        exact ih (i + 1 + n) _ _ hr'' hf'
      · rw [List.append_nil]
        exact ih (i + 1 + n) _ _ hr'' hf'

/-- The decoder returns the data of its input and throws when there is none. -/
theorem decodeCobs_eq (packet : List UInt8) :
    Cpp.ReturnsOrThrows (bytes.decode packet) (decodeCobs packet) := by
  have h := decodeCobsLoop_eq packet packet.length 0 [] packet rfl (Nat.le_refl _)
  cases hd : bytes.decode packet with
  | none => rw [hd] at h; exact h
  | some d => rw [hd] at h; exact h

end BlueROV2.Driver
