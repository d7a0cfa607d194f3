import BlueROV2.Link.Codecs
import BlueROV2.Wire.Capacity

/-!
# Stuffing across the devices

Library `Link`. The two files `cobs.cpp`: what either device stuffs both unstuff again, and the
formula by which the buffers are sized is enough at every step of both encoders.
-/

namespace BlueROV2.Link

open BlueROV2.Base BlueROV2.Base.Cobs BlueROV2.Wire

/-- Byte strings of every length survive the trip: either encoder yields one string without a
delimiter, from which both decoders get the bytes back, the Teensy's if its buffer has room. -/
theorem stuffing_round_trip (d : List UInt8) : ∃ f, Driver.encodeCobs d = .ok f ∧
    (∀ (extra out : List UInt8) (outSize : Nat), capacity d.length ≤ outSize →
      outSize ≤ out.length →
        Firmware.encodeCobs (d ++ extra) d.length out outSize = .ok (written f out)) ∧
    f ≠ [] ∧ (0 : UInt8) ∉ f ∧ Driver.decodeCobs f = .ok d ∧
    (∀ (stale out : List UInt8) (outSize : Nat), d.length ≤ outSize → outSize ≤ out.length →
      Firmware.decodeCobs (f ++ stale) f.length out outSize = .ok (written d out)) ∧
    (∀ (stale out : List UInt8) (outSize : Nat), outSize < d.length → outSize ≤ out.length →
      ∃ o, Firmware.decodeCobs (f ++ stale) f.length out outSize = .ok (-1, o)) := by
  have hdec := Alphabet.decode_encode (A := bytes) d
  have hteensy : ∀ (stale out : List UInt8) (outSize : Nat), outSize ≤ out.length →
      Firmware.Unstuffs outSize [] out (some d)
        (Firmware.decodeCobs (bytes.encode d ++ stale) (bytes.encode d).length out outSize) := by
    intro stale out outSize ho
    have h := Firmware.decodeCobs_eq (bytes.encode d ++ stale) out (bytes.encode d).length outSize
      (by rw [List.length_append]; exact Nat.le_add_right _ _) ho
    rwa [List.take_left, hdec] at h
  refine ⟨bytes.encode d, Driver.encodeCobs_eq d, ?_, ?_, ?_, ?_, ?_, ?_⟩
  · intro extra out outSize hc ho
    have h := Firmware.encodeCobs_eq (d ++ extra) out d.length outSize
      (by rw [List.length_append]; exact Nat.le_add_right _ _) ho hc
    rwa [List.take_left] at h
  · intro hnil
    have hlen := Alphabet.length_encode (A := bytes) d
    rw [hnil, List.length_nil] at hlen
    omega
  · exact (plain_bytes _).mp (Alphabet.plain_encode d)
  · have h := Driver.decodeCobs_eq (bytes.encode d)
    rw [hdec] at h
    exact h
  · intro stale out outSize hfit ho
    have h := hteensy stale out outSize ho
    rw [Firmware.Unstuffs, List.length_nil, if_pos (by omega)] at h
    exact h
  · intro stale out outSize hshort ho
    have h := hteensy stale out outSize ho
    rw [Firmware.Unstuffs, List.length_nil, if_neg (by omega)] at h
    exact h

/-- Zeros at both ends, in a buffer of just their size and in one that is too small. -/
theorem stuffing_round_trip_zeros : ∃ f, Driver.encodeCobs [0, 7, 0] = .ok f ∧
    Firmware.encodeCobs [0, 7, 0, 9] 3 [1, 2, 3, 4, 5] 4 = .ok (written f [1, 2, 3, 4, 5]) ∧
    Firmware.decodeCobs (f ++ [6]) f.length [1, 2, 3] 3 = .ok (written [0, 7, 0] [1, 2, 3]) ∧
    ∃ o, Firmware.decodeCobs (f ++ []) f.length [1, 2, 3] 2 = .ok (-1, o) := by
  rcases stuffing_round_trip [0, 7, 0] with ⟨f, hpi, henc, -, -, -, hfits, hshort⟩
  refine ⟨f, hpi, henc [9] [1, 2, 3, 4, 5] 4 ?_ ?_, hfits [6] [1, 2, 3] 3 ?_ ?_,
    hshort [] [1, 2, 3] 2 ?_ ?_⟩
  · decide
  · decide
  · decide
  · decide
  · decide
  · decide

/-! ### Room in the buffers -/

/-- The two devices. -/
inductive Device where
  | teensy
  | pi
  deriving DecidableEq, Repr

/-- The loop body of a device's `encode_cobs`. -/
def Device.encodeCobsByte : Device → Stuffer → UInt8 → Cpp Stuffer
  | .teensy => Firmware.encodeCobsByte
  | .pi => Driver.encodeCobsByte

/-- The loop body is the stuffing step on both devices. -/
theorem encodeCobsByte_eq (device : Device) : device.encodeCobsByte = Stuffer.put := by
  cases device with
  | teensy => rfl
  | pi => rfl

/-- The loop variables with which both encoders start on a buffer. -/
def startOf (out : List UInt8) : Stuffer := ⟨out, 1, 0, 1⟩

/-- An iteration stays below an index: it writes nothing but the bytes it says, which lie below,
as does the byte it reserves, and its code byte does not wrap. -/
structure StaysBelow (cap : Nat) (s : Stuffer) (byte : UInt8) (s' : Stuffer) : Prop where
  touched : ∀ i ∈ s.written byte ++ s.reserved byte, i < cap
  frame : ∀ i ∉ s.written byte, s'.out[i]? = s.out[i]?
  length : s'.out.length = s.out.length
  code : 1 ≤ s.code.toNat ∧ (s.code + 1).toNat = s.code.toNat + 1

/-- Every iteration of a loop over data stays below the capacity. -/
theorem steps_stay_below (device : Device) {out pre rest : List UInt8} {byte : UInt8}
    (ho : capacity (pre ++ byte :: rest).length ≤ out.length) :
    ∃ s s', pre.foldlM device.encodeCobsByte (startOf out) = .ok s ∧
      device.encodeCobsByte s byte = .ok s' ∧
      StaysBelow (capacity (pre ++ byte :: rest).length) s byte s' := by
  have hlen : (pre ++ byte :: rest).length = pre.length + (rest.length + 1) := by
    rw [List.length_append, List.length_cons]
  have hpre : 0 + pre.length ≤ (pre ++ byte :: rest).length := by omega
  rcases (Stuffer.sized_start out).foldlM hpre ho with ⟨s, full, hfold, hout, hsized⟩
  rw [Nat.zero_add] at hsized
  have hless : pre.length < (pre ++ byte :: rest).length := by omega
  rcases hsized.put hless (by rw [hout]; exact ho) byte with ⟨s', hput, hlen', -, hframe⟩
  refine ⟨s, s', ?_, ?_, hsized.touched_lt hless byte, hframe, hlen', hsized.code_pos,
    hsized.toNat_code_succ⟩
  · rw [encodeCobsByte_eq, ← Stuffer.foldlM_counting Stuffer.put pre (startOf out) 0, startOf,
      hfold]
    rfl
  · rw [encodeCobsByte_eq]
    exact hput

/-- The loop over all data closes as many full blocks as the frame has, and ends where the frame
does. -/
theorem loop_counts (device : Device) {data out : List UInt8}
    (ho : capacity data.length ≤ out.length) :
    ∃ s, data.foldlM (Stuffer.counting device.encodeCobsByte) (startOf out, 0) =
        .ok (s, bytes.fullBlocks (bytes.splitFrom [] data)) ∧
      s.codeIndex < capacity data.length ∧
      s.write = data.length + 1 + bytes.fullBlocks (bytes.splitFrom [] data) ∧
      s.out.length = out.length := by
  have hall : 0 + data.length ≤ data.length := Nat.le_of_eq (Nat.zero_add _)
  rcases (Stuffer.sized_start out).foldlM hall ho with ⟨s, full, hfold, hout, hsized⟩
  rw [Nat.zero_add] at hsized
  have hindex := hsized.codeIndex_lt (Nat.le_refl _)
  -- the same loop, followed block by block, ends at the size of the frame
  have hrun : data.foldlM Stuffer.put (startOf out) = .ok s := by
    rw [← Stuffer.foldlM_counting Stuffer.put data (startOf out) 0, startOf, hfold]
    rfl
  have hteensy := Firmware.encodeCobs_of_room data out data.length (capacity data.length)
    (Nat.le_refl _) ho (Nat.le_refl _)
  change s.out.length = out.length at hout
  have hlt : s.codeIndex < s.out.length := by omega
  have hroom : ¬ capacity data.length < data.length + data.length / 254 + 1 := Nat.lt_irrefl _
  rw [Firmware.encodeCobs, if_neg hroom, forData_eq _ _ _ _ (Nat.le_refl _),
    Firmware.encodeCobsByte_eq, List.take_length] at hteensy
  change (data.foldlM Stuffer.put (startOf out) >>= _) = _ at hteensy
  rw [hrun, Cpp.ok_bind, store, if_pos hlt, Cpp.ok_bind] at hteensy
  have hwrite : s.write = (bytes.encode data).length :=
    Int.ofNat_inj.mp (Prod.mk.inj (Except.ok.inj hteensy)).1
  rw [Alphabet.length_encode] at hwrite
  have hfull : full = bytes.fullBlocks (bytes.splitFrom [] data) := by
    have hw := hsized.write
    omega
  rw [← hfull] at hwrite ⊢
  rw [encodeCobsByte_eq]
  exact ⟨s, hfold, hindex, hwrite, hout⟩

/-- The capacity formula is enough: on either device every index that is written or reserved is
below it at the time, the code byte does not wrap, and the size returned is the data, one byte,
and one for every full block closed, of which there are at most as many as fit in the data. -/
theorem capacity_suffices (data : List UInt8) : ∃ full, full ≤ data.length / 254 ∧
    (∀ (device : Device) (out : List UInt8), capacity data.length ≤ out.length →
      (∀ pre byte rest, data = pre ++ byte :: rest → ∃ s s',
        pre.foldlM device.encodeCobsByte (startOf out) = .ok s ∧
        device.encodeCobsByte s byte = .ok s' ∧ StaysBelow (capacity data.length) s byte s') ∧
      ∃ s, data.foldlM (Stuffer.counting device.encodeCobsByte) (startOf out, 0) = .ok (s, full) ∧
        s.codeIndex < capacity data.length ∧ s.write = data.length + 1 + full ∧
        s.out.length = out.length) ∧
    (∃ f, Driver.encodeCobs data = .ok f ∧ f.length = data.length + 1 + full) ∧
    (∀ (out : List UInt8) (outSize : Nat), capacity data.length ≤ outSize →
      capacity data.length ≤ out.length → ∃ f, f.length = data.length + 1 + full ∧
        Firmware.encodeCobs data data.length out outSize = .ok (written f out)) := by
  have hlen := Alphabet.length_encode (A := bytes) data
  have hmul := Alphabet.fullBlocks_mul_le (A := bytes) (bytes.splitFrom [] data)
  rw [Alphabet.join_splitFrom [] data bytes.limit_pos, List.nil_append] at hmul
  refine ⟨bytes.fullBlocks (bytes.splitFrom [] data),
    (Nat.le_div_iff_mul_le (by decide)).mpr hmul, ?_, ?_, ?_⟩
  · intro device out ho
    refine ⟨?_, loop_counts device ho⟩
    rintro pre byte rest rfl
    exact steps_stay_below device ho
  · exact ⟨_, Driver.encodeCobs_eq data, hlen⟩
  · intro out outSize hc ho
    have h := Firmware.encodeCobs_of_room data out data.length outSize (Nat.le_refl _) ho hc
    rw [List.take_length] at h
    exact ⟨_, hlen, h⟩

/-- A buffer of just the capacity is enough, also when it is said to be larger. -/
theorem capacity_suffices_exact : ∃ f, f.length = 4 ∧
    Firmware.encodeCobs [7, 0, 9] 3 [1, 2, 3, 4] 9 = .ok (written f [1, 2, 3, 4]) := by
  rcases capacity_suffices [7, 0, 9] with ⟨full, hfull, -, -, hteensy⟩
  rcases hteensy [1, 2, 3, 4] 9 (by decide) (by decide) with ⟨f, hlen, henc⟩
  refine ⟨f, ?_, henc⟩
  have hzero : full = 0 := Nat.le_zero.mp hfull
  rw [hlen, hzero]
  rfl

end BlueROV2.Link
