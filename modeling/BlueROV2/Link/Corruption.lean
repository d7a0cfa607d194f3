import BlueROV2.Base.ShiftRegister
import BlueROV2.Link.Codecs

/-!
# What the check byte finds

Library `Link`. The check byte of both `crc.cpp` is the remainder of the bytes before it, their
highest bits first, modulo `x⁸ + x² + x + 1`. The polynomial has a constant term and an even
number of terms, so an error of less than nine places leaves a remainder, and so does one of an
odd number of bits.
-/

namespace BlueROV2.Link

open BlueROV2.Base BlueROV2.Base.ShiftRegister BlueROV2.Base.Cobs BlueROV2.Wire
open Driver (calculateCrc)

/-- The bits of a byte, the highest first. -/
def byteBits (x : UInt8) : List Bool := (List.range 8).map x.toBitVec.getMsbD

/-- The bits of a byte string in the order in which the check takes them. -/
def bits (d : List UInt8) : List Bool := d.flatMap byteBits

/-- A byte string with the bits of an error flipped. -/
def corrupt (d error : List UInt8) : List UInt8 := List.zipWith (· ^^^ ·) d error

/-- All flipped bits lie within eight consecutive ones. -/
def Burst (error : List UInt8) : Prop :=
  ∃ k, ∀ i, (bits error)[i]? = some true → k ≤ i ∧ i < k + 8

/-- An odd number of bits is flipped. -/
def OddlyMany (error : List UInt8) : Prop := (bits error).count true % 2 = 1

/-- The last byte is not the check byte of the bytes before it, on neither device. -/
def FailsCheck (d : List UInt8) : Prop :=
  ∃ body c, d = body ++ [c] ∧ c ≠ calculateCrc body ∧
    Firmware.calculateCrc d body.length = .ok (calculateCrc body)

/-- A frame, in front of whatever else its buffer holds, is unstuffed to the given bytes by the
Pi, or by the Teensy. -/
def Unstuffed (f stale d : List UInt8) : Prop :=
  Driver.decodeCobs f = .ok d ∨
    ∃ pad, Firmware.decodeCobs (f ++ stale) f.length
      (List.replicate Firmware.maxFrameSize 0) Firmware.maxFrameSize = .ok (d.length, d ++ pad)

/-! ### The check byte as a remainder -/

/-- The polynomial, without its leading term. -/
def poly : BitVec 8 := 0x07#8

theorem toBitVec_crcBit (c : UInt8) : (Firmware.crcBit c).toBitVec = shift poly c.toBitVec := by
  have hall : ∀ v : BitVec 8, (Firmware.crcBit ⟨v⟩).toBitVec = shift poly v := by decide
  exact hall c.toBitVec

theorem toBitVec_crcByte (c x : UInt8) : (Firmware.crcByte c x).toBitVec =
    Nat.repeat (shift poly) 8 (c.toBitVec ^^^ x.toBitVec) := by
  have hrepeat : ∀ n (v : UInt8), (Nat.repeat Firmware.crcBit n v).toBitVec =
      Nat.repeat (shift poly) n v.toBitVec := by
    intro n v
    induction n with
    | zero => rfl
    | succ n ih => rw [Nat.repeat, toBitVec_crcBit, ih, Nat.repeat]
  rw [Firmware.crcByte, hrepeat, UInt8.toBitVec_xor]

/-- A byte is what its bits load into a register. -/
theorem load_byteBits (x : UInt8) : (load (byteBits x) : BitVec 8) = x.toBitVec := by
  apply BitVec.eq_of_getMsbD_eq
  intro i hi
  rw [getMsbD_load _ hi, byteBits, List.getD_eq_getElem?_getD, List.getElem?_map,
    List.getElem?_range hi]
  rfl

/-- The check byte is the remainder of the bits before it. -/
theorem toBitVec_calculateCrc (d : List UInt8) :
    (calculateCrc d).toBitVec = remainder poly (bits d) := by
  have hfold : ∀ c : UInt8, (d.foldl Firmware.crcByte c).toBitVec =
      (bits d).foldl (feed poly) c.toBitVec := by
    induction d with
    | nil => exact fun c ↦ rfl
    | cons x d ih =>
      intro c
      have hbyte := foldl_feed poly (byteBits x) c.toBitVec (Nat.le_refl 8)
      rw [load_byteBits] at hbyte
      have hsplit : bits (x :: d) = byteBits x ++ bits d := List.flatMap_cons
      rw [List.foldl_cons, ih, toBitVec_crcByte, hsplit, List.foldl_append, hbyte]
      rfl
  exact hfold 0

theorem crcByte_xor (a b x y : UInt8) : Firmware.crcByte (a ^^^ b) (x ^^^ y) =
    Firmware.crcByte a x ^^^ Firmware.crcByte b y := by
  apply UInt8.toBitVec_inj.mp
  rw [UInt8.toBitVec_xor, toBitVec_crcByte, toBitVec_crcByte, toBitVec_crcByte,
    ← repeat_shift_xor, UInt8.toBitVec_xor, UInt8.toBitVec_xor, xor_swap]

/-- An error changes the check byte by its own. -/
theorem calculateCrc_corrupt {d error : List UInt8} (hl : error.length = d.length) :
    calculateCrc (corrupt d error) = calculateCrc d ^^^ calculateCrc error := by
  have hfold : ∀ a b : UInt8, (corrupt d error).foldl Firmware.crcByte (a ^^^ b) =
      d.foldl Firmware.crcByte a ^^^ error.foldl Firmware.crcByte b := by
    induction d generalizing error with
    | nil =>
      rw [List.eq_nil_of_length_eq_zero hl]
      exact fun a b ↦ rfl
    | cons x d ih =>
      cases error with
      | nil => cases hl
      | cons y error =>
        intro a b
        have hrest := ih (Nat.succ.inj hl)
        rw [corrupt, List.zipWith_cons_cons, List.foldl_cons, crcByte_xor, ← corrupt, hrest]
        rfl
  exact hfold 0 0

/-- Checked bytes leave no remainder. -/
theorem calculateCrc_concat {d : List UInt8} {c : UInt8} (h : c = calculateCrc d) :
    calculateCrc (d ++ [c]) = 0 := by
  have hlast : calculateCrc (d ++ [c]) = Firmware.crcByte (calculateCrc d) c := List.foldl_append
  rw [hlast, h, Firmware.crcByte, UInt8.xor_self]
  rfl

/-! ### Errors -/

/-- The bits of an error that flips something. -/
theorem mem_bits {error : List UInt8} (h : ∃ x ∈ error, x ≠ 0) : true ∈ bits error := by
  rcases h with ⟨x, hmem, hx⟩
  rw [bits, List.mem_flatMap]
  refine ⟨x, hmem, ?_⟩
  apply Classical.byContradiction
  intro hnone
  apply hx
  apply UInt8.toBitVec_inj.mp
  apply BitVec.eq_of_getMsbD_eq
  intro i hi
  cases hbit : x.toBitVec.getMsbD i with
  | false => exact BitVec.getMsbD_zero.symm
  | true =>
    refine absurd ?_ hnone
    rw [byteBits, List.mem_map]
    exact ⟨i, List.mem_range.mpr hi, hbit⟩

/-- An error within eight places, or of an odd number of bits, leaves a remainder. -/
theorem calculateCrc_ne_zero {error : List UInt8} (hne : ∃ x ∈ error, x ≠ 0)
    (h : Burst error ∨ OddlyMany error) : calculateCrc error ≠ 0 := by
  intro hzero
  have hrem := toBitVec_calculateCrc error
  rw [hzero] at hrem
  rcases h with ⟨k, hwin⟩ | hodd
  · exact remainder_of_window poly (by decide) (mem_bits hne) hwin hrem.symm
  · exact remainder_of_odd poly (by decide) (by decide) hodd hrem.symm

/-- Such an error makes checked bytes fail the check. -/
theorem failsCheck_corrupt {body error : List UInt8} (hl : error.length = body.length + 1)
    (hne : ∃ x ∈ error, x ≠ 0) (h : Burst error ∨ OddlyMany error) :
    FailsCheck (corrupt (body ++ [calculateCrc body]) error) := by
  have hlen : error.length = (body ++ [calculateCrc body]).length := by
    rw [hl, List.length_append, List.length_singleton]
  have hcrc : calculateCrc (corrupt (body ++ [calculateCrc body]) error) = calculateCrc error := by
    rw [calculateCrc_corrupt hlen, calculateCrc_concat rfl, UInt8.zero_xor]
  have hlast : corrupt (body ++ [calculateCrc body]) error ≠ [] := by
    rw [← List.length_pos_iff, corrupt, List.length_zipWith, ← hlen, hl]
    omega
  rcases List.eq_nil_or_concat _ |>.resolve_left hlast with ⟨b, c, hsplit⟩
  rw [hsplit] at hcrc ⊢
  rw [List.concat_eq_append] at hcrc ⊢
  refine ⟨b, c, rfl, ?_, ?_⟩
  · intro hc
    rw [calculateCrc_concat hc] at hcrc
    exact calculateCrc_ne_zero hne h hcrc.symm
  · rw [Firmware.calculateCrc_eq _ _ (by rw [List.length_append]; omega), List.take_left,
      crcOf_eq_calculateCrc]

/-- What fails the check is no message. -/
theorem readBody_of_failsCheck {d : List UInt8} (h : FailsCheck d) :
    readBody calculateCrc d = none := by
  rcases h with ⟨body, c, rfl, hc, -⟩
  rw [Option.eq_none_iff_forall_ne_some]
  intro m hm
  have hbytes := List.append_inj' (readBody_eq_some.mp hm) rfl
  rw [hbytes.1] at hc
  exact hc (List.singleton_inj.mp hbytes.2)

/-- Both unstuffers return the data of the frame. -/
theorem decode_of_unstuffed {f stale d : List UInt8} (h : Unstuffed f stale d) :
    bytes.decode f = some d := by
  rcases h with hpi | ⟨pad, hteensy⟩
  · have hcobs := Driver.decodeCobs_eq f
    cases hd : bytes.decode f with
    | none =>
      rw [hd] at hcobs
      rcases hcobs with ⟨what, hw⟩
      cases hpi.symm.trans hw
    | some x =>
      rw [hd] at hcobs
      cases hpi.symm.trans hcobs
      rfl
  · have hcobs := Firmware.decodeCobs_eq (f ++ stale) (List.replicate Firmware.maxFrameSize 0)
      f.length Firmware.maxFrameSize (by simp) (Nat.le_of_eq List.length_replicate.symm)
    rw [List.take_left] at hcobs
    cases hd : bytes.decode f with
    | none =>
      rw [hd] at hcobs
      rcases hcobs with ⟨o, ho⟩
      cases hteensy.symm.trans ho
    | some x =>
      rw [hd, Firmware.Unstuffs] at hcobs
      split at hcobs
      · have hpair := Prod.mk.inj (Except.ok.inj (hteensy.symm.trans hcobs))
        rw [List.nil_append] at hpair
        have hdata := (List.append_inj hpair.2 (Int.ofNat_inj.mp hpair.1)).1
        rw [hdata]
      · rcases hcobs with ⟨o, ho⟩
        cases hteensy.symm.trans ho

/-- What fails the check is rejected by both parsers. -/
theorem rejects_of_failsCheck {f stale d : List UInt8} (hf : Unstuffed f stale d)
    (h : FailsCheck d) :
    (∃ what, Driver.decodePacket f = .error (.invalidArgument what)) ∧
      Firmware.decode (f ++ stale) f.length = .ok none := by
  have hread : readFrame calculateCrc f = none := by
    rw [readFrame, decode_of_unstuffed hf, Option.bind_some, readBody_of_failsCheck h]
  constructor
  · have hpi := Driver.decodePacket_eq f
    rwa [hread] at hpi
  · rcases Firmware.decode_eq (f ++ stale) f.length (by simp) with ⟨r, hr, hmap, -⟩
    rw [List.take_left, crcOf_eq_calculateCrc, hread, Option.filter_none,
      Option.map_eq_none_iff] at hmap
    rw [hr, hmap]

/-- The check finds every error of at most eight consecutive places and every error of an odd
number of bits, in byte strings of every length; and both parsers reject a frame that stands for
a packet's bytes with such an error. -/
theorem finds_bursts_and_odd_errors :
    (∀ body error : List UInt8, error.length = body.length + 1 → (∃ x ∈ error, x ≠ 0) →
      Burst error ∨ OddlyMany error →
        FailsCheck (corrupt (body ++ [calculateCrc body]) error)) ∧
    (∀ (m : Message) (error f stale : List UInt8), error.length = m.body.length + 1 →
      (∃ x ∈ error, x ≠ 0) → Burst error ∨ OddlyMany error →
      Unstuffed f stale (corrupt (m.body ++ [calculateCrc m.body]) error) →
        (∃ what, Driver.decodePacket f = .error (.invalidArgument what)) ∧
          Firmware.decode (f ++ stale) f.length = .ok none) :=
  ⟨fun _ _ hl hne h ↦ failsCheck_corrupt hl hne h,
    fun _ _ _ _ hl hne h hf ↦ rejects_of_failsCheck hf (failsCheck_corrupt hl hne h)⟩

/-- A burst across the border of the payload and the check byte of a command, and one flipped
bit of its last byte. -/
theorem finds_bursts_and_odd_errors_startCommand :
    FailsCheck (corrupt ([16, 1] ++ [calculateCrc [16, 1]]) [0, 0x0F, 0xF0]) ∧
      (∃ what, Driver.decodePacket [5, 16, 1, 1, 1, 2, 91] = .error (.invalidArgument what)) ∧
        Firmware.decode ([5, 16, 1, 1, 1, 2, 91] ++ [0]) 7 = .ok none := by
  rcases finds_bursts_and_odd_errors with ⟨hcheck, hreject⟩
  constructor
  · refine hcheck [16, 1] [0, 0x0F, 0xF0] rfl ⟨0x0F, by decide, by decide⟩ (Or.inl ⟨12, ?_⟩)
    have hplaces : ∀ i < 24, (bits [0, 0x0F, 0xF0])[i]? = some true → 12 ≤ i ∧ i < 12 + 8 := by
      decide
    intro i hi
    exact hplaces i (List.getElem?_eq_some_iff.mp hi).1 hi
  · exact hreject startCommand [0, 0, 0, 0, 0, 1] [5, 16, 1, 1, 1, 2, 91] [0] rfl
      ⟨1, by decide, by decide⟩ (Or.inr rfl) (Or.inl (by decide +kernel))

end BlueROV2.Link
