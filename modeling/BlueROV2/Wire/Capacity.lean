import BlueROV2.Wire.Stuffing

/-!
# Room for the stuffed data

Library `Wire`. Both encoders size their buffer by one formula: the data, one byte more, and one
more for every 254 bytes of data. The invariant of their loop ties the two indices and the code
byte to the number of bytes consumed and of full blocks closed.
-/

namespace BlueROV2.Wire

open BlueROV2.Base

/-- The formula by which buffers for `n` bytes of data are sized. -/
def capacity (n : Nat) : Nat := n + n / 254 + 1

namespace Stuffer

/-- The iteration fills the open block and closes it. -/
def ClosesFull (s : Stuffer) (byte : UInt8) : Prop := byte ≠ 0 ∧ s.code + 1 = 0xFF

instance (s : Stuffer) (byte : UInt8) : Decidable (s.ClosesFull byte) :=
  inferInstanceAs (Decidable (_ ∧ _))

/-- The indices an iteration writes: the data byte and the code byte of a closed block. -/
def written (s : Stuffer) (byte : UInt8) : List Nat :=
  if byte = 0 then [s.codeIndex]
  else if s.code + 1 = 0xFF then [s.write, s.codeIndex]
  else [s.write]

/-- The index an iteration reserves for the code byte of the next block, if it closes one. -/
def reserved (s : Stuffer) (byte : UInt8) : List Nat :=
  if byte = 0 then [s.write] else if s.code + 1 = 0xFF then [s.write + 1] else []

/-- The state of an encoder that has consumed `consumed` bytes and closed `full` full blocks. -/
structure Sized (consumed full : Nat) (s : Stuffer) : Prop where
  code_pos : 1 ≤ s.code.toNat
  code_lt : s.code.toNat < 0xFF
  write : s.write = consumed + 1 + full
  codeIndex : s.codeIndex + s.code.toNat = s.write
  full : full * 254 + (s.code.toNat - 1) ≤ consumed

variable {consumed full n : Nat} {s : Stuffer}

/-- An encoder with an empty block open behind its code byte. -/
theorem sized_fresh (out : List UInt8) {write codeIndex : Nat} (hw : write = consumed + 1 + full)
    (hi : codeIndex + 1 = write) (hf : full * 254 ≤ consumed) :
    Sized consumed full ⟨out, write, codeIndex, 1⟩ where
  code_pos := Nat.le_refl 1
  code_lt := (by decide : 1 < 255)
  write := hw
  codeIndex := hi
  full := by simpa using hf

/-- An encoder at the start of its loop. -/
theorem sized_start (out : List UInt8) : Sized 0 0 ⟨out, 1, 0, 1⟩ :=
  sized_fresh out rfl rfl (Nat.le_refl 0)

/-- As long as there is data left, the next byte of the buffer is within the capacity. -/
theorem Sized.write_lt (h : Sized consumed full s) (hn : consumed < n) : s.write < capacity n := by
  have hw := h.write
  have hf := h.full
  rw [capacity]
  omega

/-- The code byte of the open block is within the capacity. -/
theorem Sized.codeIndex_lt (h : Sized consumed full s) (hn : consumed ≤ n) :
    s.codeIndex < capacity n := by
  have hw := h.write
  have hi := h.codeIndex
  have hp := h.code_pos
  have hf := h.full
  rw [capacity]
  omega

/-- A block that is not full yet has room for one more in its code byte. -/
theorem Sized.toNat_code_succ (h : Sized consumed full s) :
    (s.code + 1).toNat = s.code.toNat + 1 := by
  have hlt := h.code_lt
  rw [UInt8.toNat_add]
  exact Nat.mod_eq_of_lt (by simp only [UInt8.toNat_one]; omega)

/-- The block is filled by the byte that takes its code to the last value. -/
theorem Sized.code_succ_eq (h : Sized consumed full s) :
    s.code + 1 = 0xFF ↔ s.code.toNat = 254 := by
  rw [← UInt8.toNat_inj, h.toNat_code_succ]
  change s.code.toNat + 1 = 255 ↔ _
  omega

/-- What an iteration writes or reserves is within the capacity. -/
theorem Sized.touched_lt (h : Sized consumed full s) (hn : consumed < n) (byte : UInt8) :
    ∀ i ∈ s.written byte ++ s.reserved byte, i < capacity n := by
  have hw := h.write_lt hn
  have hi := h.codeIndex_lt (Nat.le_of_lt hn)
  have hfull : s.code + 1 = 0xFF → s.write + 1 < capacity n := by
    intro hc
    rw [h.code_succ_eq] at hc
    -- the block that is closed now pays for the byte reserved behind it
    have hwrite := h.write
    have hf := h.full
    rw [capacity]
    omega
  intro i hmem
  rw [written, reserved] at hmem
  split at hmem
  · simp only [List.cons_append, List.nil_append, List.mem_cons, List.not_mem_nil, or_false] at hmem
    rcases hmem with rfl | rfl
    · exact hi
    · exact hw
  · split at hmem
    · next hc =>
      simp only [List.cons_append, List.nil_append, List.mem_cons, List.not_mem_nil,
        or_false] at hmem
      rcases hmem with rfl | rfl | rfl
      · exact hw
      · exact hi
      · exact hfull hc
    · simp only [List.append_nil, List.mem_singleton] at hmem
      rw [hmem]
      exact hw

/-- An iteration within the capacity succeeds, in a buffer of the same size, and keeps the
invariant; it changes nothing but what it writes. -/
theorem Sized.put (h : Sized consumed full s) (hn : consumed < n) (ho : capacity n ≤ s.out.length)
    (byte : UInt8) : ∃ s', s.put byte = .ok s' ∧ s'.out.length = s.out.length ∧
      Sized (consumed + 1) (if s.ClosesFull byte then full + 1 else full) s' ∧
      ∀ i ∉ s.written byte, s'.out[i]? = s.out[i]? := by
  have hwrite := h.write
  have hindex := h.codeIndex
  have hlt := h.code_lt
  -- what the new code byte and the new count of full blocks are measured against
  have hmore : full * 254 + (s.code.toNat + 1 - 1) ≤ consumed + 1 := by
    have hf := h.full
    have hp := h.code_pos
    omega
  have hmul : full * 254 ≤ consumed + 1 := Nat.le_trans (Nat.le_add_right _ _) hmore
  have hfill : s.code.toNat = 254 → (full + 1) * 254 ≤ consumed + 1 := by
    intro hcode
    rw [hcode] at hmore
    rw [Nat.succ_mul]
    exact hmore
  have hi := Nat.lt_of_lt_of_le (h.codeIndex_lt (Nat.le_of_lt hn)) ho
  have hw := Nat.lt_of_lt_of_le (h.write_lt hn) ho
  clear ho
  rw [Stuffer.put, written]
  by_cases hb : byte = 0
  · have hno : ¬ s.ClosesFull byte := fun hc ↦ hc.1 hb
    rw [if_pos hb, if_pos hb, if_neg hno, store, if_pos hi]
    refine ⟨_, rfl, List.length_set, sized_fresh _ ?_ rfl hmul, ?_⟩
    · omega
    · intro i hne
      exact List.getElem?_set_ne (fun he ↦ hne (List.mem_singleton.mpr he.symm))
  · rw [if_neg hb, if_neg hb, store, if_pos hw, Cpp.ok_bind]
    by_cases hc : s.code + 1 = 0xFF
    · have hyes : s.ClosesFull byte := ⟨hb, hc⟩
      rw [if_pos hc, if_pos hc, if_pos hyes, store, if_pos (by rwa [List.length_set])]
      refine ⟨_, rfl, ?_, sized_fresh _ ?_ rfl ?_, ?_⟩
      · rw [List.length_set, List.length_set]
      · omega
      · exact hfill (h.code_succ_eq.mp hc)
      · intro i hne
        simp only [List.mem_cons, List.not_mem_nil, or_false, not_or] at hne
        rw [List.getElem?_set_ne (Ne.symm hne.2), List.getElem?_set_ne (Ne.symm hne.1)]
    · have hno : ¬ s.ClosesFull byte := fun hcl ↦ hc hcl.2
      have hsucc := h.toNat_code_succ
      have hless : s.code.toNat ≠ 254 := fun he ↦ hc (h.code_succ_eq.mpr he)
      rw [if_neg hc, if_neg hc, if_neg hno]
      refine ⟨_, rfl, List.length_set, ⟨?_, ?_, ?_, ?_, ?_⟩, ?_⟩
      · simp only
        omega
      · simp only
        omega
      · simp only
        omega
      · simp only
        omega
      · simp only [hsucc]
        exact hmore
      · intro i hne
        exact List.getElem?_set_ne (fun he ↦ hne (List.mem_singleton.mpr he.symm))

/-- An iteration of a loop, with the number of full blocks closed so far. -/
def counting (body : Stuffer → UInt8 → Cpp Stuffer) (r : Stuffer × Nat) (byte : UInt8) :
    Cpp (Stuffer × Nat) := do
  let s ← body r.1 byte
  pure (s, if r.1.ClosesFull byte then r.2 + 1 else r.2)

/-- Counting does not change what the loop does. -/
theorem foldlM_counting (body : Stuffer → UInt8 → Cpp Stuffer) (data : List UInt8) (s : Stuffer)
    (full : Nat) :
    (data.foldlM (counting body) (s, full)).map Prod.fst = data.foldlM body s := by
  induction data generalizing s full with
  | nil => rfl
  | cons byte data ih =>
    rw [List.foldlM_cons, List.foldlM_cons, counting]
    cases body s byte with
    | error e => rfl
    | ok s' => exact ih s' _

/-- A loop over data for which the buffer has room succeeds and keeps the invariant. -/
theorem Sized.foldlM {data : List UInt8} (h : Sized consumed full s)
    (hn : consumed + data.length ≤ n) (ho : capacity n ≤ s.out.length) :
    ∃ s' full', data.foldlM (counting Stuffer.put) (s, full) = .ok (s', full') ∧
      s'.out.length = s.out.length ∧ Sized (consumed + data.length) full' s' := by
  induction data generalizing consumed full s with
  | nil => exact ⟨s, full, rfl, rfl, h⟩
  | cons byte data ih =>
    rw [List.length_cons] at hn ⊢
    rcases h.put (by omega) ho byte with ⟨s₁, hput, hlen, h₁, -⟩
    rcases ih h₁ (by omega) (by rw [hlen]; exact ho) with ⟨s', full', hfold, hlen', h'⟩
    refine ⟨s', full', ?_, hlen'.trans hlen, ?_⟩
    · rw [List.foldlM_cons, counting, hput]
      exact hfold
    · rwa [Nat.add_assoc, Nat.add_comm 1] at h'

end Stuffer

end BlueROV2.Wire
