/-!
# Remainders in a shift register

Library `Base`. A register of `w` bits that moves up one place at a time and subtracts a
polynomial whenever a bit falls out at the top: the usual way of dividing by a polynomial over
two elements, whose leading term is the bit that falls out. The remainder of an error tells
whether a check by that polynomial finds it.
-/

namespace BlueROV2.Base.ShiftRegister

variable {w : Nat} (poly : BitVec w)

/-- One step of the register. -/
def shift (c : BitVec w) : BitVec w := if c.msb then (c <<< 1) ^^^ poly else c <<< 1

/-- The register with a bit in its top place and nothing else. -/
def top (b : Bool) : BitVec w := if b then BitVec.twoPow w (w - 1) else 0#w

/-- A bit is added at the top, and the register steps. -/
def feed (c : BitVec w) (b : Bool) : BitVec w := shift poly (c ^^^ top b)

/-- The remainder of a string of bits, the first of them the highest. -/
def remainder (bits : List Bool) : BitVec w := bits.foldl (feed poly) 0#w

/-- A string of bits, put into the register from the top. -/
def load : List Bool → BitVec w
  | [] => 0#w
  | b :: bits => top b ^^^ (load bits >>> 1)

/-- The sum of the lowest `n` bits. -/
def parityBelow (c : BitVec w) : Nat → Bool
  | 0 => false
  | n + 1 => (parityBelow c n) ^^ c.getLsbD n

/-- The sum of all bits. -/
def parity (c : BitVec w) : Bool := parityBelow c w

/-! ### Linearity -/

theorem xor_swap (a b c d : BitVec w) : (a ^^^ b) ^^^ (c ^^^ d) = (a ^^^ c) ^^^ (b ^^^ d) := by
  ac_rfl

@[simp] theorem shift_zero : shift poly 0#w = 0#w := by
  simp [shift]

/-- The register steps bit by bit, so it is linear. -/
theorem shift_xor (a b : BitVec w) : shift poly (a ^^^ b) = shift poly a ^^^ shift poly b := by
  unfold shift
  rw [BitVec.msb_xor, BitVec.shiftLeft_xor_distrib]
  cases a.msb with
  | false => cases b.msb with
    | false => rfl
    | true => exact BitVec.xor_assoc _ _ _
  | true => cases b.msb with
    | false =>
      change (a <<< 1 ^^^ b <<< 1) ^^^ poly = (a <<< 1 ^^^ poly) ^^^ b <<< 1
      ac_rfl
    | true =>
      -- the polynomial is subtracted twice
      change a <<< 1 ^^^ b <<< 1 = (a <<< 1 ^^^ poly) ^^^ (b <<< 1 ^^^ poly)
      rw [xor_swap, BitVec.xor_self, BitVec.xor_zero]

/-- Any number of steps is linear. -/
theorem repeat_shift_xor (n : Nat) (a b : BitVec w) : Nat.repeat (shift poly) n (a ^^^ b) =
    Nat.repeat (shift poly) n a ^^^ Nat.repeat (shift poly) n b := by
  induction n with
  | zero => rfl
  | succ n ih => rw [Nat.repeat, ih, shift_xor, Nat.repeat, Nat.repeat]

/-- An empty register stays empty. -/
theorem repeat_shift_zero (n : Nat) : Nat.repeat (shift poly) n 0#w = 0#w := by
  induction n with
  | zero => rfl
  | succ n ih => rw [Nat.repeat, ih, shift_zero]

/-- The first of several steps. -/
theorem repeat_shift_succ (n : Nat) (c : BitVec w) :
    Nat.repeat (shift poly) (n + 1) c = Nat.repeat (shift poly) n (shift poly c) := by
  induction n with
  | zero => rfl
  | succ n ih => rw [Nat.repeat, ih, Nat.repeat]

variable {poly}

/-- If the polynomial has a constant term, a step loses nothing. -/
theorem shift_eq_zero (hpoly : poly.getLsbD 0 = true) {c : BitVec w} (h : shift poly c = 0#w) :
    c = 0#w := by
  unfold shift at h
  cases hm : c.msb with
  | true =>
    -- the lowest bit of the result is the constant term
    rw [hm, if_pos rfl] at h
    have hbit := congrArg (BitVec.getLsbD · 0) h
    simp [hpoly] at hbit
  | false =>
    rw [hm, if_neg (by decide)] at h
    apply BitVec.eq_of_getLsbD_eq
    intro i hi
    rw [BitVec.getLsbD_zero]
    by_cases hlast : i = w - 1
    · rw [hlast, ← BitVec.msb_eq_getLsbD_last]
      exact hm
    · have hbit := congrArg (BitVec.getLsbD · (i + 1)) h
      have hlt : i + 1 < w := by omega
      simpa [hlt, BitVec.getLsbD_eq_getElem hi] using hbit

/-- Nor do several steps. -/
theorem repeat_shift_eq_zero (hpoly : poly.getLsbD 0 = true) {n : Nat} {c : BitVec w}
    (h : Nat.repeat (shift poly) n c = 0#w) : c = 0#w := by
  induction n with
  | zero => exact h
  | succ n ih => exact ih (shift_eq_zero hpoly h)

variable (poly)

/-! ### Loading bits at once -/

theorem getMsbD_top (hw : 0 < w) (b : Bool) (i : Nat) :
    (top b : BitVec w).getMsbD i = (b && decide (i = 0)) := by
  cases b with
  | false => exact BitVec.getMsbD_zero
  | true =>
    have hlast : w - (w - 1) - 1 = 0 := by omega
    rw [top, if_pos rfl, BitVec.getMsbD_twoPow, hlast, decide_eq_true (by omega)]

/-- The bits of a register are those that were put into it. -/
theorem getMsbD_load (bits : List Bool) {i : Nat} (hi : i < w) :
    (load bits : BitVec w).getMsbD i = bits.getD i false := by
  have hw : 0 < w := Nat.lt_of_le_of_lt (Nat.zero_le i) hi
  induction bits generalizing i with
  | nil => exact BitVec.getMsbD_zero
  | cons b bits ih =>
    rw [load, BitVec.getMsbD_xor, getMsbD_top hw, BitVec.getMsbD_ushiftRight]
    cases i with
    | zero => simp
    | succ i =>
      have hmore := ih (Nat.lt_of_succ_lt hi)
      simp [hi, hmore]

/-- Putting bits into the register one at a time is the same as putting them in at once. -/
theorem foldl_feed (bits : List Bool) (c : BitVec w) (hl : bits.length ≤ w) :
    bits.foldl (feed poly) c = Nat.repeat (shift poly) bits.length (c ^^^ load bits) := by
  induction bits generalizing c with
  | nil => exact (BitVec.xor_zero).symm
  | cons b bits ih =>
    rw [List.length_cons] at hl ⊢
    -- what is loaded behind the first bit leaves the lowest place free
    have hfree : shift poly (load bits >>> 1) = load bits := by
      have hmsb : (load bits >>> 1 : BitVec w).msb = false := by
        rw [BitVec.msb, BitVec.getMsbD_ushiftRight]
        simp
      rw [shift, hmsb, if_neg (by decide)]
      apply BitVec.eq_of_getMsbD_eq
      intro i hi
      rw [BitVec.getMsbD_shiftLeft, BitVec.getMsbD_ushiftRight]
      by_cases hlast : i + 1 < w
      · simp [hlast]
      · have hend : bits.getD i false = false := by
          rw [List.getD_eq_getElem?_getD, List.getElem?_eq_none (by omega)]
          rfl
        rw [getMsbD_load bits hi, hend]
        simp [hlast]
    rw [List.foldl_cons, ih _ (Nat.le_of_succ_le hl), repeat_shift_succ, load, ← BitVec.xor_assoc,
      shift_xor, hfree, feed]

/-- A string of no more bits than the register has leaves no remainder only if it has no bit. -/
theorem remainder_of_short (hpoly : poly.getLsbD 0 = true) {bits : List Bool} (hl : bits.length ≤ w)
    (h : remainder poly bits = 0#w) : true ∉ bits := by
  rw [remainder, foldl_feed poly bits _ hl, BitVec.zero_xor] at h
  have hload := repeat_shift_eq_zero hpoly h
  intro hmem
  rcases List.getElem_of_mem hmem with ⟨i, hi, hbit⟩
  have hget := getMsbD_load (w := w) bits (Nat.lt_of_lt_of_le hi hl)
  rw [hload, BitVec.getMsbD_zero, List.getD_eq_getElem?_getD, List.getElem?_eq_getElem hi, hbit]
    at hget
  cases hget

/-! ### Bursts -/

theorem remainder_append (bits more : List Bool) :
    remainder poly (bits ++ more) = more.foldl (feed poly) (remainder poly bits) :=
  List.foldl_append

/-- Places without a bit only let the register step. -/
theorem foldl_feed_false (n : Nat) (c : BitVec w) :
    (List.replicate n false).foldl (feed poly) c = Nat.repeat (shift poly) n c := by
  induction n generalizing c with
  | zero => rfl
  | succ n ih =>
    rw [List.replicate_succ, List.foldl_cons, ih, repeat_shift_succ, feed, top, if_neg (by decide),
      BitVec.xor_zero]

/-- A burst of at most as many places as the register has leaves a remainder, wherever it lies. -/
theorem remainder_burst (hpoly : poly.getLsbD 0 = true) {burst : List Bool} (hl : burst.length ≤ w)
    (hbit : true ∈ burst) (before behind : Nat) :
    remainder poly (List.replicate before false ++ (burst ++ List.replicate behind false)) ≠
      0#w := by
  intro h
  have hbefore : remainder poly (List.replicate before false) = 0#w := by
    rw [remainder, foldl_feed_false, repeat_shift_zero]
  rw [remainder_append, hbefore, List.foldl_append, foldl_feed_false] at h
  exact remainder_of_short poly hpoly hl (repeat_shift_eq_zero hpoly h) hbit

/-- Bits that all lie within as many places as the register has leave a remainder. -/
theorem remainder_of_window (hpoly : poly.getLsbD 0 = true) {bits : List Bool} {k : Nat}
    (hbit : true ∈ bits) (hwin : ∀ i, bits[i]? = some true → k ≤ i ∧ i < k + w) :
    remainder poly bits ≠ 0#w := by
  obtain ⟨before, hbefore⟩ : ∃ before, bits.take k = List.replicate before false := by
    refine ⟨_, List.eq_replicate_of_mem ?_⟩
    intro b hb
    rcases List.mem_iff_getElem?.mp hb with ⟨i, hi⟩
    rw [List.getElem?_take] at hi
    split at hi
    · next hlt =>
      cases b with
      | false => rfl
      | true => exact absurd (hwin i hi).1 (Nat.not_le_of_lt hlt)
    · cases hi
  obtain ⟨behind, hbehind⟩ : ∃ behind, (bits.drop k).drop w = List.replicate behind false := by
    refine ⟨_, List.eq_replicate_of_mem ?_⟩
    intro b hb
    rcases List.mem_iff_getElem?.mp hb with ⟨i, hi⟩
    rw [List.drop_drop, List.getElem?_drop] at hi
    cases b with
    | false => rfl
    | true => exact absurd (hwin _ hi).2 (by omega)
  have hsplit : bits = List.replicate before false ++
      ((bits.drop k).take w ++ List.replicate behind false) := by
    rw [← hbefore, ← hbehind, List.take_append_drop, List.take_append_drop]
  rw [hsplit]
  apply remainder_burst poly hpoly (List.length_take_le _ _)
  rw [hsplit, List.mem_append, List.mem_append] at hbit
  rcases hbit with h | h | h
  · cases List.eq_of_mem_replicate h
  · exact h
  · cases List.eq_of_mem_replicate h

/-! ### Parity -/

theorem parityBelow_xor (a b : BitVec w) (n : Nat) :
    parityBelow (a ^^^ b) n = (parityBelow a n ^^ parityBelow b n) := by
  induction n with
  | zero => rfl
  | succ n ih =>
    rw [parityBelow, parityBelow, parityBelow, ih, BitVec.getLsbD_xor]
    cases parityBelow a n <;> cases parityBelow b n <;> cases a.getLsbD n <;>
      cases b.getLsbD n <;> rfl

theorem parity_xor (a b : BitVec w) : parity (a ^^^ b) = (parity a ^^ parity b) :=
  parityBelow_xor a b w

/-- Moving up by one place, the register loses its top bit. -/
theorem parity_shiftLeft (c : BitVec w) : parity c = (parity (c <<< 1) ^^ c.msb) := by
  have hbelow : ∀ n, n + 1 ≤ w → parityBelow (c <<< 1) (n + 1) = parityBelow c n := by
    intro n hn
    induction n with
    | zero => simp [parityBelow]
    | succ n ih =>
      have hbit : (c <<< 1).getLsbD (n + 1) = c.getLsbD n := by
        rw [BitVec.getLsbD_shiftLeft, decide_eq_true (Nat.lt_of_succ_le hn),
          decide_eq_false (by omega)]
        simp
      rw [parityBelow, ih (Nat.le_of_succ_le hn), hbit, parityBelow]
  cases w with
  | zero => simp [parity, parityBelow, BitVec.msb]
  | succ n =>
    rw [parity, parity, hbelow n (Nat.le_refl _), parityBelow, BitVec.msb_eq_getLsbD_last]
    rfl

/-- If the whole polynomial has an even number of terms, the leading one among them, steps keep
the parity of the register. -/
theorem parity_shift (hpoly : parity poly = true) (c : BitVec w) :
    parity (shift poly c) = parity c := by
  rw [parity_shiftLeft c, shift]
  cases c.msb with
  | false => exact (Bool.xor_false _).symm
  | true =>
    rw [if_pos rfl, parity_xor, hpoly]

theorem parityBelow_twoPow {i : Nat} (hi : i < w) (n : Nat) :
    parityBelow (BitVec.twoPow w i) n = decide (i < n) := by
  induction n with
  | zero => rfl
  | succ n ih =>
    rw [parityBelow, ih, BitVec.getLsbD_twoPow, decide_eq_true hi, Bool.true_and]
    rcases Nat.lt_trichotomy i n with hlt | heq | hgt
    · simp [hlt, Nat.ne_of_lt hlt, Nat.lt_succ_of_lt hlt]
    · simp [heq]
    · have hfar : ¬ i < n + 1 := by omega
      simp [Nat.not_lt_of_gt hgt, Nat.ne_of_gt hgt, hfar]

theorem parity_zero : parity 0#w = false := by
  have hbelow : ∀ n, parityBelow 0#w n = false := by
    intro n
    induction n with
    | zero => rfl
    | succ n ih => rw [parityBelow, ih, BitVec.getLsbD_zero, Bool.xor_false]
  exact hbelow w

theorem parity_top (hw : 0 < w) (b : Bool) : parity (top b : BitVec w) = b := by
  cases b with
  | false => exact parity_zero
  | true =>
    have hlast : w - 1 < w := by omega
    rw [top, if_pos rfl, parity, parityBelow_twoPow hlast, decide_eq_true hlast]

/-- Every bit that is fed changes the parity of the register. -/
theorem parity_foldl_feed (hw : 0 < w) (hpoly : parity poly = true) (bits : List Bool)
    (c : BitVec w) : parity (bits.foldl (feed poly) c) =
      (parity c ^^ decide (bits.count true % 2 = 1)) := by
  induction bits generalizing c with
  | nil => exact (Bool.xor_false _).symm
  | cons b bits ih =>
    rw [List.foldl_cons, ih, feed, parity_shift poly hpoly, parity_xor, parity_top hw,
      Bool.xor_assoc]
    congr 1
    cases b with
    | false => simp
    | true =>
      rw [List.count_cons_self]
      rcases Nat.mod_two_eq_zero_or_one (bits.count true) with h | h
      · have hnext : (bits.count true + 1) % 2 = 1 := by omega
        simp [h, hnext]
      · have hnext : (bits.count true + 1) % 2 = 0 := by omega
        simp [h, hnext]

/-- A string with an odd number of bits leaves a remainder. -/
theorem remainder_of_odd (hw : 0 < w) (hpoly : parity poly = true) {bits : List Bool}
    (hodd : bits.count true % 2 = 1) : remainder poly bits ≠ 0#w := by
  intro h
  have hparity := parity_foldl_feed poly hw hpoly bits 0#w
  rw [← remainder, h, parity_zero, decide_eq_true hodd] at hparity
  cases hparity

end BlueROV2.Base.ShiftRegister
