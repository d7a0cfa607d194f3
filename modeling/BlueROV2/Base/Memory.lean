/-!
# Checked memory accesses

Library `Base`. A computation that indexes arrays without a test of its own either
returns a value, throws, or touches an element that is not there; the last case is an
explicit outcome here, so a returned value certifies every access made on the way.
Buffers behind a raw pointer are lists, arrays of a fixed size are vectors.
-/

namespace BlueROV2.Base

universe u

variable {α β : Type u}

/-- The ways in which a computation ends without returning a value: an access outside an
array, a thrown `std::invalid_argument` with its text, or the `std::future_error` of a promise
that is given a second value. -/
inductive Abort where
  | outOfBounds (index size : Nat)
  | invalidArgument (what : String)
  | promiseAlreadySatisfied
  deriving DecidableEq, Repr

/-- A computation with checked accesses. -/
abbrev Cpp (α : Type u) := Except Abort α

/-- Outcomes can be compared where values can. -/
instance [DecidableEq α] : DecidableEq (Cpp α)
  | .ok x, .ok y => decidable_of_iff (x = y) ⟨congrArg _, Except.ok.inj⟩
  | .error e, .error e' => decidable_of_iff (e = e') ⟨congrArg _, Except.error.inj⟩
  | .ok _, .error _ => isFalse nofun
  | .error _, .ok _ => isFalse nofun

/-- Continuing after a returned value. -/
@[simp] theorem Cpp.ok_bind (x : α) (f : α → Cpp β) : (Except.ok x >>= f) = f x := rfl

/-- Nothing runs after an abort. -/
@[simp] theorem Cpp.error_bind (e : Abort) (f : α → Cpp β) :
    ((Except.error e : Cpp α) >>= f) = .error e := rfl

/-- Returning is the successful outcome. -/
@[simp] theorem Cpp.pure_eq (x : α) : (pure x : Cpp α) = .ok x := rfl

/-- Returning the value of a computation is the computation. -/
@[simp] theorem Cpp.bind_ok (x : Cpp α) : (x >>= fun a ↦ Except.ok a) = x := bind_pure x

/-- A sequence returns exactly when its first part does and the rest returns from there. -/
theorem Cpp.bind_eq_ok {x : Cpp α} {f : α → Cpp β} {b : β} :
    (x >>= f) = .ok b ↔ ∃ a, x = .ok a ∧ f a = .ok b := by
  cases x with
  | error e => simp
  | ok a => simp

/-- The computation returns the value of `x`, and throws `std::invalid_argument` when there
is none; either way it makes no access out of bounds. -/
def Cpp.ReturnsOrThrows (x : Option α) (r : Cpp α) : Prop :=
  match x with
  | some a => r = .ok a
  | none => ∃ what, r = .error (.invalidArgument what)

/-- Read element `i`. -/
def load (a : List α) (i : Nat) : Cpp α :=
  match a[i]? with
  | some x => .ok x
  | none => .error (.outOfBounds i a.length)

/-- Overwrite element `i` of a buffer. -/
def store (a : List α) (i : Nat) (x : α) : Cpp (List α) :=
  if i < a.length then .ok (a.set i x) else .error (.outOfBounds i a.length)

/-- Overwrite element `i` of an array of fixed size. -/
def storeArray {n : Nat} (a : Vector α n) (i : Nat) (x : α) : Cpp (Vector α n) :=
  if h : i < n then .ok (a.set i x h) else .error (.outOfBounds i n)

/-- `std::vector::resize`: drop the end, or fill up with `x`. -/
def resize (a : List α) (n : Nat) (x : α) : List α := a.take n ++ List.replicate (n - a.length) x

/-- Run `body` on the elements `data[0]`, …, `data[size - 1]` in order. -/
def forData (data : List α) (size : Nat) (start : β) (body : β → α → Cpp β) : Cpp β :=
  (List.range size).foldlM (fun s i ↦ do body s (← load data i)) start

/-- Assign `dst[dstOff + i] = src[srcOff + i]` for `i = 0`, …, `n - 1` in order. -/
def copyLoop (dst : List α) (dstOff : Nat) (src : List α) (srcOff n : Nat) : Cpp (List α) :=
  (List.range n).foldlM (fun a i ↦ do store a (dstOff + i) (← load src (srcOff + i))) dst

/-- The same loop over a destination of fixed size. -/
def copyArray {m : Nat} (dst : Vector α m) (dstOff : Nat) (src : List α) (srcOff n : Nat) :
    Cpp (Vector α m) :=
  (List.range n).foldlM (fun a i ↦ do storeArray a (dstOff + i) (← load src (srcOff + i))) dst

/-- `memcpy`: the first `n` elements of `src` over the first `n` elements of `dst`. -/
def memcpy {m : Nat} (dst : Vector α m) (src : List α) (n : Nat) : Cpp (Vector α m) :=
  copyArray dst 0 src 0 n

/-- Reading inside the buffer returns the element. -/
theorem load_of_lt {a : List α} {i : Nat} (h : i < a.length) : load a i = .ok a[i] := by
  simp [load, h]

/-- Reading where the first `n` elements continue with `x`. -/
theorem load_of_drop_take {a : List α} {n i : Nat} {x : α} {b : List α}
    (h : (a.take n).drop i = x :: b) : load a i = .ok x := by
  have hg : (a.take n)[i]? = some x := by
    rw [← List.head?_drop, h, List.head?_cons]
  have ha : a[i]? = some x := by
    rw [List.getElem?_take] at hg
    split at hg
    · exact hg
    · cases hg
  simp [load, ha]

/-- Overwriting right after a prefix replaces the element that follows it. -/
theorem store_middle {a : List α} {i : Nat} (h : a.length = i) (x : α) (b : List α) (y : α) :
    store (a ++ x :: b) i y = .ok (a ++ y :: b) := by
  subst h
  simp [store]

/-- A write in a fixed array is a write in its list of elements. -/
theorem storeArray_toList {n : Nat} (a : Vector α n) (i : Nat) (x : α) :
    (storeArray a i x).map Vector.toList = store a.toList i x := by
  unfold storeArray store
  by_cases h : i < n
  · simp [h, Except.map, Vector.toList_set]
  · simp [h, Except.map]

private theorem foldlM_range_succ (f : β → Nat → Cpp β) (b : β) (n : Nat) :
    (List.range (n + 1)).foldlM f b = (List.range n).foldlM f b >>= fun s ↦ f s n := by
  simp [List.range_succ]

/-- A bounded read loop visits the first `size` elements of its buffer. -/
theorem forData_eq (data : List α) (size : Nat) (start : β) (body : β → α → Cpp β)
    (h : size ≤ data.length) :
    forData data size start body = (data.take size).foldlM body start := by
  induction size with
  | zero => simp [forData]
  | succ size ih =>
    have hs : size < data.length := h
    have hl : forData data (size + 1) start body =
        (forData data size start body >>= fun s ↦ load data size >>= body s) :=
      foldlM_range_succ _ _ _
    rw [hl, ih (Nat.le_of_lt hs), load_of_lt hs, List.take_succ_eq_append_getElem hs,
      List.foldlM_append]
    simp

/-- A copy loop inside both buffers replaces exactly its window. -/
theorem copyLoop_eq (dst : List α) (dstOff : Nat) (src : List α) (srcOff n : Nat)
    (hs : srcOff + n ≤ src.length) (hd : dstOff + n ≤ dst.length) :
    copyLoop dst dstOff src srcOff n =
      .ok (dst.take dstOff ++ ((src.drop srcOff).take n ++ dst.drop (dstOff + n))) := by
  induction n with
  | zero => simp [copyLoop]
  | succ n ih =>
    have hl : copyLoop dst dstOff src srcOff (n + 1) =
        (copyLoop dst dstOff src srcOff n >>= fun a ↦
          load src (srcOff + n) >>= fun x ↦ store a (dstOff + n) x) :=
      foldlM_range_succ _ _ _
    have hx : srcOff + n < src.length := by omega
    have hn : n < (src.drop srcOff).length := by rw [List.length_drop]; omega
    -- the window written so far ends where the next element is written
    have hlen : (dst.take dstOff ++ (src.drop srcOff).take n).length = dstOff + n := by
      simp only [List.length_append, List.length_take, List.length_drop]
      omega
    have hrest : dst.drop (dstOff + n) = dst[dstOff + n] :: dst.drop (dstOff + n + 1) :=
      (List.getElem_cons_drop (by omega)).symm
    rw [hl, ih (by omega) (by omega), Cpp.ok_bind, load_of_lt hx, Cpp.ok_bind,
      ← List.append_assoc, hrest, store_middle hlen, List.take_succ_eq_append_getElem hn,
      List.getElem_drop]
    simp [Nat.add_assoc]

/-- The copy loop over a fixed array is the copy loop over its list of elements. -/
theorem copyArray_toList {m : Nat} (dst : Vector α m) (dstOff : Nat) (src : List α)
    (srcOff n : Nat) :
    (copyArray dst dstOff src srcOff n).map Vector.toList =
      copyLoop dst.toList dstOff src srcOff n := by
  induction n with
  | zero => simp [copyArray, copyLoop, Except.map]
  | succ n ih =>
    have ha : copyArray dst dstOff src srcOff (n + 1) =
        (copyArray dst dstOff src srcOff n >>= fun a ↦
          load src (srcOff + n) >>= fun x ↦ storeArray a (dstOff + n) x) :=
      foldlM_range_succ _ _ _
    have hl : copyLoop dst.toList dstOff src srcOff (n + 1) =
        (copyLoop dst.toList dstOff src srcOff n >>= fun a ↦
          load src (srcOff + n) >>= fun x ↦ store a (dstOff + n) x) :=
      foldlM_range_succ _ _ _
    rw [ha, hl, ← ih]
    cases copyArray dst dstOff src srcOff n with
    | error e => rfl
    | ok a =>
      change ((load src (srcOff + n) >>= fun x ↦ storeArray a (dstOff + n) x).map _) =
        (load src (srcOff + n) >>= fun x ↦ store a.toList (dstOff + n) x)
      cases load src (srcOff + n) with
      | error e => rfl
      | ok x => exact storeArray_toList a (dstOff + n) x

/-- A copy loop inside both buffers fills its window of a fixed array. -/
theorem copyArray_eq {m : Nat} (dst : Vector α m) (dstOff : Nat) (src : List α) (srcOff n : Nat)
    (hs : srcOff + n ≤ src.length) (hd : dstOff + n ≤ m) :
    ∃ a, copyArray dst dstOff src srcOff n = .ok a ∧
      a.toList = dst.toList.take dstOff ++
        ((src.drop srcOff).take n ++ dst.toList.drop (dstOff + n)) := by
  have hm := copyArray_toList dst dstOff src srcOff n
  rw [copyLoop_eq dst.toList dstOff src srcOff n hs (by simpa using hd)] at hm
  cases hc : copyArray dst dstOff src srcOff n with
  | error e => rw [hc] at hm; cases hm
  | ok a =>
    rw [hc] at hm
    exact ⟨a, rfl, Except.ok.inj hm⟩

end BlueROV2.Base
