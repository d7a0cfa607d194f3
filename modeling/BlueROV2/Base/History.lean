import Mathlib.Data.List.Induction

/-!
# Histories

Library `Base`. A history is a list, the latest entry last. Some entries show something to an
observer. What was shown last, and whether it was shown since another kind of entry, changes
with each entry in a simple way. A history satisfies a condition throughout if each of its
entries does, given those before it.
-/

namespace BlueROV2.Base.History

universe u v

variable {α : Type u} {β : Type v} {f : α → Option β} {p : α → Prop} {h : List α} {x : α}
  {i j : Nat} {b c : β}

/-- What an observer saw last is at place `j`. -/
def LatestAt (f : α → Option β) (h : List α) (j : Nat) (b : β) : Prop :=
  h[j]?.bind f = some b ∧ ∀ k, j < k → h[k]?.bind f = none

/-- No entry from place `j` on is of a kind. -/
def NoneFrom (p : α → Prop) (h : List α) (j : Nat) : Prop :=
  ∀ k x, j ≤ k → h[k]? = some x → ¬ p x

/-- An observer saw something since the last entry of a kind. -/
def SeenSince (f : α → Option β) (p : α → Prop) (h : List α) : Prop :=
  ∃ j b, LatestAt f h j b ∧ NoneFrom p h j

/-- What an observer saw last, or what it took for granted at first. -/
def lastSeen (f : α → Option β) (b : β) (h : List α) : β := (h.filterMap f).getLast?.getD b

/-- Every entry meets a condition on it and on the entries before it. -/
def Throughout (P : List α → α → Prop) (h : List α) : Prop :=
  ∀ before x after, h = before ++ x :: after → P before x

/-! ### What was seen last -/

/-- What is shown last is in the history. -/
theorem LatestAt.lt (hl : LatestAt f h j b) : j < h.length := by
  apply Nat.lt_of_not_le
  intro hle
  have hsome := hl.1
  rw [List.getElem?_eq_none hle] at hsome
  cases hsome

/-- One thing is shown last. -/
theorem LatestAt.unique (hb : LatestAt f h i b) (hc : LatestAt f h j c) : i = j ∧ b = c := by
  have hij : i = j := by
    rcases Nat.lt_trichotomy i j with hlt | heq | hgt
    · cases (hb.2 j hlt).symm.trans hc.1
    · exact heq
    · cases (hc.2 i hgt).symm.trans hb.1
  refine ⟨hij, ?_⟩
  rw [hij] at hb
  exact Option.some.inj (hb.1.symm.trans hc.1)

/-- An entry that shows something is seen last. -/
theorem latestAt_concat_of_some (hx : f x = some b) :
    LatestAt f (h ++ [x]) j c ↔ j = h.length ∧ c = b := by
  have hnew : LatestAt f (h ++ [x]) h.length b := by
    refine ⟨by rw [List.getElem?_concat_length]; exact hx, fun k hk ↦ ?_⟩
    rw [List.getElem?_eq_none (by rw [List.length_append, List.length_singleton]; omega)]
    rfl
  constructor
  · exact fun hl ↦ hl.unique hnew
  · rintro ⟨rfl, rfl⟩
    exact hnew

/-- An entry that shows nothing changes nothing about what was seen last. -/
theorem latestAt_concat_of_none (hx : f x = none) :
    LatestAt f (h ++ [x]) j c ↔ LatestAt f h j c := by
  have hsame : ∀ k : Nat, (h ++ [x])[k]?.bind f = h[k]?.bind f := by
    intro k
    rcases Nat.lt_trichotomy k h.length with hlt | heq | hgt
    · rw [List.getElem?_append_left hlt]
    · rw [heq, List.getElem?_concat_length, List.getElem?_eq_none (Nat.le_refl _)]
      exact hx
    · rw [List.getElem?_eq_none (Nat.le_of_lt hgt),
        List.getElem?_eq_none (by rw [List.length_append, List.length_singleton]; omega)]
  simp only [LatestAt, hsame]

/-- What an entry shows is seen last, if it shows something. -/
@[simp] theorem lastSeen_concat : lastSeen f b (h ++ [x]) = (f x).getD (lastSeen f b h) := by
  rw [lastSeen, List.filterMap_append]
  cases hx : f x with
  | none =>
    rw [List.filterMap_cons_none hx, List.filterMap_nil, List.append_nil]
    rfl
  | some c =>
    rw [List.filterMap_cons_some hx, List.filterMap_nil, List.getLast?_concat]
    rfl

/-- What was seen last, from the first entry on. -/
theorem lastSeen_cons : lastSeen f b (x :: h) = lastSeen f ((f x).getD b) h := by
  rw [lastSeen, lastSeen]
  cases hx : f x with
  | none =>
    rw [List.filterMap_cons_none hx]
    rfl
  | some c =>
    rw [List.filterMap_cons_some hx, List.getLast?_cons]
    rfl

/-- Nothing was seen, or what was seen last is in the history, and nothing was seen behind it. -/
theorem lastSeen_cases (f : α → Option β) (b : β) (h : List α) :
    (∀ x ∈ h, f x = none) ∧ lastSeen f b h = b ∨
    ∃ before x c after, h = before ++ x :: after ∧ f x = some c ∧ (∀ y ∈ after, f y = none) ∧
      lastSeen f b h = c := by
  induction h using List.reverseRecOn with
  | nil => exact .inl ⟨fun x hx ↦ absurd hx List.not_mem_nil, rfl⟩
  | append_singleton h x ih =>
    rw [lastSeen_concat]
    cases hx : f x with
    | some c =>
      exact .inr ⟨h, x, c, [], rfl, hx, fun y hy ↦ absurd hy List.not_mem_nil, rfl⟩
    | none =>
      rcases ih with ⟨hnone, hlast⟩ | ⟨before, y, c, after, rfl, hy, hnone, hlast⟩
      · refine .inl ⟨fun z hz ↦ ?_, hlast⟩
        rcases List.mem_append.mp hz with hz | hz
        · exact hnone z hz
        · rw [List.mem_singleton.mp hz, hx]
      · refine .inr ⟨before, y, c, after ++ [x], ?_, hy, fun z hz ↦ ?_, hlast⟩
        · rw [List.append_assoc, List.cons_append]
        · rcases List.mem_append.mp hz with hz | hz
          · exact hnone z hz
          · rw [List.mem_singleton.mp hz, hx]

/-- What was seen is what was seen last, if nothing was seen behind it. -/
theorem lastSeen_append_cons {before after : List α} (hx : f x = some c)
    (hnone : ∀ y ∈ after, f y = none) : lastSeen f b (before ++ x :: after) = c := by
  rw [lastSeen, List.filterMap_append, List.filterMap_cons_some hx,
    List.filterMap_eq_nil_iff.mpr hnone, List.getLast?_concat]
  rfl

/-! ### Since when -/

theorem noneFrom_concat (hj : j ≤ h.length) :
    NoneFrom p (h ++ [x]) j ↔ NoneFrom p h j ∧ ¬ p x := by
  constructor
  · intro hn
    refine ⟨fun k y hk hy ↦ hn k y hk ?_, hn h.length x hj List.getElem?_concat_length⟩
    rw [List.getElem?_append_left (List.getElem?_eq_some_iff.mp hy).1]
    exact hy
  · rintro ⟨hn, hx⟩ k y hk hy
    rcases Nat.lt_or_ge k h.length with hlt | hge
    · rw [List.getElem?_append_left hlt] at hy
      exact hn k y hk hy
    · rw [List.getElem?_append_right hge] at hy
      rw [List.mem_singleton.mp (List.mem_of_getElem? hy)]
      exact hx

/-- Nothing is found behind the end. -/
theorem noneFrom_length : NoneFrom p h h.length := by
  intro k y hk hy
  rw [List.getElem?_eq_none hk] at hy
  cases hy

/-- At first nothing was seen. -/
theorem not_seenSince_nil : ¬ SeenSince f p [] := by
  rintro ⟨j, b, hl, -⟩
  cases hl.1

/-- After an entry of the kind, nothing was seen since. -/
theorem not_seenSince_concat (hx : p x) : ¬ SeenSince f p (h ++ [x]) := by
  rintro ⟨j, b, hl, hn⟩
  have hlt := hl.lt
  rw [List.length_append, List.length_singleton] at hlt
  exact ((noneFrom_concat (Nat.le_of_lt_succ hlt)).mp hn).2 hx

/-- Any other entry that shows something is seen since. -/
theorem seenSince_concat_of_some (hx : f x = some b) (hp : ¬ p x) : SeenSince f p (h ++ [x]) :=
  ⟨h.length, b, (latestAt_concat_of_some hx).mpr ⟨rfl, rfl⟩,
    (noneFrom_concat (Nat.le_refl _)).mpr ⟨noneFrom_length, hp⟩⟩

/-- Any other entry that shows nothing makes no difference. -/
theorem seenSince_concat_of_none (hx : f x = none) (hp : ¬ p x) :
    SeenSince f p (h ++ [x]) ↔ SeenSince f p h := by
  constructor
  · rintro ⟨j, b, hl, hn⟩
    rw [latestAt_concat_of_none hx] at hl
    exact ⟨j, b, hl, ((noneFrom_concat (Nat.le_of_lt hl.lt)).mp hn).1⟩
  · rintro ⟨j, b, hl, hn⟩
    exact ⟨j, b, (latestAt_concat_of_none hx).mpr hl,
      (noneFrom_concat (Nat.le_of_lt hl.lt)).mpr ⟨hn, hp⟩⟩

/-! ### Conditions throughout -/

variable {P : List α → α → Prop}

theorem throughout_nil : Throughout P [] := by
  intro before x after h
  cases before <;> cases h

/-- A history that goes on meets a condition throughout if its new entry does. -/
theorem Throughout.concat (hall : Throughout P h) (hx : P h x) : Throughout P (h ++ [x]) := by
  intro before y after hsplit
  rcases List.eq_nil_or_concat after with rfl | ⟨rest, z, rfl⟩
  · have hlast := List.append_inj' hsplit rfl
    rw [← hlast.1, ← List.singleton_inj.mp hlast.2]
    exact hx
  · rw [List.concat_eq_append, ← List.cons_append, ← List.append_assoc] at hsplit
    exact hall before y rest (List.append_inj' hsplit rfl).1

/-- The entry at a place, and those before it. -/
theorem Throughout.getElem? (hall : Throughout P h) (hx : h[i]? = some x) : P (h.take i) x := by
  rcases List.getElem?_eq_some_iff.mp hx with ⟨hi, rfl⟩
  apply hall (h.take i) _ (h.drop (i + 1))
  rw [List.getElem_cons_drop, List.take_append_drop]

end BlueROV2.Base.History
