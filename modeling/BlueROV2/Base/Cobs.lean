/-!
# Consistent overhead byte stuffing

Library `Base`. Stuffing over an arbitrary finite alphabet whose symbols are ranked
`0`, …, `limit + 1`. Data is cut into blocks at every zero and after every `limit` nonzero
symbols; each block is written behind a code symbol announcing its length. Cutting and
joining are inverse on canonical block lists, which is what makes a frame unique.
-/

namespace BlueROV2.Base.Cobs

universe u

/-- A finite alphabet with its symbols numbered from zero; a block holds at most `limit`
of them, and the code symbol of a full block is the last symbol. -/
structure Alphabet (α : Type u) where
  limit : Nat
  limit_pos : 0 < limit
  rank : α → Nat
  symbol : Nat → α
  rank_lt : ∀ a, rank a < limit + 2
  rank_symbol : ∀ n, n < limit + 2 → rank (symbol n) = n
  symbol_rank : ∀ a, symbol (rank a) = a

namespace Alphabet

variable {α : Type u} (A : Alphabet α)

/-- The symbol that never occurs inside a frame. -/
def zero : α := A.symbol 0

/-- The code symbol announcing `n` data symbols. -/
def code (n : Nat) : α := A.symbol (n + 1)

/-- No symbol of the list is zero. -/
def Plain (b : List α) : Prop := ∀ x ∈ b, A.rank x ≠ 0

/-- Blocks on the wire, each behind its code symbol. -/
def ser : List (List α) → List α
  | [] => []
  | b :: bs => A.code b.length :: (b ++ ser bs)

/-- The data that blocks stand for: a zero follows every block but a full or the last one. -/
def join : List (List α) → List α
  | [] => []
  | [b] => b
  | b :: c :: bs => b ++ ((if b.length < A.limit then [A.zero] else []) ++ join (c :: bs))

/-- Cut data into blocks, with `cur` the block begun so far. -/
def splitFrom (cur : List α) : List α → List (List α)
  | [] => [cur]
  | x :: xs =>
    if A.rank x = 0 then cur :: splitFrom [] xs
    else if cur.length + 1 = A.limit then (cur ++ [x]) :: splitFrom [] xs
    else splitFrom (cur ++ [x]) xs

/-- The frame of a data string, without a delimiter. -/
def encode (d : List α) : List α := A.ser (A.splitFrom [] d)

/-- Read a frame back into blocks; `none` for a zero or a cut-off block. -/
def parse : List α → Option (List (List α))
  | [] => some []
  | c :: rest =>
    if A.rank c = 0 ∨ rest.length < A.rank c - 1 then none
    else (parse (rest.drop (A.rank c - 1))).map (rest.take (A.rank c - 1) :: ·)
termination_by f => f.length
decreasing_by simp only [List.length_drop, List.length_cons]; omega

/-- The data of a frame. -/
def decode (f : List α) : Option (List α) := (A.parse f).map A.join

/-- Block lists in the encoder's image: zero-free blocks within the limit, the last of
which is not full. -/
def Canonical : List (List α) → Prop
  | [] => False
  | [b] => A.Plain b ∧ b.length < A.limit
  | b :: c :: bs => (A.Plain b ∧ b.length ≤ A.limit) ∧ Canonical (c :: bs)

/-- A string that stands for data: the serialisation of plain blocks within the limit that join
to the data, whether or not an empty block follows a full one at the end. -/
def Stuffs (d f : List α) : Prop :=
  ∃ bs, (∀ b ∈ bs, A.Plain b ∧ b.length ≤ A.limit) ∧ A.ser bs = f ∧ A.join bs = d

/-- The number of full blocks. -/
def fullBlocks (bs : List (List α)) : Nat := bs.countP (fun b ↦ b.length = A.limit)

variable {A}

/-- The rank of a code symbol is one more than the announced length. -/
theorem rank_code {n : Nat} (h : n ≤ A.limit) : A.rank (A.code n) = n + 1 :=
  A.rank_symbol (n + 1) (by omega)

/-- A symbol of rank zero is the zero symbol. -/
theorem eq_zero_of_rank {x : α} (h : A.rank x = 0) : x = A.zero := by
  rw [zero, ← h, A.symbol_rank]

/-- The zero symbol has rank zero. -/
theorem rank_zero : A.rank A.zero = 0 := A.rank_symbol 0 (by omega)

/-- A list is plain when its parts are. -/
theorem plain_append {a b : List α} : A.Plain (a ++ b) ↔ A.Plain a ∧ A.Plain b := by
  simp only [Plain, List.mem_append, or_imp, forall_and]

/-- The empty list is plain. -/
theorem plain_nil : A.Plain [] := by simp [Plain]

/-- A list is plain when its head and its tail are. -/
theorem plain_cons {x : α} {b : List α} : A.Plain (x :: b) ↔ A.rank x ≠ 0 ∧ A.Plain b := by
  simp [Plain]

/-- Cutting never yields an empty block list. -/
theorem splitFrom_ne_nil (cur xs : List α) : A.splitFrom cur xs ≠ [] := by
  induction xs generalizing cur with
  | nil => simp [splitFrom]
  | cons x xs ih =>
    unfold splitFrom
    split
    · simp
    · split
      · simp
      · exact ih _

/-- Joining peels the first block off a longer list. -/
theorem join_cons {b : List α} {bs : List (List α)} (h : bs ≠ []) :
    A.join (b :: bs) = b ++ ((if b.length < A.limit then [A.zero] else []) ++ A.join bs) := by
  cases bs with
  | nil => exact absurd rfl h
  | cons c cs => rfl

/-- A longer list is canonical when its first block is in bounds and the rest is canonical. -/
theorem canonical_cons {b : List α} {bs : List (List α)} (h : bs ≠ []) :
    A.Canonical (b :: bs) ↔ (A.Plain b ∧ b.length ≤ A.limit) ∧ A.Canonical bs := by
  cases bs with
  | nil => exact absurd rfl h
  | cons c cs => rfl

/-- The blocks that cutting yields are canonical. -/
theorem canonical_splitFrom (cur xs : List α) (hp : A.Plain cur) (hl : cur.length < A.limit) :
    A.Canonical (A.splitFrom cur xs) := by
  induction xs generalizing cur with
  | nil => exact ⟨hp, hl⟩
  | cons x xs ih =>
    unfold splitFrom
    split
    · exact (canonical_cons (splitFrom_ne_nil _ _)).mpr
        ⟨⟨hp, Nat.le_of_lt hl⟩, ih [] plain_nil A.limit_pos⟩
    · next hx =>
      have hpx : A.Plain (cur ++ [x]) := plain_append.mpr ⟨hp, plain_cons.mpr ⟨hx, plain_nil⟩⟩
      split
      · next hf =>
        refine (canonical_cons (splitFrom_ne_nil _ _)).mpr ⟨⟨hpx, ?_⟩, ih [] plain_nil A.limit_pos⟩
        simp [hf]
      · refine ih _ hpx ?_
        rw [List.length_append, List.length_singleton]
        omega

/-- Joining the blocks of a cut gives the data back. -/
theorem join_splitFrom (cur xs : List α) (hl : cur.length < A.limit) :
    A.join (A.splitFrom cur xs) = cur ++ xs := by
  induction xs generalizing cur with
  | nil => simp [splitFrom, join]
  | cons x xs ih =>
    unfold splitFrom
    split
    · next hx =>
      rw [join_cons (splitFrom_ne_nil _ _), if_pos hl, ih [] A.limit_pos,
        ← eq_zero_of_rank hx]
      rfl
    · split
      · next hf =>
        have hn : ¬ (cur ++ [x]).length < A.limit := by
          rw [List.length_append, List.length_singleton]
          omega
        rw [join_cons (splitFrom_ne_nil _ _), if_neg hn, ih [] A.limit_pos]
        simp
      · rw [ih _ (by rw [List.length_append, List.length_singleton]; omega)]
        simp

/-- Symbols that neither close nor fill the current block extend it. -/
theorem splitFrom_append (cur b xs : List α) (hp : A.Plain b)
    (hl : cur.length + b.length < A.limit) :
    A.splitFrom cur (b ++ xs) = A.splitFrom (cur ++ b) xs := by
  induction b generalizing cur with
  | nil => simp
  | cons x b ih =>
    have hx := plain_cons.mp hp
    rw [List.length_cons] at hl
    rw [List.cons_append, splitFrom, if_neg hx.1, if_neg (by omega),
      ih (cur ++ [x]) hx.2 (by rw [List.length_append, List.length_singleton]; omega)]
    simp

/-- A full block is closed at once. -/
theorem splitFrom_full (b xs : List α) (hp : A.Plain b) (hl : b.length = A.limit) :
    A.splitFrom [] (b ++ xs) = b :: A.splitFrom [] xs := by
  rcases List.eq_nil_or_concat b with rfl | ⟨c, x, rfl⟩
  · have := A.limit_pos
    simp only [List.length_nil] at hl
    omega
  · rw [List.concat_eq_append] at hp hl ⊢
    have hx := plain_append.mp hp
    rw [List.length_append, List.length_singleton] at hl
    rw [List.append_assoc, splitFrom_append [] c _ hx.1 (by simp only [List.length_nil]; omega),
      List.singleton_append, List.nil_append, splitFrom,
      if_neg (plain_cons.mp hx.2).1, if_pos hl]

/-- Cutting the data of canonical blocks gives the blocks back. -/
theorem splitFrom_join : ∀ {bs : List (List α)}, A.Canonical bs → A.splitFrom [] (A.join bs) = bs
  | [], h => False.elim h
  | [b], h => by
    have hs := splitFrom_append [] b [] h.1 (by simpa using h.2)
    simpa [splitFrom, join] using hs
  | b :: c :: bs, h => by
    have ih := splitFrom_join h.2
    rw [join]
    split
    · next hl =>
      rw [splitFrom_append [] b _ h.1.1 (by simpa using hl), List.singleton_append, splitFrom,
        if_pos rank_zero, ih, List.nil_append]
    · next hl =>
      rw [List.nil_append, splitFrom_full b _ h.1.1 (by have := h.1.2; omega), ih]

/-- Serialisation of block lists in a row. -/
theorem ser_append (bs cs : List (List α)) : A.ser (bs ++ cs) = A.ser bs ++ A.ser cs := by
  induction bs with
  | nil => rfl
  | cons b bs ih => simp [ser, ih]

/-- The open block is part of what cutting serialises. -/
theorem length_lt_ser_splitFrom (cur xs : List α) :
    cur.length < (A.ser (A.splitFrom cur xs)).length := by
  induction xs generalizing cur with
  | nil => simp [splitFrom, ser]
  | cons x xs ih =>
    unfold splitFrom
    split
    · simp only [ser, List.length_cons, List.length_append]
      omega
    · split
      · simp only [ser, List.length_cons, List.length_append]
        omega
      · have := ih (cur ++ [x])
        simp only [List.length_append, List.length_singleton] at this
        omega

/-- Only the empty frame has no block. -/
theorem parse_eq_nil {f : List α} : A.parse f = some [] ↔ f = [] := by
  cases f with
  | nil => simp [parse]
  | cons c rest =>
    rw [parse]
    split <;> simp

/-- Parsing undoes serialisation of blocks within the limit. -/
theorem parse_ser (bs : List (List α)) (h : ∀ b ∈ bs, b.length ≤ A.limit) :
    A.parse (A.ser bs) = some bs := by
  induction bs with
  | nil => rw [ser, parse]
  | cons b bs ih =>
    have hb := h b List.mem_cons_self
    have hr : A.rank (A.code b.length) - 1 = b.length := by rw [rank_code hb]; omega
    have hn : ¬ (A.rank (A.code b.length) = 0 ∨ (b ++ A.ser bs).length < b.length) := by
      rw [rank_code hb, List.length_append]
      omega
    rw [ser, parse, hr, if_neg hn, List.drop_left, List.take_left,
      ih (fun c hc ↦ h c (List.mem_cons_of_mem _ hc)), Option.map_some]

/-- The empty frame stands for no data. -/
theorem decode_nil : A.decode [] = some [] := by rw [decode, parse, Option.map_some, join]

/-- A zero, or a code symbol announcing more than follows, has no data. -/
theorem decode_cons_eq_none {c : α} {rest : List α}
    (h : A.rank c = 0 ∨ rest.length < A.rank c - 1) : A.decode (c :: rest) = none := by
  rw [decode, parse, if_pos h, Option.map_none]

/-- A frame stands for its first block, a zero where one is due, and the rest of its data. -/
theorem decode_cons {c : α} {rest : List α}
    (h : ¬ (A.rank c = 0 ∨ rest.length < A.rank c - 1)) :
    A.decode (c :: rest) = (A.decode (rest.drop (A.rank c - 1))).map (fun d ↦
      rest.take (A.rank c - 1) ++
        ((if A.rank c - 1 < A.limit ∧ rest.drop (A.rank c - 1) ≠ [] then [A.zero] else []) ++
          d)) := by
  have hl : (rest.take (A.rank c - 1)).length = A.rank c - 1 := by
    rw [List.length_take]
    omega
  rw [decode, parse, if_neg h, decode]
  cases hp : A.parse (rest.drop (A.rank c - 1)) with
  | none => rfl
  | some bs =>
    simp only [Option.map_some]
    by_cases hbs : bs = []
    · subst hbs
      rw [parse_eq_nil] at hp
      simp [join, hp]
    · have hd : rest.drop (A.rank c - 1) ≠ [] := fun hd ↦ by
        rw [parse_eq_nil.mpr hd] at hp
        exact hbs (Option.some.inj hp).symm
      rw [join_cons hbs, hl]
      simp only [hd, ne_eq, not_false_eq_true, and_true]

/-- A parsed frame is the serialisation of its blocks, all within the limit. -/
theorem ser_of_parse {f : List α} {bs : List (List α)} (h : A.parse f = some bs) :
    A.ser bs = f ∧ ∀ b ∈ bs, b.length ≤ A.limit := by
  induction f using parse.induct A generalizing bs with
  | case1 =>
    rw [parse] at h
    cases h
    exact ⟨rfl, by simp⟩
  | case2 c rest hc =>
    rw [parse, if_pos hc] at h
    cases h
  | case3 c rest hc ih =>
    rw [parse, if_neg hc] at h
    obtain ⟨cs, hcs, rfl⟩ := Option.map_eq_some_iff.mp h
    have hi := ih hcs
    have hl : (rest.take (A.rank c - 1)).length = A.rank c - 1 := by
      rw [List.length_take]
      omega
    have hr := A.rank_lt c
    constructor
    · have hcode : A.code (A.rank c - 1) = c := by
        rw [code, show A.rank c - 1 + 1 = A.rank c by omega, A.symbol_rank]
      rw [ser, hl, hcode, hi.1, List.take_append_drop]
    · intro b hb
      rcases List.mem_cons.mp hb with rfl | hb
      · omega
      · exact hi.2 b hb

/-- A parsed frame without zeros has blocks without zeros. -/
theorem plain_of_ser {bs : List (List α)} (h : A.Plain (A.ser bs)) : ∀ b ∈ bs, A.Plain b := by
  induction bs with
  | nil => simp
  | cons b bs ih =>
    have hb := plain_append.mp (plain_cons.mp h).2
    intro c hc
    rcases List.mem_cons.mp hc with rfl | hc
    · exact hb.1
    · exact ih hb.2 c hc

/-- A serialisation has no zero when its blocks are plain and within the limit. -/
theorem plain_ser (bs : List (List α)) (hp : ∀ b ∈ bs, A.Plain b)
    (hl : ∀ b ∈ bs, b.length ≤ A.limit) : A.Plain (A.ser bs) := by
  induction bs with
  | nil => exact plain_nil
  | cons b bs ih =>
    refine plain_cons.mpr ⟨?_, plain_append.mpr ⟨hp b List.mem_cons_self, ?_⟩⟩
    · rw [rank_code (hl b List.mem_cons_self)]
      omega
    · exact ih (fun c hc ↦ hp c (List.mem_cons_of_mem _ hc))
        (fun c hc ↦ hl c (List.mem_cons_of_mem _ hc))

/-- Every block of a canonical list is plain and within the limit. -/
theorem Canonical.mem : ∀ {bs : List (List α)}, A.Canonical bs →
    ∀ b ∈ bs, A.Plain b ∧ b.length ≤ A.limit
  | [], h, _, _ => False.elim h
  | [b], h, c, hc => by
    rw [List.mem_singleton.mp hc]
    exact ⟨h.1, Nat.le_of_lt h.2⟩
  | b :: d :: bs, h, c, hc => by
    rcases List.mem_cons.mp hc with rfl | hc
    · exact h.1
    · exact Canonical.mem h.2 c hc

/-- The blocks of a whole data string are canonical. -/
theorem canonical_split (d : List α) : A.Canonical (A.splitFrom [] d) :=
  canonical_splitFrom [] d plain_nil A.limit_pos

/-- A frame contains no zero. -/
theorem plain_encode (d : List α) : A.Plain (A.encode d) :=
  plain_ser _ (fun b hb ↦ ((canonical_split d).mem b hb).1)
    (fun b hb ↦ ((canonical_split d).mem b hb).2)

/-- Decoding a frame gives the data back. -/
theorem decode_encode (d : List α) : A.decode (A.encode d) = some d := by
  rw [decode, encode, parse_ser _ (fun b hb ↦ ((canonical_split d).mem b hb).2),
    Option.map_some, join_splitFrom [] d A.limit_pos, List.nil_append]

/-- A zero-free string decodes to just the data it stands for. -/
theorem decode_eq_some_iff {f d : List α} (hf : A.Plain f) :
    A.decode f = some d ↔ A.Stuffs d f := by
  constructor
  · intro h
    obtain ⟨bs, hbs, hd⟩ := Option.map_eq_some_iff.mp h
    obtain ⟨hser, hl⟩ := ser_of_parse hbs
    have hp := plain_of_ser (hser ▸ hf)
    exact ⟨bs, fun b hb ↦ ⟨hp b hb, hl b hb⟩, hser, hd⟩
  · rintro ⟨bs, hbs, rfl, rfl⟩
    rw [decode, parse_ser bs (fun b hb ↦ (hbs b hb).2), Option.map_some]

/-- Plain blocks within the limit are canonical, or become so by an empty block behind a full
one, which adds no data. -/
theorem canonical_or_concat {bs : List (List α)} (hne : bs ≠ [])
    (h : ∀ b ∈ bs, A.Plain b ∧ b.length ≤ A.limit) :
    A.Canonical bs ∨ A.Canonical (bs ++ [[]]) ∧ A.join (bs ++ [[]]) = A.join bs := by
  induction bs with
  | nil => exact absurd rfl hne
  | cons b bs ih =>
    have hb := h b List.mem_cons_self
    by_cases hbs : bs = []
    · subst hbs
      rcases Nat.lt_or_ge b.length A.limit with hlt | hge
      · exact Or.inl ⟨hb.1, hlt⟩
      · refine Or.inr ⟨⟨hb, plain_nil, A.limit_pos⟩, ?_⟩
        simp [join, Nat.not_lt.mpr hge]
    · have hmore : bs ++ [[]] ≠ [] := List.append_ne_nil_of_left_ne_nil hbs _
      rcases ih hbs (fun c hc ↦ h c (List.mem_cons_of_mem _ hc)) with hc | ⟨hc, hj⟩
      · exact Or.inl ((canonical_cons hbs).mpr ⟨hb, hc⟩)
      · refine Or.inr ⟨(canonical_cons hmore).mpr ⟨hb, hc⟩, ?_⟩
        rw [List.cons_append, join_cons hmore, join_cons hbs, hj]

/-- The frame of canonical blocks' data is their serialisation. -/
theorem encode_join {bs : List (List α)} (h : A.Canonical bs) :
    A.encode (A.join bs) = A.ser bs := by
  rw [encode, splitFrom_join h]

/-- A nonempty string that stands for data is its frame, but for an empty block at the end. -/
theorem Stuffs.eq_encode {f d : List α} (h : A.Stuffs d f) (hne : f ≠ []) :
    f = A.encode d ∨ f ++ [A.code 0] = A.encode d := by
  rcases h with ⟨bs, hbs, rfl, rfl⟩
  have hbne : bs ≠ [] := by
    rintro rfl
    exact hne rfl
  rcases canonical_or_concat hbne hbs with hc | ⟨hc, hj⟩
  · exact Or.inl (encode_join hc).symm
  · refine Or.inr ?_
    rw [← hj, encode_join hc, ser_append]
    rfl

/-- Serialisation adds one symbol a block; a full block repays it by no zero. -/
theorem length_ser : ∀ {bs : List (List α)}, A.Canonical bs →
    (A.ser bs).length = (A.join bs).length + 1 + A.fullBlocks bs
  | [], h => False.elim h
  | [b], h => by
    have hn : ¬ b.length = A.limit := Nat.ne_of_lt h.2
    simp [ser, join, fullBlocks, hn]
  | b :: c :: bs, h => by
    have ih := length_ser h.2
    have hc : A.fullBlocks (b :: c :: bs) =
        A.fullBlocks (c :: bs) + if b.length = A.limit then 1 else 0 := by
      simp only [fullBlocks, List.countP_cons (l := c :: bs), decide_eq_true_eq]
    have hb := h.1.2
    rw [ser, List.length_cons, List.length_append, ih, join, List.length_append, List.length_append,
      hc]
    by_cases hl : b.length < A.limit
    · rw [if_pos hl, if_neg (by omega), List.length_singleton]
      omega
    · rw [if_neg hl, if_pos (by omega), List.length_nil]
      omega

/-- Full blocks consist of data. -/
theorem fullBlocks_mul_le : ∀ bs : List (List α), A.fullBlocks bs * A.limit ≤ (A.join bs).length
  | [] => by simp [fullBlocks]
  | [b] => by
    by_cases hl : b.length = A.limit <;> simp [fullBlocks, join, hl]
  | b :: c :: bs => by
    have ih := fullBlocks_mul_le (c :: bs)
    have hc : A.fullBlocks (b :: c :: bs) =
        A.fullBlocks (c :: bs) + if b.length = A.limit then 1 else 0 := by
      simp only [fullBlocks, List.countP_cons (l := c :: bs), decide_eq_true_eq]
    rw [join, List.length_append, List.length_append, hc, Nat.add_mul]
    split <;> omega

/-- The exact size of a frame. -/
theorem length_encode (d : List α) :
    (A.encode d).length = d.length + 1 + A.fullBlocks (A.splitFrom [] d) := by
  rw [encode, length_ser (canonical_split d), join_splitFrom [] d A.limit_pos, List.nil_append]

/-- The overhead of a frame is one symbol and one more for every `limit` symbols of data. -/
theorem length_encode_le (d : List α) :
    (A.encode d).length ≤ d.length + d.length / A.limit + 1 := by
  have hf := fullBlocks_mul_le (A := A) (A.splitFrom [] d)
  rw [join_splitFrom [] d A.limit_pos, List.nil_append] at hf
  have hd := (Nat.le_div_iff_mul_le A.limit_pos).mpr hf
  rw [length_encode]
  omega

/-- No block is longer than the data. -/
theorem length_le_join : ∀ (bs : List (List α)), ∀ b ∈ bs, b.length ≤ (A.join bs).length
  | [], _, hb => absurd hb List.not_mem_nil
  | [b], c, hc => Nat.le_of_eq (by rw [List.mem_singleton.mp hc, join])
  | b :: d :: bs, c, hc => by
    rw [join, List.length_append, List.length_append]
    rcases List.mem_cons.mp hc with rfl | hc
    · omega
    · have := length_le_join (d :: bs) c hc
      omega

/-- Plain blocks of short data are canonical: none of them can be full. -/
theorem canonical_of_short {bs : List (List α)} (hne : bs ≠ []) (hp : ∀ b ∈ bs, A.Plain b)
    (hl : (A.join bs).length < A.limit) : A.Canonical bs := by
  have hlt : ∀ b ∈ bs, b.length < A.limit := fun b hb ↦
    Nat.lt_of_le_of_lt (length_le_join bs b hb) hl
  clear hl
  induction bs with
  | nil => exact absurd rfl hne
  | cons b bs ih =>
    have hb := hp b List.mem_cons_self
    have hbl := hlt b List.mem_cons_self
    cases bs with
    | nil => exact ⟨hb, hbl⟩
    | cons c cs =>
      exact ⟨⟨hb, Nat.le_of_lt hbl⟩, ih (by simp) (fun d hd ↦ hp d (List.mem_cons_of_mem _ hd))
        (fun d hd ↦ hlt d (List.mem_cons_of_mem _ hd))⟩

/-- Short data has no full block. -/
theorem fullBlocks_of_short {bs : List (List α)} (hl : (A.join bs).length < A.limit) :
    A.fullBlocks bs = 0 := by
  have hf := fullBlocks_mul_le (A := A) bs
  rcases Nat.eq_zero_or_pos (A.fullBlocks bs) with h | h
  · exact h
  · have := Nat.mul_le_mul_right A.limit h
    omega

/-- A nonempty zero-free frame of short data is the encoder's own, one symbol longer than
the data. -/
theorem eq_encode_of_short {f d : List α} (hf : A.Plain f) (hne : f ≠ [])
    (hd : A.decode f = some d) (hl : d.length < A.limit) :
    f = A.encode d ∧ f.length = d.length + 1 := by
  obtain ⟨bs, hbs, rfl⟩ := Option.map_eq_some_iff.mp hd
  obtain ⟨hser, -⟩ := ser_of_parse hbs
  have hbne : bs ≠ [] := by
    rintro rfl
    exact hne hser.symm
  have hc := canonical_of_short hbne (plain_of_ser (hser ▸ hf)) hl
  have hlen := length_ser hc
  rw [fullBlocks_of_short hl] at hlen
  rw [encode_join hc, hser]
  exact ⟨rfl, hser ▸ hlen⟩

end Alphabet

end BlueROV2.Base.Cobs
