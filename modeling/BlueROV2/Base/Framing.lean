/-!
# Streams cut at a delimiter

Library `Base`. A stream over any symbols is a sequence of complete segments, each ended by
a delimiter, followed by an unfinished one. Cutting is a left-to-right pass whose only state
is the unfinished segment, so it commutes with every cutting of the stream into chunks.
-/

namespace BlueROV2.Base.Framing

universe u

variable {α : Type u} [DecidableEq α] (z : α)

/-- The complete segments of a stream and the unfinished one, with `cur` received before. -/
def segment (cur : List α) : List α → List (List α) × List α
  | [] => ([], cur)
  | x :: xs =>
    if x = z then (cur :: (segment [] xs).1, (segment [] xs).2) else segment (cur ++ [x]) xs

/-- The complete segments of a stream, without their delimiters. -/
def complete (s : List α) : List (List α) := (segment z [] s).1

/-- What follows the last delimiter of a stream. -/
def unfinished (s : List α) : List α := (segment z [] s).2

/-- Cutting a stream in two continues from the unfinished segment of the first part. -/
theorem segment_append (cur s t : List α) :
    segment z cur (s ++ t) =
      ((segment z cur s).1 ++ (segment z (segment z cur s).2 t).1,
        (segment z (segment z cur s).2 t).2) := by
  induction s generalizing cur with
  | nil => rfl
  | cons x s ih =>
    rw [List.cons_append, segment, segment]
    split
    · rw [ih]
      rfl
    · exact ih _

/-- Symbols other than the delimiter extend the unfinished segment. -/
theorem segment_free (cur b s : List α) (hb : z ∉ b) :
    segment z cur (b ++ s) = segment z (cur ++ b) s := by
  induction b generalizing cur with
  | nil => simp
  | cons x b ih =>
    simp only [List.mem_cons, not_or] at hb
    rw [List.cons_append, segment, if_neg (Ne.symm hb.1), ih _ hb.2, List.append_assoc,
      List.singleton_append]

/-- A delimiter completes the segment begun before it. -/
theorem segment_delimiter (cur b s : List α) (hb : z ∉ b) :
    segment z cur (b ++ z :: s) =
      ((cur ++ b) :: (segment z [] s).1, (segment z [] s).2) := by
  rw [segment_free z cur b _ hb, segment, if_pos rfl]

/-- No segment contains the delimiter. -/
theorem segment_notMem (cur s : List α) (hc : z ∉ cur) :
    (∀ f ∈ (segment z cur s).1, z ∉ f) ∧ z ∉ (segment z cur s).2 := by
  induction s generalizing cur with
  | nil => exact ⟨by simp [segment], hc⟩
  | cons x s ih =>
    rw [segment]
    split
    · have hs := ih [] List.not_mem_nil
      refine ⟨?_, hs.2⟩
      intro f hf
      rcases List.mem_cons.mp hf with rfl | hf
      · exact hc
      · exact hs.1 f hf
    · next hx =>
      refine ih _ ?_
      simp only [List.mem_append, List.mem_singleton, not_or]
      exact ⟨hc, Ne.symm hx⟩

/-- Complete segments are free of the delimiter. -/
theorem notMem_of_complete {s f : List α} (h : f ∈ complete z s) : z ∉ f :=
  (segment_notMem z [] s List.not_mem_nil).1 f h

/-- The unfinished segment is free of the delimiter. -/
theorem notMem_unfinished (s : List α) : z ∉ unfinished z s :=
  (segment_notMem z [] s List.not_mem_nil).2

/-- The segments begun with delimiter-free symbols are those of the whole stream. -/
theorem segment_eq (cur s : List α) (hc : z ∉ cur) :
    segment z cur s = (complete z (cur ++ s), unfinished z (cur ++ s)) := by
  have h := segment_free z [] cur s hc
  rw [List.nil_append] at h
  rw [complete, unfinished, h]

/-- Complete segments of two streams in a row. -/
theorem complete_append (s t : List α) :
    complete z (s ++ t) = complete z s ++ complete z (unfinished z s ++ t) := by
  have h := segment_eq z (unfinished z s) t (notMem_unfinished z s)
  rw [complete, segment_append, ← unfinished, h]
  rfl

/-- The unfinished segment of two streams in a row. -/
theorem unfinished_append (s t : List α) :
    unfinished z (s ++ t) = unfinished z (unfinished z s ++ t) := by
  have h := segment_eq z (unfinished z s) t (notMem_unfinished z s)
  rw [unfinished, segment_append, ← unfinished, h]

/-- A delimited frame is one complete segment, and the stream behind it starts afresh. -/
theorem complete_frame (b s : List α) (hb : z ∉ b) :
    complete z (b ++ z :: s) = b :: complete z s := by
  rw [complete, segment_delimiter z [] b s hb, List.nil_append]
  rfl

/-- Nothing of a delimited frame is left unfinished. -/
theorem unfinished_frame (b s : List α) (hb : z ∉ b) :
    unfinished z (b ++ z :: s) = unfinished z s := by
  rw [unfinished, segment_delimiter z [] b s hb]
  rfl

/-- A stream without a delimiter has no complete segment. -/
theorem complete_of_notMem (b : List α) (hb : z ∉ b) : complete z b = [] := by
  have h := segment_free z [] b [] hb
  rw [List.append_nil] at h
  rw [complete, h]
  rfl

/-- A stream without a delimiter is unfinished as a whole. -/
theorem unfinished_of_notMem (b : List α) (hb : z ∉ b) : unfinished z b = b := by
  have h := segment_free z [] b [] hb
  rw [List.append_nil] at h
  rw [unfinished, h]
  rfl

/-- A stream that is empty or ends in a delimiter leaves nothing unfinished. -/
theorem unfinished_of_end (s : List α) (h : s = [] ∨ ∃ t, s = t ++ [z]) :
    unfinished z s = [] := by
  rcases h with rfl | ⟨t, rfl⟩
  · rfl
  · rw [unfinished_append]
    exact unfinished_frame z _ [] (notMem_unfinished z t)

end BlueROV2.Base.Framing
