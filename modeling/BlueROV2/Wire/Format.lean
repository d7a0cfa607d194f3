import BlueROV2.Base.Cobs
import BlueROV2.Base.Framing
import BlueROV2.Wire.Identifiers

/-!
# The wire format both devices are meant to speak

Library `Wire`. A message is two identifiers and a payload; its frame is the stuffed string
of identifiers, payload and one check byte. The check is a parameter: nothing here depends
on which function of the preceding bytes it is, only on both ends using the same one.
-/

namespace BlueROV2.Wire

open BlueROV2.Base BlueROV2.Base.Cobs

/-- What a packet says, apart from how either device stores it. -/
structure Message where
  packetId : PacketId
  deviceId : DeviceId
  payload : List UInt8
  deriving DecidableEq, Repr

/-- The alphabet of the link: bytes, with at most 254 of them in a block. -/
def bytes : Alphabet UInt8 where
  limit := 254
  limit_pos := by decide
  rank := UInt8.toNat
  symbol := UInt8.ofNat
  rank_lt := UInt8.toNat_lt
  rank_symbol := fun n h ↦ by simp; omega
  symbol_rank := fun a ↦ by simp

/-- The zero of the alphabet is the packet delimiter of both devices. -/
@[simp] theorem zero_bytes : bytes.zero = 0 := rfl

/-- Plain byte strings are those without a delimiter. -/
theorem plain_bytes (f : List UInt8) : bytes.Plain f ↔ (0 : UInt8) ∉ f := by
  constructor
  · intro h h0
    exact h 0 h0 rfl
  · intro h x hx hr
    have : x = 0 := UInt8.toNat_inj.mp hr
    exact h (this ▸ hx)

/-- A zero code byte, or one announcing more bytes than follow, has no data. -/
theorem decode_cut {c : UInt8} {rest : List UInt8} (h : c = 0 ∨ rest.length < c.toNat - 1) :
    bytes.decode (c :: rest) = none :=
  Alphabet.decode_cons_eq_none (h.imp_left (fun hc ↦ by rw [hc]; rfl))

/-- A frame stands for its first block of `n` bytes, a zero unless the block is full or the
last one, and the data of what follows. -/
theorem decode_block {c : UInt8} {rest : List UInt8} {n : Nat} (hc : c ≠ 0)
    (hn : n = c.toNat - 1) (hle : n ≤ rest.length) :
    bytes.decode (c :: rest) = (bytes.decode (rest.drop n)).map
      ((rest.take n ++ if c ≠ 0xFF ∧ rest.drop n ≠ [] then [0] else []) ++ ·) := by
  have h0 : c.toNat ≠ 0 := fun h ↦ hc (UInt8.toNat_inj.mp h)
  have hlt : n < bytes.limit ↔ c ≠ 0xFF := by
    have h255 : c = 0xFF ↔ c.toNat = 255 := by rw [← UInt8.toNat_inj]; rfl
    have hmax := c.toNat_lt
    have hlim : bytes.limit = 254 := rfl
    rw [ne_eq, h255]
    omega
  have hrank : bytes.rank c - 1 = n := hn.symm
  rw [Alphabet.decode_cons (by rw [not_or, hrank]; exact ⟨h0, by omega⟩), hrank]
  simp only [hlt, zero_bytes, List.append_assoc]

/-- Header and payload of a message. -/
def Message.body (m : Message) : List UInt8 := m.packetId.byte :: m.deviceId.byte :: m.payload

variable (check : List UInt8 → UInt8)

/-- The frame of a message, without its delimiter. -/
def frame (m : Message) : List UInt8 := bytes.encode (m.body ++ [check m.body])

/-- Read checked bytes back into a message. -/
def readBody (d : List UInt8) : Option Message :=
  match d.dropLast, d.getLast? with
  | p :: v :: payload, some c =>
    if c = check (p :: v :: payload) then some ⟨⟨p⟩, ⟨v⟩, payload⟩ else none
  | _, _ => none

/-- The message of a frame, if it has one. -/
def readFrame (f : List UInt8) : Option Message := (bytes.decode f).bind (readBody check)

/-- The messages of a stream: those of its complete nonempty segments. -/
def messages (s : List UInt8) : List Message :=
  ((Framing.complete 0 s).filter (· ≠ [])).filterMap (readFrame check)

variable {check}

/-- Checked bytes are read as a message exactly when they are its body and check byte. -/
theorem readBody_eq_some {d : List UInt8} {m : Message} :
    readBody check d = some m ↔ d = m.body ++ [check m.body] := by
  constructor
  · intro h
    unfold readBody at h
    split at h
    · next p v payload c hd hc =>
      split at h
      · next hcheck =>
        cases h
        obtain ⟨ys, rfl⟩ := List.getLast?_eq_some_iff.mp hc
        rw [List.dropLast_concat] at hd
        rw [Message.body, ← hcheck, hd]
      · cases h
    · cases h
  · rintro rfl
    rw [readBody, List.dropLast_concat, List.getLast?_concat]
    exact if_pos rfl

/-- A message has at least its header and its check byte. -/
theorem readBody_of_short {d : List UInt8} (h : d.length < 3) : readBody check d = none := by
  rw [Option.eq_none_iff_forall_ne_some]
  intro m hm
  rw [readBody_eq_some.mp hm] at h
  simp only [Message.body, List.length_append, List.length_cons, List.length_nil] at h
  omega

/-- Reading checked bytes that are long enough to hold a header and a check byte. -/
theorem readBody_append (b : List UInt8) (c p v : UInt8) (payload : List UInt8)
    (hb : b = p :: v :: payload) :
    readBody check (b ++ [c]) =
      if c = check b then some ⟨⟨p⟩, ⟨v⟩, payload⟩ else none := by
  subst hb
  rw [readBody, List.dropLast_concat, List.getLast?_concat]

/-- Data that is long enough consists of a header, a payload and a check byte. -/
theorem exists_body_of_three_le {d : List UInt8} (h : ¬ d.length < 3) :
    ∃ p v payload c, d = p :: v :: payload ++ [c] := by
  rcases List.eq_nil_or_concat d with rfl | ⟨b, c, rfl⟩
  · exact absurd (by decide) h
  · rcases b with _ | ⟨p, _ | ⟨v, payload⟩⟩
    · exact absurd (by simp) h
    · exact absurd (by simp) h
    · exact ⟨p, v, payload, c, List.concat_eq_append⟩

/-- A frame is read as its message. -/
theorem readFrame_frame (m : Message) : readFrame check (frame check m) = some m := by
  rw [readFrame, frame, Alphabet.decode_encode, Option.bind_some, readBody_eq_some]

/-- A frame has no delimiter inside. -/
theorem notMem_frame (m : Message) : (0 : UInt8) ∉ frame check m :=
  (plain_bytes _).mp (Alphabet.plain_encode _)

/-- A frame is never empty. -/
theorem frame_ne_nil (m : Message) : frame check m ≠ [] := by
  intro h
  have hl := Alphabet.length_encode (A := bytes) (m.body ++ [check m.body])
  rw [← frame, h, List.length_nil] at hl
  omega

/-- The empty string is no frame. -/
theorem readFrame_nil : readFrame check [] = none := by
  simp [readFrame, Alphabet.decode, Alphabet.parse, Alphabet.join, readBody]

/-- The size of a short message's frame: header, payload, check byte and one code byte. -/
theorem length_frame {m : Message} (h : m.payload.length < 251) :
    (frame check m).length = m.payload.length + 4 := by
  have hd := Alphabet.decode_encode (A := bytes) (m.body ++ [check m.body])
  have hs := Alphabet.eq_encode_of_short (Alphabet.plain_encode _) (frame_ne_nil m) hd
    (by
      simp only [Message.body, List.length_append, List.length_cons, List.length_nil, bytes]
      omega)
  rw [frame, hs.2]
  simp [Message.body]

/-- A delimiter-free string read as a short message is that message's frame. -/
theorem eq_frame_of_readFrame {f : List UInt8} {m : Message} (hf : (0 : UInt8) ∉ f)
    (hr : readFrame check f = some m) (hl : m.payload.length < 251) : f = frame check m := by
  have hne : f ≠ [] := by
    rintro rfl
    rw [readFrame_nil] at hr
    cases hr
  obtain ⟨d, hd, hm⟩ := Option.bind_eq_some_iff.mp hr
  rw [readBody_eq_some] at hm
  subst hm
  refine (Alphabet.eq_encode_of_short ((plain_bytes f).mpr hf) hne hd ?_).1
  simp only [Message.body, List.length_append, List.length_cons, List.length_nil, bytes]
  omega

/-- Messages of a stream continue from its unfinished segment. -/
theorem messages_append (s t : List UInt8) :
    messages check (s ++ t) =
      messages check s ++ messages check (Framing.unfinished 0 s ++ t) := by
  simp only [messages, Framing.complete_append 0 s t, List.filter_append, List.filterMap_append]

/-- A complete segment at the start of a stream contributes its message, if it has one. -/
theorem messages_segment {b : List UInt8} (hb : (0 : UInt8) ∉ b) (s : List UInt8) :
    messages check (b ++ 0 :: s) =
      (if b = [] then [] else (readFrame check b).toList) ++ messages check s := by
  rw [messages, Framing.complete_frame 0 b s hb, messages]
  by_cases hne : b = []
  · rw [List.filter_cons_of_neg (by simp [hne]), if_pos hne, List.nil_append]
  · rw [List.filter_cons_of_pos (by simp [hne]), if_neg hne]
    cases hr : readFrame check b with
    | none => rw [List.filterMap_cons_none hr]; rfl
    | some m => rw [List.filterMap_cons_some hr]; rfl

/-- A stream without a delimiter has no message yet. -/
theorem messages_of_notMem {b : List UInt8} (hb : (0 : UInt8) ∉ b) : messages check b = [] := by
  rw [messages, Framing.complete_of_notMem 0 b hb]
  rfl

/-- A delimited frame at the start of a stream is its first message. -/
theorem messages_frame (m : Message) (s : List UInt8) :
    messages check (frame check m ++ 0 :: s) = m :: messages check s := by
  rw [messages_segment (notMem_frame m), if_neg (frame_ne_nil m), readFrame_frame]
  rfl

/-- Delimited frames in a row are their messages. -/
theorem messages_frames (ms : List Message) :
    messages check (ms.flatMap (fun m ↦ frame check m ++ [0])) = ms := by
  induction ms with
  | nil => rfl
  | cons m ms ih =>
    rw [List.flatMap_cons, List.append_assoc, List.singleton_append, messages_frame, ih]

end BlueROV2.Wire
