import Mathlib.Data.List.Basic
import BlueROV2.Driver.Client
import BlueROV2.Firmware.Client
import BlueROV2.Link.Codecs

/-!
# What the receivers make of a stream

Library `Link`. The read thread of the Pi's `client.cpp` and the Teensy's `poll_command`,
each over streams of any bytes cut in any way: what the Pi dispatches of the packets the
Teensy sends, and which packets both of them see in one stream.
-/

namespace BlueROV2.Link

open BlueROV2.Base BlueROV2.Wire
open Firmware (Packet CommandHandlers)

/-! ### From the Teensy to the Pi -/

/-- The bytes `encode` writes for a packet into a buffer of the size it asks for. -/
def encoded (p : Packet) : List UInt8 :=
  match Firmware.encode p (List.replicate Firmware.maxEncodedSize 0) Firmware.maxEncodedSize with
  | .ok (n, out) => out.take n.toNat
  | .error _ => []

/-- They are the delimited frame of the packet's message. -/
theorem encoded_eq {p : Packet} (hp : p.size ≤ Firmware.maxPayloadSize) :
    encoded p = frame Driver.calculateCrc p.message ++ [0] := by
  have hmax : Firmware.maxPayloadSize = 64 := rfl
  have hcap : Firmware.maxEncodedSize = 69 := rfl
  rw [encoded, Firmware.encode_eq p _ _ hp (by omega) (Nat.le_of_eq List.length_replicate.symm)]
  simp only [crcOf_eq_calculateCrc, Int.toNat_natCast]
  rw [List.append_cons, List.take_left' (by rw [List.length_append, List.length_singleton])]

/-- The packet a complete frame is decoded to by the Pi, if it does not throw. -/
def decoded (f : List UInt8) : Option Driver.Packet := (Driver.decodePacket f).toOption

/-- It is the message the frame is read as. -/
theorem decoded_eq (f : List UInt8) : decoded f = readFrame Driver.calculateCrc f := by
  have h := Driver.decodePacket_eq f
  rw [decoded]
  cases hr : readFrame Driver.calculateCrc f with
  | none =>
    rw [hr] at h
    obtain ⟨what, hw⟩ := h
    rw [hw]
    rfl
  | some m =>
    rw [hr] at h
    have hok : Driver.decodePacket f = .ok m := h
    rw [hok]
    rfl

/-- The packets that the complete frames of a stream decode to. -/
def decodedIn (s : List UInt8) : List Driver.Packet :=
  ((Framing.complete 0 s).filter (· ≠ [])).filterMap decoded

/-- They are the messages of the stream. -/
theorem decodedIn_eq (s : List UInt8) : decodedIn s = messages Driver.calculateCrc s := by
  rw [decodedIn, messages, show decoded = readFrame Driver.calculateCrc from funext decoded_eq]

/-- The frames the Teensy sends are the frames of its packets' messages. -/
theorem flatMap_encoded {packets : List Packet}
    (h : ∀ p ∈ packets, p.size ≤ Firmware.maxPayloadSize) :
    packets.flatMap encoded =
      (packets.map Packet.message).flatMap (fun m ↦ frame Driver.calculateCrc m ++ [0]) := by
  rw [List.flatMap_map]
  exact List.flatMap_congr fun p hp ↦ encoded_eq (h p hp)

/-- Behind a received string, the first frame completes what the string left unfinished and
the other frames are read as themselves. -/
theorem messages_downlink (g : List UInt8) (m : Message) (ms : List Message) :
    messages Driver.calculateCrc
        (g ++ (m :: ms).flatMap (fun m ↦ frame Driver.calculateCrc m ++ [0])) =
      decodedIn g ++
        ((decoded (Framing.unfinished 0 g ++ frame Driver.calculateCrc m)).toList ++ ms) := by
  have hfree : (0 : UInt8) ∉ Framing.unfinished 0 g ++ frame Driver.calculateCrc m := by
    rw [List.mem_append, not_or]
    exact ⟨Framing.notMem_unfinished 0 g, notMem_frame m⟩
  have hne : Framing.unfinished 0 g ++ frame Driver.calculateCrc m ≠ [] := fun h ↦
    frame_ne_nil m (List.append_eq_nil_iff.mp h).2
  rw [messages_append, decodedIn_eq, decoded_eq, List.flatMap_cons]
  congr 1
  rw [List.append_assoc, List.singleton_append, ← List.append_assoc, messages_segment hfree,
    if_neg hne, messages_frames]

/-- Whatever was received before, nothing is left unfinished behind the frames. -/
theorem unfinished_downlink (g : List UInt8) (m : Message) (ms : List Message) :
    Framing.unfinished 0 (g ++ (m :: ms).flatMap (fun m ↦ frame Driver.calculateCrc m ++ [0])) =
      [] := by
  apply Framing.unfinished_of_end
  refine Or.inr ?_
  obtain ⟨l, x, hl⟩ : ∃ l x, m :: ms = l ++ [x] :=
    ⟨_, _, (List.dropLast_append_getLast (List.cons_ne_nil m ms)).symm⟩
  refine ⟨g ++ (l.flatMap (fun m ↦ frame Driver.calculateCrc m ++ [0]) ++
    frame Driver.calculateCrc x), ?_⟩
  simp [hl]

section

variable {σ : Type}

/-- The packets the Teensy sends reach the Pi's callbacks. Its encoder accepts each of them;
and behind any received bytes `g`, however the stream is cut into chunks, the read thread
dispatches the packets of the complete frames in `g`, at most one packet for the segment
where `g` meets the first frame, and every further packet once and in order. The first packet
arrives as well when `g` leaves nothing unfinished. Nothing stays behind. -/
theorem downlink_delivers (callbacks : Driver.Callbacks σ) (p : Packet) (packets : List Packet)
    (hsize : ∀ q ∈ p :: packets, q.size ≤ Firmware.maxPayloadSize) :
    (∀ q ∈ p :: packets, ∀ out : List UInt8, out.length = Firmware.maxEncodedSize →
      ∃ n buffer, Firmware.encode q out Firmware.maxEncodedSize = .ok (n, buffer) ∧ n ≠ -1) ∧
    ∀ (g : List UInt8) (chunks : List (List UInt8)),
      chunks.flatten = g ++ (p :: packets).flatMap encoded →
      ∃ meeting : Option Driver.Packet,
        (g = [] ∨ (∃ t, g = t ++ [0]) → meeting = some p.message) ∧
        ∀ s, Driver.pollConnection (Driver.dispatch callbacks) (chunks.map .data) .start s =
          ((decodedIn g ++ meeting.toList ++ packets.map Packet.message).foldlM
            (fun s packet ↦ Driver.dispatch callbacks packet s) s >>= fun s ↦
              .ok (.start, s)) := by
  refine ⟨?_, ?_⟩
  · intro q hq out ho
    have hmax : Firmware.maxPayloadSize = 64 := rfl
    have hcap : Firmware.maxEncodedSize = 69 := rfl
    have hqs := hsize q hq
    exact ⟨_, _, Firmware.encode_eq q out _ hqs (by omega) (by omega), by omega⟩
  · intro g chunks hchunks
    rw [flatMap_encoded hsize, List.map_cons] at hchunks
    refine ⟨decoded (Framing.unfinished 0 g ++ frame Driver.calculateCrc p.message), ?_, ?_⟩
    · intro hg
      rw [Framing.unfinished_of_end 0 g hg, List.nil_append, decoded_eq, readFrame_frame]
    · intro s
      rw [Driver.pollConnection_eq _ _ _ _ List.not_mem_nil]
      simp only [Driver.Reader.start, List.nil_append, hchunks, messages_downlink,
        unfinished_downlink, List.append_assoc]

end

/-- A callback that records the packets it is handed. -/
def record (packet : Driver.Packet) (log : List Driver.Packet) : Cpp (List Driver.Packet) :=
  pure (log ++ [packet])

/-- One packet sent twice behind a cut frame, read in four chunks. -/
theorem downlink_delivers_twice :
    Driver.pollConnection (Driver.dispatch fun _ ↦ [record])
      (List.map .data [[9], 0 :: encoded startPacket, [], encoded startPacket]) .start [] =
        .ok (.start, [startCommand, startCommand]) := by
  have hmessage : startPacket.message = startCommand :=
    carries_startCommand.message (by decide)
  obtain ⟨meeting, hmeeting, hpoll⟩ :=
    (downlink_delivers (fun _ ↦ [record]) startPacket [startPacket] (by simp [startPacket,
      Firmware.maxPayloadSize])).2 [9, 0] [[9], 0 :: encoded startPacket, [], encoded startPacket]
      (by simp)
  obtain rfl := hmeeting (Or.inr ⟨[9], rfl⟩)
  rw [hpoll, hmessage, List.map_singleton, hmessage]
  decide +kernel

/-! ### Both receivers -/

/-- The frames a serial buffer accepts are decoded to the messages of the stream that fit
into a packet. -/
theorem filterMap_received (s : List UInt8) :
    (Firmware.accepted s).filterMap Firmware.received =
      (messages Driver.calculateCrc s).filter
        (fun m ↦ m.payload.length ≤ Firmware.maxPayloadSize) := by
  have hmax : Firmware.maxPayloadSize = 64 := rfl
  have hcap : Firmware.maxEncodedSize = 69 := rfl
  rw [messages, List.filter_filterMap, Firmware.accepted, List.filterMap_filter,
    List.filterMap_filter]
  apply List.filterMap_congr
  intro f hf
  have hfree := Framing.notMem_of_complete 0 hf
  by_cases hlong : f.length ≤ Firmware.maxEncodedSize
  · simp only [hlong, and_true]
    rfl
  · -- an overlong frame is nobody's frame, or that of a message too long for a packet
    have hnone : Firmware.received f = none := by
      rw [Firmware.received, Option.filter_eq_none_iff]
      intro m hm hl
      have hlm : m.payload.length ≤ 64 := of_decide_eq_true hl
      rw [eq_frame_of_readFrame hfree hm (by omega), length_frame (by omega)] at hlong
      omega
    rw [if_neg (by simp [hlong])]
    split
    · exact hnone.symm
    · rfl

variable {W : Type}

/-- Recording a list of packets records that list. -/
theorem foldlM_record (packets log : List Driver.Packet) :
    packets.foldlM (fun log packet ↦ record packet log) log = .ok (log ++ packets) := by
  induction packets generalizing log with
  | nil => rw [List.append_nil]; rfl
  | cons packet packets ih =>
    rw [List.foldlM_cons, record, Cpp.pure_eq, Cpp.ok_bind, ih, List.append_assoc,
      List.singleton_append]

/-- The read thread decodes the messages of its stream. -/
theorem pollConnection_record (chunks : List (List UInt8)) :
    Driver.pollConnection record (chunks.map .data) .start [] =
      .ok (⟨Framing.unfinished 0 chunks.flatten, true⟩,
        messages Driver.calculateCrc chunks.flatten) := by
  rw [Driver.pollConnection_eq _ _ _ _ List.not_mem_nil, foldlM_record, Cpp.ok_bind]
  rfl

/-- On every stream and for every cutting of it on either side, the packets decoded by the
Teensy are those decoded by the Pi that fit into its packets, once its polls have taken all
bytes; before that they are the first of them. Enough polls take all bytes. -/
theorem receivers_agree (handlers : CommandHandlers W) (w : W)
    (arrivals chunks : List (List UInt8)) (h : arrivals.flatten = chunks.flatten) :
    ∃ trace client w' reader packets,
      Firmware.pollCommands handlers arrivals .start w = .ok (trace, client, w') ∧
      Driver.pollConnection record (chunks.map .data) .start [] = .ok (reader, packets) ∧
      Firmware.messagesOf trace.flatten <+:
        packets.filter (fun m ↦ m.payload.length ≤ Firmware.maxPayloadSize) ∧
      (client.available = [] → Firmware.messagesOf trace.flatten =
        packets.filter (fun m ↦ m.payload.length ≤ Firmware.maxPayloadSize)) ∧
      ∀ n, client.available.length ≤ n → ∃ more last,
        Firmware.pollCommands handlers (List.replicate n []) client w' = .ok (more, last) ∧
        last.1.available = [] := by
  obtain ⟨consumed, trace, client, hav, hpoll, htrace, -, hholds⟩ :=
    Firmware.pollCommands_eq handlers arrivals .start [] w Firmware.SerialBuffer.holds_start
      List.not_mem_nil
  simp only [List.nil_append] at hpoll htrace hholds
  have hs : chunks.flatten = consumed ++ client.available := by
    rw [← h, ← hav]
    rfl
  have hmsgs : Firmware.messagesOf trace.flatten =
      (messages Driver.calculateCrc consumed).filter
        (fun m ↦ m.payload.length ≤ Firmware.maxPayloadSize) := by
    rw [htrace, Firmware.messagesOf_serveAll, filterMap_received]
  refine ⟨trace, client, _, _, _, hpoll, pollConnection_record chunks, ?_, ?_, ?_⟩
  · rw [hs, messages_append, List.filter_append, hmsgs]
    exact List.prefix_append _ _
  · intro hnil
    rw [hs, hnil, List.append_nil, hmsgs]
  · intro n hn
    obtain ⟨more, last, w', hmore, hnil⟩ := Firmware.pollCommands_drain handlers n client _
      (Firmware.serveAll handlers (Firmware.accepted consumed) w).2 hholds
      (Framing.notMem_unfinished 0 consumed) hn
    exact ⟨more, (last, w'), hmore, hnil⟩

/-- One command, cut in two for the Teensy and whole for the Pi: both decode it, and nothing
else. -/
theorem receivers_agree_startCommand :
    ∃ trace client, Firmware.pollCommands (W := Unit) (Vector.replicate 3 none)
      [[5, 16, 1, 1], [1, 2, 90, 0]] .start () = .ok (trace, client, ()) ∧
      client.available = [] ∧ Firmware.messagesOf trace.flatten = [startCommand] ∧
      Driver.pollConnection record [.data [5, 16, 1, 1, 1, 2, 90, 0]] .start [] =
        .ok (⟨[], true⟩, [startCommand]) := by
  obtain ⟨trace, client, w', reader, packets, hpoll, hpi, -, hall, -⟩ :=
    receivers_agree (W := Unit) (Vector.replicate 3 none) () [[5, 16, 1, 1], [1, 2, 90, 0]]
      [[5, 16, 1, 1, 1, 2, 90, 0]] (by decide)
  have hpackets : Driver.pollConnection record [.data [5, 16, 1, 1, 1, 2, 90, 0]] .start [] =
      .ok (⟨[], true⟩, [startCommand]) := by decide +kernel
  have htaken : (Firmware.pollCommands (W := Unit) (Vector.replicate 3 none)
      [[5, 16, 1, 1], [1, 2, 90, 0]] .start ()).toOption.map (·.2.1.available) = some [] := by
    decide +kernel
  rw [hpoll] at htaken
  have hnil : client.available = [] := Option.some.inj htaken
  obtain ⟨-, rfl⟩ := Prod.mk.inj (Except.ok.inj (hpi.symm.trans hpackets))
  exact ⟨trace, client, hpoll, hnil, hall hnil, hpackets⟩

end BlueROV2.Link
