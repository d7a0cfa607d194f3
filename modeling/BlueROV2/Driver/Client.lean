import BlueROV2.Driver.Packet

/-!
# The serial client on the Pi

Library `Driver`. `modules/autonomy_pi/ros/autonomy_teensy/src/client.cpp`. The read thread
appends what it reads to `accumulated_`, cuts complete frames off its front and dispatches
their packets. What a dispatch does to the rest of the program is a state `σ`.
-/

namespace BlueROV2.Driver

open BlueROV2.Base BlueROV2.Wire

variable {σ : Type}

/-- A registered callback. -/
abbrev Callback (σ : Type) := Packet → σ → Cpp σ

/-- The callbacks registered for every packet identifier, in order of registration;
`client.hpp:50`. -/
abbrev Callbacks (σ : Type) := PacketId → List (Callback σ)

/-- `register_callback`; `client.cpp:45–49`. -/
def registerCallback (callbacks : Callbacks σ) (packetId : PacketId) (callback : Callback σ) :
    Callbacks σ :=
  fun id ↦ if id = packetId then callbacks id ++ [callback] else callbacks id

/-- `dispatch`; `client.cpp:123–139`. -/
def dispatch (callbacks : Callbacks σ) (packet : Packet) (s : σ) : Cpp σ :=
  (callbacks packet.packetId).foldlM (fun s callback ↦ callback packet s) s

/-- What one `read_from_socket` yields: bytes, none of them after a timeout, or an I/O error. -/
inductive Chunk where
  | data (bytes : List UInt8)
  | error
  deriving DecidableEq, Repr

/-- The members of the client that its read thread changes. -/
structure Reader where
  accumulated : List UInt8
  connected : Bool
  deriving DecidableEq, Repr

/-- A client just constructed. -/
def Reader.start : Reader := ⟨[], true⟩

/-- `poll_connection`, over the results of its reads up to the one during which `running_` is
cleared; every packet decoded is handed to `deliver` in order; `client.cpp:97–121`. -/
def pollConnection (deliver : Packet → σ → Cpp σ) : List Chunk → Reader → σ → Cpp (Reader × σ)
  | [], r, s => pure (r, s)
  | .error :: _, r, s => pure ({ r with connected := false }, s)
  | .data bytes :: chunks, r, s =>
    if bytes.isEmpty then pollConnection deliver chunks r s
    else do
      let accumulated := r.accumulated ++ bytes
      let (packets, stop) ← decodePackets accumulated
      let s ← packets.foldlM (fun s packet ↦ deliver packet s) s
      pollConnection deliver chunks { r with accumulated := accumulated.drop stop } s

/-- The read thread delivers the messages of the stream it has seen, however it was cut into
chunks, and keeps its unfinished segment. -/
theorem pollConnection_eq (deliver : Packet → σ → Cpp σ) (chunks : List (List UInt8)) (r : Reader)
    (s : σ) (hr : (0 : UInt8) ∉ r.accumulated) :
    pollConnection deliver (chunks.map .data) r s =
      ((messages calculateCrc (r.accumulated ++ chunks.flatten)).foldlM
        (fun s packet ↦ deliver packet s) s >>= fun s ↦
          .ok ({ r with accumulated := Framing.unfinished 0 (r.accumulated ++ chunks.flatten) },
            s)) := by
  induction chunks generalizing r s with
  | nil =>
    rw [List.map_nil, pollConnection, List.flatten_nil, List.append_nil, messages_of_notMem hr,
      Framing.unfinished_of_notMem 0 _ hr]
    rfl
  | cons bytes chunks ih =>
    rw [List.map_cons, pollConnection, List.flatten_cons]
    by_cases hb : bytes = []
    · rw [hb, List.isEmpty_nil, if_pos rfl, ih r s hr, List.nil_append]
    · obtain ⟨stop, hdec, hstop⟩ := decodePackets_eq (r.accumulated ++ bytes)
      have hfree := Framing.notMem_unfinished (0 : UInt8) (r.accumulated ++ bytes)
      rw [if_neg (by simpa using hb)]
      simp only [hdec, Cpp.ok_bind, hstop]
      rw [← List.append_assoc, messages_append (r.accumulated ++ bytes),
        Framing.unfinished_append 0 (r.accumulated ++ bytes), List.foldlM_append, bind_assoc]
      congr 1
      funext s
      exact ih _ s hfree

/-- A frame that arrives in any chunks is delivered once. -/
theorem pollConnection_frame (deliver : Packet → σ → Cpp σ) (m : Message) {r : Reader} (s : σ)
    {chunks : List (List UInt8)} (hr : r.accumulated = [])
    (h : chunks.flatten = frame calculateCrc m ++ [0]) :
    pollConnection deliver (chunks.map .data) r s = (deliver m s).map fun s ↦ (r, s) := by
  have hfree : (0 : UInt8) ∉ r.accumulated := by
    rw [hr]
    exact List.not_mem_nil
  have hkeep : ({ r with accumulated := [] } : Reader) = r := by
    rw [← hr]
  rw [pollConnection_eq deliver chunks r s hfree, hr, List.nil_append, h, messages_frame,
    messages_of_notMem List.not_mem_nil, Framing.unfinished_frame 0 _ _ (notMem_frame m),
    Framing.unfinished_of_notMem 0 _ List.not_mem_nil, hkeep, List.foldlM_cons]
  cases deliver m s with
  | error e => rfl
  | ok s => rfl

end BlueROV2.Driver
