import BlueROV2.Driver.Writing
import BlueROV2.Link.Receivers

/-!
# Commands of several threads on one port

Library `Link`. What `poll_command` receives on the Teensy of frames that threads on the Pi hand to
`Client::send` at the same time, when writes may fail half-way.
-/

namespace BlueROV2.Link

open BlueROV2.Base BlueROV2.Wire
open Driver.Writing (Call)
open Firmware (CommandHandlers)

/-- The calls whose whole frames begin behind a delimiter, among those of some turns. -/
def unharmed (s : Driver.Writing.State) (clean : Bool) : List Nat → List Nat
  | [] => []
  | i :: order =>
    if s.piece i = [] then unharmed s clean order
    else if (s.calls[i]?.map Call.frame) = some (s.piece i) then
      if clean then i :: unharmed s true order else unharmed s true order
    else unharmed s false order

/-- What a call writes is a part of the frame of its message, with its delimiter or without. -/
structure Writes (s : Driver.Writing.State) (message : Nat → Message) (i : Nat) : Prop where
  frame : s.calls[i]?.map Call.frame = some (frame Driver.calculateCrc (message i) ++ [0])
  piece : s.piece i <+: Wire.frame Driver.calculateCrc (message i) ++ [0]

variable {s : Driver.Writing.State} {message : Nat → Message}

/-- A part of a frame without its delimiter is free of delimiters. -/
private theorem notMem_of_cut {m : Message} {b : List UInt8}
    (hpiece : b <+: frame Driver.calculateCrc m ++ [0])
    (hcut : b ≠ frame Driver.calculateCrc m ++ [0]) : (0 : UInt8) ∉ b := by
  rcases List.prefix_concat_iff.mp hpiece with heq | hshort
  · exact absurd heq hcut
  · exact fun h0 ↦ notMem_frame m (hshort.subset h0)

/-- Behind an unfinished segment, the messages of the unharmed calls are read in order. -/
theorem unharmed_sublist (clean : Bool) (order : List Nat) (u : List UInt8) (hu : (0 : UInt8) ∉ u)
    (hclean : clean = true → u = []) (hw : ∀ i ∈ order, Writes s message i) :
    ((unharmed s clean order).map message).Sublist
      (messages Driver.calculateCrc (u ++ order.flatMap s.piece)) := by
  induction order generalizing clean u with
  | nil => exact List.nil_sublist _
  | cons i order ih =>
    have hrest : ∀ j ∈ order, Writes s message j := fun j hj ↦ hw j (List.mem_cons_of_mem _ hj)
    have hi := hw i List.mem_cons_self
    rw [unharmed, List.flatMap_cons, ← List.append_assoc]
    by_cases hempty : s.piece i = []
    · rw [if_pos hempty, hempty, List.append_nil]
      exact ih clean u hu hclean hrest
    · rw [if_neg hempty]
      by_cases hwhole : s.piece i = frame Driver.calculateCrc (message i) ++ [0]
      · have hfree : (0 : UInt8) ∉ u ++ frame Driver.calculateCrc (message i) := by
          rw [List.mem_append, not_or]
          exact ⟨hu, notMem_frame _⟩
        have hne : u ++ frame Driver.calculateCrc (message i) ≠ [] :=
          fun h ↦ frame_ne_nil _ (List.append_eq_nil_iff.mp h).2
        have hlater := ih true [] List.not_mem_nil (fun _ ↦ rfl) hrest
        rw [if_pos (by rw [hwhole, hi.frame]), hwhole, ← List.append_assoc, List.append_assoc,
          List.singleton_append, messages_segment hfree, if_neg hne]
        cases clean with
        | true =>
          rw [hclean rfl, List.nil_append, readFrame_frame]
          exact hlater.cons_cons _
        | false => exact hlater.trans (List.sublist_append_right _ _)
      · have hcut := notMem_of_cut hi.piece hwhole
        have hne : s.calls[i]?.map Call.frame ≠ some (s.piece i) := by
          rw [hi.frame]
          exact fun h ↦ hwhole (Option.some.inj h).symm
        rw [if_neg hne]
        apply ih false _ _ nofun hrest
        rw [List.mem_append, not_or]
        exact ⟨hu, hcut⟩

theorem unharmed_sublist_turns (clean : Bool) (order : List Nat) :
    (unharmed s clean order).Sublist order := by
  induction order generalizing clean with
  | nil => exact List.Sublist.refl _
  | cons i order ih =>
    rw [unharmed]
    split
    · exact (ih clean).cons i
    · split
      · split
        · exact (ih true).cons_cons i
        · exact (ih true).cons i
      · exact (ih false).cons i

/-- When every turn wrote its whole frame, these are all messages there are. -/
theorem messages_of_whole (order : List Nat)
    (hw : ∀ i ∈ order, s.piece i = frame Driver.calculateCrc (message i) ++ [0]) :
    messages Driver.calculateCrc (order.flatMap s.piece) = order.map message := by
  rw [List.flatMap_congr hw, ← messages_frames (order.map message), List.flatMap_map]

/-- Only calls that wrote nothing have their turns before that of a call. -/
def First (s : Driver.Writing.State) (order : List Nat) (i : Nat) : Prop :=
  ∃ between after, order = between ++ i :: after ∧ ∀ k ∈ between, s.piece k = []

/-- The frame of a call begins behind a part of the frame of another one. -/
def BehindCut (s : Driver.Writing.State) (order : List Nat) (i : Nat) : Prop :=
  ∃ before j rest, order = before ++ j :: rest ∧
    s.calls[j]?.map Call.frame ≠ some (s.piece j) ∧ s.piece j ≠ [] ∧ First s rest i

variable {order : List Nat} {i : Nat}

theorem First.cons (h : First s order i) {j : Nat} (hj : s.piece j = []) :
    First s (j :: order) i := by
  rcases h with ⟨between, after, heq, hall⟩
  refine ⟨j :: between, after, by rw [heq]; rfl, fun k hk ↦ ?_⟩
  rcases List.mem_cons.mp hk with rfl | hk
  · exact hj
  · exact hall k hk

theorem BehindCut.cons (h : BehindCut s order i) (j : Nat) : BehindCut s (j :: order) i := by
  rcases h with ⟨before, k, rest, heq, hcut⟩
  exact ⟨j :: before, k, rest, by rw [heq]; rfl, hcut⟩

/-- A whole frame is unharmed, or begins behind one that was cut off. -/
theorem unharmed_or_cut (clean : Bool) (order : List Nat) (hi : i ∈ order)
    (hne : s.piece i ≠ []) (hwhole : s.calls[i]?.map Call.frame = some (s.piece i)) :
    i ∈ unharmed s clean order ∨ (clean = false ∧ First s order i) ∨ BehindCut s order i := by
  induction order generalizing clean with
  | nil => cases hi
  | cons j order ih =>
    rw [unharmed]
    by_cases hij : i = j
    · subst hij
      rw [if_neg hne, if_pos hwhole]
      cases clean with
      | true => exact Or.inl List.mem_cons_self
      | false => exact Or.inr (Or.inl ⟨rfl, [], order, rfl, nofun⟩)
    · have hmem : i ∈ order := (List.mem_cons.mp hi).resolve_left hij
      by_cases hempty : s.piece j = []
      · rw [if_pos hempty]
        rcases ih clean hmem with hin | ⟨hclean, hfirst⟩ | hcut
        · exact Or.inl hin
        · exact Or.inr (Or.inl ⟨hclean, hfirst.cons hempty⟩)
        · exact Or.inr (Or.inr (hcut.cons j))
      · rw [if_neg hempty]
        by_cases hj : s.calls[j]?.map Call.frame = some (s.piece j)
        · rw [if_pos hj]
          rcases ih true hmem with hin | ⟨hclean, -⟩ | hcut
          · left
            cases clean with
            | true => exact List.mem_cons_of_mem _ hin
            | false => exact hin
          · cases hclean
          · exact Or.inr (Or.inr (hcut.cons j))
        · rw [if_neg hj]
          rcases ih false hmem with hin | ⟨-, hfirst⟩ | hcut
          · exact Or.inl hin
          · exact Or.inr (Or.inr ⟨[], j, order, rfl, hj, hempty, hfirst⟩)
          · exact Or.inr (Or.inr (hcut.cons j))

/-- The frame of a call begins behind a part of the frame of a call whose write failed. -/
def FollowsFailure (s : Driver.Writing.State) (i : Nat) : Prop :=
  ∃ before j rest, s.order = before ++ j :: rest ∧
    (∃ c, s.calls[j]? = some c ∧ c.phase = .returned false) ∧ s.piece j ≠ [] ∧ First s rest i

/-- Of the frames that were cut off, only that of the last turn may yet be completed. -/
theorem BehindCut.followsFailure (hi : Driver.Writing.Inv s) (h : BehindCut s s.order i) :
    FollowsFailure s i := by
  rcases h with ⟨before, j, rest, horder, hcut, hsome, between, after, hrest, hnone⟩
  refine ⟨before, j, rest, horder, ?_, hsome, between, after, hrest, hnone⟩
  have hj : j ∈ s.order := by
    rw [horder]
    exact List.mem_append_right _ List.mem_cons_self
  have hd := List.getElem?_eq_getElem (hi.made j hj)
  rw [hrest] at horder
  rcases hi.wrote hd hj (hi.holder_ne_of_later horder) with ⟨-, heq⟩ | ⟨hfailed, -⟩
  · rw [hd, Driver.Writing.piece_of_getElem? hd, heq] at hcut
    exact absurd rfl hcut
  · exact ⟨_, hd, hfailed⟩

/-! ### From the threads to the Teensy -/

/-- What `encode_packet` returns is the frame of a message that fits into a packet. -/
theorem frame_of_encodePacket {m : Message} {bytes : List UInt8}
    (h : Driver.encodePacket m.packetId m.deviceId m.payload = .ok bytes) :
    m.payload.length ≤ Firmware.maxPayloadSize ∧
      bytes = frame Driver.calculateCrc m ++ [0] := by
  by_cases hle : m.payload.length ≤ Driver.maxPayloadSize
  · rw [Driver.encodePacket_eq m hle] at h
    exact ⟨hle, (Except.ok.inj h).symm⟩
  · rw [Driver.encodePacket_of_large m (Nat.lt_of_not_le hle)] at h
    cases h

/-- Enough polls receive the messages of a stream that fit into a packet. -/
theorem pollCommands_messages {W : Type} (handlers : CommandHandlers W) (w : W)
    (arrivals : List (List UInt8)) (n : Nat) (hn : arrivals.flatten.length ≤ n) :
    ∃ trace client w', Firmware.pollCommands handlers (arrivals ++ List.replicate n []) .start w =
        .ok (trace, client, w') ∧ client.available = [] ∧
      Firmware.messagesOf trace.flatten = (messages Driver.calculateCrc arrivals.flatten).filter
        (fun m ↦ m.payload.length ≤ Firmware.maxPayloadSize) := by
  rcases Firmware.pollCommands_eq handlers arrivals .start [] w Firmware.SerialBuffer.holds_start
    List.not_mem_nil with ⟨consumed, trace, client, hav, hpoll, -, -, hholds⟩
  have hlen := congrArg List.length hav
  rw [List.length_append, List.length_append] at hlen
  have hstart : Firmware.Client.start.available.length = 0 := rfl
  rcases Firmware.pollCommands_drain handlers n client _
    (Firmware.serveAll handlers (Firmware.accepted ([] ++ consumed)) w).2 hholds
    (Framing.notMem_unfinished 0 _) (by omega) with ⟨more, last, w', hmore, hnil⟩
  have hboth := Firmware.pollCommands_append handlers arrivals (List.replicate n []) .start w
  rw [hpoll] at hboth
  simp only [Cpp.ok_bind, hmore, Cpp.pure_eq] at hboth
  -- what all these polls consume is everything
  rcases Firmware.pollCommands_eq handlers (arrivals ++ List.replicate n []) .start [] w
    Firmware.SerialBuffer.holds_start List.not_mem_nil with
    ⟨consumed', trace', client', hav', hpoll', htrace, -, -⟩
  cases Except.ok.inj (hboth.symm.trans hpoll')
  have hall : arrivals.flatten = consumed' := by
    rw [hnil, List.append_nil, List.flatten_append, List.flatten_replicate_nil,
      List.append_nil] at hav'
    exact hav'
  refine ⟨_, _, _, hboth, hnil, ?_⟩
  rw [htrace, List.nil_append, Firmware.messagesOf_serveAll, filterMap_received, hall]

/-- Threads on the Pi send messages at the same time, and the Teensy polls what arrives until it has
taken all of it. It receives the messages of the unharmed frames, in the order in which the calls
held the lock; and if every call that held the lock wrote its whole frame, it receives their
messages and no others, each once. The frame of a call that returned `true` is harmed only when it
begins behind a part of the frame of a call whose write failed. -/
theorem concurrent_commands_received {W : Type} (handlers : CommandHandlers W) (w : W)
    (ls : List Driver.Writing.Label) (s : Driver.Writing.State) (message : Nat → Message)
    (arrivals : List (List UInt8)) (n : Nat)
    (h : Transition.run Driver.Writing.step ls Driver.Writing.start = some s)
    (hframes : ∀ i c, s.calls[i]? = some c → Driver.encodePacket (message i).packetId
      (message i).deviceId (message i).payload = .ok c.frame)
    (harrivals : arrivals.flatten = s.port) (hn : s.port.length ≤ n) :
    ∃ trace client w', Firmware.pollCommands handlers (arrivals ++ List.replicate n []) .start w =
        .ok (trace, client, w') ∧
      ((unharmed s true s.order).map message).Sublist (Firmware.messagesOf trace.flatten) ∧
      ((∀ i ∈ s.order, ∀ c, s.calls[i]? = some c → c.piece = c.frame) →
        Firmware.messagesOf trace.flatten = s.order.map message) ∧
      ∀ i c, s.calls[i]? = some c → c.phase = .returned true →
        i ∈ unharmed s true s.order ∨ FollowsFailure s i := by
  have hi := Driver.Writing.inv_run h
  have hcall : ∀ i ∈ s.order, ∃ c, s.calls[i]? = some c :=
    fun i hmem ↦ ⟨_, List.getElem?_eq_getElem (hi.made i hmem)⟩
  have hframe : ∀ i c, s.calls[i]? = some c →
      (message i).payload.length ≤ Firmware.maxPayloadSize ∧
        c.frame = frame Driver.calculateCrc (message i) ++ [0] :=
    fun i c hc ↦ frame_of_encodePacket (hframes i c hc)
  have hwrites : ∀ i ∈ s.order, Writes s message i := by
    intro i hmem
    rcases hcall i hmem with ⟨c, hc⟩
    have heq := (hframe i c hc).2
    refine ⟨?_, ?_⟩
    · rw [hc, ← heq]
      rfl
    · rw [Driver.Writing.piece_of_getElem? hc, ← heq]
      exact List.take_prefix _ _
  have hfits : ∀ i ∈ s.order, (message i).payload.length ≤ Firmware.maxPayloadSize := by
    intro i hmem
    rcases hcall i hmem with ⟨c, hc⟩
    exact (hframe i c hc).1
  rcases pollCommands_messages handlers w arrivals n (harrivals ▸ hn) with
    ⟨trace, client, w', hpoll, -, hmessages⟩
  rw [harrivals, hi.port] at hmessages
  refine ⟨trace, client, w', hpoll, ?_, fun hall ↦ ?_, fun i c hc hphase ↦ ?_⟩
  · have hsub := unharmed_sublist true s.order [] List.not_mem_nil (fun _ ↦ rfl) hwrites
    have hfilter := hsub.filter (fun m ↦ decide (m.payload.length ≤ Firmware.maxPayloadSize))
    rw [List.nil_append, ← hmessages, List.filter_eq_self.mpr] at hfilter
    · exact hfilter
    · intro m hm
      rcases List.mem_map.mp hm with ⟨i, hmem, rfl⟩
      exact decide_eq_true (hfits i ((unharmed_sublist_turns true s.order).subset hmem))
  · rw [hmessages, messages_of_whole s.order, List.filter_eq_self.mpr]
    · intro m hm
      rcases List.mem_map.mp hm with ⟨i, hmem, rfl⟩
      exact decide_eq_true (hfits i hmem)
    · intro i hmem
      rcases hcall i hmem with ⟨c, hc⟩
      rw [Driver.Writing.piece_of_getElem? hc, hall i hmem c hc, (hframe i c hc).2]
  · have hmem : i ∈ s.order :=
      List.mem_append_left _ (hi.sound_of_phase hc hphase).1
    have hwhole : s.piece i = c.frame := by
      rw [Driver.Writing.piece_of_getElem? hc, Call.piece, (hi.sound_of_phase hc hphase).2,
        List.take_length]
    have hne : s.piece i ≠ [] := by
      rw [hwhole, (hframe i c hc).2]
      exact List.append_ne_nil_of_right_ne_nil _ (List.cons_ne_nil 0 [])
    rcases unharmed_or_cut true s.order hmem hne (by rw [hc, hwhole]; rfl) with
      hin | ⟨hclean, -⟩ | hcut
    · exact Or.inl hin
    · cases hclean
    · exact Or.inr (hcut.followsFailure hi)

/-- What `encode_packet` returns for the command to start. -/
def startFrame : List UInt8 := [5, 16, 1, 1, 1, 2, 90, 0]

/-- Three threads send a command each: the first one's write fails after two bytes, the second
one's frame is harmed by that, and the third one's is not. -/
def oneHarmed : List Driver.Writing.Label := [
  .call startFrame, .call startFrame, .call startFrame, .test 0, .test 1, .test 2, .lock 0,
  .write 0 2, .fail 0, .leave 0, .lock 1, .write 1 8, .complete 1, .leave 1, .lock 2, .write 2 3,
  .write 2 5, .complete 2, .leave 2]

theorem concurrent_commands_received_oneHarmed : ∃ s trace client w',
    Transition.run Driver.Writing.step oneHarmed Driver.Writing.start = some s ∧
      unharmed s true s.order = [2] ∧
      Firmware.pollCommands (W := Unit) (Vector.replicate 3 none)
        ([s.port.take 5, s.port.drop 5] ++ List.replicate 18 []) .start () =
          .ok (trace, client, w') ∧
      [startCommand].Sublist (Firmware.messagesOf trace.flatten) := by
  obtain ⟨s, h, hcalls, hlength, hunharmed⟩ : ∃ s,
      Transition.run Driver.Writing.step oneHarmed Driver.Writing.start = some s ∧
      s.calls.map Call.frame = [startFrame, startFrame, startFrame] ∧ s.port.length = 18 ∧
      unharmed s true s.order = [2] := ⟨_, rfl, rfl, rfl, by decide +kernel⟩
  have hframes : ∀ (i : Nat) (c : Call), s.calls[i]? = some c →
      Driver.encodePacket startCommand.packetId startCommand.deviceId startCommand.payload =
        .ok c.frame := by
    intro i c hc
    have hmem : c.frame ∈ s.calls.map Call.frame := List.mem_map_of_mem (List.mem_of_getElem? hc)
    rw [hcalls] at hmem
    have hframe : c.frame = startFrame := by simpa using hmem
    rw [hframe]
    decide +kernel
  rcases concurrent_commands_received (W := Unit) (Vector.replicate 3 none) () oneHarmed s
    (fun _ ↦ startCommand) [s.port.take 5, s.port.drop 5] 18 h hframes (by simp)
    (Nat.le_of_eq hlength) with ⟨trace, client, w', hpoll, hsub, -⟩
  rw [hunharmed] at hsub
  exact ⟨s, trace, client, w', h, hunharmed, hpoll, hsub⟩

end BlueROV2.Link
