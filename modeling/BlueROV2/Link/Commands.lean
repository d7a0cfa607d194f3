import BlueROV2.Link.Receivers

/-!
# Commands from the Pi to the Teensy

Library `Link`. The Teensy's `client.cpp` as the Pi sees it: which frames of a stream are
decoded, which of them run a handler, and what the Pi's `packet.cpp` reads in the answers.
-/

namespace BlueROV2.Link

open BlueROV2.Base BlueROV2.Wire
open Firmware (CommandHandlers CommandHandler Effect handlerFor registerHandlers registeredFor)

/-- The Teensy decodes `f` to a command packet with payload `id`, `seq`, `arg`. -/
def IsCommand (f : List UInt8) (device : DeviceId) (id seq arg : UInt8) : Prop :=
  ∃ p, Firmware.decode f f.length = .ok (some p) ∧ p.message = ⟨.command, device, [id, seq, arg]⟩

/-- The Teensy decodes a frame to the message it receives from it. -/
theorem isCommand_iff (f : List UInt8) (device : DeviceId) (id seq arg : UInt8) :
    IsCommand f device id seq arg ↔
      Firmware.received f = some ⟨.command, device, [id, seq, arg]⟩ := by
  obtain ⟨r, hr, hmsg, -⟩ := Firmware.decode_eq f f.length (Nat.le_refl _)
  rw [List.take_length, ← Firmware.received] at hmsg
  rw [← hmsg, IsCommand, hr, Option.map_eq_some_iff]
  constructor
  · rintro ⟨p, hp, hm⟩
    exact ⟨p, Except.ok.inj hp, hm⟩
  · rintro ⟨p, rfl, hm⟩
    exact ⟨p, rfl, hm⟩

/-- The Pi decodes a frame as the message it is made from. -/
theorem decodePacket_frame (m : Message) :
    Driver.decodePacket (frame Firmware.crcOf m) = .ok m := by
  have h := Driver.decodePacket_eq (frame Firmware.crcOf m)
  rwa [crcOf_eq_calculateCrc, readFrame_frame] at h

variable {W : Type} (handlers : CommandHandlers W)
  (handlerOf : CommandId → Option (CommandHandler W))

/-- What serving one frame may do, with the firmware's state before and after: a command runs
the handler that it has once and is answered with its result; a command without a handler is
only answered; everything else is decoded and has no further effect. -/
inductive Served (f : List UInt8) : List Effect → W → W → Prop
  | handled (device : DeviceId) (id seq arg : UInt8) (handler : CommandHandler W)
      (answer : List UInt8) (w : W) (hf : IsCommand f device id seq arg)
      (hh : handlerOf ⟨id⟩ = some handler) (hfree : (0 : UInt8) ∉ answer)
      (ha : Driver.decodePacket answer =
        .ok ⟨.commandResponse, device, [id, seq, (handler w).1.byte]⟩) :
      Served f [.decode f (some ⟨.command, device, [id, seq, arg]⟩),
        .handle ⟨id⟩ (handler w).1, .write (answer ++ [0])] w (handler w).2
  | unknown (device : DeviceId) (id seq arg : UInt8) (answer : List UInt8) (w : W)
      (hf : IsCommand f device id seq arg) (hh : handlerOf ⟨id⟩ = none)
      (hfree : (0 : UInt8) ∉ answer)
      (ha : Driver.decodePacket answer =
        .ok ⟨.commandResponse, device, [id, seq, CommandResponse.unknownCommand.byte]⟩) :
      Served f [.decode f (some ⟨.command, device, [id, seq, arg]⟩), .write (answer ++ [0])] w w
  | ignored (m : Option Message) (w : W)
      (hf : ∀ device id seq arg, ¬ IsCommand f device id seq arg) :
      Served f [.decode f m] w w

/-- What serving frames one after the other may do. -/
inductive ServedAll : List (List UInt8) → List Effect → W → W → Prop
  | nil (w : W) : ServedAll [] [] w w
  | cons {f : List UInt8} {fs : List (List UInt8)} {effects later : List Effect} {w w' w'' : W} :
      Served handlerOf f effects w w' → ServedAll fs later w' w'' →
        ServedAll (f :: fs) (effects ++ later) w w''

private theorem exists_three_of_payload {m : Message}
    (h : m.packetId = .command ∧ m.payload.length = 3) :
    ∃ id seq arg, m = ⟨.command, m.deviceId, [id, seq, arg]⟩ := by
  obtain ⟨packetId, deviceId, payload⟩ := m
  obtain ⟨rfl, hl⟩ := h
  match payload, hl with
  | [id, seq, arg], _ => exact ⟨id, seq, arg, rfl⟩

/-- The Teensy serves every frame in one of these ways. -/
theorem served_serve (f : List UInt8) (w : W) :
    Served (handlerFor handlers) f (Firmware.serve handlers f w).1 w
      (Firmware.serve handlers f w).2 := by
  rw [Firmware.serve]
  cases hr : Firmware.received f with
  | none =>
    refine .ignored none w fun device id seq arg hf ↦ ?_
    rw [isCommand_iff, hr] at hf
    cases hf
  | some m =>
    by_cases hc : m.packetId = .command ∧ m.payload.length = 3
    · obtain ⟨id, seq, arg, hm⟩ := exists_three_of_payload hc
      have hf : IsCommand f m.deviceId id seq arg := by rw [isCommand_iff, hr, ← hm]
      rw [hm]
      simp only
      cases hh : handlerFor handlers ⟨id⟩ with
      | none =>
        have he : Firmware.execute handlers ⟨id⟩ w = (.unknownCommand, [], w) := by
          simp only [Firmware.execute, hh]
        rw [Firmware.respond_command handlers w rfl rfl he]
        exact .unknown m.deviceId id seq arg _ w hf hh (notMem_frame _) (decodePacket_frame _)
      | some handler =>
        have he : Firmware.execute handlers ⟨id⟩ w =
            ((handler w).1, [.handle ⟨id⟩ (handler w).1], (handler w).2) := by
          simp only [Firmware.execute, hh]
        rw [Firmware.respond_command handlers w rfl rfl he]
        exact .handled m.deviceId id seq arg handler _ w hf hh (notMem_frame _)
          (decodePacket_frame _)
    · simp only [Firmware.respond_of_not_command handlers w hc]
      refine .ignored (some m) w fun device id seq arg hf ↦ hc ?_
      rw [isCommand_iff, hr] at hf
      cases hf
      exact ⟨rfl, rfl⟩

/-- The Teensy serves lists of frames one after the other. -/
theorem servedAll_serveAll (fs : List (List UInt8)) (w : W) :
    ServedAll (handlerFor handlers) fs (Firmware.serveAll handlers fs w).1 w
      (Firmware.serveAll handlers fs w).2 := by
  induction fs generalizing w with
  | nil => exact .nil w
  | cons f fs ih => exact .cons (served_serve handlers f w) (ih _)

/-- Nothing is registered for an identifier that is no enumerator. -/
theorem registeredFor_of_not_command {id : UInt8}
    (registrations : List (CommandId × Option (CommandHandler W))) (h : id = 0 ∨ 4 ≤ id) :
    registeredFor handlers registrations ⟨id⟩ = none := by
  rw [registeredFor, if_neg]
  rintro ⟨hlo, hhi⟩
  rcases h with rfl | h
  · exact absurd hlo (by decide)
  · have hle : 4 ≤ id.toNat := h
    simp only at hhi
    omega

/-- A command encoded by the Pi is one of the frames the Teensy decodes, and is decoded as
that command, wherever it starts the stream or follows a delimiter. -/
theorem accepted_command {device : DeviceId} {id seq arg : UInt8} {bytes s t : List UInt8}
    (he : Driver.encodePacket .command device [id, seq, arg] = .ok bytes)
    (hs : s = [] ∨ ∃ r, s = r ++ [0]) :
    ∃ f, bytes = f ++ [0] ∧ IsCommand f device id seq arg ∧
      Firmware.accepted (s ++ bytes ++ t) = Firmware.accepted s ++ f :: Firmware.accepted t := by
  have hcap : Firmware.maxEncodedSize = 69 := rfl
  have hframe := Driver.encodePacket_eq ⟨.command, device, [id, seq, arg]⟩ (by decide : 3 ≤ 64)
  rw [he] at hframe
  obtain rfl := Except.ok.inj hframe
  have hfree : (0 : UInt8) ∉ frame Driver.calculateCrc ⟨.command, device, [id, seq, arg]⟩ :=
    notMem_frame _
  have hlen : (frame Driver.calculateCrc ⟨.command, device, [id, seq, arg]⟩).length = 3 + 4 :=
    length_frame (by decide : 3 < 251)
  refine ⟨_, rfl, ?_, ?_⟩
  · rw [isCommand_iff, Firmware.received, crcOf_eq_calculateCrc, readFrame_frame,
      Option.filter_some]
    rfl
  · rw [List.append_assoc, Firmware.accepted_append, Framing.unfinished_of_end 0 s hs,
      List.nil_append, List.append_assoc, List.singleton_append,
      Firmware.accepted_segment hfree t, if_pos ⟨frame_ne_nil _, by omega⟩]
    rfl

/-- The command link. Whatever handlers are registered, and however the bytes of a stream are
distributed over polls: enough polls take all of it; each poll decodes at most one frame; when
everything is taken, the frames decoded are those segments of the stream that a serial buffer can
hold, each once and in order, and each was served by running the handler registered last for its
command once and answering it, by answering that the command is unknown, or not at all.
Identifiers that are no enumerator are unknown. Every command encoded by the Pi that starts the
stream or follows a delimiter is one of these frames. -/
theorem commands_answered (registrations : List (CommandId × Option (CommandHandler W))) (w : W)
    (arrivals : List (List UInt8)) :
    ∃ handlers', registerHandlers registrations handlers = .ok handlers' ∧
    (∀ n, arrivals.flatten.length ≤ n → ∃ trace client w',
      Firmware.pollCommands handlers' (arrivals ++ List.replicate n []) .start w =
        .ok (trace, client, w') ∧ client.available = []) ∧
    (∀ id : UInt8, id = 0 ∨ 4 ≤ id → registeredFor handlers registrations ⟨id⟩ = none) ∧
    (∀ (device : DeviceId) (id seq arg : UInt8) (bytes s t : List UInt8),
      Driver.encodePacket .command device [id, seq, arg] = .ok bytes →
      (s = [] ∨ ∃ r, s = r ++ [0]) → arrivals.flatten = s ++ bytes ++ t →
        ∃ f, bytes = f ++ [0] ∧ IsCommand f device id seq arg ∧
          Firmware.accepted arrivals.flatten =
            Firmware.accepted s ++ f :: Firmware.accepted t) ∧
    ∃ trace client w',
      Firmware.pollCommands handlers' arrivals .start w = .ok (trace, client, w') ∧
      (∀ effects ∈ trace, (Firmware.framesOf effects).length ≤ 1) ∧
      (client.available = [] →
        Firmware.framesOf trace.flatten = Firmware.accepted arrivals.flatten ∧
        ServedAll (registeredFor handlers registrations) (Firmware.accepted arrivals.flatten)
          trace.flatten w w') := by
  obtain ⟨handlers', hregister, hentries⟩ :=
    Firmware.registerHandlers_registered registrations handlers
  obtain ⟨consumed, trace, client, hav, hpoll, htrace, hone, hholds⟩ :=
    Firmware.pollCommands_eq handlers' arrivals .start [] w Firmware.SerialBuffer.holds_start
      List.not_mem_nil
  simp only [List.nil_append] at hpoll htrace hholds
  have hav' : arrivals.flatten = consumed ++ client.available := hav
  refine ⟨handlers', hregister, ?_, fun _ ↦ registeredFor_of_not_command handlers registrations, ?_,
    trace, client, _, hpoll, hone, ?_⟩
  · intro n hn
    have hlen := congrArg List.length hav'
    rw [List.length_append] at hlen
    obtain ⟨more, last, w', hmore, hnil⟩ := Firmware.pollCommands_drain handlers' n client _
      (Firmware.serveAll handlers' (Firmware.accepted consumed) w).2 hholds
      (Framing.notMem_unfinished 0 consumed) (by omega)
    refine ⟨trace ++ more, last, w', ?_, hnil⟩
    rw [Firmware.pollCommands_append, hpoll]
    simp only [Cpp.ok_bind, hmore, Cpp.pure_eq]
  · intro device id seq arg bytes s t he hs hst
    rw [hst]
    exact accepted_command he hs
  · intro hnil
    rw [hnil, List.append_nil] at hav'
    rw [htrace, Firmware.framesOf_serveAll, hav', ← funext hentries]
    exact ⟨rfl, servedAll_serveAll handlers' _ w⟩

/-- A table without handlers. -/
def noneRegistered : CommandHandlers Nat := Vector.replicate Firmware.maxCommandHandlers none

/-- Each command gets a handler of its own, the first one a second time; a command without an entry
gets none. -/
def threeHandlers : List (CommandId × Option (CommandHandler Nat)) :=
  [(.calibrationStart, some fun n ↦ (.sensorError, n)),
    (.calibrationSave, some fun n ↦ (.sensorError, n + 10)),
    (.calibrationStop, some fun n ↦ (.invalidState, n + 100)),
    (.calibrationStart, some fun n ↦ (.ok, n + 1)), (⟨4⟩, some fun n ↦ (.ok, n))]

/-- Four commands, cut within the first and the second one. -/
def fourCommands : List (List UInt8) :=
  [[7, 16, 1, 3, 1], [9, 179, 0, 5, 16, 1, 1, 2],
    [2, 101, 0, 5, 16, 1, 2, 3, 2, 205, 0, 5, 16, 1, 4, 4, 2, 219, 0], [], []]

/-- Their frames. -/
def fourFrames : List (List UInt8) :=
  [[7, 16, 1, 3, 1, 9, 179], [5, 16, 1, 1, 2, 2, 101], [5, 16, 1, 2, 3, 2, 205],
    [5, 16, 1, 4, 4, 2, 219]]

/-- Each of the first three runs its own handler, and the fourth is unknown. -/
def fourServed : List Effect :=
  [.decode [7, 16, 1, 3, 1, 9, 179] (some ⟨.command, .imu01, [3, 1, 9]⟩),
    .handle .calibrationStop .invalidState, .write [7, 17, 1, 3, 1, 3, 231, 0],
    .decode [5, 16, 1, 1, 2, 2, 101] (some ⟨.command, .imu01, [1, 2, 0]⟩),
    .handle .calibrationStart .ok, .write [5, 17, 1, 1, 2, 2, 7, 0],
    .decode [5, 16, 1, 2, 3, 2, 205] (some ⟨.command, .imu01, [2, 3, 0]⟩),
    .handle .calibrationSave .sensorError, .write [7, 17, 1, 2, 3, 2, 161, 0],
    .decode [5, 16, 1, 4, 4, 2, 219] (some ⟨.command, .imu01, [4, 4, 0]⟩),
    .write [7, 17, 1, 4, 4, 1, 190, 0]]

theorem commands_answered_fourCommands :
    ServedAll (registeredFor noneRegistered threeHandlers) fourFrames fourServed 0 111 := by
  obtain ⟨handlers', hregister, -, -, -, trace, client, w', hpoll, -, hserved⟩ :=
    commands_answered noneRegistered threeHandlers 0 fourCommands
  have hrun : (registerHandlers threeHandlers noneRegistered >>= fun handlers ↦
      (Firmware.pollCommands handlers fourCommands .start 0).map fun (trace, client, w) ↦
        (trace.flatten, client.available, w)) = .ok (fourServed, [], 111) := by decide +kernel
  rw [hregister, Cpp.ok_bind, hpoll] at hrun
  obtain ⟨htrace, hlast⟩ := Prod.mk.inj (Except.ok.inj hrun)
  obtain ⟨hnil, rfl⟩ := Prod.mk.inj hlast
  have haccepted : Firmware.accepted fourCommands.flatten = fourFrames := by decide +kernel
  have hall := (hserved hnil).2
  rwa [haccepted, htrace] at hall

end BlueROV2.Link
