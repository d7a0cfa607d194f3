import BlueROV2.Base.Simulation
import BlueROV2.Firmware.Modes
import BlueROV2.Link.Telemetry
import BlueROV2.Vehicle.System

/-!
# The whole link refines the command protocol

Library `Vehicle`. With telemetry taken away, the system is the protocol of `Session`, whose
Teensy also does other things. Telemetry on the link to the Pi and the other parts of `loop`
are steps that the protocol does not see.
-/

namespace BlueROV2.Vehicle

open BlueROV2.Base BlueROV2.Wire BlueROV2.Link
open Driver (Params Published TeensyDriver)
open Firmware (BNO085 CommandHandlers Effect Iteration Puts Sample SensorAccuracy Teensy)

/-! ### What is seen of the protocol -/

/-- The responses among the frames on their way to the Pi. -/
def responses (downlink : List Frame) : List Session.Flight :=
  downlink.filterMap fun f ↦ f.attempt.map (⟨·, f.bytes⟩)

/-- What the protocol sees of the system. -/
def sessionOf (s : State) : Session.State BNO085 :=
  s.pi.place (responses s.downlink) s.teensy.client s.teensy.imu

/-- The moves of the protocol that a step stands for. -/
def trace : Label → State → List (Session.Move BNO085)
  | .pi l, _ => if l.onPi then [.step l] else []
  | .activate, _ | .deactivate, _ => []
  | .command i, s => [.world (s.teensy.imu.facing i.command), .step .poll]
  | .noCommand i, s => [.world (s.teensy.imu.facing i.command)]
  | .recovery i, s => ((step (.recovery i) s).map fun s ↦ .world s.teensy.imu).toList
  | .sample i, s => ((step (.sample i) s).map fun s ↦ .world s.teensy.imu).toList
  | .status i, s => ((step (.status i) s).map fun s ↦ .world s.teensy.imu).toList
  | .deliver _, s =>
    match s.downlink.head?.bind Frame.attempt with
    | some _ => [.step .deliver]
    | none => []
  | .lose i, s =>
    match s.downlink[i]?.bind Frame.attempt with
    | some _ => [.step (.loseResponse (responses (s.downlink.take i)).length)]
    | none => []

/-- A sample or a status, as the Teensy sends it. -/
inductive Telemetry where
  | sample (s : Sample)
  | status (accuracy : SensorAccuracy) (mask : UInt8)

/-- The packet of a sample or a status. -/
def Telemetry.packet : Telemetry → Message
  | .sample s => s.packet
  | .status accuracy mask => ⟨.calStatus, .imu01, statusBytes accuracy mask⟩

/-- What an active driver publishes of it, by the clock of the driver. -/
def Telemetry.publishedAt (params : Params) (now : Nat) : Telemetry → Published
  | .sample s => .imu (imuOf params now s)
  | .status accuracy mask => .calibrationStatus (statusOf params now accuracy mask)

/-- A frame that is no response is one of telemetry. -/
def Carries (f : Frame) : Prop :=
  f.attempt = none → ∃ x : Telemetry, f.bytes = frame Firmware.crcOf x.packet ++ [0]

variable {handlers : CommandHandlers BNO085} {s s' : State} {t t' : Teensy} {i : Iteration}

/-- What holds of every state of the system. -/
structure Inv (handlers : CommandHandlers BNO085) (s : State) : Prop where
  registered : s.teensy.handlers = handlers
  session : Session.Inv handlers (sessionOf s)
  carries : ∀ f ∈ s.downlink, Carries f

/-! ### Frames -/

@[simp] theorem responses_append (downlink later : List Frame) :
    responses (downlink ++ later) = responses downlink ++ responses later := List.filterMap_append

/-- What is written in one poll are responses. -/
theorem responses_polled (n : Nat) (writes : List (List UInt8)) :
    responses (writes.map (⟨some n, ·⟩)) = writes.map (⟨n, ·⟩) := by
  rw [responses, List.filterMap_map, ← List.filterMap_eq_map]
  rfl

/-- What is written in the other parts is none. -/
theorem responses_written (writes : List (List UInt8)) :
    responses (writes.map (⟨none, ·⟩)) = [] := by
  rw [responses, List.filterMap_map, List.filterMap_eq_nil_iff]
  exact fun _ _ ↦ rfl

/-- Losing a frame loses a response, or no response. -/
theorem responses_eraseIdx (downlink : List Frame) (i : Nat) :
    responses (downlink.eraseIdx i) = match downlink[i]?.bind Frame.attempt with
      | some _ => (responses downlink).eraseIdx (responses (downlink.take i)).length
      | none => responses downlink := by
  induction downlink generalizing i with
  | nil => rfl
  | cons f downlink ih =>
    cases i with
    | zero =>
      rcases f with ⟨_ | n, bytes⟩
      · rfl
      · rfl
    | succ i =>
      have hrest := ih i
      rcases f with ⟨_ | n, bytes⟩
      · exact hrest
      · simp only [List.eraseIdx_cons_succ, List.getElem?_cons_succ, List.take_succ_cons]
        change ⟨n, bytes⟩ :: responses (downlink.eraseIdx i) = _
        rw [hrest]
        split <;> rfl

/-! ### The driver and the links -/

theorem sessionOf_onPi {l : Session.Label} (h : s.onPi l = some s') :
    Session.step handlers l (sessionOf s) = some (sessionOf s') := by
  unfold State.onPi at h
  split at h
  · next hl =>
    rcases Option.map_eq_some_iff.mp h with ⟨pi, hpi, rfl⟩
    rw [sessionOf, Session.step_place _ _ _ noHandlers handlers hl, hpi]
    rfl
  · cases h

/-- Frames that follow keep to what frames carry. -/
private theorem carries_append {later : List Frame} (hc : ∀ f ∈ s.downlink, Carries f)
    (hlater : ∀ f ∈ later, Carries f) : ∀ f ∈ s.downlink ++ later, Carries f := by
  intro f hf
  rcases List.mem_append.mp hf with hf | hf
  · exact hc f hf
  · exact hlater f hf

private theorem carries_polled (n : Nat) (writes : List (List UInt8)) :
    ∀ f ∈ writes.map (Frame.mk (some n)), Carries f := by
  intro f hf hnone
  rcases List.mem_map.mp hf with ⟨bytes, -, rfl⟩
  cases hnone

/-! ### The Teensy -/

/-- The poll of the next command frame. -/
private theorem command_moves (hi : Inv handlers s) (h : s.command i = some s') :
    Transition.run (Session.move handlers) (trace (.command i) s) (sessionOf s) =
        some (sessionOf s') ∧
      s'.teensy.handlers = handlers ∧ ∀ f ∈ s'.downlink, Carries f := by
  unfold State.command at h
  split at h
  · next f uplink _ hup =>
    split at h
    · next effects client imu hpoll =>
      cases h
      refine ⟨?_, hi.registered, carries_append hi.carries (carries_polled _ _)⟩
      have hpolled : Firmware.pollCommand handlers f.bytes s.teensy.client
          (s.teensy.imu.facing i.command) = .ok (effects, client, imu) := by
        rw [← hi.registered]
        exact hpoll
      have hstep : Session.step handlers .poll
          { sessionOf s with world := s.teensy.imu.facing i.command } = some
            ({ s.pi with
              uplink, executed := s.pi.executed ++ [(f.attempt, effects)] }.place
              (responses s.downlink ++
                (Firmware.writtenBy effects).map (Session.Flight.mk f.attempt))
              client
              imu) := by
        have hplaced : { sessionOf s with world := s.teensy.imu.facing i.command }.uplink =
            f :: uplink := hup
        rw [Session.step, Session.State.poll, hplaced]
        simp only [sessionOf, Session.State.place, hpolled]
      simp only [trace, Transition.run, Session.move, Option.bind_some, hstep]
      simp only [sessionOf, responses_append, responses_polled]
      rfl
    · cases h
  · cases h

/-- A poll of an idle client at which nothing arrives. -/
private theorem pollCommand_nil {W : Type} (handlers : CommandHandlers W) {c : Firmware.Client}
    (hc : c.Idle) (w : W) : Firmware.pollCommand handlers [] c w = .ok ([], c, w) := by
  rcases c with ⟨available, buffer⟩
  obtain rfl : available = [] := hc.1
  rfl

/-- What such a poll leads to. -/
theorem noCommand_eq (hi : Inv handlers s) (h : s.noCommand i = some s') : s' = { s with
    teensy := s.teensy.polled [] s.teensy.client (s.teensy.imu.facing i.command)
    part := .recovery } := by
  unfold State.noCommand at h
  split at h
  · have hidle : s.teensy.client.Idle := hi.session.idle
    have hpoll : Firmware.pollStep { i with arrived := [] } s.teensy =
        .ok ([], s.teensy.client, s.teensy.imu.facing i.command) := pollCommand_nil _ hidle _
    rw [hpoll] at h
    cases h
    simp only [Firmware.writtenBy, List.filterMap_nil, List.map_nil, List.append_nil]
  · cases h

/-- One state of the Teensy after another, with no command between them: it writes nothing but
telemetry and stays in its mode. -/
structure Goes (t t' : Teensy) : Prop where
  client : t'.client = t.client
  handlers : t'.handlers = t.handlers
  mode : t.imu.Masked → t'.imu.Masked ∧ t'.imu.calibrating = t.imu.calibrating
  outputs : ∃ (xs : List Telemetry) (later : List Firmware.Output),
    t'.outputs = t.outputs ++ later ∧ Puts (xs.map Telemetry.packet) later

private theorem mode_of_passive {x y : BNO085} (h : x.Passive y) (hx : x.Masked) :
    y.Masked ∧ y.calibrating = x.calibrating := ⟨hx.of_eq h.calMask, h.calibrating⟩

theorem goes_recoverStep (h : (.ok (Firmware.recoverStep i t) : Cpp Teensy) = .ok t') :
    Goes t t' := by
  cases h
  have hframe := Firmware.recoverStep_frame i t
  rcases Firmware.recoverStep_outputs i t with ⟨later, houtputs, hputs⟩
  refine ⟨hframe.1, hframe.2.1, fun hmasked ↦ ?_, [], later, houtputs, hputs⟩
  rcases Firmware.recoverStep_imu i t with hpassive | ⟨x, hmask, -, -, heq⟩
  · exact mode_of_passive hpassive hmasked
  · have hreset := BNO085.reset_mode (hmasked.of_eq hmask)
    rw [← heq, BNO085.calibrating_of_eq hmask] at hreset
    exact hreset

theorem goes_sampleStep (h : Firmware.sampleStep i t = .ok t') : Goes t t' := by
  rw [Firmware.sampleStep_eq] at h
  cases h
  have hpassive : t.imu.Passive (t.reading i).2 :=
    (t.imu.passive_facing i.sample).trans (t.imu.facing i.sample).passive_read
  refine ⟨rfl, rfl, mode_of_passive hpassive, (t.reading i).1.toList.map .sample, _, rfl, ?_⟩
  cases (t.reading i).1 <;> rfl

theorem goes_statusStep (h : Firmware.statusStep i t = .ok t') : Goes t t' := by
  by_cases hdue : t.Due i
  · cases (Firmware.statusStep_of_due hdue).symm.trans h
    have hpassive : t.imu.Passive (t.reported i).imu :=
      ((t.imu.passive_facing i.status).trans (BNO085.passive_millis _)).trans
        (BNO085.passive_millis _)
    exact ⟨rfl, rfl, mode_of_passive hpassive,
      [.status t.imu.accuracy t.imu.calibrationMask], _, rfl, rfl⟩
  · rcases Firmware.statusStep_of_not_due hdue with ⟨imu, hstatus, hpassive⟩
    cases hstatus.symm.trans h
    exact ⟨rfl, rfl, mode_of_passive hpassive, [], [], (List.append_nil _).symm, rfl⟩

/-- A part of `loop` in which no command is polled. -/
structure GoesOn (s s' : State) : Prop where
  pi : s'.pi = s.pi
  params : s'.params = s.params
  published : s'.published = s.published
  teensy : Goes s.teensy s'.teensy
  downlink : s'.downlink = s.downlink ++ written s.teensy s'.teensy

/-- Each of these steps is one. -/
theorem goesOn_of_goOn {part next : Part} {f : Teensy → Cpp Teensy}
    (hf : ∀ t', f s.teensy = .ok t' → Goes s.teensy t') (h : s.goOn part next f = some s') :
    GoesOn s s' := by
  have hgoes := hf s'.teensy (goOn_eq_some h)
  unfold State.goOn at h
  split at h
  · split at h
    · cases h
      exact ⟨rfl, rfl, rfl, hgoes, rfl⟩
    · cases h
  · cases h

theorem goesOn_recovery (h : step (.recovery i) s = some s') : GoesOn s s' := by
  have hgo : s.goOn .recovery .sample (fun t ↦ .ok (Firmware.recoverStep i t)) = some s' := h
  refine goesOn_of_goOn ?_ hgo
  exact fun t' ↦ goes_recoverStep

theorem goesOn_sample (h : step (.sample i) s = some s') : GoesOn s s' :=
  goesOn_of_goOn (fun _ ↦ goes_sampleStep) h

theorem goesOn_status (h : step (.status i) s = some s') : GoesOn s s' :=
  goesOn_of_goOn (fun _ ↦ goes_statusStep) h

/-- What is written between two states. -/
theorem written_eq {later : List Firmware.Output} (h : t'.outputs = t.outputs ++ later) :
    written t t' = (Firmware.writesOf later).map (⟨none, ·⟩) := by
  rw [written, h, List.drop_left]

/-- What is written is telemetry. -/
theorem Goes.carries (h : Goes t t') : ∀ f ∈ written t t', Carries f := by
  rcases h.outputs with ⟨xs, later, houtputs, hputs⟩
  intro f hf _
  rw [written_eq houtputs, hputs, List.map_map, List.map_map] at hf
  rcases List.mem_map.mp hf with ⟨x, -, rfl⟩
  exact ⟨x, rfl⟩

/-- The protocol sees nothing of it but the state of the IMU. -/
theorem GoesOn.sessionOf_eq (h : GoesOn s s') :
    sessionOf s' = { sessionOf s with world := s'.teensy.imu } := by
  have hdown : responses s'.downlink = responses s.downlink := by
    rcases h.teensy.outputs with ⟨xs, later, houtputs, -⟩
    rw [h.downlink, responses_append, written_eq houtputs, responses_written, List.append_nil]
  rw [sessionOf, h.pi, hdown, h.teensy.client]
  rfl

/-! ### Deliveries -/

/-- Telemetry is published by an active driver, and ignored by any other one. -/
theorem dispatch_telemetry (x : Telemetry) (d : TeensyDriver)
    (hd : d.calibActivated = d.imuActivated) :
    Driver.dispatch Driver.driverCallbacks x.packet d = .ok { d with
      published := d.published ++
        if d.imuActivated then [x.publishedAt d.params d.now] else [] } := by
  by_cases hactive : d.imuActivated = true
  · rw [if_pos hactive]
    cases x with
    | sample s => exact dispatch_sample s hactive
    | status accuracy mask => exact dispatch_status accuracy mask (hd.trans hactive)
  · have hidle : (!d.imuActivated) = true := by rw [Bool.eq_false_iff.mpr hactive]; rfl
    rw [if_neg hactive, List.append_nil, Driver.dispatch_driverCallbacks]
    cases x with
    | sample s =>
      have hid : (Telemetry.sample s).packet.packetId = .imuData := rfl
      rw [if_pos hid, Driver.imuData, if_pos hidle]
      rfl
    | status accuracy mask =>
      have hid : (Telemetry.status accuracy mask).packet.packetId = .calStatus := rfl
      have hne : (Telemetry.status accuracy mask).packet.packetId ≠ .imuData := by
        rw [hid]
        decide
      rw [← hd] at hidle
      rw [if_neg hne, if_pos hid, Driver.calStatus, if_pos hidle]
      rfl

/-- A response is handed to the callback that waits for one. -/
theorem dispatch_response (payload : List UInt8) (d : TeensyDriver) :
    Driver.dispatch Driver.driverCallbacks ⟨.commandResponse, .imu01, payload⟩ d =
      (Driver.commandResponse ⟨.commandResponse, .imu01, payload⟩ d.commands).map
        fun commands ↦ { d with commands } := by
  rw [Driver.dispatch_driverCallbacks, if_neg (by decide : PacketId.commandResponse ≠ .imuData),
    if_neg (by decide : PacketId.commandResponse ≠ .calStatus), if_pos rfl,
    Driver.commandResponseOf]
  cases Driver.commandResponse ⟨.commandResponse, .imu01, payload⟩ d.commands <;> rfl

/-- A delivery hands over a response, as the protocol does, or telemetry. -/
inductive Delivers (handlers : CommandHandlers BNO085) (now : Nat) (s : State) : State → Prop
  | response {s' : State} (n : Nat) (bytes : List UInt8) (downlink : List Frame)
      (hdown : s.downlink = ⟨some n, bytes⟩ :: downlink)
      (hstep : Session.step handlers .deliver (sessionOf s) = some (sessionOf s'))
      (hrest : s'.downlink = downlink) (hexecuted : s'.pi.executed = s.pi.executed)
      (hteensy : s'.teensy = s.teensy) (hparams : s'.params = s.params)
      (hpublished : s'.published = s.published) :
      Delivers handlers now s s'
  | telemetry (x : Telemetry) (downlink : List Frame)
      (hdown : s.downlink = ⟨none, frame Firmware.crcOf x.packet ++ [0]⟩ :: downlink) :
      Delivers handlers now s { s with
        downlink
        published := s.published ++ if s.activated then [x.publishedAt s.params now] else [] }

/-- A frame that is next arrives in one of these ways. -/
theorem exists_deliver (hi : Inv handlers s) (now : Nat) {f : Frame} {downlink : List Frame}
    {reader : Driver.Reader} (hdown : s.downlink = f :: downlink)
    (hclient : s.pi.client = some reader) :
    ∃ s', s.deliver now = some s' ∧ Delivers handlers now s s' := by
  have hempty : reader.accumulated = [] := hi.session.empty reader hclient
  rw [State.deliver]
  simp only [hdown, hclient]
  rcases f with ⟨_ | n, bytes⟩
  · rcases hi.carries ⟨none, bytes⟩ (by rw [hdown]; exact List.mem_cons_self) rfl with ⟨x, hx⟩
    simp only at hx
    subst hx
    have hpoll := Driver.pollConnection_frame (Driver.dispatch Driver.driverCallbacks) x.packet
      (s.driver now) hempty
      (List.flatten_singleton : [frame Driver.calculateCrc x.packet ++ [0]].flatten = _)
    rw [dispatch_telemetry x (s.driver now) rfl, ← crcOf_eq_calculateCrc] at hpoll
    rw [← List.map_singleton, hpoll]
    refine ⟨_, rfl, ?_⟩
    have hkeep : { s.pi with
        client := some reader, commands := s.pi.commands, completed := s.pi.completed ++ [] } =
        s.pi := by
      rw [List.append_nil, ← hclient]
    change Delivers handlers now s { s with
      pi := { s.pi with
        client := some reader, commands := s.pi.commands, completed := s.pi.completed ++ [] }
      published := s.published ++ if s.activated then [x.publishedAt s.params now] else []
      downlink }
    rw [hkeep]
    exact .telemetry x downlink hdown
  · have hseen : (sessionOf s).downlink = ⟨n, bytes⟩ :: responses downlink := by
      change responses s.downlink = _
      rw [hdown]
      rfl
    have hreader : (sessionOf s).client = some reader := hclient
    have hcommands : (sessionOf s).commands = s.pi.commands := rfl
    rcases hi.session.deliver_enabled hseen hreader with ⟨-, s₁, -, hsession, -⟩
    rcases hi.session.responses ⟨n, bytes⟩ (by rw [hseen]; exact List.mem_cons_self) with
      ⟨v, -, hv⟩
    simp only [Session.responseFrame, crcOf_eq_calculateCrc] at hv
    subst hv
    have hpoll := Driver.pollConnection_frame (Driver.dispatch Driver.driverCallbacks)
      ⟨.commandResponse, .imu01, v.toList⟩ (s.driver now) hempty
      (List.flatten_singleton :
        [frame Driver.calculateCrc ⟨.commandResponse, .imu01, v.toList⟩ ++ [0]].flatten = _)
    have hplain := Driver.pollConnection_response hempty s.pi.commands
      ⟨.commandResponse, .imu01, v.toList⟩ rfl
    have hdriver : (s.driver now).commands = s.pi.commands := rfl
    rw [dispatch_response, hdriver] at hpoll
    rw [← List.map_singleton, hpoll]
    cases hc : Driver.commandResponse ⟨.commandResponse, .imu01, v.toList⟩ s.pi.commands with
    | error e =>
      -- the protocol would not deliver the response either
      rw [hc] at hplain
      rw [Session.State.deliver, hseen, hreader] at hsession
      simp only [hcommands, hplain] at hsession
      cases hsession
    | ok commands =>
      rw [hc] at hplain
      refine ⟨_, rfl, .response n _ downlink hdown ?_ rfl rfl rfl rfl rfl⟩
      rw [Session.step, Session.State.deliver, hseen, hreader]
      simp only [hcommands, hplain, Option.toList_some, List.flatMap_singleton]
      rfl

/-- Every delivery is one of these. -/
theorem delivers_of_deliver {now : Nat} (hi : Inv handlers s) (h : s.deliver now = some s') :
    Delivers handlers now s s' := by
  have hcopy := h
  unfold State.deliver at h
  split at h
  · next hdown hclient =>
    rcases exists_deliver hi now hdown hclient with ⟨s₁, hs₁, hdelivers⟩
    cases hs₁.symm.trans hcopy
    exact hdelivers
  · cases h

/-! ### The simulation -/

/-- Losing a frame loses a response, or nothing that the protocol sees. -/
private theorem lose_moves (n : Nat) (h : step (.lose n) s = some s') :
    Transition.run (Session.move handlers) (trace (.lose n) s) (sessionOf s) =
      some (sessionOf s') := by
  simp only [step, Option.ite_none_right_eq_some] at h
  rcases h with ⟨hn, h⟩
  cases h
  have hlost := responses_eraseIdx s.downlink n
  rw [trace]
  split at hlost
  · next a hat =>
    simp only [Transition.run, Session.move, Session.step]
    have hlt : (responses (s.downlink.take n)).length < (sessionOf s).downlink.length := by
      have hget := List.getElem?_eq_getElem hn
      rw [hget] at hat
      have hsplit : responses s.downlink = responses (s.downlink.take n) ++
          responses (s.downlink.drop n) := by
        rw [← responses_append, List.take_append_drop]
      have hhead : responses (s.downlink.drop n) ≠ [] := by
        rw [List.drop_eq_getElem_cons hn, responses, List.filterMap_cons]
        change s.downlink[n].attempt = some a at hat
        simp only [hat, Option.map_some]
        exact List.cons_ne_nil _ _
      change _ < (responses s.downlink).length
      rw [hsplit, List.length_append]
      have := List.length_pos_iff.mpr hhead
      omega
    rw [if_pos hlt, Option.bind_some]
    change some _ = some _
    rw [sessionOf, sessionOf, hlost]
    rfl
  · rw [Transition.run, sessionOf, sessionOf, hlost]

private theorem goesOn_moves (hi : Inv handlers s) (h : GoesOn s s') :
    Transition.run (Session.move handlers) [.world s'.teensy.imu] (sessionOf s) =
        some (sessionOf s') ∧
      s'.teensy.handlers = handlers ∧ ∀ f ∈ s'.downlink, Carries f := by
  refine ⟨?_, h.teensy.handlers.trans hi.registered, ?_⟩
  · rw [h.sessionOf_eq]
    rfl
  · rw [h.downlink]
    exact carries_append hi.carries h.teensy.carries

/-- Every step of the system keeps the invariant, and stands for moves of the protocol. -/
theorem step_moves (l : Label) (h : step l s = some s') (hi : Inv handlers s) :
    Transition.run (Session.move handlers) (trace l s) (sessionOf s) = some (sessionOf s') ∧
      s'.teensy.handlers = handlers ∧ ∀ f ∈ s'.downlink, Carries f := by
  cases l with
  | pi l =>
    have hmoves : Session.step handlers l (sessionOf s) = some (sessionOf s') := sessionOf_onPi h
    simp only [step, State.onPi, Option.ite_none_right_eq_some, Option.map_eq_some_iff] at h
    rcases h with ⟨hl, pi, -, rfl⟩
    refine ⟨?_, hi.registered, hi.carries⟩
    rw [trace, if_pos hl, Transition.run, Session.move, hmoves]
    rfl
  | activate | deactivate =>
    simp only [step, State.activate, Option.ite_none_right_eq_some] at h
    rcases h with ⟨-, h⟩
    cases h
    exact ⟨rfl, hi.registered, hi.carries⟩
  | command i => exact command_moves hi h
  | noCommand i =>
    cases noCommand_eq hi h
    exact ⟨rfl, hi.registered, hi.carries⟩
  | recovery i =>
    rw [trace, h]
    exact goesOn_moves hi (goesOn_recovery h)
  | sample i =>
    rw [trace, h]
    exact goesOn_moves hi (goesOn_sample h)
  | status i =>
    rw [trace, h]
    exact goesOn_moves hi (goesOn_status h)
  | deliver now =>
    cases delivers_of_deliver hi h with
    | response n bytes downlink hdown hstep hrest _ hteensy =>
      refine ⟨?_, hteensy ▸ hi.registered, ?_⟩
      · rw [trace, hdown]
        simp only [List.head?_cons, Option.bind_some, Transition.run, Session.move, hstep]
      · intro f hf
        rw [hrest] at hf
        exact hi.carries f (by rw [hdown]; exact List.mem_cons_of_mem _ hf)
    | telemetry x downlink hdown =>
      refine ⟨?_, hi.registered, ?_⟩
      · rw [trace, hdown]
        simp only [List.head?_cons, Option.bind_some, Transition.run, sessionOf, hdown]
        rfl
      · exact fun f hf ↦ hi.carries f (by rw [hdown]; exact List.mem_cons_of_mem _ hf)
  | lose n =>
    refine ⟨lose_moves n h, ?_⟩
    simp only [step, Option.ite_none_right_eq_some] at h
    rcases h with ⟨-, h⟩
    cases h
    exact ⟨hi.registered, fun f hf ↦ hi.carries f ((List.eraseIdx_sublist _ _).subset hf)⟩

/-- The system is simulated by the protocol, whose Teensy does other things as well. -/
theorem simulates (handlers : CommandHandlers BNO085) :
    Transition.Simulates step (Session.move handlers) sessionOf trace (Inv handlers) where
  keeps l s s' h hi := by
    rcases step_moves l h hi with ⟨hrun, hregistered, hcarries⟩
    exact ⟨hregistered, Transition.invariant Session.inv_move hi.session hrun, hcarries⟩
  moves l s s' h hi := (step_moves l h hi).1

/-- The invariant holds before the first step. -/
theorem inv_boot (params : Params) {startup : Firmware.Startup} {powerOnConfig : UInt8}
    (h : Firmware.setup startup (.start powerOnConfig) = .ok (some t)) :
    Inv t.handlers (boot params t) := by
  have hclient := (Firmware.setup_outputs h).2.1
  have hsession : sessionOf (boot params t) = Session.boot t.imu := by
    change (Session.boot ()).place [] t.client t.imu = _
    rw [hclient]
    rfl
  refine ⟨rfl, ?_, nofun⟩
  rw [hsession]
  exact Session.inv_boot t.handlers t.imu

end BlueROV2.Vehicle
