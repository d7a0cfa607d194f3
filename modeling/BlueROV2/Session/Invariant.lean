import BlueROV2.Link.Commands
import BlueROV2.Session.System

/-!
# What holds of every run of the protocol

Library `Session`. Attempts are numbered in the order in which they are made, their frames
stay in that order on the way to the Teensy and back, and every frame says what the attempt
it belongs to stands for. Nothing here depends on how late a response arrives.
-/

namespace BlueROV2.Session

open BlueROV2.Base BlueROV2.Wire BlueROV2.Link
open Driver (Commands Reader Response)
open Firmware (CommandHandlers Effect findHandler)

variable {W : Type} (handlers : CommandHandlers W)

/-- The effects of the Teensy produce the result `r` for a command: its handler ran once and
returned `r`, or it has no handler and is unknown. -/
def Produces (effects : List Effect) (commandId : CommandId) (r : CommandResponse) : Prop :=
  Firmware.handledBy effects = [(commandId, r)] ∨
    findHandler handlers commandId = .ok none ∧ Firmware.handledBy effects = [] ∧
      r = .unknownCommand

/-- The frame of an attempt. -/
def commandFrame (a : Attempt) : List UInt8 :=
  frame Firmware.crcOf ⟨.command, .imu01, [a.commandId.byte, a.seq, a.arg]⟩

/-- The frame of a response with a given value. -/
def responseFrame (v : Response) : List UInt8 :=
  frame Firmware.crcOf ⟨.commandResponse, .imu01, v.toList⟩

private theorem response_eq (v : Response) : ∃ id result, v = #v[id, v[1], result] := by
  rcases v with ⟨⟨l⟩, hl⟩
  match l, hl with
  | [id, _, result], _ => exact ⟨id, result, rfl⟩

/-- A poll at which the frame of an attempt arrives produces a result for its command and
writes the response with the sequence number of the attempt. -/
theorem pollCommand_commandFrame (a : Attempt) {c : Firmware.Client} (hidle : c.Idle) (w : W) :
    ∃ effects c' w' r, Firmware.pollCommand handlers (commandFrame a ++ [0]) c w =
        .ok (effects, c', w') ∧ c'.Idle ∧ Produces handlers effects a.commandId r ∧
      Firmware.writtenBy effects = [responseFrame #v[a.commandId.byte, a.seq, r.byte] ++ [0]] := by
  have hfind := Firmware.findHandler_eq handlers a.commandId
  cases hh : Firmware.handlerFor handlers a.commandId with
  | none =>
    have he : Firmware.execute handlers a.commandId w = (.unknownCommand, [], w) := by
      simp only [Firmware.execute, hh]
    rcases Firmware.pollCommand_command handlers .imu01 a.commandId a.seq a.arg hidle he with
      ⟨c', hpoll, hidle'⟩
    rw [hh] at hfind
    exact ⟨_, c', _, .unknownCommand, hpoll, hidle', Or.inr ⟨hfind, rfl, rfl⟩, rfl⟩
  | some handler =>
    have he : Firmware.execute handlers a.commandId w =
        ((handler w).1, [.handle a.commandId (handler w).1], (handler w).2) := by
      simp only [Firmware.execute, hh]
    rcases Firmware.pollCommand_command handlers .imu01 a.commandId a.seq a.arg hidle he with
      ⟨c', hpoll, hidle'⟩
    exact ⟨_, c', _, (handler w).1, hpoll, hidle', Or.inl rfl, rfl⟩

namespace State

/-- A call whose frame is not written yet holds it back. -/
def unsent (s : State W) : List Nat :=
  match s.call with
  | some ⟨_, _, _, .send future _⟩ => [future]
  | _ => []

/-- The attempts whose frames were taken by the Teensy, are on the way to it, or are about to
be written, in this order. -/
def path (s : State W) : List Nat :=
  s.executed.map (·.1) ++ s.uplink.map (·.attempt) ++ s.unsent

/-- The attempts whose responses satisfied a promise or are on the way to the driver. -/
def answers (s : State W) : List Nat := s.completed.map (·.1) ++ s.downlink.map (·.attempt)

end State

/-- `v` is the response the Teensy gave to attempt `i`. -/
def Answers (s : State W) (i : Nat) (v : Response) : Prop :=
  ∃ a effects r, s.attempts[i]? = some a ∧ (i, effects) ∈ s.executed ∧
    Produces handlers effects a.commandId r ∧ v = #v[a.commandId.byte, a.seq, r.byte]

/-- The future a call is at, once it has one. -/
def Phase.future : Phase → Option Nat
  | .loop => none
  | .send future _ => some future
  | .wait future => some future

/-- The invariant of the protocol. -/
structure Inv (s : State W) : Prop where
  idle : s.teensy.Idle
  empty : ∀ r, s.client = some r → r.accumulated = []
  shared : s.commands.shared.length = s.attempts.length
  base : s.base ≤ s.attempts.length
  -- the attempts of earlier sessions come first, those of this one are counted from one
  earlier : ∀ i a, s.attempts[i]? = some a → i < s.base → a.session < s.sessions
  current : ∀ i a, s.attempts[i]? = some a → s.base ≤ i →
    a.session = s.sessions ∧ a.ordinal = i - s.base + 1
  counter : s.client ≠ none → s.commands.commandSeq = UInt8.ofNat (s.attempts.length - s.base)
  cleaned : s.client = none →
    s.commands.commandSeq = 0 ∧ s.commands.pendingPromise = none ∧ s.call = none
  -- only the last attempt is ever pending
  pending : ∀ p, s.commands.pendingPromise = some p → p + 1 = s.attempts.length ∧ s.base ≤ p ∧
    s.commands.shared[p]? = some none ∧
    s.commands.pendingSeq = UInt8.ofNat (s.attempts.length - s.base)
  calling : ∀ commandId arg n phase future, s.call = some ⟨commandId, arg, n, phase⟩ →
    phase.future = some future → future + 1 = s.attempts.length ∧ s.base ≤ future ∧
      ∃ a, s.attempts[future]? = some a ∧ a.commandId = commandId ∧ a.arg = arg
  sending : ∀ commandId arg n future seq, s.call = some ⟨commandId, arg, n, .send future seq⟩ →
    seq = UInt8.ofNat (s.attempts.length - s.base)
  -- frames stay in the order of their attempts
  path : s.path.Pairwise (· < ·)
  known : ∀ i ∈ s.path, i < s.attempts.length
  commands : ∀ f ∈ s.uplink, ∃ a, s.attempts[f.attempt]? = some a ∧ f.bytes = commandFrame a ++ [0]
  answers : s.answers.Sublist (s.executed.map (·.1))
  responses : ∀ f ∈ s.downlink, ∃ v, Answers handlers s f.attempt v ∧
    f.bytes = responseFrame v ++ [0]
  -- a promise has a value exactly when a response completed it
  satisfied : ∀ p v, s.commands.shared[p]? = some (some v) →
    ∃ i, (i, p) ∈ s.completed ∧ Answers handlers s i v
  completed : ∀ c ∈ s.completed, ∃ v, s.commands.shared[c.2]? = some (some v)
  promises : (s.completed.map (·.2)).Pairwise (· < ·)

/-- The invariant holds of a driver just constructed. -/
theorem inv_boot (w : W) : Inv handlers (boot w) where
  idle := ⟨rfl, Firmware.SerialBuffer.holds_start⟩
  empty := nofun
  shared := rfl
  base := Nat.le_refl 0
  earlier := nofun
  current := nofun
  counter := fun h ↦ absurd rfl h
  cleaned := fun _ ↦ ⟨rfl, rfl, rfl⟩
  pending := nofun
  calling := nofun
  sending := nofun
  path := List.Pairwise.nil
  known := nofun
  commands := nofun
  answers := List.Sublist.refl []
  responses := nofun
  satisfied := nofun
  completed := nofun
  promises := List.Pairwise.nil

variable {handlers} {s s' : State W}

/-- History only grows, so what answers an attempt keeps doing so. -/
theorem Answers.mono {i : Nat} {v : Response} (h : Answers handlers s i v)
    (ha : ∀ (i : Nat) (a : Attempt), s.attempts[i]? = some a → s'.attempts[i]? = some a)
    (he : ∀ x ∈ s.executed, x ∈ s'.executed) : Answers handlers s' i v := by
  rcases h with ⟨a, effects, r, hi, hx, hp, hv⟩
  exact ⟨a, effects, r, ha i a hi, he _ hx, hp, hv⟩

namespace Inv

/-- A session belongs to the driver's past or present. -/
theorem session_le (hi : Inv handlers s) {i : Nat} {a : Attempt} (h : s.attempts[i]? = some a) :
    a.session ≤ s.sessions := by
  by_cases hb : i < s.base
  · exact Nat.le_of_lt (hi.earlier i a h hb)
  · exact Nat.le_of_eq (hi.current i a h (by omega)).1

/-- The sequence number of an attempt of this session counts the attempts up to it. -/
theorem seq_eq (hi : Inv handlers s) {i : Nat} {a : Attempt} (h : s.attempts[i]? = some a)
    (hb : s.base ≤ i) : a.seq = UInt8.ofNat (i - s.base + 1) := by
  rw [Attempt.seq, (hi.current i a h hb).2]

/-- While a call is under way there is a client. -/
theorem client_of_call (hi : Inv handlers s) {call : Call} (h : s.call = some call) :
    s.client ≠ none := by
  intro hnone
  rw [(hi.cleaned hnone).2.2] at h
  cases h

/-- Ending a call, or moving it to the test of its loop, keeps the invariant. -/
theorem setCall (hi : Inv handlers s) (call : Option Call) (returned : List Return)
    (h : ∀ commandId arg n phase, call = some ⟨commandId, arg, n, phase⟩ →
      phase = .loop ∧ s.client ≠ none) : Inv handlers { s with call, returned } := by
  have hunsent : State.unsent { s with call, returned } = [] := by
    unfold State.unsent
    split
    · next hc => exact absurd (h _ _ _ _ hc).1 (by simp)
    · rfl
  have hpath : (State.path { s with call, returned }).Sublist s.path := by
    unfold State.path
    rw [hunsent, List.append_nil]
    exact List.sublist_append_left _ _
  exact { hi with
    cleaned := by
      intro hnone
      refine ⟨(hi.cleaned hnone).1, (hi.cleaned hnone).2.1, ?_⟩
      cases hc : call with
      | none => rfl
      | some c => exact absurd hnone (h _ _ _ _ hc).2
    calling := by
      intro commandId arg n phase future hc hf
      rw [(h _ _ _ _ hc).1] at hf
      cases hf
    sending := by
      intro commandId arg n future seq hc
      cases (h _ _ _ _ hc).1
    path := hi.path.sublist hpath
    known := fun i hmem ↦ hi.known i (hpath.subset hmem) }

/-- Returning from a call keeps the invariant. -/
theorem finish (hi : Inv handlers s) (commandId : CommandId) (r : Bool × String) :
    Inv handlers (s.finish commandId r) :=
  hi.setCall none _ nofun

/-- Configuring keeps the invariant: all attempts belong to earlier sessions now. -/
theorem configure (hi : Inv handlers s) (n : Nat) (hnone : s.client = none) :
    Inv handlers { s with
      client := some .start, commandRetries := n
      sessions := s.sessions + 1, base := s.attempts.length } := by
  have hclean := hi.cleaned hnone
  exact { hi with
    empty := by
      intro r hr
      cases hr
      rfl
    base := Nat.le_refl _
    earlier := fun i a ha _ ↦ Nat.lt_succ_of_le (hi.session_le ha)
    current := by
      intro i a ha hb
      rw [List.getElem?_eq_none hb] at ha
      cases ha
    counter := by
      intro _
      simp only [Nat.sub_self]
      exact hclean.1
    cleaned := nofun
    pending := by
      intro p hp
      rw [hclean.2.1] at hp
      cases hp
    calling := by
      intro commandId arg n phase future hc
      rw [hclean.2.2] at hc
      cases hc
    sending := by
      intro commandId arg n future seq hc
      rw [hclean.2.2] at hc
      cases hc }

/-- Cleaning up keeps the invariant. -/
theorem cleanup (hi : Inv handlers s) (hcall : s.call = none) :
    Inv handlers { s with client := none, commands := s.commands.cleanup } :=
  { hi with
    empty := nofun
    counter := fun h ↦ absurd rfl h
    cleaned := fun _ ↦ ⟨rfl, rfl, hcall⟩
    pending := nofun }

private theorem getElem?_concat {α : Type} {l : List α} {x y : α} {i : Nat}
    (h : (l ++ [x])[i]? = some y) : l[i]? = some y ∨ i = l.length ∧ x = y := by
  rcases Nat.lt_trichotomy i l.length with hlt | heq | hgt
  · rw [List.getElem?_append_left hlt] at h
    exact Or.inl h
  · subst heq
    rw [List.getElem?_concat_length] at h
    exact Or.inr ⟨rfl, Option.some.inj h⟩
  · rw [List.getElem?_eq_none (by simp; omega)] at h
    cases h

private theorem getElem?_concat_of_some {α : Type} {l : List α} {x y : α} {i : Nat}
    (h : l[i]? = some y) : (l ++ [x])[i]? = some y := by
  rw [List.getElem?_append_left (List.getElem?_eq_some_iff.mp h).1, h]

/-- Beginning an attempt keeps the invariant: it is the last one, and the only pending one. -/
theorem attempt (hi : Inv handlers s) {commandId : CommandId} {arg : UInt8} {n : Nat}
    (hc : s.call = some ⟨commandId, arg, n, .loop⟩) : Inv handlers { s with
      commands := s.commands.attempt.2.2
      call := some ⟨commandId, arg, n, .send s.commands.attempt.2.1 s.commands.attempt.1⟩
      attempts :=
        s.attempts ++ [⟨s.sessions, s.attempts.length - s.base + 1, commandId, arg⟩] } := by
  have hclient := hi.client_of_call hc
  have hlen := hi.shared
  have hbase := hi.base
  have hseq : s.commands.commandSeq + 1 =
      UInt8.ofNat ((s.attempts ++ [(⟨s.sessions, s.attempts.length - s.base + 1, commandId,
        arg⟩ : Attempt)]).length - s.base) := by
    rw [hi.counter hclient, List.length_append, List.length_singleton, Nat.sub_add_comm hbase,
      UInt8.ofNat_add]
    rfl
  have hpath : State.path { s with
      commands := s.commands.attempt.2.2
      call := some ⟨commandId, arg, n, .send s.commands.shared.length (s.commands.commandSeq + 1)⟩
      attempts := s.attempts ++ [⟨s.sessions, s.attempts.length - s.base + 1, commandId, arg⟩] } =
        s.path ++ [s.commands.shared.length] := by
    simp only [State.path, State.unsent, hc, List.append_nil]
  exact { hi with
    shared := by
      simp only [Driver.Commands.shared_attempt, List.length_append, List.length_singleton, hlen]
    base := by
      simp only [List.length_append]
      omega
    earlier := by
      intro i a ha hb
      rcases getElem?_concat ha with ha | ⟨rfl, rfl⟩
      · exact hi.earlier i a ha hb
      · simp only at hb
        omega
    current := by
      intro i a ha hb
      rcases getElem?_concat ha with ha | ⟨rfl, rfl⟩
      · exact hi.current i a ha hb
      · exact ⟨rfl, rfl⟩
    counter := fun _ ↦ hseq
    cleaned := fun hnone ↦ absurd hnone hclient
    pending := by
      intro p hp
      obtain rfl : s.commands.shared.length = p := Option.some.inj hp
      refine ⟨?_, ?_, ?_, hseq⟩
      · simp only [List.length_append, List.length_singleton, hlen]
      · simp only [hlen]
        exact hbase
      · simp only [Driver.Commands.shared_attempt, List.getElem?_concat_length]
    calling := by
      intro commandId' arg' n' phase future hc' hf
      cases hc'
      obtain rfl : s.commands.shared.length = future := Option.some.inj hf
      refine ⟨?_, ?_, ⟨s.sessions, s.attempts.length - s.base + 1, commandId, arg⟩, ?_, rfl, rfl⟩
      · simp only [List.length_append, List.length_singleton, hlen]
      · simp only [hlen]
        exact hbase
      · simp only [hlen, List.getElem?_concat_length]
    sending := by
      intro commandId' arg' n' future seq hc'
      cases hc'
      exact hseq
    path := by
      apply hpath ▸ List.pairwise_append.mpr ⟨hi.path, List.pairwise_singleton _ _, ?_⟩
      intro i hmem j hj
      rw [List.mem_singleton.mp hj, hlen]
      exact hi.known i hmem
    known := by
      intro i hmem
      rw [List.length_append, List.length_singleton]
      rcases List.mem_append.mp (hpath ▸ hmem) with hmem | hmem
      · exact Nat.lt_succ_of_lt (hi.known i hmem)
      · rw [List.mem_singleton.mp hmem, hlen]
        exact Nat.lt_succ_self _
    commands := by
      intro f hf
      rcases hi.commands f hf with ⟨a, ha, hb⟩
      exact ⟨a, getElem?_concat_of_some ha, hb⟩
    responses := by
      intro f hf
      rcases hi.responses f hf with ⟨v, ha, hb⟩
      exact ⟨v, ha.mono (fun i a ↦ getElem?_concat_of_some) (fun x hx ↦ hx), hb⟩
    satisfied := by
      intro p v hp
      rcases getElem?_concat hp with hp | ⟨-, hp⟩
      · rcases hi.satisfied p v hp with ⟨i, hmem, ha⟩
        exact ⟨i, hmem, ha.mono (fun i a ↦ getElem?_concat_of_some) (fun x hx ↦ hx)⟩
      · cases hp
    completed := by
      intro c hmem
      rcases hi.completed c hmem with ⟨v, hv⟩
      exact ⟨v, getElem?_concat_of_some hv⟩ }

/-- Sending the frame of an attempt keeps the invariant. -/
theorem send (hi : Inv handlers s) {commandId : CommandId} {arg seq : UInt8} {n future : Nat}
    {bytes : List UInt8} (hc : s.call = some ⟨commandId, arg, n, .send future seq⟩)
    (hframe : Driver.encodePacket .command .imu01 [commandId.byte, seq, arg] = .ok bytes) :
    Inv handlers { s with
      call := some ⟨commandId, arg, n, .wait future⟩
      uplink := s.uplink ++ [⟨future, bytes⟩] } := by
  rcases hi.calling _ _ _ _ future hc rfl with ⟨hlast, hb, a, ha, rfl, rfl⟩
  have hseq : seq = a.seq := by
    rw [hi.sending _ _ _ _ _ hc, hi.seq_eq ha hb]
    congr 1
    omega
  have hencode := Driver.encodePacket_eq ⟨.command, .imu01, [a.commandId.byte, seq, a.arg]⟩
    (by decide : 3 ≤ 64)
  have hbytes : bytes = commandFrame a ++ [0] := by
    rw [← Except.ok.inj (hencode.symm.trans hframe), hseq, commandFrame, crcOf_eq_calculateCrc]
  have hpath : State.path { s with
      call := some ⟨a.commandId, a.arg, n, .wait future⟩
      uplink := s.uplink ++ [⟨future, bytes⟩] } = s.path := by
    simp only [State.path, State.unsent, hc, List.map_append, List.map_singleton,
      List.append_nil, List.append_assoc]
  exact { hi with
    cleaned := fun hnone ↦ absurd hnone (hi.client_of_call hc)
    calling := by
      intro commandId' arg' n' phase future' hc' hf
      cases hc'
      obtain rfl : future = future' := Option.some.inj hf
      exact ⟨hlast, hb, a, ha, rfl, rfl⟩
    sending := by
      intro commandId' arg' n' future' seq' hc'
      cases hc'
    path := hpath ▸ hi.path
    known := fun i hmem ↦ hi.known i (hpath ▸ hmem)
    commands := by
      intro f hf
      rcases List.mem_append.mp hf with hf | hf
      · exact hi.commands f hf
      · rw [List.mem_singleton.mp hf]
        exact ⟨a, ha, hbytes⟩ }

/-- A failed write keeps the invariant. -/
theorem linkDown (hi : Inv handlers s) (commandId : CommandId) {reader : Driver.Reader}
    (hr : s.client = some reader) : Inv handlers
      { s.finish commandId (false, "The serial link to the Teensy is down") with
        client := some { reader with connected := false } } := by
  have hfin := hi.finish commandId (false, "The serial link to the Teensy is down")
  exact { hfin with
    empty := by
      intro r hr'
      cases hr'
      exact hi.empty reader hr
    counter := fun _ ↦ hfin.counter (fun hnone ↦ nomatch hr.symm.trans hnone)
    cleaned := nofun }

/-- Losing command frames keeps the invariant. -/
theorem uplink (hi : Inv handlers s) {uplink : List Flight} (h : uplink.Sublist s.uplink) :
    Inv handlers { s with uplink } := by
  have hpath : (State.path { s with uplink }).Sublist s.path :=
    (((List.Sublist.refl _).append (h.map _)).append (List.Sublist.refl _))
  exact { hi with
    path := hi.path.sublist hpath
    known := fun i hmem ↦ hi.known i (hpath.subset hmem)
    commands := fun f hf ↦ hi.commands f (h.subset hf) }

/-- Losing response frames keeps the invariant. -/
theorem downlink (hi : Inv handlers s) {downlink : List Flight}
    (h : downlink.Sublist s.downlink) : Inv handlers { s with downlink } :=
  { hi with
    answers := ((List.Sublist.refl _).append (h.map _)).trans hi.answers
    responses := fun f hf ↦ hi.responses f (h.subset hf) }

/-- A poll of the next command frame keeps the invariant. -/
theorem poll (hi : Inv handlers s) {f : Flight} {uplink : List Flight} {effects : List Effect}
    {teensy : Firmware.Client} {world : W} (hup : s.uplink = f :: uplink)
    (hpoll : Firmware.pollCommand handlers f.bytes s.teensy s.world =
      .ok (effects, teensy, world)) :
    Inv handlers { s with
      uplink, teensy, world
      downlink := s.downlink ++ (Firmware.writtenBy effects).map (⟨f.attempt, ·⟩)
      executed := s.executed ++ [(f.attempt, effects)] } := by
  rcases hi.commands f (by rw [hup]; exact List.mem_cons_self) with ⟨a, ha, hbytes⟩
  rcases pollCommand_commandFrame handlers a hi.idle s.world with
    ⟨effects', c', w', r, hpoll', hidle, hprod, hwritten⟩
  rw [hbytes, hpoll'] at hpoll
  cases hpoll
  rw [hwritten]
  have hgrow : ∀ x ∈ s.executed, x ∈ s.executed ++ [(f.attempt, effects)] :=
    fun x hx ↦ List.mem_append_left _ hx
  have hpath : (s.executed ++ [(f.attempt, effects)]).map (·.1) ++ uplink.map (·.attempt) ++
      s.unsent = s.path := by
    simp [State.path, hup]
  exact { hi with
    idle := hidle
    path := by
      have hp := hi.path
      rw [← hpath] at hp
      exact hp
    known := by
      intro i hmem
      apply hi.known i
      rw [← hpath]
      exact hmem
    commands := fun g hg ↦ hi.commands g (by rw [hup]; exact List.mem_cons_of_mem _ hg)
    answers := by
      have hsub := hi.answers.append (List.Sublist.refl [f.attempt])
      simpa [State.answers] using hsub
    responses := by
      intro g hg
      rcases List.mem_append.mp hg with hg | hg
      · rcases hi.responses g hg with ⟨v, hv, hb⟩
        exact ⟨v, hv.mono (fun i a ha ↦ ha) hgrow, hb⟩
      · rw [List.map_singleton, List.mem_singleton] at hg
        subst hg
        exact ⟨_, ⟨a, effects, r, ha, List.mem_append_right _ List.mem_cons_self, hprod, rfl⟩, rfl⟩
    satisfied := by
      intro p v hp
      rcases hi.satisfied p v hp with ⟨i, hmem, hv⟩
      exact ⟨i, hmem, hv.mono (fun i a ha ↦ ha) hgrow⟩ }

end Inv

/-! ### Deliveries -/

/-- What the delivery of a response does: nothing but take it off the link, unless it carries
the sequence number of the pending attempt, whose promise it then satisfies. -/
inductive Delivered (s : State W) (f : Flight) (downlink : List Flight) (v : Response) :
    State W → Prop
  | stale (h : ∀ p, s.commands.pendingPromise = some p → v[1] ≠ s.commands.pendingSeq) :
      Delivered s f downlink v { s with downlink }
  | pending (p : Nat) (hp : s.commands.pendingPromise = some p)
      (hseq : v[1] = s.commands.pendingSeq) :
      Delivered s f downlink v { s with
        downlink
        commands := { s.commands with
          shared := s.commands.shared.set p (some v), pendingPromise := none }
        completed := s.completed ++ [(f.attempt, p)] }

/-- The response at the head of the link can be delivered: no callback throws. -/
theorem Inv.deliver_enabled (hi : Inv handlers s) {f : Flight} {downlink : List Flight}
    {reader : Reader} (hdown : s.downlink = f :: downlink) (hr : s.client = some reader) :
    ∃ v s', Answers handlers s f.attempt v ∧ s.deliver = some s' ∧
      Delivered s f downlink v s' := by
  rcases hi.responses f (by rw [hdown]; exact List.mem_cons_self) with ⟨v, hv, hbytes⟩
  rcases response_eq v with ⟨id, result, hval⟩
  have hlist : v.toList = [id, v[1], result] := congrArg Vector.toList hval
  have hpoll := Driver.pollConnection_response (hi.empty reader hr) s.commands
    ⟨.commandResponse, .imu01, v.toList⟩ rfl
  rw [← crcOf_eq_calculateCrc, ← responseFrame, ← hbytes] at hpoll
  by_cases hstale : ∀ p, s.commands.pendingPromise = some p → v[1] ≠ s.commands.pendingSeq
  · rw [Driver.commandResponse_of_stale hlist hstale] at hpoll
    refine ⟨v, { s with downlink }, hv, ?_, .stale hstale⟩
    have hnone : State.completion f s.commands s.commands = [] := by
      unfold State.completion
      split
      · next p hp => rw [if_neg (by simp [hp])]
      · rfl
    unfold State.deliver
    simp only [hdown, hr, hpoll, Except.map, hnone, List.append_nil]
  · obtain ⟨p, hp, hseq⟩ : ∃ p, s.commands.pendingPromise = some p ∧
        v[1] = s.commands.pendingSeq := by
      simpa using hstale
    rw [Driver.commandResponse_of_pending hlist hp hseq (hi.pending p hp).2.2.1] at hpoll
    rw [← hval] at hpoll
    refine ⟨v, _, hv, ?_, .pending p hp hseq⟩
    unfold State.deliver
    simp only [hdown, hr, hpoll, Except.map, State.completion, hp, if_true]

/-- Every delivery is one of these. -/
theorem Inv.deliver_cases (hi : Inv handlers s) (h : s.deliver = some s') :
    ∃ f downlink v, s.downlink = f :: downlink ∧ s.client ≠ none ∧
      Answers handlers s f.attempt v ∧ Delivered s f downlink v s' := by
  have hcopy := h
  unfold State.deliver at h
  split at h
  · next f downlink reader hdown hr =>
    rcases hi.deliver_enabled hdown hr with ⟨v, s₁, hv, hd, hcases⟩
    obtain rfl : s₁ = s' := Option.some.inj (hd.symm.trans hcopy)
    exact ⟨f, downlink, v, hdown, by rw [hr]; exact Option.some_ne_none _, hv, hcases⟩
  · cases h

/-- A delivery keeps the invariant. -/
theorem Inv.deliver (hi : Inv handlers s) (h : s.deliver = some s') : Inv handlers s' := by
  rcases hi.deliver_cases h with ⟨f, downlink, v, hdown, hclient, hv, hcases⟩
  have hrest : downlink.Sublist s.downlink := by
    rw [hdown]
    exact List.sublist_cons_self _ _
  cases hcases with
  | stale hstale => exact hi.downlink hrest
  | pending p hp hseq =>
    rcases hi.pending p hp with ⟨hlast, -, hfree, -⟩
    have hlt : p < s.commands.shared.length := (List.getElem?_eq_some_iff.mp hfree).1
    have hother : ∀ c ∈ s.completed, c.2 ≠ p := by
      intro c hc heq
      rcases hi.completed c hc with ⟨w, hw⟩
      rw [heq, hfree] at hw
      cases hw
    exact { hi with
      shared := by simpa using hi.shared
      counter := hi.counter
      cleaned := fun hnone ↦ absurd hnone hclient
      pending := nofun
      answers := by
        have hsub := hi.answers
        simpa [State.answers, hdown] using hsub
      responses := fun g hg ↦ hi.responses g (hrest.subset hg)
      satisfied := by
        intro q w hq
        by_cases heq : p = q
        · subst heq
          rw [List.getElem?_set_self hlt] at hq
          obtain rfl : v = w := Option.some.inj (Option.some.inj hq)
          exact ⟨f.attempt, List.mem_append_right _ List.mem_cons_self, hv⟩
        · rw [List.getElem?_set_ne heq] at hq
          rcases hi.satisfied q w hq with ⟨i, hmem, ha⟩
          exact ⟨i, List.mem_append_left _ hmem, ha⟩
      completed := by
        intro c hc
        rcases List.mem_append.mp hc with hc | hc
        · rcases hi.completed c hc with ⟨w, hw⟩
          exact ⟨w, by rw [List.getElem?_set_ne (Ne.symm (hother c hc)), hw]⟩
        · rw [List.mem_singleton.mp hc]
          exact ⟨v, List.getElem?_set_self hlt⟩
      promises := by
        rw [List.map_append, List.map_singleton, List.pairwise_append]
        refine ⟨hi.promises, List.pairwise_singleton _ _, ?_⟩
        intro q hq r hr
        rw [List.mem_singleton.mp hr]
        rcases List.mem_map.mp hq with ⟨c, hc, rfl⟩
        rcases hi.completed c hc with ⟨w, hw⟩
        have hclt := (List.getElem?_eq_some_iff.mp hw).1
        have hshared := hi.shared
        have hne := hother c hc
        omega }

/-- Every step keeps the invariant. -/
theorem inv_step (l : Label) (s s' : State W) (h : step handlers l s = some s')
    (hi : Inv handlers s) : Inv handlers s' := by
  cases takes_of_step h with
  | configure n hclient => exact hi.configure n hclient
  | cleanup hcall => exact hi.cleanup hcall
  | call commandId arg hclient =>
    apply hi.setCall
    intro commandId' arg' n phase hcall
    cases hcall
    exact ⟨rfl, hclient⟩
  | attempt hcall => exact hi.attempt hcall
  | giveUp => exact hi.finish _ _
  | send hcall hframe => exact hi.send hcall hframe
  | unsent => exact hi.finish _ _
  | linkDown commandId hclient => exact hi.linkDown commandId hclient
  | timeout hcall =>
    apply hi.setCall
    intro commandId' arg' n phase hcall'
    cases hcall'
    exact ⟨rfl, hi.client_of_call hcall⟩
  | ready => exact hi.finish _ _
  | poll hup hpoll => exact hi.poll hup hpoll
  | deliver h => exact hi.deliver h
  | loseCommand i => exact hi.uplink (List.eraseIdx_sublist _ _)
  | loseResponse i => exact hi.downlink (List.eraseIdx_sublist _ _)

/-- What a step changes of the frames in flight and of the completed promises: it keeps them,
losing frames at most, or it sends, polls or delivers one frame. -/
inductive Moves (handlers : CommandHandlers W) (l : Label) (s : State W) : State W → Prop
  | keep {s' : State W} (hup : s'.uplink.Sublist s.uplink) (hdown : s'.downlink.Sublist s.downlink)
      (hcomp : s'.completed = s.completed) : Moves handlers l s s'
  | send {s' : State W} (f : Flight) (hf : s.base ≤ f.attempt) (hup : s'.uplink = s.uplink ++ [f])
      (hdown : s'.downlink = s.downlink) (hcomp : s'.completed = s.completed) :
      Moves handlers l s s'
  | poll {s' : State W} (f : Flight) (hup : s.uplink = f :: s'.uplink)
      (hdown : ∀ g ∈ s'.downlink, g ∈ s.downlink ∨ g.attempt = f.attempt)
      (hcomp : s'.completed = s.completed) : Moves handlers l s s'
  | deliver {s' : State W} (f : Flight) (downlink : List Flight) (v : Response)
      (hl : l = .deliver) (hdown : s.downlink = f :: downlink)
      (hv : Answers handlers s f.attempt v) (hcases : Delivered s f downlink v s') :
      Moves handlers l s s'

/-- Every step is one of these; it forgets no attempt, and begins a session only as a
transition of the lifecycle. -/
theorem Inv.moves (hi : Inv handlers s) {l : Label} (h : step handlers l s = some s') :
    Moves handlers l s s' ∧ s.attempts <+: s'.attempts ∧
      (l.lifecycle = false → s'.base = s.base) := by
  have hkeep : ∀ {s' : State W}, s'.uplink = s.uplink → s'.downlink = s.downlink →
      s'.completed = s.completed → Moves handlers l s s' := fun hup hdown hcomp ↦
    .keep (hup ▸ List.Sublist.refl _) (hdown ▸ List.Sublist.refl _) hcomp
  have hsame := List.prefix_refl s.attempts
  cases takes_of_step h with
  | configure | cleanup => exact ⟨hkeep rfl rfl rfl, hsame, nofun⟩
  | call | giveUp | unsent | linkDown | timeout | ready =>
    exact ⟨hkeep rfl rfl rfl, hsame, fun _ ↦ rfl⟩
  | attempt => exact ⟨hkeep rfl rfl rfl, List.prefix_append _ _, fun _ ↦ rfl⟩
  | send hcall =>
    exact ⟨.send _ (hi.calling _ _ _ _ _ hcall rfl).2.1 rfl rfl rfl, hsame, fun _ ↦ rfl⟩
  | poll hup =>
    refine ⟨.poll _ hup ?_ rfl, hsame, fun _ ↦ rfl⟩
    intro g hg
    rcases List.mem_append.mp hg with hg | hg
    · exact Or.inl hg
    · rcases List.mem_map.mp hg with ⟨bytes, -, rfl⟩
      exact Or.inr rfl
  | deliver h =>
    rcases hi.deliver_cases h with ⟨f, downlink, v, hdown, -, hv, hcases⟩
    refine ⟨.deliver f downlink v rfl hdown hv hcases, ?_⟩
    cases hcases with
    | stale => exact ⟨hsame, fun _ ↦ rfl⟩
    | pending => exact ⟨hsame, fun _ ↦ rfl⟩
  | loseCommand =>
    exact ⟨.keep (List.eraseIdx_sublist _ _) (List.Sublist.refl _) rfl, hsame, fun _ ↦ rfl⟩
  | loseResponse =>
    exact ⟨.keep (List.Sublist.refl _) (List.eraseIdx_sublist _ _) rfl, hsame, fun _ ↦ rfl⟩

/-- The invariant holds of every state of every run. -/
theorem inv_run {ls : List Label} {w : W}
    (h : Transition.run (step handlers) ls (boot w) = some s) :
    Inv handlers s :=
  Transition.invariant inv_step (inv_boot handlers w) h

end BlueROV2.Session
