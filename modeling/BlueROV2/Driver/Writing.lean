import Mathlib.Data.List.Nodup
import BlueROV2.Base.Transition

/-!
# Calls of `send` from several threads

Library `Driver`. `Client::send` in `modules/autonomy_pi/ros/autonomy_teensy/src/client.cpp`, called
any number of times by any threads. A write takes the port one or more steps, between which other
threads run, and it may fail after any part of its frame. The read thread marks the connection as
lost when it fails. The order in which the calls held `write_lock_` is history.
-/

namespace BlueROV2.Driver.Writing

open BlueROV2.Base

/-- Where a call stands: before the test of `connected_`, before `write_lock_`, in the write, behind
it with the lock still held, or returned. -/
inductive Phase where
  | entered
  | locking
  | writing
  | leaving (sent : Bool)
  | returned (sent : Bool)
  deriving DecidableEq, Repr

/-- A call of `send`, with the number of bytes of its frame that were written so far. -/
structure Call where
  frame : List UInt8
  phase : Phase
  written : Nat
  deriving DecidableEq, Repr

/-- The bytes of its frame that were written. -/
def Call.piece (c : Call) : List UInt8 := c.frame.take c.written

/-- `connected_`, the call that holds `write_lock_`, all calls made so far, and what was written;
`client.hpp:44–46`. -/
structure State where
  connected : Bool
  holder : Option Nat
  calls : List Call
  port : List UInt8
  /-- The calls that have released the lock, in order. -/
  turns : List Nat
  deriving DecidableEq, Repr

/-- A client just constructed. -/
def start : State := ⟨true, none, [], [], []⟩

/-- The steps. -/
inductive Label where
  | call (frame : List UInt8)
  | test (i : Nat)
  | lock (i : Nat)
  | write (i n : Nat)
  | fail (i : Nat)
  | complete (i : Nat)
  | leave (i : Nat)
  | readError
  deriving DecidableEq, Repr

namespace State

/-- A call goes on to another phase. -/
def setPhase (s : State) (i : Nat) (c : Call) (phase : Phase) : State :=
  { s with calls := s.calls.set i { c with phase } }

/-- A step of a call that stands at some place. -/
def onCall (s : State) (i : Nat) (f : Call → Option State) : Option State := s.calls[i]?.bind f

/-- Whether `connected_` is set; `client.cpp:53–55`. -/
def test (s : State) (i : Nat) : Option State := s.onCall i fun c ↦
  if c.phase = .entered then
    some (s.setPhase i c (if s.connected then .locking else .returned false))
  else none

/-- The lock is taken, when no call holds it; `client.cpp:57`. -/
def lock (s : State) (i : Nat) : Option State := s.onCall i fun c ↦
  if c.phase = .locking ∧ s.holder = none then
    some { s.setPhase i c .writing with holder := some i }
  else none

/-- The port takes some more bytes; `client.cpp:60`. -/
def write (s : State) (i n : Nat) : Option State := s.onCall i fun c ↦
  if c.phase = .writing ∧ 0 < n ∧ c.written + n ≤ c.frame.length then
    some { s with
      calls := s.calls.set i { c with written := c.written + n }
      port := s.port ++ (c.frame.drop c.written).take n }
  else none

/-- The port takes no more bytes, before the end of the frame; `client.cpp:62–65`. -/
def fail (s : State) (i : Nat) : Option State := s.onCall i fun c ↦
  if c.phase = .writing ∧ c.written < c.frame.length then
    some { s.setPhase i c (.leaving false) with connected := false }
  else none

/-- The frame is written; `client.cpp:67`. -/
def complete (s : State) (i : Nat) : Option State := s.onCall i fun c ↦
  if c.phase = .writing ∧ c.written = c.frame.length then some (s.setPhase i c (.leaving true))
  else none

/-- The lock is released, and the call returns; `client.cpp:64,67`. -/
def leave (s : State) (i : Nat) : Option State := s.onCall i fun c ↦
  match c.phase with
  | .leaving sent =>
    some { s.setPhase i c (.returned sent) with holder := none, turns := s.turns ++ [i] }
  | _ => none

end State

/-- The steps of all threads; the read thread gives up at an error; `client.cpp:102–105`. -/
def step : Label → State → Option State
  | .call frame, s => some { s with calls := s.calls ++ [⟨frame, .entered, 0⟩] }
  | .test i, s => s.test i
  | .lock i, s => s.lock i
  | .write i n, s => s.write i n
  | .fail i, s => s.fail i
  | .complete i, s => s.complete i
  | .leave i, s => s.leave i
  | .readError, s => some { s with connected := false }

/-- What each step needs and what it leads to. -/
inductive Takes (s : State) : Label → State → Prop
  | call (frame : List UInt8) :
      Takes s (.call frame) { s with calls := s.calls ++ [⟨frame, .entered, 0⟩] }
  | test {i : Nat} {c : Call} (hc : s.calls[i]? = some c) (hphase : c.phase = .entered) :
      Takes s (.test i) (s.setPhase i c (if s.connected then .locking else .returned false))
  | lock {i : Nat} {c : Call} (hc : s.calls[i]? = some c) (hphase : c.phase = .locking)
      (hfree : s.holder = none) :
      Takes s (.lock i) { s.setPhase i c .writing with holder := some i }
  | write {i n : Nat} {c : Call} (hc : s.calls[i]? = some c) (hphase : c.phase = .writing)
      (hfits : c.written + n ≤ c.frame.length) : Takes s (.write i n) { s with
        calls := s.calls.set i { c with written := c.written + n }
        port := s.port ++ (c.frame.drop c.written).take n }
  | fail {i : Nat} {c : Call} (hc : s.calls[i]? = some c) (hphase : c.phase = .writing)
      (hshort : c.written < c.frame.length) :
      Takes s (.fail i) { s.setPhase i c (.leaving false) with connected := false }
  | complete {i : Nat} {c : Call} (hc : s.calls[i]? = some c) (hphase : c.phase = .writing)
      (hwhole : c.written = c.frame.length) : Takes s (.complete i) (s.setPhase i c (.leaving true))
  | leave {i : Nat} {c : Call} {sent : Bool} (hc : s.calls[i]? = some c)
      (hphase : c.phase = .leaving sent) : Takes s (.leave i)
        { s.setPhase i c (.returned sent) with holder := none, turns := s.turns ++ [i] }
  | readError : Takes s .readError { s with connected := false }

/-- A step of a call is one of a call that was made. -/
theorem onCall_eq_some {s s' : State} {i : Nat} {f : Call → Option State}
    (h : s.onCall i f = some s') : ∃ c, s.calls[i]? = some c ∧ f c = some s' :=
  Option.bind_eq_some_iff.mp h

/-- Every step is one of these. -/
theorem takes_of_step {l : Label} {s s' : State} (h : step l s = some s') : Takes s l s' := by
  cases l with
  | call frame =>
    cases h
    exact .call frame
  | test i =>
    rcases onCall_eq_some h with ⟨c, hc, hstep⟩
    simp only [Option.ite_none_right_eq_some] at hstep
    cases hstep.2
    exact .test hc hstep.1
  | lock i =>
    rcases onCall_eq_some h with ⟨c, hc, hstep⟩
    simp only [Option.ite_none_right_eq_some] at hstep
    cases hstep.2
    exact .lock hc hstep.1.1 hstep.1.2
  | write i n =>
    rcases onCall_eq_some h with ⟨c, hc, hstep⟩
    simp only [Option.ite_none_right_eq_some] at hstep
    cases hstep.2
    exact .write hc hstep.1.1 hstep.1.2.2
  | fail i =>
    rcases onCall_eq_some h with ⟨c, hc, hstep⟩
    simp only [Option.ite_none_right_eq_some] at hstep
    cases hstep.2
    exact .fail hc hstep.1.1 hstep.1.2
  | complete i =>
    rcases onCall_eq_some h with ⟨c, hc, hstep⟩
    simp only [Option.ite_none_right_eq_some] at hstep
    cases hstep.2
    exact .complete hc hstep.1.1 hstep.1.2
  | leave i =>
    rcases onCall_eq_some h with ⟨c, hc, hstep⟩
    split at hstep
    · next hphase =>
      cases hstep
      exact .leave hc hphase
    · cases hstep
  | readError =>
    cases h
    exact .readError

/-! ### What is on the port -/

namespace State

/-- The calls that have held the lock, and the one that holds it, in order. -/
def order (s : State) : List Nat := s.turns ++ s.holder.toList

/-- What a call has written. -/
def piece (s : State) (i : Nat) : List UInt8 := (s.calls[i]?.map Call.piece).getD []

end State

/-- What is known of a call by its phase. -/
def Call.Sound (s : State) (i : Nat) (c : Call) : Prop :=
  match c.phase with
  | .entered | .locking => i ∉ s.order ∧ c.written = 0
  | .writing => s.holder = some i ∧ c.written ≤ c.frame.length
  | .leaving true => s.holder = some i ∧ c.written = c.frame.length
  | .leaving false => s.holder = some i ∧ c.written < c.frame.length ∧ s.connected = false
  | .returned true => i ∈ s.turns ∧ c.written = c.frame.length
  | .returned false =>
    s.connected = false ∧ (i ∉ s.order ∧ c.written = 0 ∨ i ∈ s.turns ∧ c.written < c.frame.length)

/-- What holds of every state. -/
structure Inv (s : State) : Prop where
  port : s.port = s.order.flatMap s.piece
  once : s.order.Nodup
  made : ∀ i ∈ s.order, i < s.calls.length
  sound : ∀ (i : Nat) (c : Call), s.calls[i]? = some c → c.Sound s i

variable {s s' : State} {i j : Nat} {c c' : Call}

/-- What another call relies on. -/
structure Keeps (s s' : State) (j : Nat) : Prop where
  order : j ∈ s'.order → j ∈ s.order
  holder : s.holder = some j → s'.holder = some j
  turns : j ∈ s.turns → j ∈ s'.turns
  connected : s.connected = false → s'.connected = false

theorem Call.Sound.keep (h : c.Sound s j) (hk : Keeps s s' j) : c.Sound s' j := by
  unfold Call.Sound at h ⊢
  split
  · next hp =>
    rw [hp] at h
    exact ⟨fun hj ↦ h.1 (hk.order hj), h.2⟩
  · next hp =>
    rw [hp] at h
    exact ⟨fun hj ↦ h.1 (hk.order hj), h.2⟩
  · next hp =>
    rw [hp] at h
    exact ⟨hk.holder h.1, h.2⟩
  · next hp =>
    rw [hp] at h
    exact ⟨hk.holder h.1, h.2⟩
  · next hp =>
    rw [hp] at h
    exact ⟨hk.holder h.1, h.2.1, hk.connected h.2.2⟩
  · next hp =>
    rw [hp] at h
    exact ⟨hk.turns h.1, h.2⟩
  · next hp =>
    rw [hp] at h
    refine ⟨hk.connected h.1, ?_⟩
    rcases h.2 with hout | hin
    · exact Or.inl ⟨fun hj ↦ hout.1 (hk.order hj), hout.2⟩
    · exact Or.inr ⟨hk.turns hin.1, hin.2⟩

/-- One call changes, and the others keep what they rely on. -/
theorem Inv.sound_set (hi : Inv s) (hcalls : s'.calls = s.calls.set i c')
    (hkeep : ∀ j, j ≠ i → Keeps s s' j) (hc' : c'.Sound s' i) :
    ∀ (j : Nat) (d : Call), s'.calls[j]? = some d → d.Sound s' j := by
  intro j d hd
  rw [hcalls] at hd
  by_cases hj : j = i
  · subst hj
    have hlt : j < s.calls.length := by
      have hlt := (List.getElem?_eq_some_iff.mp hd).1
      rwa [List.length_set] at hlt
    rw [List.getElem?_set_self hlt] at hd
    cases hd
    exact hc'
  · rw [List.getElem?_set_ne (Ne.symm hj)] at hd
    exact (hi.sound j d hd).keep (hkeep j hj)

theorem piece_set_of_ne (hcalls : s'.calls = s.calls.set i c') (hj : j ≠ i) :
    s'.piece j = s.piece j := by
  rw [State.piece, hcalls, List.getElem?_set_ne (Ne.symm hj), State.piece]

theorem piece_set_self (hcalls : s'.calls = s.calls.set i c') (hi : i < s.calls.length) :
    s'.piece i = c'.piece := by
  rw [State.piece, hcalls, List.getElem?_set_self hi]
  rfl

theorem piece_of_getElem? (hc : s.calls[i]? = some c) : s.piece i = c.piece := by
  rw [State.piece, hc]
  rfl

/-- A call that goes on and writes nothing leaves what all of them have written. -/
theorem piece_eq (hc : s.calls[i]? = some c) (hcalls : s'.calls = s.calls.set i c')
    (hpiece : c'.piece = c.piece) : s'.piece = s.piece := by
  funext j
  by_cases hj : j = i
  · subst hj
    rw [piece_set_self hcalls (List.getElem?_eq_some_iff.mp hc).1, piece_of_getElem? hc, hpiece]
  · exact piece_set_of_ne hcalls hj

/-- A call goes on that writes nothing; if it takes the lock, its turn is the last. -/
theorem Inv.go (hi : Inv s) (hc : s.calls[i]? = some c) (hcalls : s'.calls = s.calls.set i c')
    (hpiece : c'.piece = c.piece) (hport : s'.port = s.port)
    (horder : s'.order = s.order ∨ s'.order = s.order ++ [i] ∧ i ∉ s.order ∧ c.piece = [])
    (hkeep : ∀ j, j ≠ i → Keeps s s' j) (hc' : c'.Sound s' i) : Inv s' := by
  have hlt := (List.getElem?_eq_some_iff.mp hc).1
  have hlength : s'.calls.length = s.calls.length := by
    rw [hcalls, List.length_set]
  have hsound := hi.sound_set hcalls hkeep hc'
  have hpieces := piece_eq hc hcalls hpiece
  rcases horder with hsame | ⟨hlast, hnew, hempty⟩
  · refine ⟨?_, ?_, ?_, hsound⟩
    · rw [hport, hsame, hpieces]
      exact hi.port
    · rw [hsame]
      exact hi.once
    · rw [hsame, hlength]
      exact hi.made
  · refine ⟨?_, ?_, ?_, hsound⟩
    · rw [hport, hlast, hpieces, List.flatMap_append, List.flatMap_singleton, piece_of_getElem? hc,
        hempty, List.append_nil]
      exact hi.port
    · rw [hlast]
      exact List.nodup_append.mpr ⟨hi.once, List.nodup_singleton i, fun a ha b hb hab ↦
        hnew (List.mem_singleton.mp hb ▸ hab ▸ ha)⟩
    · rw [hlast, hlength]
      intro j hj
      rcases List.mem_append.mp hj with hj | hj
      · exact hi.made j hj
      · rw [List.mem_singleton.mp hj]
        exact hlt

theorem order_of_holder (h : s.holder = some i) : s.order = s.turns ++ [i] := by
  rw [State.order, h]
  rfl

theorem order_of_none (h : s.holder = none) : s.order = s.turns := by
  rw [State.order, h]
  exact List.append_nil _

/-- A call that releases the lock keeps its turn. -/
theorem order_of_released (h : s.holder = some i) (hfree : s'.holder = none)
    (hturns : s'.turns = s.turns ++ [i]) : s'.order = s.order := by
  rw [order_of_none hfree, hturns, order_of_holder h]

/-- A call that goes on without a change of the lock. -/
private theorem keeps_setPhase (phase : Phase) (j : Nat) : Keeps s (s.setPhase i c phase) j :=
  ⟨id, id, id, id⟩

/-- What is known of a call in a phase. -/
theorem Inv.sound_of_phase (hi : Inv s) (hc : s.calls[i]? = some c) {phase : Phase}
    (hphase : c.phase = phase) : ({ c with phase } : Call).Sound s i := by
  subst hphase
  exact hi.sound i c hc

private theorem Inv.test (hi : Inv s) (hc : s.calls[i]? = some c) (hphase : c.phase = .entered) :
    Inv (s.setPhase i c (if s.connected then .locking else .returned false)) := by
  have hsound := hi.sound_of_phase hc hphase
  refine hi.go hc rfl rfl rfl (Or.inl rfl) (fun j _ ↦ keeps_setPhase _ j) ?_
  by_cases hconnected : s.connected = true
  · rw [if_pos hconnected]
    exact hsound
  · rw [if_neg hconnected]
    exact ⟨Bool.eq_false_iff.mpr hconnected, Or.inl hsound⟩

private theorem Inv.lock (hi : Inv s) (hc : s.calls[i]? = some c) (hphase : c.phase = .locking)
    (hfree : s.holder = none) : Inv { s.setPhase i c .writing with holder := some i } := by
  have hsound := hi.sound_of_phase hc hphase
  have horder : s.turns ++ [i] = s.order ++ [i] := by
    rw [order_of_none hfree]
  have hempty : c.piece = [] := by
    rw [Call.piece, hsound.2, List.take_zero]
  refine hi.go hc rfl rfl rfl (Or.inr ⟨horder, hsound.1, hempty⟩) (fun j hj ↦ ?_) ⟨rfl, ?_⟩
  · refine ⟨fun hmem ↦ ?_, fun hholder ↦ ?_, id, id⟩
    · have hlast : j ∈ s.order ++ [i] := horder ▸ (hmem : j ∈ s.turns ++ [i])
      rcases List.mem_append.mp hlast with hmem | hmem
      · exact hmem
      · exact absurd (List.mem_singleton.mp hmem) hj
    · rw [hfree] at hholder
      cases hholder
  · rw [hsound.2]
    exact Nat.zero_le _

private theorem Inv.fail (hi : Inv s) (hc : s.calls[i]? = some c) (hphase : c.phase = .writing)
    (hshort : c.written < c.frame.length) :
    Inv { s.setPhase i c (.leaving false) with connected := false } :=
  hi.go hc rfl rfl rfl (Or.inl rfl) (fun _ _ ↦ ⟨id, id, id, fun _ ↦ rfl⟩)
    ⟨(hi.sound_of_phase hc hphase).1, hshort, rfl⟩

private theorem Inv.complete (hi : Inv s) (hc : s.calls[i]? = some c) (hphase : c.phase = .writing)
    (hwhole : c.written = c.frame.length) : Inv (s.setPhase i c (.leaving true)) :=
  hi.go hc rfl rfl rfl (Or.inl rfl) (fun j _ ↦ keeps_setPhase _ j)
    ⟨(hi.sound_of_phase hc hphase).1, hwhole⟩

/-- A call that leaves holds the lock. -/
theorem Inv.holder_of_leaving (hi : Inv s) (hc : s.calls[i]? = some c) {sent : Bool}
    (hphase : c.phase = .leaving sent) : s.holder = some i := by
  have hsound := hi.sound_of_phase hc hphase
  cases sent with
  | true => exact hsound.1
  | false => exact hsound.1

private theorem Inv.leave (hi : Inv s) (hc : s.calls[i]? = some c) {sent : Bool}
    (hphase : c.phase = .leaving sent) :
    Inv { s.setPhase i c (.returned sent) with holder := none, turns := s.turns ++ [i] } := by
  have hsound := hi.sound_of_phase hc hphase
  have hholder := hi.holder_of_leaving hc hphase
  have horder : State.order { s.setPhase i c (.returned sent) with
      holder := none, turns := s.turns ++ [i] } = s.order := order_of_released hholder rfl rfl
  have hlast : i ∈ s.turns ++ [i] := List.mem_append_right _ (List.mem_singleton_self i)
  refine hi.go hc rfl rfl rfl (Or.inl horder) (fun j hj ↦ ?_) ?_
  · refine ⟨fun hmem ↦ horder ▸ hmem, fun hother ↦ ?_, List.mem_append_left _, id⟩
    exact absurd (Option.some.inj (hother.symm.trans hholder)) hj
  · cases sent with
    | true => exact ⟨hlast, hsound.2⟩
    | false => exact ⟨hsound.2.2, Or.inr ⟨hlast, hsound.2.1⟩⟩

/-- The call whose turn it is writes on. -/
private theorem Inv.write {n : Nat} (hi : Inv s) (hc : s.calls[i]? = some c)
    (hphase : c.phase = .writing) (hfits : c.written + n ≤ c.frame.length) : Inv { s with
      calls := s.calls.set i { c with written := c.written + n }
      port := s.port ++ (c.frame.drop c.written).take n } := by
  have hlt := (List.getElem?_eq_some_iff.mp hc).1
  have hholder := (hi.sound_of_phase hc hphase).1
  have horder := order_of_holder hholder
  obtain ⟨c', hc'⟩ : ∃ c' : Call, c' = { c with written := c.written + n } := ⟨_, rfl⟩
  have hpiece : c'.piece = c.piece ++ (c.frame.drop c.written).take n := by
    rw [hc', Call.piece, Call.piece]
    exact List.take_add
  rw [← hc']
  have hothers : ∀ j ∈ s.turns, ({ s with
      calls := s.calls.set i c'
      port := s.port ++ (c.frame.drop c.written).take n } : State).piece j = s.piece j := by
    intro j hj
    apply piece_set_of_ne rfl
    have honce := hi.once
    rw [horder] at honce
    intro hij
    exact (List.nodup_append.mp honce).2.2 j hj i (List.mem_singleton_self i) hij
  refine ⟨?_, hi.once, ?_, ?_⟩
  · have hport := hi.port
    rw [horder, List.flatMap_append, List.flatMap_singleton, piece_of_getElem? hc] at hport
    change s.port ++ (c.frame.drop c.written).take n = s.order.flatMap _
    rw [horder, List.flatMap_append, List.flatMap_singleton, List.flatMap_congr hothers,
      piece_set_self rfl hlt, hpiece, hport, List.append_assoc]
  · intro j hj
    rw [List.length_set]
    exact hi.made j hj
  · refine hi.sound_set rfl (fun j _ ↦ ⟨id, id, id, id⟩) ?_
    have hwriting : c'.phase = .writing := by
      rw [hc']
      exact hphase
    rw [Call.Sound, hwriting, hc']
    exact ⟨hholder, hfits⟩

/-- A call is made. -/
private theorem Inv.call (hi : Inv s) (frame : List UInt8) :
    Inv { s with calls := s.calls ++ [⟨frame, .entered, 0⟩] } := by
  have hpiece : ∀ j ∈ s.order, ({ s with calls := s.calls ++ [⟨frame, .entered, 0⟩] } :
      State).piece j = s.piece j := by
    intro j hj
    rw [State.piece, List.getElem?_append_left (hi.made j hj), State.piece]
  refine ⟨?_, hi.once, ?_, ?_⟩
  · change s.port = s.order.flatMap _
    rw [List.flatMap_congr hpiece]
    exact hi.port
  · intro j hj
    rw [List.length_append]
    exact Nat.lt_add_right _ (hi.made j hj)
  · intro j d hd
    rcases Nat.lt_or_ge j s.calls.length with hlt | hge
    · rw [List.getElem?_append_left hlt] at hd
      exact (hi.sound j d hd).keep ⟨id, id, id, id⟩
    · rw [List.getElem?_append_right hge, List.getElem?_singleton] at hd
      split at hd
      · cases hd
        exact ⟨fun hj ↦ absurd (hi.made j hj) (Nat.not_lt.mpr hge), rfl⟩
      · cases hd

/-- Every step keeps the invariant. -/
theorem inv_step (l : Label) (s s' : State) (h : step l s = some s') (hi : Inv s) : Inv s' := by
  cases takes_of_step h with
  | call frame => exact hi.call frame
  | test hc hphase => exact hi.test hc hphase
  | lock hc hphase hfree => exact hi.lock hc hphase hfree
  | write hc hphase hfits => exact hi.write hc hphase hfits
  | fail hc hphase hshort => exact hi.fail hc hphase hshort
  | complete hc hphase hwhole => exact hi.complete hc hphase hwhole
  | leave hc hphase => exact hi.leave hc hphase
  | readError =>
    exact ⟨hi.port, hi.once, hi.made,
      fun j d hd ↦ (hi.sound j d hd).keep ⟨id, id, id, fun _ ↦ rfl⟩⟩

theorem inv_start : Inv start := ⟨rfl, List.nodup_nil, nofun, nofun⟩

/-! ### Runs -/

/-- Turns are only added. -/
theorem order_step {l : Label} (hi : Inv s) (h : step l s = some s') : s.order <+: s'.order := by
  cases takes_of_step h with
  | @lock i c hc hphase hfree =>
    refine ⟨[i], ?_⟩
    rw [order_of_none hfree]
    rfl
  | @leave i c sent hc hphase =>
    refine ⟨[], ?_⟩
    rw [List.append_nil]
    exact (order_of_released (hi.holder_of_leaving hc hphase) rfl rfl).symm
  | _ => exact List.prefix_refl _

/-- A call that has not passed the test of `connected_` when the connection is lost, or was not
made yet. -/
structure Barred (s : State) (i : Nat) : Prop where
  lost : s.connected = false
  out : i ∉ s.order
  phase : ∀ c, s.calls[i]? = some c → c.phase = .entered ∨ c.phase = .returned false

/-- Another call goes on. -/
private theorem Barred.go (hb : Barred s i) (hne : j ≠ i) (hcalls : s'.calls = s.calls.set j c')
    (hlost : s'.connected = false) (hout : i ∉ s'.order) : Barred s' i := by
  refine ⟨hlost, hout, fun c hc ↦ ?_⟩
  rw [hcalls, List.getElem?_set_ne hne] at hc
  exact hb.phase c hc

/-- It is another call that goes on. -/
private theorem Barred.ne (hb : Barred s i) (hc : s.calls[j]? = some c)
    (hentered : c.phase ≠ .entered) (hreturned : c.phase ≠ .returned false) : j ≠ i := by
  intro hij
  subst hij
  rcases hb.phase c hc with hphase | hphase
  · exact hentered hphase
  · exact hreturned hphase

/-- Such a call stays so. -/
theorem barred_step (l : Label) (s s' : State) (h : step l s = some s') (hi : Inv s)
    (hb : Barred s i) : Barred s' i := by
  cases takes_of_step h with
  | call frame =>
    refine ⟨hb.lost, hb.out, fun d hd ↦ ?_⟩
    rcases Nat.lt_or_ge i s.calls.length with hlt | hge
    · rw [List.getElem?_append_left hlt] at hd
      exact hb.phase d hd
    · rw [List.getElem?_append_right hge, List.getElem?_singleton] at hd
      split at hd
      · cases hd
        exact Or.inl rfl
      · cases hd
  | @test j c hc hphase =>
    rw [hb.lost]
    by_cases hj : j = i
    · subst hj
      refine ⟨hb.lost, hb.out, fun d hd ↦ ?_⟩
      rw [State.setPhase, List.getElem?_set_self (List.getElem?_eq_some_iff.mp hc).1] at hd
      cases hd
      exact Or.inr rfl
    · exact hb.go hj rfl hb.lost hb.out
  | @lock j c hc hphase hfree =>
    have hj : j ≠ i := hb.ne hc (by rw [hphase]; nofun) (by rw [hphase]; nofun)
    refine hb.go hj rfl hb.lost fun hmem ↦ ?_
    have hout := hb.out
    rw [order_of_none hfree] at hout
    rcases List.mem_append.mp hmem with hmem | hmem
    · exact hout hmem
    · exact hj (List.mem_singleton.mp hmem).symm
  | write hc hphase hfits =>
    exact hb.go (hb.ne hc (by rw [hphase]; nofun) (by rw [hphase]; nofun)) rfl hb.lost hb.out
  | fail hc hphase hshort =>
    exact hb.go (hb.ne hc (by rw [hphase]; nofun) (by rw [hphase]; nofun)) rfl rfl hb.out
  | complete hc hphase hwhole =>
    exact hb.go (hb.ne hc (by rw [hphase]; nofun) (by rw [hphase]; nofun)) rfl hb.lost hb.out
  | leave hc hphase =>
    refine hb.go (hb.ne hc (by rw [hphase]; nofun) (by rw [hphase]; nofun)) rfl hb.lost ?_
    rw [order_of_released (hi.holder_of_leaving hc hphase) rfl rfl]
    exact hb.out
  | readError => exact ⟨rfl, hb.out, hb.phase⟩

theorem inv_run {ls : List Label} (h : Transition.run step ls start = some s) : Inv s :=
  Transition.invariant inv_step inv_start h

/-- Turns are only added in a run. -/
theorem order_run {ls : List Label} (hi : Inv s) (h : Transition.run step ls s = some s') :
    s.order <+: s'.order := by
  refine (Transition.invariant (I := fun s' ↦ Inv s' ∧ s.order <+: s'.order) ?_
    ⟨hi, List.prefix_refl _⟩ h).2
  exact fun l s₁ s₂ hs hi ↦ ⟨inv_step l s₁ s₂ hs hi.1, hi.2.trans (order_step hi.1 hs)⟩

/-- What a call wrote when it released the lock: the whole frame if it returned `true`, and only
a part of it otherwise. -/
def Call.Wrote (c : Call) : Prop :=
  (c.phase = .returned true ∧ c.piece = c.frame) ∨
    (c.phase = .returned false ∧ ∃ n, n < c.frame.length ∧ c.piece = c.frame.take n)

/-- A call that has had its turn, and does not hold the lock any more. -/
theorem Inv.wrote (hi : Inv s) (hc : s.calls[i]? = some c) (hmem : i ∈ s.order)
    (hholder : s.holder ≠ some i) : c.Wrote := by
  cases hphase : c.phase with
  | entered | locking => exact absurd hmem (hi.sound_of_phase hc hphase).1
  | writing => exact absurd (hi.sound_of_phase hc hphase).1 hholder
  | leaving sent => exact absurd (hi.holder_of_leaving hc hphase) hholder
  | returned sent =>
    have hsound := hi.sound_of_phase hc hphase
    cases sent with
    | true =>
      refine Or.inl ⟨hphase, ?_⟩
      rw [Call.piece, hsound.2, List.take_length]
    | false =>
      rcases hsound.2 with hout | hin
      · exact absurd hmem hout.1
      · exact Or.inr ⟨hphase, c.written, hin.2, rfl⟩

/-- Only the last turn can be that of a call that holds the lock. -/
theorem Inv.holder_ne_of_later (hi : Inv s) {before between after : List Nat}
    (horder : s.order = before ++ j :: (between ++ i :: after)) : s.holder ≠ some j := by
  intro hholder
  have honce := hi.once
  have hlast : (s.turns ++ [j]).getLast? = some j := List.getLast?_concat
  rw [← order_of_holder hholder, horder, List.getLast?_append_of_ne_nil _ (List.cons_ne_nil _ _),
    ← List.cons_append, List.getLast?_append_of_ne_nil _ (List.cons_ne_nil _ _)] at hlast
  have hmem : j ∈ i :: after := List.mem_of_getLast? hlast
  rw [horder] at honce
  exact (List.nodup_cons.mp (List.nodup_append.mp honce).2.1).1 (List.mem_append_right _ hmem)

/-- However calls of `send` from any threads run into each other, and wherever writes fail, the port
takes what they write one after another, in the order in which they hold the lock: the whole frame
of each call that returns `true`, once, and a part of the frame of a call whose write failed. Once
the connection is lost, a call that has not passed the test of `connected_` writes nothing and does
not return `true`. -/
theorem frames_stay_whole (ls₀ ls : List Label) (s₀ s : State)
    (h₀ : Transition.run step ls₀ start = some s₀) (h : Transition.run step ls s₀ = some s) :
    s.port = s.order.flatMap s.piece ∧ s.order.Nodup ∧ s₀.order <+: s.order ∧
      (∀ i c, s.calls[i]? = some c → i ∈ s.order → s.holder ≠ some i → c.Wrote) ∧
      (∀ i c, s.calls[i]? = some c → c.phase = .returned true → i ∈ s.order) ∧
      (s₀.connected = false → ∀ i, (∀ c, s₀.calls[i]? = some c → c.phase = .entered) →
        i ∉ s.order ∧ ∀ c, s.calls[i]? = some c → c.phase ≠ .returned true) := by
  have hi₀ := inv_run h₀
  have hi := Transition.invariant inv_step hi₀ h
  refine ⟨hi.port, hi.once, order_run hi₀ h, fun i c ↦ hi.wrote, fun i c hc hphase ↦ ?_, ?_⟩
  · exact List.mem_append_left _ (hi.sound_of_phase hc hphase).1
  · intro hlost i hentered
    have hout : i ∉ s₀.order := by
      intro hmem
      have hlt := hi₀.made i hmem
      have hc := List.getElem?_eq_getElem hlt
      exact (hi₀.sound_of_phase hc (hentered _ hc)).1 hmem
    have hb : Barred s i := by
      refine (Transition.invariant (I := fun s ↦ Inv s ∧ Barred s i) ?_
        ⟨hi₀, hlost, hout, fun c hc ↦ Or.inl (hentered c hc)⟩ h).2
      exact fun l s₁ s₂ hs hi ↦ ⟨inv_step l s₁ s₂ hs hi.1, barred_step l s₁ s₂ hs hi.1 hi.2⟩
    refine ⟨hb.out, fun c hc hphase ↦ ?_⟩
    rcases hb.phase c hc with hentered | hreturned
    · cases hphase.symm.trans hentered
    · cases hphase.symm.trans hreturned

/-- Three calls get past the test of `connected_`; the second one's write fails. -/
def cutOff : List Label := [
  .call [1, 2, 0], .call [3, 4, 0], .call [5, 0], .test 0, .test 1, .test 2, .lock 0, .write 0 2,
  .write 0 1, .complete 0, .leave 0, .lock 1, .write 1 1, .fail 1]

/-- The third one's follows what was written of it; a fourth one is turned away. -/
def behindCut : List Label := [
  .call [6, 0], .test 3, .leave 1, .lock 2, .write 2 2, .complete 2, .leave 2]

theorem frames_stay_whole_behindCut : ∃ s₀ s,
    Transition.run step cutOff start = some s₀ ∧ Transition.run step behindCut s₀ = some s ∧
      s.port = [1, 2, 0, 3, 5, 0] ∧ s.port = s.order.flatMap s.piece ∧ s₀.order <+: s.order := by
  obtain ⟨s₀, s, h₀, h, hport⟩ : ∃ s₀ s, Transition.run step cutOff start = some s₀ ∧
      Transition.run step behindCut s₀ = some s ∧ s.port = [1, 2, 0, 3, 5, 0] :=
    ⟨_, _, rfl, rfl, rfl⟩
  have hwhole := frames_stay_whole cutOff behindCut s₀ s h₀ h
  exact ⟨s₀, s, h₀, h, hport, hwhole.1, hwhole.2.2.1⟩

end BlueROV2.Driver.Writing
