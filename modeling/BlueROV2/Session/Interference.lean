import BlueROV2.Session.Responses

/-!
# The protocol while the Teensy does other things

Library `Session`. Between the commands the Teensy changes its state on its own, and the links
carry more than commands and responses. None of it makes a difference to what holds of a session.
-/

namespace BlueROV2.Session

open BlueROV2.Base BlueROV2.Wire
open Firmware (CommandHandlers)

variable {W V : Type}

/-- A step of the protocol, or a change of the Teensy's state that no command makes. -/
inductive Move (W : Type) where
  | step (l : Label)
  | world (w : W)

/-- What a move leads to. -/
def move (handlers : CommandHandlers W) : Move W → State W → Option (State W)
  | .step l, s => step handlers l s
  | .world w, s => some { s with world := w }

/-- The conditions under which a session gets its own results. -/
def Move.Timely : Move W → State W → Prop
  | .step l, s => l.lifecycle = false ∧ Session.Timely l s
  | .world _, _ => True

variable {handlers : CommandHandlers W} {s s' : State W}

/-- The invariant does not depend on the state of the Teensy. -/
theorem Inv.world (hi : Inv handlers s) (w : W) : Inv handlers { s with world := w } :=
  { hi with
    responses := hi.responses
    satisfied := hi.satisfied }

/-- Every move keeps the invariant. -/
theorem inv_move (k : Move W) (s s' : State W) (h : move handlers k s = some s')
    (hi : Inv handlers s) : Inv handlers s' := by
  cases k with
  | step l => exact inv_step l s s' h hi
  | world w =>
    cases h
    exact hi.world w

/-- Every move within a session that meets the time limit keeps to the session's own. -/
theorem own_move (k : Move W) (s s' : State W) (hk : k.Timely s)
    (h : move handlers k s = some s') (hi : Inv handlers s ∧ Own s) : Inv handlers s' ∧ Own s' := by
  cases k with
  | step l => exact own_step l s s' hk h hi
  | world w =>
    cases h
    exact ⟨hi.1.world w, hi.2.uplink, hi.2.downlink, hi.2.completed⟩

/-! ### While one command is called -/

/-- The command that a move calls. -/
def Move.called : Move W → Option CommandId
  | .step (.call commandId _) => some commandId
  | _ => none

/-- No command but one is called or on its way. -/
structure Only (commandId : CommandId) (s : State W) : Prop where
  call : ∀ c arg n phase, s.call = some ⟨c, arg, n, phase⟩ → c = commandId
  uplink : ∀ f ∈ s.uplink, ∃ a, s.attempts[f.attempt]? = some a ∧ a.commandId = commandId

/-- While no other one is called, this stays so. -/
theorem only_step {commandId : CommandId} (l : Label)
    (hl : ∀ c ∈ (Move.step (W := W) l).called, c = commandId) (h : step handlers l s = some s')
    (hi : Inv handlers s) (ho : Only commandId s) : Only commandId s' := by
  cases takes_of_step h with
  | configure | cleanup => exact ⟨ho.call, ho.uplink⟩
  | call c arg =>
    refine ⟨fun _ _ _ _ hd ↦ ?_, ho.uplink⟩
    cases hd
    exact hl c rfl
  | attempt hcall =>
    refine ⟨fun _ _ _ _ hd ↦ ?_, fun f hf ↦ ?_⟩
    · cases hd
      exact ho.call _ _ _ _ hcall
    · rcases ho.uplink f hf with ⟨a, ha, hcommand⟩
      exact ⟨a, by rw [List.getElem?_append_left (List.getElem?_eq_some_iff.mp ha).1, ha], hcommand⟩
  | send hcall =>
    refine ⟨fun _ _ _ _ hd ↦ ?_, fun f hf ↦ ?_⟩
    · cases hd
      exact ho.call _ _ _ _ hcall
    · rcases List.mem_append.mp hf with hf | hf
      · exact ho.uplink f hf
      · rw [List.mem_singleton.mp hf]
        rcases hi.calling _ _ _ _ _ hcall rfl with ⟨-, -, a, ha, hcommand, -⟩
        exact ⟨a, ha, hcommand.trans (ho.call _ _ _ _ hcall)⟩
  | giveUp | unsent | linkDown | ready => exact ⟨nofun, ho.uplink⟩
  | timeout hcall =>
    refine ⟨fun _ _ _ _ hd ↦ ?_, ho.uplink⟩
    cases hd
    exact ho.call _ _ _ _ hcall
  | poll hup =>
    refine ⟨ho.call, fun f hf ↦ ho.uplink f ?_⟩
    rw [hup]
    exact List.mem_cons_of_mem _ hf
  | deliver h =>
    rcases hi.deliver_cases h with ⟨f, downlink, v, -, -, -, hcases⟩
    cases hcases with
    | stale | pending => exact ⟨ho.call, ho.uplink⟩
  | loseCommand => exact ⟨ho.call, fun f hf ↦ ho.uplink f ((List.eraseIdx_sublist _ _).subset hf)⟩
  | loseResponse => exact ⟨ho.call, ho.uplink⟩

/-- The same of every move. -/
theorem only_move {commandId : CommandId} (k : Move W) (s s' : State W)
    (hk : ∀ c ∈ k.called, c = commandId) (h : move handlers k s = some s')
    (hi : Inv handlers s ∧ Only commandId s) : Inv handlers s' ∧ Only commandId s' := by
  refine ⟨inv_move k s s' h hi.1, ?_⟩
  cases k with
  | step l => exact only_step l hk h hi.1 hi.2
  | world w =>
    cases h
    exact ⟨hi.2.call, hi.2.uplink⟩

/-! ### The part of the Pi -/

/-- The same Pi, commands in flight and history, with another rest of the system. -/
def State.place (downlink : List Flight) (teensy : Firmware.Client) (world : V) (s : State W) :
    State V where
  client := s.client
  commandRetries := s.commandRetries
  commands := s.commands
  call := s.call
  uplink := s.uplink
  downlink
  teensy
  world
  sessions := s.sessions
  base := s.base
  attempts := s.attempts
  executed := s.executed
  completed := s.completed
  returned := s.returned

/-- The steps that the service threads of the Pi take, and the loss of a command. -/
def Label.onPi : Label → Bool
  | .poll | .deliver | .loseResponse _ => false
  | _ => true

variable (downlink : List Flight) (teensy : Firmware.Client) (world : V)

private theorem map_ite {α β : Type} (f : α → β) (c : Prop) [Decidable c] (a b : Option α) :
    (if c then a else b).map f = if c then a.map f else b.map f := by
  split <;> rfl

/-- These steps do not depend on the rest of the system. -/
theorem step_place (handlers : CommandHandlers W) (handlers' : CommandHandlers V) {l : Label}
    (hl : l.onPi = true) (s : State W) : step handlers' l (s.place downlink teensy world) =
      (step handlers l s).map (·.place downlink teensy world) := by
  cases l with
  | poll | deliver | loseResponse => cases hl
  | configure | cleanup | call | loseCommand =>
    simp only [step, State.place, map_ite]
    rfl
  | attempt | giveUp | timeout =>
    simp only [step, State.attempt, State.giveUp, State.timeout, State.place]
    split
    · rw [map_ite]
      rfl
    · rfl
  | send =>
    simp only [step, State.send, State.place]
    split
    · split
      · rw [map_ite]
        rfl
      · rfl
      · rfl
    · rfl
  | linkDown =>
    simp only [step, State.linkDown, State.place]
    split <;> rfl
  | ready =>
    simp only [step, State.ready, State.place]
    split
    · split <;> rfl
    · rfl

end BlueROV2.Session
