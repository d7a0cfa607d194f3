import BlueROV2.Vehicle.Agreement

/-!
# The services of the driver

Library `Vehicle`. A request to a service begins a call of `send_command`, and the response to it
is what that returns. As long as nothing but a save is called, the Teensy stays in its mode.
-/

namespace BlueROV2.Vehicle

open BlueROV2.Base BlueROV2.Wire
open Firmware (BNO085 CommandHandlers Iteration afterHandle commandHandler handledBy handlerFor)

/-! ### Requests and responses -/

/-- What passes between the driver and the clients of its services. -/
inductive Exchange where
  | request (commandId : CommandId) (arg : UInt8)
  | answer (commandId : CommandId) (success : Bool)
  deriving DecidableEq, Repr

/-- It goes from the driver to a client. -/
def Exchange.isAnswer : Exchange → Bool
  | .request _ _ => false
  | .answer _ _ => true

/-- What a step passes; `driver.cpp:135–151`. -/
def exchanges (l : Label) (s : State) : List Exchange :=
  match l with
  | .pi (.call commandId arg) => [.request commandId arg]
  | l => (step l s).elim [] fun s' ↦
      (s'.pi.returned.drop s.pi.returned.length).map fun r ↦ .answer r.commandId r.success

/-- The command that a step calls. -/
def Label.called : Label → Option CommandId
  | .pi (.call commandId _) => some commandId
  | _ => none

variable {handlers : CommandHandlers BNO085} {s s' : State} {l : Label}

/-- A step of the driver returns nothing, or ends a call; only with a response that has arrived is
it a success. -/
private theorem returned_onPi {l : Session.Label} {pi pi' : Session.State Unit}
    (hl : l.onPi = true) (h : Session.step noHandlers l pi = some pi') :
    pi'.returned = pi.returned ∨
      ∃ r, pi'.returned = pi.returned ++ [r] ∧ (r.success = true → l = .ready) := by
  have hfailed {commandId : CommandId} {message : String} :
      (⟨commandId, false, message⟩ : Session.Return).success = true → l = .ready := by
    intro hsuccess
    cases hsuccess
  by_cases hsend : l = .send
  · subst hsend
    simp only [Session.step, Session.State.send] at h
    split at h
    · split at h
      · split at h
        · cases h
          exact Or.inl rfl
        · cases h
          exact Or.inr ⟨_, rfl, hfailed⟩
      · cases h
        exact Or.inr ⟨_, rfl, hfailed⟩
      · cases h
    · cases h
  · cases Session.takes_of_step h with
    | poll | deliver | loseResponse => cases hl
    | configure | cleanup | call | attempt | timeout | loseCommand => exact Or.inl rfl
    | send | unsent => exact absurd rfl hsend
    | giveUp | linkDown => exact Or.inr ⟨_, rfl, hfailed⟩
    | ready => exact Or.inr ⟨_, rfl, fun _ ↦ rfl⟩

/-- What a step does to what was executed and returned: it is one of the driver, the poll of a
command, or leaves both alone. -/
inductive Does (s s' : State) : Label → Prop
  | pi (l : Session.Label) (hl : l.onPi = true)
      (h : Session.step noHandlers l s.pi = some s'.pi) : Does s s' (.pi l)
  | command (i : Iteration) (f : Session.Flight) (effects : List Firmware.Effect)
      (client : Firmware.Client) (imu : BNO085) (hf : f ∈ s.pi.uplink)
      (hpoll : Firmware.pollStep { i with arrived := f.bytes } s.teensy =
        .ok (effects, client, imu))
      (hexecuted : s'.pi.executed = s.pi.executed ++ [(f.attempt, effects)])
      (hreturned : s'.pi.returned = s.pi.returned) : Does s s' (.command i)
  | other {l : Label} (hexecuted : s'.pi.executed = s.pi.executed)
      (hreturned : s'.pi.returned = s.pi.returned) : Does s s' l

/-- Every step is one of these. -/
theorem does_of_step (h : step l s = some s') : Does s s' l := by
  have hgoes (hgo : GoesOn s s') : Does s s' l :=
    .other (congrArg Session.State.executed hgo.pi) (congrArg Session.State.returned hgo.pi)
  cases l with
  | pi l =>
    simp only [step, State.onPi, Option.ite_none_right_eq_some, Option.map_eq_some_iff] at h
    rcases h with ⟨hl, pi, hpi, rfl⟩
    exact .pi l hl hpi
  | activate | deactivate =>
    simp only [step, State.activate, Option.ite_none_right_eq_some] at h
    cases h.2
    exact .other rfl rfl
  | command i =>
    simp only [step, State.command] at h
    split at h
    · next f uplink hpart hup =>
      split at h
      · next effects client imu hpoll =>
        cases h
        exact .command i f effects client imu (by rw [hup]; exact List.mem_cons_self) hpoll rfl rfl
      · cases h
    · cases h
  | noCommand i =>
    simp only [step, State.noCommand] at h
    split at h
    · split at h
      · cases h
        exact .other rfl rfl
      · cases h
    · cases h
  | recovery i => exact hgoes (goesOn_recovery h)
  | sample i => exact hgoes (goesOn_sample h)
  | status i => exact hgoes (goesOn_status h)
  | deliver now =>
    simp only [step, State.deliver] at h
    split at h
    · split at h
      · cases h
        exact .other rfl rfl
      · cases h
    · cases h
  | lose n =>
    simp only [step, Option.ite_none_right_eq_some] at h
    cases h.2
    exact .other rfl rfl

/-- Every step returns nothing, or ends a call. -/
theorem returned_step (h : step l s = some s') : s'.pi.returned = s.pi.returned ∨
    ∃ r, s'.pi.returned = s.pi.returned ++ [r] ∧ (r.success = true → l = .pi .ready) := by
  cases does_of_step h with
  | pi l hl hpi =>
    rcases returned_onPi hl hpi with hsame | ⟨r, hr, hready⟩
    · exact Or.inl hsame
    · exact Or.inr ⟨r, hr, fun hsuccess ↦ congrArg _ (hready hsuccess)⟩
  | command _ _ _ _ _ _ _ _ hreturned => exact Or.inl hreturned
  | other _ hreturned => exact Or.inl hreturned

/-- What a step may pass: a request, nothing, or the answer with which a call ends. -/
inductive Passes (s' : State) : Label → List Exchange → Prop
  | request (commandId : CommandId) (arg : UInt8) :
      Passes s' (.pi (.call commandId arg)) [.request commandId arg]
  | nothing {l : Label} (hl : l.called = none) : Passes s' l []
  | answer {l : Label} (r : Session.Return) (hl : l.called = none)
      (hlast : r ∈ s'.pi.returned.getLast?) (hready : r.success = true → l = .pi .ready) :
      Passes s' l [.answer r.commandId r.success]

/-- It passes nothing else. -/
theorem passes_of_step (h : step l s = some s') : Passes s' l (exchanges l s) := by
  unfold exchanges
  split
  · exact .request _ _
  · next hne =>
    have hcalled : l.called = none := by
      unfold Label.called
      split
      · exact absurd rfl (hne _ _)
      · rfl
    rw [h, Option.elim_some]
    rcases returned_step h with hsame | ⟨r, hr, hready⟩
    · rw [hsame, List.drop_length]
      exact .nothing hcalled
    · rw [hr, List.drop_left]
      refine .answer r hcalled ?_ hready
      rw [hr, List.getLast?_concat]
      rfl

/-! ### The mode while the calibration is saved -/

/-- Nothing but a save is called or on its way, and the Teensy is in a mode. -/
structure Still (calibrating : Bool) (s : State) : Prop where
  only : Session.Only .calibrationSave (sessionOf s)
  mode : s.teensy.imu.calibrating = calibrating

/-- A save does not change the mode, whatever comes of it. -/
theorem afterResponse_save {r : CommandResponse} {before calibrating : Bool}
    (h : Firmware.afterResponse .calibrationSave r before = some calibrating) :
    calibrating = before := by
  cases before with
  | true =>
    have hsaved : (if r = .ok ∨ r = .sensorError then some true else none) = some calibrating := h
    simp only [Option.ite_none_right_eq_some] at hsaved
    exact (Option.some.inj hsaved.2).symm
  | false =>
    have hrefused : (if r = .invalidState then some false else none) = some calibrating := h
    simp only [Option.ite_none_right_eq_some] at hrefused
    exact (Option.some.inj hrefused.2).symm

/-- A step that executes nothing but saves stays in the mode. -/
private theorem mode_step (h : step l s = some s') (hi : Inv handlers s) (hm : Moded s)
    (hm' : Moded s') (ho : Session.Only .calibrationSave (sessionOf s)) :
    s'.teensy.imu.calibrating = s.teensy.imu.calibrating := by
  have hafter := hm'.handles
  have hsame (hexecuted : s'.pi.executed = s.pi.executed) :
      s'.teensy.imu.calibrating = s.teensy.imu.calibrating := by
    rw [handles, hexecuted] at hafter
    exact Option.some.inj (hafter.symm.trans hm.handles)
  cases does_of_step h with
  | pi l hl hpi => exact hsame (executed_onPi hl hpi)
  | other hexecuted => exact hsame hexecuted
  | command i f effects client imu hf hpoll hexecuted =>
    rcases hi.session.commands f hf with ⟨a, ha, hbytes⟩
    rcases ho.uplink f hf with ⟨a', ha', hcommand⟩
    cases ha.symm.trans ha'
    rcases Session.pollCommand_commandFrame handlers a hi.session.idle
      (s.teensy.imu.facing i.command) with ⟨effects', client', imu', r, hanswer, -, hproduces, -⟩
    have hpolled : Firmware.pollCommand handlers (Session.commandFrame a ++ [0]) s.teensy.client
        (s.teensy.imu.facing i.command) = .ok (effects, client, imu) := by
      rw [← hbytes, ← hi.registered]
      exact hpoll
    cases hanswer.symm.trans hpolled
    rw [handles, hexecuted, List.flatMap_append, List.flatMap_singleton, Transition.run_append,
      ← handles, hm.handles] at hafter
    rcases hproduces with hone | ⟨-, hnone, -⟩
    · simp only [hone, Option.bind_some, Transition.run, hcommand,
        Option.bind_eq_some_iff] at hafter
      rcases hafter with ⟨mode, hmode, heq⟩
      cases heq
      exact afterResponse_save hmode
    · simp only [hnone, Option.bind_some, Transition.run] at hafter
      exact (Option.some.inj hafter).symm

/-- The moves that a step stands for call what it calls. -/
private theorem called_of_mem {k : Session.Move BNO085} (hk : k ∈ trace l s) :
    k.called = none ∨ k.called = l.called := by
  have hworld {o : Option State} (hk : k ∈ (o.map fun s ↦ .world s.teensy.imu).toList) :
      k.called = none ∨ k.called = l.called := by
    cases o with
    | none => cases hk
    | some s' => exact Or.inl (by rw [List.mem_singleton.mp hk]; rfl)
  cases l with
  | pi l =>
    rw [trace] at hk
    split at hk
    · rw [List.mem_singleton.mp hk]
      cases l with
      | call => exact Or.inr rfl
      | _ => exact Or.inl rfl
    · cases hk
  | activate | deactivate => cases hk
  | command i =>
    rcases List.mem_pair.mp hk with rfl | rfl
    · exact Or.inl rfl
    · exact Or.inl rfl
  | noCommand i => exact Or.inl (by rw [List.mem_singleton.mp hk]; rfl)
  | recovery i | sample i | status i => exact hworld hk
  | deliver now =>
    rw [trace] at hk
    split at hk
    · exact Or.inl (by rw [List.mem_singleton.mp hk]; rfl)
    · cases hk
  | lose n =>
    rw [trace] at hk
    split at hk
    · exact Or.inl (by rw [List.mem_singleton.mp hk]; rfl)
    · cases hk

/-- While nothing but a save is called, the Teensy stays in its mode. -/
theorem still_step {calibrating : Bool} (hl : ∀ c ∈ l.called, c = .calibrationSave)
    (h : step l s = some s') (hi : Inv handlers s) (hm : Moded s) (hm' : Moded s')
    (hs : Still calibrating s) : Still calibrating s' := by
  refine ⟨?_, (mode_step h hi hm hm' hs.only).trans hs.mode⟩
  refine ((simulates handlers).invariant_step
    (J := fun s ↦ Session.Inv handlers s ∧ Session.Only .calibrationSave s) Session.only_move hi
    (Transition.along_of_mem ?_ _) h ⟨hi.session, hs.only⟩).2
  intro k hk c hc
  rcases called_of_mem hk with hnone | hsame
  · rw [hnone] at hc
    cases hc
  · exact hl c (hsame ▸ hc)

end BlueROV2.Vehicle
