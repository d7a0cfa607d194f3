import BlueROV2.Session.Responses

/-!
# A service call comes to its end

Library `Session`. `send_command` waits for nothing but its own timeout, so whatever the other
threads, the Teensy and the links do, it goes on until it returns, and it makes `command_retries`
attempts at most.
-/

namespace BlueROV2.Session

open BlueROV2.Base BlueROV2.Wire
open Firmware (CommandHandlers)

/-- The steps that the service thread takes in `send_command`. -/
def Label.own : Label → Bool
  | .attempt | .giveUp | .send | .linkDown | .timeout | .ready => true
  | _ => false

/-- What the count of the loop says of the number of attempts made. -/
def Phase.Counts (retries made n : Nat) : Phase → Prop
  | .loop => n ≤ retries ∧ made = n
  | _ => n < retries ∧ made = n + 1

/-- How many steps a call can still take. -/
def Call.stepsLeft (retries : Nat) (c : Call) : Nat :=
  match c.phase with
  | .loop => 3 * (retries - c.attempt) + 1
  | .send _ _ => 3 * (retries - c.attempt)
  | .wait _ => 3 * (retries - c.attempt) - 1

variable {W : Type} {handlers : CommandHandlers W} {s₀ s s' : State W} {commandId : CommandId}
  {arg : UInt8}

/-- The call that began after a state is still under way, and has made some attempts. -/
structure During (s₀ : State W) (commandId : CommandId) (arg : UInt8) (s : State W) (c : Call)
    (made : List Attempt) : Prop where
  call : s.call = some c
  command : c.commandId = commandId ∧ c.arg = arg
  retries : s.commandRetries = s₀.commandRetries
  returned : s.returned = s₀.returned
  attempts : s.attempts = s₀.attempts ++ made
  same : ∀ a ∈ made, a.commandId = commandId ∧ a.arg = arg
  counts : c.phase.Counts s₀.commandRetries made.length c.attempt

/-- What is reported when no attempt was answered in time. -/
def timedOut : String := "Timed out waiting for a response from the Teensy"

/-- The call has returned, after some attempts: after all of them if it timed out. -/
def Done (s₀ : State W) (commandId : CommandId) (arg : UInt8) (s : State W) : Prop :=
  ∃ r made, s₀.returned ++ [r] <+: s.returned ∧ s₀.attempts ++ made <+: s.attempts ∧
    r.commandId = commandId ∧ (∀ a ∈ made, a.commandId = commandId ∧ a.arg = arg) ∧
    made.length ≤ s₀.commandRetries ∧ (r.message = timedOut → made.length = s₀.commandRetries)

/-- A step from a call under way: it is still under way, with one step less left if the step is
its own, or it has returned. -/
inductive Advances (s₀ : State W) (commandId : CommandId) (arg : UInt8) (l : Label) (c : Call)
    (s' : State W) : Prop
  | during (c' : Call) (made : List Attempt) (h : During s₀ commandId arg s' c' made)
      (hleft : c'.stepsLeft s₀.commandRetries + (if l.own then 1 else 0) ≤
        c.stepsLeft s₀.commandRetries)
  | done (h : Done s₀ commandId arg s')

/-- Returning with a message other than that of a timeout. -/
private theorem During.finish {c : Call} {made : List Attempt}
    (h : During s₀ commandId arg s c made) (r : Bool × String)
    (hr : r.2 = timedOut → made.length = s₀.commandRetries) {s' : State W}
    (hreturned : s'.returned = s.returned ++ [⟨c.commandId, r.1, r.2⟩])
    (hattempts : s'.attempts = s.attempts) : Done s₀ commandId arg s' := by
  refine ⟨⟨c.commandId, r.1, r.2⟩, made, ?_, ?_, h.command.1, h.same, ?_, hr⟩
  · exact ⟨[], by rw [hreturned, h.returned, List.append_nil]⟩
  · exact ⟨[], by rw [hattempts, h.attempts, List.append_nil]⟩
  · have hcounts := h.counts
    cases hp : c.phase with
    | loop =>
      rw [hp] at hcounts
      rw [hcounts.2]
      exact hcounts.1
    | _ =>
      rw [hp] at hcounts
      rw [hcounts.2]
      exact hcounts.1

/-- Other steps than its own leave a call as it is. -/
private theorem During.other {c : Call} {made : List Attempt}
    (h : During s₀ commandId arg s c made) {l : Label} (hl : l.own = false)
    (hcall : s'.call = s.call) (hretries : s'.commandRetries = s.commandRetries)
    (hreturned : s'.returned = s.returned) (hattempts : s'.attempts = s.attempts) :
    Advances s₀ commandId arg l c s' := by
  refine .during c made ⟨hcall.trans h.call, h.command, hretries.trans h.retries,
    hreturned.trans h.returned, hattempts.trans h.attempts, h.same, h.counts⟩ ?_
  rw [hl]
  exact Nat.le_refl _

theorem report_ne_timedOut (r : CommandResponse) : (Driver.report r).2 ≠ timedOut := by
  unfold Driver.report timedOut
  split
  · decide
  · split
    · decide
    · split
      · decide
      · split <;> decide

/-- What has returned stays so. -/
theorem Done.mono (h : Done s₀ commandId arg s) (hreturned : s.returned <+: s'.returned)
    (hattempts : s.attempts <+: s'.attempts) : Done s₀ commandId arg s' := by
  rcases h with ⟨r, made, hr, ha, hrest⟩
  exact ⟨r, made, hr.trans hreturned, ha.trans hattempts, hrest⟩

/-- What was returned and attempted is kept. -/
theorem history_grows {l : Label} (hi : Inv handlers s) (h : step handlers l s = some s') :
    s.returned <+: s'.returned ∧ s.attempts <+: s'.attempts := by
  refine ⟨?_, (hi.moves h).2.1⟩
  cases takes_of_step h with
  | giveUp | unsent | linkDown | ready => exact List.prefix_append _ _
  | deliver h =>
    rcases hi.deliver_cases h with ⟨f, downlink, v, -, -, -, hcases⟩
    cases hcases with
    | stale => exact List.prefix_refl _
    | pending => exact List.prefix_refl _
  | _ => exact List.prefix_refl _

/-- The locked block of an attempt. -/
private theorem During.attempt {c : Call} {made : List Attempt}
    (h : During s₀ commandId arg s c made) (hs : step handlers .attempt s = some s') :
    Advances s₀ commandId arg .attempt c s' := by
  cases takes_of_step hs with
  | @attempt commandId' arg' n hcall hn =>
    cases h.call.symm.trans hcall
    have hcounts := h.counts
    have hretries := h.retries
    refine .during _
      (made ++ [⟨s.sessions, s.attempts.length - s.base + 1, commandId', arg'⟩])
      ⟨rfl, h.command, h.retries, h.returned, ?_, ?_, ?_⟩ ?_
    · simp only
      rw [h.attempts, List.append_assoc]
    · intro a ha
      rcases List.mem_append.mp ha with ha | ha
      · exact h.same a ha
      · rw [List.mem_singleton.mp ha]
        exact h.command
    · rw [List.length_append, hcounts.2]
      exact ⟨hretries ▸ hn, rfl⟩
    · simp only [Call.stepsLeft, Label.own, if_true]
      omega

private theorem down_ne_timedOut : "The serial link to the Teensy is down" ≠ timedOut := by
  decide

/-- The frame of a command can be encoded. -/
private theorem exists_frame (commandId : CommandId) (seq arg : UInt8) :
    ∃ frame, Driver.encodePacket .command .imu01 [commandId.byte, seq, arg] = .ok frame :=
  ⟨_, Driver.encodePacket_eq ⟨.command, .imu01, [commandId.byte, seq, arg]⟩ (by decide : 3 ≤ 64)⟩

/-- The frame is handed to the client. -/
private theorem During.send {c : Call} {made : List Attempt}
    (h : During s₀ commandId arg s c made) (hs : step handlers .send s = some s') :
    Advances s₀ commandId arg .send c s' := by
  simp only [step, State.send] at hs
  split at hs
  · next commandId' arg' n future seq reader hcall _ =>
    cases h.call.symm.trans hcall
    rcases exists_frame commandId' seq arg' with ⟨frame, hframe⟩
    simp only [hframe] at hs
    split at hs
    · cases hs
      have hcounts := h.counts
      have hn : n < s₀.commandRetries := hcounts.1
      refine .during _ made ⟨rfl, h.command, h.retries, h.returned, h.attempts, h.same, ?_⟩ ?_
      · exact hcounts
      · simp only [Call.stepsLeft, Label.own, if_true]
        omega
    · cases hs
      exact .done (h.finish (false, _) (fun hr ↦ absurd hr down_ne_timedOut) rfl rfl)
  · cases hs

/-- A call that waits goes on, or returns. -/
theorem During.advances (hi : Inv handlers s) {c : Call} {made : List Attempt}
    (h : During s₀ commandId arg s c made) (l : Label) (hs : step handlers l s = some s') :
    Advances s₀ commandId arg l c s' := by
  cases l with
  | configure n =>
    simp only [step, Option.isNone_iff_eq_none, Option.ite_none_right_eq_some] at hs
    exact absurd hs.1 (hi.client_of_call h.call)
  | cleanup =>
    simp only [step, h.call, Option.ite_none_right_eq_some] at hs
    cases hs.1.2
  | call commandId' arg' =>
    simp only [step, h.call, Option.ite_none_right_eq_some] at hs
    cases hs.1.2
  | attempt => exact h.attempt hs
  | giveUp =>
    cases takes_of_step hs with
    | @giveUp commandId' arg' n hcall hn =>
      cases h.call.symm.trans hcall
      have hcounts := h.counts
      have hretries := h.retries
      refine .done (h.finish _ (fun _ ↦ ?_) rfl rfl)
      simp only [Phase.Counts] at hcounts
      omega
  | send => exact h.send hs
  | linkDown =>
    simp only [step, State.linkDown] at hs
    split at hs
    · next hcall _ =>
      cases h.call.symm.trans hcall
      cases hs
      exact .done (h.finish (false, _) (fun hr ↦ absurd hr down_ne_timedOut) rfl rfl)
    · cases hs
  | timeout =>
    cases takes_of_step hs with
    | @timeout commandId' arg' n future hcall _ =>
      cases h.call.symm.trans hcall
      have hcounts := h.counts
      refine .during _ made ⟨rfl, h.command, h.retries, h.returned, h.attempts, h.same, ?_⟩ ?_
      · exact ⟨hcounts.1, hcounts.2⟩
      · have hn : n < s₀.commandRetries := hcounts.1
        simp only [Call.stepsLeft, Label.own, if_true]
        omega
  | ready =>
    cases takes_of_step hs with
    | @ready commandId' arg' n future value hcall _ =>
      cases h.call.symm.trans hcall
      exact .done (h.finish (Driver.report ⟨value[2]⟩)
        (fun hr ↦ absurd hr (report_ne_timedOut _)) rfl rfl)
  | poll | loseCommand | loseResponse =>
    cases takes_of_step hs
    exact h.other rfl rfl rfl rfl rfl
  | deliver =>
    rcases hi.deliver_cases hs with ⟨f, downlink, v, -, -, -, hcases⟩
    cases hcases with
    | stale => exact h.other rfl rfl rfl rfl rfl
    | pending => exact h.other rfl rfl rfl rfl rfl

/-- As long as the call has not returned, its thread can take a step. -/
theorem exists_own_step (hi : Inv handlers s) {c : Call} (h : s.call = some c) :
    ∃ l, l.own = true ∧ ∃ s', step handlers l s = some s' := by
  rcases c with ⟨commandId, arg, n, phase⟩
  rcases Option.ne_none_iff_exists'.mp (hi.client_of_call h) with ⟨reader, hclient⟩
  cases phase with
  | loop =>
    by_cases hn : n < s.commandRetries
    · refine ⟨.attempt, rfl, Option.isSome_iff_exists.mp ?_⟩
      simp only [step, State.attempt, h, if_pos hn]
      rfl
    · refine ⟨.giveUp, rfl, Option.isSome_iff_exists.mp ?_⟩
      simp only [step, State.giveUp, h, if_neg hn]
      rfl
  | send future seq =>
    rcases exists_frame commandId seq arg with ⟨frame, hframe⟩
    refine ⟨.send, rfl, Option.isSome_iff_exists.mp ?_⟩
    simp only [step, State.send, h, hclient, hframe]
    split <;> rfl
  | wait future =>
    have hlast := (hi.calling _ _ _ _ future h rfl).1
    have hlt : future < s.commands.shared.length := by
      rw [hi.shared]
      omega
    have hget := List.getElem?_eq_getElem hlt
    cases hv : s.commands.shared[future] with
    | none =>
      rw [hv] at hget
      refine ⟨.timeout, rfl, Option.isSome_iff_exists.mp ?_⟩
      simp only [step, State.timeout, h, hget, if_true]
      rfl
    | some value =>
      rw [hv] at hget
      refine ⟨.ready, rfl, Option.isSome_iff_exists.mp ?_⟩
      simp only [step, State.ready, h, hget]
      rfl

/-! ### Runs -/

/-- What has returned has returned after every run. -/
private theorem Done.run {ls : List Label} (hi : Inv handlers s) (h : Done s₀ commandId arg s)
    (hrun : Transition.run (step handlers) ls s = some s') : Done s₀ commandId arg s' := by
  refine (Transition.invariant (I := fun s ↦ Inv handlers s ∧ Done s₀ commandId arg s) ?_
    ⟨hi, h⟩ hrun).2
  intro l s s' hs hi
  have hgrows := history_grows hi.1 hs
  exact ⟨inv_step l s s' hs hi.1, hi.2.mono hgrows.1 hgrows.2⟩

/-- In a run from a call under way, the call takes no more steps than are left to it, or it
returns. -/
theorem During.run {c : Call} {made : List Attempt} {ls : List Label} (hi : Inv handlers s)
    (h : During s₀ commandId arg s c made) (hrun : Transition.run (step handlers) ls s = some s') :
    Done s₀ commandId arg s' ∨ ∃ c' made', During s₀ commandId arg s' c' made' ∧
      c'.stepsLeft s₀.commandRetries + ls.countP Label.own ≤ c.stepsLeft s₀.commandRetries := by
  induction ls generalizing s c made with
  | nil =>
    cases hrun
    exact Or.inr ⟨c, made, h, Nat.le_refl _⟩
  | cons l ls ih =>
    rcases Option.bind_eq_some_iff.mp hrun with ⟨s₁, hl, hls⟩
    have hi₁ := inv_step l s s₁ hl hi
    cases h.advances hi l hl with
    | done hdone => exact Or.inl (hdone.run hi₁ hls)
    | during c₁ made₁ h₁ hleft =>
      rcases ih hi₁ h₁ hls with hdone | ⟨c', made', h', hleft'⟩
      · exact Or.inl hdone
      · refine Or.inr ⟨c', made', h', ?_⟩
        rw [List.countP_cons]
        omega

/-- However the steps of the read thread, the Teensy and the links fall between its own, a call of
`send_command` can go on until it has returned, and returns after `3 * command_retries + 1` steps
of its own at most. It makes attempts for its own command only, `command_retries` of them at
most; and when it reports a timeout it has made them all. -/
theorem send_command_returns (handlers : CommandHandlers W) (w : W) (ls₀ ls : List Label)
    (s₀ s s' : State W) (commandId : CommandId) (arg : UInt8)
    (h₀ : Transition.run (step handlers) ls₀ (boot w) = some s₀)
    (hcall : step handlers (.call commandId arg) s₀ = some s)
    (h : Transition.run (step handlers) ls s = some s') :
    (Done s₀ commandId arg s' ∨
      (∃ c made, During s₀ commandId arg s' c made) ∧
        ∃ l, l.own = true ∧ ∃ s'', step handlers l s' = some s'') ∧
      (3 * s₀.commandRetries + 1 ≤ ls.countP Label.own → Done s₀ commandId arg s') := by
  have hi₀ := inv_run h₀
  have hi := inv_step _ s₀ s hcall hi₀
  have hstart : During s₀ commandId arg s ⟨commandId, arg, 0, .loop⟩ [] := by
    cases takes_of_step hcall with
    | call hclient =>
      exact ⟨rfl, ⟨rfl, rfl⟩, rfl, rfl, (List.append_nil _).symm, nofun, Nat.zero_le _, rfl⟩
  have hi' := Transition.invariant inv_step hi h
  rcases hstart.run hi h with hdone | ⟨c, made, hduring, hleft⟩
  · exact ⟨Or.inl hdone, fun _ ↦ hdone⟩
  · refine ⟨Or.inr ⟨⟨c, made, hduring⟩, exists_own_step hi' hduring.call⟩, fun hlong ↦ ?_⟩
    -- a call that has no step left is no longer under way
    have hcounts := hduring.counts
    have hpositive : 0 < c.stepsLeft s₀.commandRetries := by
      unfold Call.stepsLeft
      cases hp : c.phase with
      | loop => exact Nat.succ_pos _
      | _ =>
        rw [hp] at hcounts
        have hn : c.attempt < s₀.commandRetries := hcounts.1
        simp only
        omega
    have hfull : Call.stepsLeft s₀.commandRetries ⟨commandId, arg, 0, .loop⟩ =
        3 * s₀.commandRetries + 1 := rfl
    omega

/-- Two attempts: the first frame is lost, the answer to the second comes too late. -/
def unanswered : List Label :=
  [.attempt, .send, .loseCommand 0, .timeout, .attempt, .send, .poll, .timeout, .giveUp, .deliver]

theorem send_command_returns_unanswered : ∃ s₀ s s' : State Nat,
    Transition.run (step countingHandlers) [.configure 2] (boot 0) = some s₀ ∧
      step countingHandlers (.call .calibrationStart 0) s₀ = some s ∧
      Transition.run (step countingHandlers) unanswered s = some s' ∧
      Done s₀ .calibrationStart 0 s' ∧ s'.returned.map (·.message) = [timedOut] := by
  obtain ⟨s₀, s, h₀, hcall, hrun⟩ : ∃ s₀ s,
      Transition.run (step countingHandlers) [.configure 2] (boot 0) = some s₀ ∧
      step countingHandlers (.call .calibrationStart 0) s₀ = some s ∧
      (Transition.run (step countingHandlers) unanswered s).map
        (fun s ↦ s.returned.map (·.message)) = some [timedOut] :=
    ⟨_, _, rfl, rfl, by decide +kernel⟩
  rcases Option.map_eq_some_iff.mp hrun with ⟨s', hs', hend⟩
  have hcommandRetries : s₀.commandRetries = 2 := by
    cases h₀
    rfl
  refine ⟨s₀, s, s', h₀, hcall, hs', ?_, hend⟩
  refine (send_command_returns countingHandlers 0 [.configure 2] unanswered s₀ s s'
    .calibrationStart 0 h₀ hcall hs').2 ?_
  rw [hcommandRetries]
  decide

end BlueROV2.Session
