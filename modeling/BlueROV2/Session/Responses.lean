import BlueROV2.Session.Invariant

/-!
# One session: results come from the attempt they are returned for

Library `Session`. Within a session that starts with nothing in flight, and in which no
response arrives 256 or more attempts late, the sequence number identifies the attempt:
`send_command` only ever returns what the Teensy made of its own last attempt.
-/

namespace BlueROV2.Session

open BlueROV2.Base BlueROV2.Wire BlueROV2.Link
open Firmware (CommandHandlers)

variable {W : Type} {handlers : CommandHandlers W} {s s' : State W}

/-- A response that arrives does so less than 256 attempts after its own. -/
def Timely (l : Label) (s : State W) : Prop :=
  l = .deliver → ∀ f ∈ s.downlink.head?, s.attempts.length - 1 - f.attempt < 256

instance (l : Label) (s : State W) : Decidable (Timely l s) :=
  inferInstanceAs (Decidable (l = .deliver → _))

/-- The driver is configured, has made no attempt since, and nothing older is in flight. -/
structure Fresh (s : State W) : Prop where
  configured : s.client ≠ none
  unused : s.base = s.attempts.length
  uplink : s.uplink = []
  downlink : s.downlink = []

/-- Everything in flight belongs to this session, and so far every promise of this session
got its own response. -/
structure Own (s : State W) : Prop where
  uplink : ∀ f ∈ s.uplink, s.base ≤ f.attempt
  downlink : ∀ f ∈ s.downlink, s.base ≤ f.attempt
  completed : ∀ c ∈ s.completed, s.base ≤ c.2 → c.1 = c.2

private theorem ofNat_inj_of_close {x y : Nat} (h : UInt8.ofNat x = UInt8.ofNat y) (hle : x ≤ y)
    (hlt : y - x < 256) : x = y := by
  have hmod := congrArg UInt8.toNat h
  simp only [UInt8.toNat_ofNat'] at hmod
  omega

/-- A timely response that carries the pending sequence number is the pending attempt's. -/
theorem attempt_of_seq (hi : Inv handlers s) {i p : Nat} {v : Driver.Response}
    (hv : Answers handlers s i v) (hb : s.base ≤ i) (hp : s.commands.pendingPromise = some p)
    (hseq : v[1] = s.commands.pendingSeq) (htimely : s.attempts.length - 1 - i < 256) : i = p := by
  rcases hv with ⟨a, effects, r, ha, -, -, rfl⟩
  rcases hi.pending p hp with ⟨hlast, hbp, -, hpseq⟩
  have hlt : i < s.attempts.length := (List.getElem?_eq_some_iff.mp ha).1
  have hcount : i - s.base + 1 = s.attempts.length - s.base := by
    apply ofNat_inj_of_close
    · rw [← hi.seq_eq ha hb, ← hpseq]
      exact hseq
    · omega
    · omega
  omega

/-- A fresh session has nothing but its own. -/
theorem Fresh.own (hi : Inv handlers s) (h : Fresh s) : Own s where
  uplink := by rw [h.uplink]; nofun
  downlink := by rw [h.downlink]; nofun
  completed := by
    intro c hc hb
    rcases hi.completed c hc with ⟨v, hv⟩
    have hlt := (List.getElem?_eq_some_iff.mp hv).1
    have hlen := hi.shared
    have hunused := h.unused
    omega

/-- Every step within a session that meets the time limit keeps to the session's own. -/
theorem own_step (l : Label) (s s' : State W) (hl : l.lifecycle = false ∧ Timely l s)
    (h : step handlers l s = some s') (hi : Inv handlers s ∧ Own s) :
    Inv handlers s' ∧ Own s' := by
  have ho := hi.2
  rcases hi.1.moves h with ⟨hmoves, -, hbase⟩
  replace hbase := hbase hl.1
  refine ⟨inv_step l s s' h hi.1, ?_⟩
  cases hmoves with
  | keep hup hdown hcomp =>
    refine ⟨?_, ?_, ?_⟩
    · exact fun f hf ↦ hbase ▸ ho.uplink f (hup.subset hf)
    · exact fun f hf ↦ hbase ▸ ho.downlink f (hdown.subset hf)
    · rw [hcomp, hbase]
      exact ho.completed
  | send f hf hup hdown hcomp =>
    refine ⟨?_, ?_, ?_⟩
    · intro g hg
      rw [hup] at hg
      rw [hbase]
      rcases List.mem_append.mp hg with hg | hg
      · exact ho.uplink g hg
      · rw [List.mem_singleton.mp hg]
        exact hf
    · rw [hdown, hbase]
      exact ho.downlink
    · rw [hcomp, hbase]
      exact ho.completed
  | poll f hup hdown hcomp =>
    have hf : s.base ≤ f.attempt := ho.uplink f (by rw [hup]; exact List.mem_cons_self)
    refine ⟨?_, ?_, ?_⟩
    · intro g hg
      rw [hbase]
      exact ho.uplink g (by rw [hup]; exact List.mem_cons_of_mem _ hg)
    · intro g hg
      rw [hbase]
      rcases hdown g hg with hg | hg
      · exact ho.downlink g hg
      · rw [hg]
        exact hf
    · rw [hcomp, hbase]
      exact ho.completed
  | deliver f downlink v hlabel hdown hv hcases =>
    have hrest : ∀ g ∈ downlink, s.base ≤ g.attempt :=
      fun g hg ↦ ho.downlink g (by rw [hdown]; exact List.mem_cons_of_mem _ hg)
    cases hcases with
    | stale hstale => exact ⟨ho.uplink, hrest, ho.completed⟩
    | pending p hp hseq =>
      refine ⟨ho.uplink, hrest, ?_⟩
      intro c hc hb
      rcases List.mem_append.mp hc with hc | hc
      · exact ho.completed c hc hb
      · rw [List.mem_singleton.mp hc]
        exact attempt_of_seq hi.1 hv (ho.downlink f (by rw [hdown]; exact List.mem_cons_self)) hp
          hseq (hl.2 hlabel f (by rw [hdown]; rfl))

/-- What `send_command` returns when a response has arrived: the value of its future is what the
Teensy made of this call's last attempt, for the command of this call, with the result that is
returned, and that was the last frame it took; no command is left in flight. -/
def ReturnsOwnResult (handlers : CommandHandlers W) (s : State W) : Prop :=
  ∀ s', step handlers .ready s = some s' → ∃ commandId arg n future a effects r,
    s.call = some ⟨commandId, arg, n, .wait future⟩ ∧ future + 1 = s.attempts.length ∧
    s.attempts[future]? = some a ∧ a.session = s.sessions ∧ a.commandId = commandId ∧
    s.commands.shared[future]? = some (some #v[commandId.byte, a.seq, r.byte]) ∧
    s.executed.getLast? = some (future, effects) ∧ Produces handlers effects commandId r ∧
    s.uplink = [] ∧ s' = s.finish commandId (Driver.report r)

/-- No response completes two promises, no promise is completed twice, no attempt is executed
twice; and a delivery never aborts, so `set_value` never meets a promise with a value. -/
def CompletesOnce (s : State W) : Prop :=
  (s.completed.map (·.1)).Nodup ∧ (s.completed.map (·.2)).Nodup ∧ (s.executed.map (·.1)).Nodup ∧
    ∀ f downlink reader, s.downlink = f :: downlink → s.client = some reader →
      ∃ s', s.deliver = some s'

/-- A response to another attempt than the pending one does nothing but leave the link; any
response leaves the call, the sequence numbers and all other promises as they are. -/
def StaleChangesNothing (s : State W) : Prop :=
  ∀ s', Timely .deliver s → s.deliver = some s' → ∃ f downlink, s.downlink = f :: downlink ∧
    (s.commands.pendingPromise ≠ some f.attempt → s' = { s with downlink }) ∧
    s'.call = s.call ∧ s'.commands.commandSeq = s.commands.commandSeq ∧
    s'.commands.pendingSeq = s.commands.pendingSeq ∧
    ∀ p, p ≠ f.attempt → s'.commands.shared[p]? = s.commands.shared[p]?

private theorem eq_last_of_pairwise {β : Type} {l : List (Nat × β)} {m : List Nat} {x : Nat × β}
    {n : Nat} (hp : (l.map (·.1) ++ m).Pairwise (· < ·)) (hn : ∀ i ∈ l.map (·.1) ++ m, i < n)
    (hx : x ∈ l) (hlast : x.1 + 1 = n) : l.getLast? = some x ∧ m = [] := by
  rcases List.append_of_mem hx with ⟨u, v, rfl⟩
  simp only [List.map_append, List.map_cons, List.append_assoc, List.cons_append] at hp hn
  -- whatever comes behind the entry would have a larger number than the largest
  have hnil : v.map (·.1) ++ m = [] := by
    rw [List.eq_nil_iff_forall_not_mem]
    intro i hi
    have hlt := (List.pairwise_cons.mp (List.pairwise_append.mp hp).2.1).1 i hi
    have hbound := hn i (List.mem_append_right _ (List.mem_cons_of_mem _ hi))
    omega
  rcases List.append_eq_nil_iff.mp hnil with ⟨hv, hm⟩
  rw [List.map_eq_nil_iff.mp hv]
  exact ⟨List.getLast?_concat, hm⟩

/-- A result that arrived is that of the call's last attempt. -/
theorem Own.returnsOwnResult (ho : Own s) (hi : Inv handlers s) : ReturnsOwnResult handlers s := by
  intro s' h
  cases takes_of_step h with
  | @ready commandId arg n future v hc hv =>
    rcases hi.calling _ _ _ _ future hc rfl with ⟨hlast, hb, a, ha, rfl, -⟩
    rcases hi.satisfied future v hv with ⟨i, hmem, hans⟩
    obtain rfl : i = future := ho.completed _ hmem hb
    rcases hans with ⟨a', effects, r, ha', hexec, hprod, rfl⟩
    obtain rfl : a' = a := Option.some.inj (ha'.symm.trans ha)
    have hpath := hi.path
    have hknown := hi.known
    rw [State.path, List.append_assoc] at hpath hknown
    rcases eq_last_of_pairwise hpath hknown hexec hlast with ⟨hgl, hnil⟩
    have hup := List.map_eq_nil_iff.mp (List.append_eq_nil_iff.mp hnil).1
    exact ⟨_, arg, n, i, a', effects, r, hc, hlast, ha, (hi.current i a' ha hb).1, rfl, hv, hgl,
      hprod, hup, rfl⟩

private theorem nodup_of_pairwise_lt {l : List Nat} (h : l.Pairwise (· < ·)) : l.Nodup :=
  h.imp Nat.ne_of_lt

/-- Promises and responses meet at most once. -/
theorem Inv.completesOnce (hi : Inv handlers s) : CompletesOnce s := by
  have hexec : (s.executed.map (·.1)).Pairwise (· < ·) := by
    have hpath := hi.path
    rw [State.path, List.append_assoc] at hpath
    exact (List.pairwise_append.mp hpath).1
  refine ⟨nodup_of_pairwise_lt (List.pairwise_append.mp (hexec.sublist hi.answers)).1,
    nodup_of_pairwise_lt hi.promises, nodup_of_pairwise_lt hexec, ?_⟩
  intro f downlink reader hdown hr
  rcases hi.deliver_enabled hdown hr with ⟨v, s', -, hs', -⟩
  exact ⟨s', hs'⟩

/-- A response that is not the pending attempt's does nothing. -/
theorem Own.staleChangesNothing (ho : Own s) (hi : Inv handlers s) : StaleChangesNothing s := by
  intro s' htimely h
  rcases hi.deliver_cases h with ⟨f, downlink, v, hdown, -, hv, hcases⟩
  refine ⟨f, downlink, hdown, ?_⟩
  cases hcases with
  | stale hstale => exact ⟨fun _ ↦ rfl, rfl, rfl, rfl, fun _ _ ↦ rfl⟩
  | pending p hp hseq =>
    have hown : f.attempt = p := attempt_of_seq hi hv
      (ho.downlink f (by rw [hdown]; exact List.mem_cons_self)) hp hseq
      (htimely rfl f (by rw [hdown]; rfl))
    subst hown
    refine ⟨fun hne ↦ absurd hp hne, rfl, rfl, rfl, ?_⟩
    intro q hq
    exact List.getElem?_set_ne (Ne.symm hq)

/-- Within a configured session that starts with nothing older in flight, for every order of
the steps of service thread, read thread, Teensy and links, in which no response arrives 256
or more attempts late: results are returned for the attempt and the command they were made
of, nothing is completed twice, and stale responses change nothing. -/
theorem session_answers (handlers : CommandHandlers W) (w : W) (ls₀ ls : List Label)
    (s₀ s : State W) (h₀ : Transition.run (step handlers) ls₀ (boot w) = some s₀)
    (hfresh : Fresh s₀)
    (hall : Transition.Along (step handlers) (fun l s ↦ l.lifecycle = false ∧ Timely l s) ls s₀)
    (h : Transition.run (step handlers) ls s₀ = some s) :
    ReturnsOwnResult handlers s ∧ CompletesOnce s ∧ StaleChangesNothing s := by
  have hi₀ : Inv handlers s₀ := inv_run h₀
  have hs := Transition.invariant_run (I := fun s ↦ Inv handlers s ∧ Own s) own_step
    ⟨hi₀, hfresh.own hi₀⟩ hall h
  exact ⟨hs.2.returnsOwnResult hs.1, hs.1.completesOnce, hs.2.staleChangesNothing hs.1⟩

/-- A Teensy whose handlers count how often they ran. -/
def countingHandlers : CommandHandlers Nat :=
  #v[some fun n ↦ (.ok, n + 1), some fun n ↦ (.ok, n + 1), some fun n ↦ (.ok, n + 1)]

/-- A command whose first response arrives after the timeout and is discarded. -/
def retried : List Label :=
  [.call .calibrationStart 0, .attempt, .send, .timeout, .poll, .attempt, .deliver, .send, .poll,
    .deliver]

/-- The value of the second future is that of the second attempt, and its result is returned. -/
theorem session_answers_retried : ∃ s₀ s s',
    Transition.run (step countingHandlers) [.configure 3] (boot 0) = some s₀ ∧
      Transition.run (step countingHandlers) retried s₀ = some s ∧
      (s.completed, s.world) = ([(1, 1)], 2) ∧
      s.commands.shared = [none, some #v[1, 2, CommandResponse.ok.byte]] ∧
      step countingHandlers .ready s = some s' ∧
      s'.returned = [⟨.calibrationStart, true, "Command executed successfully"⟩] ∧
      ReturnsOwnResult countingHandlers s ∧ CompletesOnce s ∧ StaleChangesNothing s := by
  obtain ⟨s₀, h₀, hfresh, hall, hrun, hready⟩ : ∃ s₀,
      Transition.run (step countingHandlers) [.configure 3] (boot 0) = some s₀ ∧ Fresh s₀ ∧
      Transition.Along (step countingHandlers) (fun l s ↦ l.lifecycle = false ∧ Timely l s)
        retried s₀ ∧
      (Transition.run (step countingHandlers) retried s₀).map
        (fun s ↦ ((s.completed, s.world), s.commands.shared)) =
          some (([(1, 1)], 2), [none, some #v[1, 2, CommandResponse.ok.byte]]) ∧
      ((Transition.run (step countingHandlers) retried s₀).bind (step countingHandlers .ready)).map
        (·.returned) = some [⟨.calibrationStart, true, "Command executed successfully"⟩] :=
    ⟨_, rfl, ⟨nofun, rfl, rfl, rfl⟩, by decide +kernel, by decide +kernel, by decide +kernel⟩
  rcases Option.map_eq_some_iff.mp hrun with ⟨s, hs, hend⟩
  rcases Prod.ext_iff.mp hend with ⟨hcompleted, hshared⟩
  rw [hs, Option.bind_some] at hready
  rcases Option.map_eq_some_iff.mp hready with ⟨s', hs', hreturned⟩
  exact ⟨s₀, s, s', h₀, hs, hcompleted, hshared, hs', hreturned,
    session_answers countingHandlers 0 [.configure 3] retried s₀ s h₀ hfresh hall hs⟩

end BlueROV2.Session
