import BlueROV2.Session.Responses

/-!
# Several sessions: what a cleanup forgets

Library `Session`. `on_cleanup` sets `command_seq_` back, so attempts of different sessions
share sequence numbers, and a response that outlives its session answers the attempt that has
its number. When that happens is decided by the numbers of the two attempts alone.
-/

namespace BlueROV2.Session

open BlueROV2.Base BlueROV2.Wire BlueROV2.Link
open Firmware (CommandHandlers)

variable {W : Type} {handlers : CommandHandlers W} {s s' : State W}

/-- The response to attempt `c.1` and the promise of attempt `c.2` are of one session. -/
def OneSession (s : State W) (c : Nat × Nat) : Prop :=
  ∃ a ∈ s.attempts[c.1]?, ∃ b ∈ s.attempts[c.2]?, a.session = b.session

instance (s : State W) (c : Nat × Nat) : Decidable (OneSession s c) :=
  inferInstanceAs (Decidable (∃ a ∈ s.attempts[c.1]?, ∃ b ∈ s.attempts[c.2]?, _))

/-- A step accepts no response for an attempt of another session than its own. -/
def AcceptsOwn (handlers : CommandHandlers W) (l : Label) (s : State W) : Prop :=
  ∀ s' ∈ step handlers l s, ∀ c ∈ s'.completed, OneSession s' c

instance (l : Label) (s : State W) : Decidable (AcceptsOwn handlers l s) :=
  inferInstanceAs (Decidable (∀ s' ∈ step handlers l s, _))

/-- When a response arrives while an attempt is pending, and the two attempts are of different
sessions, their numbers in these sessions differ modulo 256. -/
def NumbersDiffer (l : Label) (s : State W) : Prop :=
  l = .deliver → ∀ f ∈ s.downlink.head?, ∀ p ∈ s.commands.pendingPromise,
    ∀ a ∈ s.attempts[f.attempt]?, ∀ b ∈ s.attempts[p]?, a.session ≠ b.session →
      a.ordinal % 256 ≠ b.ordinal % 256

instance (l : Label) (s : State W) : Decidable (NumbersDiffer l s) :=
  inferInstanceAs (Decidable (l = .deliver → _))

private theorem ofNat_eq_iff {x y : Nat} : UInt8.ofNat x = UInt8.ofNat y ↔ x % 256 = y % 256 := by
  rw [← UInt8.toNat_inj, UInt8.toNat_ofNat', UInt8.toNat_ofNat']

/-- The pending sequence number is that of the pending attempt. -/
theorem Inv.pendingSeq_eq (hi : Inv handlers s) {p : Nat} {b : Attempt}
    (hp : s.commands.pendingPromise = some p) (hb : s.attempts[p]? = some b) :
    s.commands.pendingSeq = b.seq := by
  rcases hi.pending p hp with ⟨hlast, hbase, -, hseq⟩
  rw [hseq, hi.seq_eq hb hbase]
  congr 1
  omega

private theorem oneSession_mono (hpre : s.attempts <+: s'.attempts) {c : Nat × Nat}
    (h : OneSession s c) : OneSession s' c := by
  rcases hpre with ⟨later, hpre⟩
  rcases h with ⟨a, ha, b, hb, hab⟩
  refine ⟨a, ?_, b, ?_, hab⟩
  · rw [← hpre, List.getElem?_append_left (List.getElem?_eq_some_iff.mp ha).1]
    exact ha
  · rw [← hpre, List.getElem?_append_left (List.getElem?_eq_some_iff.mp hb).1]
    exact hb

/-- Where numbers differ, a response is accepted for its own session only. -/
theorem acceptsOwn_of_numbersDiffer (hi : Inv handlers s) (hown : ∀ c ∈ s.completed, OneSession s c)
    {l : Label} (hl : NumbersDiffer l s) : AcceptsOwn handlers l s := by
  intro s' h
  rcases hi.moves h with ⟨hmoves, hpre, -⟩
  have hkeep : s'.completed = s.completed → ∀ c ∈ s'.completed, OneSession s' c :=
    fun hcomp c hc ↦ oneSession_mono hpre (hown c (hcomp ▸ hc))
  cases hmoves with
  | keep hup hdown hcomp => exact hkeep hcomp
  | send f hf hup hdown hcomp => exact hkeep hcomp
  | poll f hup hdown hcomp => exact hkeep hcomp
  | deliver f downlink v hlabel hdown hv hcases =>
    cases hcases with
    | stale => exact hkeep rfl
    | pending p hp hseq =>
      intro c hc
      rcases List.mem_append.mp hc with hc | hc
      · exact hown c hc
      · rw [List.mem_singleton.mp hc]
        rcases hv with ⟨a, effects, r, ha, -, -, rfl⟩
        have hlt : p < s.attempts.length := by
          have hlast := (hi.pending p hp).1
          omega
        have hb : s.attempts[p]? = some s.attempts[p] := List.getElem?_eq_getElem hlt
        refine ⟨a, ha, s.attempts[p], hb, ?_⟩
        apply Decidable.byContradiction
        intro hne
        apply hl hlabel f (by rw [hdown]; rfl) p hp a ha s.attempts[p] hb hne
        rw [← ofNat_eq_iff]
        exact hseq.trans (hi.pendingSeq_eq hp hb)

/-- Where a response is accepted for its own session only, numbers differ. -/
theorem numbersDiffer_of_acceptsOwn (hi : Inv handlers s) {l : Label}
    (hl : AcceptsOwn handlers l s) : NumbersDiffer l s := by
  rintro rfl f hf p hp a ha b hb hne hmod
  rcases hd : s.downlink with _ | ⟨g, downlink⟩
  · rw [hd] at hf
    cases hf
  · obtain rfl : g = f := by
      rw [hd] at hf
      exact Option.some.inj hf
    cases hr : s.client with
    | none =>
      rw [(hi.cleaned hr).2.1] at hp
      cases hp
    | some reader =>
      rcases hi.deliver_enabled hd hr with ⟨v, s', hv, hs', hcases⟩
      have hseq : v[1] = s.commands.pendingSeq := by
        rcases hv with ⟨a', effects, r, ha', -, -, rfl⟩
        obtain rfl : a' = a := Option.some.inj (ha'.symm.trans ha)
        exact (ofNat_eq_iff.mpr hmod).trans (hi.pendingSeq_eq hp hb).symm
      cases hcases with
      | stale hstale => exact hstale p hp hseq
      | pending q hq =>
        obtain rfl : q = p := Option.some.inj (hq.symm.trans hp)
        rcases hl _ hs' (g.attempt, q) (List.mem_append_right _ List.mem_cons_self) with
          ⟨a', ha', b', hb', hab⟩
        apply hne
        rw [← Option.some.inj (ha'.symm.trans ha), ← Option.some.inj (hb'.symm.trans hb)]
        exact hab

/-- What `send_command` returns when a response has arrived was made of an attempt of the same
session. -/
def ReturnsOwnSession (handlers : CommandHandlers W) (s : State W) : Prop :=
  ∀ s', step handlers .ready s = some s' → ∃ commandId arg n future i a effects r,
    s.call = some ⟨commandId, arg, n, .wait future⟩ ∧ s.attempts[i]? = some a ∧
    a.session = s.sessions ∧ (i, effects) ∈ s.executed ∧
    Produces handlers effects a.commandId r ∧ s' = s.finish commandId (Driver.report r)

/-- Promises completed within their sessions yield results of these sessions. -/
theorem Inv.returnsOwnSession (hi : Inv handlers s) (hown : ∀ c ∈ s.completed, OneSession s c) :
    ReturnsOwnSession handlers s := by
  intro s' h
  cases takes_of_step h with
  | @ready commandId arg n future v hc hv =>
    rcases hi.calling _ _ _ _ future hc rfl with ⟨-, hb, a, ha, rfl, -⟩
    rcases hi.satisfied future v hv with ⟨i, hmem, a', effects, r, ha', hexec, hprod, rfl⟩
    rcases hown _ hmem with ⟨x, hx, y, hy, hxy⟩
    obtain rfl : x = a' := Option.some.inj (hx.symm.trans ha')
    obtain rfl : y = a := Option.some.inj (hy.symm.trans ha)
    exact ⟨_, arg, n, future, i, x, effects, r, hc, ha', hxy.trans (hi.current future y ha hb).1,
      hexec, hprod, rfl⟩

/-- A step that meets the condition keeps every promise completed within its session. -/
theorem oneSession_step (l : Label) (s s' : State W) (hl : NumbersDiffer l s)
    (h : step handlers l s = some s')
    (hi : Inv handlers s ∧ ∀ c ∈ s.completed, OneSession s c) :
    Inv handlers s' ∧ ∀ c ∈ s'.completed, OneSession s' c :=
  ⟨inv_step l s s' h hi.1, acceptsOwn_of_numbersDiffer hi.1 hi.2 hl s' h⟩

/-- Over every run of configurations, commands and cleanups: no attempt accepts a response to
an attempt of another session, exactly when no response arrives while an attempt of another
session is pending whose number agrees with that of its own modulo 256. In such runs every
result that is returned was made of an attempt of the same session. -/
theorem accepts_own_iff (handlers : CommandHandlers W) (w : W) (ls : List Label) :
    (Transition.Along (step handlers) (AcceptsOwn handlers) ls (boot w) ↔
      Transition.Along (step handlers) NumbersDiffer ls (boot w)) ∧
    ∀ s, Transition.Along (step handlers) NumbersDiffer ls (boot w) →
      Transition.run (step handlers) ls (boot w) = some s → ReturnsOwnSession handlers s := by
  have h₀ : Inv handlers (boot w) ∧ ∀ c ∈ (boot w).completed, OneSession (boot w) c :=
    ⟨inv_boot handlers w, nofun⟩
  constructor
  · exact (Transition.along_congr (I := fun s ↦ Inv handlers s ∧ ∀ c ∈ s.completed, OneSession s c)
      oneSession_step (fun l s hi ↦ ⟨acceptsOwn_of_numbersDiffer hi.1 hi.2,
        numbersDiffer_of_acceptsOwn hi.1⟩) ls h₀).symm
  · intro s hall h
    have hs := Transition.invariant_run
      (I := fun s ↦ Inv handlers s ∧ ∀ c ∈ s.completed, OneSession s c) oneSession_step h₀ hall h
    exact hs.1.returnsOwnSession hs.2

/-- A session whose only response is late, a cleanup, and a second session of `n` attempts. -/
def outlived (n : Nat) : List Label :=
  [.configure 1, .call .calibrationStart 0, .attempt, .send, .poll, .timeout, .giveUp, .cleanup,
    .configure 2, .call .calibrationStop 0] ++
  (List.replicate n [.attempt, .send, .timeout]).flatten ++ [.attempt, .send, .deliver]

/-- In the second attempt of the second session the late response is discarded. -/
theorem accepts_own_iff_outlived : ∃ s,
    Transition.run (step countingHandlers) (outlived 1) (boot 0) = some s ∧
      s.completed = [] ∧ ReturnsOwnSession countingHandlers s := by
  have hall : Transition.Along (step countingHandlers) NumbersDiffer (outlived 1) (boot 0) := by
    decide +kernel
  have hrun : (Transition.run (step countingHandlers) (outlived 1) (boot 0)).map (·.completed) =
      some [] := by decide +kernel
  rcases Option.map_eq_some_iff.mp hrun with ⟨s, hs, hend⟩
  exact ⟨s, hs, hend, (accepts_own_iff countingHandlers 0 (outlived 1)).2 s hall hs⟩

/-- In its first attempt the late response is accepted: the driver reports that calibration was
stopped, on the answer to the command that started it, the only one the Teensy has executed. -/
theorem cleanup_lets_response_through :
    ¬ Transition.Along (step countingHandlers) (AcceptsOwn countingHandlers)
      (outlived 0) (boot 0) ∧
    (Transition.run (step countingHandlers) (outlived 0 ++ [.ready]) (boot 0)).map
      (fun s ↦ (s.attempts.map (·.session), s.returned,
        s.executed.flatMap (Firmware.handledBy ·.2))) =
      some ([1, 2],
        [⟨.calibrationStart, false, "Timed out waiting for a response from the Teensy"⟩,
          ⟨.calibrationStop, true, "Command executed successfully"⟩],
        [(.calibrationStart, .ok)]) := by
  constructor
  · decide +kernel
  · decide +kernel

end BlueROV2.Session
