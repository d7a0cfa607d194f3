/-!
# Runs of a labelled system

Library `Base`. A system is a partial step function on states; a run is the list of the
labels of its steps. Conditions on steps are carried along a run, and an invariant that
every admitted step preserves holds wherever the run leads.
-/

namespace BlueROV2.Base.Transition

universe u v

variable {L : Type u} {S : Type v} (step : L → S → Option S)

/-- The state a list of steps leads to, if each of them is enabled. -/
def run : List L → S → Option S
  | [], s => some s
  | l :: ls, s => (step l s).bind (run ls)

/-- Every step of a list meets a condition on its label and on the state it is taken in. -/
def Along (P : L → S → Prop) : List L → S → Prop
  | [], _ => True
  | l :: ls, s => P l s ∧ ∀ s', step l s = some s' → Along P ls s'

variable {step} {P Q : L → S → Prop} {I : S → Prop}

/-- A run in two parts. -/
theorem run_append (ls ks : List L) (s : S) :
    run step (ls ++ ks) s = (run step ls s).bind (run step ks) := by
  induction ls generalizing s with
  | nil => rfl
  | cons l ls ih =>
    rw [List.cons_append, run, run, Option.bind_assoc]
    exact congrArg _ (funext ih)

/-- What every admitted step preserves holds after every admitted run. -/
theorem invariant_run (hstep : ∀ l s s', P l s → step l s = some s' → I s → I s') {ls : List L}
    {s s' : S} (h₀ : I s) (hall : Along step P ls s) (h : run step ls s = some s') : I s' := by
  induction ls generalizing s with
  | nil =>
    cases h
    exact h₀
  | cons l ls ih =>
    rcases Option.bind_eq_some_iff.mp h with ⟨s₁, hl, hls⟩
    exact ih (hstep l s s₁ hall.1 hl h₀) (hall.2 s₁ hl) hls

/-- A condition on labels that every label of a list meets is met along the list. -/
theorem along_of_mem {P : L → Prop} {ls : List L} (h : ∀ l ∈ ls, P l) (s : S) :
    Along step (fun l _ ↦ P l) ls s := by
  induction ls generalizing s with
  | nil => exact trivial
  | cons l ls ih =>
    exact ⟨h l List.mem_cons_self, fun s' _ ↦ ih (fun k hk ↦ h k (List.mem_cons_of_mem l hk)) s'⟩

/-- What every step preserves holds after every run. -/
theorem invariant (hstep : ∀ l s s', step l s = some s' → I s → I s') {ls : List L} {s s' : S}
    (h₀ : I s) (h : run step ls s = some s') : I s' :=
  invariant_run (P := fun _ _ ↦ True) (fun l s s' _ ↦ hstep l s s') h₀
    (along_of_mem (fun _ _ ↦ trivial) s) h

/-- What every step keeps of the steps that were taken and the state they lead to. -/
theorem history (J : List L → S → Prop)
    (hstep : ∀ log l s s', step l s = some s' → J log s → J (log ++ [l]) s') (log : List L)
    {ls : List L} {s s' : S} (h₀ : J log s) (h : run step ls s = some s') : J (log ++ ls) s' := by
  induction ls generalizing s log with
  | nil =>
    cases h
    rw [List.append_nil]
    exact h₀
  | cons l ls ih =>
    rcases Option.bind_eq_some_iff.mp h with ⟨s₁, hl, hls⟩
    rw [← List.singleton_append, ← List.append_assoc]
    exact ih (log ++ [l]) (hstep log l s s₁ hl h₀) hls

/-- What follows from a condition and an invariant of the steps that meet it is met by the runs
that meet the condition. -/
theorem along_imp (hstep : ∀ l s s', P l s → step l s = some s' → I s → I s')
    (himp : ∀ l s, I s → P l s → Q l s) {ls : List L} {s : S} (h₀ : I s)
    (hall : Along step P ls s) : Along step Q ls s := by
  induction ls generalizing s with
  | nil => exact trivial
  | cons l ls ih =>
    exact ⟨himp l s h₀ hall.1, fun s' hs' ↦ ih (hstep l s s' hall.1 hs' h₀) (hall.2 s' hs')⟩

/-- Two conditions that agree wherever an invariant of the admitted steps holds are met by the
same runs. -/
theorem along_congr (hstep : ∀ l s s', P l s → step l s = some s' → I s → I s')
    (hiff : ∀ l s, I s → (P l s ↔ Q l s)) (ls : List L) {s : S} (h₀ : I s) :
    Along step P ls s ↔ Along step Q ls s := by
  constructor
  · apply along_imp hstep _ h₀
    exact fun l s hi hp ↦ (hiff l s hi).mp hp
  · apply along_imp _ _ h₀
    · exact fun l s s' hq hs' hi ↦ hstep l s s' ((hiff l s hi).mpr hq) hs' hi
    · exact fun l s hi hq ↦ (hiff l s hi).mpr hq

/-- Conditions that can be decided for each step can be decided along a run. -/
instance instDecidableAlong [∀ l s, Decidable (P l s)] :
    ∀ (ls : List L) (s : S), Decidable (Along step P ls s)
  | [], _ => isTrue trivial
  | l :: ls, s =>
    match h : step l s with
    | none => decidable_of_iff (P l s) ⟨fun hp ↦ ⟨hp, fun _ h' ↦ nomatch h.symm.trans h'⟩, And.left⟩
    | some s₁ =>
      have := instDecidableAlong ls s₁
      decidable_of_iff (P l s ∧ Along step P ls s₁)
        ⟨fun ha ↦ ⟨ha.1, fun _ h' ↦ Option.some.inj (h.symm.trans h') ▸ ha.2⟩,
          fun ha ↦ ⟨ha.1, ha.2 s₁ h⟩⟩

end BlueROV2.Base.Transition
