import BlueROV2.Base.Simulation

/-!
# Two systems that exchange something

Library `Base`. Two systems take their steps on their own, and something passes between them; what
passes can be told from the run of either. Some of it may pass at one side only: what is given away
and not taken. A relation between their states that is kept by the steps of each, and by two steps
at which the same passes, holds whenever what both have passed matches.
-/

namespace BlueROV2.Base.Transition

universe u v w x y

variable {A : Type u} {M : Type v} {L : Type w} {S : Type x} {E : Type y}

/-! ### What passed at both sides -/

/-- What passed at the one side and at the other, in the same order, except for what was lost: it
passed at the first side only; and for what was missed: it passed at the second side only. -/
inductive Matched (lost missed : E → Prop) : List E → List E → Prop
  | nil : Matched lost missed [] []
  | both (e : E) {es ps : List E} (h : Matched lost missed es ps) :
      Matched lost missed (e :: es) (e :: ps)
  | lost (e : E) {es ps : List E} (he : lost e) (h : Matched lost missed es ps) :
      Matched lost missed (e :: es) ps
  | missed (e : E) {es ps : List E} (he : missed e) (h : Matched lost missed es ps) :
      Matched lost missed es (e :: ps)

variable {lost missed : E → Prop} {es es₁ es₂ ps : List E} {e : E}

/-- Without anything at the first side, all was missed. -/
theorem Matched.all_missed (h : Matched lost missed [] ps) : ∀ p ∈ ps, missed p := by
  generalize hes : ([] : List E) = es at h
  induction h with
  | nil => exact fun p hp ↦ absurd hp List.not_mem_nil
  | both | lost => cases hes
  | missed e he h ih => exact List.forall_mem_cons.mpr ⟨he, ih hes⟩

/-- What passed at the second side can be split where the first side is. -/
theorem Matched.split (h : Matched lost missed (es₁ ++ es₂) ps) :
    ∃ ps₁ ps₂, ps = ps₁ ++ ps₂ ∧ Matched lost missed es₁ ps₁ ∧ Matched lost missed es₂ ps₂ := by
  generalize hes : es₁ ++ es₂ = es at h
  induction h generalizing es₁ with
  | nil =>
    rcases List.append_eq_nil_iff.mp hes with ⟨rfl, rfl⟩
    exact ⟨[], [], rfl, .nil, .nil⟩
  | both e h ih =>
    cases es₁ with
    | nil =>
      subst hes
      exact ⟨[], _, rfl, .nil, .both e h⟩
    | cons e₁ es₁ =>
      rcases List.cons_eq_cons.mp hes with ⟨rfl, htail⟩
      rcases ih htail with ⟨ps₁, ps₂, rfl, h₁, h₂⟩
      exact ⟨_, ps₂, rfl, .both e₁ h₁, h₂⟩
  | lost e he h ih =>
    cases es₁ with
    | nil =>
      subst hes
      exact ⟨[], _, rfl, .nil, .lost e he h⟩
    | cons e₁ es₁ =>
      rcases List.cons_eq_cons.mp hes with ⟨rfl, htail⟩
      rcases ih htail with ⟨ps₁, ps₂, rfl, h₁, h₂⟩
      exact ⟨ps₁, ps₂, rfl, .lost e₁ he h₁, h₂⟩
  | missed e he h ih =>
    rcases ih hes with ⟨ps₁, ps₂, rfl, h₁, h₂⟩
    exact ⟨_, ps₂, rfl, .missed e he h₁, h₂⟩

/-- One thing was lost, or passed at the second side too. -/
theorem Matched.singleton (h : Matched lost missed [e] ps) :
    lost e ∧ (∀ p ∈ ps, missed p) ∨ ∃ before after, ps = before ++ e :: after ∧
      (∀ p ∈ before, missed p) ∧ ∀ p ∈ after, missed p := by
  generalize hes : [e] = es at h
  induction h with
  | nil => cases hes
  | both _ h =>
    cases hes
    exact Or.inr ⟨[], _, rfl, fun p hp ↦ absurd hp List.not_mem_nil, h.all_missed⟩
  | lost _ he h =>
    cases hes
    exact Or.inl ⟨he, h.all_missed⟩
  | missed p hp h ih =>
    rcases ih hes with ⟨he, hps⟩ | ⟨before, after, rfl, hbefore, hafter⟩
    · exact Or.inl ⟨he, List.forall_mem_cons.mpr ⟨hp, hps⟩⟩
    · exact Or.inr ⟨p :: before, after, rfl, List.forall_mem_cons.mpr ⟨hp, hbefore⟩, hafter⟩

/-! ### What both sides keep -/

/-- A relation is kept by a step of either system at which nothing passes or what passes does not
reach the other, and by a step of both at which the same passes. -/
structure Exchanges (act : A → M → Option M) (passes : A → Option E) (step : L → S → Option S)
    (trace : L → S → List E) (lost missed : E → Prop) (P : L → S → Prop) (R : M → S → Prop) :
    Prop where
  keepsAct : ∀ a m m' s, (∀ e ∈ passes a, missed e) → act a m = some m' → R m s → R m' s
  keepsStep : ∀ l m s s', P l s → step l s = some s' → (∀ e ∈ trace l s, lost e) → R m s → R m s'
  keepsBoth : ∀ a l e m m' s s', P l s → step l s = some s' → trace l s = [e] → passes a = some e →
    act a m = some m' → R m s → R m' s'
  single : ∀ l m s s', R m s → step l s = some s' → trace l s = [] ∨ ∃ e, trace l s = [e]

variable {act : A → M → Option M} {passes : A → Option E} {step : L → S → Option S}
  {trace : L → S → List E} {P : L → S → Prop} {R : M → S → Prop} {m m' : M} {s s' : S}

/-- The one system may go on for itself. -/
theorem Exchanges.run_act (h : Exchanges act passes step trace lost missed P R) {as : List A}
    (hmissed : ∀ e ∈ as.filterMap passes, missed e) (hrun : run act as m = some m')
    (hr : R m s) : R m' s := by
  induction as generalizing m with
  | nil =>
    cases hrun
    exact hr
  | cons a as ih =>
    rcases Option.bind_eq_some_iff.mp hrun with ⟨m₁, ha, has⟩
    have hpasses : ∀ e ∈ passes a, missed e := fun e he ↦
      hmissed e (List.mem_filterMap.mpr ⟨a, List.mem_cons_self, he⟩)
    have hrest : ∀ e ∈ as.filterMap passes, missed e := fun e he ↦ by
      rcases List.mem_filterMap.mp he with ⟨b, hb, hbe⟩
      exact hmissed e (List.mem_filterMap.mpr ⟨b, List.mem_cons_of_mem a hb, hbe⟩)
    exact ih hrest has (h.keepsAct a m m₁ s hpasses ha hr)

/-- The other system takes a step, and the one does what goes with it. -/
theorem Exchanges.run_step (h : Exchanges act passes step trace lost missed P R) {as : List A}
    {l : L} (hl : P l s) (hstep : step l s = some s')
    (hmatched : Matched lost missed (trace l s) (as.filterMap passes))
    (hrun : run act as m = some m') (hr : R m s) : R m' s' := by
  rcases h.single l m s s' hr hstep with hnil | ⟨e, hone⟩
  · rw [hnil] at hmatched
    refine h.run_act hmatched.all_missed hrun (h.keepsStep l m s s' hl hstep (fun e he ↦ ?_) hr)
    rw [hnil] at he
    exact absurd he List.not_mem_nil
  · rw [hone] at hmatched
    rcases hmatched.singleton with ⟨he, hall⟩ | ⟨before, after, hpasses, hbefore, hafter⟩
    · refine h.run_act hall hrun (h.keepsStep l m s s' hl hstep (fun p hp ↦ ?_) hr)
      rw [hone] at hp
      rw [List.mem_singleton.mp hp]
      exact he
    · -- what is missed behind the step that passes `e` belongs to the third part
      rcases List.filterMap_eq_append_iff.mp hpasses with ⟨as₁, as₂, rfl, rfl, hcons⟩
      rcases List.filterMap_eq_cons_iff.mp hcons with ⟨quiet, a, as₃, rfl, hquiet, ha, rfl⟩
      simp only [run_append, Option.bind_eq_some_iff] at hrun
      rcases hrun with ⟨m₁, hrun₁, m₂, hrun₂, hrest⟩
      rcases Option.bind_eq_some_iff.mp hrest with ⟨m₃, hact, hrun₃⟩
      have hnone : ∀ e ∈ quiet.filterMap passes, missed e := fun e he ↦ by
        rw [List.filterMap_eq_nil_iff.mpr hquiet] at he
        exact absurd he List.not_mem_nil
      have hr₂ := h.run_act hnone hrun₂ (h.run_act hbefore hrun₁ hr)
      exact h.run_act hafter hrun₃ (h.keepsBoth a l e m₂ m₃ s s' hl hstep hone ha hact hr₂)

/-- The relation holds between the states to which runs lead whose exchanges match. -/
theorem Exchanges.run (h : Exchanges act passes step trace lost missed P R) {as : List A}
    {ls : List L} (hall : Along step P ls s) (hls : Transition.run step ls s = some s')
    (has : Transition.run act as m = some m')
    (hmatched : Matched lost missed (traces step trace ls s) (as.filterMap passes)) (hr : R m s) :
    R m' s' := by
  induction ls generalizing s m as with
  | nil =>
    cases hls
    exact h.run_act hmatched.all_missed has hr
  | cons l ls ih =>
    rcases Option.bind_eq_some_iff.mp hls with ⟨s₁, hl, hrest⟩
    rw [traces_cons hl] at hmatched
    rcases hmatched.split with ⟨ps₁, ps₂, hpasses, hmatched₁, hmatched₂⟩
    rcases List.filterMap_eq_append_iff.mp hpasses with ⟨as₁, as₂, rfl, rfl, rfl⟩
    rw [run_append] at has
    rcases Option.bind_eq_some_iff.mp has with ⟨m₁, has₁, has₂⟩
    exact ih (hall.2 s₁ hl) hrest has₂ hmatched₂ (h.run_step hall.1 hl hmatched₁ has₁ hr)

end BlueROV2.Base.Transition
