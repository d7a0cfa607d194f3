import BlueROV2.Base.Transition

/-!
# Simulation

Library `Base`. A system is simulated by another one if each of its steps stands for a run of
the other between the states that an abstraction makes of its own. What holds of the other is then
carried over.
-/

namespace BlueROV2.Base

namespace Transition

universe u v w x

variable {L : Type u} {S : Type v} {K : Type w} {T : Type x}

/-- The labels of the steps that the steps of a run stand for. -/
def traces (step : L → S → Option S) (trace : L → S → List K) : List L → S → List K
  | [], _ => []
  | l :: ls, s =>
    trace l s ++ match step l s with
      | some s' => traces step trace ls s'
      | none => []

/-- Each step from a state that meets an invariant keeps it, and stands for a run of `spec`. -/
structure Simulates (step : L → S → Option S) (spec : K → T → Option T) (abs : S → T)
    (trace : L → S → List K) (I : S → Prop) : Prop where
  keeps : ∀ l s s', step l s = some s' → I s → I s'
  moves : ∀ l s s', step l s = some s' → I s → run spec (trace l s) (abs s) = some (abs s')

variable {step : L → S → Option S} {spec : K → T → Option T} {abs : S → T}
  {trace : L → S → List K} {I : S → Prop} {Q : K → T → Prop} {s s' : S}
  {ls : List L}

theorem traces_cons {l : L} (h : step l s = some s') :
    traces step trace (l :: ls) s = trace l s ++ traces step trace ls s' := by
  rw [traces, h]

/-- What the moves of `spec` that meet a condition keep, a step that stands for such moves keeps
too, seen through the abstraction. -/
theorem Simulates.invariant_step (h : Simulates step spec abs trace I) {J : T → Prop}
    (hJ : ∀ k t t', Q k t → spec k t = some t' → J t → J t') {l : L} (hs : I s)
    (htrace : Along spec Q (trace l s) (abs s)) (hl : step l s = some s') (hj : J (abs s)) :
    J (abs s') :=
  invariant_run hJ hj htrace (h.moves l s s' hl hs)

end Transition

end BlueROV2.Base
