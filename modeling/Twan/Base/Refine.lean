/-
# Twan.Base.Refine -- what a run is to another system

A concrete system refines an abstract one when each of its steps either is invisible there or is one
step of the abstract system.  Which one it is (`event`) may depend on the concrete state, so a
concrete run has a trace of abstract steps; `exec_refines` says that the abstract system can take
it and that the two end in related states.
-/
import Twan.Base.Run

namespace Twan.Base

set_option autoImplicit false

universe u v w x

variable {S : Type u} {A : Type v} {U : Type w} {E : Type x}

/-- What the steps of a run are to the abstract system, in order. -/
def trace (step : S → A → Option S) (event : S → A → Option E) : S → List A → List E
  | _, [] => []
  | s, a :: run =>
      match step s a with
      | none => []
      | some t => (event s a).toList ++ trace step event t run

/-- Related states stay related: the abstract system takes the step's event, if it has one. -/
def Simulates (ok : S → A → Prop) (step : S → A → Option S) (event : S → A → Option E)
    (abstract : U → E → Option U) (related : S → U → Prop) : Prop :=
  ∀ s a t u, related s u → ok s a → step s a = some t →
    ∃ v, exec abstract u (event s a).toList = some v ∧ related t v

variable {step : S → A → Option S} {event : S → A → Option E} {abstract : U → E → Option U}
  {related : S → U → Prop} {ok : S → A → Prop}

theorem exec_refines (simulates : Simulates ok step event abstract related) {s t : S} {u : U}
    {run : List A} (start : related s u) (allowed : Along ok step s run)
    (ran : exec step s run = some t) :
    ∃ v, exec abstract u (trace step event s run) = some v ∧ related t v := by
  induction run generalizing s u with
  | nil =>
      cases ran
      exact ⟨u, rfl, start⟩
  | cons a run ih =>
      obtain ⟨s', moved, rest⟩ := exec_cons ran
      obtain ⟨u', first, next⟩ := simulates s a s' u start allowed.1 moved
      obtain ⟨v, others, last⟩ := ih next (allowed.2 s' moved) rest
      refine ⟨v, ?_, last⟩
      rw [trace, moved]
      exact exec_append first others

end Twan.Base
