/-
# Twan.Base.Guard -- locks that are held at known places of a program

`phase c` is where the caller `c` is, `holds` says at which places a lock is held, and `owner` is
the state of the lock, which is taken when it is free and given back by who holds it.  `Guards` is
that every caller at such a place is the owner, so there is at most one.
-/
import Mathlib.Logic.Function.Basic

namespace Twan.Base

set_option autoImplicit false

universe u v

variable {C : Type u} [DecidableEq C] {P : Type v}

def Guards (holds : P → Bool) (owner : Option C) (phase : C → P) : Prop :=
  ∀ c, holds (phase c) = true → owner = some c

variable {holds : P → Bool} {owner : Option C} {phase : C → P} {c d : C} {new : P}

namespace Guards

omit [DecidableEq C] in
theorem unique (guards : Guards holds owner phase) (left : holds (phase c) = true)
    (right : holds (phase d) = true) : c = d := by
  have here := guards c left
  rw [guards d right] at here
  exact (Option.some.inj here).symm

/-- The lock was free, so no one else is at such a place. -/
theorem acquire (guards : Guards holds none phase) :
    Guards holds (some c) (Function.update phase c new) := by
  intro e at_
  by_cases same : e = c
  · rw [same]
  · rw [Function.update_of_ne same] at at_
    cases guards e at_

theorem release (guards : Guards holds owner phase) (held : holds (phase c) = true)
    (left : holds new = false) : Guards holds none (Function.update phase c new) := by
  intro e at_
  by_cases same : e = c
  · rw [same, Function.update_self, left] at at_
    cases at_
  · rw [Function.update_of_ne same] at at_
    exact absurd (guards.unique at_ held) same

/-- A step that is not the one that takes the lock. -/
theorem move (guards : Guards holds owner phase)
    (kept : holds new = true → holds (phase c) = true) :
    Guards holds owner (Function.update phase c new) := by
  intro e at_
  by_cases same : e = c
  · rw [same, Function.update_self] at at_
    rw [same]
    exact guards c (kept at_)
  · rw [Function.update_of_ne same] at at_
    exact guards e at_

end Guards

/-- A list of the callers at certain places stays one when a caller moves that does not come to such
a place or leave one. -/
theorem listed_update {p : P → Prop} {queue : List C} (all : ∀ d, d ∈ queue ↔ p (phase d))
    (same : p new ↔ p (phase c)) : ∀ d, d ∈ queue ↔ p (Function.update phase c new d) := by
  refine (Function.forall_update_iff phase fun d place => (d ∈ queue ↔ p place)).mpr
    ⟨?_, fun d _ => all d⟩
  rw [same]
  exact all c

end Twan.Base
