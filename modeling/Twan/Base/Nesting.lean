/-
# Twan.Base.Nesting -- activations that end where they began

What is running may be interrupted, and what interrupts it may be interrupted in turn.  The
activations form a stack.  Each of them owes something to what it interrupted: `owes f before now`
says that the activation `f`, which began in `before`, has brought the state to `now`, where nothing
runs above it.  An activation may only end where it owes nothing, that is in the state it began in.

* `Nested`: the state is what the activations of a stack owe, one over the other;
* `Move.nested`: this is kept by everything that happens on top of the stack;
* `Over.move`, `Over.back`: what happens above some activations leaves them as they are, and once
  they are on top again, the state is the one they were interrupted in.
-/
import Mathlib.Logic.Basic

namespace Twan.Base

set_option autoImplicit false

universe u v

variable {S : Type u} {F : Type v}

/-- The state is what the activations of this stack owe, starting from `base`. -/
def Nested (owes : F → S → S → Prop) (base : S) : List F → S → Prop
  | [], now => now = base
  | f :: rest, now => ∃ before, Nested owes base rest before ∧ owes f before now

/-- What may happen on top of a stack of activations. -/
inductive Move (owes : F → S → S → Prop) : List F → S → List F → S → Prop
  | enter {f : F} {rest : List F} {s t : S} (begins : owes f s t) : Move owes rest s (f :: rest) t
  | advance {f g : F} {rest : List F} {s t : S}
      (goes : ∀ before, owes f before s → owes g before t) : Move owes (f :: rest) s (g :: rest) t
  | leave {f : F} {rest : List F} {s t : S} (ends : ∀ before, owes f before s → t = before) :
      Move owes (f :: rest) s rest t

variable {owes : F → S → S → Prop} {base s t : S} {fs gs rest : List F}

theorem Move.nested (move : Move owes fs s gs t) (nested : Nested owes base fs s) :
    Nested owes base gs t := by
  cases move with
  | enter begins => exact ⟨s, nested, begins⟩
  | advance goes =>
      obtain ⟨before, below, here⟩ := nested
      exact ⟨before, below, goes before here⟩
  | leave ends =>
      obtain ⟨before, below, here⟩ := nested
      rw [ends before here]
      exact below

/-- Above the activations `rest`, interrupted in the state `base`, these run. -/
def Over (owes : F → S → S → Prop) (rest : List F) (base : S) (fs : List F) (now : S) : Prop :=
  ∃ inner, fs = inner ++ rest ∧ Nested owes base inner now

theorem Over.enter {f : F} (begins : owes f base t) : Over owes rest base (f :: rest) t :=
  ⟨[f], rfl, base, rfl, begins⟩

/-- While something runs above them, a move is one of what runs above them. -/
theorem Over.move (resting : Over owes rest base fs s) (deeper : rest.length < fs.length)
    (move : Move owes fs s gs t) : Over owes rest base gs t := by
  obtain ⟨inner, rfl, nested⟩ := resting
  cases inner with
  | nil => exact absurd deeper (Nat.lt_irrefl _)
  | cons f inner =>
      cases move with
      | @enter g _ _ _ begins => exact ⟨g :: f :: inner, rfl, s, nested, begins⟩
      | @advance _ g _ _ _ goes =>
          exact ⟨g :: inner, rfl, (Move.advance goes).nested nested⟩
      | leave ends => exact ⟨inner, rfl, (Move.leave ends).nested nested⟩

/-- Once the activations are on top again, they are in the state they were interrupted in. -/
theorem Over.back (resting : Over owes rest base fs s) (length : fs.length = rest.length) :
    fs = rest ∧ s = base := by
  obtain ⟨inner, rfl, nested⟩ := resting
  have empty : inner = [] := by
    apply List.eq_nil_of_length_eq_zero
    simpa using length
  subst empty
  exact ⟨rfl, nested⟩

theorem Over.length_le (resting : Over owes rest base fs s) : rest.length ≤ fs.length := by
  obtain ⟨inner, rfl, -⟩ := resting
  simp

end Twan.Base
