/-
# Twan.Base.Turns -- logs in which a party goes in and out in turns

`mark` says what an event of a log means for the party: `some true` takes it in, `some false`
takes it out, `none` does not concern it.  `turns` follows the party through the log and fails
where it would go in twice, or out twice.

* `turns_append`: a log can be followed part by part;
* `count_of_turns`: each time in is one time out, but for the last one.
-/
import Mathlib.Data.Bool.Count
import Mathlib.Data.List.Basic

namespace Twan.Base.Turns

set_option autoImplicit false

universe u

variable {E : Type u} (mark : E → Option Bool)

/-- Whether the party is in after the log. -/
def turns : Bool → List E → Option Bool
  | inside, [] => some inside
  | inside, e :: log =>
      match mark e with
      | none => turns inside log
      | some entering => if entering = inside then none else turns entering log

variable {mark} {inside outcome : Bool} {log : List E} {e : E}

theorem turns_append {more : List E} :
    turns mark inside (log ++ more) = (turns mark inside log).bind fun b => turns mark b more := by
  induction log generalizing inside with
  | nil => rfl
  | cons e log ih =>
      rw [List.cons_append, turns, turns]
      cases mark e with
      | none => exact ih
      | some entering =>
          by_cases twice : entering = inside
          · simp [twice]
          · simp [twice, ih]

/-- An event that does not concern the party. -/
theorem turns_other (kept : turns mark inside log = some outcome) (other : mark e = none) :
    turns mark inside (log ++ [e]) = some outcome := by
  rw [turns_append, kept]
  simp [turns, other]

/-- An event that takes the party in or out. -/
theorem turns_turn (kept : turns mark inside log = some (!outcome))
    (turn : mark e = some outcome) : turns mark inside (log ++ [e]) = some outcome := by
  rw [turns_append, kept]
  cases outcome <;> simp [turns, turn]

/-- The party came in as often as it went out, but for where it started and where it is. -/
theorem count_of_turns (kept : turns mark inside log = some outcome) :
    log.countP (fun e => mark e = some true) + inside.toNat =
      log.countP (fun e => mark e = some false) + outcome.toNat := by
  induction log generalizing inside with
  | nil =>
      cases kept
      rfl
  | cons e log ih =>
      rw [turns] at kept
      rw [List.countP_cons, List.countP_cons]
      cases concern : mark e with
      | none =>
          rw [concern] at kept
          simpa using ih kept
      | some entering =>
          rw [concern] at kept
          obtain ⟨turn, rest⟩ := Option.ite_none_left_eq_some.mp kept
          have later := ih rest
          cases entering with
          | false =>
              have was : inside = true := by simpa using turn
              simp [was] at later ⊢
              omega
          | true =>
              have was : inside = false := by simpa using turn
              simp [was] at later ⊢
              omega

end Twan.Base.Turns
