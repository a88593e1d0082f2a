/-
# Twan.Base.Run -- runs of a partial step function

A system is a step function that an action either moves to a new state or does
not apply to.  What is nondeterministic (who moves next, what an answer or a
written byte is) is part of the action, so a run is a list of actions.

* `exec_invariant`: what every step preserves holds after every run;
* `Along ok step s run`: every step of the run is taken where `ok` allows it;
  `exec_invariant_along` is the invariant rule for such runs, `exec_shows_iff` its sharp form
  (`exec_shows_iff_along` in runs that meet a further condition);
* `exec_length_le`: what every step makes smaller bounds the length of a run;
* `OneCall`: every caller is in at most one call, `OneCall.move` for a step of it.
-/
import Mathlib.Logic.Function.Basic
import Twan.Base.Literals

namespace Twan.Base

set_option autoImplicit false

universe u v

variable {S : Type u} {A : Type v}

/-- The state after a run, if every action of it applies. -/
def exec (step : S → A → Option S) : S → List A → Option S
  | s, [] => some s
  | s, a :: run => (step s a).bind fun t => exec step t run

/-- Every action of the run is taken in a state where `ok` allows it. -/
def Along (ok : S → A → Prop) (step : S → A → Option S) : S → List A → Prop
  | _, [] => True
  | s, a :: run => ok s a ∧ ∀ t, step s a = some t → Along ok step t run

variable {step : S → A → Option S}

instance Along.decidable {ok : S → A → Prop} [∀ s a, Decidable (ok s a)] :
    ∀ (s : S) (run : List A), Decidable (Along ok step s run)
  | _, [] => isTrue trivial
  | s, a :: run =>
      match found : step s a with
      | none => decidable_of_iff (ok s a)
          ⟨fun here => ⟨here, fun t moved => by rw [found] at moved; cases moved⟩, And.left⟩
      | some t =>
          have : Decidable (Along ok step t run) := Along.decidable t run
          decidable_of_iff (ok s a ∧ Along ok step t run)
            ⟨fun both => ⟨both.1, fun u moved => by
                rw [found] at moved
                cases moved
                exact both.2⟩,
              fun both => ⟨both.1, both.2 t found⟩⟩

theorem exec_cons {s t : S} {a : A} {run : List A} (ran : exec step s (a :: run) = some t) :
    ∃ u, step s a = some u ∧ exec step u run = some t :=
  Option.bind_eq_some_iff.mp ran

theorem exec_append {s u t : S} {first second : List A} (left : exec step s first = some u)
    (right : exec step u second = some t) : exec step s (first ++ second) = some t := by
  induction first generalizing s with
  | nil => cases left; exact right
  | cons a first ih =>
      obtain ⟨v, moved, rest⟩ := exec_cons left
      rw [List.cons_append, exec, moved]
      exact ih rest

theorem exec_split {s t : S} {first second : List A}
    (ran : exec step s (first ++ second) = some t) :
    ∃ u, exec step s first = some u ∧ exec step u second = some t := by
  induction first generalizing s with
  | nil => exact ⟨s, rfl, ran⟩
  | cons a first ih =>
      obtain ⟨v, moved, rest⟩ := exec_cons ran
      obtain ⟨u, left, right⟩ := ih rest
      exact ⟨u, by rw [exec, moved]; exact left, right⟩

theorem Along.cons {ok : S → A → Prop} {s t : S} {a : A} {run : List A} (here : ok s a)
    (moved : step s a = some t) (rest : Along ok step t run) : Along ok step s (a :: run) := by
  refine ⟨here, fun u next => ?_⟩
  rw [moved] at next
  cases next
  exact rest

theorem Along.of_forall {ok : S → A → Prop} {s : S} {run : List A}
    (all : ∀ a ∈ run, ∀ s, ok s a) : Along ok step s run := by
  induction run generalizing s with
  | nil => trivial
  | cons a run ih =>
      refine ⟨all a List.mem_cons_self s, fun t _ => ih fun b inside => ?_⟩
      exact all b (List.mem_cons_of_mem a inside)

theorem Along.and {ok ok' : S → A → Prop} {s : S} {run : List A} (left : Along ok step s run)
    (right : Along ok' step s run) : Along (fun s a => ok s a ∧ ok' s a) step s run := by
  induction run generalizing s with
  | nil => trivial
  | cons a run ih =>
      exact ⟨⟨left.1, right.1⟩, fun t moved => ih (left.2 t moved) (right.2 t moved)⟩

theorem Along.and_mem {ok : S → A → Prop} {p : A → Prop} {s : S} {run : List A}
    (allowed : Along ok step s run) (all : ∀ a ∈ run, p a) :
    Along (fun s a => ok s a ∧ p a) step s run := by
  induction run generalizing s with
  | nil => trivial
  | cons a run ih =>
      refine ⟨⟨allowed.1, all a List.mem_cons_self⟩, fun t moved => ?_⟩
      exact ih (allowed.2 t moved) fun b inside => all b (List.mem_cons_of_mem a inside)

theorem Along.split {ok : S → A → Prop} {s u : S} {first second : List A}
    (allowed : Along ok step s (first ++ second)) (ran : exec step s first = some u) :
    Along ok step s first ∧ Along ok step u second := by
  induction first generalizing s with
  | nil => cases ran; exact ⟨trivial, allowed⟩
  | cons a first ih =>
      obtain ⟨v, moved, rest⟩ := exec_cons ran
      obtain ⟨front, back⟩ := ih (allowed.2 v moved) rest
      exact ⟨.cons allowed.1 moved front, back⟩

theorem Along.append {ok : S → A → Prop} {s u : S} {first second : List A}
    (front : Along ok step s first) (ran : exec step s first = some u)
    (back : Along ok step u second) : Along ok step s (first ++ second) := by
  induction first generalizing s with
  | nil => cases ran; exact back
  | cons a first ih =>
      obtain ⟨v, moved, rest⟩ := exec_cons ran
      exact .cons front.1 moved (ih (front.2 v moved) rest)

theorem exec_invariant_along {I : S → Prop} {ok : S → A → Prop}
    (preserved : ∀ s a t, I s → ok s a → step s a = some t → I t) {s t : S} {run : List A}
    (start : I s) (allowed : Along ok step s run) (ran : exec step s run = some t) : I t := by
  induction run generalizing s with
  | nil => cases ran; exact start
  | cons a run ih =>
      obtain ⟨u, moved, rest⟩ := exec_cons ran
      exact ih (preserved s a u start allowed.1 moved) (allowed.2 u moved) rest

theorem exec_invariant {I : S → Prop} (preserved : ∀ s a t, I s → step s a = some t → I t)
    {s t : S} {run : List A} (start : I s) (ran : exec step s run = some t) : I t := by
  induction run generalizing s with
  | nil => cases ran; exact start
  | cons a run ih =>
      obtain ⟨u, moved, rest⟩ := exec_cons ran
      exact ih (preserved s a u start moved) rest

/-- Steps that make a measure smaller make no run longer than it. -/
theorem exec_length_le {measure : S → ℕ}
    (smaller : ∀ s a t, step s a = some t → measure t < measure s) {s t : S} {run : List A}
    (ran : exec step s run = some t) : run.length + measure t ≤ measure s := by
  induction run generalizing s with
  | nil =>
      cases ran
      simp
  | cons a run ih =>
      obtain ⟨u, moved, rest⟩ := exec_cons ran
      have first := smaller s a u moved
      have later := ih rest
      rw [List.length_cons]
      omega

/-- In a run that is safe, where `ok` is what keeps the invariant, and no more than what is shown of
it asks for, the run shows it throughout if and only if every step is allowed. -/
theorem exec_shows_iff_along {I shown : S → Prop} {safe ok : S → A → Prop}
    (shows : ∀ s, I s → shown s)
    (kept : ∀ s a t, I s → safe s a → ok s a → step s a = some t → I t)
    (needed : ∀ s a t, I s → safe s a → step s a = some t → shown t → ok s a) {s t : S}
    {run : List A} (start : I s) (safely : Along safe step s run) (ran : exec step s run = some t) :
    (∀ first second u, run = first ++ second → exec step s first = some u → shown u) ↔
      Along ok step s run := by
  constructor
  · intro throughout
    induction run generalizing s with
    | nil => trivial
    | cons a run ih =>
        obtain ⟨u, moved, rest⟩ := exec_cons ran
        have next : shown u := throughout [a] run u rfl (by rw [exec, moved]; rfl)
        have here : ok s a := needed s a u start safely.1 moved next
        refine .cons here moved
          (ih (kept s a u start safely.1 here moved) (safely.2 u moved) rest ?_)
        intro first second v split reached
        refine throughout (a :: first) second v (by rw [split, List.cons_append]) ?_
        rw [exec, moved]
        exact reached
  · intro allowed first second u split reached
    subst split
    exact shows u (exec_invariant_along (fun s a t inv both => kept s a t inv both.1 both.2) start
      ((safely.and allowed).split reached).1 reached)

/-- Where `ok` is what keeps the invariant, and no more than what is shown of it asks for, a run
shows it throughout if and only if every step is allowed. -/
theorem exec_shows_iff {I shown : S → Prop} {ok : S → A → Prop} (shows : ∀ s, I s → shown s)
    (kept : ∀ s a t, I s → ok s a → step s a = some t → I t)
    (needed : ∀ s a t, I s → step s a = some t → shown t → ok s a) {s t : S} {run : List A}
    (start : I s) (ran : exec step s run = some t) :
    (∀ first second u, run = first ++ second → exec step s first = some u → shown u) ↔
      Along ok step s run :=
  exec_shows_iff_along shows (fun s a t inv _ => kept s a t inv) (fun s a t inv _ => needed s a t inv)
    start (.of_forall fun _ _ _ => trivial) ran

/-- Where `ok` is just what keeps `I`, a run keeps `I` throughout if and only if every step of it is
allowed. -/
theorem exec_throughout_iff {I : S → Prop} {ok : S → A → Prop}
    (exact_step : ∀ s a t, I s → step s a = some t → (I t ↔ ok s a)) {s t : S} {run : List A}
    (start : I s) (ran : exec step s run = some t) :
    (∀ first second u, run = first ++ second → exec step s first = some u → I u) ↔
      Along ok step s run :=
  exec_shows_iff (fun _ inv => inv)
    (fun s a t before here moved => (exact_step s a t before moved).mpr here)
    (fun s a t before moved next => (exact_step s a t before moved).mp next) start ran

/-! ## Callers that are in one call at a time -/

section OneCall

variable {C : Type u} {N : Type v}

/-- A call that is busy is the one its caller is in. -/
def OneCall (caller : N → C) (busy : N → Prop) (cur : C → Option N) : Prop :=
  ∀ n, busy n → cur (caller n) = some n

variable {caller : N → C} {busy busy' : N → Prop} {cur : C → Option N}

/-- Two busy calls of one caller are one call. -/
theorem OneCall.unique (one : OneCall caller busy cur) {m n : N} (busyM : busy m) (busyN : busy n)
    (same : caller m = caller n) : m = n := by
  have here := one m busyM
  rw [same, one n busyN] at here
  exact (Option.some.inj here).symm

/-- A step of `n` keeps this when its caller was free or in this very call. -/
theorem OneCall.move [DecidableEq C] (one : OneCall caller busy cur) {n : N} {c : Option N}
    (ready : cur (caller n) = none ∨ cur (caller n) = some n)
    (others : ∀ m, m ≠ n → busy' m → busy m) (own : busy' n → c = some n) :
    OneCall caller busy' (Function.update cur (caller n) c) := by
  intro m busyM
  by_cases same : m = n
  · subst same
    rw [Function.update_self]
    exact own busyM
  · have here := one m (others m same busyM)
    have apart : caller m ≠ caller n := by
      intro e
      rw [e] at here
      rcases ready with free | mine
      · simp [free] at here
      · exact same (by simpa [mine] using here.symm)
    rw [Function.update_of_ne apart]
    exact here

end OneCall

end Twan.Base
