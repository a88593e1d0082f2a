/-
# Twan.Base.TicketLock -- locks that serve in the order of tickets

Who wants the lock draws a ticket and goes in when its number is served; who leaves has the next
number served.  A party may also take the lock at once where no ticket is out.

Tickets are natural numbers here: a lock that keeps them in words refines this system as long as
fewer tickets are out than there are words.  `Inv` is the invariant of every run: it says whose the
tickets that are out are.  What follows from it is that a party is inside alone (`Inv.alone`), that the
parties go in in the order in which they drew (`Inv.in_order`), that the lock is free where no ticket
is out (`Inv.free_iff`), and that fewer tickets are out than there are parties (`Inv.out_lt`).
-/
import Mathlib.Data.Fintype.Card
import Mathlib.Data.List.Basic
import Mathlib.Logic.Function.Basic

namespace Twan.Base.TicketLock

set_option autoImplicit false

inductive Phase where
  | out
  | waiting (ticket : ℕ)
  | inside
  deriving DecidableEq

/-- The number that is served, where the parties are, and the orders in which they drew and went in. -/
structure State (C : Type) where
  served : ℕ
  phase : C → Phase
  drawn : List C
  entered : List C

variable {C : Type}

def State.initial : State C := ⟨0, fun _ => .out, [], []⟩

/-- Each ticket that is out is that of one party, which waits with it or is inside. -/
structure Inv (s : State C) : Prop where
  waiting : ∀ c n, s.phase c = .waiting n →
    s.served ≤ n ∧ s.entered.length ≤ n ∧ s.drawn[n]? = some c
  inside : ∀ c, s.phase c = .inside → s.entered.length = s.served + 1 ∧ s.drawn[s.served]? = some c
  owner : ∀ n c, s.served ≤ n → s.drawn[n]? = some c →
    s.phase c = .waiting n ∨ n = s.served ∧ s.phase c = .inside
  order : s.entered <+: s.drawn
  turn : s.entered.length = s.served ∨ s.entered.length = s.served + 1

theorem inv_initial : Inv (State.initial : State C) where
  waiting c n waits := by cases waits
  inside c holds := by cases holds
  owner n c _ drawn := by cases drawn
  order := List.prefix_rfl
  turn := .inl rfl

namespace Inv

variable {s t : State C} {c d : C}

/-! ## What the invariant says -/

theorem served_le (inv : Inv s) : s.served ≤ s.drawn.length := by
  have entered := inv.order.length_le
  rcases inv.turn with here | here <;> omega

/-- At most one party is inside. -/
theorem alone (inv : Inv s) (left : s.phase c = .inside) (right : s.phase d = .inside) : c = d :=
  Option.some.inj ((inv.inside c left).2.symm.trans (inv.inside d right).2)

/-- The parties go in in the order of their tickets. -/
theorem in_order (inv : Inv s) : s.entered <+: s.drawn := inv.order

/-- No ticket is out exactly where every party is out. -/
theorem free_iff (inv : Inv s) : s.served = s.drawn.length ↔ ∀ c, s.phase c = .out := by
  constructor
  · intro free c
    cases here : s.phase c with
    | out => rfl
    | waiting n =>
        obtain ⟨le, _, drawn⟩ := inv.waiting c n here
        have small := (List.getElem?_eq_some_iff.mp drawn).1
        omega
    | inside =>
        have small := (List.getElem?_eq_some_iff.mp (inv.inside c here).2).1
        omega
  · intro free
    by_contra busy
    have small : s.served < s.drawn.length := lt_of_le_of_ne inv.served_le busy
    have owned := inv.owner s.served s.drawn[s.served] le_rfl (List.getElem?_eq_getElem small)
    simp [free] at owned

/-- A party that is out has none of the tickets that are out. -/
theorem not_drawn (inv : Inv s) (out : s.phase c = .out) {n : ℕ} (le : s.served ≤ n) :
    s.drawn[n]? ≠ some c := by
  intro drawn
  have owned := inv.owner n c le drawn
  simp [out] at owned

/-- Two tickets that are out are of two parties. -/
theorem ticket_unique (inv : Inv s) {m n : ℕ} (first : s.served ≤ m) (second : s.served ≤ n)
    (left : s.drawn[m]? = some c) (right : s.drawn[n]? = some c) : m = n := by
  rcases inv.owner m c first left with waits | ⟨here, holds⟩
  · rcases inv.owner n c second right with again | ⟨_, wrong⟩
    · exact Phase.waiting.inj (waits.symm.trans again)
    · cases waits.symm.trans wrong
  · rcases inv.owner n c second right with wrong | ⟨there, _⟩
    · cases holds.symm.trans wrong
    · exact here.trans there.symm

/-- The parties whose tickets are out. -/
theorem owners (inv : Inv s) : ∃ owner : Fin (s.drawn.length - s.served) → C,
    Function.Injective owner ∧ ∀ i, s.drawn[s.served + i.val]? = some (owner i) := by
  have le := inv.served_le
  let owner : Fin (s.drawn.length - s.served) → C := fun i =>
    s.drawn.get ⟨s.served + i, by have := i.isLt; omega⟩
  have drawn : ∀ i, s.drawn[s.served + i.val]? = some (owner i) :=
    fun i => List.getElem?_eq_getElem _
  refine ⟨owner, fun i j same => ?_, drawn⟩
  have left := drawn i
  rw [same] at left
  have equal := inv.ticket_unique (Nat.le_add_right _ _) (Nat.le_add_right _ _) left (drawn j)
  exact Fin.ext (by omega)

theorem out_le [Fintype C] (inv : Inv s) : s.drawn.length ≤ s.served + Fintype.card C := by
  obtain ⟨owner, injective, _⟩ := inv.owners
  have card := Fintype.card_le_of_injective owner injective
  rw [Fintype.card_fin] at card
  omega

/-- A party that is out leaves room: fewer tickets are out than there are parties. -/
theorem out_lt [Fintype C] (inv : Inv s) (out : s.phase c = .out) :
    s.drawn.length < s.served + Fintype.card C := by
  obtain ⟨owner, injective, drawn⟩ := inv.owners
  have missed : ¬Function.Surjective owner := by
    intro onto
    obtain ⟨i, here⟩ := onto c
    exact inv.not_drawn out (Nat.le_add_right _ _) ((drawn i).trans (congrArg some here))
  have card := Fintype.card_lt_of_injective_not_surjective owner injective missed
  rw [Fintype.card_fin] at card
  have le := inv.served_le
  omega

end Inv

/-! ## The steps -/

theorem getElem?_concat {l : List C} {c d : C} {n : ℕ} (drawn : (l ++ [c])[n]? = some d) :
    l[n]? = some d ∨ n = l.length ∧ d = c := by
  rcases Nat.lt_trichotomy n l.length with small | rfl | large
  · rw [List.getElem?_append_left small] at drawn
    exact .inl drawn
  · rw [List.getElem?_concat_length] at drawn
    exact .inr ⟨rfl, (Option.some.inj drawn).symm⟩
  · rw [List.getElem?_eq_none (by simp; omega)] at drawn
    cases drawn

theorem getElem?_concat_left {l : List C} {c d : C} {n : ℕ} (drawn : l[n]? = some d) :
    (l ++ [c])[n]? = some d := by
  rw [List.getElem?_append_left (List.getElem?_eq_some_iff.mp drawn).1]
  exact drawn

/-- A party that goes in at its turn is the next in order. -/
theorem prefix_concat {entered drawn : List C} {c : C} (order : entered <+: drawn)
    (next : drawn[entered.length]? = some c) : entered ++ [c] <+: drawn := by
  obtain ⟨rest, rfl⟩ := order
  cases rest with
  | nil => simp at next
  | cons d rest =>
      simp only [List.getElem?_append_right le_rfl, Nat.sub_self, List.getElem?_cons_zero,
        Option.some.injEq] at next
      subst next
      exact ⟨rest, by simp⟩

variable [DecidableEq C]

def State.move (s : State C) (c : C) (phase : Phase) : State C :=
  { s with phase := Function.update s.phase c phase }

inductive Step : State C → State C → Prop
  | draw {s : State C} (c : C) (out : s.phase c = .out) :
      Step s { s.move c (.waiting s.drawn.length) with drawn := s.drawn ++ [c] }
  | enter {s : State C} (c : C) (turn : s.phase c = .waiting s.served) :
      Step s { s.move c .inside with entered := s.entered ++ [c] }
  | leave {s : State C} (c : C) (inside : s.phase c = .inside) :
      Step s { s.move c .out with served := s.served + 1 }
  | take {s : State C} (c : C) (out : s.phase c = .out) (free : s.served = s.drawn.length) :
      Step s { s.move c .inside with drawn := s.drawn ++ [c], entered := s.entered ++ [c] }

namespace Inv

variable {s t : State C} {c : C}

theorem draw (inv : Inv s) (out : s.phase c = .out) :
    Inv { s.move c (.waiting s.drawn.length) with drawn := s.drawn ++ [c] } where
  waiting d n waits := by
    by_cases same : d = c
    · subst same
      obtain rfl : s.drawn.length = n := by simpa [State.move] using waits
      exact ⟨inv.served_le, inv.order.length_le, List.getElem?_concat_length⟩
    · obtain ⟨le, entered, drawn⟩ := inv.waiting d n (by simpa [State.move, same] using waits)
      exact ⟨le, entered, getElem?_concat_left drawn⟩
  inside d holds := by
    have other : d ≠ c := by
      rintro rfl
      simp [State.move] at holds
    obtain ⟨entered, drawn⟩ := inv.inside d (by simpa [State.move, other] using holds)
    exact ⟨entered, getElem?_concat_left drawn⟩
  owner n d le drawn := by
    rcases getElem?_concat drawn with before | ⟨rfl, rfl⟩
    · have other : d ≠ c := by
        rintro rfl
        exact inv.not_drawn out le before
      simpa [State.move, other] using inv.owner n d le before
    · exact .inl (by simp [State.move])
  order := inv.order.trans (List.prefix_append _ _)
  turn := inv.turn

theorem enter (inv : Inv s) (turn : s.phase c = .waiting s.served) :
    Inv { s.move c .inside with entered := s.entered ++ [c] } := by
  obtain ⟨_, le, drawn⟩ := inv.waiting c s.served turn
  have entered : s.entered.length = s.served := by
    rcases inv.turn with here | here <;> omega
  have length : (s.entered ++ [c]).length = s.served + 1 := by simp [entered]
  constructor
  · intro d n waits
    have other : d ≠ c := by
      rintro rfl
      simp [State.move] at waits
    obtain ⟨served, _, drawnD⟩ := inv.waiting d n (by simpa [State.move, other] using waits)
    have later : n ≠ s.served := by
      rintro rfl
      exact other (Option.some.inj (drawnD.symm.trans drawn))
    exact ⟨served, by dsimp only; omega, drawnD⟩
  · intro d holds
    by_cases same : d = c
    · subst same
      exact ⟨length, drawn⟩
    · have wrong := (inv.inside d (by simpa [State.move, same] using holds)).1
      omega
  · intro n d served drawnD
    by_cases same : d = c
    · subst same
      exact .inr ⟨inv.ticket_unique served le_rfl drawnD drawn, by simp [State.move]⟩
    · simpa [State.move, same] using inv.owner n d served drawnD
  · exact prefix_concat inv.order (by rw [entered]; exact drawn)
  · exact .inr length

theorem leave (inv : Inv s) (holds : s.phase c = .inside) :
    Inv { s.move c .out with served := s.served + 1 } := by
  obtain ⟨entered, drawn⟩ := inv.inside c holds
  constructor
  · intro d n waits
    have other : d ≠ c := by
      rintro rfl
      simp [State.move] at waits
    obtain ⟨served, le, drawnD⟩ := inv.waiting d n (by simpa [State.move, other] using waits)
    have later : n ≠ s.served := by
      rintro rfl
      exact other (Option.some.inj (drawnD.symm.trans drawn))
    exact ⟨by dsimp only; omega, le, drawnD⟩
  · intro d again
    have other : d ≠ c := by
      rintro rfl
      simp [State.move] at again
    exact absurd (inv.alone (by simpa [State.move, other] using again) holds) other
  · intro n d served drawnD
    dsimp only at served
    have other : d ≠ c := by
      rintro rfl
      have same := inv.ticket_unique (by omega) le_rfl drawnD drawn
      omega
    rcases inv.owner n d (by omega) drawnD with waits | ⟨here, _⟩
    · exact .inl (by simpa [State.move, other] using waits)
    · omega
  · exact inv.order
  · exact .inl entered

theorem take (inv : Inv s) (out : s.phase c = .out) (free : s.served = s.drawn.length) :
    Inv { s.move c .inside with drawn := s.drawn ++ [c], entered := s.entered ++ [c] } := by
  have drew := inv.draw out
  have turn : (s.move c (.waiting s.drawn.length)).phase c = .waiting s.served := by
    simp [State.move, free]
  have went := drew.enter turn
  have same : State.move { s.move c (.waiting s.drawn.length) with drawn := s.drawn ++ [c] } c
      .inside = { s.move c .inside with drawn := s.drawn ++ [c] } := by
    simp [State.move]
  rw [same] at went
  exact went

theorem step (inv : Inv s) (stepped : Step s t) : Inv t := by
  cases stepped with
  | draw c out => exact inv.draw out
  | enter c turn => exact inv.enter turn
  | leave c inside => exact inv.leave inside
  | take c out free => exact inv.take out free

end Inv

end Twan.Base.TicketLock
