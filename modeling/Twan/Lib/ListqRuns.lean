/-
# Twan.Lib.ListqRuns -- the life of a list

A list of `include/lib/dsa/listq.h` starts with one node, grows by `listq_pushback` onto its first
node and shrinks by `listq_disconnect` of any node of it; the holder goes on with the successor
where that node was the first.  This is how `flat_priorityq_insert` and `flat_priorityq_dequeue` use
it for the nodes of one priority.

The abstract list is the sequence of the nodes in the order they came.  `listq_refines` says that
after every run the links describe it (`Described`).
-/
import Twan.Base.Run
import Twan.Lib.Listq

namespace Twan.Lib.Listq

set_option autoImplicit false

open Twan.Base

variable {Node : Type} [DecidableEq Node]

/-! ## Calls -/

/-- The links, and the first node. -/
structure Dups (Node : Type) where
  q : Node → Listq Node
  head : Option Node

inductive Op (Node : Type) where
  | pushback (n : Node)
  | disconnect (n : Node)
  deriving DecidableEq

/-- One call: the node it returns, which only `listq_disconnect` does, and the list. -/
def call (s : Dups Node) : Op Node → Option (Option Node × Dups Node)
  | .pushback n => s.head.map fun head => (none, { s with q := pushback s.q head n })
  | .disconnect n => (disconnect s.q n).map fun (next, q) =>
      (next, ⟨q, if s.head = some n then next else s.head⟩)

/-- The calls of a run: what each returns, and the list. -/
def calls : Dups Node → List (Op Node) → Option (List (Option Node) × Dups Node)
  | s, [] => some ([], s)
  | s, op :: run =>
      (call s op).bind fun (answer, s) => (calls s run).map fun (answers, s) => (answer :: answers, s)

/-! ## The sequence -/

/-- What follows the node. -/
def successor (n : Node) : List Node → Option Node
  | [] => none
  | m :: l => if m = n then l.head? else successor n l

def answer (l : List Node) : Op Node → Option Node
  | .pushback _ => none
  | .disconnect n => successor n l

def nextList (l : List Node) : Op Node → List Node
  | .pushback n => l ++ [n]
  | .disconnect n => l.erase n

/-- What a run returns. -/
def answers : List Node → List (Op Node) → List (Option Node)
  | _, [] => []
  | l, op :: run => answer l op :: answers (nextList l op) run

/-- The sequence after a run. -/
def after (l : List Node) (run : List (Op Node)) : List Node := run.foldl nextList l

/-- A call of the sequence always applies. -/
def advance (l : List Node) (op : Op Node) : Option (List Node) := some (nextList l op)

/-- What the callers owe: a node is appended to a list that has a first node and not this one, and a
node of the list is disconnected. -/
def Legal (l : List Node) : Op Node → Prop
  | .pushback n => l ≠ [] ∧ n ∉ l
  | .disconnect n => n ∈ l

instance (l : List Node) : ∀ op, Decidable (Legal l op)
  | .pushback n => inferInstanceAs (Decidable (l ≠ [] ∧ n ∉ l))
  | .disconnect n => inferInstanceAs (Decidable (n ∈ l))

/-- The links describe the sequence. -/
structure Described (s : Dups Node) (l : List Node) : Prop where
  nodup : l.Nodup
  head : s.head = l.head?
  /-- Each node is linked to the one behind it and to the one before it. -/
  next : ∀ a n b, l = a ++ n :: b → (s.q n).next = b.head?
  prev : ∀ a n b, l = a ++ n :: b → (s.q n).prev = a.getLast?
  inverse : ∀ m ∈ l, ∀ n ∈ l, (s.q m).next = some n ↔ (s.q n).prev = some m
  /-- The first node and the last one point at each other. -/
  ends : ∀ h m t, l = h :: (m ++ [t]) → (s.q h).rear = some t ∧ (s.q t).front = some h
  single : ∀ n, l = [n] → (s.q n).rear = none ∧ (s.q n).front = none
  rear : ∀ n ∈ l, l.head? ≠ some n → (s.q n).rear = none
  front : ∀ n ∈ l, l.getLast? ≠ some n → (s.q n).front = none

/-! ## Each call -/

section Calls

variable {s t : Dups Node} {l : List Node} {op : Op Node} {q : Node → Listq Node} {n : Node}

/-- The list is linked, and its holder has the first node. -/
structure Held (s : Dups Node) (l : List Node) : Prop where
  linked : Linked s.q l
  head : s.head = l.head?

theorem Linked.next_eq (linked : Linked q l) {a b : List Node} (here : l = a ++ n :: b) :
    (q n).next = b.head? := by
  subst here
  rw [linked.links]

theorem Linked.prev_eq (linked : Linked q l) {a b : List Node} (here : l = a ++ n :: b) :
    (q n).prev = a.getLast? := by
  subst here
  rw [linked.links]

omit [DecidableEq Node] in
/-- Two nodes that are neighbours. -/
theorem neighbours {a b : List Node} {m : Node} (behind : b.head? = some m) :
    ∃ c, a ++ n :: b = (a ++ [n]) ++ m :: c ∧ (a ++ [n]).getLast? = some n := by
  obtain ⟨c, rfl⟩ := List.head?_eq_some_iff.mp behind
  exact ⟨c, by simp, by simp⟩

theorem Linked.inverse (linked : Linked q l) {m : Node} (insideM : m ∈ l) (insideN : n ∈ l) :
    (q m).next = some n ↔ (q n).prev = some m := by
  constructor
  · intro follows
    obtain ⟨a, b, here⟩ := List.append_of_mem insideM
    rw [linked.next_eq here] at follows
    obtain ⟨c, there, last⟩ := neighbours (a := a) (n := m) follows
    rw [linked.prev_eq (here.trans there), last]
  · intro precedes
    obtain ⟨a, b, here⟩ := List.append_of_mem insideN
    rw [linked.prev_eq here] at precedes
    obtain ⟨c, rfl⟩ := List.getLast?_eq_some_iff.mp precedes
    have there : l = c ++ m :: (n :: b) := by simp [here]
    rw [linked.next_eq there]
    rfl

theorem Held.described (held : Held s l) : Described s l where
  nodup := held.linked.nodup
  head := held.head
  next _ _ _ := held.linked.next_eq
  prev _ _ _ := held.linked.prev_eq
  inverse _ insideM _ insideN := held.linked.inverse insideM insideN
  ends h m t here := by
    have rear := held.linked.rear h (by simp [here])
    have front := held.linked.front t (by simp [here])
    subst here
    rw [getLast?_ends, dropLast_ends] at front
    exact ⟨by simpa using rear, by simpa using front⟩
  single n here := by
    have rear := held.linked.rear n (by simp [here])
    have front := held.linked.front n (by simp [here])
    subst here
    exact ⟨by simpa using rear, by simpa using front⟩
  rear n inside other := by rw [held.linked.rear n inside, if_neg other]
  front n inside other := by rw [held.linked.front n inside, if_neg other]

theorem successor_eq {a b : List Node} (notIn : n ∉ a) : successor n (a ++ n :: b) = b.head? := by
  induction a with
  | nil => simp [successor]
  | cons m a ih =>
      have other : m ≠ n := fun e => notIn (e ▸ List.mem_cons_self)
      rw [List.cons_append, successor, if_neg other]
      exact ih fun inside => notIn (List.mem_cons_of_mem m inside)

theorem Held.pushback (held : Held s l) (nonempty : l ≠ []) (outside : n ∉ l) :
    ∃ t, call s (.pushback n) = some (none, t) ∧ Held t (l ++ [n]) := by
  obtain ⟨h, rest, rfl⟩ := List.exists_cons_of_ne_nil nonempty
  have first : s.head = some h := held.head
  refine ⟨{ s with q := Listq.pushback s.q h n }, by simp [call, first], ?_, ?_⟩
  · exact held.linked.pushback outside
  · simpa using first

theorem Held.disconnect (held : Held s l) (inside : n ∈ l) :
    ∃ t, call s (.disconnect n) = some (successor n l, t) ∧ Held t (l.erase n) := by
  obtain ⟨a, b, rfl⟩ := List.append_of_mem inside
  have notA : n ∉ a := fun here => held.linked.not_mem (List.mem_append_left b here)
  obtain ⟨q', disconnected, linked, -, -⟩ := held.linked.disconnect
  rw [successor_eq notA, List.erase_append_right _ notA, List.erase_cons_head]
  refine ⟨⟨q', if s.head = some n then b.head? else s.head⟩, by simp [call, disconnected], linked, ?_⟩
  dsimp only
  rw [held.head]
  cases a with
  | nil => simp
  | cons m a =>
      have other : m ≠ n := fun e => notA (e ▸ List.mem_cons_self)
      simp [other]

/-- One call. -/
theorem Held.call (held : Held s l) (legal : Legal l op) :
    ∃ t, call s op = some (answer l op, t) ∧ Held t (nextList l op) := by
  cases op with
  | pushback n => exact held.pushback legal.1 legal.2
  | disconnect n => exact held.disconnect legal

/-- A run. -/
theorem Held.calls {run : List (Op Node)} (held : Held s l) (legal : Along Legal advance l run) :
    ∃ t, calls s run = some (answers l run, t) ∧ Held t (after l run) := by
  induction run generalizing s l with
  | nil => exact ⟨s, rfl, held⟩
  | cons op run ih =>
      obtain ⟨here, later⟩ := legal
      obtain ⟨u, called, held'⟩ := held.call here
      obtain ⟨t, rest, last⟩ := ih held' (later _ rfl)
      exact ⟨t, by simp [Listq.calls, called, rest, answers], last⟩

end Calls

/-! ## Every run -/

/-- **The links describe the sequence**: a list that starts with one node goes through every legal
run, each call returns what the sequence answers, and after it the links describe the sequence. -/
theorem listq_refines {q : Node → Listq Node} {n : Node} (alone : q n = Listq.null)
    {run : List (Op Node)} (legal : Along Legal advance [n] run) :
    ∃ t, calls ⟨q, some n⟩ run = some (answers [n] run, t) ∧ Described t (after [n] run) := by
  have held : Held ⟨q, some n⟩ [n] := ⟨linked_singleton alone, rfl⟩
  obtain ⟨t, called, held'⟩ := held.calls legal
  exact ⟨t, called, held'.described⟩

/-- Four nodes; the second leaves, the first, the last, and the one that is left. -/
def fourRun : List (Op (Fin 4)) :=
  [.pushback 1, .pushback 2, .pushback 3, .disconnect 1, .disconnect 0, .disconnect 3,
    .disconnect 2]

theorem listq_refines_four : Along Legal advance [0] fourRun ∧
    ∃ t, calls ⟨fun _ => Listq.null, some 0⟩ fourRun = some (answers [0] fourRun, t) ∧
      Described t (after [0] fourRun) :=
  have legal : Along Legal advance [0] fourRun := by decide
  ⟨legal, listq_refines rfl legal⟩

end Twan.Lib.Listq
