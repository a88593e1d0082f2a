/-
# Twan.Lib.DqRuns -- the life of queues

Nodes with NULL links are pushed onto queues of `include/lib/dsa/dq.h`, inserted between neighbours,
dequeued, popped and cleared, in any order and over any number of queues.  Callers owe this: a node
to be linked is in no queue, the two places of `dq_insert` are neighbours (either may be an end), and
a node to be dequeued is a member.

The abstract queue is a list, on which the calls are insertions and removals of `List` (`edit`).
`dq_refines` says that after every run `front`, `rear`, `next` and `prev` of each queue describe its
list, and that `dq_is_queued` tells the members from the nodes that are in no queue.
-/
import Twan.Base.Run
import Twan.Lib.Dq

namespace Twan.Lib.Dq

set_option autoImplicit false
set_option linter.dupNamespace false

open Twan.Base

variable {Q Node : Type}

/-! ## Calls -/

inductive Op (Q Node : Type) where
  | pushfront (q : Q) (n : Node)
  | pushback (q : Q) (n : Node)
  | insert (q : Q) (n : Node) (prev next : Option Node)
  | dequeue (q : Q) (n : Node)
  | popfront (q : Q)
  | clear (q : Q)
  deriving DecidableEq

/-- The queue of the call. -/
def Op.dq : Op Q Node → Q
  | .pushfront q _ | .pushback q _ | .insert q _ _ _ | .dequeue q _ | .popfront q | .clear q => q

section Calls

variable [DecidableEq Q] [DecidableEq Node] [Fintype Node]

/-- One call: the node it returns, which only `dq_popfront` does, and the queues. -/
def call (s : Dqs Q Node) : Op Q Node → Option Node × Dqs Q Node
  | .pushfront q n => (none, s.pushfront q n)
  | .pushback q n => (none, s.pushback q n)
  | .insert q n prev next => (none, s.insert q n prev next)
  | .dequeue q n => (none, s.dequeue q n)
  | .popfront q => s.popfront q
  | .clear q => (none, s.clear q)

/-- The calls of a run: what each returns, and the queues. -/
def calls : Dqs Q Node → List (Op Q Node) → List (Option Node) × Dqs Q Node
  | s, [] => ([], s)
  | s, op :: run =>
      let (answer, s) := call s op
      let (answers, s) := calls s run
      (answer :: answers, s)

end Calls

/-! ## The sequences -/

/-- The two are next to each other in the list; `none` stands for its ends. -/
def Neighbours (l : List Node) (prev next : Option Node) : Prop :=
  ∃ a b, l = a ++ b ∧ prev = a.getLast? ∧ next = b.head?

section Sequences

variable [DecidableEq Q] [DecidableEq Node]

/-- The place behind `prev`. -/
def place (l : List Node) : Option Node → ℕ
  | none => 0
  | some p => l.idxOf p + 1

/-- What a call does to the list of its queue. -/
def edit (l : List Node) : Op Q Node → List Node
  | .pushfront _ n => n :: l
  | .pushback _ n => l ++ [n]
  | .insert _ n prev _ => l.insertIdx (place l prev) n
  | .dequeue _ n => l.erase n
  | .popfront _ => l.tail
  | .clear _ => []

def answer (l : List Node) : Op Q Node → Option Node
  | .popfront _ => l.head?
  | _ => none

/-- The lists after a call. -/
def next (contents : Q → List Node) (op : Op Q Node) : Q → List Node :=
  Function.update contents op.dq (edit (contents op.dq) op)

/-- What a run returns. -/
def answers : (Q → List Node) → List (Op Q Node) → List (Option Node)
  | _, [] => []
  | contents, op :: run => answer (contents op.dq) op :: answers (next contents op) run

/-- The lists after a run. -/
def after (contents : Q → List Node) (run : List (Op Q Node)) : Q → List Node :=
  run.foldl next contents

/-- A call on the lists always applies. -/
def advance (contents : Q → List Node) (op : Op Q Node) : Option (Q → List Node) :=
  some (next contents op)

end Sequences

/-- The node is in no queue. -/
def Loose (contents : Q → List Node) (n : Node) : Prop := ∀ q, n ∉ contents q

/-- What the callers owe. -/
def Legal (contents : Q → List Node) : Op Q Node → Prop
  | .pushfront _ n | .pushback _ n => Loose contents n
  | .insert q n prev next => Loose contents n ∧ Neighbours (contents q) prev next
  | .dequeue q n => n ∈ contents q
  | .popfront _ | .clear _ => True

theorem neighbours_iff {l : List Node} {prev next : Option Node} : Neighbours l prev next ↔
    ∃ k < l.length + 1, prev = (l.take k).getLast? ∧ next = (l.drop k).head? := by
  constructor
  · rintro ⟨a, b, rfl, before, behind⟩
    refine ⟨a.length, ?_, ?_⟩
    · rw [List.length_append]
      omega
    · rw [List.take_left, List.drop_left]
      exact ⟨before, behind⟩
  · rintro ⟨k, -, before, behind⟩
    exact ⟨l.take k, l.drop k, (List.take_append_drop k l).symm, before, behind⟩

section Decidable

variable [DecidableEq Node] [Fintype Q]

instance (l : List Node) (prev next : Option Node) : Decidable (Neighbours l prev next) :=
  decidable_of_iff _ neighbours_iff.symm

instance (contents : Q → List Node) (n : Node) : Decidable (Loose contents n) :=
  inferInstanceAs (Decidable (∀ q, n ∉ contents q))

instance (contents : Q → List Node) : ∀ op, Decidable (Legal contents op)
  | .pushfront _ n | .pushback _ n => inferInstanceAs (Decidable (Loose contents n))
  | .insert q n prev next =>
      inferInstanceAs (Decidable (Loose contents n ∧ Neighbours (contents q) prev next))
  | .dequeue q n => inferInstanceAs (Decidable (n ∈ contents q))
  | .popfront _ | .clear _ => isTrue trivial

end Decidable

/-- The queues and the links of the nodes describe the lists. -/
structure Described [DecidableEq Node] (s : Dqs Q Node) (contents : Q → List Node) : Prop where
  nodup : ∀ q, (contents q).Nodup
  front : ∀ q, (s.dq q).front = (contents q).head?
  rear : ∀ q, (s.dq q).rear = (contents q).getLast?
  /-- Each member is linked to the one behind it and to the one before it. -/
  next : ∀ q a n b, contents q = a ++ n :: b → (s.node n).next = b.head?
  prev : ∀ q a n b, contents q = a ++ n :: b → (s.node n).prev = a.getLast?
  loose : ∀ n, Loose contents n → s.node n = ⟨none, none⟩
  empty : ∀ q, s.isEmpty q = true ↔ contents q = []
  /-- For a node that is in no other queue. -/
  queued : ∀ q n, (∀ q', q' ≠ q → n ∉ contents q') → (s.isQueued q n = true ↔ n ∈ contents q)

/-! ## Each call -/

section Steps

variable [DecidableEq Q] [DecidableEq Node] {s : Dqs Q Node} {contents : Q → List Node} {q : Q}
  {n : Node}

omit [DecidableEq Q] in
theorem Holds.described (holds : Holds s contents) : Described s contents where
  nodup := holds.nodup
  front := holds.front
  rear := holds.rear
  next _ _ _ _ here := (holds.links here).2
  prev _ _ _ _ here := (holds.links here).1
  loose := holds.loose
  empty q := by
    rw [Dqs.isEmpty, holds.front q, Option.isNone_iff_eq_none, List.head?_eq_none_iff]
  queued _ _ elsewhere := holds.isQueued_iff elsewhere

theorem place_getLast? {a b : List Node} (nodup : (a ++ b).Nodup) :
    place (a ++ b) a.getLast? = a.length := by
  rcases List.eq_nil_or_concat' a with rfl | ⟨c, p, rfl⟩
  · rfl
  · have notIn : p ∉ c := by
      have apart := (List.nodup_append.mp (List.nodup_append.mp nodup).1).2.2
      exact fun inside => apart p inside p (List.mem_singleton_self p) rfl
    simp [place, List.idxOf_append_of_notMem notIn]

omit [DecidableEq Node] in
theorem insertIdx_length {a b : List Node} : (a ++ b).insertIdx a.length n = a ++ n :: b := by
  induction a with
  | nil => rfl
  | cons m a ih => simpa using ih

theorem Holds.insert (holds : Holds s contents) {prev next : Option Node}
    (outside : Loose contents n) (between : Neighbours (contents q) prev next) :
    Holds (s.insert q n prev next)
      (Function.update contents q ((contents q).insertIdx (place (contents q) prev) n)) := by
  obtain ⟨a, b, here, before, behind⟩ := between
  have nodup := holds.nodup q
  rw [here] at nodup
  rw [here, before, behind, place_getLast? nodup, insertIdx_length]
  exact holds.insert_at here outside

theorem Holds.erase (holds : Holds s contents) (inside : n ∈ contents q) :
    Holds (s.dequeue q n) (Function.update contents q ((contents q).erase n)) := by
  have filtered : (contents q).erase n = (contents q).filter fun m => m ≠ n := by
    rw [(holds.nodup q).erase_eq_filter]
    congr 1
    funext m
    rw [bne, Bool.beq_eq_decide_eq, decide_not]
  rw [filtered]
  exact holds.dequeue inside

theorem Holds.popfront (holds : Holds s contents) : (s.popfront q).1 = (contents q).head? ∧
    Holds (s.popfront q).2 (Function.update contents q (contents q).tail) := by
  cases here : contents q with
  | nil =>
      have empty : (s.dq q).front = none := by
        rw [holds.front q, here]
        rfl
      have same : Function.update contents q [] = contents := by
        rw [← here, Function.update_eq_self]
      rw [Dqs.popfront, empty, List.tail_nil, same]
      exact ⟨rfl, holds⟩
  | cons n l =>
      rw [holds.popfront_cons here]
      exact ⟨rfl, holds.dequeue_at (a := []) here⟩

variable [Fintype Node] {op : Op Q Node}

/-- One call. -/
theorem Holds.call (holds : Holds s contents) (legal : Legal contents op) :
    (call s op).1 = answer (contents op.dq) op ∧ Holds (call s op).2 (next contents op) := by
  cases op with
  | pushfront q n => exact ⟨rfl, holds.pushfront legal⟩
  | pushback q n => exact ⟨rfl, holds.pushback legal⟩
  | insert q n prev next => exact ⟨rfl, holds.insert legal.1 legal.2⟩
  | dequeue q n => exact ⟨rfl, holds.erase legal⟩
  | popfront q => exact holds.popfront
  | clear q => exact ⟨rfl, holds.clear⟩

/-- A run. -/
theorem Holds.calls {run : List (Op Q Node)} (holds : Holds s contents)
    (legal : Along Legal advance contents run) :
    (calls s run).1 = answers contents run ∧ Holds (calls s run).2 (after contents run) := by
  induction run generalizing s contents with
  | nil => exact ⟨rfl, holds⟩
  | cons op run ih =>
      obtain ⟨here, later⟩ := legal
      obtain ⟨answered, holds'⟩ := holds.call here
      obtain ⟨rest, last⟩ := ih holds' (later _ rfl)
      refine ⟨?_, last⟩
      rw [answers, ← answered, ← rest]
      rfl

/-! ## Every run -/

/-- **Queues are sequences**: from empty queues and nodes with NULL links, every legal run returns
what the lists answer, and the links describe the lists after it. -/
theorem dq_refines {run : List (Op Q Node)}
    (legal : Along Legal advance (fun _ => []) run) :
    (Dq.calls Dqs.empty run).1 = answers (fun _ => []) run ∧
      Described (Dq.calls Dqs.empty run).2 (after (fun _ => []) run) := by
  obtain ⟨answered, holds⟩ := holds_empty.calls legal
  exact ⟨answered, holds.described⟩

end Steps

/-- Five nodes of one queue, two of which leave from its ends and one from its middle, and one that
goes on to another queue. -/
def mixedRun : List (Op Bool (Fin 5)) :=
  [.pushback true 1, .pushfront true 0, .pushback true 3, .insert true 2 (some 1) (some 3),
    .insert true 4 (some 3) none, .dequeue true 2, .popfront true, .dequeue true 4, .pushback false 0,
    .insert false 2 none (some 0), .popfront true, .popfront true, .popfront true, .clear false]

theorem dq_refines_mixed : Along Legal advance (fun _ => []) mixedRun ∧
    (calls Dqs.empty mixedRun).1 = answers (fun _ => []) mixedRun ∧
    Described (calls Dqs.empty mixedRun).2 (after (fun _ => []) mixedRun) :=
  have legal : Along Legal advance (fun _ => []) mixedRun := by decide
  ⟨legal, dq_refines legal⟩

end Twan.Lib.Dq
