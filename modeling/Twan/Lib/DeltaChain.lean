/-
# Twan.Lib.DeltaChain -- nodes by the ticks they are due in

`include/lib/dsa/delta_chain.h`: a queue in which each node keeps its distance in ticks from the
node before it, so that a tick only has to touch the front.

`Holds c l` says that the chain is the list `l` of nodes with the ticks that each is due in, and
`Chained c l` says it of the members alone, whatever the links of other nodes are.  Each operation
has one lemma that says what it does to the list: an insertion puts the node behind those that are
due no later and leaves what every other node is due in, and so does a dequeue; a tick takes one from
all of them, unless the front is due already.  The only sum, of two deltas in a dequeue, is at most
what the second node is due in (`Chained.delta_add_le`), so `u64` never wraps.
-/
import Twan.Lib.Dq

namespace Twan.Lib.DeltaChain

set_option autoImplicit false
set_option linter.dupNamespace false

open Twan.Base Twan.Lib.Dq

/-- `struct delta_chain`, with the `struct delta_node` of every object. -/
structure DeltaChain (Node : Type) where
  delta : Node → ℕ
  dqs : Dqs Unit Node

namespace DeltaChain

variable {Node : Type} [DecidableEq Node] (c : DeltaChain Node)

/-- `delta_chain_init(chain)`. -/
def empty : DeltaChain Node :=
  ⟨fun _ => 0, Dqs.empty⟩

def setDelta (n : Node) (delta : ℕ) : DeltaChain Node :=
  { c with delta := Function.update c.delta n delta }

/-- The loop of `delta_chain_insert` from `cur`, which ends with `remaining`, `prev` and `cur`.
The fuel bounds its iterations. -/
def insertLoop : ℕ → DeltaChain Node → ℕ → Option Node → Option Node →
    DeltaChain Node × ℕ × Option Node × Option Node
  | fuel + 1, c, remaining, prev, some cur =>
      if remaining < c.delta cur then
        (c.setDelta cur (c.delta cur - remaining), remaining, prev, some cur)
      else insertLoop fuel c (remaining - c.delta cur) (some cur) (c.dqs.node cur).next
  | _, c, remaining, prev, cur => (c, remaining, prev, cur)

/-- `delta_chain_insert(chain, node, ticks)`. -/
def insert [Fintype Node] (n : Node) (ticks : ℕ) : DeltaChain Node :=
  let c := { c with dqs := c.dqs.setNode n ⟨none, none⟩ }
  if c.dqs.isEmpty () then { c.setDelta n ticks with dqs := c.dqs.pushfront () n }
  else
    let (c, remaining, prev, cur) :=
      c.insertLoop (Fintype.card Node) ticks none (c.dqs.peekfront ())
    { c.setDelta n remaining with dqs := c.dqs.insert () n prev cur }

/-- An iteration of `delta_chain_advance` up to its callback: the node that is popped. -/
def advance : Option (Node × DeltaChain Node) :=
  match c.dqs.peekfront () with
  | none => none
  | some n => if c.delta n = 0 then some (n, { c with dqs := (c.dqs.popfront ()).2 }) else none

/-- `delta_chain_tick(chain, func)` up to the advance, and whether that follows. -/
def tick : DeltaChain Node × Bool :=
  match c.dqs.peekfront () with
  | none => (c, false)
  | some n =>
      if c.delta n = 0 then (c, true)
      else (c.setDelta n (c.delta n - 1), decide (c.delta n - 1 = 0))

/-- `delta_chain_dequeue_no_callback(chain, node)`. -/
def dequeueNoCallback (n : Node) : DeltaChain Node :=
  let c := match (c.dqs.node n).next with
    | some next => c.setDelta next (c.delta next + c.delta n)
    | none => c
  { c with dqs := c.dqs.dequeue () n }

/-- `delta_chain_is_queued(chain, node)`. -/
def isQueued (n : Node) : Bool :=
  c.dqs.isQueued () n

end DeltaChain

/-! ## The contents of a chain -/

section Contents

variable {Node : Type}

/-- Each node is due its delta after the one before it, the first one after `base`. -/
def Due (delta : Node → ℕ) : ℕ → List (Node × ℕ) → Prop
  | _, [] => True
  | base, (n, due) :: l => due = base + delta n ∧ Due delta due l

/-- What the last node is due in. -/
def reach (base : ℕ) : List (Node × ℕ) → ℕ
  | [] => base
  | (_, due) :: l => reach due l

variable {delta delta' : Node → ℕ} {base : ℕ} {l : List (Node × ℕ)}

theorem reach_append {a b : List (Node × ℕ)} : reach base (a ++ b) = reach (reach base a) b := by
  induction a generalizing base with
  | nil => rfl
  | cons e a ih => exact ih

theorem due_append {a b : List (Node × ℕ)} :
    Due delta base (a ++ b) ↔ Due delta base a ∧ Due delta (reach base a) b := by
  induction a generalizing base with
  | nil => simp [Due, reach]
  | cons e a ih =>
      simp only [List.cons_append, Due, reach, ih]
      exact and_assoc.symm

theorem Due.congr (dues : Due delta base l) (same : ∀ e ∈ l, delta' e.1 = delta e.1) :
    Due delta' base l := by
  induction l generalizing base with
  | nil => trivial
  | cons e l ih =>
      obtain ⟨here, rest⟩ := dues
      refine ⟨?_, ih rest fun e inside => same e (List.mem_cons_of_mem _ inside)⟩
      rw [same e List.mem_cons_self]
      exact here

theorem Due.base_le (dues : Due delta base l) : ∀ e ∈ l, base ≤ e.2 := by
  induction l generalizing base with
  | nil => exact fun e inside => absurd inside List.not_mem_nil
  | cons first l ih =>
      obtain ⟨here, rest⟩ := dues
      have later : base ≤ first.2 := here ▸ Nat.le_add_right base _
      intro e inside
      rcases List.mem_cons.mp inside with rfl | inside
      · exact later
      · exact Nat.le_trans later (ih rest e inside)

theorem Due.reach_le {ticks : ℕ} (within : base ≤ ticks) (all : ∀ e ∈ l, e.2 ≤ ticks) :
    reach base l ≤ ticks := by
  induction l generalizing base with
  | nil => exact within
  | cons e l ih =>
      exact ih (all e List.mem_cons_self) fun e inside => all e (List.mem_cons_of_mem _ inside)

/-- Everything is due `k` ticks sooner. -/
theorem Due.sooner {k : ℕ} (dues : Due delta (base + k) l) :
    Due delta base (l.map fun e => (e.1, e.2 - k)) := by
  induction l generalizing base with
  | nil => trivial
  | cons e l ih =>
      obtain ⟨here, rest⟩ := dues
      have split : e.2 = e.2 - k + k := by omega
      have sooner : e.2 - k = base + delta e.1 := by omega
      rw [split] at rest
      exact ⟨sooner, ih rest⟩

/-- The chain is this list of nodes, each with the ticks that it is due in. -/
structure Holds (c : DeltaChain Node) (l : List (Node × ℕ)) : Prop where
  dqs : Dq.Holds c.dqs fun _ => l.map Prod.fst
  due : Due c.delta 0 l

variable {c : DeltaChain Node} {n : Node}

theorem holds_empty : Holds (DeltaChain.empty : DeltaChain Node) [] :=
  ⟨Dq.holds_empty, trivial⟩

/-- The queue is the nodes of this list, each with the ticks that it is due in, wherever the nodes
outside of it are linked. -/
structure Chained (c : DeltaChain Node) (l : List (Node × ℕ)) : Prop where
  linked : Dq.Linked c.dqs () (l.map Prod.fst)
  due : Due c.delta 0 l

theorem Holds.chained (holds : Holds c l) : Chained c l :=
  ⟨holds.dqs.linked (), holds.due⟩

theorem Holds.nodup (holds : Holds c l) : (l.map Prod.fst).Nodup :=
  holds.dqs.nodup ()

/-- The nodes before and after a place are other nodes. -/
theorem Chained.apart {a b : List (Node × ℕ)} (chained : Chained c (a ++ b)) {e f : Node × ℕ}
    (left : e ∈ a) (right : f ∈ b) : e.1 ≠ f.1 := by
  have nodup := chained.linked.nodup
  rw [List.map_append] at nodup
  exact (List.nodup_append.mp nodup).2.2 e.1 (List.mem_map_of_mem left) f.1
    (List.mem_map_of_mem right)

theorem Holds.apart {a b : List (Node × ℕ)} (holds : Holds c (a ++ b)) {e f : Node × ℕ}
    (left : e ∈ a) (right : f ∈ b) : e.1 ≠ f.1 :=
  holds.chained.apart left right

/-- What follows a node at a known place. -/
theorem Chained.next {a b : List (Node × ℕ)} {due : ℕ} (chained : Chained c (a ++ (n, due) :: b)) :
    (c.dqs.node n).next = (b.map Prod.fst).head? := by
  have linked := chained.linked
  rw [List.map_append, List.map_cons] at linked
  exact linked.links.2

theorem Holds.head_not_mem_tail {e f : Node × ℕ} {b : List (Node × ℕ)} (holds : Holds c (e :: b))
    (inside : f ∈ b) : e.1 ≠ f.1 :=
  holds.apart (a := [e]) (List.mem_singleton_self e) inside

/-- The contents of the queue as a function of the only queue there is. -/
theorem update_unit {A : Type} (old new : A) :
    Function.update (fun _ : Unit => old) () new = fun _ => new := by
  funext u
  exact Function.update_self ..

variable [DecidableEq Node]

theorem Holds.isQueued (holds : Holds c l) : c.isQueued n = true ↔ n ∈ l.map Prod.fst := by
  by_cases inside : n ∈ l.map Prod.fst
  · exact iff_of_true (holds.dqs.isQueued_of_mem (q := ()) inside) inside
  · have loose : c.isQueued n = false :=
      holds.dqs.isQueued_of_not_mem (q := ()) fun _ => inside
    exact iff_of_false (by simp [loose]) inside

/-! ## Insertion -/

/-- The front of the part that is due later now counts from the new node. -/
def rebase (c : DeltaChain Node) (ticks : ℕ) : List (Node × ℕ) → DeltaChain Node
  | [] => c
  | e :: _ => c.setDelta e.1 (e.2 - ticks)

/-- The loop stops between the nodes that are due no later and those that are due later. -/
theorem Chained.insertLoop {a b : List (Node × ℕ)} (chained : Chained c (a ++ b)) (ticks : ℕ)
    {fuel : ℕ} (sooner : ∀ e ∈ a, e.2 ≤ ticks) (enough : b.length ≤ fuel) :
    ∃ a' b', a ++ b = a' ++ b' ∧ (∀ e ∈ a', e.2 ≤ ticks) ∧ (∀ e ∈ b', ticks < e.2) ∧
      c.insertLoop fuel (ticks - reach 0 a) (a.map Prod.fst).getLast? (b.map Prod.fst).head? =
        (rebase c ticks b', ticks - reach 0 a', (a'.map Prod.fst).getLast?,
          (b'.map Prod.fst).head?) := by
  induction b generalizing a fuel with
  | nil =>
      refine ⟨a, [], rfl, sooner, by simp, ?_⟩
      cases fuel <;> rfl
  | cons e b ih =>
      obtain ⟨fuel, rfl⟩ : ∃ f, fuel = f + 1 := ⟨fuel - 1, by simp at enough; omega⟩
      obtain ⟨dueA, dueE, dueB⟩ := due_append.mp chained.due
      have reached : reach 0 a ≤ ticks := Due.reach_le (Nat.zero_le ticks) sooner
      by_cases later : ticks < e.2
      · refine ⟨a, e :: b, rfl, sooner, ?_, ?_⟩
        · intro f inside
          rcases List.mem_cons.mp inside with rfl | inside
          · exact later
          · exact Nat.lt_of_lt_of_le later (dueB.base_le f inside)
        · have less : ticks - reach 0 a < c.delta e.1 := by omega
          have left : c.delta e.1 - (ticks - reach 0 a) = e.2 - ticks := by omega
          simp only [List.map_cons, List.head?_cons, DeltaChain.insertLoop, if_pos less, left, rebase]
      · have stop : ¬ ticks - reach 0 a < c.delta e.1 := by omega
        have left : ticks - reach 0 a - c.delta e.1 = ticks - reach 0 (a ++ [e]) := by
          rw [reach_append]
          show _ = ticks - e.2
          omega
        have next : (c.dqs.node e.1).next = (b.map Prod.fst).head? := chained.next
        have split : a ++ e :: b = (a ++ [e]) ++ b := by simp
        obtain ⟨a', b', same, sooner', later', found⟩ := ih (a := a ++ [e]) (split ▸ chained)
          (by
            intro f inside
            rcases List.mem_append.mp inside with inside | inside
            · exact sooner f inside
            · rw [List.mem_singleton.mp inside]
              omega)
          (Nat.le_of_succ_le_succ enough)
        refine ⟨a', b', split.trans same, sooner', later', ?_⟩
        rw [← found]
        simp only [List.map_cons, List.head?_cons, DeltaChain.insertLoop, if_neg stop, left, next,
          List.map_append, List.map_nil, List.getLast?_append, List.getLast?_singleton,
          Option.some_or]

/-- The deltas once the new node counts from the node before it. -/
theorem Chained.due_insert {ticks : ℕ} {a b : List (Node × ℕ)} (chained : Chained c (a ++ b))
    (outside : n ∉ (a ++ b).map Prod.fst) (sooner : ∀ e ∈ a, e.2 ≤ ticks)
    (later : ∀ e ∈ b, ticks < e.2) :
    Due ((rebase c ticks b).setDelta n (ticks - reach 0 a)).delta 0 (a ++ (n, ticks) :: b) := by
  obtain ⟨dueA, dueB⟩ := due_append.mp chained.due
  have reached : reach 0 a ≤ ticks := Due.reach_le (Nat.zero_le ticks) sooner
  have other : ∀ e ∈ a ++ b, e.1 ≠ n := fun e inside same =>
    outside (same ▸ List.mem_map_of_mem inside)
  refine due_append.mpr ⟨dueA.congr ?_, ?_, ?_⟩
  · intro e inside
    have notNew : e.1 ≠ n := other e (List.mem_append_left b inside)
    cases b with
    | nil => exact Function.update_of_ne notNew ..
    | cons f b =>
        have notNext : e.1 ≠ f.1 := chained.apart inside List.mem_cons_self
        exact (Function.update_of_ne notNew ..).trans (Function.update_of_ne notNext ..)
  · have new : ((rebase c ticks b).setDelta n (ticks - reach 0 a)).delta n = ticks - reach 0 a :=
      Function.update_self ..
    rw [new]
    omega
  · cases b with
    | nil => trivial
    | cons f b =>
        obtain ⟨-, rest⟩ := dueB
        have nodupB : ((f :: b).map Prod.fst).Nodup := by
          have nodup := chained.linked.nodup
          rw [List.map_append] at nodup
          exact (List.nodup_append.mp nodup).2.1
        have notNew : f.1 ≠ n := other f (by simp)
        have here : ((rebase c ticks (f :: b)).setDelta n (ticks - reach 0 a)).delta f.1 =
            f.2 - ticks :=
          (Function.update_of_ne notNew ..).trans (Function.update_self ..)
        have after : ticks < f.2 := later f List.mem_cons_self
        refine ⟨by rw [here]; omega, rest.congr fun e inside => ?_⟩
        have notNew : e.1 ≠ n := other e (by simp [inside])
        have notFirst : e.1 ≠ f.1 := fun same =>
          (List.nodup_cons.mp nodupB).1 (same ▸ List.mem_map_of_mem inside)
        exact (Function.update_of_ne notNew ..).trans (Function.update_of_ne notFirst ..)

theorem insert_of_empty [Fintype Node] {ticks : ℕ}
    (empty : (c.dqs.setNode n ⟨none, none⟩).isEmpty () = true) : c.insert n ticks =
      { c.setDelta n ticks with dqs := (c.dqs.setNode n ⟨none, none⟩).pushfront () n } :=
  if_pos empty

theorem insert_of_walk [Fintype Node] {ticks remaining : ℕ} {c' : DeltaChain Node}
    {prev cur : Option Node} (busy : ¬ (c.dqs.setNode n ⟨none, none⟩).isEmpty () = true)
    (walked : DeltaChain.insertLoop (Fintype.card Node)
      { c with dqs := c.dqs.setNode n ⟨none, none⟩ } ticks none
      ((c.dqs.setNode n ⟨none, none⟩).dq ()).front = (c', remaining, prev, cur)) :
    c.insert n ticks = { c'.setDelta n remaining with dqs := c'.dqs.insert () n prev cur } := by
  refine (if_neg busy).trans ?_
  rw [Dqs.peekfront, walked]

/-- The first step of an insertion. -/
theorem Chained.setNode (chained : Chained c l) (outside : n ∉ l.map Prod.fst)
    (links : ListDouble Node) : Chained { c with dqs := c.dqs.setNode n links } l :=
  ⟨chained.linked.setNode outside links, chained.due⟩

/-- An insertion finds the place behind the nodes that are due no later. -/
theorem Chained.insert_eq [Fintype Node] (chained : Chained c l) (ticks : ℕ)
    (outside : n ∉ l.map Prod.fst) :
    ∃ a b, l = a ++ b ∧ (∀ e ∈ a, e.2 ≤ ticks) ∧ (∀ e ∈ b, ticks < e.2) ∧
      c.insert n ticks = { (rebase c ticks b).setDelta n (ticks - reach 0 a) with
        dqs := (c.dqs.setNode n ⟨none, none⟩).insert () n (a.map Prod.fst).getLast?
          (b.map Prod.fst).head? } := by
  have cleared := chained.setNode outside ⟨none, none⟩
  have front := cleared.linked.front
  cases l with
  | nil =>
      refine ⟨[], [], rfl, by simp, by simp, ?_⟩
      have empty : (c.dqs.setNode n ⟨none, none⟩).isEmpty () = true := by
        rw [Dqs.isEmpty, front]
        rfl
      rw [insert_of_empty empty, pushfront_eq, front]
      rfl
  | cons e l =>
      have busy : ¬ (c.dqs.setNode n ⟨none, none⟩).isEmpty () = true := by
        rw [Dqs.isEmpty, front]
        simp
      have bound : (e :: l).length ≤ Fintype.card Node := by
        simpa using cleared.linked.nodup.length_le_card
      obtain ⟨a, b, split, sooner, later, walked⟩ :=
        Chained.insertLoop (a := []) cleared ticks (by simp) bound
      refine ⟨a, b, split, sooner, later, ?_⟩
      rw [insert_of_walk busy (front ▸ walked)]
      cases b <;> rfl

/-- The node comes behind those that are due no later, and no other node's time changes. -/
theorem Chained.insert [Fintype Node] (chained : Chained c l) (ticks : ℕ)
    (outside : n ∉ l.map Prod.fst) :
    ∃ a b, l = a ++ b ∧ (∀ e ∈ a, e.2 ≤ ticks) ∧ (∀ e ∈ b, ticks < e.2) ∧
      Chained (c.insert n ticks) (a ++ (n, ticks) :: b) := by
  obtain ⟨a, b, rfl, sooner, later, result⟩ := chained.insert_eq ticks outside
  refine ⟨a, b, rfl, sooner, later, ?_⟩
  rw [result]
  refine ⟨?_, chained.due_insert outside sooner later⟩
  have linked := (chained.setNode outside ⟨none, none⟩).linked
  rw [List.map_append] at linked outside
  rw [List.map_append, List.map_cons]
  exact linked.insert outside

theorem Holds.insert [Fintype Node] (holds : Holds c l) (ticks : ℕ)
    (outside : n ∉ l.map Prod.fst) :
    ∃ a b, l = a ++ b ∧ (∀ e ∈ a, e.2 ≤ ticks) ∧ (∀ e ∈ b, ticks < e.2) ∧
      Holds (c.insert n ticks) (a ++ (n, ticks) :: b) := by
  obtain ⟨a, b, rfl, sooner, later, result⟩ := holds.chained.insert_eq ticks outside
  refine ⟨a, b, rfl, sooner, later, ?_⟩
  rw [result]
  refine ⟨?_, holds.chained.due_insert outside sooner later⟩
  have same : c.dqs.setNode n ⟨none, none⟩ = c.dqs := by
    rw [← holds.dqs.loose n fun _ => outside, Dqs.setNode, Function.update_eq_self]
  have inserted := holds.dqs.insert_at (q := ()) List.map_append fun _ => outside
  rw [update_unit] at inserted
  rw [same, List.map_append]
  exact inserted

/-! ## Removal -/

omit [DecidableEq Node] in
/-- The sum that a dequeue forms is no more than what the next node is due in. -/
theorem Chained.delta_add_le {a b : List (Node × ℕ)} {due : ℕ} {f : Node × ℕ}
    (chained : Chained c (a ++ (n, due) :: f :: b)) : c.delta f.1 + c.delta n ≤ f.2 := by
  obtain ⟨-, here, after, -⟩ := due_append.mp chained.due
  omega

theorem dequeueNoCallback_dqs : (c.dequeueNoCallback n).dqs = c.dqs.dequeue () n := by
  unfold DeltaChain.dequeueNoCallback
  cases (c.dqs.node n).next <;> rfl

/-- The deltas once the next node counts from the node before. -/
theorem Chained.due_dequeue {a b : List (Node × ℕ)} {due : ℕ}
    (chained : Chained c (a ++ (n, due) :: b)) : Due (c.dequeueNoCallback n).delta 0 (a ++ b) := by
  have next := chained.next
  obtain ⟨dueA, here, dueB⟩ := due_append.mp chained.due
  cases b with
  | nil =>
      have result : (c.dequeueNoCallback n).delta = c.delta := by
        simp [DeltaChain.dequeueNoCallback, next]
      rw [result, List.append_nil]
      exact dueA
  | cons f b =>
      have result : (c.dequeueNoCallback n).delta =
          Function.update c.delta f.1 (c.delta f.1 + c.delta n) := by
        simp [DeltaChain.dequeueNoCallback, next, DeltaChain.setDelta]
      have first : ∀ e ∈ b, f.1 ≠ e.1 := by
        intro e inside
        have shift : a ++ (n, due) :: f :: b = (a ++ [(n, due), f]) ++ b := by simp
        rw [shift] at chained
        exact chained.apart (by simp) inside
      rw [result]
      refine due_append.mpr ⟨dueA.congr fun e inside => ?_, ?_, ?_⟩
      · have apart : e.1 ≠ f.1 := chained.apart inside (by simp)
        exact Function.update_of_ne apart ..
      · have before : f.2 = due + c.delta f.1 := dueB.1
        rw [Function.update_self]
        omega
      · exact dueB.2.congr fun e inside => Function.update_of_ne (first e inside).symm ..

/-- The node leaves, and no other node's time changes. -/
theorem Chained.dequeue {a b : List (Node × ℕ)} {due : ℕ}
    (chained : Chained c (a ++ (n, due) :: b)) : Chained (c.dequeueNoCallback n) (a ++ b) := by
  refine ⟨?_, chained.due_dequeue⟩
  have linked := chained.linked
  rw [List.map_append, List.map_cons] at linked
  rw [dequeueNoCallback_dqs, List.map_append]
  exact linked.dequeue

theorem Holds.dequeue {a b : List (Node × ℕ)} {due : ℕ} (holds : Holds c (a ++ (n, due) :: b)) :
    Holds (c.dequeueNoCallback n) (a ++ b) := by
  refine ⟨?_, holds.chained.due_dequeue⟩
  have removed := holds.dqs.dequeue_at (q := ()) (n := n) (a := a.map Prod.fst)
    (b := b.map Prod.fst) (by simp)
  rw [update_unit, ← List.map_append] at removed
  rw [dequeueNoCallback_dqs]
  exact removed

/-- What the advance pops is the front, and it is due. -/
theorem Holds.advance {c' : DeltaChain Node} (holds : Holds c l)
    (popped : c.advance = some (n, c')) : ∃ b, l = (n, 0) :: b ∧ Holds c' b := by
  have front : c.dqs.peekfront () = (l.map Prod.fst).head? := holds.dqs.peekfront
  unfold DeltaChain.advance at popped
  rw [front] at popped
  cases l with
  | nil => cases popped
  | cons e l =>
      obtain ⟨zero, same⟩ := Option.ite_none_right_eq_some.mp popped
      cases same
      have here : e.2 = 0 := by rw [holds.due.1, zero]
      have rest : Due c.delta 0 l := by
        rw [← here]
        exact holds.due.2
      have removed := holds.dqs.dequeue_at (q := ()) (n := e.1) (a := []) (b := l.map Prod.fst) rfl
      rw [update_unit] at removed
      refine ⟨l, by rw [← here], ?_, rest⟩
      rw [holds.dqs.popfront_cons (q := ()) (n := e.1) rfl]
      exact removed

/-- A tick takes one from all times, unless the front is due already. -/
theorem Holds.tick (holds : Holds c l) :
    Holds c.tick.1 (if (l.map Prod.snd).head? = some 0 then l else l.map fun e => (e.1, e.2 - 1)) ∧
      (c.tick.2 = true ↔ ∃ n, (∃ b, l = (n, 0) :: b) ∨ ∃ b, l = (n, 1) :: b) := by
  have front : c.dqs.peekfront () = (l.map Prod.fst).head? := holds.dqs.peekfront
  cases l with
  | nil => simpa [DeltaChain.tick, front] using holds
  | cons e l =>
      obtain ⟨n, due⟩ := e
      obtain ⟨here, rest⟩ := holds.due
      rw [Nat.zero_add] at here
      cases due with
      | zero =>
          simp only [DeltaChain.tick, front, List.map_cons, List.head?_cons, ← here, if_true]
          simpa using holds
      | succ due =>
          have later : c.delta n - 1 = due := by omega
          have late : ¬ c.delta n = 0 := by omega
          have result : c.tick = (c.setDelta n due, decide (due = 0)) := by
            simp [DeltaChain.tick, front, late, later]
          rw [result, if_neg (by simp)]
          refine ⟨⟨?_, ?_, ?_⟩, by simp⟩
          · show Dq.Holds c.dqs _
            rw [List.map_map]
            exact holds.dqs
          · show due + 1 - 1 = 0 + Function.update c.delta n due n
            rw [Function.update_self]
            omega
          · have sooner := rest.sooner (k := 1)
            refine sooner.congr fun e inside => ?_
            obtain ⟨e, member, rfl⟩ := List.mem_map.mp inside
            exact Function.update_of_ne (holds.head_not_mem_tail member).symm ..

/-! ## Membership -/

/-- The chain is some list. -/
def Formed (c : DeltaChain Node) : Prop :=
  ∃ l, Holds c l

omit [DecidableEq Node] in
theorem formed_empty : Formed (DeltaChain.empty : DeltaChain Node) :=
  ⟨[], holds_empty⟩

theorem empty_not_queued : (DeltaChain.empty : DeltaChain Node).isQueued n = false := by
  rw [Bool.eq_false_iff]
  exact fun inside => absurd (holds_empty.isQueued.mp inside) List.not_mem_nil

/-- After an insertion the node is queued, and the others are as they were. -/
theorem Formed.insert [Fintype Node] {ticks : ℕ} (formed : Formed c)
    (outside : c.isQueued n = false) : Formed (c.insert n ticks) ∧
      ∀ m, (c.insert n ticks).isQueued m = true ↔ m = n ∨ c.isQueued m = true := by
  obtain ⟨l, holds⟩ := formed
  have notIn : n ∉ l.map Prod.fst := fun inside => by
    simp [holds.isQueued.mpr inside] at outside
  obtain ⟨a, b, rfl, -, -, inserted⟩ := holds.insert ticks notIn
  refine ⟨⟨_, inserted⟩, fun m => ?_⟩
  rw [inserted.isQueued, holds.isQueued]
  simp only [List.map_append, List.map_cons, List.mem_append, List.mem_cons]
  tauto

/-- Taking a place out of the list leaves the other nodes. -/
theorem Holds.mem_without {a b : List (Node × ℕ)} {due : ℕ} {c' : DeltaChain Node}
    (holds : Holds c (a ++ (n, due) :: b)) (left : Holds c' (a ++ b)) (m : Node) :
    c'.isQueued m = true ↔ m ≠ n ∧ c.isQueued m = true := by
  have nodup := holds.nodup
  rw [List.map_append, List.map_cons, List.nodup_middle, List.nodup_cons] at nodup
  rw [left.isQueued, holds.isQueued, List.map_append, List.map_append, List.map_cons]
  constructor
  · intro inside
    refine ⟨fun same => nodup.1 (same ▸ inside), ?_⟩
    exact List.perm_middle.mem_iff.mpr (List.mem_cons_of_mem n inside)
  · rintro ⟨other, inside⟩
    exact (List.mem_cons.mp (List.perm_middle.mem_iff.mp inside)).resolve_left other

/-- After a dequeue the node is not queued, and the others are as they were. -/
theorem Formed.dequeue (formed : Formed c) (inside : c.isQueued n = true) :
    Formed (c.dequeueNoCallback n) ∧
      ∀ m, (c.dequeueNoCallback n).isQueued m = true ↔ m ≠ n ∧ c.isQueued m = true := by
  obtain ⟨l, holds⟩ := formed
  obtain ⟨⟨n, due⟩, member, rfl⟩ := List.mem_map.mp (holds.isQueued.mp inside)
  obtain ⟨a, b, rfl⟩ := List.append_of_mem member
  exact ⟨⟨_, holds.dequeue⟩, holds.mem_without holds.dequeue⟩

/-- What the advance pops was queued, and is not any more. -/
theorem Formed.advance {c' : DeltaChain Node} (formed : Formed c)
    (popped : c.advance = some (n, c')) : c.isQueued n = true ∧ Formed c' ∧
      ∀ m, c'.isQueued m = true ↔ m ≠ n ∧ c.isQueued m = true := by
  obtain ⟨l, holds⟩ := formed
  obtain ⟨b, rfl, left⟩ := holds.advance popped
  refine ⟨holds.isQueued.mpr (by simp), ⟨b, left⟩, ?_⟩
  exact Holds.mem_without (a := []) holds left

/-- A tick moves no node, and an advance follows only where there is one. -/
theorem Formed.tick (formed : Formed c) : Formed c.tick.1 ∧
    (∀ m, c.tick.1.isQueued m = c.isQueued m) ∧ (c.tick.2 = true → ∃ m, c.isQueued m = true) := by
  obtain ⟨l, holds⟩ := formed
  obtain ⟨ticked, advances⟩ := holds.tick
  refine ⟨⟨_, ticked⟩, fun m => ?_, fun follows => ?_⟩
  · rw [Bool.eq_iff_iff, ticked.isQueued, holds.isQueued]
    split
    · rfl
    · rw [List.map_map]
      rfl
  · obtain ⟨n, ⟨b, rfl⟩ | ⟨b, rfl⟩⟩ := advances.mp follows <;>
      exact ⟨n, holds.isQueued.mpr (by simp)⟩

end Contents

end Twan.Lib.DeltaChain
