/-
# Twan.Lib.Dq -- intrusive queues

`include/lib/dsa/dq.h`: queues threaded through `struct list_double` nodes that
live inside other objects.  A state holds all nodes and all queues, since a node
can be in one queue now and in another one later.

`Holds s contents` ties a state to the contents of its queues: each queue is the
chain of its list (`Linked`), no node is in two places, and a node in none has NULL
links, so that `dq_is_queued` tells the two apart.  Each operation has one lemma that says
what it does to the contents, under what its callers owe it: a node to be pushed
is in no queue, a node to be dequeued is in this one.  `drain` is the loop that takes
every node out of a queue and does something for it.
-/
import Twan.Base.Links
import Mathlib.Data.Fintype.Card

namespace Twan.Lib.Dq

set_option autoImplicit false
set_option linter.dupNamespace false

open Twan.Base

/-- `struct list_double`. -/
structure ListDouble (Node : Type) where
  next : Option Node
  prev : Option Node

/-- `struct dq`. -/
structure Dq (Node : Type) where
  front : Option Node
  rear : Option Node

/-- All nodes and all queues. -/
structure Dqs (Q Node : Type) where
  node : Node → ListDouble Node
  dq : Q → Dq Node

namespace Dqs

variable {Q Node : Type} [DecidableEq Q] [DecidableEq Node] (s : Dqs Q Node)

def empty : Dqs Q Node :=
  ⟨fun _ => ⟨none, none⟩, fun _ => ⟨none, none⟩⟩

def setNode (n : Node) (links : ListDouble Node) : Dqs Q Node :=
  { s with node := Function.update s.node n links }

def setDq (q : Q) (d : Dq Node) : Dqs Q Node :=
  { s with dq := Function.update s.dq q d }

/-- `dq_pushfront(dq, node)`. -/
def pushfront (q : Q) (n : Node) : Dqs Q Node :=
  let front := (s.dq q).front
  let s := (s.setNode n ⟨front, none⟩).setDq q { s.dq q with front := some n }
  match front with
  | some m => s.setNode m { s.node m with prev := some n }
  | none => s.setDq q { s.dq q with rear := some n }

/-- `dq_pushback(dq, node)`. -/
def pushback (q : Q) (n : Node) : Dqs Q Node :=
  let rear := (s.dq q).rear
  let s := (s.setNode n ⟨none, rear⟩).setDq q { s.dq q with rear := some n }
  match rear with
  | some p => s.setNode p { s.node p with next := some n }
  | none => s.setDq q { s.dq q with front := some n }

/-- The first half of `dq_dequeue`: the successor, or the rear, forgets the node. -/
def unlinkNext (q : Q) (n : Node) : Dqs Q Node :=
  match (s.node n).next with
  | some m => s.setNode m { s.node m with prev := (s.node n).prev }
  | none => s.setDq q { s.dq q with rear := (s.node n).prev }

/-- The second half: the predecessor, or the front, does. -/
def unlinkPrev (q : Q) (n : Node) : Dqs Q Node :=
  match (s.node n).prev with
  | some p => s.setNode p { s.node p with next := (s.node n).next }
  | none => s.setDq q { s.dq q with front := (s.node n).next }

/-- `dq_dequeue(dq, node)`. -/
def dequeue (q : Q) (n : Node) : Dqs Q Node :=
  ((s.unlinkNext q n).unlinkPrev q n).setNode n ⟨none, none⟩

/-- `dq_peekfront(dq)`. -/
def peekfront (q : Q) : Option Node :=
  (s.dq q).front

/-- `dq_popfront(dq)`. -/
def popfront (q : Q) : Option Node × Dqs Q Node :=
  match (s.dq q).front with
  | none => (none, s)
  | some n =>
      let front := (s.node n).next
      let s := s.setDq q { s.dq q with front := front }
      let s := match front with
        | some m => s.setNode m { s.node m with prev := none }
        | none => s.setDq q { s.dq q with rear := none }
      (some n, s.setNode n ⟨none, none⟩)

/-- `dq_insert(dq, node, prev, next)`. -/
def insert (q : Q) (n : Node) (prev next : Option Node) : Dqs Q Node :=
  let s := s.setNode n ⟨next, prev⟩
  let s := match next with
    | some m => s.setNode m { s.node m with prev := some n }
    | none => s.setDq q { s.dq q with rear := some n }
  match prev with
  | some p => s.setNode p { s.node p with next := some n }
  | none => s.setDq q { s.dq q with front := some n }

/-- `dq_is_empty(dq)`. -/
def isEmpty (q : Q) : Bool :=
  (s.dq q).front.isNone

/-- `dq_is_queued(dq, node)`. -/
def isQueued (q : Q) (n : Node) : Bool :=
  (s.node n).prev.isSome || (s.node n).next.isSome || decide ((s.dq q).front = some n)

/-- The loop over a queue that clears the links of each node after `visit`.  The fuel
bounds its iterations. -/
def drainLoop {A : Type} (visit : Node → A → A) : Nat → Option Node → Dqs Q Node → A → Dqs Q Node × A
  | fuel + 1, some n, s, a =>
      drainLoop visit fuel (s.node n).next (s.setNode n ⟨none, none⟩) (visit n a)
  | _, _, s, a => (s, a)

/-- The loop from the front, after which the queue is empty. -/
def drain [Fintype Node] {A : Type} (visit : Node → A → A) (q : Q) (a : A) : Dqs Q Node × A :=
  let (s, a) := drainLoop visit (Fintype.card Node) (s.dq q).front s a
  (s.setDq q ⟨none, none⟩, a)

/-- `dq_clear(dq)`. -/
def clear [Fintype Node] (q : Q) : Dqs Q Node :=
  (s.drain (fun _ => id) q ()).1

end Dqs

/-! ## The contents of the queues -/

section Contents

variable {Q Node : Type}

/-- The queues hold these lists, and no node is in two places. -/
structure Holds (s : Dqs Q Node) (contents : Q → List Node) : Prop where
  front : ∀ q, (s.dq q).front = (contents q).head?
  rear : ∀ q, (s.dq q).rear = (contents q).getLast?
  chain : ∀ q, Segment (fun n => (s.node n).next) (fun n => (s.node n).prev) none (contents q) none
  nodup : ∀ q, (contents q).Nodup
  apart : ∀ q q' n, n ∈ contents q → n ∈ contents q' → q = q'
  loose : ∀ n, (∀ q, n ∉ contents q) → s.node n = ⟨none, none⟩

/-- One queue is this list, wherever the nodes outside of it are linked. -/
structure Linked (s : Dqs Q Node) (q : Q) (l : List Node) : Prop where
  front : (s.dq q).front = l.head?
  rear : (s.dq q).rear = l.getLast?
  chain : Segment (fun n => (s.node n).next) (fun n => (s.node n).prev) none l none
  nodup : l.Nodup

theorem holds_empty : Holds (Dqs.empty : Dqs Q Node) fun _ => [] where
  front := fun _ => rfl
  rear := fun _ => rfl
  chain := fun _ => trivial
  nodup := fun _ => List.nodup_nil
  apart := by
    intro q q' n inside
    exact absurd inside List.not_mem_nil
  loose := fun _ _ => rfl

variable {s : Dqs Q Node} {contents : Q → List Node} {q : Q} {n : Node}

theorem Holds.linked (holds : Holds s contents) (q : Q) : Linked s q (contents q) :=
  ⟨holds.front q, holds.rear q, holds.chain q, holds.nodup q⟩

theorem Holds.peekfront (holds : Holds s contents) : s.peekfront q = (contents q).head? :=
  holds.front q

/-- The contents are determined by the state. -/
theorem Holds.unique {contents' : Q → List Node} (holds : Holds s contents)
    (holds' : Holds s contents') : contents = contents' := by
  funext q
  apply (holds.chain q).unique (holds'.chain q)
  rw [← holds.front, holds'.front]

/-- The links of a node at a known place. -/
theorem Linked.links {a b : List Node} (linked : Linked s q (a ++ n :: b)) :
    (s.node n).prev = a.getLast? ∧ (s.node n).next = b.head? := by
  obtain ⟨-, before, after, -⟩ := segment_middle.mp linked.chain
  exact ⟨before, after⟩

/-- A node outside is not next to the place between two parts of a list. -/
theorem ends_ne {a b : List Node} (outside : n ∉ a ++ b) :
    b.head? ≠ some n ∧ a.getLast? ≠ some n :=
  ⟨fun e => outside (List.mem_append_right a (List.mem_of_mem_head? e)),
    fun e => outside (List.mem_append_left b (List.mem_of_getLast? e))⟩

/-- A member does not stand next to itself. -/
theorem Linked.links_ne {a b : List Node} (linked : Linked s q (a ++ n :: b)) :
    n ∉ a ++ b ∧ (s.node n).next ≠ some n ∧ (s.node n).prev ≠ some n := by
  have outside := (List.nodup_cons.mp (List.nodup_middle.mp linked.nodup)).1
  obtain ⟨before, after⟩ := linked.links
  rw [before, after]
  exact ⟨outside, ends_ne outside⟩

theorem Holds.links (holds : Holds s contents) {a b : List Node} (here : contents q = a ++ n :: b) :
    (s.node n).prev = a.getLast? ∧ (s.node n).next = b.head? := by
  have linked := holds.linked q
  rw [here] at linked
  exact linked.links

variable [DecidableEq Node]

theorem Holds.isQueued_of_mem (holds : Holds s contents) (inside : n ∈ contents q) :
    s.isQueued q n = true := by
  obtain ⟨a, b, here⟩ := List.append_of_mem inside
  cases a with
  | nil => simp [Dqs.isQueued, holds.front q, here]
  | cons m a =>
      have before := (holds.links here).1
      rw [List.getLast?_cons] at before
      simp [Dqs.isQueued, before]

theorem Holds.isQueued_of_not_mem (holds : Holds s contents) (outside : ∀ q, n ∉ contents q) :
    s.isQueued q n = false := by
  have front : (s.dq q).front ≠ some n := by
    rw [holds.front q]
    intro e
    exact outside q (List.mem_of_mem_head? e)
  simp [Dqs.isQueued, holds.loose n outside, front]

/-- `dq_is_queued` is membership, for a node that is in no other queue. -/
theorem Holds.isQueued_iff (holds : Holds s contents) (elsewhere : ∀ q', q' ≠ q → n ∉ contents q') :
    s.isQueued q n = true ↔ n ∈ contents q := by
  constructor
  · intro queued
    by_contra outside
    have nowhere : ∀ q', n ∉ contents q' := by
      intro q' inside
      by_cases same : q' = q
      · exact outside (same ▸ inside)
      · exact elsewhere q' same inside
    rw [holds.isQueued_of_not_mem nowhere] at queued
    cases queued
  · exact holds.isQueued_of_mem

variable [DecidableEq Q]

omit [DecidableEq Node] in
/-- Membership after the contents of one queue have changed. -/
theorem mem_update {l : List Node} {q' : Q} {m : Node} :
    m ∈ Function.update contents q l q' ↔ (q' = q ∧ m ∈ l) ∨ (q' ≠ q ∧ m ∈ contents q') := by
  by_cases same : q' = q
  · subst same
    simp
  · simp [same]

/-- A state that agrees with `s` outside one queue and the nodes of its old and new
contents. -/
theorem Holds.update (holds : Holds s contents) {t : Dqs Q Node} {l : List Node}
    (linked : Linked t q l) (others : ∀ q', q' ≠ q → t.dq q' = s.dq q')
    (nodes : ∀ m, m ∉ contents q → m ∉ l → t.node m = s.node m)
    (fresh : ∀ m ∈ l, ∀ q', q' ≠ q → m ∉ contents q')
    (dropped : ∀ m ∈ contents q, m ∉ l → t.node m = ⟨none, none⟩) :
    Holds t (Function.update contents q l) where
  front := by
    intro q'
    by_cases same : q' = q
    · subst same
      rw [Function.update_self, linked.front]
    · rw [Function.update_of_ne same, others q' same, holds.front]
  rear := by
    intro q'
    by_cases same : q' = q
    · subst same
      rw [Function.update_self, linked.rear]
    · rw [Function.update_of_ne same, others q' same, holds.rear]
  chain := by
    intro q'
    by_cases same : q' = q
    · subst same
      rw [Function.update_self]
      exact linked.chain
    · rw [Function.update_of_ne same]
      apply (holds.chain q').congr
      intro m inside
      have outside : m ∉ contents q := fun h => same (holds.apart q' q m inside h)
      have new : m ∉ l := fun h => fresh m h q' same inside
      rw [nodes m outside new]
      exact ⟨rfl, rfl⟩
  nodup := by
    intro q'
    by_cases same : q' = q
    · subst same
      rw [Function.update_self]
      exact linked.nodup
    · rw [Function.update_of_ne same]
      exact holds.nodup q'
  apart := by
    intro q₁ q₂ m in₁ in₂
    rcases mem_update.mp in₁ with ⟨e₁, in₁⟩ | ⟨ne₁, in₁⟩ <;>
      rcases mem_update.mp in₂ with ⟨e₂, in₂⟩ | ⟨ne₂, in₂⟩
    · rw [e₁, e₂]
    · exact absurd in₂ (fresh m in₁ q₂ ne₂)
    · exact absurd in₁ (fresh m in₂ q₁ ne₁)
    · exact holds.apart q₁ q₂ m in₁ in₂
  loose := by
    intro m nowhere
    have notNew : m ∉ l := fun h => nowhere q (mem_update.mpr (.inl ⟨rfl, h⟩))
    by_cases inside : m ∈ contents q
    · exact dropped m inside notNew
    · rw [nodes m inside notNew]
      apply holds.loose
      intro q' h
      by_cases same : q' = q
      · exact inside (same ▸ h)
      · exact nowhere q' (mem_update.mpr (.inr ⟨same, h⟩))

/-! ## The operations -/

/-- What `dq_insert` leaves of the links, node by node, between two other nodes. -/
theorem insert_node {m : Node} {prev next : Option Node} (notSelf : next ≠ some n ∧ prev ≠ some n) :
    (s.insert q n prev next).node m = if m = n then ⟨next, prev⟩ else
      ⟨if prev = some m then some n else (s.node m).next,
        if next = some m then some n else (s.node m).prev⟩ := by
  cases next with
  | none =>
      cases prev with
      | none =>
          by_cases same : m = n <;> simp [Dqs.insert, Dqs.setNode, Dqs.setDq, same]
      | some p =>
          have pn : p ≠ n := fun e => notSelf.2 (e ▸ rfl)
          by_cases same : m = n
          · simp [Dqs.insert, Dqs.setNode, Dqs.setDq, same, pn.symm]
          · by_cases atPrev : m = p
            · subst atPrev
              simp [Dqs.insert, Dqs.setNode, Dqs.setDq, same]
            · simp [Dqs.insert, Dqs.setNode, Dqs.setDq, same, atPrev, Ne.symm atPrev]
  | some j =>
      have jn : j ≠ n := fun e => notSelf.1 (e ▸ rfl)
      cases prev with
      | none =>
          by_cases same : m = n
          · simp [Dqs.insert, Dqs.setNode, Dqs.setDq, same, jn.symm]
          · by_cases atNext : m = j
            · subst atNext
              simp [Dqs.insert, Dqs.setNode, Dqs.setDq, same]
            · simp [Dqs.insert, Dqs.setNode, Dqs.setDq, same, atNext, Ne.symm atNext]
      | some p =>
          have pn : p ≠ n := fun e => notSelf.2 (e ▸ rfl)
          by_cases same : m = n
          · simp [Dqs.insert, Dqs.setNode, same, jn.symm, pn.symm]
          · by_cases atPrev : m = p <;> by_cases atNext : m = j
            · subst atPrev atNext
              simp [Dqs.insert, Dqs.setNode, same]
            · subst atPrev
              simp [Dqs.insert, Dqs.setNode, same, atNext, Ne.symm atNext]
            · subst atNext
              simp [Dqs.insert, Dqs.setNode, same, atPrev, Ne.symm atPrev]
            · simp [Dqs.insert, Dqs.setNode, same, atPrev, atNext, Ne.symm atPrev, Ne.symm atNext]

/-- What it leaves of the queues. -/
theorem insert_dq {q' : Q} {prev next : Option Node} :
    (s.insert q n prev next).dq q' = if q' = q then
      ⟨if prev = none then some n else (s.dq q).front,
        if next = none then some n else (s.dq q).rear⟩ else s.dq q' := by
  by_cases same : q' = q
  · subst same
    cases next <;> cases prev <;> simp [Dqs.insert, Dqs.setNode, Dqs.setDq]
  · cases next <;> cases prev <;> simp [Dqs.insert, Dqs.setNode, Dqs.setDq, same]

omit [DecidableEq Q] in
/-- Writing the links of a node outside. -/
theorem Linked.setNode {l : List Node} (linked : Linked s q l) (outside : n ∉ l)
    (links : ListDouble Node) : Linked (s.setNode n links) q l := by
  refine ⟨linked.front, linked.rear, ?_, linked.nodup⟩
  apply linked.chain.congr
  intro m inside
  have apart : m ≠ n := fun e => outside (e ▸ inside)
  have same : (s.setNode n links).node m = s.node m := Function.update_of_ne apart ..
  rw [same]
  exact ⟨rfl, rfl⟩

theorem Linked.insert {a b : List Node} (linked : Linked s q (a ++ b)) (outside : n ∉ a ++ b) :
    Linked (s.insert q n a.getLast? b.head?) q (a ++ n :: b) := by
  have notSelf := ends_ne outside
  have other : ∀ m ∈ a ++ b, m ≠ n := fun m inside e => outside (e ▸ inside)
  constructor
  · rw [insert_dq, if_pos rfl, linked.front]
    cases a with
    | nil => rfl
    | cons m a => simp
  · rw [insert_dq, if_pos rfl, linked.rear]
    cases b with
    | nil => simp
    | cons m b => simp
  · apply segment_insert linked.chain linked.nodup
    · rw [insert_node notSelf, if_pos rfl]
    · rw [insert_node notSelf, if_pos rfl]
    · intro m inside
      rw [insert_node notSelf, if_neg (other m inside)]
    · intro m inside
      rw [insert_node notSelf, if_neg (other m inside)]
  · apply List.nodup_middle.mpr
    exact List.nodup_cons.mpr ⟨outside, linked.nodup⟩

theorem Holds.insert_at (holds : Holds s contents) {a b : List Node}
    (here : contents q = a ++ b) (outside : ∀ q', n ∉ contents q') :
    Holds (s.insert q n a.getLast? b.head?) (Function.update contents q (a ++ n :: b)) := by
  have notIn : n ∉ a ++ b := here ▸ outside q
  have linked := holds.linked q
  rw [here] at linked
  have perm : (a ++ n :: b).Perm (n :: (a ++ b)) := List.perm_middle
  apply holds.update (linked.insert notIn)
  · intro q' apart
    rw [insert_dq, if_neg apart]
  · intro m old gone
    have apart : m ≠ n := fun e => gone (e ▸ by simp)
    rw [here] at old
    obtain ⟨notFirst, notLast⟩ := ends_ne old
    rw [insert_node (ends_ne notIn), if_neg apart, if_neg notLast, if_neg notFirst]
  · intro m inside q' apart there
    rcases List.mem_cons.mp (perm.mem_iff.mp inside) with rfl | old
    · exact outside q' there
    · exact apart (holds.apart q' q m there (here ▸ old))
  · intro m inside gone
    rw [here] at inside
    exact absurd (perm.mem_iff.mpr (List.mem_cons_of_mem n inside)) gone

/-- The two pushes are insertions at an end. -/
theorem pushfront_eq : s.pushfront q n = s.insert q n none (s.dq q).front := by
  cases front : (s.dq q).front with
  | none => simp [Dqs.pushfront, Dqs.insert, front, Dqs.setNode, Dqs.setDq]
  | some m => simp [Dqs.pushfront, Dqs.insert, front, Dqs.setNode, Dqs.setDq]

theorem pushback_eq : s.pushback q n = s.insert q n (s.dq q).rear none := by
  cases rear : (s.dq q).rear with
  | none => simp [Dqs.pushback, Dqs.insert, rear, Dqs.setNode, Dqs.setDq]
  | some m => simp [Dqs.pushback, Dqs.insert, rear, Dqs.setNode, Dqs.setDq]

theorem Holds.pushfront (holds : Holds s contents) (outside : ∀ q', n ∉ contents q') :
    Holds (s.pushfront q n) (Function.update contents q (n :: contents q)) := by
  rw [pushfront_eq, holds.front q]
  exact holds.insert_at (a := []) rfl outside

theorem Holds.pushback (holds : Holds s contents) (outside : ∀ q', n ∉ contents q') :
    Holds (s.pushback q n) (Function.update contents q (contents q ++ [n])) := by
  rw [pushback_eq, holds.rear q]
  exact holds.insert_at (b := []) (List.append_nil _).symm outside

/-- What `dq_dequeue` leaves of the links, node by node, when the node's own links are
NULL or lead to other nodes. -/
theorem dequeue_node {m : Node} (notSelf : (s.node n).next ≠ some n ∧ (s.node n).prev ≠ some n) :
    (s.dequeue q n).node m = if m = n then ⟨none, none⟩ else
      ⟨if (s.node n).prev = some m then (s.node n).next else (s.node m).next,
        if (s.node n).next = some m then (s.node n).prev else (s.node m).prev⟩ := by
  by_cases same : m = n
  · subst same
    simp [Dqs.dequeue, Dqs.setNode]
  · rw [if_neg same]
    simp only [Dqs.dequeue, Dqs.setNode, Function.update_of_ne same]
    cases after : (s.node n).next with
    | none =>
        cases before : (s.node n).prev with
        | none => simp [Dqs.unlinkNext, Dqs.unlinkPrev, after, before, Dqs.setDq]
        | some k =>
            by_cases atPrev : m = k
            · subst atPrev
              simp [Dqs.unlinkNext, Dqs.unlinkPrev, after, before, Dqs.setDq, Dqs.setNode]
            · simp [Dqs.unlinkNext, Dqs.unlinkPrev, after, before, Dqs.setDq, Dqs.setNode, atPrev,
                Ne.symm atPrev]
    | some j =>
        have jn : n ≠ j := fun e => notSelf.1 (e ▸ after)
        cases before : (s.node n).prev with
        | none =>
            by_cases atNext : m = j
            · subst atNext
              simp [Dqs.unlinkNext, Dqs.unlinkPrev, after, before, Dqs.setDq, Dqs.setNode, jn]
            · simp [Dqs.unlinkNext, Dqs.unlinkPrev, after, before, Dqs.setDq, Dqs.setNode, jn, atNext,
                Ne.symm atNext]
        | some k =>
            by_cases atPrev : m = k <;> by_cases atNext : m = j
            · subst atPrev atNext
              simp [Dqs.unlinkNext, Dqs.unlinkPrev, after, before, Dqs.setNode, jn]
            · subst atPrev
              simp [Dqs.unlinkNext, Dqs.unlinkPrev, after, before, Dqs.setNode, jn, atNext,
                Ne.symm atNext]
            · subst atNext
              simp [Dqs.unlinkNext, Dqs.unlinkPrev, after, before, Dqs.setNode, jn, atPrev,
                Ne.symm atPrev]
            · simp [Dqs.unlinkNext, Dqs.unlinkPrev, after, before, Dqs.setNode, jn, atPrev, atNext,
                Ne.symm atPrev, Ne.symm atNext]

/-- What it leaves of the queues. -/
theorem dequeue_dq {q' : Q} (notSelf : (s.node n).next ≠ some n) :
    (s.dequeue q n).dq q' = if q' = q then
      ⟨if (s.node n).prev = none then (s.node n).next else (s.dq q).front,
        if (s.node n).next = none then (s.node n).prev else (s.dq q).rear⟩ else s.dq q' := by
  by_cases same : q' = q
  · subst same
    cases after : (s.node n).next with
    | none =>
        cases before : (s.node n).prev <;>
          simp [Dqs.dequeue, Dqs.unlinkNext, Dqs.unlinkPrev, after, before, Dqs.setDq, Dqs.setNode]
    | some j =>
        have jn : n ≠ j := fun e => notSelf (e ▸ after)
        cases before : (s.node n).prev <;>
          simp [Dqs.dequeue, Dqs.unlinkNext, Dqs.unlinkPrev, after, before, Dqs.setDq, Dqs.setNode, jn]
  · cases after : (s.node n).next with
    | none =>
        cases before : (s.node n).prev <;>
          simp [Dqs.dequeue, Dqs.unlinkNext, Dqs.unlinkPrev, after, before, Dqs.setDq, Dqs.setNode, same]
    | some j =>
        have jn : n ≠ j := fun e => notSelf (e ▸ after)
        cases before : (s.node n).prev <;>
          simp [Dqs.dequeue, Dqs.unlinkNext, Dqs.unlinkPrev, after, before, Dqs.setDq, Dqs.setNode, jn,
            same]

theorem Linked.dequeue {a b : List Node} (linked : Linked s q (a ++ n :: b)) :
    Linked (s.dequeue q n) q (a ++ b) := by
  obtain ⟨before, after⟩ := linked.links
  obtain ⟨outside, notSelf⟩ := linked.links_ne
  have other : ∀ m ∈ a ++ b, m ≠ n := fun m inside e => outside (e ▸ inside)
  constructor
  · rw [dequeue_dq notSelf.1, if_pos rfl, before, after, linked.front]
    cases a with
    | nil => rfl
    | cons m a => simp
  · rw [dequeue_dq notSelf.1, if_pos rfl, before, after, linked.rear]
    cases b with
    | nil => simp
    | cons m b => simp
  · apply segment_erase linked.chain linked.nodup
    · intro m inside
      rw [dequeue_node notSelf, if_neg (other m inside), before, after]
    · intro m inside
      rw [dequeue_node notSelf, if_neg (other m inside), before, after]
  · exact (List.nodup_cons.mp (List.nodup_middle.mp linked.nodup)).2

theorem Holds.dequeue_at (holds : Holds s contents) {a b : List Node}
    (here : contents q = a ++ n :: b) :
    Holds (s.dequeue q n) (Function.update contents q (a ++ b)) := by
  have linked := holds.linked q
  rw [here] at linked
  obtain ⟨before, after⟩ := linked.links
  obtain ⟨-, notSelf⟩ := linked.links_ne
  have perm : (a ++ n :: b).Perm (n :: (a ++ b)) := List.perm_middle
  apply holds.update linked.dequeue
  · intro q' other
    rw [dequeue_dq notSelf.1, if_neg other]
  · intro m outside gone
    have other : m ≠ n := fun e => outside (by rw [here, e]; simp)
    obtain ⟨notFirst, notLast⟩ := ends_ne gone
    rw [dequeue_node notSelf, if_neg other, before, after, if_neg notLast, if_neg notFirst]
  · intro m inside q' other there
    have old : m ∈ contents q := here ▸ perm.mem_iff.mpr (List.mem_cons_of_mem n inside)
    exact other (holds.apart q' q m there old)
  · intro m inside gone
    rw [here] at inside
    have same : m = n := (List.mem_cons.mp (perm.mem_iff.mp inside)).resolve_right gone
    rw [dequeue_node notSelf, if_pos same]

theorem Holds.dequeue (holds : Holds s contents) (inside : n ∈ contents q) :
    Holds (s.dequeue q n) (Function.update contents q ((contents q).filter fun m => m ≠ n)) := by
  obtain ⟨a, b, here⟩ := List.append_of_mem inside
  have nodup := holds.nodup q
  rw [here] at nodup
  obtain ⟨-, nodupNB, disjoint⟩ := List.nodup_append.mp nodup
  have keepA : (a.filter fun m => m ≠ n) = a := by
    apply List.filter_eq_self.mpr
    intro m inA
    simpa using disjoint m inA n List.mem_cons_self
  have keepB : (b.filter fun m => m ≠ n) = b := by
    apply List.filter_eq_self.mpr
    intro m inB
    have other : m ≠ n := fun e => (List.nodup_cons.mp nodupNB).1 (e ▸ inB)
    simpa using other
  have left : ((contents q).filter fun m => m ≠ n) = a ++ b := by
    rw [here, List.filter_append, List.filter_cons_of_neg (by simp), keepA, keepB]
  rw [left]
  exact holds.dequeue_at here

/-- Popping is dequeueing the front. -/
theorem popfront_eq (front : (s.dq q).front = some n) (first : (s.node n).prev = none)
    (notSelf : (s.node n).next ≠ some n) : s.popfront q = (some n, s.dequeue q n) := by
  cases after : (s.node n).next with
  | none => simp [Dqs.popfront, front, Dqs.dequeue, Dqs.unlinkNext, Dqs.unlinkPrev, after, first,
      Dqs.setDq, Dqs.setNode]
  | some m =>
      have other : n ≠ m := fun e => notSelf (e ▸ after)
      simp [Dqs.popfront, front, Dqs.dequeue, Dqs.unlinkNext, Dqs.unlinkPrev, after, first,
        Dqs.setDq, Dqs.setNode, other]

theorem Holds.popfront_cons (holds : Holds s contents) {l : List Node}
    (here : contents q = n :: l) : s.popfront q = (some n, s.dequeue q n) := by
  obtain ⟨before, after⟩ := holds.links (a := []) here
  apply popfront_eq _ before
  · rw [after]
    have nodup := holds.nodup q
    rw [here] at nodup
    exact fun e => (List.nodup_cons.mp nodup).1 (List.mem_of_mem_head? e)
  · rw [holds.front, here]
    rfl

omit [DecidableEq Q] in
/-- The loop visits the nodes of a chain in their order and clears their links. -/
theorem drainLoop_chain {A : Type} (visit : Node → A → A) {l : List Node} {p : Option Node}
    {fuel : Nat} (a : A) (s : Dqs Q Node)
    (chain : Segment (fun n => (s.node n).next) (fun n => (s.node n).prev) p l none)
    (nodup : l.Nodup) (enough : l.length ≤ fuel) :
    s.drainLoop visit fuel l.head? a =
      ({ s with node := fun m => if m ∈ l then ⟨none, none⟩ else s.node m },
        l.foldl (fun a n => visit n a) a) := by
  induction l generalizing s p fuel a with
  | nil => cases fuel <;> simp [Dqs.drainLoop]
  | cons n l ih =>
      obtain ⟨fuel, rfl⟩ : ∃ f, fuel = f + 1 := ⟨fuel - 1, by simp at enough; omega⟩
      obtain ⟨fresh, rest⟩ := List.nodup_cons.mp nodup
      obtain ⟨-, next, tail⟩ := chain
      replace next : (s.node n).next = l.head? := next.trans Option.or_none
      have kept : ∀ m ∈ l, (s.setNode n ⟨none, none⟩).node m = s.node m := by
        intro m inside
        have other : m ≠ n := fun e => fresh (e ▸ inside)
        exact Function.update_of_ne other ..
      have chain' : Segment (fun m => ((s.setNode n ⟨none, none⟩).node m).next)
          (fun m => ((s.setNode n ⟨none, none⟩).node m).prev) (some n) l none :=
        tail.congr fun m inside => by rw [kept m inside]; exact ⟨rfl, rfl⟩
      rw [List.head?_cons, Dqs.drainLoop, next, ih _ _ chain' rest (Nat.le_of_succ_le_succ enough)]
      refine Prod.ext ?_ rfl
      simp only [Dqs.setNode, Dqs.mk.injEq, and_true]
      funext m
      by_cases inside : m ∈ l
      · simp [inside]
      · by_cases here : m = n
        · subst here
          simp
        · simp [inside, here]

variable [Fintype Node]

/-- The loop takes every node out of its queue. -/
theorem Holds.drain {A : Type} (holds : Holds s contents) (visit : Node → A → A) (a : A) :
    ∃ t, s.drain visit q a = (t, (contents q).foldl (fun a n => visit n a) a) ∧
      Holds t (Function.update contents q []) := by
  have loop := drainLoop_chain visit a s (holds.chain q) (holds.nodup q)
    (holds.nodup q).length_le_card
  rw [← holds.front] at loop
  refine ⟨_, by rw [Dqs.drain, loop], ?_⟩
  apply holds.update
  · exact ⟨by simp [Dqs.setDq], by simp [Dqs.setDq], trivial, List.nodup_nil⟩
  · intro q' other
    exact Function.update_of_ne other ..
  · intro m outside _
    exact if_neg outside
  · intro m inside
    cases inside
  · intro m inside _
    exact if_pos inside

theorem Holds.clear (holds : Holds s contents) :
    Holds (s.clear q) (Function.update contents q []) := by
  obtain ⟨t, drained, holds'⟩ := holds.drain (q := q) (fun _ => id) ()
  rw [Dqs.clear, drained]
  exact holds'

end Contents

end Twan.Lib.Dq
