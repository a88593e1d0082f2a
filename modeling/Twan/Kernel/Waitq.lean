/-
# Twan.Kernel.Waitq -- wait queues that were initialised at run time

`src/kernel/sched/waitq.c`: `waitq_init` clears `sizeof(struct dq)` bytes of the priority queue in
a wait queue.  That is all of its tree record, and leaves it with a `max_path` of 0, where
`INITIALIZE_WAITQ` has `avl_tree_max_path(256)`.

A tree without a root is never descended, so the first task finds its place in both.  From then on
an insert finds no room in the path and no duplicate, and a removal writes past the path.
`waitq_init_agrees` says which calls are answered alike; `second_waiter` is two tasks that wait.
-/
import Twan.Lib.FlatPriorityq

namespace Twan.Kernel.Waitq

set_option autoImplicit false
set_option linter.dupNamespace false
set_option linter.unusedSectionVars false

open Twan.Base Twan.Lib Twan.Lib.AvlTree Twan.Lib.Listq
open Twan.Lib.FlatPriorityq (Rep Loose level without advance next)

/-- The fields of `task->metadata` that an insert reads. -/
structure Metadata where
  priority : BitVec 8
  realPriority : BitVec 8
  deriving DecidableEq

/-- `struct waitq` less its lock, with `metadata.waitq` of the tasks. -/
structure Waitq (W Task : Type) where
  flatPriorityq : FlatPriorityq.FlatPriorityq Task
  waitq : Task → Option W

variable {W Task : Type} [DecidableEq Task]

namespace Waitq

variable (s : Waitq W Task)

/-- `waitq_init`: the bytes it clears are the root and `max_path`. -/
def waitqInit : Waitq W Task :=
  { s with flatPriorityq.tree.root := none, flatPriorityq.tree.maxPath := 0 }

/-- `INITIALIZE_WAITQ`. -/
def initializeWaitq : Waitq W Task := { s with flatPriorityq := s.flatPriorityq.init }

/-- `__waitq_insert`. -/
def insert (self : W) (t : Task) (metadata : Metadata) (insertReal : Bool) :
    Option (Waitq W Task) :=
  (s.flatPriorityq.insert t (if insertReal then metadata.realPriority else metadata.priority)).map
    fun q => ⟨q, Function.update s.waitq t (some self)⟩

/-- `__waitq_popfront`. -/
def popfront [Fintype Task] : Option (Option Task × Waitq W Task) :=
  s.flatPriorityq.popfront.map fun (waiting, q) =>
    match waiting with
    | none => (none, { s with flatPriorityq := q })
    | some t => (some t, ⟨q, Function.update s.waitq t none⟩)

/-- `__waitq_dequeue_task`. -/
def dequeueTask (t : Task) : Option (Waitq W Task) :=
  (s.flatPriorityq.dequeue t).map fun q => ⟨q, Function.update s.waitq t none⟩

end Waitq

/-! ## Calls -/

/-- A call, with the metadata that the task has by then. -/
inductive Op (Task : Type) where
  | insert (t : Task) (metadata : Metadata) (insertReal : Bool)
  | popfront
  | dequeueTask (t : Task)
  deriving DecidableEq

/-- The call of the priority queue in it. -/
def Op.flat : Op Task → FlatPriorityq.Op Task
  | .insert t metadata insertReal =>
      .insert t (if insertReal then metadata.realPriority else metadata.priority)
  | .popfront => .popfront
  | .dequeueTask t => .dequeue t

variable [Fintype Task] (self : W)

/-- One call: the task it returns, which only `__waitq_popfront` does, and the queue. -/
def call (s : Waitq W Task) : Op Task → Option (Option Task × Waitq W Task)
  | .insert t metadata insertReal => (s.insert self t metadata insertReal).map fun s => (none, s)
  | .popfront => s.popfront
  | .dequeueTask t => (s.dequeueTask t).map fun s => (none, s)

/-- The results of a run, call by call; one that goes wrong is the last. -/
def results : Waitq W Task → List (Op Task) → List (Option (Option Task))
  | _, [] => []
  | s, op :: run =>
      match call self s op with
      | none => [none]
      | some (answer, s) => some answer :: results s run

/-- A call that does not need the path: an insert or a pop of an empty queue, or the removal of a
task that is not in the queue. -/
def Pathless (queue : List (Task × BitVec 8)) : FlatPriorityq.Op Task → Prop
  | .insert _ _ => queue = []
  | .popfront => queue = []
  | .dequeue t => t ∉ queue.map Prod.fst

instance (queue : List (Task × BitVec 8)) : ∀ op, Decidable (Pathless queue op)
  | .insert _ _ => inferInstanceAs (Decidable (queue = []))
  | .popfront => inferInstanceAs (Decidable (queue = []))
  | .dequeue t => inferInstanceAs (Decidable (t ∉ queue.map Prod.fst))

/-! ## With and without room in the path -/

section Room

variable {q : FlatPriorityq.FlatPriorityq Task} {queue : List (Task × BitVec 8)}
  {heads : List (Task × BitVec 32)} {t : Task}

/-- The queue without room in its path. -/
def cut (q : FlatPriorityq.FlatPriorityq Task) : FlatPriorityq.FlatPriorityq Task :=
  { q with tree.maxPath := 0 }

theorem empty_root (rep : Rep q [] heads) : q.tree.root = none := by
  have holds := rep.tree
  cases holds with
  | empty root => exact root
  | one root node =>
      have first := (rep.first _ _).mp List.mem_cons_self
      cases first
  | two apart above root low high =>
      have first := (rep.first _ _).mp List.mem_cons_self
      cases first

/-- The tree of a queue with one task. -/
theorem single_root {p : BitVec 8} (rep : Rep q [(t, p)] heads) :
    q.tree.root = some t ∧ q.tree.node t = TreeNode.single (p.setWidth 32) := by
  have only : ∀ m k, (m, k) ∈ heads → m = t ∧ k = p.setWidth 32 := by
    intro m k inside
    have member := List.mem_of_mem_head? ((rep.first m k).mp inside)
    obtain ⟨p', there, same⟩ := FlatPriorityq.mem_level.mp member
    obtain ⟨rfl, rfl⟩ : m = t ∧ p' = p := by simpa using there
    exact ⟨rfl, same.symm⟩
  have holds := rep.tree
  cases holds with
  | empty root =>
      obtain ⟨h, there⟩ := rep.exists_head (e := (t, p)) List.mem_cons_self
      cases there
  | one root node =>
      obtain ⟨rfl, rfl⟩ := only _ _ List.mem_cons_self
      exact ⟨root, node⟩
  | two apart above root low high =>
      have left := (only _ _ List.mem_cons_self).1
      have right := (only _ _ (List.mem_cons_of_mem _ List.mem_cons_self)).1
      exact absurd (left.trans right.symm) apart

/-- What is not in the queue leaves it as it is. -/
theorem dequeue_loose (null : q.listq t = Listq.null) (notQueued : q.tree.isQueued t = false) :
    FlatPriorityq.call q (.dequeue t) = some (none, q) := by
  have links : disconnect q.listq t = some (none, q.listq) := by
    have same : Function.update q.listq t Listq.null = q.listq := by
      rw [← null, Function.update_eq_self]
    simp only [disconnect, unlink, null]
    simp [Listq.null] at same ⊢
    exact same
  simp [FlatPriorityq.call, FlatPriorityq.FlatPriorityq.dequeue, links, notQueued]

theorem popfront_empty (root : q.tree.root = none) :
    FlatPriorityq.call q .popfront = some (none, q) := by
  simp [FlatPriorityq.call, FlatPriorityq.FlatPriorityq.popfront, AvlTree.findHighest, root]

theorem insert_empty {p : BitVec 8} (root : q.tree.root = none) :
    FlatPriorityq.call q (.insert t p) = some (none, { q with
      tree := (q.tree.setNode t (TreeNode.single (p.setWidth 32))).setRoot (some t) }) := by
  simp [FlatPriorityq.call, FlatPriorityq.FlatPriorityq.insert, AvlTree.insert, AvlTree.setNode, root]

/-- A call that does not need the path goes the same way without it. -/
theorem pathless_call (rep : Rep q queue heads) {op : FlatPriorityq.Op Task}
    (pathless : Pathless queue op) : ∃ answer q' heads',
    FlatPriorityq.call q op = some (answer, q') ∧
      FlatPriorityq.call (cut q) op = some (answer, cut q') ∧ Rep q' (next queue op) heads' := by
  cases op with
  | insert t p =>
      obtain rfl : queue = [] := pathless
      have root := empty_root rep
      have legal : FlatPriorityq.Legal [] (.insert t p) := by simp [FlatPriorityq.Legal]
      have kept : FlatPriorityq.KeysKept [] (.insert t p) := by simp [FlatPriorityq.KeysKept]
      obtain ⟨q', heads', called, rep'⟩ := rep.call legal kept
      refine ⟨none, q', heads', called, ?_, rep'⟩
      rw [insert_empty root] at called
      rw [← (Prod.mk.inj (Option.some.inj called)).2]
      exact insert_empty (q := cut q) root
  | popfront =>
      obtain rfl : queue = [] := pathless
      have root := empty_root rep
      exact ⟨none, q, heads, popfront_empty root, popfront_empty (q := cut q) root, rep⟩
  | dequeue t =>
      have null := rep.loose t pathless
      have notQueued : q.tree.isQueued t = false := by
        rw [rep.tree_isQueued]
        exact decide_eq_false fun there => pathless (rep.mem_of_head there)
      refine ⟨none, q, heads, dequeue_loose null notQueued, dequeue_loose (q := cut q) null notQueued, ?_⟩
      have same : without queue t = queue := by
        refine List.filter_eq_self.mpr fun e inside => ?_
        simpa using fun here : e.1 = t => pathless (List.mem_map.mpr ⟨e, inside, here⟩)
      rw [next, same]
      exact rep

/-- The removal of the task at the root writes past a path without room. -/
theorem dequeue_cut {p : BitVec 8} (rep : Rep q [(t, p)] heads) : (cut q).dequeue t = none := by
  obtain ⟨root, node⟩ := single_root rep
  have linked := rep.linked (p.setWidth 32)
  have alone : level [(t, p)] (p.setWidth 32) = [] ++ t :: [] := by simp [level]
  rw [alone] at linked
  obtain ⟨listq, disconnected, -⟩ := linked.disconnect
  have queued : q.tree.isQueued t = true := by simp [AvlTree.isQueued, root]
  have unreached : (cut q).tree.remove t = none := by
    simp [AvlTree.remove, cut, root, AvlTree.search]
  have same : (cut q).listq = q.listq := rfl
  have queued' : (cut q).tree.isQueued t = true := queued
  simp [FlatPriorityq.FlatPriorityq.dequeue, same, disconnected, queued', unreached]

/-- Any other call on a queue with one task goes wrong without room, and does not with it. -/
theorem other_call {p : BitVec 8} (rep : Rep q [(t, p)] heads) {op : FlatPriorityq.Op Task}
    (other : ¬ Pathless [(t, p)] op) : FlatPriorityq.call (cut q) op = none ∧
      ∃ answer q', FlatPriorityq.call q op = some (answer, q') := by
  obtain ⟨root, node⟩ := single_root rep
  cases op with
  | insert n p' =>
      constructor
      · have full : (cut q).tree.insert n (p'.setWidth 32) = some (false, none,
            (cut q).tree.setNode n (TreeNode.single (p'.setWidth 32))) := by
          simp [AvlTree.insert, cut, AvlTree.setNode, root, AvlTree.descend]
        simp [FlatPriorityq.call, FlatPriorityq.FlatPriorityq.insert, full]
      · have room : 1 ≤ q.tree.maxPath := by have := rep.room; omega
        obtain ⟨inserted, duplicate, tree, called, result⟩ := insert_beside (n := n)
          (k := p'.setWidth 32) root (by rw [node]; rfl) (by rw [node]; rfl) room
        cases inserted with
        | true => exact ⟨none, _, by simp [FlatPriorityq.call, FlatPriorityq.FlatPriorityq.insert, called]; rfl⟩
        | false =>
            obtain rfl : duplicate = some t := by simpa using result
            exact ⟨none, _, by simp [FlatPriorityq.call, FlatPriorityq.FlatPriorityq.insert, called]; rfl⟩
  | popfront =>
      constructor
      · have holds : Holds (cut q).tree heads := rep.tree.congr rfl fun _ _ => rfl
        have highest : (cut q).tree.findHighest = some (some t) := by
          rw [holds.findHighest, rep.front]
          rfl
        simp [FlatPriorityq.call, FlatPriorityq.FlatPriorityq.popfront, highest, dequeue_cut rep]
      · obtain ⟨q', heads', called, -⟩ := rep.popfront
        exact ⟨_, q', called⟩
  | dequeue n =>
      obtain rfl : n = t := by simpa [Pathless] using other
      constructor
      · simp [FlatPriorityq.call, dequeue_cut rep]
      · obtain ⟨q', heads', called, -⟩ := rep.dequeue (n := n) (by simp)
        exact ⟨none, q', by simp [FlatPriorityq.call, called]⟩

end Room

/-! ## Runs -/

section Runs

variable {s : Waitq W Task} {op : Op Task}

/-- `metadata.waitq` after a call. -/
def marks (waitq : Task → Option W) : Op Task → Option Task → Task → Option W
  | .insert t _ _, _ => Function.update waitq t (some self)
  | .popfront, none => waitq
  | .popfront, some t => Function.update waitq t none
  | .dequeueTask t, _ => Function.update waitq t none

/-- A call of the wait queue is one of its priority queue. -/
theorem call_eq : call self s op = (FlatPriorityq.call s.flatPriorityq op.flat).map
    fun (answer, q) => (answer, ⟨q, marks self s.waitq op answer⟩) := by
  cases op with
  | insert t metadata insertReal =>
      simp only [call, Waitq.insert, Op.flat, FlatPriorityq.call, Option.map_map]
      rfl
  | popfront =>
      simp only [call, Waitq.popfront, Op.flat, FlatPriorityq.call]
      congr 1
      funext pair
      obtain ⟨answer, q⟩ := pair
      cases answer <;> rfl
  | dequeueTask t =>
      simp only [call, Waitq.dequeueTask, Op.flat, FlatPriorityq.call, Option.map_map]
      rfl

theorem small_next {queue : List (Task × BitVec 8)} {op : FlatPriorityq.Op Task}
    (small : queue = [] ∨ ∃ e, queue = [e]) (pathless : Pathless queue op) :
    next queue op = [] ∨ ∃ e, next queue op = [e] := by
  cases op with
  | insert t p =>
      obtain rfl : queue = [] := pathless
      exact .inr ⟨(t, p), rfl⟩
  | popfront =>
      obtain rfl : queue = [] := pathless
      exact .inl rfl
  | dequeue t =>
      rcases small with rfl | ⟨e, rfl⟩
      · exact .inl rfl
      · have other : e.1 ≠ t := by simpa [Pathless, eq_comm] using pathless
        exact .inr ⟨e, by simp [next, without, other]⟩

/-- The results with and without room are the same as long as no call needs the path. -/
theorem results_cut {queue : List (Task × BitVec 8)} {heads : List (Task × BitVec 32)}
    (rep : Rep s.flatPriorityq queue heads) (small : queue = [] ∨ ∃ e, queue = [e])
    {run : List (Op Task)} :
    results self ⟨cut s.flatPriorityq, s.waitq⟩ run = results self s run ↔
      Along Pathless advance queue (run.map Op.flat) := by
  induction run generalizing s queue heads with
  | nil => exact iff_of_true rfl trivial
  | cons op run ih =>
      by_cases pathless : Pathless queue op.flat
      · obtain ⟨answer, q', heads', called, calledCut, rep'⟩ := pathless_call rep pathless
        have here : call self s op = some (answer, ⟨q', marks self s.waitq op answer⟩) := by
          rw [call_eq, called]
          rfl
        have hereCut : call self ⟨cut s.flatPriorityq, s.waitq⟩ op =
            some (answer, ⟨cut q', marks self s.waitq op answer⟩) := by
          rw [call_eq, calledCut]
          rfl
        have small' : next queue op.flat = [] ∨ ∃ e, next queue op.flat = [e] :=
          small_next small pathless
        have rest := ih (s := ⟨q', marks self s.waitq op answer⟩) rep' small'
        rw [results, results, here, hereCut]
        simp only [List.cons.injEq, true_and, rest]
        constructor
        · intro later
          exact .cons pathless rfl later
        · intro all
          exact all.2 _ rfl
      · obtain ⟨e, rfl⟩ : ∃ e, queue = [e] := by
          refine small.resolve_left fun none => pathless ?_
          subst none
          cases op <;> simp [Pathless, Op.flat]
        obtain ⟨wrong, answer, q', called⟩ := other_call rep pathless
        have here : call self s op = some (answer, ⟨q', marks self s.waitq op answer⟩) := by
          rw [call_eq, called]
          rfl
        have hereCut : call self ⟨cut s.flatPriorityq, s.waitq⟩ op = none := by
          rw [call_eq, wrong]
          rfl
        refine iff_of_false ?_ fun all => pathless all.1
        rw [results, results, here, hereCut]
        simp

/-- **A wait queue from `waitq_init` answers like one from `INITIALIZE_WAITQ` in exactly the runs
whose calls do not need the path.** -/
theorem waitq_init_agrees (s : Waitq W Task) (loose : Loose s.flatPriorityq) (run : List (Op Task)) :
    results self s.waitqInit run = results self s.initializeWaitq run ↔
      Along Pathless advance [] (run.map Op.flat) := by
  have same : s.waitqInit = ⟨cut s.initializeWaitq.flatPriorityq, s.initializeWaitq.waitq⟩ := rfl
  rw [same]
  exact results_cut self (FlatPriorityq.rep_init loose) (.inl rfl)

end Runs

/-! ## A run of each kind -/

def zeroed : Waitq Unit (Fin 2) := ⟨FlatPriorityq.zeroed (Fin 2), fun _ => none⟩

/-- A pop of the empty queue and one task that waits. -/
def oneWaiter : List (Op (Fin 2)) := [.popfront, .insert 0 ⟨3#8, 3#8⟩ false, .dequeueTask 1]

theorem waitq_init_agrees_one_waiter :
    results () zeroed.waitqInit oneWaiter = results () zeroed.initializeWaitq oneWaiter :=
  have pathless : Along Pathless advance [] (oneWaiter.map Op.flat) := by decide +kernel
  (waitq_init_agrees () zeroed FlatPriorityq.zeroed_loose oneWaiter).mpr pathless

/-- **The second waiter finds no room, and the first one cannot be woken.** -/
theorem second_waiter :
    results () zeroed.waitqInit [.insert 0 ⟨3#8, 3#8⟩ false, .insert 1 ⟨3#8, 3#8⟩ false] =
        [some none, none] ∧
      results () zeroed.initializeWaitq [.insert 0 ⟨3#8, 3#8⟩ false, .insert 1 ⟨3#8, 3#8⟩ false] =
        [some none, some none] ∧
      results () zeroed.waitqInit [.insert 0 ⟨3#8, 3#8⟩ false, .popfront] = [some none, none] ∧
      results () zeroed.initializeWaitq [.insert 0 ⟨3#8, 3#8⟩ false, .popfront] =
        [some none, some (some 0)] := by
  decide +kernel

end Twan.Kernel.Waitq
