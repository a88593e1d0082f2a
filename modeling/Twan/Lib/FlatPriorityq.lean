/-
# Twan.Lib.FlatPriorityq -- the priority queue of the wait queues

`include/lib/dsa/flat_priorityq.h`: an AVL tree with one node for each priority that is queued; the
other nodes of a priority wait in a list behind it, and the next of them takes its place in the
tree when it leaves.

The abstract queue is the list of its nodes with their priorities in the order they came
(`Twan.Base.PriorityFifo`).  `serve` is what such a queue answers and `next` what is left of it.
-/
import Twan.Lib.AvlTree
import Twan.Lib.Listq
import Twan.Base.PriorityFifo
import Twan.Base.Run
import Mathlib.Data.List.Perm.Basic
import Mathlib.Data.List.ReduceOption

namespace Twan.Lib.FlatPriorityq

set_option autoImplicit false
set_option linter.dupNamespace false
set_option linter.unusedSectionVars false

open Twan.Base Twan.Lib.AvlTree Twan.Lib.Listq

/-- `struct flat_priorityq`, and the nodes: `tree_node` of each is in the tree, `listq` here. -/
structure FlatPriorityq (Node : Type) where
  tree : AvlTree Node
  listq : Node → Listq Node

namespace FlatPriorityq

variable {Node : Type} [DecidableEq Node] (s : FlatPriorityq Node)

/-- `flat_priorityq_init`, and `INITIALIZE_FLAT_PRIORITYQ`, which leave the nodes alone. -/
def init : FlatPriorityq Node :=
  { s with tree := { s.tree with root := none, maxPath := avlTreeMaxPath 256#32 } }

/-- `flat_priorityq_insert`.  `none` where the code goes through a NULL pointer, as it does when
`avl_insert` fails without a duplicate. -/
def insert (n : Node) (priority : BitVec 8) : Option (FlatPriorityq Node) := do
  let (inserted, duplicate, tree) ← s.tree.insert n (priority.setWidth 32)
  if inserted then some { s with tree := tree }
  else
    let duplicate ← duplicate
    some ⟨tree, pushback s.listq duplicate n⟩

/-- `flat_priorityq_dequeue`. -/
def dequeue (n : Node) : Option (FlatPriorityq Node) := do
  let (next, listq) ← disconnect s.listq n
  if s.tree.isQueued n then
    match next with
    | none =>
        let (_, tree) ← s.tree.remove n
        some ⟨tree, listq⟩
    | some next => some ⟨s.tree.replace n next, listq⟩
  else some { s with listq := listq }

/-- `flat_priorityq_popfront`: the node, if there is one, and the queue. -/
def popfront [Fintype Node] : Option (Option Node × FlatPriorityq Node) := do
  match ← s.tree.findHighest with
  | none => some (none, s)
  | some n =>
      let s ← s.dequeue n
      some (some n, s)

/-- `flat_priorityq_is_queued`. -/
def isQueued (n : Node) : Bool := s.tree.isQueued n || (s.listq n).prev.isSome

end FlatPriorityq

/-! ## Calls -/

variable {Node : Type}

/-- A call. -/
inductive Op (Node : Type) where
  | insert (n : Node) (priority : BitVec 8)
  | popfront
  | dequeue (n : Node)
  deriving DecidableEq

section Calls

variable [DecidableEq Node] [Fintype Node]

/-- One call: the node it returns, which only `popfront` does, and the queue. -/
def call (s : FlatPriorityq Node) : Op Node → Option (Option Node × FlatPriorityq Node)
  | .insert n priority => (s.insert n priority).map fun s => (none, s)
  | .popfront => s.popfront
  | .dequeue n => (s.dequeue n).map fun s => (none, s)

/-- The calls of a run: what each returns, and the queue. -/
def calls : FlatPriorityq Node → List (Op Node) → Option (List (Option Node) × FlatPriorityq Node)
  | s, [] => some ([], s)
  | s, op :: run =>
      (call s op).bind fun (answer, s) => (calls s run).map fun (answers, s) => (answer :: answers, s)

end Calls

/-! ## The abstract queue -/

section Abstract

variable [DecidableEq Node]

/-- What the call returns. -/
def answer (queue : List (Node × BitVec 8)) : Op Node → Option Node
  | .popfront => (PriorityFifo.front (fun e => e.2.toNat) queue).map Prod.fst
  | _ => none

/-- The queue without this node. -/
def without (queue : List (Node × BitVec 8)) (n : Node) : List (Node × BitVec 8) :=
  queue.filter fun e => e.1 ≠ n

/-- The queue after the call. -/
def next (queue : List (Node × BitVec 8)) : Op Node → List (Node × BitVec 8)
  | .insert n priority => queue ++ [(n, priority)]
  | .popfront =>
      match answer queue .popfront with
      | none => queue
      | some n => without queue n
  | .dequeue n => without queue n

/-- What a run returns. -/
def answers : List (Node × BitVec 8) → List (Op Node) → List (Option Node)
  | _, [] => []
  | queue, op :: run => answer queue op :: answers (next queue op) run

/-- The queue after a run. -/
def after (queue : List (Node × BitVec 8)) (run : List (Op Node)) : List (Node × BitVec 8) :=
  run.foldl next queue

/-- What the callers owe: a node that is inserted is not queued, one that is dequeued is. -/
def Legal (queue : List (Node × BitVec 8)) : Op Node → Prop
  | .insert n _ => n ∉ queue.map Prod.fst
  | .popfront => True
  | .dequeue n => n ∈ queue.map Prod.fst

/-- An insert of a priority that is queued already, or beside nodes of priority 0 only. -/
def KeysKept (queue : List (Node × BitVec 8)) : Op Node → Prop
  | .insert _ priority => priority ∈ queue.map Prod.snd ∨ ∀ e ∈ queue, e.2 = 0#8
  | _ => True

instance (queue : List (Node × BitVec 8)) : ∀ op, Decidable (Legal queue op)
  | .insert n _ => inferInstanceAs (Decidable (n ∉ queue.map Prod.fst))
  | .popfront => isTrue trivial
  | .dequeue n => inferInstanceAs (Decidable (n ∈ queue.map Prod.fst))

instance (queue : List (Node × BitVec 8)) : ∀ op, Decidable (KeysKept queue op)
  | .insert _ priority =>
      inferInstanceAs (Decidable (priority ∈ queue.map Prod.snd ∨ ∀ e ∈ queue, e.2 = 0#8))
  | .popfront => isTrue trivial
  | .dequeue _ => isTrue trivial

/-- A call of the abstract queue always applies. -/
def advance (queue : List (Node × BitVec 8)) (op : Op Node) : Option (List (Node × BitVec 8)) :=
  some (next queue op)

/-- The nodes that a run inserts. -/
def inserted (run : List (Op Node)) : List Node :=
  run.filterMap fun op => match op with
    | .insert n _ => some n
    | _ => none

/-- The nodes that a run dequeues. -/
def dequeued (run : List (Op Node)) : List Node :=
  run.filterMap fun op => match op with
    | .dequeue n => some n
    | _ => none

end Abstract

/-! ## The nodes of a priority -/

section Level

/-- The nodes of this key, in the order they came. -/
def level (queue : List (Node × BitVec 8)) (k : BitVec 32) : List Node :=
  (queue.filter fun e => e.2.setWidth 32 = k).map Prod.fst

variable {queue : List (Node × BitVec 8)} {n : Node} {priority : BitVec 8} {k : BitVec 32}

theorem key_inj {p p' : BitVec 8} (same : p.setWidth 32 = p'.setWidth 32) : p = p' := by
  have nats := congrArg BitVec.toNat same
  simp only [BitVec.toNat_setWidth] at nats
  apply BitVec.eq_of_toNat_eq
  have left := p.isLt
  have right := p'.isLt
  omega

theorem mem_level : n ∈ level queue k ↔ ∃ p : BitVec 8, (n, p) ∈ queue ∧ p.setWidth 32 = k := by
  simp [level]

theorem mem_of_mem_level (inside : n ∈ level queue k) : n ∈ queue.map Prod.fst := by
  obtain ⟨p, there, -⟩ := mem_level.mp inside
  exact List.mem_map.mpr ⟨(n, p), there, rfl⟩

theorem level_insert : level (queue ++ [(n, priority)]) k =
    if priority.setWidth 32 = k then level queue k ++ [n] else level queue k := by
  by_cases same : priority.setWidth 32 = k
  · simp [level, same]
  · simp [level, same]

theorem level_eq_nil : level queue k = [] ↔ ∀ e ∈ queue, e.2.setWidth 32 ≠ k := by
  simp [level]

/-- A node has one priority. -/
theorem key_unique (nodup : (queue.map Prod.fst).Nodup) {k' : BitVec 32} (here : n ∈ level queue k)
    (there : n ∈ level queue k') : k = k' := by
  obtain ⟨p, left, rfl⟩ := mem_level.mp here
  obtain ⟨p', right, rfl⟩ := mem_level.mp there
  have same := List.inj_on_of_nodup_map nodup left right rfl
  rw [(Prod.mk.inj same).2]

theorem exists_level (inside : n ∈ queue.map Prod.fst) : ∃ k, n ∈ level queue k := by
  obtain ⟨e, there, rfl⟩ := List.mem_map.mp inside
  exact ⟨e.2.setWidth 32, mem_level.mpr ⟨e.2, there, rfl⟩⟩

variable [DecidableEq Node]

theorem level_without : level (without queue n) k = (level queue k).filter fun m => m ≠ n := by
  simp only [level, without, List.filter_map, List.filter_filter]
  congr 1
  apply List.filter_congr
  intro e _
  simp [Bool.and_comm]

theorem map_without : (without queue n).map Prod.fst = (queue.map Prod.fst).filter fun m => m ≠ n := by
  simp only [without, List.filter_map]
  rfl

end Level

/-! ## The queue as it is linked -/

/-- The nodes of each priority are one list, whose first node is in the tree. -/
structure Rep [DecidableEq Node] (s : FlatPriorityq Node) (queue : List (Node × BitVec 8))
    (heads : List (Node × BitVec 32)) : Prop where
  room : 2 ≤ s.tree.maxPath
  nodup : (queue.map Prod.fst).Nodup
  tree : Holds s.tree heads
  first : ∀ n k, (n, k) ∈ heads ↔ (level queue k).head? = some n
  parents : ∀ n ∉ heads.map Prod.fst, (s.tree.node n).parent = none
  linked : ∀ k, Linked s.listq (level queue k)
  loose : ∀ n ∉ queue.map Prod.fst, s.listq n = Listq.null

section Rep

variable [DecidableEq Node] {s : FlatPriorityq Node} {queue : List (Node × BitVec 8)}
  {heads : List (Node × BitVec 32)} {n : Node}

theorem Rep.mem_of_head (rep : Rep s queue heads) (inside : n ∈ heads.map Prod.fst) :
    n ∈ queue.map Prod.fst := by
  obtain ⟨⟨m, k⟩, there, rfl⟩ := List.mem_map.mp inside
  exact mem_of_mem_level (List.mem_of_mem_head? ((rep.first m k).mp there))

/-- The tree tells the first node of a priority from the others. -/
theorem Rep.tree_isQueued (rep : Rep s queue heads) :
    s.tree.isQueued n = decide (n ∈ heads.map Prod.fst) :=
  rep.tree.isQueued (rep.parents n)

theorem Rep.head_iff (rep : Rep s queue heads) {k : BitVec 32} (inside : n ∈ level queue k) :
    n ∈ heads.map Prod.fst ↔ (level queue k).head? = some n := by
  constructor
  · intro there
    obtain ⟨⟨m, k'⟩, found, rfl⟩ := List.mem_map.mp there
    have first := (rep.first m k').mp found
    rw [key_unique rep.nodup inside (List.mem_of_mem_head? first)]
    exact first
  · intro first
    exact List.mem_map.mpr ⟨(n, k), (rep.first n k).mpr first, rfl⟩

/-- `flat_priorityq_is_queued` answers for the abstract queue. -/
theorem Rep.isQueued (rep : Rep s queue heads) : s.isQueued n = decide (n ∈ queue.map Prod.fst) := by
  by_cases inside : n ∈ queue.map Prod.fst
  · obtain ⟨k, inside'⟩ := exists_level inside
    obtain ⟨a, b, here⟩ := List.append_of_mem inside'
    have linked := rep.linked k
    rw [here] at linked
    have prev : (s.listq n).prev = a.getLast? := by rw [linked.links]
    rw [FlatPriorityq.isQueued, rep.tree_isQueued, prev]
    rcases List.eq_nil_or_concat a with rfl | ⟨a, p, rfl⟩
    · have first : n ∈ heads.map Prod.fst := (rep.head_iff inside').mpr (by rw [here]; rfl)
      rw [decide_eq_true first, decide_eq_true inside]
      rfl
    · rw [decide_eq_true inside]
      simp
  · have notHead : n ∉ heads.map Prod.fst := fun there => inside (rep.mem_of_head there)
    rw [FlatPriorityq.isQueued, rep.tree_isQueued, rep.loose n inside, decide_eq_false inside,
      decide_eq_false notHead]
    rfl

/-! ### Inserts -/

theorem Rep.exists_head (rep : Rep s queue heads) {e : Node × BitVec 8} (inside : e ∈ queue) :
    ∃ h, (h, e.2.setWidth 32) ∈ heads := by
  have there : e.1 ∈ level queue (e.2.setWidth 32) := mem_level.mpr ⟨e.2, inside, rfl⟩
  obtain ⟨h, rest, here⟩ := List.exists_cons_of_ne_nil (List.ne_nil_of_mem there)
  exact ⟨h, (rep.first h _).mpr (by rw [here]; rfl)⟩

theorem nodup_insert {priority : BitVec 8} (nodup : (queue.map Prod.fst).Nodup)
    (outside : n ∉ queue.map Prod.fst) : ((queue ++ [(n, priority)]).map Prod.fst).Nodup := by
  rw [List.map_append]
  refine List.nodup_append.mpr ⟨nodup, List.nodup_singleton n, ?_⟩
  intro m inside k single e
  obtain rfl : k = n := List.mem_singleton.mp single
  exact outside (e ▸ inside)

theorem not_mem_insert {priority : BitVec 8} {m : Node}
    (outside : m ∉ (queue ++ [(n, priority)]).map Prod.fst) : m ∉ queue.map Prod.fst ∧ m ≠ n := by
  rw [List.map_append, List.mem_append, not_or] at outside
  exact ⟨outside.1, by simpa using outside.2⟩

/-- A priority that is queued gets one more node at its end. -/
theorem Rep.insert_duplicate (rep : Rep s queue heads) {priority : BitVec 8}
    (outside : n ∉ queue.map Prod.fst) (queued : priority ∈ queue.map Prod.snd) :
    ∃ s', s.insert n priority = some s' ∧ Rep s' (queue ++ [(n, priority)]) heads := by
  have notHead : n ∉ heads.map Prod.fst := fun there => outside (rep.mem_of_head there)
  obtain ⟨h, rest, here⟩ : ∃ h rest, level queue (priority.setWidth 32) = h :: rest := by
    obtain ⟨e, there, same⟩ := List.mem_map.mp queued
    apply List.exists_cons_of_ne_nil
    intro none
    exact level_eq_nil.mp none e there (by rw [same])
  obtain ⟨inserted, kept⟩ := rep.tree.insert_duplicate rep.room
    ((rep.first h _).mpr (by rw [here]; rfl)) notHead
  have linked := rep.linked (priority.setWidth 32)
  have away : ∀ k, n ∉ level queue k := fun k inside => outside (mem_of_mem_level inside)
  have notLevel := away (priority.setWidth 32)
  rw [here] at linked notLevel
  refine ⟨⟨s.tree.setNode n (TreeNode.single (priority.setWidth 32)), pushback s.listq h n⟩, ?_, ?_⟩
  · simp [FlatPriorityq.insert, inserted]
  · refine ⟨rep.room, nodup_insert rep.nodup outside, kept, ?_, ?_, ?_, ?_⟩
    · intro m k
      rw [rep.first m k, level_insert]
      split_ifs with same
      · rw [← same, here]
        rfl
      · rfl
    · intro m notIn
      by_cases new : m = n
      · subst new
        simp [AvlTree.setNode, TreeNode.single]
      · rw [← rep.parents m notIn]
        simp [AvlTree.setNode, new]
    · intro k
      rw [level_insert]
      split_ifs with same
      · rw [← same, here]
        exact linked.pushback notLevel
      · refine (rep.linked k).congr fun m inside => linked.pushback_frame notLevel ?_ ?_
        · exact fun e => away k (e ▸ inside)
        · intro there
          rw [← here] at there
          exact same (key_unique rep.nodup there inside)
    · intro m notIn
      obtain ⟨notQueued, other⟩ := not_mem_insert notIn
      have notThere : m ∉ h :: rest := fun there => notQueued (mem_of_mem_level (here ▸ there))
      exact (linked.pushback_frame notLevel other notThere).trans (rep.loose m notQueued)

/-- A priority that is not queued gets its node into the tree. -/
theorem Rep.grow (rep : Rep s queue heads) {priority : BitVec 8} {tree : AvlTree Node}
    (outside : n ∉ queue.map Prod.fst) (new : level queue (priority.setWidth 32) = [])
    (holds : Holds tree (heads ++ [(n, priority.setWidth 32)])) (room : tree.maxPath = s.tree.maxPath)
    (frame : ∀ m ∉ heads.map Prod.fst, m ≠ n → tree.node m = s.tree.node m) :
    Rep { s with tree := tree } (queue ++ [(n, priority)])
      (heads ++ [(n, priority.setWidth 32)]) := by
  refine ⟨room ▸ rep.room, nodup_insert rep.nodup outside, holds, ?_, ?_, ?_, ?_⟩
  · intro m k
    rw [level_insert, List.mem_append, rep.first m k]
    split_ifs with same
    · subst same
      simp [new, eq_comm]
    · have other : k ≠ priority.setWidth 32 := fun e => same e.symm
      simp [other]
  · intro m notIn
    obtain ⟨notHead, other⟩ : m ∉ heads.map Prod.fst ∧ m ≠ n := by
      rw [List.map_append, List.mem_append, not_or] at notIn
      exact ⟨notIn.1, by simpa using notIn.2⟩
    exact (congrArg TreeNode.parent (frame m notHead other)).trans (rep.parents m notHead)
  · intro k
    rw [level_insert]
    split_ifs with same
    · rw [← same, new]
      exact linked_singleton (rep.loose n outside)
    · exact rep.linked k
  · intro m notIn
    exact rep.loose m (not_mem_insert notIn).1

/-- Beside nodes of priority 0 a new priority finds room in the tree. -/
theorem Rep.insert_new (rep : Rep s queue heads) {priority : BitVec 8}
    (outside : n ∉ queue.map Prod.fst) (new : priority ∉ queue.map Prod.snd)
    (zero : ∀ e ∈ queue, e.2 = 0#8) :
    ∃ s' heads', s.insert n priority = some s' ∧ Rep s' (queue ++ [(n, priority)]) heads' := by
  have absent : level queue (priority.setWidth 32) = [] := by
    refine level_eq_nil.mpr fun e inside same => new ?_
    exact List.mem_map.mpr ⟨e, inside, key_inj same⟩
  have low : ∀ m k, (m, k) ∈ heads → k = 0#32 ∧ m ∈ queue.map Prod.fst := by
    intro m k inside
    have there := List.mem_of_mem_head? ((rep.first m k).mp inside)
    obtain ⟨p, queued, rfl⟩ := mem_level.mp there
    obtain rfl : p = 0#8 := zero (m, p) queued
    exact ⟨rfl, mem_of_mem_level there⟩
  have tree := rep.tree
  cases tree with
  | empty root =>
      obtain ⟨tree, inserted, holds, room, frame⟩ :=
        rep.tree.insert_first (n := n) (k := priority.setWidth 32)
      refine ⟨{ s with tree := tree }, [] ++ [(n, priority.setWidth 32)],
        by simp [FlatPriorityq.insert, inserted], ?_⟩
      exact rep.grow outside absent holds room fun m _ other => frame m other
  | @one z k root node =>
      obtain ⟨rfl, queued⟩ := low z k List.mem_cons_self
      have apart : z ≠ n := fun e => outside (e ▸ queued)
      have above : 0#32 < priority.setWidth 32 := by
        refine BitVec.lt_def.mpr (Nat.pos_of_ne_zero fun none => ?_)
        have e : priority.setWidth 32 = 0#32 := BitVec.eq_of_toNat_eq none
        have first := (rep.first z 0#32).mp List.mem_cons_self
        rw [← e, absent] at first
        cases first
      obtain ⟨tree, inserted, holds, room, frame⟩ :=
        rep.tree.insert_second (by have := rep.room; omega) above apart
      refine ⟨{ s with tree := tree }, [(z, 0#32)] ++ [(n, priority.setWidth 32)],
        by simp [FlatPriorityq.insert, inserted], ?_⟩
      exact rep.grow outside absent holds room fun m away other => frame m other (by simpa using away)
  | @two z m k apart above root low' high =>
      obtain ⟨rfl, -⟩ := low m k (by simp)
      exact absurd above (by decide)

/-- **Any other insert costs a queued node its key.** -/
theorem Rep.insert_costs (rep : Rep s queue heads) {priority : BitVec 8} {s' : FlatPriorityq Node}
    (outside : n ∉ queue.map Prod.fst) (lost : ¬ KeysKept queue (.insert n priority))
    (inserted : s.insert n priority = some s') :
    ∃ h k, (h, k) ∈ heads ∧ 0#32 < k ∧ s'.tree.key h = 0#32 := by
  obtain ⟨new, nonzero⟩ := not_or.mp lost
  obtain ⟨e, there, notZero⟩ : ∃ e ∈ queue, e.2 ≠ 0#8 := by simpa using nonzero
  obtain ⟨h, queued⟩ := rep.exists_head there
  have above : 0#32 < e.2.setWidth 32 := by
    refine BitVec.lt_def.mpr (Nat.pos_of_ne_zero fun none => notZero ?_)
    have same : e.2.setWidth 32 = (0#8).setWidth 32 := BitVec.eq_of_toNat_eq none
    exact key_inj same
  have newKey : priority.setWidth 32 ∉ heads.map Prod.snd := by
    intro inside
    obtain ⟨⟨m, k⟩, found, same⟩ := List.mem_map.mp inside
    have member := List.mem_of_mem_head? ((rep.first m k).mp found)
    obtain ⟨p, old, key⟩ := mem_level.mp member
    have e : p = priority := key_inj (key.trans same)
    exact new (List.mem_map.mpr ⟨(m, p), old, e⟩)
  obtain ⟨⟨done, duplicate, tree⟩, called, result⟩ := Option.bind_eq_some_iff.mp inserted
  have notHead : n ∉ heads.map Prod.fst := fun there => outside (rep.mem_of_head there)
  have gone := rep.tree.insert_costs rep.room queued above newKey notHead called
  refine ⟨h, _, queued, above, ?_⟩
  cases done with
  | true =>
      rw [← Option.some.inj result]
      exact gone
  | false =>
      obtain ⟨d, -, result⟩ := Option.bind_eq_some_iff.mp result
      rw [← Option.some.inj result]
      exact gone

/-! ### A node leaves -/

variable {k : BitVec 32} {a b : List Node}

theorem Rep.level_without (rep : Rep s queue heads) (here : level queue k = a ++ n :: b)
    (k' : BitVec 32) : level (without queue n) k' = if k' = k then a ++ b else level queue k' := by
  rw [FlatPriorityq.level_without]
  have inside : n ∈ level queue k := by simp [here]
  split_ifs with same
  · subst same
    have linked := rep.linked k'
    rw [here] at linked
    have away := linked.not_mem
    rw [List.mem_append, not_or] at away
    have keepA : (a.filter fun m => m ≠ n) = a :=
      List.filter_eq_self.mpr fun m there => by simpa using fun e : m = n => away.1 (e ▸ there)
    have keepB : (b.filter fun m => m ≠ n) = b :=
      List.filter_eq_self.mpr fun m there => by simpa using fun e : m = n => away.2 (e ▸ there)
    rw [here, List.filter_append, List.filter_cons_of_neg (by simp), keepA, keepB]
  · refine List.filter_eq_self.mpr fun m there => ?_
    simpa using fun e : m = n => same (key_unique rep.nodup (e ▸ there) inside)

/-- What is left once the tree has made up for the node. -/
theorem Rep.shrink (rep : Rep s queue heads) (here : level queue k = a ++ n :: b)
    {tree : AvlTree Node} {heads' : List (Node × BitVec 32)} {listq : Node → Listq Node}
    (gone : Linked listq (a ++ b) ∧ listq n = Listq.null ∧ ∀ m ∉ a ++ n :: b, listq m = s.listq m)
    (holds : Holds tree heads') (room : tree.maxPath = s.tree.maxPath)
    (first : ∀ m k', (m, k') ∈ heads' ↔ (if k' = k then a ++ b else level queue k').head? = some m)
    (parents : ∀ m ∉ heads'.map Prod.fst, (tree.node m).parent = none) :
    Rep ⟨tree, listq⟩ (without queue n) heads' := by
  obtain ⟨linked, null, frame⟩ := gone
  refine ⟨room ▸ rep.room, ?_, holds, ?_, parents, ?_, ?_⟩
  · rw [map_without]
    exact rep.nodup.filter _
  · intro m k'
    rw [rep.level_without here k']
    exact first m k'
  · intro k'
    rw [rep.level_without here k']
    split_ifs with same
    · exact linked
    · refine (rep.linked k').congr fun m inside => frame m fun there => ?_
      rw [← here] at there
      exact same (key_unique rep.nodup inside there)
  · intro m outside
    rw [map_without] at outside
    by_cases same : m = n
    · rw [same]
      exact null
    · have away : m ∉ queue.map Prod.fst := fun inside =>
        outside (List.mem_filter.mpr ⟨inside, by simpa using same⟩)
      have notHere : m ∉ a ++ n :: b := fun there => away (mem_of_mem_level (here ▸ there))
      exact (frame m notHere).trans (rep.loose m away)

/-- A priority whose only node leaves has no node in the tree any more. -/
theorem Rep.first_remove (rep : Rep s queue heads) (here : level queue k = [n]) (m : Node)
    (k' : BitVec 32) : ((m, k') ∈ heads.filter fun e => e.1 ≠ n) ↔
      (if k' = k then [] else level queue k').head? = some m := by
  have inside : n ∈ level queue k := by simp [here]
  rw [List.mem_filter, rep.first m k']
  split_ifs with same
  · subst same
    refine iff_of_false (fun both => ?_) (by simp)
    rw [here] at both
    obtain rfl : n = m := Option.some.inj both.1
    simp at both
  · refine and_iff_left_of_imp fun first => ?_
    simpa using fun e : m = n =>
      same (key_unique rep.nodup (List.mem_of_mem_head? first) (e ▸ inside))

/-- The next node of the priority is in the tree in its place. -/
theorem Rep.first_replace (rep : Rep s queue heads) {x : Node} (here : level queue k = n :: x :: b)
    (m : Node) (k' : BitVec 32) : ((m, k') ∈ heads.map fun e => if e.1 = n then (x, e.2) else e) ↔
      (if k' = k then x :: b else level queue k').head? = some m := by
  have inside : n ∈ level queue k := by simp [here]
  have only : ∀ j, (n, j) ∈ heads ↔ j = k := by
    intro j
    rw [rep.first n j]
    constructor
    · intro first
      exact key_unique rep.nodup (List.mem_of_mem_head? first) inside
    · intro e
      rw [e, here]
      rfl
  constructor
  · intro there
    obtain ⟨⟨j, i⟩, found, moved⟩ := List.mem_map.mp there
    by_cases same : j = n
    · subst same
      obtain rfl : i = k := (only i).mp found
      obtain ⟨rfl, rfl⟩ : x = m ∧ i = k' := by simpa using moved
      simp
    · obtain ⟨rfl, rfl⟩ : j = m ∧ i = k' := by simpa [same] using moved
      have first := (rep.first j i).mp found
      by_cases level : i = k
      · subst level
        rw [here] at first
        exact absurd (Option.some.inj first).symm same
      · rw [if_neg level]
        exact first
  · intro first
    by_cases level : k' = k
    · subst level
      obtain rfl : x = m := by simpa using first
      exact List.mem_map.mpr ⟨(n, k'), (only k').mpr rfl, by simp⟩
    · rw [if_neg level] at first
      have other : m ≠ n := fun e =>
        level (key_unique rep.nodup (List.mem_of_mem_head? first) (e ▸ inside))
      exact List.mem_map.mpr ⟨(m, k'), (rep.first m k').mpr first, by simp [other]⟩

/-- **`flat_priorityq_dequeue` takes out exactly its node.** -/
theorem Rep.dequeue (rep : Rep s queue heads) (inside : n ∈ queue.map Prod.fst) :
    ∃ s' heads', s.dequeue n = some s' ∧ Rep s' (without queue n) heads' := by
  obtain ⟨k, member⟩ := exists_level inside
  obtain ⟨a, b, here⟩ := List.append_of_mem member
  have linked := rep.linked k
  rw [here] at linked
  obtain ⟨listq, disconnected, gone⟩ := linked.disconnect
  cases a with
  | nil =>
      have first : (n, k) ∈ heads := (rep.first n k).mpr (by rw [here]; rfl)
      have queued : s.tree.isQueued n = true := by
        rw [rep.tree_isQueued]
        exact decide_eq_true (List.mem_map.mpr ⟨_, first, rfl⟩)
      cases b with
      | nil =>
          obtain ⟨tree, removed, holds, room, null, frame⟩ := rep.tree.remove rep.room first
          refine ⟨⟨tree, listq⟩, _, ?_, rep.shrink here gone holds room (rep.first_remove here) ?_⟩
          · simp [FlatPriorityq.dequeue, disconnected, queued, removed]
          · intro m outside
            by_cases same : m = n
            · rw [same, null]
              rfl
            · have away : m ∉ heads.map Prod.fst := by
                intro there
                obtain ⟨e, found, rfl⟩ := List.mem_map.mp there
                exact outside (List.mem_map.mpr ⟨e, List.mem_filter.mpr ⟨found, by simpa using same⟩, rfl⟩)
              rw [frame m away]
              exact rep.parents m away
      | cons x b =>
          have notHead : x ∉ heads.map Prod.fst := by
            intro there
            have second : (level queue k).head? = some x :=
              (rep.head_iff (by simp [here])).mp there
            have notIn := linked.not_mem
            rw [here] at second
            obtain rfl : n = x := Option.some.inj second
            simp at notIn
          obtain ⟨holds, room, null, frame⟩ := rep.tree.replace first notHead
          refine ⟨⟨s.tree.replace n x, listq⟩, _, ?_,
            rep.shrink here gone holds room (rep.first_replace here) ?_⟩
          · simp [FlatPriorityq.dequeue, disconnected, queued]
          · intro m outside
            by_cases same : m = n
            · rw [same, null]
              rfl
            · have away : m ∉ heads.map Prod.fst := by
                intro there
                obtain ⟨e, found, rfl⟩ := List.mem_map.mp there
                exact outside (List.mem_map.mpr ⟨e, List.mem_map.mpr ⟨e, found, by simp [same]⟩, rfl⟩)
              have notNew : m ≠ x := by
                intro e
                exact outside (List.mem_map.mpr ⟨(x, k), List.mem_map.mpr ⟨(n, k), first, by simp⟩, e.symm⟩)
              rw [frame m away notNew]
              exact rep.parents m away
  | cons h a =>
      have notFirst : s.tree.isQueued n = false := by
        rw [rep.tree_isQueued]
        refine decide_eq_false fun there => ?_
        have first := (rep.head_iff member).mp there
        have notIn := linked.not_mem
        rw [here] at first
        obtain rfl : h = n := Option.some.inj first
        simp at notIn
      refine ⟨⟨s.tree, listq⟩, heads, ?_, rep.shrink here gone rep.tree rfl ?_ rep.parents⟩
      · simp [FlatPriorityq.dequeue, disconnected, notFirst]
      · intro m k'
        rw [rep.first m k']
        split_ifs with same
        · rw [same, here]
          rfl
        · rfl

/-! ### The front -/

variable [Fintype Node]

/-- The last node of the tree is the one to be served. -/
theorem Rep.front (rep : Rep s queue heads) :
    heads.getLast?.map Prod.fst = answer queue .popfront := by
  cases found : heads.getLast? with
  | none =>
      have none : queue = [] := by
        refine List.eq_nil_iff_forall_not_mem.mpr fun e inside => ?_
        obtain ⟨h, there⟩ := rep.exists_head inside
        rw [List.getLast?_eq_none_iff.mp found] at there
        cases there
      rw [none]
      rfl
  | some last =>
      have first := (rep.first last.1 last.2).mp (List.mem_of_getLast? found)
      have same : ∀ e ∈ queue, decide (e.2.setWidth 32 = last.2) = decide (e.2.toNat = last.2.toNat) := by
        intro e _
        have wide : (e.2.setWidth 32).toNat = e.2.toNat := by
          rw [BitVec.toNat_setWidth]
          exact Nat.mod_eq_of_lt (by have := e.2.isLt; omega)
        rw [← wide]
        exact decide_eq_decide.mpr BitVec.toNat_inj.symm
      rw [level, List.filter_congr same, List.head?_map] at first
      obtain ⟨e, head, node⟩ := Option.map_eq_some_iff.mp first
      have highest : ∀ e ∈ queue, e.2.toNat ≤ last.2.toNat := by
        intro e inside
        obtain ⟨h, there⟩ := rep.exists_head inside
        have bound := BitVec.le_def.mp (rep.tree.le_last there found)
        rw [BitVec.toNat_setWidth, Nat.mod_eq_of_lt (by have := e.2.isLt; omega)] at bound
        exact bound
      rw [answer, PriorityFifo.front_of_highest highest head]
      exact congrArg some node.symm

omit [Fintype Node] in
theorem mem_of_answer {op : Op Node} (served : answer queue op = some n) :
    n ∈ queue.map Prod.fst := by
  cases op with
  | insert => cases served
  | dequeue => cases served
  | popfront =>
      obtain ⟨e, front, rfl⟩ := Option.map_eq_some_iff.mp served
      obtain ⟨before, after, split, -, -⟩ := PriorityFifo.isFront_of_front front
      rw [split]
      simp

/-- **`flat_priorityq_popfront` serves the earliest node of the highest priority.** -/
theorem Rep.popfront (rep : Rep s queue heads) : ∃ s' heads',
    s.popfront = some (answer queue .popfront, s') ∧ Rep s' (next queue .popfront) heads' := by
  have highest := rep.tree.findHighest
  rw [rep.front] at highest
  cases served : answer queue .popfront with
  | none =>
      refine ⟨s, heads, ?_, ?_⟩
      · simp [FlatPriorityq.popfront, highest, served]
      · simpa [next, served] using rep
  | some n =>
      obtain ⟨s', heads', dequeued, rep'⟩ := rep.dequeue (mem_of_answer served)
      refine ⟨s', heads', ?_, ?_⟩
      · simp [FlatPriorityq.popfront, highest, served, dequeued]
      · simpa [next, served] using rep'

/-! ## Runs -/

/-- One call, on the two queues. -/
theorem Rep.call (rep : Rep s queue heads) {op : Op Node} (legal : Legal queue op)
    (kept : KeysKept queue op) : ∃ s' heads',
    call s op = some (answer queue op, s') ∧ Rep s' (next queue op) heads' := by
  cases op with
  | insert n priority =>
      by_cases queued : priority ∈ queue.map Prod.snd
      · obtain ⟨s', inserted, rep'⟩ := rep.insert_duplicate legal queued
        exact ⟨s', heads, by simp [FlatPriorityq.call, inserted, answer], rep'⟩
      · obtain ⟨s', heads', inserted, rep'⟩ :=
          rep.insert_new legal queued (kept.resolve_left queued)
        exact ⟨s', heads', by simp [FlatPriorityq.call, inserted, answer], rep'⟩
  | popfront => exact rep.popfront
  | dequeue n =>
      obtain ⟨s', heads', dequeued, rep'⟩ := rep.dequeue legal
      exact ⟨s', heads', by simp [FlatPriorityq.call, dequeued, answer], rep'⟩

/-- A whole run, on the two queues. -/
theorem Rep.calls (rep : Rep s queue heads) {run : List (Op Node)}
    (legal : Along Legal advance queue run) (kept : Along KeysKept advance queue run) :
    ∃ s' heads', calls s run = some (answers queue run, s') ∧ Rep s' (after queue run) heads' := by
  induction run generalizing s queue heads with
  | nil => exact ⟨s, heads, rfl, rep⟩
  | cons op run ih =>
      obtain ⟨s₁, heads₁, called, rep₁⟩ := rep.call legal.1 kept.1
      obtain ⟨s₂, heads₂, rest, rep₂⟩ := ih rep₁ (legal.2 _ rfl) (kept.2 _ rfl)
      exact ⟨s₂, heads₂, by simp [FlatPriorityq.calls, called, rest, answers], rep₂⟩

end Rep

section Headline

variable [DecidableEq Node]

theorem perm_without {queue : List (Node × BitVec 8)} {n : Node} (nodup : (queue.map Prod.fst).Nodup)
    (inside : n ∈ queue.map Prod.fst) :
    (queue.map Prod.fst).Perm (n :: (without queue n).map Prod.fst) := by
  have same : ((queue.map Prod.fst).filter fun m => m ≠ n) = (queue.map Prod.fst).filter (· != n) :=
    List.filter_congr fun m _ => Bool.eq_iff_iff.mpr (by simp)
  rw [map_without, same, ← nodup.erase_eq_filter]
  exact List.perm_cons_erase inside

theorem nodup_next {queue : List (Node × BitVec 8)} {op : Op Node}
    (nodup : (queue.map Prod.fst).Nodup) (legal : Legal queue op) :
    ((next queue op).map Prod.fst).Nodup := by
  have shorter : ∀ n, ((without queue n).map Prod.fst).Nodup := by
    intro n
    rw [map_without]
    exact nodup.filter _
  cases op with
  | insert n priority => exact nodup_insert nodup legal
  | dequeue n => exact shorter n
  | popfront =>
      simp only [next]
      split
      · exact nodup
      · exact shorter _

theorem answer_eq_none {queue : List (Node × BitVec 8)} : answer queue .popfront = none ↔ queue = [] := by
  rw [answer, Option.map_eq_none_iff]
  exact PriorityFifo.front_eq_none

/-- Which nodes are queued after a call. -/
theorem mem_next {queue : List (Node × BitVec 8)} {op : Op Node} {m : Node} :
    m ∈ (next queue op).map Prod.fst ↔ match op with
      | .insert n _ => m ∈ queue.map Prod.fst ∨ m = n
      | .popfront => m ∈ queue.map Prod.fst ∧ answer queue .popfront ≠ some m
      | .dequeue n => m ∈ queue.map Prod.fst ∧ m ≠ n := by
  have rest : ∀ n, m ∈ (without queue n).map Prod.fst ↔ m ∈ queue.map Prod.fst ∧ m ≠ n := by
    intro n
    rw [map_without, List.mem_filter, decide_eq_true_eq]
  cases op with
  | insert n priority => simp [next]
  | dequeue n => exact rest n
  | popfront =>
      cases served : answer queue .popfront with
      | none => simp [next, served]
      | some n =>
          simp only [next, served, ne_eq, Option.some.injEq]
          rw [rest, ne_eq, eq_comm]

/-- One call keeps every node in its place: queued, returned or dequeued. -/
theorem perm_next {queue : List (Node × BitVec 8)} {op : Op Node}
    (nodup : (queue.map Prod.fst).Nodup) (legal : Legal queue op) :
    (queue.map Prod.fst ++ inserted [op]).Perm
      ([answer queue op].reduceOption ++ dequeued [op] ++ (next queue op).map Prod.fst) := by
  cases op with
  | insert n priority => simp [inserted, dequeued, answer, next, List.reduceOption]
  | dequeue n => simpa [inserted, dequeued, answer, next, List.reduceOption] using perm_without nodup legal
  | popfront =>
      cases served : answer queue .popfront with
      | none => simp [inserted, dequeued, next, served, List.reduceOption]
      | some n =>
          simpa [inserted, dequeued, next, served, List.reduceOption] using
            perm_without nodup (mem_of_answer served)

/-- So does a run. -/
theorem perm_after {queue : List (Node × BitVec 8)} {run : List (Op Node)}
    (nodup : (queue.map Prod.fst).Nodup) (legal : Along Legal advance queue run) :
    (queue.map Prod.fst ++ inserted run).Perm
      ((answers queue run).reduceOption ++ dequeued run ++ (after queue run).map Prod.fst) := by
  induction run generalizing queue with
  | nil => simp [inserted, dequeued, answers, after, List.reduceOption]
  | cons op run ih =>
      have here := perm_next nodup legal.1
      have rest := ih (nodup_next nodup legal.1) (legal.2 _ rfl)
      have first : inserted (op :: run) = inserted [op] ++ inserted run := by
        rw [inserted, inserted, inserted, ← List.filterMap_append]
        rfl
      have second : dequeued (op :: run) = dequeued [op] ++ dequeued run := by
        rw [dequeued, dequeued, dequeued, ← List.filterMap_append]
        rfl
      have third : (answers queue (op :: run)).reduceOption =
          [answer queue op].reduceOption ++ (answers (next queue op) run).reduceOption := by
        rw [← List.reduceOption_append]
        rfl
      rw [first, second, third, show after queue (op :: run) = after (next queue op) run from rfl]
      refine List.perm_iff_count.mpr fun n => ?_
      have one := here.count_eq n
      have others := rest.count_eq n
      simp only [List.count_append] at one others ⊢
      omega

variable [Fintype Node]

/-- The nodes are in no queue: their links are NULL. -/
def Loose (s : FlatPriorityq Node) : Prop :=
  ∀ n, (s.tree.node n).parent = none ∧ s.listq n = Listq.null

theorem rep_init {s : FlatPriorityq Node} (loose : Loose s) : Rep s.init [] [] where
  room := show 2 ≤ avlTreeMaxPath 256#32 by decide
  nodup := List.nodup_nil
  tree := .empty rfl
  first := by simp [level]
  parents := fun n _ => (loose n).1
  linked := fun _ => linked_nil
  loose := fun n _ => (loose n).2

/-- **A run in which no key is lost is a run of the abstract queue.** -/
theorem flat_priorityq_order {s : FlatPriorityq Node} (loose : Loose s) {run : List (Op Node)}
    (legal : Along Legal advance [] run) (kept : Along KeysKept advance [] run) :
    ∃ t, calls s.init run = some (answers [] run, t) ∧
      (∀ n, t.isQueued n = true ↔ n ∈ (after [] run).map Prod.fst) ∧
      (inserted run).Perm
        ((answers [] run).reduceOption ++ dequeued run ++ (after [] run).map Prod.fst) := by
  obtain ⟨t, heads, called, rep⟩ := (rep_init loose).calls legal kept
  refine ⟨t, called, fun n => ?_, ?_⟩
  · rw [rep.isQueued, decide_eq_true_iff]
  · simpa using perm_after (by simp) legal

/-! ## A run of each kind -/

/-- Nodes as a zeroed memory has them. -/
def zeroed (Node : Type) : FlatPriorityq Node :=
  ⟨⟨none, 0, fun _ => TreeNode.null⟩, fun _ => Listq.null⟩

theorem zeroed_loose : Loose (zeroed Node) := fun _ => ⟨rfl, rfl⟩

/-- Two priorities with a node behind one of them; the others come and go. -/
def mixedRun : List (Op (Fin 4)) :=
  [.insert 0 0#8, .insert 1 5#8, .insert 2 5#8, .insert 3 0#8, .popfront, .dequeue 0, .popfront,
    .popfront, .popfront]

theorem flat_priorityq_order_mixed :
    Along Legal advance [] mixedRun ∧ Along KeysKept advance [] mixedRun ∧
      ∃ t, calls (zeroed (Fin 4)).init mixedRun = some (answers [] mixedRun, t) ∧
        (∀ n, t.isQueued n = true ↔ n ∈ (after [] mixedRun).map Prod.fst) ∧
        (inserted mixedRun).Perm ((answers [] mixedRun).reduceOption ++ dequeued mixedRun ++
          (after [] mixedRun).map Prod.fst) :=
  have legal : Along Legal advance [] mixedRun := by decide +kernel
  have kept : Along KeysKept advance [] mixedRun := by decide +kernel
  ⟨legal, kept, flat_priorityq_order zeroed_loose legal kept⟩

/-- A node of priority 3, one of 5 and another one of 3. -/
def lostRun : List (Op (Fin 3)) :=
  [.insert 0 3#8, .insert 1 5#8, .insert 2 3#8, .popfront, .popfront, .popfront]

/-- **The third node overtakes the first: the second insert cost it its key.** -/
theorem priority_overtaken : Along Legal advance [] lostRun ∧
    (calls (zeroed (Fin 3)).init lostRun).map Prod.fst =
      some [none, none, none, some 1, some 2, some 0] ∧
    answers [] lostRun = [none, none, none, some 1, some 0, some 2] := by
  decide +kernel

end Headline

end Twan.Lib.FlatPriorityq
