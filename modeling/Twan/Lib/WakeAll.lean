/-
# Twan.Lib.WakeAll -- taking every node out of a priority queue

`flat_priorityq_dequeue_all` of `include/lib/dsa/flat_priorityq.h`, with `avl_remove_all` of
`avl_tree.h` and `listq_disconnect_all` of `listq.h` under it: the tree is walked from the highest key
down, each node's list from the front, and a function is called for each node after its links have
been cleared.

The function may put the node into something else at once.  All that is asked of it is that it leaves
the nodes alone that are still to come (`Tolerated`), where it may rely on what it keeps itself of
the other nodes.  `dequeue_all_visits`: any such function is called once for each node, in the order of
the keys and of the lists, and the tree is empty then.
-/
import Twan.Base.TreeWalk
import Twan.Lib.FlatPriorityq

namespace Twan.Lib.WakeAll

set_option autoImplicit false
set_option linter.unusedSectionVars false

open Twan.Base Twan.Base.TreeWalk Twan.Lib.AvlTree Twan.Lib.Listq Twan.Lib.FlatPriorityq

variable {Node σ : Type}

/-- The queue and its nodes, what else the function may change, and the calls so far, each with the
nodes as it found them. -/
structure Walk (Node σ : Type) where
  queue : FlatPriorityq Node
  rest : σ
  calls : List (Node × FlatPriorityq Node)

/-- A function for `flat_priorityq_dequeue_all`. -/
abbrev DequeueFunc (Node σ : Type) := Node → FlatPriorityq Node × σ → FlatPriorityq Node × σ

namespace Walk

variable (w : Walk Node σ)

/-- `func(node)`. -/
def call (func : DequeueFunc Node σ) (n : Node) : Walk Node σ where
  queue := (func n (w.queue, w.rest)).1
  rest := (func n (w.queue, w.rest)).2
  calls := w.calls ++ [(n, w.queue)]

variable [DecidableEq Node]

/-- Four stores to `cur`. -/
def clearTree (n : Node) : Walk Node σ :=
  { w with queue := { w.queue with tree := w.queue.tree.setNode n TreeNode.null } }

/-- Four stores to `front`. -/
def clearListq (n : Node) : Walk Node σ :=
  { w with queue := { w.queue with listq := Function.update w.queue.listq n Listq.null } }

end Walk

variable [DecidableEq Node]

/-- `listq_disconnect_all`. -/
def listqDisconnectAll (func : Node → Walk Node σ → Walk Node σ) :
    ℕ → Option Node → Walk Node σ → Option (Walk Node σ)
  | _, none, w => some w
  | 0, some _, _ => none
  | fuel + 1, some front, w =>
      listqDisconnectAll func fuel (w.queue.listq front).next (func front (w.clearListq front))

/-- `avl_remove_all`; its array has `max_path` entries.  The four stores to `cur` come before the call. -/
def avlRemoveAll (func : Node → Walk Node σ → Option (Walk Node σ)) (fuel : ℕ) (w : Walk Node σ) :
    Option (Walk Node σ) :=
  (walk (fun w n => (w.queue.tree.node n).left) (fun w n => (w.queue.tree.node n).right)
    (fun n w => func n (w.clearTree n)) w.queue.tree.maxPath fuel [] w.queue.tree.root w).map
    fun w => { w with queue := { w.queue with tree := w.queue.tree.setRoot none } }

/-- `flat_priorityq_listq_remove_func`. -/
def flatPriorityqListqRemoveFunc (func : DequeueFunc Node σ) (n : Node) (w : Walk Node σ) :
    Walk Node σ := w.call func n

/-- `flat_priorityq_avl_remove_func`. -/
def flatPriorityqAvlRemoveFunc (func : DequeueFunc Node σ) (fuel : ℕ) (n : Node) (w : Walk Node σ) :
    Option (Walk Node σ) :=
  listqDisconnectAll (flatPriorityqListqRemoveFunc func) fuel (some n) w

/-- `flat_priorityq_dequeue_all`. -/
def flatPriorityqDequeueAll (func : DequeueFunc Node σ) (fuel : ℕ) (w : Walk Node σ) :
    Option (Walk Node σ) :=
  avlRemoveAll (flatPriorityqAvlRemoveFunc func fuel) fuel w

/-! ## The queue and the function -/

/-- The node is in no tree. -/
def Loose (fields : TreeNode Node) : Prop :=
  fields.left = none ∧ fields.right = none ∧ fields.parent = none

/-- The node is in no tree and in no list. -/
def Unlinked (queue : FlatPriorityq Node) (n : Node) : Prop :=
  Loose (queue.tree.node n) ∧ queue.listq n = Listq.null

/-- The nodes in the order of the keys and of the lists, each with its key. -/
def entries (queue : FlatPriorityq Node) (tree : Shape Node) (behind : Node → List Node) :
    List (ℕ × Node) :=
  tree.visits.flatMap fun n => (n :: behind n).map fun m => ((queue.tree.key n).toNat, m)

/-- The nodes of a head and those behind it, for each of the heads. -/
def members (behind : Node → List Node) (heads : List Node) : List Node :=
  heads.flatMap fun n => n :: behind n

/-- A search tree that is not too deep, whose nodes head lists; the nodes behind them are in no tree. -/
structure Queued (queue : FlatPriorityq Node) (tree : Shape Node) (behind : Node → List Node) : Prop where
  linked : tree.Linked (fun n => (queue.tree.node n).left) (fun n => (queue.tree.node n).right)
    queue.tree.root
  search : tree.Search fun n => (queue.tree.key n).toNat
  deep : tree.depth ≤ queue.tree.maxPath
  lists : ∀ n ∈ tree.visits, Listq.Linked queue.listq (n :: behind n)
  loose : ∀ n ∈ tree.visits, ∀ m ∈ behind n, Loose (queue.tree.node m)
  nodup : (members behind tree.visits).Nodup

/-- The nodes are linked in the same way. -/
def Same (queue queue' : FlatPriorityq Node) (nodes : List Node) : Prop :=
  ∀ n ∈ nodes, queue'.tree.node n = queue.tree.node n ∧ queue'.listq n = queue.listq n

/-- The function leaves alone the nodes that are still to come.  It may rely on `J` for that, which it
keeps and which is about other things than these nodes. -/
structure Tolerated (func : DequeueFunc Node σ) (order : List Node)
    (J : List Node → FlatPriorityq Node × σ → Prop) : Prop where
  apart : ∀ later queue queue' rest, (∀ n ∉ later, Same queue queue' [n]) →
    J later (queue, rest) → J later (queue', rest)
  call : ∀ n later queue rest, n :: later <:+ order → Unlinked queue n → J (n :: later) (queue, rest) →
    Same queue (func n (queue, rest)).1 later ∧ J later (func n (queue, rest))

/-! ## One call -/

/-- What holds while these nodes are still to come. -/
structure Remain (q : FlatPriorityq Node) (order : List Node)
    (J : List Node → FlatPriorityq Node × σ → Prop) (later : List Node) (w : Walk Node σ) : Prop where
  order : w.calls.map Prod.fst ++ later = order
  same : Same q w.queue later
  cleared : ∀ c ∈ w.calls, Unlinked c.2 c.1
  keeps : J later (w.queue, w.rest)

variable {func : DequeueFunc Node σ} {order later : List Node} {q : FlatPriorityq Node}
  {J : List Node → FlatPriorityq Node × σ → Prop} {w : Walk Node σ} {n : Node}

/-- The call for the next node, whose links have been cleared. -/
theorem Remain.call (tolerated : Tolerated func order J) (nodup : order.Nodup)
    (remain : Remain q order J (n :: later) w) {fields : TreeNode Node} (loose : Loose fields) :
    Remain q order J later (Walk.call { w with queue := {
      tree := w.queue.tree.setNode n fields
      listq := Function.update w.queue.listq n Listq.null } } func n) := by
  have split : n ∉ later ∧ n :: later <:+ order := by
    have whole := remain.order
    refine ⟨?_, ⟨w.calls.map Prod.fst, whole⟩⟩
    rw [← whole] at nodup
    exact (List.nodup_cons.mp (List.nodup_append.mp nodup).2.1).1
  let queue : FlatPriorityq Node := {
    tree := w.queue.tree.setNode n fields
    listq := Function.update w.queue.listq n Listq.null }
  have others : ∀ m, m ≠ n → Same w.queue queue [m] := by
    intro m other k single
    obtain rfl := List.mem_singleton.mp single
    exact ⟨Function.update_of_ne other _ _, Function.update_of_ne other _ _⟩
  have unlinked : Unlinked queue n := by
    have free : queue.tree.node n = fields := by simp [queue, AvlTree.setNode]
    exact ⟨free ▸ loose, Function.update_self (f := w.queue.listq) n _⟩
  have kept : J (n :: later) (queue, w.rest) := by
    refine tolerated.apart _ w.queue queue w.rest (fun m outside => others m ?_) remain.keeps
    rintro rfl
    exact outside List.mem_cons_self
  obtain ⟨spared, keeps⟩ := tolerated.call n later queue w.rest split.2 unlinked kept
  constructor
  · have whole := remain.order
    simpa [Walk.call] using whole
  · intro m inside
    have other : m ≠ n := by
      rintro rfl
      exact split.1 inside
    have before := remain.same m (List.mem_cons_of_mem n inside)
    have cleared := others m other m (List.mem_singleton_self m)
    have called := spared m inside
    exact ⟨called.1.trans (cleared.1.trans before.1), called.2.trans (cleared.2.trans before.2)⟩
  · intro c inside
    rcases List.mem_append.mp inside with before | here
    · exact remain.cleared c before
    · obtain rfl := List.mem_singleton.mp here
      exact unlinked
  · exact keeps

/-- The nodes behind a head, or what is left of them. -/
theorem Remain.disconnectAll (tolerated : Tolerated func order J) (nodup : order.Nodup) {l : List Node}
    {p : Option Node} (chain : Segment (fun n => (q.listq n).next) (fun n => (q.listq n).prev) p l none)
    (loose : ∀ m ∈ l, Loose (q.tree.node m)) (remain : Remain q order J (l ++ later) w) {fuel : ℕ}
    (enough : l.length ≤ fuel) :
    ∃ w', listqDisconnectAll (flatPriorityqListqRemoveFunc func) fuel l.head? w = some w' ∧
      Remain q order J later w' := by
  induction l generalizing w p fuel with
  | nil => exact ⟨w, by cases fuel <;> rfl, remain⟩
  | cons m l ih =>
      obtain ⟨fuel, rfl⟩ : ∃ k, fuel = k + 1 := ⟨fuel - 1, by simp at enough; omega⟩
      obtain ⟨_, next, rest⟩ := chain
      obtain ⟨fields, links⟩ := remain.same m (by simp)
      have free : Loose (w.queue.tree.node m) := fields ▸ loose m List.mem_cons_self
      have called := remain.call tolerated nodup free
      have still : w.queue.tree.setNode m (w.queue.tree.node m) = w.queue.tree := by
        simp [AvlTree.setNode]
      rw [still] at called
      have after : (q.listq m).next = l.head?.or none := next
      have link : (w.queue.listq m).next = l.head? := by rw [links, after, Option.or_none]
      obtain ⟨w', ran, left⟩ := ih rest (fun k inside => loose k (List.mem_cons_of_mem m inside)) called
        (Nat.le_of_succ_le_succ enough)
      refine ⟨w', ?_, left⟩
      rw [List.head?_cons, listqDisconnectAll, link]
      exact ran

/-- A head is visited with all the nodes behind it. -/
theorem Remain.visit (tolerated : Tolerated func order J) (nodup : order.Nodup)
    {behind : List Node} (list : Listq.Linked q.listq (n :: behind))
    (loose : ∀ m ∈ behind, Loose (q.tree.node m)) (remain : Remain q order J (n :: behind ++ later) w)
    {fuel : ℕ} (enough : (n :: behind).length ≤ fuel) :
    ∃ w', flatPriorityqAvlRemoveFunc func fuel n (w.clearTree n) = some w' ∧
      Remain q order J later w' := by
  obtain ⟨fuel, rfl⟩ : ∃ k, fuel = k + 1 := ⟨fuel - 1, by simp at enough; omega⟩
  obtain ⟨_, next, chain⟩ := list.chain
  have cleared : Loose (TreeNode.null : TreeNode Node) := ⟨rfl, rfl, rfl⟩
  have called := remain.call tolerated nodup cleared
  have after : (q.listq n).next = behind.head?.or none := next
  have link : ((w.clearTree n).queue.listq n).next = behind.head? := by
    rw [Walk.clearTree, (remain.same n (by simp)).2, after, Option.or_none]
  obtain ⟨w', ran, left⟩ := called.disconnectAll tolerated nodup chain loose
    (Nat.le_of_succ_le_succ enough)
  refine ⟨w', ?_, left⟩
  rw [flatPriorityqAvlRemoveFunc, listqDisconnectAll, link]
  exact ran

/-! ## The whole queue -/

theorem entries_map_snd (queue : FlatPriorityq Node) (tree : Shape Node) (behind : Node → List Node) :
    (entries queue tree behind).map Prod.snd = members behind tree.visits := by
  simp [entries, members, List.map_flatMap, Function.comp_def]

theorem length_le_members (behind : Node → List Node) (heads : List Node) :
    heads.length ≤ (members behind heads).length := by
  induction heads with
  | nil => exact le_rfl
  | cons n heads ih =>
      simp only [members, List.flatMap_cons, List.length_append, List.length_cons] at ih ⊢
      omega

/-- The entries are in the descending order of their keys. -/
theorem Queued.descending {tree : Shape Node} {behind : Node → List Node}
    (queued : Queued q tree behind) : (entries q tree behind).Pairwise fun a b => b.1 ≤ a.1 := by
  refine List.pairwise_flatMap.mpr ⟨fun n _ => ?_, ?_⟩
  · exact List.pairwise_map.mpr (List.pairwise_of_forall fun _ _ => le_rfl)
  · refine queued.search.descending.imp fun less a inA b inB => ?_
    obtain ⟨_, _, rfl⟩ := List.mem_map.mp inA
    obtain ⟨_, _, rfl⟩ := List.mem_map.mp inB
    exact less.le

/-- Each node has been called for once, in the order of the keys and of the lists, with its links
cleared, and the tree is empty. -/
structure Woken (q : FlatPriorityq Node) (tree : Shape Node) (behind : Node → List Node)
    (w : Walk Node σ) : Prop where
  visits : w.calls.map Prod.fst = (entries q tree behind).map Prod.snd
  once : (w.calls.map Prod.fst).Nodup
  descending : (entries q tree behind).Pairwise fun a b => b.1 ≤ a.1
  cleared : ∀ c ∈ w.calls, Unlinked c.2 c.1
  empty : w.queue.tree.root = none

/-- **Wake-all visits each waiter once** -- for every search tree that is not too deep, with lists of any
lengths, and every function that leaves alone the nodes still to come. -/
theorem dequeue_all_visits {tree : Shape Node} {behind : Node → List Node}
    (queued : Queued q tree behind) (tolerated : Tolerated func (members behind tree.visits) J) (rest : σ)
    (starts : J (members behind tree.visits) (q, rest)) (fuel : ℕ)
    (enough : (members behind tree.visits).length < fuel) :
    ∃ w, flatPriorityqDequeueAll func fuel ⟨q, rest, []⟩ = some w ∧ Woken q tree behind w := by
  have short := length_le_members behind tree.visits
  obtain ⟨extra, rfl⟩ : ∃ k, fuel = k + 1 + tree.visits.length :=
    ⟨fuel - 1 - tree.visits.length, by omega⟩
  generalize bound : extra + 1 + tree.visits.length = fuel at enough
  -- the heads that are still to come, with the nodes behind them
  let I : List Node → Walk Node σ → Prop := fun heads w => heads ⊆ tree.visits ∧
    Remain q (members behind tree.visits) J (members behind heads) w
  have fixed : ∀ heads w, I heads w → ∀ n ∈ heads,
      (w.queue.tree.node n).left = (q.tree.node n).left ∧
        (w.queue.tree.node n).right = (q.tree.node n).right := by
    intro heads w inv n inside
    have links := (inv.2.same n (List.mem_flatMap.mpr ⟨n, inside, List.mem_cons_self⟩)).1
    exact ⟨by rw [links], by rw [links]⟩
  have visits : ∀ n heads w, I (n :: heads) w → ∃ w',
      flatPriorityqAvlRemoveFunc func fuel n (w.clearTree n) = some w' ∧ I heads w' := by
    intro n heads w inv
    have inside : n ∈ tree.visits := inv.1 List.mem_cons_self
    have part : (n :: behind n).Sublist (members behind tree.visits) :=
      List.sublist_flatten_of_mem (List.mem_map.mpr ⟨n, inside, rfl⟩)
    have room : (n :: behind n).length ≤ fuel := part.length_le.trans enough.le
    obtain ⟨w', ran, left⟩ := inv.2.visit tolerated queued.nodup (queued.lists n inside)
      (queued.loose n inside) room
    exact ⟨w', ran, fun m later => inv.1 (List.mem_cons_of_mem n later), left⟩
  have start : I (tree.visits ++ []) ⟨q, rest, []⟩ := by
    rw [List.append_nil]
    exact ⟨fun _ inside => inside, rfl, fun _ _ => ⟨rfl, rfl⟩, List.forall_mem_nil _, starts⟩
  have deep : tree.depth + ([] : List Node).length ≤ q.tree.maxPath := queued.deep
  obtain ⟨w, walked, _, remain⟩ := walk_tree fixed visits queued.linked start deep (extra + 1)
  rw [bound, walk_done] at walked
  refine ⟨{ w with queue := { w.queue with tree := w.queue.tree.setRoot none } }, ?_, ?_⟩
  · rw [flatPriorityqDequeueAll, avlRemoveAll, walked, Option.map_some]
  · have order : w.calls.map Prod.fst = members behind tree.visits := by
      have whole := remain.order
      rwa [members, List.flatMap_nil, List.append_nil] at whole
    exact
      { visits := order.trans (entries_map_snd q tree behind).symm
        once := order ▸ queued.nodup
        descending := queued.descending
        cleared := remain.cleared
        empty := rfl }

/-! ## A function that puts the nodes into another list -/

/-- The node goes behind the last one of another list, which is kept in `σ`. -/
def pushElsewhere : DequeueFunc Node (Option Node)
  | n, (queue, none) => (queue, some n)
  | n, (queue, some last) =>
      ({ queue with listq := setPrev (setNext queue.listq last (some n)) n (some last) }, some n)

/-- The last node of the other list is not one that is still to come. -/
def Elsewhere (later : List Node) (s : FlatPriorityq Node × Option Node) : Prop :=
  ∀ last, s.2 = some last → last ∉ later

theorem tolerated_pushElsewhere {order : List Node} (nodup : order.Nodup) :
    Tolerated pushElsewhere order Elsewhere where
  apart _ _ _ _ _ elsewhere := elsewhere
  call n later queue rest suffix _ elsewhere := by
    have fresh : n ∉ later := (List.nodup_cons.mp (suffix.sublist.nodup nodup)).1
    have moved : ∀ s : FlatPriorityq Node, Elsewhere later (s, some n) := by
      intro s last here
      obtain rfl : n = last := Option.some.inj here
      exact fresh
    cases rest with
    | none => exact ⟨fun _ _ => ⟨rfl, rfl⟩, moved _⟩
    | some last =>
        refine ⟨fun m inside => ⟨rfl, ?_⟩, moved _⟩
        have notLast : m ≠ last := by
          rintro rfl
          exact elsewhere m rfl (List.mem_cons_of_mem n inside)
        have notNode : m ≠ n := by
          rintro rfl
          exact fresh inside
        simp [pushElsewhere, setPrev, setNext, notLast, notNode]

/-- Node 0 has key 5 and node 2 behind it, node 1 has key 9; node 3 is in another list. -/
def sampleQueue : FlatPriorityq (Fin 4) where
  tree :=
    { root := some 0
      maxPath := 2
      node := fun n =>
        if n = 0 then { TreeNode.single 5#32 with right := some 1 }
        else if n = 1 then { TreeNode.single 9#32 with parent := some 0 }
        else TreeNode.null }
  listq := pushback (fun _ => Listq.null) 0 2

def sampleTree : Shape (Fin 4) := .node .leaf 0 (.node .leaf 1 .leaf)

def sampleBehind (n : Fin 4) : List (Fin 4) := if n = 0 then [2] else []

theorem sampleQueue_queued : Queued sampleQueue sampleTree sampleBehind where
  linked := ⟨rfl, rfl, rfl, rfl, rfl⟩
  search := by
    refine ⟨?_, ?_, trivial, ?_, ?_, trivial, trivial⟩ <;> decide
  deep := by decide
  lists := by
    have alone : Listq.Linked (fun _ : Fin 4 => Listq.null) [0] := linked_singleton rfl
    have pair : Listq.Linked sampleQueue.listq [0, 2] := alone.pushback (by decide)
    have single : Listq.Linked sampleQueue.listq [1] := linked_singleton rfl
    intro n inside
    have known : n = 1 ∨ n = 0 := by simpa [sampleTree, Shape.visits] using inside
    rcases known with rfl | rfl
    · exact single
    · exact pair
  loose := by
    intro n _ m inside
    have known : m = 2 := by
      by_cases zero : n = 0
      · simpa [sampleBehind, zero] using inside
      · simp [sampleBehind, zero] at inside
    subst known
    exact ⟨rfl, rfl, rfl⟩
  nodup := by decide

/-- The three nodes go behind node 3. -/
theorem dequeue_all_elsewhere : Queued sampleQueue sampleTree sampleBehind ∧
    Elsewhere (members sampleBehind sampleTree.visits) (sampleQueue, some 3) ∧
    ∃ w, flatPriorityqDequeueAll pushElsewhere 4 ⟨sampleQueue, some 3, []⟩ = some w ∧
      Woken sampleQueue sampleTree sampleBehind w ∧ w.calls.map Prod.fst = [1, 0, 2] := by
  have starts : Elsewhere (members sampleBehind sampleTree.visits) (sampleQueue, some 3) := by
    intro last here
    obtain rfl : 3 = last := Option.some.inj here
    decide
  obtain ⟨w, ran, woken⟩ := dequeue_all_visits sampleQueue_queued
    (tolerated_pushElsewhere sampleQueue_queued.nodup) (some 3) starts 4 (by decide)
  exact ⟨sampleQueue_queued, starts, w, ran, woken, woken.visits.trans (by decide)⟩

end Twan.Lib.WakeAll
