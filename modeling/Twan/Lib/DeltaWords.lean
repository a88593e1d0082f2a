/-
# Twan.Lib.DeltaWords -- delta chains on `u64`

`include/lib/dsa/delta_chain.h` with the deltas and the ticks as the `u64` they are.  The walk of
`delta_chain_insert` keeps a list of its subtractions, so that one can say that none of them wraps
around; the sum of `delta_chain_dequeue_no_callback` wraps where it does in C.

* `insert_nat`, `dequeue_nat`: on the numbers behind the words this is `DeltaChain`, always for an
  insertion and, for a removal, where its one sum fits into a word;
* `insert_subs`: no subtraction of an insertion wraps;
* `edits_keep_deadlines`: what both do to what every node is due in, for any chain, and whatever the
  links of the nodes outside are; `removals_keep_deadlines` is that no removal needs a further
  condition where everything is due within 64 bits.
-/
import Twan.Lib.DeltaChain

namespace Twan.Lib.DeltaChain

set_option autoImplicit false
set_option linter.dupNamespace false

open Twan.Base Twan.Lib.Dq

/-- `struct delta_chain`, with the `struct delta_node` of every object. -/
structure Words (Node : Type) where
  delta : Node → BitVec 64
  dqs : Dqs Unit Node

/-- Where the walk of `delta_chain_insert` ends, and its subtractions: from what, and what. -/
structure Walk (Node : Type) where
  chain : Words Node
  remaining : BitVec 64
  prev : Option Node
  cur : Option Node
  subs : List (BitVec 64 × BitVec 64)

namespace Words

variable {Node : Type} [DecidableEq Node] (c : Words Node)

def setDelta (n : Node) (delta : BitVec 64) : Words Node :=
  { c with delta := Function.update c.delta n delta }

/-- The loop of `delta_chain_insert` from `cur`.  The fuel bounds its iterations. -/
def insertLoop : ℕ → Words Node → BitVec 64 → Option Node → Option Node → Walk Node
  | fuel + 1, c, remaining, prev, some cur =>
      if remaining < c.delta cur then
        ⟨c.setDelta cur (c.delta cur - remaining), remaining, prev, some cur,
          [(c.delta cur, remaining)]⟩
      else
        let walk := insertLoop fuel c (remaining - c.delta cur) (some cur) (c.dqs.node cur).next
        { walk with subs := (remaining, c.delta cur) :: walk.subs }
  | _, c, remaining, prev, cur => ⟨c, remaining, prev, cur, []⟩

/-- The walk that `delta_chain_insert(chain, node, ticks)` makes unless the chain is empty. -/
def walk [Fintype Node] (n : Node) (ticks : BitVec 64) : Walk Node :=
  let c := { c with dqs := c.dqs.setNode n ⟨none, none⟩ }
  c.insertLoop (Fintype.card Node) ticks none (c.dqs.dq ()).front

/-- `delta_chain_insert(chain, node, ticks)`. -/
def insert [Fintype Node] (n : Node) (ticks : BitVec 64) : Words Node :=
  let cleared := { c with dqs := c.dqs.setNode n ⟨none, none⟩ }
  if cleared.dqs.isEmpty () then
    { cleared.setDelta n ticks with dqs := cleared.dqs.pushfront () n }
  else
    let walk := c.walk n ticks
    { walk.chain.setDelta n walk.remaining with
      dqs := walk.chain.dqs.insert () n walk.prev walk.cur }

/-- The subtractions of `delta_chain_insert(chain, node, ticks)`; an empty chain has no walk. -/
def insertSubs [Fintype Node] (n : Node) (ticks : BitVec 64) : List (BitVec 64 × BitVec 64) :=
  (c.walk n ticks).subs

/-- `delta_chain_dequeue_no_callback(chain, node)`. -/
def dequeueNoCallback (n : Node) : Words Node :=
  let c := match (c.dqs.node n).next with
    | some next => c.setDelta next (c.delta next + c.delta n)
    | none => c
  { c with dqs := c.dqs.dequeue () n }

/-- The sum that a removal forms, if it forms one, is below `2 ^ 64`. -/
def SumFits (n : Node) : Prop :=
  ∀ next, (c.dqs.node n).next = some next → (c.delta next).toNat + (c.delta n).toNat < 2 ^ 64

/-- What a node of the chain is due in: the sum of the deltas up to its own. -/
def remaining (l : List Node) (n : Node) : ℕ :=
  ((l.takeWhile (· ≠ n) ++ [n]).map fun m => (c.delta m).toNat).sum

end Words

/-- The node is inserted behind those that are due no later, and due in what was asked for; the
others are due in what they were, in their order; and no subtraction has wrapped around. -/
def InsertKeeps {Node : Type} [DecidableEq Node] [Fintype Node] (c : Words Node) (l : List Node)
    (n : Node) (ticks : BitVec 64) : Prop :=
  (∃ a b, l = a ++ b ∧ Dq.Linked (c.insert n ticks).dqs () (a ++ n :: b) ∧
    (∀ m ∈ a, c.remaining l m ≤ ticks.toNat) ∧ (∀ m ∈ b, ticks.toNat < c.remaining l m) ∧
    (c.insert n ticks).remaining (a ++ n :: b) n = ticks.toNat ∧
    ∀ m ∈ l, (c.insert n ticks).remaining (a ++ n :: b) m = c.remaining l m) ∧
  ∀ sub ∈ c.insertSubs n ticks, sub.2 ≤ sub.1

/-- The node is gone, and the others are due in what they were, in their order. -/
def DequeueKeeps {Node : Type} [DecidableEq Node] (c : Words Node) (l : List Node) (n : Node) :
    Prop :=
  Dq.Linked (c.dequeueNoCallback n).dqs () (l.erase n) ∧
    ∀ m ∈ l, m ≠ n → (c.dequeueNoCallback n).remaining (l.erase n) m = c.remaining l m

/-! ## The numbers behind the words -/

namespace Words

variable {Node : Type} {c : Words Node} {n : Node}

def nat (c : Words Node) : DeltaChain Node :=
  ⟨fun n => (c.delta n).toNat, c.dqs⟩

variable [DecidableEq Node]

theorem nat_setDelta {delta : BitVec 64} :
    (c.setDelta n delta).nat = c.nat.setDelta n delta.toNat := by
  rw [nat, DeltaChain.setDelta, DeltaChain.mk.injEq]
  refine ⟨?_, rfl⟩
  funext m
  by_cases same : m = n
  · subst same
    simp [setDelta]
  · simp [setDelta, same, nat]

omit [DecidableEq Node] in
theorem nat_with {dqs : Dqs Unit Node} : nat { c with dqs := dqs } = { c.nat with dqs := dqs } := rfl

/-- Turn by turn the words of the walk are its numbers, because each subtraction is guarded. -/
theorem insertLoop_nat (fuel : ℕ) (ticks : BitVec 64) (prev cur : Option Node) :
    let walk := c.insertLoop fuel ticks prev cur
    c.nat.insertLoop fuel ticks.toNat prev cur =
        (walk.chain.nat, walk.remaining.toNat, walk.prev, walk.cur) ∧
      ∀ sub ∈ walk.subs, sub.2 ≤ sub.1 := by
  induction fuel generalizing ticks prev cur with
  | zero => exact ⟨rfl, nofun⟩
  | succ fuel ih =>
      cases cur with
      | none => exact ⟨rfl, nofun⟩
      | some cur =>
          by_cases later : ticks < c.delta cur
          · have left : (c.delta cur - ticks).toNat = (c.delta cur).toNat - ticks.toNat :=
              BitVec.toNat_sub_of_le (BitVec.le_of_lt later)
            simp only [insertLoop, DeltaChain.insertLoop, if_pos later]
            refine ⟨?_, ?_⟩
            · rw [if_pos (show ticks.toNat < c.nat.delta cur from later), nat_setDelta, left]
              rfl
            · intro sub inside
              rw [List.mem_singleton.mp inside]
              exact BitVec.le_of_lt later
          · have enough : c.delta cur ≤ ticks := BitVec.not_lt.mp later
            have left : (ticks - c.delta cur).toNat = ticks.toNat - (c.delta cur).toNat :=
              BitVec.toNat_sub_of_le enough
            obtain ⟨walked, guarded⟩ := ih (ticks - c.delta cur) (some cur) (c.dqs.node cur).next
            simp only [insertLoop, DeltaChain.insertLoop, if_neg later]
            refine ⟨?_, ?_⟩
            · rw [if_neg (show ¬ ticks.toNat < c.nat.delta cur from later), ← walked, left]
              rfl
            · intro sub inside
              rcases List.mem_cons.mp inside with rfl | inside
              · exact enough
              · exact guarded sub inside

/-- **An insertion on words is the insertion on numbers.** -/
theorem insert_nat [Fintype Node] {ticks : BitVec 64} :
    (c.insert n ticks).nat = c.nat.insert n ticks.toNat := by
  by_cases empty : (c.dqs.setNode n ⟨none, none⟩).isEmpty () = true
  · rw [insert, if_pos empty, nat_with, nat_setDelta, insert_of_empty empty]
    rfl
  · obtain ⟨walked, -⟩ := insertLoop_nat (c := { c with dqs := c.dqs.setNode n ⟨none, none⟩ })
      (Fintype.card Node) ticks none ((c.dqs.setNode n ⟨none, none⟩).dq ()).front
    rw [insert, if_neg empty, nat_with, nat_setDelta, insert_of_walk empty walked]
    rfl

theorem insert_subs [Fintype Node] {ticks : BitVec 64} :
    ∀ sub ∈ c.insertSubs n ticks, sub.2 ≤ sub.1 :=
  (insertLoop_nat ..).2

/-- **A removal on words is the removal on numbers**, where its sum fits. -/
theorem dequeue_nat (fits : c.SumFits n) :
    (c.dequeueNoCallback n).nat = c.nat.dequeueNoCallback n := by
  unfold dequeueNoCallback DeltaChain.dequeueNoCallback
  have same : (c.nat.dqs.node n).next = (c.dqs.node n).next := rfl
  rw [same]
  cases next : (c.dqs.node n).next with
  | none => rfl
  | some m =>
      have sum : (c.delta m + c.delta n).toNat = (c.delta m).toNat + (c.delta n).toNat := by
        rw [BitVec.toNat_add, Nat.mod_eq_of_lt (fits m next)]
      simp only [nat_with, nat_setDelta, sum]
      rfl

end Words

/-! ## What the nodes are due in -/

section Deadlines

variable {Node : Type} {c : Words Node} {l : List Node} {n : Node}

/-- The nodes with the ticks that each is due in, the first one its delta after `base`. -/
def dated (delta : Node → ℕ) : ℕ → List Node → List (Node × ℕ)
  | _, [] => []
  | base, n :: l => (n, base + delta n) :: dated delta (base + delta n) l

theorem map_fst_dated {delta : Node → ℕ} {base : ℕ} :
    (dated delta base l).map Prod.fst = l := by
  induction l generalizing base with
  | nil => rfl
  | cons n l ih => exact congrArg _ ih

theorem due_dated {delta : Node → ℕ} {base : ℕ} : Due delta base (dated delta base l) := by
  induction l generalizing base with
  | nil => trivial
  | cons n l ih => exact ⟨rfl, ih⟩

/-- Any chain is a list of nodes with what each is due in. -/
theorem exists_chained (linked : Dq.Linked c.dqs () l) :
    ∃ t : List (Node × ℕ), t.map Prod.fst = l ∧ Chained c.nat t := by
  refine ⟨dated c.nat.delta 0 l, map_fst_dated, ?_, due_dated⟩
  rw [map_fst_dated]
  exact linked

theorem Due.reach_eq {delta : Node → ℕ} {base : ℕ} {a : List (Node × ℕ)} (dues : Due delta base a) :
    reach base a = base + ((a.map Prod.fst).map delta).sum := by
  induction a generalizing base with
  | nil => rfl
  | cons e a ih =>
      obtain ⟨here, rest⟩ := dues
      rw [reach, ih rest, here, List.map_cons, List.map_cons, List.sum_cons, Nat.add_assoc]

/-- A node is not among those before it. -/
theorem Chained.not_mem {d : DeltaChain Node} {a b : List (Node × ℕ)} {due : ℕ}
    (chained : Chained d (a ++ (n, due) :: b)) : n ∉ a.map Prod.fst := by
  intro earlier
  obtain ⟨e, member, same⟩ := List.mem_map.mp earlier
  exact chained.apart member List.mem_cons_self same

variable [DecidableEq Node]

theorem Words.remaining_middle {a b : List Node} (before : n ∉ a) :
    c.remaining (a ++ n :: b) n = (a.map c.nat.delta).sum + c.nat.delta n := by
  have others : ∀ m ∈ a, decide (m ≠ n) = true := by
    intro m inside
    exact decide_eq_true fun same => before (same ▸ inside)
  have taken : (a ++ n :: b).takeWhile (fun m => decide (m ≠ n)) = a := by
    rw [List.takeWhile_append_of_pos others, List.takeWhile_cons_of_neg (by simp), List.append_nil]
  rw [remaining, taken, List.map_append, List.sum_append, List.map_singleton, List.sum_singleton]
  rfl

/-- What the list says of a node is the sum of the deltas. -/
theorem Chained.remaining {due : ℕ} {t : List (Node × ℕ)} (chained : Chained c.nat t)
    (inside : (n, due) ∈ t) : c.remaining (t.map Prod.fst) n = due := by
  obtain ⟨a, b, rfl⟩ := List.append_of_mem inside
  have before : n ∉ a.map Prod.fst := chained.not_mem
  obtain ⟨dueA, here, -⟩ := due_append.mp chained.due
  rw [dueA.reach_eq, Nat.zero_add] at here
  rw [List.map_append, List.map_cons, Words.remaining_middle before, here]

theorem insert_keeps [Fintype Node] (linked : Dq.Linked c.dqs () l) (outside : n ∉ l)
    (ticks : BitVec 64) : InsertKeeps c l n ticks := by
  obtain ⟨t, rfl, chained⟩ := exists_chained linked
  obtain ⟨a, b, rfl, sooner, later, inserted⟩ := chained.insert ticks.toNat outside
  rw [← Words.insert_nat] at inserted
  have perm : (a ++ (n, ticks.toNat) :: b).Perm ((n, ticks.toNat) :: (a ++ b)) := List.perm_middle
  refine ⟨⟨a.map Prod.fst, b.map Prod.fst, List.map_append, ?_, ?_, ?_, ?_, ?_⟩, Words.insert_subs⟩
  · have after := inserted.linked
    rw [List.map_append, List.map_cons] at after
    exact after
  · intro m inside
    obtain ⟨e, member, rfl⟩ := List.mem_map.mp inside
    rw [chained.remaining (List.mem_append_left b member)]
    exact sooner e member
  · intro m inside
    obtain ⟨e, member, rfl⟩ := List.mem_map.mp inside
    rw [chained.remaining (List.mem_append_right a member)]
    exact later e member
  · have new := inserted.remaining (n := n) (perm.mem_iff.mpr List.mem_cons_self)
    rw [List.map_append, List.map_cons] at new
    exact new
  · intro m inside
    obtain ⟨⟨m, due⟩, member, rfl⟩ := List.mem_map.mp inside
    have kept := inserted.remaining (perm.mem_iff.mpr (List.mem_cons_of_mem _ member))
    rw [List.map_append, List.map_cons] at kept
    rw [kept, chained.remaining member]

theorem dequeue_keeps (linked : Dq.Linked c.dqs () l) (inside : n ∈ l) (fits : c.SumFits n) :
    DequeueKeeps c l n := by
  obtain ⟨t, rfl, chained⟩ := exists_chained linked
  obtain ⟨⟨n, due⟩, member, rfl⟩ := List.mem_map.mp inside
  obtain ⟨a, b, rfl⟩ := List.append_of_mem member
  have left := chained.dequeue
  rw [← Words.dequeue_nat fits] at left
  have before : n ∉ a.map Prod.fst := chained.not_mem
  have erased : ((a ++ (n, due) :: b).map Prod.fst).erase n = (a ++ b).map Prod.fst := by
    rw [List.map_append, List.map_cons, List.erase_append_right _ before, List.erase_cons_head,
      List.map_append]
  unfold DequeueKeeps
  rw [erased]
  refine ⟨left.linked, ?_⟩
  intro m member other
  obtain ⟨⟨m, due'⟩, member', rfl⟩ := List.mem_map.mp member
  have stays : (m, due') ∈ a ++ b :=
    (List.mem_cons.mp (List.perm_middle.mem_iff.mp member')).resolve_left
      fun same => other (congrArg Prod.fst same)
  rw [left.remaining stays, chained.remaining member']

/-- The sum fits if everything is due within `u64`. -/
theorem sumFits_of_small (linked : Dq.Linked c.dqs () l) (inside : n ∈ l)
    (small : ∀ m ∈ l, c.remaining l m < 2 ^ 64) : c.SumFits n := by
  obtain ⟨t, rfl, chained⟩ := exists_chained linked
  obtain ⟨⟨n, due⟩, member, rfl⟩ := List.mem_map.mp inside
  obtain ⟨a, b, rfl⟩ := List.append_of_mem member
  intro next after
  have head : (c.dqs.node n).next = (b.map Prod.fst).head? := chained.next
  rw [head] at after
  cases b with
  | nil => cases after
  | cons f b =>
      cases after
      have follows : f ∈ a ++ (n, due) :: f :: b := by simp
      have bound := small f.1 (List.mem_map_of_mem follows)
      rw [chained.remaining follows] at bound
      exact Nat.lt_of_le_of_lt chained.delta_add_le bound

/-- **Edits of a delta chain keep the deadlines.**  For any chain and whatever the links of the nodes
outside are: an insertion of a node that is not in it, and a removal of one that is, if its one sum
does not wrap around. -/
theorem edits_keep_deadlines [Fintype Node] (linked : Dq.Linked c.dqs () l) :
    (∀ n ticks, n ∉ l → InsertKeeps c l n ticks) ∧
      ∀ n ∈ l, c.SumFits n → DequeueKeeps c l n :=
  ⟨fun _ ticks outside => insert_keeps linked outside ticks,
    fun _ inside fits => dequeue_keeps linked inside fits⟩

/-- **Where everything is due within `u64` every removal keeps the deadlines.** -/
theorem removals_keep_deadlines (linked : Dq.Linked c.dqs () l)
    (small : ∀ m ∈ l, c.remaining l m < 2 ^ 64) : ∀ n ∈ l, DequeueKeeps c l n :=
  fun _ inside => dequeue_keeps linked inside (sumFits_of_small linked inside small)

/-- Two nodes due in 3 ticks, and a third one outside whose links are left over from before. -/
def tied : Words (Fin 3) where
  delta := fun n => if n = 0 then 3 else 0
  dqs :=
    { node := fun n => if n = 0 then ⟨some 1, none⟩ else if n = 1 then ⟨none, some 0⟩
        else ⟨some 0, some 1⟩
      dq := fun _ => ⟨some 0, some 1⟩ }

theorem edits_keep_deadlines_tied :
    InsertKeeps tied [0, 1] 2 3 ∧ DequeueKeeps tied [0, 1] 0 := by
  have linked : Dq.Linked tied.dqs () [0, 1] :=
    ⟨rfl, rfl, ⟨rfl, rfl, rfl, rfl, trivial⟩, by decide⟩
  obtain ⟨insert, dequeue⟩ := edits_keep_deadlines linked
  refine ⟨insert 2 3 (by decide), dequeue 0 (by decide) ?_⟩
  intro next after
  cases after
  decide

end Deadlines

end Twan.Lib.DeltaChain
