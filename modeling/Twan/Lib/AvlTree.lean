/-
# Twan.Lib.AvlTree -- the intrusive AVL tree

`include/lib/dsa/avl_tree.h`, `src/lib/dsa/avl_tree.c`: a search tree through `struct tree_node`s
that live inside other objects.  A node's height and key share the word `data`: the height is its
upper half and the key its lower one.  The nodes on the way down are kept in an array of
`max_path` entries, and the way back up rebalances them.

An operation is `none` where the code goes through a NULL pointer or writes past that array.

`avl_update_height` writes the height alone, so a node whose height is brought up to date has the
key 0 from then on.  What the tree still does is therefore only the following, where `Holds t l`
says that the tree holds the nodes of `l` under their keys: one node of any key, or a node of key 0
with a node of another key to its right (`Holds.insert_first`, `Holds.insert_second`,
`Holds.insert_duplicate`, `Holds.remove`, `Holds.replace`, `Holds.findHighest`).
-/
import Mathlib.Data.Fintype.EquivFin
import Mathlib.Logic.Function.Basic

namespace Twan.Lib.AvlTree

set_option autoImplicit false
set_option linter.dupNamespace false
set_option linter.unusedSectionVars false

/-- `struct tree_node`. -/
structure TreeNode (Node : Type) where
  data : BitVec 64
  left : Option Node
  right : Option Node
  parent : Option Node
  deriving DecidableEq

/-- A node that is in no tree. -/
def TreeNode.null {Node : Type} : TreeNode Node := ⟨0#64, none, none, none⟩

/-- A node of height 1, as `avl_insert` starts with it. -/
def TreeNode.single {Node : Type} (key : BitVec 32) : TreeNode Node :=
  ⟨1#64 <<< 32 ||| key.setWidth 64, none, none, none⟩

/-- `struct avl_tree`, and the nodes. -/
structure AvlTree (Node : Type) where
  root : Option Node
  maxPath : ℕ
  node : Node → TreeNode Node

/-- `log2_ceil32`. -/
def log2Ceil32 (x : BitVec 32) : ℕ :=
  if x ≤ 1#32 then 0 else 32 - (x - 1#32).clz.toNat

/-- `avl_tree_max_path(num_nodes)`. -/
def avlTreeMaxPath (numNodes : BitVec 32) : ℕ :=
  if numNodes ≠ 0#32 then log2Ceil32 numNodes * 3 / 2 + 2 else 0

namespace AvlTree

variable {Node : Type} [DecidableEq Node] (t : AvlTree Node)

/-! ## Nodes -/

def setRoot (link : Option Node) : AvlTree Node := { t with root := link }

def setNode (n : Node) (fields : TreeNode Node) : AvlTree Node :=
  { t with node := Function.update t.node n fields }

def setData (n : Node) (data : BitVec 64) : AvlTree Node :=
  t.setNode n { t.node n with data := data }

def setLeft (n : Node) (link : Option Node) : AvlTree Node :=
  t.setNode n { t.node n with left := link }

def setRight (n : Node) (link : Option Node) : AvlTree Node :=
  t.setNode n { t.node n with right := link }

def setParent (n : Node) (link : Option Node) : AvlTree Node :=
  t.setNode n { t.node n with parent := link }

/-- `if (n) n->parent = link`. -/
def setParentOf (n link : Option Node) : AvlTree Node :=
  match n with
  | some n => t.setParent n link
  | none => t

/-- `avl_tree_node_key(node)`. -/
def key (n : Node) : BitVec 32 := (t.node n).data.setWidth 32

/-- `avl_height(node)`. -/
def height : Option Node → BitVec 64
  | some n => (t.node n).data >>> 32
  | none => 0#64

/-- `avl_balance_factor(node)`: the difference of two `u64`, as an `int`. -/
def balanceFactor : Option Node → ℤ
  | some n => ((t.height (t.node n).left - t.height (t.node n).right).setWidth 32).toInt
  | none => 0

/-- `avl_update_height(node)`. -/
def updateHeight (n : Node) : AvlTree Node :=
  let left := t.height (t.node n).left
  let right := t.height (t.node n).right
  t.setData n (((if left > right then left else right) + 1#64) <<< 32)

/-- `avl_rotate_right(node)`. -/
def rotateRight (n : Node) : Option (Node × AvlTree Node) :=
  (t.node n).left.map fun leftChild =>
    let leftChildRight := (t.node leftChild).right
    let t := (t.setRight leftChild (some n)).setLeft n leftChildRight
    let t := (t.setParent leftChild (t.node n).parent).setParent n (some leftChild)
    let t := t.setParentOf leftChildRight (some n)
    (leftChild, (t.updateHeight n).updateHeight leftChild)

/-- `avl_rotate_left(node)`. -/
def rotateLeft (n : Node) : Option (Node × AvlTree Node) :=
  (t.node n).right.map fun rightChild =>
    let rightChildLeft := (t.node rightChild).left
    let t := (t.setLeft rightChild (some n)).setRight n rightChildLeft
    let t := (t.setParent rightChild (t.node n).parent).setParent n (some rightChild)
    let t := t.setParentOf rightChildLeft (some n)
    (rightChild, (t.updateHeight n).updateHeight rightChild)

/-- `parent->left = new` where `old` was the left child, else `parent->right = new`. -/
def setChild (parent old : Node) (new : Option Node) : AvlTree Node :=
  if (t.node parent).left = some old then t.setLeft parent new else t.setRight parent new

/-! ## The way back up -/

/-- Puts the top of a rotated subtree in the place of the node it had there. -/
def attach (parent : Option Node) (old new : Node) : AvlTree Node :=
  match parent with
  | some parent => (t.setChild parent old (some new)).setParent new (some parent)
  | none => (t.setRoot (some new)).setParent new none

/-- One iteration of the loops that rebalance.  Whether a heavy side takes two rotations is all
that `avl_insert` and `avl_remove` decide differently, each by its own test of the child there. -/
def rebalanceNode (innerLeft innerRight : AvlTree Node → Node → Bool) (n : Node)
    (parent : Option Node) : Option (AvlTree Node) := do
  let t := t.updateHeight n
  let balance := t.balanceFactor (some n)
  if balance > 1 then
    let left ← (t.node n).left
    if innerLeft t left then
      let (top, t) ← t.rotateLeft left
      let (top, t) ← (t.setLeft n (some top)).rotateRight n
      some (t.attach parent n top)
    else
      let (top, t) ← t.rotateRight n
      some (t.attach parent n top)
  else if balance < -1 then
    let right ← (t.node n).right
    if innerRight t right then
      let (top, t) ← t.rotateRight right
      let (top, t) ← (t.setRight n (some top)).rotateLeft n
      some (t.attach parent n top)
    else
      let (top, t) ← t.rotateLeft n
      some (t.attach parent n top)
  else some t

/-- The loop over the path, from its end to the root; the path's last entry comes first here. -/
def rebalance (innerLeft innerRight : AvlTree Node → Node → Bool) :
    AvlTree Node → List Node → Option (AvlTree Node)
  | t, [] => some t
  | t, n :: path =>
      (t.rebalanceNode innerLeft innerRight n path.head?).bind fun t =>
        rebalance innerLeft innerRight t path

/-! ## The operations -/

/-- How the way down of `avl_insert` ends. -/
inductive Descent (Node : Type) where
  | full
  | duplicate (n : Node)
  | leaf (path : List Node)

/-- The way down of `avl_insert`, with room for so many more entries in the path. -/
def descend (key : BitVec 32) : ℕ → List Node → Option Node → Descent Node
  | _, path, none => .leaf path
  | 0, _, some _ => .full
  | room + 1, path, some cur =>
      let curKey := t.key cur
      if curKey > key then descend key room (cur :: path) (t.node cur).left
      else if curKey < key then descend key room (cur :: path) (t.node cur).right
      else .duplicate cur

/-- `avl_insert(tree, node, key, &duplicate)`: its answer, the duplicate and the tree. -/
def insert (n : Node) (key : BitVec 32) : Option (Bool × Option Node × AvlTree Node) :=
  let t := t.setNode n (TreeNode.single key)
  match t.root with
  | none => some (true, none, t.setRoot (some n))
  | some root =>
      match t.descend key t.maxPath [] (some root) with
      | .full => some (false, none, t)
      | .duplicate cur => some (false, some cur, t)
      | .leaf [] => none
      | .leaf (parent :: path) =>
          let t := if key < t.key parent then t.setLeft parent (some n) else t.setRight parent (some n)
          let t := t.setParent n (some parent)
          (t.rebalance (fun t left => decide (key > t.key left))
            (fun t right => decide (key < t.key right)) (parent :: path)).map fun t => (true, none, t)

/-- The way down of `avl_remove`: the path, its last entry first, if the key is found.  `none`
where the path has no room for an entry that is written. -/
def search (key : BitVec 32) : ℕ → List Node → Option Node → Option (Option (List Node))
  | _, _, none => some none
  | 0, _, some _ => none
  | room + 1, path, some cur =>
      let curKey := t.key cur
      if curKey = key then some (some (cur :: path))
      else if curKey > key then search key room (cur :: path) (t.node cur).left
      else search key room (cur :: path) (t.node cur).right

/-- The way to the successor: the path, its last entry first, the successor and its parent. -/
def successor : ℕ → List Node → Node → Node → Option (List Node × Node × Node)
  | room, path, succParent, succ =>
      match (t.node succ).left with
      | none => some (path, succParent, succ)
      | some left =>
          match room with
          | 0 => none
          | room + 1 => successor room (succ :: path) succ left

/-- `parent` gets `new` in the place of the node `old`, or the tree has it as its root. -/
def setChildOf (parent : Option Node) (old : Node) (new : Option Node) : AvlTree Node :=
  match parent with
  | some parent => t.setChild parent old new
  | none => t.setRoot new

/-- The unlinking of a node with at most one child. -/
def unlinkOne (n : Node) : AvlTree Node :=
  let parent := (t.node n).parent
  let child := if (t.node n).left.isSome then (t.node n).left else (t.node n).right
  (t.setChildOf parent n child).setParentOf child parent

/-- The unlinking of a node with two children, whose place its successor takes. -/
def unlinkTwo (n succParent succ : Node) : AvlTree Node :=
  let parent := (t.node n).parent
  let t := t.setLeft succ (t.node n).left
  let t := t.setParentOf (t.node n).left (some succ)
  let t := if succParent ≠ n then
      let t := t.setLeft succParent (t.node succ).right
      let t := t.setParentOf (t.node succ).right (some succParent)
      let t := t.setRight succ (t.node n).right
      t.setParentOf (t.node n).right (some succ)
    else t
  let t := t.setChildOf parent n (some succ)
  t.setParent succ parent

/-- What `avl_remove` does before it rebalances: the path that is left and the tree. -/
def unlink (n : Node) (path : List Node) : Option (List Node × AvlTree Node) :=
  match (t.node n).left, (t.node n).right with
  | some _, some right => do
      let (longer, succParent, succ) ← t.successor (t.maxPath - path.length) path n right
      -- The entry of the node itself becomes the successor's, and the last one after it is dropped.
      let below := longer.take (longer.length - path.length)
      some (below.tail ++ succ :: path.tail, t.unlinkTwo n succParent succ)
  | _, _ => some (path.tail, t.unlinkOne n)

/-- `avl_remove(tree, node)`. -/
def remove (n : Node) : Option (Bool × AvlTree Node) :=
  match t.root with
  | none => some (false, t)
  | some root => do
      match ← t.search (t.key n) t.maxPath [] (some root) with
      | none => some (false, t)
      | some path =>
          let (path, t) ← t.unlink n path
          let t := t.setNode n TreeNode.null
          let t ← t.rebalance (fun t left => decide (t.balanceFactor (some left) < 0))
            (fun t right => decide (t.balanceFactor (some right) > 0)) path
          some (true, t)

/-- `avl_replace(tree, dest, src)`. -/
def replace (dest src : Node) : AvlTree Node :=
  let parent := (t.node dest).parent
  let t := t.setNode src (t.node dest)
  let t := t.setParentOf (t.node src).left (some src)
  let t := t.setParentOf (t.node src).right (some src)
  let t := t.setChildOf parent dest (some src)
  t.setNode dest TreeNode.null

/-- `avl_is_queued(tree, src)`. -/
def isQueued (n : Node) : Bool := (t.node n).parent.isSome || decide (t.root = some n)

/-- The loop of `avl_find_highest`, which a chain of more nodes than there are never ends. -/
def highestFrom : ℕ → Node → Option Node
  | 0, _ => none
  | fuel + 1, cur =>
      match (t.node cur).right with
      | none => some cur
      | some right => highestFrom fuel right

/-- `avl_find_highest(tree)`; `none` where its loop does not end. -/
def findHighest [Fintype Node] : Option (Option Node) :=
  match t.root with
  | none => some none
  | some root => (t.highestFrom (Fintype.card Node) root).map some

end AvlTree

/-! ## What the tree still does -/

variable {Node : Type}

/-- The tree holds these nodes under these keys, none of which an `avl_update_height` has cost. -/
inductive Holds (t : AvlTree Node) : List (Node × BitVec 32) → Prop
  | empty (root : t.root = none) : Holds t []
  | one {n : Node} {k : BitVec 32} (root : t.root = some n) (node : t.node n = TreeNode.single k) :
      Holds t [(n, k)]
  | two {z n : Node} {k : BitVec 32} (apart : z ≠ n) (above : 0#32 < k) (root : t.root = some z)
      (low : t.node z = ⟨2#64 <<< 32, none, some n, none⟩)
      (high : t.node n = { TreeNode.single k with parent := some z }) : Holds t [(z, 0#32), (n, k)]

theorem key_word (k : BitVec 32) : (1#64 <<< 32 ||| k.setWidth 64).setWidth 32 = k := by
  apply BitVec.eq_of_getLsbD_eq
  intro i bound
  simp only [BitVec.getLsbD_setWidth, BitVec.getLsbD_or, BitVec.getLsbD_shiftLeft]
  simp [bound]
  omega

theorem height_word (k : BitVec 32) : (1#64 <<< 32 ||| k.setWidth 64) >>> 32 = 1#64 := by
  have low : k.setWidth 64 >>> 32 = 0#64 := by
    apply BitVec.eq_of_toNat_eq
    have bound := k.isLt
    simp only [BitVec.toNat_ushiftRight, BitVec.toNat_setWidth, Nat.shiftRight_eq_div_pow]
    simp
    omega
  rw [BitVec.ushiftRight_or_distrib, low]
  rfl

variable {t : AvlTree Node} {n : Node} {k : BitVec 32} {l : List (Node × BitVec 32)}

theorem Holds.congr {t' : AvlTree Node} (holds : Holds t l) (root : t'.root = t.root)
    (nodes : ∀ n ∈ l.map Prod.fst, t'.node n = t.node n) : Holds t' l := by
  cases holds with
  | empty old => exact .empty (root.trans old)
  | one old node => exact .one (root.trans old) ((nodes _ (by simp)).trans node)
  | two apart above old low high =>
      exact .two apart above (root.trans old) ((nodes _ (by simp)).trans low)
        ((nodes _ (by simp)).trans high)

variable [DecidableEq Node]

theorem Holds.key (holds : Holds t l) (here : (n, k) ∈ l) : t.key n = k := by
  cases holds with
  | empty => cases here
  | one root node =>
      obtain ⟨rfl, rfl⟩ : n = _ ∧ k = _ := by simpa using here
      rw [AvlTree.key, node, TreeNode.single, key_word]
  | two apart above root low high =>
      rcases List.mem_cons.mp here with first | second
      · obtain ⟨rfl, rfl⟩ : n = _ ∧ k = _ := by simpa using first
        rw [AvlTree.key, low]
        simp only
        decide
      · obtain ⟨rfl, rfl⟩ : n = _ ∧ k = _ := by simpa using second
        rw [AvlTree.key, high]
        exact key_word k

theorem Holds.insert_first (holds : Holds t []) : ∃ t', t.insert n k = some (true, none, t') ∧
    Holds t' [(n, k)] ∧ t'.maxPath = t.maxPath ∧ ∀ m ≠ n, t'.node m = t.node m := by
  cases holds with
  | empty root =>
      refine ⟨(t.setNode n (TreeNode.single k)).setRoot (some n), ?_, .one rfl ?_, rfl, ?_⟩
      · simp [AvlTree.insert, AvlTree.setNode, root]
      · simp [AvlTree.setRoot, AvlTree.setNode]
      · intro m other
        exact Function.update_of_ne other ..

/-- The way down ends at the node of this key. -/
theorem Holds.descend (holds : Holds t l) {room : ℕ} (enough : 2 ≤ room) {h : Node}
    (here : (h, k) ∈ l) : t.descend k room [] t.root = .duplicate h := by
  obtain ⟨room, rfl⟩ : ∃ r, room = r + 2 := ⟨room - 2, by omega⟩
  have found := holds.key here
  cases holds with
  | empty => cases here
  | one root node =>
      obtain ⟨rfl, rfl⟩ : h = _ ∧ k = _ := by simpa using here
      simp [root, AvlTree.descend, found]
  | two apart above root low high =>
      rcases List.mem_cons.mp here with first | second
      · obtain ⟨rfl, rfl⟩ : h = _ ∧ k = _ := by simpa using first
        simp [root, AvlTree.descend, found]
      · obtain ⟨rfl, rfl⟩ : h = _ ∧ k = _ := by simpa using second
        have zero : t.key _ = 0#32 := Holds.key (.two apart above root low high) List.mem_cons_self
        have notBelow : ¬ k < 0#32 := by simp
        rw [root, AvlTree.descend]
        simp only [zero, if_neg notBelow, if_pos above, low]
        simp [AvlTree.descend, found]

theorem Holds.setNode (holds : Holds t l) (outside : n ∉ l.map Prod.fst) :
    Holds (t.setNode n (TreeNode.single k)) l :=
  holds.congr rfl fun m inside => Function.update_of_ne (fun e : m = n => outside (e ▸ inside)) ..

/-- The node of this key is found, and only the fields of the new node change. -/
theorem Holds.insert_duplicate (holds : Holds t l) (room : 2 ≤ t.maxPath) {h : Node}
    (here : (h, k) ∈ l) (outside : n ∉ l.map Prod.fst) :
    t.insert n k = some (false, some h, t.setNode n (TreeNode.single k)) ∧
      Holds (t.setNode n (TreeNode.single k)) l := by
  have kept : Holds (t.setNode n (TreeNode.single k)) l := holds.setNode outside
  refine ⟨?_, kept⟩
  have down := kept.descend room here
  cases found : (t.setNode n (TreeNode.single k)).root with
  | none =>
      rw [found] at down
      simp [AvlTree.descend] at down
  | some root =>
      rw [found] at down
      simp only [AvlTree.insert, found]
      rw [show (t.setNode n (TreeNode.single k)).maxPath = t.maxPath from rfl, down]

/-- Where the sides differ by one level at most, only the height is brought up to date. -/
theorem rebalance_singleton {innerLeft innerRight : AvlTree Node → Node → Bool} {z : Node}
    (calm : -1 ≤ (t.updateHeight z).balanceFactor (some z) ∧
      (t.updateHeight z).balanceFactor (some z) ≤ 1) :
    t.rebalance innerLeft innerRight [z] = some (t.updateHeight z) := by
  have notLeft : ¬ (t.updateHeight z).balanceFactor (some z) > 1 := by omega
  have notRight : ¬ (t.updateHeight z).balanceFactor (some z) < -1 := by omega
  simp only [AvlTree.rebalance, AvlTree.rebalanceNode]
  rw [if_neg notLeft, if_neg notRight]
  rfl

/-- A node of key 0 with a child to its right has its key still, for its height is all that is
written. -/
theorem updateHeight_pair {z : Node} (apart : z ≠ n)
    (low : t.node z = ⟨1#64 <<< 32 ||| (0#32).setWidth 64, none, some n, none⟩)
    (high : t.node n = { TreeNode.single k with parent := some z }) :
    (t.updateHeight z).node z = ⟨2#64 <<< 32, none, some n, none⟩ ∧
      (t.updateHeight z).balanceFactor (some z) = -1 := by
  have right : t.height (some n) = 1#64 := by
    rw [AvlTree.height, high]
    exact height_word k
  have left : ∀ t : AvlTree Node, t.height none = 0#64 := fun _ => rfl
  have written : (t.updateHeight z).node z = ⟨2#64 <<< 32, none, some n, none⟩ := by
    simp only [AvlTree.updateHeight, AvlTree.setData, AvlTree.setNode, Function.update_self, low, right,
      left]
    rw [show (if 0#64 > 1#64 then 0#64 else 1#64) + 1#64 = 2#64 by decide]
  have kept : (t.updateHeight z).height (some n) = 1#64 := by
    rw [← right]
    simp [AvlTree.updateHeight, AvlTree.setData, AvlTree.setNode, AvlTree.height, apart.symm]
  refine ⟨written, ?_⟩
  simp only [AvlTree.balanceFactor, written, kept, left]
  decide

/-- So has one without children. -/
theorem updateHeight_leaf {z : Node} {data : BitVec 64} (bare : t.node z = ⟨data, none, none, none⟩) :
    (t.updateHeight z).node z = TreeNode.single 0#32 ∧
      (t.updateHeight z).balanceFactor (some z) = 0 := by
  have none : ∀ t : AvlTree Node, t.height none = 0#64 := fun _ => rfl
  have written : (t.updateHeight z).node z = TreeNode.single 0#32 := by
    simp only [AvlTree.updateHeight, AvlTree.setData, AvlTree.setNode, Function.update_self, bare, none]
    rw [show (if 0#64 > 0#64 then 0#64 else 0#64) + 1#64 = 1#64 by decide]
    rfl
  refine ⟨written, ?_⟩
  simp only [AvlTree.balanceFactor, written, TreeNode.single, none]
  decide

/-- A second node may join one of key 0. -/
theorem Holds.insert_second {z : Node} (holds : Holds t [(z, 0#32)]) (room : 1 ≤ t.maxPath)
    (above : 0#32 < k) (apart : z ≠ n) : ∃ t', t.insert n k = some (true, none, t') ∧
    Holds t' [(z, 0#32), (n, k)] ∧ t'.maxPath = t.maxPath ∧
      ∀ m, m ≠ n → m ≠ z → t'.node m = t.node m := by
  obtain ⟨room, enough⟩ : ∃ r, t.maxPath = r + 1 := ⟨t.maxPath - 1, by omega⟩
  have zero : t.key z = 0#32 := holds.key List.mem_cons_self
  have notBelow : ¬ 0#32 > k := by simp
  cases holds with
  | one root node =>
      have lower : (t.setNode n (TreeNode.single k)).key z = 0#32 := by
        rw [← zero]
        simp [AvlTree.key, AvlTree.setNode, apart]
      have right : ((t.setNode n (TreeNode.single k)).node z).right = none := by
        simp [AvlTree.setNode, apart, node, TreeNode.single]
      have down : (t.setNode n (TreeNode.single k)).descend k (room + 1) [] (some z) = .leaf [z] := by
        simp only [AvlTree.descend, lower, if_neg notBelow, if_pos above, right]
      obtain ⟨t', built⟩ : ∃ t', t' = ((t.setNode n (TreeNode.single k)).setRight z (some n)).setParent
          n (some z) := ⟨_, rfl⟩
      have low : t'.node z = ⟨1#64 <<< 32 ||| (0#32).setWidth 64, none, some n, none⟩ := by
        simp [built, AvlTree.setParent, AvlTree.setRight, AvlTree.setNode, apart, node, TreeNode.single]
      have high : t'.node n = { TreeNode.single k with parent := some z } := by
        simp [built, AvlTree.setParent, AvlTree.setRight, AvlTree.setNode, apart.symm]
      obtain ⟨written, balance⟩ := updateHeight_pair apart low high
      refine ⟨t'.updateHeight z, ?_, ?_, by rw [built]; rfl, ?_⟩
      · simp only [AvlTree.insert]
        rw [show (t.setNode n (TreeNode.single k)).root = some z from root,
          show (t.setNode n (TreeNode.single k)).maxPath = room + 1 from enough]
        simp only [down, lower]
        rw [if_neg notBelow, ← built, rebalance_singleton (by omega)]
        rfl
      · refine .two apart above ?_ written ?_
        · rw [built]
          exact root
        · rw [← high]
          exact Function.update_of_ne apart.symm ..
      · intro m other away
        simp [built, AvlTree.updateHeight, AvlTree.setData, AvlTree.setParent, AvlTree.setRight,
          AvlTree.setNode, other, away]

/-- A node without a left child gives way to its right one. -/
theorem remove_of_left_none {path : List Node}
    (down : t.search (t.key n) t.maxPath [] t.root = some (some (n :: path)))
    (left : (t.node n).left = none) : t.remove n =
      (((t.unlinkOne n).setNode n TreeNode.null).rebalance
        (fun t left => decide (t.balanceFactor (some left) < 0))
        (fun t right => decide (t.balanceFactor (some right) > 0)) path).map fun t => (true, t) := by
  cases root : t.root with
  | none =>
      rw [root] at down
      simp [AvlTree.search] at down
  | some r =>
      rw [root] at down
      have cut : t.unlink n (n :: path) = some (path, t.unlinkOne n) := by
        simp [AvlTree.unlink, left]
      simp only [AvlTree.remove, root, down]
      simp [cut, Option.map_eq_bind]

/-- The root gives way to its right child. -/
theorem remove_root (root : t.root = some n) (room : 1 ≤ t.maxPath) (parent : (t.node n).parent = none)
    (left : (t.node n).left = none) : t.remove n = some (true,
      ((t.setRoot (t.node n).right).setParentOf (t.node n).right none).setNode n TreeNode.null) := by
  obtain ⟨room, enough⟩ : ∃ r, t.maxPath = r + 1 := ⟨t.maxPath - 1, by omega⟩
  have down : t.search (t.key n) t.maxPath [] t.root = some (some [n]) := by
    simp [root, enough, AvlTree.search]
  have cut : t.unlinkOne n = (t.setRoot (t.node n).right).setParentOf (t.node n).right none := by
    simp [AvlTree.unlinkOne, parent, left, AvlTree.setChildOf]
  rw [remove_of_left_none down left, cut]
  rfl

theorem Holds.remove (holds : Holds t l) (room : 2 ≤ t.maxPath) (here : (n, k) ∈ l) : ∃ t',
    t.remove n = some (true, t') ∧ Holds t' (l.filter fun e => e.1 ≠ n) ∧ t'.maxPath = t.maxPath ∧
      t'.node n = TreeNode.null ∧ ∀ m ∉ l.map Prod.fst, t'.node m = t.node m := by
  have key := holds.key here
  cases holds with
  | empty => cases here
  | one root node =>
      obtain ⟨rfl, rfl⟩ : n = _ ∧ k = _ := by simpa using here
      have right : (t.node n).right = none := by rw [node]; rfl
      refine ⟨_, remove_root root (by omega) (by rw [node]; rfl) (by rw [node]; rfl), ?_⟩
      rw [right]
      refine ⟨by simpa using Holds.empty rfl, rfl, by simp [AvlTree.setNode], ?_⟩
      intro m other
      exact Function.update_of_ne (by simpa using other) ..
  | @two z m k' apart above root low high =>
      rcases List.mem_cons.mp here with first | second
      · obtain ⟨rfl, rfl⟩ : n = _ ∧ k = _ := by simpa using first
        have right : (t.node n).right = some m := by rw [low]
        refine ⟨_, remove_root root (by omega) (by rw [low]) (by rw [low]), ?_⟩
        rw [right]
        have left : [(n, 0#32), (m, k')].filter (fun e => e.1 ≠ n) = [(m, k')] := by
          simp [apart.symm]
        rw [left]
        refine ⟨.one rfl ?_, rfl, by simp [AvlTree.setNode], ?_⟩
        · simp [AvlTree.setNode, AvlTree.setParentOf, AvlTree.setParent, AvlTree.setRoot, apart.symm, high,
            TreeNode.single]
        · intro j other
          obtain ⟨notN, notM⟩ : j ≠ n ∧ j ≠ m := by simpa using other
          simp [AvlTree.setNode, AvlTree.setParentOf, AvlTree.setParent, AvlTree.setRoot, notN, notM]
      · obtain ⟨rfl, rfl⟩ : n = _ ∧ k = _ := by simpa using second
        have zero : t.key z = 0#32 := Holds.key (.two apart above root low high) List.mem_cons_self
        have notEqual : ¬ 0#32 = k := fun e => absurd above (by simp [← e])
        have notAbove : ¬ 0#32 > k := by simp
        have down : t.search (t.key n) t.maxPath [] t.root = some (some [n, z]) := by
          obtain ⟨room, enough⟩ : ∃ r, t.maxPath = r + 2 := ⟨t.maxPath - 2, by omega⟩
          rw [root, enough, key, AvlTree.search]
          simp only [zero, if_neg notEqual, if_neg notAbove, low]
          simp [AvlTree.search, key]
        obtain ⟨t', built⟩ : ∃ t', t' = (t.setRight z none).setNode n TreeNode.null := ⟨_, rfl⟩
        have cut : (t.unlinkOne n).setNode n TreeNode.null = t' := by
          simp [built, AvlTree.unlinkOne, high, low, TreeNode.single, AvlTree.setChildOf, AvlTree.setChild,
            AvlTree.setParentOf]
        have bare : t'.node z = ⟨2#64 <<< 32, none, none, none⟩ := by
          simp [built, AvlTree.setRight, AvlTree.setNode, apart, low]
        obtain ⟨written, balance⟩ := updateHeight_leaf bare
        have left : [(z, 0#32), (n, k)].filter (fun e => e.1 ≠ n) = [(z, 0#32)] := by
          simp [apart]
        refine ⟨t'.updateHeight z, ?_, ?_, by rw [built]; rfl, ?_, ?_⟩
        · rw [remove_of_left_none down (by rw [high]; rfl), cut, rebalance_singleton (by omega)]
          rfl
        · rw [left]
          refine .one ?_ written
          rw [built]
          exact root
        · simp [built, AvlTree.updateHeight, AvlTree.setData, AvlTree.setNode, apart.symm]
        · intro j other
          obtain ⟨notZ, notN⟩ : j ≠ z ∧ j ≠ n := by simpa using other
          simp [built, AvlTree.updateHeight, AvlTree.setData, AvlTree.setNode, AvlTree.setRight, notN, notZ]

/-- The root is replaced. -/
theorem replace_root {h : Node} (parent : (t.node h).parent = none)
    (left : (t.node h).left = none) : t.replace h n =
      (((t.setNode n (t.node h)).setParentOf (t.node h).right (some n)).setRoot (some n)).setNode h
        TreeNode.null := by
  simp [AvlTree.replace, parent, left, AvlTree.setNode, AvlTree.setParentOf, AvlTree.setChildOf]

theorem Holds.replace (holds : Holds t l) {h : Node} (here : (h, k) ∈ l)
    (outside : n ∉ l.map Prod.fst) :
    Holds (t.replace h n) (l.map fun e => if e.1 = h then (n, e.2) else e) ∧
      (t.replace h n).maxPath = t.maxPath ∧ (t.replace h n).node h = TreeNode.null ∧
      ∀ m ∉ l.map Prod.fst, m ≠ n → (t.replace h n).node m = t.node m := by
  cases holds with
  | empty => cases here
  | one root node =>
      obtain ⟨rfl, rfl⟩ : h = _ ∧ k = _ := by simpa using here
      have apart : n ≠ h := by simpa using outside
      have right : (t.node h).right = none := by rw [node]; rfl
      rw [replace_root (by rw [node]; rfl) (by rw [node]; rfl), right]
      simp only [List.map_cons, if_pos, List.map_nil]
      refine ⟨.one rfl ?_, rfl, ?_, ?_⟩
      · simp [AvlTree.setNode, AvlTree.setRoot, AvlTree.setParentOf, apart, node]
      · simp [AvlTree.setNode]
      · intro m other away
        have notH : m ≠ h := by simpa using other
        simp [AvlTree.setNode, AvlTree.setRoot, AvlTree.setParentOf, away, notH]
  | @two z m k' apart above root low high =>
      obtain ⟨notZ, notM⟩ : n ≠ z ∧ n ≠ m := by simpa using outside
      rcases List.mem_cons.mp here with first | second
      · obtain ⟨rfl, rfl⟩ : h = _ ∧ k = _ := by simpa using first
        have right : (t.node h).right = some m := by rw [low]
        rw [replace_root (by rw [low]) (by rw [low]), right]
        simp only [List.map_cons, if_pos, if_neg apart.symm, List.map_nil]
        refine ⟨.two notM above rfl ?_ ?_, rfl, ?_, ?_⟩
        · simp [AvlTree.setNode, AvlTree.setRoot, AvlTree.setParentOf, AvlTree.setParent, notM, notZ, low]
        · simp [AvlTree.setNode, AvlTree.setRoot, AvlTree.setParentOf, AvlTree.setParent, notM.symm,
            apart.symm, high]
        · simp [AvlTree.setNode]
        · intro j other away
          obtain ⟨notH, notM⟩ : j ≠ h ∧ j ≠ m := by simpa using other
          simp [AvlTree.setNode, AvlTree.setRoot, AvlTree.setParentOf, AvlTree.setParent, away, notH, notM]
      · obtain ⟨rfl, rfl⟩ : h = _ ∧ k = _ := by simpa using second
        have result : t.replace h n = (((t.setNode n (t.node h)).setRight z (some n))).setNode h
            TreeNode.null := by
          simp [AvlTree.replace, high, TreeNode.single, AvlTree.setNode, AvlTree.setParentOf,
            AvlTree.setChildOf, AvlTree.setChild, notZ.symm, low]
        rw [result]
        simp only [List.map_cons, if_pos, if_neg apart, List.map_nil]
        refine ⟨.two notZ.symm above root ?_ ?_, rfl, ?_, ?_⟩
        · simp [AvlTree.setNode, AvlTree.setRight, notZ.symm, apart, low]
        · simp [AvlTree.setNode, AvlTree.setRight, notM, notZ, high]
        · simp [AvlTree.setNode]
        · intro j other away
          obtain ⟨notZ, notH⟩ : j ≠ z ∧ j ≠ h := by simpa using other
          simp [AvlTree.setNode, AvlTree.setRight, away, notH, notZ]

/-- The highest key is the last one. -/
theorem Holds.findHighest [Fintype Node] (holds : Holds t l) :
    t.findHighest = some (l.getLast?.map Prod.fst) := by
  cases holds with
  | empty root => simp [AvlTree.findHighest, root]
  | @one n k root node =>
      have some_node : 0 < Fintype.card Node := Fintype.card_pos_iff.mpr ⟨n⟩
      obtain ⟨fuel, enough⟩ : ∃ f, Fintype.card Node = f + 1 := ⟨_, (Nat.succ_pred_eq_of_pos some_node).symm⟩
      simp [AvlTree.findHighest, root, enough, AvlTree.highestFrom, node, TreeNode.single]
  | @two z n k apart above root low high =>
      have two_nodes : 1 < Fintype.card Node := Fintype.one_lt_card_iff_nontrivial.mpr ⟨z, n, apart⟩
      obtain ⟨fuel, enough⟩ : ∃ f, Fintype.card Node = f + 2 := ⟨Fintype.card Node - 2, by omega⟩
      simp [AvlTree.findHighest, root, enough, AvlTree.highestFrom, low, high, TreeNode.single]

theorem Holds.le_last (holds : Holds t l) {e last : Node × BitVec 32} (inside : e ∈ l)
    (final : l.getLast? = some last) : e.2 ≤ last.2 := by
  cases holds with
  | empty => cases inside
  | one =>
      cases final
      rw [List.mem_singleton.mp inside]
      exact BitVec.le_refl _
  | two =>
      cases final
      rcases List.mem_cons.mp inside with rfl | second
      · exact BitVec.le_def.mpr (Nat.zero_le _)
      · rw [List.mem_singleton.mp second]
        exact BitVec.le_refl _

theorem Holds.isQueued (holds : Holds t l) (loose : n ∉ l.map Prod.fst → (t.node n).parent = none) :
    t.isQueued n = decide (n ∈ l.map Prod.fst) := by
  cases holds with
  | empty root => simp [AvlTree.isQueued, root, loose]
  | @one m k root node =>
      by_cases same : m = n
      · subst same
        simp [AvlTree.isQueued, root]
      · have none : (t.node n).parent = none := loose (by simpa using Ne.symm same)
        simp [AvlTree.isQueued, root, none, same, Ne.symm same]
  | @two z m k apart above root low high =>
      by_cases first : z = n
      · subst first
        simp [AvlTree.isQueued, root]
      · by_cases second : m = n
        · subst second
          simp [AvlTree.isQueued, high]
        · have none : (t.node n).parent = none :=
            loose (by simpa using ⟨Ne.symm first, Ne.symm second⟩)
          simp [AvlTree.isQueued, root, none, first, Ne.symm first, Ne.symm second]

/-- A node with one child that is a leaf stays where it is. -/
theorem rebalance_beside {innerLeft innerRight : AvlTree Node → Node → Bool} {r : Node}
    (apart : r ≠ n) (height : t.height (some n) = 1#64)
    (children : (t.node r).left = some n ∧ (t.node r).right = none ∨
      (t.node r).left = none ∧ (t.node r).right = some n) :
    t.rebalance innerLeft innerRight [r] = some (t.updateHeight r) := by
  have leaf : (t.updateHeight r).height none = 0#64 := rfl
  have child : (t.updateHeight r).height (some n) = 1#64 := by
    rw [← height]
    simp [AvlTree.updateHeight, AvlTree.setData, AvlTree.setNode, AvlTree.height, apart.symm]
  have links : ((t.updateHeight r).node r).left = (t.node r).left ∧
      ((t.updateHeight r).node r).right = (t.node r).right := by
    simp [AvlTree.updateHeight, AvlTree.setData, AvlTree.setNode]
  have balance : -1 ≤ (t.updateHeight r).balanceFactor (some r) ∧
      (t.updateHeight r).balanceFactor (some r) ≤ 1 := by
    rcases children with ⟨left, right⟩ | ⟨left, right⟩
    · simp only [AvlTree.balanceFactor, links, left, right, child, leaf]
      decide
    · simp only [AvlTree.balanceFactor, links, left, right, child, leaf]
      decide
  exact rebalance_singleton balance

/-- Beside a single node there is room for any other. -/
theorem insert_beside {r : Node} (root : t.root = some r) (left : (t.node r).left = none)
    (right : (t.node r).right = none) (room : 1 ≤ t.maxPath) : ∃ inserted duplicate t',
    t.insert n k = some (inserted, duplicate, t') ∧ (inserted = true ∨ duplicate = some r) := by
  obtain ⟨room, enough⟩ : ∃ r, t.maxPath = r + 1 := ⟨t.maxPath - 1, by omega⟩
  obtain ⟨u, built⟩ : ∃ u, u = t.setNode n (TreeNode.single k) := ⟨_, rfl⟩
  have bare : (u.node r).left = none ∧ (u.node r).right = none := by
    by_cases same : r = n
    · simp [built, AvlTree.setNode, same, TreeNode.single]
    · simp [built, AvlTree.setNode, same, left, right]
  have new : u.node n = TreeNode.single k := by simp [built, AvlTree.setNode]
  have key : u.key n = k := by
    rw [AvlTree.key, new]
    exact key_word k
  have height : (u.node n).data >>> 32 = 1#64 := by
    rw [new]
    exact height_word k
  have paths : u.maxPath = room + 1 := by rw [built]; exact enough
  have top : u.root = some r := by rw [built]; exact root
  have leaf : ∀ path, u.descend k room path none = .leaf path := fun _ => by cases room <;> rfl
  simp only [AvlTree.insert, ← built, top, paths, AvlTree.descend, bare.1, bare.2, leaf]
  by_cases above : u.key r > k
  · have apart : r ≠ n := by
      intro e
      rw [e, key] at above
      exact absurd (BitVec.lt_def.mp above) (Nat.lt_irrefl _)
    simp only [if_pos above]
    rw [rebalance_beside apart]
    · exact ⟨_, _, _, rfl, .inl rfl⟩
    · simpa [AvlTree.height, AvlTree.setParent, AvlTree.setLeft, AvlTree.setNode, apart.symm] using height
    · left
      simp [AvlTree.setParent, AvlTree.setLeft, AvlTree.setNode, apart, bare]
  · by_cases below : u.key r < k
    · have apart : r ≠ n := by
        intro e
        rw [e, key] at below
        exact absurd (BitVec.lt_def.mp below) (Nat.lt_irrefl _)
      simp only [if_neg above, if_pos below]
      rw [rebalance_beside apart]
      · exact ⟨_, _, _, rfl, .inl rfl⟩
      · simpa [AvlTree.height, AvlTree.setParent, AvlTree.setRight, AvlTree.setNode, apart.symm] using height
      · right
        simp [AvlTree.setParent, AvlTree.setRight, AvlTree.setNode, apart, bare]
    · simp only [if_neg above, if_neg below]
      exact ⟨_, _, _, rfl, .inr rfl⟩

/-! ## What it does not do -/

variable {h : Node} {t' : AvlTree Node}

theorem key_setNode {fields : TreeNode Node} (same : fields.data = (t.node n).data) :
    (t.setNode n fields).key h = t.key h := by
  by_cases here : h = n
  · subst here
    simp [AvlTree.key, AvlTree.setNode, same]
  · simp [AvlTree.key, AvlTree.setNode, here]

@[simp] theorem key_setLeft {link : Option Node} : (t.setLeft n link).key h = t.key h :=
  key_setNode rfl

@[simp] theorem key_setRight {link : Option Node} : (t.setRight n link).key h = t.key h :=
  key_setNode rfl

@[simp] theorem key_setParent {link : Option Node} : (t.setParent n link).key h = t.key h :=
  key_setNode rfl

@[simp] theorem key_setParentOf {m link : Option Node} : (t.setParentOf m link).key h = t.key h := by
  cases m with
  | none => rfl
  | some m => exact key_setParent

@[simp] theorem key_attach {parent : Option Node} {old new : Node} :
    (t.attach parent old new).key h = t.key h := by
  cases parent with
  | none => exact key_setParent
  | some parent =>
      simp only [AvlTree.attach, AvlTree.setChild, key_setParent]
      split_ifs
      · exact key_setLeft
      · exact key_setRight

/-- **A height that is brought up to date costs the key.** -/
theorem key_updateHeight : (t.updateHeight n).key h = if h = n then 0#32 else t.key h := by
  split_ifs with here
  · subst here
    simp only [AvlTree.key, AvlTree.updateHeight, AvlTree.setData, AvlTree.setNode, Function.update_self]
    apply BitVec.eq_of_getLsbD_eq
    intro i bound
    rw [BitVec.getLsbD_setWidth, BitVec.getLsbD_shiftLeft]
    simp [bound]
  · simp [AvlTree.key, AvlTree.updateHeight, AvlTree.setData, AvlTree.setNode, here]

theorem key_rotateRight {top : Node} (gone : t.key h = 0#32)
    (rotated : t.rotateRight n = some (top, t')) : t'.key h = 0#32 := by
  obtain ⟨left, -, done⟩ := Option.map_eq_some_iff.mp rotated
  rw [← (Prod.mk.inj done).2]
  simp [key_updateHeight, gone]

theorem key_rotateLeft {top : Node} (gone : t.key h = 0#32)
    (rotated : t.rotateLeft n = some (top, t')) : t'.key h = 0#32 := by
  obtain ⟨right, -, done⟩ := Option.map_eq_some_iff.mp rotated
  rw [← (Prod.mk.inj done).2]
  simp [key_updateHeight, gone]

theorem key_rebalanceNode {innerLeft innerRight : AvlTree Node → Node → Bool} {parent : Option Node}
    (gone : t.key h = 0#32 ∨ h = n)
    (done : t.rebalanceNode innerLeft innerRight n parent = some t') : t'.key h = 0#32 := by
  have start : (t.updateHeight n).key h = 0#32 := by
    rw [key_updateHeight]
    split_ifs with here
    · rfl
    · exact gone.resolve_right here
  simp only [AvlTree.rebalanceNode] at done
  split_ifs at done with leftHeavy rightHeavy
  · obtain ⟨left, -, done⟩ := Option.bind_eq_some_iff.mp done
    split_ifs at done
    · obtain ⟨⟨top, t₁⟩, first, done⟩ := Option.bind_eq_some_iff.mp done
      obtain ⟨⟨top', t₂⟩, second, done⟩ := Option.bind_eq_some_iff.mp done
      rw [← Option.some.inj done, key_attach]
      exact key_rotateRight (key_setLeft.trans (key_rotateLeft start first)) second
    · obtain ⟨⟨top, t₁⟩, only, done⟩ := Option.bind_eq_some_iff.mp done
      rw [← Option.some.inj done, key_attach]
      exact key_rotateRight start only
  · obtain ⟨right, -, done⟩ := Option.bind_eq_some_iff.mp done
    split_ifs at done
    · obtain ⟨⟨top, t₁⟩, first, done⟩ := Option.bind_eq_some_iff.mp done
      obtain ⟨⟨top', t₂⟩, second, done⟩ := Option.bind_eq_some_iff.mp done
      rw [← Option.some.inj done, key_attach]
      exact key_rotateLeft (key_setRight.trans (key_rotateRight start first)) second
    · obtain ⟨⟨top, t₁⟩, only, done⟩ := Option.bind_eq_some_iff.mp done
      rw [← Option.some.inj done, key_attach]
      exact key_rotateLeft start only
  · rw [← Option.some.inj done]
    exact start

/-- No key comes back on the way up. -/
theorem key_rebalance {innerLeft innerRight : AvlTree Node → Node → Bool} {path : List Node}
    (gone : t.key h = 0#32 ∨ h ∈ path)
    (done : t.rebalance innerLeft innerRight path = some t') : t'.key h = 0#32 := by
  induction path generalizing t with
  | nil =>
      cases done
      simpa using gone
  | cons n path ih =>
      obtain ⟨u, step, rest⟩ := Option.bind_eq_some_iff.mp done
      by_cases later : h ∈ path
      · exact ih (.inr later) rest
      · refine ih (.inl (key_rebalanceNode ?_ step)) rest
        simpa [later] using gone

/-- Below a node of another key that has no child the way down ends. -/
theorem descend_leaf {k' : BitVec 32} (other : k' ≠ k) {room : ℕ} {path : List Node} :
    (if k > k' then t.descend k' room path none else if k < k' then t.descend k' room path none
      else .duplicate h) = .leaf path := by
  have leaf : t.descend k' room path none = .leaf path := by cases room <;> rfl
  rw [leaf]
  split_ifs with higher lower
  · rfl
  · rfl
  · refine absurd (BitVec.eq_of_toNat_eq ?_) other
    have notAbove := BitVec.lt_def.not.mp higher
    have notBelow := BitVec.lt_def.not.mp lower
    omega

/-- The way down for a new key ends below the node of the highest one. -/
theorem Holds.descend_new (holds : Holds t l) {room : ℕ} (enough : 2 ≤ room) {k' : BitVec 32}
    (queued : (h, k) ∈ l) (above : 0#32 < k) (new : k' ∉ l.map Prod.snd) :
    ∃ path, t.descend k' room [] t.root = .leaf (h :: path) := by
  obtain ⟨room, rfl⟩ : ∃ r, room = r + 2 := ⟨room - 2, by omega⟩
  have found := holds.key queued
  cases holds with
  | empty => cases queued
  | one root node =>
      obtain ⟨rfl, rfl⟩ : h = _ ∧ k = _ := by simpa using queued
      have other : k' ≠ k := by simpa using new
      refine ⟨[], ?_⟩
      rw [root, AvlTree.descend]
      simp only [found, node, TreeNode.single]
      exact descend_leaf other
  | @two z _ _ apart above' root low high =>
      rcases List.mem_cons.mp queued with first | second
      · obtain ⟨rfl, rfl⟩ : h = _ ∧ k = _ := by simpa using first
        exact absurd above (by decide)
      · obtain ⟨rfl, rfl⟩ : h = _ ∧ k = _ := by simpa using second
        have zero : t.key z = 0#32 := Holds.key (.two apart above root low high) List.mem_cons_self
        obtain ⟨notZero, other⟩ : k' ≠ 0#32 ∧ k' ≠ k := by simpa using new
        have notBelow : ¬ 0#32 > k' := by simp
        have notEqual : 0#32 < k' :=
          BitVec.lt_def.mpr (Nat.pos_of_ne_zero fun e => notZero (BitVec.eq_of_toNat_eq e))
        refine ⟨[z], ?_⟩
        rw [root, AvlTree.descend]
        simp only [zero, if_neg notBelow, if_pos notEqual, low]
        rw [AvlTree.descend]
        simp only [found, high, TreeNode.single]
        exact descend_leaf other

/-- **A new key beside one that is not 0 costs the latter's node its key.** -/
theorem Holds.insert_costs (holds : Holds t l) (room : 2 ≤ t.maxPath) {k' : BitVec 32}
    (queued : (h, k) ∈ l) (above : 0#32 < k) (new : k' ∉ l.map Prod.snd) (outside : n ∉ l.map Prod.fst)
    {done : Bool} {duplicate : Option Node}
    (inserted : t.insert n k' = some (done, duplicate, t')) : t'.key h = 0#32 := by
  have kept : Holds (t.setNode n (TreeNode.single k')) l := holds.setNode outside
  obtain ⟨path, down⟩ := kept.descend_new room queued above new
  cases found : (t.setNode n (TreeNode.single k')).root with
  | none =>
      rw [found] at down
      simp [AvlTree.descend] at down
  | some root =>
      rw [found] at down
      simp only [AvlTree.insert, found] at inserted
      rw [show (t.setNode n (TreeNode.single k')).maxPath = t.maxPath from rfl, down] at inserted
      obtain ⟨u, rebalanced, result⟩ := Option.map_eq_some_iff.mp inserted
      rw [← (Prod.mk.inj (Prod.mk.inj result).2).2]
      exact key_rebalance (.inr List.mem_cons_self) rebalanced

end Twan.Lib.AvlTree
