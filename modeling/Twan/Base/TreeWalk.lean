/-
# Twan.Base.TreeWalk -- walks that take a search tree apart

A walk visits the nodes of a binary tree from the right to the left, and what it does at a node may
destroy the node's own links and those of nodes it has visited before.  The way back up is kept in an
array of its own, with room for so many entries.

`walk_tree` is the rule for such a walk: with an invariant `I later s` over the nodes that are still to
be visited, which keeps their links as they were, each visit takes one node off, and the array has room
where the tree is no deeper than that.
-/
import Mathlib.Data.List.Basic
import Mathlib.Order.Defs.PartialOrder

namespace Twan.Base.TreeWalk

set_option autoImplicit false

universe u v

inductive Shape (Node : Type u) where
  | leaf
  | node (left : Shape Node) (top : Node) (right : Shape Node)

namespace Shape

variable {Node : Type u}

/-- The nodes from the right to the left. -/
def visits : Shape Node → List Node
  | .leaf => []
  | .node left top right => right.visits ++ top :: left.visits

def depth : Shape Node → ℕ
  | .leaf => 0
  | .node left _ right => max left.depth right.depth + 1

/-- The tree is what is linked from `link`. -/
def Linked (left right : Node → Option Node) : Option Node → Shape Node → Prop
  | link, .leaf => link = none
  | link, .node l top r => link = some top ∧ Linked left right (left top) l ∧
      Linked left right (right top) r

/-- The keys to the right of a node are above its own, and those to the left below. -/
def Search {K : Type v} [LT K] (key : Node → K) : Shape Node → Prop
  | .leaf => True
  | .node l top r => (∀ n ∈ r.visits, key top < key n) ∧ (∀ n ∈ l.visits, key n < key top) ∧
      Search key l ∧ Search key r

/-- A search tree is visited in descending order. -/
theorem Search.descending {K : Type v} [Preorder K] {key : Node → K} {tree : Shape Node}
    (search : tree.Search key) : tree.visits.Pairwise fun m n => key n < key m := by
  induction tree with
  | leaf => exact List.Pairwise.nil
  | node l top r left right =>
      obtain ⟨above, below, searchL, searchR⟩ := search
      refine List.pairwise_append.mpr ⟨right searchR, ?_, ?_⟩
      · exact List.pairwise_cons.mpr ⟨below, left searchL⟩
      · intro m high n low
        rcases List.mem_cons.mp low with rfl | low
        · exact above m high
        · exact lt_trans (below n low) (above m high)

end Shape

/-! ## The walk -/

section Walk

variable {Node : Type u} {σ : Type v}

/-- The nodes on the way to the right, on top of the array.  `none` where it has no room. -/
def descend (right : Node → Option Node) : ℕ → Option Node → List Node → Option (List Node)
  | _, none, stack => some stack
  | 0, some _, _ => none
  | room + 1, some cur, stack => descend right room (right cur) (cur :: stack)

variable (left right : σ → Node → Option Node) (visit : Node → σ → Option σ) (room : ℕ)

/-- A node's left link is read before the node is visited. -/
def walk : ℕ → List Node → Option Node → σ → Option σ
  | 0, _, _, _ => none
  | fuel + 1, stack, cur, s =>
      if stack.isEmpty && cur.isNone then some s
      else
        match descend (right s) (room - stack.length) cur stack with
        | some (cur :: stack) => (visit cur s).bind fun t => walk fuel stack (left s cur) t
        | _ => none

variable {left right visit room} {fuel : ℕ} {stack : List Node} {s : σ}

theorem walk_done : walk left right visit room (fuel + 1) [] none s = some s := rfl

theorem walk_push {n : Node} (space : stack.length < room) :
    walk left right visit room (fuel + 1) stack (some n) s =
      walk left right visit room (fuel + 1) (n :: stack) (right s n) s := by
  have more : room - stack.length = (room - (n :: stack).length) + 1 := by
    rw [List.length_cons]
    omega
  unfold walk
  rw [more]
  simp [descend]

theorem walk_pop {n : Node} : walk left right visit room (fuel + 1) (n :: stack) none s =
    (visit n s).bind fun t => walk left right visit room fuel stack (left s n) t := by
  conv_lhs => unfold walk
  simp [descend]

/-- The rule: the tree is visited, and the array is as before. -/
theorem walk_tree {I : List Node → σ → Prop} {left₀ right₀ : Node → Option Node}
    (fixed : ∀ later s, I later s → ∀ n ∈ later, left s n = left₀ n ∧ right s n = right₀ n)
    (visits : ∀ n later s, I (n :: later) s → ∃ t, visit n s = some t ∧ I later t)
    {tree : Shape Node} {link : Option Node} {later : List Node}
    (linked : tree.Linked left₀ right₀ link) (inv : I (tree.visits ++ later) s)
    (deep : tree.depth + stack.length ≤ room) (fuel : ℕ) :
    ∃ t, walk left right visit room (fuel + tree.visits.length) stack link s =
      walk left right visit room fuel stack none t ∧ I later t := by
  induction tree generalizing link stack later s fuel with
  | leaf =>
      cases linked
      exact ⟨s, rfl, inv⟩
  | node l n r ihL ihR =>
      obtain ⟨rfl, linkedL, linkedR⟩ := linked
      have deepL : l.depth + stack.length ≤ room := by
        simp only [Shape.depth] at deep
        omega
      have deepR : r.depth + (n :: stack).length ≤ room := by
        simp only [Shape.depth] at deep
        simp only [List.length_cons]
        omega
      have space : stack.length < room := by
        simp only [Shape.depth] at deep
        omega
      simp only [Shape.visits, List.append_assoc, List.cons_append] at inv
      have linkR : right s n = right₀ n := (fixed _ s inv n (by simp)).2
      -- the way down, the nodes to the right, the node itself, those to the left
      obtain ⟨t, walkedR, invT⟩ := ihR linkedR inv deepR
        (fuel + l.visits.length + 1)
      obtain ⟨u, visited, invU⟩ := visits n _ t invT
      have linkL : left t n = left₀ n := (fixed _ t invT n (by simp)).1
      obtain ⟨v, walkedL, invV⟩ := ihL linkedL invU deepL fuel
      refine ⟨v, ?_, invV⟩
      have count : fuel + (Shape.node l n r).visits.length =
          fuel + l.visits.length + r.visits.length + 1 := by
        simp only [Shape.visits, List.length_append, List.length_cons]
        omega
      have next : fuel + l.visits.length + 1 + r.visits.length =
        fuel + l.visits.length + r.visits.length + 1 := by omega
      rw [count, walk_push space, linkR, ← next, walkedR, walk_pop, visited, Option.bind_some, linkL,
        walkedL]

end Walk

end Twan.Base.TreeWalk
