/-
# Twan.Base.Links -- segments of a doubly linked list

`Segment next prev p l e` says that the nodes of `l` are chained in this order by
two link functions, entered from `p` and left towards `e`.  A whole list is a
segment between `none` and `none`; an operation on it is a rewriting of segments:

* `segment_append`: a segment of `a ++ b` is one of `a` and one of `b`;
* `Segment.relink`: the links that leave a segment may be changed, the inner ones
  stay;
* `segment_erase`, `segment_insert`: removal and insertion anywhere, `segment_cons` and
  `segment_snoc` for the two ends;
* `Segment.unique`: the links determine the list.
-/
import Mathlib.Data.List.Nodup
import Mathlib.Data.Option.Basic
import Twan.Base.Literals

namespace Twan.Base

set_option autoImplicit false

universe u

variable {Node : Type u}

/-- The nodes of the list, chained both ways between `p` and `e`. -/
def Segment (next prev : Node → Option Node) : Option Node → List Node → Option Node → Prop
  | _, [], _ => True
  | p, n :: l, e => prev n = p ∧ next n = l.head?.or e ∧ Segment next prev (some n) l e

variable {next prev next' prev' : Node → Option Node} {p p' e e' : Option Node} {l : List Node}

theorem segment_append {a b : List Node} : Segment next prev p (a ++ b) e ↔
    Segment next prev p a (b.head?.or e) ∧ Segment next prev (a.getLast?.or p) b e := by
  induction a generalizing p with
  | nil => simp [Segment]
  | cons n a ih =>
      have last : (n :: a).getLast?.or p = a.getLast?.or (some n) := by
        rw [List.getLast?_cons]
        cases a.getLast? <;> rfl
      have first : (a ++ b).head?.or e = a.head?.or (b.head?.or e) := by
        cases a <;> simp
      simp only [List.cons_append, Segment, ih, last, first]
      tauto

/-- Between two segments that leave towards each other. -/
theorem segment_middle {a b : List Node} {n : Node} :
    Segment next prev none (a ++ n :: b) none ↔
      Segment next prev none a (some n) ∧ prev n = a.getLast? ∧ next n = b.head? ∧
        Segment next prev (some n) b none := by
  rw [segment_append]
  simp [Segment]

theorem Segment.prev_head (chained : Segment next prev p l e) {m : Node}
    (first : l.head? = some m) : prev m = p := by
  cases l with
  | nil => cases first
  | cons n l =>
      obtain rfl : n = m := Option.some.inj first
      exact chained.1

theorem Segment.next_last (chained : Segment next prev p l e) {m : Node}
    (last : l.getLast? = some m) : next m = e := by
  induction l generalizing p with
  | nil => cases last
  | cons n l ih =>
      obtain ⟨-, after, rest⟩ := chained
      cases l with
      | nil =>
          obtain rfl : n = m := Option.some.inj last
          exact after
      | cons k l => exact ih rest (by rwa [List.getLast?_cons_cons] at last)

theorem Segment.relink (chained : Segment next prev p l e) (nodup : l.Nodup)
    (nexts : ∀ m ∈ l, l.getLast? ≠ some m → next' m = next m)
    (last : ∀ m, l.getLast? = some m → next' m = e')
    (prevs : ∀ m ∈ l, l.head? ≠ some m → prev' m = prev m)
    (first : ∀ m, l.head? = some m → prev' m = p') : Segment next' prev' p' l e' := by
  induction l generalizing p p' with
  | nil => trivial
  | cons n l ih =>
      obtain ⟨-, after, rest⟩ := chained
      obtain ⟨notIn, nodup⟩ := List.nodup_cons.mp nodup
      refine ⟨first n rfl, ?_, ?_⟩
      · cases l with
        | nil => exact last n rfl
        | cons m l =>
            rw [nexts n List.mem_cons_self, after]
            · rfl
            · intro e
              rw [List.getLast?_cons_cons] at e
              exact notIn (List.mem_of_getLast? e)
      · cases l with
        | nil => trivial
        | cons m l =>
            apply ih rest nodup
            · intro k inside e
              apply nexts k (List.mem_cons_of_mem n inside)
              rwa [List.getLast?_cons_cons]
            · intro k e
              apply last k
              rwa [List.getLast?_cons_cons]
            · intro k inside _
              apply prevs k (List.mem_cons_of_mem n inside)
              intro e
              rw [List.head?_cons, Option.some.injEq] at e
              exact notIn (e ▸ inside)
            · intro k e
              obtain rfl : m = k := Option.some.inj e
              have apart : (n :: m :: l).head? ≠ some m := by
                rw [List.head?_cons, ne_eq, Option.some.injEq]
                intro e
                exact notIn (e ▸ List.mem_cons_self)
              rw [prevs m (List.mem_cons_of_mem n List.mem_cons_self) apart]
              exact rest.1

/-- A node that is in the list leaves it: its neighbours are linked to each other. -/
theorem segment_erase {a b : List Node} {n : Node} [DecidableEq Node]
    (chained : Segment next prev none (a ++ n :: b) none) (nodup : (a ++ n :: b).Nodup)
    (nexts : ∀ m ∈ a ++ b, next' m = if a.getLast? = some m then b.head? else next m)
    (prevs : ∀ m ∈ a ++ b, prev' m = if b.head? = some m then a.getLast? else prev m) :
    Segment next' prev' none (a ++ b) none := by
  obtain ⟨nodupA, nodupNB, disjoint⟩ := List.nodup_append.mp nodup
  obtain ⟨notB, nodupB⟩ := List.nodup_cons.mp nodupNB
  have sep : ∀ m ∈ a, m ∉ b := fun m inA inB => disjoint m inA m (List.mem_cons_of_mem n inB) rfl
  obtain ⟨chainA, -, -, chainB⟩ := segment_middle.mp chained
  rw [segment_append]
  constructor
  · apply chainA.relink nodupA
    · intro m inside notLast
      rw [nexts m (List.mem_append_left b inside)]
      exact if_neg notLast
    · intro m last
      rw [nexts m (List.mem_append_left b (List.mem_of_getLast? last))]
      simp [last]
    · intro m inside _
      rw [prevs m (List.mem_append_left b inside)]
      exact if_neg fun e => sep m inside (List.mem_of_mem_head? e)
    · intro m first
      have inside : m ∈ a := List.mem_of_mem_head? first
      rw [prevs m (List.mem_append_left b inside)]
      refine (if_neg fun e => sep m inside (List.mem_of_mem_head? e)).trans ?_
      exact chainA.prev_head first
  · apply chainB.relink nodupB
    · intro m inside _
      rw [nexts m (List.mem_append_right a inside)]
      exact if_neg fun e => sep m (List.mem_of_getLast? e) inside
    · intro m last
      have inside : m ∈ b := List.mem_of_getLast? last
      rw [nexts m (List.mem_append_right a inside)]
      refine (if_neg fun e => sep m (List.mem_of_getLast? e) inside).trans ?_
      exact chainB.next_last last
    · intro m inside notFirst
      rw [prevs m (List.mem_append_right a inside)]
      exact if_neg notFirst
    · intro m first
      rw [prevs m (List.mem_append_right a (List.mem_of_mem_head? first))]
      simp [first]

/-- A new node comes between two parts of the list. -/
theorem segment_insert {a b : List Node} {n : Node} [DecidableEq Node]
    (chained : Segment next prev none (a ++ b) none) (nodup : (a ++ b).Nodup)
    (before : prev' n = a.getLast?) (after : next' n = b.head?)
    (nexts : ∀ m ∈ a ++ b, next' m = if a.getLast? = some m then some n else next m)
    (prevs : ∀ m ∈ a ++ b, prev' m = if b.head? = some m then some n else prev m) :
    Segment next' prev' none (a ++ n :: b) none := by
  obtain ⟨nodupA, nodupB, disjoint⟩ := List.nodup_append.mp nodup
  obtain ⟨chainA, chainB⟩ := segment_append.mp chained
  refine segment_middle.mpr ⟨?_, before, after, ?_⟩
  · apply chainA.relink nodupA
    · intro m inside notLast
      rw [nexts m (List.mem_append_left b inside), if_neg notLast]
    · intro m last
      rw [nexts m (List.mem_append_left b (List.mem_of_getLast? last)), if_pos last]
    · intro m inside _
      rw [prevs m (List.mem_append_left b inside)]
      exact if_neg fun e => disjoint m inside m (List.mem_of_mem_head? e) rfl
    · intro m first
      have inside : m ∈ a := List.mem_of_mem_head? first
      rw [prevs m (List.mem_append_left b inside)]
      refine (if_neg fun e => disjoint m inside m (List.mem_of_mem_head? e) rfl).trans ?_
      exact chainA.prev_head first
  · apply chainB.relink nodupB
    · intro m inside _
      rw [nexts m (List.mem_append_right a inside)]
      exact if_neg fun e => disjoint m (List.mem_of_getLast? e) m inside rfl
    · intro m last
      have inside : m ∈ b := List.mem_of_getLast? last
      rw [nexts m (List.mem_append_right a inside)]
      refine (if_neg fun e => disjoint m (List.mem_of_getLast? e) m inside rfl).trans ?_
      exact chainB.next_last last
    · intro m inside notFirst
      rw [prevs m (List.mem_append_right a inside), if_neg notFirst]
    · intro m first
      rw [prevs m (List.mem_append_right a (List.mem_of_mem_head? first)), if_pos first]

/-- A new node comes to the front. -/
theorem segment_cons {n : Node} [DecidableEq Node] (chained : Segment next prev none l none)
    (nodup : l.Nodup) (after : next' n = l.head?) (before : prev' n = none)
    (nexts : ∀ m ∈ l, next' m = next m)
    (prevs : ∀ m ∈ l, prev' m = if l.head? = some m then some n else prev m) :
    Segment next' prev' none (n :: l) none :=
  segment_insert (a := []) chained nodup before after (by simpa using nexts) prevs

/-- A new node comes to the end. -/
theorem segment_snoc {n : Node} [DecidableEq Node] (chained : Segment next prev none l none)
    (nodup : l.Nodup) (before : prev' n = l.getLast?) (after : next' n = none)
    (nexts : ∀ m ∈ l, next' m = if l.getLast? = some m then some n else next m)
    (prevs : ∀ m ∈ l, prev' m = prev m) : Segment next' prev' none (l ++ [n]) none := by
  rw [← List.append_nil l] at chained nodup
  apply segment_insert chained nodup before after
  · simpa using nexts
  · simpa using prevs

/-- The first node and the links determine a whole list. -/
theorem Segment.unique {l' : List Node} (left : Segment next prev p l none)
    (right : Segment next prev p' l' none) (same : l.head? = l'.head?) : l = l' := by
  induction l generalizing p p' l' with
  | nil =>
      cases l' with
      | nil => rfl
      | cons n l' => cases same
  | cons n l ih =>
      cases l' with
      | nil => cases same
      | cons m l' =>
          obtain rfl : n = m := Option.some.inj same
          obtain ⟨-, after, rest⟩ := left
          obtain ⟨-, after', rest'⟩ := right
          rw [Option.or_none] at after after'
          rw [ih rest rest' (after.symm.trans after')]

theorem Segment.congr (chained : Segment next prev p l e)
    (same : ∀ m ∈ l, next' m = next m ∧ prev' m = prev m) : Segment next' prev' p l e := by
  induction l generalizing p with
  | nil => trivial
  | cons n l ih =>
      obtain ⟨before, after, rest⟩ := chained
      obtain ⟨sameNext, samePrev⟩ := same n List.mem_cons_self
      exact ⟨samePrev.trans before, sameNext.trans after,
        ih rest fun m inside => same m (List.mem_cons_of_mem n inside)⟩

end Twan.Base
