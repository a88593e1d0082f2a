/-
# Twan.Base.PriorityFifo -- the abstract priority queue with first-in-first-out ties

A queue is the list of its elements in the order they came.  `front` is the element that such a
queue serves next: the earliest of those with the highest priority.  A queue that keeps one list
per priority serves the head of the highest list that is not empty (`front_of_highest`), and
elements that are kept in order are served in order.
-/
import Mathlib.Order.Lattice

namespace Twan.Base.PriorityFifo

set_option autoImplicit false

universe u v

variable {T : Type u} {P : Type v} [LinearOrder P] (priority : T → P)

/-- The earliest element of highest priority. -/
def front : List T → Option T
  | [] => none
  | t :: queue =>
      match front queue with
      | none => some t
      | some later => if priority t < priority later then some later else some t

/-- `t` is the earliest element of highest priority. -/
def IsFront (queue : List T) (t : T) : Prop :=
  ∃ before after, queue = before ++ t :: after ∧ (∀ u ∈ before, priority u < priority t) ∧
    ∀ u ∈ after, priority u ≤ priority t

variable {priority}

theorem front_eq_none {queue : List T} : front priority queue = none ↔ queue = [] := by
  cases queue with
  | nil => simp [front]
  | cons t queue =>
      refine iff_of_false ?_ (List.cons_ne_nil t queue)
      unfold front
      split
      · simp
      · split_ifs <;> simp

theorem isFront_of_front {queue : List T} {t : T} (served : front priority queue = some t) :
    IsFront priority queue t := by
  induction queue generalizing t with
  | nil => cases served
  | cons first queue ih =>
      unfold front at served
      split at served
      · rename_i none
        cases served
        rw [front_eq_none.mp none]
        exact ⟨[], [], rfl, by simp, by simp⟩
      · rename_i later found
        obtain ⟨before, after, split, lower, atMost⟩ := ih found
        split_ifs at served with higher
        · cases served
          refine ⟨first :: before, after, by rw [split]; rfl, ?_, atMost⟩
          intro u inside
          rcases List.mem_cons.mp inside with rfl | inside
          · exact higher
          · exact lower u inside
        · cases served
          refine ⟨[], queue, rfl, by simp, fun u inside => ?_⟩
          have bound : priority u ≤ priority later := by
            rw [split] at inside
            rcases List.mem_append.mp inside with inside | inside
            · exact le_of_lt (lower u inside)
            · rcases List.mem_cons.mp inside with rfl | inside
              · exact le_refl _
              · exact atMost u inside
          exact le_trans bound (not_lt.mp higher)

/-- The element served is the head of the list of the highest priority. -/
theorem front_of_highest {queue : List T} {p : P} (highest : ∀ t ∈ queue, priority t ≤ p)
    {t : T} (head : (queue.filter fun t => priority t = p).head? = some t) :
    front priority queue = some t := by
  induction queue generalizing t with
  | nil => cases head
  | cons first queue ih =>
      have rest : ∀ t ∈ queue, priority t ≤ p := fun t inside =>
        highest t (List.mem_cons_of_mem first inside)
      unfold front
      by_cases here : priority first = p
      · rw [List.filter_cons_of_pos (by simpa using here)] at head
        cases head
        split
        · rfl
        · rename_i later found
          obtain ⟨before, after, split, _, _⟩ := isFront_of_front found
          have inside : later ∈ queue := by
            rw [split]
            simp
          rw [if_neg (by rw [here]; exact not_lt.mpr (rest later inside))]
      · rw [List.filter_cons_of_neg (by simpa using here)] at head
        have top : priority t = p := by
          have member := List.mem_of_head? head
          simpa using (List.mem_filter.mp member).2
        have lower : priority first < priority t := by
          rw [top]
          exact lt_of_le_of_ne (highest first List.mem_cons_self) here
        rw [ih rest head]
        exact if_pos lower

end Twan.Base.PriorityFifo
