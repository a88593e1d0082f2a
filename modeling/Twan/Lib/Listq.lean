/-
# Twan.Lib.Listq -- lists whose first and last nodes know each other

`include/lib/dsa/listq.h`: a list without a record of its own.  Its nodes are chained by `prev`
and `next`; the first node finds the last one by `rear` and the last one finds the first by
`front`, unless they are the same.  Whoever holds the first node holds the list.

`Linked q l` says that the nodes of `l` are such a list.  `Linked.pushback` and
`Linked.disconnect` say what the two operations make of it; nodes of no list and of other lists
keep their links.
-/
import Twan.Base.Links

namespace Twan.Lib.Listq

set_option autoImplicit false
set_option linter.dupNamespace false

open Twan.Base

/-- `struct listq`. -/
structure Listq (Node : Type) where
  prev : Option Node
  next : Option Node
  rear : Option Node
  front : Option Node
  deriving DecidableEq

variable {Node : Type}

/-- A node that is in no list, or alone in its own. -/
def Listq.null : Listq Node := ⟨none, none, none, none⟩

variable [DecidableEq Node] (q : Node → Listq Node)

def setPrev (n : Node) (link : Option Node) : Node → Listq Node :=
  Function.update q n { q n with prev := link }

def setNext (n : Node) (link : Option Node) : Node → Listq Node :=
  Function.update q n { q n with next := link }

def setRear (n : Node) (link : Option Node) : Node → Listq Node :=
  Function.update q n { q n with rear := link }

def setFront (n : Node) (link : Option Node) : Node → Listq Node :=
  Function.update q n { q n with front := link }

/-- `listq_pushback(front, node)`. -/
def pushback (front n : Node) : Node → Listq Node :=
  let q := Function.update q n Listq.null
  let q := match (q front).rear with
    | some rear => setPrev (setNext (setFront q rear none) rear (some n)) n (some rear)
    | none => setPrev (setNext q front (some n)) n (some front)
  setRear (setFront q n (some front)) front (some n)

/-- The branches of `listq_disconnect`, in which no link is read after it was written.  `none`
where they go through a NULL `prev` or `next`. -/
def unlink (n : Node) : Option (Node → Listq Node) :=
  match (q n).front, (q n).rear with
  | some front, _ =>
      (q n).prev.map fun prev =>
        let q := if prev ≠ front then setRear (setFront q prev (some front)) front (some prev)
          else setRear q front none
        setNext q prev none
  | none, some rear =>
      (q n).next.map fun next =>
        let q := if next ≠ rear then setFront (setRear q next (some rear)) rear (some next)
          else setFront q rear none
        setPrev q next none
  | none, none =>
      match (q n).next, (q n).prev with
      | some next, some prev => some (setNext (setPrev q next (some prev)) prev (some next))
      | some next, none => some (setPrev q next none)
      | none, some prev => some (setNext q prev none)
      | none, none => some q

/-- `listq_disconnect(node)`: the node that followed, and the links. -/
def disconnect (n : Node) : Option (Option Node × (Node → Listq Node)) :=
  (unlink q n).map fun q' => ((q n).next, Function.update q' n Listq.null)

/-! ## Lists -/

variable {q}

/-- The nodes of `l` form one list. -/
structure Linked (q : Node → Listq Node) (l : List Node) : Prop where
  chain : Segment (fun n => (q n).next) (fun n => (q n).prev) none l none
  rear : ∀ n ∈ l, (q n).rear = if l.head? = some n then l.tail.getLast? else none
  front : ∀ n ∈ l, (q n).front = if l.getLast? = some n then l.dropLast.head? else none
  nodup : l.Nodup

variable {l : List Node} {n m : Node}

theorem linked_nil : Linked q [] :=
  ⟨trivial, by simp, by simp, List.nodup_nil⟩

theorem linked_singleton (alone : q n = Listq.null) : Linked q [n] := by
  refine ⟨?_, ?_, ?_, List.nodup_singleton n⟩
  · simp [Segment, alone, Listq.null]
  · simp [alone, Listq.null]
  · simp [alone, Listq.null]

theorem Linked.congr {q' : Node → Listq Node} (linked : Linked q l)
    (same : ∀ m ∈ l, q' m = q m) : Linked q' l where
  chain := linked.chain.congr fun m inside => by rw [same m inside]; exact ⟨rfl, rfl⟩
  rear := fun m inside => by rw [same m inside]; exact linked.rear m inside
  front := fun m inside => by rw [same m inside]; exact linked.front m inside
  nodup := linked.nodup

/-! ### A node at the end -/

/-- The links after `listq_pushback`, node by node. -/
theorem Linked.pushback_apply {h : Node} {t : List Node} (linked : Linked q (h :: t))
    (outside : n ∉ h :: t) : pushback q h n m = if m = n
      then ⟨(h :: t).getLast?, none, none, some h⟩
      else ⟨(q m).prev, if (h :: t).getLast? = some m then some n else (q m).next,
        if h = m then some n else (q m).rear,
        if (h :: t).getLast? = some m then none else (q m).front⟩ := by
  have other : h ≠ n := fun e => outside (e ▸ List.mem_cons_self)
  have rear : (q h).rear = t.getLast? := by
    rw [linked.rear h List.mem_cons_self]
    simp
  have last : (h :: t).getLast? = some (t.getLast?.getD h) := List.getLast?_cons
  cases found : t.getLast? with
  | none =>
      have front : (q h).front = none := by
        rw [linked.front h List.mem_cons_self, List.getLast?_eq_none_iff.mp found]
        simp
      rw [last, found]
      by_cases atNew : m = n
      · subst atNew
        simp [pushback, setPrev, setNext, setFront, setRear, other, other.symm, rear, found, Listq.null]
      · by_cases atFirst : h = m
        · subst atFirst
          simp [pushback, setPrev, setNext, setFront, setRear, other, rear, found, front]
        · simp [pushback, setPrev, setNext, setFront, setRear, other, rear, found, atNew, atFirst,
            Ne.symm atFirst]
  | some r =>
      have inside : r ∈ t := List.mem_of_getLast? found
      have apart : r ≠ h := fun e => (List.nodup_cons.mp linked.nodup).1 (e ▸ inside)
      have old : r ≠ n := fun e => outside (e ▸ List.mem_cons_of_mem h inside)
      rw [last, found]
      by_cases atNew : m = n
      · subst atNew
        simp [pushback, setPrev, setNext, setFront, setRear, other, other.symm, rear, found,
          Listq.null, old.symm]
      · by_cases atFirst : h = m
        · subst atFirst
          simp [pushback, setPrev, setNext, setFront, setRear, other, rear, found, apart, apart.symm]
        · by_cases atLast : r = m
          · subst atLast
            simp [pushback, setPrev, setNext, setFront, setRear, other, rear, found, atNew, atFirst,
              Ne.symm atFirst]
          · simp [pushback, setPrev, setNext, setFront, setRear, other, rear, found, atNew, atFirst,
              Ne.symm atFirst, atLast, Ne.symm atLast]

theorem Linked.pushback {h : Node} {t : List Node} (linked : Linked q (h :: t))
    (outside : n ∉ h :: t) : Linked (pushback q h n) (h :: t ++ [n]) := by
  have other : ∀ m ∈ h :: t, m ≠ n := fun m inside e => outside (e ▸ inside)
  refine ⟨?_, ?_, ?_, ?_⟩
  · apply segment_snoc linked.chain linked.nodup
    · simp only [linked.pushback_apply outside, if_pos]
    · simp only [linked.pushback_apply outside, if_pos]
    · intro m inside
      simp only [linked.pushback_apply outside, if_neg (other m inside)]
    · intro m inside
      simp only [linked.pushback_apply outside, if_neg (other m inside)]
  · intro m inside
    rw [linked.pushback_apply outside]
    rcases List.mem_append.mp inside with old | new
    · rw [if_neg (other m old)]
      by_cases first : h = m
      · simp [first]
      · simp [first, linked.rear m old]
    · have here : m = n := List.mem_singleton.mp new
      have apart : h ≠ n := other h List.mem_cons_self
      simp [here, apart]
  · intro m inside
    rw [linked.pushback_apply outside, List.getLast?_concat, List.dropLast_concat]
    rcases List.mem_append.mp inside with old | new
    · rw [if_neg (other m old)]
      have apart : ¬ n = m := fun e => other m old e.symm
      by_cases last : (h :: t).getLast? = some m
      · simp [last, apart]
      · simp [last, apart, linked.front m old]
    · simp [List.mem_singleton.mp new]
  · refine List.nodup_append.mpr ⟨linked.nodup, List.nodup_singleton n, ?_⟩
    intro m inside k single e
    exact outside (List.mem_singleton.mp single ▸ e ▸ inside)

/-- Other nodes keep their links. -/
theorem Linked.pushback_frame {h : Node} {t : List Node} (linked : Linked q (h :: t))
    (outside : n ∉ h :: t) (other : m ≠ n) (away : m ∉ h :: t) :
    Twan.Lib.Listq.pushback q h n m = q m := by
  have first : h ≠ m := fun e => away (e ▸ List.mem_cons_self)
  have last : (h :: t).getLast? ≠ some m := fun e => away (List.mem_of_getLast? e)
  rw [linked.pushback_apply outside, if_neg other, if_neg last, if_neg first, if_neg last]

/-! ### A node leaves -/

section Leave

variable {a b : List Node}

/-- The links of a node in the list. -/
theorem Linked.links (linked : Linked q (a ++ n :: b)) : q n = ⟨a.getLast?, b.head?,
    if a = [] then b.getLast? else none, if b = [] then a.head? else none⟩ := by
  have inside : n ∈ a ++ n :: b := by simp
  obtain ⟨-, nodupB, disjoint⟩ := List.nodup_append.mp linked.nodup
  have notB : n ∉ b := (List.nodup_cons.mp nodupB).1
  have notA : n ∉ a := fun here => disjoint n here n List.mem_cons_self rfl
  obtain ⟨-, prev, next, -⟩ := segment_middle.mp linked.chain
  have rear : (q n).rear = if a = [] then b.getLast? else none := by
    rw [linked.rear n inside]
    cases a with
    | nil => simp
    | cons x a =>
        have apart : x ≠ n := fun e => notA (e ▸ List.mem_cons_self)
        simp [apart]
  have front : (q n).front = if b = [] then a.head? else none := by
    rw [linked.front n inside]
    rcases List.eq_nil_or_concat b with rfl | ⟨b, x, rfl⟩
    · simp
    · have apart : some x ≠ some n := fun e => notB (by simp [Option.some.inj e])
      rw [List.concat_eq_append, ← List.cons_append, ← List.append_assoc, List.getLast?_concat,
        if_neg apart]
      simp
  rw [← prev, ← next, ← rear, ← front]

omit [DecidableEq Node] in
theorem getLast?_ends (h p : Node) (a : List Node) : (h :: (a ++ [p])).getLast? = some p :=
  List.getLast?_concat (l := h :: a)

omit [DecidableEq Node] in
theorem dropLast_ends (h p : Node) (a : List Node) : (h :: (a ++ [p])).dropLast = h :: a := by
  rw [← List.cons_append, List.dropLast_concat]

/-- The links after the branches of `listq_disconnect`, node by node. -/
theorem Linked.unlink_apply (linked : Linked q (a ++ n :: b)) : ∃ q', unlink q n = some q' ∧
    ∀ m ≠ n, q' m = ⟨if b.head? = some m then a.getLast? else (q m).prev,
      if a.getLast? = some m then b.head? else (q m).next,
      if a = [] ∧ b.head? = some m then b.tail.getLast?
        else if b = [] ∧ a.head? = some m then a.tail.getLast? else (q m).rear,
      if b = [] ∧ a.getLast? = some m then a.dropLast.head?
        else if a = [] ∧ b.getLast? = some m then b.dropLast.head? else (q m).front⟩ := by
  have links := linked.links
  obtain ⟨nodupA, nodupB, disjoint⟩ := List.nodup_append.mp linked.nodup
  rcases List.eq_nil_or_concat a with rfl | ⟨a, p, rfl⟩
  · cases b with
    | nil =>
        refine ⟨q, by simp [unlink, links], fun m other => ?_⟩
        simp
    | cons x b =>
        rcases List.eq_nil_or_concat b with rfl | ⟨b, r, rfl⟩
        · refine ⟨setPrev (setFront q x none) x none, by simp [unlink, links], fun m other => ?_⟩
          by_cases atNext : x = m
          · subst atNext
            have rear : (q x).rear = none := by
              rw [linked.rear x (by simp)]
              simp [other.symm]
            simp [setPrev, setFront, rear]
          · simp [setPrev, setFront, atNext, Ne.symm atNext]
        · have apart : x ≠ r := by
            intro e
            simp [e] at nodupB
          rw [List.concat_eq_append] at links ⊢
          refine ⟨setPrev (setFront (setRear q x (some r)) r (some x)) x none, ?_,
            fun m other => ?_⟩
          · simp [unlink, links, getLast?_ends, apart]
          · by_cases atNext : x = m
            · subst atNext
              simp [setPrev, setFront, setRear, getLast?_ends, apart, apart.symm]
            · by_cases atRear : r = m
              · subst atRear
                simp [setPrev, setFront, setRear, getLast?_ends, dropLast_ends, apart, apart.symm]
              · simp [setPrev, setFront, setRear, getLast?_ends, atNext, Ne.symm atNext, atRear,
                  Ne.symm atRear]
  · have notB : ∀ x ∈ b, x ≠ p := fun x inside e =>
      disjoint p (by simp) x (List.mem_cons_of_mem n inside) e.symm
    rw [List.concat_eq_append] at *
    cases b with
    | nil =>
        cases a with
        | nil =>
            refine ⟨setNext (setRear q p none) p none, by simp [unlink, links], fun m other => ?_⟩
            by_cases atPrev : p = m
            · subst atPrev
              have front : (q p).front = none := by
                rw [linked.front p (by simp)]
                simp [other.symm]
              simp [setNext, setRear, front]
            · simp [setNext, setRear, atPrev, Ne.symm atPrev]
        | cons h a =>
            have apart : p ≠ h := by
              intro e
              simp [e] at nodupA
            refine ⟨setNext (setRear (setFront q p (some h)) h (some p)) p none, ?_,
              fun m other => ?_⟩
            · simp [unlink, links, getLast?_ends, apart]
            · by_cases atPrev : p = m
              · subst atPrev
                simp [setNext, setFront, setRear, getLast?_ends, dropLast_ends, apart, apart.symm]
              · by_cases atFront : h = m
                · subst atFront
                  simp [setNext, setFront, setRear, getLast?_ends, apart, apart.symm]
                · simp [setNext, setFront, setRear, getLast?_ends, atPrev, Ne.symm atPrev, atFront,
                    Ne.symm atFront]
    | cons x b =>
        have apart : x ≠ p := notB x List.mem_cons_self
        refine ⟨setNext (setPrev q x (some p)) p (some x), by simp [unlink, links], fun m other => ?_⟩
        by_cases atPrev : p = m
        · subst atPrev
          simp [setNext, setPrev, apart, apart.symm]
        · by_cases atNext : x = m
          · subst atNext
            simp [setNext, setPrev, apart, apart.symm]
          · simp [setNext, setPrev, atPrev, Ne.symm atPrev, atNext, Ne.symm atNext]

theorem Linked.not_mem (linked : Linked q (a ++ n :: b)) : n ∉ a ++ b := by
  obtain ⟨-, nodupB, disjoint⟩ := List.nodup_append.mp linked.nodup
  intro inside
  rcases List.mem_append.mp inside with inA | inB
  · exact disjoint n inA n List.mem_cons_self rfl
  · exact (List.nodup_cons.mp nodupB).1 inB

/-- **The node is gone, and the others are one list in the same order.** -/
theorem Linked.disconnect (linked : Linked q (a ++ n :: b)) : ∃ q',
    disconnect q n = some (b.head?, q') ∧ Linked q' (a ++ b) ∧ q' n = Listq.null ∧
      ∀ m ∉ a ++ n :: b, q' m = q m := by
  obtain ⟨q', branches, links⟩ := linked.unlink_apply
  have next : (q n).next = b.head? := by rw [linked.links]
  have notIn := linked.not_mem
  have other : ∀ m ∈ a ++ b, m ≠ n := fun m inside e => notIn (e ▸ inside)
  have member : ∀ m ∈ a ++ b, m ∈ a ++ n :: b := by
    intro m inside
    rcases List.mem_append.mp inside with inA | inB
    · exact List.mem_append_left _ inA
    · exact List.mem_append_right _ (List.mem_cons_of_mem n inB)
  refine ⟨Function.update q' n Listq.null, by simp [Listq.disconnect, branches, next], ?_, by simp, ?_⟩
  · refine Linked.congr (q := q') ?_ fun m inside => Function.update_of_ne (other m inside) ..
    refine ⟨?_, ?_, ?_, ?_⟩
    · apply segment_erase linked.chain linked.nodup
      · intro m inside
        simp only [links m (other m inside)]
      · intro m inside
        simp only [links m (other m inside)]
    · intro m inside
      have old := linked.rear m (member m inside)
      have apart : n ≠ m := (other m inside).symm
      rw [links m (other m inside)]
      cases a with
      | nil =>
          have none : (q m).rear = none := by simpa [apart] using old
          simp [none]
      | cons h a =>
          rcases List.eq_nil_or_concat b with rfl | ⟨b, r, rfl⟩
          · by_cases first : h = m
            · simp [first]
            · simpa [first] using old
          · by_cases first : h = m
            · simpa [first, getLast?_ends] using old
            · simpa [first] using old
    · intro m inside
      have old := linked.front m (member m inside)
      have apart : n ≠ m := (other m inside).symm
      rw [links m (other m inside)]
      rcases List.eq_nil_or_concat b with rfl | ⟨b, r, rfl⟩
      · have none : (q m).front = none := by simpa [apart] using old
        simp [none]
      · rw [List.concat_eq_append] at *
        rw [← List.cons_append, ← List.append_assoc, List.getLast?_concat, List.dropLast_concat] at old
        have last : (a ++ (b ++ [r])).getLast? = some r := by simp
        have rest : (a ++ (b ++ [r])).dropLast = a ++ b := by
          rw [← List.append_assoc, List.dropLast_concat]
        rw [last, rest]
        cases a with
        | nil =>
            by_cases last : r = m
            · simp [last]
            · simpa [last] using old
        | cons h a =>
            by_cases last : r = m
            · simpa [last] using old
            · simpa [last] using old
    · exact linked.nodup.sublist ((List.sublist_cons_self n b).append_left a)
  · intro m outside
    have apart : m ≠ n := fun e => outside (by simp [e])
    have notA : m ∉ a := fun inside => outside (List.mem_append_left _ inside)
    have notB : m ∉ b := fun inside =>
      outside (List.mem_append_right _ (List.mem_cons_of_mem n inside))
    have lastA : a.getLast? ≠ some m := fun e => notA (List.mem_of_getLast? e)
    have headA : a.head? ≠ some m := fun e => notA (List.mem_of_mem_head? e)
    have lastB : b.getLast? ≠ some m := fun e => notB (List.mem_of_getLast? e)
    have headB : b.head? ≠ some m := fun e => notB (List.mem_of_mem_head? e)
    rw [Function.update_of_ne apart, links m apart]
    simp [lastA, headA, lastB, headB]

end Leave

end Twan.Lib.Listq
