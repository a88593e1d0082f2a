/-
# Twan.Base.Latch -- items claimed by workers and added to one counter

Several workers share a counter of finished items.  A worker first claims items,
each of them once, and only later adds the number it holds to the counter, in a
separate atomic step.  `Ok` is the bookkeeping that makes this sound: no item is
held twice or held and counted, and the items taken are exactly those.

* `Ok.claim`, `Ok.add`: the two moves keep it;
* `Ok.lt_of_held`: the counter is short of the total while anybody holds an item,
  so an addition of at least one item that reaches the total is the last one;
* `Ok.mem_of_full`, `Ok.full_of_taken`: the counter is at the total exactly when
  every item has been added.
-/
import Mathlib.Data.Fintype.Card
import Mathlib.Data.List.Nodup

namespace Twan.Base

set_option autoImplicit false

universe u v

/-- What each worker has claimed and not yet added, and the items added so far. -/
structure Latch (W : Type u) (I : Type v) where
  held : W → List I
  counted : List I

namespace Latch

variable {W : Type u} {I : Type v}

/-- The items taken are held by one worker or counted, each of them once. -/
structure Ok (l : Latch W I) (taken : I → Prop) : Prop where
  counted_nodup : l.counted.Nodup
  held_nodup : ∀ w, (l.held w).Nodup
  fresh : ∀ w i, i ∈ l.held w → i ∉ l.counted
  apart : ∀ v w i, i ∈ l.held v → i ∈ l.held w → v = w
  taken_iff : ∀ i, taken i ↔ i ∈ l.counted ∨ ∃ w, i ∈ l.held w

variable {l : Latch W I} {taken taken' : I → Prop} {w : W} {i : I}

theorem Ok.congr (ok : l.Ok taken) (same : ∀ i, taken' i ↔ taken i) : l.Ok taken' :=
  { ok with taken_iff := fun i => (same i).trans (ok.taken_iff i) }

theorem Ok.taken_of_held (ok : l.Ok taken) (mine : i ∈ l.held w) : taken i :=
  (ok.taken_iff i).mpr (.inr ⟨w, mine⟩)

section Total

variable [Fintype I]

theorem Ok.mem_of_full (ok : l.Ok taken) (full : l.counted.length = Fintype.card I) (i : I) :
    i ∈ l.counted := by
  classical
  have whole : l.counted.toFinset = Finset.univ := by
    apply Finset.eq_univ_of_card
    rw [List.toFinset_card_of_nodup ok.counted_nodup, full]
  exact List.mem_toFinset.mp (whole ▸ Finset.mem_univ i)

theorem Ok.length_le (ok : l.Ok taken) : l.counted.length ≤ Fintype.card I :=
  ok.counted_nodup.length_le_card

/-- While a worker holds an item, the counter is short of the total. -/
theorem Ok.lt_of_held (ok : l.Ok taken) (mine : i ∈ l.held w) :
    l.counted.length < Fintype.card I := by
  apply lt_of_le_of_ne ok.length_le
  intro full
  exact ok.fresh w i mine (ok.mem_of_full full i)

theorem Ok.full_of_taken (ok : l.Ok taken) (all : ∀ i, taken i) (nobody : ∀ w, l.held w = []) :
    l.counted.length = Fintype.card I := by
  classical
  have whole : l.counted.toFinset = Finset.univ := by
    apply Finset.eq_univ_of_forall
    intro i
    rcases (ok.taken_iff i).mp (all i) with paid | ⟨w, mine⟩
    · exact List.mem_toFinset.mpr paid
    · simp [nobody w] at mine
  rw [← List.toFinset_card_of_nodup ok.counted_nodup, whole, Finset.card_univ]

end Total

section Moves

variable [DecidableEq W]

def claim (l : Latch W I) (w : W) (i : I) : Latch W I :=
  { l with held := Function.update l.held w (l.held w ++ [i]) }

def add (l : Latch W I) (w : W) : Latch W I :=
  ⟨Function.update l.held w [], l.counted ++ l.held w⟩

theorem mem_claim {v : W} {j : I} :
    j ∈ (l.claim w i).held v ↔ j ∈ l.held v ∨ (v = w ∧ j = i) := by
  by_cases same : v = w
  · subst same
    simp [claim]
  · simp [claim, same]

theorem mem_add {v : W} {j : I} : j ∈ (l.add w).held v ↔ v ≠ w ∧ j ∈ l.held v := by
  by_cases same : v = w
  · subst same
    simp [add]
  · simp [add, same]

theorem Ok.claim (ok : l.Ok taken) (free : ¬ taken i)
    (next : ∀ j, taken' j ↔ j = i ∨ taken j) : (l.claim w i).Ok taken' := by
  have notHeld : ∀ v, i ∉ l.held v := fun v mine => free (ok.taken_of_held mine)
  have notCounted : i ∉ l.counted := fun paid => free ((ok.taken_iff i).mpr (.inl paid))
  refine ⟨ok.counted_nodup, ?_, ?_, ?_, ?_⟩
  · intro v
    by_cases same : v = w
    · subst same
      show (Function.update l.held v (l.held v ++ [i]) v).Nodup
      rw [Function.update_self]
      exact List.nodup_append.mpr ⟨ok.held_nodup v, List.nodup_singleton i, by
        intro a inHeld b single e
        rw [List.mem_singleton.mp single] at e
        exact notHeld v (e ▸ inHeld)⟩
    · show (Function.update l.held w (l.held w ++ [i]) v).Nodup
      rw [Function.update_of_ne same]
      exact ok.held_nodup v
  · intro v j mine
    rcases mem_claim.mp mine with old | ⟨-, e⟩
    · exact ok.fresh v j old
    · rw [e]
      exact notCounted
  · intro v v' j mine mine'
    rcases mem_claim.mp mine with old | ⟨at_w, e⟩ <;> rcases mem_claim.mp mine' with old' | ⟨at_w', e'⟩
    · exact ok.apart v v' j old old'
    · exact absurd (e' ▸ old) (notHeld v)
    · exact absurd (e ▸ old') (notHeld v')
    · rw [at_w, at_w']
  · intro j
    rw [next, ok.taken_iff]
    show (j = i ∨ j ∈ l.counted ∨ ∃ v, j ∈ l.held v) ↔
      (j ∈ l.counted ∨ ∃ v, j ∈ (l.claim w i).held v)
    simp only [mem_claim]
    grind

theorem Ok.add (ok : l.Ok taken) (w : W) : (l.add w).Ok taken := by
  refine ⟨?_, ?_, ?_, ?_, ?_⟩
  · exact List.nodup_append.mpr ⟨ok.counted_nodup, ok.held_nodup w, by
      intro a paid b mine e
      exact ok.fresh w b mine (e ▸ paid)⟩
  · intro v
    by_cases same : v = w
    · subst same
      simp [Latch.add]
    · simpa [Latch.add, same] using ok.held_nodup v
  · intro v j mine paid
    obtain ⟨other, old⟩ := mem_add.mp mine
    rcases List.mem_append.mp paid with before | now
    · exact ok.fresh v j old before
    · exact other (ok.apart v w j old now)
  · intro v v' j mine mine'
    exact ok.apart v v' j (mem_add.mp mine).2 (mem_add.mp mine').2
  · intro j
    rw [ok.taken_iff]
    show _ ↔ (j ∈ l.counted ++ l.held w ∨ ∃ v, j ∈ (l.add w).held v)
    simp only [mem_add, List.mem_append]
    grind

end Moves

end Latch

end Twan.Base
