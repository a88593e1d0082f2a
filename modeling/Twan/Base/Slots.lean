/-
# Twan.Base.Slots -- slots shared out among holders

A pool of slots of which each is free or held by one holder.  `Shares` says that no two holders
hold one slot and that exactly the slots nobody holds are free; giving free slots to a holder that
has none, and taking the slots of a holder back, keep it.
-/
import Mathlib.Logic.Function.Basic

namespace Twan.Base

set_option autoImplicit false

universe u v

variable {ι : Type u} {σ : Type v}

/-- The slots of the pool, which of them are free, and what each holder holds. -/
structure Shares (pool free : σ → Prop) (held : ι → List σ) : Prop where
  inside : ∀ i, ∀ s ∈ held i, pool s
  apart : ∀ i j, i ≠ j → ∀ s ∈ held i, s ∉ held j
  free_iff : ∀ s, free s ↔ pool s ∧ ∀ i, s ∉ held i

namespace Shares

variable {pool free free' : σ → Prop} {held : ι → List σ}

theorem empty (all : ∀ s, free s ↔ pool s) : Shares pool free (fun _ : ι => []) where
  inside _ _ here := by cases here
  apart _ _ _ _ here := by cases here
  free_iff s := by simp [all s]

/-- A slot that is held is not free. -/
theorem not_free (shares : Shares pool free held) {i : ι} {s : σ} (here : s ∈ held i) :
    ¬ free s := fun isFree => ((shares.free_iff s).mp isFree).2 i here

variable [DecidableEq ι]

/-- After a change of one holder the holders are still disjoint, if it has no slot of another. -/
theorem apart_update (shares : Shares pool free held) {i : ι} {slots : List σ}
    (others : ∀ j, j ≠ i → ∀ s ∈ slots, s ∉ held j) (j k : ι) (distinct : j ≠ k) :
    ∀ s ∈ Function.update held i slots j, s ∉ Function.update held i slots k := by
  intro s here here'
  by_cases same : j = i
  · subst same
    rw [Function.update_self] at here
    rw [Function.update_of_ne distinct.symm] at here'
    exact others k distinct.symm s here here'
  · rw [Function.update_of_ne same] at here
    by_cases same' : k = i
    · subst same'
      rw [Function.update_self] at here'
      exact others j same s here' here
    · rw [Function.update_of_ne same'] at here'
      exact shares.apart j k distinct s here here'

/-- A slot nobody holds after a change of one holder. -/
theorem nobody_update_iff {i : ι} {slots : List σ} {s : σ} :
    (∀ j, s ∉ Function.update held i slots j) ↔ s ∉ slots ∧ ∀ j, j ≠ i → s ∉ held j :=
  Function.forall_update_iff held fun _ holds => s ∉ holds

/-- Free slots are given to a holder that has none. -/
theorem give (shares : Shares pool free held) {i : ι} {slots : List σ} (none : held i = [])
    (given : ∀ s ∈ slots, free s) (left : ∀ s, free' s ↔ free s ∧ s ∉ slots) :
    Shares pool free' (Function.update held i slots) where
  inside := by
    refine (Function.forall_update_iff held fun _ holds => ∀ s ∈ holds, pool s).mpr ⟨?_, ?_⟩
    · exact fun s here => ((shares.free_iff s).mp (given s here)).1
    · exact fun j _ => shares.inside j
  apart := shares.apart_update fun j _ s here here' => shares.not_free here' (given s here)
  free_iff s := by
    rw [left, shares.free_iff s, nobody_update_iff]
    constructor
    · rintro ⟨⟨here, nobody⟩, other⟩
      exact ⟨here, other, fun j _ => nobody j⟩
    · rintro ⟨here, other, nobody⟩
      refine ⟨⟨here, fun j => ?_⟩, other⟩
      by_cases same : j = i
      · rw [same, none]
        exact List.not_mem_nil
      · exact nobody j same

/-- The slots of a holder are taken back. -/
theorem take (shares : Shares pool free held) {i : ι}
    (left : ∀ s, free' s ↔ free s ∨ s ∈ held i) :
    Shares pool free' (Function.update held i []) where
  inside := by
    refine (Function.forall_update_iff held fun _ holds => ∀ s ∈ holds, pool s).mpr ⟨?_, ?_⟩
    · exact fun s here => absurd here List.not_mem_nil
    · exact fun j _ => shares.inside j
  apart := shares.apart_update fun j _ s here => absurd here List.not_mem_nil
  free_iff s := by
    rw [left, shares.free_iff s, nobody_update_iff]
    constructor
    · rintro (⟨here, nobody⟩ | here)
      · exact ⟨here, List.not_mem_nil, fun j _ => nobody j⟩
      · exact ⟨shares.inside i s here, List.not_mem_nil, fun j other =>
          shares.apart i j other.symm s here⟩
    · rintro ⟨here, -, nobody⟩
      by_cases mine : s ∈ held i
      · exact .inr mine
      · refine .inl ⟨here, fun j => ?_⟩
        by_cases same : j = i
        · subst same
          exact mine
        · exact nobody j same

end Shares

end Twan.Base
