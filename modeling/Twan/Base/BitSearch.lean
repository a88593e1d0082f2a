/-
# Twan.Base.BitSearch -- the lowest and the highest set bit of a word

What a search for a bit should find in a word of any width: `Lowest` and `Highest`, the first set bit
from either end, which the word determines (`First.unique`).  A search of a long word goes through
its parts: `Lowest.append` from the low one, `Highest.append` from the high one.
-/
import Mathlib.Data.Nat.Notation
import Mathlib.Tactic.Common

namespace Twan.Base

set_option autoImplicit false

variable {m n : ℕ}

/-- The set bit that has none before it, if any is set. -/
def First (before : ℕ → ℕ → Prop) (value : BitVec n) : Option ℕ → Prop
  | none => ∀ i, value.getLsbD i = false
  | some k => value.getLsbD k = true ∧ ∀ i, before i k → value.getLsbD i = false

abbrev Lowest (value : BitVec n) : Option ℕ → Prop := First (· < ·) value

abbrev Highest (value : BitVec n) : Option ℕ → Prop := First (· > ·) value

variable {before : ℕ → ℕ → Prop} {value : BitVec n} {a b : Option ℕ}

theorem First.unique (total : ∀ j k, before j k ∨ j = k ∨ before k j)
    (found : First before value a) (found' : First before value b) : a = b := by
  cases a with
  | none =>
      cases b with
      | none => rfl
      | some k => exact absurd found'.1 (by simp [found k])
  | some j =>
      cases b with
      | none => exact absurd found.1 (by simp [found' j])
      | some k =>
          rcases total j k with earlier | same | later
          · exact absurd found.1 (by simp [found'.2 j earlier])
          · rw [same]
          · exact absurd found'.1 (by simp [found.2 k later])

variable {high : BitVec m} {low : BitVec n}

theorem getLsbD_high (i : ℕ) : (high ++ low).getLsbD (i + n) = high.getLsbD i := by
  rw [BitVec.getLsbD_append, if_neg (by omega), Nat.add_sub_cancel]

theorem getLsbD_low {i : ℕ} (small : i < n) : (high ++ low).getLsbD i = low.getLsbD i := by
  rw [BitVec.getLsbD_append, if_pos small]

/-- From the low part on. -/
theorem Lowest.append (inLow : Lowest low a) (inHigh : Lowest high b) :
    Lowest (high ++ low) (a.or (b.map (· + n))) := by
  cases a with
  | some k =>
      have small : k < n := BitVec.lt_of_getLsbD inLow.1
      refine ⟨(getLsbD_low small).trans inLow.1, ?_⟩
      intro i below
      rw [getLsbD_low (by omega)]
      exact inLow.2 i below
  | none =>
      have clear : ∀ i < n, (high ++ low).getLsbD i = false := by
        intro i small
        rw [getLsbD_low small]
        exact inLow i
      cases b with
      | none =>
          intro i
          by_cases small : i < n
          · exact clear i small
          · rw [← Nat.sub_add_cancel (Nat.le_of_not_lt small), getLsbD_high]
            exact inHigh _
      | some k =>
          refine ⟨(getLsbD_high k).trans inHigh.1, ?_⟩
          intro i below
          replace below : i < k + n := below
          by_cases small : i < n
          · exact clear i small
          · rw [← Nat.sub_add_cancel (Nat.le_of_not_lt small), getLsbD_high]
            exact inHigh.2 _ (by omega)

/-- From the high part down. -/
theorem Highest.append (inHigh : Highest high b) (inLow : Highest low a) :
    Highest (high ++ low) ((b.map (· + n)).or a) := by
  cases b with
  | some k =>
      refine ⟨(getLsbD_high k).trans inHigh.1, ?_⟩
      intro i above
      replace above : k + n < i := above
      rw [← Nat.sub_add_cancel (show n ≤ i by omega), getLsbD_high]
      exact inHigh.2 _ (by omega)
  | none =>
      have clear : ∀ i, n ≤ i → (high ++ low).getLsbD i = false := by
        intro i large
        rw [← Nat.sub_add_cancel large, getLsbD_high]
        exact inHigh _
      cases a with
      | none =>
          intro i
          by_cases small : i < n
          · rw [getLsbD_low small]
            exact inLow i
          · exact clear i (Nat.le_of_not_lt small)
      | some k =>
          have inside : k < n := BitVec.lt_of_getLsbD inLow.1
          refine ⟨(getLsbD_low inside).trans inLow.1, ?_⟩
          intro i above
          by_cases small : i < n
          · rw [getLsbD_low small]
            exact inLow.2 i above
          · exact clear i (Nat.le_of_not_lt small)

end Twan.Base
