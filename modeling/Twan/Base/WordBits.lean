/-
# Twan.Base.WordBits -- single bits of words, and of memories made of words

* `getLsbD_oneBit`, `getLsbD_clearBit`: the words `1 << k` and `v & ~(1 << k)`;
* `getLsbD_update_set`, `getLsbD_update_clear`: a bit written in one word of a memory leaves every
  other bit of it;
* `bit`: the bits of a byte memory counted through, and `byte_ext`: they determine its bytes.
-/
import Mathlib.Data.Nat.Notation
import Mathlib.Logic.Function.Basic
import Twan.Base.Literals

namespace Twan.Base

set_option autoImplicit false

universe u

/-- The word `1 << k`. -/
theorem getLsbD_oneBit {w : ℕ} (k j : ℕ) : (1#w <<< k).getLsbD j = decide (k < w ∧ k = j) := by
  rw [← BitVec.twoPow_eq, BitVec.getLsbD_twoPow, Bool.decide_and]

/-- The word `v & ~(1 << k)`. -/
theorem getLsbD_clearBit {w : ℕ} (v : BitVec w) (k j : ℕ) :
    (v &&& ~~~(1#w <<< k)).getLsbD j = (v.getLsbD j && decide (k ≠ j)) := by
  rw [BitVec.getLsbD_and, BitVec.getLsbD_not, getLsbD_oneBit]
  by_cases range : j < w
  · by_cases same : k = j <;> simp [range, same]
  · simp [BitVec.getLsbD_of_ge v j (Nat.le_of_not_lt range)]

section Memory

variable {I : Type u} [DecidableEq I] {w : ℕ} (mem : I → BitVec w) (x y : I) {k : ℕ} (j : ℕ)

theorem getLsbD_update_set (small : k < w) :
    (Function.update mem x (mem x ||| 1#w <<< k) y).getLsbD j =
      (decide (x = y ∧ k = j) || (mem y).getLsbD j) := by
  by_cases here : y = x
  · subst here
    rw [Function.update_self, BitVec.getLsbD_or, getLsbD_oneBit, Bool.or_comm]
    simp [small]
  · rw [Function.update_of_ne here]
    simp [Ne.symm here]

theorem getLsbD_update_clear :
    (Function.update mem x (mem x &&& ~~~(1#w <<< k)) y).getLsbD j =
      (!decide (x = y ∧ k = j) && (mem y).getLsbD j) := by
  by_cases here : y = x
  · subst here
    rw [Function.update_self, getLsbD_clearBit, Bool.and_comm]
    simp
  · rw [Function.update_of_ne here]
    simp [Ne.symm here]

end Memory

/-! ## Bytes -/

/-- Bit `i` of a byte memory. -/
def bit (mem : ℕ → BitVec 8) (i : ℕ) : Bool := (mem (i / 8)).getLsbD (i % 8)

variable {mem' : ℕ → BitVec 8} {k : ℕ} (mem : ℕ → BitVec 8) (x : ℕ)

theorem bit_update_set (small : k < 8) (i : ℕ) :
    bit (Function.update mem x (mem x ||| 1#8 <<< k)) i =
      (decide (8 * x + k = i) || bit mem i) := by
  rw [bit, getLsbD_update_set mem x (i / 8) (i % 8) small]
  have place : (x = i / 8 ∧ k = i % 8) ↔ 8 * x + k = i := by omega
  simp only [place, bit]

theorem bit_update_clear (small : k < 8) (i : ℕ) :
    bit (Function.update mem x (mem x &&& ~~~(1#8 <<< k))) i =
      (!decide (8 * x + k = i) && bit mem i) := by
  rw [bit, getLsbD_update_clear mem x (i / 8) (i % 8)]
  have place : (x = i / 8 ∧ k = i % 8) ↔ 8 * x + k = i := by omega
  simp only [place, bit]

variable {mem x}

/-- A byte is what its bits are. -/
theorem byte_ext (same : ∀ k < 8, bit mem (8 * x + k) = bit mem' (8 * x + k)) : mem x = mem' x := by
  apply BitVec.eq_of_getLsbD_eq
  intro k small
  have here := same k small
  have byte : (8 * x + k) / 8 = x := by omega
  have place : (8 * x + k) % 8 = k := by omega
  rw [bit, bit, byte, place] at here
  exact here

end Twan.Base
