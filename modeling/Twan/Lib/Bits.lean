/-
# Twan.Lib.Bits -- the bit searches of `std.h`

`fls32`, `ffs32`, `fls64` and `ffs64` on values below `2 ^ 32` and `2 ^ 64`; `none` is
-1.  Each is a chain of halvings of the window in which the bit must lie.  `ffsStep`
and `flsStep` are one halving, and `ffs_of_lowest`, `fls_of_highest` say what a chain
of them finds: the lowest and the highest set bit.  `lowest_ffs64` and the like say it of
words, zero included.
-/
import Mathlib.Data.Nat.Bitwise
import Mathlib.Data.Nat.Log
import Twan.Base.BitSearch
import Twan.Base.WordBits

namespace Twan.Lib

set_option autoImplicit false

open Twan.Base

/-- `if (!(val & mask)) { val >>= n; bit += n; }`, with the low `n` bits for mask. -/
def ffsStep (n : ℕ) (s : ℕ × ℕ) : ℕ × ℕ :=
  if s.1 &&& (2 ^ n - 1) = 0 then (s.1 >>> n, s.2 + n) else s

/-- `if (!(val & mask)) { val <<= n; bit -= n; }`, with the high `n` of `width` bits
for mask. -/
def flsStep (width n : ℕ) (s : ℕ × ℕ) : ℕ × ℕ :=
  if s.1 &&& (2 ^ width - 2 ^ (width - n)) = 0 then ((s.1 <<< n) % 2 ^ width, s.2 - n) else s

def ffs32 (val : ℕ) : Option ℕ :=
  if val = 0 then none
  else some (ffsStep 1 (ffsStep 2 (ffsStep 4 (ffsStep 8 (ffsStep 16 (val, 0)))))).2

def ffs64 (val : ℕ) : Option ℕ :=
  if val = 0 then none
  else some (ffsStep 1 (ffsStep 2 (ffsStep 4 (ffsStep 8 (ffsStep 16 (ffsStep 32 (val, 0))))))).2

def fls32 (val : ℕ) : Option ℕ :=
  if val = 0 then none
  else some (flsStep 32 1 (flsStep 32 2 (flsStep 32 4 (flsStep 32 8 (flsStep 32 16 (val, 31)))))).2

def fls64 (val : ℕ) : Option ℕ :=
  if val = 0 then none
  else some (flsStep 64 1 (flsStep 64 2 (flsStep 64 4 (flsStep 64 8 (flsStep 64 16
    (flsStep 64 32 (val, 63))))))).2

/-! ## The lowest bit -/

/-- `val` starts with the lowest set bit within `n` bits of position `s.2`. -/
structure LowWindow (val n : ℕ) (s : ℕ × ℕ) : Prop where
  rest : val = s.1 * 2 ^ s.2
  found : s.1 % 2 ^ n ≠ 0

theorem LowWindow.step {val n : ℕ} {s : ℕ × ℕ} (window : LowWindow val (n + n) s) :
    LowWindow val n (ffsStep n s) := by
  obtain ⟨rest, found⟩ := window
  unfold ffsStep
  rw [Nat.and_two_pow_sub_one_eq_mod]
  split
  · rename_i clear
    have parts := Nat.div_add_mod s.1 (2 ^ n)
    rw [clear, Nat.add_zero] at parts
    refine ⟨?_, ?_⟩
    · rw [Nat.shiftRight_eq_div_pow, Nat.pow_add, Nat.mul_comm (2 ^ s.2), ← Nat.mul_assoc,
        Nat.mul_comm (s.1 / 2 ^ n), parts]
      exact rest
    · intro none_
      rw [Nat.shiftRight_eq_div_pow] at none_
      apply found
      rw [Nat.pow_add, Nat.mod_mul, clear, none_]
      simp
  · rename_i set
    exact ⟨rest, set⟩

/-- `k` is the lowest set bit of `val`. -/
def IsLowest (val k : ℕ) : Prop := val.testBit k = true ∧ ∀ j, j < k → val.testBit j = false

theorem LowWindow.isLowest {val : ℕ} {s : ℕ × ℕ} (window : LowWindow val 1 s) :
    IsLowest val s.2 := by
  obtain ⟨rest, found⟩ := window
  have odd : s.1 % 2 = 1 := by
    rw [pow_one] at found
    omega
  rw [rest]
  refine ⟨?_, ?_⟩
  · rw [Nat.testBit_mul_two_pow]
    simp [odd, Nat.testBit_zero]
  · intro j lt
    rw [Nat.testBit_mul_two_pow]
    simp only [Bool.and_eq_false_imp, decide_eq_true_eq]
    omega

theorem ffs32_spec {val : ℕ} (bound : val < 2 ^ 32) (nonzero : val ≠ 0) :
    ∃ k, ffs32 val = some k ∧ IsLowest val k := by
  have start : LowWindow val 32 (val, 0) := ⟨by simp, by rw [Nat.mod_eq_of_lt bound]; exact nonzero⟩
  unfold ffs32
  rw [if_neg nonzero]
  exact ⟨_, rfl, start.step.step.step.step.step.isLowest⟩

theorem ffs64_spec {val : ℕ} (bound : val < 2 ^ 64) (nonzero : val ≠ 0) :
    ∃ k, ffs64 val = some k ∧ IsLowest val k := by
  have start : LowWindow val 64 (val, 0) := ⟨by simp, by rw [Nat.mod_eq_of_lt bound]; exact nonzero⟩
  unfold ffs64
  rw [if_neg nonzero]
  exact ⟨_, rfl, start.step.step.step.step.step.step.isLowest⟩

/-! ## The highest bit -/

/-- `val`, moved up to position `s.2` of the top, has a set bit in the top `n` bits. -/
structure HighWindow (width val n : ℕ) (s : ℕ × ℕ) : Prop where
  range : s.2 < width
  rest : s.1 = val * 2 ^ (width - 1 - s.2)
  bound : s.1 < 2 ^ width
  found : 2 ^ (width - n) ≤ s.1

theorem and_high_eq_zero {val width n : ℕ} (bound : val < 2 ^ width) (le : n ≤ width) :
    val &&& (2 ^ width - 2 ^ (width - n)) = 0 ↔ val < 2 ^ (width - n) := by
  have mask : 2 ^ width - 2 ^ (width - n) = (2 ^ n - 1) <<< (width - n) := by
    rw [Nat.shiftLeft_eq, Nat.sub_mul, ← pow_add, Nat.one_mul, Nat.add_sub_cancel' le]
  rw [mask]
  constructor
  · intro clear
    apply Nat.lt_pow_two_of_testBit
    intro i above
    by_cases inside : i < width
    · have bit := congrArg (fun v => v.testBit i) clear
      simp only [Nat.testBit_and, Nat.testBit_shiftLeft, Nat.zero_testBit,
        Nat.testBit_two_pow_sub_one] at bit
      simpa [above, show i - (width - n) < n by omega] using bit
    · exact Nat.testBit_lt_two_pow (lt_of_lt_of_le bound (Nat.pow_le_pow_right (by decide) (by omega)))
  · intro lt
    apply Nat.eq_of_testBit_eq
    intro i
    simp only [Nat.testBit_and, Nat.testBit_shiftLeft, Nat.zero_testBit]
    by_cases below : width - n ≤ i
    · have clear : val.testBit i = false :=
        Nat.testBit_lt_two_pow (lt_of_lt_of_le lt (Nat.pow_le_pow_right (by decide) below))
      simp [clear]
    · simp [below]

theorem HighWindow.step {width val n : ℕ} {s : ℕ × ℕ} (pos : 0 < val) (le : n + n ≤ width)
    (window : HighWindow width val (n + n) s) : HighWindow width val n (flsStep width n s) := by
  obtain ⟨range, rest, bound, found⟩ := window
  unfold flsStep
  split
  · rename_i clear
    have low := (and_high_eq_zero bound (by omega)).mp clear
    have fits : s.1 * 2 ^ n < 2 ^ width := by
      have moved := Nat.mul_lt_mul_of_pos_right low (Nat.two_pow_pos n)
      rwa [← pow_add, Nat.sub_add_cancel (by omega)] at moved
    -- a value this small has been moved up by less than the room above it
    have room : n ≤ s.2 := by
      by_contra short
      have large : 2 ^ (width - 1 - s.2) ≤ s.1 := by
        rw [rest]
        exact Nat.le_mul_of_pos_left _ pos
      have power : 2 ^ (width - n) ≤ 2 ^ (width - 1 - s.2) :=
        Nat.pow_le_pow_right (by decide) (by omega)
      omega
    rw [Nat.shiftLeft_eq, Nat.mod_eq_of_lt fits]
    refine ⟨by simp only; omega, ?_, fits, ?_⟩
    · show s.1 * 2 ^ n = val * 2 ^ (width - 1 - (s.2 - n))
      rw [rest, Nat.mul_assoc, ← pow_add]
      congr 2
      omega
    · show 2 ^ (width - n) ≤ s.1 * 2 ^ n
      have moved := Nat.mul_le_mul_right (2 ^ n) found
      rwa [← pow_add, show width - (n + n) + n = width - n by omega] at moved
  · rename_i set
    have high := mt (and_high_eq_zero bound (n := n) (by omega)).mpr set
    exact ⟨range, rest, bound, by omega⟩

/-- `k` is the highest set bit of `val`. -/
def IsHighest (val k : ℕ) : Prop := 2 ^ k ≤ val ∧ val < 2 ^ (k + 1)

theorem IsHighest.testBit {val k : ℕ} (highest : IsHighest val k) :
    val.testBit k = true ∧ ∀ j, k < j → val.testBit j = false := by
  obtain ⟨low, high⟩ := highest
  refine ⟨?_, ?_⟩
  · have one : val / 2 ^ k = 1 := by
      apply Nat.div_eq_of_lt_le
      · rw [Nat.one_mul]
        exact low
      · rw [pow_succ] at high
        omega
    rw [Nat.testBit_eq_decide_div_mod_eq, one]
    rfl
  · intro j above
    exact Nat.testBit_lt_two_pow (lt_of_lt_of_le high (Nat.pow_le_pow_right (by decide) above))

theorem HighWindow.isHighest {width val : ℕ} {s : ℕ × ℕ} (window : HighWindow width val 1 s) :
    IsHighest val s.2 := by
  obtain ⟨range, rest, bound, found⟩ := window
  have positive := Nat.two_pow_pos (width - 1 - s.2)
  rw [rest] at bound found
  constructor
  · have power : 2 ^ (width - 1) = 2 ^ s.2 * 2 ^ (width - 1 - s.2) := by
      rw [← pow_add]
      congr 1
      omega
    rw [power] at found
    exact Nat.le_of_mul_le_mul_right found positive
  · have power : 2 ^ width = 2 ^ (s.2 + 1) * 2 ^ (width - 1 - s.2) := by
      rw [← pow_add]
      congr 1
      omega
    rw [power] at bound
    exact Nat.lt_of_mul_lt_mul_right bound

theorem HighWindow.start {width val : ℕ} (pos : 0 < val) (bound : val < 2 ^ width) :
    HighWindow width val width (val, width - 1) := by
  have width_pos : 0 < width := by
    by_contra zero
    have none_ : width = 0 := by omega
    rw [none_] at bound
    omega
  refine ⟨by simp only; omega, by simp, bound, ?_⟩
  rw [Nat.sub_self]
  exact pos

theorem fls32_spec {val : ℕ} (bound : val < 2 ^ 32) (nonzero : val ≠ 0) :
    ∃ k, fls32 val = some k ∧ IsHighest val k := by
  have pos := Nat.pos_of_ne_zero nonzero
  have start : HighWindow 32 val (16 + 16) (val, 31) := HighWindow.start pos bound
  have s16 : HighWindow 32 val (8 + 8) _ := start.step pos (by decide)
  have s8 : HighWindow 32 val (4 + 4) _ := s16.step pos (by decide)
  have s4 : HighWindow 32 val (2 + 2) _ := s8.step pos (by decide)
  have s2 : HighWindow 32 val (1 + 1) _ := s4.step pos (by decide)
  unfold fls32
  rw [if_neg nonzero]
  exact ⟨_, rfl, (s2.step pos (by decide)).isHighest⟩

theorem fls64_spec {val : ℕ} (bound : val < 2 ^ 64) (nonzero : val ≠ 0) :
    ∃ k, fls64 val = some k ∧ IsHighest val k := by
  have pos := Nat.pos_of_ne_zero nonzero
  have start : HighWindow 64 val (32 + 32) (val, 63) := HighWindow.start pos bound
  have s32 : HighWindow 64 val (16 + 16) _ := start.step pos (by decide)
  have s16 : HighWindow 64 val (8 + 8) _ := s32.step pos (by decide)
  have s8 : HighWindow 64 val (4 + 4) _ := s16.step pos (by decide)
  have s4 : HighWindow 64 val (2 + 2) _ := s8.step pos (by decide)
  have s2 : HighWindow 64 val (1 + 1) _ := s4.step pos (by decide)
  unfold fls64
  rw [if_neg nonzero]
  exact ⟨_, rfl, (s2.step pos (by decide)).isHighest⟩

/-! ## Words -/

section Words

variable {w : ℕ} {val : BitVec w} {search : ℕ → Option ℕ}

theorem clear_of_toNat (zero : val.toNat = 0) (i : ℕ) : val.getLsbD i = false := by
  rw [← BitVec.testBit_toNat, zero, Nat.zero_testBit]

theorem lowest_of_spec (zero : search 0 = none)
    (spec : val.toNat ≠ 0 → ∃ k, search val.toNat = some k ∧ IsLowest val.toNat k) :
    Lowest val (search val.toNat) := by
  by_cases none_ : val.toNat = 0
  · rw [none_, zero]
    exact clear_of_toNat none_
  · obtain ⟨k, found, lowest⟩ := spec none_
    simp only [IsLowest, BitVec.testBit_toNat] at lowest
    rw [found]
    exact lowest

theorem highest_of_spec (zero : search 0 = none)
    (spec : val.toNat ≠ 0 → ∃ k, search val.toNat = some k ∧ IsHighest val.toNat k) :
    Highest val (search val.toNat) := by
  by_cases none_ : val.toNat = 0
  · rw [none_, zero]
    exact clear_of_toNat none_
  · obtain ⟨k, found, highest⟩ := spec none_
    have bits := highest.testBit
    simp only [BitVec.testBit_toNat] at bits
    rw [found]
    exact bits

end Words

theorem lowest_ffs32 (val : BitVec 32) : Lowest val (ffs32 val.toNat) :=
  lowest_of_spec rfl (ffs32_spec val.isLt)

theorem lowest_ffs64 (val : BitVec 64) : Lowest val (ffs64 val.toNat) :=
  lowest_of_spec rfl (ffs64_spec val.isLt)

theorem highest_fls32 (val : BitVec 32) : Highest val (fls32 val.toNat) :=
  highest_of_spec rfl (fls32_spec val.isLt)

theorem highest_fls64 (val : BitVec 64) : Highest val (fls64 val.toNat) :=
  highest_of_spec rfl (fls64_spec val.isLt)

end Twan.Lib
