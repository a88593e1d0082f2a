/-
# Twan.Lib.Std -- the arithmetic helpers of `std.h` and `compiler.h`

`log2`, `is_pow2` and the power-of-two alignments, on naturals below `2 ^ 64` with
the wraparound of `u64` written out.  `log2_eq_clog`: the loop of `log2`, with its
final increment, computes the logarithm rounded up.
-/
import Mathlib.Data.Nat.Log
import Mathlib.Algebra.Group.Nat.Defs

namespace Twan.Lib

set_option autoImplicit false

/-- `p2align_down(x, y)`, `x & ~(y - 1)` for a power of two `y`. -/
def p2alignDown (x y : ℕ) : ℕ := x / y * y

/-- `p2align_up(x, y)`, `(x + y - 1) & ~(y - 1)` on `u64`. -/
def p2alignUp (x y : ℕ) : ℕ := p2alignDown ((x + y - 1) % 2 ^ 64) y

/-- `is_pow2(x)`. -/
def isPow2 (x : ℕ) : Bool := x &&& (x - 1) == 0

/-- `while (temp != 0) { order++; temp >>= 1; }` on a 64-bit value. -/
def log2Loop : ℕ → ℕ → ℕ
  | 0, _ => 0
  | fuel + 1, temp => if temp = 0 then 0 else log2Loop fuel (temp / 2) + 1

/-- `log2`. -/
def log2 (size : ℕ) : ℕ :=
  if size = 0 then 0
  else
    let order := log2Loop 64 (size / 2)
    if isPow2 size then order else order + 1

theorem isPow2_iff {x : ℕ} (pos : x ≠ 0) : isPow2 x = true ↔ ∃ k, x = 2 ^ k := by
  unfold isPow2
  rw [beq_iff_eq]
  exact Nat.and_sub_one_eq_zero_iff_isPowerOfTwo pos

theorem p2alignDown_le (x y : ℕ) : p2alignDown x y ≤ x := Nat.div_mul_le_self x y

theorem lt_p2alignDown_add {x y : ℕ} (pos : 0 < y) : x < p2alignDown x y + y := by
  have rest := Nat.mod_lt x pos
  have whole := Nat.div_add_mod' x y
  unfold p2alignDown
  omega

theorem dvd_p2alignDown (x y : ℕ) : y ∣ p2alignDown x y := Nat.dvd_mul_left _ _

/-- Alignment upwards, where nothing wraps around. -/
theorem p2alignUp_spec {x y : ℕ} (pos : 0 < y) (bound : x + y ≤ 2 ^ 64) :
    x ≤ p2alignUp x y ∧ p2alignUp x y < x + y ∧ y ∣ p2alignUp x y := by
  have whole : (x + y - 1) % 2 ^ 64 = x + y - 1 := Nat.mod_eq_of_lt (by omega)
  have below := p2alignDown_le (x + y - 1) y
  have above := lt_p2alignDown_add (x := x + y - 1) pos
  unfold p2alignUp
  rw [whole]
  exact ⟨by omega, by omega, dvd_p2alignDown _ y⟩

/-- Alignment to a power of two keeps any smaller one. -/
theorem dvd_p2alignUp {x j k : ℕ} (bound : x + 2 ^ k ≤ 2 ^ 64) (aligned : 2 ^ j ∣ x) :
    2 ^ j ∣ p2alignUp x (2 ^ k) := by
  obtain ⟨low, high, multiple⟩ := p2alignUp_spec (Nat.two_pow_pos k) bound
  rcases Nat.le_total j k with le | le
  · exact Nat.dvd_trans (Nat.pow_dvd_pow 2 le) multiple
  · -- a multiple of the larger power is left where it is
    have already : 2 ^ k ∣ x := Nat.dvd_trans (Nat.pow_dvd_pow 2 le) aligned
    have step : 2 ^ k ∣ p2alignUp x (2 ^ k) - x := Nat.dvd_sub multiple already
    have none_ : p2alignUp x (2 ^ k) - x = 0 := Nat.eq_zero_of_dvd_of_lt step (by omega)
    have same : p2alignUp x (2 ^ k) = x := by omega
    rw [same]
    exact aligned

theorem log2Loop_eq (fuel temp : ℕ) (enough : temp < 2 ^ fuel) :
    log2Loop fuel temp = if temp = 0 then 0 else Nat.log 2 temp + 1 := by
  induction fuel generalizing temp with
  | zero =>
      have zero : temp = 0 := by simpa using enough
      simp [log2Loop, zero]
  | succ fuel ih =>
      unfold log2Loop
      split
      · rfl
      · rename_i nonzero
        rw [ih (temp / 2) (by rw [Nat.pow_succ] at enough; omega)]
        split
        · have one : temp = 1 := by omega
          simp [one]
        · rw [Nat.log_of_one_lt_of_le (by decide) (show 2 ≤ temp by omega)]

/-- `log2` rounds up. -/
theorem log2_eq_clog {size : ℕ} (pos : size ≠ 0) (bound : size < 2 ^ 64) :
    log2 size = Nat.clog 2 size := by
  have loop : log2Loop 64 (size / 2) = Nat.log 2 size := by
    rw [log2Loop_eq 64 (size / 2) (by omega)]
    split
    · have one : size = 1 := by omega
      simp [one]
    · rw [Nat.log_of_one_lt_of_le (by decide) (show 2 ≤ size by omega)]
  unfold log2
  rw [if_neg pos]
  simp only [loop]
  split
  · rename_i pow
    obtain ⟨k, rfl⟩ := (isPow2_iff pos).mp pow
    rw [Nat.log_pow (by decide), Nat.clog_pow 2 k (by decide)]
  · rename_i notPow
    symm
    have below : 2 ^ Nat.log 2 size < size := by
      refine lt_of_le_of_ne (Nat.pow_log_le_self 2 pos) fun same => notPow ?_
      exact (isPow2_iff pos).mpr ⟨_, same.symm⟩
    apply le_antisymm
    · exact Nat.clog_le_of_le_pow (Nat.lt_pow_succ_log_self (by decide) size).le
    · by_contra less
      have small := Nat.le_pow_clog (b := 2) (by decide) size
      have mono : 2 ^ Nat.clog 2 size ≤ 2 ^ Nat.log 2 size :=
        Nat.pow_le_pow_right (by decide) (by omega)
      omega

end Twan.Lib
