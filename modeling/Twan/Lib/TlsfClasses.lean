/-
# Twan.Lib.TlsfClasses -- the size classes of `__tlsf_map`

A bin holds the blocks of one size class, and a class has a boundary: each size below 32 has one of
its own, in row 0, and row `f` from 5 on divides the sizes from `2 ^ f` to `2 ^ (f + 1)` into 32 equal
parts, `s` of which lie below the boundary of `(f, s)`.

* `map_range`: every size is mapped into the table;
* `boundary_rank`: the boundaries are ordered as their classes are;
* `map_least`: up to `TLSF_MAX_ALLOC` a size is rounded up to the least boundary, with the carry to
  the next row and the small sizes as cases;
* `size_classes` collects these and the order of the bins.
-/
import Mathlib.Algebra.Order.Floor.Div
import Mathlib.Data.Prod.Lex
import Mathlib.Order.Bounds.Defs
import Twan.Lib.TlsfFit

namespace Twan.Lib.TlsfAlloc

set_option autoImplicit false

/-- `TLSF_FL_SHIFT`, `PAGE_SHIFT_2MB + 6`. -/
def flShift : ℕ := 21 + 6

/-- `TLSF_SL_SHIFT`. -/
def slShift : ℕ := 5

/-- `TLSF_FL_COUNT`. -/
def flCount : ℕ := flShift + 1

/-- `TLSF_SL_COUNT`. -/
def slCount : ℕ := 1 <<< slShift

/-- The value is a boundary, that of the class. -/
inductive Boundary : ℕ → ℕ × ℕ → Prop where
  | small {v : ℕ} (below : v < 32) : Boundary v (0, v)
  | large {f s : ℕ} (row : 5 ≤ f) (column : s < 32) : Boundary ((32 + s) * 2 ^ (f - 5)) (f, s)

/-- The boundaries from `size` on. -/
def boundariesFrom (size : ℕ) : Set ℕ := {v | size ≤ v ∧ ∃ bin, Boundary v bin}

section Classes

variable {k size f s v : ℕ}

/-! ## Boundaries -/

/-- A boundary of row `f` has its highest bit at `f`. -/
theorem isHighest_boundary (row : 5 ≤ f) (column : s < 32) :
    IsHighest ((32 + s) * 2 ^ (f - 5)) f := by
  have low : 2 ^ f = 32 * 2 ^ (f - 5) := by
    rw [show 32 = 2 ^ 5 from rfl, ← Nat.pow_add, Nat.add_sub_cancel' row]
  have high : 2 ^ (f + 1) = 64 * 2 ^ (f - 5) := by
    rw [Nat.pow_succ, low]
    omega
  have positive := Nat.two_pow_pos (f - 5)
  constructor
  · rw [low]
    exact Nat.mul_le_mul_right _ (Nat.le_add_right 32 s)
  · rw [high]
    exact Nat.mul_lt_mul_of_pos_right (by omega) positive

/-- A value has at most one highest bit. -/
theorem isHighest_unique {k' : ℕ} (highest : IsHighest v k) (highest' : IsHighest v k') : k = k' := by
  have below : k < k' + 1 :=
    (Nat.pow_lt_pow_iff_right (by decide)).mp (highest.1.trans_lt highest'.2)
  have above : k' < k + 1 :=
    (Nat.pow_lt_pow_iff_right (by decide)).mp (highest'.1.trans_lt highest.2)
  omega

/-- A value is the boundary of at most one class. -/
theorem Boundary.unique {bin bin' : ℕ × ℕ} (boundary : Boundary v bin) (boundary' : Boundary v bin') :
    bin = bin' := by
  have apart : ∀ {f s : ℕ}, 5 ≤ f → s < 32 → ¬ (32 + s) * 2 ^ (f - 5) < 32 := by
    intro f s row column below
    have highest := isHighest_boundary row column
    have least : 2 ^ 5 ≤ 2 ^ f := Nat.pow_le_pow_right (by decide) row
    have := highest.1
    omega
  generalize same : v = v' at boundary'
  cases boundary with
  | small below =>
      cases boundary' with
      | small below' => rw [same]
      | large row column => exact absurd (same ▸ below) (apart row column)
  | large row column =>
      cases boundary' with
      | small below' => exact absurd (same ▸ below') (apart row column)
      | large row' column' =>
          have highest := isHighest_boundary row column
          have highest' := isHighest_boundary row' column'
          rw [← same] at highest'
          obtain rfl := isHighest_unique highest highest'
          have columns := Nat.eq_of_mul_eq_mul_right (Nat.two_pow_pos _) same
          rw [Nat.add_left_cancel columns]

/-! ## Rounding up -/

theorem rank_eq (k size : ℕ) : rank k size = 32 * (k - 1) + size ⌈/⌉ 2 ^ (k - 5) := by
  rw [Nat.ceilDiv_eq_add_pred_div]
  rfl

/-- The bin of a size from 32 on, and its boundary. -/
theorem boundary_rank (highest : IsHighest size k) (large : 5 ≤ k) :
    Boundary (size ⌈/⌉ 2 ^ (k - 5) * 2 ^ (k - 5)) (rank k size / 32, rank k size % 32) := by
  obtain ⟨low, high⟩ := rank_range highest large
  rw [rank_eq] at low high ⊢
  generalize size ⌈/⌉ 2 ^ (k - 5) = q at *
  by_cases last : q = 64
  · -- rounding up carries into the next row
    subst last
    have row : (32 * (k - 1) + 64) / 32 = k + 1 := by omega
    have column : (32 * (k - 1) + 64) % 32 = 0 := by omega
    have unit : 64 * 2 ^ (k - 5) = (32 + 0) * 2 ^ (k + 1 - 5) := by
      rw [Nat.sub_add_comm large, Nat.pow_succ]
      omega
    rw [row, column, unit]
    exact .large (by omega) (by decide)
  · have row : (32 * (k - 1) + q) / 32 = k := by omega
    have column : (32 * (k - 1) + q) % 32 = q - 32 := by omega
    have units : q = 32 + (q - 32) := by omega
    rw [row, column]
    nth_rewrite 1 [units]
    exact .large large (by omega)

/-- No boundary from the size on is lower. -/
theorem ceiling_le_boundary {bin : ℕ × ℕ} (highest : IsHighest size k) (large : 5 ≤ k)
    (boundary : Boundary v bin) (above : size ≤ v) :
    size ⌈/⌉ 2 ^ (k - 5) * 2 ^ (k - 5) ≤ v := by
  cases boundary with
  | small below =>
      have least : 2 ^ 5 ≤ 2 ^ k := Nat.pow_le_pow_right (by decide) large
      have := highest.1
      omega
  | @large f s row column =>
      have higher : k < f + 1 := by
        apply (Nat.pow_lt_pow_iff_right (show 1 < 2 by decide)).mp
        calc 2 ^ k ≤ size := highest.1
          _ ≤ (32 + s) * 2 ^ (f - 5) := above
          _ < 2 ^ (f + 1) := (isHighest_boundary row column).2
      -- the parts of a higher row are made of those of this one
      have unit : (32 + s) * 2 ^ (f - 5) = (32 + s) * 2 ^ (f - k) * 2 ^ (k - 5) := by
        rw [Nat.mul_assoc, ← Nat.pow_add]
        congr 2
        omega
      rw [unit] at above ⊢
      apply Nat.mul_le_mul_right
      apply (ceilDiv_le_iff_le_mul (Nat.two_pow_pos _)).mpr
      rwa [Nat.mul_comm]

/-- Up to `TLSF_MAX_ALLOC` the class of a size is that of the least boundary from it on. -/
theorem map_least (small : size ≤ maxAlloc) :
    ∃ b, IsLeast (boundariesFrom size) b ∧ Boundary b (map size) := by
  by_cases tiny : size < 32
  · have boundary : Boundary size (map size) := by
      rw [map_small tiny]
      exact .small tiny
    exact ⟨size, ⟨⟨Nat.le_refl size, _, boundary⟩, fun v from_ => from_.1⟩, boundary⟩
  · obtain ⟨k, large, highest, bin⟩ := map_rank (show 32 ≤ size by omega)
      (Nat.lt_of_le_of_lt small (by decide))
    have last : rank k size ≤ 864 := by
      have top : IsHighest (2 ^ 27) 27 := by
        constructor <;> decide
      exact rank_mono highest top large (by decide) small
    have boundary := boundary_rank highest large
    rw [if_neg (by omega)] at bin
    rw [← bin] at boundary
    refine ⟨_, ⟨⟨?_, _, boundary⟩, ?_⟩, boundary⟩
    · rw [Nat.mul_comm]
      exact le_smul_ceilDiv (Nat.two_pow_pos _)
    · rintro v ⟨above, bin, here⟩
      exact ceiling_le_boundary highest large here above

end Classes

/-- **Size classes**: every size below `2 ^ 32` is mapped into the table; up to `TLSF_MAX_ALLOC` the
bins are in the order of the sizes, and the bin of a size is the class of the least boundary that is
not below it. -/
theorem size_classes :
    (∀ size < 2 ^ 32, (map size).1 < flCount ∧ (map size).2 < slCount) ∧
    (∀ low high, low ≤ high → high ≤ maxAlloc → toLex (map low) ≤ toLex (map high)) ∧
    ∀ size ≤ maxAlloc, ∃ b, IsLeast (boundariesFrom size) b ∧
      ∀ bin, Boundary b bin ↔ bin = map size := by
  refine ⟨?_, ?_, ?_⟩
  · intro size _
    obtain ⟨row, column⟩ := map_range size
    exact ⟨Nat.lt_succ_of_le row, column⟩
  · intro low high le small
    have order := map_mono small le
    rw [Prod.Lex.toLex_le_toLex]
    unfold Above at order
    omega
  · intro size small
    obtain ⟨b, least, boundary⟩ := map_least small
    refine ⟨b, least, fun bin => ⟨fun here => here.unique boundary, ?_⟩⟩
    rintro rfl
    exact boundary

/-- The size that is rounded up to the next row, and the largest one of all. -/
theorem size_classes_edges :
    toLex (map 1023) ≤ toLex (map 1024) ∧ (map (2 ^ 32 - 1)).1 < flCount :=
  ⟨size_classes.2.1 1023 1024 (by decide) (by decide), (size_classes.1 (2 ^ 32 - 1) (by decide)).1⟩

end Twan.Lib.TlsfAlloc
