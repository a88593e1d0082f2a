/-
# Twan.Kernel.InitRange -- the ranges of memory that the firmware reports

`init_range` of `src/kernel/init.c` clips a range before it hands it to the page allocator: what is
below the end of the kernel's image is cut off in front, and what wraps around is cut off behind.
Wrapping is inferred from an end below the kernel's, so that a range that wraps further goes through
as it is.

`init_range_clipped_iff`: what is handed on lies inside the range and in the address space, at or
above the kernel's end, exactly where the range does not reach that far.
-/
import Mathlib.Data.BitVec

namespace Twan.Kernel

set_option autoImplicit false

/-- `__kernel_end`, of which `linker.ld` says that it is behind 1 MiB and not behind 1 GiB. -/
structure KernelEnd where
  addr : BitVec 64
  low : 2 ^ 20 ≤ addr.toNat
  high : addr.toNat ≤ 2 ^ 30

/-- A range of physical memory. -/
structure Range where
  start : BitVec 64
  size : BitVec 64
  deriving DecidableEq

section InitRange

variable (kernelEnd : KernelEnd)

/-- The second half of `init_range`: "handle wraparound". -/
def initRangeEnd (r : Range) : Option Range :=
  let stop := r.start + r.size
  if stop < kernelEnd.addr then
    let newStop := BitVec.allOnes 64
    let cutoff := newStop - stop
    if cutoff ≥ r.size then none else some ⟨r.start, r.size - cutoff⟩
  else some r

/-- `init_range(start, size)`: the range that it passes to `pma_init_range`, unless it returns
before. -/
def initRange (r : Range) : Option Range :=
  if r.start < kernelEnd.addr then
    let newStart := kernelEnd.addr
    let cutoff := newStart - r.start
    if cutoff ≥ r.size then none
    else initRangeEnd kernelEnd ⟨newStart, r.size - cutoff⟩
  else initRangeEnd kernelEnd r

/-- The clipped range lies inside the range, taken without wrapping, and in the address space, and
begins at or above the kernel's end. -/
structure Clipped (r clipped : Range) : Prop where
  start : r.start.toNat ≤ clipped.start.toNat
  stop : clipped.start.toNat + clipped.size.toNat ≤ r.start.toNat + r.size.toNat
  space : clipped.start.toNat + clipped.size.toNat ≤ 2 ^ 64
  above : kernelEnd.addr.toNat ≤ clipped.start.toNat

end InitRange

variable {kernelEnd : KernelEnd} {r clipped : Range}

theorem Clipped.trans {mid : Range} (first : r.start.toNat ≤ mid.start.toNat)
    (last : mid.start.toNat + mid.size.toNat ≤ r.start.toNat + r.size.toNat)
    (inner : Clipped kernelEnd mid clipped) : Clipped kernelEnd r clipped where
  start := first.trans inner.start
  stop := inner.stop.trans last
  space := inner.space
  above := inner.above

/-- A range that begins above the kernel and does not wrap as far as the kernel's end. -/
theorem initRangeEnd_clipped (above : kernelEnd.addr.toNat ≤ r.start.toNat)
    (reach : r.start.toNat + r.size.toNat < 2 ^ 64 + kernelEnd.addr.toNat)
    (passed : initRangeEnd kernelEnd r = some clipped) : Clipped kernelEnd r clipped := by
  have low := kernelEnd.low
  have high := kernelEnd.high
  have stop : (r.start + r.size).toNat = (r.start.toNat + r.size.toNat) % 2 ^ 64 :=
    BitVec.toNat_add ..
  have startLt := r.start.isLt
  have sizeLt := r.size.isLt
  unfold initRangeEnd at passed
  dsimp only at passed
  split_ifs at passed with wraps keeps
  · -- What has wrapped is below the kernel's end, and more is cut off than that.
    rw [BitVec.lt_def, stop] at wraps
    rw [ge_iff_le, BitVec.le_def, not_le] at keeps
    have cutoff : (BitVec.allOnes 64 - (r.start + r.size)).toNat =
        2 ^ 64 - 1 - (r.start.toNat + r.size.toNat) % 2 ^ 64 := by
      rw [BitVec.toNat_sub, BitVec.toNat_allOnes, stop]
      omega
    have left : (r.size - (BitVec.allOnes 64 - (r.start + r.size))).toNat =
        r.size.toNat - (2 ^ 64 - 1 - (r.start.toNat + r.size.toNat) % 2 ^ 64) := by
      rw [BitVec.toNat_sub_of_le (BitVec.le_def.mpr (Nat.le_of_lt keeps)), cutoff]
    rw [cutoff] at keeps
    obtain rfl := Option.some.inj passed
    refine ⟨le_refl _, ?_, ?_, above⟩
    · rw [left]
      dsimp only
      omega
    · rw [left]
      dsimp only
      omega
  · rw [BitVec.lt_def, stop, not_lt] at wraps
    obtain rfl := Option.some.inj passed
    refine ⟨le_refl _, le_refl _, ?_, above⟩
    omega

/-- A range that wraps at least as far as the kernel's end goes through. -/
theorem initRangeEnd_wraps (reach : 2 ^ 64 + kernelEnd.addr.toNat ≤ r.start.toNat + r.size.toNat) :
    initRangeEnd kernelEnd r = some r := by
  have startLt := r.start.isLt
  have sizeLt := r.size.isLt
  have unseen : ¬ r.start + r.size < kernelEnd.addr := by
    rw [BitVec.lt_def, BitVec.toNat_add]
    omega
  unfold initRangeEnd
  exact if_neg unseen

/-- A range that begins below the kernel's end, without what is below it. -/
theorem cut_front (below : r.start < kernelEnd.addr) (left : ¬ kernelEnd.addr - r.start ≥ r.size) :
    kernelEnd.addr.toNat + (r.size - (kernelEnd.addr - r.start)).toNat =
      r.start.toNat + r.size.toNat := by
  have cutoff : (kernelEnd.addr - r.start).toNat = kernelEnd.addr.toNat - r.start.toNat :=
    BitVec.toNat_sub_of_le (BitVec.le_def.mpr (Nat.le_of_lt (BitVec.lt_def.mp below)))
  rw [ge_iff_le, BitVec.le_def, not_le] at left
  rw [BitVec.toNat_sub_of_le (BitVec.le_def.mpr (Nat.le_of_lt left)), cutoff]
  rw [cutoff] at left
  rw [BitVec.lt_def] at below
  omega

/-- **What is handed to the page allocator is clipped** exactly where the range does not wrap as far
as the kernel's end. -/
theorem init_range_clipped_iff (kernelEnd : KernelEnd) (r : Range) :
    (∀ clipped, initRange kernelEnd r = some clipped → Clipped kernelEnd r clipped) ↔
      r.start.toNat + r.size.toNat < 2 ^ 64 + kernelEnd.addr.toNat := by
  constructor
  · intro all
    by_contra far
    have reach := Nat.le_of_not_lt far
    have sizeLt := r.size.isLt
    have above : ¬ r.start < kernelEnd.addr := by
      rw [BitVec.lt_def]
      omega
    have passed : initRange kernelEnd r = some r := by
      unfold initRange
      rw [if_neg above, initRangeEnd_wraps reach]
    have space := (all r passed).space
    have low := kernelEnd.low
    omega
  · intro reach clipped passed
    unfold initRange at passed
    dsimp only at passed
    split_ifs at passed with below keeps
    · have cut := cut_front below keeps
      refine (initRangeEnd_clipped (le_refl _) ?_ passed).trans ?_ (le_of_eq cut)
      · rw [cut]
        exact reach
      · exact Nat.le_of_lt (BitVec.lt_def.mp below)
    · refine initRangeEnd_clipped ?_ reach passed
      rw [BitVec.lt_def] at below
      exact Nat.le_of_not_lt below

/-- An image that ends at 2 MiB. -/
def imageEnd : KernelEnd where
  addr := 0x200000#64
  low := by decide
  high := by decide

/-- All of the last gigabyte and 3 MiB more: the end is found at 3 MiB, and the range goes through. -/
theorem init_range_wraps :
    initRange imageEnd ⟨0xffffffffc0000000#64, 0x40300000#64⟩ =
        some ⟨0xffffffffc0000000#64, 0x40300000#64⟩ ∧
      ¬ ∀ clipped, initRange imageEnd ⟨0xffffffffc0000000#64, 0x40300000#64⟩ = some clipped →
        Clipped imageEnd ⟨0xffffffffc0000000#64, 0x40300000#64⟩ clipped := by
  have passed : initRange imageEnd ⟨0xffffffffc0000000#64, 0x40300000#64⟩ =
      some ⟨0xffffffffc0000000#64, 0x40300000#64⟩ := by decide
  refine ⟨passed, fun all => ?_⟩
  exact absurd (all _ passed).space (by decide)

end Twan.Kernel
