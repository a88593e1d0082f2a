/-
# Twan.Kernel.Paging -- the mappers of the kernel

`src/kernel/mem/mmu/paging.c` with the macros of `include/subsys/mem/vma.h`: two windows of 512
pages of 2 MiB, one for memory and one for devices.  Each has a page directory and a bitmap of its
free slots.  A page frame takes one slot; a page of memory that begins inside a frame takes two.

A pointer is a number and NULL is 0.  A window begins at a page-directory boundary other than 0, so
no pointer into one is NULL.

`adjacent_slots_iff`: the lowest two slots are found for such a page exactly when an even number of
slots is free below them.
-/
import Twan.Lib.Bmp512
import Twan.Lib.Std

namespace Twan.Kernel.Paging

set_option autoImplicit false

open Twan.Base Twan.Lib

/-- `PAGE_SIZE`. -/
abbrev pageSize : ℕ := 2 ^ 21

/-- `pd_index_of(va)`. -/
def pdIndexOf (va : ℕ) : ℕ := va / pageSize % 512

/-- `pde_huge_t`, of which the mappers leave the other fields 0. -/
structure Pde where
  present : Bool
  rw : Bool
  pwt : Bool
  pcd : Bool
  ps : Bool
  pfn : BitVec 30
  deriving DecidableEq

/-- `struct vma_partition`.  `written` is the slots that were written so far. -/
structure VmaPartition where
  pde : ℕ → Pde
  written : List ℕ

namespace VmaPartition

/-- `WRITE_ONCE(partition->pde[idx].val, ...)`. -/
def write (partition : VmaPartition) (idx : ℕ) (pde : Pde) : VmaPartition where
  pde := Function.update partition.pde idx pde
  written := partition.written ++ [idx]

/-- `vma_partition_unmap`. -/
def unmap (partition : VmaPartition) (idx : ℕ) : VmaPartition :=
  partition.write idx ⟨false, false, false, false, false, 0#30⟩

end VmaPartition

/-- `vma_descriptor.addr` of a partition: `vma_fill_descriptor` makes it of the two upper
indices, of which the first is not 0. -/
structure Window where
  addr : ℕ
  boundary : addr % 2 ^ 30 = 0
  pos : 0 < addr
  lt : addr < 2 ^ 64

theorem Window.fits (w : Window) : w.addr + 512 * pageSize ≤ 2 ^ 64 := by
  have boundary := w.boundary
  have lt := w.lt
  show w.addr + 512 * 2 ^ 21 ≤ 2 ^ 64
  omega

/-- The window that `vma_fill_descriptor` makes, from the index of the partition. -/
def vmaFillDescriptor (baseIdx : ℕ) (lt : baseIdx < 511 * 512) : Window where
  addr :=
    let pdpt := baseIdx % 512
    let pml4 := baseIdx / 512 + 1
    (if 256 ≤ pml4 then 65535 else 0) * 2 ^ 48 + pml4 * 2 ^ 39 + pdpt * 2 ^ 30
  boundary := by
    dsimp only
    omega
  pos := by
    dsimp only
    omega
  lt := by
    dsimp only
    split_ifs <;> omega

/-- The address of a slot. -/
def Window.page (w : Window) (idx : ℕ) : ℕ := w.addr + idx * pageSize

/-- `struct mapper`, with its partition. -/
structure Mapper where
  bmp : Bmp512
  partition : VmaPartition

/-- The mapper of memory, and the one of devices. -/
inductive Kind where
  | normal
  | io
  deriving DecidableEq

/-- The entries of `vma_partition_remap` and `vma_partition_remap_mmio`. -/
def Kind.entry : Kind → ℕ → Pde
  | .normal, pfn =>
      { present := true, rw := true, pwt := false, pcd := false, ps := true,
        pfn := BitVec.ofNat 30 pfn }
  | .io, pfn =>
      { present := true, rw := true, pwt := true, pcd := true, ps := true,
        pfn := BitVec.ofNat 30 pfn }

def Kind.remap (kind : Kind) (partition : VmaPartition) (idx pfn : ℕ) : VmaPartition :=
  partition.write idx (kind.entry pfn)

/-- `init_mappers`, with the partition as it is in the image. -/
def initMapper : Mapper where
  bmp := Bmp512.full
  partition := ⟨fun _ => ⟨false, false, false, false, false, 0#30⟩, []⟩

section Routines

variable (kind : Kind) (w : Window)

/-- `__map_pfn_noflush` and its twin: the pointer and the mapper. -/
def mapPfn (m : Mapper) (pfn : ℕ) : ℕ × Mapper :=
  match m.bmp.ffsUnset with
  | (none, bmp) => (0, { m with bmp })
  | (some idx, bmp) => (w.addr + idx * pageSize, ⟨bmp, kind.remap m.partition idx pfn⟩)

/-- `__unmap_pfn_noflush` and its twin. -/
def unmapPfn (m : Mapper) (addr : ℕ) : Mapper :=
  let idx := pdIndexOf addr
  ⟨m.bmp.set idx, m.partition.unmap idx⟩

/-- `__map_phys_pg_noflush` and its twin: `u32 pfn`, `u32 offset`. -/
def mapPhysPg (m : Mapper) (phys : ℕ) : ℕ × Mapper :=
  let pfn := phys / pageSize % 2 ^ 32
  let offset := phys % pageSize
  if offset = 0 then mapPfn kind w m pfn
  else
    match m.bmp.ffs2Unset2 with
    | (none, bmp) => (0, { m with bmp })
    | (some idx, bmp) =>
        let partition := kind.remap m.partition idx pfn
        let partition := kind.remap partition (idx + 1) ((pfn + 1) % 2 ^ 32)
        (w.addr + idx * pageSize + offset, ⟨bmp, partition⟩)

/-- `__unmap_phys_pg_noflush` and its twin. -/
def unmapPhysPg (m : Mapper) (addr : ℕ) : Mapper :=
  let base := p2alignDown addr pageSize
  let m := unmapPfn m base
  let offset := addr % pageSize
  if offset ≠ 0 then unmapPfn m ((base + pageSize) % 2 ^ 64) else m

end Routines

section Names

variable (w : Window) (m : Mapper)

def mapPfnNoflush (pfn : ℕ) : ℕ × Mapper := mapPfn .normal w m pfn

def unmapPfnNoflush (addr : ℕ) : Mapper := unmapPfn m addr

/-- `__remap_pfn_noflush(addr, u32 pfn)`. -/
def remapPfnNoflush (addr pfn : ℕ) : Mapper :=
  { m with partition := Kind.normal.remap m.partition (pdIndexOf addr) (pfn % 2 ^ 32) }

def mapPhysPgNoflush (phys : ℕ) : ℕ × Mapper := mapPhysPg .normal w m phys

def unmapPhysPgNoflush (addr : ℕ) : Mapper := unmapPhysPg m addr

def mapPfnIoNoflush (pfn : ℕ) : ℕ × Mapper := mapPfn .io w m pfn

def unmapPfnIoNoflush (addr : ℕ) : Mapper := unmapPfn m addr

def mapPhysPgIoNoflush (phys : ℕ) : ℕ × Mapper := mapPhysPg .io w m phys

def unmapPhysPgIoNoflush (addr : ℕ) : Mapper := unmapPhysPg m addr

end Names

/-! ## What the routines do -/

variable {kind : Kind} {w : Window} {m : Mapper}

theorem pageOffset_lt (a : ℕ) : a % pageSize < pageSize := Nat.mod_lt a (by decide)

/-- The slot of an address in the window. -/
theorem pdIndexOf_page {idx offset : ℕ} (slot : idx < 512) (inside : offset < pageSize) :
    pdIndexOf (w.page idx + offset) = idx := by
  have boundary := w.boundary
  unfold pdIndexOf Window.page
  simp only [pageSize] at inside ⊢
  omega

theorem page_succ (idx : ℕ) : w.page idx + pageSize = w.page (idx + 1) := by
  unfold Window.page
  rw [Nat.succ_mul, Nat.add_assoc]

theorem page_lt {idx : ℕ} (slot : idx < 512) : w.page idx < 2 ^ 64 := by
  have fits := w.fits
  unfold Window.page
  simp only [pageSize] at fits ⊢
  omega

theorem page_add_mod (idx : ℕ) {offset : ℕ} (inside : offset < pageSize) :
    (w.page idx + offset) % pageSize = offset := by
  have boundary := w.boundary
  unfold Window.page
  simp only [pageSize] at inside ⊢
  omega

theorem page_add_down (idx : ℕ) {offset : ℕ} (inside : offset < pageSize) :
    p2alignDown (w.page idx + offset) pageSize = w.page idx := by
  have boundary := w.boundary
  unfold p2alignDown Window.page
  simp only [pageSize] at inside ⊢
  omega

/-- An entry keeps 30 bits of the frame. -/
theorem entry_congr {a b : ℕ} (same : a % 2 ^ 30 = b % 2 ^ 30) : kind.entry a = kind.entry b := by
  have frame : BitVec.ofNat 30 a = BitVec.ofNat 30 b := BitVec.eq_of_toNat_eq (by simpa using same)
  cases kind <;> simp only [Kind.entry, frame]

theorem pde_write (partition : VmaPartition) (idx : ℕ) (pde : Pde) (slot : ℕ) :
    (partition.write idx pde).pde slot = if slot = idx then pde else partition.pde slot := by
  unfold VmaPartition.write
  exact Function.update_apply _ _ _ _

theorem unmapPfn_page {idx : ℕ} (slot : idx < 512) :
    unmapPfn m (w.page idx) = ⟨m.bmp.set idx, m.partition.unmap idx⟩ := by
  have index := pdIndexOf_page (w := w) slot (show 0 < pageSize by decide)
  rw [Nat.add_zero] at index
  unfold unmapPfn
  rw [index]

theorem unmapPhysPg_page {idx : ℕ} (slot : idx < 512) :
    unmapPhysPg m (w.page idx) = ⟨m.bmp.set idx, m.partition.unmap idx⟩ := by
  have offset := page_add_mod (w := w) idx (show 0 < pageSize by decide)
  have base := page_add_down (w := w) idx (show 0 < pageSize by decide)
  rw [Nat.add_zero] at offset base
  unfold unmapPhysPg
  rw [offset, base]
  exact unmapPfn_page slot

theorem unmapPhysPg_split {idx offset : ℕ} (slot : idx + 1 < 512) (inside : offset < pageSize)
    (split : offset ≠ 0) : unmapPhysPg m (w.page idx + offset) =
      ⟨(m.bmp.set idx).set (idx + 1), (m.partition.unmap idx).unmap (idx + 1)⟩ := by
  have stretch := Nat.mod_eq_of_lt (page_lt (w := w) slot)
  unfold unmapPhysPg
  rw [page_add_mod idx inside, page_add_down idx inside, if_pos split, page_succ, stretch,
    unmapPfn_page (Nat.lt_of_succ_lt slot), unmapPfn_page slot]

theorem mapPfn_none (full : m.bmp.ffs = none) (pfn : ℕ) : mapPfn kind w m pfn = (0, m) := by
  unfold mapPfn Bmp512.ffsUnset
  rw [full]

theorem mapPfn_some {idx : ℕ} (found : m.bmp.ffs = some idx) (pfn : ℕ) :
    mapPfn kind w m pfn =
      (w.page idx, ⟨m.bmp.unset idx, m.partition.write idx (kind.entry pfn)⟩) := by
  unfold mapPfn Bmp512.ffsUnset
  rw [found]
  rfl

theorem mapPhysPg_aligned {phys : ℕ} (aligned : phys % pageSize = 0) :
    mapPhysPg kind w m phys = mapPfn kind w m (phys / pageSize % 2 ^ 32) := by
  unfold mapPhysPg
  rw [if_pos aligned]

theorem mapPhysPg_none {phys : ℕ} (split : phys % pageSize ≠ 0) (full : m.bmp.ffs2 = none) :
    mapPhysPg kind w m phys = (0, m) := by
  unfold mapPhysPg Bmp512.ffs2Unset2
  rw [if_neg split, full]

theorem mapPhysPg_some {phys idx : ℕ} (split : phys % pageSize ≠ 0)
    (found : m.bmp.ffs2 = some idx) :
    mapPhysPg kind w m phys = (w.page idx + phys % pageSize,
      ⟨m.bmp.unset2 idx,
        (m.partition.write idx (kind.entry (phys / pageSize % 2 ^ 32))).write (idx + 1)
          (kind.entry ((phys / pageSize % 2 ^ 32 + 1) % 2 ^ 32))⟩) := by
  unfold mapPhysPg Bmp512.ffs2Unset2
  rw [if_neg split, found]
  rfl

theorem page_ne_zero (idx : ℕ) : w.page idx ≠ 0 := by
  have pos := w.pos
  unfold Window.page
  omega

/-! ## When no slot is found -/

theorem mapPfn_null_iff (pfn : ℕ) :
    (mapPfn kind w m pfn).1 = 0 ↔ m.bmp.ffs = none := by
  cases found : m.bmp.ffs with
  | none =>
      rw [mapPfn_none found]
      exact iff_of_true rfl rfl
  | some idx =>
      rw [mapPfn_some found]
      exact iff_of_false (page_ne_zero idx) (by simp)

theorem mapPhysPg_null_iff (phys : ℕ) : (mapPhysPg kind w m phys).1 = 0 ↔
    if phys % pageSize = 0 then m.bmp.ffs = none else m.bmp.ffs2 = none := by
  split_ifs with aligned
  · rw [mapPhysPg_aligned aligned]
    exact mapPfn_null_iff _
  · cases found : m.bmp.ffs2 with
    | none =>
        rw [mapPhysPg_none aligned found]
        exact iff_of_true rfl rfl
    | some idx =>
        have nonzero := page_ne_zero (w := w) idx
        rw [mapPhysPg_some aligned found]
        refine iff_of_false (fun null => nonzero ?_) (by simp)
        exact Nat.eq_zero_of_add_eq_zero_right null

/-- No slot of the bitmap is free with the one above it. -/
def NoneAdjacent (bmp : Bmp512) : Prop := ∀ b, ¬ (bmp.test b = true ∧ bmp.test (b + 1) = true)

theorem noneAdjacent_of_ffs {bmp : Bmp512} (full : bmp.ffs = none) : NoneAdjacent bmp := by
  have spec := Bmp512.ffs_spec bmp
  rw [full] at spec
  intro b both
  rw [spec b] at both
  cases both.1

/-- **Two adjacent slots are found**: `bmp512_ffs2` finds the lowest two adjacent bits, or none
when there are none, and `__map_phys_pg_noflush` and its twin return NULL only when no two
adjacent slots are free, exactly when an even number of bits is set below the lowest two. -/
theorem adjacent_slots_iff (bmp : Bmp512) :
    (Answers (fun b => bmp.test b = true) bmp.ffs2 ∧
      ∀ (w : Window) (partition : VmaPartition) (phys : ℕ),
        ((mapPhysPgNoflush w ⟨bmp, partition⟩ phys).1 = 0 → NoneAdjacent bmp) ∧
        ((mapPhysPgIoNoflush w ⟨bmp, partition⟩ phys).1 = 0 → NoneAdjacent bmp)) ↔
    ∀ b, LowestPair (fun b => bmp.test b = true) b → Even (bmp.setBelow b) := by
  rw [← Bmp512.ffs2_iff]
  refine and_iff_left_of_imp fun answers w partition phys => ?_
  have either : ∀ kind : Kind,
      (mapPhysPg kind w ⟨bmp, partition⟩ phys).1 = 0 → NoneAdjacent bmp := by
    intro kind null
    rw [mapPhysPg_null_iff] at null
    split_ifs at null with aligned
    · exact noneAdjacent_of_ffs null
    · change bmp.ffs2 = none at null
      rw [null] at answers
      exact answers
  exact ⟨either .normal, either .io⟩

/-- Slots 0, 2 and 3 are free: the search takes 0 with 2 and misses 2 with 3, so a page that
begins inside a frame is refused. -/
theorem adjacent_slots_missed : ∃ bmp : Bmp512,
    LowestPair (fun b => bmp.test b = true) 2 ∧ bmp.ffs2 = none ∧
    ∀ (w : Window) (partition : VmaPartition),
      (mapPhysPgNoflush w ⟨bmp, partition⟩ 4096).1 = 0 := by
  have lowest : LowestPair
      (fun b => Bmp512.test ⟨Bmp256.empty, fun i => if i = 0 then 13#64 else 0#64⟩ b = true) 2 := by
    refine ⟨by decide, fun c below => ?_⟩
    have low : c = 0 ∨ c = 1 := by omega
    rcases low with rfl | rfl <;> decide
  have missed : Bmp512.ffs2 ⟨Bmp256.empty, fun i => if i = 0 then 13#64 else 0#64⟩ = none := by
    decide
  refine ⟨_, lowest, missed, fun w partition => ?_⟩
  exact (mapPhysPg_null_iff 4096).mpr missed

end Twan.Kernel.Paging
