/-
# Twan.Lib.TlsfAlloc -- the two-level segregated fit allocator

`src/lib/tlsf_alloc.c` and `include/lib/tlsf_alloc.h`.  A block is a header of four
words (`size` with two flags in its low bits, `prev_phys`, `prev_free`, `next_free`)
and a payload behind it.  Everything the allocator reads or writes is an aligned
64-bit word, so memory is a function from addresses, of which only the multiples of
8 are ever used, to words; addresses and sizes are `u64` with the wraparound written
out, and NULL is 0.

Masking with `~TLSF_SIZE_RESERVED_MASK` and with the two flags is written as division
and remainder by 2 and 4.  The control structure keeps its bitmaps as 32-bit words.
-/
import Twan.Lib.Bits
import Twan.Lib.Std

namespace Twan.Lib.TlsfAlloc

set_option autoImplicit false

/-- `struct tlsf`, and the memory it manages. -/
structure Tlsf where
  flBitmap : BitVec 32
  slBitmaps : ℕ → BitVec 32
  blocks : ℕ → ℕ → ℕ
  heapStart : ℕ
  heapEnd : ℕ
  mem : ℕ → ℕ

/-- `sizeof(struct tlsf_block)`. -/
def headerSize : ℕ := 32

/-- `TLSF_BLOCK_MIN`. -/
def blockMin : ℕ := 16

/-- `TLSF_MAX_ALLOC`. -/
def maxAlloc : ℕ := 2 ^ 27

/-- `sizeof(struct aligned_block)`. -/
def alignedHeaderSize : ℕ := 16

/-- `tlsf_align_up(x)`. -/
def alignUp (x : ℕ) : ℕ := p2alignUp x 8

/-- `tlsf_block_to_ptr(block)`. -/
def blockToPtr (block : ℕ) : ℕ := (block + headerSize) % 2 ^ 64

/-- `tlsf_ptr_to_block(addr)`. -/
def ptrToBlock (addr : ℕ) : ℕ := (addr + 2 ^ 64 - headerSize) % 2 ^ 64

/-- `__tlsf_map(size, &fli, &sli)`.  `fls32` takes the low half of `size`, and -1 is
the largest `u32`. -/
def map (size : ℕ) : ℕ × ℕ :=
  if size < 32 then (0, size)
  else
    let fli := (fls32 (size % 2 ^ 32)).getD (2 ^ 32 - 1)
    let sli := (size >>> (fli - 5)) % 32
    let bin :=
      if size % 2 ^ (fli - 5) ≠ 0 then
        if sli + 1 ≥ 32 then (fli + 1, 0) else (fli, sli + 1)
      else (fli, sli)
    (if bin.1 > 27 then 27 else bin.1, bin.2)

/-- Every size falls into one of the `TLSF_FL_COUNT` times `TLSF_SL_COUNT` bins. -/
theorem map_range (size : ℕ) : (map size).1 ≤ 27 ∧ (map size).2 < 32 := by
  unfold map
  split
  · rename_i small
    exact ⟨Nat.zero_le 27, small⟩
  · have held : ∀ n, (if n > 27 then 27 else n) ≤ 27 := by
      intro n
      split <;> omega
    refine ⟨held _, ?_⟩
    dsimp only
    split
    · split
      · exact Nat.zero_lt_succ 31
      · rename_i less
        exact Nat.lt_of_not_ge less
    · exact Nat.mod_lt _ (by decide)

namespace Tlsf

variable (t : Tlsf)

/-- A store of one word. -/
def write (a v : ℕ) : Tlsf := { t with mem := Function.update t.mem a v }

/-- A store under a condition. -/
def writeIf (c : Prop) [Decidable c] (a v : ℕ) : Tlsf :=
  { t with mem := if c then Function.update t.mem a v else t.mem }

/-! ## The fields of a block -/

def prevPhys (b : ℕ) : ℕ := t.mem (b + 8)

def prevFree (b : ℕ) : ℕ := t.mem (b + 16)

def nextFree (b : ℕ) : ℕ := t.mem (b + 24)

/-- `tlsf_get_block_size(block)`. -/
def getBlockSize (b : ℕ) : ℕ := t.mem b / 4 * 4

/-- `tlsf_set_block_size(block, new_size)`: the flags stay. -/
def setBlockSize (b size : ℕ) : Tlsf := t.write b (size / 4 * 4 + t.mem b % 4)

/-- `tlsf_block_is_free(block)`. -/
def blockIsFree (b : ℕ) : Bool := t.mem b % 2 == 1

/-- `tlsf_prev_is_free(block)`. -/
def prevIsFree (b : ℕ) : Bool := t.mem b / 2 % 2 == 1

/-- `tlsf_set_block_free(block)`. -/
def setBlockFree (b : ℕ) : Tlsf := t.write b (t.mem b / 2 * 2 + 1)

/-- `tlsf_unset_block_free(block)`. -/
def unsetBlockFree (b : ℕ) : Tlsf := t.write b (t.mem b / 2 * 2)

/-- The word that `tlsf_set_prev_phys_free` stores. -/
def withPrevFree (w : ℕ) : ℕ := w / 4 * 4 + 2 + w % 2

/-- The word that `tlsf_unset_prev_phys_free` stores. -/
def withoutPrevFree (w : ℕ) : ℕ := w / 4 * 4 + w % 2

/-- `tlsf_unset_prev_phys_free(block)`. -/
def unsetPrevPhysFree (b : ℕ) : Tlsf := t.write b (withoutPrevFree (t.mem b))

/-- `tlsf_next_block(block)`. -/
def nextBlock (b : ℕ) : ℕ := (b + headerSize + t.getBlockSize b) % 2 ^ 64

/-- `if ((u64)next < tlsf->heap_end) next->prev_phys = block`. -/
def setPrevPhys (next b : ℕ) : Tlsf :=
  t.writeIf (next < t.heapEnd) (next + 8) b

/-! ## Bins -/

/-- The first half of `__tlsf_remove_free_block`: the neighbours in the bin are linked to
each other. -/
def joinFree (prev next : ℕ) : Tlsf :=
  (t.writeIf (prev ≠ 0) (prev + 24) next).writeIf (next ≠ 0) (next + 16) prev

/-- The second half: if the block is the first of its bin, the next one becomes that, and
the bitmaps follow when there is none. -/
def advanceBin (b next fli sli : ℕ) : Tlsf :=
  if t.blocks fli sli = b then
    let sl := if next = 0 then t.slBitmaps fli &&& ~~~(1#32 <<< sli) else t.slBitmaps fli
    { t with
      blocks := Function.update t.blocks fli (Function.update (t.blocks fli) sli next)
      slBitmaps := Function.update t.slBitmaps fli sl
      flBitmap := if next = 0 ∧ sl = 0#32 then t.flBitmap &&& ~~~(1#32 <<< fli) else t.flBitmap }
  else t

/-- `__tlsf_remove_free_block(tlsf, block, fli, sli)`. -/
def removeFreeBlock (b fli sli : ℕ) : Tlsf :=
  (t.joinFree (t.prevFree b) (t.nextFree b)).advanceBin b (t.nextFree b) fli sli

/-- `__tlsf_insert_free_block(tlsf, block, fli, sli)`. -/
def insertFreeBlock (b fli sli : ℕ) : Tlsf :=
  let cur := t.blocks fli sli
  let t := (t.write (b + 24) cur).write (b + 16) 0
  let t := t.writeIf (cur ≠ 0) (cur + 16) b
  { t with
    blocks := Function.update t.blocks fli (Function.update (t.blocks fli) sli b)
    flBitmap := t.flBitmap ||| (1#32 <<< fli)
    slBitmaps := Function.update t.slBitmaps fli (t.slBitmaps fli ||| (1#32 <<< sli)) }

/-- `__tlsf_search_suitable_block(tlsf, &fli, &sli)`: the block and its bin. -/
def searchSuitableBlock (fli sli : ℕ) : ℕ × ℕ × ℕ :=
  let availableSl := t.slBitmaps fli &&& (BitVec.allOnes 32 <<< sli)
  if availableSl = 0#32 then
    let availableFl := t.flBitmap &&& (BitVec.allOnes 32 <<< (fli + 1))
    match ffs32 availableFl.toNat with
    | none => (0, fli, sli)
    | some fli =>
        let sli := (ffs32 (t.slBitmaps fli).toNat).getD (2 ^ 32 - 1)
        (t.blocks fli sli, fli, sli)
  else
    let sli := (ffs32 availableSl.toNat).getD (2 ^ 32 - 1)
    (t.blocks fli sli, fli, sli)

/-! ## Merging and carving -/

/-- `__tlsf_merge_prev(tlsf, block)`. -/
def mergePrev (b : ℕ) : Tlsf × ℕ :=
  if t.prevIsFree b then
    let prev := t.prevPhys b
    let prevSize := t.getBlockSize prev
    let t := t.removeFreeBlock prev (map prevSize).1 (map prevSize).2
    let t := t.setBlockSize prev (prevSize + headerSize + t.getBlockSize b)
    (t.setPrevPhys (t.nextBlock b) prev, prev)
  else (t, b)

/-- `__tlsf_merge_next(tlsf, block)`. -/
def mergeNext (b : ℕ) : Tlsf × ℕ :=
  let next := t.nextBlock b
  if next < t.heapEnd ∧ t.blockIsFree next = true then
    let nextSize := t.getBlockSize next
    let t := t.removeFreeBlock next (map nextSize).1 (map nextSize).2
    let t := t.setBlockSize b (t.getBlockSize b + nextSize + headerSize)
    (t.setPrevPhys (t.nextBlock next) b, b)
  else (t, b)

/-- `__tlsf_mark_free(tlsf, block)`. -/
def markFree (b : ℕ) : Tlsf :=
  let t := t.setBlockFree b
  let next := t.nextBlock b
  t.writeIf (next < t.heapEnd) next (withPrevFree (t.mem next))

/-- `__tlsf_unmark_free(tlsf, block)`. -/
def unmarkFree (b : ℕ) : Tlsf :=
  let t := t.unsetBlockFree b
  let next := t.nextBlock b
  t.writeIf (next < t.heapEnd) next (withoutPrevFree (t.mem next))

/-- `__tlsf_try_carve(tlsf, block, size)`. -/
def tryCarve (b size : ℕ) : Tlsf × Bool :=
  let mergedSize := t.getBlockSize b
  if mergedSize < size + headerSize + blockMin then (t, false)
  else
    let cutout := blockToPtr b + size
    let cutoutSize := mergedSize - size - headerSize
    let t := t.setBlockSize cutout cutoutSize
    let t := t.setBlockFree cutout
    let t := t.unsetPrevPhysFree cutout
    let t := t.write (cutout + 8) b
    let t := t.setBlockSize b size
    let t := t.setPrevPhys (t.nextBlock cutout) cutout
    (t.insertFreeBlock cutout (map cutoutSize).1 (map cutoutSize).2, true)

/-! ## The interface -/

/-- `__tlsf_init(tlsf, heap_start, heap_size)`; `none` is `-EINVAL`. -/
def init (heapStart heapSize : ℕ) : Option Tlsf :=
  if heapStart = 0 ∨ heapSize < blockMin + headerSize then none
  else
    let aligned := alignUp heapStart
    let cutoff := (aligned + 2 ^ 64 - heapStart) % 2 ^ 64
    if cutoff ≥ heapSize then none
    else
      let adjusted := heapSize - cutoff
      let t := { t with heapStart := aligned, heapEnd := (aligned + adjusted) % 2 ^ 64 }
      let blockSize := adjusted - headerSize
      let t := t.setBlockSize aligned blockSize
      let t := t.setBlockFree aligned
      let t := ((t.write (aligned + 8) 0).write (aligned + 16) 0).write (aligned + 24) 0
      some (t.insertFreeBlock aligned (map blockSize).1 (map blockSize).2)

/-- The size a request is rounded up to. -/
def roundUp (size : ℕ) : ℕ := if alignUp size < blockMin then blockMin else alignUp size

/-- The part of `__tlsf_alloc` that cuts the rest off a block larger than needed. -/
def cut (b size blockSize : ℕ) : Tlsf :=
  if blockSize ≥ size + headerSize + blockMin then
    let cutout := blockToPtr b + size
    let cutoutSize := blockSize - size - headerSize
    let t := t.setBlockSize cutout cutoutSize
    let t := t.setBlockFree cutout
    let t := t.write (cutout + 8) b
    let t := t.setBlockSize b size
    let t := t.setPrevPhys (t.nextBlock cutout) cutout
    t.insertFreeBlock cutout (map cutoutSize).1 (map cutoutSize).2
  else t

/-- `__tlsf_alloc(tlsf, size)`. -/
def alloc (size : ℕ) : Tlsf × ℕ :=
  if size = 0 ∨ size > maxAlloc then (t, 0)
  else
    let size := roundUp size
    let found := t.searchSuitableBlock (map size).1 (map size).2
    if found.1 = 0 then (t, 0)
    else
      let blockSize := t.getBlockSize found.1
      if blockSize < size then (t, 0)
      else
        let t := t.removeFreeBlock found.1 found.2.1 found.2.2
        let t := t.cut found.1 size blockSize
        (t.unmarkFree found.1, blockToPtr found.1)

/-- `__tlsf_free(tlsf, addr)`. -/
def free (addr : ℕ) : Tlsf :=
  if addr < t.heapStart ∨ addr ≥ t.heapEnd then t
  else
    let block := ptrToBlock addr
    if block < t.heapStart ∨ block ≥ t.heapEnd then t
    else
      let next := (t.markFree block).mergeNext block
      let prev := next.1.mergePrev next.2
      let size := prev.1.getBlockSize prev.2
      prev.1.insertFreeBlock prev.2 (map size).1 (map size).2

/-- `memcpy(dst, src, size)` between aligned addresses, for whole words. -/
def memcpy (dst src : ℕ) : ℕ → Tlsf
  | 0 => t
  | n + 1 => (memcpy dst src n).write (dst + 8 * n) ((memcpy dst src n).mem (src + 8 * n))

/-- `__tlsf_realloc(tlsf, addr, size)`. -/
def realloc (addr size : ℕ) : Tlsf × ℕ :=
  if addr = 0 then t.alloc size
  else if size = 0 then (t.free addr, 0)
  else if addr < t.heapStart ∨ addr ≥ t.heapEnd then (t, 0)
  else if size > maxAlloc then (t, 0)
  else
    let block := ptrToBlock addr
    let blockSize := t.getBlockSize block
    let size := roundUp size
    if blockSize = size then (t, addr)
    else if blockSize > size then ((t.tryCarve block size).1, addr)
    else
      let next := t.nextBlock block
      if next < t.heapEnd ∧ t.blockIsFree next = true ∧ t.getBlockSize next + blockSize ≥ size then
        (((t.mergeNext block).1.tryCarve block size).1, blockToPtr block)
      else
        let moved := t.alloc size
        if moved.2 = 0 then (moved.1, 0)
        else ((moved.1.memcpy moved.2 addr (blockSize / 8)).free addr, moved.2)

/-- The part of `__tlsf_alloc_p2aligned` that gives the padding in front of `header`
back as a block of its own; the new pointer. -/
def carvePadding (ptr header : ℕ) : Tlsf × ℕ :=
  if (header + 2 ^ 64 - ptr) % 2 ^ 64 ≥ headerSize + blockMin then
    let orig := ptrToBlock ptr
    let new := (header + 2 ^ 64 - headerSize) % 2 ^ 64
    let origSize := t.getBlockSize orig
    let paddingSize := (new + 2 ^ 64 - ptr) % 2 ^ 64
    let newSize := (origSize + 2 ^ 65 - paddingSize - headerSize) % 2 ^ 64
    let t := t.setBlockSize new newSize
    let t := t.unsetBlockFree new
    let t := t.unsetPrevPhysFree new
    let t := ((t.write (new + 8) orig).write (new + 16) 0).write (new + 24) 0
    let t := t.setPrevPhys (t.nextBlock new) new
    let t := t.setBlockSize orig paddingSize
    (t.free ptr, blockToPtr new)
  else (t, ptr)

/-- `__tlsf_alloc_p2aligned(tlsf, size, alignment)`. -/
def allocP2aligned (size alignment : ℕ) : Tlsf × ℕ :=
  if isPow2 alignment = false then (t, 0)
  else if size = 0 ∨ size > maxAlloc then (t, 0)
  else
    let totalSize := size + alignment + alignedHeaderSize
    if totalSize > maxAlloc then (t, 0)
    else
      let raw := t.alloc totalSize
      if raw.2 = 0 then (raw.1, 0)
      else
        let aligned := p2alignUp (raw.2 + alignedHeaderSize) alignment
        let header := (aligned + 2 ^ 64 - alignedHeaderSize) % 2 ^ 64
        let carved := raw.1.carvePadding raw.2 header
        ((carved.1.write header carved.2).write (header + 8) size, aligned)

/-- `__tlsf_free_p2aligned(tlsf, addr)`. -/
def freeP2aligned (addr : ℕ) : Tlsf :=
  let header := (addr + 2 ^ 64 - alignedHeaderSize) % 2 ^ 64
  if header < t.heapStart ∨ header ≥ t.heapEnd ∨ header ≥ addr then t
  else t.free (t.mem header)

end Tlsf

end Twan.Lib.TlsfAlloc
