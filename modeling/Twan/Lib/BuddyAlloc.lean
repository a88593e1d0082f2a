/-
# Twan.Lib.BuddyAlloc -- the buddy allocator of physical memory

`src/lib/buddy_alloc.c` and `include/lib/buddy_alloc.h`.  The arena keeps one bit
per block in a flattened bitmap (order `o` starts at bit `2 ^ (14 - o) - 1`) and one
summary bit per order; addresses are `u64`, with the wraparound written out, and
`PMA_NULL` is 0.

A client allocates, and frees what it was given with the order it asked for.  The
free and the live blocks form a tiling in the sense of `Twan.Base.Dyadic`; inside
the split loop of `__buddy_alloc` and the merge loop of `__buddy_free` one more
block is in hand.
-/
import Twan.Base.Dyadic
import Twan.Base.Run
import Twan.Lib.Bits
import Twan.Lib.Std

namespace Twan.Lib.BuddyAlloc

set_option autoImplicit false

open Twan.Base Twan.Base.Dyadic

/-! ## Bitmaps -/

abbrev Bitmap := ℕ → BitVec 8

/-- `__buddy_bitmap_test`. -/
def bitmapTest (bitmap : Bitmap) (bit : ℕ) : Bool :=
  bitmap (bit / 8) &&& (1#8 <<< (bit % 8)) != 0#8

/-- `__buddy_bitmap_set`. -/
def bitmapSet (bitmap : Bitmap) (bit : ℕ) : Bitmap :=
  Function.update bitmap (bit / 8) (bitmap (bit / 8) ||| (1#8 <<< (bit % 8)))

/-- `__buddy_bitmap_clear`. -/
def bitmapClear (bitmap : Bitmap) (bit : ℕ) : Bitmap :=
  Function.update bitmap (bit / 8) (bitmap (bit / 8) &&& ~~~(1#8 <<< (bit % 8)))

theorem bitmapTest_eq (bitmap : Bitmap) (bit : ℕ) :
    bitmapTest bitmap bit = (bitmap (bit / 8)).getLsbD (bit % 8) := by
  have lt : bit % 8 < 8 := Nat.mod_lt _ (by decide)
  unfold bitmapTest
  rw [Bool.eq_iff_iff, bne_iff_ne, ne_eq, BitVec.eq_of_getLsbD_eq_iff]
  simp only [BitVec.getLsbD_and, getLsbD_oneBit, BitVec.getLsbD_zero]
  constructor
  · intro nonzero
    by_contra clear
    apply nonzero
    intro i _
    by_cases same : bit % 8 = i
    · subst same
      simp [clear]
    · simp [same]
  · intro set zero
    have at_ := zero (bit % 8) lt
    rw [set] at at_
    simp [lt] at at_

theorem bitmapTest_set (bitmap : Bitmap) (bit bit' : ℕ) :
    bitmapTest (bitmapSet bitmap bit) bit' = (decide (bit' = bit) || bitmapTest bitmap bit') := by
  have written := bit_update_set bitmap (bit / 8) (Nat.mod_lt bit (by decide : 8 > 0)) bit'
  rw [Nat.div_add_mod] at written
  simp only [bitmapTest_eq, eq_comm (a := bit')]
  exact written

theorem bitmapTest_clear (bitmap : Bitmap) (bit bit' : ℕ) :
    bitmapTest (bitmapClear bitmap bit) bit' = (!decide (bit' = bit) && bitmapTest bitmap bit') := by
  have written := bit_update_clear bitmap (bit / 8) (Nat.mod_lt bit (by decide : 8 > 0)) bit'
  rw [Nat.div_add_mod] at written
  simp only [bitmapTest_eq, eq_comm (a := bit')]
  exact written

/-! ## The arena -/

/-- `PMA_BASE_ORDER`: the smallest block is one page of 2 MiB. -/
def baseOrder : ℕ := 21

/-- `BUDDY_MAX_ORDER`. -/
def maxOrder : ℕ := 35

/-- `BUDDY_NUM_ORDERS`. -/
def numOrders : ℕ := maxOrder - baseOrder + 1

/-- `BUDDY_MIN_ARENA_SIZE`. -/
def minArenaSize : ℕ := 2 ^ baseOrder

/-- `BUDDY_MAX_ARENA_SIZE`. -/
def maxArenaSize : ℕ := 2 ^ maxOrder

/-- `BUDDY_MAX_BLOCKS`. -/
def maxBlocks : ℕ := maxArenaSize / minArenaSize

/-- `PMA_NULL`. -/
def pmaNull : ℕ := 0

/-- `struct buddy_arena`. -/
structure Arena where
  baseAddr : ℕ
  orderBitmap : Bitmap
  blockBitmap : Bitmap

/-- `buddy_order_num_blocks`. -/
def orderNumBlocks (order : ℕ) : ℕ := maxBlocks >>> order

/-- `__buddy_block_bitmap_bit`. -/
def blockBitmapBit (order idx : ℕ) : ℕ := (2 ^ (numOrders - 1 - order) - 1) + idx

/-- `buddy_get_idx`. -/
def getIdx (idx : ℕ) : ℕ := idx ^^^ 1

/-- `buddy_get_parent_idx`. -/
def getParentIdx (idx : ℕ) : ℕ := idx >>> 1

/-- The first `i ≤ j < i + n` with `p j`. -/
def scan (p : ℕ → Bool) (i : ℕ) : ℕ → Option ℕ
  | 0 => none
  | n + 1 => if p i then some i else scan p (i + 1) n

namespace Arena

variable (arena : Arena)

def isOrderFree (order : ℕ) : Bool := bitmapTest arena.orderBitmap order

def orderSetFree (order : ℕ) : Arena :=
  { arena with orderBitmap := bitmapSet arena.orderBitmap order }

def orderClear (order : ℕ) : Arena :=
  { arena with orderBitmap := bitmapClear arena.orderBitmap order }

def isBlockFree (order idx : ℕ) : Bool := bitmapTest arena.blockBitmap (blockBitmapBit order idx)

def blockSetFree (order idx : ℕ) : Arena :=
  { arena with blockBitmap := bitmapSet arena.blockBitmap (blockBitmapBit order idx) }

def blockClear (order idx : ℕ) : Arena :=
  { arena with blockBitmap := bitmapClear arena.blockBitmap (blockBitmapBit order idx) }

/-- `buddy_addr_to_block_idx`; the subtraction is one of `u64`. -/
def addrToBlockIdx (addr order : ℕ) : ℕ :=
  ((addr + 2 ^ 64 - arena.baseAddr) % 2 ^ 64) >>> (order + baseOrder)

/-- `buddy_block_idx_to_addr`. -/
def blockIdxToAddr (idx order : ℕ) : ℕ :=
  (arena.baseAddr + idx <<< (order + baseOrder)) % 2 ^ 64

/-- `__buddy_find_block_at_order`; `none` is -1. -/
def findBlockAtOrder (order : ℕ) : Option ℕ :=
  if arena.isOrderFree order then scan (arena.isBlockFree order) 0 (orderNumBlocks order)
  else none

/-- `__buddy_update_order_bitmap`. -/
def updateOrderBitmap (order : ℕ) : Arena :=
  if (arena.findBlockAtOrder order).isNone then arena.orderClear order
  else arena.orderSetFree order

/-- The first loop of `__buddy_alloc`, with `remaining` orders from `order` on. -/
def searchOrder (arena : Arena) (order : ℕ) : ℕ → Arena × Option (ℕ × ℕ)
  | 0 => (arena, none)
  | remaining + 1 =>
      if arena.isOrderFree order then
        match arena.findBlockAtOrder order with
        | some idx => (arena, some (order, idx))
        | none => (arena.updateOrderBitmap order).searchOrder (order + 1) remaining
      else arena.searchOrder (order + 1) remaining

/-- `while (alloc_order > order)` of `__buddy_alloc`, with `order + n` for
`alloc_order`. -/
def splitDown (arena : Arena) (order idx : ℕ) : ℕ → Arena × ℕ
  | 0 => (arena, idx)
  | n + 1 =>
      let left := idx <<< 1
      let right := left ||| 1
      let arena := arena.blockClear (order + n) left
      let arena := arena.blockSetFree (order + n) right
      let arena := arena.orderSetFree (order + n)
      arena.splitDown order left n

/-- `__buddy_alloc`. -/
def alloc (order : ℕ) : Arena × ℕ :=
  if numOrders ≤ order then (arena, pmaNull)
  else
    match arena.searchOrder order (numOrders - order) with
    | (arena, none) => (arena, pmaNull)
    | (arena, some (allocOrder, idx)) =>
        let arena := arena.blockClear allocOrder idx
        let arena := arena.updateOrderBitmap allocOrder
        let split := arena.splitDown order idx (allocOrder - order)
        (split.1, split.1.blockIdxToAddr split.2 order)

/-- `while (current_order < max_order)` of `__buddy_free`, for `n` orders more. -/
def mergeUp (arena : Arena) (order idx : ℕ) : ℕ → Arena × ℕ × ℕ
  | 0 => (arena, order, idx)
  | n + 1 =>
      let buddyIdx := getIdx idx
      if orderNumBlocks order ≤ buddyIdx ∨ arena.isBlockFree order buddyIdx = false then
        (arena, order, idx)
      else
        let arena := arena.blockClear order idx
        let arena := arena.blockClear order buddyIdx
        let arena := arena.updateOrderBitmap order
        arena.mergeUp (order + 1) (getParentIdx idx) n

/-- `__buddy_free`. -/
def free (addr order : ℕ) : Arena :=
  if addr = pmaNull ∨ numOrders ≤ order then arena
  else
    let idx := arena.addrToBlockIdx addr order
    let merged := arena.mergeUp order idx (numOrders - 1 - order)
    (merged.1.blockSetFree merged.2.1 merged.2.2).orderSetFree merged.2.1

end Arena

/-- `buddy_arena_init`; `none` is `-EINVAL`. -/
def arenaInit (baseAddr size : ℕ) : Option Arena :=
  if baseAddr = pmaNull then none
  else
    let alignedAddr := p2alignUp baseAddr minArenaSize
    if alignedAddr < baseAddr ∨ alignedAddr = pmaNull then none
    else
      let cutoff := alignedAddr - baseAddr
      if cutoff > size then none
      else
        let size := p2alignDown (size - cutoff) minArenaSize
        if size < minArenaSize then none
        else
          let size := if size > maxArenaSize then maxArenaSize else size
          let order := log2 size - baseOrder
          let arena : Arena := ⟨alignedAddr, fun _ => 0, fun _ => 0⟩
          some ((arena.orderSetFree order).blockSetFree order 0)

/-! ## Clients -/

/-- An arena and what its clients hold: addresses with the orders they asked for. -/
structure Sys where
  arena : Arena
  live : List (ℕ × ℕ)

inductive Action where
  | alloc (order : ℕ)
  | free (addr order : ℕ)

/-- A client frees only what is live.  An allocation that returns `PMA_NULL` gives
its caller nothing. -/
def step (s : Sys) : Action → Option Sys
  | .alloc order =>
      let (arena, addr) := s.arena.alloc order
      some ⟨arena, if addr = pmaNull then s.live else (addr, order) :: s.live⟩
  | .free addr order =>
      if (addr, order) ∈ s.live then
        some ⟨s.arena.free addr order, s.live.erase (addr, order)⟩
      else none

/-! ## Bits and blocks -/

/-- The order of the whole arena, and the order that counts in blocks of 2 MiB. -/
abbrev topOrder : ℕ := numOrders - 1

theorem orderNumBlocks_eq {order : ℕ} (le : order ≤ topOrder) :
    orderNumBlocks order = 2 ^ (topOrder - order) := by
  have top : maxBlocks = 2 ^ topOrder := by decide
  rw [orderNumBlocks, top, Nat.shiftRight_eq_div_pow, Nat.pow_div le (by decide)]

/-- The offsets of the orders keep the bits of different blocks apart. -/
theorem blockBitmapBit_inj {b c : Block} (insideB : b.Inside topOrder) (insideC : c.Inside topOrder)
    (same : blockBitmapBit b.order b.idx = blockBitmapBit c.order c.idx) : b = c := by
  obtain ⟨o, i⟩ := b
  obtain ⟨o', i'⟩ := c
  obtain ⟨le, lt⟩ := insideB
  obtain ⟨le', lt'⟩ := insideC
  change 2 ^ (topOrder - o) - 1 + i = 2 ^ (topOrder - o') - 1 + i' at same
  simp only at le lt le' lt'
  have posB := Nat.two_pow_pos (topOrder - o)
  have posC := Nat.two_pow_pos (topOrder - o')
  rcases Nat.lt_trichotomy (topOrder - o) (topOrder - o') with less | equal | more
  · have double : 2 * 2 ^ (topOrder - o) ≤ 2 ^ (topOrder - o') := by
      rw [← pow_succ']
      exact Nat.pow_le_pow_right (by decide) less
    omega
  · have orders : o = o' := by omega
    subst orders
    simp only [Block.mk.injEq, true_and]
    omega
  · have double : 2 * 2 ^ (topOrder - o') ≤ 2 ^ (topOrder - o) := by
      rw [← pow_succ']
      exact Nat.pow_le_pow_right (by decide) more
    omega

namespace Arena

variable {arena : Arena} {b c : Block} {order idx : ℕ}

/-- The bitmap records `b` as free. -/
def Free (arena : Arena) (b : Block) : Prop :=
  b.Inside topOrder ∧ arena.isBlockFree b.order b.idx = true

theorem free_blockSetFree (inside : (Block.mk order idx).Inside topOrder) :
    (arena.blockSetFree order idx).Free b ↔ arena.Free b ∨ b = ⟨order, idx⟩ := by
  simp only [Free, isBlockFree, blockSetFree, bitmapTest_set, Bool.or_eq_true, decide_eq_true_eq]
  constructor
  · rintro ⟨insideB, same | free⟩
    · exact .inr (blockBitmapBit_inj insideB inside same)
    · exact .inl ⟨insideB, free⟩
  · rintro (⟨insideB, free⟩ | rfl)
    · exact ⟨insideB, .inr free⟩
    · exact ⟨inside, .inl rfl⟩

theorem free_blockClear (inside : (Block.mk order idx).Inside topOrder) :
    (arena.blockClear order idx).Free b ↔ arena.Free b ∧ b ≠ ⟨order, idx⟩ := by
  simp only [Free, isBlockFree, blockClear, bitmapTest_clear, Bool.and_eq_true, Bool.not_eq_true',
    decide_eq_false_iff_not]
  constructor
  · rintro ⟨insideB, other, free⟩
    refine ⟨⟨insideB, free⟩, ?_⟩
    rintro rfl
    exact other rfl
  · rintro ⟨⟨insideB, free⟩, other⟩
    exact ⟨insideB, fun same => other (blockBitmapBit_inj insideB inside same), free⟩

theorem isOrderFree_orderSetFree (order' : ℕ) : (arena.orderSetFree order).isOrderFree order' =
    (decide (order' = order) || arena.isOrderFree order') :=
  bitmapTest_set _ _ _

theorem isOrderFree_orderClear (order' : ℕ) : (arena.orderClear order).isOrderFree order' =
    (!decide (order' = order) && arena.isOrderFree order') :=
  bitmapTest_clear _ _ _

theorem updateOrderBitmap_blocks : (arena.updateOrderBitmap order).blockBitmap = arena.blockBitmap ∧
    (arena.updateOrderBitmap order).baseAddr = arena.baseAddr := by
  unfold updateOrderBitmap
  split <;> exact ⟨rfl, rfl⟩

theorem free_updateOrderBitmap : (arena.updateOrderBitmap order).Free b ↔ arena.Free b := by
  simp only [Free, isBlockFree, updateOrderBitmap_blocks.1]

/-- Each summary bit is set exactly when some block of its order is free. -/
def Summary (arena : Arena) : Prop :=
  ∀ order, order ≤ topOrder → (arena.isOrderFree order = true ↔ ∃ idx, arena.Free ⟨order, idx⟩)

end Arena

theorem scan_some {p : ℕ → Bool} {i n j : ℕ} (found : scan p i n = some j) :
    i ≤ j ∧ j < i + n ∧ p j = true := by
  induction n generalizing i with
  | zero => cases found
  | succ n ih =>
      unfold scan at found
      split at found
      · cases found
        exact ⟨le_rfl, by omega, by assumption⟩
      · obtain ⟨le, lt, holds⟩ := ih found
        exact ⟨by omega, by omega, holds⟩

theorem scan_none {p : ℕ → Bool} {i n : ℕ} (found : scan p i n = none) {j : ℕ} (le : i ≤ j)
    (lt : j < i + n) : p j = false := by
  induction n generalizing i with
  | zero => omega
  | succ n ih =>
      unfold scan at found
      split at found
      · cases found
      · rename_i here
        rcases Nat.eq_or_lt_of_le le with same | less
        · subst same
          simpa using here
        · exact ih found less (by omega)

namespace Arena

variable {arena : Arena} {b c : Block} {order idx : ℕ}

theorem findBlockAtOrder_some (le : order ≤ topOrder)
    (found : arena.findBlockAtOrder order = some idx) : arena.Free ⟨order, idx⟩ := by
  unfold findBlockAtOrder at found
  split at found
  case isFalse => cases found
  obtain ⟨-, lt, holds⟩ := scan_some found
  rw [orderNumBlocks_eq le, Nat.zero_add] at lt
  exact ⟨⟨le, lt⟩, holds⟩

theorem findBlockAtOrder_none (isFree : arena.isOrderFree order = true)
    (found : arena.findBlockAtOrder order = none) : ¬ arena.Free ⟨order, idx⟩ := by
  rintro ⟨⟨le, lt⟩, holds⟩
  simp only [findBlockAtOrder, isFree, if_true] at found
  simp only at le lt holds
  have absent := scan_none found (Nat.zero_le idx) (by rw [orderNumBlocks_eq le]; omega)
  rw [holds] at absent
  cases absent

/-- The update makes the summary of one order exact, when its bit was set. -/
theorem isOrderFree_updateOrderBitmap (le : order ≤ topOrder)
    (isFree : arena.isOrderFree order = true) :
    (arena.updateOrderBitmap order).isOrderFree order = true ↔ ∃ idx, arena.Free ⟨order, idx⟩ := by
  unfold updateOrderBitmap
  cases found : arena.findBlockAtOrder order with
  | none =>
      simp only [Option.isNone_none, if_true, isOrderFree_orderClear]
      simp only [decide_true, Bool.not_true, Bool.false_and, Bool.false_eq_true, false_iff]
      rintro ⟨idx, free⟩
      exact findBlockAtOrder_none isFree found free
  | some idx =>
      simp only [Option.isNone_some, Bool.false_eq_true, if_false, isOrderFree_orderSetFree]
      simp only [decide_true, Bool.true_or, true_iff]
      exact ⟨idx, findBlockAtOrder_some le found⟩

theorem isOrderFree_updateOrderBitmap_other {order' : ℕ} (other : order' ≠ order) :
    (arena.updateOrderBitmap order).isOrderFree order' = arena.isOrderFree order' := by
  unfold updateOrderBitmap
  split
  · rw [isOrderFree_orderClear]
    simp [other]
  · rw [isOrderFree_orderSetFree]
    simp [other]

/-- Removing blocks of one order and updating its bit keeps the summary exact. -/
theorem Summary.remove {arena' : Arena} (summary : arena.Summary) (le : order ≤ topOrder)
    (isFree : arena.isOrderFree order = true) (orders : arena'.orderBitmap = arena.orderBitmap)
    (others : ∀ o i, o ≠ order → (arena'.Free ⟨o, i⟩ ↔ arena.Free ⟨o, i⟩)) :
    (arena'.updateOrderBitmap order).Summary := by
  have bits : ∀ o, arena'.isOrderFree o = arena.isOrderFree o := fun o => by
    simp only [isOrderFree, orders]
  intro o le'
  simp only [free_updateOrderBitmap]
  by_cases same : o = order
  · subst same
    exact isOrderFree_updateOrderBitmap le (by rw [bits]; exact isFree)
  · rw [isOrderFree_updateOrderBitmap_other same, bits, summary o le']
    exact exists_congr fun i => (others o i same).symm

/-- Setting a block free together with the bit of its order. -/
theorem Summary.insert {arena' : Arena} (summary : arena.Summary)
    (orders : arena'.orderBitmap = bitmapSet arena.orderBitmap order)
    (blocks : ∀ b, arena'.Free b ↔ arena.Free b ∨ b = ⟨order, idx⟩) : arena'.Summary := by
  intro o le
  have bit : arena'.isOrderFree o = (decide (o = order) || arena.isOrderFree o) := by
    simp only [isOrderFree, orders]
    exact bitmapTest_set _ _ _
  rw [bit, Bool.or_eq_true, decide_eq_true_eq, summary o le]
  simp only [blocks, Block.mk.injEq]
  constructor
  · rintro (rfl | ⟨i, free⟩)
    · exact ⟨idx, .inr ⟨rfl, rfl⟩⟩
    · exact ⟨i, .inl free⟩
  · rintro ⟨i, free | ⟨same, -⟩⟩
    · exact .inr ⟨i, free⟩
    · exact .inl same

/-- The search leaves the arena as it is and finds the first order with a free block. -/
theorem searchOrder_spec (summary : arena.Summary) {n : ℕ} (range : order + n = numOrders) :
    (arena.searchOrder order n).1 = arena ∧
    match (arena.searchOrder order n).2 with
    | none => ∀ o i, order ≤ o → ¬ arena.Free ⟨o, i⟩
    | some (o, i) => order ≤ o ∧ arena.Free ⟨o, i⟩ := by
  induction n generalizing order with
  | zero =>
      refine ⟨rfl, ?_⟩
      intro o i le free
      have bound : o ≤ topOrder := free.1.1
      have top : topOrder + 1 = numOrders := rfl
      omega
  | succ n ih =>
      have le : order ≤ topOrder := by
        have top : topOrder + 1 = numOrders := rfl
        omega
      unfold searchOrder
      by_cases isFree : arena.isOrderFree order = true
      · rw [if_pos isFree]
        obtain ⟨i, free⟩ := (summary order le).mp isFree
        cases found : arena.findBlockAtOrder order with
        | some idx => exact ⟨rfl, le_rfl, findBlockAtOrder_some le found⟩
        | none => exact absurd free (findBlockAtOrder_none isFree found)
      · rw [if_neg isFree]
        obtain ⟨same, result⟩ := ih (show order + 1 + n = numOrders by omega)
        refine ⟨same, ?_⟩
        split at result
        · intro o i above free
          rcases Nat.eq_or_lt_of_le above with here | higher
          · subst here
            exact isFree ((summary order le).mpr ⟨i, free⟩)
          · exact result o i higher free
        · exact ⟨by omega, result.2⟩

end Arena

/-! ## Indices and addresses -/

theorem shift_left_one (idx : ℕ) : idx <<< 1 = 2 * idx := by
  rw [Nat.shiftLeft_eq, pow_one, mul_comm]

theorem right_half (idx : ℕ) : 2 * idx ||| 1 = 2 * idx + 1 := by
  have sum := Nat.two_pow_add_eq_or_of_lt (i := 1) (b := 1) (by decide) idx
  rw [pow_one] at sum
  exact sum.symm

/-- A block and its buddy are the two halves of their parent. -/
theorem getIdx_cases (idx : ℕ) :
    (idx = 2 * getParentIdx idx ∧ getIdx idx = 2 * getParentIdx idx + 1) ∨
    (idx = 2 * getParentIdx idx + 1 ∧ getIdx idx = 2 * getParentIdx idx) := by
  have half : getIdx idx / 2 = idx / 2 := by
    rw [getIdx, Nat.xor_div_two]
    simp
  have bit : getIdx idx % 2 = (idx + 1) % 2 := by
    have parity := Nat.xor_mod_two_eq_one (a := idx) (b := 1)
    unfold getIdx
    omega
  have parent : getParentIdx idx = idx / 2 := by
    rw [getParentIdx, Nat.shiftRight_eq_div_pow, pow_one]
  rw [parent]
  omega

namespace Arena

variable {arena : Arena} {b c : Block} {order idx : ℕ}

/-- The address that `__buddy_alloc` returns for `b`. -/
def addrOf (arena : Arena) (b : Block) : ℕ := arena.blockIdxToAddr b.idx b.order

/-- A block inside the largest arena starts at an offset below `2 ^ 35`. -/
theorem offset_lt (inside : b.Inside topOrder) : b.idx <<< (b.order + baseOrder) < 2 ^ 35 := by
  have start := b.start_lt inside
  rw [Nat.shiftLeft_eq, pow_add, ← mul_assoc]
  have size : 2 ^ topOrder * 2 ^ baseOrder = 2 ^ 35 := by decide
  rw [← size]
  exact Nat.mul_lt_mul_of_pos_right start (Nat.two_pow_pos _)

theorem shift_injective {i j k : ℕ} (same : i <<< k = j <<< k) : i = j := by
  rw [Nat.shiftLeft_eq, Nat.shiftLeft_eq] at same
  exact Nat.eq_of_mul_eq_mul_right (Nat.two_pow_pos k) same

theorem addrOf_injective (insideB : b.Inside topOrder) (insideC : c.Inside topOrder)
    (orders : b.order = c.order) (same : arena.addrOf b = arena.addrOf c) : b = c := by
  have boundB := offset_lt insideB
  have boundC := offset_lt insideC
  obtain ⟨o, i⟩ := b
  obtain ⟨o', j⟩ := c
  simp only at orders
  subst orders
  simp only [addrOf, blockIdxToAddr] at same boundB boundC
  have offsets : i <<< (o + baseOrder) = j <<< (o + baseOrder) := by
    generalize i <<< (o + baseOrder) = d at *
    generalize j <<< (o + baseOrder) = e at *
    omega
  rw [shift_injective offsets]

theorem addrToBlockIdx_addrOf (base : arena.baseAddr < 2 ^ 64) (inside : b.Inside topOrder) :
    arena.addrToBlockIdx (arena.addrOf b) b.order = b.idx := by
  have bound := offset_lt inside
  have offset : (arena.addrOf b + 2 ^ 64 - arena.baseAddr) % 2 ^ 64 =
      b.idx <<< (b.order + baseOrder) := by
    simp only [addrOf, blockIdxToAddr]
    generalize b.idx <<< (b.order + baseOrder) = d at *
    omega
  rw [addrToBlockIdx, offset, Nat.shiftLeft_shiftRight]

theorem addrOf_congr {arena' : Arena} (base : arena'.baseAddr = arena.baseAddr) :
    arena'.addrOf b = arena.addrOf b := by
  simp only [addrOf, blockIdxToAddr, base]

end Arena

/-! ## The tiling -/

/-- Who has a block: the bitmap, a client, nobody (its address is `PMA_NULL`), or the
loop that splits or merges it. -/
inductive Owner where
  | free
  | live
  | lost
  | hand
  deriving DecidableEq

def Held (arena : Arena) (live : List (ℕ × ℕ)) (lost : List Block) (hand : Option Block) :
    Owner → Block → Prop
  | .free, b => arena.Free b
  | .live, b => b.Inside topOrder ∧ (arena.addrOf b, b.order) ∈ live
  | .lost, b => b ∈ lost
  | .hand, b => hand = some b

/-- What the allocator keeps at every point of its loops. -/
structure Work (K : ℕ) (arena : Arena) (live : List (ℕ × ℕ)) (lost : List Block)
    (hand : Option Block) : Prop where
  tiles : Tiles K (Held arena live lost hand)
  siblings : ∀ o i, o < K → ¬ (arena.Free ⟨o, i⟩ ∧ arena.Free ⟨o, getIdx i⟩)
  summary : arena.Summary

section Work

variable {K : ℕ} {arena arena' : Arena} {live : List (ℕ × ℕ)} {lost : List Block} {b : Block}
  {o i : ℕ}

theorem inside_mono {K' : ℕ} (le : K ≤ K') (inside : b.Inside K) : b.Inside K' := by
  obtain ⟨below, lt⟩ := inside
  refine ⟨le_trans below le, lt_of_lt_of_le lt ?_⟩
  exact Nat.pow_le_pow_right (by decide) (by omega)

/-- A block in hand is not free. -/
theorem Work.hand_not_free (work : Work K arena live lost (some b)) : ¬ arena.Free b := by
  intro free
  have same := work.tiles.tag_unique (s := .hand) (t := .free) (b := b) rfl free
  cases same

/-- The block that a search found leaves the bitmap. -/
theorem Work.take (work : Work K arena live lost none) (free : arena.Free b) :
    Work K ((arena.blockClear b.order b.idx).updateOrderBitmap b.order) live lost (some b) := by
  have frees : ∀ c, ((arena.blockClear b.order b.idx).updateOrderBitmap b.order).Free c ↔
      arena.Free c ∧ c ≠ b := fun c => by
    rw [Arena.free_updateOrderBitmap, Arena.free_blockClear free.1]
  have base : ((arena.blockClear b.order b.idx).updateOrderBitmap b.order).baseAddr =
      arena.baseAddr := Arena.updateOrderBitmap_blocks.2
  refine ⟨work.tiles.retag (s := .free) (t := .hand) free ?_, ?_, ?_⟩
  · rintro (_ | _ | _ | _) c <;> simp [Held, frees, Arena.addrOf_congr base, eq_comm]
  · rintro o i below ⟨one, two⟩
    exact work.siblings o i below ⟨((frees _).mp one).1, ((frees _).mp two).1⟩
  · refine work.summary.remove free.1.1 ((work.summary _ free.1.1).mpr ⟨b.idx, free⟩) rfl ?_
    intro o i other
    rw [Arena.free_blockClear free.1]
    simp only [ne_eq, Block.mk.injEq, other, false_and, not_false_eq_true, and_true]

theorem getIdx_getIdx (idx : ℕ) : getIdx (getIdx idx) = idx := by
  have here := getIdx_cases idx
  have there := getIdx_cases (getIdx idx)
  omega

/-- A block may join the bitmap when its buddy is not there. -/
theorem siblings_insert (siblings : ∀ o i, o < K → ¬ (arena.Free ⟨o, i⟩ ∧ arena.Free ⟨o, getIdx i⟩))
    (frees : ∀ c, arena'.Free c ↔ arena.Free c ∨ c = ⟨o, i⟩)
    (buddy : o < K → ¬ arena.Free ⟨o, getIdx i⟩) (o' i' : ℕ) (below : o' < K) :
    ¬ (arena'.Free ⟨o', i'⟩ ∧ arena'.Free ⟨o', getIdx i'⟩) := by
  rintro ⟨one, two⟩
  rcases (frees _).mp one with oldOne | newOne <;> rcases (frees _).mp two with oldTwo | newTwo
  · exact siblings o' i' below ⟨oldOne, oldTwo⟩
  · rw [Block.mk.injEq] at newTwo
    obtain ⟨rfl, rfl⟩ := newTwo
    rw [getIdx_getIdx] at buddy
    exact buddy below oldOne
  · rw [Block.mk.injEq] at newOne
    obtain ⟨rfl, rfl⟩ := newOne
    exact buddy below oldTwo
  · rw [Block.mk.injEq] at newOne newTwo
    have apart := getIdx_cases i'
    omega

/-- One turn of the split loop. -/
theorem Work.split (work : Work K arena live lost (some ⟨o + 1, i⟩)) (le : K ≤ topOrder) :
    Work K (((arena.blockClear o (2 * i)).blockSetFree o (2 * i + 1)).orderSetFree o) live lost
      (some ⟨o, 2 * i⟩) := by
  have inside := work.tiles.inside .hand _ rfl
  have insideLeft := inside_mono le (inside_half inside (.inl rfl))
  have insideRight := inside_mono le (inside_half inside (.inr rfl))
  -- the left half is covered by the block in hand, so its bit is clear already
  have leftUsed : ¬ arena.Free ⟨o, 2 * i⟩ := by
    intro free
    have overlap := work.tiles.disjoint (2 * i * 2 ^ o) .hand ⟨o + 1, i⟩ .free ⟨o, 2 * i⟩ rfl free
      ((covers_halves o i _).mpr (.inl (Block.covers_start ⟨o, 2 * i⟩)))
      (Block.covers_start ⟨o, 2 * i⟩)
    cases overlap.1
  have frees : ∀ c, ((arena.blockClear o (2 * i)).blockSetFree o (2 * i + 1)).Free c ↔
      arena.Free c ∨ c = ⟨o, 2 * i + 1⟩ := fun c => by
    rw [Arena.free_blockSetFree insideRight, Arena.free_blockClear insideLeft]
    constructor
    · exact Or.imp_left And.left
    · refine Or.imp_left fun free => ⟨free, ?_⟩
      rintro rfl
      exact leftUsed free
  refine ⟨work.tiles.split (s := .hand) (l := .hand) (r := .free) rfl ?_, ?_, ?_⟩
  · rintro (_ | _ | _ | _) c
    · exact (frees c).trans (by simp [Held])
    · simp [Held, Arena.addrOf, Arena.blockIdxToAddr, Arena.orderSetFree, Arena.blockSetFree,
        Arena.blockClear]
    · simp [Held]
    · simp [Held, eq_comm]
  · refine siblings_insert work.siblings frees fun _ => ?_
    have halves := getIdx_cases (2 * i + 1)
    rw [show getIdx (2 * i + 1) = 2 * i by omega]
    exact leftUsed
  · exact work.summary.insert rfl frees

/-- One turn of the merge loop: the buddy is free. -/
theorem Work.merge (work : Work K arena live lost (some ⟨o, i⟩)) (le : K ≤ topOrder)
    (buddy : arena.Free ⟨o, getIdx i⟩) :
    Work K (((arena.blockClear o i).blockClear o (getIdx i)).updateOrderBitmap o) live lost
      (some ⟨o + 1, getParentIdx i⟩) := by
  have inside : (Block.mk o i).Inside K := work.tiles.inside .hand _ rfl
  have insideBuddy : (Block.mk o (getIdx i)).Inside K := work.tiles.inside .free _ buddy
  have notFree := work.hand_not_free
  -- two blocks of this order fit, so it is below the initial one
  have below : o < K := by
    by_contra above
    have one : K - o = 0 := by omega
    have lt := inside.2
    have ltBuddy := insideBuddy.2
    simp only [one, pow_zero] at lt ltBuddy
    have halves := getIdx_cases i
    omega
  have parent : (Block.mk (o + 1) (getParentIdx i)).Inside K := by
    have up := inside_parent inside below
    rwa [show getParentIdx i = i / 2 from Nat.shiftRight_eq_div_pow i 1]
  have frees : ∀ c, ((arena.blockClear o i).blockClear o (getIdx i)).Free c ↔
      arena.Free c ∧ c ≠ ⟨o, getIdx i⟩ := fun c => by
    rw [Arena.free_blockClear (inside_mono le insideBuddy),
      Arena.free_blockClear (inside_mono le inside)]
    constructor
    · rintro ⟨⟨free, -⟩, other⟩
      exact ⟨free, other⟩
    · rintro ⟨free, other⟩
      refine ⟨⟨free, ?_⟩, other⟩
      rintro rfl
      exact notFree free
  have after : ∀ u c, Held (((arena.blockClear o i).blockClear o (getIdx i)).updateOrderBitmap o)
      live lost (some ⟨o + 1, getParentIdx i⟩) u c ↔
      (Held arena live lost (some ⟨o, i⟩) u c ∧
        ¬ (u = .hand ∧ c = ⟨o, i⟩ ∨ u = .free ∧ c = ⟨o, getIdx i⟩)) ∨
      (u = .hand ∧ c = ⟨o + 1, getParentIdx i⟩) := by
    have base : (((arena.blockClear o i).blockClear o (getIdx i)).updateOrderBitmap o).baseAddr =
        arena.baseAddr := Arena.updateOrderBitmap_blocks.2
    rintro (_ | _ | _ | _) c
    · simp [Held, Arena.free_updateOrderBitmap, frees]
    · simp [Held, Arena.addrOf_congr base]
    · simp [Held]
    · simp [Held, eq_comm]
  refine ⟨?_, ?_, ?_⟩
  · rcases getIdx_cases i with ⟨even, odd⟩ | ⟨odd, even⟩
    · refine work.tiles.merge (s := .hand) (l := .hand) (r := .free) parent ?_ ?_ ?_
      · rw [← even]; rfl
      · rw [← odd]; exact buddy
      · rw [← odd, ← even]; exact after
    · refine work.tiles.merge (s := .hand) (l := .free) (r := .hand) parent ?_ ?_ ?_
      · rw [← even]; exact buddy
      · rw [← odd]; rfl
      · rw [← odd, ← even]
        intro u c
        rw [after u c]
        simp only [or_comm]
  · rintro o' i' lt ⟨one, two⟩
    rw [Arena.free_updateOrderBitmap, frees] at one two
    exact work.siblings o' i' lt ⟨one.1, two.1⟩
  · have order : o ≤ topOrder := le_trans inside.1 le
    refine work.summary.remove order ((work.summary o order).mpr ⟨_, buddy⟩) rfl ?_
    intro o' i' other
    rw [frees]
    simp only [ne_eq, Block.mk.injEq, other, false_and, not_false_eq_true, and_true]

/-- The end of the merge loop: the block joins the bitmap. -/
theorem Work.put (work : Work K arena live lost (some ⟨o, i⟩)) (le : K ≤ topOrder)
    (buddy : o < K → ¬ arena.Free ⟨o, getIdx i⟩) :
    Work K ((arena.blockSetFree o i).orderSetFree o) live lost none := by
  have inside : (Block.mk o i).Inside K := work.tiles.inside .hand _ rfl
  have frees : ∀ c, (arena.blockSetFree o i).Free c ↔ arena.Free c ∨ c = ⟨o, i⟩ := fun c =>
    Arena.free_blockSetFree (inside_mono le inside)
  refine ⟨work.tiles.retag (s := .hand) (t := .free) (b := ⟨o, i⟩) rfl ?_, ?_, ?_⟩
  · rintro (_ | _ | _ | _) c
    · exact (frees c).trans (by simp [Held])
    · simp [Held, Arena.addrOf, Arena.blockIdxToAddr, Arena.orderSetFree, Arena.blockSetFree]
    · simp [Held]
    · simp [Held, eq_comm]
  · exact siblings_insert work.siblings frees buddy
  · exact work.summary.insert rfl frees

/-- The block in hand goes to a client, or is lost when its address is `PMA_NULL`. -/
theorem Work.give (work : Work K arena live lost (some b)) (le : K ≤ topOrder) :
    Work K arena ((arena.addrOf b, b.order) :: live) lost none ∧
      Work K arena live (b :: lost) none := by
  have inside : b.Inside topOrder := inside_mono le (work.tiles.inside .hand _ rfl)
  refine ⟨⟨work.tiles.retag (s := .hand) (t := .live) (b := b) rfl ?_, work.siblings, work.summary⟩,
    ⟨work.tiles.retag (s := .hand) (t := .lost) (b := b) rfl ?_, work.siblings, work.summary⟩⟩
  · rintro (_ | _ | _ | _) c
    · simp [Held]
    · simp only [Held, List.mem_cons, Prod.mk.injEq, reduceCtorEq, false_and, not_false_eq_true,
        and_true, true_and]
      constructor
      · rintro ⟨insideC, ⟨addr, order⟩ | old⟩
        · exact .inr (Arena.addrOf_injective insideC inside order addr)
        · exact .inl ⟨insideC, old⟩
      · rintro (⟨insideC, old⟩ | rfl)
        · exact ⟨insideC, .inr old⟩
        · exact ⟨inside, .inl ⟨rfl, rfl⟩⟩
    · simp [Held]
    · simp [Held, eq_comm]
  · rintro (_ | _ | _ | _) c
    · simp [Held]
    · simp [Held]
    · simp [Held, or_comm]
    · simp [Held, eq_comm]

/-- A live block is handed back. -/
theorem Work.release (work : Work K arena live lost none) (once : live.Nodup)
    (inside : b.Inside topOrder) (member : (arena.addrOf b, b.order) ∈ live) :
    Work K arena (live.erase (arena.addrOf b, b.order)) lost (some b) := by
  refine ⟨work.tiles.retag (s := .live) (t := .hand) (b := b) ⟨inside, member⟩ ?_, work.siblings,
    work.summary⟩
  rintro (_ | _ | _ | _) c
  · simp [Held]
  · simp only [Held, once.mem_erase_iff, ne_eq, Prod.mk.injEq, true_and, reduceCtorEq, false_and,
      or_false]
    constructor
    · rintro ⟨insideC, other, old⟩
      refine ⟨⟨insideC, old⟩, ?_⟩
      rintro rfl
      exact other ⟨rfl, rfl⟩
    · rintro ⟨⟨insideC, old⟩, other⟩
      exact ⟨insideC, fun ⟨addr, order⟩ => other (Arena.addrOf_injective insideC inside order addr),
        old⟩
  · simp [Held]
  · simp [Held, eq_comm]

/-! ## The loops -/

theorem splitDown_work (le : K ≤ topOrder) (order n : ℕ)
    (work : Work K arena live lost (some ⟨order + n, i⟩)) :
    Work K (arena.splitDown order i n).1 live lost (some ⟨order, (arena.splitDown order i n).2⟩) ∧
      (arena.splitDown order i n).1.baseAddr = arena.baseAddr := by
  induction n generalizing arena i with
  | zero => exact ⟨work, rfl⟩
  | succ n ih =>
      have turn := work.split (o := order + n) le
      simp only [Arena.splitDown, shift_left_one, right_half]
      exact ih turn

theorem mergeUp_work (le : K ≤ topOrder) (n : ℕ) (range : o + n = topOrder)
    (work : Work K arena live lost (some ⟨o, i⟩)) :
    Work K (arena.mergeUp o i n).1 live lost
        (some ⟨(arena.mergeUp o i n).2.1, (arena.mergeUp o i n).2.2⟩) ∧
      ((arena.mergeUp o i n).2.1 < K → ¬ (arena.mergeUp o i n).1.Free
        ⟨(arena.mergeUp o i n).2.1, getIdx (arena.mergeUp o i n).2.2⟩) ∧
      (arena.mergeUp o i n).1.baseAddr = arena.baseAddr := by
  induction n generalizing arena o i with
  | zero =>
      refine ⟨work, fun below => ?_, rfl⟩
      simp only [Arena.mergeUp] at below
      omega
  | succ n ih =>
      unfold Arena.mergeUp
      have bound : o ≤ topOrder := by omega
      by_cases stop : orderNumBlocks o ≤ getIdx i ∨ arena.isBlockFree o (getIdx i) = false
      · simp only [if_pos stop]
        refine ⟨work, fun _ free => ?_, trivial⟩
        rcases stop with outside | used
        · have lt : getIdx i < 2 ^ (topOrder - o) := free.1.2
          rw [orderNumBlocks_eq bound] at outside
          omega
        · rw [free.2] at used
          cases used
      · simp only [if_neg stop]
        rw [not_or, not_le, orderNumBlocks_eq bound, Bool.not_eq_false] at stop
        have turn := work.merge le ⟨⟨bound, stop.1⟩, stop.2⟩
        obtain ⟨done, buddy, base⟩ := ih (by omega) turn
        refine ⟨done, buddy, base.trans ?_⟩
        exact Arena.updateOrderBitmap_blocks.2

/-- `__buddy_alloc` fails when no block is large enough, and otherwise has one of
the wanted order in hand. -/
theorem alloc_work (le : K ≤ topOrder) (work : Work K arena live lost none) (order : ℕ) :
    (arena.alloc order = (arena, pmaNull) ∧
      (numOrders ≤ order ∨ ∀ o i, order ≤ o → ¬ arena.Free ⟨o, i⟩)) ∨
    ∃ b : Block, b.order = order ∧ (arena.alloc order).2 = arena.addrOf b ∧
      (arena.alloc order).1.baseAddr = arena.baseAddr ∧
      Work K (arena.alloc order).1 live lost (some b) := by
  unfold Arena.alloc
  by_cases large : numOrders ≤ order
  · rw [if_pos large]
    exact .inl ⟨rfl, .inl large⟩
  rw [if_neg large]
  have range : order + (numOrders - order) = numOrders := by omega
  obtain ⟨same, result⟩ := Arena.searchOrder_spec work.summary range
  revert same result
  cases arena.searchOrder order (numOrders - order) with
  | mk arena' found =>
      intro same result
      simp only at same
      subst same
      cases found with
      | none => exact .inl ⟨rfl, .inr result⟩
      | some at_ =>
          obtain ⟨allocOrder, idx⟩ := at_
          obtain ⟨above, free⟩ := result
          have taken := work.take free
          have sum : order + (allocOrder - order) = allocOrder := by omega
          rw [← sum] at taken
          obtain ⟨done, base⟩ := splitDown_work le order (allocOrder - order) taken
          simp only [sum] at done base
          have base' := base.trans Arena.updateOrderBitmap_blocks.2
          refine .inr ⟨_, rfl, ?_, base', done⟩
          simp only [Arena.addrOf, Arena.blockIdxToAddr, base']
          rfl

/-- `__buddy_free` of a block that its caller has handed back. -/
theorem free_work (le : K ≤ topOrder) (base : arena.baseAddr < 2 ^ 64)
    (nonNull : arena.addrOf b ≠ pmaNull) (work : Work K arena live lost (some b)) :
    Work K (arena.free (arena.addrOf b) b.order) live lost none ∧
      (arena.free (arena.addrOf b) b.order).baseAddr = arena.baseAddr := by
  have inside : b.Inside topOrder := inside_mono le (work.tiles.inside .hand _ rfl)
  have small : b.order ≤ topOrder := inside.1
  have valid : ¬ (arena.addrOf b = pmaNull ∨ numOrders ≤ b.order) := by
    have top : topOrder + 1 = numOrders := rfl
    rintro (null | large)
    · exact nonNull null
    · omega
  unfold Arena.free
  rw [if_neg valid, Arena.addrToBlockIdx_addrOf base inside]
  obtain ⟨done, buddy, same⟩ := mergeUp_work le (topOrder - b.order) (by omega) work
  exact ⟨done.put le buddy, same⟩

end Work

end Twan.Lib.BuddyAlloc
