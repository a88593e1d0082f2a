/-
# Twan.Lib.TlsfInit -- what `__tlsf_init` makes of a range of memory

`__tlsf_init` takes any range that still has a byte left when its start has been moved
to a multiple of 8, and any old contents of the memory.  Three things of the range and
one bit of the memory then show in the first header:

* the size is stored without its two low bits, while `heap_end` keeps them;
* the minimum is checked before the start is moved;
* the end of the range may be behind the last address;
* `tlsf_set_block_size` keeps the two flags that were in memory, and only the first of
  them is set afterwards.

`init_fresh_iff`: these four decide whether the first block is as it should be.
`init_sound`: with an end that is a multiple of 8 the heap is then sound.
-/
import Twan.Lib.TlsfCalls

namespace Twan.Lib.TlsfAlloc

set_option autoImplicit false

/-- The control structure is filled with zeros. -/
structure Cleared (t : Tlsf) : Prop where
  flBitmap : t.flBitmap = 0#32
  slBitmaps : ∀ f, t.slBitmaps f = 0#32
  blocks : ∀ f s, t.blocks f s = 0

/-- The block at the start of the heap as its header records it. -/
def firstBlock (t : Tlsf) : Blk :=
  { addr := t.heapStart, size := t.getBlockSize t.heapStart, free := t.blockIsFree t.heapStart,
    prevFree := t.prevIsFree t.heapStart, listed := true }

/-- The first block of a heap that was made from the `size` bytes at `start`: it lies inside
them and fills the heap, is large enough, is free with its prev-free flag clear, and is
all there is in the bins. -/
structure Fresh (t : Tlsf) (start size : ℕ) : Prop where
  low : start ≤ (firstBlock t).addr
  high : (firstBlock t).stop ≤ start + size
  tiles : (firstBlock t).stop = t.heapEnd
  minimum : blockMin ≤ (firstBlock t).size
  free : (firstBlock t).free = true
  prevFree : (firstBlock t).prevFree = false
  linked : ∃ bins, Bins t [firstBlock t] bins

section Init

variable {t t' : Tlsf} {start size : ℕ} {b : Blk}

/-! ## The bins of one block -/

theorem Cleared.bins (cleared : Cleared t) : Bins t [] fun _ _ => [] :=
  ⟨cleared.blocks, fun _ _ => trivial, fun _ _ => List.nodup_nil, by simp [Listed],
    by simp [cleared.slBitmaps], by simp [cleared.slBitmaps, cleared.flBitmap]⟩

theorem Cleared.insert (cleared : Cleared t) {f s : ℕ} (row : f < 32) (column : s < 32)
    (listed : b.listed = true) (bin : map b.size = (f, s)) :
    Bins (t.insertFreeBlock b.addr f s) [b] fun f' s' => if f' = f ∧ s' = s then [b.addr] else [] := by
  have control := insert_control cleared.bins (a := b.addr) row column
  have words : ∀ i, i = 16 ∨ i = 24 → (t.insertFreeBlock b.addr f s).mem (b.addr + i) = 0 := by
    rintro i (rfl | rfl) <;> simp [insert_mem, cleared.blocks]
  refine ⟨fun f' s' => ?_, fun f' s' => ?_, fun f' s' => ?_, fun f' s' a => ?_, control.1, control.2⟩
  · show Function.update t.blocks f (Function.update (t.blocks f) s b.addr) f' s' = _
    rw [update_entry]
    split
    · rfl
    · exact cleared.blocks f' s'
  · split
    · simp [Base.Segment, link, words]
    · trivial
  · split
    · exact List.nodup_singleton _
    · exact List.nodup_nil
  · have only : Listed [b] a f' s' ↔ b.addr = a ∧ (f, s) = (f', s') := by
      simp [Listed, listed, bin]
    rw [only]
    by_cases here : f' = f ∧ s' = s
    · rw [if_pos here, here.1, here.2, List.mem_singleton]
      exact ⟨fun e => ⟨e.symm, rfl⟩, fun both => both.1.symm⟩
    · rw [if_neg here]
      exact ⟨fun inside => absurd inside List.not_mem_nil, fun both => absurd both.2 (bin_ne here)⟩

/-! ## The first header -/

/-- The bytes in front of the first multiple of 8. -/
def cutoff (start : ℕ) : ℕ := (alignUp start + 2 ^ 64 - start) % 2 ^ 64

/-- The start is moved by less than 8, unless that takes it to 0. -/
theorem alignUp_start (bound : start < 2 ^ 64) : alignUp start % 8 = 0 ∧ cutoff start < 8 ∧
    (alignUp start = start + cutoff start ∨ alignUp start = 0 ∧ 2 ^ 64 < start + 8) := by
  unfold cutoff alignUp p2alignUp p2alignDown
  omega

/-- The state before the block is linked. -/
def headed (t : Tlsf) (start size : ℕ) : Tlsf :=
  let t := { t with
    heapStart := alignUp start
    heapEnd := (alignUp start + (size - cutoff start)) % 2 ^ 64 }
  let t := t.setBlockSize (alignUp start) (size - cutoff start - headerSize)
  let t := t.setBlockFree (alignUp start)
  ((t.write (alignUp start + 8) 0).write (alignUp start + 16) 0).write (alignUp start + 24) 0

/-- What `__tlsf_init` has checked and done when it returns 0. -/
theorem init_some (given : t.init start size = some t') :
    start ≠ 0 ∧ 48 ≤ size ∧ cutoff start < size ∧
      t' = (headed t start size).insertFreeBlock (alignUp start)
        (map (size - cutoff start - 32)).1 (map (size - cutoff start - 32)).2 := by
  unfold Tlsf.init blockMin headerSize at given
  split at given
  · cases given
  rename_i valid
  dsimp only at given
  split at given
  · cases given
  rename_i left
  cases given
  exact ⟨by omega, by omega, Nat.lt_of_not_le left, rfl⟩

theorem headed_cleared (cleared : Cleared t) (start size : ℕ) : Cleared (headed t start size) :=
  ⟨cleared.flBitmap, cleared.slBitmaps, cleared.blocks⟩

/-- The first two words of the header: of the old first word the second flag is left. -/
theorem init_words (cleared : Cleared t) (given : t.init start size = some t') :
    t'.mem (alignUp start) =
      (size - cutoff start - 32) / 4 * 4 + t.mem (alignUp start) % 4 / 2 * 2 + 1 ∧
    t'.mem (alignUp start + 8) = 0 := by
  obtain ⟨-, -, -, rfl⟩ := init_some given
  let first : Blk :=
    { addr := alignUp start, size := 0, free := true, prevFree := false, listed := true }
  have linked : ∀ f s i, i < 16 →
      ((headed t start size).insertFreeBlock (alignUp start) f s).mem (alignUp start + i) =
        (headed t start size).mem (alignUp start + i) := by
    intro f s i front
    have stored := insert_mem (t := headed t start size) (b := first) (f := f) (s := s)
      (x := alignUp start + i)
    rw [(headed_cleared cleared start size).blocks, if_neg (by simp)] at stored
    rw [stored, if_neg (by simp only [first]; omega), if_neg (by simp only [first]; omega)]
  have word := fun f s => linked f s 0 (by decide)
  rw [Nat.add_zero] at word
  rw [word, linked _ _ 8 (by decide)]
  simp only [headed, headerSize, Tlsf.setBlockFree, Tlsf.setBlockSize, write_write, write_mem,
    if_true]
  constructor
  · rw [if_neg (by omega), if_neg (by omega), if_neg (by omega)]
    omega
  · rw [if_neg (by omega), if_neg (by omega)]

/-- The first block after `__tlsf_init`. -/
def accepted (t : Tlsf) (start size : ℕ) : Blk where
  addr := alignUp start
  size := (size - cutoff start - 32) / 4 * 4
  free := true
  prevFree := t.mem (alignUp start) / 2 % 2 == 1
  listed := true

theorem init_bounds (given : t.init start size = some t') : t'.heapStart = alignUp start ∧
    t'.heapEnd = (alignUp start + (size - cutoff start)) % 2 ^ 64 := by
  obtain ⟨-, -, -, rfl⟩ := init_some given
  exact ⟨rfl, rfl⟩

theorem init_firstBlock (cleared : Cleared t) (given : t.init start size = some t') :
    firstBlock t' = accepted t start size := by
  have word := (init_words cleared given).1
  have start_eq := (init_bounds given).1
  refine Blk.mk.injEq .. |>.mpr ⟨start_eq, ?_, ?_, ?_, rfl⟩
  · rw [Tlsf.getBlockSize, start_eq, word]
    omega
  · rw [Tlsf.blockIsFree, start_eq, word, beq_iff_eq]
    omega
  · rw [Tlsf.prevIsFree, start_eq, word]
    congr 1
    omega

/-- The bin that the first block is put into. -/
theorem init_bins (cleared : Cleared t) (given : t.init start size = some t')
    (whole : (size - cutoff start) % 4 = 0) : ∃ bins, Bins t' [accepted t start size] bins := by
  obtain ⟨-, -, left, rfl⟩ := init_some given
  have range := map_range (size - cutoff start - 32)
  have size_eq : (accepted t start size).size = size - cutoff start - 32 := by
    show (size - cutoff start - 32) / 4 * 4 = size - cutoff start - 32
    omega
  have bin : map (accepted t start size).size =
      ((map (size - cutoff start - 32)).1, (map (size - cutoff start - 32)).2) := by
    rw [size_eq, Prod.mk.eta]
  have linked := (headed_cleared cleared start size).insert (b := accepted t start size)
    (range.1.trans_lt (by decide)) range.2 rfl bin
  exact ⟨_, linked⟩

/-- A range of 48 bytes is enough to be accepted. -/
theorem init_accepts (bound : start < 2 ^ 64) (nonNull : start ≠ 0) (large : 48 ≤ size) :
    ∃ t', t.init start size = some t' := by
  have less := (alignUp_start bound).2.1
  unfold cutoff at less
  unfold Tlsf.init blockMin headerSize
  rw [if_neg (by omega)]
  dsimp only
  rw [if_neg (by omega)]
  exact ⟨_, rfl⟩

/-- The ranges, and the old first word, for which the first block is as it should be. -/
structure Suits (t : Tlsf) (start size : ℕ) : Prop where
  multiple : (start + size) % 4 = 0
  room : start + size < 2 ^ 64
  enough : 48 ≤ size - cutoff start
  clear : t.mem (alignUp start) / 2 % 2 = 0

theorem Fresh.suits (cleared : Cleared t) (bound : start < 2 ^ 64) (small : size < 2 ^ 32)
    (given : t.init start size = some t') (fresh : Fresh t' start size) : Suits t start size := by
  obtain ⟨nonNull, large, left, -⟩ := init_some given
  obtain ⟨-, stop⟩ := init_bounds given
  have block := init_firstBlock cleared given
  obtain ⟨aligned, less, moved⟩ := alignUp_start bound
  obtain ⟨low, -, tiles, minimum, -, flag, -⟩ := fresh
  unfold accepted at block
  rw [block] at low tiles minimum flag
  rw [stop] at tiles
  simp only [Blk.stop, blockMin, beq_eq_false_iff_ne] at low minimum flag tiles
  have even : t.mem (alignUp start) / 2 % 2 = 0 := by omega
  refine ⟨?_, ?_, ?_, even⟩
  all_goals
    generalize alignUp start = a at *
    omega

theorem Suits.fresh (cleared : Cleared t) (bound : start < 2 ^ 64)
    (given : t.init start size = some t') (suits : Suits t start size) : Fresh t' start size := by
  obtain ⟨nonNull, large, left, -⟩ := init_some given
  obtain ⟨-, stop⟩ := init_bounds given
  have block := init_firstBlock cleared given
  obtain ⟨aligned, less, moved⟩ := alignUp_start bound
  have linked := init_bins cleared given
  obtain ⟨multiple, room, enough, clear⟩ := suits
  rw [← block] at linked
  unfold accepted at block
  generalize alignUp start = a at *
  refine ⟨?_, ?_, ?_, ?_, ?_, ?_, linked (by omega)⟩
  · rw [block]
    show start ≤ a
    omega
  · rw [block]
    show a + 32 + (size - cutoff start - 32) / 4 * 4 ≤ start + size
    omega
  · rw [block, stop]
    show a + 32 + (size - cutoff start - 32) / 4 * 4 = _
    omega
  · rw [block]
    show 16 ≤ (size - cutoff start - 32) / 4 * 4
    omega
  · rw [block]
  · rw [block]
    show (t.mem a / 2 % 2 == 1) = false
    rw [clear]
    rfl

/-- **`__tlsf_init` makes a heap of one block**, for every range below 4 GiB that it accepts and
every old contents of the memory, exactly when the range suits: its end is a multiple of 4
and an address, 48 bytes are left behind the aligned start, and the second bit of the old
word there is clear. -/
theorem init_fresh_iff (cleared : Cleared t) (bound : start < 2 ^ 64) (small : size < 2 ^ 32)
    (given : t.init start size = some t') : Fresh t' start size ↔ Suits t start size :=
  ⟨fun fresh => fresh.suits cleared bound small given, fun suits => suits.fresh cleared bound given⟩

/-- A control structure and a memory of zeros. -/
def zeros : Tlsf :=
  { flBitmap := 0#32, slBitmaps := fun _ => 0#32, blocks := fun _ _ => 0, heapStart := 0, heapEnd := 0,
    mem := fun _ => 0 }

theorem cleared_zeros : Cleared zeros := ⟨rfl, fun _ => rfl, fun _ _ => rfl⟩

/-- 1 KiB at 4096. -/
theorem init_fresh_page : ∃ t', zeros.init 4096 1024 = some t' ∧ Fresh t' 4096 1024 := by
  have accepted : ∃ t', zeros.init 4096 1024 = some t' :=
    init_accepts (by decide) (by decide) (by decide)
  obtain ⟨t', given⟩ := accepted
  refine ⟨t', given, (init_fresh_iff cleared_zeros (by decide) (by decide) given).mpr ?_⟩
  constructor
  · decide
  · decide
  · decide
  · rfl

/-- Of 50 bytes at 8, the block and its header are 48. -/
theorem init_not_fresh : ∃ t', zeros.init 8 50 = some t' ∧ ¬ Fresh t' 8 50 := by
  have accepted : ∃ t', zeros.init 8 50 = some t' :=
    init_accepts (by decide) (by decide) (by decide)
  obtain ⟨t', given⟩ := accepted
  refine ⟨t', given, fun fresh => ?_⟩
  have tiles := fresh.tiles
  rw [init_firstBlock cleared_zeros given, (init_bounds given).2] at tiles
  exact absurd tiles (by decide)

/-- With an end that is a multiple of 8 the heap is sound. -/
theorem init_sound (cleared : Cleared t) (bound : start < 2 ^ 64)
    (given : t.init start size = some t') (suits : Suits t start size)
    (multiple : (start + size) % 8 = 0) : Sound t' [accepted t start size] := by
  obtain ⟨nonNull, large, left, -⟩ := init_some given
  obtain ⟨start_eq, stop⟩ := init_bounds given
  obtain ⟨word, phys⟩ := init_words cleared given
  obtain ⟨aligned, less, moved⟩ := alignUp_start bound
  obtain ⟨-, room, enough, clear⟩ := suits
  have linked := init_bins cleared given (by omega)
  unfold accepted at linked ⊢
  generalize alignUp start = a at *
  rw [clear] at linked ⊢
  refine ⟨⟨?_, ?_, ?_, ⟨start_eq.symm, ⟨?_, ?_, ?_, phys⟩, ?_⟩, linked⟩, ?_⟩
  · omega
  · omega
  · omega
  · show 16 ≤ (size - cutoff start - 32) / 4 * 4
    omega
  · show (size - cutoff start - 32) / 4 * 4 % 8 = 0
    omega
  · show t'.mem a = (size - cutoff start - 32) / 4 * 4 + 1 + 2 * 0
    omega
  · show a + 32 + (size - cutoff start - 32) / 4 * 4 = t'.heapEnd
    omega
  · exact ⟨rfl, rfl, nofun, trivial⟩

end Init

end Twan.Lib.TlsfAlloc
