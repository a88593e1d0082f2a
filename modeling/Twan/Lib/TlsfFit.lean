/-
# Twan.Lib.TlsfFit -- which requests `__tlsf_alloc` serves

`__tlsf_map` rounds a size up to the next bin, for the block that is put into a bin and
for the request that is searched there.  So a bin holds blocks up to its size, and a
request may find smaller ones in its own bin; every block of a higher bin is large
enough.  `__tlsf_alloc` looks at one block only, the first one of the first bin that is
not empty.

* `map_mono`, `map_twice`: the bins are in the order of the sizes, and a block twice as
  large as a request is in a higher bin, but for the last row;
* `Heap.search_here`, `Heap.search_above`, `Heap.search_finds`: what the bitmaps find;
* `alloc_fits_iff`: a request for which there is a block twice as large is served
  exactly when its own bin is empty or starts with a block that is large enough.
-/
import Twan.Lib.TlsfRealloc

namespace Twan.Lib.TlsfAlloc

set_option autoImplicit false

/-- The second bin is for larger sizes. -/
def Above (low high : ℕ × ℕ) : Prop := low.1 < high.1 ∨ low.1 = high.1 ∧ low.2 < high.2

/-! ## The order of the bins -/

/-- The number of the bin for a size with highest bit `k`, 32 to a row. -/
def rank (k size : ℕ) : ℕ := 32 * (k - 1) + (size + 2 ^ (k - 5) - 1) / 2 ^ (k - 5)

section Bins

variable {k k' size size' n : ℕ}

theorem map_small (small : size < 32) : map size = (0, size) := if_pos small

/-- A row is divided into 32 bins. -/
theorem units (highest : IsHighest size k) (large : 5 ≤ k) :
    32 ≤ size / 2 ^ (k - 5) ∧ size / 2 ^ (k - 5) < 64 := by
  obtain ⟨low, high⟩ := highest
  have positive := Nat.two_pow_pos (k - 5)
  have lowUnits : 2 ^ k = 32 * 2 ^ (k - 5) := by
    rw [show 32 = 2 ^ 5 from rfl, ← Nat.pow_add, Nat.add_sub_cancel' large]
  have highUnits : 2 ^ (k + 1) = 64 * 2 ^ (k - 5) := by
    rw [Nat.pow_succ, lowUnits]
    omega
  constructor
  · rw [Nat.le_div_iff_mul_le positive]
    omega
  · rw [Nat.div_lt_iff_lt_mul positive]
    omega

theorem rounded_up {u : ℕ} (positive : 0 < u) (size : ℕ) :
    (size + u - 1) / u = if size % u = 0 then size / u else size / u + 1 := by
  have parts := Nat.div_add_mod size u
  have less := Nat.mod_lt size positive
  split
  · rename_i exact
    have e : size + u - 1 = u - 1 + u * (size / u) := by omega
    rw [e, Nat.add_mul_div_left _ _ positive, Nat.div_eq_of_lt (by omega), Nat.zero_add]
  · rename_i more
    have e : size + u - 1 = size % u - 1 + u * (size / u + 1) := by
      rw [Nat.mul_succ]
      omega
    rw [e, Nat.add_mul_div_left _ _ positive, Nat.div_eq_of_lt (by omega), Nat.zero_add]

theorem rank_range (highest : IsHighest size k) (large : 5 ≤ k) :
    32 * k ≤ rank k size ∧ rank k size ≤ 32 * (k + 1) := by
  obtain ⟨low, high⟩ := units highest large
  unfold rank
  rw [rounded_up (Nat.two_pow_pos _)]
  split <;> omega

/-- `__tlsf_map` numbers the bins of the sizes from 32 by rank; the last row holds all that
would come after it. -/
theorem map_rank (large : 32 ≤ size) (bound : size < 2 ^ 32) :
    ∃ k, 5 ≤ k ∧ IsHighest size k ∧
      map size = (if rank k size / 32 > 27 then 27 else rank k size / 32, rank k size % 32) := by
  obtain ⟨k, found, highest⟩ := fls32_spec bound (by omega)
  have atLeast : 5 ≤ k := by
    by_contra less
    have low : 2 ^ (k + 1) ≤ 2 ^ 5 := Nat.pow_le_pow_right (by decide) (by omega)
    have high := highest.2
    omega
  refine ⟨k, atLeast, highest, ?_⟩
  obtain ⟨low, high⟩ := units highest atLeast
  rw [map, if_neg (by omega), Nat.mod_eq_of_lt bound, found]
  dsimp only [Option.getD]
  rw [Nat.shiftRight_eq_div_pow, rank, rounded_up (Nat.two_pow_pos _)]
  generalize size / 2 ^ (k - 5) = q at *
  by_cases exact : size % 2 ^ (k - 5) = 0
  · have row : (32 * (k - 1) + q) / 32 = k := by omega
    have column : (32 * (k - 1) + q) % 32 = q % 32 := by omega
    simp only [ne_eq, exact, not_true_eq_false, if_false, if_true, row, column]
  · simp only [ne_eq, exact, not_false_eq_true, if_true, if_false]
    by_cases last : q % 32 + 1 ≥ 32
    · have row : (32 * (k - 1) + (q + 1)) / 32 = k + 1 := by omega
      have column : (32 * (k - 1) + (q + 1)) % 32 = 0 := by omega
      simp only [if_pos last, row, column]
    · have row : (32 * (k - 1) + (q + 1)) / 32 = k := by omega
      have column : (32 * (k - 1) + (q + 1)) % 32 = q % 32 + 1 := by omega
      simp only [if_neg last, row, column]

/-- The ranks are in the order of the sizes. -/
theorem rank_mono (highest : IsHighest size k) (highest' : IsHighest size' k') (large : 5 ≤ k)
    (large' : 5 ≤ k') (le : size ≤ size') : rank k size ≤ rank k' size' := by
  have less : 2 ^ k < 2 ^ (k' + 1) := highest.1.trans_lt (le.trans_lt highest'.2)
  have order := (Nat.pow_lt_pow_iff_right (by decide)).mp less
  have above := (rank_range highest large).2
  have below := (rank_range highest' large').1
  by_cases same : k = k'
  · subst same
    unfold rank
    have grown : (size + 2 ^ (k - 5) - 1) / 2 ^ (k - 5) ≤ (size' + 2 ^ (k - 5) - 1) / 2 ^ (k - 5) :=
      Nat.div_le_div_right (by omega)
    omega
  · omega

/-- Twice the size is one row higher. -/
theorem rank_twice (highest : IsHighest n k) (large : 5 ≤ k) :
    IsHighest (2 * n) (k + 1) ∧ rank (k + 1) (2 * n) = rank k n + 32 := by
  obtain ⟨low, high⟩ := highest
  constructor
  · constructor
    · rw [Nat.pow_succ]
      omega
    · rw [Nat.pow_succ]
      omega
  · have unit : 2 ^ (k + 1 - 5) = 2 * 2 ^ (k - 5) := by
      rw [← Nat.pow_succ', Nat.succ_eq_add_one]
      congr 1
      omega
    have positive := Nat.two_pow_pos (k - 5)
    unfold rank
    rw [unit, rounded_up (by omega), rounded_up positive, Nat.mul_mod_mul_left,
      Nat.mul_div_mul_left _ _ (by decide : 0 < 2)]
    simp only [Nat.mul_eq_zero, OfNat.ofNat_ne_zero, false_or]
    split <;> omega

/-- A bin is not above the bin of a larger request. -/
theorem map_mono (small : n ≤ 2 ^ 27) (le : size ≤ n) : ¬ Above (map n) (map size) := by
  unfold Above
  by_cases tiny : n < 32
  · rw [map_small tiny, map_small (by omega)]
    omega
  obtain ⟨k, large, highest, bin⟩ := map_rank (show 32 ≤ n by omega) (by omega)
  by_cases tinySize : size < 32
  · have row := (rank_range highest large).1
    rw [map_small tinySize, bin]
    dsimp only
    split <;> omega
  obtain ⟨j, largeJ, highestJ, binJ⟩ := map_rank (show 32 ≤ size by omega) (by omega)
  have order := rank_mono highestJ highest largeJ large le
  have last : rank k n ≤ 864 := by
    have top : IsHighest (2 ^ 27) 27 := by
      constructor <;> decide
    exact rank_mono highest top large (by decide) small
  rw [bin, binJ]
  split <;> split <;> omega

/-- A block twice as large as a request is in a higher bin, or both are in the last row. -/
theorem map_twice (least : 16 ≤ n) (small : n ≤ 2 ^ 27) (twice : 2 * n ≤ size)
    (bound : size < 2 ^ 32) : map size = map n ∨ Above (map n) (map size) := by
  obtain ⟨k, large, highest, bin⟩ := map_rank (show 32 ≤ size by omega) bound
  have row := (rank_range highest large).1
  unfold Above
  by_cases tiny : n < 32
  · rw [map_small tiny, bin]
    dsimp only
    right
    left
    split <;> omega
  obtain ⟨j, largeJ, highestJ, binJ⟩ := map_rank (show 32 ≤ n by omega) (by omega)
  obtain ⟨highestTwice, rankTwice⟩ := rank_twice highestJ largeJ
  have order := rank_mono highestTwice highest (by omega) large twice
  have last : rank j n ≤ 864 := by
    have top : IsHighest (2 ^ 27) 27 := by
      constructor <;> decide
    exact rank_mono highestJ top largeJ (by decide) small
  rw [bin, binJ, Prod.mk.injEq]
  dsimp only
  split <;> split <;> omega

end Bins

/-! ## What the bitmaps find -/

section Search

variable {t : Tlsf} {bs : List Blk} {b : Blk} {bins : ℕ → ℕ → List ℕ} {f s : ℕ}

theorem masked_bit {w : BitVec 32} {j : ℕ} :
    (w &&& (BitVec.allOnes 32 <<< s)).getLsbD j = true ↔ w.getLsbD j = true ∧ s ≤ j := by
  rw [BitVec.getLsbD_and, BitVec.getLsbD_shiftLeft, BitVec.getLsbD_allOnes]
  simp only [Bool.and_eq_true, decide_eq_true_eq, Bool.not_eq_true', decide_eq_false_iff_not, not_lt]
  constructor
  · rintro ⟨set, ⟨-, above⟩, -⟩
    exact ⟨set, above⟩
  · rintro ⟨set, above⟩
    have small := BitVec.lt_of_getLsbD set
    exact ⟨set, ⟨small, above⟩, by omega⟩

/-- The lowest bit of a word. -/
theorem ffs32_bit {w : BitVec 32} (nonzero : w ≠ 0#32) :
    ∃ k, ffs32 w.toNat = some k ∧ w.getLsbD k = true ∧ ∀ j, w.getLsbD j = true → k ≤ j := by
  obtain ⟨k, found, set, clear⟩ := ffs32_spec w.isLt fun zero => nonzero (BitVec.eq_of_toNat_eq zero)
  refine ⟨k, found, set, fun j bit => ?_⟩
  by_contra below
  exact Bool.false_ne_true ((clear j (by omega)).symm.trans bit)

/-- A bin is not empty exactly when its bit is set. -/
theorem Heap.bit_iff (heap : Heap t bs) : (t.slBitmaps f).getLsbD s = true ↔ t.blocks f s ≠ 0 := by
  obtain ⟨bins, ok⟩ := heap.bins
  rw [ok.sl, ok.head, Ne, Ne, getD_eq_zero (heap.head_ne ok), List.head?_eq_none_iff]

/-- If the bin is not empty its first block is found. -/
theorem Heap.search_here (heap : Heap t bs) (nonempty : t.blocks f s ≠ 0) :
    t.searchSuitableBlock f s = (t.blocks f s, f, s) := by
  have set := masked_bit.mpr ⟨heap.bit_iff.mpr nonempty, le_refl s⟩
  have nonzero := ne_zero_of_bit set
  obtain ⟨k, found, bit, lowest⟩ := ffs32_bit nonzero
  have here : k = s := le_antisymm (lowest s set) (masked_bit.mp bit).2
  unfold Tlsf.searchSuitableBlock
  dsimp only
  rw [if_neg nonzero, found, here]
  rfl

/-- If the bin is empty, what is found is in a higher one. -/
theorem Heap.search_above (heap : Heap t bs) (empty : t.blocks f s = 0)
    (some_ : (t.searchSuitableBlock f s).1 ≠ 0) : Above (f, s) (t.searchSuitableBlock f s).2 := by
  revert some_
  unfold Tlsf.searchSuitableBlock
  dsimp only
  split
  · split
    · exact fun nothing => absurd rfl nothing
    · rename_i row search
      intro _
      have nonzero : t.flBitmap &&& (BitVec.allOnes 32 <<< (f + 1)) ≠ 0#32 := by
        intro zero
        rw [zero] at search
        cases search
      obtain ⟨k, found, bit, -⟩ := ffs32_bit nonzero
      rw [found] at search
      cases search
      exact .inl (masked_bit.mp bit).2
  · rename_i nonzero
    intro _
    obtain ⟨k, found, bit, -⟩ := ffs32_bit nonzero
    obtain ⟨set, atLeast⟩ := masked_bit.mp bit
    rw [found]
    have other : k ≠ s := by
      rintro rfl
      exact heap.bit_iff.mp set empty
    exact .inr ⟨rfl, lt_of_le_of_ne atLeast other.symm⟩

/-- If there is a block in a higher bin, one is found. -/
theorem Heap.search_finds (heap : Heap t bs) (inB : b ∈ bs) (listed : b.listed = true)
    (above : Above (f, s) (map b.size)) : (t.searchSuitableBlock f s).1 ≠ 0 := by
  obtain ⟨bins, ok⟩ := heap.bins
  have set : (t.slBitmaps (map b.size).1).getLsbD (map b.size).2 = true := by
    rw [ok.sl]
    exact List.ne_nil_of_mem ((ok.members _ _ _).mpr ⟨b, inB, listed, rfl, rfl⟩)
  unfold Tlsf.searchSuitableBlock
  dsimp only
  split
  · rename_i noColumn
    -- no column of this row is left, so the block is in a higher row
    have row : f < (map b.size).1 := by
      rcases above with row | ⟨row, column⟩
      · exact row
      · have bit := masked_bit.mpr ⟨set, le_of_lt column⟩
        exact absurd (row ▸ noColumn) (ne_zero_of_bit bit)
    have rowSet := (ok.fl _).mpr (ne_zero_of_bit set)
    obtain ⟨k, found, bit, -⟩ := ffs32_bit (ne_zero_of_bit (masked_bit.mpr ⟨rowSet, row⟩))
    obtain ⟨j, foundJ, column, -⟩ := ffs32_bit ((ok.fl k).mp (masked_bit.mp bit).1)
    rw [found]
    dsimp only
    rw [foundJ]
    exact heap.bit_iff.mp column
  · rename_i nonzero
    obtain ⟨k, found, bit, -⟩ := ffs32_bit nonzero
    rw [found]
    exact heap.bit_iff.mp (masked_bit.mp bit).1

end Search

/-! ## The requests that are served -/

section Fit

open Tlsf (roundUp)
open Twan.Base (exec)

variable {t : Tlsf} {bs : List Blk} {b : Blk} {n : ℕ}

/-- The first block of the bin of a size, or NULL. -/
def Tlsf.headOf (t : Tlsf) (size : ℕ) : ℕ := t.blocks (map size).1 (map size).2

/-- The block that `__tlsf_alloc` looks at. -/
def Tlsf.candidate (t : Tlsf) (size : ℕ) : ℕ :=
  (t.searchSuitableBlock (map size).1 (map size).2).1

/-- `__tlsf_alloc` returns NULL if there is no block to look at or that one is too small. -/
theorem Sound.alloc_iff (sound : Sound t bs) (positive : 1 ≤ n) (small : n ≤ maxAlloc) :
    (t.alloc n).2 ≠ 0 ↔
      t.candidate (roundUp n) ≠ 0 ∧ roundUp n ≤ t.getBlockSize (t.candidate (roundUp n)) := by
  unfold Tlsf.alloc
  rw [if_neg (by omega)]
  dsimp only
  rw [← Tlsf.candidate]
  by_cases nothing : t.candidate (roundUp n) = 0
  · simp [nothing]
  rw [if_neg nothing]
  by_cases less : t.getBlockSize (t.candidate (roundUp n)) < roundUp n
  · rw [if_pos less]
    simp [less]
  rw [if_neg less]
  obtain ⟨c, inC, -, addr, -⟩ := sound.heap.search nothing
  have range := sound.heap.range inC
  have high := sound.heap.high
  refine ⟨fun _ => ⟨nothing, Nat.le_of_not_lt less⟩, fun _ => ?_⟩
  dsimp only
  rw [← Tlsf.candidate] at addr
  rw [← addr]
  unfold Blk.stop at range
  unfold blockToPtr headerSize
  omega

theorem roundUp_le (small : n ≤ maxAlloc) : roundUp n ≤ 2 ^ 27 := by
  unfold maxAlloc at small
  unfold roundUp alignUp blockMin p2alignUp p2alignDown
  split <;> omega

/-- If the bin is empty, `__tlsf_alloc` succeeds when a free block is in a higher one. -/
theorem Sound.fits_above (sound : Sound t bs) {size : ℕ} (small : size ≤ 2 ^ 27)
    (empty : t.headOf size = 0) :
    (t.candidate size ≠ 0 ∧ size ≤ t.getBlockSize (t.candidate size)) ↔
      ∃ c ∈ bs, c.free = true ∧ Above (map size) (map c.size) := by
  have largeEnough : t.candidate size ≠ 0 → ∃ c ∈ bs, c.free = true ∧ c.addr = t.candidate size ∧
      Above (map size) (map c.size) := by
    intro some_
    obtain ⟨c, inC, listed, addr, bin⟩ := sound.heap.search some_
    have above := sound.heap.search_above empty some_
    rw [← bin] at above
    exact ⟨c, inC, (sound.listed_eq inC).symm.trans listed, addr, above⟩
  constructor
  · rintro ⟨some_, -⟩
    obtain ⟨c, inC, free, -, above⟩ := largeEnough some_
    exact ⟨c, inC, free, above⟩
  · rintro ⟨c, inC, free, above⟩
    have some_ := sound.heap.search_finds inC ((sound.listed_eq inC).trans free) above
    obtain ⟨d, inD, -, addr, aboveD⟩ := largeEnough some_
    refine ⟨some_, ?_⟩
    rw [← addr, sound.heap.getBlockSize inD]
    by_contra less
    exact map_mono small (Nat.le_of_not_le less) aboveD

/-- If the bin is not empty, `__tlsf_alloc` looks at its first block. -/
theorem Sound.fits_here (sound : Sound t bs) {size : ℕ} (nonempty : t.headOf size ≠ 0) :
    (t.candidate size ≠ 0 ∧ size ≤ t.getBlockSize (t.candidate size)) ↔
      size ≤ t.getBlockSize (t.headOf size) := by
  have same : t.candidate size = t.headOf size := congrArg Prod.fst (sound.heap.search_here nonempty)
  rw [same]
  exact ⟨And.right, fun enough => ⟨nonempty, enough⟩⟩

/-- A block twice as large as a request is in a higher bin if the request's bin is empty. -/
theorem Sound.above_of_twice (sound : Sound t bs) {size : ℕ} (least : 16 ≤ size)
    (small : size ≤ 2 ^ 27) (inB : b ∈ bs) (free : b.free = true) (twice : 2 * size ≤ b.size)
    (bound : b.size < 2 ^ 32) (empty : t.headOf size = 0) : Above (map size) (map b.size) := by
  rcases map_twice least small twice bound with same | above
  · obtain ⟨bins, ok⟩ := sound.heap.bins
    have inside : b.addr ∈ bins (map size).1 (map size).2 :=
      (ok.members _ _ _).mpr ⟨b, inB, (sound.listed_eq inB).trans free, rfl, same⟩
    have set := (ok.sl _ _).mpr (List.ne_nil_of_mem inside)
    exact absurd empty (sound.heap.bit_iff.mp set)
  · exact above

/-- **Good fit**: a request for which some free block is twice as large is served exactly when
the first block of its own bin is large enough, or that bin is empty and a higher one is
not.  The latter is so if the block of twice the size is smaller than 4 GiB. -/
theorem alloc_fits_iff (sound : Sound t bs) (positive : 1 ≤ n) (small : n ≤ maxAlloc)
    (inB : b ∈ bs) (free : b.free = true) (twice : 2 * roundUp n ≤ b.size) :
    ((t.alloc n).2 ≠ 0 ↔
      if t.headOf (roundUp n) = 0 then ∃ c ∈ bs, c.free = true ∧ Above (map (roundUp n)) (map c.size)
      else roundUp n ≤ t.getBlockSize (t.headOf (roundUp n))) ∧
    (b.size < 2 ^ 32 → ((t.alloc n).2 ≠ 0 ↔
      t.headOf (roundUp n) = 0 ∨ roundUp n ≤ t.getBlockSize (t.headOf (roundUp n)))) := by
  obtain ⟨-, least, -, -⟩ := roundUp_spec small
  have le := roundUp_le small
  rw [sound.alloc_iff positive small]
  by_cases empty : t.headOf (roundUp n) = 0
  · rw [if_pos empty, sound.fits_above le empty]
    refine ⟨Iff.rfl, fun bound => ⟨fun _ => .inl empty, fun _ => ?_⟩⟩
    exact ⟨b, inB, free, sound.above_of_twice least le inB free twice bound empty⟩
  · rw [if_neg empty, sound.fits_here empty]
    exact ⟨Iff.rfl, fun _ => ⟨.inr, fun either => either.resolve_left empty⟩⟩

/-- A fresh heap of 1 KiB at 4096 serves 100 bytes. -/
theorem alloc_fits_page : (page.alloc 100).2 ≠ 0 := by
  have made : zeros.init 4096 1024 = some page := rfl
  have suits := given_page.suits (zeroed_zeros 4096 1024)
  have sound := init_sound cleared_zeros (by decide) made suits (by decide)
  refine ((alloc_fits_iff sound (n := 100) (by decide) (by decide) (List.mem_singleton_self _) rfl
    (by decide)).2 (by decide)).mpr (.inl ?_)
  decide +kernel

/-- A heap of 4 KiB that has given 520 bytes and then 16, and got the first block back. -/
def starved : Tlsf :=
  ((exec step ⟨(zeros.init 4096 4096).getD zeros, []⟩ [.alloc 520, .alloc 16, .free 4128]).map
    State.tlsf).getD zeros

/-- Its free blocks have 520 and 3464 bytes, and 528 bytes are refused: 520 is rounded up to
the bin of 528, and the first block there is not enough. -/
theorem alloc_starved : ∃ bs b, Sound starved bs ∧ b ∈ bs ∧ b.free = true ∧
    2 * roundUp 528 ≤ b.size ∧ (starved.alloc 528).2 = 0 := by
  have given : Given 4096 4096 := by
    constructor <;> decide
  let blocks : List Blk :=
    [{ addr := 4096, size := 520, free := true, prevFree := false, listed := true },
      { addr := 4648, size := 16, free := false, prevFree := true, listed := false },
      { addr := 4696, size := 3464, free := true, prevFree := false, listed := true }]
  have sound : Sound starved blocks := by
    obtain ⟨fresh, made, -⟩ := init_valid given (zeroed_zeros 4096 4096)
    have state : (zeros.init 4096 4096).getD zeros = fresh := by rw [made]; rfl
    have runs : (exec step ⟨(zeros.init 4096 4096).getD zeros, []⟩
        [.alloc 520, .alloc 16, .free 4128]).isSome = true := by
      decide +kernel
    obtain ⟨s, ran⟩ := Option.isSome_iff_exists.mp runs
    have reached : starved = s.tlsf := by
      unfold starved
      rw [ran]
      rfl
    rw [state] at ran
    obtain ⟨⟨-, -, ⟨bs, sound, -⟩, -⟩, -⟩ := backed_runs given (zeroed_zeros 4096 4096) made ran
    rw [← reached] at sound
    have tags : Tags starved.mem 0 starved.heapStart blocks starved.heapEnd := by
      decide +kernel
    rw [← sound.eq_of_tags tags (by decide)]
    exact sound
  refine ⟨blocks, _, sound, List.mem_of_getElem? (i := 2) rfl, rfl, by decide, ?_⟩
  decide +kernel

end Fit

end Twan.Lib.TlsfAlloc
