/-
# Twan.Lib.BuddyUndo -- `__buddy_free` undoes `__buddy_alloc`

`__buddy_alloc` splits the block it found down to the wanted order and leaves the right
halves in the bitmap; `__buddy_free` of the block that is left goes back up along the same
halves.  Each turn of the merge loop takes back one turn of the split loop, bit for bit
(`splitDown_mergeUp`), and at the order where the block was found the loop stops, because
the block's own buddy was not free there (`mergeUp_stops`).

`free_undoes_alloc`: both bitmaps are as they were, in every state of every run.
-/
import Twan.Lib.BuddyRuns

namespace Twan.Lib.BuddyAlloc

set_option autoImplicit false

open Twan.Base Twan.Base.Dyadic

/-! ## Bits that are written back -/

section Bits

variable {bitmap bitmap' : Bitmap} {bit : ℕ}

theorem bitmap_ext (same : ∀ bit, bitmapTest bitmap bit = bitmapTest bitmap' bit) :
    bitmap = bitmap' := by
  funext byte
  refine BitVec.eq_of_getLsbD_eq fun i small => ?_
  have at_ := same (8 * byte + i)
  rw [bitmapTest_eq, bitmapTest_eq, Nat.mul_add_div (by decide), Nat.mul_add_mod,
    Nat.div_eq_of_lt small, Nat.mod_eq_of_lt small, Nat.add_zero] at at_
  exact at_

theorem bitmapSet_clear (set : bitmapTest bitmap bit = true) :
    bitmapSet (bitmapClear bitmap bit) bit = bitmap := by
  refine bitmap_ext fun b => ?_
  rw [bitmapTest_set, bitmapTest_clear]
  by_cases same : b = bit
  · simp [same, set]
  · simp [same]

/-- The two halves of a block enter the bitmap and leave it again. -/
theorem bitmapClear_halves {left right : ℕ} (leftClear : bitmapTest bitmap left = false)
    (rightClear : bitmapTest bitmap right = false) :
    bitmapClear (bitmapClear (bitmapSet (bitmapClear bitmap left) right) left) right = bitmap := by
  refine bitmap_ext fun b => ?_
  simp only [bitmapTest_set, bitmapTest_clear]
  by_cases isLeft : b = left
  · simp [isLeft, leftClear]
  · by_cases isRight : b = right
    · simp [isRight, rightClear]
    · simp [isLeft, isRight]

end Bits

section Undo

variable {K : ℕ} {arena arena' : Arena} {live : List (ℕ × ℕ)} {lost : List Block} {b : Block}
  {o i order n m : ℕ}

theorem arena_ext (base : arena.baseAddr = arena'.baseAddr)
    (orders : ∀ o, arena.isOrderFree o = arena'.isOrderFree o)
    (blocks : arena.blockBitmap = arena'.blockBitmap) : arena = arena' := by
  have same : arena.orderBitmap = arena'.orderBitmap := bitmap_ext orders
  cases arena
  cases arena'
  simp only [Arena.mk.injEq]
  exact ⟨base, same, blocks⟩

/-- An exact summary is the only one that an update leaves. -/
theorem updateOrderBitmap_orderSetFree (summary : arena.Summary) (le : o ≤ topOrder) :
    (arena.orderSetFree o).updateOrderBitmap o = arena := by
  have blocks := @Arena.updateOrderBitmap_blocks (arena.orderSetFree o) o
  refine arena_ext blocks.2 (fun o' => ?_) blocks.1
  by_cases same : o' = o
  · subst same
    rw [Bool.eq_iff_iff, Arena.isOrderFree_updateOrderBitmap le]
    · exact (summary o' le).symm
    · rw [Arena.isOrderFree_orderSetFree]
      simp
  · rw [Arena.isOrderFree_updateOrderBitmap_other same, Arena.isOrderFree_orderSetFree]
    simp [same]

/-! ## One turn -/

/-- A turn of the merge loop takes back a turn of the split loop. -/
theorem Work.split_merge (work : Work K arena live lost (some ⟨o + 1, i⟩)) (le : K ≤ topOrder) :
    ((((((arena.blockClear o (2 * i)).blockSetFree o (2 * i + 1)).orderSetFree o).blockClear o
      (2 * i)).blockClear o (2 * i + 1)).updateOrderBitmap o) = arena := by
  have inside := work.tiles.inside .hand _ rfl
  -- both halves are covered by the block in hand, so their bits are clear
  have clear : ∀ j, j = 2 * i ∨ j = 2 * i + 1 →
      bitmapTest arena.blockBitmap (blockBitmapBit o j) = false := by
    intro j half
    rw [← Bool.not_eq_true]
    intro set
    have free : arena.Free ⟨o, j⟩ := ⟨inside_mono le (inside_half inside half), set⟩
    have covered : (Block.mk (o + 1) i).Covers (j * 2 ^ o) := by
      rw [covers_halves]
      rcases half with rfl | rfl
      · exact .inl (Block.covers_start ⟨o, 2 * i⟩)
      · exact .inr (Block.covers_start ⟨o, 2 * i + 1⟩)
    have overlap := work.tiles.disjoint _ .hand ⟨o + 1, i⟩ .free ⟨o, j⟩ rfl free covered
      (Block.covers_start ⟨o, j⟩)
    cases overlap.1
  have blocks := bitmapClear_halves (clear _ (.inl rfl)) (clear _ (.inr rfl))
  have state : (((((arena.blockClear o (2 * i)).blockSetFree o (2 * i + 1)).orderSetFree o).blockClear
      o (2 * i)).blockClear o (2 * i + 1)) = arena.orderSetFree o := by
    simp only [Arena.blockClear, Arena.blockSetFree, Arena.orderSetFree, blocks]
  have small : o ≤ topOrder := by
    have below := inside.1
    dsimp only at below
    omega
  rw [state]
  exact updateOrderBitmap_orderSetFree work.summary small

/-- The block that was found is put back. -/
theorem take_put (summary : arena.Summary) (free : arena.Free ⟨o, i⟩) :
    ((((arena.blockClear o i).updateOrderBitmap o).blockSetFree o i).orderSetFree o) = arena := by
  have blocks := @Arena.updateOrderBitmap_blocks (arena.blockClear o i) o
  refine arena_ext blocks.2 (fun o' => ?_) ?_
  · rw [Arena.isOrderFree_orderSetFree]
    by_cases same : o' = o
    · subst same
      simp [(summary o' free.1.1).mpr ⟨i, free⟩]
    · have other : ((arena.blockClear o i).updateOrderBitmap o).isOrderFree o' =
          (arena.blockClear o i).isOrderFree o' := Arena.isOrderFree_updateOrderBitmap_other same
      simp only [same, decide_false, Bool.false_or]
      exact other
  · show bitmapSet ((arena.blockClear o i).updateOrderBitmap o).blockBitmap (blockBitmapBit o i) = _
    rw [blocks.1]
    exact bitmapSet_clear free.2

/-! ## The loops -/

theorem getIdx_left (i : ℕ) : getIdx (2 * i) = 2 * i + 1 ∧ getParentIdx (2 * i) = i := by
  have halves := getIdx_cases (2 * i)
  omega

/-- The merge loop comes back to where the split loop has started. -/
theorem splitDown_mergeUp (le : K ≤ topOrder) (range : order + n + m = topOrder)
    (work : Work K arena live lost (some ⟨order + n, i⟩)) :
    (arena.splitDown order i n).1.mergeUp order (arena.splitDown order i n).2 (n + m) =
      arena.mergeUp (order + n) i m := by
  induction n generalizing arena i m with
  | zero =>
      rw [Nat.zero_add]
      rfl
  | succ n ih =>
      have turn := work.split (o := order + n) le
      have inside := inside_half (work.tiles.inside .hand _ rfl) (.inr rfl)
      have back := work.split_merge (o := order + n) le
      have right : (((arena.blockClear (order + n) (2 * i)).blockSetFree (order + n)
          (2 * i + 1)).orderSetFree (order + n)).isBlockFree (order + n) (2 * i + 1) = true :=
        ((Arena.free_blockSetFree (inside_mono le inside)).mpr (.inr rfl)).2
      have small : order + n ≤ topOrder := by omega
      obtain ⟨buddy, parent⟩ := getIdx_left i
      have again := ih (m := m + 1) (by omega) turn
      simp only [Arena.splitDown, shift_left_one, right_half]
      rw [show n + 1 + m = n + (m + 1) by omega, again, Arena.mergeUp, if_neg, buddy, parent]
      · dsimp only
        rw [back]
        rfl
      · rw [buddy, right, orderNumBlocks_eq small]
        have bound := (inside_mono le inside).2
        dsimp only at bound
        simp only [Bool.true_eq_false, or_false, not_le]
        exact bound

/-- Above the block that was found nothing is merged. -/
theorem mergeUp_stops (work : Work K arena live lost none) (free : arena.Free ⟨o, i⟩)
    (range : o + m = topOrder) :
    ((arena.blockClear o i).updateOrderBitmap o).mergeUp o i m =
      ((arena.blockClear o i).updateOrderBitmap o, o, i) := by
  cases m with
  | zero => rfl
  | succ m =>
      have small : o ≤ topOrder := by omega
      rw [Arena.mergeUp, if_pos]
      by_contra merges
      rw [not_or, not_le, orderNumBlocks_eq small, Bool.not_eq_false] at merges
      have buddy : arena.Free ⟨o, getIdx i⟩ := by
        have still : ((arena.blockClear o i).updateOrderBitmap o).Free ⟨o, getIdx i⟩ :=
          ⟨⟨small, merges.1⟩, merges.2⟩
        rw [Arena.free_updateOrderBitmap, Arena.free_blockClear free.1] at still
        exact still.1
      have inside := work.tiles.inside .free _ free
      have insideBuddy := work.tiles.inside .free _ buddy
      rcases Nat.lt_or_eq_of_le inside.1 with below | whole
      · exact work.siblings o i below ⟨free, buddy⟩
      · -- the initial block has no buddy
        have first := inside.2
        have second := insideBuddy.2
        dsimp only at whole first second
        rw [whole, Nat.sub_self, pow_zero] at first second
        have halves := getIdx_cases i
        omega

/-- What `__buddy_alloc` has done when it returns an address. -/
theorem alloc_found (summary : arena.Summary) (given : (arena.alloc order).2 ≠ pmaNull) :
    ∃ n i, order + n ≤ topOrder ∧ arena.Free ⟨order + n, i⟩ ∧
      let taken := (arena.blockClear (order + n) i).updateOrderBitmap (order + n)
      arena.alloc order = ((taken.splitDown order i n).1,
        (taken.splitDown order i n).1.addrOf ⟨order, (taken.splitDown order i n).2⟩) := by
  unfold Arena.alloc at given ⊢
  by_cases large : numOrders ≤ order
  · rw [if_pos large] at given
    exact absurd rfl given
  rw [if_neg large] at given ⊢
  obtain ⟨same, result⟩ := Arena.searchOrder_spec summary
    (show order + (numOrders - order) = numOrders by omega)
  revert given same result
  cases arena.searchOrder order (numOrders - order) with
  | mk arena' found =>
      intro given same result
      dsimp only at same
      subst same
      cases found with
      | none => exact absurd rfl given
      | some at_ =>
          obtain ⟨allocOrder, i⟩ := at_
          obtain ⟨above, free⟩ := result
          have sum : order + (allocOrder - order) = allocOrder := by omega
          refine ⟨allocOrder - order, i, ?_, ?_, ?_⟩
          · rw [sum]
            exact free.1.1
          · rw [sum]
            exact free
          · rw [sum]
            rfl

/-- `__buddy_free` of what `__buddy_alloc` has just returned. -/
theorem Work.undo (le : K ≤ topOrder) (base : arena.baseAddr < 2 ^ 64)
    (work : Work K arena live lost none) (given : (arena.alloc order).2 ≠ pmaNull) :
    (arena.alloc order).1.free (arena.alloc order).2 order = arena := by
  obtain ⟨n, i, small, free, state⟩ := alloc_found work.summary given
  dsimp only at state
  have taken := work.take free
  have baseTaken : ((arena.blockClear (order + n) i).updateOrderBitmap (order + n)).baseAddr =
      arena.baseAddr := Arena.updateOrderBitmap_blocks.2
  have stops := mergeUp_stops (m := topOrder - (order + n)) work free (by omega)
  have put := take_put work.summary free
  dsimp only at taken
  rw [state] at given ⊢
  dsimp only at given ⊢
  generalize (arena.blockClear (order + n) i).updateOrderBitmap (order + n) = t at *
  obtain ⟨split, baseSplit⟩ := splitDown_work le order n taken
  have merged := splitDown_mergeUp (m := topOrder - (order + n)) le (by omega) taken
  have inside : (Block.mk order (t.splitDown order i n).2).Inside topOrder :=
    inside_mono le (split.tiles.inside .hand _ rfl)
  have bound : (t.splitDown order i n).1.baseAddr < 2 ^ 64 := by
    rw [baseSplit, baseTaken]
    exact base
  have back := Arena.addrToBlockIdx_addrOf bound inside
  have turns : numOrders - 1 - order = n + (topOrder - (order + n)) := by
    have top : topOrder + 1 = numOrders := rfl
    omega
  have valid : ¬ ((t.splitDown order i n).1.addrOf ⟨order, (t.splitDown order i n).2⟩ = pmaNull ∨
      numOrders ≤ order) := by
    have top : topOrder + 1 = numOrders := rfl
    rintro (null | large)
    · exact given null
    · omega
  dsimp only at back
  rw [Arena.free, if_neg valid, back, turns]
  dsimp only
  rw [merged, stops]
  exact put

end Undo

/-- **`__buddy_free` undoes `__buddy_alloc`**: in every state of every run, whatever order is
asked for, if `__buddy_alloc` returns an address, freeing it at once restores both bitmaps. -/
theorem free_undoes_alloc {baseAddr size order : ℕ} {arena : Arena} {run : List Action} {s : Sys}
    (accepted : arenaInit baseAddr size = some arena) (ran : exec step ⟨arena, []⟩ run = some s)
    (given : (s.arena.alloc order).2 ≠ pmaNull) :
    ((s.arena.alloc order).1.free (s.arena.alloc order).2 order).blockBitmap = s.arena.blockBitmap ∧
    ((s.arena.alloc order).1.free (s.arena.alloc order).2 order).orderBitmap = s.arena.orderBitmap := by
  have checked := accepted_of_init accepted
  obtain ⟨lost, good⟩ := exec_good checked ran
  have base : s.arena.baseAddr < 2 ^ 64 := by
    rw [good.base]
    exact checked.base_lt
  rw [good.work.undo checked.log2_usable.2.2 base given]
  exact ⟨rfl, rfl⟩

/-- A page of a 32 GiB arena, which is split all the way down, is merged back. -/
theorem free_undoes_alloc_low : ∃ arena, arenaInit (2 ^ 21) (2 ^ 35) = some arena ∧
    ((arena.alloc 0).1.free (arena.alloc 0).2 0).blockBitmap = arena.blockBitmap := by
  have given : ∃ arena, arenaInit (2 ^ 21) (2 ^ 35) = some arena ∧ (arena.alloc 0).2 ≠ pmaNull :=
    ⟨_, rfl, by decide⟩
  obtain ⟨arena, accepted, found⟩ := given
  have ran : exec step ⟨arena, []⟩ [] = some ⟨arena, []⟩ := rfl
  exact ⟨arena, accepted, (free_undoes_alloc accepted ran found).1⟩

end Twan.Lib.BuddyAlloc
