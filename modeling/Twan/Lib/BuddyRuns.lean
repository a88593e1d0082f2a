/-
# Twan.Lib.BuddyRuns -- what every run of the buddy allocator keeps

From a fresh arena on, the free, the live and the lost blocks tile the initial block
(`exec_good`), whatever the clients do.  Blocks are lost only at address 0, so the
arena is a partition in every run exactly when the initial block does not reach
there (`buddy_partition_iff`); and it lies inside the given range exactly when the
usable size is a power of two and the arena ends before `2 ^ 64` (`buddy_within_iff`).
-/
import Mathlib.Data.Finset.Card
import Mathlib.Data.Finset.Range
import Twan.Lib.BuddyAlloc

namespace Twan.Lib.BuddyAlloc

set_option autoImplicit false

open Twan.Base Twan.Base.Dyadic

/-! ## A fresh arena -/

/-- The size that `buddy_arena_init` is left with. -/
def usableSize (baseAddr size : ℕ) : ℕ :=
  let alignedAddr := p2alignUp baseAddr minArenaSize
  let size := p2alignDown (size - (alignedAddr - baseAddr)) minArenaSize
  if size > maxArenaSize then maxArenaSize else size

/-- The order of the initial block. -/
def initialOrder (baseAddr size : ℕ) : ℕ := log2 (usableSize baseAddr size) - baseOrder

section Fresh

variable {baseAddr size : ℕ} {arena : Arena}

/-- What `buddy_arena_init` has checked when it succeeds. -/
structure Accepted (baseAddr size : ℕ) (arena : Arena) : Prop where
  given : baseAddr ≠ pmaNull
  base : arena.baseAddr = p2alignUp baseAddr minArenaSize
  nonNull : arena.baseAddr ≠ pmaNull
  above : baseAddr ≤ arena.baseAddr
  cutoff : arena.baseAddr - baseAddr ≤ size
  minimum : minArenaSize ≤ usableSize baseAddr size
  fresh : arena = ((Arena.mk (p2alignUp baseAddr minArenaSize) (fun _ => 0) (fun _ => 0)).orderSetFree
    (initialOrder baseAddr size)).blockSetFree (initialOrder baseAddr size) 0

theorem accepted_of_init (accepted : arenaInit baseAddr size = some arena) :
    Accepted baseAddr size arena := by
  unfold arenaInit at accepted
  split at accepted
  · cases accepted
  simp only at accepted
  split at accepted
  · cases accepted
  split at accepted
  · cases accepted
  split at accepted
  · cases accepted
  rename_i given wrapped cut small
  rw [not_or] at wrapped
  cases accepted
  refine ⟨given, rfl, wrapped.2, ?_, ?_, ?_, rfl⟩
  · exact Nat.le_of_not_lt wrapped.1
  · exact Nat.le_of_not_lt cut
  · have large : minArenaSize ≤ maxArenaSize := by decide
    unfold usableSize
    simp only
    split
    · exact large
    · exact Nat.le_of_not_lt small

theorem Accepted.base_lt (accepted : Accepted baseAddr size arena) : arena.baseAddr < 2 ^ 64 := by
  rw [accepted.base]
  exact lt_of_le_of_lt (p2alignDown_le _ _) (Nat.mod_lt _ (Nat.two_pow_pos 64))

theorem Accepted.base_aligned (accepted : Accepted baseAddr size arena) :
    minArenaSize ∣ arena.baseAddr := by
  rw [accepted.base]
  exact dvd_p2alignDown _ _

theorem usableSize_le (baseAddr size : ℕ) : usableSize baseAddr size ≤ maxArenaSize := by
  unfold usableSize
  simp only
  split <;> omega

/-- The initial block is the smallest one that is not below the usable size. -/
theorem Accepted.log2_usable (accepted : Accepted baseAddr size arena) :
    log2 (usableSize baseAddr size) = Nat.clog 2 (usableSize baseAddr size) ∧
    log2 (usableSize baseAddr size) = initialOrder baseAddr size + baseOrder ∧
    initialOrder baseAddr size ≤ topOrder := by
  have least := accepted.minimum
  have most := usableSize_le baseAddr size
  have positive : 0 < minArenaSize := by decide
  have bound : maxArenaSize < 2 ^ 64 := by decide
  have nonzero : usableSize baseAddr size ≠ 0 := by omega
  have clog := log2_eq_clog nonzero (by omega)
  have low : baseOrder ≤ Nat.clog 2 (usableSize baseAddr size) := by
    by_contra less
    have power := Nat.le_pow_clog (b := 2) (by decide) (usableSize baseAddr size)
    have shrink : 2 ^ Nat.clog 2 (usableSize baseAddr size) < 2 ^ baseOrder :=
      Nat.pow_lt_pow_right (by decide) (by omega)
    have minimum : minArenaSize = 2 ^ baseOrder := rfl
    omega
  have high : Nat.clog 2 (usableSize baseAddr size) ≤ maxOrder := Nat.clog_le_of_le_pow most
  have top : topOrder = maxOrder - baseOrder := rfl
  refine ⟨clog, ?_, ?_⟩
  · unfold initialOrder
    omega
  · unfold initialOrder
    omega

theorem Accepted.inside (accepted : Accepted baseAddr size arena) :
    (Block.mk (initialOrder baseAddr size) 0).Inside topOrder :=
  ⟨accepted.log2_usable.2.2, Nat.two_pow_pos _⟩

/-- The zeroed bitmap records nothing. -/
theorem not_free_zero (base : ℕ) (b : Block) :
    ¬ (Arena.mk base (fun _ => 0) (fun _ => 0)).Free b := by
  rintro ⟨-, free⟩
  simp [Arena.isBlockFree, bitmapTest_eq] at free

/-- A fresh arena has one free block. -/
theorem Accepted.frees (accepted : Accepted baseAddr size arena) (b : Block) :
    arena.Free b ↔ b = ⟨initialOrder baseAddr size, 0⟩ := by
  rw [accepted.fresh, Arena.free_blockSetFree accepted.inside]
  constructor
  · rintro (free | same)
    · exact absurd free (not_free_zero (p2alignUp baseAddr minArenaSize) b)
    · exact same
  · exact .inr

theorem Accepted.work (accepted : Accepted baseAddr size arena) :
    Work (initialOrder baseAddr size) arena [] [] none := by
  have frees := accepted.frees
  refine ⟨?_, ?_, ?_⟩
  · refine (tiles_whole (T := Owner) .free).congr ?_
    rintro (_ | _ | _ | _) b <;> simp [Held, frees]
  · rintro o i below ⟨one, -⟩
    rw [frees, Block.mk.injEq] at one
    omega
  · have summary : (Arena.mk (p2alignUp baseAddr minArenaSize) (fun _ => 0) (fun _ => 0)).Summary := by
      intro order _
      constructor
      · intro isFree
        simp [Arena.isOrderFree, bitmapTest_eq] at isFree
      · rintro ⟨idx, free⟩
        exact absurd free (not_free_zero _ _)
    rw [accepted.fresh]
    exact summary.insert rfl fun b => Arena.free_blockSetFree accepted.inside

end Fresh

/-! ## Every run -/

section Runs

variable {K : ℕ} {s t : Sys}

/-- The free and the live blocks, as the clients and the bitmaps see them. -/
structure Partition (K : ℕ) (s : Sys) : Prop where
  tiles : Tiles K (Held s.arena s.live [] none)
  blocks : ∀ e ∈ s.live, ∃ b : Block, b.Inside K ∧ e = (s.arena.addrOf b, b.order)
  once : s.live.Nodup
  siblings : ∀ o i, o < K → ¬ (s.arena.Free ⟨o, i⟩ ∧ s.arena.Free ⟨o, getIdx i⟩)
  summary : s.arena.Summary

/-- What every run keeps: a partition up to blocks that were lost at address 0. -/
structure Good (K base : ℕ) (lost : List Block) (s : Sys) : Prop where
  work : Work K s.arena s.live lost none
  null : ∀ b ∈ lost, s.arena.addrOf b = pmaNull
  blocks : ∀ e ∈ s.live, e.1 ≠ pmaNull ∧ ∃ b : Block, b.Inside K ∧ e = (s.arena.addrOf b, b.order)
  once : s.live.Nodup
  base : s.arena.baseAddr = base

theorem Good.partition {base : ℕ} (good : Good K base [] s) : Partition K s :=
  ⟨good.work.tiles, fun e member => (good.blocks e member).2, good.once, good.work.siblings,
    good.work.summary⟩

theorem step_good {base : ℕ} {lost : List Block} {a : Action} (le : K ≤ topOrder)
    (bound : base < 2 ^ 64) (good : Good K base lost s) (moved : step s a = some t) :
    ∃ lost', Good K base lost' t := by
  cases a with
  | alloc order =>
      simp only [step, Option.some.injEq] at moved
      subst moved
      rcases alloc_work le good.work order with ⟨failed, -⟩ | ⟨b, rfl, addr, sameBase, work⟩
      · rw [failed]
        exact ⟨lost, good⟩
      · have moves : ∀ c, (s.arena.alloc b.order).1.addrOf c = s.arena.addrOf c := fun c =>
          Arena.addrOf_congr sameBase
        have given := work.give le
        rw [addr]
        by_cases null : s.arena.addrOf b = pmaNull
        · refine ⟨b :: lost, ?_⟩
          simp only [if_pos null]
          refine ⟨given.2, ?_, ?_, good.once, sameBase.trans good.base⟩
          · intro c member
            rw [moves]
            rcases List.mem_cons.mp member with rfl | old
            · exact null
            · exact good.null c old
          · intro e member
            obtain ⟨nonNull, c, inside, same⟩ := good.blocks e member
            exact ⟨nonNull, c, inside, by rw [moves]; exact same⟩
        · refine ⟨lost, ?_⟩
          simp only [if_neg null]
          have first := given.1
          rw [moves] at first
          refine ⟨first, ?_, ?_, ?_, sameBase.trans good.base⟩
          · intro c member
            rw [moves]
            exact good.null c member
          · intro e member
            rcases List.mem_cons.mp member with rfl | old
            · exact ⟨null, b, work.tiles.inside .hand b rfl, by rw [moves]⟩
            · obtain ⟨nonNull, c, inside, same⟩ := good.blocks e old
              exact ⟨nonNull, c, inside, by rw [moves]; exact same⟩
          · refine List.nodup_cons.mpr ⟨fun member => ?_, good.once⟩
            have inside := inside_mono le (work.tiles.inside .hand b rfl)
            have twice := work.tiles.tag_unique (s := .hand) (t := .live) (b := b) rfl
              ⟨inside, by rw [moves]; exact member⟩
            cases twice
  | free addr order =>
      simp only [step] at moved
      split at moved <;> cases moved
      rename_i member
      obtain ⟨nonNull, b, inside, same⟩ := good.blocks _ member
      rw [Prod.mk.injEq] at same
      obtain ⟨rfl, rfl⟩ := same
      have released := good.work.release good.once (inside_mono le inside) member
      obtain ⟨work, sameBase⟩ := free_work le (by rw [good.base]; exact bound) nonNull released
      have moves : ∀ c, (s.arena.free (s.arena.addrOf b) b.order).addrOf c = s.arena.addrOf c :=
        fun c => Arena.addrOf_congr sameBase
      refine ⟨lost, work, ?_, ?_, good.once.erase _, sameBase.trans good.base⟩
      · intro c old
        rw [moves]
        exact good.null c old
      · intro e old
        obtain ⟨nonNull', c, insideC, same⟩ := good.blocks e (List.mem_of_mem_erase old)
        exact ⟨nonNull', c, insideC, by rw [moves]; exact same⟩

variable {baseAddr size : ℕ} {arena : Arena}

theorem exec_good (accepted : Accepted baseAddr size arena) {run : List Action}
    (ran : exec step ⟨arena, []⟩ run = some s) :
    ∃ lost, Good (initialOrder baseAddr size) arena.baseAddr lost s := by
  have start : ∃ lost, Good (initialOrder baseAddr size) arena.baseAddr lost ⟨arena, []⟩ :=
    ⟨[], accepted.work, by simp, by simp, List.nodup_nil, rfl⟩
  refine exec_invariant (I := fun s => ∃ lost, Good _ arena.baseAddr lost s) ?_ start ran
  rintro s a t ⟨lost, good⟩ moved
  exact step_good accepted.log2_usable.2.2 accepted.base_lt good moved

/-- The bytes of a block inside the initial one, from the base on. -/
theorem offset_end {b : Block} (inside : b.Inside K) :
    b.idx <<< (b.order + baseOrder) + 2 ^ (b.order + baseOrder) ≤ 2 ^ (K + baseOrder) := by
  have fits := Nat.mul_le_mul_right (2 ^ baseOrder) (b.end_le inside)
  rw [Nat.shiftLeft_eq, pow_add, pow_add]
  calc b.idx * (2 ^ b.order * 2 ^ baseOrder) + 2 ^ b.order * 2 ^ baseOrder
      = (b.idx + 1) * 2 ^ b.order * 2 ^ baseOrder := by ring
    _ ≤ 2 ^ K * 2 ^ baseOrder := fits

/-- Without wraparound no block starts at address 0. -/
theorem addrOf_ne_null {b : Block} (nonNull : arena.baseAddr ≠ pmaNull) (inside : b.Inside K)
    (room : arena.baseAddr + 2 ^ (K + baseOrder) ≤ 2 ^ 64) : arena.addrOf b ≠ pmaNull := by
  have fits := offset_end inside
  have positive := Nat.two_pow_pos (b.order + baseOrder)
  simp only [Arena.addrOf, Arena.blockIdxToAddr, pmaNull] at nonNull ⊢
  generalize b.idx <<< (b.order + baseOrder) = d at *
  omega

/-- With wraparound some smallest block starts at address 0. -/
theorem exists_null_block (accepted : Accepted baseAddr size arena)
    (wraps : 2 ^ 64 < arena.baseAddr + 2 ^ (K + baseOrder)) :
    ∃ m, m < 2 ^ K ∧ arena.addrOf ⟨0, m⟩ = pmaNull := by
  obtain ⟨q, aligned⟩ := accepted.base_aligned
  have bound := accepted.base_lt
  have unit : minArenaSize = 2 ^ baseOrder := rfl
  have whole : 2 ^ 64 = 2 ^ baseOrder * 2 ^ 43 := by decide
  have positive := Nat.two_pow_pos baseOrder
  rw [unit] at aligned
  rw [aligned, whole] at bound
  have less : q < 2 ^ 43 := Nat.lt_of_mul_lt_mul_left bound
  refine ⟨2 ^ 43 - q, ?_, ?_⟩
  · rw [aligned, whole, pow_add, mul_comm (2 ^ K), ← Nat.mul_add] at wraps
    have cells := Nat.lt_of_mul_lt_mul_left wraps
    omega
  · have sum : 2 ^ baseOrder * q + (2 ^ 43 - q) * 2 ^ baseOrder = 2 ^ 64 := by
      rw [mul_comm (2 ^ 43 - q), ← Nat.mul_add, whole]
      congr 1
      omega
    simp only [Arena.addrOf, Arena.blockIdxToAddr, Nat.shiftLeft_eq, Nat.zero_add, aligned, sum,
      Nat.mod_self]
    rfl

/-- The entries that the order-0 blocks of the initial block would have. -/
def cells (arena : Arena) (K : ℕ) : Finset (ℕ × ℕ) :=
  (Finset.range (2 ^ K)).image fun x => (arena.addrOf ⟨0, x⟩, 0)

theorem card_cells (le : K ≤ topOrder) : (cells arena K).card = 2 ^ K := by
  rw [cells, Finset.card_image_of_injOn, Finset.card_range]
  intro x inX y inY same
  simp only [Finset.coe_range, Set.mem_Iio] at inX inY
  have inside : ∀ z, z < 2 ^ K → (Block.mk 0 z).Inside topOrder := fun z lt =>
    inside_mono le ⟨Nat.zero_le K, lt⟩
  have equal := Arena.addrOf_injective (inside x inX) (inside y inY) rfl (Prod.mk.inj same).1
  exact (Block.mk.inj equal).2

/-- As long as every state of a run is a partition, allocating pages one by one
succeeds until all of the initial block is live. -/
theorem exhaust (accepted : Accepted baseAddr size arena)
    (always : ∀ run s, exec step ⟨arena, []⟩ run = some s →
      Partition (initialOrder baseAddr size) s)
    (n : ℕ) (room : n ≤ 2 ^ initialOrder baseAddr size) :
    ∃ run s, exec step ⟨arena, []⟩ run = some s ∧ s.live.length = n ∧ ∀ e ∈ s.live, e.2 = 0 := by
  have le := accepted.log2_usable.2.2
  induction n with
  | zero => exact ⟨[], _, rfl, rfl, by simp⟩
  | succ n ih =>
      obtain ⟨run, s, ran, length, pages⟩ := ih (by omega)
      have partition := always run s ran
      have work : Work (initialOrder baseAddr size) s.arena s.live [] none :=
        ⟨partition.tiles, partition.siblings, partition.summary⟩
      -- fewer pages are live than there are, so some block is free
      have someFree : ∃ o i, s.arena.Free ⟨o, i⟩ := by
        by_contra none_
        push Not at none_
        have covered : cells s.arena (initialOrder baseAddr size) ⊆ s.live.toFinset := by
          intro e member
          obtain ⟨x, inX, rfl⟩ := Finset.mem_image.mp member
          obtain ⟨owner, b, held, covers⟩ := partition.tiles.cover x (Finset.mem_range.mp inX)
          cases owner with
          | free => exact absurd held (none_ b.order b.idx)
          | live =>
              have page : b.order = 0 := pages _ held.2
              obtain ⟨o, i⟩ := b
              simp only at page
              subst page
              simp only [Block.Covers, pow_zero, Nat.div_one] at covers
              subst covers
              exact List.mem_toFinset.mpr held.2
          | lost => cases held
          | hand => cases held
        have fits := Finset.card_le_card covered
        rw [card_cells le, List.toFinset_card_of_nodup partition.once, length] at fits
        omega
      obtain ⟨o, i, free⟩ := someFree
      rcases alloc_work le work 0 with ⟨-, large | absent⟩ | ⟨b, page, addr, -, given⟩
      · exact absurd large (by decide)
      · exact absurd free (absent o i (Nat.zero_le o))
      · have ran' : exec step ⟨arena, []⟩ (run ++ [.alloc 0]) =
            some ⟨(s.arena.alloc 0).1, if (s.arena.alloc 0).2 = pmaNull then s.live
              else ((s.arena.alloc 0).2, 0) :: s.live⟩ := exec_append ran rfl
        by_cases null : (s.arena.alloc 0).2 = pmaNull
        · -- the block in hand belongs to nobody, so the next state is no partition
          rw [if_pos null] at ran'
          have next := always _ _ ran'
          have cell := b.start_lt (given.tiles.inside .hand b rfl)
          obtain ⟨owner, c, held, covers⟩ := next.tiles.cover _ cell
          have held' : Held (s.arena.alloc 0).1 s.live [] (some b) owner c := by
            cases owner with
            | free => exact held
            | live => exact held
            | lost => exact held
            | hand => cases held
          obtain ⟨hand, -⟩ := given.tiles.disjoint _ .hand b owner c rfl held' b.covers_start covers
          subst hand
          cases held
        · rw [if_neg null] at ran'
          refine ⟨_, _, ran', by simp [length], ?_⟩
          intro e member
          rcases List.mem_cons.mp member with rfl | old
          · rfl
          · exact pages e old

/-- **The buddy allocator partitions its initial block**, in every state of every
run, exactly when that block does not wrap around the end of the address space:
the block that starts at address 0 is taken for `PMA_NULL` and lost. -/
theorem buddy_partition_iff (accepted : arenaInit baseAddr size = some arena) :
    (∀ run s, exec step ⟨arena, []⟩ run = some s → Partition (initialOrder baseAddr size) s) ↔
      p2alignUp baseAddr minArenaSize + 2 ^ log2 (usableSize baseAddr size) ≤ 2 ^ 64 := by
  have checked := accepted_of_init accepted
  obtain ⟨-, order, le⟩ := checked.log2_usable
  rw [order, ← checked.base]
  constructor
  · intro always
    by_contra wraps
    obtain ⟨m, lt, null⟩ := exists_null_block checked (Nat.lt_of_not_le wraps)
    obtain ⟨run, s, ran, length, pages⟩ := exhaust checked always _ le_rfl
    obtain ⟨lost, good⟩ := exec_good checked ran
    have moves : ∀ b, s.arena.addrOf b = arena.addrOf b := fun b => Arena.addrOf_congr good.base
    have inCells : s.live.toFinset ⊆ cells s.arena (initialOrder baseAddr size) := by
      intro e member
      obtain ⟨-, b, inside, rfl⟩ := good.blocks e (List.mem_toFinset.mp member)
      have page : b.order = 0 := pages _ (List.mem_toFinset.mp member)
      obtain ⟨o, i⟩ := b
      simp only at page
      subst page
      exact Finset.mem_image.mpr ⟨i, Finset.mem_range.mpr inside.2, rfl⟩
    have all : s.live.toFinset = cells s.arena (initialOrder baseAddr size) := by
      refine Finset.eq_of_subset_of_card_le inCells ?_
      rw [card_cells le, List.toFinset_card_of_nodup good.once, length]
    have live : (s.arena.addrOf ⟨0, m⟩, 0) ∈ s.live := by
      rw [← List.mem_toFinset, all]
      exact Finset.mem_image.mpr ⟨m, Finset.mem_range.mpr lt, rfl⟩
    refine (good.blocks _ live).1 ?_
    rw [moves]
    exact null
  · intro room run s ran
    obtain ⟨lost, good⟩ := exec_good checked ran
    cases lost with
    | nil => exact good.partition
    | cons b lost =>
        have inside := good.work.tiles.inside .lost b List.mem_cons_self
        have null := good.null b List.mem_cons_self
        rw [Arena.addrOf_congr good.base] at null
        exact absurd null (addrOf_ne_null checked.nonNull inside room)

/-- A range of 32 GiB at 2 MiB: the arena is a partition in every run. -/
theorem buddy_partition_low : ∃ arena, arenaInit (2 ^ 21) (2 ^ 35) = some arena ∧
    ∀ run s, exec step ⟨arena, []⟩ run = some s → Partition (initialOrder (2 ^ 21) (2 ^ 35)) s :=
  ⟨_, rfl, (buddy_partition_iff rfl).mpr (by decide)⟩

/-- The last 24 GiB of the address space but for its last page, taken for 32 GiB: the fourth
allocation of 8 GiB gets the block at address 0, which then is neither free nor live. -/
theorem buddy_partition_wraps :
    ∃ arena s, arenaInit (2 ^ 64 - 3 * 2 ^ 33) (3 * 2 ^ 33 - 2 ^ 21) = some arena ∧
      exec step ⟨arena, []⟩ [.alloc 12, .alloc 12, .alloc 12, .alloc 12] = some s ∧
      ¬ Partition (initialOrder (2 ^ 64 - 3 * 2 ^ 33) (3 * 2 ^ 33 - 2 ^ 21)) s := by
  have ran : ∃ arena s, arenaInit (2 ^ 64 - 3 * 2 ^ 33) (3 * 2 ^ 33 - 2 ^ 21) = some arena ∧
      exec step ⟨arena, []⟩ [.alloc 12, .alloc 12, .alloc 12, .alloc 12] = some s ∧
      s.live.map Prod.snd = [12, 12, 12] ∧ (0, 12) ∉ s.live ∧
      s.arena.addrOf ⟨12, 3⟩ = 0 ∧ ∀ o, o < numOrders → s.arena.isOrderFree o = false :=
    ⟨_, _, rfl, rfl, by decide, by decide, by decide, by decide⟩
  obtain ⟨arena, s, accepted, done, orders, absent, null, empty⟩ := ran
  refine ⟨arena, s, accepted, done, fun partition => ?_⟩
  have inRange : 3 * 2 ^ 12 < 2 ^ initialOrder (2 ^ 64 - 3 * 2 ^ 33) (3 * 2 ^ 33 - 2 ^ 21) := by decide
  obtain ⟨owner, b, held, covers⟩ := partition.tiles.cover _ inRange
  cases owner with
  | free =>
      have small : b.order ≤ topOrder := held.1.1
      have top : topOrder + 1 = numOrders := rfl
      have set := (partition.summary b.order small).mpr ⟨b.idx, held⟩
      rw [empty b.order (by omega)] at set
      cases set
  | live =>
      have order : b.order = 12 := by
        have member : b.order ∈ s.live.map Prod.snd := List.mem_map.mpr ⟨_, held.2, rfl⟩
        rw [orders] at member
        simpa using member
      obtain ⟨o, i⟩ := b
      simp only at order
      subst order
      have third : i = 3 := by
        simp only [Block.Covers] at covers
        omega
      subst third
      have entry := held.2
      rw [null] at entry
      exact absent entry
  | lost => cases held
  | hand => cases held

/-- The addresses of a block, which are `u64`s, lie in `[baseAddr, baseAddr + size)`. -/
def Within (baseAddr size addr order : ℕ) : Prop :=
  ∀ j, j < 2 ^ (order + baseOrder) →
    baseAddr ≤ (addr + j) % 2 ^ 64 ∧ (addr + j) % 2 ^ 64 < baseAddr + size

theorem two_pow_order_le (le : K ≤ topOrder) : 2 ^ (K + baseOrder) ≤ maxArenaSize := by
  refine Nat.pow_le_pow_right (by decide) ?_
  have top : topOrder = maxOrder - baseOrder := rfl
  have low : baseOrder ≤ maxOrder := by decide
  omega

/-- Below the next power of two the cap does not apply, and less than one page of
the range is cut off at its end. -/
theorem Accepted.size_lt (accepted : Accepted baseAddr size arena)
    (strict : usableSize baseAddr size < 2 ^ (initialOrder baseAddr size + baseOrder)) :
    size < arena.baseAddr - baseAddr + 2 ^ (initialOrder baseAddr size + baseOrder) := by
  have most := two_pow_order_le accepted.log2_usable.2.2
  have unit : minArenaSize = 2 ^ baseOrder := rfl
  have uncapped : usableSize baseAddr size =
      p2alignDown (size - (arena.baseAddr - baseAddr)) minArenaSize := by
    rw [accepted.base]
    unfold usableSize at strict ⊢
    simp only at strict ⊢
    split
    · rename_i capped
      rw [if_pos capped] at strict
      omega
    · rfl
  have rest := lt_p2alignDown_add (x := size - (arena.baseAddr - baseAddr)) (y := minArenaSize)
    (by decide)
  obtain ⟨u, pages⟩ := dvd_p2alignDown (size - (arena.baseAddr - baseAddr)) minArenaSize
  rw [← uncapped] at rest pages
  rw [pages, unit, pow_add, mul_comm (2 ^ initialOrder baseAddr size)] at strict
  have fewer : u + 1 ≤ 2 ^ initialOrder baseAddr size := Nat.lt_of_mul_lt_mul_left strict
  have step := Nat.mul_le_mul_left (2 ^ baseOrder) fewer
  rw [Nat.mul_add, mul_one, mul_comm (2 ^ baseOrder) (2 ^ initialOrder baseAddr size),
    ← pow_add] at step
  rw [pages, unit] at rest
  omega

/-- The first allocation of the initial order returns the aligned base. -/
theorem Accepted.alloc_first (accepted : Accepted baseAddr size arena) :
    (arena.alloc (initialOrder baseAddr size)).2 = arena.baseAddr := by
  have le := accepted.log2_usable.2.2
  have bound := accepted.base_lt
  rcases alloc_work le accepted.work (initialOrder baseAddr size) with
    ⟨-, large | absent⟩ | ⟨b, order, addr, -, work⟩
  · have top : topOrder + 1 = numOrders := rfl
    omega
  · exact absurd ((accepted.frees _).mpr rfl) (absent _ 0 le_rfl)
  · have inside := work.tiles.inside .hand b rfl
    have first : b.idx = 0 := by
      have lt := inside.2
      rw [order, Nat.sub_self, pow_zero] at lt
      omega
    rw [addr, Arena.addrOf, Arena.blockIdxToAddr, first, Nat.zero_shiftLeft, Nat.add_zero]
    exact Nat.mod_eq_of_lt bound

/-- The whole arena is inside the range exactly when the first allocation of it is: it does not
run over the end of the address space, and no size was rounded up. -/
theorem Accepted.within_first (accepted : Accepted baseAddr size arena)
    (within : Within baseAddr size arena.baseAddr (initialOrder baseAddr size)) :
    arena.baseAddr + 2 ^ (initialOrder baseAddr size + baseOrder) ≤ 2 ^ 64 ∧
      isPow2 (usableSize baseAddr size) = true := by
  obtain ⟨clog, order, le⟩ := accepted.log2_usable
  have bound := accepted.base_lt
  have given : 0 < baseAddr := Nat.pos_of_ne_zero accepted.given
  have fits : arena.baseAddr + 2 ^ (initialOrder baseAddr size + baseOrder) ≤ 2 ^ 64 := by
    by_contra wraps
    -- the byte at address 0
    have zero := (within (2 ^ 64 - arena.baseAddr) (by omega)).1
    rw [Nat.add_sub_cancel' (Nat.le_of_lt bound), Nat.mod_self] at zero
    omega
  refine ⟨fits, ?_⟩
  have least := accepted.minimum
  have positive : 0 < minArenaSize := by decide
  by_contra notPow
  have strict : usableSize baseAddr size < 2 ^ (initialOrder baseAddr size + baseOrder) := by
    rw [← order, clog]
    refine lt_of_le_of_ne (Nat.le_pow_clog (by decide) _) fun same => notPow ?_
    exact (isPow2_iff (by omega)).mpr ⟨_, same⟩
  have small := accepted.size_lt strict
  have above := accepted.above
  have some_ := Nat.two_pow_pos (initialOrder baseAddr size + baseOrder)
  have last := (within (2 ^ (initialOrder baseAddr size + baseOrder) - 1) (by omega)).2
  rw [Nat.mod_eq_of_lt (by omega)] at last
  omega

/-- **Allocations stay inside the given range**, in every run, exactly when the usable size is a
power of two and the arena does not run over the end of the address space: `log2` rounds up, so
the initial block can be larger than what is there, and a block behind `2 ^ 64` begins below the
range. -/
theorem buddy_within_iff (accepted : arenaInit baseAddr size = some arena) :
    (∀ run s order, exec step ⟨arena, []⟩ run = some s → (s.arena.alloc order).2 ≠ pmaNull →
      Within baseAddr size (s.arena.alloc order).2 order) ↔
    isPow2 (usableSize baseAddr size) = true ∧
      p2alignUp baseAddr minArenaSize + usableSize baseAddr size ≤ 2 ^ 64 := by
  have checked := accepted_of_init accepted
  obtain ⟨clog, order, le⟩ := checked.log2_usable
  have least := checked.minimum
  have positive : 0 < minArenaSize := by decide
  have exact_ : isPow2 (usableSize baseAddr size) = true →
      usableSize baseAddr size = 2 ^ (initialOrder baseAddr size + baseOrder) := by
    intro pow
    obtain ⟨k, power⟩ := (isPow2_iff (by omega)).mp pow
    rw [← order, clog, power, Nat.clog_pow 2 k (by decide)]
  rw [← checked.base]
  constructor
  · intro always
    have first := checked.alloc_first
    have within := always [] ⟨arena, []⟩ (initialOrder baseAddr size) rfl
      (by rw [first]; exact checked.nonNull)
    rw [first] at within
    obtain ⟨fits, pow⟩ := checked.within_first within
    exact ⟨pow, by rw [exact_ pow]; exact fits⟩
  · rintro ⟨pow, fits⟩ run s o ran nonNull
    have above := checked.above
    have cutoff := checked.cutoff
    have usable : usableSize baseAddr size ≤ size - (arena.baseAddr - baseAddr) := by
      rw [checked.base]
      have down := p2alignDown_le (size - (p2alignUp baseAddr minArenaSize - baseAddr)) minArenaSize
      unfold usableSize
      simp only
      split <;> omega
    rw [exact_ pow] at fits usable
    obtain ⟨lost, good⟩ := exec_good checked ran
    rcases alloc_work le good.work o with ⟨failed, -⟩ | ⟨b, rfl, addr, -, work⟩
    · rw [failed] at nonNull
      exact absurd rfl nonNull
    · intro j lt
      have inside := offset_end (work.tiles.inside .hand b rfl)
      rw [addr, Arena.addrOf, Arena.blockIdxToAddr, good.base]
      generalize b.idx <<< (b.order + baseOrder) = d at *
      have start : (arena.baseAddr + d) % 2 ^ 64 = arena.baseAddr + d := Nat.mod_eq_of_lt (by omega)
      rw [start, Nat.mod_eq_of_lt (by omega)]
      constructor <;> omega

/-- A range of 32 GiB that starts one page and a half in. -/
theorem buddy_within_low : ∃ arena, arenaInit (3 * 2 ^ 20) (2 ^ 35 + 2 ^ 20) = some arena ∧
    ∀ run s order, exec step ⟨arena, []⟩ run = some s → (s.arena.alloc order).2 ≠ pmaNull →
      Within (3 * 2 ^ 20) (2 ^ 35 + 2 ^ 20) (s.arena.alloc order).2 order :=
  ⟨_, rfl, (buddy_within_iff rfl).mpr (by decide)⟩

/-- A range of 24 GiB at 2 MiB: the first allocation of 32 GiB succeeds, and its byte 24 GiB on is
outside. -/
theorem buddy_within_exceeded : ∃ arena, arenaInit (2 ^ 21) (3 * 2 ^ 33) = some arena ∧
    (arena.alloc 14).2 = 2 ^ 21 ∧ ¬ Within (2 ^ 21) (3 * 2 ^ 33) (arena.alloc 14).2 14 := by
  have first : ∃ arena, arenaInit (2 ^ 21) (3 * 2 ^ 33) = some arena ∧
      (arena.alloc 14).2 = 2 ^ 21 := ⟨_, rfl, by decide⟩
  obtain ⟨arena, accepted, addr⟩ := first
  refine ⟨arena, accepted, addr, fun within => ?_⟩
  rw [addr] at within
  have outside := (within (3 * 2 ^ 33) (by decide)).2
  omega

end Runs

end Twan.Lib.BuddyAlloc
