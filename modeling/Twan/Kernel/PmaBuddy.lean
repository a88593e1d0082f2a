/-
# Twan.Kernel.PmaBuddy -- pages of physical memory from several buddy arenas

`src/initcalls/early/mem/pma_buddy.c`.  `pma_buddy_alloc_pages` asks one arena after the
other: `__buddy_order_can_alloc` reads the order bitmap only, and where that says yes
`__buddy_alloc` must not fail (`KBUG_ON`).  Each arena has a lock of its own, so between
two calls of the clients every arena is in a state of a run of its own.

An arena says yes when a block is free, whatever its address; but `__buddy_alloc` returns
the address, and the block at address 0 looks like a failure.  `pages_complete`: as long
as no arena reaches there the quick check is exact, no request fails that an arena could
serve, and freeing undoes allocating; `pages_kbug` is what happens at the end of the
address space.
-/
import Twan.Lib.BuddyUndo

namespace Twan.Kernel.PmaBuddy

set_option autoImplicit false

open Twan.Base Twan.Base.Dyadic Twan.Lib.BuddyAlloc Twan.Lib

/-- `PMA_NUM_ARENAS`. -/
def numArenas : ℕ := 5

/-- `while (size < num_pages)` of `__buddy_get_order`, for at most `n` turns. -/
def orderFrom (numPages size order : ℕ) : ℕ → ℕ
  | 0 => order
  | n + 1 => if size < numPages then orderFrom numPages (size <<< 1) (order + 1) n else order

/-- `__buddy_get_order`; `num_pages` is a `u32`. -/
def getOrder (numPages : ℕ) : ℕ := orderFrom numPages 1 0 32

/-- `__buddy_order_can_alloc`. -/
def orderCanAlloc (arena : Arena) (order : ℕ) : Bool :=
  if numOrders ≤ order then false else (scan arena.isOrderFree order (numOrders - order)).isSome

/-- What `pma_buddy_alloc_pages` leaves and returns: the arenas, whether `KBUG_ON` was hit,
and the arena's id with the address, `none` for `PMA_NULL`. -/
structure Pages where
  arenas : List Arena
  kbug : Bool
  found : Option (ℕ × ℕ)

/-- The loop of `pma_buddy_alloc_pages` over the arenas from `i` on. -/
def allocFrom (order i : ℕ) : List Arena → Pages
  | [] => ⟨[], false, none⟩
  | arena :: arenas =>
      if orderCanAlloc arena order = false then
        let rest := allocFrom order (i + 1) arenas
        ⟨arena :: rest.arenas, rest.kbug, rest.found⟩
      else
        let (arena, ret) := arena.alloc order
        if ret = pmaNull then
          let rest := allocFrom order (i + 1) arenas
          ⟨arena :: rest.arenas, true, rest.found⟩
        else ⟨arena :: arenas, false, some (i, ret)⟩

/-- `pma_buddy_alloc_pages`. -/
def allocPages (arenas : List Arena) (numPages : ℕ) : Pages :=
  allocFrom (getOrder numPages) 0 arenas

/-- `pma_buddy_free_pages`; `none` is `-EINVAL`. -/
def freePages (arenas : List Arena) (id : ℤ) (phys numPages : ℕ) : Option (List Arena) :=
  if id < 0 ∨ arenas.length ≤ id then none
  else some (arenas.modify id.toNat fun arena => arena.free phys (getOrder numPages))

/-- `pma_buddy_init_range`; `none` is `-ENOSPC` or `-EINVAL`. -/
def initRange (arenas : List Arena) (phys size : ℕ) : Option (List Arena) :=
  if arenas.length = numArenas then none
  else (arenaInit phys size).map fun arena => arenas ++ [arena]

/-! ## The arenas and their clients -/

inductive Action where
  | initRange (phys size : ℕ)
  /-- A client's call in the arena of this id, under its lock. -/
  | on (id : ℕ) (a : BuddyAlloc.Action)

/-- The initialised arenas, each with the blocks that its clients hold. -/
def step (s : List Sys) : Action → Option (List Sys)
  | .initRange phys size =>
      if s.length = numArenas then some s
      else
        match arenaInit phys size with
        | none => some s
        | some arena => some (s ++ [⟨arena, []⟩])
  | .on id a =>
      match s[id]? with
      | none => none
      | some sys => (BuddyAlloc.step sys a).map fun sys' => s.set id sys'

/-- The range is refused, or its initial block ends inside the address space. -/
def Fits (phys size : ℕ) : Prop :=
  arenaInit phys size = none ∨ p2alignUp phys minArenaSize + 2 ^ log2 (usableSize phys size) ≤ 2 ^ 64

/-- Only ranges that fit are given to `pma_buddy_init_range`. -/
def Action.Fits : Action → Prop
  | .initRange phys size => PmaBuddy.Fits phys size
  | .on _ _ => True

/-! ## One arena -/

/-- An arena that ends inside the address space, after a run of its clients. -/
structure Sane (sys : Sys) : Prop where
  run : ∃ K lost, K ≤ topOrder ∧ sys.arena.baseAddr + 2 ^ (K + baseOrder) ≤ 2 ^ 64 ∧
    Good K sys.arena.baseAddr lost sys
  nonNull : sys.arena.baseAddr ≠ pmaNull

section Arena

variable {arena : Arena} {sys sys' : Sys} {order : ℕ}

theorem scan_isSome {p : ℕ → Bool} {i n : ℕ} :
    (scan p i n).isSome = true ↔ ∃ j, i ≤ j ∧ j < i + n ∧ p j = true := by
  cases found : scan p i n with
  | none =>
      simp only [Option.isSome_none, Bool.false_eq_true, false_iff]
      rintro ⟨j, le, lt, holds⟩
      rw [scan_none found le lt] at holds
      cases holds
  | some j => exact ⟨fun _ => ⟨j, scan_some found⟩, fun _ => rfl⟩

/-- The quick check says whether a block of the order or above is free. -/
theorem orderCanAlloc_iff (summary : arena.Summary) :
    orderCanAlloc arena order = true ↔ ∃ o i, order ≤ o ∧ arena.Free ⟨o, i⟩ := by
  have top : topOrder + 1 = numOrders := rfl
  unfold orderCanAlloc
  by_cases large : numOrders ≤ order
  · rw [if_pos large]
    simp only [Bool.false_eq_true, false_iff]
    rintro ⟨o, i, above, free⟩
    have small := free.1.1
    dsimp only at small
    omega
  · rw [if_neg large, scan_isSome]
    constructor
    · rintro ⟨o, above, below, set⟩
      obtain ⟨i, free⟩ := (summary o (by omega)).mp set
      exact ⟨o, i, above, free⟩
    · rintro ⟨o, i, above, free⟩
      have small : o ≤ topOrder := free.1.1
      exact ⟨o, above, by omega, (summary o small).mpr ⟨i, free⟩⟩

/-- `__buddy_alloc` succeeds exactly when the quick check says so. -/
theorem Sane.canAlloc (sane : Sane sys) :
    orderCanAlloc sys.arena order = true ↔ (sys.arena.alloc order).2 ≠ pmaNull := by
  obtain ⟨K, lost, le, room, good⟩ := sane.run
  rw [orderCanAlloc_iff good.work.summary]
  constructor
  · rintro ⟨o, i, above, free⟩
    have small : o ≤ topOrder := free.1.1
    have top : topOrder + 1 = numOrders := rfl
    rcases alloc_work le good.work order with ⟨-, large | empty⟩ | ⟨b, rfl, addr, -, work⟩
    · omega
    · exact absurd free (empty o i above)
    · rw [addr]
      exact addrOf_ne_null sane.nonNull (work.tiles.inside .hand b rfl) room
  · intro given
    obtain ⟨n, i, -, free, -⟩ := alloc_found good.work.summary given
    exact ⟨order + n, i, Nat.le_add_right order n, free⟩

/-- Freeing undoes allocating. -/
theorem Sane.undo (sane : Sane sys) (given : (sys.arena.alloc order).2 ≠ pmaNull) :
    (sys.arena.alloc order).1.free (sys.arena.alloc order).2 order = sys.arena := by
  obtain ⟨K, lost, le, room, good⟩ := sane.run
  have positive := Nat.two_pow_pos (K + baseOrder)
  exact good.work.undo le (by omega) given

theorem Sane.step {a : BuddyAlloc.Action} (sane : Sane sys) (moved : BuddyAlloc.step sys a = some sys') :
    Sane sys' := by
  obtain ⟨K, lost, le, room, good⟩ := sane.run
  have positive := Nat.two_pow_pos (K + baseOrder)
  obtain ⟨lost', good'⟩ := step_good le (by omega) good moved
  have base := good'.base
  constructor
  · exact ⟨K, lost', le, by rw [base]; exact room, by rw [base]; exact good'⟩
  · rw [base]
    exact sane.nonNull

theorem sane_init {phys size : ℕ} (accepted : arenaInit phys size = some arena)
    (fits : Fits phys size) : Sane ⟨arena, []⟩ := by
  have checked := accepted_of_init accepted
  obtain ⟨-, order, le⟩ := checked.log2_usable
  have room := fits.resolve_left (by rw [accepted]; exact nofun)
  have ran : exec BuddyAlloc.step ⟨arena, []⟩ [] = some ⟨arena, []⟩ := rfl
  obtain ⟨lost, good⟩ := exec_good checked ran
  rw [order, ← checked.base] at room
  exact ⟨⟨_, lost, le, room, good⟩, checked.nonNull⟩

end Arena

/-! ## All arenas -/

section Arenas

variable {s s' : List Sys} {sys : Sys} {order numPages : ℕ}

/-- `__buddy_get_order` finds the smallest order with room for the pages. -/
theorem orderFrom_spec {o n : ℕ} (least : ∀ j, j < o → 2 ^ j < numPages)
    (enough : numPages ≤ 2 ^ (o + n)) :
    numPages ≤ 2 ^ orderFrom numPages (2 ^ o) o n ∧
      ∀ j, j < orderFrom numPages (2 ^ o) o n → 2 ^ j < numPages := by
  induction n generalizing o with
  | zero => exact ⟨enough, least⟩
  | succ n ih =>
      unfold orderFrom
      split
      · rename_i more
        rw [Nat.shiftLeft_eq, pow_one, ← pow_succ]
        refine ih (fun j less => ?_) (by rwa [Nat.add_right_comm])
        rcases Nat.lt_succ_iff_lt_or_eq.mp less with before | rfl
        · exact least j before
        · exact more
      · rename_i here
        exact ⟨Nat.le_of_not_lt here, least⟩

/-- The order of a request is the least one whose blocks hold it. -/
theorem getOrder_spec (bound : numPages < 2 ^ 32) :
    numPages ≤ 2 ^ getOrder numPages ∧ ∀ j, j < getOrder numPages → 2 ^ j < numPages := by
  have none_ : ∀ j, j < 0 → 2 ^ j < numPages := fun j less => absurd less (Nat.not_lt_zero j)
  have enough : numPages ≤ 2 ^ (0 + 32) := by
    rw [Nat.zero_add]
    omega
  exact orderFrom_spec none_ enough

/-- What the loop over the arenas does when each of them is sane. -/
theorem allocFrom_spec (sane : ∀ sys ∈ s, Sane sys) (order i : ℕ) :
    (allocFrom order i (s.map Sys.arena)).kbug = false ∧
    ((allocFrom order i (s.map Sys.arena)).found = none →
      ∀ sys ∈ s, orderCanAlloc sys.arena order = false) ∧
    ∀ id phys, (allocFrom order i (s.map Sys.arena)).found = some (id, phys) →
      phys ≠ pmaNull ∧ ∃ n, id = i + n ∧ n < s.length ∧
        (allocFrom order i (s.map Sys.arena)).arenas.length = s.length ∧
        (allocFrom order i (s.map Sys.arena)).arenas.modify n (fun arena => arena.free phys order) =
          s.map Sys.arena := by
  induction s generalizing i with
  | nil => exact ⟨rfl, fun _ _ => nofun, nofun⟩
  | cons sys s ih =>
      obtain ⟨kbug, none_, some_⟩ := ih (fun sys inside => sane sys (List.mem_cons_of_mem _ inside)) (i + 1)
      have here := sane sys List.mem_cons_self
      simp only [List.map_cons, allocFrom]
      by_cases can : orderCanAlloc sys.arena order = true
      · have given := here.canAlloc.mp can
        rw [if_neg (by rw [can]; exact Bool.noConfusion), if_neg given]
        refine ⟨rfl, nofun, ?_⟩
        rintro id phys found
        obtain ⟨rfl, rfl⟩ := Prod.mk.inj (Option.some.inj found)
        refine ⟨given, 0, rfl, Nat.succ_pos _, by simp, ?_⟩
        simp only [List.modify_zero_cons, here.undo given]
      · rw [Bool.not_eq_true] at can
        rw [if_pos can]
        refine ⟨kbug, ?_, ?_⟩
        · intro nothing sys' inside
          rcases List.mem_cons.mp inside with rfl | later
          · exact can
          · exact none_ nothing sys' later
        · rintro id phys found
          obtain ⟨nonNull, n, rfl, small, length, back⟩ := some_ id phys found
          refine ⟨nonNull, n + 1, by omega, by simpa using small, by simpa using length, ?_⟩
          simp only [List.modify_succ_cons, back]

theorem step_sane {a : Action} (sane : ∀ sys ∈ s, Sane sys) (fits : a.Fits)
    (moved : step s a = some s') : ∀ sys ∈ s', Sane sys := by
  cases a with
  | initRange phys size =>
      simp only [step] at moved
      split at moved
      · cases moved
        exact sane
      · split at moved
        · cases moved
          exact sane
        · rename_i arena accepted
          cases moved
          intro sys inside
          rcases List.mem_append.mp inside with old | new
          · exact sane sys old
          · rw [List.mem_singleton.mp new]
            exact sane_init accepted fits
  | on id a =>
      simp only [step] at moved
      split at moved
      · cases moved
      · rename_i sys found
        obtain ⟨sys', called, rfl⟩ := Option.map_eq_some_iff.mp moved
        intro other inside
        rcases List.mem_or_eq_of_mem_set inside with old | rfl
        · exact sane other old
        · exact (sane sys (List.mem_of_getElem? found)).step called

/-- **Page allocation is complete** after every run that gives `pma_buddy_init_range` only
ranges that fit: in every arena the quick check is exact, so `KBUG_ON` is not hit; PMA_NULL is
returned only when no arena has a free block of the needed order; and the pages that were
returned with their id, freed at once, leave the arenas as they were. -/
theorem pages_complete {run : List Action} (ran : exec step [] run = some s)
    (fits : Along (fun _ a => a.Fits) step [] run) (numPages : ℕ) :
    (∀ sys ∈ s, ∀ order, orderCanAlloc sys.arena order = true ↔ (sys.arena.alloc order).2 ≠ pmaNull) ∧
    (allocPages (s.map Sys.arena) numPages).kbug = false ∧
    ((allocPages (s.map Sys.arena) numPages).found = none →
      ∀ sys ∈ s, ∀ o i, getOrder numPages ≤ o → ¬ sys.arena.Free ⟨o, i⟩) ∧
    ∀ id phys, (allocPages (s.map Sys.arena) numPages).found = some (id, phys) →
      phys ≠ pmaNull ∧ freePages (allocPages (s.map Sys.arena) numPages).arenas id phys numPages =
        some (s.map Sys.arena) := by
  have sane : ∀ sys ∈ s, Sane sys :=
    exec_invariant_along (I := fun s => ∀ sys ∈ s, Sane sys)
      (fun _ _ _ before ok moved => step_sane before ok moved) (by simp) fits ran
  obtain ⟨kbug, none_, some_⟩ := allocFrom_spec sane (getOrder numPages) 0
  refine ⟨fun sys inside order => (sane sys inside).canAlloc, kbug, ?_, ?_⟩
  · intro nothing sys inside o i above free
    obtain ⟨K, lost, le, room, good⟩ := (sane sys inside).run
    have can := (orderCanAlloc_iff good.work.summary).mpr ⟨o, i, above, free⟩
    rw [none_ nothing sys inside] at can
    cases can
  · intro id phys found
    obtain ⟨nonNull, n, same, small, length, back⟩ := some_ id phys found
    refine ⟨nonNull, ?_⟩
    rw [Nat.zero_add] at same
    subst same
    rw [freePages, if_neg, allocPages, Int.toNat_natCast, back]
    rw [allocPages, length]
    omega

/-- 32 GiB at 2 MiB: a request for three pages is served, and undone. -/
theorem pages_complete_low : ∃ s, exec step [] [.initRange (2 ^ 21) (2 ^ 35)] = some s ∧
    (allocPages (s.map Sys.arena) 3).kbug = false := by
  have ran : ∃ s, exec step [] [.initRange (2 ^ 21) (2 ^ 35)] = some s := ⟨_, rfl⟩
  obtain ⟨s, ran⟩ := ran
  have fits : Along (fun _ a => a.Fits) step [] [.initRange (2 ^ 21) (2 ^ 35)] :=
    ⟨.inr (by decide), fun _ _ => trivial⟩
  exact ⟨s, ran, (pages_complete ran fits 3).2.1⟩

/-- The last 24 GiB of the address space but for its last page, taken for 32 GiB: when three blocks
of 8 GiB are live, the quick check finds the fourth, which starts at address 0, and `KBUG_ON` is
hit. -/
theorem pages_kbug : ∃ s, exec step [] [.initRange (2 ^ 64 - 3 * 2 ^ 33) (3 * 2 ^ 33 - 2 ^ 21),
      .on 0 (.alloc 12), .on 0 (.alloc 12), .on 0 (.alloc 12)] = some s ∧
    (∃ sys ∈ s, orderCanAlloc sys.arena 12 = true ∧ (sys.arena.alloc 12).2 = pmaNull) ∧
    (allocPages (s.map Sys.arena) 4096).kbug = true := by
  refine ⟨_, rfl, ⟨_, List.mem_singleton_self _, by decide, by decide⟩, by decide⟩

end Arenas

end Twan.Kernel.PmaBuddy
