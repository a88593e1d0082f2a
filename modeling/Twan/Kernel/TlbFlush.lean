/-
# Twan.Kernel.TlbFlush -- what the mappers flush

The routines of `src/kernel/mem/mmu/paging.c` that map, unmap or remap and then flush, with
`src/kernel/mem/mmu/tlb.c` and the range loop of `include/std.h`.  A local routine flushes on the
processor it runs on, a global one on the others too.

Each processor has a log of the addresses that were passed to `flush_this_tlb_page` there; an
address stands for the page it lies in.  `flush_coverage_iff` says of each routine when the log has
every page of which the routine wrote the entry.
-/
import Twan.Kernel.Paging

namespace Twan.Kernel.Paging

set_option autoImplicit false

open Twan.Lib

/-! ## `flush_this_tlb_page` and `flush_this_tlb_range`, on the log of a processor -/

def flushThisTlbPage (addr : ℕ) (log : List ℕ) : List ℕ := log ++ [addr]

/-- `for (u64 i = aligned_start; i != aligned_end; i += PAGE_SIZE)`. -/
def flushLoop (alignedEnd : ℕ) : ℕ → ℕ → List ℕ → List ℕ
  | 0, _, log => log
  | fuel + 1, i, log =>
      if i = alignedEnd then log
      else flushLoop alignedEnd fuel ((i + pageSize) % 2 ^ 64) (flushThisTlbPage i log)

/-- There are `2 ^ 43` pages. -/
def flushThisTlbRange (first last : ℕ) (log : List ℕ) : List ℕ :=
  let alignedStart := p2alignDown first pageSize
  let alignedEnd := p2alignDown last pageSize
  flushThisTlbPage alignedEnd (flushLoop alignedEnd (2 ^ 43) alignedStart log)

/-! ## The flushes of `tlb.c` -/

/-- The processor that runs the routine, and the others that are active.  There are none before
`multicore_initialized`: until then the kernel runs on the first processor alone. -/
structure Cpus where
  this : ℕ
  others : List ℕ
  multicoreInitialized : Bool
  alone : multicoreInitialized = false → others = []

structure Machine where
  mapper : Mapper
  flushed : ℕ → List ℕ

def Machine.on (m : Machine) (cpu : ℕ) (flush : List ℕ → List ℕ) : Machine where
  mapper := m.mapper
  flushed := Function.update m.flushed cpu (flush (m.flushed cpu))

section Flushes

variable (c : Cpus)

def ipiRunFuncOthers (flush : List ℕ → List ℕ) (m : Machine) : Machine :=
  c.others.foldl (fun m cpu => m.on cpu flush) m

def flushTlbPageLocal (addr : ℕ) (m : Machine) : Machine := m.on c.this (flushThisTlbPage addr)

def flushTlbRangeLocal (first last : ℕ) (m : Machine) : Machine :=
  m.on c.this (flushThisTlbRange first last)

def flushTlbPageGlobal (addr : ℕ) (m : Machine) : Machine :=
  let m := m.on c.this (flushThisTlbPage addr)
  if c.multicoreInitialized then ipiRunFuncOthers c (flushThisTlbPage addr) m else m

def flushTlbRangeGlobal (first last : ℕ) (m : Machine) : Machine :=
  let m := m.on c.this (flushThisTlbRange first last)
  if c.multicoreInitialized then ipiRunFuncOthers c (flushThisTlbRange first last) m else m

end Flushes

/-! ## The routines -/

/-- Map, and flush unless NULL was returned. -/
def mapThen (map : Mapper → ℕ × Mapper) (flush : ℕ → Machine → Machine) (m : Machine) :
    ℕ × Machine :=
  let result := map m.mapper
  let m := { m with mapper := result.2 }
  (result.1, if result.1 ≠ 0 then flush result.1 m else m)

/-- Unmap or remap, and flush. -/
def changeThen (change : Mapper → Mapper) (flush : Machine → Machine) (m : Machine) : Machine :=
  flush { m with mapper := change m.mapper }

section Routines

variable (c : Cpus) (w : Window)

/-- `__map_pfn_local`. -/
def mapPfnLocal (pfn : ℕ) : Machine → ℕ × Machine :=
  mapThen (mapPfnNoflush w · pfn) (flushTlbPageLocal c)

/-- `__unmap_pfn_local`. -/
def unmapPfnLocal (addr : ℕ) : Machine → Machine :=
  changeThen (unmapPfnNoflush · addr) (flushTlbPageLocal c addr)

/-- `__remap_pfn_local`, and `remap_pfn_local` around it. -/
def remapPfnLocal (addr pfn : ℕ) : Machine → Machine :=
  changeThen (remapPfnNoflush · addr pfn) (flushTlbPageLocal c addr)

/-- `map_pfn`, which flushes page 0 when NULL was returned. -/
def mapPfnGlobal (pfn : ℕ) (m : Machine) : ℕ × Machine :=
  let result := mapPfnNoflush w m.mapper pfn
  (result.1, flushTlbPageGlobal c result.1 { m with mapper := result.2 })

/-- `unmap_pfn`. -/
def unmapPfnGlobal (addr : ℕ) : Machine → Machine :=
  changeThen (unmapPfnNoflush · addr) (flushTlbPageGlobal c addr)

/-- `remap_pfn`. -/
def remapPfnGlobal (addr pfn : ℕ) : Machine → Machine :=
  changeThen (remapPfnNoflush · addr pfn) (flushTlbPageGlobal c addr)

/-- `__map_phys_pg_local`. -/
def mapPhysPgLocal (phys : ℕ) : Machine → ℕ × Machine :=
  mapThen (mapPhysPgNoflush w · phys) (flushTlbPageLocal c)

/-- `__unmap_phys_pg_local`. -/
def unmapPhysPgLocal (addr : ℕ) : Machine → Machine :=
  changeThen (unmapPhysPgNoflush · addr) (flushTlbPageLocal c addr)

/-- `map_phys_pg`. -/
def mapPhysPgGlobal (phys : ℕ) : Machine → ℕ × Machine :=
  mapThen (mapPhysPgNoflush w · phys) fun addr =>
    flushTlbRangeGlobal c (p2alignDown addr pageSize)
      (p2alignDown ((addr + pageSize) % 2 ^ 64) pageSize)

/-- `unmap_phys_pg`. -/
def unmapPhysPgGlobal (addr : ℕ) : Machine → Machine :=
  changeThen (unmapPhysPgNoflush · addr)
    (flushTlbRangeGlobal c (p2alignDown addr pageSize) (p2alignUp addr pageSize))

/-- `__map_pfn_io_local`: `flush_tlb_page_local((u64)pfn << PAGE_SHIFT)`. -/
def mapPfnIoLocal (pfn : ℕ) : Machine → ℕ × Machine :=
  mapThen (mapPfnIoNoflush w · pfn) fun _ => flushTlbPageLocal c (pfn * pageSize % 2 ^ 64)

/-- `__unmap_pfn_io_local`. -/
def unmapPfnIoLocal (addr : ℕ) : Machine → Machine :=
  changeThen (unmapPfnIoNoflush · addr) (flushTlbPageLocal c addr)

/-- `map_pfn_io`. -/
def mapPfnIoGlobal (pfn : ℕ) : Machine → ℕ × Machine :=
  mapThen (mapPfnIoNoflush w · pfn) (flushTlbPageGlobal c)

/-- `unmap_pfn_io`. -/
def unmapPfnIoGlobal (addr : ℕ) : Machine → Machine :=
  changeThen (unmapPfnIoNoflush · addr) fun m =>
    if addr ≠ 0 then flushTlbPageGlobal c addr m else m

/-- `__map_phys_pg_io_local`. -/
def mapPhysPgIoLocal (phys : ℕ) : Machine → ℕ × Machine :=
  mapThen (mapPhysPgIoNoflush w · phys) fun addr =>
    flushTlbRangeLocal c (p2alignDown addr pageSize) (p2alignUp addr pageSize)

/-- `__unmap_phys_pg_io_local`. -/
def unmapPhysPgIoLocal (addr : ℕ) : Machine → Machine :=
  changeThen (unmapPhysPgIoNoflush · addr)
    (flushTlbRangeLocal c (p2alignDown addr pageSize) (p2alignUp addr pageSize))

/-- `map_phys_pg_io`. -/
def mapPhysPgIoGlobal (phys : ℕ) : Machine → ℕ × Machine :=
  mapThen (mapPhysPgIoNoflush w · phys) fun addr =>
    flushTlbRangeGlobal c (p2alignDown addr pageSize) (p2alignUp addr pageSize)

/-- `unmap_phys_pg_io`. -/
def unmapPhysPgIoGlobal (addr : ℕ) : Machine → Machine :=
  changeThen (unmapPhysPgIoNoflush · addr)
    (flushTlbRangeGlobal c (p2alignDown addr pageSize) (p2alignUp addr pageSize))

end Routines

/-- A call of a routine. -/
inductive Call where
  | mapPfnLocal (pfn : BitVec 64)
  | unmapPfnLocal (addr : BitVec 64)
  | remapPfnLocal (addr : BitVec 64) (pfn : BitVec 32)
  | mapPfnGlobal (pfn : BitVec 64)
  | unmapPfnGlobal (addr : BitVec 64)
  | remapPfnGlobal (addr : BitVec 64) (pfn : BitVec 32)
  | mapPhysPgLocal (phys : BitVec 64)
  | unmapPhysPgLocal (addr : BitVec 64)
  | mapPhysPgGlobal (phys : BitVec 64)
  | unmapPhysPgGlobal (addr : BitVec 64)
  | mapPfnIoLocal (pfn : BitVec 64)
  | unmapPfnIoLocal (addr : BitVec 64)
  | mapPfnIoGlobal (pfn : BitVec 64)
  | unmapPfnIoGlobal (addr : BitVec 64)
  | mapPhysPgIoLocal (phys : BitVec 64)
  | unmapPhysPgIoLocal (addr : BitVec 64)
  | mapPhysPgIoGlobal (phys : BitVec 64)
  | unmapPhysPgIoGlobal (addr : BitVec 64)

namespace Call

variable (c : Cpus) (w : Window)

def run (m : Machine) : Call → Machine
  | .mapPfnLocal pfn => (Paging.mapPfnLocal c w pfn.toNat m).2
  | .unmapPfnLocal addr => Paging.unmapPfnLocal c addr.toNat m
  | .remapPfnLocal addr pfn => Paging.remapPfnLocal c addr.toNat pfn.toNat m
  | .mapPfnGlobal pfn => (Paging.mapPfnGlobal c w pfn.toNat m).2
  | .unmapPfnGlobal addr => Paging.unmapPfnGlobal c addr.toNat m
  | .remapPfnGlobal addr pfn => Paging.remapPfnGlobal c addr.toNat pfn.toNat m
  | .mapPhysPgLocal phys => (Paging.mapPhysPgLocal c w phys.toNat m).2
  | .unmapPhysPgLocal addr => Paging.unmapPhysPgLocal c addr.toNat m
  | .mapPhysPgGlobal phys => (Paging.mapPhysPgGlobal c w phys.toNat m).2
  | .unmapPhysPgGlobal addr => Paging.unmapPhysPgGlobal c addr.toNat m
  | .mapPfnIoLocal pfn => (Paging.mapPfnIoLocal c w pfn.toNat m).2
  | .unmapPfnIoLocal addr => Paging.unmapPfnIoLocal c addr.toNat m
  | .mapPfnIoGlobal pfn => (Paging.mapPfnIoGlobal c w pfn.toNat m).2
  | .unmapPfnIoGlobal addr => Paging.unmapPfnIoGlobal c addr.toNat m
  | .mapPhysPgIoLocal phys => (Paging.mapPhysPgIoLocal c w phys.toNat m).2
  | .unmapPhysPgIoLocal addr => Paging.unmapPhysPgIoLocal c addr.toNat m
  | .mapPhysPgIoGlobal phys => (Paging.mapPhysPgIoGlobal c w phys.toNat m).2
  | .unmapPhysPgIoGlobal addr => Paging.unmapPhysPgIoGlobal c addr.toNat m

/-- The processors the routine is to flush on. -/
def cpus : Call → List ℕ
  | .mapPfnGlobal _ | .unmapPfnGlobal _ | .remapPfnGlobal _ _ | .mapPhysPgGlobal _
  | .unmapPhysPgGlobal _ | .mapPfnIoGlobal _ | .unmapPfnIoGlobal _ | .mapPhysPgIoGlobal _
  | .unmapPhysPgIoGlobal _ => c.this :: c.others
  | _ => [c.this]

end Call

/-- A mapper before a call, with nothing in the logs. -/
def Machine.start (m : Mapper) : Machine where
  mapper := { m with partition := { m.partition with written := [] } }
  flushed _ := []

/-- The pages of the slots are among the pages of the addresses. -/
def Covered (w : Window) (slots addrs : List ℕ) : Prop :=
  ∀ slot ∈ slots, ∃ addr ∈ addrs, addr / pageSize = w.page slot / pageSize

instance (w : Window) (slots addrs : List ℕ) : Decidable (Covered w slots addrs) := by
  unfold Covered
  infer_instance

/-- Each of the processors has flushed every page whose entry was written. -/
def Machine.Flushed (w : Window) (cpus : List ℕ) (m : Machine) : Prop :=
  ∀ cpu ∈ cpus, Covered w m.mapper.partition.written (m.flushed cpu)

/-- Every page whose entry the routine writes is flushed on every processor it is to flush on. -/
def Call.Covers (c : Cpus) (w : Window) (m : Mapper) (call : Call) : Prop :=
  (call.run c w (.start m)).Flushed w (call.cpus c)

/-- The address lies in the window. -/
def Window.Holds (w : Window) (addr : ℕ) : Prop := w.addr ≤ addr ∧ addr < w.addr + 512 * pageSize

/-- When a routine flushes all it has to. -/
def Call.Good (w : Window) (m : Mapper) : Call → Prop
  | .mapPfnLocal _ | .mapPfnGlobal _ | .mapPhysPgGlobal _ | .mapPfnIoGlobal _
  | .mapPhysPgIoLocal _ | .mapPhysPgIoGlobal _ => True
  | .unmapPfnLocal addr | .remapPfnLocal addr _ | .unmapPfnGlobal addr | .remapPfnGlobal addr _
  | .unmapPfnIoLocal addr | .unmapPfnIoGlobal addr => w.Holds addr.toNat
  | .unmapPhysPgGlobal addr | .unmapPhysPgIoLocal addr | .unmapPhysPgIoGlobal addr =>
      w.Holds addr.toNat ∧ (addr.toNat % pageSize ≠ 0 → w.Holds (addr.toNat + pageSize))
  -- The second page of two is not flushed.
  | .mapPhysPgLocal phys => phys.toNat % pageSize = 0 ∨ m.bmp.ffs2 = none
  | .unmapPhysPgLocal addr => w.Holds addr.toNat ∧ addr.toNat % pageSize = 0
  -- What is flushed is the physical address.
  | .mapPfnIoLocal pfn => ∀ idx, m.bmp.ffs = some idx →
      pfn.toNat * pageSize % 2 ^ 64 / pageSize = w.page idx / pageSize

/-! ## What a flush passes -/

theorem flushLoop_append (alignedEnd : ℕ) (fuel i : ℕ) (log : List ℕ) :
    flushLoop alignedEnd fuel i log = log ++ flushLoop alignedEnd fuel i [] := by
  induction fuel generalizing i log with
  | zero => simp [flushLoop]
  | succ fuel ih =>
      unfold flushLoop
      split_ifs with done
      · simp
      · rw [ih _ (flushThisTlbPage i log), ih _ (flushThisTlbPage i [])]
        simp [flushThisTlbPage]

/-- The loop passes the pages from the first up to the last, which it leaves out. -/
theorem flushLoop_eq {alignedEnd : ℕ} (bound : alignedEnd < 2 ^ 64) {n fuel i : ℕ}
    (enough : n ≤ fuel) (bound' : i < 2 ^ 64)
    (apart : (alignedEnd + (2 ^ 64 - i)) % 2 ^ 64 = n * pageSize) :
    flushLoop alignedEnd fuel i [] = (List.range n).map fun k => (i + k * pageSize) % 2 ^ 64 := by
  induction n generalizing fuel i with
  | zero =>
      have same : i = alignedEnd := by omega
      cases fuel with
      | zero => rfl
      | succ fuel =>
          unfold flushLoop
          rw [if_pos same]
          rfl
  | succ n ih =>
      obtain ⟨fuel, rfl⟩ : ∃ f, fuel = f + 1 := ⟨fuel - 1, by omega⟩
      have different : i ≠ alignedEnd := by
        simp only [pageSize] at apart
        omega
      have closer : (alignedEnd + (2 ^ 64 - (i + pageSize) % 2 ^ 64)) % 2 ^ 64 = n * pageSize := by
        simp only [pageSize] at apart ⊢
        omega
      have rest := ih (show n ≤ fuel by omega) (Nat.mod_lt _ (by decide)) closer
      unfold flushLoop
      rw [if_neg different, flushLoop_append, rest, List.range_succ_eq_map, List.map_cons,
        List.map_map, Nat.zero_mul, Nat.add_zero, Nat.mod_eq_of_lt bound']
      refine congrArg (i :: ·) (List.map_congr_left fun k _ => ?_)
      rw [Function.comp_apply, Nat.mod_add_mod, Nat.succ_mul, Nat.add_assoc, Nat.add_comm pageSize]

theorem flushThisTlbRange_append (first last : ℕ) (log : List ℕ) :
    flushThisTlbRange first last log = log ++ flushThisTlbRange first last [] := by
  simp only [flushThisTlbRange, flushThisTlbPage]
  rw [flushLoop_append _ _ _ log, List.append_assoc]

theorem range_same {first last : ℕ} (bound : first < 2 ^ 64)
    (same : p2alignDown last pageSize = p2alignDown first pageSize) :
    flushThisTlbRange first last [] = [p2alignDown first pageSize] := by
  have lower := Nat.lt_of_le_of_lt (p2alignDown_le first pageSize) bound
  simp only [flushThisTlbRange, flushThisTlbPage, same]
  rw [flushLoop_eq lower (Nat.zero_le _) lower (by omega)]
  rfl

theorem range_next {first last : ℕ} (bound : first < 2 ^ 64)
    (next : p2alignDown last pageSize = (p2alignDown first pageSize + pageSize) % 2 ^ 64) :
    flushThisTlbRange first last [] = [p2alignDown first pageSize, p2alignDown last pageSize] := by
  have lower := Nat.lt_of_le_of_lt (p2alignDown_le first pageSize) bound
  have upper : p2alignDown last pageSize < 2 ^ 64 := next ▸ Nat.mod_lt _ (by decide)
  have apart : (p2alignDown last pageSize + (2 ^ 64 - p2alignDown first pageSize)) % 2 ^ 64 =
      1 * pageSize := by
    rw [next]
    generalize p2alignDown first pageSize = start at lower
    simp only [pageSize]
    omega
  simp only [flushThisTlbRange, flushThisTlbPage]
  rw [flushLoop_eq upper (show 1 ≤ 2 ^ 43 by decide) lower apart]
  simp only [List.range_one, List.map_cons, List.map_nil, Nat.zero_mul, Nat.add_zero,
    Nat.mod_eq_of_lt lower, List.singleton_append]

/-- The page of an address, and the one above it. -/
def pair (addr : ℕ) : List ℕ :=
  [p2alignDown addr pageSize, (p2alignDown addr pageSize + pageSize) % 2 ^ 64]

theorem p2alignDown_twice (addr : ℕ) :
    p2alignDown (p2alignDown addr pageSize) pageSize = p2alignDown addr pageSize := by
  simp only [p2alignDown, pageSize]
  omega

theorem range_pair {addr last : ℕ} (bound : addr < 2 ^ 64)
    (next : p2alignDown last pageSize = (p2alignDown addr pageSize + pageSize) % 2 ^ 64) :
    flushThisTlbRange (p2alignDown addr pageSize) last [] = pair addr := by
  have lower := Nat.lt_of_le_of_lt (p2alignDown_le addr pageSize) bound
  rw [range_next lower (by rw [p2alignDown_twice]; exact next), p2alignDown_twice, next]
  rfl

theorem range_down {addr : ℕ} (bound : addr < 2 ^ 64) :
    flushThisTlbRange (p2alignDown addr pageSize)
      (p2alignDown ((addr + pageSize) % 2 ^ 64) pageSize) [] = pair addr := by
  apply range_pair bound
  rw [p2alignDown_twice]
  simp only [p2alignDown, pageSize]
  omega

theorem range_up {addr : ℕ} (bound : addr < 2 ^ 64) :
    flushThisTlbRange (p2alignDown addr pageSize) (p2alignUp addr pageSize) [] =
      if addr % pageSize = 0 then [addr] else pair addr := by
  split_ifs with aligned
  · have whole : p2alignDown addr pageSize = addr := by
      simp only [p2alignDown, pageSize] at aligned ⊢
      omega
    rw [whole, range_same bound, whole]
    simp only [p2alignUp, p2alignDown, pageSize] at aligned ⊢
    omega
  · apply range_pair bound
    simp only [p2alignUp, p2alignDown, pageSize] at aligned ⊢
    omega

/-- A flush passes the addresses on each of the processors and leaves the mapper alone. -/
structure Passes (flush : Machine → Machine) (cpus addrs : List ℕ) : Prop where
  mapper : ∀ m, (flush m).mapper = m.mapper
  log : ∀ m, ∀ cpu ∈ cpus, ∀ a, a ∈ (flush m).flushed cpu ↔ a ∈ m.flushed cpu ∨ a ∈ addrs

section Passes

variable {c : Cpus} {flush : List ℕ → List ℕ} {addrs : List ℕ}

theorem mem_on (appends : ∀ log, flush log = log ++ addrs) (m : Machine) (cpu cpu' a : ℕ) :
    a ∈ (m.on cpu flush).flushed cpu' ↔ a ∈ m.flushed cpu' ∨ cpu' = cpu ∧ a ∈ addrs := by
  unfold Machine.on
  by_cases same : cpu' = cpu
  · subst same
    simp [appends]
  · simp [same]

theorem passes_local (appends : ∀ log, flush log = log ++ addrs) :
    Passes (fun m => m.on c.this flush) [c.this] addrs where
  mapper _ := rfl
  log m cpu here a := by
    rw [mem_on appends]
    simp [List.mem_singleton.mp here]

theorem mem_others (appends : ∀ log, flush log = log ++ addrs) (cpus : List ℕ) (m : Machine)
    (cpu a : ℕ) : a ∈ (cpus.foldl (fun m cpu => m.on cpu flush) m).flushed cpu ↔
      a ∈ m.flushed cpu ∨ cpu ∈ cpus ∧ a ∈ addrs := by
  induction cpus generalizing m with
  | nil => simp
  | cons first cpus ih =>
      rw [List.foldl_cons, ih, mem_on appends, List.mem_cons]
      tauto

theorem mapper_others (flush : List ℕ → List ℕ) (cpus : List ℕ) (m : Machine) :
    (cpus.foldl (fun m cpu => m.on cpu flush) m).mapper = m.mapper := by
  induction cpus generalizing m with
  | nil => rfl
  | cons first cpus ih => exact ih (m.on first flush)

/-- A global flush reaches every processor that is active. -/
theorem passes_global (appends : ∀ log, flush log = log ++ addrs) :
    Passes (fun m =>
      let m := m.on c.this flush
      if c.multicoreInitialized then ipiRunFuncOthers c flush m else m)
      (c.this :: c.others) addrs where
  mapper m := by
    dsimp only
    split_ifs
    · exact mapper_others flush c.others _
    · rfl
  log m cpu here a := by
    dsimp only
    split_ifs with multicore
    · unfold ipiRunFuncOthers
      rw [mem_others appends, mem_on appends]
      rw [List.mem_cons] at here
      tauto
    · have alone := c.alone (Bool.eq_false_iff.mpr multicore)
      rw [alone, List.mem_singleton] at here
      rw [mem_on appends]
      simp [here]

theorem passes_pageLocal (c : Cpus) (addr : ℕ) :
    Passes (flushTlbPageLocal c addr) [c.this] [addr] :=
  passes_local fun _ => rfl

theorem passes_pageGlobal (c : Cpus) (addr : ℕ) :
    Passes (flushTlbPageGlobal c addr) (c.this :: c.others) [addr] :=
  passes_global fun _ => rfl

theorem passes_rangeLocal (c : Cpus) (first last : ℕ) :
    Passes (flushTlbRangeLocal c first last) [c.this] (flushThisTlbRange first last []) :=
  passes_local (flushThisTlbRange_append first last)

theorem passes_rangeGlobal (c : Cpus) (first last : ℕ) : Passes (flushTlbRangeGlobal c first last)
    (c.this :: c.others) (flushThisTlbRange first last []) :=
  passes_global (flushThisTlbRange_append first last)

end Passes

/-! ## What a routine writes, and what it flushes -/

section Covers

variable {w : Window} {m : Mapper} {cpus : List ℕ}

theorem covered_congr {slots addrs addrs' : List ℕ} (same : ∀ a, a ∈ addrs ↔ a ∈ addrs') :
    Covered w slots addrs ↔ Covered w slots addrs' := by
  simp only [Covered, same]

theorem flushed_changeThen {change : Mapper → Mapper} {flush : Machine → Machine}
    {addrs : List ℕ} (passes : Passes flush cpus addrs) (some : cpus ≠ []) :
    (changeThen change flush (.start m)).Flushed w cpus ↔
      Covered w (change (Machine.start m).mapper).partition.written addrs := by
  have each : ∀ cpu ∈ cpus, (Covered w (changeThen change flush (.start m)).mapper.partition.written
        ((changeThen change flush (.start m)).flushed cpu) ↔
      Covered w (change (Machine.start m).mapper).partition.written addrs) := by
    intro cpu here
    unfold changeThen
    rw [passes.mapper]
    apply covered_congr
    intro a
    rw [passes.log _ cpu here]
    simp [Machine.start]
  obtain ⟨cpu, here⟩ := List.exists_mem_of_ne_nil cpus some
  exact ⟨fun all => (each cpu here).mp (all cpu here), fun one cpu here => (each cpu here).mpr one⟩

theorem flushed_mapThen {map : Mapper → ℕ × Mapper} {flush : ℕ → Machine → Machine}
    {addrs : ℕ → List ℕ} (passes : ∀ addr, Passes (flush addr) cpus (addrs addr))
    (some : cpus ≠ []) (null : (map (Machine.start m).mapper).1 = 0 →
      (map (Machine.start m).mapper).2.partition.written = []) :
    (mapThen map flush (.start m)).2.Flushed w cpus ↔
      Covered w (map (Machine.start m).mapper).2.partition.written
        (addrs (map (Machine.start m).mapper).1) := by
  by_cases failed : (map (Machine.start m).mapper).1 = 0
  · have nothing : ∀ addrs, Covered w (map (Machine.start m).mapper).2.partition.written addrs := by
      intro addrs slot here
      rw [null failed] at here
      cases here
    refine iff_of_true (fun cpu _ => ?_) (nothing _)
    simp only [mapThen, failed, ne_eq, not_true_eq_false, ↓reduceIte]
    exact nothing _
  · have mapped : (mapThen map flush (.start m)).2 =
        changeThen (fun m => (map m).2) (flush (map (Machine.start m).mapper).1) (.start m) := by
      simp only [mapThen, changeThen, ne_eq, failed, not_false_eq_true, ↓reduceIte]
    rw [mapped]
    exact flushed_changeThen (passes _) some

/-! ## Which pages these are -/

theorem page_div {slot : ℕ} : w.page slot / pageSize = w.addr / 2 ^ 30 * 512 + slot := by
  have boundary := w.boundary
  simp only [Window.page, pageSize]
  omega

/-- An address is in the page of its slot when it lies in the window. -/
theorem covered_index (addr : ℕ) : Covered w [pdIndexOf addr] [addr] ↔ w.Holds addr := by
  have boundary := w.boundary
  simp only [Covered, List.mem_singleton, forall_eq, exists_eq_left, page_div, Window.Holds,
    pdIndexOf, pageSize]
  omega

/-- The two pages from an address, with their slots. -/
theorem covered_pair (addr : ℕ) (bound : addr < 2 ^ 64) :
    Covered w [pdIndexOf (p2alignDown addr pageSize),
        pdIndexOf ((p2alignDown addr pageSize + pageSize) % 2 ^ 64)] (pair addr) ↔
      w.Holds addr ∧ w.Holds (addr + pageSize) := by
  have boundary := w.boundary
  have fits := w.fits
  simp only [Covered, pair, List.mem_cons, List.not_mem_nil, or_false, forall_eq_or_imp, forall_eq,
    exists_eq_or_imp, exists_eq_left, page_div, Window.Holds, pdIndexOf, p2alignDown, pageSize] at *
  omega

/-- One page is not the pages of two slots. -/
theorem not_covered_two {slot slot' : ℕ} (distinct : slot ≠ slot') (addr : ℕ) :
    ¬ Covered w [slot, slot'] [addr] := by
  simp only [Covered, List.mem_cons, List.not_mem_nil, or_false, forall_eq_or_imp, forall_eq,
    exists_eq_left, page_div]
  omega

/-! ## The shapes of the routines -/

variable {kind : Kind} {flush : Machine → Machine} {flushAt : ℕ → Machine → Machine}
  {addrs : ℕ → List ℕ}

theorem covered_self {slot : ℕ} {addrs : List ℕ} (here : w.page slot ∈ addrs) :
    Covered w [slot] addrs := by
  intro slot' mine
  rw [List.mem_singleton.mp mine]
  exact ⟨_, here, rfl⟩

/-- What is mapped is where a search finds a slot: the entries from there are written, or none. -/
theorem flushed_search {map : Mapper → ℕ × Mapper} {found : Option ℕ} {slots : ℕ → List ℕ}
    {place : ℕ → ℕ} (passes : ∀ addr, Passes (flushAt addr) cpus (addrs addr)) (some : cpus ≠ [])
    (failed : found = none → map (Machine.start m).mapper = (0, (Machine.start m).mapper))
    (mapped : ∀ idx, found = .some idx → place idx ≠ 0 ∧
      (map (Machine.start m).mapper).1 = place idx ∧
      (map (Machine.start m).mapper).2.partition.written = slots idx) :
    (mapThen map flushAt (.start m)).2.Flushed w cpus ↔
      ∀ idx, found = .some idx → Covered w (slots idx) (addrs (place idx)) := by
  cases found with
  | none =>
      rw [flushed_mapThen passes some (by rw [failed rfl]; exact fun _ => rfl), failed rfl]
      exact iff_of_true (fun _ here => by cases here) (fun _ absent => by cases absent)
  | some idx =>
      obtain ⟨pos, returned, written⟩ := mapped idx rfl
      rw [flushed_mapThen passes some fun null => absurd (returned.symm.trans null) pos, returned,
        written]
      constructor
      · rintro covered _ ⟨⟩
        exact covered
      · exact fun covered => covered idx rfl

/-- A frame is mapped: one entry is written, or none. -/
theorem flushed_mapPfn (passes : ∀ addr, Passes (flushAt addr) cpus (addrs addr)) (some : cpus ≠ [])
    (pfn : ℕ) : (mapThen (mapPfn kind w · pfn) flushAt (.start m)).2.Flushed w cpus ↔
      ∀ idx, m.bmp.ffs = .some idx → Covered w [idx] (addrs (w.page idx)) := by
  refine flushed_search passes some
    (fun full => mapPfn_none (m := (Machine.start m).mapper) full pfn) fun idx found => ?_
  rw [mapPfn_some (m := (Machine.start m).mapper) found]
  exact ⟨page_ne_zero idx, rfl, rfl⟩

/-- A page that begins inside a frame is mapped: two entries are written, or none. -/
theorem flushed_mapPhysPg (passes : ∀ addr, Passes (flushAt addr) cpus (addrs addr))
    (some : cpus ≠ []) {phys : ℕ} (split : phys % pageSize ≠ 0) :
    (mapThen (mapPhysPg kind w · phys) flushAt (.start m)).2.Flushed w cpus ↔
      ∀ idx, m.bmp.ffs2 = .some idx →
        Covered w [idx, idx + 1] (addrs (w.page idx + phys % pageSize)) := by
  refine flushed_search passes some
    (fun full => mapPhysPg_none (m := (Machine.start m).mapper) split full) fun idx found => ?_
  rw [mapPhysPg_some (m := (Machine.start m).mapper) split found]
  exact ⟨fun null => page_ne_zero idx (Nat.eq_zero_of_add_eq_zero_right null), rfl, rfl⟩

/-- A page that begins with a frame is mapped as the frame. -/
theorem mapThen_aligned {phys : ℕ} (aligned : phys % pageSize = 0) (n : Machine) :
    mapThen (mapPhysPg kind w · phys) flushAt n =
      mapThen (mapPfn kind w · (phys / pageSize % 2 ^ 32)) flushAt n := by
  simp only [mapThen, mapPhysPg_aligned aligned]

/-- The pages of a mapped page of memory are flushed where a flush from its pointer passes its
page, and the next for a page of two slots. -/
theorem flushed_mapPhysPg_of (passes : ∀ addr, Passes (flushAt addr) cpus (addrs addr))
    (some : cpus ≠ []) (phys : ℕ)
    (one : ∀ idx < 512, Covered w [idx] (addrs (w.page idx)))
    (two : ∀ idx, idx + 1 < 512 → ∀ offset < pageSize, offset ≠ 0 →
      Covered w [idx, idx + 1] (addrs (w.page idx + offset))) :
    (mapThen (mapPhysPg kind w · phys) flushAt (.start m)).2.Flushed w cpus := by
  by_cases split : phys % pageSize = 0
  · rw [mapThen_aligned split]
    refine (flushed_mapPfn passes some _).mpr fun idx found => one idx ?_
    exact Bmp512.test_lt (Bmp512.ffs_some found)
  · refine (flushed_mapPhysPg passes some split).mpr fun idx found => ?_
    exact two idx (Bmp512.test_lt (Bmp512.ffs2_some found).2) _ (pageOffset_lt phys) split

theorem covered_two {idx offset : ℕ} (slot : idx + 1 < 512) (inside : offset < pageSize) :
    Covered w [idx, idx + 1] (pair (w.page idx + offset)) := by
  have next := Nat.mod_eq_of_lt (page_lt (w := w) slot)
  unfold pair
  rw [page_add_down idx inside, page_succ, next]
  intro slot' here
  rcases List.mem_cons.mp here with rfl | here
  · exact ⟨_, List.mem_cons_self, rfl⟩
  · rw [List.mem_singleton.mp here]
    exact ⟨_, List.mem_cons_of_mem _ List.mem_cons_self, rfl⟩

theorem page_offset_lt {idx offset : ℕ} (slot : idx < 512) (inside : offset < pageSize) :
    w.page idx + offset < 2 ^ 64 := by
  have fits := w.fits
  simp only [Window.page, pageSize] at *
  omega

theorem covered_one {idx : ℕ} : Covered w [idx] (pair (w.page idx)) := by
  have base := page_add_down (w := w) idx (show 0 < pageSize by decide)
  apply covered_self
  unfold pair
  rw [← base, Nat.add_zero, p2alignDown_twice]
  exact List.mem_cons_self

/-- A flush from the page of the pointer to the next page. -/
theorem flushed_down {flush : ℕ → ℕ → Machine → Machine}
    (passes : ∀ first last, Passes (flush first last) cpus (flushThisTlbRange first last []))
    (some : cpus ≠ []) (phys : ℕ) :
    (mapThen (mapPhysPg kind w · phys) (fun addr => flush (p2alignDown addr pageSize)
      (p2alignDown ((addr + pageSize) % 2 ^ 64) pageSize)) (.start m)).2.Flushed w cpus := by
  refine flushed_mapPhysPg_of (fun addr => passes _ _) some phys (fun idx slot => ?_) ?_
  · rw [range_down (page_lt slot)]
    exact covered_one
  · intro idx slot offset inside _
    rw [range_down (page_offset_lt (Nat.lt_of_succ_lt slot) inside)]
    exact covered_two slot inside

/-- A flush from the page of the pointer to the last page. -/
theorem flushed_up {flush : ℕ → ℕ → Machine → Machine}
    (passes : ∀ first last, Passes (flush first last) cpus (flushThisTlbRange first last []))
    (some : cpus ≠ []) (phys : ℕ) :
    (mapThen (mapPhysPg kind w · phys) (fun addr => flush (p2alignDown addr pageSize)
      (p2alignUp addr pageSize)) (.start m)).2.Flushed w cpus := by
  refine flushed_mapPhysPg_of (fun addr => passes _ _) some phys (fun idx slot => ?_) ?_
  · have aligned := page_add_mod (w := w) idx (show 0 < pageSize by decide)
    rw [Nat.add_zero] at aligned
    rw [range_up (page_lt slot), if_pos aligned]
    exact covered_self List.mem_cons_self
  · intro idx slot offset inside split
    rw [range_up (page_offset_lt (Nat.lt_of_succ_lt slot) inside), page_add_mod idx inside, if_neg split]
    exact covered_two slot inside

/-- An unmapping or remapping of one slot. -/
theorem flushed_one {change : Mapper → Mapper} {addr : ℕ} (passes : Passes flush cpus [addr])
    (some : cpus ≠ [])
    (written : (change (Machine.start m).mapper).partition.written = [pdIndexOf addr]) :
    (changeThen change flush (.start m)).Flushed w cpus ↔ w.Holds addr := by
  rw [flushed_changeThen passes some, written]
  exact covered_index addr

theorem unmapPhysPg_written (addr : ℕ) : (unmapPhysPg m addr).partition.written =
    m.partition.written ++ if addr % pageSize = 0 then [pdIndexOf addr] else
      [pdIndexOf (p2alignDown addr pageSize),
        pdIndexOf ((p2alignDown addr pageSize + pageSize) % 2 ^ 64)] := by
  have index : pdIndexOf (p2alignDown addr pageSize) = pdIndexOf addr := by
    simp only [pdIndexOf, p2alignDown, pageSize]
    omega
  by_cases aligned : addr % pageSize = 0
  · simp [unmapPhysPg, unmapPfn, VmaPartition.unmap, VmaPartition.write, aligned, index]
  · simp [unmapPhysPg, unmapPfn, VmaPartition.unmap, VmaPartition.write, aligned]

/-- An unmapping of one slot or two, with a flush from the one address to the other. -/
theorem flushed_unmapPhysPg {addr : ℕ} (bound : addr < 2 ^ 64)
    (passes : Passes flush cpus
      (flushThisTlbRange (p2alignDown addr pageSize) (p2alignUp addr pageSize) []))
    (some : cpus ≠ []) : (changeThen (unmapPhysPg · addr) flush (.start m)).Flushed w cpus ↔
      w.Holds addr ∧ (addr % pageSize ≠ 0 → w.Holds (addr + pageSize)) := by
  rw [flushed_changeThen passes some, unmapPhysPg_written, range_up bound]
  change Covered w ([] ++ _) _ ↔ _
  rw [List.nil_append]
  split_ifs with aligned
  · rw [covered_index]
    simp [aligned]
  · rw [covered_pair addr bound]
    simp [aligned]

/-- `map_pfn` flushes also when nothing was mapped. -/
theorem flushed_mapPfnGlobal (c : Cpus) (w : Window) (m : Mapper) (pfn : ℕ) :
    (mapPfnGlobal c w pfn (.start m)).2.Flushed w (c.this :: c.others) := by
  change (changeThen (fun m => (mapPfnNoflush w m pfn).2)
    (flushTlbPageGlobal c (mapPfnNoflush w (Machine.start m).mapper pfn).1) (.start m)).Flushed w _
  rw [flushed_changeThen (passes_pageGlobal c _) (List.cons_ne_nil _ _)]
  unfold mapPfnNoflush
  cases found : m.bmp.ffs with
  | none =>
      rw [mapPfn_none (m := (Machine.start m).mapper) found]
      exact fun _ here => by cases here
  | some idx =>
      rw [mapPfn_some (m := (Machine.start m).mapper) found]
      exact covered_self List.mem_cons_self

/-- One page is flushed: right for a page of one slot only. -/
theorem flushed_mapPhysPgLocal (c : Cpus) (w : Window) (m : Mapper) (phys : ℕ) :
    (mapPhysPgLocal c w phys (.start m)).2.Flushed w [c.this] ↔
      phys % pageSize = 0 ∨ m.bmp.ffs2 = none := by
  have here : [c.this] ≠ [] := List.cons_ne_nil _ _
  unfold mapPhysPgLocal mapPhysPgNoflush
  by_cases split : phys % pageSize = 0
  · rw [mapThen_aligned split, flushed_mapPfn (passes_pageLocal c) here]
    exact iff_of_true (fun idx _ => covered_self List.mem_cons_self) (.inl split)
  · rw [flushed_mapPhysPg (passes_pageLocal c) here split]
    have never : ∀ idx addr, ¬ Covered w [idx, idx + 1] [addr] := fun idx addr =>
      not_covered_two (Nat.ne_of_lt (Nat.lt_succ_self idx)) addr
    cases found : m.bmp.ffs2 with
    | none => exact iff_of_true (fun _ absent => by cases absent) (.inr rfl)
    | some idx =>
        refine iff_of_false (fun covered => never _ _ (covered idx rfl)) ?_
        rintro (aligned | absent)
        · exact split aligned
        · cases absent

theorem flushed_unmapPhysPgLocal (c : Cpus) (w : Window) (m : Mapper) (addr : ℕ) :
    (unmapPhysPgLocal c addr (.start m)).Flushed w [c.this] ↔
      w.Holds addr ∧ addr % pageSize = 0 := by
  unfold unmapPhysPgLocal unmapPhysPgNoflush
  rw [flushed_changeThen (passes_pageLocal c addr) (List.cons_ne_nil _ _), unmapPhysPg_written]
  change Covered w ([] ++ _) _ ↔ _
  rw [List.nil_append]
  split_ifs with aligned
  · rw [covered_index, and_iff_left aligned]
  · refine iff_of_false (not_covered_two ?_ addr) fun good => aligned good.2
    simp only [pdIndexOf, p2alignDown, pageSize]
    omega

/-- `unmap_pfn_io` flushes unless the address is 0, which is not in the window. -/
theorem flushed_unmapPfnIoGlobal (c : Cpus) (w : Window) (m : Mapper) (addr : ℕ) :
    (unmapPfnIoGlobal c addr (.start m)).Flushed w (c.this :: c.others) ↔ w.Holds addr := by
  have all : c.this :: c.others ≠ [] := List.cons_ne_nil _ _
  unfold unmapPfnIoGlobal
  by_cases null : addr = 0
  · subst null
    have nothing : Passes (fun m => if (0 : ℕ) ≠ 0 then flushTlbPageGlobal c 0 m else m)
        (c.this :: c.others) [] := ⟨fun _ => rfl, fun _ _ _ _ => by simp⟩
    have pos := w.pos
    rw [flushed_changeThen nothing all]
    refine iff_of_false (fun covered => ?_) fun holds => ?_
    · obtain ⟨_, absent, _⟩ := covered (pdIndexOf 0) List.mem_cons_self
      cases absent
    · exact Nat.not_le_of_lt pos holds.1
  · simp only [ne_eq, null, not_false_eq_true, ↓reduceIte]
    exact flushed_one (passes_pageGlobal c addr) all rfl

end Covers

/-- **What the mappers flush**: for any processors, window, mapper and arguments, a routine flushes
on its processors every page whose entry it writes exactly when it is good. -/
theorem flush_coverage_iff (c : Cpus) (w : Window) (m : Mapper) (call : Call) :
    call.Covers c w m ↔ call.Good w m := by
  have here : [c.this] ≠ [] := List.cons_ne_nil _ _
  have all : c.this :: c.others ≠ [] := List.cons_ne_nil _ _
  cases call with
  | mapPfnLocal pfn =>
      refine iff_of_true ?_ trivial
      refine (flushed_mapPfn (passes_pageLocal c) here _).mpr fun idx _ => ?_
      exact covered_self List.mem_cons_self
  | unmapPfnLocal addr => exact flushed_one (passes_pageLocal c _) here rfl
  | remapPfnLocal addr pfn => exact flushed_one (passes_pageLocal c _) here rfl
  | mapPfnGlobal pfn => exact iff_of_true (flushed_mapPfnGlobal c w m _) trivial
  | unmapPfnGlobal addr => exact flushed_one (passes_pageGlobal c _) all rfl
  | remapPfnGlobal addr pfn => exact flushed_one (passes_pageGlobal c _) all rfl
  | mapPhysPgLocal phys => exact flushed_mapPhysPgLocal c w m _
  | unmapPhysPgLocal addr => exact flushed_unmapPhysPgLocal c w m _
  | mapPhysPgGlobal phys => exact iff_of_true (flushed_down (passes_rangeGlobal c) all _) trivial
  | unmapPhysPgGlobal addr =>
      exact flushed_unmapPhysPg addr.isLt (passes_rangeGlobal c _ _) all
  | mapPfnIoLocal pfn =>
      refine (flushed_mapPfn (fun _ => passes_pageLocal c _) here _).trans ?_
      simp [Covered, Call.Good]
  | unmapPfnIoLocal addr => exact flushed_one (passes_pageLocal c _) here rfl
  | mapPfnIoGlobal pfn =>
      refine iff_of_true ?_ trivial
      refine (flushed_mapPfn (passes_pageGlobal c) all _).mpr fun idx _ => ?_
      exact covered_self List.mem_cons_self
  | unmapPfnIoGlobal addr => exact flushed_unmapPfnIoGlobal c w m _
  | mapPhysPgIoLocal phys => exact iff_of_true (flushed_up (passes_rangeLocal c) here _) trivial
  | unmapPhysPgIoLocal addr =>
      exact flushed_unmapPhysPg addr.isLt (passes_rangeLocal c _ _) here
  | mapPhysPgIoGlobal phys => exact iff_of_true (flushed_up (passes_rangeGlobal c) all _) trivial
  | unmapPhysPgIoGlobal addr =>
      exact flushed_unmapPhysPg addr.isLt (passes_rangeGlobal c _ _) all

/-- The first processor, alone. -/
def boot : Cpus where
  this := 0
  others := []
  multicoreInitialized := false
  alone _ := rfl

/-- On a fresh mapper: a page that begins inside a frame takes slots 0 and 1, and of their pages the
local routines flush the first, when it is mapped and when it is unmapped; and a frame of a device
takes slot 0, for which another page is flushed. -/
theorem flush_coverage_missed :
    ¬ (Call.mapPhysPgLocal 4096#64).Covers boot (vmaFillDescriptor 0 (by decide)) initMapper ∧
    ¬ (Call.unmapPhysPgLocal (BitVec.ofNat 64 (2 ^ 39 + 4096))).Covers boot
      (vmaFillDescriptor 0 (by decide)) initMapper ∧
    ¬ (Call.mapPfnIoLocal 5#64).Covers boot (vmaFillDescriptor 1 (by decide)) initMapper := by
  unfold Call.Covers Machine.Flushed
  decide

end Twan.Kernel.Paging
