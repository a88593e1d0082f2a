/-
# Twan.Kernel.VmaParser -- the windows of the registry and the heap in one of them

`src/initcalls/early/mem/vma_parser.c` lays the partition tables of the registry one after another
into the address space above the first PML4 entry: each table of 512 huge pages is linked as the
next 1 GiB, and the descriptor of the ticket says where its first one begins.  `walk` is what the
processor does with the tables.

* `window_walks_iff`: a window leads through to its tables, page by page, exactly when it does not
  reach over the hole in the canonical addresses; nothing else above the first PML4 entry is mapped,
  and below it nothing changes;
* `heap_backed_iff`: `rtalloc_tlsf_init` of `src/initcalls/late/mem/rtalloc_tlsf.c` numbers the pages
  of all partitions through where a slot of one partition is meant, and does not look at what
  `pma_alloc_pages` answers.  The heap is backed page by page, and no other table is written, exactly
  when there is at most one partition and its first page was allocated.
-/
import Twan.Kernel.Paging

namespace Twan.Kernel.VmaParser

set_option autoImplicit false
set_option linter.unusedSectionVars false

open Twan.Kernel

/-- The page tables: by frame and index, the frame that a present entry leads to.  Above the page
directories no entry is huge.  `written` is the entries of page directories that were written. -/
structure Tables where
  pml4 : ℕ → Option ℕ
  pdpt : ℕ → ℕ → Option ℕ
  pd : ℕ → ℕ → Paging.Pde
  written : List (ℕ × ℕ)

/-! ## The processor -/

def Canonical (va : ℕ) : Prop := va < 2 ^ 47 ∨ 2 ^ 64 - 2 ^ 47 ≤ va ∧ va < 2 ^ 64

instance decidableCanonical (va : ℕ) : Decidable (Canonical va) :=
  inferInstanceAs (Decidable (va < 2 ^ 47 ∨ 2 ^ 64 - 2 ^ 47 ≤ va ∧ va < 2 ^ 64))

/-- The page directory and the index to which an address leads. -/
def walk (t : Tables) (va : ℕ) : Option (ℕ × ℕ) :=
  if Canonical va then
    (t.pml4 (va / 2 ^ 39 % 512)).bind fun pdpt =>
      (t.pdpt pdpt (va / 2 ^ 30 % 512)).map fun pd => (pd, va / 2 ^ 21 % 512)
  else none

def translate (t : Tables) (va : ℕ) : Option ℕ :=
  (walk t va).bind fun (pd, idx) =>
    let pde := t.pd pd idx
    if pde.present && pde.ps then some (pde.pfn.toNat * 2 ^ 21 + va % 2 ^ 21) else none

/-! ## The parser -/

/-- `struct vma_partition_ticket`; `tableFrame` is `table_phys >> 12`. -/
structure Ticket where
  tableFrame : ℕ
  count : ℕ

/-- `struct vma_descriptor`. -/
structure Descriptor where
  addr : ℕ
  size : ℕ
  numPartitionsValid : ℕ
  deriving DecidableEq

/-- A descriptor as it is in the image. -/
def Descriptor.zero : Descriptor := ⟨0, 0, 0⟩

/-- `vma_fill_descriptor`, with its 32-bit product. -/
def vmaFillDescriptor (baseIdx idx : ℕ) : Descriptor :=
  let tableIdx := baseIdx / 512
  let pdptIdx := baseIdx % 512
  let pml4Idx := tableIdx + 1
  let numPartitions := idx - baseIdx
  { addr := (if 256 ≤ pml4Idx then 65535 else 0) * 2 ^ 48 + pml4Idx % 512 * 2 ^ 39 + pdptIdx * 2 ^ 30
    size := numPartitions * 2 ^ 21 % 2 ^ 32
    numPartitionsValid := numPartitions }

section Parser

variable (intm numPdpts : ℕ)

/-- `intm_tables[idx / 512].pdptes[idx % 512]`, of which `intm` is the first frame. -/
def Tables.link (t : Tables) (idx frame : ℕ) : Tables :=
  { t with
    pdpt := Function.update t.pdpt (intm + idx / 512)
      (Function.update (t.pdpt (intm + idx / 512)) (idx % 512) (some frame)) }

/-- The first loop of `vma_parser_init`. -/
def linkPdpts (t : Tables) : Tables :=
  (List.range numPdpts).foldl
    (fun t i => { t with pml4 := Function.update t.pml4 (1 + i) (some (intm + i)) }) t

/-- The inner loop: the tables, `intm_idx`, `j`, and whether there was no room. -/
def linkTicket (ticket : Ticket) : (left j intmIdx : ℕ) → Tables → Tables × ℕ × ℕ × Bool
  | 0, j, intmIdx, t => (t, intmIdx, j, false)
  | left + 1, j, intmIdx, t =>
      if intmIdx = numPdpts * 512 then (t, intmIdx, j, true)
      else linkTicket ticket left (j + 1) (intmIdx + 1) (t.link intm intmIdx (ticket.tableFrame + j))

/-- The loop over the registry, with the descriptors of the tickets. -/
def parseTickets : List Ticket → ℕ → Tables → Tables × List Descriptor
  | [], _, t => (t, [])
  | ticket :: rest, baseIdx, t =>
      match linkTicket intm numPdpts ticket ticket.count 0 baseIdx t with
      | (t, intmIdx, j, true) =>
          (t, (if j ≠ 0 then vmaFillDescriptor baseIdx intmIdx else .zero) ::
            rest.map fun _ => .zero)
      | (t, intmIdx, _, false) =>
          let (t, descriptors) := parseTickets rest intmIdx t
          (t, vmaFillDescriptor baseIdx intmIdx :: descriptors)

def vmaParserInit (tickets : List Ticket) (t : Tables) : Tables × List Descriptor :=
  parseTickets intm numPdpts tickets 0 (linkPdpts intm numPdpts t)

end Parser

/-! ## The heap -/

section Heap

variable (heapSize : ℕ) (pmaAllocPages : ℕ → ℕ)

/-- `vma_partition_remap(partition, idx, pfn)` of the partition in `frame`.  The entries of the next
partition follow those of this one. -/
def Tables.remap (t : Tables) (frame idx pfn : ℕ) : Tables :=
  { t with
    pd := Function.update t.pd (frame + idx / 512)
      (Function.update (t.pd (frame + idx / 512)) (idx % 512) (Paging.Kind.normal.entry pfn))
    written := t.written ++ [(frame + idx / 512, idx % 512)] }

/-- The inner loop of `rtalloc_tlsf_init`: the tables, `num_pages`, and whether it went to `done`.
The `n`-th call of `pma_alloc_pages` answers `pmaAllocPages n`. -/
def fillPartition (frame : ℕ) : (left numPages : ℕ) → Tables → Tables × ℕ × Bool
  | 0, numPages, t => (t, numPages, false)
  | left + 1, numPages, t =>
      if numPages = heapSize / 2 ^ 21 then (t, numPages, true)
      else
        fillPartition frame left (numPages + 1)
          (t.remap frame numPages (pmaAllocPages numPages / 2 ^ 21))

def fillPartitions (tableFrame : ℕ) : (left i numPages : ℕ) → Tables → Tables × ℕ × Bool
  | 0, _, numPages, t => (t, numPages, false)
  | left + 1, i, numPages, t =>
      match fillPartition heapSize pmaAllocPages (tableFrame + i) 512 numPages t with
      | (t, numPages, true) => (t, numPages, true)
      | (t, numPages, false) => fillPartitions tableFrame left (i + 1) numPages t

/-- The ticket of `tlsf_table`. -/
def heapTicket (tableFrame : ℕ) : Ticket := ⟨tableFrame, heapSize / 2 ^ 30⟩

/-- `rtalloc_tlsf_init` up to `__tlsf_init`: the tables, how many pages were taken, and the start and
the size of the heap. -/
def rtallocTlsfInit (tableFrame : ℕ) (descriptor : Descriptor) (t : Tables) :
    Tables × ℕ × Option (ℕ × ℕ) :=
  if heapSize / 2 ^ 21 = 0 ∨ descriptor.numPartitionsValid = 0 then (t, 0, none)
  else
    let (t, numPages, _) := fillPartitions heapSize pmaAllocPages tableFrame
      descriptor.numPartitionsValid 0 0 t
    (t, numPages, some (descriptor.addr, descriptor.size))

end Heap

/-! ## What is meant -/

/-- The tables of the registry one after another: the frame of the `k`-th. -/
def owner : List Ticket → ℕ → Option ℕ
  | [], _ => none
  | ticket :: rest, k =>
      if k < ticket.count then some (ticket.tableFrame + k) else owner rest (k - ticket.count)

/-- The number of tables in front of a ticket. -/
def baseOf (tickets : List Ticket) (n : ℕ) : ℕ := ((tickets.take n).map Ticket.count).sum

/-- The tables as the boot code leaves them, with the frames of `intm_tables` still 0. -/
structure Fresh (intm numPdpts : ℕ) (t : Tables) : Prop where
  pml4 : ∀ i, 1 ≤ i → t.pml4 i = none
  pdpt : ∀ i < numPdpts, ∀ j, t.pdpt (intm + i) j = none
  image : ∀ pdpt, t.pml4 0 = some pdpt → pdpt < intm ∨ intm + numPdpts ≤ pdpt

/-- What is linked for the `k`-th GiB of the windows. -/
def Tables.linked (intm : ℕ) (t : Tables) (k : ℕ) : Option ℕ := t.pdpt (intm + k / 512) (k % 512)

section Proofs

variable {intm numPdpts : ℕ} {t u : Tables}

/-! ## The loops -/

/-- Only frames of `intm_tables` differ. -/
structure Extends (intm numPdpts : ℕ) (t u : Tables) : Prop where
  pml4 : u.pml4 = t.pml4
  pd : u.pd = t.pd
  written : u.written = t.written
  pdpt : ∀ pdpt, (pdpt < intm ∨ intm + numPdpts ≤ pdpt) → u.pdpt pdpt = t.pdpt pdpt

theorem Extends.refl (t : Tables) : Extends intm numPdpts t t := ⟨rfl, rfl, rfl, fun _ _ => rfl⟩

theorem Extends.trans {v : Tables} (first : Extends intm numPdpts t u)
    (second : Extends intm numPdpts u v) : Extends intm numPdpts t v where
  pml4 := second.pml4.trans first.pml4
  pd := second.pd.trans first.pd
  written := second.written.trans first.written
  pdpt pdpt outside := (second.pdpt pdpt outside).trans (first.pdpt pdpt outside)

theorem link_extends {idx : ℕ} (inside : idx < numPdpts * 512) (frame : ℕ) :
    Extends intm numPdpts t (t.link intm idx frame) where
  pml4 := rfl
  pd := rfl
  written := rfl
  pdpt pdpt outside := by
    apply Function.update_of_ne
    omega

theorem link_linked (idx frame k : ℕ) :
    (t.link intm idx frame).linked intm k = if k = idx then some frame else t.linked intm k := by
  unfold Tables.linked Tables.link
  by_cases same : k = idx
  · subst same
    simp
  · rw [if_neg same]
    by_cases table : k / 512 = idx / 512
    · have slot : k % 512 ≠ idx % 512 := by omega
      rw [table]
      simp [slot]
    · have apart : intm + k / 512 ≠ intm + idx / 512 := by omega
      simp [table]

theorem linkTicket_spec (intm : ℕ) (ticket : Ticket) (left j : ℕ) {idx : ℕ} (t : Tables)
    (le : idx ≤ numPdpts * 512) :
    ∃ u, linkTicket intm numPdpts ticket left j idx t =
        (u, idx + min left (numPdpts * 512 - idx), j + min left (numPdpts * 512 - idx),
          decide (numPdpts * 512 - idx < left)) ∧
      Extends intm numPdpts t u ∧
      ∀ k, u.linked intm k =
        if idx ≤ k ∧ k < idx + min left (numPdpts * 512 - idx) then
          some (ticket.tableFrame + j + (k - idx))
        else t.linked intm k := by
  induction left generalizing j idx t with
  | zero =>
      refine ⟨t, by simp [linkTicket], .refl t, fun k => ?_⟩
      rw [if_neg (by omega)]
  | succ left ih =>
      rw [linkTicket]
      by_cases full : idx = numPdpts * 512
      · rw [if_pos full]
        refine ⟨t, by simp [full], .refl t, fun k => ?_⟩
        rw [if_neg (by omega)]
      · have inside : idx < numPdpts * 512 := by omega
        rw [if_neg full]
        obtain ⟨u, eq, ext, entries⟩ :=
          ih (j + 1) (t.link intm idx (ticket.tableFrame + j)) inside
        have count : min (left + 1) (numPdpts * 512 - idx) =
            1 + min left (numPdpts * 512 - (idx + 1)) := by omega
        refine ⟨u, ?_, (link_extends inside _).trans ext, fun k => ?_⟩
        · rw [eq, count]
          simp only [Prod.mk.injEq, decide_eq_decide, true_and]
          omega
        · rw [entries k, link_linked, count]
          by_cases first : k = idx
          · subst first
            rw [if_neg (by omega), if_pos rfl, if_pos (by omega), Nat.sub_self, Nat.add_zero]
          · rw [if_neg first]
            apply ite_congr
            · rw [eq_iff_iff]
              omega
            · intro between
              congr 1
              omega
            · exact fun _ => rfl

/-- The descriptor of a ticket with `base` tables in front of it. -/
def descriptorOf (numPdpts base : ℕ) (ticket : Ticket) : Descriptor :=
  if base + ticket.count ≤ numPdpts * 512 then vmaFillDescriptor base (base + ticket.count)
  else if base < numPdpts * 512 then vmaFillDescriptor base (numPdpts * 512)
  else .zero

theorem baseOf_succ (ticket : Ticket) (rest : List Ticket) (n : ℕ) :
    baseOf (ticket :: rest) (n + 1) = ticket.count + baseOf rest n := by
  simp [baseOf]

theorem parseTickets_spec (intm : ℕ) (tickets : List Ticket) (t : Tables) {base : ℕ}
    (le : base ≤ numPdpts * 512) :
    ∃ u ds, parseTickets intm numPdpts tickets base t = (u, ds) ∧ Extends intm numPdpts t u ∧
      (∀ n, ds[n]? = tickets[n]?.map (descriptorOf numPdpts (base + baseOf tickets n))) ∧
      ∀ k, u.linked intm k =
        if base ≤ k ∧ k < numPdpts * 512 then (owner tickets (k - base)).or (t.linked intm k)
        else t.linked intm k := by
  induction tickets generalizing base t with
  | nil =>
      refine ⟨t, [], rfl, .refl t, fun n => by simp, fun k => ?_⟩
      simp [owner]
  | cons ticket rest ih =>
      obtain ⟨u, eq, ext, entries⟩ :=
        linkTicket_spec intm ticket ticket.count 0 t le
      rw [parseTickets, eq]
      by_cases full : numPdpts * 512 - base < ticket.count
      · -- there is no room for the rest
        have count : min ticket.count (numPdpts * 512 - base) = numPdpts * 512 - base := by omega
        rw [decide_eq_true full, count]
        refine ⟨u, _, rfl, ext, fun n => ?_, fun k => ?_⟩
        · cases n with
          | zero =>
              have more : ¬ base + ticket.count ≤ numPdpts * 512 := by omega
              have all : base + (numPdpts * 512 - base) = numPdpts * 512 := by omega
              simp only [List.getElem?_cons_zero, Option.map_some, descriptorOf, baseOf, List.take_zero,
                List.map_nil, List.sum_nil, Nat.add_zero, if_neg more, all, Option.some.injEq]
              apply ite_congr
              · rw [eq_iff_iff]
                omega
              · exact fun _ => rfl
              · exact fun _ => rfl
          | succ n =>
              rw [List.getElem?_cons_succ, List.getElem?_cons_succ, List.getElem?_map, baseOf_succ]
              congr 1
              funext other
              rw [descriptorOf, if_neg (by omega), if_neg (by omega)]
        · rw [entries k, count]
          by_cases between : base ≤ k ∧ k < numPdpts * 512
          · rw [if_pos (by omega), if_pos between, owner, if_pos (by omega)]
            simp
          · rw [if_neg (by omega), if_neg between]
      · have count : min ticket.count (numPdpts * 512 - base) = ticket.count := by omega
        rw [decide_eq_false full, count]
        obtain ⟨v, ds, rec', ext', descriptors, entries'⟩ :=
          ih u (Nat.le_of_not_lt fun more => full (by omega) : base + ticket.count ≤ numPdpts * 512)
        dsimp only
        rw [rec']
        refine ⟨v, _, rfl, ext.trans ext', fun n => ?_, fun k => ?_⟩
        · cases n with
          | zero =>
              have fits : base + ticket.count ≤ numPdpts * 512 := by omega
              simp [descriptorOf, baseOf, fits]
          | succ n =>
              rw [List.getElem?_cons_succ, List.getElem?_cons_succ, descriptors n, baseOf_succ,
                Nat.add_assoc]
        · rw [entries' k, entries k, count]
          by_cases own : base ≤ k ∧ k < base + ticket.count
          · rw [if_neg (by omega), if_pos own, if_pos (by omega), owner, if_pos (by omega)]
            simp
          · rw [if_neg own]
            by_cases later : base + ticket.count ≤ k ∧ k < numPdpts * 512
            · rw [if_pos later, if_pos (by omega), owner, if_neg (by omega), Nat.sub_sub]
            · rw [if_neg later, if_neg (by omega)]

theorem linkPdpts_spec (intm : ℕ) (t : Tables) (n : ℕ) :
    (linkPdpts intm n t).pdpt = t.pdpt ∧ (linkPdpts intm n t).pd = t.pd ∧
      (linkPdpts intm n t).written = t.written ∧
      ∀ i, (linkPdpts intm n t).pml4 i =
        if 1 ≤ i ∧ i < 1 + n then some (intm + (i - 1)) else t.pml4 i := by
  induction n with
  | zero =>
      refine ⟨rfl, rfl, rfl, fun i => ?_⟩
      rw [if_neg (by omega)]
      rfl
  | succ n ih =>
      obtain ⟨pdpt, pd, written, pml4⟩ := ih
      have last : linkPdpts intm (n + 1) t = { linkPdpts intm n t with
          pml4 := Function.update (linkPdpts intm n t).pml4 (1 + n) (some (intm + n)) } := by
        simp [linkPdpts, List.range_succ]
      rw [last]
      refine ⟨pdpt, pd, written, fun i => ?_⟩
      dsimp only
      by_cases same : i = 1 + n
      · subst same
        rw [Function.update_self, if_pos (by omega), Nat.add_sub_cancel_left]
      · rw [Function.update_of_ne same, pml4 i]
        apply ite_congr
        · rw [eq_iff_iff]
          omega
        · exact fun _ => rfl
        · exact fun _ => rfl

theorem owner_ticket {tickets : List Ticket} {n j : ℕ} {ticket : Ticket}
    (here : tickets[n]? = some ticket) (inside : j < ticket.count) :
    owner tickets (baseOf tickets n + j) = some (ticket.tableFrame + j) := by
  induction tickets generalizing n with
  | nil => simp at here
  | cons first rest ih =>
      cases n with
      | zero =>
          obtain rfl : first = ticket := by simpa using here
          simp [owner, baseOf, inside]
      | succ n =>
          rw [List.getElem?_cons_succ] at here
          rw [baseOf_succ, owner, if_neg (by omega), ← ih here]
          congr 1
          omega

theorem mem_of_owner {tickets : List Ticket} {k frame : ℕ} (own : owner tickets k = some frame) :
    ∃ ticket ∈ tickets, ∃ j < ticket.count, frame = ticket.tableFrame + j := by
  induction tickets generalizing k with
  | nil => cases own
  | cons first rest ih =>
      rw [owner] at own
      split at own
      · rename_i inside
        cases own
        exact ⟨first, List.mem_cons_self, k, inside, rfl⟩
      · obtain ⟨ticket, inside, j, lt, eq⟩ := ih own
        exact ⟨ticket, List.mem_cons_of_mem first inside, j, lt, eq⟩

/-! ## Walks -/

/-- The canonical address `off` behind the `gib`-th GiB. -/
def vaOf (gib off : ℕ) : ℕ :=
  if gib * 2 ^ 30 + off < 2 ^ 47 then gib * 2 ^ 30 + off
  else gib * 2 ^ 30 + off + (2 ^ 64 - 2 ^ 48)

theorem walk_vaOf (t : Tables) {gib off : ℕ} (small : gib < 2 ^ 18) (inside : off < 2 ^ 30) :
    walk t (vaOf gib off) =
      (t.pml4 (gib / 512)).bind fun pdpt => (t.pdpt pdpt (gib % 512)).map fun pd => (pd, off / 2 ^ 21) := by
  have canonical : Canonical (vaOf gib off) := by
    unfold Canonical vaOf
    split <;> omega
  have pml4 : vaOf gib off / 2 ^ 39 % 512 = gib / 512 := by
    unfold vaOf
    split <;> omega
  have pdpt : vaOf gib off / 2 ^ 30 % 512 = gib % 512 := by
    unfold vaOf
    split <;> omega
  have pd : vaOf gib off / 2 ^ 21 % 512 = off / 2 ^ 21 := by
    unfold vaOf
    split <;> omega
  rw [walk, if_pos canonical, pml4, pdpt, pd]

theorem exists_vaOf {va : ℕ} (canonical : Canonical va) :
    ∃ gib off, gib < 2 ^ 18 ∧ off < 2 ^ 30 ∧ va = vaOf gib off := by
  refine ⟨va % 2 ^ 48 / 2 ^ 30, va % 2 ^ 30, by omega, by omega, ?_⟩
  unfold Canonical at canonical
  unfold vaOf
  split <;> omega

theorem canonical_of_walk {va : ℕ} (leads : walk t va ≠ none) : Canonical va := by
  by_contra outside
  exact leads (if_neg outside)

theorem addr_eq {base idx : ℕ} (lt : base < 511 * 512) :
    (vmaFillDescriptor base idx).addr = vaOf (512 + base) 0 := by
  have page : (base / 512 + 1) % 512 * 2 ^ 39 + base % 512 * 2 ^ 30 = (512 + base) * 2 ^ 30 := by omega
  have half : 256 ≤ base / 512 + 1 ↔ ¬ (512 + base) * 2 ^ 30 + 0 < 2 ^ 47 := by omega
  have addr : (vmaFillDescriptor base idx).addr = (if 256 ≤ base / 512 + 1 then 65535 else 0) * 2 ^ 48 +
      (base / 512 + 1) % 512 * 2 ^ 39 + base % 512 * 2 ^ 30 := rfl
  rw [addr, Nat.add_assoc, page, vaOf]
  by_cases upper : 256 ≤ base / 512 + 1
  · rw [if_pos upper, if_neg (half.mp upper), Nat.add_zero, Nat.add_comm]
    rfl
  · rw [if_neg upper, if_pos (not_not.mp (mt half.mpr upper)), Nat.zero_mul, Nat.zero_add, Nat.add_zero]

/-- A window goes on where the addresses do. -/
theorem vaOf_add {base off : ℕ} (fits : 512 + base + off / 2 ^ 30 < 2 ^ 18)
    (whole : 130560 ≤ base ∨ base + off / 2 ^ 30 < 130560) :
    vaOf (512 + base) 0 + off = vaOf (512 + (base + off / 2 ^ 30)) (off % 2 ^ 30) := by
  unfold vaOf
  split <;> split <;> omega

theorem valid_eq (numPdpts base : ℕ) (ticket : Ticket) :
    (descriptorOf numPdpts base ticket).numPartitionsValid =
      min ticket.count (numPdpts * 512 - base) := by
  unfold descriptorOf
  split
  · simp only [vmaFillDescriptor]
    omega
  · split
    · simp only [vmaFillDescriptor]
      omega
    · simp only [Descriptor.zero]
      omega

/-- What the parser leaves. -/
theorem vmaParserInit_spec (fresh : Fresh intm numPdpts t) (tickets : List Ticket) :
    ∃ u ds, vmaParserInit intm numPdpts tickets t = (u, ds) ∧ u.pd = t.pd ∧ u.written = t.written ∧
      (∀ pdpt, pdpt < intm ∨ intm + numPdpts ≤ pdpt → u.pdpt pdpt = t.pdpt pdpt) ∧
      (∀ i, u.pml4 i = if 1 ≤ i ∧ i < 1 + numPdpts then some (intm + (i - 1)) else t.pml4 i) ∧
      (∀ n, ds[n]? = tickets[n]?.map (descriptorOf numPdpts (baseOf tickets n))) ∧
      ∀ k < numPdpts * 512, u.linked intm k = owner tickets k := by
  obtain ⟨pdpt, pd, written, pml4⟩ := linkPdpts_spec intm t numPdpts
  obtain ⟨u, ds, eq, ext, descriptors, entries⟩ := parseTickets_spec intm tickets
    (linkPdpts intm numPdpts t) (Nat.zero_le (numPdpts * 512))
  refine ⟨u, ds, eq, ext.pd.trans pd, ext.written.trans written, fun f outside => ?_, fun i => ?_,
    fun n => ?_, fun k inside => ?_⟩
  · rw [ext.pdpt f outside, pdpt]
  · rw [ext.pml4, pml4 i]
  · rw [descriptors n, Nat.zero_add]
  · have empty : (linkPdpts intm numPdpts t).linked intm k = none := by
      rw [Tables.linked, pdpt]
      exact fresh.pdpt (k / 512) (by omega) (k % 512)
    rw [entries k, if_pos ⟨Nat.zero_le k, inside⟩, empty, Nat.sub_zero, Option.or_none]

/-- The GiBs of the windows. -/
theorem walk_window {tickets : List Ticket} (small : numPdpts ≤ 511)
    (pml4 : ∀ i, u.pml4 i = if 1 ≤ i ∧ i < 1 + numPdpts then some (intm + (i - 1)) else t.pml4 i)
    (entries : ∀ k < numPdpts * 512, u.linked intm k = owner tickets k) {k off : ℕ}
    (inside : k < numPdpts * 512) (less : off < 2 ^ 30) :
    walk u (vaOf (512 + k) off) = (owner tickets k).map fun pd => (pd, off / 2 ^ 21) := by
  have index : (512 + k) / 512 = 1 + k / 512 := by omega
  have slot : (512 + k) % 512 = k % 512 := by omega
  rw [walk_vaOf u (by omega) less, index, slot, pml4, if_pos (by omega), ← entries k inside]
  rw [Nat.add_sub_cancel_left]
  rfl

/-- One window: its addresses lead to the tables of the ticket, unless they reach over the hole. -/
theorem window_leads_iff {tickets : List Ticket} (small : numPdpts ≤ 511)
    (pml4 : ∀ i, u.pml4 i = if 1 ≤ i ∧ i < 1 + numPdpts then some (intm + (i - 1)) else t.pml4 i)
    (entries : ∀ k < numPdpts * 512, u.linked intm k = owner tickets k) {n : ℕ} {ticket : Ticket}
    (here : tickets[n]? = some ticket) {d : Descriptor}
    (filled : d = descriptorOf numPdpts (baseOf tickets n) ticket) :
    (∀ off < d.numPartitionsValid * 2 ^ 30,
        walk u (d.addr + off) = some (ticket.tableFrame + off / 2 ^ 30, off / 2 ^ 21 % 512)) ↔
      ¬ (baseOf tickets n < 130560 ∧ 130560 < baseOf tickets n + d.numPartitionsValid) := by
  rw [filled, valid_eq]
  by_cases empty : min ticket.count (numPdpts * 512 - baseOf tickets n) = 0
  · rw [empty]
    refine ⟨fun _ => by omega, fun _ off less => ?_⟩
    simp at less
  · have addr : (descriptorOf numPdpts (baseOf tickets n) ticket).addr =
        vaOf (512 + baseOf tickets n) 0 := by
      unfold descriptorOf
      split
      · exact addr_eq (by omega)
      · rw [if_pos (by omega)]
        exact addr_eq (by omega)
    rw [addr]
    constructor
    · rintro leads ⟨low, high⟩
      -- the first address in the hole
      have hole := leads ((130560 - baseOf tickets n) * 2 ^ 30) (by omega)
      have canonical := canonical_of_walk (by rw [hole]; exact Option.some_ne_none _)
      unfold Canonical vaOf at canonical
      rw [if_pos (by omega)] at canonical
      omega
    · intro whole off less
      have part : off / 2 ^ 30 < min ticket.count (numPdpts * 512 - baseOf tickets n) := by omega
      rw [vaOf_add (by omega) (by omega),
        walk_window small pml4 entries (by omega) (Nat.mod_lt _ (by decide)),
        owner_ticket here (by omega), Option.map_some]
      congr 2
      omega

theorem walk_low (fresh : Fresh intm numPdpts t)
    (pml4 : ∀ i, u.pml4 i = if 1 ≤ i ∧ i < 1 + numPdpts then some (intm + (i - 1)) else t.pml4 i)
    (outside : ∀ pdpt, pdpt < intm ∨ intm + numPdpts ≤ pdpt → u.pdpt pdpt = t.pdpt pdpt) {va : ℕ}
    (low : va < 2 ^ 39) : walk u va = walk t va := by
  have canonical : Canonical va := .inl (by omega)
  have index : va / 2 ^ 39 % 512 = 0 := by omega
  rw [walk, walk, if_pos canonical, if_pos canonical, index, pml4, if_neg (by omega)]
  cases image : t.pml4 0 with
  | none => rfl
  | some pdpt =>
      rw [Option.bind_some, Option.bind_some, outside pdpt (fresh.image pdpt image)]

/-- A window leads to the tables of its ticket, one GiB each, unless it reaches over the hole in the
addresses; nothing but the registry is mapped above the first PML4 entry, and below it every
translation is as it was. -/
theorem window_walks_iff (small : numPdpts ≤ 511) (fresh : Fresh intm numPdpts t)
    (tickets : List Ticket) : ∃ u ds, vmaParserInit intm numPdpts tickets t = (u, ds) ∧
      (∀ n ticket, tickets[n]? = some ticket → ∃ d, ds[n]? = some d ∧
        d.numPartitionsValid = min ticket.count (numPdpts * 512 - baseOf tickets n) ∧
        ((∀ off < d.numPartitionsValid * 2 ^ 30,
            walk u (d.addr + off) = some (ticket.tableFrame + off / 2 ^ 30, off / 2 ^ 21 % 512)) ↔
          ¬ (baseOf tickets n < 130560 ∧ 130560 < baseOf tickets n + d.numPartitionsValid))) ∧
      (∀ va < 2 ^ 39, walk u va = walk t va ∧ translate u va = translate t va) ∧
      ∀ va pd idx, 2 ^ 39 ≤ va → walk u va = some (pd, idx) →
        ∃ ticket ∈ tickets, ∃ j < ticket.count, pd = ticket.tableFrame + j := by
  obtain ⟨u, ds, eq, pd, -, outside, pml4, descriptors, entries⟩ := vmaParserInit_spec fresh tickets
  refine ⟨u, ds, eq, fun n ticket here => ?_, fun va low => ?_, fun va pd idx high leads => ?_⟩
  · have found := descriptors n
    rw [here, Option.map_some] at found
    exact ⟨_, found, valid_eq _ _ _, window_leads_iff small pml4 entries here rfl⟩
  · have same := walk_low fresh pml4 outside low
    refine ⟨same, ?_⟩
    rw [translate, translate, same, pd]
  · obtain ⟨gib, off, lt, less, rfl⟩ :=
      exists_vaOf (canonical_of_walk (by rw [leads]; exact Option.some_ne_none _))
    have above : 512 ≤ gib := by
      unfold vaOf at high
      split at high <;> omega
    by_cases inside : gib - 512 < numPdpts * 512
    · have here := walk_window small pml4 entries inside less
      rw [Nat.add_sub_cancel' above, leads] at here
      obtain ⟨frame, own, same⟩ := Option.map_eq_some_iff.mp here.symm
      cases same
      exact mem_of_owner own
    · -- no other PML4 entry is present
      rw [walk_vaOf u lt less, pml4, if_neg (by omega), fresh.pml4 _ (by omega)] at leads
      cases leads

/-! ## The heap -/

section Heap

variable {heapSize : ℕ} (pmaAllocPages : ℕ → ℕ) (tableFrame : ℕ)

/-- The `k`-th page is mapped. -/
def putPage (t : Tables) (k : ℕ) : Tables :=
  t.remap (tableFrame + k / 512) k (pmaAllocPages k / 2 ^ 21)

theorem fillPartition_eq (frame : ℕ) {left n : ℕ} (le : n ≤ heapSize / 2 ^ 21) :
    fillPartition heapSize pmaAllocPages frame left n t =
      ((List.range' n (min left (heapSize / 2 ^ 21 - n))).foldl
          (fun t k => t.remap frame k (pmaAllocPages k / 2 ^ 21)) t,
        n + min left (heapSize / 2 ^ 21 - n), decide (heapSize / 2 ^ 21 - n < left)) := by
  induction left generalizing n t with
  | zero => simp [fillPartition]
  | succ left ih =>
      rw [fillPartition]
      by_cases full : n = heapSize / 2 ^ 21
      · rw [if_pos full, ← full]
        simp
      · have count : min (left + 1) (heapSize / 2 ^ 21 - n) =
            min left (heapSize / 2 ^ 21 - (n + 1)) + 1 := by omega
        rw [if_neg full, ih (by omega), count, List.range'_succ, List.foldl_cons]
        simp only [Prod.mk.injEq, decide_eq_decide, true_and]
        omega

theorem fillPartitions_eq (left : ℕ) {i : ℕ} (t : Tables) (le : 512 * i ≤ heapSize / 2 ^ 21) :
    ∃ full, fillPartitions heapSize pmaAllocPages tableFrame left i (512 * i) t =
      ((List.range' (512 * i) (min (512 * left) (heapSize / 2 ^ 21 - 512 * i))).foldl
          (putPage pmaAllocPages tableFrame) t,
        512 * i + min (512 * left) (heapSize / 2 ^ 21 - 512 * i), full) := by
  induction left generalizing i t with
  | zero => exact ⟨false, by simp [fillPartitions]⟩
  | succ left ih =>
      have here : ∀ (t : Tables) (m : ℕ), m ≤ 512 →
          (List.range' (512 * i) m).foldl
              (fun t k => t.remap (tableFrame + i) k (pmaAllocPages k / 2 ^ 21)) t =
            (List.range' (512 * i) m).foldl (putPage pmaAllocPages tableFrame) t := by
        intro t m less
        apply List.foldl_ext
        intro t k inside
        have bounds := List.mem_range'_1.mp inside
        have index : k / 512 = i := by omega
        rw [putPage, index]
      rw [fillPartitions, fillPartition_eq pmaAllocPages (tableFrame + i) le, here _ _ (Nat.min_le_left _ _)]
      by_cases full : heapSize / 2 ^ 21 - 512 * i < 512
      · refine ⟨true, ?_⟩
        have count : min (512 * (left + 1)) (heapSize / 2 ^ 21 - 512 * i) =
            min 512 (heapSize / 2 ^ 21 - 512 * i) := by omega
        rw [decide_eq_true full, count]
      · obtain ⟨later, eq⟩ := ih (i := i + 1)
          ((List.range' (512 * i) 512).foldl (putPage pmaAllocPages tableFrame) t) (by omega)
        have all : min 512 (heapSize / 2 ^ 21 - 512 * i) = 512 := by omega
        have count : min (512 * (left + 1)) (heapSize / 2 ^ 21 - 512 * i) =
            512 + min (512 * left) (heapSize / 2 ^ 21 - 512 * (i + 1)) := by omega
        refine ⟨later, ?_⟩
        rw [decide_eq_false full, all]
        dsimp only
        rw [show 512 * i + 512 = 512 * (i + 1) from rfl, eq, count, ← List.range'_append_1,
          List.foldl_append]
        simp only [Prod.mk.injEq, and_true]
        refine ⟨rfl, by omega⟩

theorem putPage_linked (t : Tables) (ks : List ℕ) : (ks.foldl (putPage pmaAllocPages tableFrame) t).pml4 = t.pml4 ∧
    (ks.foldl (putPage pmaAllocPages tableFrame) t).pdpt = t.pdpt := by
  induction ks generalizing t with
  | nil => exact ⟨rfl, rfl⟩
  | cons k ks ih => exact ih (putPage pmaAllocPages tableFrame t k)

theorem putPage_written (ks : List ℕ) :
    (ks.foldl (putPage pmaAllocPages tableFrame) t).written =
      t.written ++ ks.map fun k => (tableFrame + k / 512 + k / 512, k % 512) := by
  induction ks generalizing t with
  | nil => simp
  | cons k ks ih => simp [ih, putPage, Tables.remap]

/-- A page that was mapped stays so, since each has an entry of its own. -/
theorem putPage_pd (t : Tables) {n m k : ℕ} (le : n ≤ k) (less : k < n + m) :
    ((List.range' n m).foldl (putPage pmaAllocPages tableFrame) t).pd (tableFrame + k / 512 + k / 512)
      (k % 512) = Paging.Kind.normal.entry (pmaAllocPages k / 2 ^ 21) := by
  induction m with
  | zero => omega
  | succ m ih =>
      rw [List.range'_1_concat, List.foldl_append, List.foldl_cons, List.foldl_nil]
      by_cases last : k = n + m
      · subst last
        simp [putPage, Tables.remap]
      · have before := ih (by omega)
        rw [← before, putPage, Tables.remap]
        dsimp only
        by_cases table : k / 512 = (n + m) / 512
        · have slot : k % 512 ≠ (n + m) % 512 := by omega
          rw [← table, Function.update_self, Function.update_of_ne slot]
        · have apart : tableFrame + k / 512 + k / 512 ≠
              tableFrame + (n + m) / 512 + (n + m) / 512 := by omega
          rw [Function.update_of_ne apart]

/-- What `pma_alloc_pages` answers: a page of 2 MiB, or 0. -/
def Pages : Prop :=
  ∀ n, pmaAllocPages n % 2 ^ 21 = 0 ∧ pmaAllocPages n < 2 ^ 51

/-- Each page of the heap is mapped to the page that was allocated for it. -/
def Backed (t : Tables) (heap : Option (ℕ × ℕ)) : Prop :=
  ∀ start size, heap = some (start, size) → ∀ off < size,
    pmaAllocPages (off / 2 ^ 21) ≠ 0 ∧
      translate t (start + off) = some (pmaAllocPages (off / 2 ^ 21) + off % 2 ^ 21)

/-- Only the tables of the heap were written. -/
def Confined (heapSize tableFrame : ℕ) (t : Tables) : Prop :=
  ∀ frame idx, (frame, idx) ∈ t.written → tableFrame ≤ frame ∧ frame < tableFrame + heapSize / 2 ^ 30

theorem walk_congr {v : Tables} (pml4 : v.pml4 = t.pml4) (pdpt : v.pdpt = t.pdpt) (va : ℕ) :
    walk v va = walk t va := by
  rw [walk, walk, pml4, pdpt]

theorem translate_entry {va pd idx page : ℕ} (leads : walk t va = some (pd, idx))
    (entry : t.pd pd idx = Paging.Kind.normal.entry (page / 2 ^ 21)) (aligned : page % 2 ^ 21 = 0)
    (small : page < 2 ^ 51) : translate t va = some (page + va % 2 ^ 21) := by
  have less : page / 2 ^ 21 < 2 ^ 30 := by omega
  rw [translate, leads, Option.bind_some]
  dsimp only
  rw [entry]
  have pfn : (Paging.Kind.normal.entry (page / 2 ^ 21)).pfn.toNat = page / 2 ^ 21 :=
    (BitVec.toNat_ofNat _ _).trans (Nat.mod_eq_of_lt less)
  rw [pfn]
  simp only [Paging.Kind.entry, Bool.and_self, if_true, Option.some.injEq]
  omega

/-- Where the window of the heap has room, and whatever pages are allocated: of the 512 pages taken for
each partition the allocator is given one, and the heap is backed without another table being written
exactly when there is at most one partition, with its first page allocated. -/
theorem heap_backed_iff {pmaAllocPages : ℕ → ℕ} {tableFrame : ℕ} (small : numPdpts ≤ 511) (fresh : Fresh intm numPdpts t)
    (unwritten : t.written = []) (pages : Pages pmaAllocPages) {tickets : List Ticket} {n : ℕ}
    (here : tickets[n]? = some (heapTicket heapSize tableFrame))
    (room : baseOf tickets n + heapSize / 2 ^ 30 ≤ numPdpts * 512) :
    ∃ u ds d v taken heap, vmaParserInit intm numPdpts tickets t = (u, ds) ∧ ds[n]? = some d ∧
      rtallocTlsfInit heapSize pmaAllocPages tableFrame d u = (v, taken, heap) ∧
      taken = 512 * (heapSize / 2 ^ 30) ∧
      (∀ start size, heap = some (start, size) → size = heapSize / 2 ^ 30 * 2 ^ 21 % 2 ^ 32) ∧
      (Backed pmaAllocPages v heap ∧ Confined heapSize tableFrame v ↔
        heapSize < 2 ^ 31 ∧ (2 ^ 30 ≤ heapSize → pmaAllocPages 0 ≠ 0)) := by
  obtain ⟨u, ds, eq, -, written, -, pml4, descriptors, entries⟩ := vmaParserInit_spec fresh tickets
  have found := descriptors n
  rw [here, Option.map_some] at found
  have filled : descriptorOf numPdpts (baseOf tickets n) (heapTicket heapSize tableFrame) =
      vmaFillDescriptor (baseOf tickets n) (baseOf tickets n + heapSize / 2 ^ 30) := if_pos room
  have walks := window_leads_iff small pml4 entries here filled.symm
  rw [filled] at found
  set d := vmaFillDescriptor (baseOf tickets n) (baseOf tickets n + heapSize / 2 ^ 30) with same
  have count : d.numPartitionsValid = heapSize / 2 ^ 30 := by
    simp [same, vmaFillDescriptor]
  have size : d.size = heapSize / 2 ^ 30 * 2 ^ 21 % 2 ^ 32 := by
    simp [same, vmaFillDescriptor]
  by_cases none : heapSize / 2 ^ 30 = 0
  · -- no partition, no heap
    refine ⟨u, ds, d, u, 0, .none, eq, found, ?_, by omega, nofun, ⟨fun _ => by omega, fun _ => ?_⟩⟩
    · rw [rtallocTlsfInit, if_pos (.inr (count.trans none))]
    · refine ⟨nofun, fun frame idx inside => ?_⟩
      rw [written, unwritten] at inside
      cases inside
  · obtain ⟨full, fill⟩ := fillPartitions_eq pmaAllocPages tableFrame (heapSize / 2 ^ 30) (i := 0) u
      (Nat.zero_le (heapSize / 2 ^ 21))
    have all : min (512 * (heapSize / 2 ^ 30)) (heapSize / 2 ^ 21 - 512 * 0) =
        512 * (heapSize / 2 ^ 30) := by omega
    rw [all, Nat.mul_zero, Nat.zero_add] at fill
    refine ⟨u, ds, d, (List.range' 0 (512 * (heapSize / 2 ^ 30))).foldl
      (putPage pmaAllocPages tableFrame) u, _, some (d.addr, d.size), eq, found, ?_, rfl, ?_, ?_⟩
    · rw [rtallocTlsfInit, if_neg (by omega), count, fill]
    · rintro start size' ⟨⟩
      exact size
    · constructor
      · rintro ⟨backed, confined⟩
        have one : heapSize < 2 ^ 31 := by
          by_contra two
          -- the first page of the last partition
          have last := confined (tableFrame + 512 * (heapSize / 2 ^ 30 - 1) / 512 +
            512 * (heapSize / 2 ^ 30 - 1) / 512) (512 * (heapSize / 2 ^ 30 - 1) % 512) (by
              rw [putPage_written]
              refine List.mem_append_right _ (List.mem_map.mpr ⟨_, ?_, rfl⟩)
              rw [List.mem_range'_1]
              omega)
          omega
        refine ⟨one, fun _ => (backed d.addr d.size rfl 0 ?_).1⟩
        rw [size]
        omega
      · rintro ⟨one, allocated⟩
        have single : heapSize / 2 ^ 30 = 1 := by omega
        constructor
        · rintro start size' ⟨⟩ off less
          have page : off < 2 ^ 21 := by
            rw [size, single] at less
            omega
          have first : off / 2 ^ 21 = 0 := by omega
          have leads := walks.mpr (by omega) off (by omega)
          have table : off / 2 ^ 30 = 0 := by omega
          have aligned : (d.addr + off) % 2 ^ 21 = off % 2 ^ 21 := by
            rw [same, addr_eq (by omega)]
            unfold vaOf
            split <;> omega
          obtain ⟨pml4, pdpt⟩ := putPage_linked pmaAllocPages tableFrame u
            (List.range' 0 (512 * (heapSize / 2 ^ 30)))
          have entry := putPage_pd pmaAllocPages tableFrame u (Nat.le_refl 0)
            (m := 512 * (heapSize / 2 ^ 30)) (by omega)
          rw [first, table] at leads
          rw [← walk_congr pml4 pdpt] at leads
          refine ⟨first ▸ allocated (by omega), ?_⟩
          rw [translate_entry leads entry (pages 0).1 (pages 0).2, first, aligned]
        · intro frame idx inside
          rw [putPage_written, written, unwritten, List.nil_append, single] at inside
          obtain ⟨k, range, same⟩ := List.mem_map.mp inside
          have bounds := List.mem_range'_1.mp range
          cases same
          omega

end Heap

end Proofs

/-! ## The tables of the kernel, with a heap of 1 GiB -/

def sample : Tables where
  pml4 i := if i = 0 then some 1 else none
  pdpt i j := if i = 1 ∧ j = 0 then some 2 else none
  pd _ _ := ⟨false, false, false, false, false, 0#30⟩
  written := []

theorem sample_fresh : Fresh 16 1 sample where
  pml4 i above := if_neg (Nat.ne_of_gt above)
  pdpt i _ j := if_neg fun both => by omega
  image pdpt image := by
    cases image
    decide

def sampleTickets : List Ticket := [⟨32, 1⟩, ⟨33, 1⟩, heapTicket (2 ^ 30) 40]

theorem window_walks_iff_sample : ∃ u ds, vmaParserInit 16 1 sampleTickets sample = (u, ds) ∧
    (ds[2]?.map Descriptor.addr) = some (2 ^ 39 + 2 * 2 ^ 30) ∧
      walk u (2 ^ 39 + 2 * 2 ^ 30 + 2 ^ 21) = some (40, 1) := by
  obtain ⟨u, ds, eq, windows, -, -⟩ := window_walks_iff (by decide) sample_fresh sampleTickets
  obtain ⟨d, found, valid, walks⟩ := windows 2 (heapTicket (2 ^ 30) 40) rfl
  have ran : (vmaParserInit 16 1 sampleTickets sample).2[2]?.map Descriptor.addr =
      some (2 ^ 39 + 2 * 2 ^ 30) := by decide
  have one : d.numPartitionsValid = 1 := valid
  rw [eq] at ran
  refine ⟨u, ds, eq, ran, ?_⟩
  have addr : d.addr = 2 ^ 39 + 2 * 2 ^ 30 := by simpa [found] using ran
  rw [one, addr] at walks
  exact walks.mpr (by decide) (2 ^ 21) (by decide)

/-- Pages one after another, until there are no more. -/
def samplePages (n : ℕ) : ℕ := (n + 1) * 2 ^ 21 % 2 ^ 51

theorem heap_backed_iff_sample : ∃ u ds d v taken heap,
    vmaParserInit 16 1 sampleTickets sample = (u, ds) ∧ ds[2]? = some d ∧
      rtallocTlsfInit (2 ^ 30) samplePages 40 d u = (v, taken, heap) ∧ taken = 512 ∧
      (∀ start size, heap = some (start, size) → size = 2 ^ 21) ∧
      Backed samplePages v heap ∧ Confined (2 ^ 30) 40 v := by
  have pages : Pages samplePages := by
    intro n
    unfold samplePages
    omega
  have here : sampleTickets[2]? = some (heapTicket (2 ^ 30) 40) := rfl
  obtain ⟨u, ds, d, v, taken, heap, eq, found, ran, count, size, exact_⟩ :=
    heap_backed_iff (by decide) sample_fresh rfl pages here (by decide)
  exact ⟨u, ds, d, v, taken, heap, eq, found, ran, count, size, exact_.mpr ⟨by decide, fun _ => by decide⟩⟩

end Twan.Kernel.VmaParser
