/-
# Twan.Kernel.Mappings -- the mappings of every run

The kernel maps page frames and pages of memory through both mappers, remaps the ones of memory and
unmaps them again, each with the routine that belongs to it.  A mapping that is live is kept with
the pointer that was returned, the address that was asked for and the frames that cover it.

`Kept` is the invariant: the slots are shared out among the live mappings, so the free bits are
those of the slots no mapping has, and each slot has the entry of its frame.  An entry keeps 30 bits
of a frame, so what a pointer translates to is the address modulo `2 ^ 51` (`mappings_law`).
-/
import Twan.Base.Run
import Twan.Base.Slots
import Twan.Kernel.Paging

namespace Twan.Kernel.Paging

set_option autoImplicit false

open Twan.Base Twan.Lib

inductive Routine where
  | pfn
  | physPg
  deriving DecidableEq

/-- A live mapping: who made it, what was returned, what was asked for. -/
structure Mapping where
  routine : Routine
  addr : ℕ
  phys : ℕ
  frames : List ℕ
  remapped : Bool
  deriving DecidableEq

namespace Mapping

variable (w : Window) (x : Mapping)

def first : ℕ := (x.addr - w.addr) / pageSize

/-- The slots of the pages at the returned address. -/
def slots : List ℕ := List.range' (x.first w) x.frames.length

end Mapping

/-- The frames of a page of memory that begins at `phys`. -/
def cover (phys : ℕ) : List ℕ :=
  if phys % pageSize = 0 then [phys / pageSize] else [phys / pageSize, phys / pageSize + 1]

/-- What an address translates to, if it is mapped. -/
def VmaPartition.translate (partition : VmaPartition) (va : ℕ) : Option ℕ :=
  let pde := partition.pde (pdIndexOf va)
  if pde.present && pde.ps then some (pde.pfn.toNat * pageSize + va % pageSize) else none

/-- The two mappers, and the live mappings of each under a name of their own. -/
structure State where
  mapper : Kind → Mapper
  live : Kind → ℕ → Option Mapping

inductive Action where
  | mapPfn (kind : Kind) (i pfn : ℕ)
  | mapPhysPg (kind : Kind) (i phys : ℕ)
  /-- The routine that belongs to the mapping. -/
  | unmap (kind : Kind) (i : ℕ)
  | remap (i pfn : ℕ)
  deriving DecidableEq

namespace State

def init : State where
  mapper _ := initMapper
  live _ _ := none

def put (s : State) (kind : Kind) (m : Mapper) (live : ℕ → Option Mapping) : State where
  mapper := Function.update s.mapper kind m
  live := Function.update s.live kind live

/-- The mapping is live unless NULL was returned. -/
def mapped (s : State) (kind : Kind) (i : ℕ) (routine : Routine) (phys : ℕ)
    (result : ℕ × Mapper) : State :=
  s.put kind result.2
    (if result.1 = 0 then s.live kind
    else Function.update (s.live kind) i (some ⟨routine, result.1, phys, cover phys, false⟩))

end State

def unmapWith (m : Mapper) (x : Mapping) : Mapper :=
  match x.routine with
  | .pfn => unmapPfn m x.addr
  | .physPg => unmapPhysPg m x.addr

def step (w : Kind → Window) (s : State) : Action → Option State
  | .mapPfn kind i pfn =>
      match s.live kind i with
      | some _ => none
      | none => some (s.mapped kind i .pfn (pfn * pageSize) (mapPfn kind (w kind) (s.mapper kind) pfn))
  | .mapPhysPg kind i phys =>
      match s.live kind i with
      | some _ => none
      | none => some (s.mapped kind i .physPg phys (mapPhysPg kind (w kind) (s.mapper kind) phys))
  | .unmap kind i =>
      match s.live kind i with
      | none => none
      | some x =>
          some (s.put kind (unmapWith (s.mapper kind) x) (Function.update (s.live kind) i none))
  | .remap i pfn =>
      match s.live .normal i with
      | none => none
      | some x =>
          some (s.put .normal (remapPfnNoflush (s.mapper .normal) x.addr pfn)
            (Function.update (s.live .normal) i (some { x with
              phys := pfn * pageSize + x.phys % pageSize
              frames := x.frames.set 0 pfn
              remapped := true })))

/-! ## A mapping in its window -/

/-- The pointer is at the offset of the address in the first slot, and there is a slot for each
frame. -/
structure Placed (w : Window) (x : Mapping) : Prop where
  addr : x.addr = w.page (x.first w) + x.phys % pageSize
  inside : x.first w + x.frames.length ≤ 512
  length : x.frames.length = if x.phys % pageSize = 0 then 1 else 2
  head : x.frames.head? = some (x.phys / pageSize)
  whole : x.routine = .pfn → x.phys % pageSize = 0
  covered : x.remapped = false → x.frames = cover x.phys

variable {kind : Kind} {w : Window} {m m' : Mapper} {x : Mapping}

theorem first_page (routine : Routine) (frames : List ℕ) (idx phys : ℕ) (remapped : Bool) :
    Mapping.first w ⟨routine, w.page idx + phys % pageSize, phys, frames, remapped⟩ = idx := by
  have offset := pageOffset_lt phys
  unfold Mapping.first Window.page
  simp only [pageSize] at offset ⊢
  omega

theorem cover_length (phys : ℕ) :
    (cover phys).length = if phys % pageSize = 0 then 1 else 2 := by
  unfold cover
  split_ifs <;> rfl

theorem cover_head (phys : ℕ) : (cover phys).head? = some (phys / pageSize) := by
  unfold cover
  split_ifs <;> rfl

theorem Placed.new {idx phys : ℕ} {routine : Routine} (room : idx + (cover phys).length ≤ 512)
    (whole : routine = .pfn → phys % pageSize = 0) :
    Placed w ⟨routine, w.page idx + phys % pageSize, phys, cover phys, false⟩ where
  addr := by rw [first_page]
  inside := by rwa [first_page]
  length := cover_length phys
  head := cover_head phys
  whole := whole
  covered _ := rfl

theorem Placed.first_lt (placed : Placed w x) : x.first w < 512 := by
  have inside := placed.inside
  have length := placed.length
  split_ifs at length <;> omega

theorem Placed.mem_slots (placed : Placed w x) {slot : ℕ} : slot ∈ x.slots w ↔
    slot = x.first w ∨ x.phys % pageSize ≠ 0 ∧ slot = x.first w + 1 := by
  have length := placed.length
  rw [Mapping.slots, List.mem_range'_1, length]
  split_ifs with aligned
  · simp only [aligned, ne_eq, not_true_eq_false, false_and, or_false]
    omega
  · simp only [ne_eq, aligned, not_false_eq_true, true_and]
    omega

theorem Placed.slots_lt (placed : Placed w x) : ∀ slot ∈ x.slots w, slot < 512 := by
  intro slot here
  have inside := placed.inside
  have range := List.mem_range'_1.mp here
  omega

/-- The slot of the returned pointer. -/
theorem Placed.index (placed : Placed w x) : pdIndexOf x.addr = x.first w := by
  rw [placed.addr]
  exact pdIndexOf_page placed.first_lt (pageOffset_lt _)

theorem Placed.pos (placed : Placed w x) : 0 < x.frames.length := by
  have length := placed.length
  split_ifs at length <;> omega

/-- The routine of a mapping frees its slots and leaves the other entries alone. -/
theorem Placed.unmapWith_spec (placed : Placed w x) (m : Mapper) :
    (∀ slot, (unmapWith m x).bmp.test slot = true ↔ m.bmp.test slot = true ∨ slot ∈ x.slots w) ∧
    ∀ slot, slot ∉ x.slots w → (unmapWith m x).partition.pde slot = m.partition.pde slot := by
  have slot := placed.first_lt
  by_cases aligned : x.phys % pageSize = 0
  · have one : unmapWith m x = ⟨m.bmp.set (x.first w), m.partition.unmap (x.first w)⟩ := by
      have addr := placed.addr
      rw [aligned, Nat.add_zero] at addr
      unfold unmapWith
      cases x.routine with
      | pfn =>
          conv_lhs => rw [addr]
          exact unmapPfn_page slot
      | physPg =>
          conv_lhs => rw [addr]
          exact unmapPhysPg_page slot
    have slots : ∀ s, s ∈ x.slots w ↔ s = x.first w := by
      intro s
      rw [placed.mem_slots]
      simp [aligned]
    rw [one]
    refine ⟨fun s => ?_, fun s outside => ?_⟩
    · rw [Bmp512.test_set _ slot, slots s]
      simp [or_comm]
    · rw [VmaPartition.unmap, pde_write, if_neg fun same => outside ((slots s).mpr same)]
  · have inside := placed.inside
    rw [placed.length, if_neg aligned] at inside
    have two : unmapWith m x = ⟨(m.bmp.set (x.first w)).set (x.first w + 1),
        (m.partition.unmap (x.first w)).unmap (x.first w + 1)⟩ := by
      unfold unmapWith
      cases routine : x.routine with
      | pfn => exact absurd (placed.whole routine) aligned
      | physPg =>
          conv_lhs => rw [placed.addr]
          exact unmapPhysPg_split inside (pageOffset_lt _) aligned
    have slots : ∀ s, s ∈ x.slots w ↔ s = x.first w ∨ s = x.first w + 1 := by
      intro s
      rw [placed.mem_slots]
      simp only [ne_eq, aligned, not_false_eq_true, true_and]
    rw [two]
    refine ⟨fun s => ?_, fun s outside => ?_⟩
    · rw [Bmp512.test_set _ inside, Bmp512.test_set _ slot, slots s]
      simp only [Bool.or_eq_true, decide_eq_true_eq]
      tauto
    · rw [slots s, not_or] at outside
      rw [VmaPartition.unmap, pde_write, if_neg outside.2, VmaPartition.unmap, pde_write,
        if_neg outside.1]

/-- A remapped mapping is where it was. -/
theorem Placed.set (placed : Placed w x) (pfn : ℕ) :
    let x' := { x with
      phys := pfn * pageSize + x.phys % pageSize
      frames := x.frames.set 0 pfn
      remapped := true }
    Placed w x' ∧ x'.slots w = x.slots w := by
  have offset := pageOffset_lt x.phys
  have same : (pfn * pageSize + x.phys % pageSize) % pageSize = x.phys % pageSize := by
    rw [Nat.mul_add_mod', Nat.mod_mod]
  have frame : (pfn * pageSize + x.phys % pageSize) / pageSize = pfn := by
    rw [Nat.mul_comm, Nat.mul_add_div (by decide), Nat.div_eq_of_lt offset, Nat.add_zero]
  have length : (x.frames.set 0 pfn).length = x.frames.length := List.length_set
  constructor
  · refine ⟨?_, ?_, ?_, ?_, fun made => ?_, fun impossible => by cases impossible⟩
    · rw [same]
      exact placed.addr
    · rw [length]
      exact placed.inside
    · rw [length, same]
      exact placed.length
    · rw [frame, List.head?_eq_getElem?, List.getElem?_set_self placed.pos]
    · rw [same]
      exact placed.whole made
  · unfold Mapping.slots
    rw [length]
    rfl

/-- Slot `first + n` has the entry of frame `n`. -/
def Entries (kind : Kind) (w : Window) (m : Mapper) (x : Mapping) : Prop :=
  ∀ n f, x.frames[n]? = some f → m.partition.pde (x.first w + n) = kind.entry f

theorem Entries.congr (entries : Entries kind w m x)
    (same : ∀ slot ∈ x.slots w, m'.partition.pde slot = m.partition.pde slot) :
    Entries kind w m' x := by
  intro n f here
  have lt := (List.getElem?_eq_some_iff.mp here).1
  rw [same _ (List.mem_range'_1.mpr ⟨Nat.le_add_right _ _, Nat.add_lt_add_left lt _⟩)]
  exact entries n f here

/-! ## The invariant -/

def held (w : Window) (live : ℕ → Option Mapping) (i : ℕ) : List ℕ :=
  match live i with
  | some x => x.slots w
  | none => []

theorem held_some {live : ℕ → Option Mapping} {i : ℕ} (here : live i = some x) :
    held w live i = x.slots w := by
  unfold held
  rw [here]

theorem held_none {live : ℕ → Option Mapping} {i : ℕ} (here : live i = none) :
    held w live i = [] := by
  unfold held
  rw [here]

theorem held_update (w : Window) (live : ℕ → Option Mapping) (i : ℕ) (new : Option Mapping) :
    held w (Function.update live i new) =
      Function.update (held w live) i (held w (fun _ => new) i) := by
  funext j
  by_cases same : j = i
  · subst same
    simp [held]
  · simp [held, same]

structure Kept (kind : Kind) (w : Window) (m : Mapper) (live : ℕ → Option Mapping) : Prop where
  shares : Shares (· < 512) (fun slot => m.bmp.test slot = true) (held w live)
  placed : ∀ i x, live i = some x → Placed w x
  entries : ∀ i x, live i = some x → Entries kind w m x

variable {live : ℕ → Option Mapping} {i : ℕ}

theorem kept_init : Kept kind w initMapper (fun _ => none) where
  shares := Shares.empty fun _ => Bmp512.test_full
  placed _ _ here := by cases here
  entries _ _ here := by cases here

/-- What holds of a new mapping and of the others holds of all. -/
theorem each_update {P : Mapping → Prop} {new : Option Mapping} (own : ∀ y, new = some y → P y)
    (others : ∀ j y, j ≠ i → live j = some y → P y) (j : ℕ) (y : Mapping)
    (here : Function.update live i new j = some y) : P y := by
  by_cases mine : j = i
  · subst mine
    rw [Function.update_self] at here
    exact own y here
  · rw [Function.update_of_ne mine] at here
    exact others j y mine here

namespace Kept

/-- Of the slots of the other mappings nothing changes. -/
theorem others (kept : Kept kind w m live)
    (same : ∀ slot, slot ∉ held w live i → (∃ j, slot ∈ held w live j) →
      m'.partition.pde slot = m.partition.pde slot)
    (j : ℕ) (y : Mapping) (distinct : j ≠ i) (here : live j = some y) : Entries kind w m' y := by
  apply (kept.entries j y here).congr
  intro slot mine
  rw [← held_some here] at mine
  exact same slot (kept.shares.apart j i distinct slot mine) ⟨j, mine⟩

/-- Free slots are given to a new mapping. -/
theorem give (kept : Kept kind w m live) (fresh : live i = none) (placed : Placed w x)
    (free : ∀ slot ∈ x.slots w, m.bmp.test slot = true)
    (left : ∀ slot, m'.bmp.test slot = true ↔ m.bmp.test slot = true ∧ slot ∉ x.slots w)
    (same : ∀ slot, slot ∉ x.slots w → m'.partition.pde slot = m.partition.pde slot)
    (entries : Entries kind w m' x) : Kept kind w m' (Function.update live i (some x)) where
  shares := by
    rw [held_update, held_some (x := x) rfl]
    exact kept.shares.give (held_none fresh) free left
  placed := by
    apply each_update
    · rintro y ⟨⟩
      exact placed
    · exact fun j y _ there => kept.placed j y there
  entries := by
    apply each_update
    · rintro y ⟨⟩
      exact entries
    · refine kept.others ?_
      rintro slot - ⟨k, taken⟩
      exact same slot fun mine => kept.shares.not_free taken (free slot mine)

/-- The slots of a mapping are free again. -/
theorem take (kept : Kept kind w m live) (here : live i = some x)
    (left : ∀ slot, m'.bmp.test slot = true ↔ m.bmp.test slot = true ∨ slot ∈ x.slots w)
    (same : ∀ slot, slot ∉ x.slots w → m'.partition.pde slot = m.partition.pde slot) :
    Kept kind w m' (Function.update live i none) where
  shares := by
    rw [held_update, held_none (i := i) rfl]
    apply kept.shares.take
    rw [held_some here]
    exact left
  placed := by
    apply each_update
    · rintro y ⟨⟩
    · exact fun j y _ there => kept.placed j y there
  entries := by
    apply each_update
    · rintro y ⟨⟩
    · refine kept.others ?_
      rw [held_some here]
      exact fun slot outside _ => same slot outside

/-- A mapping gets other frames in its slots. -/
theorem change (kept : Kept kind w m live) {x' : Mapping} (here : live i = some x)
    (placed : Placed w x') (slots : x'.slots w = x.slots w) (bmp : m'.bmp = m.bmp)
    (same : ∀ slot, slot ∉ x.slots w → m'.partition.pde slot = m.partition.pde slot)
    (entries : Entries kind w m' x') : Kept kind w m' (Function.update live i (some x')) where
  shares := by
    have unchanged : held w (Function.update live i (some x')) = held w live := by
      rw [held_update, held_some (x := x') rfl, slots, ← held_some here, Function.update_eq_self]
    rw [unchanged, bmp]
    exact kept.shares
  placed := by
    apply each_update
    · rintro y ⟨⟩
      exact placed
    · exact fun j y _ there => kept.placed j y there
  entries := by
    apply each_update
    · rintro y ⟨⟩
      exact entries
    · refine kept.others ?_
      rw [held_some here]
      exact fun slot outside _ => same slot outside

/-! ## One step -/

/-- One slot is taken for one frame. -/
theorem mapOne (kept : Kept kind w m live) (fresh : live i = none) {routine : Routine}
    {idx phys pfn : ℕ} (found : m.bmp.ffs = some idx) (aligned : phys % pageSize = 0)
    (frame : kind.entry pfn = kind.entry (phys / pageSize)) :
    Kept kind w ⟨m.bmp.unset idx, m.partition.write idx (kind.entry pfn)⟩
      (Function.update live i (some ⟨routine, w.page idx, phys, cover phys, false⟩)) := by
  have isFree := Bmp512.ffs_some found
  have slot := Bmp512.test_lt isFree
  have placed : Placed w ⟨routine, w.page idx + phys % pageSize, phys, cover phys, false⟩ := by
    refine .new ?_ fun _ => aligned
    rw [cover_length, if_pos aligned]
    exact slot
  have first := first_page (w := w) routine (cover phys) idx phys false
  rw [aligned, Nat.add_zero] at placed first
  have slots : ∀ s, s ∈ Mapping.slots w ⟨routine, w.page idx, phys, cover phys, false⟩ ↔ s = idx := by
    intro s
    rw [placed.mem_slots, first]
    simp [aligned]
  refine kept.give fresh placed ?_ ?_ ?_ ?_
  · intro s here
    rwa [(slots s).mp here]
  · intro s
    rw [Bmp512.test_unset _ slot, slots s]
    simp [and_comm]
  · intro s outside
    rw [pde_write, if_neg fun same => outside ((slots s).mpr same)]
  · intro n f here
    rw [first]
    simp only [cover, aligned, ↓reduceIte] at here
    cases n with
    | zero =>
        obtain rfl := Option.some.inj here
        rw [Nat.add_zero, pde_write, if_pos rfl, frame]
    | succ n => cases here

/-- Two slots are taken for the two frames of a page that begins inside one. -/
theorem mapTwo (kept : Kept kind w m live) (fresh : live i = none) {idx phys pfn pfn' : ℕ}
    (found : m.bmp.ffs2 = some idx) (split : phys % pageSize ≠ 0)
    (frame : kind.entry pfn = kind.entry (phys / pageSize))
    (frame' : kind.entry pfn' = kind.entry (phys / pageSize + 1)) :
    Kept kind w ⟨m.bmp.unset2 idx,
        (m.partition.write idx (kind.entry pfn)).write (idx + 1) (kind.entry pfn')⟩
      (Function.update live i
        (some ⟨.physPg, w.page idx + phys % pageSize, phys, cover phys, false⟩)) := by
  obtain ⟨isFree, isFree'⟩ := Bmp512.ffs2_some found
  have slot := Bmp512.test_lt isFree'
  have placed : Placed w ⟨.physPg, w.page idx + phys % pageSize, phys, cover phys, false⟩ := by
    refine .new ?_ fun impossible => by cases impossible
    rw [cover_length, if_neg split]
    exact slot
  have first := first_page (w := w) .physPg (cover phys) idx phys false
  have slots : ∀ s, s ∈ Mapping.slots w ⟨.physPg, w.page idx + phys % pageSize, phys, cover phys,
      false⟩ ↔ s = idx ∨ s = idx + 1 := by
    intro s
    rw [placed.mem_slots, first]
    simp only [ne_eq, split, not_false_eq_true, true_and]
  refine kept.give fresh placed ?_ ?_ ?_ ?_
  · intro s here
    rcases (slots s).mp here with rfl | rfl
    · exact isFree
    · exact isFree'
  · intro s
    rw [Bmp512.test_unset2 _ slot, slots s]
    simp [and_comm]
  · intro s outside
    rw [slots s, not_or] at outside
    rw [pde_write, if_neg outside.2, pde_write, if_neg outside.1]
  · intro n f here
    rw [first]
    simp only [cover, split, ↓reduceIte] at here
    match n with
    | 0 =>
        obtain rfl := Option.some.inj here
        rw [pde_write, if_neg (by omega), pde_write, if_pos (Nat.add_zero idx), frame]
    | 1 =>
        obtain rfl := Option.some.inj here
        rw [pde_write, if_pos rfl, frame']
    | n + 2 => cases here

/-- A mapping is unmapped by its routine. -/
theorem unmap (kept : Kept kind w m live) (here : live i = some x) :
    Kept kind w (unmapWith m x) (Function.update live i none) := by
  obtain ⟨bits, entries⟩ := (kept.placed i x here).unmapWith_spec m
  exact kept.take here bits entries

/-- The first slot of a mapping gets another frame. -/
theorem remap (kept : Kept .normal w m live) (here : live i = some x) (pfn : ℕ) :
    Kept .normal w (remapPfnNoflush m x.addr pfn)
      (Function.update live i (some { x with
        phys := pfn * pageSize + x.phys % pageSize
        frames := x.frames.set 0 pfn
        remapped := true })) := by
  have placed := kept.placed i x here
  obtain ⟨placed', slots⟩ := placed.set pfn
  refine kept.change here placed' slots rfl (fun s outside => ?_) fun n f frame => ?_
  · have other : s ≠ x.first w := fun same => outside (placed.mem_slots.mpr (.inl same))
    unfold remapPfnNoflush Kind.remap
    rw [placed.index, pde_write, if_neg other]
  · change (remapPfnNoflush m x.addr pfn).partition.pde (x.first w + n) = _
    unfold remapPfnNoflush Kind.remap
    rw [placed.index, pde_write]
    change (x.frames.set 0 pfn)[n]? = some f at frame
    cases n with
    | zero =>
        rw [List.getElem?_set_self placed.pos] at frame
        obtain rfl := Option.some.inj frame
        rw [if_pos (Nat.add_zero _)]
        exact entry_congr (Nat.mod_mod_of_dvd _ (by decide))
    | succ n =>
        rw [List.getElem?_set_ne (by omega)] at frame
        rw [if_neg (by omega)]
        exact kept.entries i x here _ _ frame

end Kept

/-- An entry keeps 30 bits of the 32 of a frame. -/
theorem entry_mod (kind : Kind) (pfn : ℕ) : kind.entry (pfn % 2 ^ 32) = kind.entry pfn :=
  entry_congr (Nat.mod_mod_of_dvd _ (by decide))

section Runs

variable {w : Kind → Window} {s s' : State}

def State.Kept (w : Kind → Window) (s : State) : Prop :=
  ∀ kind, Paging.Kept kind (w kind) (s.mapper kind) (s.live kind)

theorem init_kept : State.init.Kept w := fun _ => kept_init

theorem State.Kept.put {live : ℕ → Option Mapping} (kept : s.Kept w)
    (new : Paging.Kept kind (w kind) m live) : (s.put kind m live).Kept w := by
  intro other
  unfold State.put
  by_cases same : other = kind
  · subst same
    simp only [Function.update_self]
    exact new
  · simp only [Function.update_of_ne same]
    exact kept other

/-- NULL was returned and nothing changed. -/
theorem State.Kept.refused (kept : s.Kept w) (routine : Routine) (phys : ℕ) :
    (s.mapped kind i routine phys (0, s.mapper kind)).Kept w := kept.put (kept kind)

theorem State.mapped_eq {addr : ℕ} (nonNull : addr ≠ 0) (routine : Routine) (phys : ℕ) :
    s.mapped kind i routine phys (addr, m) = s.put kind m
      (Function.update (s.live kind) i (some ⟨routine, addr, phys, cover phys, false⟩)) := by
  unfold State.mapped
  rw [if_neg nonNull]

theorem State.Kept.mapPfn (kept : s.Kept w) (fresh : s.live kind i = none) (routine : Routine)
    {phys pfn : ℕ} (aligned : phys % pageSize = 0)
    (frame : kind.entry pfn = kind.entry (phys / pageSize)) :
    (s.mapped kind i routine phys (Paging.mapPfn kind (w kind) (s.mapper kind) pfn)).Kept w := by
  cases found : (s.mapper kind).bmp.ffs with
  | none =>
      rw [mapPfn_none found]
      exact kept.refused routine phys
  | some idx =>
      rw [mapPfn_some found, State.mapped_eq (page_ne_zero idx)]
      exact kept.put ((kept kind).mapOne fresh found aligned frame)

theorem State.Kept.mapPhysPg (kept : s.Kept w) (fresh : s.live kind i = none) (phys : ℕ) :
    (s.mapped kind i .physPg phys
      (Paging.mapPhysPg kind (w kind) (s.mapper kind) phys)).Kept w := by
  by_cases aligned : phys % pageSize = 0
  · rw [mapPhysPg_aligned aligned]
    exact kept.mapPfn fresh .physPg aligned (entry_mod kind _)
  · cases found : (s.mapper kind).bmp.ffs2 with
    | none =>
        rw [mapPhysPg_none aligned found]
        exact kept.refused .physPg phys
    | some idx =>
        have nonNull : (w kind).page idx + phys % pageSize ≠ 0 :=
          fun null => page_ne_zero idx (Nat.eq_zero_of_add_eq_zero_right null)
        have frame' : kind.entry ((phys / pageSize % 2 ^ 32 + 1) % 2 ^ 32) =
            kind.entry (phys / pageSize + 1) := by
          rw [Nat.mod_add_mod]
          exact entry_mod kind _
        rw [mapPhysPg_some aligned found, State.mapped_eq nonNull]
        exact kept.put ((kept kind).mapTwo fresh found aligned (entry_mod kind _) frame')

theorem step_kept {a : Action} (kept : s.Kept w) (moved : step w s a = some s') : s'.Kept w := by
  cases a with
  | mapPfn kind i pfn =>
      simp only [step] at moved
      split at moved
      · cases moved
      · rename_i fresh
        obtain rfl := Option.some.inj moved
        refine kept.mapPfn fresh .pfn (Nat.mul_mod_left _ _) ?_
        rw [Nat.mul_div_cancel _ (by decide)]
  | mapPhysPg kind i phys =>
      simp only [step] at moved
      split at moved
      · cases moved
      · rename_i fresh
        obtain rfl := Option.some.inj moved
        exact kept.mapPhysPg fresh phys
  | unmap kind i =>
      simp only [step] at moved
      split at moved
      · cases moved
      · rename_i x here
        obtain rfl := Option.some.inj moved
        exact kept.put ((kept kind).unmap here)
  | remap i pfn =>
      simp only [step] at moved
      split at moved
      · cases moved
      · rename_i x here
        obtain rfl := Option.some.inj moved
        exact kept.put ((kept .normal).remap here pfn)

end Runs

/-! ## What that gives -/

/-- The slots of the live mappings of a mapper, and what they hold. -/
structure Law (kind : Kind) (w : Window) (m : Mapper) (live : ℕ → Option Mapping) : Prop where
  inside : ∀ i x, live i = some x → ∀ slot ∈ x.slots w, slot < 512
  disjoint : ∀ i j x y, i ≠ j → live i = some x → live j = some y →
    ∀ slot ∈ x.slots w, slot ∉ y.slots w
  /-- There is a slot for each frame that covers the address; only a remapping, which changes the
  first, leaves the second one what it was. -/
  covers : ∀ i x, live i = some x → x.frames.head? = some (x.phys / pageSize) ∧
    x.frames.length = (cover x.phys).length ∧ (x.remapped = false → x.frames = cover x.phys)
  entries : ∀ i x, live i = some x → Entries kind w m x
  translates : ∀ i x, live i = some x → m.partition.translate x.addr = some (x.phys % 2 ^ 51)
  free : ∀ slot < 512,
    m.bmp.test slot = true ↔ ∀ i x, live i = some x → slot ∉ x.slots w

/-- A pointer translates to the address that was asked for, modulo what an entry can hold. -/
theorem Kept.translates {live : ℕ → Option Mapping} (kept : Kept kind w m live)
    (here : live i = some x) : m.partition.translate x.addr = some (x.phys % 2 ^ 51) := by
  have placed := kept.placed i x here
  have offset := pageOffset_lt x.phys
  have entry : m.partition.pde (x.first w) = kind.entry (x.phys / pageSize) :=
    kept.entries i x here 0 _ (by rw [← List.head?_eq_getElem?]; exact placed.head)
  have frame : (kind.entry (x.phys / pageSize)).pfn.toNat = x.phys / pageSize % 2 ^ 30 := by
    cases kind <;> exact BitVec.toNat_ofNat _ _
  have mapped : ((kind.entry (x.phys / pageSize)).present &&
      (kind.entry (x.phys / pageSize)).ps) = true := by
    cases kind <;> rfl
  have inFrame : x.addr % pageSize = x.phys % pageSize := by
    rw [placed.addr]
    exact page_add_mod _ offset
  unfold VmaPartition.translate
  simp only [placed.index, entry, mapped, frame, inFrame, ↓reduceIte, Option.some.injEq, pageSize]
  omega

theorem Kept.law {live : ℕ → Option Mapping} (kept : Kept kind w m live) : Law kind w m live where
  inside i x here := (kept.placed i x here).slots_lt
  disjoint i j x y distinct here there slot mine := by
    have apart := kept.shares.apart i j distinct slot
    rw [held_some here, held_some there] at apart
    exact apart mine
  covers i x here := by
    have placed := kept.placed i x here
    refine ⟨placed.head, ?_, placed.covered⟩
    rw [cover_length]
    exact placed.length
  entries := kept.entries
  translates i x here := kept.translates here
  free slot lt := by
    refine (kept.shares.free_iff slot).trans ⟨fun nobody i x here => ?_, fun nobody => ⟨lt, ?_⟩⟩
    · have other := nobody.2 i
      rwa [held_some here] at other
    · intro i
      cases here : live i with
      | none =>
          rw [held_none here]
          exact List.not_mem_nil
      | some x =>
          rw [held_some here]
          exact nobody i x here

/-- **Mappings never alias**, after every run of both mappers: the live ones have slots of their
own, which hold the frames of what was asked for, and the free bits are those of the other
slots. -/
theorem mappings_law {w : Kind → Window} {run : List Action} {s : State}
    (ran : exec (step w) State.init run = some s) (kind : Kind) :
    Law kind (w kind) (s.mapper kind) (s.live kind) := by
  have kept : s.Kept w := exec_invariant (fun _ _ _ before moved => step_kept before moved)
    init_kept ran
  exact (kept kind).law

/-- The windows of the two partitions of the kernel. -/
def windows : Kind → Window
  | .normal => vmaFillDescriptor 0 (by decide)
  | .io => vmaFillDescriptor 1 (by decide)

/-- A page that begins inside a frame, a frame beside it that is remapped, and the first unmapped. -/
theorem mappings_law_three : ∃ s, exec (step windows) State.init
      [.mapPhysPg .normal 0 4096, .mapPfn .normal 1 7, .remap 1 9, .unmap .normal 0] = some s ∧
    Law .normal (windows .normal) (s.mapper .normal) (s.live .normal) := by
  have ran : ∃ s, exec (step windows) State.init
      [.mapPhysPg .normal 0 4096, .mapPfn .normal 1 7, .remap 1 9, .unmap .normal 0] = some s :=
    ⟨_, rfl⟩
  obtain ⟨s, ran⟩ := ran
  exact ⟨s, ran, mappings_law ran .normal⟩

/-- An address from `2 ^ 51` on does not fit an entry: the pointer to it translates to another. -/
theorem mappings_high : ∃ s x, exec (step windows) State.init
      [.mapPhysPg .normal 0 (2 ^ 51)] = some s ∧
    s.live .normal 0 = some x ∧ x.phys = 2 ^ 51 ∧
    (s.mapper .normal).partition.translate x.addr = some 0 :=
  ⟨_, _, rfl, rfl, rfl, by decide⟩

end Twan.Kernel.Paging
