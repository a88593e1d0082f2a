/-
# Twan.Kernel.Multiboot -- the tags that the boot loader leaves

`parse_multiboot` of `src/kernel/init.c` steps over the tags of the multiboot information, and over
the entries of its memory maps, by the sizes that it finds there.  The size of the whole block is
checked once and not used again: a tag of size 0 is read for ever, as is a memory map whose entries
have size 0, and without an end tag the walk leaves the block.

Offsets are those from where the block is mapped, which is far below the end of the address space;
what is mapped behind the block is read like the rest of it.

`parse_multiboot_iff`: parsing terminates inside the block exactly where every tag that is reached
is inside, and is left.
-/
import Mathlib.Algebra.Group.Nat.Defs
import Twan.Base.BlockReads
import Twan.Kernel.InitRange
import Twan.Kernel.Paging

namespace Twan.Kernel

set_option autoImplicit false

open Twan.Base Twan.Base.Prog Twan.Base.Block

/-- The errors of the parsers, which return them negated. -/
inductive Errno where
  | enoent
  | enomem
  | efault
  deriving DecidableEq

namespace Multiboot

/-! ## `multiboot2.h` -/

def multibootInfoAlign : ℕ := 8
def multibootTagAlign : BitVec 32 := 8
def tagTypeEnd : BitVec 32 := 0
def tagTypeMmap : BitVec 32 := 6
def tagTypeAcpiOld : BitVec 32 := 14
def memoryAvailable : BitVec 32 := 1

/-- `p2align_up`, of 32 bits. -/
def p2alignUp (x y : BitVec 32) : BitVec 32 := (x + y - 1) &&& ~~~(y - 1)

/-- What the parser calls: the block is mapped or not, and a range is handed to the allocator. -/
inductive Call where
  | mapPhysPgLocal (phys : BitVec 64)
  | pmaInitRange (range : Range)

def Call.Reply : Call → Type
  | .mapPhysPgLocal _ => Bool
  | .pmaInitRange _ => Unit

abbrev Parser (α : Type) : Type := BlockProg Call Call.Reply α

def mapPhysPgLocal (phys : BitVec 64) : Parser Bool :=
  call (C := Call) (R := Call.Reply) (Call.mapPhysPgLocal phys)

def pmaInitRange (range : Range) : Parser Unit :=
  call (C := Call) (R := Call.Reply) (Call.pmaInitRange range)

section Parse

variable (kernelEnd : KernelEnd)

/-- `init_range`. -/
def passRange (range : Range) : Parser Unit :=
  match initRange kernelEnd range with
  | some clipped => pmaInitRange clipped
  | none => .ret ()

/-- An entry of a memory map; its last word is not read. -/
def parseEntry (entry : ℕ) : Parser Unit := do
  let start ← read entry 64
  let size ← read (entry + 8) 64
  let type ← read (entry + 16) 32
  if type = memoryAvailable then passRange kernelEnd ⟨start, size⟩ else .ret ()

/-- One turn over the memory map at `mmap`; `mmap_entry_ptr` and `mmap_entries_end`. -/
def mmapTurn (mmap stop entry : ℕ) : Parser (ℕ ⊕ Unit) :=
  if entry < stop then do
    parseEntry kernelEnd entry
    let entrySize ← read (mmap + 8) 32
    .ret (.inl (entry + entrySize.toNat))
  else .ret (.inr ())

/-- `MULTIBOOT_TAG_TYPE_MMAP`: the entries are behind the four words of the tag. -/
def parseMmap (fuel mmap : ℕ) : Parser Unit := do
  let size ← read (mmap + 4) 32
  loop (mmapTurn kernelEnd mmap (mmap + size.toNat)) fuel (mmap + 16)

/-- The `switch` over the type of a tag; `kernel->acpi.rsdt_phys` once it is located. -/
def parseTag (fuel tag : ℕ) (type : BitVec 32) (rsdt : Option (BitVec 32)) :
    Parser (Option (BitVec 32)) :=
  if type = tagTypeMmap then do
    parseMmap kernelEnd fuel tag
    .ret rsdt
  else if type = tagTypeAcpiOld then do
    -- `rsdt_addr` is the third word of the descriptor behind the 8 bytes of its signature and the
    -- 8 up to its revision, and the descriptor is behind the two words of the tag.
    let rsdtAddr ← read (tag + 8 + 16) 32
    .ret (some rsdtAddr)
  else .ret rsdt

/-- One tag; `mb_info_ptr` and `rsdt_located`. -/
def tagTurn (fuel : ℕ) (s : ℕ × Option (BitVec 32)) :
    Parser (ℕ × Option (BitVec 32) ⊕ Option (BitVec 32)) := do
  let type ← read s.1 32
  if type = tagTypeEnd then .ret (.inr s.2)
  else do
    let rsdt ← parseTag kernelEnd fuel s.1 type s.2
    let size ← read (s.1 + 4) 32
    .ret (.inl (s.1 + (p2alignUp size multibootTagAlign).toNat, rsdt))

/-- `parse_multiboot`; the address of the RSDT, which it stores. -/
def parseMultiboot (multibootInfoPhys : BitVec 64) (fuel : ℕ) : Parser (Except Errno (BitVec 32)) := do
  let mapped ← mapPhysPgLocal multibootInfoPhys
  match mapped with
  | false => .ret (.error .enomem)
  | true => do
      let mbInfoSize ← read 0 32
      if mbInfoSize.toNat > Paging.pageSize then .ret (.error .efault)
      else do
        let rsdt ← loop (tagTurn kernelEnd fuel) fuel (multibootInfoAlign, none)
        match rsdt with
        | none => .ret (.error .enoent)
        | some rsdtPhys => .ret (.ok rsdtPhys)

end Parse

/-! ## What the block says -/

section Block

variable (block : ℕ → BitVec 8)

def mbInfoSize : ℕ := (value block 0 32).toNat

def tagType (tag : ℕ) : BitVec 32 := value block tag 32

def tagSize (tag : ℕ) : BitVec 32 := value block (tag + 4) 32

def entrySize (mmap : ℕ) : ℕ := (value block (mmap + 8) 32).toNat

/-- The tag behind a tag. -/
def nextTag (tag : ℕ) : Option ℕ :=
  if tagType block tag = tagTypeEnd then none
  else some (tag + (p2alignUp (tagSize block tag) multibootTagAlign).toNat)

/-- The entries of a memory map that begin before its end have their three fields in the block, and
have a size. -/
def EntriesInside (size mmap : ℕ) : Prop :=
  ∀ k, 16 + k * entrySize block mmap < (tagSize block mmap).toNat →
    mmap + 16 + k * entrySize block mmap + 20 ≤ size ∧ entrySize block mmap ≠ 0

/-- The fields of a tag that are looked at are in the block. -/
structure TagInside (size tag : ℕ) : Prop where
  type : tag + 4 ≤ size
  header : tagType block tag ≠ tagTypeEnd → tag + 8 ≤ size
  mmap : tagType block tag = tagTypeMmap → EntriesInside block size tag
  acpiOld : tagType block tag = tagTypeAcpiOld → tag + 28 ≤ size

end Block

/-! ## One turn of each loop -/

section Turn

variable (kernelEnd : KernelEnd) (block : ℕ → BitVec 8) {σ : Type}
  (reply : (c : Call) → σ → c.Reply × σ) (size : ℕ)

theorem passRange_quiet (range : Range) :
    Quiet block reply size (passRange kernelEnd range) := by
  unfold passRange
  split
  · exact .call _
  · exact .ret ()

theorem parseEntry_obeys (entry : ℕ) (x : σ) :
    ∃ y, ∀ post, Obeys (inside block reply size) (parseEntry kernelEnd entry) x post ↔
      entry + 20 ≤ size ∧ post () y := by
  have quiet : Quiet block reply size
      (if value block (entry + 16) 32 = memoryAvailable then
        passRange kernelEnd ⟨value block entry 64, value block (entry + 8) 64⟩
      else .ret ()) :=
    .ite (passRange_quiet kernelEnd block reply size _) (.ret ())
  obtain ⟨_, y, passed⟩ := quiet x
  refine ⟨y, fun post => ?_⟩
  simp only [parseEntry, obeys_bind, obeys_read, passed]
  constructor
  · rintro ⟨_, _, room, holds⟩
    exact ⟨by omega, holds⟩
  · rintro ⟨room, holds⟩
    exact ⟨by omega, by omega, by omega, holds⟩

theorem mmapTurn_obeys {mmap stop entry : ℕ} (more : entry < stop) (x : σ) :
    ∃ y, ∀ post, Obeys (inside block reply size) (mmapTurn kernelEnd mmap stop entry) x post ↔
      (entry + 20 ≤ size ∧ mmap + 12 ≤ size) ∧ post (.inl (entry + entrySize block mmap)) y := by
  obtain ⟨y, parsed⟩ := parseEntry_obeys kernelEnd block reply size entry x
  refine ⟨y, fun post => ?_⟩
  rw [mmapTurn, if_pos more]
  simp only [obeys_bind, obeys_read, parsed, obeys_ret]
  exact and_assoc.symm

def EntryFine (size mmap stop entry : ℕ) : Prop :=
  entry < stop → entry + 20 ≤ size ∧ mmap + 12 ≤ size

def nextEntry (step stop entry : ℕ) : Option ℕ := if entry < stop then some (entry + step) else none

theorem mmap_turns (mmap stop : ℕ) :
    Turns (inside block reply size) (fun _ => mmapTurn kernelEnd mmap stop) (fun entry _ => entry)
      (EntryFine size mmap stop) (nextEntry (entrySize block mmap) stop) 0 := by
  refine .of_iff inside_halts fun entry x => ?_
  by_cases more : entry < stop
  · obtain ⟨y, parsed⟩ := mmapTurn_obeys kernelEnd block reply size more x
    refine ⟨.inl (entry + entrySize block mmap), y, if_pos more, fun post => ?_⟩
    rw [parsed, EntryFine, forall_prop_of_true more]
  · refine ⟨.inr (), x, if_neg more, fun post => ?_⟩
    rw [mmapTurn, if_neg more]
    exact (and_iff_right fun less => absurd less more).symm

variable {kernelEnd block reply size} {fuel mmap tag : ℕ} {x : σ}

/-! ## The memory map -/

theorem reached_entry {step stop first k : ℕ} (more : first + k * step < stop) :
    Reached (nextEntry step stop) first (first + k * step) := by
  induction k with
  | zero => rw [Nat.zero_mul, Nat.add_zero]
  | succ k ih =>
      have next : first + (k + 1) * step = first + k * step + step := by
        rw [Nat.succ_mul, Nat.add_assoc]
      have before : first + k * step < stop := by omega
      refine (ih before).tail ?_
      rw [next]
      exact if_pos before

theorem entry_of_reached {step stop first entry : ℕ}
    (comes : Reached (nextEntry step stop) first entry) : ∃ k, entry = first + k * step := by
  induction comes with
  | refl => exact ⟨0, by rw [Nat.zero_mul, Nat.add_zero]⟩
  | tail _ onward ih =>
      obtain ⟨k, rfl⟩ := ih
      unfold nextEntry at onward
      split_ifs at onward
      exact ⟨k + 1, by rw [← Option.some.inj onward, Nat.succ_mul, Nat.add_assoc]⟩

/-- The entries of a memory map are those that the walk comes to. -/
theorem entriesInside_iff (mmap : ℕ) : EntriesInside block size mmap ↔
    ∀ entry, Reached (nextEntry (entrySize block mmap) (mmap + (tagSize block mmap).toNat))
      (mmap + 16) entry →
      EntryFine size mmap (mmap + (tagSize block mmap).toNat) entry ∧
        nextEntry (entrySize block mmap) (mmap + (tagSize block mmap).toNat) entry ≠ some entry := by
  constructor
  · intro entries entry comes
    obtain ⟨k, rfl⟩ := entry_of_reached comes
    refine ⟨fun more => ?_, fun stays => ?_⟩
    · obtain ⟨room, _⟩ := entries k (by omega)
      exact ⟨room, by omega⟩
    · unfold nextEntry at stays
      split_ifs at stays with more
      have moves := (entries k (by omega)).2
      have same := Option.some.inj stays
      omega
  · intro all k more
    obtain ⟨fine, leaves⟩ := all _ (reached_entry (k := k) (by omega))
    refine ⟨(fine (by omega)).1, fun still => leaves ?_⟩
    unfold nextEntry
    rw [if_pos (by omega), still, Nat.add_zero]

theorem parseMmap_sound {post : Unit → σ → Prop}
    (obeys : Obeys (inside block reply size) (parseMmap kernelEnd fuel mmap) x post) :
    EntriesInside block size mmap ∧ ∃ y, post () y := by
  simp only [parseMmap, obeys_bind, obeys_read] at obeys
  refine ⟨(entriesInside_iff mmap).mpr fun entry comes => ?_, ?_⟩
  · exact (mmap_turns kernelEnd block reply size mmap _).good 0 obeys.2 comes
  · obtain ⟨_, y, holds⟩ := inside_returns obeys.2
    exact ⟨y, holds⟩

theorem parseMmap_complete (room : mmap + 8 ≤ size) (entries : EntriesInside block size mmap)
    (within : size < fuel) :
    Obeys (inside block reply size) (parseMmap kernelEnd fuel mmap) x fun _ _ => True := by
  simp only [parseMmap, obeys_bind, obeys_read]
  refine ⟨room, ?_⟩
  have progress : ∀ k k', EntryFine size mmap (mmap + (tagSize block mmap).toNat) k →
      nextEntry (entrySize block mmap) (mmap + (tagSize block mmap).toNat) k = some k' → k' ≠ k →
        size - k' < size - k := by
    intro k k' fine onward moves
    unfold nextEntry at onward
    split_ifs at onward with more
    have room := (fine more).1
    have isNext := Option.some.inj onward
    omega
  exact (mmap_turns kernelEnd block reply size mmap _).returns (fun entry => size - entry)
    progress (Nat.zero_le 0) ((entriesInside_iff mmap).mp entries) (by omega)

/-! ## The tags -/

theorem parseTag_sound {rsdt : Option (BitVec 32)} {post : Option (BitVec 32) → σ → Prop}
    (obeys : Obeys (inside block reply size) (parseTag kernelEnd fuel tag (tagType block tag) rsdt)
      x post) :
    (tagType block tag = tagTypeMmap → EntriesInside block size tag) ∧
      (tagType block tag = tagTypeAcpiOld → tag + 28 ≤ size) ∧ ∃ r y, post r y := by
  unfold parseTag at obeys
  split_ifs at obeys with mmap acpiOld
  · simp only [obeys_bind, obeys_ret] at obeys
    obtain ⟨entries, y, holds⟩ := parseMmap_sound obeys
    refine ⟨fun _ => entries, fun acpiOld => ?_, _, y, holds⟩
    rw [mmap] at acpiOld
    cases acpiOld
  · simp only [obeys_bind, obeys_read, obeys_ret] at obeys
    exact ⟨fun is => absurd is mmap, fun _ => obeys.1, _, x, obeys.2⟩
  · exact ⟨fun is => absurd is mmap, fun is => absurd is acpiOld, _, x, obeys⟩

theorem parseTag_complete {rsdt : Option (BitVec 32)} (header : tag + 8 ≤ size)
    (fine : TagInside block size tag) (within : size < fuel) :
    Obeys (inside block reply size) (parseTag kernelEnd fuel tag (tagType block tag) rsdt) x
      fun _ _ => True := by
  unfold parseTag
  split_ifs with mmap acpiOld
  · simp only [obeys_bind, obeys_ret]
    exact parseMmap_complete header (fine.mmap mmap) within
  · simp only [obeys_bind, obeys_read, obeys_ret]
    exact ⟨fine.acpiOld acpiOld, trivial⟩
  · trivial

theorem tag_turns : Turns (inside block reply size) (tagTurn kernelEnd) (fun s _ => s.1)
    (TagInside block size) (nextTag block) (size + 1) where
  never := inside_halts
  sound := by
    intro fuel s x post obeys
    simp only [tagTurn, obeys_bind, obeys_read] at obeys
    obtain ⟨type, obeys⟩ := obeys
    by_cases last : tagType block s.1 = tagTypeEnd
    · rw [if_pos (show value block s.1 32 = tagTypeEnd from last)] at obeys
      refine ⟨⟨type, fun more => absurd last more, fun mmap => ?_, fun acpiOld => ?_⟩,
        _, x, obeys, if_pos last⟩
      · rw [last] at mmap
        cases mmap
      · rw [last] at acpiOld
        cases acpiOld
    · rw [if_neg (show ¬value block s.1 32 = tagTypeEnd from last)] at obeys
      simp only [obeys_bind, obeys_read, obeys_ret] at obeys
      obtain ⟨mmap, acpiOld, r, y, header, holds⟩ := parseTag_sound obeys
      exact ⟨⟨type, fun _ => header, mmap, acpiOld⟩, _, y, holds, if_neg last⟩
  complete := by
    intro fuel s x within fine
    simp only [tagTurn, obeys_bind, obeys_read]
    refine ⟨fine.type, ?_⟩
    by_cases last : tagType block s.1 = tagTypeEnd
    · rw [if_pos (show value block s.1 32 = tagTypeEnd from last)]
      exact if_pos last
    · rw [if_neg (show ¬value block s.1 32 = tagTypeEnd from last)]
      have header := fine.header last
      simp only [obeys_bind, obeys_read, obeys_ret]
      exact (parseTag_complete header fine within).mono fun _ _ _ => ⟨header, if_neg last⟩

theorem tags_come_closer (tag tag' : ℕ) (fine : TagInside block size tag)
    (onward : nextTag block tag = some tag') (moves : tag' ≠ tag) : size - tag' < size - tag := by
  have room := fine.type
  unfold nextTag at onward
  split_ifs at onward
  have isNext := Option.some.inj onward
  omega

theorem mapPhysPgLocal_obeys (phys : BitVec 64) (post : Bool → σ → Prop) :
    Obeys (inside block reply size) (mapPhysPgLocal phys) x post ↔
      post (reply (.mapPhysPgLocal phys) x).1 (reply (.mapPhysPgLocal phys) x).2 :=
  obeys_call ..

/-- The walk over the tags, in a block of the right size. -/
theorem parseMultiboot_obeys_iff (multibootInfoPhys : BitVec 64) :
    Obeys (inside block reply size) (parseMultiboot kernelEnd multibootInfoPhys fuel) x
        (fun _ _ => True) ↔
      ((reply (.mapPhysPgLocal multibootInfoPhys) x).1 = true → 4 ≤ size ∧
        (mbInfoSize block ≤ Paging.pageSize →
          Obeys (inside block reply size) (loop (tagTurn kernelEnd fuel) fuel (multibootInfoAlign, none))
            (reply (.mapPhysPgLocal multibootInfoPhys) x).2 fun _ _ => True)) := by
  rw [parseMultiboot, obeys_bind, mapPhysPgLocal_obeys]
  cases mapped : (reply (.mapPhysPgLocal multibootInfoPhys) x).1 with
  | false => exact iff_of_true trivial fun wrong => by cases wrong
  | true =>
      refine Iff.trans ?_ (forall_prop_of_true rfl).symm
      simp only [obeys_bind, obeys_read]
      refine and_congr Iff.rfl ?_
      split_ifs with large
      · exact iff_of_true trivial fun small => absurd small (Nat.not_le_of_lt large)
      · have small : mbInfoSize block ≤ Paging.pageSize := Nat.le_of_not_lt large
        rw [forall_prop_of_true small]
        refine Quiet.after fun rsdt => ?_
        cases rsdt with
        | none => exact .ret _
        | some rsdtPhys => exact .ret _

/-- Parsing that terminates inside has come to good tags only. -/
theorem parseMultiboot_good {multibootInfoPhys : BitVec 64}
    (terminates : TerminatesInside block reply size (parseMultiboot kernelEnd multibootInfoPhys) x)
    (mapped : (reply (.mapPhysPgLocal multibootInfoPhys) x).1 = true)
    (small : mbInfoSize block ≤ Paging.pageSize)
    (comes : Reached (nextTag block) multibootInfoAlign tag) :
    TagInside block size tag ∧ nextTag block tag ≠ some tag := by
  obtain ⟨fuel, obeys⟩ := (terminatesInside_iff _ x).mp terminates
  have walked := ((parseMultiboot_obeys_iff multibootInfoPhys).mp obeys mapped).2 small
  exact tag_turns.good fuel walked comes

end Turn

/-- **When parsing terminates inside the block** -- in every environment, if the block is mapped and
is not too large: every tag that is reached from behind the header has the fields that are looked at
in the block, and is left for another one. -/
theorem parse_multiboot_iff {σ : Type} (kernelEnd : KernelEnd) (block : ℕ → BitVec 8)
    (reply : (c : Call) → σ → c.Reply × σ) (multibootInfoPhys : BitVec 64) (x : σ) :
    TerminatesInside block reply (mbInfoSize block) (parseMultiboot kernelEnd multibootInfoPhys) x ↔
      ((reply (.mapPhysPgLocal multibootInfoPhys) x).1 = true → mbInfoSize block ≤ Paging.pageSize →
        ∀ tag, Reached (nextTag block) multibootInfoAlign tag →
          TagInside block (mbInfoSize block) tag ∧ nextTag block tag ≠ some tag) := by
  constructor
  · exact fun terminates mapped small _ comes => parseMultiboot_good terminates mapped small comes
  · intro good
    rw [terminatesInside_iff]
    simp only [parseMultiboot_obeys_iff]
    by_cases runs : (reply (.mapPhysPgLocal multibootInfoPhys) x).1 = true ∧
        mbInfoSize block ≤ Paging.pageSize
    · obtain ⟨fuel, obeys⟩ := (tag_turns.loop_iff (fun tag => mbInfoSize block - tag)
        tags_come_closer (s := (multibootInfoAlign, none))
        (x := (reply (.mapPhysPgLocal multibootInfoPhys) x).2)).mpr (good runs.1 runs.2)
      have first := (good runs.1 runs.2 _ .refl).1.type
      exact ⟨fuel, fun _ => ⟨by omega, fun _ => obeys⟩⟩
    · refine ⟨0, fun mapped => ⟨?_, fun small => absurd ⟨mapped, small⟩ runs⟩⟩
      have page : 4 ≤ Paging.pageSize := by decide
      have large : ¬mbInfoSize block ≤ Paging.pageSize := fun small => runs ⟨mapped, small⟩
      omega

/-- A block of 16 bytes with one tag, of type 1 and of size 0. -/
def zeroTag (offset : ℕ) : BitVec 8 := if offset = 0 then 16 else if offset = 8 then 1 else 0

/-- Everything is mapped, and every range is taken. -/
def willing : (c : Call) → Unit → c.Reply × Unit
  | .mapPhysPgLocal _, x => (true, x)
  | .pmaInitRange _, x => ((), x)

/-- A tag of size 0 is parsed for ever. -/
theorem parse_multiboot_stays :
    mbInfoSize zeroTag = 16 ∧
      ¬TerminatesInside zeroTag willing 16 (parseMultiboot imageEnd 0x10000) () := by
  refine ⟨by decide, fun terminates => ?_⟩
  have stays : nextTag zeroTag multibootInfoAlign = some multibootInfoAlign := by decide
  exact (parseMultiboot_good terminates rfl (by decide) .refl).2 stays

end Multiboot

end Twan.Kernel
