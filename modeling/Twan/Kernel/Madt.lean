/-
# Twan.Kernel.Madt -- the three walks over the MADT

`parse_madt` of `src/kernel/init.c` and `__ioapic_config` and `__config_lapic_nmis` of
`src/kernel/apic/apic.c` each go over the entries behind the 44 bytes of the table, by the length
byte of each entry, and stop before an entry that ends behind the table.  An entry is not required
to be as long as what is looked at of it, nor to have a length: the one that is next to the end is
looked at beyond it, and an entry of length 0 is visited again and again, as long as its kind has
room.

Offsets are those from where the table is mapped; the layouts are those of the ACPI specification.
What is behind the table is read like the table.

`madt_walks_iff`: when each of the walks terminates inside the table.
-/
import Twan.Kernel.Multiboot

namespace Twan.Kernel.Madt

set_option autoImplicit false

open Twan.Base Twan.Base.Prog Twan.Base.Block

/-! ## `acpi.h` -/

def sizeofMadt : ℕ := 44
def entryTypeLapic : BitVec 8 := 0
def entryTypeIoapic : BitVec 8 := 1
def entryTypeInterruptSourceOverride : BitVec 8 := 2
def entryTypeNmiSource : BitVec 8 := 3
def entryTypeLapicNmi : BitVec 8 := 4
def entryTypeLapicAddressOverride : BitVec 8 := 5

/-- `ACPI_MADT_POLARITY_MASK`, all of which is `ACPI_MADT_POLARITY_ACTIVE_LOW`. -/
def activeLow (flags : BitVec 16) : Bool := flags &&& 0b11 = 0b11

/-- `ACPI_MADT_TRIGGERING_MASK`, all of which is `ACPI_MADT_TRIGGERING_LEVEL`. -/
def levelTrig (flags : BitVec 16) : Bool := flags &&& 0b1100 = 0b1100

/-- What the walks call. -/
inductive Call where
  | mapPhysPgIo (phys : BitVec 64)
  | ioapicRead (mmio : BitVec 64) (reg : BitVec 32)
  | ioapicWrite (mmio : BitVec 64) (reg data : BitVec 32)
  | lapicRead (offset : BitVec 32)
  | lapicWrite (offset : BitVec 32) (val : BitVec 64)

def Call.Reply : Call → Type
  | .mapPhysPgIo _ => Option (BitVec 64)
  | .ioapicRead .. => BitVec 32
  | .ioapicWrite .. => Unit
  | .lapicRead _ => BitVec 64
  | .lapicWrite .. => Unit

abbrev Walk (α : Type) : Type := BlockProg Call Call.Reply α

def perform (c : Call) : Walk c.Reply := call c

def mapPhysPgIo (phys : BitVec 64) : Walk (Option (BitVec 64)) := perform (.mapPhysPgIo phys)

def ioapicRead (mmio : BitVec 64) (reg : BitVec 32) : Walk (BitVec 32) :=
  perform (.ioapicRead mmio reg)

def ioapicWrite (mmio : BitVec 64) (reg data : BitVec 32) : Walk Unit :=
  perform (.ioapicWrite mmio reg data)

def lapicRead (offset : BitVec 32) : Walk (BitVec 64) := perform (.lapicRead offset)

def lapicWrite (offset : BitVec 32) (val : BitVec 64) : Walk Unit := perform (.lapicWrite offset val)

/-! ## The walk -/

/-- `madt_entries_end`: the entries, and the size that is left for them in 64 bits. -/
def madtEntriesEnd (length : BitVec 32) : ℕ :=
  (BitVec.ofNat 64 sizeofMadt + (length.setWidth 64 - BitVec.ofNat 64 sizeofMadt)).toNat

/-- A visit ends the walk with an error, or the walk goes on. -/
def turnEnd {τ : Type} (next : ℕ) : Except Errno τ → ℕ × τ ⊕ Except Errno τ
  | .ok t => .inl (next, t)
  | .error e => .inr (.error e)

/-- One turn of `while (madt_entry < madt_entries_end)`.  `__ioapic_config` and
`__config_lapic_nmis` step to the next entry before they visit this one, `parse_madt` after it. -/
def madtTurn {τ : Type} (stop : ℕ) (visit : ℕ → BitVec 8 → τ → Walk (Except Errno τ)) (s : ℕ × τ) :
    Walk (ℕ × τ ⊕ Except Errno τ) :=
  if s.1 < stop then do
    let length ← read (s.1 + 1) 8
    if s.1 + length.toNat > stop then .ret (.inr (.ok s.2))
    else do
      let type ← read s.1 8
      let visited ← visit s.1 type s.2
      .ret (turnEnd (s.1 + length.toNat) visited)
  else .ret (.inr (.ok s.2))

/-- The loop, from the first entry. -/
def walk {τ : Type} (length : BitVec 32) (visit : ℕ → BitVec 8 → τ → Walk (Except Errno τ))
    (fuel : ℕ) (t : τ) : Walk (Except Errno τ) :=
  loop (madtTurn (madtEntriesEnd length) visit) fuel (sizeofMadt, t)

/-- The check that each walk begins with; a table that is too large is refused. -/
def sizeChecked {α : Type} (rest : BitVec 32 → ℕ → Walk (Except Errno α)) (fuel : ℕ) :
    Walk (Except Errno α) := do
  let length ← read 4 32
  if length.toNat > Paging.pageSize then .ret (.error .efault) else rest length fuel

/-! ## `parse_madt` -/

/-- `NUM_CPUS` and `CONFIG_NUM_IOAPICS`. -/
structure Config where
  numCpus : ℕ
  numIoapics : ℕ

/-- What `per_cpu_data` has from the table. -/
structure Cpu where
  lapicId : BitVec 8
  acpiUid : BitVec 8
  flags : BitVec 32
  bsp : Bool

structure Ioapic where
  mmio : BitVec 64
  mmioPhys : BitVec 64
  gsiBase : BitVec 32

/-- The arrays have room for as many as are configured. -/
structure Info (cfg : Config) where
  lapicMmioPhys : BitVec 64
  cpus : List Cpu
  ioapics : List Ioapic
  numCapableCpus : ℕ
  numEnabledCpus : ℕ
  bspIndex : ℕ
  madtBspFound : Bool
  cpus_le : cpus.length ≤ cfg.numCpus
  ioapics_le : ioapics.length ≤ cfg.numIoapics

variable {cfg : Config}

def Info.start (cfg : Config) (lapicMmioPhys : BitVec 64) : Info cfg where
  lapicMmioPhys := lapicMmioPhys
  cpus := []
  ioapics := []
  numCapableCpus := 0
  numEnabledCpus := 0
  bspIndex := 0
  madtBspFound := false
  cpus_le := Nat.zero_le _
  ioapics_le := Nat.zero_le _

/-- `processor_enabled` and `online_capable` are the first two bits of the flags. -/
def Info.addCpu (info : Info cfg) (lapicId : BitVec 32) (id uid : BitVec 8) (flags : BitVec 32)
    (room : info.cpus.length ≠ cfg.numCpus) : Info cfg where
  lapicMmioPhys := info.lapicMmioPhys
  cpus := info.cpus ++ [⟨id, uid, flags, lapicId = id.setWidth 32⟩]
  ioapics := info.ioapics
  numCapableCpus :=
    if !flags.getLsbD 0 && flags.getLsbD 1 then info.numCapableCpus + 1 else info.numCapableCpus
  numEnabledCpus := if flags.getLsbD 0 then info.numEnabledCpus + 1 else info.numEnabledCpus
  bspIndex := if lapicId = id.setWidth 32 then info.cpus.length else info.bspIndex
  madtBspFound := info.madtBspFound || lapicId = id.setWidth 32
  cpus_le := by
    have le := info.cpus_le
    simp only [List.length_append, List.length_singleton]
    omega
  ioapics_le := info.ioapics_le

def Info.addIoapic (info : Info cfg) (ioapic : Ioapic)
    (room : info.ioapics.length ≠ cfg.numIoapics) : Info cfg where
  lapicMmioPhys := info.lapicMmioPhys
  cpus := info.cpus
  ioapics := info.ioapics ++ [ioapic]
  numCapableCpus := info.numCapableCpus
  numEnabledCpus := info.numEnabledCpus
  bspIndex := info.bspIndex
  madtBspFound := info.madtBspFound
  cpus_le := info.cpus_le
  ioapics_le := by
    have le := info.ioapics_le
    simp only [List.length_append, List.length_singleton]
    omega

def parseLapic (lapicId : BitVec 32) (entry : ℕ) (info : Info cfg) :
    Walk (Except Errno (Info cfg)) :=
  if full : info.cpus.length = cfg.numCpus then .ret (.error .efault)
  else do
    let flags ← read (entry + 4) 32
    let id ← read (entry + 3) 8
    let uid ← read (entry + 2) 8
    .ret (.ok (info.addCpu lapicId id uid flags full))

def parseIoapic (entry : ℕ) (info : Info cfg) : Walk (Except Errno (Info cfg)) :=
  if full : info.ioapics.length = cfg.numIoapics then .ret (.error .efault)
  else do
    let address ← read (entry + 4) 32
    let mapped ← mapPhysPgIo (address.setWidth 64)
    match mapped with
    | none => .ret (.error .enomem)
    | some mmio => do
        let gsiBase ← read (entry + 8) 32
        .ret (.ok (info.addIoapic ⟨mmio, address.setWidth 64, gsiBase⟩ full))

/-- The `switch` of `parse_madt`. -/
def parseEntry (lapicId : BitVec 32) (entry : ℕ) (type : BitVec 8) (info : Info cfg) :
    Walk (Except Errno (Info cfg)) :=
  if type = entryTypeLapic then parseLapic lapicId entry info
  else if type = entryTypeIoapic then parseIoapic entry info
  else if type = entryTypeLapicAddressOverride then do
    let address ← read (entry + 4) 64
    .ret (.ok { info with lapicMmioPhys := address })
  else .ret (.ok info)

/-- The checks behind the loop; the address of the local APIC's registers, and what was found. -/
def finishMadt (info : Info cfg) : Walk (Except Errno (BitVec 64 × Info cfg)) :=
  if info.cpus.isEmpty || !info.madtBspFound then .ret (.error .enoent)
  else do
    let mapped ← mapPhysPgIo info.lapicMmioPhys
    match mapped with
    | none => .ret (.error .enomem)
    | some lapicMmio => .ret (.ok (lapicMmio, info))

def parseEntries (cfg : Config) (lapicId length : BitVec 32) (fuel : ℕ) :
    Walk (Except Errno (BitVec 64 × Info cfg)) := do
  let lapicMmioPhys ← read 36 32
  let walked ← walk length (parseEntry lapicId) fuel (Info.start cfg (lapicMmioPhys.setWidth 64))
  match walked with
  | .error e => .ret (.error e)
  | .ok info => finishMadt info

/-- `parse_madt`, from where the table is found. -/
def parseMadt (cfg : Config) (lapicId : BitVec 32) :
    ℕ → Walk (Except Errno (BitVec 64 × Info cfg)) :=
  sizeChecked (parseEntries cfg lapicId)

/-! ## `__ioapic_config` -/

def dmNormal : BitVec 3 := 0

structure IrqLine where
  activeLow : Bool
  levelTrig : Bool
  deliveryMode : BitVec 3
  gsi : BitVec 32

/-- `__ioapic_gsi_to_mmio`: the last of those with the highest base that is not above. -/
def ioapicGsiToMmio (ioapics : List Ioapic) (gsi : BitVec 32) : Option (BitVec 64) × BitVec 32 :=
  ioapics.foldl (fun found ioapic =>
    if ioapic.gsiBase ≥ found.2 ∧ ioapic.gsiBase ≤ gsi then (some ioapic.mmio, ioapic.gsiBase)
    else found) (none, 0)

def ioapicRegVersion : BitVec 32 := 1

/-- `version.fields.redirection_entries_no + 1`. -/
def numRedirectionEntries (version : BitVec 32) : BitVec 32 :=
  (version.extractLsb' 16 8).setWidth 32 + 1

/-- `ioapic_reg_low(pin)`, kept in 8 bits. -/
def ioapicRegLow (pin : BitVec 32) : BitVec 32 := ((0x10 + pin * 2).setWidth 8).setWidth 32

/-- The fields `vector`, `delivery_mode`, `polarity` and `trigger_mode` of an entry for `NMI`, which
an entry of the I/O APIC and one of the local vector table have at the same bits. -/
def nmiFields (val : BitVec 32) (flags : BitVec 16) : BitVec 32 :=
  (val &&& ~~~0xa7ff#32) ||| 0x402 ||| ((BitVec.ofBool (activeLow flags)).setWidth 32 <<< 13) |||
    ((BitVec.ofBool (levelTrig flags)).setWidth 32 <<< 15)

def interruptMask : BitVec 32 := 0x10000

/-- `low_irq_map[src]`, of 16 lines. -/
def setLine (lowIrqMap : Fin 16 → IrqLine) (src : BitVec 8) (line : IrqLine) : Fin 16 → IrqLine :=
  if low : src.toNat < 16 then Function.update lowIrqMap ⟨src.toNat, low⟩ line else lowIrqMap

def configNmiSource (ioapics : List Ioapic) (gsi : BitVec 32) (flags : BitVec 16) : Walk Unit :=
  match ioapicGsiToMmio ioapics gsi with
  | (none, _) => .ret ()
  | (some mmio, gsiBase) => do
      let version ← ioapicRead mmio ioapicRegVersion
      if gsi - gsiBase ≥ numRedirectionEntries version then .ret ()
      else do
        let val ← ioapicRead mmio (ioapicRegLow (gsi - gsiBase))
        ioapicWrite mmio (ioapicRegLow (gsi - gsiBase)) (nmiFields val flags ||| interruptMask)

/-- The `switch` of `__ioapic_config`. -/
def configEntry (ioapics : List Ioapic) (entry : ℕ) (type : BitVec 8)
    (lowIrqMap : Fin 16 → IrqLine) : Walk (Except Errno (Fin 16 → IrqLine)) :=
  if type = entryTypeInterruptSourceOverride then do
    let src ← read (entry + 3) 8
    let gsi ← read (entry + 4) 32
    let flags ← read (entry + 8) 16
    .ret (.ok (setLine lowIrqMap src ⟨activeLow flags, levelTrig flags, dmNormal, gsi⟩))
  else if type = entryTypeNmiSource then do
    let gsi ← read (entry + 4) 32
    let flags ← read (entry + 2) 16
    configNmiSource ioapics gsi flags
    .ret (.ok lowIrqMap)
  else .ret (.ok lowIrqMap)

/-- `__ioapic_config`, from where the table is found; the lines that it leaves. -/
def ioapicConfig (ioapics : List Ioapic) (lowIrqMap : Fin 16 → IrqLine) :
    ℕ → Walk (Except Errno (Fin 16 → IrqLine)) :=
  sizeChecked fun length fuel => walk length (configEntry ioapics) fuel lowIrqMap

/-! ## `__config_lapic_nmis` -/

def lapicLint0Offset : BitVec 32 := 0x350
def lapicLint1Offset : BitVec 32 := 0x360

def configLint (offset : BitVec 32) (flags : BitVec 16) : Walk Unit := do
  let val ← lapicRead offset
  lapicWrite offset ((nmiFields (val.setWidth 32) flags).setWidth 64)

def configLints (lint : BitVec 8) (flags : BitVec 16) : Walk Unit :=
  if lint = 0 then configLint lapicLint0Offset flags
  else if lint = 1 then configLint lapicLint1Offset flags
  else .ret ()

/-- The body of the loop of `__config_lapic_nmis`; `0xff` is every processor. -/
def nmiEntry (acpiUid : BitVec 32) (entry : ℕ) (type : BitVec 8) (_ : Unit) :
    Walk (Except Errno Unit) :=
  if type ≠ entryTypeLapicNmi then .ret (.ok ())
  else do
    let uid ← read (entry + 2) 8
    if uid.setWidth 32 ≠ acpiUid ∧ uid ≠ 0xff then .ret (.ok ())
    else do
      let flags ← read (entry + 3) 16
      let lint ← read (entry + 5) 8
      configLints lint flags
      .ret (.ok ())

/-- `__config_lapic_nmis`, from where the table is found. -/
def configLapicNmis (acpiUid : BitVec 32) : ℕ → Walk (Except Errno Unit) :=
  sizeChecked fun length fuel => walk length (nmiEntry acpiUid) fuel ()

/-! ## What the table says -/

section Table

variable (table : ℕ → BitVec 8) (size : ℕ) {κ : Type}

def madtLength : ℕ := (value table 4 32).toNat

def entryType (entry : ℕ) : BitVec 8 := value table entry 8

def entryLength (entry : ℕ) : ℕ := (value table (entry + 1) 8).toNat

/-- The entry behind an entry that ends in the table and that the walk goes past; `pass` follows
what else the walk depends on. -/
def nextEntry (pass : ℕ → κ → Option κ) (place : ℕ × κ) : Option (ℕ × κ) :=
  if place.1 < size ∧ place.1 + entryLength table place.1 ≤ size then
    (pass place.1 place.2).map fun k => (place.1 + entryLength table place.1, k)
  else none

/-- The two bytes that begin an entry are in the table, and if it ends there, so are the first
`need` bytes of it. -/
def EntryInside (need : ℕ → κ → ℕ) (place : ℕ × κ) : Prop :=
  place.1 < size → place.1 + 2 ≤ size ∧
    (place.1 + entryLength table place.1 ≤ size → place.1 + need place.1 place.2 ≤ size)

/-- Every entry that is reached is inside, and is left. -/
def Walkable (need : ℕ → κ → ℕ) (pass : ℕ → κ → Option κ) (start : κ) : Prop :=
  ∀ place, Reached (nextEntry table size pass) (sizeofMadt, start) place →
    EntryInside table size need place ∧ nextEntry table size pass place ≠ some place

/-- What `parse_madt` depends on: for how many more processors and I/O APICs there is room, and what
the mapping of pages depends on. -/
structure Room (σ : Type) where
  cpus : ℕ
  ioapics : ℕ
  world : σ
  deriving DecidableEq

variable {σ : Type} (reply : (c : Call) → σ → c.Reply × σ)

/-- Whether a page of registers is mapped, and what is left. -/
def mapped (phys : BitVec 64) (world : σ) : Option (BitVec 64) × σ := reply (.mapPhysPgIo phys) world

/-- `ioapic->address`. -/
def ioapicAddress (entry : ℕ) : BitVec 64 := (value table (entry + 4) 32).setWidth 64

/-- The bytes of an entry that `parse_madt` looks at. -/
def parseNeed (entry : ℕ) (room : Room σ) : ℕ :=
  if entryType table entry = entryTypeLapic then if room.cpus = 0 then 0 else 8
  else if entryType table entry = entryTypeIoapic then
    if room.ioapics = 0 then 0
    else if (mapped reply (ioapicAddress table entry) room.world).1 = none then 8 else 12
  else if entryType table entry = entryTypeLapicAddressOverride then 12 else 0

/-- Where `parse_madt` goes past an entry: there is room for it, and its registers are mapped. -/
def parsePass (entry : ℕ) (room : Room σ) : Option (Room σ) :=
  if entryType table entry = entryTypeLapic then
    if room.cpus = 0 then none else some { room with cpus := room.cpus - 1 }
  else if entryType table entry = entryTypeIoapic then
    if room.ioapics = 0 ∨ (mapped reply (ioapicAddress table entry) room.world).1 = none then none
    else some ⟨room.cpus, room.ioapics - 1, (mapped reply (ioapicAddress table entry) room.world).2⟩
  else some room

/-- The bytes of an entry that `__ioapic_config` looks at. -/
def configNeed (entry : ℕ) (_ : Unit) : ℕ :=
  if entryType table entry = entryTypeInterruptSourceOverride then 10
  else if entryType table entry = entryTypeNmiSource then 8 else 0

/-- The bytes of an entry that `__config_lapic_nmis` looks at, on the processor of this uid. -/
def nmiNeed (acpiUid : BitVec 32) (entry : ℕ) (_ : Unit) : ℕ :=
  if entryType table entry ≠ entryTypeLapicNmi then 0
  else if (value table (entry + 2) 8).setWidth 32 ≠ acpiUid ∧ value table (entry + 2) 8 ≠ 0xff then 3
  else 6

end Table

/-! ## One turn -/

section Turn

variable {table : ℕ → BitVec 8} {size : ℕ} {σ τ κ : Type} {reply : (c : Call) → σ → c.Reply × σ}

/-- A visit goes on exactly where the walk passes. -/
def Goes (count : τ → σ → κ) (pass : Option κ) : Except Errno τ → σ → Prop
  | .ok t, x => pass = some (count t x)
  | .error _, _ => pass = none

/-- What a visit reads are the first `need` bytes of the entry. -/
def Visits (table : ℕ → BitVec 8) (size : ℕ) (reply : (c : Call) → σ → c.Reply × σ)
    (visit : ℕ → BitVec 8 → τ → Walk (Except Errno τ)) (count : τ → σ → κ) (need : ℕ → κ → ℕ)
    (pass : ℕ → κ → Option κ) : Prop :=
  ∀ entry t x, entry ≤ size → ∃ r y, Goes count (pass entry (count t x)) r y ∧
    ∀ post, Obeys (inside table reply size) (visit entry (entryType table entry) t) x post ↔
      entry + need entry (count t x) ≤ size ∧ post r y

theorem madtEntriesEnd_eq (length : BitVec 32) : madtEntriesEnd length = length.toNat := by
  rw [madtEntriesEnd, BitVec.add_comm, BitVec.sub_add_cancel, BitVec.toNat_setWidth]
  exact Nat.mod_eq_of_lt (Nat.lt_trans length.isLt (by decide))

theorem madt_turns {visit : ℕ → BitVec 8 → τ → Walk (Except Errno τ)} {count : τ → σ → κ}
    {need : ℕ → κ → ℕ} {pass : ℕ → κ → Option κ}
    (visits : Visits table size reply visit count need pass) :
    Turns (inside table reply size) (fun _ => madtTurn size visit) (fun s x => (s.1, count s.2 x))
      (EntryInside table size need) (nextEntry table size pass) 0 := by
  refine .of_iff inside_halts fun s x => ?_
  by_cases more : s.1 < size
  · by_cases fits : s.1 + entryLength table s.1 ≤ size
    · obtain ⟨r, y, goes, visited⟩ := visits s.1 s.2 x (Nat.le_of_lt more)
      refine ⟨turnEnd (s.1 + entryLength table s.1) r, y, ?_, fun post => ?_⟩
      · have next : nextEntry table size pass (s.1, count s.2 x) = (pass s.1 (count s.2 x)).map
            fun k => (s.1 + entryLength table s.1, k) := if_pos ⟨more, fits⟩
        rw [next]
        cases r with
        | ok t => exact congrArg (Option.map _) goes
        | error e => exact congrArg (Option.map _) goes
      · have inTable : ¬s.1 + (value table (s.1 + 1) 8).toNat > size := Nat.not_lt_of_le fits
        rw [madtTurn, if_pos more, obeys_bind, obeys_read, if_neg inTable]
        simp only [obeys_bind, obeys_read, obeys_ret]
        rw [← entryType, visited, EntryInside]
        constructor
        · rintro ⟨header, _, need, holds⟩
          exact ⟨fun _ => ⟨by omega, fun _ => need⟩, holds⟩
        · rintro ⟨isFine, holds⟩
          obtain ⟨header, need⟩ := isFine more
          exact ⟨by omega, by omega, need fits, holds⟩
    · have cut : s.1 + (value table (s.1 + 1) 8).toNat > size := Nat.lt_of_not_le fits
      refine ⟨.inr (.ok s.2), x, if_neg fun both => fits both.2, fun post => ?_⟩
      rw [madtTurn, if_pos more, obeys_bind, obeys_read, if_pos cut, obeys_ret]
      refine and_congr_left fun _ => ?_
      constructor
      · exact fun header _ => ⟨header, fun less => absurd less fits⟩
      · exact fun isFine => (isFine more).1
  · refine ⟨.inr (.ok s.2), x, if_neg fun both => more both.1, fun post => ?_⟩
    rw [madtTurn, if_neg more]
    exact (and_iff_right fun less => absurd less more).symm

/-- What the entries allow for becomes less, unless the walk stays. -/
theorem walk_iff {visit : ℕ → BitVec 8 → τ → Walk (Except Errno τ)} {count : τ → σ → κ}
    {need : ℕ → κ → ℕ} {pass : ℕ → κ → Option κ} (left : κ → ℕ)
    (less : ∀ entry k k', pass entry k = some k' → k' = k ∨ left k' < left k)
    (length : BitVec 32) (isSize : length.toNat = size)
    (visits : Visits table size reply visit count need pass) (t : τ) (x : σ) :
    (∃ fuel, Obeys (inside table reply size) (walk length visit fuel t) x fun _ _ => True) ↔
      Walkable table size need pass (count t x) := by
  unfold walk
  rw [madtEntriesEnd_eq, isSize]
  refine (madt_turns visits).loop_iff (fun place => size - place.1 + left place.2) ?_
  rintro ⟨entry, k⟩ ⟨entry', k'⟩ _ onward moves
  unfold nextEntry at onward
  split_ifs at onward with inTable
  obtain ⟨k'', passed, same⟩ := Option.map_eq_some_iff.mp onward
  obtain ⟨rfl, rfl⟩ := Prod.mk.inj same
  dsimp only at inTable ⊢
  rcases less entry k k'' passed with rfl | less
  · have length : entryLength table entry ≠ 0 := fun zero => moves (by rw [zero, Nat.add_zero])
    omega
  · omega

/-! ## The visits -/

/-- For how many more there is room. -/
def roomOf (info : Info cfg) (world : σ) : Room σ where
  cpus := cfg.numCpus - info.cpus.length
  ioapics := cfg.numIoapics - info.ioapics.length
  world := world

theorem roomOf_world (info : Info cfg) (x : σ) : (roomOf info x).world = x := rfl

theorem roomOf_cpus_eq_zero (info : Info cfg) (x : σ) :
    (roomOf info x).cpus = 0 ↔ info.cpus.length = cfg.numCpus := by
  have le := info.cpus_le
  simp only [roomOf]
  omega

theorem roomOf_ioapics_eq_zero (info : Info cfg) (x : σ) :
    (roomOf info x).ioapics = 0 ↔ info.ioapics.length = cfg.numIoapics := by
  have le := info.ioapics_le
  simp only [roomOf]
  omega

theorem roomOf_override (info : Info cfg) (address : BitVec 64) (x : σ) :
    roomOf { info with lapicMmioPhys := address } x = roomOf info x := rfl

theorem mapPhysPgIo_obeys (phys : BitVec 64) (x : σ) (post : Option (BitVec 64) → σ → Prop) :
    Obeys (inside table reply size) (mapPhysPgIo phys) x post ↔
      post (mapped reply phys x).1 (mapped reply phys x).2 :=
  obeys_call ..

/-- The visit of a processor's entry. -/
theorem parseLapic_goes (lapicId : BitVec 32) {entry : ℕ} (info : Info cfg) (x : σ)
    (inTable : entry ≤ size) (lapic : entryType table entry = entryTypeLapic) :
    ∃ r, Goes roomOf (parsePass table reply entry (roomOf info x)) r x ∧
      ∀ post, Obeys (inside table reply size) (parseLapic lapicId entry info) x post ↔
        entry + parseNeed table reply entry (roomOf info x) ≤ size ∧ post r x := by
  have full := roomOf_cpus_eq_zero info x
  unfold parsePass parseNeed parseLapic
  rw [if_pos lapic, if_pos lapic]
  by_cases room : info.cpus.length = cfg.numCpus
  · rw [if_pos (full.mpr room), if_pos (full.mpr room), dif_pos room]
    exact ⟨.error .efault, rfl, fun post => (and_iff_right inTable).symm⟩
  · rw [if_neg (mt full.mp room), if_neg (mt full.mp room), dif_neg room]
    refine ⟨.ok (info.addCpu lapicId (value table (entry + 3) 8) (value table (entry + 2) 8)
      (value table (entry + 4) 32) room), ?_, fun post => ?_⟩
    · refine congrArg some ?_
      simp only [roomOf, Info.addCpu, List.length_append, List.length_singleton, Nat.sub_sub]
    · simp only [obeys_bind, obeys_read, obeys_ret]
      constructor
      · rintro ⟨flags, _, _, holds⟩
        exact ⟨flags, holds⟩
      · rintro ⟨flags, holds⟩
        exact ⟨flags, by omega, by omega, holds⟩

/-- The visit of an I/O APIC's entry. -/
theorem parseIoapic_goes {entry : ℕ} (info : Info cfg) (x : σ) (inTable : entry ≤ size)
    (other : ¬entryType table entry = entryTypeLapic)
    (ioapic : entryType table entry = entryTypeIoapic) :
    ∃ r y, Goes roomOf (parsePass table reply entry (roomOf info x)) r y ∧
      ∀ post, Obeys (inside table reply size) (parseIoapic entry info) x post ↔
        entry + parseNeed table reply entry (roomOf info x) ≤ size ∧ post r y := by
  have full := roomOf_ioapics_eq_zero info x
  unfold parsePass parseNeed parseIoapic
  rw [if_neg other, if_neg other, if_pos ioapic, if_pos ioapic]
  by_cases room : info.ioapics.length = cfg.numIoapics
  · rw [if_pos (full.mpr room), if_pos (.inl (full.mpr room)), dif_pos room]
    exact ⟨.error .efault, x, rfl, fun post => (and_iff_right inTable).symm⟩
  · rw [if_neg (mt full.mp room), dif_neg room]
    simp only [obeys_bind, obeys_read, mapPhysPgIo_obeys]
    rw [← ioapicAddress, roomOf_world]
    cases isMapped : (mapped reply (ioapicAddress table entry) x).1 with
    | none =>
        rw [if_pos (.inr rfl), if_pos rfl]
        exact ⟨.error .enomem, _, rfl, fun post => Iff.rfl⟩
    | some mmio =>
        rw [if_neg (not_or.mpr ⟨mt full.mp room, Option.some_ne_none mmio⟩),
          if_neg (Option.some_ne_none mmio)]
        refine ⟨.ok (info.addIoapic ⟨mmio, ioapicAddress table entry, value table (entry + 8) 32⟩ room),
          (mapped reply (ioapicAddress table entry) x).2, ?_, fun post => ?_⟩
        · refine congrArg some ?_
          simp only [roomOf, Info.addIoapic, List.length_append, List.length_singleton, Nat.sub_sub]
        · simp only [obeys_bind, obeys_read, obeys_ret]
          constructor
          · rintro ⟨_, gsiBase, holds⟩
            exact ⟨gsiBase, holds⟩
          · rintro ⟨gsiBase, holds⟩
            exact ⟨by omega, gsiBase, holds⟩

theorem parse_visits (lapicId : BitVec 32) :
    Visits table size reply (@parseEntry cfg lapicId) roomOf (parseNeed table reply)
      (parsePass table reply) := by
  intro entry info x inTable
  unfold parseEntry
  split_ifs with lapic ioapic override
  · obtain ⟨r, goes, visited⟩ := parseLapic_goes lapicId info x inTable lapic
    exact ⟨r, x, goes, visited⟩
  · exact parseIoapic_goes info x inTable lapic ioapic
  · unfold parsePass parseNeed
    rw [if_neg lapic, if_neg ioapic, if_neg lapic, if_neg ioapic, if_pos override]
    have room := roomOf_override info (value table (entry + 4) 64) x
    refine ⟨.ok { info with lapicMmioPhys := value table (entry + 4) 64 }, x,
      congrArg some room.symm, fun post => ?_⟩
    simp only [obeys_bind, obeys_read, obeys_ret]
  · unfold parsePass parseNeed
    rw [if_neg lapic, if_neg ioapic, if_neg lapic, if_neg ioapic, if_neg override]
    exact ⟨.ok info, x, rfl, fun post => (and_iff_right inTable).symm⟩

theorem parsePass_less (entry : ℕ) (room room' : Room σ)
    (passed : parsePass table reply entry room = some room') :
    room' = room ∨ room'.cpus + room'.ioapics < room.cpus + room.ioapics := by
  unfold parsePass at passed
  split_ifs at passed with lapic none ioapic none
  · obtain rfl := Option.some.inj passed
    right
    dsimp only
    omega
  · obtain rfl := Option.some.inj passed
    right
    have some := not_or.mp none
    dsimp only
    omega
  · exact .inl (Option.some.inj passed).symm

variable (table size reply) in
theorem configNmiSource_quiet (ioapics : List Ioapic) (gsi : BitVec 32) (flags : BitVec 16) :
    Quiet table reply size (configNmiSource ioapics gsi flags) := by
  unfold configNmiSource
  split
  · exact .ret ()
  · refine .bind (.call _) fun version => ?_
    exact .ite (.ret ()) (.bind (.call _) fun val => .call _)

theorem config_visits (ioapics : List Ioapic) :
    Visits table size reply (configEntry ioapics) (fun _ _ => ()) (configNeed table)
      (fun _ => some) := by
  intro entry lowIrqMap x inTable
  unfold configEntry configNeed
  split_ifs with override nmi
  · refine ⟨.ok (setLine lowIrqMap (value table (entry + 3) 8) ⟨activeLow (value table (entry + 8) 16),
      levelTrig (value table (entry + 8) 16), dmNormal, value table (entry + 4) 32⟩), x, rfl,
      fun post => ?_⟩
    simp only [obeys_bind, obeys_read, obeys_ret]
    constructor
    · rintro ⟨_, _, flags, holds⟩
      exact ⟨flags, holds⟩
    · rintro ⟨flags, holds⟩
      exact ⟨by omega, by omega, flags, holds⟩
  · obtain ⟨_, y, configured⟩ := configNmiSource_quiet table size reply
      ioapics (value table (entry + 4) 32) (value table (entry + 2) 16) x
    refine ⟨.ok lowIrqMap, y, rfl, fun post => ?_⟩
    simp only [obeys_bind, obeys_read, configured, obeys_ret]
    constructor
    · rintro ⟨gsi, _, holds⟩
      exact ⟨gsi, holds⟩
    · rintro ⟨gsi, holds⟩
      exact ⟨gsi, by omega, holds⟩
  · exact ⟨.ok lowIrqMap, x, rfl, fun post => (and_iff_right inTable).symm⟩

variable (table size reply) in
theorem configLints_quiet (lint : BitVec 8) (flags : BitVec 16) :
    Quiet table reply size (configLints lint flags) := by
  have config : ∀ offset, Quiet table reply size (configLint offset flags) :=
    fun offset => .bind (.call _) fun val => .call _
  exact .ite (config _) (.ite (config _) (.ret ()))

theorem nmi_visits (acpiUid : BitVec 32) :
    Visits table size reply (nmiEntry acpiUid) (fun _ _ => ()) (nmiNeed table acpiUid)
      (fun _ => some) := by
  intro entry _ x inTable
  unfold nmiEntry nmiNeed
  split_ifs with other uid
  · exact ⟨.ok (), x, rfl, fun post => (and_iff_right inTable).symm⟩
  · refine ⟨.ok (), x, rfl, fun post => ?_⟩
    simp only [obeys_bind, obeys_read]
    rw [if_pos uid]
    rfl
  · obtain ⟨_, y, configured⟩ := configLints_quiet table size reply
      (value table (entry + 5) 8) (value table (entry + 3) 16) x
    refine ⟨.ok (), y, rfl, fun post => ?_⟩
    simp only [obeys_bind, obeys_read]
    rw [if_neg uid]
    simp only [obeys_bind, obeys_read, configured, obeys_ret]
    constructor
    · rintro ⟨_, _, lint, holds⟩
      exact ⟨lint, holds⟩
    · rintro ⟨lint, holds⟩
      exact ⟨by omega, by omega, lint, holds⟩

/-! ## The walks -/

theorem sizeChecked_iff {α : Type} {rest : BitVec 32 → ℕ → Walk (Except Errno α)} {x : σ}
    {walkable : Prop}
    (walked : (∃ fuel, Obeys (inside table reply (madtLength table)) (rest (value table 4 32) fuel) x
      fun _ _ => True) ↔ walkable) :
    TerminatesInside table reply (madtLength table) (sizeChecked rest) x ↔
      (madtLength table ≤ Paging.pageSize → 8 ≤ madtLength table ∧ walkable) := by
  rw [terminatesInside_iff, ← walked]
  have page : 8 ≤ Paging.pageSize := by decide
  simp only [sizeChecked, obeys_bind, obeys_read]
  by_cases small : madtLength table ≤ Paging.pageSize
  · have kept : ¬(value table 4 32).toNat > Paging.pageSize := Nat.not_lt_of_le small
    simp only [if_neg kept, forall_prop_of_true small]
    exact exists_and_left
  · have large : (value table 4 32).toNat > Paging.pageSize := Nat.lt_of_not_le small
    simp only [if_pos large]
    exact iff_of_true ⟨0, by omega, trivial⟩ fun wrong => absurd wrong small

theorem finishMadt_quiet (info : Info cfg) : Quiet table reply size (finishMadt info) := by
  refine .ite (.ret _) (.bind (.call _) fun found => ?_)
  cases found with
  | none => exact .ret _
  | some lapicMmio => exact .ret _

theorem parse_madt_iff (cfg : Config) (lapicId : BitVec 32) (x : σ) :
    TerminatesInside table reply (madtLength table) (parseMadt cfg lapicId) x ↔
      (madtLength table ≤ Paging.pageSize → 40 ≤ madtLength table ∧
        Walkable table (madtLength table) (parseNeed table reply) (parsePass table reply)
          ⟨cfg.numCpus, cfg.numIoapics, x⟩) := by
  have walked : (∃ fuel, Obeys (inside table reply (madtLength table))
      (walk (value table 4 32) (parseEntry lapicId) fuel
        (Info.start cfg ((value table 36 32).setWidth 64))) x fun _ _ => True) ↔
      Walkable table (madtLength table) (parseNeed table reply) (parsePass table reply)
        ⟨cfg.numCpus, cfg.numIoapics, x⟩ :=
    walk_iff (fun room => room.cpus + room.ioapics) parsePass_less _ rfl (parse_visits lapicId) _ x
  have entries : (∃ fuel, Obeys (inside table reply (madtLength table))
      (parseEntries cfg lapicId (value table 4 32) fuel) x fun _ _ => True) ↔
      40 ≤ madtLength table ∧ Walkable table (madtLength table) (parseNeed table reply)
        (parsePass table reply) ⟨cfg.numCpus, cfg.numIoapics, x⟩ := by
    refine Iff.trans ?_ (and_congr_right fun _ => walked)
    rw [← exists_and_left]
    refine exists_congr fun fuel => ?_
    rw [parseEntries, obeys_bind, obeys_read]
    refine and_congr_right fun _ => Quiet.after fun found => ?_
    cases found with
    | error e => exact .ret _
    | ok info => exact finishMadt_quiet info
  rw [parseMadt, sizeChecked_iff entries]
  refine forall_congr' fun _ => ?_
  constructor
  · exact fun both => both.2
  · exact fun both => ⟨by omega, both⟩

theorem ioapic_config_iff (ioapics : List Ioapic) (lowIrqMap : Fin 16 → IrqLine) (x : σ) :
    TerminatesInside table reply (madtLength table) (ioapicConfig ioapics lowIrqMap) x ↔
      (madtLength table ≤ Paging.pageSize → 8 ≤ madtLength table ∧
        Walkable table (madtLength table) (configNeed table) (fun _ => some) ()) :=
  sizeChecked_iff (walk_iff (fun _ => 0) (fun _ _ _ _ => .inl rfl) _ rfl (config_visits ioapics)
    lowIrqMap x)

theorem config_lapic_nmis_iff (acpiUid : BitVec 32) (x : σ) :
    TerminatesInside table reply (madtLength table) (configLapicNmis acpiUid) x ↔
      (madtLength table ≤ Paging.pageSize → 8 ≤ madtLength table ∧
        Walkable table (madtLength table) (nmiNeed table acpiUid) (fun _ => some) ()) :=
  sizeChecked_iff (walk_iff (fun _ => 0) (fun _ _ _ _ => .inl rfl) _ rfl (nmi_visits acpiUid) () x)

end Turn

/-- **When the walks over the MADT terminate inside it** -- for every table that is not too large, in
every environment: its fixed part that is looked at is inside, and every entry that the walk reaches
is inside, as far as it is looked at, and is left. -/
theorem madt_walks_iff {σ : Type} (cfg : Config) (ioapics : List Ioapic)
    (lowIrqMap : Fin 16 → IrqLine) (lapicId acpiUid : BitVec 32) (table : ℕ → BitVec 8)
    (reply : (c : Call) → σ → c.Reply × σ) (x : σ) :
    (TerminatesInside table reply (madtLength table) (parseMadt cfg lapicId) x ↔
      (madtLength table ≤ Paging.pageSize → 40 ≤ madtLength table ∧
        Walkable table (madtLength table) (parseNeed table reply) (parsePass table reply)
          ⟨cfg.numCpus, cfg.numIoapics, x⟩)) ∧
    (TerminatesInside table reply (madtLength table) (ioapicConfig ioapics lowIrqMap) x ↔
      (madtLength table ≤ Paging.pageSize → 8 ≤ madtLength table ∧
        Walkable table (madtLength table) (configNeed table) (fun _ => some) ())) ∧
    (TerminatesInside table reply (madtLength table) (configLapicNmis acpiUid) x ↔
      (madtLength table ≤ Paging.pageSize → 8 ≤ madtLength table ∧
        Walkable table (madtLength table) (nmiNeed table acpiUid) (fun _ => some) ())) :=
  ⟨parse_madt_iff cfg lapicId x, ioapic_config_iff ioapics lowIrqMap x,
    config_lapic_nmis_iff acpiUid x⟩

/-- A table of 46 bytes with one entry, of a type that no walk knows and of length 0. -/
def zeroEntry (offset : ℕ) : BitVec 8 := if offset = 4 then 46 else if offset = 44 then 0xff else 0

/-- Registers read as 0, and none are mapped. -/
def silent : (c : Call) → Unit → c.Reply × Unit
  | .mapPhysPgIo _, x => (none, x)
  | .ioapicRead .., x => (0#32, x)
  | .ioapicWrite .., x => ((), x)
  | .lapicRead _, x => (0#64, x)
  | .lapicWrite .., x => ((), x)

/-- An entry of length 0 is visited for ever, by each of the walks. -/
theorem madt_walks_stay :
    madtLength zeroEntry = 46 ∧
      ¬TerminatesInside zeroEntry silent (madtLength zeroEntry) (parseMadt ⟨32, 1⟩ 0) () ∧
      ¬TerminatesInside zeroEntry silent (madtLength zeroEntry)
        (ioapicConfig [] fun _ => ⟨false, false, dmNormal, 0⟩) () ∧
      ¬TerminatesInside zeroEntry silent (madtLength zeroEntry) (configLapicNmis 0) () := by
  have small : madtLength zeroEntry ≤ Paging.pageSize := by decide
  refine ⟨by decide, fun terminates => ?_, fun terminates => ?_, fun terminates => ?_⟩
  · exact (((parse_madt_iff _ _ _).mp terminates small).2 _ .refl).2 (by decide)
  · exact (((ioapic_config_iff _ _ _).mp terminates small).2 _ .refl).2 (by decide)
  · exact (((config_lapic_nmis_iff _ _).mp terminates small).2 _ .refl).2 (by decide)

end Twan.Kernel.Madt
