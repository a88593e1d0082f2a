/-
# Twan.Vemulate.Bitmaps -- the bitmaps that decide which accesses exit

`vemulate_utils.h` and `vemulate_utils.c` on the I/O and MSR bitmaps of a vcpu, and `vtrap.c`.
The three bitmaps are neighbours in the packed `struct vcpu_regions_arch`, whose bytes are one
memory here, so that an index past the end of one array lands where it does.

`ioExits` and `msrExits` are the bits that the processor looks at.  `io_frame` and
`msr_interception` say when the code writes and reads these bits and no others:

* the upper half of the ports is indexed from port 0 in bitmap B, which is the MSR bitmap;
* the low MSRs are mapped up to 0x1ff, and the processor's range ends at 0x1fff.
-/
import Twan.Base.WordBits
import Mathlib.Data.List.Induction
import Mathlib.Data.List.Basic

namespace Twan.Vemulate.Bitmaps

set_option autoImplicit false

open Twan.Base

/-- The bytes of `struct vcpu_regions_arch`. -/
abbrev Regions := ℕ → BitVec 8

def ioBitmapA : ℕ := 0

def ioBitmapB : ℕ := 4096

def msrBitmap : ℕ := 8192

/-! ## Ports -/

/-- The byte that all three functions index. -/
def ioByte (port : BitVec 16) : ℕ :=
  if port < 0x8000#16 then ioBitmapA + port.toNat / 8 else ioBitmapB + port.toNat / 8

def vtrapIo (r : Regions) (port : BitVec 16) : Regions :=
  Function.update r (ioByte port) (r (ioByte port) ||| 1#8 <<< (port.toNat % 8))

def vuntrapIo (r : Regions) (port : BitVec 16) : Regions :=
  Function.update r (ioByte port) (r (ioByte port) &&& ~~~(1#8 <<< (port.toNat % 8)))

def visIoTrapped (r : Regions) (port : BitVec 16) : Bool :=
  ((r (ioByte port) >>> (port.toNat % 8)) &&& 1#8) != 0#8

/-- A call of `vtrap_io`, or of `vuntrap_io`. -/
structure IoCall where
  port : BitVec 16
  trap : Bool

def ioCall (r : Regions) (call : IoCall) : Regions :=
  if call.trap then vtrapIo r call.port else vuntrapIo r call.port

def ioCalls (r : Regions) (calls : List IoCall) : Regions :=
  calls.foldl ioCall r

/-- Whether the last call on this port was a trap. -/
def lastIo (calls : List IoCall) (port : BitVec 16) : Option Bool :=
  calls.foldl (fun last call => if call.port = port then some call.trap else last) none

/-- The bit that the processor looks at: bitmap A has the ports below 0x8000, bitmap B the others
from 0x8000 on. -/
def ioExitBit (port : BitVec 16) : ℕ :=
  if port < 0x8000#16 then 8 * ioBitmapA + port.toNat else 8 * ioBitmapB + (port.toNat - 0x8000)

def ioExits (r : Regions) (port : BitVec 16) : Bool :=
  bit r (ioExitBit port)

/-- The bit that the code writes and reads. -/
def ioBit (port : BitVec 16) : ℕ := 8 * ioByte port + port.toNat % 8

theorem ioBit_eq (port : BitVec 16) :
    ioBit port = if port < 0x8000#16 then port.toNat else 0x8000 + port.toNat := by
  unfold ioBit ioByte ioBitmapA ioBitmapB
  split_ifs <;> omega

theorem ioBit_inj {port port' : BitVec 16} : ioBit port = ioBit port' ↔ port = port' := by
  constructor
  · intro same
    apply BitVec.eq_of_toNat_eq
    rw [ioBit_eq, ioBit_eq] at same
    simp only [BitVec.lt_def] at same
    have bound := port.isLt
    have bound' := port'.isLt
    split_ifs at same <;> simp only [BitVec.toNat_ofNat] at * <;> omega
  · exact fun same => by rw [same]

theorem ioExitBit_of_low {port : BitVec 16} (low : port < 0x8000#16) : ioExitBit port = ioBit port := by
  rw [ioBit_eq, ioExitBit, if_pos low, if_pos low, ioBitmapA]
  omega

/-- The code never touches bitmap B. -/
theorem ioBit_ne_ioExitBit {port port' : BitVec 16} (high : ¬ port < 0x8000#16) :
    ioBit port' ≠ ioExitBit port := by
  rw [ioBit_eq, ioExitBit, if_neg high]
  simp only [BitVec.lt_def, BitVec.toNat_ofNat, ioBitmapB] at *
  have bound := port.isLt
  split_ifs <;> omega

theorem visIoTrapped_eq (r : Regions) (port : BitVec 16) : visIoTrapped r port = bit r (ioBit port) := by
  have small : port.toNat % 8 < 8 := Nat.mod_lt _ (by decide)
  have byte : ioBit port / 8 = ioByte port := by unfold ioBit; omega
  have place : ioBit port % 8 = port.toNat % 8 := by unfold ioBit; omega
  rw [visIoTrapped, BitVec.and_one_eq_setWidth_ofBool_getLsbD, BitVec.getLsbD_ushiftRight, bit, byte,
    place, Nat.add_zero]
  cases (r (ioByte port)).getLsbD (port.toNat % 8) <;> decide

theorem bit_ioCall (r : Regions) (call : IoCall) (i : ℕ) :
    bit (ioCall r call) i = if ioBit call.port = i then call.trap else bit r i := by
  have small : call.port.toNat % 8 < 8 := Nat.mod_lt _ (by decide)
  unfold ioCall
  cases call.trap with
  | true =>
      rw [if_pos rfl, vtrapIo, bit_update_set r _ small]
      show (decide (ioBit call.port = i) || bit r i) = _
      by_cases here : ioBit call.port = i
      · simp [here]
      · rw [if_neg here, decide_eq_false here, Bool.false_or]
  | false =>
      rw [if_neg (by simp), vuntrapIo, bit_update_clear r _ small]
      show (!decide (ioBit call.port = i) && bit r i) = _
      by_cases here : ioBit call.port = i
      · simp [here]
      · rw [if_neg here, decide_eq_false here, Bool.not_false, Bool.true_and]

theorem lastIo_snoc {calls : List IoCall} {call : IoCall} {port : BitVec 16} :
    lastIo (calls ++ [call]) port = if call.port = port then some call.trap else lastIo calls port := by
  simp [lastIo]

/-- The bit of a port is as its last call left it. -/
theorem bit_ioCalls (r : Regions) (calls : List IoCall) (port : BitVec 16) :
    bit (ioCalls r calls) (ioBit port) = (lastIo calls port).getD (bit r (ioBit port)) := by
  induction calls using List.reverseRecOn with
  | nil => rfl
  | append_singleton calls call ih =>
      rw [ioCalls, List.foldl_append, List.foldl_cons, List.foldl_nil, bit_ioCall, lastIo_snoc]
      simp only [ioBit_inj]
      split
      · rfl
      · exact ih

/-- Any other bit is as it was. -/
theorem bit_ioCalls_other (r : Regions) (calls : List IoCall) {i : ℕ}
    (other : ∀ port, (lastIo calls port).isSome → ioBit port ≠ i) :
    bit (ioCalls r calls) i = bit r i := by
  induction calls using List.reverseRecOn with
  | nil => rfl
  | append_singleton calls call ih =>
      have apart : ioBit call.port ≠ i := other call.port (by rw [lastIo_snoc, if_pos rfl]; rfl)
      rw [ioCalls, List.foldl_append, List.foldl_cons, List.foldl_nil, bit_ioCall, if_neg apart]
      apply ih
      intro port called
      by_cases same : call.port = port
      · exact same ▸ apart
      · exact other port (by rwa [lastIo_snoc, if_neg same])

/-- The calls are reported and obeyed, and leave the rest of the structure alone. -/
structure IoFrame (r : Regions) (calls : List IoCall) : Prop where
  reported : ∀ port trap, lastIo calls port = some trap → visIoTrapped (ioCalls r calls) port = trap
  consulted : ∀ port trap, lastIo calls port = some trap → ioExits (ioCalls r calls) port = trap
  frame : ∀ x, msrBitmap ≤ x → ioCalls r calls x = r x

/-- **The calls on ports below 0x8000 do what they should.**  A port from 0x8000 on is harmless only
where its bit of bitmap B, and the bit of the MSR bitmap that is written in its place, already are
what its last call asks for. -/
theorem io_frame (r : Regions) (calls : List IoCall) : IoFrame r calls ↔
    ∀ port trap, ¬ port < 0x8000#16 → lastIo calls port = some trap →
      bit r (ioExitBit port) = trap ∧ bit r (ioBit port) = trap := by
  constructor
  · intro framed port trap high last
    have kept : bit (ioCalls r calls) (ioExitBit port) = bit r (ioExitBit port) :=
      bit_ioCalls_other r calls fun _ _ => ioBit_ne_ioExitBit high
    have written : bit (ioCalls r calls) (ioBit port) = trap := by
      rw [bit_ioCalls, last, Option.getD_some]
    have outside : msrBitmap ≤ ioBit port / 8 := by
      rw [ioBit_eq, if_neg high, msrBitmap]
      simp only [BitVec.lt_def, BitVec.toNat_ofNat] at high
      omega
    refine ⟨?_, ?_⟩
    · rw [← kept]
      exact framed.consulted port trap last
    · rw [← written, bit, bit, framed.frame _ outside]
  · intro harmless
    refine ⟨fun port trap last => ?_, fun port trap last => ?_, fun x outside => ?_⟩
    · rw [visIoTrapped_eq, bit_ioCalls, last, Option.getD_some]
    · unfold ioExits
      by_cases low : port < 0x8000#16
      · rw [ioExitBit_of_low low, bit_ioCalls, last, Option.getD_some]
      · rw [bit_ioCalls_other r calls fun _ _ => ioBit_ne_ioExitBit low]
        exact (harmless port trap low last).1
    · apply byte_ext
      intro k small
      by_cases called : ∃ port, (lastIo calls port).isSome ∧ ioBit port = 8 * x + k
      · obtain ⟨port, called, here⟩ := called
        obtain ⟨trap, last⟩ := Option.isSome_iff_exists.mp called
        have high : ¬ port < 0x8000#16 := by
          intro low
          rw [ioBit_eq, if_pos low] at here
          simp only [BitVec.lt_def, BitVec.toNat_ofNat, msrBitmap] at low outside
          omega
        rw [← here, bit_ioCalls, last, Option.getD_some, (harmless port trap high last).2]
      · apply bit_ioCalls_other
        intro port here same
        exact called ⟨port, here, same⟩

/-- Trapping port 0x8000 of a vcpu without traps does not make it exit; what changes is the bit for
reads of MSR 0. -/
theorem io_port_misplaced : ¬ IoFrame (fun _ => 0#8) [⟨0x8000#16, true⟩] := by
  intro framed
  have exits : ioExits (ioCalls (fun _ => 0#8) [⟨0x8000#16, true⟩]) 0x8000#16 = true :=
    framed.consulted 0x8000#16 true rfl
  exact absurd exits (by decide)

/-! ## MSRs -/

/-- The two halves of `vtrap_msr`. -/
inductive Direction
  | read
  | write
  deriving DecidableEq

def vinMsrBitmapRange (msr : BitVec 32) : Prop :=
  msr ≤ 0x1ff#32 ∨ msr ≥ 0xc0000000#32 ∧ msr ≤ 0xc0001fff#32

instance : DecidablePred vinMsrBitmapRange := by
  unfold vinMsrBitmapRange
  exact fun _ => inferInstance

/-- The base and the index that `vmap_msr_read` and `vmap_msr_write` find; `none` is −1 for both. -/
def vmapMsr (low high : ℕ) (msr : BitVec 32) : Option (ℕ × ℕ) :=
  if msr ≤ 0x1ff#32 then some (low, msr.toNat)
  else if msr ≥ 0xc0000000#32 ∧ msr ≤ 0xc0001fff#32 then some (high, (msr - 0xc0000000#32).toNat)
  else none

def vmapMsrRead (msr : BitVec 32) : Option (ℕ × ℕ) := vmapMsr 0 1024 msr

def vmapMsrWrite (msr : BitVec 32) : Option (ℕ × ℕ) := vmapMsr 2048 3072 msr

def setMsrBit (r : Regions) : Option (ℕ × ℕ) → Regions
  | none => r
  | some (base, idx) =>
      Function.update r (msrBitmap + (base + idx / 8))
        (r (msrBitmap + (base + idx / 8)) ||| 1#8 <<< (idx % 8))

def msrBitSet (r : Regions) : Option (ℕ × ℕ) → Bool
  | none => false
  | some (base, idx) => ((r (msrBitmap + (base + idx / 8)) >>> (idx % 8)) &&& 1#8) != 0#8

def vtrapMsrRead (r : Regions) (msr : BitVec 32) : Regions := setMsrBit r (vmapMsrRead msr)

def vtrapMsrWrite (r : Regions) (msr : BitVec 32) : Regions := setMsrBit r (vmapMsrWrite msr)

def vtrapMsr (r : Regions) (msr : BitVec 32) : Regions := vtrapMsrWrite (vtrapMsrRead r msr) msr

def visMsrReadTrapped (r : Regions) (msr : BitVec 32) : Bool := msrBitSet r (vmapMsrRead msr)

def visMsrWriteTrapped (r : Regions) (msr : BitVec 32) : Bool := msrBitSet r (vmapMsrWrite msr)

/-- The MSRs that have bits in the bitmap; accesses to the others always exit. -/
def covered (msr : BitVec 32) : Prop :=
  msr ≤ 0x1fff#32 ∨ msr ≥ 0xc0000000#32 ∧ msr ≤ 0xc0001fff#32

instance : DecidablePred covered := by
  unfold covered
  exact fun _ => inferInstance

def msrHalf : Direction → ℕ
  | .read => 0
  | .write => 2048

/-- The bit that the processor looks at: four quarters, for reads of the low MSRs, reads of the high
ones, and the same for writes. -/
def msrExitBit (dir : Direction) (msr : BitVec 32) : ℕ :=
  if msr ≤ 0x1fff#32 then 8 * (msrBitmap + msrHalf dir) + msr.toNat
  else 8 * (msrBitmap + msrHalf dir + 1024) + (msr.toNat - 0xc0000000)

def msrExits (dir : Direction) (r : Regions) (msr : BitVec 32) : Bool :=
  bit r (msrExitBit dir msr)

/-- Where the code keeps this MSR, in bits. -/
def msrPlace (dir : Direction) (msr : BitVec 32) : Option (ℕ × ℕ) :=
  match dir with
  | .read => vmapMsrRead msr
  | .write => vmapMsrWrite msr

theorem bit_setMsrBit (r : Regions) (base idx i : ℕ) :
    bit (setMsrBit r (some (base, idx))) i =
      (decide (8 * (msrBitmap + base) + idx = i) || bit r i) := by
  have small : idx % 8 < 8 := Nat.mod_lt _ (by decide)
  have place : 8 * (msrBitmap + (base + idx / 8)) + idx % 8 = 8 * (msrBitmap + base) + idx := by omega
  rw [setMsrBit, bit_update_set r _ small, place]

theorem msrBitSet_eq (r : Regions) (base idx : ℕ) :
    msrBitSet r (some (base, idx)) = bit r (8 * (msrBitmap + base) + idx) := by
  have byte : (8 * (msrBitmap + base) + idx) / 8 = msrBitmap + (base + idx / 8) := by omega
  have place : (8 * (msrBitmap + base) + idx) % 8 = idx % 8 := by omega
  rw [msrBitSet, BitVec.and_one_eq_setWidth_ofBool_getLsbD, BitVec.getLsbD_ushiftRight, bit, byte,
    place, Nat.add_zero]
  cases (r (msrBitmap + (base + idx / 8))).getLsbD (idx % 8) <;> decide

/-- In the range of the code the two layouts agree. -/
theorem msrPlace_of_range (dir : Direction) {msr : BitVec 32} (inside : vinMsrBitmapRange msr) :
    ∃ base idx, msrPlace dir msr = some (base, idx) ∧
      8 * (msrBitmap + base) + idx = msrExitBit dir msr := by
  unfold vinMsrBitmapRange at inside
  by_cases low : msr ≤ 0x1ff#32
  · have near : msr ≤ 0x1fff#32 := BitVec.le_trans low (by decide)
    refine ⟨msrHalf dir, msr.toNat, ?_, (if_pos near).symm⟩
    cases dir with
    | read => exact if_pos low
    | write => exact if_pos low
  · have high := inside.resolve_left low
    have far : ¬ msr ≤ 0x1fff#32 := fun near => absurd (BitVec.le_trans high.1 near) (by decide)
    have index : (msr - 0xc0000000#32).toNat = msr.toNat - 0xc0000000 :=
      BitVec.toNat_sub_of_le high.1
    refine ⟨msrHalf dir + 1024, (msr - 0xc0000000#32).toNat, ?_, ?_⟩
    · cases dir with
      | read => exact (if_neg low).trans (if_pos high)
      | write => exact (if_neg low).trans (if_pos high)
    · rw [msrExitBit, if_neg far, index, Nat.add_assoc]

theorem msrPlace_of_not_range (dir : Direction) {msr : BitVec 32} (outside : ¬ vinMsrBitmapRange msr) :
    msrPlace dir msr = none := by
  have low : ¬ msr ≤ 0x1ff#32 := fun low => outside (.inl low)
  have high : ¬ (msr ≥ 0xc0000000#32 ∧ msr ≤ 0xc0001fff#32) := fun high => outside (.inr high)
  cases dir with
  | read => exact (if_neg low).trans (if_neg high)
  | write => exact (if_neg low).trans (if_neg high)

theorem covered_iff {msr : BitVec 32} : covered msr ↔
    msr.toNat ≤ 8191 ∨ 3221225472 ≤ msr.toNat ∧ msr.toNat ≤ 3221233663 := Iff.rfl

theorem msrExitBit_eq (dir : Direction) (msr : BitVec 32) :
    msrExitBit dir msr = if msr.toNat ≤ 8191 then 8 * (8192 + msrHalf dir) + msr.toNat
      else 8 * (8192 + msrHalf dir + 1024) + (msr.toNat - 3221225472) := rfl

/-- Every covered MSR has a bit of its own for each direction. -/
theorem msrExitBit_inj {dir dir' : Direction} {msr msr' : BitVec 32} (inside : covered msr)
    (inside' : covered msr') (same : msrExitBit dir msr = msrExitBit dir' msr') :
    dir = dir' ∧ msr = msr' := by
  rw [covered_iff] at inside inside'
  rw [msrExitBit_eq, msrExitBit_eq] at same
  have halves : msrHalf dir = msrHalf dir' ∧ msr.toNat = msr'.toNat := by
    have half : ∀ dir, msrHalf dir = 0 ∨ msrHalf dir = 2048 := by
      intro dir
      cases dir with
      | read => exact .inl rfl
      | write => exact .inr rfl
    have here := half dir
    have there := half dir'
    split_ifs at same <;> omega
  refine ⟨?_, BitVec.eq_of_toNat_eq halves.2⟩
  cases dir <;> cases dir' <;> first | rfl | exact absurd halves.1 (by decide)

/-- One half of `vtrap_msr`. -/
theorem bit_trapMsr (dir : Direction) (r : Regions) (msr : BitVec 32) (i : ℕ) :
    bit (setMsrBit r (msrPlace dir msr)) i =
      (decide (vinMsrBitmapRange msr ∧ msrExitBit dir msr = i) || bit r i) := by
  by_cases inside : vinMsrBitmapRange msr
  · obtain ⟨base, idx, place, here⟩ := msrPlace_of_range dir inside
    rw [place, bit_setMsrBit, here]
    simp [inside]
  · rw [msrPlace_of_not_range dir inside]
    simp [inside, setMsrBit]

theorem msrBitSet_of_range (dir : Direction) (r : Regions) {msr : BitVec 32}
    (inside : vinMsrBitmapRange msr) : msrBitSet r (msrPlace dir msr) = msrExits dir r msr := by
  obtain ⟨base, idx, place, here⟩ := msrPlace_of_range dir inside
  rw [place, msrBitSet_eq, here, msrExits]

/-- After `vtrap_msr` or one of its halves the bits of the processor are set and no others changed;
before and after, both predicates report its view. -/
structure Intercepts (r : Regions) (msr : BitVec 32) : Prop where
  read : ∀ i, bit (vtrapMsrRead r msr) i = (decide (msrExitBit .read msr = i) || bit r i)
  write : ∀ i, bit (vtrapMsrWrite r msr) i = (decide (msrExitBit .write msr = i) || bit r i)
  both : ∀ i, bit (vtrapMsr r msr) i =
    (decide (msrExitBit .read msr = i ∨ msrExitBit .write msr = i) || bit r i)
  reported : ∀ after ∈ [r, vtrapMsrRead r msr, vtrapMsrWrite r msr, vtrapMsr r msr],
    visMsrReadTrapped after msr = msrExits .read after msr ∧
      visMsrWriteTrapped after msr = msrExits .write after msr

theorem intercepts_iff (r : Regions) (msr : BitVec 32) :
    Intercepts r msr ↔ vinMsrBitmapRange msr := by
  constructor
  · intro sound
    by_contra outside
    have exits : msrExits .read (vtrapMsrRead r msr) msr = true := by
      rw [msrExits, sound.read]
      simp
    have shown := (sound.reported (vtrapMsrRead r msr) (by simp)).1
    rw [exits, visMsrReadTrapped, show vmapMsrRead msr = none from msrPlace_of_not_range .read outside]
      at shown
    exact absurd shown (by simp [msrBitSet])
  · intro inside
    have half : ∀ (dir : Direction) (r : Regions) (i : ℕ), bit (setMsrBit r (msrPlace dir msr)) i =
        (decide (msrExitBit dir msr = i) || bit r i) := by
      intro dir r i
      rw [bit_trapMsr]
      simp [inside]
    refine ⟨half .read r, half .write r, fun i => ?_, fun after _ => ?_⟩
    · rw [vtrapMsr]
      refine (half .write _ i).trans ?_
      rw [show vtrapMsrRead r msr = setMsrBit r (msrPlace .read msr) from rfl, half, ← Bool.or_assoc,
        Bool.or_comm (decide _), ← Bool.decide_or]
    · exact ⟨msrBitSet_of_range .read after inside, msrBitSet_of_range .write after inside⟩

/-! ## The traps of a new vcpu -/

/-- What `vsetup_traps` reads of the CPU it runs on. -/
structure TrapFlags where
  ia32ArchCapabilitiesR : Bool
  xsave : Bool
  userMsr : Bool
  uintr : Bool
  uintrTimer : Bool
  fred : Bool
  waitpkg : Bool
  xapicDisableStatus : Bool
  tscAux : Bool
  srBiosDone : Bool
  mpx : Bool
  x2apic : Bool

/-- A call of `vtrap_msr`, or of `vtrap_msr_read`. -/
inductive MsrCall
  | both (msr : BitVec 32)
  | read (msr : BitVec 32)

def MsrCall.msr : MsrCall → BitVec 32
  | .both msr => msr
  | .read msr => msr

def MsrCall.asks : MsrCall → Direction → Prop
  | .both _, _ => True
  | .read _, dir => dir = .read

def msrCall (r : Regions) : MsrCall → Regions
  | .both msr => vtrapMsr r msr
  | .read msr => vtrapMsrRead r msr

/-- The calls of `vsetup_traps` in their order, each group with what it is under. -/
def setupGroups (flags : TrapFlags) : List (Bool × List MsrCall) :=
  [(true, [.both 0x03a#32]),                               -- IA32_FEATURE_CONTROL
    (flags.ia32ArchCapabilitiesR, [.read 0x10a#32]),
    (flags.xsave, [.both 0xda0#32]),
    (flags.userMsr, [.both 0x1c#32, .both 0x2f#32]),
    (flags.uintr, [0x985#32, 0x986#32, 0x987#32, 0x988#32, 0x989#32, 0x98a#32].map .both),
    (flags.uintrTimer, [.both 0x1b00#32]),
    (flags.fred, [0x1d4#32, 0x1cc#32, 0x1cd#32, 0x1ce#32, 0x1cf#32, 0x1d0#32, 0x1d1#32, 0x1d2#32,
      0x1d3#32].map .both),
    (flags.waitpkg, [.both 0xe1#32]),
    (flags.xapicDisableStatus, [.both 0xbd#32]),
    (flags.tscAux, [.both 0xc0000103#32]),
    (flags.srBiosDone, [.both 0x151#32]),
    (flags.mpx, [.both 0xd90#32]),
    (flags.x2apic, [0x802#32, 0x803#32, 0x808#32, 0x80a#32, 0x80b#32, 0x80d#32, 0x80f#32,
      0x810#32, 0x811#32, 0x812#32, 0x813#32, 0x814#32, 0x815#32, 0x816#32, 0x817#32,
      0x818#32, 0x819#32, 0x81a#32, 0x81b#32, 0x81c#32, 0x81d#32, 0x81e#32, 0x81f#32,
      0x820#32, 0x821#32, 0x822#32, 0x823#32, 0x824#32, 0x825#32, 0x826#32, 0x827#32,
      0x828#32, 0x82f#32, 0x830#32, 0x832#32, 0x833#32, 0x834#32, 0x835#32, 0x836#32, 0x837#32,
      0x838#32, 0x839#32, 0x83e#32, 0x83f#32].map .both),
    (true, [.both 0x06#32]),                               -- IA32_MONITOR_FILTER_SIZE
    -- IA32_VMX_BASIC to IA32_VMX_EXIT_CTLS2
    (true, [0x480#32, 0x481#32, 0x482#32, 0x483#32, 0x484#32, 0x485#32, 0x486#32, 0x487#32,
      0x488#32, 0x489#32, 0x48a#32, 0x48b#32, 0x48c#32, 0x48d#32, 0x48e#32, 0x48f#32, 0x490#32,
      0x491#32, 0x492#32, 0x493#32].map .both),
    (true, [.both 0x1b#32])]                               -- IA32_APIC_BASE

def setupCalls (flags : TrapFlags) : List MsrCall :=
  (setupGroups flags).flatMap fun group => if group.1 then group.2 else []

def vsetupTraps (flags : TrapFlags) (r : Regions) : Regions :=
  (setupCalls flags).foldl msrCall r

theorem bit_msrCall (r : Regions) (call : MsrCall) (i : ℕ) : bit (msrCall r call) i ↔
    (∃ dir, call.asks dir ∧ vinMsrBitmapRange call.msr ∧ msrExitBit dir call.msr = i) ∨ bit r i := by
  cases call with
  | both msr =>
      rw [msrCall, vtrapMsr, show vtrapMsrWrite _ msr = setMsrBit _ (msrPlace .write msr) from rfl,
        bit_trapMsr, show vtrapMsrRead r msr = setMsrBit r (msrPlace .read msr) from rfl, bit_trapMsr]
      simp only [Bool.or_eq_true, decide_eq_true_eq, MsrCall.asks, MsrCall.msr, true_and]
      constructor
      · intro now
        obtain write | read | before := now
        · exact .inl ⟨.write, write⟩
        · exact .inl ⟨.read, read⟩
        · exact .inr before
      · intro now
        obtain ⟨dir, asked⟩ | before := now
        · cases dir with
          | read => exact .inr (.inl asked)
          | write => exact .inl asked
        · exact .inr (.inr before)
  | read msr =>
      rw [msrCall, show vtrapMsrRead r msr = setMsrBit r (msrPlace .read msr) from rfl, bit_trapMsr]
      simp only [Bool.or_eq_true, decide_eq_true_eq, MsrCall.asks, MsrCall.msr, exists_eq_left]

theorem bit_msrCalls (calls : List MsrCall) (r : Regions) (i : ℕ) : bit (calls.foldl msrCall r) i ↔
    (∃ call ∈ calls, ∃ dir, call.asks dir ∧ vinMsrBitmapRange call.msr ∧
      msrExitBit dir call.msr = i) ∨ bit r i := by
  induction calls generalizing r with
  | nil => simp
  | cons call calls ih =>
      rw [List.foldl_cons, ih, bit_msrCall, ← or_assoc, List.exists_mem_cons_iff]
      exact or_congr_left or_comm

/-- `vsetup_traps` asks for nothing that the bitmap could not do. -/
theorem covered_setupCalls (flags : TrapFlags) {call : MsrCall} (asked : call ∈ setupCalls flags) :
    covered call.msr := by
  -- The groups are the same under all flags.
  have all : ∀ calls ∈ (setupGroups flags).map Prod.snd, ∀ call ∈ calls, covered call.msr := by
    show ∀ calls ∈ (setupGroups ⟨true, true, true, true, true, true, true, true, true, true, true,
      true⟩).map Prod.snd, _
    decide
  obtain ⟨group, mem, inside⟩ := List.mem_flatMap.mp asked
  have called : call ∈ group.2 := by
    cases flag : group.1 with
    | true => rwa [flag, if_pos rfl] at inside
    | false => simp [flag] at inside
  exact all group.2 (List.mem_map_of_mem mem) call called

/-- **The low MSRs from 0x200 on are passed through.**  The code agrees with the processor on the
MSRs of its own range and on no other; an MSR that `vsetup_traps` asks for exits if it is one of
these, or did so before. -/
theorem msr_interception (r : Regions) :
    (∀ msr : BitVec 32, covered msr → (Intercepts r msr ↔ vinMsrBitmapRange msr)) ∧
    ∀ (flags : TrapFlags) (call : MsrCall) (dir : Direction),
      call ∈ setupCalls flags → call.asks dir →
        (msrExits dir (vsetupTraps flags r) call.msr ↔
          vinMsrBitmapRange call.msr ∨ msrExits dir r call.msr) := by
  refine ⟨fun msr _ => intercepts_iff r msr, fun flags call dir asked wants => ?_⟩
  rw [msrExits, vsetupTraps, bit_msrCalls]
  constructor
  · intro exits
    obtain ⟨call', asked', dir', _, inside, same⟩ | before := exits
    · obtain ⟨_, equal⟩ := msrExitBit_inj (covered_setupCalls flags asked') (covered_setupCalls flags asked) same
      exact .inl (equal ▸ inside)
    · exact .inr before
  · intro trapped
    obtain inside | before := trapped
    · exact .inl ⟨call, asked, dir, wants, inside, rfl⟩
    · exact .inr before

/-- `IA32_FEATURE_CONTROL` is intercepted, and reads of `IA32_ARCH_CAPABILITIES` exit where that was
asked for. -/
theorem arch_capabilities_exits : Intercepts (fun _ => 0#8) 0x03a#32 ∧
    msrExits .read (vsetupTraps ⟨true, false, false, false, false, false, false, false, false, false,
      false, false⟩ fun _ => 0#8) 0x10a#32 :=
  ⟨((msr_interception fun _ => 0#8).1 0x03a#32 (by decide)).mpr (by decide),
    ((msr_interception fun _ => 0#8).2 ⟨true, false, false, false, false, false, false, false, false,
      false, false, false⟩ (.read 0x10a#32) .read (List.mem_flatMap.mpr ⟨_, List.mem_cons_of_mem _
        List.mem_cons_self, List.mem_cons_self⟩) rfl).mpr (.inl (by decide))⟩

/-- `IA32_VMX_BASIC` is asked for on every CPU, and does not exit. -/
theorem vmx_basic_passed_through : ¬ ∀ (flags : TrapFlags) (r : Regions) (call : MsrCall)
    (dir : Direction), call ∈ setupCalls flags → call.asks dir →
      msrExits dir (vsetupTraps flags r) call.msr := by
  intro sound
  let none : TrapFlags :=
    ⟨false, false, false, false, false, false, false, false, false, false, false, false⟩
  have asked : MsrCall.both 0x480#32 ∈ setupCalls none := by
    simp [setupCalls, setupGroups]
  have exits : msrExits .read (vsetupTraps none fun _ => 0#8) 0x480#32 = true :=
    sound none (fun _ => 0#8) (.both 0x480#32) .read asked trivial
  exact absurd exits (by decide)

end Twan.Vemulate.Bitmaps
