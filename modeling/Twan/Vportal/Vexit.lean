/-
# Twan.Vportal.Vexit -- the exit handlers and their dispatcher

`vportal/vexit.c`: every function of `vexit_table` as a program, the table, and
`vexit_dispatcher`, which runs the handler, queues the event whose delivery the exit has
interrupted, and enters the guest again.
-/
import Twan.Vportal.Vcalls

namespace Twan.Vportal

set_option autoImplicit false

open Twan.Base Twan.Base.Prog Twan.Lib Twan.Vemulate

/-! ## MSRs and CPUID -/

/-- `msr_blocklist`. -/
def msrBlocklist : List (BitVec 32) :=
  [0xc0000103, 0xda0, 0x1c, 0x2f, 0x985, 0x986, 0x987, 0x988, 0x989, 0x98a, 0x1b00, 0x1d4, 0x1cc,
    0x1cd, 0x1ce, 0x1cf, 0x1d0, 0x1d1, 0x1d2, 0x1d3, 0xe1, 0x151, 0xd90, 0x6, 0x480, 0x481, 0x482,
    0x483, 0x484, 0x485, 0x486, 0x487, 0x488, 0x489, 0x48a, 0x48b, 0x48c, 0x48d, 0x48e, 0x48f,
    0x490, 0x491, 0x492, 0x493, 0x1b, 0xbd, 0x802, 0x803, 0x808, 0x80a, 0x80b, 0x80d, 0x80f, 0x810,
    0x811, 0x812, 0x813, 0x814, 0x815, 0x816, 0x817, 0x818, 0x819, 0x81a, 0x81b, 0x81c, 0x81d,
    0x81e, 0x81f, 0x820, 0x821, 0x822, 0x823, 0x824, 0x825, 0x826, 0x827, 0x828, 0x82f, 0x830,
    0x832, 0x833, 0x834, 0x835, 0x836, 0x837, 0x838, 0x839, 0x83e, 0x83f]

/-- `vis_msr_blocked`. -/
def visMsrBlocked (msr : BitVec 32) : Bool := msrBlocklist.contains msr

def ia32FeatureControl : BitVec 32 := 0x3a
def ia32ArchCapabilities : BitVec 32 := 0x10a
def ia32VirtualEnumeration : BitVec 32 := 0x50000000
def ia32VirtualMitigationEnum : BitVec 32 := 0x50000001
def ia32VirtualMitigationCtrl : BitVec 32 := 0x50000002

/-- What the guest is shown of a CPUID leaf of the processor. -/
def cpuidView (root : Bool) (leaf subleaf : BitVec 32) (host : CpuidRegs) : CpuidRegs :=
  if leaf = 1 then
    -- max_addressible_ids, lapic_id | monitor_mwait, vmx, smx, x2apic, xsave, osxsave | mce, apic, htt
    { eax := host.eax
      ebx := host.ebx &&& ~~~0xffff0000
      ecx := (host.ecx &&& ~~~0x0c200068) ||| 0x80000000
      edx := host.edx &&& ~~~0x10000280 }
  else if leaf = 7 ∧ subleaf = 0 then
    -- mpx | pku, waitpkg, mawau, rdpid | uintr, hybrid, pconfig
    { eax := host.eax
      ebx := host.ebx &&& ~~~0x00004000
      ecx := host.ecx &&& ~~~0x007e0028
      edx := host.edx &&& ~~~0x00048020 }
  else if leaf = 7 ∧ subleaf = 1 then
    -- fred, nmi_src, msrlist, cachewarp_mitigation | uintr_timer, user_msr, uiret, mwait
    { host with
      eax := host.eax &&& ~~~0x48120000
      edx := host.edx &&& ~~~0x0082a000 }
  else if leaf = 7 ∧ subleaf = 2 then
    { host with edx := host.edx &&& ~~~0x00000080 }
  else if leaf = 0x80000001 then
    { host with edx := host.edx &&& ~~~0x08000000 }
  else if leaf = 5 ∨ leaf = 0x0b ∨ leaf = 0x0d ∨ leaf = 0x1f ∨ (leaf = 4 ∧ !root) then
    { eax := 0, ebx := 0, ecx := 0, edx := 0 }
  else host

/-! ## The handlers -/

def vexitNop : Handler Unit := enablePreemption

def vexitNopAdvance : Handler Unit := do
  enablePreemption
  vqueueAdvanceGuest

def vexitFailureRecover : Handler Unit := do
  enablePreemption
  vfailureRecover

def vexitGp0 : Handler Unit := do
  enablePreemption
  vqueueInjectGp0

def vexitUd : Handler Unit := do
  enablePreemption
  vqueueInjectUd

/-- NMI blocking is restored when the exit says that it was taken away. -/
def nmiUnblocking (info : VectoredEventsInfo) : Handler Unit :=
  onlyIf info.nmiUnblocking do
    let state ← vmread32 .guestInterruptibilityState
    vmwrite .guestInterruptibilityState ((setField state 3 true).setWidth 64)

def vexitException : Handler Unit := do
  let val ← vmread32 .roVmexitInterruptInfo
  let info := VectoredEventsInfo.ofVal val
  assert .infoValid info.valid
  nmiUnblocking info
  if info.vector = debugException then
    vqueueInjectDb info.vectoredEventType
  else if info.vector = alignmentCheck then
    assert .errcodeDelivered info.errcodeDelivered
    let errcode ← vmread .roIdtVectoringErrorCode
    assert .errcodeZero (errcode = 0)
    vqueueInjectAc0
  else
    assert .knownException false
  enablePreemption

def vexitExtIntr : Handler Unit := do
  let val ← vmread32 .roVmexitInterruptInfo
  let info := VectoredEventsInfo.ofVal val
  assert .infoValid info.valid
  assert .typeExternal (info.vectoredEventType = .external)
  nmiUnblocking info
  let _ ← call (.vexitExtDispatcher info.vector)
  enablePreemption

/-- The four registers of a leaf, each written without its upper half. -/
def setCpuid (regs : CpuidRegs) : Handler Unit := do
  Op.perform (.setReg 0 (regs.eax.setWidth 64))
  Op.perform (.setReg 3 (regs.ebx.setWidth 64))
  Op.perform (.setReg 1 (regs.ecx.setWidth 64))
  Op.perform (.setReg 2 (regs.edx.setWidth 64))

def vexitCpuid (site : Site) (vregs : Vregs) : Handler Unit := do
  enablePreemption
  let leaf := arg32 vregs.rax
  let subleaf := arg32 vregs.rcx
  if 0x40000000#32 ≤ leaf ∧ leaf ≤ 0x40000005#32 then
    setCpuid (site.vinfo vregs)
    vqueueAdvanceGuest
  else
    let root ← Op.perform .root
    setCpuid (cpuidView root leaf subleaf (site.cpuid leaf subleaf))
    vqueueAdvanceGuest

def vexitVmcall (site : Site) (vregs : Vregs) : Handler Unit := do
  vcallDispatcher site vregs
  vqueueAdvanceGuest

/-- CR0 must not turn caching off. -/
def cr0Valid (cr0 : BitVec 64) : Bool := !cr0.getLsbD 30 && !cr0.getLsbD 29

/-- The checks on CR4, in the order of the source; the one on PKE does not look at the value. -/
def cr4Valid (features : VperCpuFeatureFlags) (cr4 : BitVec 64) : Bool :=
  !cr4.getLsbD 6 && (features.umip || !cr4.getLsbD 11) && (features.la57 || !cr4.getLsbD 12) &&
    !cr4.getLsbD 14 && (features.fsgsbase || !cr4.getLsbD 16) &&
    (features.pcid || !cr4.getLsbD 17) && !cr4.getLsbD 18 && (features.kl || !cr4.getLsbD 19) &&
    (features.smep || !cr4.getLsbD 20) && (features.smap || !cr4.getLsbD 21) && !features.pke &&
    (features.cet || !cr4.getLsbD 23) && (features.pks || !cr4.getLsbD 24) && !cr4.getLsbD 25 &&
    (features.lass || !cr4.getLsbD 27) && (features.lam || !cr4.getLsbD 28) && !cr4.getLsbD 32 &&
    !cr4.getLsbD 15 && !cr4.getLsbD 26 && cr4.extractLsb' 29 3 == 0 && cr4.extractLsb' 33 31 == 0

/-- `cr4.fields.vmxe = 1`. -/
def withVmxe (cr4 : BitVec 64) : BitVec 64 := cr4 ||| (1#64 <<< 13)

def cr8Valid (cr8 : BitVec 64) : Bool := cr8.extractLsb' 4 60 == 0

/-- The `switch` on the control register. -/
def crMove (site : Site) (val : BitVec 64) (cr : ℕ) : Handler Unit :=
  if cr = 0 then
    if cr0Valid val then do
      vqueueVmwriteCr0 val
      vqueueAdvanceGuest
    else vqueueInjectGp0
  else if cr = 4 then
    if cr4Valid site.features (withVmxe val) then do
      vqueueVmwriteCr4 (withVmxe val)
      vqueueAdvanceGuest
    else vqueueInjectGp0
  else if cr = 8 then
    if cr8Valid val then do
      Op.perform (.setCr8 val)
      vsetIntl (val.setWidth 4)
      vqueueAdvanceGuest
    else vqueueInjectGp0
  else do
    assert .knownControlRegister false
    vqueueAdvanceGuest

def vexitCrAccess (site : Site) (vregs : Vregs) : Handler Unit := do
  let qual ← vmread32 .roExitQualification
  enablePreemption
  let val ← vgprVal vregs (gprOf qual)
  crMove site val (crOf qual)

/-- A 64-bit value in EDX:EAX. -/
def setEdxEax (val : BitVec 64) : Handler Unit := do
  Op.perform (.setReg 0 (val &&& 0xffffffff#64))
  Op.perform (.setReg 2 (val >>> 32))

/-- `IA32_ARCH_CAPABILITIES` as the guest sees it. -/
def archCapView (site : Site) (val : BitVec 64) : BitVec 64 :=
  let val := val &&& ~~~(1#64 <<< 21)
  let val := if site.itsNo then val ||| (1#64 <<< 62) else val &&& ~~~(1#64 <<< 62)
  val ||| (1#64 <<< 63)

/-- The MSRs that are read without asking the processor, and when they are there. -/
def virtualMsr (site : Site) (msr : BitVec 32) : Option (Bool × BitVec 64) :=
  if msr = ia32VirtualEnumeration then some (site.ia32ArchCapabilitiesR, 1)
  else if msr = ia32VirtualMitigationEnum then some (site.ia32ArchCapabilitiesR, 0)
  else if msr = ia32VirtualMitigationCtrl then some (site.ia32ArchCapabilitiesR, 0)
  else if msr = ia32FeatureControl then
    some (site.ia32FeatureControlRw,
      (site.via32FeatureCtrlHigh.setWidth 64 <<< 32) ||| site.via32FeatureCtrlLow.setWidth 64)
  else none

/-- The `switch` on the MSR that is read. -/
def rdmsrSwitch (site : Site) (msr : BitVec 32) (root : Bool) : Handler Unit := do
  if msr = ia32ArchCapabilities then
    let val ← Op.perform (.rdmsr ia32ArchCapabilities)
    setEdxEax (archCapView site val)
    vqueueAdvanceGuest
  else
    match virtualMsr site msr with
    | some (true, val) =>
        setEdxEax val
        vqueueAdvanceGuest
    | some (false, _) => vqueueInjectGp0
    | none =>
        if !root || visMsrBlocked msr then
          vqueueInjectGp0
        else
          let val ← Op.perform (.rdmsrShielded msr)
          match val with
          | some val =>
              setEdxEax val
              vqueueAdvanceGuest
          | none => vqueueInjectGp0

def vexitRdmsr (site : Site) (vregs : Vregs) : Handler Unit := do
  enablePreemption
  let root ← Op.perform .root
  rdmsrSwitch site (arg32 vregs.rcx) root

/-- The MSRs that are written without asking the processor, and whether the write is taken. -/
def virtualMsrWrite (site : Site) (msr eax edx : BitVec 32) : Option Bool :=
  if msr = ia32VirtualMitigationCtrl then
    some (site.ia32ArchCapabilitiesR && eax == 0 && edx == 0)
  else if msr = ia32FeatureControl then
    some (site.ia32FeatureControlRw && eax == site.via32FeatureCtrlLow &&
      edx == site.via32FeatureCtrlHigh)
  else none

/-- The `switch` on the MSR that is written. -/
def wrmsrSwitch (site : Site) (msr eax edx : BitVec 32) (root : Bool) : Handler Unit := do
  match virtualMsrWrite site msr eax edx with
  | some true => vqueueAdvanceGuest
  | some false => vqueueInjectGp0
  | none =>
      if !root || visMsrBlocked msr then
        vqueueInjectGp0
      else
        let faulted ← Op.perform
          (.wrmsrShielded msr ((edx.setWidth 64 <<< 32) ||| eax.setWidth 64))
        if faulted then vqueueInjectGp0 else vqueueAdvanceGuest

def vexitWrmsr (site : Site) (vregs : Vregs) : Handler Unit := do
  enablePreemption
  let root ← Op.perform .root
  wrmsrSwitch site (arg32 vregs.rcx) (arg32 vregs.rax) (arg32 vregs.rdx) root

def vexitMceDuringEntry : Handler Unit := enablePreemption

/-- The timers after the front one, `n`, has run out: it is inserted again or no longer armed. -/
def expireFront (t : Vtimers) (n : ℕ) (rest : List (ℕ × BitVec 64)) : Vtimers :=
  if (t.timers n).periodic then
    { t with chain := deltaChainInsert n ((t.timers n).ticks.setWidth 64) rest }
  else
    { timers := Function.update t.timers n { t.timers n with armed := false }, chain := rest }

/-- `next_node->delta` is loaded, or the preemption timer is turned off. -/
def reloadPreemptionTimer : List (ℕ × BitVec 64) → Handler Unit
  | (_, delta) :: _ => vmwrite .guestVmxPreemptionTimerValue delta
  | [] => setPreemptionTimer false

def vexitVmxPreempt : Handler Unit := do
  let t ← Op.perform .timers
  match t.chain with
  | [] => .halt -- the source dereferences a null node here
  | (n, _) :: rest =>
      Op.perform (.setTimers (expireFront t n rest))
      reloadPreemptionTimer (expireFront t n rest).chain
      enablePreemption
      vemuSetInterruptPending (t.timers n).vector (t.timers n).nmi

/-! ## The table and the dispatcher -/

/-- The functions of `vexit_table`. -/
inductive VexitFunc where
  | vexitException
  | vexitExtIntr
  | vexitFailureRecover
  | vexitNop
  | vexitGp0
  | vexitCpuid
  | vexitUd
  | vexitNopAdvance
  | vexitVmcall
  | vexitCrAccess
  | vexitRdmsr
  | vexitWrmsr
  | vexitMceDuringEntry
  | vexitVmxPreempt
  deriving DecidableEq, Repr

def VexitFunc.body (site : Site) (vregs : Vregs) : VexitFunc → Handler Unit
  | .vexitException => Vportal.vexitException
  | .vexitExtIntr => Vportal.vexitExtIntr
  | .vexitFailureRecover => Vportal.vexitFailureRecover
  | .vexitNop => Vportal.vexitNop
  | .vexitGp0 => Vportal.vexitGp0
  | .vexitCpuid => Vportal.vexitCpuid site vregs
  | .vexitUd => Vportal.vexitUd
  | .vexitNopAdvance => Vportal.vexitNopAdvance
  | .vexitVmcall => Vportal.vexitVmcall site vregs
  | .vexitCrAccess => Vportal.vexitCrAccess site vregs
  | .vexitRdmsr => Vportal.vexitRdmsr site vregs
  | .vexitWrmsr => Vportal.vexitWrmsr site vregs
  | .vexitMceDuringEntry => Vportal.vexitMceDuringEntry
  | .vexitVmxPreempt => Vportal.vexitVmxPreempt

/-- `vexit_table`: the reasons without an entry have no function. -/
def vexitTable : ℕ → Option VexitFunc
  | 0 => some .vexitException
  | 1 => some .vexitExtIntr
  | 2 | 3 | 4 => some .vexitFailureRecover
  | 7 | 8 => some .vexitNop
  | 9 => some .vexitGp0
  | 10 => some .vexitCpuid
  | 11 => some .vexitUd
  | 13 => some .vexitNopAdvance
  | 18 => some .vexitVmcall
  | 19 | 20 | 21 | 22 | 23 | 24 | 25 | 26 | 27 => some .vexitUd
  | 28 => some .vexitCrAccess
  | 30 => some .vexitGp0
  | 31 => some .vexitRdmsr
  | 32 => some .vexitWrmsr
  | 36 => some .vexitUd
  | 39 => some .vexitUd
  | 41 => some .vexitMceDuringEntry
  | 48 | 49 => some .vexitFailureRecover
  | 50 => some .vexitUd
  | 52 => some .vexitVmxPreempt
  | 53 => some .vexitUd
  | 54 => some .vexitNopAdvance
  | 55 => some .vexitUd
  | _ => none

/-- `reason.fields.basic_reason`. -/
def basicReason (reason : BitVec 32) : ℕ := (reason.extractLsb' 0 16).toNat

/-- The function for an exit, unless the entry itself has failed. -/
def vexitFuncOf (reason : BitVec 32) : Option VexitFunc :=
  if reason.getLsbD 31 || 56 ≤ basicReason reason then none else vexitTable (basicReason reason)

/-- What comes before the handler: the vcpu is no longer running, and is interruptible
again unless it is to terminate. -/
def vexitBegin (site : Site) (reason : BitVec 32) : Handler Unit := do
  Op.perform .disablePreemption
  Op.perform .vschedTransition
  let _ ← call .vipiAck
  onlyIf (site.vipiDrainStrict && basicReason reason != 1) (do let _ ← call .vipiDrainNoYield)
  let terminate ← Op.perform .terminate
  onlyIf terminate do
    enablePreemption
    vtransitioningRecover
  Op.perform .enableInterrupts

/-- The handler, and the event whose delivery the exit has interrupted. -/
def vexitHandle (site : Site) (vregs : Vregs) (func : VexitFunc) : Handler Unit := do
  let val ← vmread32 .roIdtVectoringInfoField
  func.body site vregs
  let enabled ← Op.perform .preemptionEnabled
  assert .preemptionEnabled enabled
  let info := VectoredEventsInfo.ofVal val
  onlyIf info.valid (vqueueIdtVectoringInfo info)

/-- `vexit_dispatcher`. -/
def vexitDispatcher (site : Site) (vregs : Vregs) : Handler Unit := do
  let reason ← vmread32 .roExitReason
  match vexitFuncOf reason with
  | none => vfailureRecover
  | some func =>
      vexitBegin site reason
      vexitHandle site vregs func
      venter

/-! ## What a handler may do -/

section Discipline

variable {α : Type} {site : Site} {vregs : Vregs}

/-- A handler leaves to the entry what is the entry's, and may stop for good. -/
abbrev HandlerPlain (prog : Handler α) : Prop := Plain offEntry True prog

/-- With the VMCS held and preemption disabled once, the program keeps the discipline and enables
preemption. -/
def Enables (prog : Handler α) : Prop :=
  ∀ p : Phase, p.held = true → p.count = 1 →
    Obeys (discipline offEntry True) prog p fun _ q => q.count = 0

theorem Enables.bind {prog : Handler α} {β : Type} {f : α → Handler β}
    (first : Keeps offEntry True prog) (rest : ∀ a, Enables (f a)) : Enables (prog >>= f) :=
  Serves.bind first rest

theorem Enables.ite {c : Prop} [Decidable c] {left right : Handler α} (first : Enables left)
    (second : Enables right) : Enables (if c then left else right) :=
  Serves.ite first second

/-- What follows on enabling preemption does not touch the VMCS. -/
theorem Enables.andThen {prog : Handler α} {β : Type} {f : α → Handler β}
    (first : Enables prog) (rest : ∀ a, HandlerPlain (f a)) : Enables (prog >>= f) :=
  Serves.andThen first rest

theorem enables_enablePreemption : Enables enablePreemption :=
  serves_enablePreemption trivial

theorem plain_updateQueue (f : VoperationQueue → VoperationQueue) : HandlerPlain (updateQueue f) :=
  fun _ => ⟨⟨trivial, trivial⟩, fun _ _ => ⟨⟨trivial, trivial⟩, fun _ _ => .rfl⟩⟩

theorem plain_assert (which : Assertion) (cond : Bool) : HandlerPlain (assert which cond) :=
  fun _ => ⟨⟨trivial, trivial⟩, fun _ _ => .rfl⟩

theorem plain_setReg (reg : Fin 16) (val : BitVec 64) :
    HandlerPlain (Op.perform (.setReg reg val)) :=
  fun _ => ⟨⟨trivial, trivial⟩, fun _ _ => .rfl⟩

theorem plain_vemuSetInterruptPending (vector : Fin 256) (nmi : Bool) :
    HandlerPlain (vemuSetInterruptPending vector nmi) := by
  refine (plain_ret _).ite fun _ => ⟨⟨trivial, trivial⟩, fun _ _ => ?_⟩
  exact ⟨⟨trivial, trivial⟩, fun _ _ => .rfl⟩

theorem plain_vqueueIdtVectoringInfo (info : VectoredEventsInfo) :
    HandlerPlain (vqueueIdtVectoringInfo info) := by
  have queue : HandlerPlain (Op.perform .voperationQueue) :=
    fun _ => ⟨⟨trivial, trivial⟩, fun _ _ => .rfl⟩
  unfold vqueueIdtVectoringInfo
  split
  case h_1 | h_2 => exact plain_vemuSetInterruptPending _ _
  case h_8 => exact plain_assert _ _
  all_goals
    exact queue.bind fun _ => (plain_assert _ _).bind fun _ => plain_updateQueue _

theorem plain_vqueueInjectGp0 : HandlerPlain vqueueInjectGp0 :=
  (plain_vqueueIdtVectoringInfo _).bind fun _ => plain_updateQueue _

theorem plain_vfailureRecover : HandlerPlain (vfailureRecover : Handler Unit) :=
  (plain_call rfl trivial).bind fun _ => fun _ => trivial

theorem keeps_nmiUnblocking (info : VectoredEventsInfo) :
    Keeps offEntry True (nmiUnblocking info) :=
  ((keeps_vmread32 trivial).bind fun _ => keeps_vmwrite trivial).onlyIf

theorem enables_vexitException : Enables vexitException := by
  unfold vexitException
  refine .bind (keeps_vmread32 trivial) fun val => .bind (plain_assert _ _).keeps fun _ => ?_
  refine .bind (keeps_nmiUnblocking _) fun _ => .ite ?_ (.ite ?_ ?_)
  · exact .bind (plain_vqueueIdtVectoringInfo _).keeps fun _ => enables_enablePreemption
  · refine .bind (plain_assert _ _).keeps fun _ => .bind (keeps_vmread trivial) fun _ => ?_
    refine .bind (plain_assert _ _).keeps fun _ => ?_
    have inject : HandlerPlain vqueueInjectAc0 :=
      (plain_vqueueIdtVectoringInfo _).bind fun _ => plain_updateQueue _
    exact .bind inject.keeps fun _ => enables_enablePreemption
  · exact .bind (plain_assert _ _).keeps fun _ => enables_enablePreemption

theorem enables_vexitExtIntr : Enables vexitExtIntr := by
  unfold vexitExtIntr
  refine .bind (keeps_vmread32 trivial) fun val => .bind (plain_assert _ _).keeps fun _ => ?_
  refine .bind (plain_assert _ _).keeps fun _ => .bind (keeps_nmiUnblocking _) fun _ => ?_
  exact .bind (plain_call rfl trivial).keeps fun _ => enables_enablePreemption

theorem plain_setCpuid (regs : CpuidRegs) : HandlerPlain (setCpuid regs) := by
  refine (plain_setReg _ _).bind fun _ => (plain_setReg _ _).bind fun _ => ?_
  exact (plain_setReg _ _).bind fun _ => plain_setReg _ _

theorem enables_vexitCpuid : Enables (vexitCpuid site vregs) := by
  have root : HandlerPlain (Op.perform .root) :=
    fun _ => ⟨⟨trivial, trivial⟩, fun _ _ => ⟨rfl, rfl, rfl⟩⟩
  have answered : ∀ regs, HandlerPlain (do setCpuid regs; vqueueAdvanceGuest) :=
    fun regs => (plain_setCpuid regs).bind fun _ => plain_updateQueue _
  refine enables_enablePreemption.andThen fun _ => ?_
  exact (answered _).ite (root.bind fun _ => answered _)

theorem keeps_visGuestCpl0 : Keeps offEntry True visGuestCpl0 := by
  unfold visGuestCpl0
  refine (keeps_vmread trivial).bind fun cr0 => (keeps_ret _).ite ?_
  refine (keeps_vmread32 trivial).bind fun ar => (keeps_ret _).ite ?_
  refine (keeps_vmread trivial).bind fun efer => ?_
  refine ((keeps_vmread32 trivial).bind fun _ => keeps_ret _).ite ?_
  refine (keeps_vmread trivial).bind fun flags => (keeps_ret _).ite ?_
  exact (keeps_vmread32 trivial).bind fun _ => keeps_ret _

theorem enables_vcallById : Enables (vcallById site vregs) := by
  unfold vcallById
  split
  · intro p held count
    exact discipline_weaken (fun e may => may.2) False.elim (vcall_obeys site vregs _ held count)
  · exact enables_enablePreemption.andThen fun _ => plain_ret _

theorem enables_vexitVmcall : Enables (vexitVmcall site vregs) := by
  refine .andThen ?_ fun _ => plain_updateQueue _
  refine .bind keeps_visGuestCpl0 fun mode => ?_
  cases mode with
  | none => exact enables_enablePreemption.andThen fun _ => plain_vqueueInjectGp0
  | some mode => exact enables_vcallById.andThen fun _ => plain_setReg _ _

theorem plain_crMove (val : BitVec 64) (cr : ℕ) : HandlerPlain (crMove site val cr) := by
  have taken : ∀ f, HandlerPlain (do updateQueue f; vqueueAdvanceGuest) :=
    fun f => (plain_updateQueue f).bind fun _ => plain_updateQueue _
  have cr8 : HandlerPlain (do
      Op.perform (.setCr8 val)
      vsetIntl (val.setWidth 4)
      vqueueAdvanceGuest) := by
    refine Plain.bind (fun _ => ⟨⟨trivial, trivial⟩, fun _ _ => .rfl⟩) fun _ => ?_
    refine Plain.bind (fun _ => ⟨⟨trivial, trivial⟩, fun _ _ => ?_⟩) fun _ => plain_updateQueue _
    exact ⟨⟨trivial, trivial⟩, fun _ _ => .rfl⟩
  refine .ite ((taken _).ite plain_vqueueInjectGp0) (.ite ((taken _).ite plain_vqueueInjectGp0) ?_)
  refine .ite (cr8.ite plain_vqueueInjectGp0) ?_
  exact (plain_assert _ _).bind fun _ => plain_updateQueue _

/-- A move from RSP is where the VMCS is read after preemption has been enabled. -/
theorem enables_vexitCrAccess : Enables (vexitCrAccess site vregs) := by
  intro p held count
  refine ⟨⟨trivial, .inl held⟩, fun qual _ => ⟨⟨trivial, ?_⟩, fun _ _ => ?_⟩⟩
  · simp [discipline, count]
  · have operand : ∀ gpr q, (gpr = 4 → q.rsp = true) →
        Obeys (discipline offEntry True) (vgprVal vregs gpr) q fun _ r => q.Same r := by
      intro gpr q rsp
      unfold vgprVal
      split
      · exact ⟨⟨trivial, .inr ⟨rfl, rsp (by assumption)⟩⟩, fun _ _ => .rfl⟩
      · exact .rfl
    refine (operand (gprOf (BitVec.setWidth 32 qual)) _ ?_).bind fun val q same => ?_
    · intro here
      simpa [discipline] using here
    · refine (plain_crMove val _ q).mono fun _ r later => ?_
      rw [later.count, same.count]
      simp [discipline, count]

theorem plain_setEdxEax (val : BitVec 64) : HandlerPlain (setEdxEax val) :=
  (plain_setReg _ _).bind fun _ => plain_setReg _ _

/-- What follows on the question for root may rest on its answer. -/
theorem enables_afterRoot {f : Bool → Handler Unit}
    (rest : ∀ root (p : Phase), p.root = root →
      Obeys (discipline offEntry True) (f root) p fun _ q => p.Same q) :
    Enables (do enablePreemption; let root ← Op.perform .root; f root) := by
  refine enables_enablePreemption.andThen fun _ p => ⟨⟨trivial, trivial⟩, fun root _ => ?_⟩
  refine (rest root { p with root := root } rfl).mono fun _ q same => ?_
  exact ⟨same.held, same.irq, same.count⟩

/-- The processor is asked for an MSR only after the vcpu has been found to be root. -/
theorem enables_vexitRdmsr : Enables (vexitRdmsr site vregs) := by
  have answered : ∀ val, HandlerPlain (do setEdxEax val; vqueueAdvanceGuest) :=
    fun val => (plain_setEdxEax val).bind fun _ => plain_updateQueue _
  have reads : HandlerPlain (Op.perform (.rdmsr ia32ArchCapabilities)) :=
    fun _ => ⟨⟨trivial, trivial⟩, fun _ _ => .rfl⟩
  refine enables_afterRoot fun root p found => ?_
  unfold rdmsrSwitch
  split
  · exact (reads.bind fun val => answered _) p
  split
  · exact answered _ p
  · exact plain_vqueueInjectGp0 p
  cases root with
  | false => exact plain_vqueueInjectGp0 p
  | true =>
      split
      · exact plain_vqueueInjectGp0 p
      · refine ⟨⟨trivial, found⟩, fun val _ => ?_⟩
        cases val with
        | none => exact plain_vqueueInjectGp0 p
        | some val => exact answered val p

theorem enables_vexitWrmsr : Enables (vexitWrmsr site vregs) := by
  refine enables_afterRoot fun root p found => ?_
  unfold wrmsrSwitch
  split
  · exact plain_updateQueue _ p
  · exact plain_vqueueInjectGp0 p
  cases root with
  | false => exact plain_vqueueInjectGp0 p
  | true =>
      split
      · exact plain_vqueueInjectGp0 p
      · refine ⟨⟨trivial, found⟩, fun faulted _ => ?_⟩
        cases faulted with
        | false => exact plain_updateQueue _ p
        | true => exact plain_vqueueInjectGp0 p

theorem enables_vexitVmxPreempt : Enables vexitVmxPreempt := by
  have read : HandlerPlain (Op.perform .timers) := fun _ => ⟨⟨trivial, trivial⟩, fun _ _ => .rfl⟩
  have write : ∀ t, HandlerPlain (Op.perform (.setTimers t)) :=
    fun _ _ => ⟨⟨trivial, trivial⟩, fun _ _ => .rfl⟩
  have off : Keeps offEntry True (setPreemptionTimer false) := by
    refine (keeps_vmread32 trivial).bind fun _ => (keeps_vmread32 trivial).bind fun _ => ?_
    exact (keeps_vmwrite trivial).bind fun _ => keeps_vmwrite trivial
  have reload : ∀ chain, Keeps offEntry True (reloadPreemptionTimer chain) := by
    intro chain
    cases chain with
    | nil => exact off
    | cons front rest => exact keeps_vmwrite trivial
  refine .bind read.keeps fun t => ?_
  split
  · exact fun _ _ _ => trivial
  · refine .bind (write _).keeps fun _ => .bind (reload _) fun _ => ?_
    exact enables_enablePreemption.andThen fun _ => plain_vemuSetInterruptPending _ _

/-- Every handler keeps the discipline and enables preemption exactly once. -/
theorem body_obeys (func : VexitFunc) : Enables (func.body site vregs) := by
  cases func with
  | vexitException => exact enables_vexitException
  | vexitExtIntr => exact enables_vexitExtIntr
  | vexitFailureRecover => exact enables_enablePreemption.andThen fun _ => plain_vfailureRecover
  | vexitNop => exact enables_enablePreemption
  | vexitGp0 => exact enables_enablePreemption.andThen fun _ => plain_vqueueInjectGp0
  | vexitCpuid => exact enables_vexitCpuid
  | vexitUd => exact enables_enablePreemption.andThen fun _ => plain_vqueueIdtVectoringInfo _
  | vexitNopAdvance => exact enables_enablePreemption.andThen fun _ => plain_updateQueue _
  | vexitVmcall => exact enables_vexitVmcall
  | vexitCrAccess => exact enables_vexitCrAccess
  | vexitRdmsr => exact enables_vexitRdmsr
  | vexitWrmsr => exact enables_vexitWrmsr
  | vexitMceDuringEntry => exact enables_enablePreemption
  | vexitVmxPreempt => exact enables_vexitVmxPreempt

/-- An exit is taken with interrupts off and the VMCS held; preemption is disabled before they are
turned on. -/
theorem vexitBegin_obeys (site : Site) (reason : BitVec 32) {p : Phase} (held : p.held = true)
    (count : p.count = 0) : Obeys (discipline offEntry True) (vexitBegin site reason) p
      fun _ q => q.held = true ∧ q.count = 1 := by
  simp [vexitBegin, onlyIf, vtransitioningRecover, enablePreemption, call, Op.perform, obeys_ite,
    discipline, Call.rootOnly, offEntry, held, count]

theorem vexitHandle_obeys (site : Site) (vregs : Vregs) (func : VexitFunc) :
    Enables (vexitHandle site vregs func) := by
  have enabled : HandlerPlain (Op.perform .preemptionEnabled) :=
    fun _ => ⟨⟨trivial, trivial⟩, fun _ _ => .rfl⟩
  refine .bind (keeps_vmread32 trivial) fun val => (body_obeys func).andThen fun _ => ?_
  refine enabled.bind fun _ => (plain_assert _ _).bind fun _ => ?_
  exact (plain_vqueueIdtVectoringInfo _).onlyIf

/-- The whole exit keeps the discipline, and enters the guest as the exit left it. -/
theorem vexitDispatcher_obeys (site : Site) (vregs : Vregs) {p : Phase} (held : p.held = true)
    (count : p.count = 0) : Obeys (discipline (fun _ => True) True) (vexitDispatcher site vregs) p
      fun _ q => q.held = true ∧ q.irq = false ∧ q.count = 0 := by
  refine (keeps_vmread32 trivial p held).bind fun reason q same => ?_
  cases vexitFuncOf reason with
  | none => exact ⟨⟨trivial, by simp [Call.rootOnly]⟩, fun _ _ => trivial⟩
  | some func =>
      have begun := vexitBegin_obeys site reason (same.held.trans held) (same.count.trans count)
      refine (discipline_weaken (fun _ _ => trivial) id begun).bind fun _ r ready => ?_
      have handled := vexitHandle_obeys site vregs func r ready.1 ready.2
      refine (discipline_weaken (fun _ _ => trivial) id handled).bind fun _ u enabled => ?_
      refine (venter_obeys u).mono fun _ v entered => ?_
      exact ⟨entered.1, entered.2.1, entered.2.2.trans enabled⟩

end Discipline

end Twan.Vportal
