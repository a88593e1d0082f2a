/-
# Twan.Vemulate.Utils -- what an exit handler works with

The data of `vemulate/vemulate_utils.h`, `vsched/vcpu.h` and `x86_index.h` that the exit
path reads and writes (the VMCS fields, the vectored-event words, the queue of operations
for the next entry, the pending interrupts, the timers), and the operations that leave the
handler: each is one constructor of `Op`, with the type of its answer.  An exit handler, a
vcall or `__venter` is a program over these operations, so that what it does to the VMCS,
to the preemption count and to the rest of the hypervisor, and in which order, can be read
off it.  The inline helpers of `vemulate_utils.h` follow, under their own names.

A section under a lock is one operation, or a pair of them for `visr_pending.lock`
(`lockVisr` reads what the lock protects and `unlockVisr` writes it back).  A call into
the rest of the hypervisor (`Call`) is one operation, answered by its return value.
-/
import Twan.Base.Prog
import Twan.Lib.Bits
import Twan.Lib.Bmp256

namespace Twan.Vemulate

set_option autoImplicit false

open Twan.Base Twan.Lib

/-! ## Data -/

/-- The VMCS fields of the exit path. -/
inductive VmcsField where
  | roExitReason
  | roExitQualification
  | roVmexitInterruptInfo
  | roIdtVectoringInfoField
  | roIdtVectoringErrorCode
  | roVmexitInstructionLength
  | guestCr0
  | guestCr4
  | guestRip
  | guestRsp
  | guestRflags
  | guestCsAccessRights
  | guestIa32Efer
  | guestInterruptibilityState
  | guestVmxPreemptionTimerValue
  | ctrlPinbasedControls
  | ctrlProcbasedCtls
  | ctrlPrimaryVmexitControls
  | ctrlVmentryInterruptInfo
  | ctrlVmentryInterruptErrorCode
  | ctrlVmentryInstructionLength
  deriving DecidableEq, Repr

/-- `interrupt_type_t`. -/
inductive InterruptType where
  | external
  | reserved
  | nmi
  | hardwareException
  | softwareInt
  | privSoftwareException
  | softwareException
  | otherEvent
  deriving DecidableEq, Repr

def InterruptType.ofBits : ℕ → InterruptType
  | 0 => .external
  | 1 => .reserved
  | 2 => .nmi
  | 3 => .hardwareException
  | 4 => .softwareInt
  | 5 => .privSoftwareException
  | 6 => .softwareException
  | _ => .otherEvent

/-- `vectored_events_info_t`. -/
structure VectoredEventsInfo where
  vector : Fin 256
  vectoredEventType : InterruptType
  errcodeDelivered : Bool
  nmiUnblocking : Bool
  valid : Bool
  deriving DecidableEq, Repr

/-- The fields of the word read from the VMCS. -/
def VectoredEventsInfo.ofVal (val : BitVec 32) : VectoredEventsInfo where
  vector := (val.extractLsb' 0 8).toFin
  vectoredEventType := .ofBits (val.extractLsb' 8 3).toNat
  errcodeDelivered := val.getLsbD 11
  nmiUnblocking := val.getLsbD 12
  valid := val.getLsbD 31

/-- `cr_access_qualification_t`: the control register and the general one. -/
def crOf (qual : BitVec 32) : ℕ := (qual.extractLsb' 0 4).toNat
def gprOf (qual : BitVec 32) : Fin 16 := (qual.extractLsb' 8 4).toFin

/-- The vectors the hypervisor knows by name. -/
def debugException : Fin 256 := 1
def nmiVector : Fin 256 := 2
def invalidOpcode : Fin 256 := 6
def generalProtectionFault : Fin 256 := 13
def alignmentCheck : Fin 256 := 17

/-- `vop_mode_t`. -/
inductive VopMode where
  | op16Bit
  | op32Bit
  | op64Bit
  deriving DecidableEq, Repr

/-- `vcpu->voperation_queue`, the bits of `pending` first. -/
structure VoperationQueue where
  vmwriteCr4 : Bool
  vmwriteCr0 : Bool
  shouldAdvance : Bool
  idtVectoring : Bool
  useSynthErrcode : Bool
  cr0 : BitVec 64
  cr4 : BitVec 64
  idtVectoringInfo : VectoredEventsInfo
  synthErrcode : BitVec 64

/-- `pending.val = 0`. -/
def VoperationQueue.clearPending (q : VoperationQueue) : VoperationQueue :=
  { q with
    vmwriteCr4 := false, vmwriteCr0 := false, shouldAdvance := false, idtVectoring := false
    useSynthErrcode := false }

/-- `vcpu->visr_pending`, the fields of `delivery` first. -/
structure VisrPending where
  inIntl : BitVec 16
  nmiPending : Bool
  intl : BitVec 4
  intWindowExit : Bool
  nmiWindowExit : Bool
  pendingExternalInterrupts : Bmp256

/-- `vector_to_intl`. -/
def vectorToIntl (vector : Fin 256) : ℕ := vector / 16

namespace VisrPending

/-- `__vemu_set_interrupt_pending`. -/
def setInterruptPending (p : VisrPending) (vector : Fin 256) (nmi : Bool) : VisrPending :=
  if nmi then { p with nmiPending := true }
  else { p with pendingExternalInterrupts := p.pendingExternalInterrupts.set vector }

/-- What `vemu_is_interrupt_pending` and `vis_pending` read. -/
def isInterruptPending (p : VisrPending) (vector : Fin 256) (nmi : Bool) : Bool :=
  if nmi then p.nmiPending else p.pendingExternalInterrupts.test vector

/-- `fls32(delivery.fields.in_intl)`: the highest level in service. -/
def servicedIntl (p : VisrPending) : Option ℕ := fls32 p.inIntl.toNat

/-- The locked part of `veoi`. -/
def eoi (p : VisrPending) : VisrPending :=
  match p.servicedIntl with
  | some serviced => { p with inIntl := p.inIntl &&& ~~~(1#16 <<< serviced) }
  | none => p

/-- `pending_intl > serviced_intl && pending_intl >= current_intl`. -/
def deliverable (p : VisrPending) (vector : Fin 256) : Bool :=
  (match p.servicedIntl with
   | some serviced => decide (serviced < vectorToIntl vector)
   | none => true) && decide (p.intl.toNat ≤ vectorToIntl vector)

end VisrPending

/-- The fields of `struct vtimer` beside its node. -/
structure Vtimer where
  vector : Fin 256
  periodic : Bool
  armed : Bool
  nmi : Bool
  ticks : BitVec 32

/-- The timers of a vcpu, and its delta chain as the list of (timer, delta). -/
structure Vtimers where
  timers : ℕ → Vtimer
  chain : List (ℕ × BitVec 64)

/-- `delta_chain_insert`: the new node goes before the first one that is due later. -/
def deltaChainInsert (node : ℕ) : BitVec 64 → List (ℕ × BitVec 64) → List (ℕ × BitVec 64)
  | remaining, [] => [(node, remaining)]
  | remaining, (cur, delta) :: rest =>
      if remaining < delta then (node, remaining) :: (cur, delta - remaining) :: rest
      else (cur, delta) :: deltaChainInsert node (remaining - delta) rest

/-- `delta_chain_dequeue_no_callback`: the next node takes over what the removed one had left. -/
def deltaChainDequeueNoCallback (node : ℕ) : List (ℕ × BitVec 64) → List (ℕ × BitVec 64)
  | [] => []
  | [(cur, delta)] => if cur = node then [] else [(cur, delta)]
  | (cur, delta) :: (next, nextDelta) :: rest =>
      if cur = node then (next, nextDelta + delta) :: rest
      else (cur, delta) :: deltaChainDequeueNoCallback node ((next, nextDelta) :: rest)

/-- The registers of the guest at the exit; slot 4, the number of RSP, is not among them. -/
structure Vregs where
  gpr : Fin 16 → BitVec 64

namespace Vregs

def rax (vregs : Vregs) : BitVec 64 := vregs.gpr 0
def rcx (vregs : Vregs) : BitVec 64 := vregs.gpr 1
def rdx (vregs : Vregs) : BitVec 64 := vregs.gpr 2
def rbx (vregs : Vregs) : BitVec 64 := vregs.gpr 3
def rsi (vregs : Vregs) : BitVec 64 := vregs.gpr 6
def rdi (vregs : Vregs) : BitVec 64 := vregs.gpr 7
def r8 (vregs : Vregs) : BitVec 64 := vregs.gpr 8

end Vregs

/-- `vper_cpu_feature_flags_t`. -/
structure VperCpuFeatureFlags where
  umip : Bool
  la57 : Bool
  fsgsbase : Bool
  pcid : Bool
  kl : Bool
  smep : Bool
  smap : Bool
  pke : Bool
  cet : Bool
  pks : Bool
  lass : Bool
  lam : Bool

/-- The four registers of a CPUID leaf. -/
structure CpuidRegs where
  eax : BitVec 32
  ebx : BitVec 32
  ecx : BitVec 32
  edx : BitVec 32

/-- What a handler finds and does not change: the build, the vcpu's numbers, and of its CPU
the features, the trap cache and the answers of CPUID and of the information leaves. -/
structure Site where
  vschedStrict : Bool
  vschedMcfs : Bool
  vipiDrainStrict : Bool
  numVtimers : ℕ
  vid : Fin 256
  processorId : BitVec 32
  vprocessorId : BitVec 32
  features : VperCpuFeatureFlags
  itsNo : Bool
  ia32ArchCapabilitiesR : Bool
  ia32FeatureControlRw : Bool
  via32FeatureCtrlLow : BitVec 32
  via32FeatureCtrlHigh : BitVec 32
  cpuid : BitVec 32 → BitVec 32 → CpuidRegs
  vinfo : Vregs → CpuidRegs

/-- What the locked section at the head of `__venter` hands out. -/
structure VschedEntry where
  terminate : Bool
  invvpid : Bool
  rearm : Bool

/-! ## Operations -/

/-- Calls into the rest of the hypervisor, in the order the vcalls make them. -/
inductive Call where
  | subscribe (vector : Fin 256)
  | unsubscribe (vector : Fin 256)
  | vemuInjectExternalInterruptLocal (processorId : BitVec 32) (vector : Fin 256) (nmi : Bool)
  | vemuInjectExternalInterruptFar (vid : Fin 256) (processorId : BitVec 32) (vector : Fin 256)
      (nmi : Bool)
  | vemuUnpauseVcpuLocal (processorId : BitVec 32) (vector : Fin 256) (nmi : Bool)
  | vemuUnpauseVcpuFar (vid : Fin 256) (processorId : BitVec 32) (vector : Fin 256) (nmi : Bool)
  | vemuTlbInvalidate (vid : Fin 256)
  | vemuAlterVcpu (vid : Fin 256) (processorId : BitVec 32) (ticks : Option (BitVec 32))
      (criticality : Option (BitVec 8))
  | vemuReadVcpuStateLocal (processorId : BitVec 32)
  | vemuReadVcpuStateFar (vid : Fin 256) (processorId : BitVec 32)
  | vemuSetRoute (target sender : Fin 256) (routeType : BitVec 32) (allow : Bool)
  | vemuSetVcpuSubscriptionPerms (vid : Fin 256) (processorId : BitVec 32) (vector : Fin 256)
      (allow : Bool)
  | vemuSetCriticalityPerm (vid : Fin 256) (physProcessorId : BitVec 32) (perm : BitVec 32)
  | vemuReadCriticalityLevel (vid : Fin 256) (physProcessorId : BitVec 32)
  | vemuWriteCriticalityLevel (vid : Fin 256) (physProcessorId : BitVec 32)
      (criticality : BitVec 8)
  | vemuPvSpinKickLocal (processorId : BitVec 32)
  | vemuPvSpinKickFar (vid : Fin 256) (processorId : BitVec 32)
  | vdbgf (str : BitVec 64)
  | vpartitionPrecheck (vpartition : BitVec 64)
  | vpartitionIdAlloc
  | vpartitionSetup (vpartition : BitVec 64) (vid : BitVec 64)
  | vpartitionPush (vpartition : BitVec 64)
  | vteardown (vid : Fin 256)
  | vemuVframeSet (vid : Fin 256) (processorId frameId : BitVec 32)
  | vemuVframeUnset (physProcessorId frameId : BitVec 32)
  | vipiAck
  | vipiDrainNoYield
  | vexitExtDispatcher (vector : Fin 256)
  | vfailureRecover
  | vtransitioningRecover
  | invvpidSingle
  | vschedArmTimer
  | requeue (vector : Fin 256)

/-- The assertions on the exit path. -/
inductive Assertion where
  | eventQueued
  | infoValid
  | typeExternal
  | errcodeDelivered
  | errcodeZero
  | knownException
  | knownEventType
  | knownControlRegister
  | preemptionEnabled
  deriving DecidableEq, Repr

/-- The operations of the exit path that leave the handler. -/
inductive Op where
  | vmread (field : VmcsField)
  | vmwrite (field : VmcsField) (val : BitVec 64)
  | vmptrld
  | preempted
  | clearPreempted
  | disableInterrupts
  | enableInterrupts
  | disablePreemption
  | enablePreemption
  | preemptionEnabled
  | vschedYield
  | vschedPause (pvSpin : Bool)
  | vschedTransition
  | vschedEnter
  | terminate
  | root
  | setReg (reg : Fin 16) (val : BitVec 64)
  | setCr8 (val : BitVec 64)
  | voperationQueue
  | setVoperationQueue (queue : VoperationQueue)
  | lockVisr
  | unlockVisr (pending : VisrPending)
  | timers
  | setTimers (timers : Vtimers)
  | rdmsr (msr : BitVec 32)
  | rdmsrShielded (msr : BitVec 32)
  | wrmsrShielded (msr : BitVec 32) (val : BitVec 64)
  | call (c : Call)
  | assert (which : Assertion) (cond : Bool)

/-- What an operation answers: `vmptrld` says whether it succeeded, a shielded MSR access
whether it faulted. -/
abbrev Op.Answer : Op → Type
  | .vmread _ => BitVec 64
  | .vschedEnter => VschedEntry
  | .vmptrld | .preempted | .preemptionEnabled | .terminate | .root => Bool
  | .voperationQueue => VoperationQueue
  | .lockVisr => VisrPending
  | .timers => Vtimers
  | .rdmsr _ => BitVec 64
  | .rdmsrShielded _ => Option (BitVec 64)
  | .wrmsrShielded _ _ => Bool
  | .call _ => BitVec 64
  | _ => Unit

/-- Programs of the exit path. -/
abbrev Handler := Prog Op Op.Answer

/-- One operation, for its answer. -/
def Op.perform (e : Op) : Handler e.Answer := Prog.perform e

def vmread (field : VmcsField) : Handler (BitVec 64) := Op.perform (.vmread field)

def vmread32 (field : VmcsField) : Handler (BitVec 32) := do
  let val ← vmread field
  return val.setWidth 32

def vmwrite (field : VmcsField) (val : BitVec 64) : Handler Unit := Op.perform (.vmwrite field val)

def enablePreemption : Handler Unit := Op.perform .enablePreemption

def call (c : Call) : Handler (BitVec 64) := Op.perform (.call c)

def assert (which : Assertion) (cond : Bool) : Handler Unit := Op.perform (.assert which cond)

/-- `if (c) p;` -/
def onlyIf (c : Bool) (p : Handler Unit) : Handler Unit := if c then p else pure ()

/-- `vfailure_recover(); UNREACHABLE();` -/
def vfailureRecover {α : Type} : Handler α := do
  let _ ← call .vfailureRecover
  .halt

/-- `vtransitioning_recover(); UNREACHABLE();` -/
def vtransitioningRecover {α : Type} : Handler α := do
  let _ ← call .vtransitioningRecover
  .halt

/-! ## The inline helpers -/

/-- `vemu_set_interrupt_pending` for the current vcpu, as the exit path calls it. -/
def vemuSetInterruptPending (vector : Fin 256) (nmi : Bool) : Handler Unit := do
  if nmi && vector ≠ nmiVector then
    return ()
  let pending ← Op.perform .lockVisr
  Op.perform (.unlockVisr (pending.setInterruptPending vector nmi))

/-- `vgpr_val`: RSP is the one register that is kept in the VMCS. -/
def vgprVal (vregs : Vregs) (gpr : Fin 16) : Handler (BitVec 64) :=
  if gpr = 4 then vmread .guestRsp else return vregs.gpr gpr

/-- `vis_guest_cpl0`: the guest's mode, if it may make a vcall. -/
def visGuestCpl0 : Handler (Option VopMode) := do
  let cr0 ← vmread .guestCr0
  if !cr0.getLsbD 0 then
    return some .op16Bit
  let ar ← vmread32 .guestCsAccessRights
  if ar.extractLsb' 5 2 ≠ 0#2 then
    return none
  let efer ← vmread .guestIa32Efer
  if efer.getLsbD 10 then
    let rights ← vmread32 .guestCsAccessRights
    return some (if rights.getLsbD 13 then .op64Bit
      else if rights.getLsbD 14 then .op32Bit else .op16Bit)
  let flags ← vmread .guestRflags
  if flags.getLsbD 17 then
    return none
  let rights ← vmread32 .guestCsAccessRights
  return some (if rights.getLsbD 14 then .op32Bit else .op16Bit)

/-- `vget_guest_mode`. -/
def vgetGuestMode : Handler VopMode := do
  let cr0 ← vmread .guestCr0
  if !cr0.getLsbD 0 then
    return .op16Bit
  let efer ← vmread .guestIa32Efer
  if efer.getLsbD 10 then
    let rights ← vmread32 .guestCsAccessRights
    return if rights.getLsbD 13 then .op64Bit
      else if rights.getLsbD 14 then .op32Bit else .op16Bit
  let flags ← vmread .guestRflags
  if flags.getLsbD 17 then
    return .op16Bit
  let rights ← vmread32 .guestCsAccessRights
  return if rights.getLsbD 14 then .op32Bit else .op16Bit

/-- The part of an instruction pointer that a mode keeps. -/
def VopMode.mask : VopMode → BitVec 64
  | .op16Bit => 0xffff#64
  | .op32Bit => 0xffffffff#64
  | .op64Bit => BitVec.allOnes 64

/-- `vadvance_guest_rip`. -/
def vadvanceGuestRip : Handler Unit := do
  let mode ← vgetGuestMode
  let rip ← vmread .guestRip
  let length ← vmread .roVmexitInstructionLength
  vmwrite .guestRip ((rip + length) &&& mode.mask)
  let state ← vmread .guestInterruptibilityState
  if state.getLsbD 0 || state.getLsbD 1 then
    vmwrite .guestInterruptibilityState (state &&& ~~~3#64)

/-- `vis_in_nmi`. -/
def visInNmi : Handler Bool := do
  let state ← vmread .guestInterruptibilityState
  return state.getLsbD 3

/-- `vis_nmis_blocked`. -/
def visNmisBlocked : Handler Bool := do
  let state ← vmread .guestInterruptibilityState
  return state.getLsbD 1 || state.getLsbD 3

/-- `vis_external_interrupts_blocked`. -/
def visExternalInterruptsBlocked : Handler Bool := do
  let flags ← vmread .guestRflags
  if !flags.getLsbD 9 then
    return true
  let state ← vmread .guestInterruptibilityState
  return state.getLsbD 0 || state.getLsbD 1

/-- An assignment to the vcpu's own operation queue. -/
def updateQueue (f : VoperationQueue → VoperationQueue) : Handler Unit := do
  let queue ← Op.perform .voperationQueue
  Op.perform (.setVoperationQueue (f queue))

/-- `vqueue_advance_guest`. -/
def vqueueAdvanceGuest : Handler Unit := updateQueue fun q => { q with shouldAdvance := true }

/-- `vqueue_idt_vectoring_info`. -/
def vqueueIdtVectoringInfo (info : VectoredEventsInfo) : Handler Unit :=
  match info.vectoredEventType with
  | .external => vemuSetInterruptPending info.vector (info.vector = nmiVector)
  | .nmi => vemuSetInterruptPending nmiVector true
  | .hardwareException | .softwareInt | .privSoftwareException | .softwareException
  | .otherEvent => do
      let queue ← Op.perform .voperationQueue
      assert .eventQueued (!queue.idtVectoring)
      updateQueue fun q => { q with idtVectoring := true, idtVectoringInfo := info }
  | .reserved => assert .knownEventType false

/-- `vqueue_synthetic_errcode`. -/
def vqueueSyntheticErrcode (errcode : BitVec 64) : Handler Unit :=
  updateQueue fun q => { q with useSynthErrcode := true, synthErrcode := errcode }

/-- The word an exception is queued with: only its vector and type are filled in. -/
def syntheticInfo (vector : Fin 256) (type : InterruptType) : VectoredEventsInfo where
  vector := vector
  vectoredEventType := type
  errcodeDelivered := false
  nmiUnblocking := false
  valid := false

/-- `vqueue_inject_gp0`. -/
def vqueueInjectGp0 : Handler Unit := do
  vqueueIdtVectoringInfo (syntheticInfo generalProtectionFault .hardwareException)
  vqueueSyntheticErrcode 0

/-- `vqueue_inject_ud`. -/
def vqueueInjectUd : Handler Unit :=
  vqueueIdtVectoringInfo (syntheticInfo invalidOpcode .hardwareException)

/-- `vqueue_inject_db`. -/
def vqueueInjectDb (type : InterruptType) : Handler Unit :=
  vqueueIdtVectoringInfo (syntheticInfo debugException type)

/-- `vqueue_inject_ac0`. -/
def vqueueInjectAc0 : Handler Unit := do
  vqueueIdtVectoringInfo (syntheticInfo alignmentCheck .hardwareException)
  vqueueSyntheticErrcode 0

/-- `vqueue_vmwrite_cr0`. -/
def vqueueVmwriteCr0 (cr0 : BitVec 64) : Handler Unit :=
  updateQueue fun q => { q with vmwriteCr0 := true, cr0 := cr0 }

/-- `vqueue_vmwrite_cr4`. -/
def vqueueVmwriteCr4 (cr4 : BitVec 64) : Handler Unit :=
  updateQueue fun q => { q with vmwriteCr4 := true, cr4 := cr4 }

/-- `vset_intl`. -/
def vsetIntl (intl : BitVec 4) : Handler Unit := do
  let pending ← Op.perform .lockVisr
  Op.perform (.unlockVisr { pending with intl := intl })

end Twan.Vemulate
