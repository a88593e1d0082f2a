/-
# Twan.Vportal.Venter -- `__venter`, and execution on one vcpu

`vportal/venter.c`.  `__venter` reloads the VMCS if the vcpu was preempted, marks the vcpu
running, carries out the operations the exit handler has queued, injects at most one event
under `visr_pending.lock`, and puts the vcpu back on the dispatch list of an injected
external vector.  The injection is an automaton over `VenterInjectState` in three stages,
one for each `if` of the source.

The second half is the execution of a program of the exit path by one vcpu: `Ctx` is what
the vcpu itself keeps, `World` answers for the rest (the scheduler, the MSRs, the calls).
-/
import Mathlib.Logic.Function.Basic
import Twan.Vportal.Discipline

namespace Twan.Vportal

set_option autoImplicit false

open Twan.Base Twan.Base.Prog Twan.Lib Twan.Vemulate

/-! ## The program -/

/-- `venter_inject_state_t`. -/
inductive VenterInjectState where
  | injectNone
  | injectedException
  | injectedNmi
  | nmiWindowExiting
  | intWindowExiting
  deriving DecidableEq, Repr

/-- The encoding of `interrupt_type_t`. -/
def InterruptType.toBits : InterruptType → BitVec 64
  | .external => 0
  | .reserved => 1
  | .nmi => 2
  | .hardwareException => 3
  | .softwareInt => 4
  | .privSoftwareException => 5
  | .softwareException => 6
  | .otherEvent => 7

/-- `vmentry_interrupt_info_t` with its valid bit set. -/
def vmentryInterruptInfo (vector : Fin 256) (type : InterruptType) (deliverErrcode : Bool) :
    BitVec 64 :=
  BitVec.ofNat 64 vector ||| (InterruptType.toBits type <<< 8) |||
    (if deliverErrcode then 1#64 <<< 11 else 0) ||| (1#64 <<< 31)

/-- `vinject_interrupt`, with the error code and the instruction length where they are delivered. -/
def vinjectInterrupt (vector : Fin 256) (type : InterruptType) (errcode length : Option (BitVec 64)) :
    Handler Unit := do
  vmwrite .ctrlVmentryInterruptInfo (vmentryInterruptInfo vector type errcode.isSome)
  onlyIf errcode.isSome (vmwrite .ctrlVmentryInterruptErrorCode (errcode.getD 0))
  onlyIf length.isSome (vmwrite .ctrlVmentryInstructionLength (length.getD 0))

/-- `vinject_interrupt_external`. -/
def vinjectInterruptExternal (vector : Fin 256) (nmi : Bool) : Handler Unit :=
  vinjectInterrupt vector (if vector = nmiVector ∧ nmi then .nmi else .external) none none

/-- `int_type` is one of those that are injected with an instruction length. -/
def lenValid : InterruptType → Bool
  | .softwareInt | .privSoftwareException | .softwareException => true
  | _ => false

/-- `bmp256_fls(pending)`. -/
def pendingVector (data : VisrPending) : Option (Fin 256) :=
  data.pendingExternalInterrupts.fls.map (Fin.ofNat 256)

/-- The error code of the queued event: the interrupted one, else the synthetic one. -/
def venterErrcode (queue : VoperationQueue) : Handler (Option (BitVec 64)) := do
  if queue.idtVectoringInfo.errcodeDelivered then
    let errcode ← vmread .roIdtVectoringErrorCode
    return some errcode
  return if queue.useSynthErrcode then some queue.synthErrcode else none

/-- The instruction length of the queued event, for the types that have one. -/
def venterLength (queue : VoperationQueue) : Handler (Option (BitVec 64)) := do
  if lenValid queue.idtVectoringInfo.vectoredEventType then
    let length ← vmread32 .roVmexitInstructionLength
    return some (length.setWidth 64)
  return none

/-- First stage: the event that the exit handler has queued. -/
def venterInjectException (queue : VoperationQueue) : Handler VenterInjectState := do
  if !queue.idtVectoring then
    return .injectNone
  let errcode ← venterErrcode queue
  let length ← venterLength queue
  let info := queue.idtVectoringInfo
  vinjectInterrupt info.vector info.vectoredEventType errcode length
  return .injectedException

/-- Second stage: a pending NMI. -/
def venterInjectNmi (data : VisrPending) (state : VenterInjectState) :
    Handler VenterInjectState := do
  if !data.nmiPending then
    return state
  let blocked ← visNmisBlocked
  if blocked || state = .injectedException then
    return .nmiWindowExiting
  vinjectInterruptExternal nmiVector true
  return .injectedNmi

/-- Third stage: the highest pending vector, with the vector that is injected. -/
def venterInjectExternal (data : VisrPending) (state : VenterInjectState) :
    Handler (VenterInjectState × Option (Fin 256)) := do
  match pendingVector data with
  | none => return (state, none)
  | some vector =>
      if !data.deliverable vector then
        return (state, none)
      let inNmi ← visInNmi
      if inNmi || state = .injectedNmi || state = .nmiWindowExiting then
        return (.nmiWindowExiting, none)
      let blocked ← visExternalInterruptsBlocked
      if blocked || state = .injectedException then
        return (.intWindowExiting, none)
      if state = .injectNone then
        vinjectInterruptExternal vector false
        return (state, some vector)
      return (state, none)

/-- A bit field of one bit. -/
def setField (val : BitVec 32) (bit : ℕ) (b : Bool) : BitVec 32 :=
  if b then val ||| (1#32 <<< bit) else val &&& ~~~(1#32 <<< bit)

/-- The window controls, written only when one of them changes. -/
def venterWindows (data : VisrPending) (nmiWindow intWindow : Bool) : Handler Unit :=
  onlyIf (nmiWindow != data.nmiWindowExit || intWindow != data.intWindowExit) do
    let proc ← vmread32 .ctrlProcbasedCtls
    vmwrite .ctrlProcbasedCtls (setField (setField proc 22 nmiWindow) 2 intWindow |>.setWidth 64)

/-- What the section leaves in `visr_pending`: an injected NMI or vector is no longer pending,
an injected vector is in service, and the window flags follow the controls. -/
def venterDelivery (data : VisrPending) (nmiInjected : Bool) (external : Option (Fin 256))
    (nmiWindow intWindow : Bool) : VisrPending where
  inIntl := match external with
    | some vector => data.inIntl ||| (1#16 <<< vectorToIntl vector)
    | none => data.inIntl
  nmiPending := data.nmiPending && !nmiInjected
  intl := data.intl
  intWindowExit := intWindow
  nmiWindowExit := nmiWindow
  pendingExternalInterrupts := match external with
    | some vector => data.pendingExternalInterrupts.unset vector
    | none => data.pendingExternalInterrupts

/-- The section under `visr_pending.lock`; the result is `external_vector`. -/
def venterInject (queue : VoperationQueue) : Handler (Option (Fin 256)) := do
  let data ← Op.perform .lockVisr
  let exception ← venterInjectException queue
  let nmi ← venterInjectNmi data exception
  let (state, external) ← venterInjectExternal data nmi
  let nmiWindow : Bool := state = .nmiWindowExiting
  let intWindow : Bool := state = .intWindowExiting
  venterWindows data nmiWindow intWindow
  let nmiInjected : Bool := nmi = .injectedNmi
  Op.perform (.unlockVisr (venterDelivery data nmiInjected external nmiWindow intWindow))
  return if nmiInjected then some nmiVector else external

/-- The vcpu goes back on the dispatch list of the vector it was given. -/
def venterRequeue : Option (Fin 256) → Handler Unit
  | some vector => do let _ ← call (.requeue vector)
  | none => pure ()

/-- The operations that are pending, carried out. -/
def venterCarryOut (entry : VschedEntry) (queue : VoperationQueue) : Handler Unit := do
  onlyIf entry.invvpid (do let _ ← call .invvpidSingle)
  onlyIf entry.rearm (do let _ ← call .vschedArmTimer)
  onlyIf queue.vmwriteCr0 (vmwrite .guestCr0 queue.cr0)
  onlyIf queue.vmwriteCr4 (vmwrite .guestCr4 queue.cr4)
  onlyIf queue.shouldAdvance vadvanceGuestRip

/-- The VMCS is loaded again if the vcpu was preempted, and the vcpu is marked running. -/
def venterBegin : Handler VschedEntry := do
  Op.perform .disableInterrupts
  let preempted ← Op.perform .preempted
  onlyIf preempted do
    let loaded ← Op.perform .vmptrld
    onlyIf (!loaded) vfailureRecover
    Op.perform .clearPreempted
  let entry ← Op.perform .vschedEnter
  onlyIf entry.terminate vtransitioningRecover
  return entry

/-- `__venter`. -/
def venter : Handler Unit := do
  let entry ← venterBegin
  let queue ← Op.perform .voperationQueue
  venterCarryOut entry queue
  Op.perform (.setVoperationQueue queue.clearPending)
  let external ← venterInject queue
  venterRequeue external

/-! ## The discipline of `__venter` -/

/-- The injection keeps the discipline and leaves the instruction pointer alone. -/
abbrev EntryKeeps {α : Type} (prog : Handler α) : Prop := Keeps offRip False prog

theorem keeps_vgetGuestMode {P : Op → Prop} {stops : Prop} (reads : ∀ field, P (.vmread field)) :
    Keeps P stops vgetGuestMode := by
  unfold vgetGuestMode
  refine (keeps_vmread (reads _)).bind fun cr0 => (keeps_ret _).ite ?_
  refine (keeps_vmread (reads _)).bind fun efer => ?_
  refine ((keeps_vmread32 (reads _)).bind fun _ => keeps_ret _).ite ?_
  refine (keeps_vmread (reads _)).bind fun flags => (keeps_ret _).ite ?_
  exact (keeps_vmread32 (reads _)).bind fun _ => keeps_ret _

/-- What is done to carry out the queued operations. -/
def carried : Op → Prop
  | .vmread _ | .call .invvpidSingle | .call .vschedArmTimer => True
  | .vmwrite field _ => field = .guestCr0 ∨ field = .guestCr4 ∨ field = .guestRip ∨
      field = .guestInterruptibilityState
  | _ => False

theorem keeps_vadvanceGuestRip : Keeps carried False vadvanceGuestRip := by
  unfold vadvanceGuestRip
  refine (keeps_vgetGuestMode fun _ => trivial).bind fun mode => (keeps_vmread trivial).bind fun rip => ?_
  refine (keeps_vmread trivial).bind fun length => (keeps_vmwrite (by simp [carried])).bind fun _ => ?_
  refine (keeps_vmread trivial).bind fun state => ?_
  exact (keeps_vmwrite (by simp [carried])).ite (keeps_ret _)

theorem keeps_venterCarryOut (entry : VschedEntry) (queue : VoperationQueue) :
    Keeps carried False (venterCarryOut entry queue) := by
  have calls : ∀ c, Call.rootOnly c = false → carried (.call c) →
      Keeps carried False (do let _ ← call c) :=
    fun c plain known => (plain_call plain known).keeps.bind fun _ => keeps_ret _
  unfold venterCarryOut
  refine (calls .invvpidSingle rfl trivial).onlyIf.bind fun _ => ?_
  refine (calls .vschedArmTimer rfl trivial).onlyIf.bind fun _ => ?_
  refine (keeps_vmwrite (by simp [carried])).onlyIf.bind fun _ => ?_
  refine (keeps_vmwrite (by simp [carried])).onlyIf.bind fun _ => ?_
  exact keeps_vadvanceGuestRip.onlyIf

theorem keeps_vinjectInterrupt (vector : Fin 256) (type : InterruptType)
    (errcode length : Option (BitVec 64)) :
    EntryKeeps (vinjectInterrupt vector type errcode length) := by
  refine (keeps_vmwrite trivial).bind fun _ => (keeps_vmwrite trivial).onlyIf.bind fun _ => ?_
  exact (keeps_vmwrite trivial).onlyIf

theorem keeps_venterInjectException (queue : VoperationQueue) :
    EntryKeeps (venterInjectException queue) := by
  have errcode : EntryKeeps (venterErrcode queue) :=
    ((keeps_vmread trivial).bind fun _ => keeps_ret _).ite (keeps_ret _)
  have length : EntryKeeps (venterLength queue) :=
    ((keeps_vmread32 trivial).bind fun _ => keeps_ret _).ite (keeps_ret _)
  refine (keeps_ret _).ite (errcode.bind fun _ => length.bind fun _ => ?_)
  exact (keeps_vinjectInterrupt _ _ _ _).bind fun _ => keeps_ret _

theorem keeps_venterInjectNmi (data : VisrPending) (state : VenterInjectState) :
    EntryKeeps (venterInjectNmi data state) := by
  have blocked : EntryKeeps visNmisBlocked := (keeps_vmread trivial).bind fun _ => keeps_ret _
  refine (keeps_ret _).ite (blocked.bind fun _ => (keeps_ret _).ite ?_)
  exact (keeps_vinjectInterrupt _ _ _ _).bind fun _ => keeps_ret _

theorem keeps_venterInjectExternal (data : VisrPending) (state : VenterInjectState) :
    EntryKeeps (venterInjectExternal data state) := by
  have inNmi : EntryKeeps visInNmi := (keeps_vmread trivial).bind fun _ => keeps_ret _
  have blocked : EntryKeeps visExternalInterruptsBlocked :=
    (keeps_vmread trivial).bind fun _ => (keeps_ret _).ite
      ((keeps_vmread trivial).bind fun _ => keeps_ret _)
  unfold venterInjectExternal
  split
  · exact keeps_ret _
  · refine (keeps_ret _).ite (inNmi.bind fun _ => (keeps_ret _).ite ?_)
    refine blocked.bind fun _ => (keeps_ret _).ite (.ite ?_ (keeps_ret _))
    exact (keeps_vinjectInterrupt _ _ _ _).bind fun _ => keeps_ret _

theorem keeps_venterInject (queue : VoperationQueue) : EntryKeeps (venterInject queue) := by
  have lock : EntryKeeps (Op.perform .lockVisr) := fun _ _ => ⟨⟨trivial, trivial⟩, fun _ _ => .rfl⟩
  have unlock : ∀ pending, EntryKeeps (Op.perform (.unlockVisr pending)) :=
    fun _ _ _ => ⟨⟨trivial, trivial⟩, fun _ _ => .rfl⟩
  unfold venterInject
  refine lock.bind fun data => (keeps_venterInjectException queue).bind fun exception => ?_
  refine (keeps_venterInjectNmi data exception).bind fun nmi => ?_
  refine (keeps_venterInjectExternal data nmi).bind fun stage => ?_
  refine ((keeps_vmread32 trivial).bind fun _ => keeps_vmwrite trivial).onlyIf.bind fun _ => ?_
  exact (unlock _).bind fun _ => keeps_ret _

/-- The operations that write no field of the VMCS. -/
def offVmcs : Op → Prop
  | .vmwrite _ _ => False
  | _ => True

/-- Entering again, the VMCS is loaded if it has to be. -/
theorem venterBegin_obeys (p : Phase) : Obeys (discipline offVmcs True) venterBegin p
    fun _ q => q.held = true ∧ q.irq = false ∧ q.count = p.count := by
  simp [venterBegin, onlyIf, vfailureRecover, vtransitioningRecover, call, Op.perform, obeys_ite,
    discipline, Call.rootOnly, offVmcs]

/-- The rest of the entry, in which nothing can interfere. -/
theorem keeps_venterRest (entry : VschedEntry) : Keeps (fun _ => True) True (do
    let queue ← Op.perform .voperationQueue
    venterCarryOut entry queue
    Op.perform (.setVoperationQueue queue.clearPending)
    let external ← venterInject queue
    venterRequeue external) := by
  have read : EntryKeeps (Op.perform .voperationQueue) :=
    fun _ _ => ⟨⟨trivial, trivial⟩, fun _ _ => .rfl⟩
  have write : ∀ queue, EntryKeeps (Op.perform (.setVoperationQueue queue)) :=
    fun _ _ _ => ⟨⟨trivial, trivial⟩, fun _ _ => .rfl⟩
  have requeue : ∀ external, EntryKeeps (venterRequeue external) := by
    intro external
    cases external with
    | none => exact keeps_ret _
    | some vector => exact (plain_call rfl trivial).keeps.bind fun _ => keeps_ret _
  have inject : ∀ queue, EntryKeeps (do
      Op.perform (.setVoperationQueue queue.clearPending)
      let external ← venterInject queue
      venterRequeue external) :=
    fun queue => (write _).bind fun _ => (keeps_venterInject queue).bind fun external => requeue external
  refine (read.weaken (fun _ _ => trivial) False.elim).bind fun queue => ?_
  refine ((keeps_venterCarryOut entry queue).weaken (fun _ _ => trivial) False.elim).bind fun _ => ?_
  exact (inject queue).weaken (fun _ _ => trivial) False.elim

theorem venter_obeys (p : Phase) : Obeys (discipline (fun _ => True) True) venter p
    fun _ q => q.held = true ∧ q.irq = false ∧ q.count = p.count := by
  refine (discipline_weaken (fun _ _ => trivial) id (venterBegin_obeys p)).bind fun entry q begun => ?_
  obtain ⟨held, irq, count⟩ := begun
  refine (keeps_venterRest entry q held).mono fun _ r same => ?_
  exact ⟨same.held.trans held, same.irq.trans irq, same.count.trans count⟩

/-! ## Execution on one vcpu -/

/-- What a vcpu keeps: its VMCS, its registers, the fields of `struct vcpu`, and which
assertions have failed. -/
structure Ctx where
  vmcs : VmcsField → BitVec 64
  gpr : Fin 16 → BitVec 64
  cr8 : BitVec 64
  queue : VoperationQueue
  visr : VisrPending
  timers : Vtimers
  preemptionCount : ℕ
  preempted : Bool
  failed : List Assertion

/-- What the vcpu is answered by everything else. -/
structure World where
  root : Bool
  terminate : Bool
  loads : Bool
  entry : VschedEntry
  rdmsr : BitVec 32 → BitVec 64
  rdmsrShielded : BitVec 32 → Option (BitVec 64)
  wrmsrShielded : BitVec 32 → BitVec 64 → Bool
  call : Call → BitVec 64

/-- One operation. -/
def answer (w : World) : (e : Op) → Ctx → e.Answer × Ctx
  | .vmread field, s => (s.vmcs field, s)
  | .vmwrite field val, s => ((), { s with vmcs := Function.update s.vmcs field val })
  | .vmptrld, s => (w.loads, s)
  | .preempted, s => (s.preempted, s)
  | .clearPreempted, s => ((), { s with preempted := false })
  | .disableInterrupts, s => ((), s)
  | .enableInterrupts, s => ((), s)
  | .disablePreemption, s => ((), { s with preemptionCount := s.preemptionCount + 1 })
  | .enablePreemption, s => ((), { s with preemptionCount := s.preemptionCount - 1 })
  | .preemptionEnabled, s => (s.preemptionCount == 0, s)
  | .vschedYield, s => ((), s)
  | .vschedPause _, s => ((), s)
  | .vschedTransition, s => ((), s)
  | .vschedEnter, s => (w.entry, s)
  | .terminate, s => (w.terminate, s)
  | .root, s => (w.root, s)
  | .setReg reg val, s => ((), { s with gpr := Function.update s.gpr reg val })
  | .setCr8 val, s => ((), { s with cr8 := val })
  | .voperationQueue, s => (s.queue, s)
  | .setVoperationQueue queue, s => ((), { s with queue := queue })
  | .lockVisr, s => (s.visr, s)
  | .unlockVisr pending, s => ((), { s with visr := pending })
  | .timers, s => (s.timers, s)
  | .setTimers timers, s => ((), { s with timers := timers })
  | .rdmsr msr, s => (w.rdmsr msr, s)
  | .rdmsrShielded msr, s => (w.rdmsrShielded msr, s)
  | .wrmsrShielded msr val, s => (w.wrmsrShielded msr val, s)
  | .call c, s => (w.call c, s)
  | .assert which cond, s =>
      ((), { s with failed := if cond then s.failed else which :: s.failed })

end Twan.Vportal
