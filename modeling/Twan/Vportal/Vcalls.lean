/-
# Twan.Vportal.Vcalls -- the vcalls and their dispatcher

`vportal/vcalls.c`: each vcall is a program that enables preemption where the source does
and returns a `long`.  The vcalls that the strict build or a build without frames refuses
keep both their bodies.  The locked sections of subscription and the calls of
`vemulate_utils.c` are single operations here.

* `Vcall.rootOnly`: the vcalls that ask for the root flag.
-/
import Twan.Vportal.Venter

namespace Twan.Vportal

set_option autoImplicit false

open Twan.Base Twan.Base.Prog Twan.Lib Twan.Vemulate

/-! ## Arguments and results -/

def arg8 (val : BitVec 64) : Fin 256 := (val.setWidth 8).toFin

def arg32 (val : BitVec 64) : BitVec 32 := val.setWidth 32

/-- A 32-bit argument taken as a `bool`. -/
def argBool (val : BitVec 64) : Bool := val.setWidth 32 ≠ 0#32

def eperm : BitVec 64 := 1
def einval : BitVec 64 := 22
def enospc : BitVec 64 := 28
def ealready : BitVec 64 := 66

/-- `vcall_ops_t`. -/
inductive Vcall where
  | vsubscribeExternalInterruptVector
  | vunsubscribeExternalInterruptVector
  | vipi
  | vipiFar
  | vtlbShootdown
  | varmTimern
  | vdisarmTimern
  | valterVcpuTimeslice
  | valterVcpuCriticality
  | visServiced
  | visPending
  | veoi
  | vyield
  | vpause
  | vreadVcpuState
  | vreadVcpuStateFar
  | vsetRoute
  | vsetVcpuSubscriptionPerm
  | vsetCriticalityPerm
  | vreadCriticalityLevel
  | vwriteCriticalityLevel
  | vpvSpinPause
  | vpvSpinKick
  | vpvSpinKickFar
  | vkdbg
  | vcreatePartition
  | vdestroyPartition
  | vframeSet
  | vframeUnset
  deriving DecidableEq, Repr

/-- `vcall_table`, by its indices. -/
def vcallTable : List Vcall :=
  [.vsubscribeExternalInterruptVector, .vunsubscribeExternalInterruptVector, .vipi, .vipiFar,
    .vtlbShootdown, .varmTimern, .vdisarmTimern, .valterVcpuTimeslice, .valterVcpuCriticality,
    .visServiced, .visPending, .veoi, .vyield, .vpause, .vreadVcpuState, .vreadVcpuStateFar,
    .vsetRoute, .vsetVcpuSubscriptionPerm, .vsetCriticalityPerm, .vreadCriticalityLevel,
    .vwriteCriticalityLevel, .vpvSpinPause, .vpvSpinKick, .vpvSpinKickFar, .vkdbg,
    .vcreatePartition, .vdestroyPartition, .vframeSet, .vframeUnset]

/-! ## The vcalls -/

/-- A vcall that the build refuses. -/
def vcallRefused : Handler (BitVec 64) := do
  enablePreemption
  return -einval

/-- `if (!current->root) return -EPERM;` before the rest of a vcall. -/
def ifRoot (rest : Handler (BitVec 64)) : Handler (BitVec 64) := do
  let root ← Op.perform .root
  if !root then
    return -eperm
  rest

def vsubscribeExternalInterruptVector (vregs : Vregs) : Handler (BitVec 64) := do
  enablePreemption
  call (.subscribe (arg8 vregs.rdi))

def vunsubscribeExternalInterruptVector (vregs : Vregs) : Handler (BitVec 64) := do
  enablePreemption
  call (.unsubscribe (arg8 vregs.rdi))

def vipi (site : Site) (vregs : Vregs) : Handler (BitVec 64) := do
  enablePreemption
  let target := arg32 vregs.rdi
  let vector := arg8 vregs.rdx
  let nmi := argBool vregs.rcx
  if arg32 vregs.rsi = 0 then
    call (.vemuInjectExternalInterruptLocal target vector nmi)
  else if arg32 vregs.rsi = 1 ∧ !site.vschedStrict then
    if site.processorId = target then
      return -einval
    call (.vemuUnpauseVcpuLocal target vector nmi)
  else
    return -einval

def vipiFar (site : Site) (vregs : Vregs) : Handler (BitVec 64) := do
  enablePreemption
  let vid := arg8 vregs.rdi
  let processorId := arg32 vregs.rsi
  let vector := arg8 vregs.rcx
  let nmi := argBool vregs.r8
  if arg32 vregs.rdx = 0 then
    call (.vemuInjectExternalInterruptFar vid processorId vector nmi)
  else if arg32 vregs.rdx = 1 ∧ !site.vschedStrict then
    call (.vemuUnpauseVcpuFar vid processorId vector nmi)
  else
    return -einval

def vtlbShootdown (vregs : Vregs) : Handler (BitVec 64) := do
  enablePreemption
  call (.vemuTlbInvalidate (arg8 vregs.rdi))

/-- `activate_vmx_preemption_timer` and `save_vmx_preemption_timer`, both set or both clear. -/
def setPreemptionTimer (active : Bool) : Handler Unit := do
  let pin ← vmread32 .ctrlPinbasedControls
  let exit ← vmread32 .ctrlPrimaryVmexitControls
  vmwrite .ctrlPinbasedControls ((setField pin 6 active).setWidth 64)
  vmwrite .ctrlPrimaryVmexitControls ((setField exit 22 active).setWidth 64)

/-- The front node's delta replaced. -/
def setFrontDelta (delta : BitVec 64) : List (ℕ × BitVec 64) → List (ℕ × BitVec 64)
  | [] => []
  | (front, _) :: rest => (front, delta) :: rest

/-- `node->node.next` of the front node, for its delta. -/
def nextDelta : List (ℕ × BitVec 64) → Option (BitVec 64)
  | _ :: (_, delta) :: _ => some delta
  | _ => none

/-- `delta_chain_is_front`. -/
def isFront (node : ℕ) (chain : List (ℕ × BitVec 64)) : Bool :=
  chain.head?.map Prod.fst == some node

/-- The timer's hardware side, before preemption is enabled: the first timer turns the
preemption timer on, a later one stores what the front has left. -/
def varmHardware (ticks : BitVec 32) (t : Vtimers) : Handler Unit := do
  if t.chain.isEmpty then
    vmwrite .guestVmxPreemptionTimerValue (ticks.setWidth 64)
    setPreemptionTimer true
  else
    let rem ← vmread32 .guestVmxPreemptionTimerValue
    if ticks < rem then
      vmwrite .guestVmxPreemptionTimerValue (ticks.setWidth 64)
    Op.perform (.setTimers { t with chain := setFrontDelta (rem.setWidth 64) t.chain })

def varmTimern (site : Site) (vregs : Vregs) : Handler (BitVec 64) := do
  let vector := arg8 vregs.rdi
  let n := (arg8 vregs.rsi).val
  let ticks := arg32 vregs.rdx
  let nmi := argBool vregs.r8
  if site.numVtimers ≤ n ∨ (nmi ∧ vector ≠ nmiVector) then
    enablePreemption
    return -einval
  let t ← Op.perform .timers
  if (t.timers n).armed then
    enablePreemption
    return -ealready
  varmHardware ticks t
  enablePreemption
  let t ← Op.perform .timers
  let timer : Vtimer :=
    { vector := vector, periodic := argBool vregs.rcx, armed := true, nmi := nmi, ticks := ticks }
  Op.perform (.setTimers
    { timers := Function.update t.timers n timer
      chain := deltaChainInsert n (ticks.setWidth 64) t.chain })
  return 0

/-- The hardware side of taking the timer `n` out: nothing unless it is the front, else the
preemption timer is turned off or counts on for the next one. -/
def vdisarmHardware (n : ℕ) (t : Vtimers) : Handler Unit := do
  if isFront n t.chain then
    match nextDelta t.chain with
    | none => setPreemptionTimer false
    | some delta =>
        let rem ← vmread32 .guestVmxPreemptionTimerValue
        vmwrite .guestVmxPreemptionTimerValue (rem.setWidth 64 + delta)
        Op.perform (.setTimers { t with chain := setFrontDelta (rem.setWidth 64) t.chain })

def vdisarmTimern (site : Site) (vregs : Vregs) : Handler (BitVec 64) := do
  let n := (arg8 vregs.rdi).val
  if site.numVtimers ≤ n then
    enablePreemption
    return -einval
  let t ← Op.perform .timers
  if !(t.timers n).armed then
    enablePreemption
    return -einval
  vdisarmHardware n t
  enablePreemption
  let t ← Op.perform .timers
  Op.perform (.setTimers
    { timers := Function.update t.timers n { t.timers n with armed := false }
      chain := deltaChainDequeueNoCallback n t.chain })
  return 0

def valterVcpuTimeslice (vregs : Vregs) : Handler (BitVec 64) := do
  enablePreemption
  ifRoot (call (.vemuAlterVcpu (arg8 vregs.rdi) (arg32 vregs.rsi) (some (arg32 vregs.rdx)) none))

def valterVcpuCriticality (vregs : Vregs) : Handler (BitVec 64) := do
  enablePreemption
  ifRoot (call (.vemuAlterVcpu (arg8 vregs.rdi) (arg32 vregs.rsi) none
    (some (vregs.rdx.setWidth 8))))

def visServiced (vregs : Vregs) : Handler (BitVec 64) := do
  enablePreemption
  let intl := (arg8 vregs.rdi).val
  if 15 < intl then
    return -einval
  let pending ← Op.perform .lockVisr
  Op.perform (.unlockVisr pending)
  return if pending.inIntl.getLsbD intl then 1 else 0

def visPending (vregs : Vregs) : Handler (BitVec 64) := do
  enablePreemption
  let vector := arg8 vregs.rdi
  let nmi := argBool vregs.rsi
  if nmi ∧ vector ≠ nmiVector then
    return -einval
  let pending ← Op.perform .lockVisr
  Op.perform (.unlockVisr pending)
  return if pending.isInterruptPending vector nmi then 1 else 0

def veoi : Handler (BitVec 64) := do
  enablePreemption
  let pending ← Op.perform .lockVisr
  Op.perform (.unlockVisr pending.eoi)
  return 0

/-- `VYIELD` gives the CPU away before it enables preemption, and so do the two pauses. -/
def vyield (site : Site) : Handler (BitVec 64) := do
  if site.vschedStrict then
    vcallRefused
  else
    Op.perform .vschedYield
    enablePreemption
    return 0

/-- `VPAUSE` and `VPV_SPIN_PAUSE`. -/
def vpauseWith (site : Site) (pvSpin : Bool) : Handler (BitVec 64) := do
  if site.vschedStrict then
    vcallRefused
  else
    Op.perform (.vschedPause pvSpin)
    enablePreemption
    return 0

def vpause (site : Site) : Handler (BitVec 64) := vpauseWith site false

def vpvSpinPause (site : Site) : Handler (BitVec 64) := vpauseWith site true

def vreadVcpuState (vregs : Vregs) : Handler (BitVec 64) := do
  enablePreemption
  call (.vemuReadVcpuStateLocal (arg32 vregs.rdi))

def vreadVcpuStateFar (vregs : Vregs) : Handler (BitVec 64) := do
  enablePreemption
  call (.vemuReadVcpuStateFar (arg8 vregs.rdi) (arg32 vregs.rsi))

def vsetRoute (site : Site) (vregs : Vregs) : Handler (BitVec 64) := do
  enablePreemption
  ifRoot do
    if arg8 vregs.rsi = site.vid then
      return -einval
    call (.vemuSetRoute (arg8 vregs.rdi) (arg8 vregs.rsi) (arg32 vregs.rdx) (argBool vregs.rcx))

def vsetVcpuSubscriptionPerm (site : Site) (vregs : Vregs) : Handler (BitVec 64) := do
  enablePreemption
  ifRoot do
    if arg8 vregs.rdi = site.vid then
      return -einval
    call (.vemuSetVcpuSubscriptionPerms (arg8 vregs.rdi) (arg32 vregs.rsi) (arg8 vregs.rdx)
      (argBool vregs.rcx))

def vsetCriticalityPerm (site : Site) (vregs : Vregs) : Handler (BitVec 64) := do
  enablePreemption
  ifRoot do
    if arg8 vregs.rdi = site.vid then
      return -einval
    call (.vemuSetCriticalityPerm (arg8 vregs.rdi) (arg32 vregs.rsi) (arg32 vregs.rdx))

/-- A processor number below zero stands for this CPU. -/
def physProcessorId (site : Site) (val : BitVec 64) : BitVec 32 :=
  if (arg32 val).msb then site.vprocessorId else arg32 val

def vreadCriticalityLevel (site : Site) (vregs : Vregs) : Handler (BitVec 64) := do
  enablePreemption
  call (.vemuReadCriticalityLevel site.vid (physProcessorId site vregs.rdi))

def vwriteCriticalityLevel (site : Site) (vregs : Vregs) : Handler (BitVec 64) := do
  enablePreemption
  call (.vemuWriteCriticalityLevel site.vid (physProcessorId site vregs.rdi)
    (vregs.rsi.setWidth 8))

def vpvSpinKick (site : Site) (vregs : Vregs) : Handler (BitVec 64) := do
  if site.vschedStrict then
    vcallRefused
  else
    enablePreemption
    call (.vemuPvSpinKickLocal (arg32 vregs.rdi))

def vpvSpinKickFar (site : Site) (vregs : Vregs) : Handler (BitVec 64) := do
  if site.vschedStrict then
    vcallRefused
  else
    enablePreemption
    call (.vemuPvSpinKickFar (arg8 vregs.rdi) (arg32 vregs.rsi))

def vkdbg (vregs : Vregs) : Handler (BitVec 64) := do
  enablePreemption
  ifRoot do
    if vregs.rdi = 0 then
      return -einval
    let _ ← call (.vdbgf vregs.rdi)
    return 0

def vcreatePartition (vregs : Vregs) : Handler (BitVec 64) := do
  enablePreemption
  ifRoot do
    let err ← call (.vpartitionPrecheck vregs.rdi)
    if err.msb then
      return err
    let vid ← call .vpartitionIdAlloc
    if vid.msb then
      return -enospc
    let _ ← call (.vpartitionSetup vregs.rdi vid)
    let _ ← call (.vpartitionPush vregs.rdi)
    return vid

def vdestroyPartition (site : Site) (vregs : Vregs) : Handler (BitVec 64) := do
  enablePreemption
  ifRoot do
    if arg8 vregs.rdi = site.vid then
      return -einval
    call (.vteardown (arg8 vregs.rdi))

def vframeSet (site : Site) (vregs : Vregs) : Handler (BitVec 64) := do
  if site.vschedMcfs then
    enablePreemption
    ifRoot (call (.vemuVframeSet (arg8 vregs.rdi) (arg32 vregs.rsi) (arg32 vregs.rdx)))
  else
    vcallRefused

def vframeUnset (site : Site) (vregs : Vregs) : Handler (BitVec 64) := do
  if site.vschedMcfs then
    enablePreemption
    ifRoot (call (.vemuVframeUnset (physProcessorId site vregs.rdi) (arg32 vregs.rsi)))
  else
    vcallRefused

/-! ## The dispatcher -/

/-- The function of an entry of `vcall_table`. -/
def Vcall.func (site : Site) (vregs : Vregs) : Vcall → Handler (BitVec 64)
  | .vsubscribeExternalInterruptVector => Vportal.vsubscribeExternalInterruptVector vregs
  | .vunsubscribeExternalInterruptVector => Vportal.vunsubscribeExternalInterruptVector vregs
  | .vipi => Vportal.vipi site vregs
  | .vipiFar => Vportal.vipiFar site vregs
  | .vtlbShootdown => Vportal.vtlbShootdown vregs
  | .varmTimern => Vportal.varmTimern site vregs
  | .vdisarmTimern => Vportal.vdisarmTimern site vregs
  | .valterVcpuTimeslice => Vportal.valterVcpuTimeslice vregs
  | .valterVcpuCriticality => Vportal.valterVcpuCriticality vregs
  | .visServiced => Vportal.visServiced vregs
  | .visPending => Vportal.visPending vregs
  | .veoi => Vportal.veoi
  | .vyield => Vportal.vyield site
  | .vpause => Vportal.vpause site
  | .vreadVcpuState => Vportal.vreadVcpuState vregs
  | .vreadVcpuStateFar => Vportal.vreadVcpuStateFar vregs
  | .vsetRoute => Vportal.vsetRoute site vregs
  | .vsetVcpuSubscriptionPerm => Vportal.vsetVcpuSubscriptionPerm site vregs
  | .vsetCriticalityPerm => Vportal.vsetCriticalityPerm site vregs
  | .vreadCriticalityLevel => Vportal.vreadCriticalityLevel site vregs
  | .vwriteCriticalityLevel => Vportal.vwriteCriticalityLevel site vregs
  | .vpvSpinPause => Vportal.vpvSpinPause site
  | .vpvSpinKick => Vportal.vpvSpinKick site vregs
  | .vpvSpinKickFar => Vportal.vpvSpinKickFar site vregs
  | .vkdbg => Vportal.vkdbg vregs
  | .vcreatePartition => Vportal.vcreatePartition vregs
  | .vdestroyPartition => Vportal.vdestroyPartition site vregs
  | .vframeSet => Vportal.vframeSet site vregs
  | .vframeUnset => Vportal.vframeUnset site vregs

/-- The vcalls that are reserved to root; the two of the frames only where they are built in. -/
def Vcall.rootOnly : Vcall → Bool
  | .valterVcpuTimeslice | .valterVcpuCriticality | .vsetRoute | .vsetVcpuSubscriptionPerm
  | .vsetCriticalityPerm | .vkdbg | .vcreatePartition | .vdestroyPartition | .vframeSet
  | .vframeUnset => true
  | _ => false

/-- What the dispatcher runs for an id. -/
def vcallById (site : Site) (vregs : Vregs) : Handler (BitVec 64) :=
  match vcallTable[vregs.rax.toNat]? with
  | some vcall => vcall.func site vregs
  | none => vcallRefused

/-- `vcall_dispatcher`. -/
def vcallDispatcher (site : Site) (vregs : Vregs) : Handler Unit := do
  let mode ← visGuestCpl0
  match mode with
  | none =>
      enablePreemption
      vqueueInjectGp0
  | some mode =>
      let ret ← vcallById site vregs
      let ret := if mode ≠ .op64Bit then ret &&& 0xffffffff#64 else ret
      Op.perform (.setReg 0 ret)

/-! ## What a vcall may do -/

/-- What a vcall may touch: neither the operation queue nor the instruction pointer. -/
def vcallMay (e : Op) : Prop := offQueue e ∧ offEntry e

section Discipline

variable {α : Type} {site : Site} {vregs : Vregs}

abbrev VcallPlain (prog : Handler α) : Prop := Plain vcallMay False prog

abbrev VcallServes (prog : Handler α) : Prop := Serves vcallMay False prog

/-- With root known to hold, what is reserved to it may be called. -/
def AsRoot (prog : Handler α) : Prop :=
  ∀ p : Phase, p.root = true →
    Obeys (discipline vcallMay False) prog p fun _ q => p.Same q ∧ q.root = true

theorem AsRoot.bind {β : Type} {prog : Handler α} {f : α → Handler β} (first : AsRoot prog)
    (rest : ∀ a, AsRoot (f a)) : AsRoot (prog >>= f) := by
  intro p root
  refine (first p root).bind fun a q reached => ?_
  exact (rest a q reached.2).mono fun _ r later => ⟨reached.1.trans later.1, later.2⟩

theorem AsRoot.ite {c : Prop} [Decidable c] {left right : Handler α} (first : AsRoot left)
    (second : AsRoot right) : AsRoot (if c then left else right) := by
  split
  · exact first
  · exact second

theorem asRoot_ret (a : α) : AsRoot (pure a : Handler α) := fun _ root => ⟨.rfl, root⟩

theorem asRoot_call (c : Call) : AsRoot (call c) :=
  fun _ root => ⟨⟨⟨trivial, trivial⟩, fun _ => root⟩, fun _ _ => ⟨.rfl, root⟩⟩

theorem plain_ifRoot {rest : Handler (BitVec 64)} (asRoot : AsRoot rest) :
    VcallPlain (ifRoot rest) := by
  refine fun p => ⟨⟨⟨trivial, trivial⟩, trivial⟩, fun (root : Bool) _ => ?_⟩
  cases root with
  | false => exact ⟨rfl, rfl, rfl⟩
  | true =>
      refine (asRoot { p with root := true } rfl).mono fun _ q reached => ?_
      exact ⟨reached.1.held, reached.1.irq, reached.1.count⟩

theorem plain_vcall {c : Call} (unreserved : Call.rootOnly c = false) : VcallPlain (call c) :=
  plain_call unreserved ⟨trivial, trivial⟩

theorem plain_timers : VcallPlain (Op.perform .timers) :=
  plain_perform (fun _ => ⟨⟨trivial, trivial⟩, trivial⟩) fun _ _ => rfl

theorem plain_setTimers (timers : Vtimers) : VcallPlain (Op.perform (.setTimers timers)) :=
  plain_perform (fun _ => ⟨⟨trivial, trivial⟩, trivial⟩) fun _ _ => rfl

theorem plain_lockVisr : VcallPlain (Op.perform .lockVisr) :=
  plain_perform (fun _ => ⟨⟨trivial, trivial⟩, trivial⟩) fun _ _ => rfl

theorem plain_unlockVisr (pending : VisrPending) : VcallPlain (Op.perform (.unlockVisr pending)) :=
  plain_perform (fun _ => ⟨⟨trivial, trivial⟩, trivial⟩) fun _ _ => rfl

/-- Most vcalls enable preemption first. -/
theorem serves_first {rest : Handler α} (plain : VcallPlain rest) :
    VcallServes (do enablePreemption; rest) :=
  (serves_enablePreemption ⟨trivial, trivial⟩).andThen fun _ => plain

theorem serves_vcallRefused : VcallServes vcallRefused := serves_first (plain_ret _)

theorem serves_vipi : VcallServes (vipi site vregs) := by
  refine serves_first ((plain_vcall rfl).ite (.ite ?_ (plain_ret _)))
  exact (plain_ret _).ite (plain_vcall rfl)

theorem keeps_setPreemptionTimer (active : Bool) :
    Keeps vcallMay False (setPreemptionTimer active) := by
  refine (keeps_vmread32 ⟨trivial, trivial⟩).bind fun pin => ?_
  refine (keeps_vmread32 ⟨trivial, trivial⟩).bind fun exit => ?_
  exact (keeps_vmwrite ⟨trivial, trivial⟩).bind fun _ => keeps_vmwrite ⟨trivial, trivial⟩

theorem keeps_varmHardware (ticks : BitVec 32) (t : Vtimers) :
    Keeps vcallMay False (varmHardware ticks t) := by
  have write : ∀ val, Keeps vcallMay False (vmwrite .guestVmxPreemptionTimerValue val) :=
    fun _ => keeps_vmwrite ⟨trivial, trivial⟩
  refine ((write _).bind fun _ => keeps_setPreemptionTimer true).ite ?_
  refine (keeps_vmread32 ⟨trivial, trivial⟩).bind fun rem => ?_
  exact ((write _).bind fun _ => (plain_setTimers _).keeps).ite (plain_setTimers _).keeps

theorem serves_varmTimern : VcallServes (varmTimern site vregs) := by
  refine .ite (serves_first (plain_ret _)) (.bind plain_timers.keeps fun t => ?_)
  refine .ite (serves_first (plain_ret _)) (.bind (keeps_varmHardware _ t) fun _ => ?_)
  refine serves_first (plain_timers.bind fun t => ?_)
  exact (plain_setTimers _).bind fun _ => plain_ret _

theorem keeps_vdisarmHardware (n : ℕ) (t : Vtimers) :
    Keeps vcallMay False (vdisarmHardware n t) := by
  refine .ite ?_ (keeps_ret _)
  cases nextDelta t.chain with
  | none => exact keeps_setPreemptionTimer false
  | some delta =>
      refine (keeps_vmread32 ⟨trivial, trivial⟩).bind fun rem => ?_
      exact (keeps_vmwrite ⟨trivial, trivial⟩).bind fun _ => (plain_setTimers _).keeps

theorem serves_vdisarmTimern : VcallServes (vdisarmTimern site vregs) := by
  refine .ite (serves_first (plain_ret _)) (.bind plain_timers.keeps fun t => ?_)
  refine .ite (serves_first (plain_ret _)) (.bind (keeps_vdisarmHardware _ t) fun _ => ?_)
  refine serves_first (plain_timers.bind fun t => ?_)
  exact (plain_setTimers _).bind fun _ => plain_ret _

theorem serves_visServiced : VcallServes (visServiced vregs) := by
  refine serves_first (.ite (plain_ret _) (plain_lockVisr.bind fun pending => ?_))
  exact (plain_unlockVisr pending).bind fun _ => plain_ret _

theorem serves_visPending : VcallServes (visPending vregs) := by
  refine serves_first (.ite (plain_ret _) (plain_lockVisr.bind fun pending => ?_))
  exact (plain_unlockVisr pending).bind fun _ => plain_ret _

theorem serves_veoi : VcallServes veoi :=
  serves_first (plain_lockVisr.bind fun _ => (plain_unlockVisr _).bind fun _ => plain_ret _)

/-- The CPU is given away, and with it the VMCS, before preemption is enabled. -/
theorem serves_givingUp (e : Op) (allowed : ∀ p, (discipline vcallMay False).ok p e)
    (leaves : ∀ p r, (discipline vcallMay False).next p e r = { p with held := false })
    (ret : BitVec 64) :
    VcallServes (do
      let _ ← Op.perform e
      enablePreemption
      return ret) := by
  intro p held count
  refine ⟨allowed p, fun r _ => ?_⟩
  rw [leaves p r]
  have disabled : 0 < p.count := by omega
  have enabled : p.count - 1 = 0 := by omega
  exact ⟨⟨⟨trivial, trivial⟩, disabled⟩, fun _ _ => enabled⟩

theorem serves_vyield : VcallServes (vyield site) :=
  .ite serves_vcallRefused
    (serves_givingUp .vschedYield (fun _ => ⟨⟨trivial, trivial⟩, trivial⟩) (fun _ _ => rfl) 0)

theorem serves_vpauseWith (pvSpin : Bool) : VcallServes (vpauseWith site pvSpin) :=
  .ite serves_vcallRefused
    (serves_givingUp (.vschedPause pvSpin) (fun _ => ⟨⟨trivial, trivial⟩, trivial⟩) (fun _ _ => rfl) 0)

/-- A vcall that is reserved to root. -/
theorem serves_ifRoot {rest : Handler (BitVec 64)} (asRoot : AsRoot rest) :
    VcallServes (do enablePreemption; ifRoot rest) :=
  serves_first (plain_ifRoot asRoot)

theorem serves_vcreatePartition : VcallServes (vcreatePartition vregs) := by
  refine serves_ifRoot ((asRoot_call _).bind fun err => (asRoot_ret _).ite ?_)
  refine (asRoot_call _).bind fun vid => (asRoot_ret _).ite ?_
  exact (asRoot_call _).bind fun _ => (asRoot_call _).bind fun _ => asRoot_ret _

/-- Every vcall keeps the discipline, enables preemption once and returns. -/
theorem vcall_obeys (site : Site) (vregs : Vregs) (vcall : Vcall) {p : Phase}
    (held : p.held = true) (count : p.count = 1) :
    Obeys (discipline vcallMay False) (vcall.func site vregs) p fun _ q => q.count = 0 := by
  suffices serves : VcallServes (vcall.func site vregs) from serves p held count
  cases vcall with
  | vsubscribeExternalInterruptVector => exact serves_first (plain_vcall rfl)
  | vunsubscribeExternalInterruptVector => exact serves_first (plain_vcall rfl)
  | vipi => exact serves_vipi
  | vipiFar => exact serves_first ((plain_vcall rfl).ite (.ite (plain_vcall rfl) (plain_ret _)))
  | vtlbShootdown => exact serves_first (plain_vcall rfl)
  | varmTimern => exact serves_varmTimern
  | vdisarmTimern => exact serves_vdisarmTimern
  | valterVcpuTimeslice => exact serves_ifRoot (asRoot_call _)
  | valterVcpuCriticality => exact serves_ifRoot (asRoot_call _)
  | visServiced => exact serves_visServiced
  | visPending => exact serves_visPending
  | veoi => exact serves_veoi
  | vyield => exact serves_vyield
  | vpause => exact serves_vpauseWith false
  | vreadVcpuState => exact serves_first (plain_vcall rfl)
  | vreadVcpuStateFar => exact serves_first (plain_vcall rfl)
  | vsetRoute => exact serves_ifRoot ((asRoot_ret _).ite (asRoot_call _))
  | vsetVcpuSubscriptionPerm => exact serves_ifRoot ((asRoot_ret _).ite (asRoot_call _))
  | vsetCriticalityPerm => exact serves_ifRoot ((asRoot_ret _).ite (asRoot_call _))
  | vreadCriticalityLevel => exact serves_first (plain_vcall rfl)
  | vwriteCriticalityLevel => exact serves_first (plain_vcall rfl)
  | vpvSpinPause => exact serves_vpauseWith true
  | vpvSpinKick => exact .ite serves_vcallRefused (serves_first (plain_vcall rfl))
  | vpvSpinKickFar => exact .ite serves_vcallRefused (serves_first (plain_vcall rfl))
  | vkdbg => exact serves_ifRoot ((asRoot_ret _).ite ((asRoot_call _).bind fun _ => asRoot_ret _))
  | vcreatePartition => exact serves_vcreatePartition
  | vdestroyPartition => exact serves_ifRoot ((asRoot_ret _).ite (asRoot_call _))
  | vframeSet => exact .ite (serves_ifRoot (asRoot_call _)) serves_vcallRefused
  | vframeUnset => exact .ite (serves_ifRoot (asRoot_call _)) serves_vcallRefused

end Discipline

end Twan.Vportal
