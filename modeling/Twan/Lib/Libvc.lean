/-
# Twan.Lib.Libvc -- vcalls made on another processor

`lib/libtwanvisor/libvc.c`: each of the four `tv_*_on_cpu` makes a vcall on the processor it is
asked for, itself if it is this one, and otherwise in a function that the other processor runs
on an IPI, with the arguments and the result in a structure.  `ipi_law` of `Twan.Kernel.Ipi` is
why a call that waits returns after its function has run once; here that is one step.

A processor is a vcpu with what the hypervisor keeps for it: `Ctx` for its VMCS, its queue and its
timers, and the vectors of `Twan.Visr.Subscriptions`, the pending ones among them.

`on_cpu_iff`: the other processor is left as if it had made the call itself, and the result is the
same, unless a vector that is allowed is to be unsubscribed, since `vunsubscribe_ipi` subscribes it.
-/
import Twan.Vportal.Exits
import Twan.Visr.Subscriptions

namespace Twan.Lib.Libvc

set_option autoImplicit false
set_option linter.unusedSectionVars false

open Twan.Base Twan.Lib Twan.Vemulate Twan.Vportal Twan.Visr.Subscriptions
open Twan.Base.Prog (run run_bind run_perform run_ite run_ret pure_eq)

variable {Vcpu : Type} [DecidableEq Vcpu]

/-! ## The processors -/

/-- `active` is `cpu_valid` and `cpu_active`. -/
structure Processor (Vcpu : Type) where
  active : Bool
  site : Site
  world : World
  current : Vcpu
  ctx : Ctx
  cpu : Cpu Vcpu

/-- The processors, by their numbers. -/
abbrev Processors (Vcpu : Type) := BitVec 32 → Processor Vcpu

namespace Processor

variable (p : Processor Vcpu)

/-- The section of `vsubscribe_external_interrupt_vector` and its result. -/
def subscribe (vector : Fin 256) : BitVec 64 × Processor Vcpu :=
  if p.cpu.allowed p.current vector then
    let pend := p.cpu.pending p.current vector
    let begun := p.cpu.vsubscribe p.current vector
    (0, { p with cpu := begun.vsubscribeEnd p.current vector pend })
  else (-eperm, p)

/-- The section of `vunsubscribe_external_interrupt_vector` and its result. -/
def unsubscribe (vector : Fin 256) : BitVec 64 × Processor Vcpu :=
  if p.cpu.allowed p.current vector then
    (0, { p with cpu := p.cpu.vunsubscribe p.current vector })
  else (-eperm, p)

/-- One operation of the exit path. -/
def answer : (e : Op) → Processor Vcpu → e.Answer × Processor Vcpu
  | .lockVisr, p => (p.cpu.visr p.current, p)
  | .unlockVisr pending, p => ((), { p with cpu := p.cpu.setVisr p.current pending })
  | .call (.subscribe vector), p => p.subscribe vector
  | .call (.unsubscribe vector), p => p.unsubscribe vector
  | e, p => ((Vportal.answer p.world e p.ctx).1,
      { p with ctx := (Vportal.answer p.world e p.ctx).2 })

end Processor

/-! ## The vcalls -/

/-- The number of a vcall. -/
def vcallId (vcall : Vcall) : BitVec 64 := BitVec.ofNat 64 (vcallTable.idxOf vcall)

/-- The registers that `tv_vcall` loads. -/
def loaded (gpr : Fin 16 → BitVec 64) (id arg1 arg2 arg3 arg4 arg5 arg6 : BitVec 64) (slot : Fin 16) :
    BitVec 64 :=
  if slot = 0 then id else if slot = 7 then arg1 else if slot = 6 then arg2
  else if slot = 2 then arg3 else if slot = 1 then arg4 else if slot = 8 then arg5
  else if slot = 9 then arg6 else gpr slot

/-- The exit of `VMCALL`, from where preemption is disabled to the end of its handler. -/
def vmcall (site : Site) (vregs : Vregs) : Handler Unit := do
  Op.perform .disablePreemption
  vexitVmcall site vregs

/-- `tv_vcall`: what RAX has afterwards. -/
def tvVcall (vcall : Vcall) (arg1 arg2 arg3 arg4 arg5 arg6 : BitVec 64) (p : Processor Vcpu) :
    BitVec 64 × Processor Vcpu :=
  let gpr := loaded p.ctx.gpr (vcallId vcall) arg1 arg2 arg3 arg4 arg5 arg6
  let after := (run Processor.answer (vmcall p.site ⟨gpr⟩) { p with ctx := { p.ctx with gpr := gpr } }).2
  (after.ctx.gpr 0, after)

def ofU8 (val : BitVec 8) : BitVec 64 := val.setWidth 64

def ofBool (val : Bool) : BitVec 64 := (BitVec.ofBool val).setWidth 64

def tvVsubscribeExternalInterruptVector (vector : BitVec 8) :
    Processor Vcpu → BitVec 64 × Processor Vcpu :=
  tvVcall .vsubscribeExternalInterruptVector (ofU8 vector) 0 0 0 0 0

def tvVunsubscribeExternalInterruptVector (vector : BitVec 8) :
    Processor Vcpu → BitVec 64 × Processor Vcpu :=
  tvVcall .vunsubscribeExternalInterruptVector (ofU8 vector) 0 0 0 0 0

def tvVarmTimern (vector timerN : BitVec 8) (ticks : BitVec 32) (periodic nmi : Bool) :
    Processor Vcpu → BitVec 64 × Processor Vcpu :=
  tvVcall .varmTimern (ofU8 vector) (ofU8 timerN) (ticks.setWidth 64) (ofBool periodic) (ofBool nmi) 0

def tvVdisarmTimern (timerN : BitVec 8) : Processor Vcpu → BitVec 64 × Processor Vcpu :=
  tvVcall .vdisarmTimern (ofU8 timerN) 0 0 0 0 0

/-! ## The functions that the other processor runs -/

structure VsubIpiArg where
  ret : BitVec 64
  vector : BitVec 8

structure VarmTimerIpiArg where
  ret : BitVec 64
  vector : BitVec 8
  timerN : BitVec 8
  nmi : Bool
  ticks : BitVec 32
  periodic : Bool

structure VdisarmTimerIpiArg where
  ret : BitVec 64
  timerN : BitVec 8

/-- A function for an IPI: it changes the structure its argument points to. -/
abbrev IpiFunc (Vcpu Arg : Type) := Arg → Processor Vcpu → Arg × Processor Vcpu

def vsubscribeIpi : IpiFunc Vcpu VsubIpiArg := fun data p =>
  let (ret, p) := tvVsubscribeExternalInterruptVector data.vector p
  ({ data with ret := ret }, p)

/-- It subscribes, as the one before. -/
def vunsubscribeIpi : IpiFunc Vcpu VsubIpiArg := fun data p =>
  let (ret, p) := tvVsubscribeExternalInterruptVector data.vector p
  ({ data with ret := ret }, p)

def varmTimerIpi : IpiFunc Vcpu VarmTimerIpiArg := fun data p =>
  let (ret, p) := tvVarmTimern data.vector data.timerN data.ticks data.periodic data.nmi p
  ({ data with ret := ret }, p)

def vdisarmTimerIpi : IpiFunc Vcpu VdisarmTimerIpiArg := fun data p =>
  let (ret, p) := tvVdisarmTimern data.timerN p
  ({ data with ret := ret }, p)

/-! ## On a processor -/

/-- `ipi_run_func` with `wait`: the function has run when it returns, unless it is refused. -/
def ipiRunFunc {Arg : Type} (thisProcessorId processorId : BitVec 32) (func : IpiFunc Vcpu Arg)
    (arg : Arg) (s : Processors Vcpu) : BitVec 64 × Arg × Processors Vcpu :=
  if !(s processorId).active || processorId = thisProcessorId then (-einval, arg, s)
  else
    let (arg, p) := func arg (s processorId)
    (0, arg, Function.update s processorId p)

/-- What the four have in common: `func` on `arg` for another processor, `here` for this one. -/
def onCpu {Arg : Type} (func : IpiFunc Vcpu Arg) (arg : Arg) (result : Arg → BitVec 64)
    (here : Processor Vcpu → BitVec 64 × Processor Vcpu) (thisProcessorId processorId : BitVec 32)
    (s : Processors Vcpu) : BitVec 64 × Processors Vcpu :=
  if processorId ≠ thisProcessorId then
    let (ret, arg, s) := ipiRunFunc thisProcessorId processorId func arg s
    (if ret = 0 then result arg else ret, s)
  else
    let (ret, p) := here (s thisProcessorId)
    (ret, Function.update s thisProcessorId p)

def tvVsubscribeOnCpu (thisProcessorId processorId : BitVec 32) (vector : BitVec 8) :
    Processors Vcpu → BitVec 64 × Processors Vcpu :=
  onCpu vsubscribeIpi { ret := 0, vector := vector } (fun arg => arg.ret)
    (tvVsubscribeExternalInterruptVector vector) thisProcessorId processorId

def tvVunsubscribeOnCpu (thisProcessorId processorId : BitVec 32) (vector : BitVec 8) :
    Processors Vcpu → BitVec 64 × Processors Vcpu :=
  onCpu vunsubscribeIpi { ret := 0, vector := vector } (fun arg => arg.ret)
    (tvVunsubscribeExternalInterruptVector vector) thisProcessorId processorId

def tvVarmTimerOnCpu (thisProcessorId processorId : BitVec 32) (vector timerN : BitVec 8)
    (ticks : BitVec 32) (periodic nmi : Bool) : Processors Vcpu → BitVec 64 × Processors Vcpu :=
  onCpu varmTimerIpi
    { ret := 0, vector := vector, timerN := timerN, nmi := nmi, ticks := ticks, periodic := periodic }
    (fun arg => arg.ret) (tvVarmTimern vector timerN ticks periodic nmi) thisProcessorId processorId

def tvVdisarmTimerOnCpu (thisProcessorId processorId : BitVec 32) (timerN : BitVec 8) :
    Processors Vcpu → BitVec 64 × Processors Vcpu :=
  onCpu vdisarmTimerIpi { ret := 0, timerN := timerN } (fun arg => arg.ret)
    (tvVdisarmTimern timerN) thisProcessorId processorId

/-- A call of one of the four. -/
inductive OnCpu where
  | vsubscribe (vector : BitVec 8)
  | vunsubscribe (vector : BitVec 8)
  | varmTimer (vector timerN : BitVec 8) (ticks : BitVec 32) (periodic nmi : Bool)
  | vdisarmTimer (timerN : BitVec 8)

def OnCpu.call (thisProcessorId processorId : BitVec 32) :
    OnCpu → Processors Vcpu → BitVec 64 × Processors Vcpu
  | .vsubscribe vector => tvVsubscribeOnCpu thisProcessorId processorId vector
  | .vunsubscribe vector => tvVunsubscribeOnCpu thisProcessorId processorId vector
  | .varmTimer vector timerN ticks periodic nmi =>
      tvVarmTimerOnCpu thisProcessorId processorId vector timerN ticks periodic nmi
  | .vdisarmTimer timerN => tvVdisarmTimerOnCpu thisProcessorId processorId timerN

/-! ## Remote and local -/

section

variable {Arg : Type} {func : IpiFunc Vcpu Arg} {arg : Arg} {result : Arg → BitVec 64}
  {here : Processor Vcpu → BitVec 64 × Processor Vcpu} {thisId processorId : BitVec 32}
  {s : Processors Vcpu}

theorem onCpu_local : onCpu func arg result here processorId processorId s =
    ((here (s processorId)).1, Function.update s processorId (here (s processorId)).2) := by
  simp [onCpu]

theorem onCpu_remote (other : processorId ≠ thisId) (accepted : (s processorId).active = true) :
    onCpu func arg result here thisId processorId s =
      (result (func arg (s processorId)).1,
        Function.update s processorId (func arg (s processorId)).2) := by
  simp [onCpu, ipiRunFunc, other, accepted]

/-- The other processor is left as by the call itself if its function does what the call does. -/
theorem onCpu_agrees_iff (other : processorId ≠ thisId) (accepted : (s processorId).active = true) :
    onCpu func arg result here thisId processorId s =
        onCpu func arg result here processorId processorId s ↔
      (result (func arg (s processorId)).1, (func arg (s processorId)).2) = here (s processorId) := by
  rw [onCpu_local, onCpu_remote other accepted]
  constructor
  · intro same
    obtain ⟨ret, left⟩ := Prod.mk.inj same
    refine Prod.ext ret ?_
    simpa using congrFun left processorId
  · intro same
    rw [← same]

end

/-! ## Subscribing in place of unsubscribing -/

section

variable [Fintype Vcpu] {p : Processor Vcpu}

theorem run_visGuestCpl0 (p : Processor Vcpu) :
    run Processor.answer visGuestCpl0 p = (some (guestCpl0 p.ctx.vmcs), p) := by
  unfold visGuestCpl0 guestCpl0
  simp only [vmread, vmread32, Op.perform, run_bind, run_perform, run_ite, Processor.answer,
    Vportal.answer, pure_eq, run_ret]
  split_ifs <;> rfl

/-- A vcall that makes one call with preemption enabled. -/
def enabledCall (c : Call) : Handler (BitVec 64) := do
  enablePreemption
  call c

/-- The result of a vcall, in the mode of the guest. -/
def inMode (mode : VopMode) (ret : BitVec 64) : BitVec 64 :=
  if mode ≠ .op64Bit then ret &&& 0xffffffff#64 else ret

/-- The processor back from a vcall that has left these vectors. -/
def Processor.back (p : Processor Vcpu) (cpu : Cpu Vcpu) (gpr : Fin 16 → BitVec 64) (ret : BitVec 64) :
    Processor Vcpu :=
  { p with
    cpu := cpu
    ctx := { p.ctx with
      gpr := Function.update gpr 0 ret
      preemptionCount := p.ctx.preemptionCount + 1 - 1
      queue := { p.ctx.queue with shouldAdvance := true } } }

theorem run_vmcall {site : Site} {vregs : Vregs} {c : Call} {mode : VopMode} {ret : BitVec 64}
    {cpu : Cpu Vcpu} (kernel : guestCpl0 p.ctx.vmcs = some mode)
    (found : vcallById site vregs = enabledCall c)
    (called : ∀ ctx, Processor.answer (.call c) { p with ctx := ctx } =
      (ret, { p with ctx := ctx, cpu := cpu })) :
    (run Processor.answer (vmcall site vregs) p).2 = p.back cpu p.ctx.gpr (inMode mode ret) := by
  let begun : Ctx := { p.ctx with preemptionCount := p.ctx.preemptionCount + 1 }
  have first : run Processor.answer (Op.perform .disablePreemption) p =
    (some (), { p with ctx := begun }) := rfl
  have mode : run Processor.answer visGuestCpl0 { p with ctx := begun } =
      (some (some mode), { p with ctx := begun }) := by
    rw [run_visGuestCpl0]
    exact congrArg (fun m => (some m, _)) kernel
  simp only [vmcall, vexitVmcall, vcallDispatcher, run_bind, first, mode, found]
  have enabled : run Processor.answer enablePreemption { p with ctx := begun } =
    (some (), { p with ctx := { begun with preemptionCount := begun.preemptionCount - 1 } }) := rfl
  simp only [enabledCall, run_bind, enabled, Vemulate.call, Op.perform, run_perform, called]
  rfl

theorem update_loaded (gpr : Fin 16 → BitVec 64) (id arg ret : BitVec 64) :
    Function.update (loaded gpr id arg 0 0 0 0 0) 0 ret = loaded gpr ret arg 0 0 0 0 0 := by
  funext slot
  by_cases rax : slot = 0
  · subst rax
    rw [Function.update_self]
    rfl
  · rw [Function.update_of_ne rax]
    simp [loaded, rax]

theorem arg8_ofU8 (val : BitVec 8) : arg8 (ofU8 val) = val.toFin := by
  simp [arg8, ofU8]

/-- A vcall that enables preemption and makes one call for a vector. -/
theorem tvVcall_section {vcall : Vcall} {c : Fin 256 → Call} {vector : BitVec 8} {mode : VopMode}
    {ret : BitVec 64} {cpu : Cpu Vcpu} (kernel : guestCpl0 p.ctx.vmcs = some mode)
    (found : ∀ site vregs, vregs.rax = vcallId vcall → vcallById site vregs =
      enabledCall (c (arg8 vregs.rdi)))
    (called : ∀ ctx, Processor.answer (.call (c vector.toFin)) { p with ctx := ctx } =
      (ret, { p with ctx := ctx, cpu := cpu })) :
    tvVcall vcall (ofU8 vector) 0 0 0 0 0 p = (inMode mode ret,
      p.back cpu (loaded p.ctx.gpr 0 (ofU8 vector) 0 0 0 0 0) (inMode mode ret)) := by
  let gpr := loaded p.ctx.gpr (vcallId vcall) (ofU8 vector) 0 0 0 0 0
  have program := found p.site ⟨gpr⟩ rfl
  have arg : arg8 (Vregs.rdi ⟨gpr⟩) = vector.toFin := arg8_ofU8 vector
  rw [arg] at program
  have ran := run_vmcall (p := { p with ctx := { p.ctx with gpr := gpr } }) kernel program
    fun ctx => called ctx
  have same : Function.update gpr 0 (inMode mode ret) =
      Function.update (loaded p.ctx.gpr 0 (ofU8 vector) 0 0 0 0 0) 0 (inMode mode ret) := by
    rw [update_loaded, update_loaded]
  have left : (run Processor.answer (vmcall p.site ⟨gpr⟩)
      { p with ctx := { p.ctx with gpr := gpr } }).2 =
      p.back cpu (loaded p.ctx.gpr 0 (ofU8 vector) 0 0 0 0 0) (inMode mode ret) := by
    rw [ran, Processor.back, Processor.back, same]
  exact Prod.ext ((congrArg (fun q => q.ctx.gpr 0) left).trans
    (Function.update_self (f := loaded p.ctx.gpr 0 (ofU8 vector) 0 0 0 0 0) 0 _)) left

theorem vcallById_vsubscribe (site : Site) (vregs : Vregs)
    (id : vregs.rax = vcallId .vsubscribeExternalInterruptVector) : vcallById site vregs =
      enabledCall (.subscribe (arg8 vregs.rdi)) := by
  rw [vcallById, id]
  rfl

theorem vcallById_vunsubscribe (site : Site) (vregs : Vregs)
    (id : vregs.rax = vcallId .vunsubscribeExternalInterruptVector) : vcallById site vregs =
      enabledCall (.unsubscribe (arg8 vregs.rdi)) := by
  rw [vcallById, id]
  rfl

theorem vsubscribeEnd_subscribed (cpu : Cpu Vcpu) (vcpu : Vcpu) (vector : Fin 256) (pend : Bool) :
    (cpu.vsubscribeEnd vcpu vector pend).subscribed vcpu vector = true := by
  have set : (cpu.setSubscribed vcpu vector).subscribed vcpu vector = true := by simp
  unfold Cpu.vsubscribeEnd
  cases pend with
  | true => exact set
  | false => exact ((frame_link _ vcpu vector).subscribed vcpu vector).trans set

theorem vunsubscribe_subscribed (cpu : Cpu Vcpu) (vcpu : Vcpu) {vector : Fin 256}
    (allowed : cpu.allowed vcpu vector = true) :
    (cpu.vunsubscribe vcpu vector).subscribed vcpu vector = false := by
  rw [Cpu.vunsubscribe, if_pos allowed, (frame_unlink _ vcpu vector).subscribed]
  simp

/-- The two vcalls do the same exactly for a vector that is not allowed. -/
theorem vsubscribe_eq_vunsubscribe_iff {vector : BitVec 8}
    (kernel : (guestCpl0 p.ctx.vmcs).isSome = true) :
    tvVsubscribeExternalInterruptVector vector p = tvVunsubscribeExternalInterruptVector vector p ↔
      p.cpu.allowed p.current vector.toFin = false := by
  obtain ⟨mode, kernel⟩ := Option.isSome_iff_exists.mp kernel
  unfold tvVsubscribeExternalInterruptVector tvVunsubscribeExternalInterruptVector
  cases allowed : p.cpu.allowed p.current vector.toFin with
  | false =>
      have subscribes : ∀ ctx, Processor.answer (.call (.subscribe vector.toFin)) { p with ctx := ctx } =
          (-eperm, { p with ctx := ctx, cpu := p.cpu }) := by
        intro ctx
        exact if_neg (by simp [allowed])
      have unsubscribes : ∀ ctx,
          Processor.answer (.call (.unsubscribe vector.toFin)) { p with ctx := ctx } =
            (-eperm, { p with ctx := ctx, cpu := p.cpu }) := by
        intro ctx
        exact if_neg (by simp [allowed])
      rw [tvVcall_section kernel vcallById_vsubscribe subscribes,
        tvVcall_section kernel vcallById_vunsubscribe unsubscribes]
      exact iff_of_true rfl rfl
  | true =>
      let subscribed := (p.cpu.vsubscribe p.current vector.toFin).vsubscribeEnd p.current vector.toFin
        (p.cpu.pending p.current vector.toFin)
      have subscribes : ∀ ctx, Processor.answer (.call (.subscribe vector.toFin)) { p with ctx := ctx } =
          (0, { p with ctx := ctx, cpu := subscribed }) := by
        intro ctx
        exact if_pos allowed
      have unsubscribes : ∀ ctx,
          Processor.answer (.call (.unsubscribe vector.toFin)) { p with ctx := ctx } =
            (0, { p with ctx := ctx, cpu := p.cpu.vunsubscribe p.current vector.toFin }) := by
        intro ctx
        exact if_pos allowed
      rw [tvVcall_section kernel vcallById_vsubscribe subscribes,
        tvVcall_section kernel vcallById_vunsubscribe unsubscribes]
      refine iff_of_false (fun same => ?_) (by simp)
      have bits : subscribed.subscribed p.current vector.toFin =
          (p.cpu.vunsubscribe p.current vector.toFin).subscribed p.current vector.toFin :=
        congrArg (fun outcome => outcome.2.cpu.subscribed p.current vector.toFin) same
      rw [vsubscribeEnd_subscribed, vunsubscribe_subscribed _ _ allowed] at bits
      cases bits

end

/-- **Remote wrappers equal local calls** -- for every call, every processor that accepts the IPI and
whatever the hypervisor keeps for it, except that a vector it is allowed is not unsubscribed. -/
theorem on_cpu_iff [Fintype Vcpu] (request : OnCpu) (s : Processors Vcpu)
    (thisProcessorId processorId : BitVec 32) (other : processorId ≠ thisProcessorId)
    (accepted : (s processorId).active = true)
    (kernel : (guestCpl0 (s processorId).ctx.vmcs).isSome = true) :
    request.call thisProcessorId processorId s = request.call processorId processorId s ↔
      ∀ vector, request = .vunsubscribe vector →
        (s processorId).cpu.allowed (s processorId).current vector.toFin = false := by
  cases request with
  | vsubscribe vector =>
      unfold OnCpu.call tvVsubscribeOnCpu
      rw [onCpu_agrees_iff other accepted]
      refine iff_of_true rfl fun _ wrong => ?_
      cases wrong
  | vunsubscribe vector =>
      have agrees : tvVunsubscribeOnCpu thisProcessorId processorId vector s =
          tvVunsubscribeOnCpu processorId processorId vector s ↔ _ :=
        onCpu_agrees_iff other accepted
      refine agrees.trans ((vsubscribe_eq_vunsubscribe_iff kernel).trans ⟨fun forbidden v here => ?_, ?_⟩)
      · cases here
        exact forbidden
      · exact fun forbidden => forbidden vector rfl
  | varmTimer vector timerN ticks periodic nmi =>
      unfold OnCpu.call tvVarmTimerOnCpu
      rw [onCpu_agrees_iff other accepted]
      refine iff_of_true rfl fun _ wrong => ?_
      cases wrong
  | vdisarmTimer timerN =>
      unfold OnCpu.call tvVdisarmTimerOnCpu
      rw [onCpu_agrees_iff other accepted]
      refine iff_of_true rfl fun _ wrong => ?_
      cases wrong

/-- Two processors in the kernel, on which a vcpu may hear of every vector and of no other. -/
def sampleProcessors (vectors : Bmp256) : Processors Unit := fun _ =>
  let exit := sampleExit (sampleVmcs 18 0xa09b 0) fun _ => 0
  { active := true
    site := exit.site
    world := exit.world
    current := ()
    ctx := exit.ctx
    cpu := { sampleCpu with metadata := fun _ => ⟨.empty, vectors⟩ } }

/-- A timer is armed on another processor. -/
theorem on_cpu_arms : (1 : BitVec 32) ≠ 0 ∧ (sampleProcessors .full 1).active = true ∧
    (guestCpl0 (sampleProcessors .full 1).ctx.vmcs).isSome = true ∧
    (OnCpu.varmTimer 0x40 0 100 true false).call 0 1 (sampleProcessors .full) =
      (OnCpu.varmTimer 0x40 0 100 true false).call 1 1 (sampleProcessors .full) := by
  have other : (1 : BitVec 32) ≠ 0 := by decide
  have kernel : (guestCpl0 (sampleProcessors .full 1).ctx.vmcs).isSome = true := by decide
  refine ⟨other, rfl, kernel, (on_cpu_iff _ (sampleProcessors .full) 0 1 other rfl kernel).mpr ?_⟩
  intro vector wrong
  cases wrong

/-- A vector is unsubscribed on another processor, and is subscribed there afterwards. -/
theorem vunsubscribe_subscribes : (sampleProcessors .full 1).active = true ∧
    (guestCpl0 (sampleProcessors .full 1).ctx.vmcs).isSome = true ∧
    ((OnCpu.vunsubscribe 0x40).call 0 1 (sampleProcessors .full)).1 = 0 ∧
    (((OnCpu.vunsubscribe 0x40).call 0 1 (sampleProcessors .full)).2 1).cpu.subscribed () 0x40 = true ∧
    (((OnCpu.vunsubscribe 0x40).call 1 1 (sampleProcessors .full)).2 1).cpu.subscribed () 0x40 = false ∧
    (OnCpu.vunsubscribe 0x40).call 0 1 (sampleProcessors .full) ≠
      (OnCpu.vunsubscribe 0x40).call 1 1 (sampleProcessors .full) := by
  have remote : (((OnCpu.vunsubscribe 0x40).call 0 1 (sampleProcessors .full)).2 1).cpu.subscribed ()
    0x40 = true := by rfl
  have here : (((OnCpu.vunsubscribe 0x40).call 1 1 (sampleProcessors .full)).2 1).cpu.subscribed ()
    0x40 = false := by rfl
  refine ⟨rfl, by decide, by rfl, remote, here, fun same => ?_⟩
  rw [same, here] at remote
  cases remote

end Twan.Lib.Libvc
