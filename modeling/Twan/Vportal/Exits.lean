/-
# Twan.Vportal.Exits -- the exits of a vcpu

A vcpu's life in the hypervisor is a sequence of exits.  Between two of them the guest runs and
other vcpus do, so that an exit finds any VMCS, any registers and any pending interrupts; what
the vcpu itself carries from one to the next is its operation queue.  An exit that comes back to
the guest leaves the queue clear (`exit_clears`), and the queue is clear when the vcpu is set up,
so that every exit starts with a clear queue.

* `exit_queues_once_iff`: an exit queues a second event exactly when the handler raises one
  although the exit has interrupted the delivery of another that is queued again;
* `fault_or_advance_iff`: an exit that raises a fault does not advance the guest, and one for an
  instruction that raises none advances it once, unless it is a `VMCALL` that is refused.
-/
import Twan.Vportal.Inject
import Twan.Vportal.Faults

namespace Twan.Vportal

set_option autoImplicit false

open Twan.Base Twan.Base.Prog Twan.Lib Twan.Vemulate

/-- What an exit finds, beside the operation queue. -/
structure Exit where
  site : Site
  vregs : Vregs
  world : World
  ctx : Ctx

namespace Exit

variable (x : Exit) (queue : VoperationQueue)

/-- The exit with this queue, before any of its assertions is evaluated. -/
def start : Ctx := { x.ctx with queue := queue, failed := [] }

def reason : BitVec 32 := (x.ctx.vmcs .roExitReason).setWidth 32

/-- The handler, if the exit has one. -/
def func : Option VexitFunc := vexitFuncOf x.reason

/-- The event whose delivery the exit has interrupted. -/
def interrupted : VectoredEventsInfo :=
  .ofVal ((x.ctx.vmcs .roIdtVectoringInfoField).setWidth 32)

/-- The whole exit. -/
def handle : Option Unit × Ctx :=
  run (answer x.world) (vexitDispatcher x.site x.vregs) (x.start queue)

/-- The words that the exit writes to a field. -/
def writes (field : VmcsField) : List (BitVec 64) :=
  Vportal.writes x.world field (vexitDispatcher x.site x.vregs) (x.start queue)

end Exit

/-- An exit as a step: the queue with which the guest is entered again. -/
def exitStep (queue : VoperationQueue) (x : Exit) : Option VoperationQueue :=
  match x.handle queue with
  | (some _, t) => some t.queue
  | (none, _) => none

/-- Nothing is queued for the entry. -/
structure VoperationQueue.Clear (queue : VoperationQueue) : Prop where
  idtVectoring : queue.idtVectoring = false
  shouldAdvance : queue.shouldAdvance = false

/-! ## The parts of an exit -/

variable {w : World} {site : Site} {vregs : Vregs} {s t : Ctx}

theorem run_vexitBegin (site : Site) (reason : BitVec 32) (live : w.terminate = false) :
    run (answer w) (vexitBegin site reason) s =
      (some (), { s with preemptionCount := s.preemptionCount + 1 }) := by
  cases drain : (site.vipiDrainStrict && basicReason reason != 1) <;>
    simp [vexitBegin, onlyIf, Op.perform, call, answer, live, drain]

theorem run_vexitBegin_stops (site : Site) (reason : BitVec 32) (dies : w.terminate = true) :
    ∃ t, run (answer w) (vexitBegin site reason) s = (none, t) ∧ Quiet s t := by
  cases drain : (site.vipiDrainStrict && basicReason reason != 1) <;>
    exact ⟨s, by simp [vexitBegin, onlyIf, Op.perform, call, answer, dies, drain, enablePreemption, vtransitioningRecover], .rfl⟩

/-- The event that the dispatcher queues after the handler. -/
def requeued (info : VectoredEventsInfo) : Option VectoredEventsInfo :=
  if info.valid && queues info.vectoredEventType then some info else none

theorem yields_requeued (info : VectoredEventsInfo) :
    Yields w (onlyIf info.valid (vqueueIdtVectoringInfo info)) s (requeued info) false := by
  unfold requeued onlyIf
  cases info.valid with
  | false => exact ⟨s, rfl, Quiet.rfl.queues⟩
  | true =>
      cases kind : queues info.vectoredEventType with
      | false => exact yields_pending kind
      | true => exact yields_event kind

/-- The exit after its handler and before the entry. -/
theorem run_vexitHandle {func : VexitFunc} (body : run (answer w) (func.body site vregs) s = (some (), t)) :
    ∃ u, run (answer w) (vexitHandle site vregs func) s = (some (), u) ∧
      Queues (requeued (.ofVal ((s.vmcs .roIdtVectoringInfoField).setWidth 32))) false t u ∧
      ((VectoredEventsInfo.ofVal ((s.vmcs .roIdtVectoringInfoField).setWidth 32)).valid = false →
        u.queue = t.queue) := by
  generalize event : VectoredEventsInfo.ofVal ((s.vmcs .roIdtVectoringInfoField).setWidth 32) = info
  let checked : Ctx := { t with
    failed := if t.preemptionCount == 0 then t.failed else .preemptionEnabled :: t.failed }
  have quiet : Quiet t checked := by
    refine ⟨rfl, rfl, ?_⟩
    cases here : t.preemptionCount == 0 <;> simp [checked, here]
  obtain ⟨u, ran, queued⟩ := yields_requeued (w := w) (s := checked) info
  refine ⟨u, ?_, quiet.before queued, fun absent => ?_⟩
  · simp only [vexitHandle, run_bind, run_vmread32, body, event]
    exact ran
  · simp only [onlyIf, absent] at ran
    cases ran
    rfl

theorem run_vexitHandle_stops {func : VexitFunc}
    (body : run (answer w) (func.body site vregs) s = (none, t)) :
    run (answer w) (vexitHandle site vregs func) s = (none, t) := by
  simp only [vexitHandle, run_bind, run_vmread32, body]

/-! ## One exit -/

section

variable {x : Exit} {queue : VoperationQueue} {func : VexitFunc}

/-- The exit when its handler runs. -/
def Exit.begun (x : Exit) (queue : VoperationQueue) : Ctx :=
  { x.start queue with preemptionCount := x.ctx.preemptionCount + 1 }

theorem Exit.handle_none (known : x.func = none) : x.handle queue = (none, x.start queue) := by
  have reason : run (answer x.world) (vmread32 .roExitReason) (x.start queue) =
    (some x.reason, x.start queue) := rfl
  have none : vexitFuncOf x.reason = none := known
  simp only [Exit.handle, vexitDispatcher, run_bind, reason, none]
  rfl

theorem Exit.handle_some (known : x.func = some func) : x.handle queue = run (answer x.world) (do
    vexitBegin x.site x.reason
    vexitHandle x.site x.vregs func
    venter) (x.start queue) := by
  have reason : run (answer x.world) (vmread32 .roExitReason) (x.start queue) =
    (some x.reason, x.start queue) := rfl
  have here : vexitFuncOf x.reason = some func := known
  simp only [Exit.handle, vexitDispatcher, run_bind _ (fun _ => _), reason, here]

theorem Exit.writes_some (known : x.func = some func) (field : VmcsField) :
    x.writes queue field = Vportal.writes x.world field (do
      vexitBegin x.site x.reason
      vexitHandle x.site x.vregs func
      venter) (x.start queue) := by
  have reason : Silent x.world field (vmread32 .roExitReason) (x.start queue) x.reason
    (x.start queue) := ⟨rfl, rfl⟩
  have here : vexitFuncOf x.reason = some func := known
  rw [Exit.writes, vexitDispatcher, reason.writes, here]

/-- A vcpu that is to terminate does not reach its handler. -/
theorem Exit.handle_dies (queue : VoperationQueue) (known : x.func = some func) (dies : x.world.terminate = true) :
    ∃ t, x.handle queue = (none, t) ∧ Quiet (x.start queue) t := by
  obtain ⟨t, ran, quiet⟩ := run_vexitBegin_stops (s := x.start queue) x.site x.reason dies
  refine ⟨t, ?_, quiet⟩
  rw [Exit.handle_some known, run_bind, ran]

theorem Exit.handle_live (known : x.func = some func) (live : x.world.terminate = false) :
    x.handle queue = run (answer x.world) (do
      vexitHandle x.site x.vregs func
      venter) (x.begun queue) := by
  rw [Exit.handle_some known, run_bind, run_vexitBegin x.site x.reason live]
  rfl

/-- The exit when its handler has come back. -/
structure Exit.Handled (x : Exit) (queue : VoperationQueue) (func : VexitFunc) (t u : Ctx) : Prop where
  body : run (answer x.world) (func.body x.site x.vregs) (x.begun queue) = (some (), t)
  queued : Queues (raises x.site x.vregs x.world x.ctx.vmcs func)
    (advances x.site x.vregs x.world x.ctx.vmcs func) (x.start queue) t
  handle : run (answer x.world) (vexitHandle x.site x.vregs func) (x.begun queue) = (some (), u)
  requeued : Queues (requeued x.interrupted) false t u
  same : x.interrupted.valid = false → u.queue = t.queue

/-- The exit when its handler does not come back. -/
structure Exit.Stopped (x : Exit) (queue : VoperationQueue) (func : VexitFunc) (t : Ctx) : Prop where
  body : run (answer x.world) (func.body x.site x.vregs) (x.begun queue) = (none, t)
  raises : raises x.site x.vregs x.world x.ctx.vmcs func = none
  advances : advances x.site x.vregs x.world x.ctx.vmcs func = false
  quiet : Quiet (x.start queue) t
  handle : run (answer x.world) (vexitHandle x.site x.vregs func) (x.begun queue) = (none, t)

theorem Exit.handler_runs (x : Exit) (queue : VoperationQueue) (func : VexitFunc) :
    (∃ t u, x.Handled queue func t u) ∨ ∃ t, x.Stopped queue func t := by
  have start : Quiet (x.start queue) (x.begun queue) := ⟨rfl, rfl, Iff.rfl⟩
  rcases body_yields (w := x.world) x.site x.vregs func (x.begun queue) with
    ⟨t, body, queued⟩ | ⟨raises, advances, t, body, quiet⟩
  · obtain ⟨u, handle, requeued, same⟩ := run_vexitHandle body
    exact .inl ⟨t, u, body, start.before queued, handle, requeued, same⟩
  · have quietOn : Quiet (x.start queue) t := ⟨quiet.vectoring, quiet.advance, quiet.failed⟩
    exact .inr ⟨t, body, raises, advances, quietOn, run_vexitHandle_stops body⟩

theorem Exit.Stopped.exit {t : Ctx} (stopped : x.Stopped queue func t) (known : x.func = some func)
    (live : x.world.terminate = false) : x.handle queue = (none, t) := by
  rw [Exit.handle_live known live, run_bind, stopped.handle]

theorem Exit.Handled.exit {t u : Ctx} (handled : x.Handled queue func t u)
    (known : x.func = some func) (live : x.world.terminate = false) :
    x.handle queue = run (answer x.world) venter u := by
  rw [Exit.handle_live known live, run_bind, handled.handle]

/-- What the entry leaves of the queue's assertion. -/
theorem venter_failed (s : Ctx) : (run (answer w) venter s).2.failed = s.failed := by
  cases goes : enters w s with
  | true =>
      obtain ⟨t, ran, entered⟩ := venter_enters goes
      rw [ran, entered.failed]
  | false =>
      obtain ⟨t, ran, _, failed, _⟩ := venter_stops goes
      rw [ran, failed]

/-- An exit that comes back has gone through its handler and the entry. -/
theorem Exit.handle_returns {t : Ctx} (ran : x.handle queue = (some (), t)) :
    ∃ func b u, x.func = some func ∧ x.world.terminate = false ∧ x.Handled queue func b u ∧
      run (answer x.world) venter u = (some (), t) := by
  cases known : x.func with
  | none =>
      rw [Exit.handle_none known] at ran
      cases ran
  | some func =>
      cases live : x.world.terminate with
      | true =>
          obtain ⟨t, stopped, _⟩ := Exit.handle_dies queue known live
          rw [stopped] at ran
          cases ran
      | false =>
          rcases x.handler_runs queue func with ⟨b, u, handled⟩ | ⟨b, stopped⟩
          · rw [handled.exit known live] at ran
            exact ⟨func, b, u, rfl, rfl, handled, ran⟩
          · rw [stopped.exit known live] at ran
            cases ran

/-- An entry that comes back has entered the guest. -/
theorem venter_returns {u t : Ctx} (ran : run (answer w) venter u = (some (), t)) :
    Entered w u t := by
  cases goes : enters w u with
  | true =>
      obtain ⟨t', entered, left⟩ := venter_enters goes
      rw [ran] at entered
      cases entered
      exact left
  | false =>
      obtain ⟨t', stopped, _⟩ := venter_stops goes
      rw [ran] at stopped
      cases stopped

/-- An exit that comes back leaves its queue cleared by the last entry. -/
theorem exit_queue {after : VoperationQueue} (moved : exitStep queue x = some after) :
    ∃ filled : VoperationQueue, after = filled.clearPending := by
  unfold exitStep at moved
  cases ran : x.handle queue with
  | mk result t =>
      cases result with
      | none => simp [ran] at moved
      | some _ =>
          obtain ⟨func, b, u, _, _, _, entry⟩ := Exit.handle_returns ran
          simp only [ran, Option.some.injEq] at moved
          exact ⟨u.queue, by rw [← moved, (venter_returns entry).queue]⟩

/-- An exit that comes back leaves the queue clear. -/
theorem exit_clears {after : VoperationQueue} (moved : exitStep queue x = some after) :
    VoperationQueue.Clear after := by
  obtain ⟨filled, rfl⟩ := exit_queue moved
  exact ⟨rfl, rfl⟩

/-- Every exit starts with a clear queue. -/
theorem exits_clear {boot after : VoperationQueue} {run : List Exit} (clear : VoperationQueue.Clear boot)
    (ran : exec exitStep boot run = some after) : VoperationQueue.Clear after :=
  exec_invariant (fun _ _ _ _ moved => exit_clears moved) clear ran

/-! ## Sample exits -/

/-- A queue as `vcpu_setup` leaves it. -/
def emptyQueue : VoperationQueue where
  vmwriteCr4 := false
  vmwriteCr0 := false
  shouldAdvance := false
  idtVectoring := false
  useSynthErrcode := false
  cr0 := 0
  cr4 := 0
  idtVectoringInfo := .ofVal 0
  synthErrcode := 0

def sampleSite : Site where
  vschedStrict := false
  vschedMcfs := false
  vipiDrainStrict := false
  numVtimers := 1
  vid := 1
  processorId := 0
  vprocessorId := 0
  features := ⟨false, false, false, false, false, false, false, false, false, false, false, false⟩
  itsNo := false
  ia32ArchCapabilitiesR := true
  ia32FeatureControlRw := true
  via32FeatureCtrlLow := 1
  via32FeatureCtrlHigh := 0
  cpuid := fun _ _ => ⟨0, 0, 0, 0⟩
  vinfo := fun _ => ⟨0, 0, 0, 0⟩

/-- An exit of a vcpu that is not root, with this VMCS and these registers. -/
def sampleExit (vmcs : VmcsField → BitVec 64) (gpr : Fin 16 → BitVec 64) : Exit where
  site := sampleSite
  vregs := ⟨gpr⟩
  world :=
    { root := false
      terminate := false
      loads := true
      entry := ⟨false, false, false⟩
      rdmsr := fun _ => 0
      rdmsrShielded := fun _ => none
      wrmsrShielded := fun _ _ => true
      call := fun _ => 0 }
  ctx :=
    { vmcs := vmcs
      gpr := gpr
      cr8 := 0
      queue := emptyQueue
      visr := ⟨0, false, 0, false, false, .empty⟩
      timers := ⟨fun _ => ⟨0, false, false, false, 0⟩, []⟩
      preemptionCount := 0
      preempted := false
      failed := [] }

/-- The fields of a 64-bit guest at the privilege level of `rights`, after this exit. -/
def sampleVmcs (reason rights interrupted : BitVec 64) : VmcsField → BitVec 64
  | .roExitReason => reason
  | .roIdtVectoringInfoField => interrupted
  | .roVmexitInstructionLength => 3
  | .guestCr0 => 1
  | .guestIa32Efer => 0x400
  | .guestCsAccessRights => rights
  | .guestRip => 0x1000
  | .guestRflags => 0x202
  | _ => 0

/-- A task switch through the IDT, while #DE is being delivered. -/
def taskSwitchExit : Exit := sampleExit (sampleVmcs 9 0xa09b 0x80000300) fun _ => 0

def cpuidExit : Exit := sampleExit (sampleVmcs 10 0xa09b 0) fun _ => 0

/-- `VMCALL` at privilege level 3, and at 0. -/
def userVmcallExit : Exit := sampleExit (sampleVmcs 18 0xa0fb 0) fun _ => 0
def kernelVmcallExit : Exit := sampleExit (sampleVmcs 18 0xa09b 0) fun _ => 0x40

/-! ## Two events -/

/-- The exit raises an event although it has interrupted the delivery of another one, which is
queued again. -/
def Exit.EventTwice (x : Exit) : Prop :=
  x.world.terminate = false ∧ (requeued x.interrupted).isSome = true ∧
    ∃ func, x.func = some func ∧
      (raises x.site x.vregs x.world x.ctx.vmcs func).isSome = true

theorem exit_failed (clear : VoperationQueue.Clear queue) :
    .eventQueued ∈ (x.handle queue).2.failed ↔ x.EventTwice := by
  have fresh : Assertion.eventQueued ∉ (x.start queue).failed := List.not_mem_nil
  have empty : (x.start queue).queue.idtVectoring = false := clear.idtVectoring
  unfold Exit.EventTwice
  cases known : x.func with
  | none =>
      rw [Exit.handle_none known]
      simp [fresh]
  | some func =>
      cases live : x.world.terminate with
      | true =>
          obtain ⟨t, stopped, quiet⟩ := Exit.handle_dies queue known live
          rw [stopped]
          simp [quiet.failed, fresh]
      | false =>
          rcases x.handler_runs queue func with ⟨t, u, handled⟩ | ⟨t, stopped⟩
          · rw [handled.exit known live, venter_failed, handled.requeued.failed,
              handled.queued.failed, handled.queued.vectoring]
            simp [fresh, empty, and_comm]
          · rw [stopped.exit known live]
            simp [stopped.quiet.failed, fresh, stopped.raises]

/-- **An exit queues one event** -- after any exits of the vcpu, the assertion that none is queued
already holds unless the handler raises an event and the exit has interrupted another. -/
theorem exit_queues_once_iff (boot : VoperationQueue) (clear : VoperationQueue.Clear boot)
    (run : List Exit) (queue : VoperationQueue) (ran : exec exitStep boot run = some queue)
    (x : Exit) : .eventQueued ∉ (x.handle queue).2.failed ↔ ¬x.EventTwice :=
  not_congr (exit_failed (exits_clear clear ran))

/-- After an exit for CPUID, another one. -/
theorem exit_queues_once_cpuid : VoperationQueue.Clear emptyQueue ∧
    exec exitStep emptyQueue [cpuidExit] = some emptyQueue ∧
    .eventQueued ∉ (cpuidExit.handle emptyQueue).2.failed := by
  have clear : VoperationQueue.Clear emptyQueue := ⟨rfl, rfl⟩
  have ran : exec exitStep emptyQueue [cpuidExit] = some emptyQueue := rfl
  refine ⟨clear, ran, (exit_queues_once_iff emptyQueue clear [cpuidExit] _ ran cpuidExit).mpr ?_⟩
  intro twice
  exact absurd twice.2.1 (by decide)

/-- The handler of a task switch raises #GP, and #DE is queued over it. -/
theorem task_switch_queues_twice : VoperationQueue.Clear emptyQueue ∧
    exec exitStep emptyQueue [] = some emptyQueue ∧
    .eventQueued ∈ (taskSwitchExit.handle emptyQueue).2.failed :=
  ⟨⟨rfl, rfl⟩, rfl, by decide⟩

/-! ## Fault or advance -/

/-- The vcpu as the handler leaves it. -/
def Exit.afterHandler (x : Exit) (queue : VoperationQueue) (func : VexitFunc) : Ctx :=
  (run (answer x.world) (do
    vexitBegin x.site x.reason
    func.body x.site x.vregs) (x.start queue)).2

/-- #GP or #UD. -/
def isFault (info : VectoredEventsInfo) : Bool :=
  info.vectoredEventType = .hardwareException &&
    (info.vector = generalProtectionFault || info.vector = invalidOpcode)

/-- A fault is queued. -/
def Ctx.faultQueued (s : Ctx) : Bool := s.queue.idtVectoring && isFault s.queue.idtVectoringInfo

/-- The functions that handle the exit of an instruction. -/
def VexitFunc.instruction : VexitFunc → Bool
  | .vexitGp0 | .vexitCpuid | .vexitUd | .vexitNopAdvance | .vexitVmcall | .vexitCrAccess
  | .vexitRdmsr | .vexitWrmsr => true
  | _ => false

/-- Fault or advance, never both: a fault that the handler queues leaves the instruction pointer
where it is and, unless the exit has interrupted another event, is what the entry injects; an
instruction without a fault is passed exactly once. -/
structure Exit.FaultOrAdvance (x : Exit) (queue : VoperationQueue) (func : VexitFunc) : Prop where
  fault : (x.afterHandler queue func).faultQueued = true →
    (x.afterHandler queue func).queue.shouldAdvance = false ∧ x.writes queue .guestRip = [] ∧
    ((x.handle queue).1.isSome = true → x.interrupted.valid = false → ∃ errcode,
      x.writes queue .ctrlVmentryInterruptInfo = [vmentryInterruptInfo
        (x.afterHandler queue func).queue.idtVectoringInfo.vector .hardwareException errcode])
  advance : func.instruction = true → (x.afterHandler queue func).faultQueued = false →
    (x.handle queue).1.isSome = true → (x.writes queue .guestRip).length = 1

/-- A `VMCALL` that is refused because the guest is not at privilege level 0. -/
def Exit.RefusedVmcall (x : Exit) : Prop :=
  x.func = some .vexitVmcall ∧ x.world.terminate = false ∧ guestCpl0 x.ctx.vmcs = none

theorem offField_of_offEntry {field : VmcsField}
    (entry : field = .guestRip ∨ field = .ctrlVmentryInterruptInfo) (e : Op) (off : offEntry e) :
    offField field e := by
  cases e <;> try trivial
  case vmwrite f val =>
      rintro rfl
      rcases entry with rfl | rfl <;> exact off

/-- Before the entry the two fields are not written. -/
theorem Exit.writes_front (x : Exit) (queue : VoperationQueue) {field : VmcsField}
    (entry : field = .guestRip ∨ field = .ctrlVmentryInterruptInfo) (func : VexitFunc) :
    Vportal.writes x.world field (vexitBegin x.site x.reason) (x.start queue) = [] ∧
      Vportal.writes x.world field (vexitHandle x.site x.vregs func) (x.begun queue) = [] :=
  ⟨writes_nil (offField_of_offEntry entry)
      (vexitBegin_obeys x.site x.reason (p := { Phase.handler with count := 0 }) rfl rfl) _,
    writes_nil (offField_of_offEntry entry)
      (vexitHandle_obeys x.site x.vregs func .handler rfl rfl) _⟩

theorem Exit.afterHandler_live (live : x.world.terminate = false) :
    x.afterHandler queue func =
      (run (answer x.world) (func.body x.site x.vregs) (x.begun queue)).2 := by
  have begun : run (answer x.world) (vexitBegin x.site x.reason) (x.start queue) =
    (some (), x.begun queue) := run_vexitBegin x.site x.reason live
  rw [Exit.afterHandler, run_bind, begun]

theorem Exit.afterHandler_dies (dies : x.world.terminate = true) :
    Quiet (x.start queue) (x.afterHandler queue func) := by
  obtain ⟨t, ran, quiet⟩ := run_vexitBegin_stops (s := x.start queue) x.site x.reason dies
  rw [Exit.afterHandler, run_bind, ran]
  exact quiet

theorem Quiet.faultQueued (quiet : Quiet s t) (clear : s.queue.idtVectoring = false) :
    t.faultQueued = false := by
  rw [Ctx.faultQueued, quiet.vectoring, clear, Bool.false_and]

/-- Where the handler does not come back, or is not reached, there is nothing to show. -/
theorem Exit.FaultOrAdvance.of_stop (none : (x.afterHandler queue func).faultQueued = false)
    (stops : (x.handle queue).1 = Option.none) : x.FaultOrAdvance queue func where
  fault queued := by
    rw [none] at queued
    cases queued
  advance _ _ returns := by
    rw [stops] at returns
    cases returns

/-- A handler that raises an event queues no advance, `VMCALL` apart. -/
theorem advances_of_raises {vmcs : VmcsField → BitVec 64} (other : func ≠ .vexitVmcall)
    (raised : (raises site vregs w vmcs func).isSome = true) :
    advances site vregs w vmcs func = false := by
  have checked : ∀ ok, (gp0Unless ok).isSome = true → ok = false := by
    intro ok raised
    cases ok with
    | false => rfl
    | true => cases raised
  cases func <;> first | rfl | exact absurd rfl other | exact checked _ raised

/-- `VMCALL` raises an event where it is refused. -/
theorem guestCpl0_of_raises {vmcs : VmcsField → BitVec 64}
    (raised : (raises site vregs w vmcs .vexitVmcall).isSome = true) : guestCpl0 vmcs = none := by
  cases mode : guestCpl0 vmcs with
  | none => rfl
  | some mode =>
      rw [raises, mode] at raised
      cases raised

/-- The handler of an instruction raises a fault or queues an advance. -/
theorem advances_of_instruction {vmcs : VmcsField → BitVec 64} (inst : func.instruction = true)
    (none : ∀ i, raises site vregs w vmcs func = some i → isFault i = false) :
    advances site vregs w vmcs func = true := by
  have checked : ∀ ok, (∀ i, gp0Unless ok = some i → isFault i = false) → ok = true := by
    intro ok none
    cases ok with
    | true => rfl
    | false => cases none gp0 rfl
  cases func <;> first
    | rfl
    | exact checked _ none
    | exact absurd (none _ rfl) (by decide)
    | cases inst

theorem Queues.faultQueued {event : Option VectoredEventsInfo} {advance : Bool}
    (queued : Queues event advance s t) (clear : s.queue.idtVectoring = false) :
    t.faultQueued = true ↔ ∃ i, event = some i ∧ isFault i = true := by
  cases event with
  | none => simp [Ctx.faultQueued, queued.vectoring, clear]
  | some i => simp [Ctx.faultQueued, queued.vectoring, clear, queued.info i rfl]

/-- An exit whose handler has come back, and what it writes. -/
theorem Exit.Handled.writes {t u : Ctx} (handled : x.Handled queue func t u)
    (known : x.func = some func) (live : x.world.terminate = false) {field : VmcsField}
    (entry : field = .guestRip ∨ field = .ctrlVmentryInterruptInfo) :
    x.writes queue field = Vportal.writes x.world field venter u := by
  have begun : run (answer x.world) (vexitBegin x.site x.reason) (x.start queue) =
    (some (), x.begun queue) := run_vexitBegin x.site x.reason live
  obtain ⟨begins, handles⟩ := x.writes_front queue entry func
  rw [Exit.writes_some known, Silent.writes ⟨begun, begins⟩, Silent.writes ⟨handled.handle, handles⟩]

/-- An exit that comes back has entered the guest. -/
theorem Exit.Handled.entered {t u : Ctx} (handled : x.Handled queue func t u)
    (known : x.func = some func) (live : x.world.terminate = false)
    (returns : (x.handle queue).1.isSome = true) : ∃ v, Entered x.world u v := by
  rw [handled.exit known live] at returns
  cases goes : enters x.world u with
  | true =>
      obtain ⟨v, _, entered⟩ := venter_enters goes
      exact ⟨v, entered⟩
  | false =>
      obtain ⟨v, stopped, _⟩ := venter_stops goes
      rw [stopped] at returns
      cases returns

theorem Exit.Handled.faultOrAdvance {t u : Ctx} (handled : x.Handled queue func t u)
    (known : x.func = some func) (live : x.world.terminate = false)
    (clear : VoperationQueue.Clear queue)
    (either : (raises x.site x.vregs x.world x.ctx.vmcs func).isSome = true →
      advances x.site x.vregs x.world x.ctx.vmcs func = false) :
    x.FaultOrAdvance queue func := by
  have after : x.afterHandler queue func = t := by
    rw [Exit.afterHandler_live live, handled.body]
  have empty : (x.start queue).queue.idtVectoring = false := clear.idtVectoring
  have advanceT : t.queue.shouldAdvance = advances x.site x.vregs x.world x.ctx.vmcs func := by
    have start : (x.start queue).queue.shouldAdvance = false := clear.shouldAdvance
    rw [handled.queued.advance, start, Bool.false_or]
  have advanceU : u.queue.shouldAdvance = advances x.site x.vregs x.world x.ctx.vmcs func := by
    rw [handled.requeued.advance, Bool.or_false, advanceT]
  have rip := handled.writes known live (.inl rfl)
  constructor
  · intro queued
    rw [after] at queued ⊢
    obtain ⟨info, raised, fault⟩ := (handled.queued.faultQueued empty).mp queued
    have stays := either (by rw [raised]; rfl)
    refine ⟨by rw [advanceT, stays], ?_, fun returns alone => ?_⟩
    · rw [rip]
      cases goes : enters x.world u with
      | true =>
          obtain ⟨v, _, entered⟩ := venter_enters goes
          have none := entered.advanced
          rw [advanceU, stays] at none
          exact List.length_eq_zero_iff.mp none
      | false =>
          obtain ⟨v, _, _, _, silent⟩ := venter_stops goes
          exact silent .guestRip
    · obtain ⟨v, entered⟩ := handled.entered known live returns
      have vectoring : u.queue.idtVectoring = true := by
        rw [handled.same alone]
        exact (Bool.and_eq_true_iff.mp queued).1
      have hardware : t.queue.idtVectoringInfo.vectoredEventType = .hardwareException := by
        have both := (Bool.and_eq_true_iff.mp queued).2
        exact of_decide_eq_true (Bool.and_eq_true_iff.mp both).1
      rw [handled.writes known live (.inr rfl), entered.injected vectoring, exceptionWord,
        handled.same alone, hardware]
      exact ⟨_, rfl⟩
  · intro inst none returns
    rw [after] at none
    obtain ⟨v, entered⟩ := handled.entered known live returns
    have passes : advances x.site x.vregs x.world x.ctx.vmcs func = true := by
      refine advances_of_instruction inst fun info raised => ?_
      cases fault : isFault info with
      | false => rfl
      | true =>
          rw [(handled.queued.faultQueued empty).mpr ⟨info, raised, fault⟩] at none
          cases none
    rw [rip, entered.advanced, advanceU, passes]
    rfl

/-- A `VMCALL` that is refused queues both. -/
theorem Exit.Handled.refused {t u : Ctx} (handled : x.Handled queue .vexitVmcall t u)
    (live : x.world.terminate = false) (refuses : guestCpl0 x.ctx.vmcs = none)
    (clear : VoperationQueue.Clear queue) : ¬x.FaultOrAdvance queue .vexitVmcall := by
  have after : x.afterHandler queue .vexitVmcall = t := by
    rw [Exit.afterHandler_live live, handled.body]
  have raised : raises x.site x.vregs x.world x.ctx.vmcs .vexitVmcall = some gp0 := by
    rw [raises, refuses]
    rfl
  intro holds
  have queued : t.faultQueued = true :=
    (handled.queued.faultQueued clear.idtVectoring).mpr ⟨gp0, raised, rfl⟩
  have stays := (holds.fault (after ▸ queued)).1
  rw [after, handled.queued.advance] at stays
  simp [advances] at stays

/-- **Fault or advance, never both** -- after any exits of the vcpu, for every exit with a handler,
unless it is a `VMCALL` from a guest that is not at privilege level 0. -/
theorem fault_or_advance_iff (boot : VoperationQueue) (clear : VoperationQueue.Clear boot)
    (run : List Exit) (queue : VoperationQueue) (ran : exec exitStep boot run = some queue)
    (x : Exit) (func : VexitFunc) (known : x.func = some func) :
    x.FaultOrAdvance queue func ↔ ¬x.RefusedVmcall := by
  have empty := exits_clear clear ran
  have start : (x.start queue).queue.idtVectoring = false := empty.idtVectoring
  cases live : x.world.terminate with
  | true =>
      obtain ⟨t, stopped, _⟩ := Exit.handle_dies queue known live
      have holds : x.FaultOrAdvance queue func :=
        .of_stop (Quiet.faultQueued (Exit.afterHandler_dies live) start) (by rw [stopped])
      refine iff_of_true holds fun refused => ?_
      rw [refused.2.1] at live
      cases live
  | false =>
      rcases x.handler_runs queue func with ⟨t, u, handled⟩ | ⟨t, stopped⟩
      · by_cases refused : x.RefusedVmcall
        · have vmcall : func = .vexitVmcall := Option.some.inj (known.symm.trans refused.1)
          subst vmcall
          exact iff_of_false (handled.refused live refused.2.2 empty) (not_not_intro refused)
        · refine iff_of_true (handled.faultOrAdvance known live empty fun raised => ?_) refused
          by_cases vmcall : func = .vexitVmcall
          · subst vmcall
            exact absurd ⟨known, live, guestCpl0_of_raises raised⟩ refused
          · exact advances_of_raises vmcall raised
      · have after : x.afterHandler queue func = t := by
          rw [Exit.afterHandler_live live, stopped.body]
        have holds : x.FaultOrAdvance queue func :=
          .of_stop (by rw [after]; exact stopped.quiet.faultQueued start)
            (by rw [stopped.exit known live])
        refine iff_of_true holds fun refused => ?_
        have vmcall : func = .vexitVmcall := Option.some.inj (known.symm.trans refused.1)
        have none := stopped.raises
        rw [vmcall, raises, refused.2.2] at none
        cases none

/-- A `VMCALL` at privilege level 0. -/
theorem fault_or_advance_kernel : VoperationQueue.Clear emptyQueue ∧
    exec exitStep emptyQueue [cpuidExit] = some emptyQueue ∧
    kernelVmcallExit.func = some .vexitVmcall ∧
    kernelVmcallExit.FaultOrAdvance emptyQueue .vexitVmcall := by
  have clear : VoperationQueue.Clear emptyQueue := ⟨rfl, rfl⟩
  have ran : exec exitStep emptyQueue [cpuidExit] = some emptyQueue := rfl
  refine ⟨clear, ran, rfl, (fault_or_advance_iff emptyQueue clear [cpuidExit] _ ran
    kernelVmcallExit .vexitVmcall rfl).mpr fun refused => ?_⟩
  exact absurd refused.2.2 (by decide)

/-- A `VMCALL` at privilege level 3 queues #GP and passes the instruction. -/
theorem user_vmcall_faults_and_advances : VoperationQueue.Clear emptyQueue ∧
    exec exitStep emptyQueue [] = some emptyQueue ∧ userVmcallExit.func = some .vexitVmcall ∧
    (userVmcallExit.afterHandler emptyQueue .vexitVmcall).faultQueued = true ∧
    (userVmcallExit.afterHandler emptyQueue .vexitVmcall).queue.shouldAdvance = true ∧
    userVmcallExit.writes emptyQueue .guestRip = [0x1003] ∧
    ¬userVmcallExit.FaultOrAdvance emptyQueue .vexitVmcall := by
  refine ⟨⟨rfl, rfl⟩, rfl, rfl, by decide, by decide, by decide, fun holds => ?_⟩
  exact absurd (holds.fault (by decide)).1 (by decide)

end

end Twan.Vportal
