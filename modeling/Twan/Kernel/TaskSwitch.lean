/-
# Twan.Kernel.TaskSwitch -- tasks that take turns on the processors

How the scheduler changes the task that a processor runs: `sched_preempt` of
`src/kernel/sched/sched.c`, `sched_yield_ipi` and `sched_yield_wait_ipi` of
`src/kernel/sched/sched_yield.c`, the `sleep_ticks` of the timers, `current_task_destroy_ipi` of
`src/kernel/sched/task.c` and `sched_trampoline_ipi`, over `src/kernel/sched/sched_ctx.c` and
`src/kernel/sched/sched_queue.c`.  Each of them takes the next task from the run queue, saves the
registers of the current one, gives it to the queue, to what it waits for or to nobody, and puts the
registers of the next one in the context that the interrupt returns to.  All processors do so at
their own pace, over one run queue or over one each, and what wakes tasks pushes them in between.
What holds in every run is in `Twan.Kernel.TaskSwitchRuns`.
-/
import Twan.Base.Places
import Twan.Base.Refine
import Twan.Kernel.SchedYield

namespace Twan.Kernel.TaskSwitch

set_option autoImplicit false
set_option linter.unusedSectionVars false

open Twan.Base Twan.Kernel.SchedQueue

/-! ## The tasks by themselves -/

/-- What happens to tasks that have nothing to do with each other. -/
inductive Event (T X : Type) where
  | create (t : T) (context : X)
  | compute (t : T) (context : X)
  | destroy (t : T)

/-- The tasks that exist, with their registers. -/
def machinesStep {T X : Type} [DecidableEq T] (own : T → Option X) : Event T X → Option (T → Option X)
  | .create t context => if own t = none then some (Function.update own t (some context)) else none
  | .compute t context => if own t = none then none else some (Function.update own t (some context))
  | .destroy t => if own t = none then none else some (Function.update own t none)

/-! ## The code -/

abbrev Word : Type := BitVec 64

/-- `struct context`. -/
structure Context (Fp : Type) where
  cr8 : Word
  r15 : Word
  r14 : Word
  r13 : Word
  r12 : Word
  r11 : Word
  r10 : Word
  r9 : Word
  r8 : Word
  rsi : Word
  rdi : Word
  rdx : Word
  rcx : Word
  rbx : Word
  rax : Word
  rbp : Word
  rsp : Word
  rflags : Word
  rip : Word
  fpContext : Fp

/-- `struct regs`. -/
structure Regs (Fp : Type) where
  cr8 : Word
  r15 : Word
  r14 : Word
  r13 : Word
  r12 : Word
  r11 : Word
  r10 : Word
  r9 : Word
  r8 : Word
  rsi : Word
  rdi : Word
  rdx : Word
  rcx : Word
  rbx : Word
  rax : Word
  rbp : Word
  fxsaveRegion : Fp

/-- `struct interrupt_info`, where a processor's registers are while it is in an interrupt. -/
structure InterruptInfo (Fp : Type) where
  regs : Regs Fp
  errcode : Word
  rip : Word
  cs : Word
  rflags : Word
  rsp : Word
  ss : Word

/-- `sched_save_current_ctx`. -/
def schedSaveCurrentCtx {Fp : Type} (ctx : InterruptInfo Fp) : Context Fp where
  cr8 := ctx.regs.cr8
  r15 := ctx.regs.r15
  r14 := ctx.regs.r14
  r13 := ctx.regs.r13
  r12 := ctx.regs.r12
  r11 := ctx.regs.r11
  r10 := ctx.regs.r10
  r9 := ctx.regs.r9
  r8 := ctx.regs.r8
  rsi := ctx.regs.rsi
  rdi := ctx.regs.rdi
  rdx := ctx.regs.rdx
  rcx := ctx.regs.rcx
  rbx := ctx.regs.rbx
  rax := ctx.regs.rax
  rbp := ctx.regs.rbp
  rsp := ctx.rsp
  rflags := ctx.rflags
  rip := ctx.rip
  fpContext := ctx.regs.fxsaveRegion

/-- The assignments of `sched_set_ctx`. -/
def schedSetCtx {Fp : Type} (ctx : InterruptInfo Fp) (context : Context Fp) : InterruptInfo Fp :=
  { ctx with
    regs := {
      cr8 := context.cr8
      r15 := context.r15
      r14 := context.r14
      r13 := context.r13
      r12 := context.r12
      r11 := context.r11
      r10 := context.r10
      r9 := context.r9
      r8 := context.r8
      rsi := context.rsi
      rdi := context.rdi
      rdx := context.rdx
      rcx := context.rcx
      rbx := context.rbx
      rax := context.rax
      rbp := context.rbp
      fxsaveRegion := context.fpContext }
    rsp := context.rsp
    rflags := context.rflags
    rip := context.rip }

@[simp] theorem save_setCtx {Fp : Type} (ctx : InterruptInfo Fp) (context : Context Fp) :
    schedSaveCurrentCtx (schedSetCtx ctx context) = context := rfl

/-- `struct task`. -/
structure Task (Fp : Type) where
  context : Context Fp
  preemptionCount : ℕ
  yieldRequest : Bool
  preemptedEarly : Bool
  priority : Priority
  criticality : ℕ
  queueId : ℕ

def Task.metadata {Fp : Type} (task : Task Fp) : TaskMetadata := ⟨task.priority, task.criticality⟩

/-- `task_init`; `fp` is the state with `DEFAULT_FCW` and `DEFAULT_MXCSR`. -/
def taskInit {Fp : Type} (fp : Fp) (queueId : ℕ) (stackTop func arg : Word) (priority : Priority)
    (criticality : ℕ) : Task Fp where
  context := {
    cr8 := 0, r15 := 0, r14 := 0, r13 := 0, r12 := 0, r11 := 0, r10 := 0, r9 := 0, r8 := 0
    rsi := 0, rdi := arg, rdx := 0, rcx := 0, rbx := 0, rax := 0, rbp := stackTop
    rsp := stackTop, rflags := 0x202, rip := func, fpContext := fp }
  preemptionCount := 0
  yieldRequest := false
  preemptedEarly := false
  priority := priority
  criticality := criticality
  queueId := queueId

/-- Why a processor changes its task. -/
inductive Entry where
  /-- `sched_preempt` -/
  | preempt
  /-- `sched_yield_ipi` -/
  | yield
  /-- `sched_yield_wait_ipi`, and the `sleep_ticks` of a timer -/
  | wait
  /-- `current_task_destroy_ipi` -/
  | destroy
  /-- `sched_trampoline_ipi` -/
  | trampoline
  deriving DecidableEq

/-- Where a processor is, with the tasks in its hands beside the current one. -/
inductive Phase (T : Type) where
  /-- Before `sched_trampoline_ipi`. -/
  | off
  /-- The current task goes on. -/
  | running
  /-- In front of `sched_pop` or `sched_pop_clean_spin`. -/
  | popping (entry : Entry)
  /-- In front of `sched_put_current_ctx`. -/
  | putting (entry : Entry) (next : T)
  /-- In front of the `sched_push` there. -/
  | pushing (entry : Entry) (old next : T)
  /-- In front of `sched_set_ctx`. -/
  | setting (entry : Entry) (old : Option T) (next : T)
  /-- In front of the insertion into what the old task waits for. -/
  | parking (old : T)
  /-- In front of `sched_is_timer_pending`. -/
  | marking
  deriving DecidableEq

/-- Where `sched_set_ctx` returns to. -/
def Phase.afterSet {T : Type} (entry : Entry) (old : Option T) : Phase T :=
  match entry, old with
  | .wait, some old => .parking old
  | .preempt, _ | .trampoline, _ => .running
  | _, _ => .marking

/-- A processor; `ctx` is what its current task runs with, and `stale` says of the tick that is
pending that it came before the current task was let go on. -/
structure Cpu (T Fp : Type) where
  ctx : InterruptInfo Fp
  current : Option T
  phase : Phase T
  pending : Bool
  stale : Bool

/-- The processors, the run queues, and the tasks that wait or sleep or were woken up and are still
to be pushed. -/
structure Sys (n : ℕ) (T Fp : Type) where
  tasks : T → Task Fp
  allocated : T → Bool
  cpus : Fin n → Cpu T Fp
  queues : ℕ → SchedPriorityq T
  parked : List T
  waking : List T

/-- How the kernel is built, the workers of the processors and the initial floating-point state. -/
structure Build (n : ℕ) (T Fp : Type) where
  /-- `CONFIG_KERNEL_SCHED_GLOBAL_QUEUE` -/
  global : Bool
  /-- `CONFIG_KERNEL_SCHED_AGING` -/
  aging : Bool
  worker : Fin n → T
  apart : Function.Injective worker
  fp : Fp
  stackTop : Fin n → Word
  schedWorker : Word

/-- What happens next. -/
inductive Action (n : ℕ) (T Fp : Type) where
  /-- The current task goes on by itself. -/
  | compute (c : Fin n) (context : Context Fp)
  /-- `current_task_write` -/
  | write (c : Fin n) (priority : Priority) (criticality : ℕ)
  | disablePreemption (c : Fin n)
  | enablePreemption (c : Fin n)
  /-- `sched_mcs_write_criticality_level` -/
  | writeLevel (c : Fin n) (criticality : ℕ)
  /-- The timer of the processor expires. -/
  | expire (c : Fin n)
  /-- `sched_timer_isr` -/
  | tick (c : Fin n)
  | yield (c : Fin n)
  /-- `sched_yield_wait_and_unlock` and `sleep_ticks` -/
  | wait (c : Fin n)
  /-- `current_task_destroy` -/
  | destroy (c : Fin n)
  /-- The next statement of a change. -/
  | switch (c : Fin n)
  /-- What the task waits for lets it go. -/
  | wake (t : T)
  /-- The `sched_push` of who has let it go. -/
  | push (t : T)
  /-- `__task_create` -/
  | create (t : T) (processor : Fin n) (stackTop func arg : Word) (priority : Priority)
      (criticality : ℕ)
  | trampoline (c : Fin n)

/-- `cpu_to_queue_id`. -/
def cpuToQueueId (global : Bool) (processor : ℕ) : ℕ := if global then 0 else processor

/-- `queue_to_cpu_id`. -/
def queueToCpuId (global : Bool) (queue : ℕ) : ℕ := if global then 0 else queue

section Model

variable {n : ℕ} {T Fp : Type} [DecidableEq T]

/-- `sched_pop_clean`. -/
def schedPopClean (aging : Bool) (q : SchedPriorityq T) (data : T → TaskMetadata) :
    Option T × SchedPriorityq T :=
  if aging then q.popAge data
  else
    match q.getBin with
    | none => (none, q)
    | some _ => q.pop data

namespace Sys

variable (build : Build n T Fp) (s : Sys n T Fp)

def data (t : T) : TaskMetadata := (s.tasks t).metadata

def setTask (t : T) (task : Task Fp) : Sys n T Fp :=
  { s with tasks := Function.update s.tasks t task }

def setCpu (c : Fin n) (cpu : Cpu T Fp) : Sys n T Fp :=
  { s with cpus := Function.update s.cpus c cpu }

def setQueue (q : ℕ) (queue : SchedPriorityq T) : Sys n T Fp :=
  { s with queues := Function.update s.queues q queue }

/-- `this_queue_id()`. -/
def queueOf (c : Fin n) : ℕ := cpuToQueueId build.global c

/-- A task is made in memory that was free. -/
def made (t : T) (task : Task Fp) : Sys n T Fp :=
  { s.setTask t task with allocated := Function.update s.allocated t true }

/-- `sched_do_push`. -/
def schedDoPush (t : T) (processor : ℕ) : Sys n T Fp :=
  let queue := cpuToQueueId build.global processor
  let s := s.setTask t { s.tasks t with queueId := queue }
  s.setQueue queue ((s.queues queue).push s.data t)

/-- `sched_push`. -/
def schedPush (t : T) : Sys n T Fp :=
  s.schedDoPush build t (queueToCpuId build.global (s.tasks t).queueId)

/-- `sched_timer_isr`, up to `sched_pop`. -/
def preempt (c : Fin n) (cpu : Cpu T Fp) (t : T) : Sys n T Fp :=
  let task := s.tasks t
  if task.preemptedEarly then (s.setCpu c cpu).setTask t { task with preemptedEarly := false }
  else if task.preemptionCount ≠ 0 then
    if (s.queues (queueOf build c)).shouldRequestYield build.aging task.metadata then
      (s.setCpu c cpu).setTask t { task with yieldRequest := true }
    else s.setCpu c cpu
  else
    (s.setCpu c { cpu with phase := .popping .preempt }).setTask t { task with yieldRequest := false }

/-- A change of the task that the task itself asks for. -/
def leave (c : Fin n) (cpu : Cpu T Fp) (t : T) (entry : Entry) : Sys n T Fp :=
  (s.setCpu c { cpu with phase := .popping entry }).setTask t
    { s.tasks t with yieldRequest := false, preemptedEarly := false }

/-- What `sched_pop(current)` or `sched_pop_clean()` answers. -/
def popped (c : Fin n) (cpu : Cpu T Fp) (entry : Entry) : Option T × SchedPriorityq T :=
  let queue := s.queues (queueOf build c)
  match entry, cpu.current with
  | .preempt, some t | .yield, some t => queue.schedPopOf build.aging s.data (s.data t)
  | _, _ => schedPopClean build.aging queue s.data

/-- The next statement of a change of the task. -/
def switch (c : Fin n) : Option (Sys n T Fp) :=
  let cpu := s.cpus c
  match cpu.phase with
  | .off | .running => none
  | .popping entry =>
      match s.popped build c cpu entry with
      | (some next, queue) =>
          let phase := if cpu.current = none then .setting entry none next else .putting entry next
          some ((s.setQueue (queueOf build c) queue).setCpu c { cpu with phase := phase })
      | (none, queue) =>
          let phase := if entry = .preempt ∨ entry = .yield then .running else .popping entry
          some ((s.setQueue (queueOf build c) queue).setCpu c { cpu with phase := phase })
  | .putting entry next =>
      match cpu.current with
      | none => none
      | some old =>
          let phase :=
            if entry = .wait then .setting entry (some old) next else .pushing entry old next
          some ((s.setTask old { s.tasks old with context := schedSaveCurrentCtx cpu.ctx }).setCpu c
            { cpu with current := none, phase := phase })
  | .pushing entry old next =>
      some ((s.schedPush build old).setCpu c { cpu with phase := .setting entry none next })
  | .setting entry old next =>
      some (s.setCpu c { cpu with
        ctx := schedSetCtx cpu.ctx (s.tasks next).context
        current := some next
        phase := .afterSet entry old })
  | .parking old =>
      some ({ s with parked := old :: s.parked }.setCpu c { cpu with phase := .marking })
  | .marking =>
      match cpu.current with
      | none => none
      | some t =>
          let task := s.tasks t
          some ((s.setTask t { task with preemptedEarly := task.preemptedEarly || cpu.pending }).setCpu
            c { cpu with phase := .running, stale := cpu.pending })

/-- The task that a processor runs, where it does. -/
def runs (c : Fin n) : Option T := if (s.cpus c).phase = .running then (s.cpus c).current else none

end Sys

variable (build : Build n T Fp)

/-- One step; a worker only spins. -/
def step (s : Sys n T Fp) : Action n T Fp → Option (Sys n T Fp)
  | .compute c context =>
      (s.runs c).map fun _ =>
        s.setCpu c { s.cpus c with ctx := schedSetCtx (s.cpus c).ctx context }
  | .write c priority criticality =>
      (s.runs c).map fun t =>
        s.setTask t { s.tasks t with priority := priority, criticality := criticality }
  | .disablePreemption c =>
      (s.runs c).map fun t =>
        s.setTask t { s.tasks t with preemptionCount := (s.tasks t).preemptionCount + 1 }
  | .enablePreemption c =>
      (s.runs c).map fun t =>
        s.setTask t { s.tasks t with preemptionCount := (s.tasks t).preemptionCount - 1 }
  | .writeLevel c criticality =>
      let queue := Sys.queueOf build c
      some (s.setQueue queue { s.queues queue with criticalityLevel := criticality })
  | .expire c =>
      let cpu := s.cpus c
      some (s.setCpu c { cpu with pending := true, stale := cpu.pending && cpu.stale })
  | .tick c =>
      match s.runs c with
      | none => none
      | some t =>
          let cpu := s.cpus c
          if cpu.pending then some (s.preempt build c { cpu with pending := false, stale := false } t)
          else none
  | .yield c => (s.runs c).map fun t => s.leave c (s.cpus c) t .yield
  | .wait c =>
      match s.runs c with
      | none => none
      | some t =>
          if ∃ d, build.worker d = t then none else some (s.leave c (s.cpus c) t .wait)
  | .destroy c =>
      match s.runs c with
      | none => none
      | some t =>
          if ∃ d, build.worker d = t then none
          else
            let s := s.setCpu c { s.cpus c with current := none, phase := .popping .destroy }
            some { s with allocated := Function.update s.allocated t false }
  | .switch c => s.switch build c
  | .wake t =>
      if t ∈ s.parked then
        some { s with parked := s.parked.erase t, waking := t :: s.waking }
      else none
  | .push t =>
      if t ∈ s.waking then
        some ({ s with waking := s.waking.erase t }.schedPush build t)
      else none
  | .create t processor stackTop func arg priority criticality =>
      if s.allocated t ∨ ∃ d, build.worker d = t then none
      else
        let task := taskInit build.fp (Sys.queueOf build processor) stackTop func arg priority
          criticality
        some ((s.made t task).schedDoPush build t processor)
  | .trampoline c =>
      if (s.cpus c).phase = .off ∧ s.allocated (build.worker c) = false then
        let worker := build.worker c
        let task := taskInit build.fp (Sys.queueOf build c) (build.stackTop c) build.schedWorker 0 0 0
        some (((s.made worker task).schedPush build worker).setCpu c
          { s.cpus c with phase := .popping .trampoline })
      else none

/-- What a step is to the tasks. -/
def event (s : Sys n T Fp) : Action n T Fp → Option (Event T (Context Fp))
  | .compute c context => (s.cpus c).current.map fun t => .compute t context
  | .destroy c => (s.cpus c).current.map .destroy
  | .create t processor stackTop func arg priority criticality =>
      some (.create t (taskInit build.fp (Sys.queueOf build processor) stackTop func arg priority
        criticality).context)
  | .trampoline c =>
      some (.create (build.worker c) (taskInit build.fp (Sys.queueOf build c) (build.stackTop c)
        build.schedWorker 0 0 0).context)
  | _ => none

/-- The kernel before the scheduler starts. -/
def Sys.boot (tasks : T → Task Fp) (ctx : Fin n → InterruptInfo Fp) : Sys n T Fp where
  tasks := tasks
  allocated _ := false
  cpus c := ⟨ctx c, none, .off, false, false⟩
  queues _ := .initial
  parked := []
  waking := []

section Updates

variable (s : Sys n T Fp) (c d : Fin n) (cpu : Cpu T Fp) (t u : T) (task : Task Fp) (q : ℕ)
  (queue : SchedPriorityq T)

@[simp] theorem setCpu_self : (s.setCpu c cpu).cpus c = cpu := Function.update_self _ _ _
@[simp] theorem setCpu_tasks : (s.setCpu c cpu).tasks = s.tasks := rfl
@[simp] theorem setCpu_queues : (s.setCpu c cpu).queues = s.queues := rfl
@[simp] theorem setCpu_allocated : (s.setCpu c cpu).allocated = s.allocated := rfl
@[simp] theorem setCpu_parked : (s.setCpu c cpu).parked = s.parked := rfl
@[simp] theorem setCpu_waking : (s.setCpu c cpu).waking = s.waking := rfl
@[simp] theorem setTask_self : (s.setTask t task).tasks t = task := Function.update_self _ _ _
@[simp] theorem setTask_cpus : (s.setTask t task).cpus = s.cpus := rfl
@[simp] theorem setTask_queues : (s.setTask t task).queues = s.queues := rfl
@[simp] theorem setTask_allocated : (s.setTask t task).allocated = s.allocated := rfl
@[simp] theorem setTask_parked : (s.setTask t task).parked = s.parked := rfl
@[simp] theorem setTask_waking : (s.setTask t task).waking = s.waking := rfl
@[simp] theorem setQueue_self : (s.setQueue q queue).queues q = queue := Function.update_self _ _ _
@[simp] theorem setQueue_cpus : (s.setQueue q queue).cpus = s.cpus := rfl
@[simp] theorem setQueue_tasks : (s.setQueue q queue).tasks = s.tasks := rfl
@[simp] theorem setQueue_allocated : (s.setQueue q queue).allocated = s.allocated := rfl
@[simp] theorem setQueue_parked : (s.setQueue q queue).parked = s.parked := rfl
@[simp] theorem setQueue_waking : (s.setQueue q queue).waking = s.waking := rfl

variable {c d t u}

theorem setCpu_of_ne (other : d ≠ c) : (s.setCpu c cpu).cpus d = s.cpus d :=
  Function.update_of_ne other _ _

theorem setTask_of_ne (other : u ≠ t) : (s.setTask t task).tasks u = s.tasks u :=
  Function.update_of_ne other _ _

theorem setQueue_of_ne {q' : ℕ} (other : q' ≠ q) : (s.setQueue q queue).queues q' = s.queues q' :=
  Function.update_of_ne other _ _

end Updates

end Model

/-! ## Where the tasks are -/

section Places

variable {n : ℕ} {T Fp : Type}

/-- The places that a task can be in. -/
inductive Place (n : ℕ) where
  | cpu (c : Fin n)
  | queue (q : ℕ)
  | parked
  | waking
  deriving DecidableEq

/-- The tasks in the hands of a processor beside the current one. -/
def Phase.hand : Phase T → List T
  | .putting _ next => [next]
  | .pushing _ old next => [old, next]
  | .setting _ old next => old.toList ++ [next]
  | .parking old => [old]
  | .off | .running | .popping _ | .marking => []

def Cpu.held (cpu : Cpu T Fp) : List T := cpu.current.toList ++ cpu.phase.hand

/-- The tasks in each place, the run queues being these lists. -/
def Sys.contents (s : Sys n T Fp) (queued : ℕ → List T) : Place n → List T
  | .cpu c => (s.cpus c).held
  | .queue q => queued q
  | .parked => s.parked
  | .waking => s.waking

/-- When a processor has a current task. -/
def Cpu.Shape (cpu : Cpu T Fp) : Prop :=
  match cpu.phase with
  | .off => cpu.current = none
  | .running | .parking _ | .marking => cpu.current ≠ none
  | .popping entry => cpu.current = none ↔ entry = .destroy ∨ entry = .trampoline
  | .putting entry _ => cpu.current ≠ none ∧ (entry = .preempt ∨ entry = .yield ∨ entry = .wait)
  | .pushing entry _ _ => cpu.current = none ∧ (entry = .preempt ∨ entry = .yield)
  | .setting entry old _ => cpu.current = none ∧ (old ≠ none ↔ entry = .wait)

/-- The task that is about to wait. -/
def Cpu.leaving (cpu : Cpu T Fp) : Option T :=
  match cpu.phase with
  | .popping .wait | .putting .wait _ => cpu.current
  | .setting _ old _ => old
  | .parking old => some old
  | _ => none

/-- The queue that a task in this place belongs to. -/
def Place.Home (build : Build n T Fp) (q : ℕ) : Place n → Prop
  | .cpu c => q = Sys.queueOf build c
  | .queue q' => q = q' ∧ ∃ c, q = Sys.queueOf build c
  | .parked | .waking => ∃ c, q = Sys.queueOf build c

/-- The registers of a task in this place. -/
def Sys.registers [DecidableEq T] (s : Sys n T Fp) : Place n → T → Context Fp
  | .cpu c, t =>
      if (s.cpus c).current = some t then schedSaveCurrentCtx (s.cpus c).ctx else (s.tasks t).context
  | _, t => (s.tasks t).context

end Places

end Twan.Kernel.TaskSwitch
