/-
# Twan.Kernel.IsrDispatcher -- interrupts that interrupt interrupts

`__isr_dispatcher` of `src/kernel/isr/isr_dispatcher.c` on one processor, with the stacks that
`get_int_stack` of `src/kernel/isr/isr_index.c` hands out, the entry and the exit of
`src/kernel/isr/isr_entry.S`, and the part of the local APIC that decides what may interrupt.  The
dispatcher keeps in `struct per_cpu` which context the task was interrupted in, which context is
the innermost one and which interrupt level is served; a handler may enable interrupts, so all of
it is saved and put back around every handler, statement by statement, while an exception or an NMI
may come in between any two of them.

A frame is one activation of the dispatcher.  What holds of the frames in every run is in
`Twan.Kernel.IsrDispatcherRuns`.
-/
import Mathlib.Data.List.FinRange
import Twan.Base.Nesting
import Twan.Base.Run

namespace Twan.Kernel.IsrDispatcher

set_option autoImplicit false

open Twan.Base

/-! ## The code -/

abbrev Vector : Type := Fin 256

/-- `NMI`, `DOUBLE_FAULT` and `MACHINE_CHECK` of `vector_t`. -/
def nmi : Vector := 2
def doubleFault : Vector := 8
def machineCheck : Vector := 18

def numReservedVectors : ℕ := 32
def selfIpiCmdVector : Vector := 237
def spuriousIntVector : Vector := 239

/-- `vector_to_intl(vector)`. -/
def vectorToIntl (vector : Vector) : ℕ := vector.val / 16

/-- The tops of the stacks of `struct per_cpu` that a context can lie at. -/
inductive Stack where
  | nmiStack
  | dfStack
  | mceStack
  | intStacks (intl : ℕ)
  deriving DecidableEq

/-- `get_int_stack`: the three vectors with a stack of their own in the IDT stay there. -/
def getIntStack (vector : Vector) : Stack :=
  if vector = nmi then .nmiStack
  else if vector = doubleFault then .dfStack
  else if vector = machineCheck then .mceStack
  else .intStacks (vectorToIntl vector)

/-- The vectors of `interrupt_type_arr` that are no hardware exceptions: `NMI`, `BREAKPOINT` and
the reserved ones. -/
def softVectors : List Vector := [2, 3, 15, 22, 23, 24, 25, 26, 27, 28, 29, 30, 31]

/-- `is_critical_exception`. -/
def isCriticalException (vector : Vector) : Bool :=
  decide (vector.val < numReservedVectors) && !softVectors.contains vector

def exceptionUnhandled : ℤ := -1
def exceptionHandled : ℤ := 0

/-- `struct interrupt_info`: the context that was interrupted, with its interrupt flag. -/
structure InterruptInfo (R : Type) where
  vector : Vector
  emulated : Bool
  interrupts : Bool
  context : R
  deriving DecidableEq

/-- What the dispatcher keeps in `struct per_cpu`. -/
structure PerCpu where
  handlingIsr : Bool
  intl : ℤ
  taskCtx : Option Stack
  intCtx : Option Stack
  deriving DecidableEq

/-- The statement of `__isr_dispatcher` that a frame is in front of. -/
inductive Stage where
  | entered
  /-- `this_cpu->int_ctx = stack_trace` -/
  | loaded
  /-- the first `if (!was_in_isr)` -/
  | marking
  /-- `bool external = ...` -/
  | deciding
  /-- `if (external) this_cpu->intl = intl`, and the call of the handler -/
  | raising
  | handling
  /-- `disable_interrupts()` -/
  | returned
  /-- `if (!external)`, with its `else` -/
  | closing
  /-- the second `if (!was_in_isr)` -/
  | unmarking
  /-- `this_cpu->intl = old_intl` -/
  | lowering
  /-- `this_cpu->int_ctx = old_int_ctx` -/
  | leaving
  /-- `iretq` -/
  | exiting
  /-- `kpanic_exec_local` -/
  | panicked
  deriving DecidableEq

/-- How a frame came about. -/
inductive Kind where
  /-- The local APIC delivered the vector and has it in service. -/
  | external
  /-- The local APIC delivered its spurious vector, which is never in service. -/
  | spurious
  | nmi
  | exception
  /-- `__emulate_interrupt`. -/
  | emulated
  deriving DecidableEq

/-- An activation of the dispatcher: how it came about, where its context lies, the interrupt flag of
what it interrupted, and its local variables. -/
structure Frame where
  kind : Kind
  stackTrace : Stack
  vector : Vector
  interrupts : Bool
  stage : Stage
  wasInIsr : Bool
  oldIntl : ℤ
  oldIntCtx : Option Stack
  external : Bool
  ret : ℤ
  deriving DecidableEq

def Frame.emulated (f : Frame) : Bool := f.kind == .emulated

/-- A frame that interrupts what ran with this interrupt flag. -/
def Frame.enter (kind : Kind) (vector : Vector) (interrupts : Bool) : Frame :=
  ⟨kind, getIntStack vector, vector, interrupts, .entered, false, 0, none, false,
    exceptionUnhandled⟩

/-- One processor; `saved` is the history of the contexts that the frames interrupted, with what the
scheduler made of them. -/
structure Sys (R : Type) where
  cpu : PerCpu
  isrTable : Vector → Bool
  service : Vector → Bool
  interrupts : Bool
  memory : Stack → Option (InterruptInfo R)
  frames : List Frame
  saved : List R
  resumed : Option R

/-- `parse_madt` leaves a processor like this. -/
def PerCpu.boot : PerCpu := ⟨false, -1, none, none⟩

def Sys.boot (R : Type) : Sys R :=
  ⟨.boot, fun _ => false, fun _ => false, false, fun _ => none, [], [], none⟩

/-- The vector in service that `lapic_eoi` takes out of service: the highest one. -/
def inServiceHighest (service : Vector → Bool) : Option Vector :=
  (List.finRange 256).reverse.find? service

/-- `lapic_eoi`. -/
def lapicEoi (service : Vector → Bool) : Vector → Bool :=
  match inServiceHighest service with
  | none => service
  | some vector => Function.update service vector false

section Model

variable {R : Type}

namespace Sys

variable (s : Sys R)

/-- The top frame goes on. -/
def top (f : Frame) (rest : List Frame) : Sys R := { s with frames := f :: rest }

/-- The entry: the context is on the stack of its vector, interrupts are off, and the dispatcher is
called. -/
def push (kind : Kind) (vector : Vector) (context : R) : Sys R :=
  let info := ⟨vector, kind == .emulated, s.interrupts, context⟩
  { s with
    service := if kind = .external then Function.update s.service vector true else s.service
    interrupts := false
    memory := Function.update s.memory (getIntStack vector) (some info)
    frames := .enter kind vector s.interrupts :: s.frames
    saved := context :: s.saved }

/-- The next statement of the top frame `f`. -/
def dispatch (f : Frame) (rest : List Frame) : Option (Sys R) :=
  match f.stage with
  | .entered =>
      some (s.top { f with
        stage := .loaded, wasInIsr := s.cpu.handlingIsr, oldIntl := s.cpu.intl,
        oldIntCtx := s.cpu.intCtx } rest)
  | .loaded =>
      let s := { s with cpu := { s.cpu with intCtx := some f.stackTrace } }
      some (s.top { f with stage := .marking } rest)
  | .marking =>
      let s :=
        if f.wasInIsr then s
        else { s with cpu := { s.cpu with handlingIsr := true, taskCtx := some f.stackTrace } }
      some (s.top { f with stage := .deciding } rest)
  | .deciding =>
      let external :=
        !f.emulated && decide (f.oldIntl < vectorToIntl f.vector) && s.service f.vector
      some (s.top { f with stage := .raising, external := external } rest)
  | .raising =>
      let s :=
        if f.external then { s with cpu := { s.cpu with intl := vectorToIntl f.vector } } else s
      let stage := if s.isrTable f.vector then .handling else .returned
      some (s.top { f with stage := stage, ret := exceptionUnhandled } rest)
  | .handling => none
  | .returned => some ({ s with interrupts := false }.top { f with stage := .closing } rest)
  | .closing =>
      if f.external then
        some ({ s with service := lapicEoi s.service }.top { f with stage := .unmarking } rest)
      else if isCriticalException f.vector && f.ret != exceptionHandled then
        some (s.top { f with stage := .panicked } rest)
      else some (s.top { f with stage := .unmarking } rest)
  | .unmarking =>
      let s :=
        if f.wasInIsr then s
        else { s with cpu := { s.cpu with handlingIsr := false, taskCtx := none } }
      some (s.top { f with stage := .lowering } rest)
  | .lowering =>
      let s := { s with cpu := { s.cpu with intl := f.oldIntl } }
      some (s.top { f with stage := .leaving } rest)
  | .leaving =>
      let s := { s with cpu := { s.cpu with intCtx := f.oldIntCtx } }
      some (s.top { f with stage := .exiting } rest)
  | .exiting =>
      (s.memory f.stackTrace).map fun info =>
        { s with
          interrupts := info.interrupts
          frames := rest
          saved := s.saved.tail
          resumed := some info.context }
  | .panicked => none

/-- The scheduler writes the context that `task_ctx()` points to. -/
def store (stack : Stack) (context : R) : Sys R :=
  { s with
    memory := fun p =>
      if p = stack then (s.memory p).map fun info => { info with context := context }
      else s.memory p
    saved := List.zipWith (fun f r => if f.stackTrace = stack then context else r) s.frames s.saved }

end Sys

/-- What happens next on the processor. -/
inductive Action (R : Type) where
  /-- The local APIC interrupts `context`. -/
  | deliver (vector : Vector) (context : R)
  | spurious (context : R)
  | nmi (context : R)
  | exception (vector : Vector) (context : R)
  /-- `__emulate_interrupt(rsp, SELF_IPI_CMD_VECTOR, 0)`. -/
  | emulate (context : R)
  /-- The next statement of the dispatcher. -/
  | dispatch
  /-- The handler returns. -/
  | ret (value : ℤ)
  /-- What runs enables or disables interrupts. -/
  | setInterrupts (enable : Bool)
  /-- The handler writes the context of the task. -/
  | store (context : R)
  /-- `register_isr` and `unregister_isr`, on any processor. -/
  | setIsr (vector : Vector) (registered : Bool)

/-- One step; the local APIC delivers a vector above everything it has in service to a processor
that has interrupts enabled, and an NMI only after the last one has returned. -/
def step (s : Sys R) : Action R → Option (Sys R)
  | .deliver vector context =>
      if s.interrupts ∧ numReservedVectors ≤ vector.val ∧ vector ≠ spuriousIntVector ∧
          ∀ v, s.service v = true → vectorToIntl v < vectorToIntl vector then
        some (s.push .external vector context)
      else none
  | .spurious context =>
      if s.interrupts then some (s.push .spurious spuriousIntVector context) else none
  | .nmi context =>
      if ∀ f ∈ s.frames, f.kind ≠ .nmi then some (s.push .nmi nmi context) else none
  | .exception vector context =>
      if vector.val < numReservedVectors ∧ vector ≠ nmi then some (s.push .exception vector context)
      else none
  | .emulate context =>
      -- `KDYNAMIC_ASSERT(!this_cpu_data()->handling_isr)` of the callers of `emulate_self_ipi`
      if s.frames = [] then
        some ({ s with interrupts := false }.push .emulated selfIpiCmdVector context)
      else none
  | .dispatch =>
      match s.frames with
      | [] => none
      | f :: rest => s.dispatch f rest
  | .ret value =>
      match s.frames with
      | [] => none
      | f :: rest =>
          if f.stage = .handling then some (s.top { f with stage := .returned, ret := value } rest)
          else none
  | .setInterrupts enable =>
      match s.frames with
      | [] => some { s with interrupts := enable }
      | f :: _ => if f.stage = .handling then some { s with interrupts := enable } else none
  | .store context =>
      match s.frames, s.cpu.taskCtx with
      | f :: _, some stack => if f.stage = .handling then some (s.store stack context) else none
      | _, _ => none
  | .setIsr vector registered =>
      some { s with isrTable := Function.update s.isrTable vector registered }

/-- What the handlers and the hardware keep to: an exception or a spurious interrupt does not come
while the stack of its vector is in use, and of the handlers only those of external interrupts
enable interrupts. -/
def Disciplined (s : Sys R) : Action R → Prop
  | .spurious _ => ∀ f ∈ s.frames, f.stackTrace ≠ getIntStack spuriousIntVector
  | .exception vector _ => ∀ f ∈ s.frames, f.stackTrace ≠ getIntStack vector
  | .setInterrupts true => ∀ f ∈ s.frames.head?, f.kind = .external
  | _ => True

instance Disciplined.decidable (s : Sys R) : (act : Action R) → Decidable (Disciplined s act)
  | .spurious _ =>
      inferInstanceAs (Decidable (∀ f ∈ s.frames, f.stackTrace ≠ getIntStack spuriousIntVector))
  | .exception vector _ =>
      inferInstanceAs (Decidable (∀ f ∈ s.frames, f.stackTrace ≠ getIntStack vector))
  | .setInterrupts true => inferInstanceAs (Decidable (∀ f ∈ s.frames.head?, f.kind = .external))
  | .setInterrupts false | .deliver .. | .nmi _ | .emulate _ | .dispatch | .ret _ | .store _
  | .setIsr .. => isTrue trivial

/-- What an action interrupts. -/
def Action.interrupted : Action R → Option R
  | .deliver _ context | .spurious context | .nmi context | .exception _ context
  | .emulate context => some context
  | _ => none

/-- The interrupt flag that its entry finds; `__emulate_interrupt` has cleared it. -/
def Action.flag (act : Action R) (interrupts : Bool) : Bool :=
  match act with
  | .emulate _ => false
  | _ => interrupts

end Model

end Twan.Kernel.IsrDispatcher
