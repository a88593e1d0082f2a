/-
# Twan.Vsched.SliceTimer -- the timer of a vcpu's time slice

`src/subsys/twanvisor/vsched/vsched_timer.c`, `vsched_preempt_isr` and `vthis_vsched_reschedule` of
`vsched.c`, `vsched_yield.c`, `vtry_answer_yield_request` of `vcpu.c`, what
`visr/visr_dispatcher.c` and `visr/visr_index.c` do about `VSCHED_TIMER_VECTOR`, `__venter`,
`vemu_alter_vcpu` and `__vemu_pv_spin_kick`, on one CPU.  The LAPIC counts down on its own, its
interrupt can be late, and another CPU can alter the ticks of a vcpu at any point.

What `__vsched_pop` answers is part of the run, for either scheduler.  `PopsReady` is that it takes
ready vcpus only: `__vsched_pop` of the frame scheduler looks at the state (`PopsFramed.ready`), the
one over the run queues does not, and takes a ready vcpu where the queues are filed
(`PopsFiled.ready`), which they are as long as what is popped has criticality 0.
-/
import Mathlib.Tactic.SplitIfs
import Twan.Base.Run
import Twan.Vsched.Frames

namespace Twan.Vsched.SliceTimer

set_option autoImplicit false
set_option linter.unusedSectionVars false

open Twan.Base

/-- How far a vcpu is between a VM exit and the next VM entry: the handler of the exit has not
enabled preemption yet, or it has and `vtry_answer_yield_request` is to look, or it has looked. -/
inductive Point where
  | handling
  | answering
  | answered
  deriving DecidableEq

/-- The fields of `struct vcpu` that matter to its time slice, and where its context was put. -/
structure Vcpu where
  state : VcpuState
  pvSpin : PvSpinState
  timeSliceTicks : ℕ
  currentTimeSliceTicks : ℕ
  rearm : Bool
  preemptionCount : ℕ
  yieldRequest : Bool
  point : Point

/-- What the CPU does: the guest, a VM exit, the host code of the current vcpu, the interrupt of the
timer before and after `vis_sched_timer_done`, and what leads back.  `timer` is whether this is
inside the interrupt of the timer, and not an emulated one. -/
inductive Phase where
  | guest
  | exited
  | host (p : Point)
  | isr (p : Point)
  | preempt (p : Point)
  | reread (p : Point)
  | arming (ticks : ℕ) (timer : Bool) (p : Point)
  | leaving (p : Point)
  | picking (timer : Bool)
  | failing
  | entering (ticks : ℕ) (rearm : Bool)
  deriving DecidableEq

/-- One CPU with its vcpus, the one-shot timer of its LAPIC, and the bits of
`VSCHED_TIMER_VECTOR` (requested, in service) and of `VIPI_VECTOR`. -/
structure Sys (V : Type) where
  vcpu : V → Vcpu
  current : V
  phase : Phase
  schedTimerArmed : Bool
  curCount : ℕ
  irr : Bool
  inService : Bool
  vipi : Bool

section Model

variable {V : Type} [DecidableEq V] (idle : V) (s : Sys V)

namespace Sys

/-- `vcurrent_vcpu()`. -/
def cur : Vcpu := s.vcpu s.current

def setCur (c : Vcpu) : Sys V := { s with vcpu := Function.update s.vcpu s.current c }

def setState (v : V) (state : VcpuState) : Sys V :=
  { s with vcpu := Function.update s.vcpu v { s.vcpu v with state := state } }

/-- `vis_sched_timer_done()`, its answer. -/
def timerDone : Bool := s.schedTimerArmed && decide (s.curCount = 0)

/-- `vsched_arm_timer(ticks)`, with `vset_lapic_oneshot`. -/
def armTimer (ticks : ℕ) : Sys V :=
  if ticks ≠ 0 then { s with schedTimerArmed := true, curCount := ticks }
  else { s with schedTimerArmed := false }

/-- `vsched_enter_ctx(vcpu, ctx)`, the read of the ticks, and on to `vsched_start_schedule`. -/
def start (timer : Bool) (v : V) : Sys V :=
  { s with
    current := v
    vcpu := Function.update s.vcpu v { s.vcpu v with
      state := .transitioning, currentTimeSliceTicks := (s.vcpu v).timeSliceTicks }
    phase := .arming (s.vcpu v).timeSliceTicks timer (s.vcpu v).point }

/-- `__vsched_put(vcpu, true, ctx)` of the current vcpu, which is at `p`. -/
def put (p : Point) : Sys V := s.setCur { s.cur with state := .ready, rearm := false, point := p }

/-- `vthis_vsched_reschedule(current, ctx)` after its callers unset the request; `next` is what
`__vsched_is_current_preemptible` and `__vsched_pop` answer. -/
def reschedule (timer : Bool) (p : Point) (next : Option V) : Sys V :=
  let s := s.setCur { s.cur with yieldRequest := false }
  match next with
  | none =>
      let s := s.setCur { s.cur with currentTimeSliceTicks := s.cur.timeSliceTicks }
      { s with phase := .arming s.cur.currentTimeSliceTicks timer p }
  | some v => (s.put p).start timer v

/-- `__vsched_put_paused(vcpu, pv_spin, true, ctx)` of the current vcpu, and on to
`vsched_get_spin`. -/
def putPaused (state : VcpuState) (spin : PvSpinState) : Sys V :=
  { s.setCur { s.cur with
      state := state, pvSpin := spin, rearm := false, yieldRequest := false, point := .handling } with
    phase := .picking false }

/-- `vsched_pause_ipi(pv_spin)` of a vcpu that is not to be terminated.  A vcpu that was kicked goes
on, with its request to yield. -/
def pause (pvSpin : Bool) : Sys V :=
  if pvSpin then
    match s.cur.pvSpin with
    | .none => s.putPaused .pvSpinning .paused
    | .kicked => s.setCur { s.cur with pvSpin := .none }
    | .paused => s
  else s.putPaused .paused s.cur.pvSpin

/-- `__vemu_pv_spin_kick(vcpu)`. -/
def vemuPvSpinKick (v : V) : Sys V :=
  if (s.vcpu v).pvSpin = .paused then
    { s with vcpu := Function.update s.vcpu v { s.vcpu v with state := .ready, pvSpin := .none } }
  else { s with vcpu := Function.update s.vcpu v { s.vcpu v with pvSpin := .kicked } }

/-- `vemu_alter_vcpu(vid, processor_id, true, ticks, ..)` of a vcpu that exists; `own` is whether
the caller is that vcpu. -/
def alter (v : V) (ticks : ℕ) (own : Bool) : Sys V :=
  let c := { s.vcpu v with timeSliceTicks := ticks }
  if c.currentTimeSliceTicks = 0 ∧ ticks ≠ 0 then
    let c := { c with currentTimeSliceTicks := ticks }
    if c.state = .running then
      { s with vcpu := Function.update s.vcpu v { c with rearm := true }, vipi := true }
    else if own then { s with vcpu := Function.update s.vcpu v { c with rearm := true } }
    else { s with vcpu := Function.update s.vcpu v c }
  else { s with vcpu := Function.update s.vcpu v c }

end Sys

/-- What ends the guest's turn. -/
inductive Exit where
  | timer
  | vipi
  | other
  deriving DecidableEq

/-- The steps of the CPU, of the LAPIC (`count`), and of other CPUs.  Whether a vcpu was asked to
terminate is up to the run. -/
inductive Action (V : Type) where
  | count
  | vmexit (exit : Exit)
  | vexit
  | extDispatch
  | disablePreemption
  | enablePreemptionNoYield
  | tryAnswerYieldRequest (next : Option V)
  | interrupt
  | timerDone
  | requestYield (preemptible : Bool)
  | reread
  | preempt (next : Option V)
  | armTimer
  | acknowledge
  | yield (next : Option V)
  | pause (pvSpin : Bool)
  | recover
  | fail
  | terminate
  | getOrIdle (next : Option V)
  | idleYield
  | venter
  | vmentry
  | vipi
  | alter (v : V) (ticks : ℕ) (own : Bool)
  | put (v : V)
  | putPaused (v : V)
  | unpause (v : V)
  | kick (v : V)
  | teardown (v : V)

def step : Action V → Option (Sys V)
  -- the count that reaches 0 requests the interrupt
  | .count =>
      if s.curCount = 0 then none
      else some { s with curCount := s.curCount - 1, irr := s.irr || decide (s.curCount = 1) }
  -- an external interrupt that ends the guest's turn is acknowledged by the exit
  | .vmexit exit =>
      if s.phase = .guest then
        match exit with
        | .timer =>
            if s.irr && !s.inService then
              some { s with phase := .exited, irr := false, inService := true }
            else none
        | .vipi => if s.vipi then some { s with phase := .exited, vipi := false } else none
        | .other => some { s with phase := .exited }
      else none
  -- `vexit_dispatcher` up to the handler
  | .vexit =>
      if s.phase = .exited then
        some { s.setCur { s.cur with
          state := .transitioning, preemptionCount := s.cur.preemptionCount + 1 } with
          phase := .host .handling }
      else none
  -- `vexit_ext_dispatcher`, or `vhandle_buggy_lapic_isr`
  | .extDispatch =>
      if s.phase = .host .handling ∧ s.inService = true then
        if s.timerDone then
          some { s.setCur { s.cur with yieldRequest := true } with
            schedTimerArmed := false, inService := false }
        else some { s with inService := false }
      else none
  | .disablePreemption =>
      if s.phase = .host .handling then
        some (s.setCur { s.cur with preemptionCount := s.cur.preemptionCount + 1 })
      else none
  -- `vcurrent_vcpu_enable_preemption_no_yield()`
  | .enablePreemptionNoYield =>
      if s.phase = .host .handling then
        if s.cur.preemptionCount = 1 then
          some { s.setCur { s.cur with preemptionCount := 0 } with phase := .host .answering }
        else some (s.setCur { s.cur with preemptionCount := s.cur.preemptionCount - 1 })
      else none
  | .tryAnswerYieldRequest next =>
      if s.phase = .host .answering then
        if s.cur.preemptionCount = 0 ∧ s.cur.yieldRequest = true then
          some (s.reschedule false .answered next)
        else some { s with phase := .host .answered }
      else none
  | .interrupt =>
      match s.phase with
      | .host p =>
          if s.irr && !s.inService then
            some { s with phase := .isr p, irr := false, inService := true }
          else none
      | _ => none
  -- `vis_sched_timer_done()`, in the interrupt
  | .timerDone =>
      match s.phase with
      | .isr p =>
          if s.timerDone then some { s with phase := .preempt p, schedTimerArmed := false }
          else some { s with phase := .leaving p }
      | _ => none
  -- `vsched_preempt_isr()` of a vcpu with preemption disabled
  | .requestYield preemptible =>
      match s.phase with
      | .preempt p =>
          if 0 < s.cur.preemptionCount then
            if preemptible then
              some { s.setCur { s.cur with yieldRequest := true } with phase := .leaving p }
            else some { s with phase := .reread p }
          else none
      | _ => none
  | .reread =>
      match s.phase with
      | .reread p => some { s with phase := .arming s.cur.currentTimeSliceTicks true p }
      | _ => none
  -- and of one with preemption enabled
  | .preempt next =>
      match s.phase with
      | .preempt p => if s.cur.preemptionCount = 0 then some (s.reschedule true p next) else none
      | _ => none
  | .armTimer =>
      match s.phase with
      | .arming ticks timer p =>
          some { s.armTimer ticks with phase := if timer then .leaving p else .host p }
      | _ => none
  -- `vacknowledge_interrupt(vector)`, and back
  | .acknowledge =>
      match s.phase with
      | .leaving p => some { s with phase := .host p, inService := false }
      | _ => none
  | .yield next =>
      if s.phase = .host .handling ∧ s.current ≠ idle then some (s.reschedule false .handling next)
      else none
  | .pause pvSpin =>
      if s.phase = .host .handling ∧ s.current ≠ idle then some (s.pause pvSpin) else none
  -- `vdo_transitioning_recover(current)`
  | .recover =>
      if s.current = idle then none
      else
        match s.phase with
        | .host _ => some { s.setState s.current .terminated with phase := .picking false }
        | .preempt _ =>
            if s.cur.preemptionCount = 0 then
              some { s.setState s.current .terminated with phase := .picking true }
            else none
        | _ => none
  -- `vfailure_recover()`
  | .fail =>
      if s.current = idle then none
      else
        match s.phase with
        | .exited | .host _ => some { s with schedTimerArmed := false, phase := .failing }
        | _ => none
  | .terminate =>
      if s.phase = .failing ∧ s.current ≠ idle then
        some { s.setState s.current .terminated with phase := .picking false }
      else none
  -- `vsched_get_or_idle(ctx)`
  | .getOrIdle next =>
      match s.phase with
      | .picking timer => some (s.start timer (next.getD idle))
      | _ => none
  | .idleYield =>
      if s.phase = .host .answered ∧ s.current = idle then
        some { s.setCur { s.cur with point := .answered } with phase := .picking false }
      else none
  -- `__venter()`, its section under the lock
  | .venter =>
      if s.phase = .host .answered ∧ s.current ≠ idle then
        some { s.setCur { s.cur with state := .running, rearm := false } with
          phase := .entering s.cur.currentTimeSliceTicks s.cur.rearm }
      else none
  | .vmentry =>
      match s.phase with
      | .entering ticks rearm =>
          some { (if rearm then s.armTimer ticks else s) with phase := .guest }
      | _ => none
  -- the interrupt of another CPU, taken by the host
  | .vipi =>
      match s.phase with
      | .host _ => some { s with vipi := false }
      | _ => none
  | .alter v ticks own =>
      if v ≠ idle ∧ (own = true → v = s.current ∧ s.phase = .host .answered) then
        some (s.alter v ticks own)
      else none
  | .put v => if (s.vcpu v).state = .initializing then some (s.setState v .ready) else none
  | .putPaused v => if (s.vcpu v).state = .initializing then some (s.setState v .paused) else none
  | .unpause v => if (s.vcpu v).state = .paused then some (s.setState v .ready) else none
  | .kick v => if v ≠ idle then some (s.vemuPvSpinKick v) else none
  -- the visit of a teardown, or a new vcpu that is put when it is to be terminated
  | .teardown v =>
      if ((s.vcpu v).state.isQueued = true ∨ (s.vcpu v).state = .initializing) ∧ v ≠ idle then
        some (s.setState v .terminated)
      else none

/-- The root vcpu runs in its guest without a slice, nothing was put yet. -/
structure Initial : Prop where
  phase : s.phase = .guest
  running : s.cur.state = .running
  slice : s.cur.currentTimeSliceTicks = 0
  fresh : ∀ v, (s.vcpu v).yieldRequest = false ∧ (s.vcpu v).preemptionCount = 0 ∧
    (s.vcpu v).point = .answered ∧ (s.vcpu v).pvSpin = .none
  idle : (s.vcpu idle).state ≠ .terminated
  rearm : s.cur.rearm = false
  armed : s.schedTimerArmed = false

/-- What `__vsched_pop` takes is ready; `vthis_vsched_reschedule` has put the current vcpu before. -/
def PopsReady : Action V → Prop
  | .tryAnswerYieldRequest (some v) | .preempt (some v) | .yield (some v) =>
      v ≠ s.current → (s.vcpu v).state = .ready
  | .getOrIdle (some v) => (s.vcpu v).state = .ready
  | _ => True

instance PopsReady.decidable : DecidablePred (PopsReady s)
  | .tryAnswerYieldRequest (some v) | .preempt (some v) | .yield (some v) =>
      inferInstanceAs (Decidable (v ≠ s.current → (s.vcpu v).state = .ready))
  | .getOrIdle (some v) => inferInstanceAs (Decidable ((s.vcpu v).state = .ready))
  | .tryAnswerYieldRequest none | .preempt none | .yield none | .getOrIdle none | .count | .vmexit _
  | .vexit | .extDispatch | .disablePreemption | .enablePreemptionNoYield | .interrupt | .timerDone
  | .requestYield _ | .reread | .armTimer | .acknowledge | .pause _ | .recover | .fail | .terminate
  | .idleYield | .venter | .vmentry | .vipi | .alter .. | .put _ | .putPaused _ | .unpause _ | .kick _
  | .teardown _ => isTrue trivial

end Model

/-! ## What the schedulers answer -/

section Pops

variable {V : Type} [DecidableEq V] {s : Sys V}

/-- The action takes what `__vsched_pop` answers: `popped`, or `reposted` where
`vthis_vsched_reschedule` has put the current vcpu before and finds it preemptible. -/
def Action.Takes (popped reposted : Option V) : Action V → Prop
  | .tryAnswerYieldRequest (some v) | .preempt (some v) | .yield (some v) => reposted = some v
  | .getOrIdle next => popped = next
  | _ => True

/-- The action pops from filed run queues whose vcpus are in the states they have here; `put` are
the queues after the current vcpu was put. -/
def PopsFiled {Cpu : Type} [DecidableEq Cpu] (home : V → Cpu) (cpu : Cpu) (s : Sys V)
    (a : Action V) : Prop :=
  ∃ queues put : RunQueue.Sys Cpu V,
    RunQueue.Files home queues ∧ (∀ v, (queues.vcpu v).state = (s.vcpu v).state) ∧
      RunQueue.Files home put ∧ (∀ v, v ≠ s.current → (put.vcpu v).state = (s.vcpu v).state) ∧
      a.Takes (queues.pop cpu).1 (put.pop cpu).1

/-- The action pops from frames whose vcpus are in the states they have here. -/
def PopsFramed (N : ℕ) [NeZero N] (s : Sys V) (a : Action V) : Prop :=
  ∃ frames put : Frames.Sys N V,
    (∀ v, (frames.vcpu v).state = (s.vcpu v).state) ∧
      (∀ v, v ≠ s.current → (put.vcpu v).state = (s.vcpu v).state) ∧ a.Takes frames.pop.1 put.pop.1

theorem popsReady_of_takes {popped reposted : Option V} {a : Action V}
    (ready : ∀ v, popped = some v → (s.vcpu v).state = .ready)
    (readyPut : ∀ v, reposted = some v → v ≠ s.current → (s.vcpu v).state = .ready)
    (takes : a.Takes popped reposted) : PopsReady s a := by
  cases a with
  | tryAnswerYieldRequest next | preempt next | yield next =>
      cases next with
      | none => trivial
      | some v => exact readyPut v takes
  | getOrIdle next =>
      cases next with
      | none => trivial
      | some v => exact ready v takes
  | _ => trivial

theorem PopsFiled.ready {Cpu : Type} [DecidableEq Cpu] {home : V → Cpu} {cpu : Cpu}
    {a : Action V} (filed : PopsFiled home cpu s a) : PopsReady s a := by
  obtain ⟨queues, put, files, states, filesPut, statesPut, takes⟩ := filed
  refine popsReady_of_takes (fun v answer => ?_) (fun v answer other => ?_) takes
  · rw [← states v]
    exact files.pop_ready answer
  · rw [← statesPut v other]
    exact filesPut.pop_ready answer

theorem PopsFramed.ready {N : ℕ} [NeZero N] {a : Action V} (framed : PopsFramed N s a) :
    PopsReady s a := by
  obtain ⟨frames, put, states, statesPut, takes⟩ := framed
  refine popsReady_of_takes (fun v answer => ?_) (fun v answer other => ?_) takes
  · rw [← states v]
    exact Frames.pop_ready answer
  · rw [← statesPut v other]
    exact Frames.pop_ready answer

end Pops

end Twan.Vsched.SliceTimer
