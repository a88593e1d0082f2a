/-
# Twan.Vemulate.TlbInvalidate -- TLB shootdowns and their acknowledgements

`vemu_tlb_invalidate` of `vemulate_utils.c`, `vipi_queue_ack`, `vipi_ack` and
`vipi_check_ack` of `visr_index.c`, `vipi_ack_dequeue_all` of `vrecovery.c`, and what
`__venter` and `vexit_dispatcher` do around guest mode.  The vcpus live as in
`Twan.Vsched.Lifecycle`, of which every move of a vcpu here is a step.

A sender goes over the vcpus of its target.  For each it sets `tlb_flush_pending` under
the scheduler's lock and, when the vcpu is `VRUNNING`, queues its node on the vcpu's CPU;
it sends an IPI only when the flag was not set before.  It then waits until its node is
gone from the queues of the CPUs it marked in `wait_for_map`.  Any number of senders
share the queue of a CPU, which `vipi_ack` clears wholesale after the vcpu has left the
guest.

The history of a flag is the ghost field `mark`, for each call and vcpu:

* `within`: the vcpu is still in the stay in guest mode that the flag found it in;
* `outside`: it has been out of guest mode since, and not entered it again;
* `flushed`: a later `__venter` found the flag set and consumed it.

The sender looks at `state` only.  `__vsched_pop` can take a vcpu of criticality 1 or
more out of one bucket and leave it in another, so that a vcpu that waits for a kick is
popped again; the kick of its sibling then makes it `VREADY` in the guest, and a sender
neither waits for it nor sends an IPI (`kicked_vcpu_in_guest`, with the results in
`Twan.Vemulate.TlbInvalidateRuns`).
-/
import Mathlib.Data.Fintype.Prod
import Twan.Vsched.LifecycleRuns

namespace Twan.Vemulate.TlbInvalidate

set_option autoImplicit false

open Twan.Base Twan.Lib.Dq Twan.Vsched

/-- Where a vcpu is on its way into the guest and back.  It is `entering` from the locked
section of `__venter` on, and `exited` until `vexit_dispatcher` has set `VTRANSITIONING`;
`acking` ends with `vipi_ack`. -/
inductive Mode where
  | host
  | entering
  | guest
  | exited
  | acking
  deriving DecidableEq, Repr

/-- The guest runs, or will run before `tlb_flush_pending` is read again. -/
def Mode.inside : Mode → Bool
  | .entering | .guest => true
  | _ => false

/-- `VRUNNING` is set from `__venter` to `vexit_dispatcher`. -/
def Mode.isRunning : Mode → Bool
  | .entering | .guest | .exited => true
  | _ => false

/-- How far a call of `vemu_tlb_invalidate` is: the vcpus left to the first pass, the CPUs
left to the second, or its end. -/
inductive Phase (Cpu V : Type) where
  | idle
  | passing (todo : List V)
  | waiting (todo : List Cpu)
  | returned
  | refused
  | dropped
  deriving DecidableEq

def Phase.isActive {Cpu V : Type} : Phase Cpu V → Bool
  | .passing _ | .waiting _ => true
  | _ => false

/-- What has become of the flag a call has set on a vcpu. -/
inductive Mark where
  | unset
  | within
  | outside
  | flushed
  deriving DecidableEq, Repr

/-- The vcpu passes `__venter`, which read `tlb_flush_pending` as `pending`. -/
def Mark.enter (pending : Bool) : Mark → Mark
  | .outside => if pending then .flushed else .outside
  | m => m

/-- The vcpu is out of the guest. -/
def Mark.leave : Mark → Mark
  | .within => .outside
  | m => m

/-- The CPUs, where the vcpus are, and each call's sender and target partition. -/
structure Layout (P Cpu V C : Type) where
  life : Lifecycle.Layout P Cpu V
  cpus : List Cpu
  mem_cpus : ∀ cpu, cpu ∈ cpus
  caller : C → V
  target : C → P

/-- The CPU of a vcpu. -/
abbrev Layout.home {P Cpu V C : Type} (l : Layout P Cpu V C) : V → Cpu := l.life.home

/-- The vcpus of the target of a call. -/
abbrev Layout.vcpus {P Cpu V C : Type} (l : Layout P Cpu V C) (c : C) : List V :=
  l.life.vcpus (l.target c)

/-- The vcpus with their run queues, the queues of nodes and the calls.  `dequeuing` holds
the CPUs that `vipi_ack_dequeue_all` has still to visit for a vcpu that is being
terminated.  `ipi` records whether a `vipi_async` was sent to a CPU since the last
`__venter` there. -/
structure Sys (P Cpu V C : Type) where
  life : Lifecycle.Sys P Cpu V
  mode : V → Mode
  current : Cpu → Option V
  tlbFlushPending : V → Bool
  dequeuing : V → Option (List Cpu)
  dqs : Dqs Cpu (V × Cpu)
  waitForMap : V → Cpu → Bool
  call : C → Phase Cpu V
  cur : V → Option C
  ipi : Cpu → Bool
  mark : C → V → Mark

section Model

variable {P Cpu V C : Type} [DecidableEq P] [DecidableEq Cpu] [DecidableEq V] [DecidableEq C]

namespace Sys

variable (l : Layout P Cpu V C) (s : Sys P Cpu V C)

def state (v : V) : VcpuState := s.life.state v

/-- The vcpu executes hypervisor code on its CPU. -/
def onCpu (v : V) : Prop :=
  s.current (l.home v) = some v ∧ s.mode v = .host ∧ s.state v = .transitioning ∧
    s.dequeuing v = none

instance onCpu.decidable (v : V) : Decidable (s.onCpu l v) :=
  inferInstanceAs (Decidable (_ ∧ _ ∧ _ ∧ _))

/-- A step of the lifecycle. -/
def live (a : Lifecycle.Action P Cpu V) : Option (Sys P Cpu V C) :=
  (Lifecycle.step l.life s.life a).map fun life => { s with life := life }

def setMode (v : V) (mode : Mode) : Sys P Cpu V C :=
  { s with mode := Function.update s.mode v mode }

def setCurrent (cpu : Cpu) (v : Option V) : Sys P Cpu V C :=
  { s with current := Function.update s.current cpu v }

/-- The history of every flag on `v` moves on. -/
def remark (v : V) (f : Mark → Mark) : Sys P Cpu V C :=
  { s with mark := fun c w => if w = v then f (s.mark c w) else s.mark c w }

def setCall (c : C) (phase : Phase Cpu V) : Sys P Cpu V C :=
  { s with call := Function.update s.call c phase }

/-- The vcpu never gets on with the call it is in. -/
def drop (v : V) : Sys P Cpu V C :=
  { s with
    cur := Function.update s.cur v none
    call := match s.cur v with
      | some c => Function.update s.call c .dropped
      | none => s.call }

/-- `vdo_transitioning_recover` begins, up to `vipi_ack_dequeue_all`; for a ready vcpu its
CPU's part is done by whoever visits it. -/
def recover (v : V) : Sys P Cpu V C :=
  { s.drop v with dequeuing := Function.update s.dequeuing v (some l.cpus) }

/-- After a step of its own CPU the vcpu recovers, goes on, or has left the CPU. -/
def settle (v : V) : Sys P Cpu V C :=
  if s.life.recovering v then s.recover l v
  else if s.state v = .transitioning then s
  else s.setCurrent (l.home v) none

/-- `vipi_queue_ack(vprocessor_id, vcpu)`. -/
def vipiQueueAck (cpu : Cpu) (u : V) : Sys P Cpu V C :=
  if l.home u = cpu then s
  else if s.dqs.isQueued cpu (u, cpu) then s
  else { s with dqs := s.dqs.pushback cpu (u, cpu) }

/-- `vipi_async(vprocessor_id)`, sent by the CPU `this`. -/
def vipiAsync (cpu this : Cpu) : Sys P Cpu V C :=
  if this = cpu then s else { s with ipi := Function.update s.ipi cpu true }

/-- `vipi_check_ack(vprocessor_id, vcpu) == 1`. -/
def vipiCheckAck (cpu : Cpu) (u : V) : Bool :=
  !decide (l.home u = cpu) && !s.dqs.isQueued cpu (u, cpu)

/-- One iteration of the first pass of `vemu_tlb_invalidate`. -/
def firstPass (c : C) (v : V) : Sys P Cpu V C :=
  let u := l.caller c
  let state := s.state v
  let wasPending := s.tlbFlushPending v
  let s := { s with
    tlbFlushPending := Function.update s.tlbFlushPending v true
    mark := Function.update s.mark c
      (Function.update (s.mark c) v (if (s.mode v).inside then .within else .outside)) }
  if state = .running then
    let s := s.vipiQueueAck l (l.home v) u
    let s := if wasPending then s else s.vipiAsync (l.home v) (l.home u)
    { s with
      waitForMap := Function.update s.waitForMap u
        (Function.update (s.waitForMap u) (l.home v) true) }
  else s

/-- The rest of the locked section of `__venter`; whatever is flagged is flushed. -/
def venter (v : V) : Sys P Cpu V C :=
  if s.life.recovering v then s.recover l v
  else
    { (s.setMode v .entering).remark v (Mark.enter (s.tlbFlushPending v)) with
      tlbFlushPending := Function.update s.tlbFlushPending v false
      ipi := Function.update s.ipi (l.home v) false }

/-- A vcpu comes back from the guest, or fails to enter it. -/
def leave (v : V) : Sys P Cpu V C :=
  (s.setMode v .exited).remark v Mark.leave

/-- The body of the loop of `vteardown`, and of `vfailure_recover` for another vcpu. -/
def visit (this : Cpu) (v : V) : Option (Sys P Cpu V C) :=
  (s.live l (.visit v)).map fun t =>
    match s.state v with
    | .running => t.vipiAsync (l.home v) this
    | .ready => t.recover l v
    | _ => t

end Sys

/-- What the senders, the vcpus and the schedulers do, one locked section at a time. -/
inductive Action (P Cpu V C : Type) where
  | create (v : V) (paused : Bool)
  | get (cpu : Cpu)
  | put (v : V)
  | pause (v : V) (pvSpin : Bool)
  | notice (v : V)
  | remote (a : Lifecycle.Action P Cpu V)
  | visit (this : Cpu) (v : V)
  | fail (v : V)
  | ackDequeue (v : V)
  | recovered (v : V)
  | venter (v : V)
  | launch (v : V)
  | vmexit (v : V)
  | entryFailure (v : V)
  | transition (v : V)
  | ack (v : V)
  | start (c : C) (allowed : Bool)
  | firstPass (c : C)
  | secondPass (c : C)

variable [Fintype Cpu] [Fintype V]

/-- A CPU without a vcpu takes what `__vsched_pop` answers.  A vcpu in a call is not paused,
entered or failed before the call has ended; it may be preempted. -/
def step (l : Layout P Cpu V C) (s : Sys P Cpu V C) :
    Action P Cpu V C → Option (Sys P Cpu V C)
  | .create v paused =>
      if s.state v = .initializing ∧ s.dequeuing v = none then
        (s.live l (if paused then .putPaused v false else .put v)).map fun t =>
          if t.life.recovering v then t.recover l v else t
      else none
  | .get cpu =>
      if s.current cpu = none then
        (s.live l (.get cpu)).map fun t => t.setCurrent cpu (s.life.queues.pop cpu).1
      else none
  | .put v => if s.onCpu l v then (s.live l (.put v)).map fun t => t.settle l v else none
  | .pause v pvSpin =>
      if s.onCpu l v ∧ s.cur v = none then
        (s.live l (.putPaused v pvSpin)).map fun t => t.settle l v
      else none
  | .notice v => if s.onCpu l v then (s.live l (.notice v)).map fun t => t.settle l v else none
  | .remote a => if a.isRemote then s.live l a else none
  | .visit this v => s.visit l this v
  | .fail v =>
      if s.current (l.home v) = some v ∧ (s.mode v = .exited ∨ s.onCpu l v ∧ s.cur v = none) then
        (s.live l (.visitCurrent v)).map fun t => (t.setMode v .host).setCurrent (l.home v) none
      else none
  | .ackDequeue v =>
      match s.dequeuing v with
      | some (cpu :: rest) =>
          let s := { s with dequeuing := Function.update s.dequeuing v (some rest) }
          if s.dqs.isQueued cpu (v, cpu) then some { s with dqs := s.dqs.dequeue cpu (v, cpu) }
          else some s
      | _ => none
  | .recovered v =>
      if s.dequeuing v = some [] ∧ s.mode v = .host then
        (s.live l (.recover v)).map fun t =>
          let t := { t with dequeuing := Function.update t.dequeuing v none }
          if t.current (l.home v) = some v then t.setCurrent (l.home v) none else t
      else none
  | .venter v =>
      if s.onCpu l v ∧ s.cur v = none then (s.live l (.enter v)).map fun t => t.venter l v
      else none
  | .launch v => if s.mode v = .entering then some (s.setMode v .guest) else none
  | .vmexit v => if s.mode v = .guest then some (s.leave v) else none
  | .entryFailure v => if s.mode v = .entering then some (s.leave v) else none
  | .transition v =>
      if s.mode v = .exited then (s.live l (.exit v)).map fun t => t.setMode v .acking else none
  | .ack v =>
      if s.mode v = .acking then some { s.setMode v .host with dqs := s.dqs.clear (l.home v) }
      else none
  | .start c allowed =>
      let u := l.caller c
      if s.onCpu l u ∧ s.cur u = none ∧ s.call c = .idle then
        if allowed then
          some { s.setCall c (.passing (l.vcpus c)) with
            cur := Function.update s.cur u (some c)
            waitForMap := Function.update s.waitForMap u fun _ => false }
        else some (s.setCall c .refused)
      else none
  | .firstPass c =>
      if s.onCpu l (l.caller c) then
        match s.call c with
        | .passing (v :: todo) => some ((s.firstPass l c v).setCall c (.passing todo))
        | .passing [] => some (s.setCall c (.waiting l.cpus))
        | _ => none
      else none
  | .secondPass c =>
      let u := l.caller c
      if s.onCpu l u then
        match s.call c with
        | .waiting (cpu :: todo) =>
            if s.waitForMap u cpu = false ∨ s.vipiCheckAck l cpu u = true then
              some (s.setCall c (.waiting todo))
            else some s
        | .waiting [] =>
            some { s.setCall c .returned with cur := Function.update s.cur u none }
        | _ => none
      else none

/-- The vcpus that `__vsched_pop` takes have criticality 0. -/
def PopsZero (s : Sys P Cpu V C) : Action P Cpu V C → Prop
  | .get cpu => Lifecycle.PopsZero s.life (.get cpu)
  | _ => True

/-- A vcpu that is to be created, or one of the root partition in its guest. -/
def Fresh (l : Layout P Cpu V C) (s : Sys P Cpu V C) (v : V) : Prop :=
  s.mode v = .host ∧ s.state v = .initializing ∨
    s.mode v = .guest ∧ s.state v = .running ∧ s.current (l.home v) = some v ∧
      s.tlbFlushPending v = false

/-- Before the first vcall. -/
structure Initial (l : Layout P Cpu V C) (s : Sys P Cpu V C) : Prop where
  life : Lifecycle.Initial l.life s.life
  fresh : ∀ v, Fresh l s v
  dequeuing : ∀ v, s.dequeuing v = none
  dqs : s.dqs = Dqs.empty
  call : ∀ c, s.call c = .idle
  cur : ∀ u, s.cur u = none
  mark : ∀ c v, s.mark c v = .unset

end Model

/-! ## The queues of nodes -/

section Queues

variable {Cpu V : Type} {dqs : Dqs Cpu (V × Cpu)} {cpu cpu' : Cpu} {u u' : V}

/-- The queues are well formed, and the node `ipi_nodes[cpu]` of a vcpu is in no queue but
that of `cpu`. -/
def Filed (dqs : Dqs Cpu (V × Cpu)) : Prop :=
  ∃ contents, Holds dqs contents ∧ ∀ q n, n ∈ contents q → n.2 = q

variable [DecidableEq Cpu] [DecidableEq V]

/-- The node of `u` is in the queue of `cpu`. -/
def Queued (dqs : Dqs Cpu (V × Cpu)) (cpu : Cpu) (u : V) : Prop := dqs.isQueued cpu (u, cpu) = true

theorem queued_iff {contents : Cpu → List (V × Cpu)} (holds : Holds dqs contents)
    (own : ∀ q n, n ∈ contents q → n.2 = q) : Queued dqs cpu u ↔ (u, cpu) ∈ contents cpu := by
  apply holds.isQueued_iff
  intro q other inside
  exact other (own q _ inside).symm

/-- An operation on the queue of one CPU, which leaves the list `mine` there. -/
theorem Filed.update {dqs' : Dqs Cpu (V × Cpu)} {contents : Cpu → List (V × Cpu)}
    {mine : List (V × Cpu)} (holds : Holds dqs contents) (own : ∀ q n, n ∈ contents q → n.2 = q)
    (holds' : Holds dqs' (Function.update contents cpu mine)) (own' : ∀ n ∈ mine, n.2 = cpu) :
    Filed dqs' ∧ ∀ cpu' u', Queued dqs' cpu' u' ↔
      cpu' = cpu ∧ (u', cpu) ∈ mine ∨ cpu' ≠ cpu ∧ Queued dqs cpu' u' := by
  have all : ∀ q n, n ∈ Function.update contents cpu mine q → n.2 = q := by
    intro q n inside
    rcases mem_update.mp inside with ⟨rfl, here⟩ | ⟨-, there⟩
    · exact own' n here
    · exact own q n there
  refine ⟨⟨_, holds', all⟩, fun cpu' u' => ?_⟩
  rw [queued_iff holds' all, queued_iff holds own, mem_update]
  apply or_congr_left
  apply and_congr_right
  rintro rfl
  rfl

theorem Filed.pushback (filed : Filed dqs) (free : ¬ Queued dqs cpu u) :
    Filed (dqs.pushback cpu (u, cpu)) ∧ ∀ cpu' u', Queued (dqs.pushback cpu (u, cpu)) cpu' u' ↔
      Queued dqs cpu' u' ∨ cpu' = cpu ∧ u' = u := by
  obtain ⟨contents, holds, own⟩ := filed
  rw [queued_iff holds own] at free
  have outside : ∀ q, (u, cpu) ∉ contents q := by
    intro q inside
    obtain rfl : cpu = q := own q _ inside
    exact free inside
  obtain ⟨filed', queued'⟩ := Filed.update holds own (holds.pushback (q := cpu) outside) (by
    intro n inside
    rcases List.mem_append.mp inside with old | new
    · exact own cpu n old
    · rw [List.mem_singleton.mp new])
  refine ⟨filed', fun cpu' u' => ?_⟩
  rw [queued', queued_iff holds own]
  by_cases same : cpu' = cpu
  · subst same
    simp
  · simp [same]

theorem Filed.dequeue (filed : Filed dqs) (queued : Queued dqs cpu u) :
    Filed (dqs.dequeue cpu (u, cpu)) ∧ ∀ cpu' u', Queued (dqs.dequeue cpu (u, cpu)) cpu' u' ↔
      Queued dqs cpu' u' ∧ ¬ (cpu' = cpu ∧ u' = u) := by
  obtain ⟨contents, holds, own⟩ := filed
  rw [queued_iff holds own] at queued
  obtain ⟨filed', queued'⟩ := Filed.update holds own (holds.dequeue queued)
    fun n inside => own cpu n (List.mem_of_mem_filter inside)
  refine ⟨filed', fun cpu' u' => ?_⟩
  rw [queued', queued_iff holds own]
  by_cases same : cpu' = cpu
  · subst same
    simp
  · simp [same]

theorem Filed.clear [Fintype Cpu] [Fintype V] (filed : Filed dqs) (cpu : Cpu) :
    Filed (dqs.clear cpu) ∧ ∀ cpu' u', Queued (dqs.clear cpu) cpu' u' ↔
      Queued dqs cpu' u' ∧ cpu' ≠ cpu := by
  obtain ⟨contents, holds, own⟩ := filed
  obtain ⟨filed', queued'⟩ := Filed.update holds own (holds.clear (q := cpu)) nofun
  refine ⟨filed', fun cpu' u' => ?_⟩
  rw [queued']
  simp only [List.not_mem_nil, and_false, false_or]
  exact and_comm

end Queues

/-! ## The invariant -/

section Invariant

variable {P Cpu V C : Type} {l : Layout P Cpu V C} {s t : Sys P Cpu V C}

/-- A vcpu is `VRUNNING` on its way in and out of the guest, and only the current vcpu of a
CPU is on such a way. -/
structure Seats (l : Layout P Cpu V C) (s : Sys P Cpu V C) : Prop where
  running : ∀ v, s.state v = .running ↔ (s.mode v).isRunning = true
  seated : ∀ v, s.mode v ≠ .host → s.current (l.home v) = some v

/-- The flags: whoever is flagged has its flag set until it enters, and a vcpu that runs
with its flag set has been sent an IPI. -/
structure Marks (l : Layout P Cpu V C) (s : Sys P Cpu V C) : Prop where
  within : ∀ c v, s.mark c v = .within → (s.mode v).inside = true ∧ s.tlbFlushPending v = true
  outside : ∀ c v, s.mark c v = .outside → (s.mode v).inside = false ∧ s.tlbFlushPending v = true
  sent : ∀ v, (s.mode v).inside = true → s.tlbFlushPending v = true → s.ipi (l.home v) = true

variable [DecidableEq Cpu] [DecidableEq V]

/-- The call is marked to wait for `v`, and its node is still queued. -/
def Awaits (l : Layout P Cpu V C) (s : Sys P Cpu V C) (c : C) (v : V) : Prop :=
  s.waitForMap (l.caller c) (l.home v) = true ∧ Queued s.dqs (l.home v) (l.caller c)

/-- What a call owes a vcpu that is still `within`. -/
def Owes (l : Layout P Cpu V C) (s : Sys P Cpu V C) (c : C) (v : V) : Phase Cpu V → Prop
  | .passing _ => Awaits l s c v
  | .waiting todo => Awaits l s c v ∧ l.home v ∈ todo
  | .dropped => True
  | _ => False

/-- The vcpus a call has still to flag. -/
def Phase.todo (l : Layout P Cpu V C) (c : C) : Phase Cpu V → List V
  | .passing todo => todo
  | .waiting _ | .returned => []
  | _ => l.vcpus c

structure Calls (l : Layout P Cpu V C) (s : Sys P Cpu V C) : Prop where
  filed : Filed s.dqs
  owner : ∀ u c, s.cur u = some c → l.caller c = u
  one : OneCall l.caller (fun c => (s.call c).isActive = true) s.cur
  stopped : ∀ v, s.dequeuing v ≠ none → s.cur v = none
  owes : ∀ c v, s.mark c v = .within → Owes l s c v (s.call c)
  flagged : ∀ c, ∀ v ∈ l.vcpus c, v ∉ (s.call c).todo l c → s.mark c v ≠ .unset

structure Inv (l : Layout P Cpu V C) (s : Sys P Cpu V C) : Prop where
  life : Lifecycle.Orderly l.life s.life
  seats : Seats l s
  marks : Marks l s
  calls : Calls l s

theorem Inv.initial (initial : Initial l s) : Inv l s where
  life := (Lifecycle.Inv.initial initial.life).orderly
  seats := by
    refine ⟨fun v => ?_, fun v away => ?_⟩
    · rcases initial.fresh v with ⟨mode, state⟩ | ⟨mode, state, -⟩ <;>
        simp [mode, state, Mode.isRunning]
    · rcases initial.fresh v with ⟨mode, -⟩ | ⟨-, -, current, -⟩
      · exact absurd mode away
      · exact current
  marks := by
    refine ⟨fun c v here => ?_, fun c v here => ?_, fun v inside pending => ?_⟩
    · simp [initial.mark c v] at here
    · simp [initial.mark c v] at here
    · rcases initial.fresh v with ⟨mode, -⟩ | ⟨-, -, -, quiet⟩
      · simp [mode, Mode.inside] at inside
      · simp [quiet] at pending
  calls := by
    refine ⟨⟨fun _ => [], ?_, by simp⟩, ?_, fun c busy => ?_, fun v busy => ?_, fun c v here => ?_,
      fun c v member left => ?_⟩
    · rw [initial.dqs]
      exact holds_empty
    · intro u c here
      simp [initial.cur u] at here
    · simp [initial.call c, Phase.isActive] at busy
    · exact absurd (initial.dequeuing v) busy
    · simp [initial.mark c v] at here
    · simp [initial.call c, Phase.todo, member] at left

/-! ## Vcpus in the hypervisor -/

variable {v : V} {life : Lifecycle.Sys P Cpu V}

omit [DecidableEq Cpu] [DecidableEq V] in
/-- A step of the lifecycle that takes nobody into the guest or out of it. -/
theorem Seats.live (seats : Seats l s) (running : ∀ w, life.state w = .running ↔ s.state w = .running) :
    Seats l { s with life := life } where
  running := fun w => (running w).trans (seats.running w)
  seated := seats.seated

omit [DecidableEq V] in
/-- A vcpu in the hypervisor gives its CPU up. -/
theorem Seats.vacate (seats : Seats l s) (host : s.mode v = .host)
    (here : s.current (l.home v) = some v) : Seats l (s.setCurrent (l.home v) none) where
  running := seats.running
  seated := fun w away => by
    have mine := seats.seated w away
    by_cases same : l.home w = l.home v
    · rw [same, here] at mine
      cases mine
      exact absurd host away
    · simpa [Sys.setCurrent, same] using mine

omit [DecidableEq V] in
/-- Whoever a free CPU takes. -/
theorem Seats.seat {cpu : Cpu} {next : Option V} (seats : Seats l s) (free : s.current cpu = none) :
    Seats l (s.setCurrent cpu next) where
  running := seats.running
  seated := fun w away => by
    have mine := seats.seated w away
    by_cases same : l.home w = cpu
    · rw [same, free] at mine
      cases mine
    · simpa [Sys.setCurrent, same] using mine

/-- Nothing the calls depend on changes. -/
theorem Calls.frame (calls : Calls l s) (dqs : t.dqs = s.dqs) (map : t.waitForMap = s.waitForMap)
    (call : t.call = s.call) (cur : t.cur = s.cur) (dequeuing : t.dequeuing = s.dequeuing)
    (mark : t.mark = s.mark) : Calls l t := by
  obtain ⟨filed, owner, one, stopped, owes, flagged⟩ := calls
  obtain ⟨_, _, _, _, _, _, _, _, _, _, _⟩ := s
  obtain ⟨_, _, _, _, _, _, _, _, _, _, _⟩ := t
  cases dqs
  cases map
  cases call
  cases cur
  cases dequeuing
  cases mark
  exact ⟨filed, owner, one, stopped, owes, flagged⟩

omit [DecidableEq Cpu] [DecidableEq V] in
/-- Nothing the flags depend on changes. -/
theorem Marks.frame (marks : Marks l s) (mode : t.mode = s.mode)
    (pending : t.tlbFlushPending = s.tlbFlushPending)
    (ipi : ∀ cpu, s.ipi cpu = true → t.ipi cpu = true) (mark : t.mark = s.mark) : Marks l t where
  within := by
    rw [mode, pending, mark]
    exact marks.within
  outside := by
    rw [mode, pending, mark]
    exact marks.outside
  sent := by
    rw [mode, pending]
    exact fun v inside flag => ipi _ (marks.sent v inside flag)

theorem Awaits.mono {c : C} (awaits : Awaits l s c v)
    (map : ∀ u cpu, s.waitForMap u cpu = true → t.waitForMap u cpu = true)
    (queued : ∀ cpu, Queued s.dqs cpu (l.caller c) → Queued t.dqs cpu (l.caller c)) :
    Awaits l t c v :=
  ⟨map _ _ awaits.1, queued _ awaits.2⟩

theorem Owes.mono {c : C} {phase : Phase Cpu V} (owes : Owes l s c v phase)
    (awaits : phase.isActive = true → Awaits l s c v → Awaits l t c v) : Owes l t c v phase := by
  cases phase with
  | passing todo => exact awaits rfl owes
  | waiting todo => exact ⟨awaits rfl owes.1, owes.2⟩
  | dropped => trivial
  | idle | returned | refused => exact owes

/-- A call that has not started is marked nowhere as `within`. -/
theorem Inv.idle {c : C} (inv : Inv l s) (idle : s.call c = .idle) (v : V) : s.mark c v ≠ .within := by
  intro within
  have owed := inv.calls.owes c v within
  rw [idle] at owed
  exact owed

/-- A step of the lifecycle that takes nobody into the guest or out of it. -/
theorem Inv.live (inv : Inv l s) (orderly : Lifecycle.Orderly l.life life)
    (running : ∀ w, life.state w = .running ↔ s.state w = .running) :
    Inv l { s with life := life } :=
  ⟨orderly, inv.seats.live running, inv.marks.frame rfl rfl (fun _ => id) rfl,
    inv.calls.frame rfl rfl rfl rfl rfl rfl⟩

/-- The current vcpu of a CPU leaves it, in the hypervisor. -/
theorem Inv.vacate (inv : Inv l s) (host : s.mode v = .host) (here : s.current (l.home v) = some v) :
    Inv l (s.setCurrent (l.home v) none) :=
  ⟨inv.life, inv.seats.vacate host here, inv.marks.frame rfl rfl (fun _ => id) rfl,
    inv.calls.frame rfl rfl rfl rfl rfl rfl⟩

theorem Inv.seat {cpu : Cpu} {next : Option V} (inv : Inv l s) (free : s.current cpu = none) :
    Inv l (s.setCurrent cpu next) :=
  ⟨inv.life, inv.seats.seat free, inv.marks.frame rfl rfl (fun _ => id) rfl,
    inv.calls.frame rfl rfl rfl rfl rfl rfl⟩

end Invariant

end Twan.Vemulate.TlbInvalidate
