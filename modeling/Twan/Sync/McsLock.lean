/-
# Twan.Sync.McsLock -- the MCS lock, one atomic step at a time

`src/subsys/sync/mcslock.c`, `__mcs_lock` and `__mcs_unlock`.  Every acquisition
uses a node of its own, initialised by `INITIALIZE_MCSNODE`; a step is one atomic
access of the code (an exchange, a store, a load, a compare-exchange) together
with the local work up to the next one.  A CPU executes one call at a time
(`cur`), and the steps of different CPUs interleave freely.

The lock refines `Twan.Base.QueueLock` (`step_refines`): the exchange of `tail`
is joining, the store to `prev->next` is linking, the store of `MCS_UNLOCKED` is
the grant.  `mcs_lock_safety` is what follows for every run.
-/
import Twan.Base.QueueLock
import Twan.Base.Run

namespace Twan.Sync

set_option autoImplicit false

open Twan.Base

/-- `MCS_LOCKED`, `MCS_UNLOCKED` and, for the paravirtual lock, `MCS_PAUSED`. -/
inductive McsState where
  | locked
  | unlocked
  | paused
  deriving DecidableEq, Repr

namespace McsLock

/-- The fields of `struct mcsnode` that the plain lock uses. -/
structure McsNode (Node : Type) where
  next : Option Node
  state : McsState

/-- The value of `INITIALIZE_MCSNODE()`. -/
def McsNode.unused {Node : Type} : McsNode Node := ⟨none, .locked⟩

/-- Where the acquisition that uses a node is in `__mcs_lock` and `__mcs_unlock`. -/
inductive Pc (Node : Type) where
  | fresh
  /-- `tail` exchanged; `atomic_ptr_set(&prev->next, node)` is next. -/
  | setNext (prev : Node)
  /-- `spin_until(atomic32_read(&node->state) == MCS_UNLOCKED)`. -/
  | spin
  /-- `__mcs_lock` has returned. -/
  | critical
  /-- `node->next` was NULL; the compare-exchange of `tail` is next. -/
  | cmpxchg
  /-- `spin_until(next = atomic_ptr_read(&node->next))`. -/
  | spinNext
  /-- `atomic32_set(&next->state, MCS_UNLOCKED)` is next. -/
  | setState (next : Node)
  /-- `__mcs_unlock` has returned. -/
  | done
  deriving DecidableEq

/-- One lock, its nodes, what each CPU executes, and two histories: the order of
the exchanges on `tail` and the order in which `__mcs_lock` returned. -/
structure Sys (Cpu Node : Type) where
  tail : Option Node
  node : Node → McsNode Node
  pc : Node → Pc Node
  cur : Cpu → Option Node
  exchanged : List Node
  acquired : List Node

inductive Action (Node : Type) where
  | xchgTail (n : Node)
  | setNext (n : Node)
  | readState (n : Node)
  | readNext (n : Node)
  | cmpxchgTail (n : Node)
  | rereadNext (n : Node)
  | setState (n : Node)

section Model

variable {Cpu Node : Type} [DecidableEq Cpu] [DecidableEq Node] (cpu : Node → Cpu)

def Sys.initial : Sys Cpu Node :=
  ⟨none, fun _ => .unused, fun _ => .fresh, fun _ => none, [], []⟩

def Sys.goto (s : Sys Cpu Node) (n : Node) (pc : Pc Node) : Sys Cpu Node :=
  { s with pc := Function.update s.pc n pc }

/-- The CPU of `n` is inside the call that uses `n`, or out of it. -/
def Sys.setCur (s : Sys Cpu Node) (n : Node) (c : Option Node) : Sys Cpu Node :=
  { s with cur := Function.update s.cur (cpu n) c }

def Sys.acquire (s : Sys Cpu Node) (n : Node) : Sys Cpu Node :=
  { (s.goto n .critical).setCur cpu n none with acquired := s.acquired ++ [n] }

/-- One atomic step; `none` when the acquisition is not at that step. -/
def step (s : Sys Cpu Node) : Action Node → Option (Sys Cpu Node)
  -- prev = atomic_ptr_xchg(&lock->tail, node)
  | .xchgTail n =>
      if s.pc n = .fresh ∧ s.cur (cpu n) = none then
        let s' := { s with tail := some n, exchanged := s.exchanged ++ [n] }
        match s.tail with
        | none => some (s'.acquire cpu n)
        | some prev => some ((s'.goto n (.setNext prev)).setCur cpu n (some n))
      else none
  | .setNext n =>
      match s.pc n with
      | .setNext prev =>
          let node := Function.update s.node prev { s.node prev with next := some n }
          some ({ s with node }.goto n .spin)
      | _ => none
  | .readState n =>
      if s.pc n = .spin then
        if (s.node n).state = .unlocked then some (s.acquire cpu n) else some s
      else none
  -- next = atomic_ptr_read(&node->next), the first access of __mcs_unlock
  | .readNext n =>
      if s.pc n = .critical ∧ s.cur (cpu n) = none then
        match (s.node n).next with
        | none => some ((s.goto n .cmpxchg).setCur cpu n (some n))
        | some next => some ((s.goto n (.setState next)).setCur cpu n (some n))
      else none
  | .cmpxchgTail n =>
      if s.pc n = .cmpxchg then
        if s.tail = some n then some (({ s with tail := none }.goto n .done).setCur cpu n none)
        else some (s.goto n .spinNext)
      else none
  | .rereadNext n =>
      if s.pc n = .spinNext then
        match (s.node n).next with
        | none => some s
        | some next => some (s.goto n (.setState next))
      else none
  | .setState n =>
      match s.pc n with
      | .setState next =>
          let node := Function.update s.node next { s.node next with state := .unlocked }
          some (({ s with node }.goto n .done).setCur cpu n none)
      | _ => none

/-- The nodes whose fields an atomic step reads or writes. -/
def touched (s : Sys Cpu Node) : Action Node → List Node
  | .xchgTail _ | .cmpxchgTail _ => []
  | .setNext n => match s.pc n with | .setNext prev => [prev] | _ => []
  | .readState n | .readNext n | .rereadNext n => [n]
  | .setState n => match s.pc n with | .setState next => [next] | _ => []

/-- The CPU is between the return of `__mcs_lock` and the return of `__mcs_unlock`. -/
def Pc.Holding : Pc Node → Prop
  | .critical | .cmpxchg | .spinNext | .setState _ => True
  | _ => False

end Model

/-! ## Refinement of the queue lock -/

section Refinement

variable {Cpu Node : Type}

def Pc.phase : Pc Node → QueueLock.Phase Node
  | .fresh => .fresh
  | .setNext prev => .joining prev
  | .spin => .waiting
  | .critical => .holding
  | .cmpxchg => .closing
  | .spinNext => .draining
  | .setState next => .passing next
  | .done => .gone

/-- The queue lock that a state of the MCS lock implements. -/
def Sys.view (s : Sys Cpu Node) : QueueLock.State Node where
  tail := s.tail
  next n := (s.node n).next
  granted n := decide ((s.node n).state = .unlocked)
  phase n := (s.pc n).phase
  joined := s.exchanged
  entered := s.acquired

theorem holding_iff_active (pc : Pc Node) : pc.Holding ↔ pc.phase.Active := by
  cases pc <;> simp [Pc.Holding, Pc.phase, QueueLock.Phase.Active]

@[simp] theorem phase_eq_gone {pc : Pc Node} : pc.phase = .gone ↔ pc = .done := by
  cases pc <;> simp [Pc.phase]

variable [DecidableEq Node]

theorem view_goto (s : Sys Cpu Node) (n : Node) (pc : Pc Node) :
    (s.goto n pc).view = s.view.setPhase n pc.phase := by
  have phases : (fun m => (Function.update s.pc n pc m).phase) =
      Function.update (fun m => (s.pc m).phase) n pc.phase := by
    funext m
    exact Function.apply_update (fun _ => Pc.phase) s.pc n pc m
  exact congrArg (fun phase => { s.view with phase }) phases

/-- Storing into one node's `next` field is one update of the links. -/
theorem view_store_next (s : Sys Cpu Node) (p n : Node) :
    ({ s with node := Function.update s.node p { s.node p with next := some n } }.view) =
      { s.view with next := Function.update s.view.next p (some n) } := by
  simp only [Sys.view, QueueLock.State.mk.injEq, true_and, and_true]
  constructor <;> funext m <;> by_cases same : m = p <;> simp [same]

/-- Storing `MCS_UNLOCKED` into one node's `state` field is one grant. -/
theorem view_store_unlocked (s : Sys Cpu Node) (x : Node) :
    ({ s with node := Function.update s.node x { s.node x with state := .unlocked } }.view) =
      { s.view with granted := Function.update s.view.granted x true } := by
  simp only [Sys.view, QueueLock.State.mk.injEq, true_and, and_true]
  constructor <;> funext m <;> by_cases same : m = x <;> simp [same]

variable [DecidableEq Cpu] (cpu : Node → Cpu)

omit [DecidableEq Node] in
theorem view_setCur (s : Sys Cpu Node) (n : Node) (c : Option Node) :
    (s.setCur cpu n c).view = s.view := rfl

theorem view_acquire (s : Sys Cpu Node) (n : Node) : (s.acquire cpu n).view =
    { s.view.setPhase n .holding with entered := s.acquired ++ [n] } := by
  have moved : (s.goto n .critical).view = s.view.setPhase n .holding := view_goto s n .critical
  rw [← moved]
  rfl

/-- Every atomic step of the lock is a step of the queue lock, or a spin that
changes nothing. -/
theorem step_refines {s t : Sys Cpu Node} {a : Action Node} (moved : step cpu s a = some t) :
    QueueLock.Step s.view t.view ∨ t.view = s.view := by
  cases a with
  | xchgTail n =>
      simp only [step] at moved
      split at moved
      case isFalse => cases moved
      rename_i ready
      have new : s.view.phase n = .fresh := by simp [Sys.view, ready.1, Pc.phase]
      split at moved <;> cases moved <;> rename_i tail <;> left
      · rw [view_acquire]
        exact QueueLock.Step.joinFree (s := s.view) n new tail
      · rw [view_setCur, view_goto]
        exact QueueLock.Step.joinBehind (s := s.view) n _ new tail
  | setNext n =>
      simp only [step] at moved
      split at moved <;> cases moved
      rename_i prev at_
      have joining : s.view.phase n = .joining prev := by simp [Sys.view, at_, Pc.phase]
      left
      rw [view_goto, view_store_next]
      exact QueueLock.Step.link n prev joining
  | readState n =>
      simp only [step] at moved
      split at moved
      case isFalse => cases moved
      rename_i spinning
      split at moved <;> cases moved
      · rename_i unlocked
        left
        rw [view_acquire]
        exact QueueLock.Step.enter n (by simp [Sys.view, spinning, Pc.phase])
          (by simp [Sys.view, unlocked])
      · exact .inr rfl
  | readNext n =>
      simp only [step] at moved
      split at moved
      case isFalse => cases moved
      rename_i ready
      have holding : s.view.phase n = .holding := by simp [Sys.view, ready.1, Pc.phase]
      split at moved <;> cases moved <;> rename_i next <;> left <;> rw [view_setCur, view_goto]
      · exact QueueLock.Step.leaveUnlinked n holding next
      · exact QueueLock.Step.leaveLinked n _ holding next
  | cmpxchgTail n =>
      simp only [step] at moved
      split at moved
      case isFalse => cases moved
      rename_i ready
      have closing : s.view.phase n = .closing := by simp [Sys.view, ready, Pc.phase]
      split at moved <;> cases moved <;> rename_i tail <;> left
      · rw [view_setCur, view_goto]
        exact QueueLock.Step.close n closing tail
      · rw [view_goto]
        exact QueueLock.Step.contend n closing tail
  | rereadNext n =>
      simp only [step] at moved
      split at moved
      case isFalse => cases moved
      rename_i ready
      split at moved <;> cases moved <;> rename_i next
      · exact .inr rfl
      · left
        rw [view_goto]
        exact QueueLock.Step.drain n _ (by simp [Sys.view, ready, Pc.phase]) next
  | setState n =>
      simp only [step] at moved
      split at moved <;> cases moved
      rename_i next at_
      have passing : s.view.phase n = .passing next := by simp [Sys.view, at_, Pc.phase]
      left
      rw [view_setCur, view_goto, view_store_unlocked]
      exact QueueLock.Step.pass n next passing

end Refinement

/-! ## One call at a time on each CPU -/

section Sequential

variable {Cpu Node : Type}

/-- The acquisition is inside `__mcs_lock` or `__mcs_unlock`. -/
def Pc.InCall : Pc Node → Prop
  | .fresh | .critical | .done => False
  | _ => True

/-- A call in progress is the one its CPU executes. -/
def Sequential (cpu : Node → Cpu) (s : Sys Cpu Node) : Prop :=
  OneCall cpu (fun n => (s.pc n).InCall) s.cur

variable [DecidableEq Cpu] [DecidableEq Node] {cpu : Node → Cpu} {s t : Sys Cpu Node}

theorem Sequential.move (seq : Sequential cpu s) {n : Node} {pc : Pc Node} {c : Option Node}
    (ready : s.cur (cpu n) = none ∨ s.cur (cpu n) = some n)
    (pcs : t.pc = Function.update s.pc n pc) (curs : t.cur = Function.update s.cur (cpu n) c)
    (own : pc.InCall → c = some n) : Sequential cpu t := by
  unfold Sequential
  rw [curs, pcs]
  refine OneCall.move seq ready (fun m other busy => ?_) (by simpa using own)
  simpa [other] using busy

theorem step_sequential {a : Action Node} (seq : Sequential cpu s) (moved : step cpu s a = some t) :
    Sequential cpu t := by
  cases a with
  | xchgTail n =>
      simp only [step] at moved
      split at moved
      case isFalse => cases moved
      rename_i ready
      split at moved <;> cases moved
      · exact seq.move (.inl ready.2) rfl rfl (by simp [Pc.InCall])
      · exact seq.move (.inl ready.2) rfl rfl (by simp)
  | setNext n =>
      simp only [step] at moved
      split at moved <;> cases moved
      rename_i prev at_
      have mine := seq n (by simp [at_, Pc.InCall])
      exact seq.move (.inr mine) rfl (Function.update_eq_self (cpu n) s.cur).symm (fun _ => mine)
  | readState n =>
      simp only [step] at moved
      split at moved
      case isFalse => cases moved
      rename_i spinning
      have mine := seq n (by simp [spinning, Pc.InCall])
      split at moved <;> cases moved
      · exact seq.move (.inr mine) rfl rfl (by simp [Pc.InCall])
      · exact seq
  | readNext n =>
      simp only [step] at moved
      split at moved
      case isFalse => cases moved
      rename_i ready
      split at moved <;> cases moved <;> exact seq.move (.inl ready.2) rfl rfl (by simp)
  | cmpxchgTail n =>
      simp only [step] at moved
      split at moved
      case isFalse => cases moved
      rename_i ready
      have mine := seq n (by simp [ready, Pc.InCall])
      split at moved <;> cases moved
      · exact seq.move (.inr mine) rfl rfl (by simp [Pc.InCall])
      · exact seq.move (.inr mine) rfl (Function.update_eq_self (cpu n) s.cur).symm (fun _ => mine)
  | rereadNext n =>
      simp only [step] at moved
      split at moved
      case isFalse => cases moved
      rename_i ready
      have mine := seq n (by simp [ready, Pc.InCall])
      split at moved <;> cases moved
      · exact seq
      · exact seq.move (.inr mine) rfl (Function.update_eq_self (cpu n) s.cur).symm (fun _ => mine)
  | setState n =>
      simp only [step] at moved
      split at moved <;> cases moved
      rename_i next at_
      have mine := seq n (by simp [at_, Pc.InCall])
      exact seq.move (.inr mine) rfl rfl (by simp [Pc.InCall])

end Sequential

/-! ## Safety of every run -/

section Safety

set_option linter.unusedSectionVars false

variable {Cpu Node : Type} [DecidableEq Cpu] [DecidableEq Node] {cpu : Node → Cpu}
  {s t : Sys Cpu Node}

/-- What every reachable state satisfies. -/
structure Good (cpu : Node → Cpu) (s : Sys Cpu Node) : Prop where
  queue : ∃ old queue, QueueLock.Inv s.view old queue
  sequential : Sequential cpu s

theorem good_initial : Good cpu (Sys.initial : Sys Cpu Node) :=
  ⟨⟨[], [], QueueLock.inv_initial⟩, fun _ busy => busy.elim⟩

theorem step_good {a : Action Node} (good : Good cpu s) (moved : step cpu s a = some t) :
    Good cpu t := by
  refine ⟨?_, step_sequential good.sequential moved⟩
  obtain ⟨old, queue, inv⟩ := good.queue
  rcases step_refines cpu moved with taken | same
  · exact QueueLock.inv_step inv taken
  · exact ⟨old, queue, same ▸ inv⟩

theorem exec_good {run : List (Action Node)} (ran : exec (step cpu) .initial run = some s) :
    Good cpu s :=
  exec_invariant (fun _ _ _ good moved => step_good good moved) good_initial ran

/-- A waiting successor is inside `__mcs_lock`. -/
theorem inCall_of_queued {pc : Pc Node}
    (queued : (∃ p, pc.phase = .joining p) ∨ pc.phase = .waiting) : pc.InCall := by
  cases pc <;> simp_all [Pc.phase, Pc.InCall]

/-- A node that a step touches belongs to an acquisition that has not finished. -/
theorem touched_live {a : Action Node} (good : Good cpu s) (moved : step cpu s a = some t)
    {m : Node} (touch : m ∈ touched s a) : s.pc m ≠ .done := by
  obtain ⟨old, queue, inv⟩ := good.queue
  cases a with
  | xchgTail n | cmpxchgTail n => simp [touched] at touch
  | setNext n =>
      simp only [touched] at touch
      split at touch
      · rename_i prev at_
        rw [List.mem_singleton] at touch
        subst touch
        have live := inv.joining_not_gone (n := n) (p := m) (by simp [Sys.view, at_, Pc.phase])
        exact fun finished => live (phase_eq_gone.mpr finished)
      · simp at touch
  | readState n | readNext n | rereadNext n =>
      simp only [touched, List.mem_singleton] at touch
      subst touch
      intro finished
      simp [step, finished] at moved
  | setState n =>
      simp only [touched] at touch
      split at touch
      · rename_i next at_
        rw [List.mem_singleton] at touch
        subst touch
        have waiting := inv.passing_waiting (n := n) (x := m) (by simp [Sys.view, at_, Pc.phase])
        intro finished
        simp [Sys.view, finished, Pc.phase] at waiting
      · simp at touch

/-- **The MCS lock is safe in every run**: at most one acquisition, hence at most
one CPU, is between the return of its lock and the end of its unlock; locks
return in the order of the exchanges on `tail`; an unlocker waits for its `next`
only when another CPU has exchanged its node into `tail` right after it; and no
step touches a node whose owner has finished its unlock. -/
theorem mcs_lock_safety {run : List (Action Node)}
    (ran : exec (step cpu) .initial run = some s) :
    (∀ m n, (s.pc m).Holding → (s.pc n).Holding → m = n ∧ cpu m = cpu n) ∧
    s.acquired <+: s.exchanged ∧
    (∀ n, s.pc n = .spinNext → ∃ before m after, s.exchanged = before ++ n :: m :: after ∧
      cpu m ≠ cpu n) ∧
    (∀ a t, step cpu s a = some t → ∀ m ∈ touched s a, s.pc m ≠ .done) := by
  have good := exec_good ran
  obtain ⟨old, queue, inv⟩ := good.queue
  refine ⟨fun m n holdsM holdsN => ?_, inv.entered_in_order, fun n draining => ?_,
    fun a t moved m touch => touched_live good moved touch⟩
  · have same := inv.active_unique (m := m) (n := n) ((holding_iff_active _).mp holdsM)
      ((holding_iff_active _).mp holdsN)
    exact ⟨same, by rw [same]⟩
  · obtain ⟨m, after, order, queued⟩ :=
      inv.draining_behind (n := n) (by simp [Sys.view, draining, Pc.phase])
    refine ⟨old, m, after, order, fun onSame => ?_⟩
    have same : m = n := good.sequential.unique (inCall_of_queued queued)
      (by simp [draining, Pc.InCall]) onSame
    subst same
    simp [Sys.view, draining, Pc.phase] at queued

/-- Two CPUs, the second queued behind the first while the first unlocks. -/
theorem mcs_lock_safety_contended :
    ∃ s : Sys Nat Nat, exec (step id) .initial
        [.xchgTail 0, .readNext 0, .xchgTail 1, .cmpxchgTail 0] = some s ∧
      s.pc 0 = .spinNext ∧ s.acquired <+: s.exchanged := by
  refine ⟨_, rfl, by decide, ?_⟩
  have ran : exec (step (id : Nat → Nat)) .initial
      [.xchgTail 0, .readNext 0, .xchgTail 1, .cmpxchgTail 0] = some _ := rfl
  exact (mcs_lock_safety ran).2.1

end Safety

/-! ## Progress -/

section Progress

set_option linter.unusedSectionVars false

variable {Cpu Node : Type} [DecidableEq Cpu] [DecidableEq Node] {cpu : Node → Cpu}
  {s t : Sys Cpu Node} {a : Action Node}

def Action.node : Action Node → Node
  | .xchgTail n | .setNext n | .readState n | .readNext n | .cmpxchgTail n | .rereadNext n
  | .setState n => n

/-- What a step does to where its acquisition is and to what its CPU executes. -/
theorem step_pc (moved : step cpu s a = some t) :
    (t.pc = s.pc ∧ t.cur = s.cur) ∨
    ∃ pc, t.pc = Function.update s.pc a.node pc ∧
      (t.cur = Function.update s.cur (cpu a.node) none ∧ ¬ pc.InCall ∨
        t.cur = Function.update s.cur (cpu a.node) (some a.node) ∧ pc.InCall ∨
        t.cur = s.cur ∧ (s.pc a.node).InCall ∧ pc.InCall) := by
  cases a with
  | xchgTail n =>
      simp only [step] at moved
      split at moved
      case isFalse => cases moved
      split at moved <;> cases moved
      · exact .inr ⟨.critical, rfl, .inl ⟨rfl, id⟩⟩
      · exact .inr ⟨_, rfl, .inr (.inl ⟨rfl, trivial⟩)⟩
  | setNext n =>
      simp only [step] at moved
      split at moved <;> cases moved
      rename_i prev joining
      exact .inr ⟨.spin, rfl, .inr (.inr ⟨rfl, by rw [Action.node, joining]; trivial, trivial⟩)⟩
  | readState n =>
      simp only [step] at moved
      split at moved
      case isFalse => cases moved
      split at moved <;> cases moved
      · exact .inr ⟨.critical, rfl, .inl ⟨rfl, id⟩⟩
      · exact .inl ⟨rfl, rfl⟩
  | readNext n =>
      simp only [step] at moved
      split at moved
      case isFalse => cases moved
      split at moved <;> cases moved <;> exact .inr ⟨_, rfl, .inr (.inl ⟨rfl, trivial⟩)⟩
  | cmpxchgTail n =>
      simp only [step] at moved
      split at moved
      case isFalse => cases moved
      rename_i closing
      split at moved <;> cases moved
      · exact .inr ⟨.done, rfl, .inl ⟨rfl, id⟩⟩
      · exact .inr ⟨.spinNext, rfl, .inr (.inr ⟨rfl, by rw [Action.node, closing]; trivial, trivial⟩)⟩
  | rereadNext n =>
      simp only [step] at moved
      split at moved
      case isFalse => cases moved
      rename_i draining
      split at moved <;> cases moved
      · exact .inl ⟨rfl, rfl⟩
      · exact .inr ⟨_, rfl, .inr (.inr ⟨rfl, by rw [Action.node, draining]; trivial, trivial⟩)⟩
  | setState n =>
      simp only [step] at moved
      split at moved <;> cases moved
      exact .inr ⟨.done, rfl, .inl ⟨rfl, id⟩⟩

/-- A step moves its own acquisition only. -/
theorem step_frame {m : Node} (other : m ≠ a.node) (moved : step cpu s a = some t) :
    t.pc m = s.pc m := by
  rcases step_pc moved with ⟨same, _⟩ | ⟨pc, same, _⟩
  · rw [same]
  · rw [same, Function.update_of_ne other]

/-- An access of `__mcs_lock`, at the place where the acquisition is. -/
inductive LockAccess (n : Node) : Pc Node → Action Node → Prop where
  | xchgTail : LockAccess n .fresh (.xchgTail n)
  | setNext {prev : Node} : LockAccess n (.setNext prev) (.setNext n)
  | readState : LockAccess n .spin (.readState n)

/-- An access of `__mcs_unlock`, at the place where the acquisition is. -/
inductive UnlockAccess (n : Node) : Pc Node → Action Node → Prop where
  | readNext : UnlockAccess n .critical (.readNext n)
  | cmpxchgTail : UnlockAccess n .cmpxchg (.cmpxchgTail n)
  | rereadNext : UnlockAccess n .spinNext (.rereadNext n)
  | setState {next : Node} : UnlockAccess n (.setState next) (.setState n)

theorem LockAccess.pc {n : Node} (access : LockAccess n (s.pc n) a)
    (moved : step cpu s a = some t) :
    t.pc n = .critical ∨ (∃ prev, t.pc n = .setNext prev) ∨ t.pc n = .spin := by
  generalize place : s.pc n = pc at access
  cases access with
  | xchgTail =>
      simp only [step] at moved
      split at moved
      case isFalse => cases moved
      split at moved <;> cases moved
      · exact .inl (Function.update_self _ _ _)
      · exact .inr (.inl ⟨_, Function.update_self _ _ _⟩)
  | setNext =>
      simp only [step, place] at moved
      cases moved
      exact .inr (.inr (Function.update_self _ _ _))
  | readState =>
      simp only [step, place, if_true] at moved
      split_ifs at moved <;> cases moved
      · exact .inl (Function.update_self _ _ _)
      · exact .inr (.inr place)

theorem UnlockAccess.pc {n : Node} (access : UnlockAccess n (s.pc n) a)
    (moved : step cpu s a = some t) : t.pc n = .done ∨ (t.pc n).Holding := by
  generalize place : s.pc n = pc at access
  cases access with
  | readNext =>
      simp only [step] at moved
      split at moved
      case isFalse => cases moved
      split at moved <;> cases moved <;> right <;> simp [Sys.setCur, Sys.goto, Pc.Holding]
  | cmpxchgTail =>
      simp only [step, place, if_true] at moved
      split_ifs at moved <;> cases moved
      · exact .inl (Function.update_self _ _ _)
      · right
        simp [Sys.goto, Pc.Holding]
  | rereadNext =>
      simp only [step, place, if_true] at moved
      split at moved <;> cases moved <;> right
      · rw [place]
        trivial
      · simp [Sys.goto, Pc.Holding]
  | setState =>
      simp only [step, place] at moved
      cases moved
      exact .inl (Function.update_self _ _ _)

/-- What a CPU executes is a call in progress. -/
def Current (cpu : Node → Cpu) (s : Sys Cpu Node) : Prop :=
  ∀ p n, s.cur p = some n → cpu n = p ∧ (s.pc n).InCall

theorem step_current (current : Current cpu s) (moved : step cpu s a = some t) :
    Current cpu t := by
  intro p n executes
  rcases step_pc moved with ⟨pcs, curs⟩ | ⟨pc, pcs, change⟩
  · rw [curs] at executes
    rw [pcs]
    exact current p n executes
  · -- another CPU than the one of the step executes another node
    have elsewhere : p ≠ cpu a.node → s.cur p = some n → cpu n = p ∧ (t.pc n).InCall := by
      intro here before
      obtain ⟨owner, inside⟩ := current p n before
      refine ⟨owner, ?_⟩
      rw [pcs, Function.update_of_ne fun same => here (by rw [← owner, same])]
      exact inside
    rcases change with ⟨curs, _⟩ | ⟨curs, inside⟩ | ⟨curs, _, inside⟩
    · rw [curs] at executes
      by_cases here : p = cpu a.node
      · subst here
        rw [Function.update_self] at executes
        cases executes
      · rw [Function.update_of_ne here] at executes
        exact elsewhere here executes
    · rw [curs] at executes
      by_cases here : p = cpu a.node
      · subst here
        rw [Function.update_self] at executes
        cases executes
        exact ⟨rfl, by rw [pcs, Function.update_self]; exact inside⟩
      · rw [Function.update_of_ne here] at executes
        exact elsewhere here executes
    · rw [curs] at executes
      obtain ⟨owner, before⟩ := current p n executes
      refine ⟨owner, ?_⟩
      rw [pcs]
      by_cases same : n = a.node
      · subst same
        rw [Function.update_self]
        exact inside
      · rw [Function.update_of_ne same]
        exact before

/-- The next access of the acquisition is not a spin that fails. -/
def Moves (s : Sys Cpu Node) (n : Node) : Prop :=
  match s.pc n with
  | .setNext _ | .cmpxchg | .setState _ => True
  | .spin => (s.node n).state = .unlocked
  | .spinNext => (s.node n).next ≠ none
  | _ => False

theorem moves_busy {n : Node} (moves : Moves s n) :
    s.pc n ≠ .fresh ∧ s.pc n ≠ .critical ∧ s.pc n ≠ .done := by
  unfold Moves at moves
  cases pc : s.pc n <;> rw [pc] at moves <;> simp_all

theorem moves_of_ready {n : Node} (ready : QueueLock.Ready s.view n) : Moves s n := by
  unfold QueueLock.Ready at ready
  unfold Moves
  cases pc : s.pc n <;> simp_all [Sys.view, Pc.phase]

/-- Where an acquisition waits, one is in its section or moves. -/
theorem progress (good : Good cpu s) {n : Node} (fresh : s.pc n ≠ .fresh) (live : s.pc n ≠ .done) :
    ∃ m, s.pc m = .critical ∨ Moves s m := by
  obtain ⟨old, queue, inv⟩ := good.queue
  have queued : n ∈ queue := by
    refine inv.queued_of_phase (fun phase => fresh ?_) fun phase => live (phase_eq_gone.mp phase)
    cases pc : s.pc n <;> simp_all [Sys.view, Pc.phase]
  obtain ⟨m, holding | ready⟩ := inv.progress queued
  · refine ⟨m, .inl ?_⟩
    cases pc : s.pc m <;> simp_all [Sys.view, Pc.phase]
  · exact ⟨m, .inr (moves_of_ready ready)⟩

/-- An unlock that waits for its successor waits for one that moves. -/
theorem progress_spinNext (good : Good cpu s) {n : Node} (spins : s.pc n = .spinNext) :
    ∃ m, Moves s m := by
  obtain ⟨old, queue, inv⟩ := good.queue
  obtain ⟨m, ready⟩ := inv.draining_ready (n := n) (by simp [Sys.view, spins, Pc.phase])
  exact ⟨m, moves_of_ready ready⟩

end Progress


end McsLock

end Twan.Sync
