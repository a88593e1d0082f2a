/-
# Twan.Sync.PvMcsLock -- the paravirtual MCS lock against the hypervisor

`__pv_mcs_lock` and `__pv_mcs_unlock` of `src/subsys/sync/mcslock.c` on a kernel
with `twanvisor_on`, together with the hypervisor's half: `vsched_put_paused` with
`pv_spin` (`src/subsys/twanvisor/vsched/vsched.c`) and `__vemu_pv_spin_kick`
(`src/subsys/twanvisor/vemulate/vemulate_utils.c`).

A waiter whose predecessor is not on a CPU moves its node from `MCS_LOCKED` to
`MCS_PAUSED` and asks the hypervisor to pause it; the unlocker that finds
`MCS_PAUSED` stores `MCS_UNLOCKED` and asks for a kick.  The kick is remembered
(`VSPIN_KICKED`) when it overtakes the pause, and a remembered kick may well be
consumed by a later acquisition of the same vcpu, of this lock or another.  The
vcpus of one partition run one call at a time each, on any number of locks.

`Awake` is the invariant that ties the two state machines together; with the
queue-lock refinement it gives `pv_mcs_lock_safety`.
-/
import Twan.Base.QueueLock
import Twan.Base.Run
import Twan.Sync.McsLock
import Twan.Vsched.Vcpu

namespace Twan.Sync.PvMcsLock

set_option autoImplicit false

open Twan.Base Twan.Vsched

/-- `struct mcsnode` with `CONFIG_TWANVISOR_PV_LOCKS`. -/
structure McsNode (Node : Type) where
  next : Option Node
  state : McsState
  processorId : Int

/-- The value of `INITIALIZE_MCSNODE()`. -/
def McsNode.unused {Node : Type} : McsNode Node := ⟨none, .locked, 0⟩

/-- Where the acquisition that uses a node is in `__pv_mcs_lock` and
`__pv_mcs_unlock`. -/
inductive Pc (Node : Type) where
  | fresh
  /-- `node->processor_id` is set; the exchange of `tail` is next. -/
  | xchgTail
  /-- `atomic64_read(&prev->processor_id)` is next. -/
  | readPid (prev : Node)
  /-- `atomic_ptr_set(&prev->next, node)` is next. -/
  | setNext (prev : Node) (pid : Int)
  /-- The test of `while (atomic32_read(&node->state) != MCS_UNLOCKED)` is next. -/
  | spin (pid : Int) (iterations : Nat)
  /-- `tv_vis_vcpu_active(processor_id)` is next. -/
  | query (pid : Int)
  /-- `atomic32_cmpxchg(&node->state, &expected, MCS_PAUSED)` is next. -/
  | cmpxchgPaused (pid : Int)
  /-- `tv_vpv_spin_pause()` is next. -/
  | pause (pid : Int)
  /-- Paused by the hypervisor inside `tv_vpv_spin_pause()`. -/
  | asleep (pid : Int)
  /-- `__pv_mcs_lock` has returned. -/
  | critical
  /-- `node->next` was NULL; the compare-exchange of `tail` is next. -/
  | cmpxchgTail
  /-- `spin_until(next = atomic_ptr_read(&node->next))`. -/
  | spinNext
  /-- `atomic32_cmpxchg(&next->state, &expected2, MCS_UNLOCKED)` is next. -/
  | cmpxchgState (next : Node)
  /-- `atomic64_read(&next->processor_id)` is next. -/
  | readNextPid (next : Node)
  /-- `atomic32_set(&next->state, MCS_UNLOCKED)` is next. -/
  | setState (next : Node) (pid : Int)
  /-- `tv_vpv_spin_kick(processor_id)`, for the waiter of `next`, is next. -/
  | kick (next : Node) (pid : Int)
  /-- `__pv_mcs_unlock` has returned. -/
  | done

/-- What the hypervisor keeps for a vcpu: its scheduling and its spin state. -/
structure HvVcpu where
  state : VcpuState
  spin : PvSpinState

/-- The locks of one partition with `N` vcpus, their nodes, what each vcpu
executes, and for each lock the order of its exchanges and of its returns.
`fault` records a failed `VDYNAMIC_ASSERT`. -/
structure Sys (Lock Node : Type) (N : Nat) where
  tail : Lock → Option Node
  node : Node → McsNode Node
  pc : Node → Pc Node
  cur : Fin N → Option Node
  vcpu : Fin N → HvVcpu
  fault : Bool
  exchanged : Lock → List Node
  acquired : Lock → List Node

/-- The next atomic step of one acquisition, a move of the hypervisor's scheduler,
or a kick from elsewhere (`vemu_pv_spin_kick_far`). -/
inductive Action (Node : Type) (N : Nat) where
  | run (n : Node)
  | schedule (v : Fin N) (state : VcpuState)
  | kickFar (v : Fin N)

/-- The states between which the scheduler moves a vcpu that is not pv-spinning. -/
def Schedulable : VcpuState → Bool
  | .ready | .running | .transitioning | .paused => true
  | _ => false

section Model

variable {Lock Node : Type} {N : Nat} [DecidableEq Lock] [DecidableEq Node]
  (lockOf : Node → Lock) (cpu : Node → Fin N) (threshold : Nat)

def Sys.initial : Sys Lock Node N :=
  ⟨fun _ => none, fun _ => .unused, fun _ => .fresh, fun _ => none, fun _ => ⟨.ready, .none⟩,
    false, fun _ => [], fun _ => []⟩

namespace Sys

variable (s : Sys Lock Node N)

def goto (n : Node) (pc : Pc Node) : Sys Lock Node N :=
  { s with pc := Function.update s.pc n pc }

def setNode (n : Node) (node : McsNode Node) : Sys Lock Node N :=
  { s with node := Function.update s.node n node }

def setVcpu (v : Fin N) (vcpu : HvVcpu) : Sys Lock Node N :=
  { s with vcpu := Function.update s.vcpu v vcpu }

/-- The vcpu of `n` is inside the call that uses `n`, or out of it. -/
def setCur (n : Node) (c : Option Node) : Sys Lock Node N :=
  { s with cur := Function.update s.cur (cpu n) c }

/-- `atomic_ptr_xchg(&lock->tail, node)`, with the exchange logged. -/
def swapTail (n : Node) : Sys Lock Node N :=
  { s with
    tail := Function.update s.tail (lockOf n) (some n)
    exchanged := Function.update s.exchanged (lockOf n) (s.exchanged (lockOf n) ++ [n]) }

def clearTail (l : Lock) : Sys Lock Node N :=
  { s with tail := Function.update s.tail l none }

def acquire (n : Node) : Sys Lock Node N :=
  { (s.goto n .critical).setCur cpu n none with
    acquired := Function.update s.acquired (lockOf n) (s.acquired (lockOf n) ++ [n]) }

/-- `tv_vis_vcpu_active`; an id outside the partition reads as an error. -/
def isVcpuActive (pid : Int) : Bool :=
  if h : pid.toNat < N then (s.vcpu ⟨pid.toNat, h⟩).state.isActive else false

/-- `vemu_pv_spin_kick_local` and `__vemu_pv_spin_kick`. -/
def pvSpinKick (pid : Int) : Sys Lock Node N :=
  if h : pid.toNat < N then
    let v : Fin N := ⟨pid.toNat, h⟩
    if (s.vcpu v).spin = .paused then
      if (s.vcpu v).state = .pvSpinning then s.setVcpu v ⟨.ready, .none⟩
      else { s with fault := true }
    else s.setVcpu v { s.vcpu v with spin := .kicked }
  else s

/-- The next atomic step of the acquisition that uses `n`. -/
def advance (n : Node) : Option (Sys Lock Node N) :=
  match s.pc n with
  | .fresh =>
      if s.cur (cpu n) = none then
        let node := { s.node n with processorId := ((cpu n : Nat) : Int) }
        some (((s.setNode n node).goto n .xchgTail).setCur cpu n (some n))
      else none
  | .xchgTail =>
      match s.tail (lockOf n) with
      | none => some ((s.swapTail lockOf n).acquire lockOf cpu n)
      | some prev => some ((s.swapTail lockOf n).goto n (.readPid prev))
  | .readPid prev => some (s.goto n (.setNext prev (s.node prev).processorId))
  | .setNext prev pid =>
      some ((s.setNode prev { s.node prev with next := some n }).goto n (.spin pid 0))
  | .spin pid iterations =>
      if (s.node n).state = .unlocked then some (s.acquire lockOf cpu n)
      else if pid < 0 then some s
      else if iterations ≠ threshold then some (s.goto n (.spin pid (iterations + 1)))
      else some (s.goto n (.query pid))
  | .query pid =>
      if s.isVcpuActive pid then some (s.goto n (.spin pid 0))
      else some (s.goto n (.cmpxchgPaused pid))
  | .cmpxchgPaused pid =>
      if (s.node n).state = .locked then
        some ((s.setNode n { s.node n with state := .paused }).goto n (.pause pid))
      else some (s.goto n (.spin pid 0))
  -- vsched_put_paused(vcpu, true, ..), under the scheduler's lock
  | .pause pid =>
      match (s.vcpu (cpu n)).spin with
      | .none => some ((s.setVcpu (cpu n) ⟨.pvSpinning, .paused⟩).goto n (.asleep pid))
      | .kicked =>
          some ((s.setVcpu (cpu n) { s.vcpu (cpu n) with spin := .none }).goto n (.spin pid 0))
      | .paused => some { s with fault := true }
  | .asleep pid => some (s.goto n (.spin pid 0))
  | .critical =>
      if s.cur (cpu n) = none then
        match (s.node n).next with
        | none => some ((s.goto n .cmpxchgTail).setCur cpu n (some n))
        | some next => some ((s.goto n (.cmpxchgState next)).setCur cpu n (some n))
      else none
  | .cmpxchgTail =>
      if s.tail (lockOf n) = some n then
        some (((s.clearTail (lockOf n)).goto n .done).setCur cpu n none)
      else some (s.goto n .spinNext)
  | .spinNext =>
      match (s.node n).next with
      | none => some s
      | some next => some (s.goto n (.cmpxchgState next))
  | .cmpxchgState next =>
      if (s.node next).state = .locked then
        let s' := s.setNode next { s.node next with state := .unlocked }
        some ((s'.goto n .done).setCur cpu n none)
      else some (s.goto n (.readNextPid next))
  | .readNextPid next => some (s.goto n (.setState next (s.node next).processorId))
  | .setState next pid =>
      some ((s.setNode next { s.node next with state := .unlocked }).goto n (.kick next pid))
  | .kick _ pid => some (((s.pvSpinKick pid).goto n .done).setCur cpu n none)
  | .done => none

end Sys

/-- One step: an acquisition moves only while its vcpu is on a CPU. -/
def step (s : Sys Lock Node N) : Action Node N → Option (Sys Lock Node N)
  | .run n =>
      if (s.vcpu (cpu n)).state.isActive then s.advance lockOf cpu threshold n else none
  | .schedule v state =>
      if Schedulable (s.vcpu v).state ∧ Schedulable state then
        some (s.setVcpu v { s.vcpu v with state })
      else none
  | .kickFar v => some (s.pvSpinKick ((v : Nat) : Int))

end Model

/-- Between the return of `__pv_mcs_lock` and the hand-over in `__pv_mcs_unlock`. -/
def Pc.Holding {Node : Type} : Pc Node → Prop
  | .critical | .cmpxchgTail | .spinNext | .cmpxchgState _ | .readNextPid _ | .setState _ _ => True
  | _ => False

/-- Inside `__pv_mcs_lock`, queued and not yet returned. -/
def Pc.Waiting {Node : Type} : Pc Node → Prop
  | .readPid _ | .setNext _ _ | .spin _ _ | .query _ | .cmpxchgPaused _ | .pause _ | .asleep _ => True
  | _ => False

/-- The unlocker that found `n` paused has not issued its kick yet. -/
def KickOwed {Lock Node : Type} {N : Nat} (s : Sys Lock Node N) (n : Node) : Prop :=
  ∃ u pid, s.pc u = .kick n pid

/-! ## Each lock refines the queue lock -/

section Refinement

set_option linter.unusedSectionVars false

def Pc.phase {Node : Type} : Pc Node → QueueLock.Phase Node
  | .fresh | .xchgTail => .fresh
  | .readPid prev | .setNext prev _ => .joining prev
  | .spin _ _ | .query _ | .cmpxchgPaused _ | .pause _ | .asleep _ => .waiting
  | .critical => .holding
  | .cmpxchgTail => .closing
  | .spinNext => .draining
  | .cmpxchgState next | .readNextPid next | .setState next _ => .passing next
  | .kick _ _ | .done => .gone

theorem holding_iff_active {Node : Type} (pc : Pc Node) : pc.Holding ↔ pc.phase.Active := by
  cases pc <;> simp [Pc.Holding, Pc.phase, QueueLock.Phase.Active]

variable {Lock Node : Type} {N : Nat} [DecidableEq Lock] [DecidableEq Node]
  (lockOf : Node → Lock) (cpu : Node → Fin N) (threshold : Nat)

/-- The queue lock that lock `l` implements: the nodes of other locks look fresh. -/
def Sys.view (s : Sys Lock Node N) (l : Lock) : QueueLock.State Node where
  tail := s.tail l
  next n := if lockOf n = l then (s.node n).next else none
  granted n := lockOf n = l && (s.node n).state = .unlocked
  phase n := if lockOf n = l then (s.pc n).phase else .fresh
  joined := s.exchanged l
  entered := s.acquired l

variable {lockOf} {s : Sys Lock Node N} {l : Lock} {n : Node}

theorem view_goto (home : lockOf n = l) (pc : Pc Node) :
    (s.goto n pc).view lockOf l = (s.view lockOf l).setPhase n pc.phase := by
  have phases : ((s.goto n pc).view lockOf l).phase =
      Function.update (s.view lockOf l).phase n pc.phase := by
    funext m
    by_cases same : m = n
    · subst same; simp [Sys.view, Sys.goto, home]
    · simp [Sys.view, Sys.goto, same]
  exact congrArg (fun phase => { s.view lockOf l with phase }) phases

/-- A move that the queue does not see: at another lock, or within one phase. -/
theorem view_goto_hidden {pc : Pc Node} (hidden : lockOf n = l → pc.phase = (s.pc n).phase) :
    (s.goto n pc).view lockOf l = s.view lockOf l := by
  have phases : ((s.goto n pc).view lockOf l).phase = (s.view lockOf l).phase := by
    funext m
    by_cases same : m = n
    · subst same
      by_cases home : lockOf m = l
      · simp [Sys.view, Sys.goto, home, hidden home]
      · simp [Sys.view, home]
    · simp [Sys.view, Sys.goto, same]
  exact congrArg (fun phase => { s.view lockOf l with phase }) phases

theorem view_setNode_hidden {node : McsNode Node}
    (hidden : lockOf n = l → node.next = (s.node n).next ∧
      (node.state = .unlocked ↔ (s.node n).state = .unlocked)) :
    (s.setNode n node).view lockOf l = s.view lockOf l := by
  simp only [Sys.view, Sys.setNode, QueueLock.State.mk.injEq, true_and, and_true]
  constructor <;> funext m <;> by_cases same : m = n
  · subst same
    by_cases home : lockOf m = l <;> simp [home, hidden]
  · simp [same]
  · subst same
    by_cases home : lockOf m = l <;> simp [home, hidden]
  · simp [same]

theorem view_setNode_next {p : Node} (home : lockOf p = l) :
    (s.setNode p { s.node p with next := some n }).view lockOf l =
      { s.view lockOf l with next := Function.update (s.view lockOf l).next p (some n) } := by
  simp only [Sys.view, Sys.setNode, QueueLock.State.mk.injEq, true_and, and_true]
  constructor <;> funext m <;> by_cases same : m = p
  · subst same; simp [home]
  · simp [same]
  · subst same; simp
  · simp [same]

theorem view_setNode_unlocked {x : Node} (home : lockOf x = l) :
    (s.setNode x { s.node x with state := .unlocked }).view lockOf l =
      { s.view lockOf l with granted := Function.update (s.view lockOf l).granted x true } := by
  simp only [Sys.view, Sys.setNode, QueueLock.State.mk.injEq, true_and, and_true]
  constructor <;> funext m <;> by_cases same : m = x
  · subst same; simp
  · simp [same]
  · subst same; simp [home]
  · simp [same]

theorem view_setCur (c : Option Node) : (s.setCur cpu n c).view lockOf l = s.view lockOf l := rfl

theorem view_swapTail : (s.swapTail lockOf n).view lockOf (lockOf n) =
    { s.view lockOf (lockOf n) with
      tail := some n, joined := s.exchanged (lockOf n) ++ [n] } := by
  simp only [Sys.view, Sys.swapTail, Function.update_self]
  rfl

theorem view_swapTail_other (other : lockOf n ≠ l) :
    (s.swapTail lockOf n).view lockOf l = s.view lockOf l := by
  simp only [Sys.view, Sys.swapTail, Function.update_of_ne (Ne.symm other)]
  rfl

theorem view_clearTail :
    (s.clearTail l).view lockOf l = { s.view lockOf l with tail := none } := by
  simp only [Sys.view, Sys.clearTail, Function.update_self]
  rfl

theorem view_clearTail_other {l' : Lock} (other : l' ≠ l) :
    (s.clearTail l').view lockOf l = s.view lockOf l := by
  simp only [Sys.view, Sys.clearTail, Function.update_of_ne (Ne.symm other)]
  rfl

theorem view_acquire : (s.acquire lockOf cpu n).view lockOf (lockOf n) =
    { (s.view lockOf (lockOf n)).setPhase n .holding with
      entered := s.acquired (lockOf n) ++ [n] } := by
  have moved : (s.goto n .critical).view lockOf (lockOf n) =
      (s.view lockOf (lockOf n)).setPhase n .holding := view_goto rfl .critical
  rw [← moved]
  simp only [Sys.view, Sys.acquire, Sys.setCur, Function.update_self]
  rfl

theorem view_acquire_other (other : lockOf n ≠ l) :
    (s.acquire lockOf cpu n).view lockOf l = s.view lockOf l := by
  have hidden : (s.goto n .critical).view lockOf l = s.view lockOf l :=
    view_goto_hidden (fun home => absurd home other)
  rw [← hidden]
  simp only [Sys.view, Sys.acquire, Sys.setCur, Function.update_of_ne (Ne.symm other)]
  rfl

theorem view_pvSpinKick (pid : Int) : (s.pvSpinKick pid).view lockOf l = s.view lockOf l := by
  unfold Sys.pvSpinKick
  split
  · dsimp only
    split
    · split <;> rfl
    · rfl
  · rfl

theorem pvSpinKick_pc (pid : Int) : (s.pvSpinKick pid).pc = s.pc := by
  unfold Sys.pvSpinKick
  split
  · dsimp only
    split
    · split <;> rfl
    · rfl
  · rfl

/-- The steps of one acquisition, seen by its own lock. -/
theorem advance_refines {t : Sys Lock Node N}
    (moved : s.advance lockOf cpu threshold n = some t)
    (prevHome : ∀ p, (s.pc n).phase = .joining p → lockOf p = lockOf n)
    (nextHome : ∀ x, (s.pc n).phase = .passing x → lockOf x = lockOf n) :
    QueueLock.Step (s.view lockOf (lockOf n)) (t.view lockOf (lockOf n)) ∨
      t.view lockOf (lockOf n) = s.view lockOf (lockOf n) := by
  have phaseAt : (s.view lockOf (lockOf n)).phase n = (s.pc n).phase := by simp [Sys.view]
  have nextAt : (s.view lockOf (lockOf n)).next n = (s.node n).next := by simp [Sys.view]
  cases pc : s.pc n <;> rw [pc] at phaseAt prevHome nextHome <;>
    simp only [Sys.advance, pc] at moved
  case fresh =>
    split at moved <;> cases moved
    right
    rw [view_setCur, view_goto_hidden fun _ => by simp [Sys.setNode, pc, Pc.phase]]
    exact view_setNode_hidden fun _ => ⟨rfl, Iff.rfl⟩
  case xchgTail =>
    split at moved <;> cases moved <;> rename_i tail <;> left
    · rw [view_acquire, view_swapTail]
      exact QueueLock.Step.joinFree (s := s.view lockOf (lockOf n)) n phaseAt tail
    · rw [view_goto (n := n) rfl, view_swapTail]
      exact QueueLock.Step.joinBehind (s := s.view lockOf (lockOf n)) n _ phaseAt tail
  case readPid prev =>
    cases moved
    exact .inr (view_goto_hidden fun _ => by simp [pc, Pc.phase])
  case setNext prev pid =>
    cases moved
    left
    rw [view_goto (n := n) rfl, view_setNode_next (prevHome prev rfl)]
    exact QueueLock.Step.link n prev phaseAt
  case spin pid iterations =>
    split at moved
    · cases moved
      rename_i unlocked
      left
      rw [view_acquire]
      exact QueueLock.Step.enter n phaseAt (by simp [Sys.view, unlocked])
    · split at moved
      · cases moved; exact .inr rfl
      · split at moved <;> cases moved <;>
          exact .inr (view_goto_hidden fun _ => by simp [pc, Pc.phase])
  case query pid =>
    split at moved <;> cases moved <;>
      exact .inr (view_goto_hidden fun _ => by simp [pc, Pc.phase])
  case cmpxchgPaused pid =>
    split at moved <;> cases moved
    · rename_i locked
      right
      rw [view_goto_hidden fun _ => by simp [Sys.setNode, pc, Pc.phase]]
      exact view_setNode_hidden fun _ => ⟨rfl, by simp [locked]⟩
    · exact .inr (view_goto_hidden fun _ => by simp [pc, Pc.phase])
  case pause pid =>
    split at moved <;> cases moved
    · exact .inr (view_goto_hidden fun _ => by simp [Sys.setVcpu, pc, Pc.phase])
    · exact .inr (view_goto_hidden fun _ => by simp [Sys.setVcpu, pc, Pc.phase])
    · exact .inr rfl
  case asleep pid =>
    cases moved
    exact .inr (view_goto_hidden fun _ => by simp [pc, Pc.phase])
  case critical =>
    split at moved
    case isFalse => cases moved
    split at moved <;> cases moved <;> rename_i next <;> left <;>
      rw [view_setCur, view_goto (n := n) rfl]
    · exact QueueLock.Step.leaveUnlinked n phaseAt (nextAt.trans next)
    · exact QueueLock.Step.leaveLinked n _ phaseAt (nextAt.trans next)
  case cmpxchgTail =>
    split at moved <;> cases moved <;> rename_i tail <;> left
    · rw [view_setCur, view_goto (n := n) rfl, view_clearTail]
      exact QueueLock.Step.close n phaseAt tail
    · rw [view_goto (n := n) rfl]
      exact QueueLock.Step.contend n phaseAt tail
  case spinNext =>
    split at moved <;> cases moved <;> rename_i next
    · exact .inr rfl
    · left
      rw [view_goto (n := n) rfl]
      exact QueueLock.Step.drain n _ phaseAt (nextAt.trans next)
  case cmpxchgState next =>
    split at moved <;> cases moved
    · left
      rw [view_setCur, view_goto (n := n) rfl, view_setNode_unlocked (nextHome next rfl)]
      exact QueueLock.Step.pass n next phaseAt
    · exact .inr (view_goto_hidden fun _ => by simp [pc, Pc.phase])
  case readNextPid next =>
    cases moved
    exact .inr (view_goto_hidden fun _ => by simp [pc, Pc.phase])
  case setState next pid =>
    cases moved
    left
    rw [view_goto (n := n) rfl, view_setNode_unlocked (nextHome next rfl)]
    exact QueueLock.Step.pass n next phaseAt
  case kick next pid =>
    cases moved
    right
    rw [view_setCur, view_goto_hidden fun _ => by simp [pvSpinKick_pc, pc, Pc.phase]]
    exact view_pvSpinKick pid
  case done => cases moved

/-- The steps of one acquisition are not seen by the other locks. -/
theorem advance_hidden {t : Sys Lock Node N}
    (moved : s.advance lockOf cpu threshold n = some t) (other : lockOf n ≠ l)
    (prevHome : ∀ p, (s.pc n).phase = .joining p → lockOf p = lockOf n)
    (nextHome : ∀ x, (s.pc n).phase = .passing x → lockOf x = lockOf n) :
    t.view lockOf l = s.view lockOf l := by
  have away : ∀ {s : Sys Lock Node N} {pc : Pc Node},
      (s.goto n pc).view lockOf l = s.view lockOf l :=
    view_goto_hidden fun home => absurd home other
  have awayAt : ∀ {m : Node} {node : McsNode Node}, lockOf m = lockOf n →
      (s.setNode m node).view lockOf l = s.view lockOf l := fun home =>
    view_setNode_hidden fun here => absurd (home.symm.trans here) other
  cases pc : s.pc n <;> rw [pc] at prevHome nextHome <;> simp only [Sys.advance, pc] at moved
  case fresh => split at moved <;> cases moved; rw [view_setCur, away, awayAt rfl]
  case xchgTail =>
    split at moved <;> cases moved
    · rw [view_acquire_other cpu other, view_swapTail_other other]
    · rw [away, view_swapTail_other other]
  case readPid | asleep | readNextPid => cases moved; exact away
  case setNext prev pid => cases moved; rw [away, awayAt (prevHome prev rfl)]
  case spin pid iterations =>
    split at moved
    · cases moved; exact view_acquire_other cpu other
    · split at moved
      · cases moved; rfl
      · split at moved <;> cases moved <;> exact away
  case query => split at moved <;> cases moved <;> exact away
  case cmpxchgPaused =>
    split at moved <;> cases moved
    · rw [away, awayAt rfl]
    · exact away
  case pause =>
    split at moved <;> cases moved
    · exact away
    · exact away
    · rfl
  case critical =>
    split at moved
    case isFalse => cases moved
    split at moved <;> cases moved <;> rw [view_setCur, away]
  case cmpxchgTail =>
    split at moved <;> cases moved
    · rw [view_setCur, away, view_clearTail_other other]
    · exact away
  case spinNext =>
    split at moved <;> cases moved
    · rfl
    · exact away
  case cmpxchgState next =>
    split at moved <;> cases moved
    · rw [view_setCur, away, awayAt (nextHome next rfl)]
    · exact away
  case setState next pid => cases moved; rw [away, awayAt (nextHome next rfl)]
  case kick next pid => cases moved; rw [view_setCur, away, view_pvSpinKick]
  case done => cases moved

end Refinement

/-! ## The queues, and one call at a time -/

section Queues

set_option linter.unusedSectionVars false

variable {Lock Node : Type} {N : Nat} [DecidableEq Lock] [DecidableEq Node]
  {lockOf : Node → Lock} {cpu : Node → Fin N} {threshold : Nat} {s t : Sys Lock Node N} {n : Node}

/-- Every lock satisfies the invariant of the queue lock. -/
def Queues (lockOf : Node → Lock) (s : Sys Lock Node N) : Prop :=
  ∀ l, ∃ old queue, QueueLock.Inv (s.view lockOf l) old queue

/-- A node is only ever exchanged into the tail of its own lock. -/
theorem home_of_exchanged (queues : Queues lockOf s) {l : Lock} (member : n ∈ s.exchanged l) :
    lockOf n = l := by
  obtain ⟨old, queue, inv⟩ := queues l
  by_contra other
  exact inv.phase_not_fresh member (by simp [Sys.view, other])

theorem prev_home (queues : Queues lockOf s) {p : Node} (joining : (s.pc n).phase = .joining p) :
    lockOf p = lockOf n := by
  obtain ⟨old, queue, inv⟩ := queues (lockOf n)
  have queued := inv.joining_queued (n := n) (p := p) (by simpa [Sys.view] using joining)
  exact home_of_exchanged queues
    (by have order := inv.order; simp only [Sys.view] at order; simp [order, queued])

theorem next_waiting (queues : Queues lockOf s) {x : Node} (passing : (s.pc n).phase = .passing x) :
    lockOf x = lockOf n ∧ (s.pc x).phase = .waiting := by
  obtain ⟨old, queue, inv⟩ := queues (lockOf n)
  have waiting := inv.passing_waiting (n := n) (x := x) (by simpa [Sys.view] using passing)
  have home : lockOf x = lockOf n := by
    by_contra other
    simp [Sys.view, other] at waiting
  exact ⟨home, by simpa [Sys.view, home] using waiting⟩

theorem advance_queues (queues : Queues lockOf s)
    (moved : s.advance lockOf cpu threshold n = some t) : Queues lockOf t := by
  intro l
  have prevHome := fun p => prev_home (n := n) (p := p) queues
  have nextHome := fun x passing => (next_waiting (n := n) (x := x) queues passing).1
  obtain ⟨old, queue, inv⟩ := queues l
  by_cases home : lockOf n = l
  · subst home
    rcases advance_refines cpu threshold moved prevHome nextHome with taken | same
    · exact QueueLock.inv_step inv taken
    · exact ⟨old, queue, same ▸ inv⟩
  · exact ⟨old, queue, (advance_hidden cpu threshold moved home prevHome nextHome) ▸ inv⟩

/-- The acquisition is inside `__pv_mcs_lock` or `__pv_mcs_unlock`. -/
def Pc.InCall : Pc Node → Prop
  | .fresh | .critical | .done => False
  | _ => True

def Sequential (cpu : Node → Fin N) (s : Sys Lock Node N) : Prop :=
  OneCall cpu (fun n => (s.pc n).InCall) s.cur

theorem Sequential.move (seq : Sequential cpu s) {pc : Pc Node} {c : Option Node}
    (ready : s.cur (cpu n) = none ∨ s.cur (cpu n) = some n)
    (pcs : t.pc = Function.update s.pc n pc) (curs : t.cur = Function.update s.cur (cpu n) c)
    (own : pc.InCall → c = some n) : Sequential cpu t := by
  unfold Sequential
  rw [curs, pcs]
  refine OneCall.move seq ready (fun m other busy => ?_) (by simpa using own)
  simpa [other] using busy

/-- A step within a call. -/
theorem Sequential.inside (seq : Sequential cpu s) {pc : Pc Node} (busy : (s.pc n).InCall)
    (pcs : t.pc = Function.update s.pc n pc) (curs : t.cur = s.cur) : Sequential cpu t :=
  seq.move (.inr (seq n busy)) pcs (by rw [curs, Function.update_eq_self]) (fun _ => seq n busy)

theorem pvSpinKick_cur (pid : Int) : (s.pvSpinKick pid).cur = s.cur := by
  unfold Sys.pvSpinKick
  split
  · dsimp only
    split
    · split <;> rfl
    · rfl
  · rfl

theorem advance_sequential (seq : Sequential cpu s)
    (moved : s.advance lockOf cpu threshold n = some t) : Sequential cpu t := by
  cases pc : s.pc n <;> simp only [Sys.advance, pc] at moved
  case fresh =>
    split at moved <;> cases moved
    rename_i free
    exact seq.move (.inl free) rfl rfl (fun _ => rfl)
  case xchgTail =>
    have busy : (s.pc n).InCall := by simp [pc, Pc.InCall]
    split at moved <;> cases moved
    · exact seq.move (.inr (seq n busy)) rfl rfl (by simp [Pc.InCall])
    · exact seq.inside busy rfl rfl
  case spin pid iterations =>
    have busy : (s.pc n).InCall := by simp [pc, Pc.InCall]
    split at moved
    · cases moved
      exact seq.move (.inr (seq n busy)) rfl rfl (by simp [Pc.InCall])
    · split at moved
      · cases moved; exact seq
      · split at moved <;> cases moved <;> exact seq.inside busy rfl rfl
  case readPid | setNext | asleep | readNextPid | setState =>
    cases moved
    exact seq.inside (n := n) (by simp [pc, Pc.InCall]) rfl rfl
  case query | cmpxchgPaused =>
    split at moved <;> cases moved <;>
      exact seq.inside (n := n) (by simp [pc, Pc.InCall]) rfl rfl
  case pause pid =>
    split at moved <;> cases moved
    · exact seq.inside (n := n) (by simp [pc, Pc.InCall]) rfl rfl
    · exact seq.inside (n := n) (by simp [pc, Pc.InCall]) rfl rfl
    · exact seq
  case critical =>
    split at moved
    case isFalse => cases moved
    rename_i free
    split at moved <;> cases moved <;> exact seq.move (.inl free) rfl rfl (fun _ => rfl)
  case cmpxchgTail =>
    have busy : (s.pc n).InCall := by simp [pc, Pc.InCall]
    split at moved <;> cases moved
    · exact seq.move (.inr (seq n busy)) rfl rfl (by simp [Pc.InCall])
    · exact seq.inside busy rfl rfl
  case spinNext =>
    split at moved <;> cases moved
    · exact seq
    · exact seq.inside (n := n) (by simp [pc, Pc.InCall]) rfl rfl
  case cmpxchgState next =>
    have busy : (s.pc n).InCall := by simp [pc, Pc.InCall]
    split at moved <;> cases moved
    · exact seq.move (.inr (seq n busy)) rfl rfl (by simp [Pc.InCall])
    · exact seq.inside busy rfl rfl
  case kick next pid =>
    cases moved
    have mine := seq n (by simp [pc, Pc.InCall])
    have pcs : (((s.pvSpinKick pid).goto n .done).setCur cpu n none).pc =
        Function.update s.pc n .done := by simp [Sys.setCur, Sys.goto, pvSpinKick_pc]
    have curs : (((s.pvSpinKick pid).goto n .done).setCur cpu n none).cur =
        Function.update s.cur (cpu n) none := by simp [Sys.setCur, Sys.goto, pvSpinKick_cur]
    exact seq.move (.inr mine) pcs curs (by simp [Pc.InCall])
  case done => cases moved

end Queues

/-! ## No kick is lost -/

section Wakeups

set_option linter.unusedSectionVars false

variable {Lock Node : Type} {N : Nat} [DecidableEq Lock] [DecidableEq Node]
  {lockOf : Node → Lock} {cpu : Node → Fin N} {threshold : Nat} {s t : Sys Lock Node N}
  {n m : Node} {pc : Pc Node}

/-- Between the compare-exchange to `MCS_PAUSED` and the return of the pause. -/
def Pc.Pausing : Pc Node → Prop
  | .pause _ | .asleep _ => True
  | _ => False

/-- What holds of `n` at each program point.  A node that was moved to `MCS_PAUSED`
gets one kick, and until its owner is out of the pause that kick is either still
owed or remembered; an unlocker kicks the vcpu whose node it unlocks. -/
def Settled (cpu : Node → Fin N) (s : Sys Lock Node N) (n : Node) : Pc Node → Prop
  | .pause _ => (s.node n).state ≠ .locked ∧
      ((s.node n).state = .unlocked → (s.vcpu (cpu n)).spin = .kicked ∨ KickOwed s n)
  | .asleep _ => (s.node n).state ≠ .locked ∧
      ((s.node n).state = .unlocked → (s.vcpu (cpu n)).spin = .paused → KickOwed s n)
  | .setState x pid | .kick x pid => pid = ((cpu x : Nat) : Int)
  | _ => True

/-- What ties the nodes to the hypervisor's spin states. -/
structure Awake (cpu : Node → Fin N) (s : Sys Lock Node N) : Prop where
  noFault : s.fault = false
  spinning : ∀ v, (s.vcpu v).spin = .paused ↔ (s.vcpu v).state = .pvSpinning
  sleeper : ∀ v, (s.vcpu v).spin = .paused → ∃ n pid, cpu n = v ∧ s.pc n = .asleep pid
  ownPid : ∀ n, s.pc n ≠ .fresh → (s.node n).processorId = ((cpu n : Nat) : Int)
  settled : ∀ n, Settled cpu s n (s.pc n)

theorem awake_initial : Awake cpu (Sys.initial : Sys Lock Node N) := by
  constructor <;> simp [Sys.initial, Settled]

theorem Awake.not_paused (awake : Awake cpu s) (active : (s.vcpu (cpu n)).state.isActive = true) :
    (s.vcpu (cpu n)).spin ≠ .paused := by
  intro paused
  rw [(awake.spinning _).mp paused] at active
  cases active

/-- A kick that is owed stays owed while someone else moves. -/
theorem KickOwed.keep (pcs : t.pc = Function.update s.pc n pc)
    (notKick : ∀ pid, s.pc n ≠ .kick m pid) (owed : KickOwed s m) : KickOwed t m := by
  obtain ⟨u, pid, at_⟩ := owed
  have other : u ≠ n := by
    intro same
    subst same
    exact notKick pid at_
  exact ⟨u, pid, by rw [pcs, Function.update_of_ne other]; exact at_⟩

/-- What is settled stays so while the node, its vcpu and its kick stay as they are. -/
theorem Settled.keep (settled : Settled cpu s m pc) (state : (t.node m).state = (s.node m).state)
    (vcpu : pc.Pausing → t.vcpu (cpu m) = s.vcpu (cpu m))
    (owed : KickOwed s m → KickOwed t m) : Settled cpu t m pc := by
  cases pc with
  | pause pid =>
      simp only [Settled, state, vcpu trivial] at settled ⊢
      exact ⟨settled.1, fun unlocked => (settled.2 unlocked).imp_right owed⟩
  | asleep pid =>
      simp only [Settled, state, vcpu trivial] at settled ⊢
      exact ⟨settled.1, fun unlocked paused => owed (settled.2 unlocked paused)⟩
  | _ => exact settled

/-- A step of `n`: the other nodes stay settled, and `n` is settled where it gets. -/
theorem Awake.move (awake : Awake cpu s) (pcs : t.pc = Function.update s.pc n pc)
    (faults : t.fault = s.fault)
    (spinning : ∀ v, (t.vcpu v).spin = .paused ↔ (t.vcpu v).state = .pvSpinning)
    (sleeper : ∀ v, (t.vcpu v).spin = .paused →
      (v = cpu n ∧ ∃ pid, pc = .asleep pid) ∨ (v ≠ cpu n ∧ (s.vcpu v).spin = .paused))
    (pids : ∀ m, m ≠ n → (t.node m).processorId = (s.node m).processorId)
    (ownPid : (t.node n).processorId = ((cpu n : Nat) : Int))
    (others : ∀ m, m ≠ n → Settled cpu s m (s.pc m) → Settled cpu t m (s.pc m))
    (own : Settled cpu t n pc) : Awake cpu t := by
  refine ⟨faults.trans awake.noFault, spinning, ?_, ?_, ?_⟩
  · intro v paused
    rcases sleeper v paused with ⟨on, pid, at_⟩ | ⟨other, before⟩
    · exact ⟨n, pid, on.symm, by rw [pcs, Function.update_self, at_]⟩
    · obtain ⟨m, pid, on, asleep⟩ := awake.sleeper v before
      have apart : m ≠ n := by
        intro same
        exact other (by rw [← on, same])
      exact ⟨m, pid, on, by rw [pcs, Function.update_of_ne apart]; exact asleep⟩
  · intro m busy
    by_cases same : m = n
    · rw [same]
      exact ownPid
    · rw [pids m same]
      rw [pcs, Function.update_of_ne same] at busy
      exact awake.ownPid m busy
  · intro m
    by_cases same : m = n
    · rw [same, pcs, Function.update_self]
      exact own
    · rw [pcs, Function.update_of_ne same]
      exact others m same (awake.settled m)

/-- A step that leaves the hypervisor's state and the other nodes' `state` fields. -/
theorem Awake.quiet (awake : Awake cpu s) (active : (s.vcpu (cpu n)).state.isActive = true)
    (notKick : ∀ m pid, s.pc n ≠ .kick m pid) (pcs : t.pc = Function.update s.pc n pc)
    (vcpus : t.vcpu = s.vcpu) (faults : t.fault = s.fault)
    (fields : ∀ m, m ≠ n → (t.node m).processorId = (s.node m).processorId ∧
      (t.node m).state = (s.node m).state)
    (ownPid : (t.node n).processorId = ((cpu n : Nat) : Int)) (own : Settled cpu t n pc) :
    Awake cpu t := by
  refine awake.move pcs faults (by rw [vcpus]; exact awake.spinning) ?_
    (fun m other => (fields m other).1) ownPid ?_ own
  · intro v paused
    rw [vcpus] at paused
    refine .inr ⟨?_, paused⟩
    intro same
    exact awake.not_paused active (same ▸ paused)
  · intro m other settled
    exact settled.keep (fields m other).2 (fun _ => by rw [vcpus])
      (KickOwed.keep pcs fun pid => notKick m pid)

/-- Storing `MCS_UNLOCKED` into a node whose owner is outside the pause, or whose
kick is owed. -/
theorem Awake.store_unlocked (awake : Awake cpu s) {x : Node}
    (safe : (s.pc x).Pausing → KickOwed s x) :
    Awake cpu (s.setNode x { s.node x with state := .unlocked }) := by
  refine ⟨awake.noFault, awake.spinning, awake.sleeper, ?_, ?_⟩
  · intro m busy
    have before := awake.ownPid m busy
    by_cases same : m = x
    · subst same; simpa [Sys.setNode] using before
    · simpa [Sys.setNode, same] using before
  · intro m
    have before := awake.settled m
    by_cases same : m = x
    · subst same
      show Settled cpu _ m (s.pc m)
      cases at_ : s.pc m with
      | pause pid =>
          have owed : KickOwed s m := safe (by simp [at_, Pc.Pausing])
          simp only [Settled, Sys.setNode, Function.update_self]
          exact ⟨by simp, fun _ => .inr owed⟩
      | asleep pid =>
          have owed : KickOwed s m := safe (by simp [at_, Pc.Pausing])
          simp only [Settled, Sys.setNode, Function.update_self]
          exact ⟨by simp, fun _ _ => owed⟩
      | _ =>
          rw [at_] at before
          exact before
    · exact before.keep (by simp [Sys.setNode, same]) (fun _ => rfl) id

/-- No other acquisition of the vcpu is inside a call. -/
theorem Sequential.alone (seq : Sequential cpu s)
    (ready : s.cur (cpu n) = none ∨ s.cur (cpu n) = some n) (other : m ≠ n)
    (on : cpu m = cpu n) : ¬ (s.pc m).Pausing := by
  intro pausing
  have busy : (s.pc m).InCall := by
    cases at_ : s.pc m <;> simp_all [Pc.Pausing, Pc.InCall]
  have here := seq m busy
  rw [on] at here
  rcases ready with free | mine
  · simp [free] at here
  · exact other (by simpa [mine] using here.symm)

/-- What a kick leaves of a vcpu. -/
def HvVcpu.kicked (vcpu : HvVcpu) : HvVcpu :=
  if vcpu.spin = .paused then ⟨.ready, .none⟩ else { vcpu with spin := .kicked }

/-- The assertion of `__vemu_pv_spin_kick` holds. -/
theorem Awake.pvSpinKick_eq (awake : Awake cpu s) (v : Fin N) :
    s.pvSpinKick ((v : Nat) : Int) = s.setVcpu v (s.vcpu v).kicked := by
  have inside : ((v : Nat) : Int).toNat < N := by simp
  unfold Sys.pvSpinKick HvVcpu.kicked
  rw [dif_pos inside]
  simp only [Int.toNat_natCast, Fin.eta]
  by_cases paused : (s.vcpu v).spin = .paused
  · simp [paused, (awake.spinning v).mp paused]
  · simp [paused]

theorem HvVcpu.kicked_not_paused (vcpu : HvVcpu) : vcpu.kicked.spin ≠ .paused := by
  unfold HvVcpu.kicked
  split <;> simp

/-- After a kick every node of the vcpu is settled, whatever is still owed. -/
theorem Awake.kick_settles (awake : Awake cpu s) (seq : Sequential cpu s) (nodes : t.node = s.node)
    (vcpu : t.vcpu (cpu m) = (s.vcpu (cpu m)).kicked) : Settled cpu t m (s.pc m) := by
  have before := awake.settled m
  cases at_ : s.pc m with
  | pause pid =>
      rw [at_] at before
      -- a sleeping vcpu sleeps in another node, and it is in one call only
      have notPaused : (s.vcpu (cpu m)).spin ≠ .paused := by
        intro paused
        obtain ⟨k, pid', on, asleep⟩ := awake.sleeper _ paused
        have same := seq.unique (m := k) (n := m) (by simp [asleep, Pc.InCall])
          (by simp [at_, Pc.InCall]) on
        rw [same, at_] at asleep
        cases asleep
      refine ⟨by rw [nodes]; exact before.1, fun _ => .inl ?_⟩
      rw [vcpu]
      simp [HvVcpu.kicked, notPaused]
  | asleep pid =>
      rw [at_] at before
      refine ⟨by rw [nodes]; exact before.1, fun _ paused => ?_⟩
      rw [vcpu] at paused
      exact absurd paused (HvVcpu.kicked_not_paused _)
  | _ =>
      rw [at_] at before
      exact before

theorem setVcpu_vcpu {v : Fin N} {vcpu : HvVcpu} (w : Fin N) :
    (s.setVcpu v vcpu).vcpu w = if w = v then vcpu else s.vcpu w := by
  simp only [Sys.setVcpu, Function.update_apply]

/-- The hypervisor's invariant after one vcpu changes. -/
theorem Awake.spinning_setVcpu (awake : Awake cpu s) {v : Fin N} {vcpu : HvVcpu}
    (here : vcpu.spin = .paused ↔ vcpu.state = .pvSpinning) (w : Fin N) :
    ((s.setVcpu v vcpu).vcpu w).spin = .paused ↔
      ((s.setVcpu v vcpu).vcpu w).state = .pvSpinning := by
  rw [setVcpu_vcpu]
  split
  · exact here
  · exact awake.spinning w

theorem Awake.kicked_spinning (awake : Awake cpu s) (v : Fin N) :
    (s.vcpu v).kicked.spin = .paused ↔ (s.vcpu v).kicked.state = .pvSpinning := by
  have before := awake.spinning v
  unfold HvVcpu.kicked
  split
  · simp
  · rename_i notPaused
    simpa using fun spinning => notPaused (before.mpr spinning)

theorem Awake.kickFar (awake : Awake cpu s) (seq : Sequential cpu s) (v : Fin N) :
    Awake cpu (s.pvSpinKick ((v : Nat) : Int)) := by
  rw [awake.pvSpinKick_eq v]
  refine ⟨awake.noFault, awake.spinning_setVcpu (awake.kicked_spinning v), ?_, awake.ownPid, ?_⟩
  · intro w paused
    rw [setVcpu_vcpu] at paused
    split at paused
    · exact absurd paused (HvVcpu.kicked_not_paused _)
    · exact awake.sleeper w paused
  · intro m
    by_cases on : cpu m = v
    · subst on
      exact awake.kick_settles seq rfl (by rw [setVcpu_vcpu, if_pos rfl])
    · exact (awake.settled m).keep rfl (fun _ => by rw [setVcpu_vcpu, if_neg on]) id

/-- The kick of an unlocker, and its return. -/
theorem Awake.kick (awake : Awake cpu s) (seq : Sequential cpu s) {x : Node} {pid : Int}
    (active : (s.vcpu (cpu n)).state.isActive = true) (at_ : s.pc n = .kick x pid) :
    Awake cpu (((s.pvSpinKick pid).goto n .done).setCur cpu n none) := by
  have addressed : pid = ((cpu x : Nat) : Int) := by
    have before := awake.settled n
    rw [at_] at before
    exact before
  have ownPid := awake.ownPid n (by simp [at_])
  subst addressed
  rw [awake.pvSpinKick_eq (cpu x)]
  refine awake.move (n := n) rfl rfl (awake.spinning_setVcpu (awake.kicked_spinning (cpu x))) ?_
    (fun _ _ => rfl) ownPid ?_ trivial
  · intro v paused
    change ((s.setVcpu _ _).vcpu v).spin = _ at paused
    rw [setVcpu_vcpu] at paused
    split at paused
    · exact absurd paused (HvVcpu.kicked_not_paused _)
    · refine .inr ⟨?_, paused⟩
      intro same
      exact awake.not_paused active (same ▸ paused)
  · intro m other settled
    by_cases on : cpu m = cpu x
    · exact awake.kick_settles seq rfl (by
        change (s.setVcpu _ _).vcpu _ = _
        rw [setVcpu_vcpu, if_pos on, on])
    · refine settled.keep rfl (fun _ => ?_) (KickOwed.keep rfl ?_)
      · change (s.setVcpu _ _).vcpu _ = _
        rw [setVcpu_vcpu, if_neg on]
      · intro pid' kicking
        rw [at_] at kicking
        cases kicking
        exact on rfl

/-- The hypervisor's pause: asleep, or out of it with a remembered kick. -/
theorem Awake.pause (awake : Awake cpu s) (seq : Sequential cpu s) {pid : Int} {vcpu : HvVcpu}
    (at_ : s.pc n = .pause pid)
    (here : vcpu.spin = .paused ↔ vcpu.state = .pvSpinning)
    (asleep : vcpu.spin = .paused → pc = .asleep pid)
    (own : Settled cpu ((s.setVcpu (cpu n) vcpu).goto n pc) n pc) :
    Awake cpu ((s.setVcpu (cpu n) vcpu).goto n pc) := by
  have ownPid := awake.ownPid n (by simp [at_])
  have mine := seq n (by simp [at_, Pc.InCall])
  refine awake.move (n := n) rfl rfl (awake.spinning_setVcpu here) ?_ (fun _ _ => rfl) ownPid ?_ own
  · intro v paused
    change ((s.setVcpu _ _).vcpu v).spin = _ at paused
    rw [setVcpu_vcpu] at paused
    split at paused
    · rename_i same
      exact .inl ⟨same, pid, asleep paused⟩
    · rename_i other
      exact .inr ⟨other, paused⟩
  · intro m other settled
    refine settled.keep rfl (fun pausing => ?_) (KickOwed.keep rfl (by simp [at_]))
    have apart : cpu m ≠ cpu n := fun on => seq.alone (.inr mine) other on pausing
    change (s.setVcpu _ _).vcpu _ = _
    rw [setVcpu_vcpu, if_neg apart]

/-- A step to a point outside the pause that writes no `state` field. -/
theorem Awake.pass_by (awake : Awake cpu s) (active : (s.vcpu (cpu n)).state.isActive = true)
    (busy : s.pc n ≠ .fresh) (notKick : ∀ m pid, s.pc n ≠ .kick m pid)
    (pcs : t.pc = Function.update s.pc n pc) (vcpus : t.vcpu = s.vcpu) (faults : t.fault = s.fault)
    (fields : ∀ m, (t.node m).processorId = (s.node m).processorId ∧
      (t.node m).state = (s.node m).state) (own : Settled cpu t n pc) : Awake cpu t :=
  awake.quiet active notKick pcs vcpus faults (fun m _ => fields m)
    ((fields n).1.trans (awake.ownPid n busy)) own

theorem advance_awake (queues : Queues lockOf s) (seq : Sequential cpu s) (awake : Awake cpu s)
    (active : (s.vcpu (cpu n)).state.isActive = true)
    (moved : s.advance lockOf cpu threshold n = some t) : Awake cpu t := by
  have settled := awake.settled n
  have waiting := fun x => next_waiting (n := n) (x := x) queues
  cases at_ : s.pc n <;> rw [at_] at settled waiting <;> simp only [Sys.advance, at_] at moved
  case fresh =>
    split at moved <;> cases moved
    refine awake.quiet active (by simp [at_]) rfl rfl rfl ?_ (by simp [Sys.setCur, Sys.goto, Sys.setNode])
      trivial
    intro m other
    simp [Sys.setCur, Sys.goto, Sys.setNode, other]
  case xchgTail =>
    split at moved <;> cases moved <;>
      exact awake.pass_by active (by simp [at_]) (by simp [at_]) rfl rfl rfl
        (fun _ => ⟨rfl, rfl⟩) trivial
  case readPid | asleep =>
    cases moved
    exact awake.pass_by active (by simp [at_]) (by simp [at_]) rfl rfl rfl
      (fun _ => ⟨rfl, rfl⟩) trivial
  case setNext prev pid =>
    cases moved
    refine awake.pass_by active (by simp [at_]) (by simp [at_]) rfl rfl rfl (fun m => ?_) trivial
    by_cases same : m = prev
    · subst same; simp [Sys.goto, Sys.setNode]
    · simp [Sys.goto, Sys.setNode, same]
  case spin pid iterations =>
    split at moved
    · cases moved
      exact awake.pass_by active (by simp [at_]) (by simp [at_]) rfl rfl rfl
        (fun _ => ⟨rfl, rfl⟩) trivial
    · split at moved
      · cases moved; exact awake
      · split at moved <;> cases moved <;>
          exact awake.pass_by active (by simp [at_]) (by simp [at_]) rfl rfl rfl
            (fun _ => ⟨rfl, rfl⟩) trivial
  case query pid =>
    split at moved <;> cases moved <;>
      exact awake.pass_by active (by simp [at_]) (by simp [at_]) rfl rfl rfl
        (fun _ => ⟨rfl, rfl⟩) trivial
  case cmpxchgPaused pid =>
    split at moved <;> cases moved
    · refine awake.quiet active (by simp [at_]) rfl rfl rfl ?_ ?_ ?_
      · intro m other
        simp [Sys.goto, Sys.setNode, other]
      · simpa [Sys.goto, Sys.setNode] using awake.ownPid n (by simp [at_])
      · simp [Settled, Sys.goto, Sys.setNode]
    · exact awake.pass_by active (by simp [at_]) (by simp [at_]) rfl rfl rfl
        (fun _ => ⟨rfl, rfl⟩) trivial
  case pause pid =>
    split at moved <;> cases moved <;> rename_i spin
    · refine awake.pause seq at_ (by simp) (fun _ => rfl) ⟨settled.1, fun unlocked _ => ?_⟩
      have owed := (settled.2 unlocked).resolve_left (by simp [spin])
      exact owed.keep (s := s) rfl (by simp [at_])
    · have state : (s.vcpu (cpu n)).state ≠ .pvSpinning := by
        intro spinning
        simp [spinning, VcpuState.isActive] at active
      exact awake.pause seq at_ (by simpa using state) (by simp) trivial
    · exact absurd spin (awake.not_paused active)
  case critical =>
    split at moved
    case isFalse => cases moved
    split at moved <;> cases moved <;>
      exact awake.pass_by active (by simp [at_]) (by simp [at_]) rfl rfl rfl
        (fun _ => ⟨rfl, rfl⟩) trivial
  case cmpxchgTail =>
    split at moved <;> cases moved <;>
      exact awake.pass_by active (by simp [at_]) (by simp [at_]) rfl rfl rfl
        (fun _ => ⟨rfl, rfl⟩) trivial
  case spinNext =>
    split at moved <;> cases moved
    · exact awake
    · exact awake.pass_by active (by simp [at_]) (by simp [at_]) rfl rfl rfl
        (fun _ => ⟨rfl, rfl⟩) trivial
  case cmpxchgState next =>
    split at moved <;> cases moved
    · rename_i locked
      have away : (s.pc next).Pausing → KickOwed s next := by
        have here := awake.settled next
        intro pausing
        cases there : s.pc next <;> rw [there] at here pausing <;>
          first
            | exact pausing.elim
            | exact absurd locked here.1
      exact (awake.store_unlocked away).pass_by active (by simp [Sys.setNode, at_])
        (by simp [Sys.setNode, at_]) rfl rfl rfl (fun _ => ⟨rfl, rfl⟩) trivial
    · exact awake.pass_by active (by simp [at_]) (by simp [at_]) rfl rfl rfl
        (fun _ => ⟨rfl, rfl⟩) trivial
  case readNextPid next =>
    cases moved
    have started : s.pc next ≠ .fresh := by
      intro fresh
      have phase := (waiting next rfl).2
      simp [fresh, Pc.phase] at phase
    exact awake.pass_by active (by simp [at_]) (by simp [at_]) rfl rfl rfl
      (fun _ => ⟨rfl, rfl⟩) (awake.ownPid next started)
  case setState next pid =>
    cases moved
    have promised : Awake cpu (s.goto n (.kick next pid)) :=
      awake.pass_by active (by simp [at_]) (by simp [at_]) rfl rfl rfl (fun _ => ⟨rfl, rfl⟩) settled
    exact promised.store_unlocked fun _ => ⟨n, pid, by simp [Sys.goto]⟩
  case kick next pid =>
    cases moved
    exact awake.kick seq active at_
  case done => cases moved

/-- A scheduler's move leaves the spin states. -/
theorem Awake.schedule (awake : Awake cpu s) {v : Fin N} {state : VcpuState}
    (before : Schedulable (s.vcpu v).state = true) (after : Schedulable state = true) :
    Awake cpu (s.setVcpu v { s.vcpu v with state }) := by
  have notPaused : (s.vcpu v).spin ≠ .paused := by
    intro paused
    rw [(awake.spinning v).mp paused] at before
    cases before
  have here : (s.vcpu v).spin = .paused ↔ state = .pvSpinning := by
    constructor
    · intro paused
      exact absurd paused notPaused
    · intro spinning
      rw [spinning] at after
      cases after
  have spins : ∀ w, ((s.setVcpu v { s.vcpu v with state }).vcpu w).spin = (s.vcpu w).spin := by
    intro w
    rw [setVcpu_vcpu]
    split
    · rename_i same
      rw [same]
    · rfl
  refine ⟨awake.noFault, awake.spinning_setVcpu here, ?_, awake.ownPid, ?_⟩
  · intro w paused
    rw [spins] at paused
    exact awake.sleeper w paused
  · intro m
    have settled := awake.settled m
    show Settled cpu _ m (s.pc m)
    cases at_ : s.pc m with
    | pause pid | asleep pid =>
        rw [at_] at settled
        simp only [Settled, spins]
        exact settled
    | _ =>
        rw [at_] at settled
        exact settled

end Wakeups

/-! ## Safety of every run -/

section Safety

set_option linter.unusedSectionVars false

variable {Lock Node : Type} {N : Nat} [DecidableEq Lock] [DecidableEq Node]
  {lockOf : Node → Lock} {cpu : Node → Fin N} {threshold : Nat} {s t : Sys Lock Node N}

/-- What every reachable state satisfies. -/
structure Good (lockOf : Node → Lock) (cpu : Node → Fin N) (s : Sys Lock Node N) : Prop where
  queues : Queues lockOf s
  sequential : Sequential cpu s
  awake : Awake cpu s

theorem good_initial : Good lockOf cpu (Sys.initial : Sys Lock Node N) := by
  refine ⟨fun l => ⟨[], [], ?_⟩, fun _ busy => busy.elim, awake_initial⟩
  have same : (Sys.initial : Sys Lock Node N).view lockOf l = QueueLock.State.initial := by
    simp [Sys.view, Sys.initial, McsNode.unused, Pc.phase, QueueLock.State.initial]
  rw [same]
  exact QueueLock.inv_initial

theorem step_good {a : Action Node N} (good : Good lockOf cpu s)
    (moved : step lockOf cpu threshold s a = some t) : Good lockOf cpu t := by
  cases a with
  | run n =>
      simp only [step] at moved
      split at moved
      case isFalse => cases moved
      rename_i active
      exact ⟨advance_queues good.queues moved, advance_sequential good.sequential moved,
        advance_awake good.queues good.sequential good.awake active moved⟩
  | schedule v state =>
      simp only [step] at moved
      split at moved <;> cases moved
      rename_i both
      exact ⟨good.queues, good.sequential, good.awake.schedule both.1 both.2⟩
  | kickFar v =>
      cases moved
      refine ⟨fun l => ?_, ?_, good.awake.kickFar good.sequential v⟩
      · rw [view_pvSpinKick]
        exact good.queues l
      · unfold Sequential
        rw [pvSpinKick_pc, pvSpinKick_cur]
        exact good.sequential

theorem exec_good {run : List (Action Node N)}
    (ran : exec (step lockOf cpu threshold) .initial run = some s) : Good lockOf cpu s :=
  exec_invariant (fun _ _ _ good moved => step_good good moved) good_initial ran

/-- **The paravirtual MCS lock never loses a wakeup**: in every run, over any number
of vcpus and locks, at most one acquisition of a lock is between the return of its
lock and its hand-over, no assertion of the hypervisor fails, and a waiter that is
`VSPIN_PAUSED` with its node `MCS_UNLOCKED` has a kick still to come from its
unlocker. -/
theorem pv_mcs_lock_safety {run : List (Action Node N)}
    (ran : exec (step lockOf cpu threshold) .initial run = some s) :
    (∀ m n, lockOf m = lockOf n → (s.pc m).Holding → (s.pc n).Holding → m = n) ∧
    s.fault = false ∧
    ¬ ∃ n, (s.pc n).Waiting ∧ (s.vcpu (cpu n)).spin = .paused ∧
      (s.node n).state = .unlocked ∧ ¬ KickOwed s n := by
  have good := exec_good ran
  refine ⟨?_, good.awake.noFault, ?_⟩
  · intro m n home holdsM holdsN
    obtain ⟨old, queue, inv⟩ := good.queues (lockOf n)
    apply inv.active_unique
    · simpa [Sys.view, home] using (holding_iff_active _).mp holdsM
    · simpa [Sys.view] using (holding_iff_active _).mp holdsN
  · rintro ⟨n, waits, paused, unlocked, notOwed⟩
    obtain ⟨m, pid, on, asleep⟩ := good.awake.sleeper _ paused
    have busy : (s.pc n).InCall := by
      cases at_ : s.pc n <;> simp_all [Pc.Waiting, Pc.InCall]
    have same : m = n := good.sequential.unique (by simp [asleep, Pc.InCall]) busy on
    subst same
    have settled := good.awake.settled m
    rw [asleep] at settled
    exact notOwed (settled.2 unlocked paused)

/-- Two vcpus: vcpu 1 sleeps on the lock of vcpu 0, which is descheduled, comes back
and stores `MCS_UNLOCKED`; its kick is the only one still to come. -/
theorem pv_mcs_lock_safety_asleep :
    ∃ s : Sys Unit (Fin 2) 2, exec (step (fun _ => ()) id 0) .initial
        [.schedule 0 .running, .run 0, .run 0, .schedule 0 .ready, .schedule 1 .running,
          .run 1, .run 1, .run 1, .run 1, .run 1, .run 1, .run 1, .run 1,
          .schedule 0 .running, .run 0, .run 0, .run 0, .run 0] = some s ∧
      (s.vcpu 1).spin = .paused ∧ (s.node 1).state = .unlocked ∧ s.pc 0 = .kick 1 1 ∧
      s.fault = false := by
  refine ⟨_, rfl, rfl, rfl, rfl, ?_⟩
  have ran : exec (step (fun _ => ()) id 0) (.initial : Sys Unit (Fin 2) 2)
      [.schedule 0 .running, .run 0, .run 0, .schedule 0 .ready, .schedule 1 .running,
        .run 1, .run 1, .run 1, .run 1, .run 1, .run 1, .run 1, .run 1,
        .schedule 0 .running, .run 0, .run 0, .run 0, .run 0] = some _ := rfl
  exact (pv_mcs_lock_safety ran).2.1

end Safety

end Twan.Sync.PvMcsLock
