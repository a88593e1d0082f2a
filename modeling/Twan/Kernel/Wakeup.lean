/-
# Twan.Kernel.Wakeup -- tasks that wait, and who wakes them

`src/kernel/sched/waitq.c`, with the timeouts of `src/initcalls/late/pv/twanvisor.c`: a task that
waits is in the priority queue of its wait queue, and for a timed wait in the timeout chain too.
A waker takes it from the first and then from the second; the tick pops it from the second under
the timeout lock, and only then takes the lock of the wait queue that `metadata.waitq` names.

A wait queue is the abstract queue of `Twan.Lib.FlatPriorityq`, and what runs under a lock is one
step.  The tick is several: one under the timeout lock for each node it pops, one under the lock of
a wait queue for each task it wakes.  In between nobody else has the timeout lock, but an untimed
wait needs only the other one.

The log says when tasks block and are pushed to the scheduler, with the kernel as it is at each
push.  `exactly_once_wakeup`: after every run each task has been pushed once for each time it
blocked, except for the last time while it is blocked; at each push the task was in no wait queue
and not in the chain, and `timed_out` was set just when the tick was waking it.  `wakers_finish`: a
waker of all leaves nobody behind, and the tick never stops half way.
-/
import Twan.Base.Turns
import Twan.Lib.DeltaChain
import Twan.Kernel.Waitq

namespace Twan.Kernel.Wakeup

set_option autoImplicit false
set_option linter.unusedSectionVars false

open Twan.Base Twan.Base.Turns Twan.Lib.DeltaChain Twan.Kernel.Waitq
open Twan.Lib.FlatPriorityq (answer next without map_without mem_of_answer)

/-- The arguments of `waitq_task_wait_until`, or of `waitq_task_wait_until_timeout` with its
iteration `i`. -/
inductive Wait (W : Type) where
  | untimed (w : W) (insertReal : Bool)
  | timed (w : W) (insertReal : Bool) (ticks : BitVec 64) (i : ℕ)

namespace Wait

variable {W : Type}

def waitq : Wait W → W
  | .untimed w _ => w
  | .timed w _ _ _ => w

def isTimed : Wait W → Bool
  | .untimed _ _ => false
  | .timed _ _ _ _ => true

/-- `i == 1`: the iteration that does not block. -/
def isLast : Wait W → Bool
  | .untimed _ _ => false
  | .timed _ _ _ i => i == 1

end Wait

/-- Where a task is. -/
inductive Pc (W : Type) where
  | running
  /-- In front of the locks of its wait. -/
  | looking (wait : Wait W)
  /-- Switched out by `sched_yield_wait_ipi`. -/
  | blocked (wait : Wait W)
  /-- Pushed to the scheduler. -/
  | woken (wait : Wait W)

namespace Pc

variable {W : Type}

def isBlocked : Pc W → Bool
  | .blocked _ => true
  | _ => false

def wake : Pc W → Pc W
  | .blocked wait => .woken wait
  | pc => pc

end Pc

/-- Where `gp_isr` is in `delta_chain_tick`. -/
inductive Tick (T W : Type) where
  | idle
  /-- At the head of the loop of `delta_chain_advance`. -/
  | advancing
  /-- In front of the lock in `timeout_task_dequeue_from_waitq`. -/
  | waking (t : T) (waitq : Option W)

def Tick.isIdle {T W : Type} : Tick T W → Bool
  | .idle => true
  | _ => false

/-- The wait queues, the timeout chain, what a wait uses of each task, and where tasks and tick
are. -/
structure State (T W : Type) where
  waiting : W → List (T × BitVec 8)
  chain : DeltaChain T
  metadata : T → Metadata
  /-- `metadata.waitq`. -/
  waitq : T → Option W
  timedOut : T → Bool
  pc : T → Pc W
  tick : Tick T W

inductive Event (T W : Type) where
  | blocked (t : T)
  /-- `sched_push`, with the kernel as it is then. -/
  | pushed (t : T) (moment : State T W)

structure Sys (T W : Type) where
  kernel : State T W
  log : List (Event T W)

variable {T W : Type} [DecidableEq T] [DecidableEq W] [Fintype T] (initialized : Bool)

namespace State

variable (k : State T W)

def setPc (t : T) (pc : Pc W) : State T W :=
  { k with pc := Function.update k.pc t pc }

/-- `set_timed_out` and `clear_timed_out`. -/
def setTimedOut (t : T) (timedOut : Bool) : State T W :=
  { k with timedOut := Function.update k.timedOut t timedOut }

/-- `__waitq_insert`. -/
def waitqInsert (w : W) (t : T) (insertReal : Bool) : State T W :=
  let priority := if insertReal then (k.metadata t).realPriority else (k.metadata t).priority
  { k with
    waiting := Function.update k.waiting w (next (k.waiting w) (.insert t priority))
    waitq := Function.update k.waitq t (some w) }

/-- `__timeout_insert_task`. -/
def timeoutInsertTask (t : T) (ticks : BitVec 32) : State T W :=
  if initialized then { k with chain := k.chain.insert t ticks.toNat } else k

/-- `__waitq_insert_timeout`. -/
def waitqInsertTimeout (w : W) (t : T) (insertReal : Bool) (ticks : BitVec 32) : State T W :=
  (k.waitqInsert w t insertReal).timeoutInsertTask initialized t ticks

/-- `__timeout_dequeue_task`. -/
def timeoutDequeueTask (t : T) : Bool × State T W :=
  if !initialized then (false, k)
  else if !k.chain.isQueued t then (false, k)
  else (true, { k with chain := k.chain.dequeueNoCallback t })

/-- `flat_priorityq_popfront` on the queue of `w`. -/
def flatPriorityqPopfront (w : W) : Option T × State T W :=
  (answer (k.waiting w) .popfront,
    { k with waiting := Function.update k.waiting w (next (k.waiting w) .popfront) })

/-- `__waitq_popfront`. -/
def waitqPopfront (w : W) : Option T × State T W :=
  match k.flatPriorityqPopfront w with
  | (none, k) => (none, k)
  | (some t, k) => (some t, { k with waitq := Function.update k.waitq t none })

/-- `__waitq_dequeue_task`. -/
def waitqDequeueTask (w : W) (t : T) : State T W :=
  { k with
    waiting := Function.update k.waiting w (next (k.waiting w) (.dequeue t))
    waitq := Function.update k.waitq t none }

end State

namespace Sys

variable (s : Sys T W)

def setPc (t : T) (pc : Pc W) : Sys T W :=
  { s with kernel := s.kernel.setPc t pc }

/-- `sched_push`. -/
def schedPush (t : T) : Sys T W :=
  ⟨s.kernel.setPc t (s.kernel.pc t).wake, s.log ++ [.pushed t s.kernel]⟩

/-- `waitq_flat_priorityq_dequeue_func`, and what `__waitq_wakeup_front` does with its task. -/
def waitqFlatPriorityqDequeueFunc (t : T) : Sys T W :=
  let (dequeued, k) := s.kernel.timeoutDequeueTask initialized t
  let k := if dequeued then k.setTimedOut t false else k
  { s with kernel := k }.schedPush t

/-- `__waitq_wakeup_front`. -/
def waitqWakeupFront (w : W) : Sys T W :=
  match s.kernel.waitqPopfront w with
  | (none, k) => { s with kernel := k }
  | (some t, k) => { s with kernel := k }.waitqFlatPriorityqDequeueFunc initialized t

/-- `flat_priorityq_dequeue_all` of `waitq_wakeup_all`, for so many tasks. -/
def dequeueAll (w : W) : ℕ → Sys T W → Sys T W
  | 0, s => s
  | left + 1, s =>
      match s.kernel.flatPriorityqPopfront w with
      | (none, _) => s
      | (some t, k) =>
          dequeueAll w left ({ s with kernel := k }.waitqFlatPriorityqDequeueFunc initialized t)

/-- `waitq_wakeup_all`. -/
def waitqWakeupAll (w : W) : Sys T W :=
  s.dequeueAll initialized w (s.kernel.waiting w).length

/-- `timeout_task_dequeue_from_waitq`, once it has read `metadata.waitq`. -/
def timeoutTaskDequeueFromWaitq (t : T) (waitq : W) (timedOut : Bool) : Sys T W :=
  { s with kernel := (s.kernel.waitqDequeueTask waitq t).setTimedOut t timedOut }.schedPush t

/-- `sched_yield_wait_ipi`. -/
def schedYieldWaitIpi (t : T) (wait : Wait W) : Sys T W :=
  let k := s.kernel.setPc t (.blocked wait)
  let k := match wait with
    | .untimed w insertReal => k.waitqInsert w t insertReal
    | .timed w insertReal ticks _ =>
        k.waitqInsertTimeout initialized w t insertReal (ticks.setWidth 32)
  ⟨k, s.log ++ [.blocked t]⟩

/-- An iteration of the loop of a wait up to where the task is switched out. -/
def look (t : T) (wait : Wait W) (cond : Bool) : Sys T W :=
  if cond then s.setPc t .running
  -- what this exit does to the timeout lock is the subject of `Twan.Kernel.TimedWait`
  else if wait.isLast then s.setPc t .running
  else s.schedYieldWaitIpi initialized t wait

/-- The rest of it, once the task runs again. -/
def resume (t : T) : Wait W → Sys T W
  | .untimed w insertReal => s.setPc t (.looking (.untimed w insertReal))
  | .timed w insertReal ticks i =>
      if s.kernel.timedOut t then { s with kernel := s.kernel.setTimedOut t false }.setPc t .running
      else if i + 1 < 2 then s.setPc t (.looking (.timed w insertReal ticks (i + 1)))
      else s.setPc t .running

end Sys

/-- What happens next. -/
inductive Action (T W : Type) where
  /-- A task calls `waitq_task_wait_until`. -/
  | waitUntil (t : T) (w : W) (insertReal : Bool)
  /-- A task calls `waitq_task_wait_until_timeout`. -/
  | waitUntilTimeout (t : T) (w : W) (insertReal : Bool) (ticks : BitVec 64)
  /-- A task has its locks and looks at its condition. -/
  | look (t : T) (cond : Bool)
  /-- A task that was pushed runs again. -/
  | resume (t : T)
  | wakeupFront (w : W)
  | wakeupAll (w : W)
  /-- `gp_isr` has the timeout lock. -/
  | tick
  /-- The advance looks at the front of the chain. -/
  | advance
  /-- The tick has the lock of the wait queue. -/
  | wake
  /-- The scheduler changes the priorities of a task. -/
  | setMetadata (t : T) (metadata : Metadata)

/-- Nobody holds the lock that `timeout_lock` takes, or it takes none. -/
def State.timeoutLockFree (k : State T W) : Bool :=
  !initialized || k.tick.isIdle

def step (s : Sys T W) : Action T W → Option (Sys T W)
  | .waitUntil t w insertReal =>
      match s.kernel.pc t with
      | .running => some (s.setPc t (.looking (.untimed w insertReal)))
      | _ => none
  | .waitUntilTimeout t w insertReal ticks =>
      match s.kernel.pc t with
      | .running => some (s.setPc t (.looking (.timed w insertReal ticks 0)))
      | _ => none
  | .look t cond =>
      match s.kernel.pc t with
      | .looking wait =>
          if !wait.isTimed || s.kernel.timeoutLockFree initialized then
            some (s.look initialized t wait cond)
          else none
      | _ => none
  | .resume t =>
      match s.kernel.pc t with
      | .woken wait => some (s.resume t wait)
      | _ => none
  | .wakeupFront w =>
      if s.kernel.timeoutLockFree initialized then some (s.waitqWakeupFront initialized w) else none
  | .wakeupAll w =>
      if s.kernel.timeoutLockFree initialized then some (s.waitqWakeupAll initialized w) else none
  | .tick =>
      match s.kernel.tick with
      | .idle =>
          let (chain, advances) := s.kernel.chain.tick
          some { s with kernel :=
            { s.kernel with chain := chain, tick := if advances then .advancing else .idle } }
      | _ => none
  | .advance =>
      match s.kernel.tick with
      | .advancing =>
          match s.kernel.chain.advance with
          | none => some { s with kernel := { s.kernel with tick := .idle } }
          | some (t, chain) =>
              some { s with kernel :=
                { s.kernel with chain := chain, tick := .waking t (s.kernel.waitq t) } }
      | _ => none
  | .wake =>
      match s.kernel.tick with
      | .waking t (some w) =>
          let s := s.timeoutTaskDequeueFromWaitq t w true
          some { s with kernel := { s.kernel with tick := .advancing } }
      | _ => none
  | .setMetadata t metadata =>
      some { s with kernel :=
        { s.kernel with metadata := Function.update s.kernel.metadata t metadata } }

/-- Nobody waits. -/
def initial (metadata : T → Metadata) : Sys T W where
  kernel :=
    { waiting := fun _ => []
      chain := DeltaChain.empty
      metadata := metadata
      waitq := fun _ => none
      timedOut := fun _ => false
      pc := fun _ => .running
      tick := .idle }
  log := []

/-! ## What the log says -/

section Log

/-- Blocking takes a task in, a push takes it out. -/
def mark (t : T) : Event T W → Option Bool
  | .blocked u => if u = t then some true else none
  | .pushed u _ => if u = t then some false else none

/-- The kernel at the last push of a task. -/
def lastPush (t : T) (log : List (Event T W)) : Option (State T W) :=
  log.foldl (fun last e =>
    match e with
    | .blocked _ => last
    | .pushed u moment => if u = t then some moment else last) none

/-- At a push: the task is in neither structure, and is marked as timed out if the tick took it
out. -/
structure Unlinked (t : T) (moment : State T W) : Prop where
  waiting : ∀ w, t ∉ (moment.waiting w).map Prod.fst
  chain : moment.chain.isQueued t = false
  timedOut : moment.timedOut t = true ↔ ∃ w, moment.tick = .waking t w

/-- Each time a task blocks it is pushed once. -/
structure ExactlyOnce (s : Sys T W) : Prop where
  /-- A task blocks and is pushed in turns, and the turn is at it just while it is blocked. -/
  turns : ∀ t, turns (mark t) false s.log = some (s.kernel.pc t).isBlocked
  /-- It has been pushed as often as it blocked, less the time that it is blocked now. -/
  pushes : ∀ t, s.log.countP (fun e => mark t e = some true) =
    s.log.countP (fun e => mark t e = some false) + (s.kernel.pc t).isBlocked.toNat
  unlinked : ∀ t moment, .pushed t moment ∈ s.log → Unlinked t moment
  /-- While it is blocked, it is once in the queue of its wait and in no other one. -/
  queued : ∀ t wait, s.kernel.pc t = .blocked wait → ∀ w,
    ((s.kernel.waiting w).map Prod.fst).count t = if w = wait.waitq then 1 else 0
  /-- The flag that a woken task finds is the one it was pushed with. -/
  timedOut : ∀ t wait, s.kernel.pc t = .woken wait →
    ∃ moment, lastPush t s.log = some moment ∧ s.kernel.timedOut t = moment.timedOut t
  /-- The tick goes to the wait queue that its task is blocked on. -/
  found : ∀ t w, s.kernel.tick = .waking t w →
    ∃ wait, s.kernel.pc t = .blocked wait ∧ w = some wait.waitq

end Log

/-! ## The invariant -/

/-- Where the tasks are linked, by what they do. -/
structure Good (k : State T W) : Prop where
  nodup : ∀ w, ((k.waiting w).map Prod.fst).Nodup
  queued : ∀ t w, t ∈ (k.waiting w).map Prod.fst ↔
    ∃ wait, k.pc t = .blocked wait ∧ wait.waitq = w
  pointer : ∀ t wait, k.pc t = .blocked wait → k.waitq t = some wait.waitq
  formed : Formed k.chain
  chained : ∀ t, k.chain.isQueued t = true →
    initialized = true ∧ ∃ wait, k.pc t = .blocked wait ∧ wait.isTimed = true
  /-- The task that the tick has popped is still in its wait queue. -/
  waking : ∀ t w, k.tick = .waking t w → k.chain.isQueued t = false ∧
    ∃ wait, k.pc t = .blocked wait ∧ wait.isTimed = true ∧ w = some wait.waitq
  locked : k.tick.isIdle = false → initialized = true
  /-- Only who looks at the flag finds it set. -/
  flagged : ∀ t, k.timedOut t = true → ∃ wait, k.pc t = .woken wait ∧ wait.isTimed = true

section Moves

variable {initialized} {k m : State T W} {t : T} {w : W} {pc : Pc W} {wait : Wait W}

theorem not_blocked (away : (k.pc t).isBlocked = false) (wait : Wait W) :
    k.pc t ≠ .blocked wait := by
  intro here
  rw [here] at away
  cases away

theorem Good.not_waiting (good : Good initialized k) (away : (k.pc t).isBlocked = false) (w : W) :
    t ∉ (k.waiting w).map Prod.fst := by
  intro inside
  obtain ⟨wait, here, -⟩ := (good.queued t w).mp inside
  exact not_blocked away wait here

theorem Good.not_chained (good : Good initialized k) (away : (k.pc t).isBlocked = false) :
    k.chain.isQueued t = false := by
  rw [Bool.eq_false_iff]
  intro inside
  obtain ⟨-, wait, here, -⟩ := good.chained t inside
  exact not_blocked away wait here

theorem Good.not_waking (good : Good initialized k) (free : k.timeoutLockFree initialized = true)
    (w : Option W) : k.tick ≠ .waking t w := by
  intro waking
  have busy : k.tick.isIdle = false := by rw [waking]; rfl
  have on := good.locked busy
  simp [State.timeoutLockFree, busy, on] at free

theorem Good.not_flagged (good : Good initialized k) (awake : ∀ wait, k.pc t ≠ .woken wait) :
    k.timedOut t = false := by
  rw [Bool.eq_false_iff]
  intro flag
  obtain ⟨wait, here, -⟩ := good.flagged t flag
  exact awake wait here

/-- A task that goes from one place to another without being blocked in either. -/
theorem Good.move (good : Good initialized k) (away : (k.pc t).isBlocked = false)
    (still : pc.isBlocked = false) : Good initialized ((k.setTimedOut t false).setPc t pc) := by
  have same : ∀ u wait, Function.update k.pc t pc u = .blocked wait ↔ k.pc u = .blocked wait := by
    intro u wait
    by_cases here : u = t
    · subst here
      rw [Function.update_self]
      refine iff_of_false (fun blocked => ?_) (not_blocked away wait)
      rw [blocked] at still
      cases still
    · rw [Function.update_of_ne here]
  refine ⟨good.nodup, fun u w => ?_, fun u wait blocked => ?_, good.formed, fun u inside => ?_,
    fun u w waking => ?_, good.locked, fun u flag => ?_⟩
  · simpa only [State.setPc, State.setTimedOut, same] using good.queued u w
  · exact good.pointer u wait ((same u wait).mp blocked)
  · obtain ⟨on, wait, blocked, timed⟩ := good.chained u inside
    exact ⟨on, wait, (same u wait).mpr blocked, timed⟩
  · obtain ⟨popped, wait, blocked, rest⟩ := good.waking u w waking
    exact ⟨popped, wait, (same u wait).mpr blocked, rest⟩
  · have other : u ≠ t := by
      rintro rfl
      simp [State.setPc, State.setTimedOut] at flag
    simp only [State.setPc, State.setTimedOut, Function.update_of_ne other] at flag ⊢
    exact good.flagged u flag

/-- A task that blocks. -/
theorem Good.block (good : Good initialized k) (wait : Wait W) (away : (k.pc t).isBlocked = false)
    (unflagged : k.timedOut t = false) {priority : BitVec 8} {chain : DeltaChain T}
    (formed : Formed chain) (more : ∀ u, chain.isQueued u = true →
      (u = t ∧ initialized = true ∧ wait.isTimed = true) ∨ k.chain.isQueued u = true) :
    Good initialized { k.setPc t (.blocked wait) with
      waiting := Function.update k.waiting wait.waitq (k.waiting wait.waitq ++ [(t, priority)])
      waitq := Function.update k.waitq t (some wait.waitq)
      chain := chain } := by
  have other : ∀ {u}, (∃ wait, k.pc u = .blocked wait) → u ≠ t := by
    rintro u ⟨wait, here⟩ rfl
    exact not_blocked away wait here
  refine ⟨fun w => ?_, fun u w => ?_, fun u wait' blocked => ?_, formed, fun u inside => ?_,
    fun u w waking => ?_, good.locked, fun u flag => ?_⟩
  · by_cases here : w = wait.waitq
    · subst here
      simp only [Function.update_self, List.map_append, List.map_cons, List.map_nil]
      refine List.nodup_append.mpr ⟨good.nodup _, List.nodup_singleton t, ?_⟩
      intro u inside u' single same
      rw [List.mem_singleton.mp single] at same
      exact good.not_waiting away _ (same ▸ inside)
    · simp only [Function.update_of_ne here]
      exact good.nodup w
  · by_cases same : u = t
    · subst same
      simp only [State.setPc, Function.update_self, Pc.blocked.injEq, exists_eq_left']
      by_cases here : w = wait.waitq
      · subst here
        simp
      · rw [Function.update_of_ne here]
        exact iff_of_false (good.not_waiting away w) (Ne.symm here)
    · simp only [State.setPc, Function.update_of_ne same]
      rw [← good.queued u w]
      by_cases here : w = wait.waitq
      · subst here
        simp [same]
      · rw [Function.update_of_ne here]
  · by_cases same : u = t
    · subst same
      simp only [State.setPc, Function.update_self, Pc.blocked.injEq] at blocked ⊢
      rw [blocked]
    · simp only [State.setPc, Function.update_of_ne same] at blocked ⊢
      exact good.pointer u wait' blocked
  · rcases more u inside with ⟨rfl, on, timed⟩ | old
    · exact ⟨on, wait, Function.update_self .., timed⟩
    · obtain ⟨on, wait', blocked, timed⟩ := good.chained u old
      exact ⟨on, wait', (Function.update_of_ne (other ⟨wait', blocked⟩) ..).trans blocked, timed⟩
  · obtain ⟨popped, wait', blocked, rest⟩ := good.waking u w waking
    have apart := other ⟨wait', blocked⟩
    refine ⟨?_, wait', (Function.update_of_ne apart ..).trans blocked, rest⟩
    rw [Bool.eq_false_iff]
    intro inside
    rcases more u inside with ⟨same, -⟩ | old
    · exact apart same
    · simp [popped] at old
  · have apart : u ≠ t := by
      intro same
      have set : k.timedOut t = true := same ▸ flag
      simp [unflagged] at set
    obtain ⟨wait', woken, timed⟩ := good.flagged u flag
    exact ⟨wait', (Function.update_of_ne apart ..).trans woken, timed⟩

end Moves

/-! ## Pushes -/

/-- `t` has been taken out of the queue of `w` and out of the chain, and its flag is set. -/
structure Removed (k : State T W) (w : W) (t : T) (m : State T W) : Prop where
  waiting : m.waiting = Function.update k.waiting w (without (k.waiting w) t)
  formed : Formed m.chain
  chain : ∀ u, m.chain.isQueued u = true ↔ u ≠ t ∧ k.chain.isQueued u = true
  waitq : ∀ u, u ≠ t → m.waitq u = k.waitq u
  timedOut : ∀ u, u ≠ t → m.timedOut u = k.timedOut u
  flag : m.timedOut t = true ↔ ∃ w, k.tick = .waking t w
  pc : m.pc = k.pc
  tick : m.tick = k.tick

section Pushes

variable {initialized} {k m : State T W} {t : T} {w : W} {wait : Wait W}

theorem mem_without {queue : List (T × BitVec 8)} {u : T} :
    u ∈ (without queue t).map Prod.fst ↔ u ≠ t ∧ u ∈ queue.map Prod.fst := by
  rw [map_without, List.mem_filter]
  simp [and_comm]

/-- At the push the task is linked nowhere. -/
theorem Good.unlinked (good : Good initialized k) (blocked : k.pc t = .blocked wait)
    (removed : Removed k wait.waitq t m) : Unlinked t m where
  waiting := by
    intro w inside
    rw [removed.waiting] at inside
    by_cases here : w = wait.waitq
    · subst here
      rw [Function.update_self] at inside
      exact (mem_without.mp inside).1 rfl
    · rw [Function.update_of_ne here] at inside
      obtain ⟨wait', blocked', there⟩ := (good.queued t w).mp inside
      obtain rfl : wait = wait' := Pc.blocked.inj (blocked.symm.trans blocked')
      exact here there.symm
  chain := by
    rw [Bool.eq_false_iff]
    exact fun inside => ((removed.chain t).mp inside).1 rfl
  timedOut := by
    rw [removed.flag, removed.tick]

/-- After the push, with the tick where it was or gone on. -/
theorem Good.push (good : Good initialized k) (blocked : k.pc t = .blocked wait)
    (removed : Removed k wait.waitq t m) (tick : Tick T W)
    (others : ∀ u w, tick = .waking u w → u ≠ t ∧ k.tick = .waking u w)
    (locked : tick.isIdle = false → initialized = true) :
    Good initialized { m.setPc t (.woken wait) with tick := tick } := by
  have same : ∀ u wait', Function.update m.pc t (.woken wait) u = .blocked wait' ↔
      u ≠ t ∧ k.pc u = .blocked wait' := by
    intro u wait'
    rw [removed.pc]
    by_cases here : u = t
    · subst here
      simp
    · simp [here]
  refine ⟨fun w => ?_, fun u w => ?_, fun u wait' there => ?_, removed.formed, fun u inside => ?_,
    fun u w waking => ?_, locked, fun u flag => ?_⟩
  · show ((m.waiting w).map Prod.fst).Nodup
    rw [removed.waiting]
    by_cases here : w = wait.waitq
    · subst here
      rw [Function.update_self, map_without]
      exact (good.nodup _).filter _
    · rw [Function.update_of_ne here]
      exact good.nodup w
  · simp only [State.setPc, same, removed.waiting]
    by_cases here : w = wait.waitq
    · subst here
      rw [Function.update_self, mem_without, good.queued u]
      constructor
      · rintro ⟨other, wait', there, this⟩
        exact ⟨wait', ⟨other, there⟩, this⟩
      · rintro ⟨wait', ⟨other, there⟩, this⟩
        exact ⟨other, wait', there, this⟩
    · rw [Function.update_of_ne here, good.queued u]
      constructor
      · rintro ⟨wait', there, this⟩
        refine ⟨wait', ⟨fun same => here ?_, there⟩, this⟩
        rw [same, blocked] at there
        rw [← this, Pc.blocked.inj there]
      · rintro ⟨wait', ⟨-, there⟩, this⟩
        exact ⟨wait', there, this⟩
  · obtain ⟨other, there⟩ := (same u wait').mp there
    exact (removed.waitq u other).trans (good.pointer u wait' there)
  · obtain ⟨other, old⟩ := (removed.chain u).mp inside
    obtain ⟨on, wait', there, timed⟩ := good.chained u old
    exact ⟨on, wait', (same u wait').mpr ⟨other, there⟩, timed⟩
  · obtain ⟨other, before⟩ := others u w waking
    obtain ⟨popped, wait', there, rest⟩ := good.waking u w before
    refine ⟨?_, wait', (same u wait').mpr ⟨other, there⟩, rest⟩
    rw [Bool.eq_false_iff]
    intro inside
    simp [((removed.chain u).mp inside).2] at popped
  · by_cases here : u = t
    · subst here
      obtain ⟨w', waking⟩ := removed.flag.mp flag
      obtain ⟨-, wait', there, timed, -⟩ := good.waking u w' waking
      obtain rfl : wait = wait' := Pc.blocked.inj (blocked.symm.trans there)
      exact ⟨wait, Function.update_self .., timed⟩
    · have old : k.timedOut u = true := (removed.timedOut u here).symm.trans flag
      obtain ⟨wait', there, timed⟩ := good.flagged u old
      refine ⟨wait', ?_, timed⟩
      show Function.update m.pc t _ u = _
      rw [Function.update_of_ne here, removed.pc, there]

/-- What a waker does to the task that it has taken out of a wait queue. -/
theorem Good.wakened (good : Good initialized k) (free : k.timeoutLockFree initialized = true)
    (blocked : k.pc t = .blocked wait) {waitq : T → Option W}
    (others : ∀ u, u ≠ t → waitq u = k.waitq u) {dequeued : Bool}
    (dequeue : ({ k with
        waiting := Function.update k.waiting wait.waitq (without (k.waiting wait.waitq) t)
        waitq := waitq } : State T W).timeoutDequeueTask initialized t = (dequeued, m)) :
    Removed k wait.waitq t (if dequeued then m.setTimedOut t false else m) := by
  have unflagged : k.timedOut t = false := good.not_flagged fun wait' => by simp [blocked]
  have notWaking : ¬ ∃ w, k.tick = .waking t w := fun ⟨w, waking⟩ => good.not_waking free w waking
  unfold State.timeoutDequeueTask at dequeue
  split_ifs at dequeue with off loose
  · cases dequeue
    have nowhere : ∀ u, k.chain.isQueued u = false := by
      intro u
      rw [Bool.eq_false_iff]
      intro inside
      simp [(good.chained u inside).1] at off
    exact ⟨rfl, good.formed, fun u => by simp [nowhere], others, fun u _ => rfl,
      iff_of_false (by simp [unflagged]) notWaking, rfl, rfl⟩
  · cases dequeue
    refine ⟨rfl, good.formed, fun u => ?_, others, fun u _ => rfl,
      iff_of_false (by simp [unflagged]) notWaking, rfl, rfl⟩
    refine ⟨fun inside => ⟨?_, inside⟩, And.right⟩
    intro same
    have there : k.chain.isQueued t = true := same ▸ inside
    simp [there] at loose
  · cases dequeue
    have inside : k.chain.isQueued t = true := by simpa using loose
    obtain ⟨formed, left⟩ := good.formed.dequeue inside
    exact ⟨rfl, formed, left, others, fun u other => Function.update_of_ne other ..,
      iff_of_false (by simp [State.setTimedOut]) notWaking, rfl, rfl⟩

/-- What the tick does to the task that it has taken out of the chain. -/
theorem Good.expired (good : Good initialized k) (waking : k.tick = .waking t (some w)) :
    Removed k w t ((k.waitqDequeueTask w t).setTimedOut t true) := by
  obtain ⟨popped, -⟩ := good.waking t _ waking
  refine ⟨rfl, good.formed, fun u => ?_, fun u other => Function.update_of_ne other ..,
    fun u other => Function.update_of_ne other .., ?_, rfl, rfl⟩
  · refine ⟨fun inside => ⟨?_, inside⟩, And.right⟩
    intro same
    have there : k.chain.isQueued t = true := same ▸ inside
    simp [popped] at there
  · exact iff_of_true (Function.update_self ..) ⟨_, waking⟩

end Pushes

/-! ## The steps -/

/-- The invariant, with what the log has said so far. -/
structure Sound (s : Sys T W) : Prop where
  good : Good initialized s.kernel
  turns : ∀ t, turns (mark t) false s.log = some (s.kernel.pc t).isBlocked
  unlinked : ∀ t moment, .pushed t moment ∈ s.log → Unlinked t moment
  carried : ∀ t wait, s.kernel.pc t = .woken wait →
    ∃ moment, lastPush t s.log = some moment ∧ s.kernel.timedOut t = moment.timedOut t

section Log

variable {t u : T} {log : List (Event T W)} {moment : State T W}

theorem lastPush_blocked : lastPush t (log ++ [.blocked u]) = lastPush t log := by
  simp [lastPush]

theorem lastPush_pushed :
    lastPush t (log ++ [.pushed u moment]) = if u = t then some moment else lastPush t log := by
  simp [lastPush]

end Log

section Steps

variable {initialized} {s s' : Sys T W} {k m : State T W} {t : T} {w : W} {pc : Pc W}
  {wait : Wait W}

/-- Nobody blocks and nobody is pushed. -/
theorem Sound.quiet (sound : Sound initialized s) (good : Good initialized k)
    (blocked : ∀ u, (k.pc u).isBlocked = (s.kernel.pc u).isBlocked)
    (woken : ∀ u wait, k.pc u = .woken wait →
      s.kernel.pc u = .woken wait ∧ k.timedOut u = s.kernel.timedOut u) :
    Sound initialized { s with kernel := k } where
  good := good
  turns := by
    intro u
    rw [sound.turns u, blocked u]
  unlinked := sound.unlinked
  carried := by
    intro u wait here
    obtain ⟨there, same⟩ := woken u wait here
    obtain ⟨moment, last, flag⟩ := sound.carried u wait there
    exact ⟨moment, last, same.trans flag⟩

theorem Sound.move (sound : Sound initialized s) (away : (s.kernel.pc t).isBlocked = false)
    (still : pc.isBlocked = false) (awake : ∀ wait, pc ≠ .woken wait) :
    Sound initialized { s with kernel := (s.kernel.setTimedOut t false).setPc t pc } := by
  apply sound.quiet (sound.good.move away still)
  · intro u
    by_cases same : u = t
    · subst same
      simp [State.setPc, State.setTimedOut, still, away]
    · simp [State.setPc, State.setTimedOut, same]
  · intro u wait woken
    have other : u ≠ t := by
      intro same
      subst same
      have here : (s.kernel.setPc u pc).pc u = pc := Function.update_self ..
      exact awake wait (here.symm.trans woken)
    simpa [State.setPc, State.setTimedOut, other] using woken

/-- The same where the flag is down already. -/
theorem Sound.setPc (sound : Sound initialized s) (away : (s.kernel.pc t).isBlocked = false)
    (unflagged : s.kernel.timedOut t = false) (still : pc.isBlocked = false)
    (awake : ∀ wait, pc ≠ .woken wait) : Sound initialized (s.setPc t pc) := by
  have same : s.kernel.setTimedOut t false = s.kernel := by
    rw [← unflagged, State.setTimedOut, Function.update_eq_self]
  have moved := sound.move away still awake
  rw [same] at moved
  exact moved

theorem Sound.schedYieldWaitIpi (sound : Sound initialized s)
    (here : s.kernel.pc t = .looking wait) :
    Sound initialized (s.schedYieldWaitIpi initialized t wait) := by
  have away : (s.kernel.pc t).isBlocked = false := by rw [here]; rfl
  have unflagged : s.kernel.timedOut t = false := sound.good.not_flagged fun wait' => by simp [here]
  have loose := sound.good.not_chained away
  have good : Good initialized (s.schedYieldWaitIpi initialized t wait).kernel := by
    cases wait with
    | untimed w insertReal =>
        exact sound.good.block (.untimed w insertReal) away unflagged sound.good.formed
          fun u inside => .inr inside
    | timed w insertReal ticks i =>
        cases initialized with
        | false =>
            exact sound.good.block (.timed w insertReal ticks i) away unflagged
              sound.good.formed fun u inside => .inr inside
        | true =>
            obtain ⟨formed, queued⟩ := sound.good.formed.insert loose
            refine sound.good.block (.timed w insertReal ticks i) away unflagged formed ?_
            intro u inside
            rcases (queued u).mp inside with same | old
            · exact .inl ⟨same, rfl, rfl⟩
            · exact .inr old
  have pcs : (s.schedYieldWaitIpi initialized t wait).kernel.pc =
      Function.update s.kernel.pc t (.blocked wait) := by
    cases wait <;> cases initialized <;> rfl
  have flags : (s.schedYieldWaitIpi initialized t wait).kernel.timedOut = s.kernel.timedOut := by
    cases wait <;> cases initialized <;> rfl
  have log : (s.schedYieldWaitIpi initialized t wait).log = s.log ++ [.blocked t] := rfl
  refine ⟨good, fun u => ?_, fun u moment pushed => ?_, fun u wait' woken => ?_⟩
  · rw [log, pcs]
    have before := sound.turns u
    by_cases same : u = t
    · subst same
      rw [away] at before
      rw [Function.update_self]
      exact turns_turn before (if_pos rfl)
    · rw [Function.update_of_ne same]
      exact turns_other before (if_neg (Ne.symm same))
  · rw [log] at pushed
    exact sound.unlinked u moment (by simpa using pushed)
  · rw [pcs] at woken
    have other : u ≠ t := by
      intro same
      subst same
      rw [Function.update_self] at woken
      cases woken
    rw [Function.update_of_ne other] at woken
    rw [log, lastPush_blocked, flags]
    exact sound.carried u wait' woken

/-- The push of a task that has been taken out of both structures. -/
theorem Sound.push (sound : Sound initialized s) (blocked : s.kernel.pc t = .blocked wait)
    (removed : Removed s.kernel wait.waitq t m) (tick : Tick T W)
    (others : ∀ u w, tick = .waking u w → u ≠ t ∧ s.kernel.tick = .waking u w)
    (locked : tick.isIdle = false → initialized = true) :
    Sound initialized
      ⟨{ m.setPc t (.woken wait) with tick := tick }, s.log ++ [.pushed t m]⟩ := by
  refine ⟨sound.good.push blocked removed tick others locked, fun u => ?_, fun u moment pushed => ?_,
    fun u wait' woken => ?_⟩
  · have before := sound.turns u
    show Turns.turns (mark u) false _ = some (Function.update m.pc t _ u).isBlocked
    by_cases same : u = t
    · subst same
      rw [blocked] at before
      rw [Function.update_self]
      exact turns_turn before (if_pos rfl)
    · rw [Function.update_of_ne same, removed.pc]
      exact turns_other before (if_neg (Ne.symm same))
  · rcases List.mem_append.mp pushed with old | new
    · exact sound.unlinked u moment old
    · obtain ⟨rfl, rfl⟩ := Event.pushed.inj (List.mem_singleton.mp new)
      exact sound.good.unlinked blocked removed
  · show ∃ moment, lastPush u (s.log ++ [.pushed t m]) = some moment ∧ m.timedOut u = _
    rw [lastPush_pushed]
    by_cases same : t = u
    · subst same
      exact ⟨m, if_pos rfl, rfl⟩
    · have there : s.kernel.pc u = .woken wait' := by
        rw [← removed.pc, ← woken]
        exact (Function.update_of_ne (Ne.symm same) ..).symm
      rw [if_neg same, removed.timedOut u (Ne.symm same)]
      exact sound.carried u wait' there

/-- A waker takes a task out of a wait queue and pushes it. -/
theorem Sound.waken (sound : Sound initialized s)
    (free : s.kernel.timeoutLockFree initialized = true)
    (inside : t ∈ (s.kernel.waiting w).map Prod.fst) {waitq : T → Option W}
    (others : ∀ u, u ≠ t → waitq u = s.kernel.waitq u) {waiting : List (T × BitVec 8)}
    (left : waiting = without (s.kernel.waiting w) t) :
    Sound initialized (({ s with kernel := { s.kernel with
      waiting := Function.update s.kernel.waiting w waiting
      waitq := waitq } } : Sys T W).waitqFlatPriorityqDequeueFunc initialized t) ∧
    (({ s with kernel := { s.kernel with
      waiting := Function.update s.kernel.waiting w waiting
      waitq := waitq } } : Sys T W).waitqFlatPriorityqDequeueFunc initialized t).kernel.tick =
        s.kernel.tick := by
  obtain ⟨wait, blocked, rfl⟩ := (sound.good.queued t w).mp inside
  subst left
  unfold Sys.waitqFlatPriorityqDequeueFunc
  generalize dequeue : State.timeoutDequeueTask initialized _ t = result
  obtain ⟨dequeued, m⟩ := result
  have removed := sound.good.wakened free blocked others dequeue
  simp only [Sys.schedPush]
  generalize (if dequeued = true then m.setTimedOut t false else m) = m at removed
  rw [removed.pc, blocked]
  refine ⟨?_, removed.tick⟩
  have pushed := sound.push blocked removed m.tick
    (fun u w' waking => absurd (removed.tick.symm.trans waking) (sound.good.not_waking free w'))
    (fun busy => sound.good.locked (removed.tick ▸ busy))
  exact pushed

theorem next_popfront {queue : List (T × BitVec 8)} (served : answer queue .popfront = some t) :
    next queue .popfront = without queue t := by
  simp [next, served]

theorem Sound.waitqWakeupFront (sound : Sound initialized s)
    (free : s.kernel.timeoutLockFree initialized = true) :
    Sound initialized (s.waitqWakeupFront initialized w) := by
  unfold Sys.waitqWakeupFront State.waitqPopfront State.flatPriorityqPopfront
  cases served : answer (s.kernel.waiting w) .popfront with
  | none =>
      have same : next (s.kernel.waiting w) .popfront = s.kernel.waiting w := by
        simp [next, served]
      simp only [same, Function.update_eq_self]
      exact sound
  | some t =>
      exact (sound.waken free (mem_of_answer served) (fun u other => Function.update_of_ne other ..)
        (next_popfront served)).1

theorem Sound.dequeueAll (sound : Sound initialized s)
    (free : s.kernel.timeoutLockFree initialized = true) (left : ℕ) :
    Sound initialized (Sys.dequeueAll initialized w left s) := by
  induction left generalizing s with
  | zero => exact sound
  | succ left ih =>
      unfold Sys.dequeueAll State.flatPriorityqPopfront
      cases served : answer (s.kernel.waiting w) .popfront with
      | none => exact sound
      | some t =>
          obtain ⟨woken, tick⟩ := sound.waken free (mem_of_answer served)
            (fun u _ => rfl) (next_popfront served)
          refine ih woken ?_
          rw [State.timeoutLockFree, tick]
          exact free

omit [DecidableEq W] in
theorem waitqFlatPriorityqDequeueFunc_waiting :
    (s.waitqFlatPriorityqDequeueFunc initialized t).kernel.waiting = s.kernel.waiting := by
  unfold Sys.waitqFlatPriorityqDequeueFunc State.timeoutDequeueTask
  split_ifs <;> rfl

/-- There are no more tasks to take out than the queue is long. -/
theorem dequeueAll_waiting {left : ℕ} (enough : (s.kernel.waiting w).length ≤ left) :
    (Sys.dequeueAll initialized w left s).kernel.waiting w = [] := by
  induction left generalizing s with
  | zero => exact List.length_eq_zero_iff.mp (Nat.le_zero.mp enough)
  | succ left ih =>
      unfold Sys.dequeueAll State.flatPriorityqPopfront
      cases served : answer (s.kernel.waiting w) .popfront with
      | none =>
          exact PriorityFifo.front_eq_none.mp (Option.map_eq_none_iff.mp served)
      | some t =>
          have shorter : (without (s.kernel.waiting w) t).length < (s.kernel.waiting w).length := by
            obtain ⟨e, inside, rfl⟩ := List.mem_map.mp (mem_of_answer served)
            exact List.length_filter_lt_length_iff_exists.mpr ⟨e, inside, by simp⟩
          apply ih
          rw [waitqFlatPriorityqDequeueFunc_waiting]
          simp only [Function.update_self, next_popfront served]
          omega

/-- `waitq_wakeup_all` leaves nobody blocked on the wait queue. -/
theorem Sound.waitqWakeupAll (sound : Sound initialized s)
    (free : s.kernel.timeoutLockFree initialized = true) {wait : Wait W}
    (blocked : (s.waitqWakeupAll initialized w).kernel.pc t = .blocked wait) : wait.waitq ≠ w := by
  intro here
  have inside := ((sound.dequeueAll free _).good.queued t w).mpr ⟨wait, blocked, here⟩
  rw [dequeueAll_waiting (Nat.le_refl _)] at inside
  exact List.not_mem_nil inside

theorem Sound.look (sound : Sound initialized s) (here : s.kernel.pc t = .looking wait)
    (cond : Bool) : Sound initialized (s.look initialized t wait cond) := by
  have away : (s.kernel.pc t).isBlocked = false := by rw [here]; rfl
  have unflagged : s.kernel.timedOut t = false := sound.good.not_flagged fun wait' => by simp [here]
  have exits : Sound initialized (s.setPc t .running) :=
    sound.setPc away unflagged rfl fun wait' => by simp
  unfold Sys.look
  split_ifs
  · exact exits
  · exact exits
  · exact sound.schedYieldWaitIpi here

theorem Sound.resume (sound : Sound initialized s) (here : s.kernel.pc t = .woken wait) :
    Sound initialized (s.resume t wait) := by
  have away : (s.kernel.pc t).isBlocked = false := by rw [here]; rfl
  cases wait with
  | untimed w insertReal =>
      have unflagged : s.kernel.timedOut t = false := by
        rw [Bool.eq_false_iff]
        intro flag
        obtain ⟨wait, there, timed⟩ := sound.good.flagged t flag
        rw [here] at there
        cases there
        cases timed
      exact sound.setPc away unflagged rfl fun wait => by simp
  | timed w insertReal ticks i =>
      cases flag : s.kernel.timedOut t with
      | true =>
          simp only [Sys.resume, flag, if_true]
          exact sound.move away rfl fun wait => by simp
      | false =>
          simp only [Sys.resume, flag, Bool.false_eq_true, if_false]
          split
          · exact sound.setPc away flag rfl fun wait => by simp
          · exact sound.setPc away flag rfl fun wait => by simp

/-- The tick goes on under its lock. -/
theorem Sound.ticking (sound : Sound initialized s) {chain : DeltaChain T} (formed : Formed chain)
    (fewer : ∀ u, chain.isQueued u = true → s.kernel.chain.isQueued u = true) (tick : Tick T W)
    (popped : ∀ u w, tick = .waking u w → chain.isQueued u = false ∧
      s.kernel.chain.isQueued u = true ∧ w = s.kernel.waitq u)
    (locked : tick.isIdle = false → initialized = true) :
    Sound initialized { s with kernel := { s.kernel with chain := chain, tick := tick } } := by
  have good := sound.good
  apply sound.quiet
  · refine { good with
      formed := formed
      chained := fun u inside => good.chained u (fewer u inside)
      waking := fun u w waking => ?_
      locked := locked }
    obtain ⟨out, was, rfl⟩ := popped u w waking
    obtain ⟨-, wait, blocked, timed⟩ := good.chained u was
    exact ⟨out, wait, blocked, timed, good.pointer u wait blocked⟩
  · exact fun u => rfl
  · exact fun u wait woken => ⟨woken, rfl⟩

theorem Sound.tick (sound : Sound initialized s) (moved : step initialized s .tick = some s') :
    Sound initialized s' := by
  simp only [step] at moved
  split at moved
  · cases moved
    obtain ⟨formed, same, advances⟩ := sound.good.formed.tick
    apply sound.ticking formed fun u inside => same u ▸ inside
    · intro u w waking
      split at waking <;> cases waking
    · intro busy
      split at busy
      · rename_i follows
        obtain ⟨u, inside⟩ := advances follows
        exact (sound.good.chained u inside).1
      · cases busy
  · cases moved

theorem Sound.advance (sound : Sound initialized s)
    (moved : step initialized s .advance = some s') : Sound initialized s' := by
  simp only [step] at moved
  split at moved
  · rename_i advancing
    have on : initialized = true := sound.good.locked (by rw [advancing]; rfl)
    split at moved
    · cases moved
      exact sound.ticking sound.good.formed (fun u inside => inside) .idle
        (fun u w waking => by cases waking) fun _ => on
    · rename_i t chain popped
      cases moved
      obtain ⟨inside, formed, left⟩ := sound.good.formed.advance popped
      apply sound.ticking formed (fun u there => ((left u).mp there).2) _ _ fun _ => on
      intro u w waking
      obtain ⟨rfl, rfl⟩ := Tick.waking.inj waking
      refine ⟨?_, inside, rfl⟩
      rw [Bool.eq_false_iff]
      exact fun there => ((left t).mp there).1 rfl
  · cases moved

theorem Sound.wake (sound : Sound initialized s) (moved : step initialized s .wake = some s') :
    Sound initialized s' := by
  simp only [step] at moved
  split at moved
  · rename_i t w waking
    cases moved
    have on : initialized = true := sound.good.locked (by rw [waking]; rfl)
    obtain ⟨-, wait, blocked, -, same⟩ := sound.good.waking t _ waking
    obtain rfl : w = wait.waitq := Option.some.inj same
    have removed := sound.good.expired waking
    have pushed := sound.push blocked removed .advancing (fun u w' next => by cases next) fun _ => on
    have awake : (s.kernel.pc t).wake = .woken wait := by rw [blocked]; rfl
    rw [← awake] at pushed
    exact pushed
  · cases moved

theorem Sound.step {a : Action T W} (sound : Sound initialized s)
    (moved : step initialized s a = some s') : Sound initialized s' := by
  cases a with
  | waitUntil t w insertReal =>
      simp only [Wakeup.step] at moved
      split at moved
      · rename_i here
        cases moved
        exact sound.setPc (by rw [here]; rfl) (sound.good.not_flagged fun wait => by simp [here]) rfl
          fun wait => by simp
      · cases moved
  | waitUntilTimeout t w insertReal ticks =>
      simp only [Wakeup.step] at moved
      split at moved
      · rename_i here
        cases moved
        exact sound.setPc (by rw [here]; rfl) (sound.good.not_flagged fun wait => by simp [here]) rfl
          fun wait => by simp
      · cases moved
  | look t cond =>
      simp only [Wakeup.step] at moved
      split at moved
      · rename_i wait here
        obtain ⟨-, ⟨⟩⟩ := Option.ite_none_right_eq_some.mp moved
        exact sound.look here cond
      · cases moved
  | resume t =>
      simp only [Wakeup.step] at moved
      split at moved
      · rename_i wait here
        cases moved
        exact sound.resume here
      · cases moved
  | wakeupFront w =>
      obtain ⟨free, ⟨⟩⟩ := Option.ite_none_right_eq_some.mp moved
      exact sound.waitqWakeupFront free
  | wakeupAll w =>
      obtain ⟨free, ⟨⟩⟩ := Option.ite_none_right_eq_some.mp moved
      exact sound.dequeueAll free _
  | tick => exact sound.tick moved
  | advance => exact sound.advance moved
  | wake => exact sound.wake moved
  | setMetadata t metadata =>
      cases moved
      exact sound.quiet { sound.good with } (fun u => rfl) fun u wait woken => ⟨woken, rfl⟩

theorem sound_initial (metadata : T → Metadata) :
    Sound initialized (initial metadata : Sys T W) where
  good :=
    { nodup := fun _ => List.nodup_nil
      queued := fun t w => iff_of_false List.not_mem_nil fun ⟨_, blocked, _⟩ => by cases blocked
      pointer := fun t wait blocked => by cases blocked
      formed := formed_empty
      chained := fun t inside => absurd inside (by simp [initial, empty_not_queued])
      waking := fun t w waking => by cases waking
      locked := fun busy => by cases busy
      flagged := fun t flag => by cases flag }
  turns := fun _ => rfl
  unlinked := fun _ _ pushed => absurd pushed List.not_mem_nil
  carried := fun t wait woken => by cases woken

theorem Sound.exactlyOnce (sound : Sound initialized s) : ExactlyOnce s where
  turns := sound.turns
  pushes := fun t => count_of_turns (sound.turns t)
  unlinked := sound.unlinked
  queued := by
    intro t wait blocked w
    by_cases here : w = wait.waitq
    · rw [if_pos here]
      exact List.count_eq_one_of_mem (sound.good.nodup w)
        ((sound.good.queued t w).mpr ⟨wait, blocked, here.symm⟩)
    · rw [if_neg here]
      apply List.count_eq_zero_of_not_mem
      intro inside
      obtain ⟨wait', blocked', there⟩ := (sound.good.queued t w).mp inside
      obtain rfl : wait = wait' := Pc.blocked.inj (blocked.symm.trans blocked')
      exact here there.symm
  timedOut := sound.carried
  found := by
    intro t w waking
    obtain ⟨-, wait, blocked, -, same⟩ := sound.good.waking t w waking
    exact ⟨wait, blocked, same⟩

theorem ExactlyOnce.tick_moves (once : ExactlyOnce s) (busy : s.kernel.tick.isIdle = false) :
    (step initialized s .advance).isSome ∨ (step initialized s .wake).isSome := by
  cases here : s.kernel.tick with
  | idle =>
      rw [here] at busy
      cases busy
  | advancing =>
      refine .inl ?_
      cases popped : s.kernel.chain.advance <;> simp [Wakeup.step, here, popped]
  | waking t w =>
      obtain ⟨wait, -, rfl⟩ := once.found t w here
      exact .inr (by simp [Wakeup.step, here])

end Steps

/-- **Each time a task blocks it is pushed back once**, when it is linked in no wait queue and not
in the timeout chain, and marked as timed out just when the tick took it out.  This holds after
every run of waits, timed waits, wakeups and ticks from a kernel in which nobody waits. -/
theorem exactly_once_wakeup {metadata : T → Metadata} {run : List (Action T W)} {s : Sys T W}
    (ran : exec (step initialized) (initial metadata) run = some s) : ExactlyOnce s := by
  have sound : Sound initialized s :=
    exec_invariant (fun _ _ _ sound moved => Sound.step sound moved) (sound_initial metadata) ran
  exact sound.exactlyOnce

/-- **A waker finishes what it started.**  After every such run `waitq_wakeup_all`, where it gets the
lock, leaves nobody blocked on the wait queue; and a tick does not stop half way, it never follows a
NULL `metadata.waitq`. -/
theorem wakers_finish {metadata : T → Metadata} {run : List (Action T W)} {s : Sys T W}
    (ran : exec (step initialized) (initial metadata) run = some s) :
    (s.kernel.timeoutLockFree initialized = true → ∀ w t wait,
      (s.waitqWakeupAll initialized w).kernel.pc t = .blocked wait → wait.waitq ≠ w) ∧
    (s.kernel.tick.isIdle = false →
      (step initialized s .advance).isSome ∨ (step initialized s .wake).isSome) := by
  have sound : Sound initialized s :=
    exec_invariant (fun _ _ _ sound moved => Sound.step sound moved) (sound_initial metadata) ran
  exact ⟨fun free w t wait blocked => sound.waitqWakeupAll free blocked,
    sound.exactlyOnce.tick_moves⟩

/-- Task 0 waits for a tick, 1 and 2 without a timeout; 2 comes while the tick is waking 0. -/
def mixedRun : List (Action (Fin 3) Unit) :=
  [.waitUntilTimeout 0 () false 1, .look 0 false, .waitUntil 1 () false, .look 1 false,
    .tick, .advance, .waitUntil 2 () false, .look 2 false, .wake, .advance, .resume 0,
    .wakeupAll ()]

theorem exactly_once_wakeup_mixed :
    ∃ s, exec (step true) (initial fun _ => ⟨1#8, 1#8⟩) mixedRun = some s ∧
      (s.log.map fun e => match e with
        | .blocked t => (t, none)
        | .pushed t moment => (t, some (moment.timedOut t))) =
        [(0, none), (1, none), (2, none), (0, some true), (1, some false), (2, some false)] ∧
      ExactlyOnce s :=
  ⟨_, rfl, rfl, exactly_once_wakeup true
    (show exec (step true) (initial fun _ => ⟨1#8, 1#8⟩) mixedRun = some _ from rfl)⟩

end Twan.Kernel.Wakeup
