/-
# Twan.Kernel.TimedWait -- the locks of a timed wait

`include/kernel/sched/waitq.h`, `waitq_task_wait_until_timeout`: a task that waits takes the
timeout lock and then the lock of its wait queue, looks at its condition, and either gives both
back or leaves that to `sched_yield_wait_ipi`, which puts it to sleep.  Everyone else who uses the
two locks does so too: untimed waits, wakeups and the timeout tick.  A context is a task or an
interrupt handler; a step is one atomic access of `__mcs_lock` or `__mcs_unlock`, and what the
condition, `timed_out()` and the scheduler answer is part of the action.

The exit of a task that was woken without a timeout and finds its condition false again unlocks
the timeout lock with `waitq_node`.  In every run in which that exit is not taken
(`timed_wait_locks`) each unlock is made with the node of its lock, who has returned or sleeps
holds nothing, and some context goes on whenever one spins; `timed_wait_stuck` is what the exit
does.
-/
import Twan.Sync.McsCalls

namespace Twan.Kernel.TimedWait

set_option autoImplicit false
set_option linter.unusedSectionVars false

open Twan.Base Twan.Sync Twan.Sync.McsCalls

/-- The timeout lock and the locks of the wait queues. -/
inductive Lock (W : Type) where
  | timeout
  | waitq (w : W)
  deriving DecidableEq

/-- What a context has left to execute. -/
inductive Code (C W : Type) where
  | done
  | lock (l : Lock W) (k : Code C W)
  /-- An unlock of `l` with the node that was made for the lock `node`. -/
  | unlock (l node : Lock W) (k : Code C W)
  /-- `if ((cond))`. -/
  | cond (yes no : Code C W)
  /-- `if (timed_out())`. -/
  | timedOut (yes no : Code C W)
  /-- The task is switched out, until someone pushes it to the scheduler. -/
  | block (k : Code C W)
  /-- The head of the loop of `waitq_task_wait_until`. -/
  | waitUntil (w : W)
  /-- An unlock with a node of another lock: `next` was NULL, the compare-exchange of `tail` is
  next. -/
  | strayCmpxchg (node : Lock W) (k : Code C W)
  /-- `spin_until(next = atomic_ptr_read(&node->next))`. -/
  | straySpin (node : Lock W) (k : Code C W)
  /-- `atomic32_set(&next->state, MCS_UNLOCKED)`. -/
  | straySet (node : Lock W) (next : C × ℕ) (k : Code C W)

section Source

variable {C W : Type} (initialized : Bool)

/-- `timeout_lock`, which does nothing before `timeout_init`. -/
def timeoutLock (k : Code C W) : Code C W :=
  if initialized then .lock .timeout k else k

/-- `timeout_unlock`. -/
def timeoutUnlock (node : Lock W) (k : Code C W) : Code C W :=
  if initialized then .unlock .timeout node k else k

/-- `yield_wait_timeout_lock`. -/
def yieldWaitTimeoutLock (w : W) (k : Code C W) : Code C W :=
  timeoutLock initialized (.lock (.waitq w) k)

/-- `yield_wait_timeout_unlock`. -/
def yieldWaitTimeoutUnlock (w : W) (waitqNode timeoutNode : Lock W) (k : Code C W) : Code C W :=
  .unlock (.waitq w) waitqNode (timeoutUnlock initialized timeoutNode k)

/-- `sched_yield_wait_and_unlock`: `sched_yield_wait_ipi` unlocks for the task it switches out. -/
def schedYieldWaitAndUnlock (w : W) (timeout : Bool) (k : Code C W) : Code C W :=
  if timeout then yieldWaitTimeoutUnlock initialized w (.waitq w) .timeout (.block k)
  else .unlock (.waitq w) (.waitq w) (.block k)

/-- The loop of `waitq_task_wait_until_timeout`, by the iterations that are left. -/
def timeoutLoop (w : W) : ℕ → Code C W
  | 0 => .done
  | left + 1 =>
      yieldWaitTimeoutLock initialized w (.cond
        (yieldWaitTimeoutUnlock initialized w (.waitq w) .timeout .done)
        (if left = 0 then yieldWaitTimeoutUnlock initialized w (.waitq w) (.waitq w) .done
          else schedYieldWaitAndUnlock initialized w true (.timedOut .done (timeoutLoop w left))))

/-- `waitq_task_wait_until_timeout`. -/
def waitqTaskWaitUntilTimeout (w : W) : Code C W := timeoutLoop initialized w 2

/-- One iteration of `waitq_task_wait_until`. -/
def waitqTaskWaitUntil (w : W) : Code C W :=
  .lock (.waitq w) (.cond (.unlock (.waitq w) (.waitq w) .done)
    (schedYieldWaitAndUnlock initialized w false (.waitUntil w)))

/-- `waitq_wakeup_front` and `waitq_wakeup_all`. -/
def waitqWakeup (w : W) : Code C W :=
  timeoutLock initialized (.lock (.waitq w) (.unlock (.waitq w) (.waitq w)
    (timeoutUnlock initialized .timeout .done)))

/-- `timeout_task_dequeue_from_waitq` for each task that the tick finds due. -/
def tickLoop : List W → Code C W
  | [] => .unlock .timeout .timeout .done
  | w :: due => .lock (.waitq w) (.unlock (.waitq w) (.waitq w) (tickLoop due))

/-- The timeout part of `gp_isr`. -/
def gpIsr (due : List W) : Code C W := .lock .timeout (tickLoop due)

inductive Call (W : Type) where
  | waitUntilTimeout (w : W)
  | waitUntil (w : W)
  | wakeup (w : W)
  | tick (due : List W)

def Call.code : Call W → Code C W
  | .waitUntilTimeout w => waitqTaskWaitUntilTimeout initialized w
  | .waitUntil w => .waitUntil w
  | .wakeup w => waitqWakeup initialized w
  | .tick due => gpIsr due

end Source

structure Sys (C W : Type) where
  locks : Locks C (Lock W)
  code : C → Code C W

inductive Action (C W : Type) where
  | start (c : C) (call : Call W)
  /-- One atomic access of a context. -/
  | move (c : C)
  /-- What its condition or `timed_out()` is. -/
  | decide (c : C) (answer : Bool)
  /-- The task runs again. -/
  | wake (c : C)

section Model

variable {C W : Type} [DecidableEq C] [DecidableEq W] (initialized : Bool)

def Sys.initial : Sys C W := ⟨.initial, fun _ => .done⟩

def Sys.goto (s : Sys C W) (c : C) (k : Code C W) : Sys C W :=
  { s with code := Function.update s.code c k }

/-- `next` of the node that the context made for this lock and has used already. -/
def Sys.usedNext (s : Sys C W) (c : C) (node : Lock W) : Option (C × ℕ) :=
  ((s.locks.lock node).node (c, s.locks.serial c node - 1)).next

/-- `state` of a node becomes `MCS_UNLOCKED`. -/
def Sys.grant (s : Sys C W) (node : Lock W) (n : C × ℕ) : Sys C W :=
  let e := s.locks.lock node
  let nodes := Function.update e.node n { e.node n with state := .unlocked }
  { s with locks := s.locks.setLock node { e with node := nodes } }

/-- An access of a call on a lock, after which the context goes on if the call returns. -/
def Sys.call (s : Sys C W) (c : C) (k : Code C W) :
    Option (Bool × Locks C (Lock W)) → Option (Sys C W)
  | none => none
  | some (true, locks) => some ({ s with locks := locks }.goto c k)
  | some (false, locks) => some { s with locks := locks }

/-- One step; `none` when the context is not at it. -/
def step (s : Sys C W) : Action C W → Option (Sys C W)
  | .start c call =>
      match s.code c with
      | .done => some (s.goto c (call.code initialized))
      | _ => none
  | .move c =>
      match s.code c with
      | .lock l k => s.call c k (s.locks.stepLock c l)
      | .unlock l node k =>
          if node = l then s.call c k (s.locks.stepUnlock c l)
          else match s.usedNext c node with
            | none => some (s.goto c (.strayCmpxchg node k))
            | some next => some (s.goto c (.straySet node next k))
      -- tail is a node that was made for its lock, so that the exchange fails
      | .strayCmpxchg node k => some (s.goto c (.straySpin node k))
      | .straySpin node k =>
          match s.usedNext c node with
          | none => some s
          | some next => some (s.goto c (.straySet node next k))
      | .straySet node next k => some ((s.grant node next).goto c k)
      | .waitUntil w => some (s.goto c (waitqTaskWaitUntil initialized w))
      | _ => none
  | .decide c answer =>
      match s.code c with
      | .cond yes no => some (s.goto c (if answer then yes else no))
      | .timedOut yes no => some (s.goto c (if answer then yes else no))
      | _ => none
  | .wake c =>
      match s.code c with
      | .block k => some (s.goto c k)
      | _ => none

/-- What is left of `waitq_task_wait_until_timeout` where the condition of a task that was woken
without a timeout is false. -/
def Code.isLastExit : Code C W → Bool
  | .unlock _ _ (.unlock .timeout (.waitq _) .done) => true
  | _ => false

/-- The context evaluates the condition of a timed wait after it was woken without a timeout. -/
def Sys.looksAgain (s : Sys C W) (c : C) : Bool :=
  match s.code c with
  | .cond _ no => no.isLastExit
  | _ => false

/-- A task that was woken without a timeout finds its condition true. -/
def Calm (s : Sys C W) : Action C W → Prop
  | .decide c answer => s.looksAgain c = true → answer = true
  | _ => True

instance (s : Sys C W) : ∀ act, Decidable (Calm s act)
  | .decide c answer => inferInstanceAs (Decidable (s.looksAgain c = true → answer = true))
  | .start _ _ => isTrue trivial
  | .move _ => isTrue trivial
  | .wake _ => isTrue trivial

/-- The context spins: its next step changes nothing. -/
def Waiting (s : Sys C W) (c : C) : Prop := step initialized s (.move c) = some s

/-- The context has a step other than spinning. -/
def Enabled (s : Sys C W) (c : C) : Prop :=
  (∃ t, step initialized s (.move c) = some t ∧ t ≠ s) ∨
    ∃ answer t, step initialized s (.decide c answer) = some t ∧ t ≠ s

/-- What the locks are used like. -/
structure Disciplined (s : Sys C W) : Prop where
  /-- A release is made with the node of the acquisition, and of a lock that is held. -/
  released : ∀ c l node k, s.code c = .unlock l node k → node = l ∧ (s.locks.pc c l).Holding
  /-- Who has returned or sleeps has released every node it used. -/
  returned : ∀ c, (s.code c = .done ∨ ∃ k, s.code c = .block k) →
    ∀ l k, (s.locks.lock l).pc (c, k) = .fresh ∨ (s.locks.lock l).pc (c, k) = .done
  exclusive : ∀ l c c', (s.locks.pc c l).Holding → (s.locks.pc c' l).Holding → c = c'
  /-- Whenever a context spins for a lock, some context has a step other than spinning. -/
  available : ∀ c, Waiting initialized s c → ∃ c', Enabled initialized s c'

end Model

/-! ## What a context holds -/

/-- The code of the exit with the wrong node. -/
def wrongExit {C W : Type} (w : W) : Code C W :=
  .unlock (.waitq w) (.waitq w) (.unlock .timeout (.waitq w) .done)

/-- The code fits what its context holds: `e` is where its acquisition of each lock is.  The
timeout lock is taken first, and one wait queue at a time. -/
def Obeys {C W N : Type} [DecidableEq W] (e : Lock W → McsLock.Pc N) : Code C W → Prop
  | .done => ∀ l, e l = .fresh
  | .waitUntil _ => ∀ l, e l = .fresh
  | .block k => (∀ l, e l = .fresh) ∧ Obeys e k
  | .timedOut yes no => (∀ l, e l = .fresh) ∧ Obeys e yes ∧ Obeys e no
  | .cond yes no => (∀ l, e l = .fresh ∨ e l = .critical) ∧ Obeys e yes ∧
      ((∃ w, no = wrongExit w) ∨ Obeys e no)
  | .lock l k => Arriving (e l) ∧
      (∀ l', l' ≠ l → e l' = .fresh ∨ e l' = .critical ∧ l' = .timeout) ∧
      Obeys (Function.update e l .critical) k
  | .unlock l node k => node = l ∧ (e l).Holding ∧
      (∀ l', l' ≠ l → e l' = .fresh ∨ e l' = .critical) ∧ Obeys (Function.update e l .fresh) k
  | _ => False

section Obeys

variable {C W N : Type} [DecidableEq W] {e : Lock W → McsLock.Pc N} {initialized : Bool} {w : W}

theorem update_free {l : Lock W} (free : e l = .fresh) :
    Function.update (Function.update e l .critical) l .fresh = e := by
  rw [Function.update_idem, ← free, Function.update_eq_self]

/-- Where the acquisitions are once `timeout_lock` has returned. -/
def held (initialized : Bool) (e : Lock W → McsLock.Pc N) : Lock W → McsLock.Pc N :=
  if initialized then Function.update e .timeout .critical else e

theorem held_waitq (w : W) : held initialized e (.waitq w) = e (.waitq w) := by
  unfold held
  split_ifs
  · exact Function.update_of_ne (by simp) ..
  · rfl

variable (all : ∀ l, e l = .fresh)

include all

theorem held_cases (l : Lock W) : held initialized e l = .fresh ∨
    held initialized e l = .critical ∧ l = .timeout := by
  unfold held
  split_ifs
  · by_cases here : l = .timeout
    · subst here
      exact .inr ⟨Function.update_self _ _ _, rfl⟩
    · exact .inl (by rw [Function.update_of_ne here, all])
  · exact .inl (all l)

theorem obeys_timeoutLock {k : Code C W} (next : Obeys (held initialized e) k) :
    Obeys e (timeoutLock initialized k) := by
  unfold timeoutLock
  unfold held at next
  split_ifs at next ⊢
  · exact ⟨.inl (all _), fun l _ => .inl (all l), next⟩
  · exact next

theorem obeys_timeoutUnlock {k : Code C W} (next : Obeys e k) :
    Obeys (held initialized e) (timeoutUnlock initialized .timeout k) := by
  unfold timeoutUnlock held
  split_ifs
  · refine ⟨rfl, ?_, fun l apart => ?_, ?_⟩
    · rw [Function.update_self]
      trivial
    · rw [Function.update_of_ne apart]
      exact .inl (all l)
    · rw [update_free (all _)]
      exact next
  · exact next

omit all in
/-- The lock of a wait queue is taken and given back. -/
theorem obeys_lock {k : Code C W} (free : e (.waitq w) = .fresh)
    (others : ∀ l, e l = .fresh ∨ e l = .critical ∧ l = .timeout)
    (next : Obeys (Function.update e (.waitq w) .critical) k) : Obeys e (.lock (.waitq w) k) :=
  ⟨.inl free, fun l _ => others l, next⟩

omit all in
theorem obeys_unlock {k : Code C W} (free : e (.waitq w) = .fresh)
    (others : ∀ l, e l = .fresh ∨ e l = .critical ∧ l = .timeout) (next : Obeys e k) :
    Obeys (Function.update e (.waitq w) .critical) (.unlock (.waitq w) (.waitq w) k) := by
  refine ⟨rfl, ?_, fun l apart => ?_, ?_⟩
  · rw [Function.update_self]
    trivial
  · rw [Function.update_of_ne apart]
    exact (others l).imp_right And.left
  · rw [update_free free]
    exact next

omit all in
theorem inside_cases {l l' : Lock W} (others : ∀ l, e l = .fresh ∨ e l = .critical ∧ l = .timeout) :
    Function.update e l .critical l' = .fresh ∨ Function.update e l .critical l' = .critical := by
  by_cases here : l' = l
  · subst here
    exact .inr (Function.update_self _ _ _)
  · rw [Function.update_of_ne here]
    exact (others l').imp_right And.left

theorem obeys_timeoutLoop (left : ℕ) : Obeys e (timeoutLoop initialized w left : Code C W) := by
  have free : held initialized e (.waitq w) = .fresh := (held_waitq w).trans (all _)
  have others : ∀ l, held initialized e l = .fresh ∨ held initialized e l = .critical ∧ l = .timeout :=
    held_cases all
  induction left with
  | zero => exact all
  | succ left ih =>
      refine obeys_timeoutLock all (obeys_lock free others ⟨fun l => inside_cases others, ?_, ?_⟩)
      · exact obeys_unlock free others (obeys_timeoutUnlock all all)
      · split_ifs
        · -- the last iteration: the exit is the wrong one, or there is no timeout lock
          cases initialized with
          | true => exact .inl ⟨w, rfl⟩
          | false => exact .inr (obeys_unlock free others all)
        · right
          exact obeys_unlock free others (obeys_timeoutUnlock all ⟨all, all, all, ih⟩)

theorem obeys_tickLoop (due : List W) :
    Obeys (held true e) (tickLoop due : Code C W) := by
  have others : ∀ l, held true e l = .fresh ∨ held true e l = .critical ∧ l = .timeout :=
    held_cases all
  induction due with
  | nil => exact show Obeys (held true e) (timeoutUnlock true .timeout .done) from
      obeys_timeoutUnlock all all
  | cons w due ih =>
      have free : held true e (.waitq w) = .fresh := (held_waitq w).trans (all _)
      exact obeys_lock free others (obeys_unlock free others ih)

theorem obeys_waitUntil (w : W) : Obeys e (waitqTaskWaitUntil initialized w : Code C W) := by
  have others : ∀ l, e l = .fresh ∨ e l = .critical ∧ l = .timeout := fun l => .inl (all l)
  refine obeys_lock (all _) others ⟨fun l => inside_cases others, ?_, .inr ?_⟩
  · exact obeys_unlock (all _) others all
  · exact obeys_unlock (all _) others ⟨all, all⟩

/-- The code of every call fits a context that holds nothing. -/
theorem call_obeys (call : Call W) : Obeys e (call.code initialized : Code C W) := by
  have free : ∀ w, held initialized e (.waitq w) = .fresh := fun w => (held_waitq w).trans (all _)
  have others : ∀ l, held initialized e l = .fresh ∨ held initialized e l = .critical ∧ l = .timeout :=
    held_cases all
  cases call with
  | waitUntilTimeout w => exact obeys_timeoutLoop all 2
  | waitUntil w => exact all
  | wakeup w =>
      exact obeys_timeoutLock all (obeys_lock (free w) others
        (obeys_unlock (free w) others (obeys_timeoutUnlock all all)))
  | tick due => exact show Obeys e (timeoutLock true (tickLoop due)) from
      obeys_timeoutLock all (obeys_tickLoop all due)

end Obeys

/-! ## The invariant -/

section Invariant

variable {C W : Type} [DecidableEq C] [DecidableEq W] {initialized : Bool} {s t : Sys C W} {c : C}

/-- The locks are used by their rules, and every context holds what its code fits. -/
structure Good (s : Sys C W) : Prop where
  locks : McsCalls.Inv s.locks
  obeys : ∀ c, Obeys (s.locks.pc c) (s.code c)

theorem good_initial : Good (Sys.initial : Sys C W) where
  locks := McsCalls.inv_initial
  obeys _ := fun _ => rfl

/-- A step of `c` that leaves the locks. -/
theorem Good.goto (good : Good s) {k : Code C W} (obeys : Obeys (s.locks.pc c) k) :
    Good (s.goto c k) := by
  refine ⟨good.locks, fun c' => ?_⟩
  by_cases here : c' = c
  · subst here
    simpa [Sys.goto] using obeys
  · simpa [Sys.goto, here] using good.obeys c'

/-- An access of a call on `l` by `c`, whether the call returns or not. -/
theorem Good.call (good : Good s) {k : Code C W} {l : Lock W} {returned : Bool}
    {locks : Locks C (Lock W)} (moved : s.call c k (some (returned, locks)) = some t)
    (inv : McsCalls.Inv locks) (others : ∀ c' l', c' ≠ c ∨ l' ≠ l → locks.pc c' l' = s.locks.pc c' l')
    (obeys : Obeys (Function.update (s.locks.pc c) l (locks.pc c l))
      (if returned then k else s.code c)) : Good t := by
  have pcs : locks.pc c = Function.update (s.locks.pc c) l (locks.pc c l) := by
    funext l'
    by_cases here : l' = l
    · subst here
      rw [Function.update_self]
    · rw [Function.update_of_ne here]
      exact others c l' (.inr here)
  have elsewhere : ∀ c', c' ≠ c → locks.pc c' = s.locks.pc c' := fun c' other =>
    funext fun l' => others c' l' (.inl other)
  rw [← pcs] at obeys
  cases returned with
  | true =>
      cases moved
      refine ⟨inv, fun c' => ?_⟩
      by_cases here : c' = c
      · subst here
        simpa [Sys.goto] using obeys
      · simpa [Sys.goto, here, elsewhere c' here] using good.obeys c'
  | false =>
      cases moved
      refine ⟨inv, fun c' => ?_⟩
      by_cases here : c' = c
      · subst here
        exact obeys
      · simpa [elsewhere c' here] using good.obeys c'

theorem Good.lock (good : Good s) {l : Lock W} {k : Code C W} (code : s.code c = .lock l k)
    (moved : s.call c k (s.locks.stepLock c l) = some t) : Good t := by
  have fits := good.obeys c
  rw [code] at fits
  obtain ⟨arriving, others, next⟩ := fits
  cases access : s.locks.stepLock c l with
  | none =>
      rw [access] at moved
      cases moved
  | some result =>
      obtain ⟨returned, locks⟩ := result
      rw [access] at moved
      obtain ⟨inv, here, frame⟩ := good.locks.stepLock arriving access
      refine good.call moved inv frame ?_
      rcases here with ⟨rfl, critical⟩ | ⟨rfl, waits⟩
      · rw [critical]
        exact next
      · rw [if_neg Bool.false_ne_true, code]
        refine ⟨?_, fun l' apart => ?_, ?_⟩
        · rw [Function.update_self]
          exact waits
        · rw [Function.update_of_ne apart]
          exact others l' apart
        · rw [Function.update_idem]
          exact next

theorem Good.unlock (good : Good s) {l node : Lock W} {k : Code C W}
    (code : s.code c = .unlock l node k) (moved : s.call c k (s.locks.stepUnlock c l) = some t) :
    Good t := by
  have fits := good.obeys c
  rw [code] at fits
  obtain ⟨same, holds, others, next⟩ := fits
  cases access : s.locks.stepUnlock c l with
  | none =>
      rw [access] at moved
      cases moved
  | some result =>
      obtain ⟨returned, locks⟩ := result
      rw [access] at moved
      obtain ⟨inv, here, frame⟩ := good.locks.stepUnlock holds access
      refine good.call moved inv frame ?_
      rcases here with ⟨rfl, fresh⟩ | ⟨rfl, still⟩
      · rw [fresh]
        exact next
      · rw [if_neg Bool.false_ne_true, code]
        refine ⟨same, ?_, fun l' apart => ?_, ?_⟩
        · rw [Function.update_self]
          exact still
        · rw [Function.update_of_ne apart]
          exact others l' apart
        · rw [Function.update_idem]
          exact next

/-- **Every step that does not take the wrong exit keeps the invariant.** -/
theorem step_good {act : Action C W} (good : Good s) (calm : Calm s act)
    (moved : step initialized s act = some t) : Good t := by
  cases act with
  | start c call =>
      simp only [step] at moved
      split at moved <;> cases moved
      rename_i done
      have fits := good.obeys c
      rw [done] at fits
      exact good.goto (call_obeys fits call)
  | move c =>
      simp only [step] at moved
      have fits := good.obeys c
      split at moved
      · rename_i l k code
        exact good.lock code moved
      · rename_i l node k code
        rw [code] at fits
        rw [if_pos fits.1] at moved
        exact good.unlock code moved
      · rename_i code
        rw [code] at fits
        exact fits.elim
      · rename_i code
        rw [code] at fits
        exact fits.elim
      · rename_i code
        rw [code] at fits
        exact fits.elim
      · rename_i w code
        rw [code] at fits
        cases moved
        exact good.goto (obeys_waitUntil fits w)
      · cases moved
  | decide c answer =>
      simp only [step] at moved
      have fits := good.obeys c
      split at moved
      · rename_i yes no code
        rw [code] at fits
        cases moved
        obtain ⟨-, left, wrong | right⟩ := fits
        · obtain ⟨w, rfl⟩ := wrong
          have taken : answer = true := calm (by rw [Sys.looksAgain, code]; rfl)
          subst taken
          exact good.goto left
        · refine good.goto ?_
          split_ifs
          · exact left
          · exact right
      · rename_i yes no code
        rw [code] at fits
        cases moved
        refine good.goto ?_
        split_ifs
        · exact fits.2.1
        · exact fits.2.2
      · cases moved
  | wake c =>
      simp only [step] at moved
      have fits := good.obeys c
      split at moved <;> cases moved
      rename_i code
      rw [code] at fits
      exact good.goto fits.2

end Invariant

/-! ## Progress -/

section Progress

variable {C W : Type} [DecidableEq C] [DecidableEq W] {initialized : Bool} {s t : Sys C W} {c c' : C}
  {l : Lock W}

/-- The context is at a spin that fails. -/
def Blocked (s : Sys C W) (c : C) : Prop :=
  (∃ l k, s.code c = .lock l k ∧ s.locks.pc c l = .spin ∧ ¬ Moves s.locks c l) ∨
    ∃ l k, s.code c = .unlock l l k ∧ s.locks.pc c l = .spinNext ∧ ¬ Moves s.locks c l

theorem goto_ne {k : Code C W} (other : s.code c ≠ k) : s.goto c k ≠ s := by
  intro same
  refine other ?_
  rw [← congrFun (congrArg Sys.code same) c]
  exact Function.update_self _ _ _

theorem call_ne (k : Code C W) (returned : Bool) {locks : Locks C (Lock W)}
    (changed : locks.pc c l ≠ s.locks.pc c l) :
    ∃ t, s.call c k (some (returned, locks)) = some t ∧ t ≠ s := by
  cases returned with
  | true =>
      exact ⟨_, rfl, fun same => changed (congrArg (fun u : Sys C W => u.locks.pc c l) same)⟩
  | false =>
      exact ⟨_, rfl, fun same => changed (congrArg (fun u : Sys C W => u.locks.pc c l) same)⟩

theorem enabled_or_blocked (good : Good s) (busy : s.code c ≠ .done)
    (awake : ∀ k, s.code c ≠ .block k) : Enabled initialized s c ∨ Blocked s c := by
  have fits := good.obeys c
  have part : ∀ k : Code C W, sizeOf k < sizeOf (s.code c) → s.code c ≠ k := by
    rintro k less rfl
    exact Nat.lt_irrefl _ less
  cases code : s.code c with
  | done => exact absurd code busy
  | block k => exact absurd code (awake k)
  | lock l k =>
      rw [code] at fits
      rcases good.locks.lock_cases fits.1 with ⟨returned, locks, access, changed⟩ | ⟨spins, still⟩
      · obtain ⟨t, moved, other⟩ := call_ne k returned changed
        exact .inl (.inl ⟨t, by simp only [step, code, access]; exact moved, other⟩)
      · exact .inr (.inl ⟨l, k, code, spins, still⟩)
  | unlock l node k =>
      rw [code] at fits
      obtain ⟨rfl, holds, -⟩ := fits
      rcases good.locks.unlock_cases holds with ⟨returned, locks, access, changed⟩ | ⟨spins, still⟩
      · obtain ⟨t, moved, other⟩ := call_ne k returned changed
        exact .inl (.inl ⟨t, by simp only [step, code, access, if_true]; exact moved, other⟩)
      · exact .inr (.inr ⟨node, k, code, spins, still⟩)
  | cond yes no =>
      refine .inl (.inr ⟨true, _, by simp only [step, code]; rfl, goto_ne (part _ ?_)⟩)
      rw [code]
      simp
      omega
  | timedOut yes no =>
      refine .inl (.inr ⟨true, _, by simp only [step, code]; rfl, goto_ne (part _ ?_)⟩)
      rw [code]
      simp
      omega
  | waitUntil w =>
      refine .inl (.inl ⟨_, by simp only [step, code]; rfl, goto_ne ?_⟩)
      rw [code]
      simp [waitqTaskWaitUntil]
  | _ => rw [code] at fits; exact fits.elim

/-- A context in the middle of a call on a lock is at that call. -/
theorem inCall_code (good : Good s) (busy : s.locks.pc c l ≠ .fresh) :
    s.code c ≠ .done ∧ (∀ k, s.code c ≠ .block k) ∧ (s.locks.pc c l ≠ .critical →
      (∃ k, s.code c = .lock l k) ∨ ∃ k, s.code c = .unlock l l k) := by
  have fits := good.obeys c
  cases code : s.code c with
  | lock l' k =>
      rw [code] at fits
      refine ⟨by simp, by simp, fun notCritical => .inl ⟨k, ?_⟩⟩
      by_cases here : l = l'
      · rw [here]
      · rcases fits.2.1 l here with fresh | ⟨critical, -⟩
        · exact absurd fresh busy
        · exact absurd critical notCritical
  | unlock l' node k =>
      rw [code] at fits
      refine ⟨by simp, by simp, fun notCritical => .inr ⟨k, ?_⟩⟩
      obtain ⟨rfl, -, others, -⟩ := fits
      by_cases here : l = node
      · rw [here]
      · rcases others l here with fresh | critical
        · exact absurd fresh busy
        · exact absurd critical notCritical
  | cond yes no =>
      rw [code] at fits
      refine ⟨by simp, by simp, fun notCritical => ?_⟩
      exact absurd ((fits.1 l).resolve_left busy) notCritical
  | done => rw [code] at fits; exact absurd (fits l) busy
  | waitUntil w => rw [code] at fits; exact absurd (fits l) busy
  | block k => rw [code] at fits; exact absurd (fits.1 l) busy
  | timedOut yes no => rw [code] at fits; exact absurd (fits.1 l) busy
  | _ => rw [code] at fits; exact fits.elim

variable (good : Good s) (stuck : ∀ c, ¬ Enabled initialized s c)

include good stuck

theorem blocked_of_stuck (busy : s.code c ≠ .done) (awake : ∀ k, s.code c ≠ .block k) : Blocked s c :=
  (enabled_or_blocked good busy awake).resolve_left (stuck c)

/-- Where nobody has a step, no acquisition goes on. -/
theorem stuck_not_moves (c : C) : ¬ Moves s.locks c l := by
  intro moves
  obtain ⟨fresh, notCritical, -⟩ := McsLock.moves_busy moves
  obtain ⟨busy, awake, place⟩ := inCall_code good fresh
  have here := place notCritical
  rcases blocked_of_stuck good stuck busy awake with ⟨l', k, code, -, still⟩ | ⟨l', k, code, -, still⟩
  · obtain rfl : l' = l := by
      rcases here with ⟨_, code'⟩ | ⟨_, code'⟩
      · exact (Code.lock.inj (code.symm.trans code')).1
      · cases code.symm.trans code'
    exact still moves
  · obtain rfl : l' = l := by
      rcases here with ⟨_, code'⟩ | ⟨_, code'⟩
      · cases code.symm.trans code'
      · exact (Code.unlock.inj (code.symm.trans code')).1
    exact still moves

theorem stuck_not_unlock (c : C) {k : Code C W} : s.code c ≠ .unlock l l k := by
  intro code
  rcases blocked_of_stuck good stuck (c := c) (by simp [code]) (by simp [code]) with
    ⟨l', k', code', -⟩ | ⟨l', k', code', spins, -⟩
  · cases code.symm.trans code'
  · obtain ⟨c', moves⟩ := good.locks.spinNext_waits spins
    exact stuck_not_moves good stuck c' moves

/-- Who holds a lock where nobody has a step waits for the lock of a wait queue, and holds the
timeout lock. -/
theorem stuck_holder (holds : s.locks.pc c l = .critical) :
    l = .timeout ∧ ∃ w k, s.code c = .lock (.waitq w) k := by
  obtain ⟨busy, awake, -⟩ := inCall_code good (c := c) (l := l) (by simp [holds])
  rcases blocked_of_stuck good stuck busy awake with ⟨l', k, code, spins, -⟩ | ⟨l', k, code, -⟩
  · have fits := good.obeys c
    rw [code] at fits
    have apart : l ≠ l' := by
      rintro rfl
      cases holds.symm.trans spins
    rcases fits.2.1 l apart with fresh | ⟨-, rfl⟩
    · cases holds.symm.trans fresh
    · refine ⟨rfl, ?_⟩
      cases l' with
      | timeout => exact absurd rfl apart
      | waitq w => exact ⟨w, k, code⟩
  · exact absurd code (stuck_not_unlock good stuck c)

theorem stuck_not_lock (c : C) {k : Code C W} : s.code c ≠ .lock l k := by
  -- whoever waits for `l` waits for its holder, who waits for a wait queue: at most twice
  have spins : ∀ c l k, s.code c = .lock l k → s.locks.pc c l = .spin := by
    intro c l k code
    rcases blocked_of_stuck good stuck (c := c) (by simp [code]) (by simp [code]) with
      ⟨l', k', code', spins, -⟩ | ⟨l', k', code', -⟩
    · rw [(Code.lock.inj (code.symm.trans code')).1]
      exact spins
    · cases code.symm.trans code'
  have holder : ∀ c l k, s.code c = .lock l k → ∃ c', s.locks.pc c' l = .critical := by
    intro c l k code
    obtain ⟨c', holds | moves⟩ := good.locks.spin_waits (spins c l k code)
    · exact ⟨c', holds⟩
    · exact absurd moves (stuck_not_moves good stuck c')
  intro code
  obtain ⟨c', holds⟩ := holder c l k code
  obtain ⟨-, w, k', code'⟩ := stuck_holder good stuck holds
  obtain ⟨c'', holds'⟩ := holder c' (.waitq w) k' code'
  cases (stuck_holder good stuck holds').1

/-- Where nobody has a step other than spinning, nobody spins. -/
theorem stuck_quiet (c : C) : s.code c = .done ∨ ∃ k, s.code c = .block k := by
  by_contra none
  obtain ⟨busy, awake⟩ := not_or.mp none
  rcases blocked_of_stuck good stuck busy (not_exists.mp awake) with ⟨l, k, code, -⟩ | ⟨l, k, code, -⟩
  · exact stuck_not_lock good stuck c code
  · exact stuck_not_unlock good stuck c code

end Progress

/-! ## Runs -/

section Runs

variable {C W : Type} [DecidableEq C] [DecidableEq W] {s : Sys C W}

theorem Good.disciplined {initialized : Bool} (good : Good s) : Disciplined initialized s where
  released c l node k code := by
    have fits := good.obeys c
    rw [code] at fits
    exact ⟨fits.1, fits.2.1⟩
  returned c quiet l k := by
    have fresh : s.locks.pc c l = .fresh := by
      have fits := good.obeys c
      rcases quiet with done | ⟨k, block⟩
      · rw [done] at fits
        exact fits l
      · rw [block] at fits
        exact fits.1 l
    by_contra used
    obtain ⟨used, live⟩ := not_or.mp used
    have last := good.locks.node_serial used live
    subst last
    exact used fresh
  exclusive l c c' left right := good.locks.holder_unique left right
  available c waiting := by
    by_contra none
    have stuck : ∀ c', ¬ Enabled initialized s c' := fun c' enabled => none ⟨c', enabled⟩
    rcases stuck_quiet good stuck c with done | ⟨k, block⟩
    · simp [Waiting, step, done] at waiting
    · simp [Waiting, step, block] at waiting

/-- **Where the wrong exit is not taken, the locks of a timed wait stay in order.** -/
theorem timed_wait_locks (initialized : Bool) {run : List (Action C W)}
    (calm : Along Calm (step initialized) .initial run)
    (ran : exec (step initialized) .initial run = some s) : Disciplined initialized s := by
  have good : Good s := exec_invariant_along (fun _ _ _ => step_good) good_initial calm ran
  exact good.disciplined

end Runs

/-! ## A run of each kind -/

/-- Context 0 finds its condition false, sleeps, is woken without a timeout and has both locks
again. -/
def secondLook : List (Action (Fin 2) Unit) :=
  [.start 0 (.waitUntilTimeout ()), .move 0, .move 0, .decide 0 false, .move 0, .move 0, .move 0,
    .move 0, .wake 0, .decide 0 false, .move 0, .move 0]

/-- Context 1 comes for the timeout lock and waits. -/
def comesSecond : List (Action (Fin 2) Unit) := [.start 1 (.wakeup ()), .move 1, .move 1]

/-- A context whose node is still `MCS_LOCKED` waits. -/
theorem waiting_of_spin {C W : Type} [DecidableEq C] [DecidableEq W] {initialized : Bool}
    {s : Sys C W} {c : C} {l : Lock W} {k : Code C W} (code : s.code c = .lock l k)
    (spins : s.locks.pc c l = .spin)
    (locked : ((s.locks.lock l).node (s.locks.node c l)).state = .locked) :
    Waiting initialized s c := by
  have place : (s.locks.lock l).pc (s.locks.node c l) = .spin := spins
  have same : s.locks.setLock l (s.locks.lock l) = s.locks := by
    simp [Locks.setLock]
  simp [Waiting, step, code, Locks.stepLock, Locks.lockNext, spins, McsLock.step, place, locked,
    same, Sys.call]

theorem timed_wait_locks_true_again : ∃ s : Sys (Fin 2) Unit,
    exec (step true) .initial (secondLook ++ comesSecond ++ [.decide 0 true]) = some s ∧
      Waiting true s 1 ∧ Disciplined true s := by
  obtain ⟨s, ran, code, spins, locked⟩ : ∃ s : Sys (Fin 2) Unit, exec (step true) .initial
      (secondLook ++ comesSecond ++ [.decide 0 true]) = some s ∧
      s.code 1 = waitqWakeup true () ∧ s.locks.pc 1 .timeout = .spin ∧
      ((s.locks.lock .timeout).node (s.locks.node 1 .timeout)).state = .locked :=
    ⟨_, rfl, rfl, rfl, rfl⟩
  exact ⟨s, ran, waiting_of_spin code spins locked, timed_wait_locks true (by decide +kernel) ran⟩

/-- **The condition is false again: context 0 spins for a successor of its `waitq_node`, and the
timeout lock is never free again.** -/
theorem timed_wait_stuck : ¬ ∀ (run : List (Action (Fin 2) Unit)) (s : Sys (Fin 2) Unit),
    exec (step true) .initial run = some s → Disciplined true s := by
  intro disciplined
  obtain ⟨s, ran, waiter, code, spins, locked, noDecision⟩ : ∃ s : Sys (Fin 2) Unit,
      exec (step true) .initial (secondLook ++ comesSecond ++
        [.decide 0 false, .move 0, .move 0, .move 0, .move 0]) = some s ∧
      step true s (.move 0) = some s ∧
      s.code 1 = waitqWakeup true () ∧ s.locks.pc 1 .timeout = .spin ∧
      ((s.locks.lock .timeout).node (s.locks.node 1 .timeout)).state = .locked ∧
      ∀ c answer, step true s (.decide c answer) = none :=
    ⟨_, rfl, rfl, rfl, rfl, rfl, fun c _ => match c with | 0 => rfl | 1 => rfl⟩
  have waker : Waiting true s 1 := waiting_of_spin code spins locked
  obtain ⟨c, ⟨t, moved, other⟩ | ⟨answer, t, decided, -⟩⟩ := (disciplined _ s ran).available 0 waiter
  · have same : step true s (.move c) = some s := by
      match c with
      | 0 => exact waiter
      | 1 => exact waker
    rw [same] at moved
    exact other (Option.some.inj moved).symm
  · rw [noDecision c answer] at decided
    cases decided

end Twan.Kernel.TimedWait
