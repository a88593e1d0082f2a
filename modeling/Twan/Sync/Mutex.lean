/-
# Twan.Sync.Mutex -- the ceiling mutex

`src/subsys/sync/mutex.c` with `waitq_task_wait_until`, `waitq_task_wait_until_timeout` and
`waitq_wakeup_front`: one mutex and its tasks.  A step is one access to the mutex, to the lock of
its wait queue or to the priority and criticality of the task, or one call of the wait queue, which
is the abstract queue of `Twan.Lib.FlatPriorityq`.  What the task's priority and criticality are is
part of the action, so that this is also one of many mutexes that a task uses.  The timeout lock is
left out, which allows more orders of the steps than there are.

The owner changes by the compare-exchange of `holder`, by the store in `waitq_wakeup_front`, and is
found again by a task that was woken and takes the path of an owner.  `mutex_law` is that these are
the operations of the abstract lock in `Twan.Base.HandOff`: one owner, whose acquisitions are the
count, and a release that goes to the task it wakes and to no one else.
-/
import Twan.Base.Guard
import Twan.Base.HandOff
import Twan.Base.Run
import Twan.Lib.FlatPriorityq

namespace Twan.Sync.Mutex

set_option autoImplicit false
set_option linter.dupNamespace false
set_option linter.unusedSectionVars false

open Twan.Base Twan.Base.HandOff Twan.Lib

/-- `metadata.priority` and `metadata.criticality` of a task, and the ceilings of a mutex. -/
structure Level where
  priority : BitVec 8
  criticality : BitVec 8
  deriving DecidableEq

/-- A task in one of the two wait loops: with a timeout or without, what it has saved, and whether
it was woken for this iteration, which with a timeout is the second and last. -/
structure Wait where
  timed : Bool
  saved : Level
  woken : Bool
  deriving DecidableEq

/-- Who calls `mutex_ipcp_trylock`. -/
inductive Via where
  | alone
  | wait (w : Wait)
  deriving DecidableEq

/-- Where a task is. -/
inductive Pc (T : Type) where
  | idle
  /-- `mutex_ipcp_lock` and `mutex_ipcp_lock_timeout`: what the task has is saved, the ceilings are
  written, then the wait loop. -/
  | lockRead (timed : Bool)
  | lockWrite (w : Wait)
  | waitLock (w : Wait)
  /-- `mutex_ipcp_trylock`. -/
  | cmpxchg (via : Via)
  /-- `last_priority` and `last_criticality`, the ceilings, `count = 1`. -/
  | trySave (via : Via)
  | tryWrite (via : Via)
  | trySet (via : Via)
  /-- `expected == current`. -/
  | tryInc (via : Via)
  /-- The condition holds; the saved values go to the mutex. -/
  | waitUnlock (w : Wait)
  | saveLast (saved : Level)
  /-- `i == 1`, and the condition does not hold. -/
  | giveUp (w : Wait)
  /-- `sched_yield_wait_ipi`. -/
  | insert (w : Wait)
  | insertUnlock (w : Wait)
  | blocked (w : Wait)
  /-- A timed lock has failed. -/
  | restore (saved : Level)
  /-- `mutex_ipcp_unlock`: the count, `last_priority` and `last_criticality`, `waitq_wakeup_front`
  with `&mutex_ipcp->holder`, and `current_task_write`. -/
  | dec
  | readLast
  | wakeupLock (last : Level)
  | wakeup (last : Level)
  | setHolder (last : Level) (woken : Option T)
  | wakeupUnlock (last : Level)
  | unlockWrite (last : Level)
  deriving DecidableEq

inductive Call where
  | trylock
  | lock
  | lockTimeout
  | unlock
  deriving DecidableEq

/-- `struct mutex_ipcp` less its ceilings, and its tasks; `held` is how many of a task's
acquisitions are outstanding. -/
structure Sys (T : Type) where
  holder : Option T
  count : ℕ
  last : Level
  waitq : List (T × BitVec 8)
  waitqLock : Option T
  pc : T → Pc T
  held : T → ℕ

/-- A step of a task, with the priority and criticality that it has then. -/
inductive Action (T : Type) where
  | start (t : T) (call : Call)
  | move (t : T) (level : Level)
  /-- `__waitq_insert` with the task's real priority. -/
  | insert (t : T) (priority : BitVec 8)
  /-- `timeout_task_dequeue_from_waitq`. -/
  | timeout (t : T)

section Model

variable {T : Type} [DecidableEq T]

/-- `mutex_ipcp_init` and `INITIALIZE_MUTEX_IPCP`. -/
def Sys.init : Sys T := ⟨none, 0, ⟨0#8, 0#8⟩, [], none, fun _ => .idle, fun _ => 0⟩

def Sys.goto (s : Sys T) (t : T) (pc : Pc T) : Sys T := { s with pc := Function.update s.pc t pc }

/-- Where `mutex_ipcp_trylock` returns to. -/
def Via.done : Via → Pc T
  | .alone => .idle
  | .wait w => .waitUnlock w

def Via.failed : Via → Pc T
  | .alone => .idle
  | .wait w => if w.timed && w.woken then .giveUp w else .insert w

/-- Where `sched_push` sends a task that waits. -/
def Pc.retry : Pc T → Pc T
  | .blocked w => .waitLock { w with woken := true }
  | pc => pc

def Call.pc : Call → Pc T
  | .trylock => .cmpxchg .alone
  | .lock => .lockRead false
  | .lockTimeout => .lockRead true
  | .unlock => .dec

/-- `__waitq_wakeup_front`, and what it returns is stored next. -/
def Sys.wakeupFront (s : Sys T) (t : T) (last : Level) : Sys T :=
  match FlatPriorityq.answer s.waitq .popfront with
  | none => s.goto t (.setHolder last none)
  | some u =>
      ({ s with waitq := FlatPriorityq.next s.waitq .popfront }.goto u (s.pc u).retry).goto t
        (.setHolder last (some u))

/-- One step; `none` when the task is not at it, its lock is taken, or an assertion on the count
fails.  Only the holder unlocks. -/
def step (s : Sys T) : Action T → Option (Sys T)
  | .start t call =>
      if s.pc t = .idle ∧ (call = .unlock → s.holder = some t) then some (s.goto t call.pc) else none
  | .insert t priority =>
      match s.pc t with
      | .insert w =>
          some ({ s with waitq := FlatPriorityq.next s.waitq (.insert t priority) }.goto t
            (.insertUnlock w))
      | _ => none
  | .timeout t =>
      match s.pc t with
      | .blocked w =>
          if w.timed = true ∧ s.waitqLock = none then
            some ({ s with waitq := FlatPriorityq.next s.waitq (.dequeue t) }.goto t
              (.restore w.saved))
          else none
      | _ => none
  | .move t level =>
      match s.pc t with
      | .lockRead timed => some (s.goto t (.lockWrite ⟨timed, level, false⟩))
      | .lockWrite w => some (s.goto t (.waitLock w))
      | .waitLock w =>
          if s.waitqLock = none then
            some ({ s with waitqLock := some t }.goto t (.cmpxchg (.wait w)))
          else none
      | .cmpxchg via =>
          if s.holder = none then some ({ s with holder := some t }.goto t (.trySave via))
          else if s.holder = some t then some (s.goto t (.tryInc via))
          else some (s.goto t via.failed)
      | .trySave via => some ({ s with last := level }.goto t (.tryWrite via))
      | .tryWrite via => some (s.goto t (.trySet via))
      | .trySet via =>
          some ({ s with count := 1, held := Function.update s.held t (s.held t + 1) }.goto t via.done)
      | .tryInc via =>
          if s.count < 2 ^ 64 - 1 then
            some ({ s with
              count := s.count + 1
              held := Function.update s.held t (s.held t + 1) }.goto t via.done)
          else none
      | .waitUnlock w => some ({ s with waitqLock := none }.goto t (.saveLast w.saved))
      | .saveLast saved => some ({ s with last := saved }.goto t .idle)
      | .giveUp w => some ({ s with waitqLock := none }.goto t (.restore w.saved))
      | .insertUnlock w => some ({ s with waitqLock := none }.goto t (.blocked w))
      | .restore _ => some (s.goto t .idle)
      | .dec =>
          some ({ s with
            count := s.count - 1
            held := Function.update s.held t (s.held t - 1) }.goto t
              (if s.count - 1 > 0 then .idle else .readLast))
      | .readLast => some (s.goto t (.wakeupLock s.last))
      | .wakeupLock last =>
          if s.waitqLock = none then some ({ s with waitqLock := some t }.goto t (.wakeup last))
          else none
      | .wakeup last => some (s.wakeupFront t last)
      | .setHolder last woken => some ({ s with holder := woken }.goto t (.wakeupUnlock last))
      | .wakeupUnlock last => some ({ s with waitqLock := none }.goto t (.unlockWrite last))
      | .unlockWrite _ => some (s.goto t .idle)
      | .idle | .insert _ | .blocked _ => none

/-- What the step writes with `current_task_write`, if it does. -/
def written (ceiling : Level) : Pc T → Option Level
  | .lockWrite _ | .tryWrite _ => some ceiling
  | .restore saved => some saved
  | .unlockWrite last => some last
  | _ => none

end Model

/-! ## Places -/

namespace Pc

variable {T : Type}

def holdsWaitq : Pc T → Bool
  | .cmpxchg (.wait _) | .trySave (.wait _) | .tryWrite (.wait _) | .trySet (.wait _)
  | .tryInc (.wait _) | .waitUnlock _ | .giveUp _ | .insert _ | .insertUnlock _ | .wakeup _
  | .setHolder _ _ | .wakeupUnlock _ => true
  | _ => false

/-- What the task is at in the abstract lock. -/
def role : Pc T → Role T
  | .trySave _ | .tryWrite _ | .trySet _ => .fresh
  | .tryInc _ => .inc
  | .dec => .dec
  | .readLast | .wakeupLock _ | .wakeup _ => .releasing
  | .setHolder _ woken => .handing woken
  | .lockWrite w | .waitLock w | .cmpxchg (.wait w) => if w.woken then .woken else .out
  | .insert _ => .going
  | .insertUnlock _ | .blocked _ => .queued
  | _ => .out

end Pc

section Proofs

variable {T : Type} [DecidableEq T] {s : Sys T} {t : T}

/-- The mutex as the abstract lock. -/
def view (s : Sys T) : State T := ⟨s.holder, s.count, s.held, fun t => (s.pc t).role⟩

theorem view_goto (s : Sys T) (t : T) (pc : Pc T) : view (s.goto t pc) = (view s).goto t pc.role := by
  have roles : (fun u => (Function.update s.pc t pc u).role) =
      Function.update (fun u => (s.pc u).role) t pc.role := by
    funext u
    by_cases same : u = t
    · rw [same, Function.update_self, Function.update_self]
    · rw [Function.update_of_ne same, Function.update_of_ne same]
  show State.mk _ _ _ (fun u => (Function.update s.pc t pc u).role) = _
  rw [roles]
  rfl

/-- What holds before every step. -/
structure Inv (s : Sys T) : Prop where
  guards : Guards Pc.holdsWaitq s.waitqLock s.pc
  ok : Ok (view s)
  queued : ∀ t, t ∈ s.waitq.map Prod.fst ↔ (s.pc t).role = .queued

theorem queued_update {queue : List T} {pc : T → Pc T} {new : Pc T}
    (queued : ∀ u, u ∈ queue ↔ (pc u).role = .queued)
    (same : new.role = .queued ↔ (pc t).role = .queued) :
    ∀ u, u ∈ queue ↔ (Function.update pc t new u).role = .queued :=
  listed_update (p := fun pc => Pc.role pc = .queued) queued same

/-- A step within a role, which leaves the owner and the count alone. -/
theorem Inv.move (inv : Inv s) {new : Pc T} {waitqLock : Option T} {last : Level}
    (guards : Guards Pc.holdsWaitq waitqLock (Function.update s.pc t new))
    (role : new.role = (s.pc t).role) :
    Inv ({ s with waitqLock := waitqLock, last := last }.goto t new) where
  guards := guards
  ok := by
    rw [view_goto, role]
    have same : (view s).goto t (s.pc t).role = view s := by
      show State.mk _ _ _ (Function.update (fun u => (s.pc u).role) t (s.pc t).role) = _
      rw [Function.update_eq_self]
      rfl
    rw [show (view { s with waitqLock := waitqLock, last := last }) = view s from rfl, same]
    exact inv.ok
  queued := queued_update inv.queued (by rw [role])

/-- Who begins to wait, and who chooses, has the lock of the wait queue. -/
theorem Pc.holdsWaitq_of_role {pc : Pc T}
    (role : (∃ chosen, pc.role = .handing chosen) ∨ pc.role = .going) : pc.holdsWaitq = true := by
  cases pc with
  | setHolder last woken => rfl
  | insert w => rfl
  | lockWrite w | waitLock w =>
      simp only [Pc.role] at role
      split at role <;> simp at role
  | cmpxchg via =>
      cases via with
      | alone => simp [Pc.role] at role
      | wait w => rfl
  | _ => simp [Pc.role] at role

/-- One at a time: while a task has the lock of the wait queue no other begins to wait or
chooses. -/
theorem Inv.settled (inv : Inv s) (held : (s.pc t).holdsWaitq = true) {u : T}
    (role : (∃ chosen, (s.pc u).role = .handing chosen) ∨ (s.pc u).role = .going) : u = t :=
  inv.guards.unique (Pc.holdsWaitq_of_role role) held

/-- A free mutex is taken by the compare-exchange. -/
theorem Inv.take (inv : Inv s) {via : Via} (here : s.pc t = .cmpxchg via) (free : s.holder = none) :
    Inv ({ s with holder := some t }.goto t (.trySave via)) where
  guards := inv.guards.move (by rw [here]; cases via <;> exact id)
  ok := by
    rw [view_goto]
    exact inv.ok.take free
  queued := by
    refine queued_update inv.queued (iff_of_false nofun ?_)
    rw [here]
    cases via with
    | alone => exact nofun
    | wait w =>
        simp only [Pc.role]
        split <;> exact nofun

/-- The owner takes the path of an owner. -/
theorem Inv.reenter (inv : Inv s) {via : Via} (here : s.pc t = .cmpxchg via)
    (own : s.holder = some t) : Inv (s.goto t (.tryInc via)) where
  guards := inv.guards.move (by rw [here]; cases via <;> exact id)
  ok := by
    rw [view_goto]
    refine inv.ok.act own ?_
    show (s.pc t).role = _ ∧ _ ∨ (s.pc t).role = _ ∧ _
    rw [here]
    cases via with
    | alone => exact .inl ⟨rfl, .inl rfl⟩
    | wait w =>
        simp only [Pc.role]
        split <;> simp
  queued := by
    refine queued_update inv.queued (iff_of_false nofun ?_)
    rw [here]
    cases via with
    | alone => exact nofun
    | wait w =>
        simp only [Pc.role]
        split <;> exact nofun

/-- The mutex is someone else's: a task that was woken never sees that. -/
theorem Inv.fail (inv : Inv s) {via : Via} (here : s.pc t = .cmpxchg via) (taken : s.holder ≠ none)
    (other : s.holder ≠ some t) : Inv (s.goto t via.failed) := by
  cases via with
  | alone =>
      exact inv.move (inv.guards.move (by rw [here]; exact id)) (by rw [here]; rfl)
  | wait w =>
      have held : (s.pc t).holdsWaitq = true := by rw [here]; rfl
      have fresh : w.woken = false := by
        by_contra woken
        have role : (s.pc t).role = .woken := by
          rw [here]
          exact if_pos (by simpa using woken)
        refine other (inv.ok.holder_of_woken role fun v chosen handing => ?_)
        have same := inv.settled held (.inl ⟨chosen, handing⟩)
        change (s.pc v).role = _ at handing
        rw [same, role] at handing
        cases handing
      have next : (Via.wait w).failed = (.insert w : Pc T) := by simp [Via.failed, fresh]
      have out : (s.pc t).role = .out := by
        rw [here]
        exact if_neg (by simp [fresh])
      rw [next]
      refine ⟨inv.guards.move fun _ => held, ?_, queued_update inv.queued ?_⟩
      · rw [view_goto]
        exact inv.ok.bystand other taken (by show (s.pc t).role.isBystander = true; rw [out]; rfl) rfl
          nofun
      · rw [out]
        exact iff_of_false nofun nofun

theorem Inv.settle (inv : Inv s) {via : Via} (here : s.pc t = .trySet via) :
    Inv ({ s with count := 1, held := Function.update s.held t (s.held t + 1) }.goto t via.done) where
  guards := inv.guards.move (by rw [here]; cases via <;> simp [Via.done, Pc.holdsWaitq])
  ok := by
    have role : (view s).role t = .fresh := by show (s.pc t).role = _; rw [here]; rfl
    have out : (via.done : Pc T).role = .out := by cases via <;> rfl
    rw [view_goto, out]
    exact inv.ok.settle role
  queued := by
    refine queued_update inv.queued (iff_of_false ?_ ?_)
    · cases via <;> exact nofun
    · rw [here]
      exact nofun

theorem Inv.again (inv : Inv s) {via : Via} (here : s.pc t = .tryInc via) :
    Inv ({ s with count := s.count + 1, held := Function.update s.held t (s.held t + 1) }.goto t
      via.done) where
  guards := inv.guards.move (by rw [here]; cases via <;> simp [Via.done, Pc.holdsWaitq])
  ok := by
    have role : (view s).role t = .inc := by show (s.pc t).role = _; rw [here]; rfl
    have out : (via.done : Pc T).role = .out := by cases via <;> rfl
    rw [view_goto, out]
    exact inv.ok.again role
  queued := by
    refine queued_update inv.queued (iff_of_false ?_ ?_)
    · cases via <;> exact nofun
    · rw [here]
      exact nofun

theorem Inv.drop (inv : Inv s) (here : s.pc t = .dec) :
    Inv ({ s with count := s.count - 1, held := Function.update s.held t (s.held t - 1) }.goto t
      (if s.count - 1 > 0 then .idle else .readLast)) where
  guards := inv.guards.move (by split <;> simp [Pc.holdsWaitq])
  ok := by
    have role : (view s).role t = .dec := by show (s.pc t).role = _; rw [here]; rfl
    have next : (if s.count - 1 > 0 then (.idle : Pc T) else .readLast).role =
        if s.count - 1 > 0 then .out else .releasing := by split <;> rfl
    rw [view_goto, next]
    exact inv.ok.drop role
  queued := by
    refine queued_update inv.queued (iff_of_false ?_ ?_)
    · split <;> exact nofun
    · rw [here]
      exact nofun

/-- A task goes to wait; the mutex is not being freed, since that takes the same lock. -/
theorem Inv.insert (inv : Inv s) {w : Wait} (here : s.pc t = .insert w) (priority : BitVec 8) :
    Inv ({ s with waitq := FlatPriorityq.next s.waitq (.insert t priority) }.goto t
      (.insertUnlock w)) where
  guards := inv.guards.move fun _ => by rw [here]; rfl
  ok := by
    have going : (view s).role t = .going := by show (s.pc t).role = _; rw [here]; rfl
    have waits : ((view s).role t).waits = true := by rw [going]; rfl
    rw [view_goto]
    refine inv.ok.bystand (inv.ok.holder_ne_of_waiting waits) (inv.ok.holder_of_waiting waits)
      (by rw [going]; rfl) rfl fun _ v chosen handing => ?_
    have same := inv.settled (t := t) (by rw [here]; rfl) (.inl ⟨chosen, handing⟩)
    rw [same, going] at handing
    cases handing
  queued := by
    intro u
    show u ∈ (FlatPriorityq.next s.waitq (.insert t priority)).map Prod.fst ↔
      (Function.update s.pc t (.insertUnlock w) u).role = .queued
    rw [FlatPriorityq.mem_next]
    simp only [inv.queued u]
    by_cases own : u = t
    · simp [own, Pc.role]
    · simp [own]

/-- The tick takes a task that waits. -/
theorem Inv.timeout (inv : Inv s) {w : Wait} (here : s.pc t = .blocked w) :
    Inv ({ s with waitq := FlatPriorityq.next s.waitq (.dequeue t) }.goto t (.restore w.saved)) where
  guards := inv.guards.move (by simp [Pc.holdsWaitq])
  ok := by
    have queued : (view s).role t = .queued := by show (s.pc t).role = _; rw [here]; rfl
    have waits : ((view s).role t).waits = true := by rw [queued]; rfl
    rw [view_goto]
    exact inv.ok.bystand (inv.ok.holder_ne_of_waiting waits) (inv.ok.holder_of_waiting waits)
      (by rw [queued]; rfl) rfl nofun
  queued := by
    intro u
    show u ∈ (FlatPriorityq.next s.waitq (.dequeue t)).map Prod.fst ↔
      (Function.update s.pc t (.restore w.saved) u).role = .queued
    rw [FlatPriorityq.mem_next]
    simp only [inv.queued u]
    by_cases own : u = t
    · simp [own, Pc.role]
    · simp [own]

/-- Who waits in the queue and does not have its lock is blocked. -/
theorem Inv.blocked_of_served (inv : Inv s) {u : T} (held : (s.pc t).holdsWaitq = true)
    (role : (s.pc t).role ≠ .queued) (served : FlatPriorityq.answer s.waitq .popfront = some u) :
    ∃ w, s.pc u = .blocked w := by
  have queued := (inv.queued u).mp (FlatPriorityq.mem_of_answer served)
  cases here : s.pc u with
  | blocked w => exact ⟨w, rfl⟩
  | insertUnlock w =>
      have same := inv.guards.unique (c := u) (by rw [here]; rfl) held
      rw [same] at queued
      exact absurd queued role
  | lockWrite w | waitLock w =>
      rw [here] at queued
      simp only [Pc.role] at queued
      split at queued <;> cases queued
  | cmpxchg via =>
      rw [here] at queued
      cases via with
      | alone => cases queued
      | wait w =>
          simp only [Pc.role] at queued
          split at queued <;> cases queued
  | _ =>
      rw [here] at queued
      cases queued

/-- The release pops a waiter and pushes it, or finds none. -/
theorem Inv.wakeup (inv : Inv s) {last : Level} (here : s.pc t = .wakeup last) :
    Inv (s.wakeupFront t last) := by
  have held : (s.pc t).holdsWaitq = true := by rw [here]; rfl
  have releasing : (view s).role t = .releasing := by show (s.pc t).role = _; rw [here]; rfl
  unfold Sys.wakeupFront
  split
  · rename_i served
    have empty : s.waitq = [] := FlatPriorityq.answer_eq_none.mp served
    refine ⟨inv.guards.move fun _ => held, ?_, queued_update inv.queued (by rw [here]; exact ⟨nofun, nofun⟩)⟩
    rw [view_goto]
    refine inv.ok.choose_none releasing fun u queued => ?_
    have inside := (inv.queued u).mpr queued
    rw [empty] at inside
    cases inside
  · rename_i u served
    obtain ⟨w, blocked⟩ := inv.blocked_of_served held (by rw [here]; exact nofun) served
    have apart : u ≠ t := by
      intro same
      rw [same, here] at blocked
      cases blocked
    rw [blocked]
    refine ⟨(inv.guards.move (by simp [Pc.retry, Pc.holdsWaitq])).move fun _ => ?_, ?_, fun v => ?_⟩
    · rw [Function.update_of_ne apart.symm]
      exact held
    · rw [view_goto, view_goto]
      exact inv.ok.choose releasing (by show (s.pc u).role = _; rw [blocked]; rfl)
    · show v ∈ (FlatPriorityq.next s.waitq .popfront).map Prod.fst ↔
        (Function.update (Function.update s.pc u (Pc.retry (.blocked w))) t _ v).role = .queued
      rw [FlatPriorityq.mem_next]
      simp only [inv.queued v, served, ne_eq, Option.some.injEq]
      by_cases own : v = t
      · simp [own, here, Pc.role]
      · rw [Function.update_of_ne own]
        by_cases other : v = u
        · simp [other, Pc.retry, Pc.role]
        · rw [Function.update_of_ne other]
          simp [Ne.symm other]

/-- The store hands the mutex over. -/
theorem Inv.pass (inv : Inv s) {last : Level} {woken : Option T}
    (here : s.pc t = .setHolder last woken) :
    Inv ({ s with holder := woken }.goto t (.wakeupUnlock last)) where
  guards := inv.guards.move fun _ => by rw [here]; rfl
  ok := by
    have handing : (view s).role t = .handing woken := by show (s.pc t).role = _; rw [here]; rfl
    rw [view_goto]
    refine inv.ok.pass handing fun u going => ?_
    have same := inv.settled (t := t) (by rw [here]; rfl) (.inr going)
    rw [same, handing] at going
    cases going
  queued := queued_update inv.queued (by rw [here]; exact ⟨nofun, nofun⟩)

theorem Inv.unlock (inv : Inv s) (here : s.pc t = .idle) (own : s.holder = some t) :
    Inv (s.goto t .dec) where
  guards := inv.guards.move (by simp [Pc.holdsWaitq])
  ok := by
    rw [view_goto]
    exact inv.ok.act own (.inl ⟨by show (s.pc t).role = _; rw [here]; rfl, .inr rfl⟩)
  queued := queued_update inv.queued (by rw [here]; exact ⟨nofun, nofun⟩)

theorem step_inv {a : Action T} {u : Sys T} (inv : Inv s) (moved : step s a = some u) : Inv u := by
  cases a with
  | start t call =>
      obtain ⟨⟨here, own⟩, ⟨⟩⟩ := Option.ite_none_right_eq_some.mp moved
      cases call with
      | unlock => exact inv.unlock here (own rfl)
      | _ => exact inv.move (inv.guards.move (by simp [Call.pc, Pc.holdsWaitq])) (by rw [here]; rfl)
  | insert t priority =>
      rw [step] at moved
      split at moved
      · rename_i w here
        cases moved
        exact inv.insert here priority
      · cases moved
  | timeout t =>
      rw [step] at moved
      split at moved
      · rename_i w here
        obtain ⟨-, ⟨⟩⟩ := Option.ite_none_right_eq_some.mp moved
        exact inv.timeout here
      · cases moved
  | move t level =>
      rw [step] at moved
      cases here : s.pc t with
      | idle => simp [here] at moved
      | insert w => simp [here] at moved
      | blocked w => simp [here] at moved
      | cmpxchg via =>
          simp only [here] at moved
          split_ifs at moved with free own
          · cases moved
            exact inv.take here free
          · cases moved
            exact inv.reenter here own
          · cases moved
            exact inv.fail here free own
      | trySet via =>
          simp only [here] at moved
          cases moved
          exact inv.settle here
      | tryInc via =>
          simp only [here] at moved
          obtain ⟨-, ⟨⟩⟩ := Option.ite_none_right_eq_some.mp moved
          exact inv.again here
      | dec =>
          simp only [here] at moved
          cases moved
          exact inv.drop here
      | wakeup last =>
          simp only [here] at moved
          cases moved
          exact inv.wakeup here
      | setHolder last woken =>
          simp only [here] at moved
          cases moved
          exact inv.pass here
      | waitLock w =>
          simp only [here] at moved
          obtain ⟨free, ⟨⟩⟩ := Option.ite_none_right_eq_some.mp moved
          have guards := inv.guards
          rw [free] at guards
          exact inv.move guards.acquire (by rw [here]; rfl)
      | wakeupLock last =>
          simp only [here] at moved
          obtain ⟨free, ⟨⟩⟩ := Option.ite_none_right_eq_some.mp moved
          have guards := inv.guards
          rw [free] at guards
          exact inv.move guards.acquire (by rw [here]; rfl)
      | waitUnlock w | giveUp w | insertUnlock w | wakeupUnlock last =>
          simp only [here] at moved
          cases moved
          exact inv.move (inv.guards.release (by rw [here]; rfl) rfl) (by rw [here]; rfl)
      | trySave via | tryWrite via =>
          simp only [here] at moved
          cases moved
          exact inv.move (inv.guards.move (by rw [here]; cases via <;> exact id)) (by rw [here]; rfl)
      | lockRead timed | lockWrite w | saveLast saved | restore saved | readLast | unlockWrite last =>
          simp only [here] at moved
          cases moved
          exact inv.move (inv.guards.move (by simp [Pc.holdsWaitq])) (by rw [here]; rfl)

theorem run_inv {run : List (Action T)} {u : Sys T} (ran : exec step Sys.init run = some u) :
    Inv u := by
  refine exec_invariant (fun s a t before moved => step_inv before moved) ?_ ran
  exact ⟨nofun, .free rfl fun _ => ⟨rfl, rfl⟩, fun t => by simp [Sys.init, Pc.role]⟩

/-! ## What a step leaves alone -/

def Action.task : Action T → T
  | .start t _ | .move t _ | .insert t _ | .timeout t => t

/-- A step of `t`: another task is moved only out of the wait queue, the owner and what is saved
change in two places each, and the wait queue under its lock. -/
structure Frame (s : Sys T) (t : T) (u : Sys T) : Prop where
  held : ∀ v, v ≠ t → u.held v = s.held v
  pc : ∀ v, v ≠ t → u.pc v = s.pc v ∨
    ∃ w, s.pc v = .blocked w ∧ u.pc v = .waitLock { w with woken := true }
  last : u.last = s.last ∨ (∃ via, s.pc t = .trySave via) ∨ ∃ saved, s.pc t = .saveLast saved
  holder : u.holder = s.holder ∨ s.holder = none ∨ ∃ last woken, s.pc t = .setHolder last woken
  waitq : u.waitq = s.waitq ∨ (s.pc t).holdsWaitq = true ∨ s.waitqLock = none

/-- A step that goes on at another place, with everything that may have changed there. -/
theorem Frame.goto {u : Sys T} {new : Pc T} (pc : u.pc = s.pc)
    (held : ∀ v, v ≠ t → u.held v = s.held v)
    (last : u.last = s.last ∨ (∃ via, s.pc t = .trySave via) ∨ ∃ saved, s.pc t = .saveLast saved)
    (holder : u.holder = s.holder ∨ s.holder = none ∨ ∃ last woken, s.pc t = .setHolder last woken)
    (waitq : u.waitq = s.waitq ∨ (s.pc t).holdsWaitq = true ∨ s.waitqLock = none) :
    Frame s t (u.goto t new) := by
  refine ⟨held, fun v other => .inl ?_, last, holder, waitq⟩
  show Function.update u.pc t new v = s.pc v
  rw [Function.update_of_ne other, pc]

/-- Only the count of its own acquisitions changes. -/
theorem Frame.count {n m : ℕ} {new : Pc T} :
    Frame s t ({ s with count := n, held := Function.update s.held t m }.goto t new) :=
  .goto rfl (fun _ other => Function.update_of_ne other _ _) (.inl rfl) (.inl rfl) (.inl rfl)

theorem Frame.wakeup (inv : Inv s) {last : Level} (here : s.pc t = .wakeup last) :
    Frame s t (s.wakeupFront t last) := by
  have held : (s.pc t).holdsWaitq = true := by rw [here]; rfl
  unfold Sys.wakeupFront
  split
  · exact .goto rfl (fun _ _ => rfl) (.inl rfl) (.inl rfl) (.inl rfl)
  · rename_i u served
    refine ⟨fun _ _ => rfl, fun v other => ?_, .inl rfl, .inl rfl, .inr (.inl held)⟩
    by_cases same : v = u
    · subst same
      obtain ⟨w, blocked⟩ := inv.blocked_of_served held (by rw [here]; exact nofun) served
      refine .inr ⟨w, blocked, ?_⟩
      show Function.update (Function.update s.pc v _) t _ v = _
      rw [Function.update_of_ne other, Function.update_self, blocked]
      rfl
    · refine .inl ?_
      show Function.update (Function.update s.pc u _) t _ v = s.pc v
      rw [Function.update_of_ne other, Function.update_of_ne same]

theorem step_frame {a : Action T} {u : Sys T} (inv : Inv s) (moved : step s a = some u) :
    Frame s a.task u := by
  cases a with
  | start t call =>
      obtain ⟨-, ⟨⟩⟩ := Option.ite_none_right_eq_some.mp moved
      exact .goto rfl (fun _ _ => rfl) (.inl rfl) (.inl rfl) (.inl rfl)
  | insert t priority =>
      rw [step] at moved
      split at moved
      · rename_i w here
        cases moved
        exact .goto rfl (fun _ _ => rfl) (.inl rfl) (.inl rfl) (.inr (.inl (by rw [Action.task, here]; rfl)))
      · cases moved
  | timeout t =>
      rw [step] at moved
      split at moved
      · obtain ⟨⟨-, free⟩, ⟨⟩⟩ := Option.ite_none_right_eq_some.mp moved
        exact .goto rfl (fun _ _ => rfl) (.inl rfl) (.inl rfl) (.inr (.inr free))
      · cases moved
  | move t level =>
      rw [step] at moved
      cases here : s.pc t with
      | idle => simp [here] at moved
      | insert w => simp [here] at moved
      | blocked w => simp [here] at moved
      | cmpxchg via =>
          simp only [here] at moved
          split_ifs at moved with free own
          · cases moved
            exact .goto rfl (fun _ _ => rfl) (.inl rfl) (.inr (.inl free)) (.inl rfl)
          · cases moved
            exact .goto rfl (fun _ _ => rfl) (.inl rfl) (.inl rfl) (.inl rfl)
          · cases moved
            exact .goto rfl (fun _ _ => rfl) (.inl rfl) (.inl rfl) (.inl rfl)
      | trySet via =>
          simp only [here] at moved
          cases moved
          exact .count
      | dec =>
          simp only [here] at moved
          cases moved
          exact .count
      | tryInc via =>
          simp only [here] at moved
          obtain ⟨-, ⟨⟩⟩ := Option.ite_none_right_eq_some.mp moved
          exact .count
      | wakeup last =>
          simp only [here] at moved
          cases moved
          exact .wakeup inv here
      | setHolder last woken =>
          simp only [here] at moved
          cases moved
          exact .goto rfl (fun _ _ => rfl) (.inl rfl) (.inr (.inr ⟨last, woken, here⟩)) (.inl rfl)
      | waitLock w | wakeupLock last =>
          simp only [here] at moved
          obtain ⟨-, ⟨⟩⟩ := Option.ite_none_right_eq_some.mp moved
          exact .goto rfl (fun _ _ => rfl) (.inl rfl) (.inl rfl) (.inl rfl)
      | trySave via =>
          simp only [here] at moved
          cases moved
          exact .goto rfl (fun _ _ => rfl) (.inr (.inl ⟨via, here⟩)) (.inl rfl) (.inl rfl)
      | saveLast saved =>
          simp only [here] at moved
          cases moved
          exact .goto rfl (fun _ _ => rfl) (.inr (.inr ⟨saved, here⟩)) (.inl rfl) (.inl rfl)
      | lockRead timed | lockWrite w | tryWrite via | waitUnlock w | giveUp w | insertUnlock w
      | restore saved | readLast | wakeupUnlock last | unlockWrite last =>
          simp only [here] at moved
          cases moved
          exact .goto rfl (fun _ _ => rfl) (.inl rfl) (.inl rfl) (.inl rfl)

/-- Where a call ends. -/
theorem ends_of_step {level : Level} {u : Sys T} (moved : step s (.move t level) = some u)
    (ended : u.pc t = .idle) :
    s.pc t = .cmpxchg .alone ∨ s.pc t = .trySet .alone ∨ s.pc t = .tryInc .alone ∨
      (∃ saved, s.pc t = .saveLast saved) ∨ (∃ saved, s.pc t = .restore saved) ∨
      (s.pc t = .dec ∧ 0 < s.count - 1) ∨ ∃ last, s.pc t = .unlockWrite last := by
  rw [step] at moved
  cases here : s.pc t with
  | cmpxchg via =>
      cases via with
      | alone => exact .inl rfl
      | wait w =>
          simp only [here] at moved
          split_ifs at moved <;> cases moved
          · simp [Sys.goto] at ended
          · simp [Sys.goto] at ended
          · simp only [Sys.goto, Function.update_self, Via.failed] at ended
            split at ended <;> cases ended
  | trySet via =>
      cases via with
      | alone => exact .inr (.inl rfl)
      | wait w =>
          simp only [here] at moved
          cases moved
          simp [Sys.goto, Via.done] at ended
  | tryInc via =>
      cases via with
      | alone => exact .inr (.inr (.inl rfl))
      | wait w =>
          simp only [here] at moved
          obtain ⟨-, ⟨⟩⟩ := Option.ite_none_right_eq_some.mp moved
          simp [Sys.goto, Via.done] at ended
  | saveLast saved => exact .inr (.inr (.inr (.inl ⟨saved, rfl⟩)))
  | restore saved => exact .inr (.inr (.inr (.inr (.inl ⟨saved, rfl⟩))))
  | dec =>
      refine .inr (.inr (.inr (.inr (.inr (.inl ⟨rfl, ?_⟩)))))
      simp only [here] at moved
      cases moved
      simp only [Sys.goto, Function.update_self] at ended
      split at ended
      · assumption
      · cases ended
  | unlockWrite last => exact .inr (.inr (.inr (.inr (.inr (.inr ⟨last, rfl⟩)))))
  | wakeup last =>
      simp only [here] at moved
      cases moved
      unfold Sys.wakeupFront at ended
      split at ended <;> simp [Sys.goto] at ended
  | waitLock w | wakeupLock last =>
      simp only [here] at moved
      obtain ⟨-, ⟨⟩⟩ := Option.ite_none_right_eq_some.mp moved
      simp [Sys.goto] at ended
  | idle | insert w | blocked w => simp [here] at moved
  | _ =>
      simp only [here] at moved
      cases moved
      simp [Sys.goto] at ended

/-! ## The hand-off -/

/-- The release of `v` is handing the mutex to `u`: it is about to take `u` from the wait queue, has
taken it, or has made it the holder, and `u` has not acquired yet. -/
def Passing (v u : T) (s : Sys T) : Prop :=
  (∃ last, s.pc v = .wakeup last ∧ FlatPriorityq.answer s.waitq .popfront = some u) ∨
  (∃ last, s.pc v = .setHolder last (some u)) ∨
  s.holder = some u ∧ s.held u = 0 ∧ ((s.pc u).role = .woken ∨ (s.pc u).role = .inc)

variable {v u : T} {w : Sys T}

/-- No task holds the mutex while it is passed on. -/
theorem Passing.held (inv : Inv s) (passing : Passing v u s) : ∀ t, s.held t = 0 := by
  obtain ⟨last, here, -⟩ | ⟨last, here⟩ | ⟨owner, held, -⟩ := passing
  · exact inv.ok.held_of_releasing (t := v) (.inl (by show (s.pc v).role = _; rw [here]; rfl))
  · refine inv.ok.held_of_releasing (t := v) (.inr (.inl ⟨some u, ?_⟩))
    show (s.pc v).role = _
    rw [here]
    rfl
  · intro t
    by_contra some_
    have own := inv.ok.holder_of_held (t := t) (Nat.pos_of_ne_zero some_)
    obtain rfl : u = t := Option.some.inj (owner.symm.trans own)
    exact some_ held

/-- While the release has the wait queue's lock no one else's step touches what it does. -/
theorem Frame.locked (inv : Inv s) {t : T} (frame : Frame s t w) (other : t ≠ v)
    (held : (s.pc v).holdsWaitq = true) : w.pc v = s.pc v ∧ w.waitq = s.waitq := by
  constructor
  · obtain same | ⟨wait, blocked, -⟩ := frame.pc v other.symm
    · exact same
    · rw [blocked] at held
      cases held
  · obtain same | holds | free := frame.waitq
    · exact same
    · exact absurd (inv.guards.unique holds held) other
    · have taken := inv.guards v held
      rw [free] at taken
      cases taken

/-- The woken task finds that it is the owner. -/
theorem Passing.acquire {level : Level} (owner : s.holder = some u)
    (none : s.held u = 0) (at_ : (s.pc u).role = .woken ∨ (s.pc u).role = .inc)
    (moved : step s (.move u level) = some w) : Passing v u w ∨ 0 < w.held u := by
  rw [step] at moved
  cases here : s.pc u with
  | tryInc via =>
      simp only [here] at moved
      obtain ⟨-, ⟨⟩⟩ := Option.ite_none_right_eq_some.mp moved
      refine .inr ?_
      show 0 < Function.update s.held u _ u
      rw [Function.update_self]
      exact Nat.succ_pos _
  | lockWrite wait =>
      rw [here] at at_
      simp only [here] at moved
      cases moved
      refine .inl (.inr (.inr ⟨owner, none, ?_⟩))
      show (Function.update s.pc u _ u).role = _ ∨ (Function.update s.pc u _ u).role = _
      rw [Function.update_self]
      exact at_
  | waitLock wait =>
      rw [here] at at_
      simp only [here] at moved
      obtain ⟨-, ⟨⟩⟩ := Option.ite_none_right_eq_some.mp moved
      refine .inl (.inr (.inr ⟨owner, none, ?_⟩))
      show (Function.update s.pc u _ u).role = _ ∨ (Function.update s.pc u _ u).role = _
      rw [Function.update_self]
      exact at_
  | cmpxchg via =>
      have taken : s.holder ≠ Option.none := by rw [owner]; exact nofun
      simp only [here, if_neg taken, if_pos owner] at moved
      cases moved
      refine .inl (.inr (.inr ⟨owner, none, .inr ?_⟩))
      show (Function.update s.pc u _ u).role = _
      rw [Function.update_self]
      rfl
  | _ =>
      rw [here] at at_
      obtain at_ | at_ := at_ <;> cases at_

/-- The other actions have their own places. -/
theorem move_of_step {a : Action T} (moved : step s a = some w)
    (at_ : ∀ wait, s.pc a.task ≠ .insert wait ∧ s.pc a.task ≠ .blocked wait)
    (busy : s.pc a.task ≠ .idle) : ∃ level, a = .move a.task level := by
  cases a with
  | start t call =>
      obtain ⟨⟨here, -⟩, -⟩ := Option.ite_none_right_eq_some.mp moved
      exact absurd here busy
  | move t level => exact ⟨level, rfl⟩
  | insert t priority =>
      rw [step] at moved
      split at moved
      · rename_i wait here
        exact absurd here (at_ wait).1
      · cases moved
  | timeout t =>
      rw [step] at moved
      split at moved
      · rename_i wait here
        exact absurd here (at_ wait).2
      · cases moved

theorem Passing.step {a : Action T} (inv : Inv s) (passing : Passing v u s)
    (moved : step s a = some w) : Passing v u w ∨ 0 < w.held u := by
  have frame := step_frame inv moved
  obtain ⟨last, here, front⟩ | ⟨last, here⟩ | ⟨owner, none, at_⟩ := passing
  · by_cases own : a.task = v
    · obtain ⟨level, mine⟩ := move_of_step moved (by simp [own, here]) (by simp [own, here])
      rw [mine, own, Mutex.step] at moved
      simp only [here] at moved
      cases moved
      refine .inl (.inr (.inl ⟨last, ?_⟩))
      simp only [Sys.wakeupFront, front]
      exact Function.update_self ..
    · obtain ⟨pc, waitq⟩ := frame.locked inv own (by rw [here]; rfl)
      exact .inl (.inl ⟨last, by rw [pc, here], by rw [waitq, front]⟩)
  · obtain ⟨-, -, chosen⟩ := inv.ok.of_handing (t := v)
      (show (view s).role v = .handing (some u) by show (s.pc v).role = _; rw [here]; rfl)
    obtain ⟨woken, none⟩ := chosen u rfl
    by_cases own : a.task = v
    · obtain ⟨level, mine⟩ := move_of_step moved (by simp [own, here]) (by simp [own, here])
      rw [mine, own, Mutex.step] at moved
      simp only [here] at moved
      cases moved
      refine .inl (.inr (.inr ⟨rfl, none, .inl ?_⟩))
      have apart : u ≠ v := by
        intro same
        change (s.pc u).role = _ at woken
        rw [same, here] at woken
        cases woken
      show (Function.update s.pc v _ u).role = _
      rw [Function.update_of_ne apart]
      exact woken
    · obtain ⟨pc, -⟩ := frame.locked inv own (by rw [here]; rfl)
      exact .inl (.inr (.inl ⟨last, by rw [pc, here]⟩))
  · by_cases own : a.task = u
    · obtain ⟨level, mine⟩ := move_of_step moved
        (fun wait => ⟨fun here => by simp [own ▸ here, Pc.role] at at_,
          fun here => by simp [own ▸ here, Pc.role] at at_⟩)
        (fun here => by simp [own ▸ here, Pc.role] at at_)
      rw [mine, own] at moved
      exact Passing.acquire owner none at_ moved
    · have pc : w.pc u = s.pc u := by
        obtain same | ⟨wait, blocked, -⟩ := frame.pc u (Ne.symm own)
        · exact same
        · obtain at_ | at_ := at_ <;> rw [blocked] at at_ <;> cases at_
      have holder : w.holder = some u := by
        obtain same | free | ⟨last, woken, here⟩ := frame.holder
        · rw [same, owner]
        · rw [owner] at free
          cases free
        · have old := (inv.ok.of_handing (t := a.task)
            (show (view s).role a.task = .handing woken by show (s.pc a.task).role = _; rw [here]; rfl)).1
          change s.holder = _ at old
          rw [owner] at old
          exact absurd (Option.some.inj old).symm own
      exact .inl (.inr (.inr ⟨holder, by rw [frame.held u (Ne.symm own), none], by rw [pc]; exact at_⟩))

/-- From the step that picks `u` on, no task acquires before `u` does. -/
theorem Passing.run {run : List (Action T)} (inv : Inv s) (passing : Passing v u s)
    (before : Along (fun s _ => s.held u = 0) Mutex.step s run)
    (ran : exec Mutex.step s run = some w) :
    Inv w ∧ (Passing v u w ∨ 0 < w.held u) := by
  refine exec_invariant_along (I := fun s => Inv s ∧ (Passing v u s ∨ 0 < s.held u))
    (fun s a w both none moved => ?_) ⟨inv, .inl passing⟩ before ran
  obtain ⟨inv, passing | held⟩ := both
  · exact ⟨step_inv inv moved, passing.step inv moved⟩
  · exact absurd none (Nat.ne_of_gt held)

/-! ## The law -/

/-- The task is in the release that ends its ownership. -/
def Pc.isReleasing : Pc T → Bool
  | .readLast | .wakeupLock _ | .wakeup _ | .setHolder _ _ => true
  | _ => false

/-- A release begins with the count. -/
theorem releasing_of_step {level : Level} (moved : step s (.move t level) = some w)
    (releasing : (w.pc t).isReleasing = true) :
    s.pc t = .dec ∨ (s.pc t).isReleasing = true := by
  rw [step] at moved
  cases here : s.pc t with
  | dec => exact .inl rfl
  | readLast | wakeupLock last | wakeup last | setHolder last woken => exact .inr rfl
  | cmpxchg via =>
      simp only [here] at moved
      split_ifs at moved <;> cases moved
      · simp [Sys.goto, Pc.isReleasing] at releasing
      · simp [Sys.goto, Pc.isReleasing] at releasing
      · cases via with
        | alone => simp [Sys.goto, Via.failed, Pc.isReleasing] at releasing
        | wait w =>
            simp only [Sys.goto, Function.update_self, Via.failed] at releasing
            split at releasing <;> cases releasing
  | trySet via =>
      simp only [here] at moved
      cases moved
      cases via <;> simp [Sys.goto, Via.done, Pc.isReleasing] at releasing
  | tryInc via =>
      simp only [here] at moved
      obtain ⟨-, ⟨⟩⟩ := Option.ite_none_right_eq_some.mp moved
      cases via <;> simp [Sys.goto, Via.done, Pc.isReleasing] at releasing
  | waitLock w =>
      simp only [here] at moved
      obtain ⟨-, ⟨⟩⟩ := Option.ite_none_right_eq_some.mp moved
      simp [Sys.goto, Pc.isReleasing] at releasing
  | idle | insert w | blocked w => simp [here] at moved
  | _ =>
      simp only [here] at moved
      cases moved
      simp [Sys.goto, Pc.isReleasing] at releasing

/-- One owner, whose acquisitions are counted; who waits, waits for an owner or for a release; and
a release that wakes a task is followed by the acquisition of that task and of no other. -/
structure Law (s : Sys T) : Prop where
  unique : ∀ t u, 0 < s.held t → 0 < s.held u → t = u
  owner : ∀ t, 0 < s.held t → s.holder = some t
  counted : ∀ t, s.holder = some t → s.pc t = .idle → s.count = s.held t ∧ 0 < s.held t
  waits : s.waitq ≠ [] ∨ (∃ t w, s.pc t = .blocked w) → s.holder ≠ none
  released : ∀ t, (s.pc t).isReleasing = true → s.holder = some t ∧ ∀ u, s.held u = 0
  handsOver : ∀ v last u, s.pc v = .wakeup last →
    FlatPriorityq.answer s.waitq .popfront = some u →
      ∀ run w, Along (fun s _ => s.held u = 0) step s run → exec step s run = some w →
        (∀ t, t ≠ u → w.held t = 0) ∧ (Passing v u w ∨ w.holder = some u ∧ 0 < w.held u)

/-- **One owner, and a release hands over to the task it wakes**, for any tasks and any order of
their steps. -/
theorem mutex_law {run : List (Action T)} (ran : exec step Sys.init run = some s) : Law s := by
  have inv := run_inv ran
  refine ⟨fun t u => inv.ok.unique, fun t => inv.ok.holder_of_held, fun t owner idle => ?_,
    fun waits => ?_, fun t releasing => ?_, fun v last u here front run w before ran => ?_⟩
  · exact inv.ok.counted_of_out owner (by show (s.pc t).role = _; rw [idle]; rfl)
  · obtain ⟨t, queued⟩ : ∃ t, (s.pc t).role = .queued := by
      obtain more | ⟨t, wait, blocked⟩ := waits
      · obtain ⟨e, inside⟩ := List.exists_mem_of_ne_nil _ more
        exact ⟨e.1, (inv.queued e.1).mp (List.mem_map_of_mem inside)⟩
      · exact ⟨t, by rw [blocked]; rfl⟩
    exact inv.ok.holder_of_waiting (t := t) (by show (s.pc t).role.waits = true; rw [queued]; rfl)
  · have role : (view s).role t = .releasing ∨ ∃ chosen, (view s).role t = .handing chosen := by
      show (s.pc t).role = _ ∨ ∃ chosen, (s.pc t).role = _
      cases here : s.pc t with
      | setHolder last woken => exact .inr ⟨woken, rfl⟩
      | readLast | wakeupLock last | wakeup last => exact .inl rfl
      | _ => rw [here] at releasing; cases releasing
    obtain here | ⟨chosen, here⟩ := role
    · exact ⟨(inv.ok.acting (by rw [here]; rfl)).1, inv.ok.held_of_releasing (.inl here)⟩
    · exact ⟨(inv.ok.of_handing here).1, inv.ok.held_of_releasing (.inr (.inl ⟨chosen, here⟩))⟩
  · obtain ⟨after, passing | held⟩ := Passing.run inv (.inl ⟨last, here, front⟩) before ran
    · exact ⟨fun t _ => passing.held after t, .inl passing⟩
    · refine ⟨fun t other => ?_, .inr ⟨after.ok.holder_of_held held, held⟩⟩
      by_contra some_
      exact other (after.ok.unique (Nat.pos_of_ne_zero some_) held)

/-- Task 0 locks twice, task 1 waits, task 2 waits with a timeout and a higher priority, and the
last release of task 0 goes to task 2, which finds itself the owner. -/
def handedOver : List (Action (Fin 3)) :=
  let low : Level := ⟨1#8, 0#8⟩
  let top : Level := ⟨9#8, 0#8⟩
  [.start 0 .trylock, .move 0 low, .move 0 low, .move 0 low, .move 0 top,
    .start 0 .trylock, .move 0 top, .move 0 top,
    .start 1 .lock, .move 1 low, .move 1 low, .move 1 top, .move 1 top, .insert 1 1#8, .move 1 top,
    .start 2 .lockTimeout, .move 2 low, .move 2 low, .move 2 top, .move 2 top, .insert 2 3#8,
    .move 2 top,
    .start 0 .unlock, .move 0 top, .start 0 .unlock, .move 0 top, .move 0 top, .move 0 top,
    .move 0 top, .move 0 top, .move 0 top, .move 2 top, .move 2 top, .move 2 top]

theorem mutex_law_handed_over : ∃ s, exec step Sys.init handedOver = some s ∧ Law s ∧
    s.holder = some 2 ∧ s.count = 1 ∧ s.held 2 = 1 ∧ s.waitq = [(1, 1#8)] :=
  ⟨_, rfl, mutex_law (show exec step Sys.init handedOver = some _ from rfl), rfl, rfl, rfl, rfl⟩

end Proofs

end Twan.Sync.Mutex
