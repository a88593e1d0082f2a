/-
# Twan.Sync.Semaphore -- the counting semaphore

`src/subsys/sync/semaphore.c` with `waitq_task_wait_until` and `waitq_wakeup_front`.  A unit is
counted by `semaphore_up` before the wakeup, and taken under the semaphore's own lock by whoever
comes first, so a task that is woken may find that the unit is gone and waits again.  A step is one
access to the count or to a lock, or one call of the wait queue, which is the abstract queue of
`Twan.Lib.FlatPriorityq`; the locks admit one holder and are not otherwise modelled here.

What can go wrong is that a task goes to wait beside a unit that no one brings to it.
`semaphore_law` is that the units are covered: each one is behind a wakeup that is still to come, or
a task that was woken for it.
-/
import Twan.Base.Guard
import Twan.Base.PhaseLock
import Twan.Base.Run
import Twan.Lib.FlatPriorityq

namespace Twan.Sync.Semaphore

set_option autoImplicit false
set_option linter.dupNamespace false

open Twan.Base Twan.Lib

/-- Who calls `semaphore_try_down`: a caller of it, or the loop of `semaphore_down`, whose task may
have been woken for this attempt. -/
inductive Attempt where
  | alone
  | waiting (woken : Bool)
  deriving DecidableEq

/-- Where a task is. -/
inductive Pc where
  | idle
  /-- The head of the loop of `waitq_task_wait_until`: `yield_wait_lock`. -/
  | waitLock (woken : Bool)
  /-- `semaphore_try_down`: `mcs_lock`, the read of the count, `atomic64_dec`, `mcs_unlock`. -/
  | tryLock (a : Attempt)
  | tryRead (a : Attempt)
  | tryDec (a : Attempt)
  | tryUnlock (a : Attempt) (ret : Bool)
  /-- `yield_wait_unlock`, and the loop ends. -/
  | waitUnlock
  /-- `sched_yield_wait_ipi`: `__waitq_insert`, `yield_wait_unlock`, and the task is switched out. -/
  | insert
  | insertUnlock
  | blocked
  /-- `semaphore_up`: `atomic64_inc`, then `waitq_wakeup_front`. -/
  | inc
  | wakeupLock
  | wakeup
  | wakeupUnlock
  deriving DecidableEq

inductive Call where
  | tryDown
  | down
  | up
  deriving DecidableEq

def Call.pc : Call → Pc
  | .tryDown => .tryLock .alone
  | .down => .waitLock false
  | .up => .inc

/-- Where `mcs_unlock` of `semaphore_try_down` leads to. -/
def Attempt.next : Attempt → Bool → Pc
  | .alone, _ => .idle
  | .waiting _, true => .waitUnlock
  | .waiting _, false => .insert

/-- `struct semaphore` and its tasks; `ups` and `downs` count the increments and decrements. -/
structure Sys (T : Type) where
  count : BitVec 64
  waitq : List (T × BitVec 8)
  waitqLock : Option T
  lock : Option T
  pc : T → Pc
  ups : ℕ
  downs : ℕ

inductive Action (T : Type) where
  | start (t : T) (call : Call)
  | move (t : T)
  /-- `__waitq_insert` with the priority that the task has. -/
  | insert (t : T) (priority : BitVec 8)

variable {T : Type} [DecidableEq T]

/-- `semaphore_init(sem, count)`. -/
def Sys.init (count : BitVec 64) : Sys T := ⟨count, [], none, none, fun _ => .idle, 0, 0⟩

def Sys.goto (s : Sys T) (t : T) (pc : Pc) : Sys T := { s with pc := Function.update s.pc t pc }

/-- `__waitq_wakeup_front`: the task that is popped goes back to the head of its loop. -/
def Sys.wakeupFront (s : Sys T) : Sys T :=
  match FlatPriorityq.answer s.waitq .popfront with
  | none => s
  | some u => { s with waitq := FlatPriorityq.next s.waitq .popfront }.goto u (.waitLock true)

/-- One step; `none` when the task is not at it, or its lock is taken. -/
def step (s : Sys T) : Action T → Option (Sys T)
  | .start t call => if s.pc t = .idle then some (s.goto t call.pc) else none
  | .insert t priority =>
      if s.pc t = .insert then
        some ({ s with waitq := FlatPriorityq.next s.waitq (.insert t priority) }.goto t .insertUnlock)
      else none
  | .move t =>
      match s.pc t with
      | .waitLock woken =>
          if s.waitqLock = none then
            some ({ s with waitqLock := some t }.goto t (.tryLock (.waiting woken)))
          else none
      | .tryLock a =>
          if s.lock = none then some ({ s with lock := some t }.goto t (.tryRead a)) else none
      | .tryRead a => some (s.goto t (if s.count > 0#64 then .tryDec a else .tryUnlock a false))
      | .tryDec a =>
          some ({ s with count := s.count - 1#64, downs := s.downs + 1 }.goto t (.tryUnlock a true))
      | .tryUnlock a ret => some ({ s with lock := none }.goto t (a.next ret))
      | .waitUnlock => some ({ s with waitqLock := none }.goto t .idle)
      | .insertUnlock => some ({ s with waitqLock := none }.goto t .blocked)
      | .inc => some ({ s with count := s.count + 1#64, ups := s.ups + 1 }.goto t .wakeupLock)
      | .wakeupLock =>
          if s.waitqLock = none then some ({ s with waitqLock := some t }.goto t .wakeup) else none
      | .wakeup => some (s.wakeupFront.goto t .wakeupUnlock)
      | .wakeupUnlock => some ({ s with waitqLock := none }.goto t .idle)
      | .idle | .insert | .blocked => none

/-! ## Places -/

namespace Pc

def holdsWaitq : Pc → Bool
  | .tryLock (.waiting _) | .tryRead (.waiting _) | .tryDec (.waiting _) | .tryUnlock (.waiting _) _
  | .waitUnlock | .insert | .insertUnlock | .wakeup | .wakeupUnlock => true
  | _ => false

def holdsLock : Pc → Bool
  | .tryRead _ | .tryDec _ | .tryUnlock _ _ => true
  | _ => false

/-- An increment was made, its wakeup was not. -/
def isUp : Pc → Bool
  | .wakeupLock | .wakeup => true
  | _ => false

/-- The task was woken and its attempt is still to succeed or to fail. -/
def isWoken : Pc → Bool
  | .waitLock true | .tryLock (.waiting true) | .tryRead (.waiting true)
  | .tryDec (.waiting true) => true
  | _ => false

def isQueued : Pc → Bool
  | .insertUnlock | .blocked => true
  | _ => false

/-- The attempt has failed, and the task is not in the queue yet. -/
def isMissed : Pc → Bool
  | .tryUnlock (.waiting _) false | .insert => true
  | _ => false

end Pc

theorem goto_pc (s : Sys T) (t : T) (pc : Pc) : (s.goto t pc).pc = Function.update s.pc t pc := rfl

/-! ### One task moves -/

variable {t : T} {pc : T → Pc} {new : Pc}

theorem positive_update {units : ℕ}
    (positive : ∀ t a, pc t = .tryDec a → 0 < units) (own : ∀ a, new = .tryDec a → 0 < units) :
    ∀ u a, Function.update pc t new u = .tryDec a → 0 < units :=
  (Function.forall_update_iff pc fun _ pc => ∀ a, pc = .tryDec a → 0 < units).mpr
    ⟨own, fun u _ => positive u⟩

theorem queued_update {queue : List T}
    (queued : ∀ t, t ∈ queue ↔ (pc t).isQueued = true) (same : new.isQueued = (pc t).isQueued) :
    ∀ u, u ∈ queue ↔ (Function.update pc t new u).isQueued = true :=
  listed_update (p := fun pc => Pc.isQueued pc = true) queued (by rw [same])

theorem missed_update (same : new.isMissed = true → (pc t).isMissed = true)
    (missed : ∃ u, (Function.update pc t new u).isMissed = true) : ∃ u, (pc u).isMissed = true := by
  obtain own | other := (Function.exists_update_iff pc fun _ pc => Pc.isMissed pc = true).mp missed
  · exact ⟨t, same own⟩
  · obtain ⟨u, -, here⟩ := other
    exact ⟨u, here⟩

theorem Pc.holdsWaitq_of_missed {pc : Pc} (missed : pc.isMissed = true) : pc.holdsWaitq = true := by
  cases pc with
  | tryUnlock a ret => cases a <;> cases ret <;> simp_all [isMissed, holdsWaitq]
  | insert => rfl
  | _ => cases missed

variable [Fintype T]

/-- How many units are on their way to a task that waits. -/
def onTheirWay (pc : T → Pc) : ℕ := count Pc.isUp pc + count Pc.isWoken pc

/-- What holds before every step. -/
structure Inv (initial : BitVec 64) (s : Sys T) : Prop where
  waitqLock : Guards Pc.holdsWaitq s.waitqLock s.pc
  lock : Guards Pc.holdsLock s.lock s.pc
  positive : ∀ t a, s.pc t = .tryDec a → 0 < s.count.toNat
  conserved : s.count.toNat + s.downs = initial.toNat + s.ups
  queued : ∀ t, t ∈ s.waitq.map Prod.fst ↔ (s.pc t).isQueued = true
  covered : (s.waitq ≠ [] ∨ ∃ t, (s.pc t).isMissed = true) → s.count.toNat ≤ onTheirWay s.pc

/-! ## Steps -/

variable {initial : BitVec 64} {s : Sys T}

/-- What a step of one task does to the units that are on their way. -/
theorem onTheirWay_update (pc : T → Pc) (t : T) (new : Pc) :
    onTheirWay (Function.update pc t new) + (pc t).isUp.toNat + (pc t).isWoken.toNat =
      onTheirWay pc + new.isUp.toNat + new.isWoken.toNat := by
  have ups := count_update Pc.isUp pc t new
  have wokens := count_update Pc.isWoken pc t new
  unfold onTheirWay
  omega

/-- A step that changes neither the count nor the queue, and leaves the task in its class. -/
theorem Inv.move (inv : Inv initial s) {new : Pc} {waitqLock lock : Option T}
    (guardsWaitq : Guards Pc.holdsWaitq waitqLock (Function.update s.pc t new))
    (guardsLock : Guards Pc.holdsLock lock (Function.update s.pc t new))
    (up : new.isUp = (s.pc t).isUp) (woken : new.isWoken = (s.pc t).isWoken)
    (queued : new.isQueued = (s.pc t).isQueued) (missed : new.isMissed = (s.pc t).isMissed)
    (positive : ∀ a, new = .tryDec a → 0 < s.count.toNat) :
    Inv initial ({ s with waitqLock := waitqLock, lock := lock }.goto t new) where
  waitqLock := guardsWaitq
  lock := guardsLock
  positive := positive_update inv.positive positive
  conserved := inv.conserved
  queued := queued_update inv.queued queued
  covered := by
    intro waits
    have bound := inv.covered (waits.imp_right (missed_update fun own => missed ▸ own))
    have same := onTheirWay_update s.pc t new
    rw [up, woken] at same
    show s.count.toNat ≤ onTheirWay (Function.update s.pc t new)
    omega

/-- The lock of the queue is free and taken. -/
theorem Inv.takeWaitqLock (inv : Inv initial s) {new : Pc} (free : s.waitqLock = none)
    (notLock : new.holdsLock = false) (up : new.isUp = (s.pc t).isUp)
    (woken : new.isWoken = (s.pc t).isWoken) (queued : new.isQueued = (s.pc t).isQueued)
    (missed : new.isMissed = (s.pc t).isMissed) (notDec : ∀ a, new ≠ .tryDec a) :
    Inv initial ({ s with waitqLock := some t }.goto t new) := by
  have guards := inv.waitqLock
  rw [free] at guards
  exact inv.move guards.acquire (inv.lock.move (by simp [notLock])) up woken queued missed
    fun a here => absurd here (notDec a)

/-- The lock of the queue is given back. -/
theorem Inv.giveWaitqLock (inv : Inv initial s) {new : Pc} (held : (s.pc t).holdsWaitq = true)
    (left : new.holdsWaitq = false) (notLock : new.holdsLock = false)
    (up : new.isUp = (s.pc t).isUp) (woken : new.isWoken = (s.pc t).isWoken)
    (queued : new.isQueued = (s.pc t).isQueued) (missed : new.isMissed = (s.pc t).isMissed)
    (notDec : ∀ a, new ≠ .tryDec a) : Inv initial ({ s with waitqLock := none }.goto t new) :=
  inv.move (inv.waitqLock.release held left) (inv.lock.move (by simp [notLock])) up woken queued
    missed fun a here => absurd here (notDec a)

/-- An attempt fails where the count is 0. -/
theorem Inv.fail (inv : Inv initial s) {a : Attempt} (here : s.pc t = .tryRead a)
    (zero : s.count.toNat = 0) : Inv initial (s.goto t (.tryUnlock a false)) where
  waitqLock := inv.waitqLock.move (by rw [here]; cases a <;> exact id)
  lock := inv.lock.move (by rw [here]; exact id)
  positive := positive_update inv.positive nofun
  conserved := inv.conserved
  queued := queued_update inv.queued (by rw [here]; rfl)
  covered := by
    intro _
    show s.count.toNat ≤ _
    omega

/-- The decrement takes the unit that a woken task was woken for, or one that no one waits for
yet. -/
theorem Inv.dec (inv : Inv initial s) {a : Attempt} (here : s.pc t = .tryDec a) :
    Inv initial
      ({ s with count := s.count - 1#64, downs := s.downs + 1 }.goto t (.tryUnlock a true)) := by
  have before := inv.positive t a here
  have less : (s.count - 1#64).toNat = s.count.toNat - 1 :=
    BitVec.toNat_sub_of_le (BitVec.le_def.mpr before)
  have total := inv.conserved
  refine ⟨inv.waitqLock.move (by rw [here]; cases a <;> exact id),
    inv.lock.move (by rw [here]; exact id), fun u b at_ => ?_, ?_,
    queued_update inv.queued (by rw [here]; rfl), fun waits => ?_⟩
  · -- no one else is at the decrement
    by_cases own : u = t
    · subst own
      rw [goto_pc, Function.update_self] at at_
      cases at_
    · rw [goto_pc, Function.update_of_ne own] at at_
      exact absurd (inv.lock.unique (by rw [at_]; rfl) (by rw [here]; rfl)) own
  · show (s.count - 1#64).toNat + (s.downs + 1) = initial.toNat + s.ups
    omega
  · have bound := inv.covered (waits.imp_right (missed_update (by cases a <;> simp [Pc.isMissed])))
    have change := onTheirWay_update s.pc t (.tryUnlock a true)
    have one := Bool.toNat_le (Pc.isWoken (.tryDec a))
    rw [here, show (Pc.tryDec a).isUp = false from rfl,
      show (Pc.tryUnlock a true).isUp = false from rfl,
      show (Pc.tryUnlock a true).isWoken = false from rfl] at change
    show (s.count - 1#64).toNat ≤ onTheirWay (Function.update s.pc t (.tryUnlock a true))
    simp only [Bool.toNat_false] at change
    omega

/-- A unit and its wakeup come together. -/
theorem Inv.inc (inv : Inv initial s) (here : s.pc t = .inc)
    (few : initial.toNat + (s.ups + 1) < 2 ^ 64) :
    Inv initial ({ s with count := s.count + 1#64, ups := s.ups + 1 }.goto t .wakeupLock) := by
  have total := inv.conserved
  have more : (s.count + 1#64).toNat = s.count.toNat + 1 :=
    BitVec.toNat_add_of_lt (by show s.count.toNat + 1 < 2 ^ 64; omega)
  refine ⟨inv.waitqLock.move (by simp [Pc.holdsWaitq]), inv.lock.move (by simp [Pc.holdsLock]),
    positive_update (fun u a at_ => ?_) nofun, ?_, queued_update inv.queued (by rw [here]; rfl),
    fun waits => ?_⟩
  · show 0 < (s.count + 1#64).toNat
    omega
  · show (s.count + 1#64).toNat + s.downs = initial.toNat + (s.ups + 1)
    omega
  · have bound := inv.covered (waits.imp_right (missed_update (by simp [Pc.isMissed])))
    have change := onTheirWay_update s.pc t .wakeupLock
    rw [here] at change
    show (s.count + 1#64).toNat ≤ onTheirWay (Function.update s.pc t .wakeupLock)
    simp only [Pc.isUp, Pc.isWoken, Bool.toNat_false, Bool.toNat_true] at change
    omega

/-- A task goes to wait where the count was 0 when it looked, and no unit has been taken past it
since. -/
theorem Inv.insert (inv : Inv initial s) (here : s.pc t = .insert) (priority : BitVec 8) :
    Inv initial ({ s with waitq := FlatPriorityq.next s.waitq (.insert t priority) }.goto t
      .insertUnlock) := by
  refine ⟨inv.waitqLock.move (by rw [here]; exact id), inv.lock.move (by simp [Pc.holdsLock]),
    positive_update inv.positive nofun, inv.conserved, fun u => ?_, fun _ => ?_⟩
  · show u ∈ (FlatPriorityq.next s.waitq (.insert t priority)).map Prod.fst ↔ _
    rw [FlatPriorityq.mem_next, goto_pc, inv.queued u]
    by_cases own : u = t
    · simp [own, Pc.isQueued]
    · rw [Function.update_of_ne own]
      simp [own]
  · have bound := inv.covered (.inr ⟨t, by rw [here]; rfl⟩)
    have same := onTheirWay_update s.pc t .insertUnlock
    rw [here] at same
    show s.count.toNat ≤ onTheirWay (Function.update s.pc t .insertUnlock)
    simp only [Pc.isUp, Pc.isWoken, Bool.toNat_false] at same
    omega

/-- The wakeup hands its unit to the task that it pops; without one no task waits. -/
theorem Inv.wakeup (inv : Inv initial s) (here : s.pc t = .wakeup) :
    Inv initial (s.wakeupFront.goto t .wakeupUnlock) := by
  have holder : (s.pc t).holdsWaitq = true := by rw [here]; rfl
  have noneMissed : ∀ u, (s.pc u).isMissed = false := by
    intro u
    by_contra missed
    have same := inv.waitqLock.unique (Pc.holdsWaitq_of_missed (by simpa using missed)) holder
    simp [same, here, Pc.isMissed] at missed
  unfold Sys.wakeupFront
  split
  · rename_i served
    have empty : s.waitq = [] := FlatPriorityq.answer_eq_none.mp served
    refine ⟨inv.waitqLock.move (by rw [here]; exact id), inv.lock.move (by simp [Pc.holdsLock]),
      positive_update inv.positive nofun, inv.conserved,
      queued_update inv.queued (by rw [here]; rfl), fun waits => ?_⟩
    obtain more | missed := waits
    · exact absurd empty more
    · obtain ⟨u, at_⟩ := missed_update (by simp [Pc.isMissed]) missed
      rw [noneMissed u] at at_
      cases at_
  · rename_i u served
    have queued := (inv.queued u).mp (FlatPriorityq.mem_of_answer served)
    have apart : u ≠ t := by
      intro same
      rw [same, here] at queued
      cases queued
    have blocked : s.pc u = .blocked := by
      cases at_ : s.pc u with
      | blocked => rfl
      | insertUnlock => exact absurd (inv.waitqLock.unique (by rw [at_]; rfl) holder) apart
      | _ => rw [at_] at queued; cases queued
    have stays : Function.update s.pc u (.waitLock true) t = .wakeup := by
      rw [Function.update_of_ne apart.symm, here]
    refine ⟨(inv.waitqLock.move (by simp [Pc.holdsWaitq])).move (by rw [stays]; exact id),
      (inv.lock.move (by simp [Pc.holdsLock])).move (by simp [Pc.holdsLock]),
      positive_update (positive_update inv.positive nofun) nofun, inv.conserved, fun v => ?_, fun _ => ?_⟩
    · show v ∈ (FlatPriorityq.next s.waitq .popfront).map Prod.fst ↔
        (Function.update (Function.update s.pc u (.waitLock true)) t .wakeupUnlock v).isQueued = true
      rw [FlatPriorityq.mem_next]
      simp only [inv.queued v, served, ne_eq, Option.some.injEq]
      by_cases own : v = t
      · simp [own, here, Pc.isQueued]
      · rw [Function.update_of_ne own]
        by_cases other : v = u
        · simp [other, Pc.isQueued]
        · rw [Function.update_of_ne other]
          simp [Ne.symm other]
    · have bound := inv.covered (.inl fun empty => by simp [FlatPriorityq.answer_eq_none.mpr empty] at served)
      have first := onTheirWay_update s.pc u (.waitLock true)
      have second := onTheirWay_update (Function.update s.pc u (.waitLock true)) t .wakeupUnlock
      rw [blocked] at first
      rw [stays] at second
      show s.count.toNat ≤
        onTheirWay (Function.update (Function.update s.pc u (.waitLock true)) t .wakeupUnlock)
      simp only [Pc.isUp, Pc.isWoken, Bool.toNat_false, Bool.toNat_true] at first second
      omega

theorem step_inv {a : Action T} {u : Sys T} (inv : Inv initial s) (moved : step s a = some u)
    (few : initial.toNat + u.ups < 2 ^ 64) : Inv initial u := by
  cases a with
  | start t call =>
      obtain ⟨here, ⟨⟩⟩ := Option.ite_none_right_eq_some.mp moved
      cases call <;> exact inv.move (inv.waitqLock.move (by simp [Call.pc, Pc.holdsWaitq]))
        (inv.lock.move (by simp [Call.pc, Pc.holdsLock])) (by rw [here]; rfl) (by rw [here]; rfl)
        (by rw [here]; rfl) (by rw [here]; rfl) nofun
  | insert t priority =>
      obtain ⟨here, ⟨⟩⟩ := Option.ite_none_right_eq_some.mp moved
      exact inv.insert here priority
  | move t =>
      rw [step] at moved
      cases here : s.pc t with
      | idle => simp [here] at moved
      | insert => simp [here] at moved
      | blocked => simp [here] at moved
      | waitLock woken =>
          simp only [here] at moved
          obtain ⟨free, ⟨⟩⟩ := Option.ite_none_right_eq_some.mp moved
          exact inv.takeWaitqLock free rfl (by rw [here]; rfl) (by rw [here]; cases woken <;> rfl)
            (by rw [here]; rfl) (by rw [here]; rfl) nofun
      | tryLock a =>
          simp only [here] at moved
          obtain ⟨free, ⟨⟩⟩ := Option.ite_none_right_eq_some.mp moved
          have guards := inv.lock
          rw [free] at guards
          exact inv.move (inv.waitqLock.move (by rw [here]; cases a <;> exact id)) guards.acquire
            (by rw [here]; rfl) (by rw [here]; rcases a with _ | _ | _ <;> rfl) (by rw [here]; rfl)
            (by rw [here]; rfl) nofun
      | tryRead a =>
          simp only [here] at moved
          split_ifs at moved with positive
          · cases moved
            refine inv.move (inv.waitqLock.move (by rw [here]; cases a <;> exact id))
              (inv.lock.move (by rw [here]; exact id)) (by rw [here]; rfl)
              (by rw [here]; rcases a with _ | _ | _ <;> rfl) (by rw [here]; rfl) (by rw [here]; rfl)
              fun _ _ => BitVec.lt_def.mp positive
          · cases moved
            exact inv.fail here (Nat.eq_zero_of_not_pos fun more => positive (BitVec.lt_def.mpr more))
      | tryDec a =>
          simp only [here] at moved
          cases moved
          exact inv.dec here
      | tryUnlock a ret =>
          simp only [here] at moved
          cases moved
          have held : (s.pc t).holdsLock = true := by rw [here]; rfl
          cases a with
          | alone =>
              exact inv.move (inv.waitqLock.move (by simp [Attempt.next, Pc.holdsWaitq]))
                (inv.lock.release held rfl) (by rw [here]; rfl) (by rw [here]; rfl) (by rw [here]; rfl)
                (by rw [here]; rfl) nofun
          | waiting woken =>
              cases ret <;> exact inv.move (inv.waitqLock.move (by rw [here]; exact id))
                (inv.lock.release held rfl) (by rw [here]; rfl) (by rw [here]; rfl) (by rw [here]; rfl)
                (by rw [here]; rfl) nofun
      | waitUnlock | insertUnlock | wakeupUnlock =>
          simp only [here] at moved
          cases moved
          exact inv.giveWaitqLock (by rw [here]; rfl) rfl rfl (by rw [here]; rfl) (by rw [here]; rfl)
            (by rw [here]; rfl) (by rw [here]; rfl) nofun
      | inc =>
          simp only [here] at moved
          cases moved
          exact inv.inc here few
      | wakeupLock =>
          simp only [here] at moved
          obtain ⟨free, ⟨⟩⟩ := Option.ite_none_right_eq_some.mp moved
          exact inv.takeWaitqLock free rfl (by rw [here]; rfl) (by rw [here]; rfl)
            (by rw [here]; rfl) (by rw [here]; rfl) nofun
      | wakeup =>
          simp only [here] at moved
          cases moved
          exact inv.wakeup here

omit [Fintype T] in
theorem wakeupFront_ups (s : Sys T) : s.wakeupFront.ups = s.ups := by
  unfold Sys.wakeupFront
  split <;> rfl

omit [Fintype T] in
theorem step_ups {a : Action T} {u : Sys T} (moved : step s a = some u) : s.ups ≤ u.ups := by
  cases a with
  | start t call =>
      obtain ⟨-, ⟨⟩⟩ := Option.ite_none_right_eq_some.mp moved
      exact le_rfl
  | insert t priority =>
      obtain ⟨-, ⟨⟩⟩ := Option.ite_none_right_eq_some.mp moved
      exact le_rfl
  | move t =>
      rw [step] at moved
      cases here : s.pc t with
      | idle | insert | blocked => simp [here] at moved
      | waitLock | tryLock | wakeupLock =>
          simp only [here] at moved
          obtain ⟨-, ⟨⟩⟩ := Option.ite_none_right_eq_some.mp moved
          exact le_rfl
      | inc =>
          simp only [here] at moved
          cases moved
          exact Nat.le_succ _
      | wakeup =>
          simp only [here] at moved
          cases moved
          exact (wakeupFront_ups s).ge
      | _ =>
          simp only [here] at moved
          cases moved
          exact le_rfl

theorem run_inv {run : List (Action T)} {u : Sys T}
    (ran : exec step (Sys.init initial) run = some u) (few : initial.toNat + u.ups < 2 ^ 64) :
    Inv initial u := by
  refine exec_invariant (I := fun s => initial.toNat + s.ups < 2 ^ 64 → Inv initial s)
    (fun s a t before moved small => ?_) (fun _ => ?_) ran few
  · have less := step_ups moved
    exact step_inv (before (by omega)) moved small
  · refine ⟨nofun, nofun, nofun, rfl, fun t => by simp [Sys.init, Pc.isQueued], fun waits => ?_⟩
    obtain more | missed := waits
    · exact absurd rfl more
    · obtain ⟨t, here⟩ := missed
      cases here

/-! ## The law -/

/-- Units are neither made nor lost, a decrement finds one, and a task that waits has every unit
behind a wakeup that is still to come or a task that was woken and has not tried yet. -/
structure Law (initial : BitVec 64) (s : Sys T) : Prop where
  conserved : s.count.toNat + s.downs = initial.toNat + s.ups
  positive : ∀ t a, s.pc t = .tryDec a → 0 < s.count.toNat
  covered : s.waitq ≠ [] → s.count.toNat ≤ count Pc.isUp s.pc + count Pc.isWoken s.pc
  /-- With no operation in progress a waiter never stands beside a unit. -/
  quiet : (∀ t, s.pc t = .idle ∨ s.pc t = .blocked) → (s.waitq ≠ [] ∨ ∃ t, s.pc t = .blocked) →
    s.count = 0#64

/-- **Units are conserved and no wakeup is lost**, for any tasks and any order of their steps. -/
theorem semaphore_law {run : List (Action T)} {u : Sys T}
    (ran : exec step (Sys.init initial) run = some u) (few : initial.toNat + u.ups < 2 ^ 64) :
    Law initial u := by
  have inv := run_inv ran few
  refine ⟨inv.conserved, inv.positive, fun waits => inv.covered (.inl waits), fun quiet waits => ?_⟩
  have nonempty : u.waitq ≠ [] := by
    obtain more | blocked := waits
    · exact more
    · obtain ⟨t, here⟩ := blocked
      intro empty
      have queued := (inv.queued t).mpr (by rw [here]; rfl)
      rw [empty] at queued
      cases queued
  have ups : count Pc.isUp u.pc = 0 := count_eq_zero.mpr fun t => by
    obtain here | here := quiet t <;> rw [here] <;> rfl
  have wokens : count Pc.isWoken u.pc = 0 := count_eq_zero.mpr fun t => by
    obtain here | here := quiet t <;> rw [here] <;> rfl
  have bound := inv.covered (.inl nonempty)
  rw [onTheirWay, ups, wokens] at bound
  exact BitVec.eq_of_toNat_eq (Nat.le_zero.mp bound)

/-- Task 0 waits, task 1 brings a unit, and task 2 takes it before task 0, which was woken, tries
again. -/
def barging : List (Action (Fin 3)) :=
  [.start 0 .down, .move 0, .move 0, .move 0, .move 0, .insert 0 5#8, .move 0,
    .start 1 .up, .move 1, .move 1, .move 1,
    .start 2 .tryDown, .move 2, .move 2, .move 2, .move 2,
    .move 1, .move 0, .move 0, .move 0, .move 0, .insert 0 5#8, .move 0]

theorem semaphore_law_barging : ∃ u, exec step (Sys.init 0#64) barging = some u ∧ Law 0#64 u ∧
    u.waitq = [(0, 5#8)] ∧ u.ups = 1 ∧ u.downs = 1 :=
  ⟨_, rfl, semaphore_law (show exec step (Sys.init 0#64) barging = some _ from rfl) (by decide), rfl,
    rfl, rfl⟩

end Twan.Sync.Semaphore
