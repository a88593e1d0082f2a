/-
# Twan.Sync.Ceiling -- the levels of tasks that use many mutexes

`src/subsys/sync/mutex.c` with `current_task_write` of `src/kernel/sched/task.c`: any number of the
mutexes of `Twan.Sync.Mutex`, each with its ceilings, and tasks that lock and unlock them in nested
order, one call at a time.  A task writes its priority and criticality (its level) to the ceilings of
the mutex, and back to what it had, which is kept in the mutex.

`acqs` is what a task has locked and not unlocked, with the level it had before each.  Two things
are asked of the levels, and neither holds of every run.  `levels_restored`: they come back, unless
a mutex that is held is locked again by `mutex_ipcp_lock`, which forgets the first level.
`ceilings_respected_iff`: they stay at the ceilings of what is held, unless a mutex with lower
ceilings is locked inside.
-/
import Twan.Sync.Mutex
import Mathlib.Data.List.Count
import Mathlib.Data.Fintype.Basic

namespace Twan.Sync.Ceiling

set_option autoImplicit false
set_option linter.dupNamespace false
set_option linter.unusedSectionVars false

open Twan.Base Twan.Base.HandOff
open Twan.Sync.Mutex (Level Pc Via Wait Call written)

instance : LE Level := ⟨fun a b => a.priority ≤ b.priority ∧ a.criticality ≤ b.criticality⟩

instance (a b : Level) : Decidable (a ≤ b) :=
  inferInstanceAs (Decidable (a.priority ≤ b.priority ∧ a.criticality ≤ b.criticality))

/-- `metadata.priority` and `metadata.criticality` of a task, the mutex of the call that it is in,
and its history: the level before the acquisition that this call makes or undoes, and the
acquisitions that are outstanding, the last one first. -/
structure Task (M : Type) where
  level : Level
  cur : Option M
  before : Level
  acqs : List (M × Level)

structure Sys (M T : Type) where
  mutex : M → Mutex.Sys T
  task : T → Task M

/-- The outermost acquisition of `m`: the level before it, and those below it. -/
def first {M : Type} [DecidableEq M] (m : M) :
    List (M × Level) → Option (Level × List (M × Level))
  | [] => none
  | e :: rest => (first m rest).or (if e.1 = m then some (e.2, rest) else none)

section Model

variable {M T : Type} [DecidableEq M] [DecidableEq T] (ceiling : M → Level) (base : T → Level)

def Sys.init : Sys M T := ⟨fun _ => Mutex.Sys.init, fun t => ⟨base t, none, base t, []⟩⟩

/-- What a step of its own does to a task that is at `pc`. -/
def Task.step (m : M) (pc : Pc T) (k : Task M) : Mutex.Action T → Task M
  | .start _ _ => { k with before := k.level }
  | .insert _ _ | .timeout _ => k
  | .move _ _ =>
      match pc with
      | .trySet _ | .tryInc _ => { k with acqs := (m, k.before) :: k.acqs }
      | .dec =>
          { k with before := (k.acqs.head?.map Prod.snd).getD k.before, acqs := k.acqs.tail }
      | pc => { k with level := (written (ceiling m) pc).getD k.level }

/-- One call at a time, and what was locked last is unlocked first; a step reads the level that the
task has, and a task waits with its real priority. -/
def Sys.allows (s : Sys M T) (m : M) : Mutex.Action T → Prop
  | .start t call =>
      (s.task t).cur = none ∧ (call = .unlock → (s.task t).acqs.head?.map Prod.fst = some m)
  | .move t level => (s.task t).cur = some m ∧ level = (s.task t).level
  | .insert t priority => (s.task t).cur = some m ∧ priority = (base t).priority
  | .timeout t => (s.task t).cur = some m

instance (s : Sys M T) (m : M) (a : Mutex.Action T) : Decidable (s.allows base m a) := by
  cases a <;> unfold Sys.allows <;> infer_instance

def step (s : Sys M T) (x : M × Mutex.Action T) : Option (Sys M T) :=
  if s.allows base x.1 x.2 then
    (Mutex.step (s.mutex x.1) x.2).map fun u =>
      { mutex := Function.update s.mutex x.1 u
        task := Function.update s.task x.2.task
          { (s.task x.2.task).step ceiling x.1 ((s.mutex x.1).pc x.2.task) x.2 with
            cur := if u.pc x.2.task = .idle then none else some x.1 } }
  else none

end Model

/-! ## The outermost acquisition -/

section First

variable {M : Type} [DecidableEq M] {m n : M} {l : Level} {e : M × Level} {acqs : List (M × Level)}
  {p : Level × List (M × Level)}

theorem first_eq_none : first m acqs = none ↔ m ∉ acqs.map Prod.fst := by
  induction acqs with
  | nil => simp [first]
  | cons e acqs ih =>
      rw [first, Option.or_eq_none_iff, ih]
      simp [and_comm, eq_comm]

theorem first_cons_of_mem (inside : m ∈ acqs.map Prod.fst) : first m (e :: acqs) = first m acqs := by
  cases found : first m acqs with
  | none => exact absurd inside (first_eq_none.mp found)
  | some p => rw [first, found]; rfl

theorem first_cons_of_ne (other : e.1 ≠ m) : first m (e :: acqs) = first m acqs := by
  rw [first, if_neg other, Option.or_none]

theorem first_cons_self (new : m ∉ acqs.map Prod.fst) : first m ((m, l) :: acqs) = some (l, acqs) := by
  rw [first, first_eq_none.mpr new, if_pos rfl, Option.none_or]

theorem first_subset (found : first m acqs = some p) : p.2 ⊆ acqs := by
  induction acqs with
  | nil => cases found
  | cons e acqs ih =>
      rw [first, Option.or_eq_some_iff] at found
      obtain deeper | ⟨-, here⟩ := found
      · exact fun e inside => List.mem_cons_of_mem _ (ih deeper inside)
      · obtain ⟨-, ⟨⟩⟩ := Option.ite_none_right_eq_some.mp here
        exact List.subset_cons_self _ _

end First

/-! ## What a call keeps -/

section Calls

variable {M T : Type} [DecidableEq M] [DecidableEq T]
  {Q : Level → List (M × Level) → Level → Prop} {m n : M} {k : Task M} {x y : Level}

/-- `Q level below x` is what is asked of a level `x` that the task gets back, when it gets it back
for an acquisition at this level above those in `below`. -/
def Kept (Q : Level → List (M × Level) → Level → Prop) (m : M) (acqs : List (M × Level))
    (x : Level) : Prop :=
  ∀ p, first m acqs = some p → Q p.1 p.2 x

/-- A place in a call on `m`, whose ceilings are these and which has `last`. -/
def CallOk (Q : Level → List (M × Level) → Level → Prop) (m : M) (ceiling last : Level)
    (k : Task M) : Pc T → Prop
  | .idle => Kept Q m k.acqs last
  | .lockRead _ =>
      k.level = k.before ∧ Q k.before k.acqs k.before ∧ Kept Q m k.acqs k.before ∧
        Kept Q m k.acqs last
  | .lockWrite w =>
      w.woken = false ∧ w.saved = k.before ∧ Q k.before k.acqs k.before ∧
        Kept Q m k.acqs k.before ∧ Kept Q m k.acqs last
  | .waitLock w | .insert w | .insertUnlock w | .blocked w | .giveUp w
  | .cmpxchg (.wait w) | .tryInc (.wait w) =>
      w.saved = k.before ∧ k.level = ceiling ∧ Q k.before k.acqs k.before ∧
        Kept Q m k.acqs k.before ∧ Kept Q m k.acqs last
  | .trySave (.wait w) | .tryWrite (.wait w) | .trySet (.wait w) =>
      w.saved = k.before ∧ k.level = ceiling ∧ Q k.before k.acqs k.before ∧
        Kept Q m k.acqs k.before
  | .waitUnlock w =>
      w.saved = k.before ∧ k.level = ceiling ∧ m ∈ k.acqs.map Prod.fst ∧ Kept Q m k.acqs k.before
  | .saveLast saved =>
      saved = k.before ∧ k.level = ceiling ∧ m ∈ k.acqs.map Prod.fst ∧ Kept Q m k.acqs k.before
  | .restore saved => saved = k.before ∧ Q k.before k.acqs k.before ∧ Kept Q m k.acqs last
  | .cmpxchg .alone | .trySave .alone =>
      k.level = k.before ∧ Q k.before k.acqs k.before ∧ Kept Q m k.acqs last
  | .tryWrite .alone => last = k.before ∧ Q k.before k.acqs k.before
  | .trySet .alone => last = k.before ∧ k.level = ceiling ∧ Q k.before k.acqs k.before
  | .tryInc .alone =>
      k.level = k.before ∧ m ∈ k.acqs.map Prod.fst ∧ Q k.before k.acqs k.before ∧
        Kept Q m k.acqs last
  | .dec => k.acqs.head?.map Prod.fst = some m ∧ Kept Q m k.acqs last
  | .readLast => m ∉ k.acqs.map Prod.fst ∧ Q k.before k.acqs last
  | .wakeupLock saved | .wakeup saved | .setHolder saved _ | .wakeupUnlock saved
  | .unlockWrite saved => m ∉ k.acqs.map Prod.fst ∧ Q k.before k.acqs saved

theorem Kept.of_notMem {acqs : List (M × Level)} (away : m ∉ acqs.map Prod.fst) :
    Kept Q m acqs x := by
  intro p found
  rw [first_eq_none.mpr away] at found
  cases found

/-- A first acquisition asks it at its own level, a further one asks nothing new. -/
theorem Kept.push {acqs : List (M × Level)} (kept : Kept Q m acqs x) (own : Q y acqs x) :
    Kept Q m ((m, y) :: acqs) x := by
  by_cases inside : m ∈ acqs.map Prod.fst
  · rw [Kept, first_cons_of_mem inside]
    exact kept
  · rw [Kept, first_cons_self inside]
    intro p found
    cases found
    exact own

/-- What another task saves in the mutex is not this one's concern. -/
theorem CallOk.save {ceiling last last' : Level} {pc : Pc T} (ok : CallOk Q m ceiling last k pc)
    (away : m ∉ k.acqs.map Prod.fst) (bystander : pc.role.isBystander = true) :
    CallOk Q m ceiling last' k pc := by
  have kept : Kept Q m k.acqs last' := .of_notMem away
  cases pc with
  | cmpxchg via | trySave via | tryWrite via | trySet via | tryInc via =>
      cases via <;> simp_all [CallOk, Pc.role, Role.isBystander]
  | _ => simp_all [CallOk, Pc.role, Role.isBystander]

end Calls

/-! ## Invariants -/

section Proofs

variable {M T : Type} [DecidableEq M] [DecidableEq T]
  {Q : Level → List (M × Level) → Level → Prop} {ceiling : M → Level} {base : T → Level}
  {s : Sys M T} {m : M} {t : T}

structure Inv (Q : Level → List (M × Level) → Level → Prop) (ceiling : M → Level)
    (s : Sys M T) : Prop where
  mutex : ∀ m, Mutex.Inv (s.mutex m)
  cur : ∀ m t, (s.mutex m).pc t ≠ .idle ↔ (s.task t).cur = some m
  held : ∀ m t, (s.mutex m).held t = ((s.task t).acqs.map Prod.fst).count m
  call : ∀ m t, CallOk Q m (ceiling m) (s.mutex m).last (s.task t) ((s.mutex m).pc t)

theorem Inv.mem_acqs_iff (inv : Inv Q ceiling s) :
    m ∈ (s.task t).acqs.map Prod.fst ↔ 0 < (s.mutex m).held t := by
  rw [inv.held, List.count_pos_iff]

/-- What is asked of a call that starts: its level must be one to come back to, also for the
acquisitions of the same mutex before it when `last` is going to be written again. -/
def Starts (Q : Level → List (M × Level) → Level → Prop) (s : Sys M T) :
    M × Mutex.Action T → Prop
  | (m, .start t call) =>
      Q (s.task t).level (s.task t).acqs (s.task t).level ∧
        (call = .lock ∨ call = .lockTimeout → Kept Q m (s.task t).acqs (s.task t).level)
  | _ => True

/-- What the task's own step leaves of the mutex and of the task. -/
def OwnOk (Q : Level → List (M × Level) → Level → Prop) (ceiling : M → Level) (m : M) (t : T)
    (u : Mutex.Sys T) (k : Task M) : Prop :=
  u.held t = (k.acqs.map Prod.fst).count m ∧ CallOk Q m (ceiling m) u.last k (u.pc t)

theorem OwnOk.goto {u : Mutex.Sys T} {k : Task M} {pc : Pc T}
    (held : u.held t = (k.acqs.map Prod.fst).count m) (call : CallOk Q m (ceiling m) u.last k pc) :
    OwnOk Q ceiling m t (u.goto t pc) k := by
  refine ⟨held, ?_⟩
  show CallOk Q m (ceiling m) u.last k (Function.update u.pc t pc t)
  rw [Function.update_self]
  exact call

theorem Inv.start (inv : Inv Q ceiling s) {call : Call} {u : Mutex.Sys T}
    (allows : s.allows base m (.start t call)) (starts : Starts Q s (m, .start t call))
    (moved : Mutex.step (s.mutex m) (.start t call) = some u) :
    OwnOk Q ceiling m t u { s.task t with before := (s.task t).level } := by
  obtain ⟨⟨here, own⟩, ⟨⟩⟩ := Option.ite_none_right_eq_some.mp moved
  have ok := inv.call m t
  rw [here] at ok
  refine .goto (inv.held m t) ?_
  cases call with
  | trylock => exact ⟨rfl, starts.1, ok⟩
  | lock => exact ⟨rfl, starts.1, starts.2 (.inl rfl), ok⟩
  | lockTimeout => exact ⟨rfl, starts.1, starts.2 (.inr rfl), ok⟩
  | unlock => exact ⟨allows.2 rfl, ok⟩

/-- A task that is about to write to the mutex for the first time holds none of it. -/
theorem Inv.fresh (inv : Inv Q ceiling s) (role : ((s.mutex m).pc t).role = .fresh) :
    m ∉ (s.task t).acqs.map Prod.fst := by
  intro inside
  have own := ((inv.mutex m).ok.acting (t := t) (by show Role.isActing ((s.mutex m).pc t).role = _; rw [role]; rfl)).2.2.1
  change Own ((s.mutex m).pc t).role _ at own
  rw [role] at own
  exact absurd (inv.mem_acqs_iff.mp inside) (Nat.not_lt.mpr (Nat.le_of_eq own))

theorem Inv.cmpxchg (inv : Inv Q ceiling s) {via : Via} (here : (s.mutex m).pc t = .cmpxchg via)
    {u : Mutex.Sys T} {level : Level} (moved : Mutex.step (s.mutex m) (.move t level) = some u) :
    OwnOk Q ceiling m t u (s.task t) := by
  have ok := inv.call m t
  rw [here] at ok
  simp only [Mutex.step, here] at moved
  split at moved
  · cases moved
    refine .goto (inv.held m t) ?_
    cases via with
    | alone => exact ok
    | wait w => exact ⟨ok.1, ok.2.1, ok.2.2.1, ok.2.2.2.1⟩
  · split at moved
    · rename_i own
      cases moved
      refine .goto (inv.held m t) ?_
      cases via with
      | alone =>
          have counted := (inv.mutex m).ok.counted_of_out own
            (by show ((s.mutex m).pc t).role = _; rw [here]; rfl)
          exact ⟨ok.1, inv.mem_acqs_iff.mpr counted.2, ok.2⟩
      | wait w => exact ok
    · cases moved
      refine .goto (inv.held m t) ?_
      cases via with
      | alone => exact ok.2.2
      | wait w =>
          simp only [Via.failed]
          split <;> exact ok

/-- The acquisition is counted. -/
theorem Inv.push (inv : Inv Q ceiling s) {via : Via}
    (here : (s.mutex m).pc t = .trySet via ∨ (s.mutex m).pc t = .tryInc via)
    {u : Mutex.Sys T} {level : Level} (moved : Mutex.step (s.mutex m) (.move t level) = some u) :
    OwnOk Q ceiling m t u { s.task t with acqs := (m, (s.task t).before) :: (s.task t).acqs } := by
  have ok := inv.call m t
  have held : Function.update (s.mutex m).held t ((s.mutex m).held t + 1) t =
      (((m, (s.task t).before) :: (s.task t).acqs).map Prod.fst).count m := by
    rw [Function.update_self, List.map_cons, List.count_cons_self, inv.held]
  have inside : m ∈ ((m, (s.task t).before) :: (s.task t).acqs).map Prod.fst := List.mem_cons_self
  obtain here | here := here
  · rw [here] at ok
    have away := inv.fresh (m := m) (t := t) (by rw [here]; rfl)
    simp only [Mutex.step, here] at moved
    cases moved
    refine .goto held ?_
    cases via with
    | alone =>
        obtain ⟨last, -, pending⟩ := ok
        refine Kept.push (.of_notMem away) ?_
        show Q _ _ (s.mutex m).last
        rw [last]
        exact pending
    | wait w =>
        obtain ⟨saved, level, pending, kept⟩ := ok
        exact ⟨saved, level, inside, kept.push pending⟩
  · rw [here] at ok
    simp only [Mutex.step, here] at moved
    obtain ⟨-, ⟨⟩⟩ := Option.ite_none_right_eq_some.mp moved
    refine .goto held ?_
    cases via with
    | alone =>
        obtain ⟨-, already, -, kept⟩ := ok
        show Kept Q m _ (s.mutex m).last
        rw [Kept, first_cons_of_mem already]
        exact kept
    | wait w =>
        obtain ⟨saved, level, pending, kept, -⟩ := ok
        exact ⟨saved, level, inside, kept.push pending⟩

/-- One acquisition less: the outermost one is the last to go. -/
theorem Inv.pop (inv : Inv Q ceiling s) (here : (s.mutex m).pc t = .dec)
    {u : Mutex.Sys T} {level : Level} (moved : Mutex.step (s.mutex m) (.move t level) = some u) :
    OwnOk Q ceiling m t u
      { s.task t with
        before := (((s.task t).acqs.head?.map Prod.snd).getD (s.task t).before)
        acqs := (s.task t).acqs.tail } := by
  have ok := inv.call m t
  rw [here] at ok
  obtain ⟨head, kept⟩ := ok
  obtain ⟨-, counted, -, -⟩ := (inv.mutex m).ok.acting (t := t)
    (by show Role.isActing ((s.mutex m).pc t).role = _; rw [here]; rfl)
  have count : (s.mutex m).count = (s.mutex m).held t :=
    counted (by show ((s.mutex m).pc t).role ≠ _; rw [here]; nofun)
  have held := inv.held m t
  obtain ⟨⟨n, l⟩, rest, acqs⟩ : ∃ e rest, (s.task t).acqs = e :: rest := by
    cases list : (s.task t).acqs with
    | nil => rw [list] at head; cases head
    | cons e rest => exact ⟨e, rest, rfl⟩
  rw [acqs] at head kept held ⊢
  obtain rfl : n = m := Option.some.inj head
  rw [List.map_cons, List.count_cons_self] at held
  simp only [Mutex.step, here] at moved
  cases moved
  refine .goto ?_ ?_
  · show Function.update (s.mutex n).held t ((s.mutex n).held t - 1) t = _
    rw [Function.update_self, held]
    rfl
  · show CallOk Q n (ceiling n) (s.mutex n).last _ _
    rw [count, held, Nat.add_sub_cancel]
    split
    · rename_i more
      intro p found
      refine kept p ?_
      rw [first_cons_of_mem (List.count_pos_iff.mp more)]
      exact found
    · rename_i done
      have away : n ∉ rest.map Prod.fst := fun inside => done (List.count_pos_iff.mpr inside)
      exact ⟨away, kept (l, rest) (first_cons_self away)⟩

/-- A task at `trySave` saves the level that it has, the one at `saveLast` the level it had. -/
theorem Inv.save (inv : Inv Q ceiling s)
    (here : (∃ via, (s.mutex m).pc t = .trySave via) ∨ ∃ saved, (s.mutex m).pc t = .saveLast saved)
    {u : Mutex.Sys T} (moved : Mutex.step (s.mutex m) (.move t (s.task t).level) = some u) :
    OwnOk Q ceiling m t u (s.task t) := by
  have ok := inv.call m t
  obtain ⟨via, here⟩ | ⟨saved, here⟩ := here
  · rw [here] at ok
    simp only [Mutex.step, here] at moved
    cases moved
    refine .goto (inv.held m t) ?_
    cases via with
    | alone =>
        obtain ⟨level, pending, -⟩ := ok
        exact ⟨level, pending⟩
    | wait w => exact ok
  · rw [here] at ok
    obtain ⟨rfl, -, -, kept⟩ := ok
    simp only [Mutex.step, here] at moved
    cases moved
    exact .goto (inv.held m t) kept

theorem Inv.own {a : Mutex.Action T} (inv : Inv Q ceiling s) (allows : s.allows base m a)
    (starts : Starts Q s (m, a)) {u : Mutex.Sys T} (moved : Mutex.step (s.mutex m) a = some u) :
    OwnOk Q ceiling m a.task u
      ((s.task a.task).step ceiling m ((s.mutex m).pc a.task) a) := by
  cases a with
  | start t call => exact inv.start allows starts moved
  | insert t priority =>
      have ok := inv.call m t
      rw [Mutex.step] at moved
      split at moved
      · rename_i w here
        rw [here] at ok
        cases moved
        exact .goto (inv.held m t) ok
      · cases moved
  | timeout t =>
      have ok := inv.call m t
      rw [Mutex.step] at moved
      split at moved
      · rename_i w here
        rw [here] at ok
        obtain ⟨saved, -, pending, -, kept⟩ := ok
        obtain ⟨-, ⟨⟩⟩ := Option.ite_none_right_eq_some.mp moved
        exact .goto (inv.held m t) ⟨saved, pending, kept⟩
      · cases moved
  | move t level =>
      obtain ⟨-, rfl⟩ := allows
      have ok := inv.call m t
      show OwnOk Q ceiling m t u ((s.task t).step ceiling m ((s.mutex m).pc t) (.move t _))
      cases here : (s.mutex m).pc t with
      | idle => simp [Mutex.step, here] at moved
      | insert w => simp [Mutex.step, here] at moved
      | blocked w => simp [Mutex.step, here] at moved
      | cmpxchg via => exact inv.cmpxchg here moved
      | trySave via => exact inv.save (.inl ⟨via, here⟩) moved
      | saveLast saved => exact inv.save (.inr ⟨saved, here⟩) moved
      | trySet via => exact inv.push (.inl here) moved
      | tryInc via => exact inv.push (.inr here) moved
      | dec => exact inv.pop here moved
      | lockRead timed =>
          rw [here] at ok
          obtain ⟨level, pending, kept, last⟩ := ok
          simp only [Mutex.step, here] at moved
          cases moved
          exact .goto (inv.held m t) ⟨rfl, level, pending, kept, last⟩
      | lockWrite w =>
          rw [here] at ok
          simp only [Mutex.step, here] at moved
          cases moved
          exact .goto (inv.held m t) ⟨ok.2.1, rfl, ok.2.2⟩
      | tryWrite via =>
          rw [here] at ok
          simp only [Mutex.step, here] at moved
          cases moved
          refine .goto (inv.held m t) ?_
          cases via with
          | alone => exact ⟨ok.1, rfl, ok.2⟩
          | wait w => exact ⟨ok.1, rfl, ok.2.2⟩
      | restore saved =>
          rw [here] at ok
          simp only [Mutex.step, here] at moved
          cases moved
          exact .goto (inv.held m t) ok.2.2
      | unlockWrite saved =>
          rw [here] at ok
          simp only [Mutex.step, here] at moved
          cases moved
          exact .goto (inv.held m t) (Kept.of_notMem ok.1)
      | giveUp w =>
          rw [here] at ok
          obtain ⟨saved, -, pending, -, kept⟩ := ok
          simp only [Mutex.step, here] at moved
          cases moved
          exact .goto (inv.held m t) ⟨saved, pending, kept⟩
      | wakeup saved =>
          rw [here] at ok
          simp only [Mutex.step, here] at moved
          cases moved
          unfold Mutex.Sys.wakeupFront
          split <;> exact .goto (inv.held m t) ok
      | waitLock w | wakeupLock saved =>
          rw [here] at ok
          simp only [Mutex.step, here] at moved
          obtain ⟨-, ⟨⟩⟩ := Option.ite_none_right_eq_some.mp moved
          exact .goto (inv.held m t) ok
      | waitUnlock w | insertUnlock w | readLast | setHolder saved woken | wakeupUnlock saved =>
          rw [here] at ok
          simp only [Mutex.step, here] at moved
          cases moved
          exact .goto (inv.held m t) ok

/-- Another task is not touched, except that it may be woken. -/
theorem Inv.other {a : Mutex.Action T} (inv : Inv Q ceiling s) {u : Mutex.Sys T}
    (moved : Mutex.step (s.mutex m) a = some u) {v : T} (apart : v ≠ a.task) :
    OwnOk Q ceiling m v u (s.task v) ∧ (u.pc v ≠ .idle ↔ (s.mutex m).pc v ≠ .idle) := by
  have frame := Mutex.step_frame (inv.mutex m) moved
  have call : CallOk Q m (ceiling m) u.last (s.task v) ((s.mutex m).pc v) := by
    have ok := inv.call m v
    have save : 0 < (s.mutex m).held a.task ∨
        ((Mutex.view (s.mutex m)).role a.task).isActing = true →
        CallOk Q m (ceiling m) u.last (s.task v) ((s.mutex m).pc v) := by
      intro owns
      obtain ⟨none, bystander⟩ := (inv.mutex m).ok.bystanders owns v apart
      refine ok.save (fun inside => ?_) bystander
      exact absurd (inv.mem_acqs_iff.mp inside) (Nat.not_lt.mpr (Nat.le_of_eq none))
    obtain same | ⟨via, here⟩ | ⟨saved, here⟩ := frame.last
    · rw [same]
      exact ok
    · refine save (.inr ?_)
      show Role.isActing ((s.mutex m).pc a.task).role = _
      rw [here]
      rfl
    · have writes := inv.call m a.task
      rw [here] at writes
      exact save (.inl (inv.mem_acqs_iff.mp writes.2.2.1))
  have held : u.held v = (((s.task v).acqs.map Prod.fst).count m) := by
    rw [frame.held v apart, inv.held]
  obtain same | ⟨w, blocked, woken⟩ := frame.pc v apart
  · refine ⟨⟨held, ?_⟩, by rw [same]⟩
    rw [same]
    exact call
  · rw [blocked] at call
    refine ⟨⟨held, ?_⟩, by rw [blocked, woken]; exact iff_of_true nofun nofun⟩
    rw [woken]
    exact call

/-- A step on `m` adds or removes an acquisition of `m`, if any. -/
theorem Inv.acqs_step {a : Mutex.Action T} (inv : Inv Q ceiling s) (task : a.task = t) :
    let k := (s.task t).step ceiling m ((s.mutex m).pc t) a
    k.acqs = (s.task t).acqs ∨ (∃ l, k.acqs = (m, l) :: (s.task t).acqs) ∨
      ∃ l, (s.task t).acqs = (m, l) :: k.acqs := by
  cases a with
  | start v call | insert v priority | timeout v => exact .inl rfl
  | move v level =>
      have ok := inv.call m t
      cases here : (s.mutex m).pc t with
      | trySet via | tryInc via => exact .inr (.inl ⟨_, rfl⟩)
      | dec =>
          rw [here] at ok
          obtain ⟨head, -⟩ := ok
          refine .inr (.inr ?_)
          show ∃ l, (s.task t).acqs = (m, l) :: (s.task t).acqs.tail
          cases list : (s.task t).acqs with
          | nil => rw [list] at head; cases head
          | cons e rest =>
              rw [list] at head
              obtain rfl := Option.some.inj head
              exact ⟨e.2, rfl⟩
      | _ => exact .inl rfl

/-- A task that is in a call on `m`, or starts one, is in no other. -/
theorem Inv.idle_of_ne {a : Mutex.Action T} (inv : Inv Q ceiling s) (allows : s.allows base m a)
    {n : M} (apart : n ≠ m) : (s.mutex n).pc a.task = .idle := by
  by_contra busy
  have cur := (inv.cur n a.task).mp busy
  have ready : (s.task a.task).cur = none ∨ (s.task a.task).cur = some m := by
    cases a with
    | start v call => exact .inl allows.1
    | move v level => exact .inr allows.1
    | insert v priority => exact .inr allows.1
    | timeout v => exact .inr allows
  obtain free | mine := ready
  · rw [cur] at free
    cases free
  · rw [cur] at mine
    exact apart (Option.some.inj mine)

theorem Inv.away {a : Mutex.Action T} (inv : Inv Q ceiling s) (allows : s.allows base m a) {n : M}
    (apart : n ≠ m) :
    OwnOk Q ceiling n a.task (s.mutex n)
      ((s.task a.task).step ceiling m ((s.mutex m).pc a.task) a) := by
  have ok := inv.call n a.task
  have held := inv.held n a.task
  rw [OwnOk, inv.idle_of_ne allows apart]
  rw [inv.idle_of_ne allows apart] at ok
  obtain same | ⟨l, pushed⟩ | ⟨l, popped⟩ := inv.acqs_step (m := m) (a := a) rfl
  · simp only [CallOk, same]
    exact ⟨held, ok⟩
  · simp only [CallOk, pushed]
    rw [List.map_cons, List.count_cons_of_ne apart.symm, Kept, first_cons_of_ne apart.symm]
    exact ⟨held, ok⟩
  · simp only [CallOk, popped] at held ok
    rw [List.map_cons, List.count_cons_of_ne apart.symm] at held
    rw [Kept, first_cons_of_ne apart.symm] at ok
    exact ⟨held, ok⟩

theorem step_inv {x : M × Mutex.Action T} {u : Sys M T} (inv : Inv Q ceiling s)
    (starts : Starts Q s x) (moved : step ceiling base s x = some u) : Inv Q ceiling u := by
  obtain ⟨m, a⟩ := x
  obtain ⟨allows, changed⟩ := Option.ite_none_right_eq_some.mp moved
  obtain ⟨after, stepped, rfl⟩ := Option.map_eq_some_iff.mp changed
  have own := inv.own allows starts stepped
  refine ⟨fun n => ?_, fun n v => ?_, fun n v => ?_, fun n v => ?_⟩
  · by_cases here : n = m
    · subst here
      simp only [Function.update_self]
      exact Mutex.step_inv (inv.mutex n) stepped
    · simp only [Function.update_of_ne here]
      exact inv.mutex n
  · by_cases here : n = m
    · subst here
      by_cases mine : v = a.task
      · subst mine
        simp only [Function.update_self]
        split <;> simp_all
      · simp only [Function.update_self, Function.update_of_ne mine]
        rw [(inv.other stepped mine).2, inv.cur]
    · by_cases mine : v = a.task
      · subst mine
        simp only [Function.update_self, Function.update_of_ne here]
        rw [inv.idle_of_ne allows here]
        split <;> simp [Ne.symm here]
      · simp only [Function.update_of_ne here, Function.update_of_ne mine]
        exact inv.cur n v
  · by_cases here : n = m
    · subst here
      by_cases mine : v = a.task
      · subst mine
        simp only [Function.update_self]
        exact own.1
      · simp only [Function.update_self, Function.update_of_ne mine]
        exact (inv.other stepped mine).1.1
    · by_cases mine : v = a.task
      · subst mine
        simp only [Function.update_self, Function.update_of_ne here]
        exact (inv.away allows here).1
      · simp only [Function.update_of_ne here, Function.update_of_ne mine]
        exact inv.held n v
  · by_cases here : n = m
    · subst here
      by_cases mine : v = a.task
      · subst mine
        simp only [Function.update_self]
        exact own.2
      · simp only [Function.update_self, Function.update_of_ne mine]
        exact (inv.other stepped mine).1.2
    · by_cases mine : v = a.task
      · subst mine
        simp only [Function.update_self, Function.update_of_ne here]
        exact (inv.away allows here).2
      · simp only [Function.update_of_ne here, Function.update_of_ne mine]
        exact inv.call n v

theorem init_inv : Inv Q ceiling (Sys.init base : Sys M T) where
  mutex _ := Mutex.run_inv (show exec Mutex.step Mutex.Sys.init [] = some _ from rfl)
  cur _ _ := ⟨fun busy => absurd rfl busy, nofun⟩
  held _ _ := rfl
  call _ _ := nofun

/-! ## Levels come back -/

/-- The level of the acquisition, and no other. -/
def Same (level : Level) (_ : List (M × Level)) (x : Level) : Prop := x = level

/-- The lowest acquisition was made at the level the task was created with, and without any
acquisition it has this level, or comes back to it. -/
structure Based (base : Level) (k : Task M) : Prop where
  bottom : ∀ e, k.acqs.getLast? = some e → e.2 = base
  level : k.acqs = [] → k.cur = none → k.level = base
  before : k.acqs = [] → k.cur ≠ none → k.before = base

theorem Based.push {base : Level} {k : Task M} (based : Based base k) (busy : k.cur ≠ none)
    (c : Option M) : Based base { k with acqs := (m, k.before) :: k.acqs, cur := c } where
  bottom := by
    intro e last
    cases list : k.acqs with
    | nil =>
        simp only [list, List.getLast?_singleton, Option.some.injEq] at last
        rw [← last]
        exact based.before list busy
    | cons e' rest =>
        simp only [list, List.getLast?_cons_cons] at last
        exact based.bottom e (by rw [list]; exact last)
  level := nofun
  before := nofun

/-- A step that leaves the acquisitions alone. -/
theorem Based.keep {base : Level} {k : Task M} (based : Based base k) (busy : k.cur ≠ none)
    {x : Level} {c : Option M} (ended : c = none → k.acqs = [] → x = k.before) :
    Based base { k with level := x, cur := c } where
  bottom := based.bottom
  level empty free := (ended free empty).trans (based.before empty busy)
  before empty _ := based.before empty busy

/-- A level that is read back is the one that was there. -/
theorem Inv.ended (inv : Inv Same ceiling s) {u : Mutex.Sys T}
    (moved : Mutex.step (s.mutex m) (.move t (s.task t).level) = some u) (ended : u.pc t = .idle)
    (empty : (s.task t).acqs = [])
    (apart : (s.mutex m).pc t ≠ .trySet .alone ∧ (s.mutex m).pc t ≠ .tryInc .alone ∧
      (s.mutex m).pc t ≠ .dec) :
    (written (ceiling m) ((s.mutex m).pc t)).getD (s.task t).level = (s.task t).before := by
  have ok := inv.call m t
  obtain here | here | here | ⟨saved, here⟩ | ⟨saved, here⟩ | ⟨here, -⟩ | ⟨saved, here⟩ :=
    Mutex.ends_of_step moved ended
  · rw [here] at ok ⊢
    exact ok.1
  · exact absurd here apart.1
  · exact absurd here apart.2.1
  · rw [here] at ok
    have inside := ok.2.2.1
    rw [empty] at inside
    cases inside
  · rw [here] at ok ⊢
    exact ok.1
  · exact absurd here apart.2.2
  · rw [here] at ok ⊢
    exact ok.2

/-- The last acquisition that is undone is the lowest one. -/
theorem Inv.based_pop (inv : Inv Same ceiling s) (based : Based (base t) (s.task t))
    (here : (s.mutex m).pc t = .dec) {u : Mutex.Sys T} {level : Level}
    (moved : Mutex.step (s.mutex m) (.move t level) = some u) :
    Based (base t)
      { s.task t with
        before := (((s.task t).acqs.head?.map Prod.snd).getD (s.task t).before)
        acqs := (s.task t).acqs.tail
        cur := if u.pc t = .idle then none else some m } := by
  obtain ⟨held, -⟩ := inv.pop here moved
  have head := inv.call m t
  rw [here] at head
  obtain ⟨⟨n, l⟩, rest, acqs⟩ : ∃ e rest, (s.task t).acqs = e :: rest := by
    cases list : (s.task t).acqs with
    | nil => have none := head.1; rw [list] at none; cases none
    | cons e rest => exact ⟨e, rest, rfl⟩
  rw [acqs] at held ⊢
  have bottom := based.bottom
  rw [acqs] at bottom
  refine ⟨fun e last => ?_, fun empty free => ?_, fun empty _ => ?_⟩
  · cases rest with
    | nil => cases last
    | cons e' rest => exact bottom e (by rw [List.getLast?_cons_cons]; exact last)
  · -- the count was 1, so this was the last one and the call goes on
    have ended : u.pc t = .idle := by
      by_contra busy
      simp only [if_neg busy] at free
      cases free
    obtain here' | here' | here' | ⟨saved, here'⟩ | ⟨saved, here'⟩ | ⟨-, more⟩ | ⟨saved, here'⟩ :=
      Mutex.ends_of_step moved ended
    case inr.inr.inr.inr.inr.inl =>
      obtain ⟨-, counted, -, -⟩ := (inv.mutex m).ok.acting (t := t)
        (by show Role.isActing ((s.mutex m).pc t).role = _; rw [here]; rfl)
      have count : (s.mutex m).count = (s.mutex m).held t :=
        counted (by show ((s.mutex m).pc t).role ≠ _; rw [here]; nofun)
      have before := inv.held m t
      obtain rfl : rest = [] := empty
      have bound := List.count_le_length (a := m) (l := ((s.task t).acqs).map Prod.fst)
      rw [acqs] at before bound
      rw [count, before] at more
      simp at bound more
      omega
    all_goals
      rw [here] at here'
      cases here'
  · obtain rfl : rest = [] := empty
    exact bottom (n, l) rfl

theorem Inv.based_step {a : Mutex.Action T} (inv : Inv Same ceiling s)
    (based : Based (base a.task) (s.task a.task)) (allows : s.allows base m a) {u : Mutex.Sys T}
    (moved : Mutex.step (s.mutex m) a = some u) :
    Based (base a.task)
      { (s.task a.task).step ceiling m ((s.mutex m).pc a.task) a with
        cur := if u.pc a.task = .idle then none else some m } := by
  cases a with
  | start t call =>
      exact ⟨based.bottom, fun empty _ => based.level empty allows.1,
        fun empty _ => based.level empty allows.1⟩
  | insert t priority =>
      have busy : (s.task t).cur ≠ none := by rw [allows.1]; exact Option.some_ne_none m
      refine based.keep busy fun free _ => ?_
      rw [Mutex.step] at moved
      split at moved
      · cases moved
        simp [Mutex.Action.task, Mutex.Sys.goto] at free
      · cases moved
  | timeout t =>
      have busy : (s.task t).cur ≠ none := by rw [allows]; exact Option.some_ne_none m
      refine based.keep busy fun free _ => ?_
      rw [Mutex.step] at moved
      split at moved
      · obtain ⟨-, ⟨⟩⟩ := Option.ite_none_right_eq_some.mp moved
        simp [Mutex.Action.task, Mutex.Sys.goto] at free
      · cases moved
  | move t level =>
      obtain ⟨cur, rfl⟩ := allows
      have busy : (s.task t).cur ≠ none := by rw [cur]; exact Option.some_ne_none m
      have ended := fun idle empty apart => inv.ended moved (t := t) idle empty apart
      show Based (base t)
        { (s.task t).step ceiling m ((s.mutex m).pc t) (.move t _) with
          cur := if u.pc t = .idle then none else some m }
      cases here : (s.mutex m).pc t with
      | trySet via | tryInc via => exact based.push busy _
      | dec => exact inv.based_pop based here moved
      | _ =>
          rw [here] at ended
          refine based.keep busy fun free empty => ended ?_ empty ⟨?_, ?_, ?_⟩
          · by_contra other
            rw [if_neg other] at free
            cases free
          all_goals
            intro same
            cases same

theorem step_based {x : M × Mutex.Action T} {u : Sys M T} (inv : Inv Same ceiling s)
    (based : ∀ t, Based (base t) (s.task t)) (moved : step ceiling base s x = some u) :
    ∀ t, Based (base t) (u.task t) := by
  obtain ⟨allows, changed⟩ := Option.ite_none_right_eq_some.mp moved
  obtain ⟨after, stepped, rfl⟩ := Option.map_eq_some_iff.mp changed
  exact (Function.forall_update_iff s.task fun t k => Based (base t) k).mpr
    ⟨inv.based_step (based x.2.task) allows stepped, fun t _ => based t⟩

/-- The step does not start `mutex_ipcp_lock` or `mutex_ipcp_lock_timeout` on a mutex that the task
holds, except at the level that it had before it locked this mutex first. -/
def RelocksAtFirst (s : Sys M T) : M × Mutex.Action T → Prop
  | (m, .start t call) =>
      call = .lock ∨ call = .lockTimeout →
        ∀ p ∈ first m (s.task t).acqs, (s.task t).level = p.1
  | _ => True

instance (s : Sys M T) : DecidablePred (RelocksAtFirst s)
  | (_, .start _ _) => inferInstanceAs (Decidable (_ → _))
  | (_, .move _ _) | (_, .insert _ _) | (_, .timeout _) => isTrue trivial

/-- A task without acquisitions has its own level; what the last unlock of a mutex writes is the
level from before its first lock, and what a timed lock writes that fails is the one from before
it. -/
structure Restored (ceiling : M → Level) (base : T → Level) (s : Sys M T) : Prop where
  all : ∀ t, (s.task t).cur = none → (s.task t).acqs = [] → (s.task t).level = base t
  final : ∀ m t saved, (s.mutex m).pc t = .unlockWrite saved →
    written (ceiling m) ((s.mutex m).pc t) = some (s.task t).before
  failed : ∀ m t saved, (s.mutex m).pc t = .restore saved →
    written (ceiling m) ((s.mutex m).pc t) = some (s.task t).before

/-- **Levels come back**, in every run in which a mutex that is held is locked again by
`mutex_ipcp_trylock`, or at the first level. -/
theorem levels_restored {run : List (M × Mutex.Action T)}
    (relocks : Along RelocksAtFirst (step ceiling base) (Sys.init base) run)
    (ran : exec (step ceiling base) (Sys.init base) run = some s) : Restored ceiling base s := by
  have start : Inv Same ceiling (Sys.init base : Sys M T) ∧
      ∀ t, Based (base t) ((Sys.init base : Sys M T).task t) :=
    ⟨init_inv, fun t => ⟨nofun, fun _ _ => rfl, fun _ _ => rfl⟩⟩
  have preserved : ∀ (s : Sys M T) x u, Inv Same ceiling s ∧ (∀ t, Based (base t) (s.task t)) →
      RelocksAtFirst s x → step ceiling base s x = some u →
      Inv Same ceiling u ∧ ∀ t, Based (base t) (u.task t) := by
    intro s x u both here moved
    obtain ⟨inv, based⟩ := both
    refine ⟨step_inv inv ?_ moved, step_based inv based moved⟩
    obtain ⟨m, a⟩ := x
    cases a with
    | start t call => exact ⟨rfl, fun again p found => here again p found⟩
    | move t level => trivial
    | insert t priority => trivial
    | timeout t => trivial
  obtain ⟨inv, based⟩ := exec_invariant_along preserved start relocks ran
  refine ⟨fun t idle empty => (based t).level empty idle, fun m t saved here => ?_,
    fun m t saved here => ?_⟩
  · have call := inv.call m t
    rw [here] at call ⊢
    exact congrArg some call.2
  · have call := inv.call m t
    rw [here] at call ⊢
    exact congrArg some call.1

end Proofs

section Runs

/-- Two mutexes and one task, which has the level `low`. -/
def low : Level := ⟨1#8, 0#8⟩
def middle : Level := ⟨5#8, 0#8⟩
def top : Level := ⟨9#8, 0#8⟩

def ceilings (m : Bool) : Level := if m then top else middle

/-- `mutex_ipcp_lock` from this level, and how many steps it makes at the ceilings. -/
def locks (m : Bool) (level : Level) (n : ℕ) : List (Bool × Mutex.Action Unit) :=
  (m, .start () .lock) :: (m, .move () level) :: (m, .move () level) ::
    List.replicate n (m, .move () (ceilings m))

/-- `mutex_ipcp_unlock` at this level. -/
def unlocks (m : Bool) (level : Level) (n : ℕ) : List (Bool × Mutex.Action Unit) :=
  (m, .start () .unlock) :: List.replicate n (m, .move () level)

/-- A mutex is locked and tried again, the other locked and unlocked inside. -/
def nested : List (Bool × Mutex.Action Unit) :=
  locks false low 7 ++ [(false, .start () .trylock), (false, .move () middle), (false, .move () middle)] ++
    locks true middle 7 ++ unlocks true top 7 ++ unlocks false middle 1 ++ unlocks false middle 7

theorem levels_restored_nested : ∃ s : Sys Bool Unit,
    exec (step ceilings fun _ => low) (Sys.init fun _ => low) nested = some s ∧
      Restored ceilings (fun _ => low) s ∧ (s.task ()).acqs = [] ∧ (s.task ()).level = low :=
  ⟨_, rfl, levels_restored (by decide) (show exec (step ceilings fun _ => low) _ nested = some _ from rfl),
    rfl, rfl⟩

/-- A mutex is locked twice and unlocked twice: the task keeps the ceilings. -/
def relocked : List (Bool × Mutex.Action Unit) :=
  locks true low 7 ++ locks true top 5 ++ unlocks true top 1 ++ unlocks true top 7

theorem level_not_restored : ¬ ∀ (run : List (Bool × Mutex.Action Unit)) (s : Sys Bool Unit),
    exec (step ceilings fun _ => low) (Sys.init fun _ => low) run = some s →
      Restored ceilings (fun _ => low) s := by
  intro all
  have restored := all relocked _ rfl
  have level := restored.all () rfl rfl
  exact absurd level (by decide)

end Runs

/-! ## Levels stay at the ceilings -/

section Respect

variable {M T : Type} [DecidableEq M] [DecidableEq T] {ceiling : M → Level} {base : T → Level}
  {s : Sys M T} {m : M} {t : T}

/-- The level is at the ceilings of the acquisitions below. -/
def Above (ceiling : M → Level) (_ : Level) (below : List (M × Level)) (x : Level) : Prop :=
  ∀ e ∈ below, ceiling e.1 ≤ x

/-- `mutex_ipcp_trylock` has found the mutex free and does not have its ceilings yet. -/
def isRaising : Pc T → Bool
  | .trySave .alone | .tryWrite .alone => true
  | _ => false

/-- The task holds the mutex. -/
def Sys.Holds (s : Sys M T) (m : M) (t : T) : Prop :=
  (s.mutex m).holder = some t ∧ isRaising ((s.mutex m).pc t) = false

instance (s : Sys M T) (m : M) (t : T) : Decidable (s.Holds m t) :=
  inferInstanceAs (Decidable (_ ∧ _))

def Respected (ceiling : M → Level) (s : Sys M T) : Prop :=
  ∀ m t, s.Holds m t → ceiling m ≤ (s.task t).level

/-- The step writes the ceilings. -/
def writesCeilings : Pc T → Bool
  | .lockWrite _ | .tryWrite _ => true
  | _ => false

/-- A step that writes the ceilings of a mutex is taken when those of the mutexes that the task
holds are not above them. -/
def RaisesOnly (ceiling : M → Level) (s : Sys M T) : M × Mutex.Action T → Prop
  | (m, .move t _) =>
      writesCeilings ((s.mutex m).pc t) = true → ∀ n, s.Holds n t → ceiling n ≤ ceiling m
  | _ => True

instance [Fintype M] (s : Sys M T) : DecidablePred (RaisesOnly ceiling s)
  | (_, .move _ _) => inferInstanceAs (Decidable (_ → _))
  | (_, .start _ _) | (_, .insert _ _) | (_, .timeout _) => isTrue trivial

theorem Level.le_refl (l : Level) : l ≤ l := ⟨BitVec.le_refl _, BitVec.le_refl _⟩

/-- What is kept: the acquisitions are respected, and so is a mutex while it is released. -/
structure Raised (ceiling : M → Level) (s : Sys M T) : Prop where
  inv : Inv (Above ceiling) ceiling s
  acqs : ∀ t, ∀ e ∈ (s.task t).acqs, ceiling e.1 ≤ (s.task t).level
  releasing : ∀ m t, ((s.mutex m).pc t).isReleasing = true → ceiling m ≤ (s.task t).level

theorem Raised.of_mem (raised : Raised ceiling s) (inside : m ∈ (s.task t).acqs.map Prod.fst) :
    ceiling m ≤ (s.task t).level := by
  obtain ⟨e, here, rfl⟩ := List.mem_map.mp inside
  exact raised.acqs t e here

/-- An owner that holds the mutex counts it among its acquisitions, is releasing it, or is at its
ceilings. -/
theorem Raised.respected (raised : Raised ceiling s) : Respected ceiling s := by
  rintro m t ⟨owner, holds⟩
  have ok := raised.inv.call m t
  have outside : ((s.mutex m).pc t).role = .out ∨ (s.mutex m).pc t = .dec →
      ceiling m ≤ (s.task t).level := by
    intro here
    refine raised.of_mem (raised.inv.mem_acqs_iff.mpr ?_)
    obtain out | dec := here
    · exact ((raised.inv.mutex m).ok.counted_of_out owner out).2
    · have own := ((raised.inv.mutex m).ok.acting (t := t)
        (by show Role.isActing ((s.mutex m).pc t).role = _; rw [dec]; rfl)).2.2.1
      change Own ((s.mutex m).pc t).role _ at own
      rw [dec] at own
      exact own
  have atCeiling : (s.task t).level = ceiling m → ceiling m ≤ (s.task t).level := by
    intro same
    rw [same]
    exact Level.le_refl _
  cases here : (s.mutex m).pc t with
  | readLast | wakeupLock last | wakeup last | setHolder last woken =>
      exact raised.releasing m t (by rw [here]; rfl)
  | lockWrite w =>
      rw [here] at ok
      refine outside (.inl ?_)
      rw [here, Pc.role, if_neg (by rw [ok.1]; exact Bool.false_ne_true)]
  | waitLock w | insert w | insertUnlock w | blocked w | giveUp w | waitUnlock w | saveLast saved =>
      rw [here] at ok
      exact atCeiling ok.2.1
  | cmpxchg via =>
      cases via with
      | alone => exact outside (.inl (by rw [here]; rfl))
      | wait w => rw [here] at ok; exact atCeiling ok.2.1
  | trySave via | tryWrite via =>
      cases via with
      | alone => rw [here] at holds; cases holds
      | wait w => rw [here] at ok; exact atCeiling ok.2.1
  | trySet via => cases via <;> rw [here] at ok <;> exact atCeiling ok.2.1
  | tryInc via =>
      rw [here] at ok
      cases via with
      | alone => exact raised.of_mem ok.2.1
      | wait w => exact atCeiling ok.2.1
  | dec => exact outside (.inr here)
  | _ => exact outside (.inl (by rw [here]; rfl))

/-- Of a mutex that the task is not in a call on, it holds what it has acquired. -/
theorem Raised.holds_of_idle (raised : Raised ceiling s) (inside : m ∈ (s.task t).acqs.map Prod.fst)
    (idle : (s.mutex m).pc t = .idle) : s.Holds m t :=
  ⟨(raised.inv.mutex m).ok.holder_of_held (raised.inv.mem_acqs_iff.mp inside), by rw [idle]; rfl⟩

theorem Raised.starts (raised : Raised ceiling s) (x : M × Mutex.Action T) :
    Starts (Above ceiling) s x := by
  obtain ⟨m, a⟩ := x
  cases a with
  | start t call =>
      exact ⟨raised.acqs t, fun _ p found e inside => raised.acqs t e (first_subset found inside)⟩
  | move t level => trivial
  | insert t priority => trivial
  | timeout t => trivial

/-- The actor's acquisitions after its step. -/
theorem Raised.acqs_step {a : Mutex.Action T} (raised : Raised ceiling s)
    (allows : s.allows base m a) (raises : RaisesOnly ceiling s (m, a)) :
    let k := (s.task a.task).step ceiling m ((s.mutex m).pc a.task) a
    ∀ e ∈ k.acqs, ceiling e.1 ≤ k.level := by
  cases a with
  | start t call => exact raised.acqs t
  | insert t priority => exact raised.acqs t
  | timeout t => exact raised.acqs t
  | move t level =>
      have ok := raised.inv.call m t
      -- where the ceilings are written, the others are below them
      have written_ : writesCeilings ((s.mutex m).pc t) = true →
          ∀ e ∈ (s.task t).acqs, ceiling e.1 ≤ ceiling m := by
        intro writes e inside
        by_cases same : e.1 = m
        · rw [same]
          exact Level.le_refl _
        · refine raises writes e.1 (raised.holds_of_idle (List.mem_map_of_mem inside) ?_)
          exact raised.inv.idle_of_ne allows same
      show ∀ e ∈ ((s.task t).step ceiling m ((s.mutex m).pc t) (.move t level)).acqs,
        ceiling e.1 ≤ ((s.task t).step ceiling m ((s.mutex m).pc t) (.move t level)).level
      have pushed : ceiling m ≤ (s.task t).level →
          ∀ e ∈ (m, (s.task t).before) :: (s.task t).acqs, ceiling e.1 ≤ (s.task t).level := by
        intro own
        exact List.forall_mem_cons.mpr ⟨own, raised.acqs t⟩
      cases here : (s.mutex m).pc t with
      | trySet via =>
          rw [here] at ok
          have level : (s.task t).level = ceiling m := by cases via <;> exact ok.2.1
          exact pushed (by rw [level]; exact Level.le_refl _)
      | tryInc via =>
          rw [here] at ok
          cases via with
          | alone => exact pushed (raised.of_mem ok.2.1)
          | wait w => exact pushed (by rw [ok.2.1]; exact Level.le_refl _)
      | dec => exact fun e inside => raised.acqs t e (List.mem_of_mem_tail inside)
      | lockWrite w | tryWrite via => exact written_ (by rw [here]; rfl)
      | restore saved =>
          rw [here] at ok
          obtain ⟨rfl, pending, -⟩ := ok
          exact pending
      | unlockWrite saved =>
          rw [here] at ok
          exact ok.2
      | _ => exact raised.acqs t

/-- The actor's level while it releases. -/
theorem Raised.releasing_step {a : Mutex.Action T} (raised : Raised ceiling s)
    {u : Mutex.Sys T} (moved : Mutex.step (s.mutex m) a = some u)
    (releasing : (u.pc a.task).isReleasing = true) :
    ceiling m ≤ ((s.task a.task).step ceiling m ((s.mutex m).pc a.task) a).level := by
  cases a with
  | start t call =>
      obtain ⟨-, ⟨⟩⟩ := Option.ite_none_right_eq_some.mp moved
      simp only [Mutex.Action.task, Mutex.Sys.goto, Function.update_self] at releasing
      cases call <;> cases releasing
  | insert t priority =>
      rw [Mutex.step] at moved
      split at moved
      · cases moved
        simp [Mutex.Action.task, Mutex.Sys.goto, Pc.isReleasing] at releasing
      · cases moved
  | timeout t =>
      rw [Mutex.step] at moved
      split at moved
      · obtain ⟨-, ⟨⟩⟩ := Option.ite_none_right_eq_some.mp moved
        simp [Mutex.Action.task, Mutex.Sys.goto, Pc.isReleasing] at releasing
      · cases moved
  | move t level =>
      show ceiling m ≤ ((s.task t).step ceiling m ((s.mutex m).pc t) (.move t level)).level
      obtain dec | before := Mutex.releasing_of_step moved releasing
      · have ok := raised.inv.call m t
        rw [dec] at ok ⊢
        refine raised.of_mem (t := t) ?_
        obtain ⟨e, head, rfl⟩ := Option.map_eq_some_iff.mp ok.1
        exact List.mem_map_of_mem (List.mem_of_head? head)
      · have old := raised.releasing m t before
        cases here : (s.mutex m).pc t with
        | readLast | wakeupLock last | wakeup last | setHolder last woken => exact old
        | _ => rw [here] at before; cases before

theorem step_raised {x : M × Mutex.Action T} {u : Sys M T} (raised : Raised ceiling s)
    (raises : RaisesOnly ceiling s x) (moved : step ceiling base s x = some u) :
    Raised ceiling u := by
  have inv := step_inv raised.inv (raised.starts x) moved
  obtain ⟨m, a⟩ := x
  obtain ⟨allows, changed⟩ := Option.ite_none_right_eq_some.mp moved
  obtain ⟨after, stepped, rfl⟩ := Option.map_eq_some_iff.mp changed
  refine ⟨inv, ?_, fun n v releasing => ?_⟩
  · exact (Function.forall_update_iff s.task
      fun t (k : Task M) => ∀ e ∈ k.acqs, ceiling e.1 ≤ k.level).mpr
      ⟨raised.acqs_step allows raises, fun t _ => raised.acqs t⟩
  · by_cases here : n = m
    · subst here
      simp only [Function.update_self] at releasing ⊢
      by_cases mine : v = a.task
      · subst mine
        simp only [Function.update_self]
        exact raised.releasing_step stepped releasing
      · simp only [Function.update_of_ne mine]
        refine raised.releasing n v ?_
        obtain same | ⟨w, -, woken⟩ := (Mutex.step_frame (raised.inv.mutex n) stepped).pc v mine
        · rw [← same]
          exact releasing
        · rw [woken] at releasing
          cases releasing
    · simp only [Function.update_of_ne here] at releasing
      by_cases mine : v = a.task
      · subst mine
        rw [raised.inv.idle_of_ne allows here] at releasing
        cases releasing
      · simp only [Function.update_of_ne mine]
        exact raised.releasing n v releasing

/-- The level of the task is the one that the step writes. -/
theorem raises_of_respected {x : M × Mutex.Action T} {u : Sys M T}
    (moved : step ceiling base s x = some u) (respected : Respected ceiling u) :
    RaisesOnly ceiling s x := by
  obtain ⟨m, a⟩ := x
  obtain ⟨allows, changed⟩ := Option.ite_none_right_eq_some.mp moved
  obtain ⟨after, stepped, rfl⟩ := Option.map_eq_some_iff.mp changed
  cases a with
  | start t call => trivial
  | insert t priority => trivial
  | timeout t => trivial
  | move t level =>
      intro writes n holds
      by_cases same : n = m
      · rw [same]
        exact Level.le_refl _
      · have after' := respected n t
        simp only [Sys.Holds, Function.update_of_ne same, Mutex.Action.task, Function.update_self]
          at after'
        have bound := after' holds
        cases here : (s.mutex m).pc t with
        | lockWrite w | tryWrite via => rw [here] at bound; exact bound
        | _ => rw [here] at writes; cases writes

theorem init_raised : Raised ceiling (Sys.init base : Sys M T) := ⟨init_inv, nofun, nofun⟩

/-- **Levels stay at the ceilings** of every mutex that is held, throughout a run, if and only if
the ceilings that are written on the way are never below those of a mutex that is held. -/
theorem ceilings_respected_iff {run : List (M × Mutex.Action T)}
    (ran : exec (step ceiling base) (Sys.init base) run = some s) :
    (∀ first second u, run = first ++ second →
      exec (step ceiling base) (Sys.init base) first = some u → Respected ceiling u) ↔
      Along (RaisesOnly ceiling) (step ceiling base) (Sys.init base) run :=
  exec_shows_iff (I := Raised ceiling) (fun _ raised => raised.respected)
    (fun _ _ _ raised raises moved => step_raised raised raises moved)
    (fun _ _ _ _ moved respected => raises_of_respected moved respected) init_raised ran

theorem ceilings_respected_iff_nested :
    (exec (step ceilings fun _ => low) (Sys.init fun _ : Unit => low) nested).isSome ∧
      ∀ first second (u : Sys Bool Unit), nested = first ++ second →
        exec (step ceilings fun _ => low) (Sys.init fun _ => low) first = some u →
          Respected ceilings u :=
  ⟨rfl, (ceilings_respected_iff
    (show exec (step ceilings fun _ => low) _ nested = some _ from rfl)).mpr (by decide)⟩

/-- The mutex with the lower ceilings inside: the task holds both and has the lower ones. -/
def lowered : List (Bool × Mutex.Action Unit) := locks true low 7 ++ locks false top 7

theorem ceiling_not_respected : ¬ ∀ (run : List (Bool × Mutex.Action Unit)) (s : Sys Bool Unit),
    exec (step ceilings fun _ => low) (Sys.init fun _ => low) run = some s →
      Respected ceilings s := by
  intro all
  have level := all lowered _ rfl true () ⟨rfl, rfl⟩
  exact absurd level (by decide)

end Respect

end Twan.Sync.Ceiling
