/-
# Twan.Kernel.TaskSwitchRuns -- tasks that take turns, in every run

* `task_switch_refines`: to the tasks every run is one of machines that have nothing to do with each
  other, each of which goes on where it stopped;
* `task_placement`: a task is in just one place, and a run queue links exactly the tasks that are in
  it;
* `tick_spared`: a timer tick spares the current task only if it came before that task was let go
  on;
* `idle_spin`: a processor that waits for a task finds its worker, unless another processor is about
  to push it.
-/
import Mathlib.Data.Fintype.Pigeonhole
import Twan.Kernel.TaskSwitchSteps

namespace Twan.Kernel.TaskSwitch

set_option autoImplicit false
set_option linter.unusedSectionVars false

open Twan.Base Twan.Kernel.SchedQueue

section Invariant

variable {n : ℕ} {T Fp : Type} [DecidableEq T] {build : Build n T Fp} {s s' : Sys n T Fp}
  {queued queued' : ℕ → List T} {c : Fin n}
variable {t : T} {place : Option (Place n)}
variable {own : T → Option (Context Fp)}
variable {q : SchedPriorityq T} {data : T → TaskMetadata} {queue : List T}

/-! ## The registers of a task that moves -/

/-- What a processor holds keeps its registers. -/
theorem Own.kept (shown : Own s queued own) (good : Good build s queued)
    (here : Local build s s' c)
    (registers : ∀ u ∈ (s.cpus c).held, s'.registers (.cpu c) u = s.registers (.cpu c) u) :
    Own s' queued own := by
  refine shown.local good here (fun u held => ?_) fun _ _ => rfl
  rw [registers u held]
  exact shown.shown (.cpu c) u held

/-- A task that moves keeps its registers. -/
theorem Own.carried (shown : Own s queued own) {t : T} {p p' : Place n}
    (move : Moved build s s' queued queued' t (some p')) (inside : t ∈ s.contents queued p)
    (registers : ∀ p u, u ≠ t → s'.registers p u = s.registers p u)
    (here : s'.registers p' t = s.registers p t) : Own s' queued' own := by
  refine shown.moved move registers (fun _ _ => rfl) ?_
  rw [shown.shown p t inside, Option.map_some, here]

theorem registers_of_none {p : Place n} {u : T} (resting : ∀ d, p = .cpu d → (s.cpus d).current ≠ some u) :
    s.registers p u = (s.tasks u).context := by
  cases p with
  | cpu d => exact if_neg (resting d rfl)
  | queue q => rfl
  | parked => rfl
  | waking => rfl

theorem registers_congr {p : Place n} {u : T} (tasks : (s'.tasks u).context = (s.tasks u).context)
    (current : ∀ d, (s'.cpus d).current = (s.cpus d).current)
    (ctx : ∀ d, (s'.cpus d).ctx = (s.cpus d).ctx) : s'.registers p u = s.registers p u := by
  cases p with
  | cpu d => simp only [Sys.registers, tasks, current, ctx]
  | queue q => exact tasks
  | parked => exact tasks
  | waking => exact tasks

/-- A change of the other data of a processor. -/
theorem setCpu_current {d : Fin n} {cpu : Cpu T Fp} (current : cpu.current = (s.cpus c).current) :
    ((s.setCpu c cpu).cpus d).current = (s.cpus d).current := by
  by_cases same : d = c
  · rw [same, setCpu_self, current]
  · rw [setCpu_of_ne _ _ same]

theorem setCpu_ctx {d : Fin n} {cpu : Cpu T Fp} (ctx : cpu.ctx = (s.cpus c).ctx) :
    ((s.setCpu c cpu).cpus d).ctx = (s.cpus d).ctx := by
  by_cases same : d = c
  · rw [same, setCpu_self, ctx]
  · rw [setCpu_of_ne _ _ same]

theorem Own.putting (shown : Own s queued own) (good : Good build s queued) {entry : Entry}
    {old next : T} (putting : (s.cpus c).phase = .putting entry next)
    (current : (s.cpus c).current = some old) :
    Own ((s.setTask old
      { s.tasks old with context := schedSaveCurrentCtx (s.cpus c).ctx }).setCpu c
      { s.cpus c with
        current := none
        phase := if entry = .wait then .setting entry (some old) next else .pushing entry old next })
      queued own := by
  refine shown.kept good ((good.putting_works putting current).local good) fun u held => ?_
  simp only [Sys.registers, setCpu_self, setCpu_tasks, current, reduceCtorEq, if_false]
  by_cases same : u = old
  · rw [same, setTask_self, if_pos rfl]
  · rw [setTask_of_ne s _ same, if_neg fun e => same (Option.some.inj e).symm]

theorem Own.setting (shown : Own s queued own) (good : Good build s queued) {entry : Entry}
    {old : Option T} {next : T} (setting : (s.cpus c).phase = .setting entry old next) :
    Own (s.setCpu c { s.cpus c with
      ctx := schedSetCtx (s.cpus c).ctx (s.tasks next).context
      current := some next
      phase := .afterSet entry old }) queued own := by
  have shape := good.shape c
  unfold Cpu.Shape at shape
  simp only [setting] at shape
  refine shown.kept good ((good.setting_works setting _).local good) fun u held => ?_
  simp only [Sys.registers, setCpu_self, setCpu_tasks, shape.1, reduceCtorEq, if_false]
  by_cases same : next = u
  · rw [same, if_pos rfl, save_setCtx]
  · rw [if_neg fun e => same (Option.some.inj e)]

theorem Own.marking (shown : Own s queued own) (good : Good build s queued) {next : T}
    (marking : (s.cpus c).phase = .marking) (current : (s.cpus c).current = some next) :
    Own ((s.setTask next { s.tasks next with
      preemptedEarly := (s.tasks next).preemptedEarly || (s.cpus c).pending }).setCpu c
      { s.cpus c with phase := .running, stale := (s.cpus c).pending }) queued own := by
  refine shown.kept good (good.marking_local marking current) fun u held => ?_
  simp only [Sys.registers, setCpu_self, setCpu_tasks]
  by_cases same : u = next
  · rw [same, setTask_self]
  · rw [setTask_of_ne s _ same]

/-! ## One step -/

/-- The system with the abstract machines. -/
def Related (build : Build n T Fp) (s : Sys n T Fp) (own : T → Option (Context Fp)) : Prop :=
  ∃ queued, Good build s queued ∧ Own s queued own

theorem exec_event {e : Event T (Context Fp)} {own' : T → Option (Context Fp)}
    (moved : machinesStep own e = some own') :
    exec machinesStep own (some e).toList = some own' := by
  simp only [Option.toList_some, exec, moved, Option.bind_some]

theorem Own.exists_of_runs (shown : Own s queued own) {t : T} (runs : s.runs c = some t) :
    own t ≠ none := by
  rw [shown.shown (.cpu c) t (runs_mem runs)]
  exact Option.some_ne_none _

/-- The statements of a change are invisible to the tasks. -/
theorem switch_related (good : Good build s queued) (shown : Own s queued own)
    (moved : s.switch build c = some s') : Related build s' own := by
  unfold Sys.switch at moved
  cases phase : (s.cpus c).phase with
  | off => simp only [phase, reduceCtorEq] at moved
  | running => simp only [phase, reduceCtorEq] at moved
  | popping entry =>
      simp only [phase] at moved
      rcases good.popped_pops c (s.cpus c) entry with nothing | ⟨next, inside, found, linked⟩
      · rw [nothing] at moved
        simp only [Option.some.injEq] at moved
        subst moved
        have here := (good.spin_works phase).local good
        refine ⟨queued, good.local here, shown.kept good here fun u _ => ?_⟩
        exact registers_congr rfl (fun _ => setCpu_current rfl) fun _ => setCpu_ctx rfl
      · obtain ⟨answer, queue, result⟩ : ∃ answer queue,
            s.popped build c (s.cpus c) entry = (answer, queue) := ⟨_, _, rfl⟩
        rw [result] at moved found linked
        simp only at found linked
        subst found
        simp only [Option.some.injEq] at moved
        subst moved
        have move := good.popping_moved phase inside linked
        refine ⟨_, good.moved move, shown.carried move
          (show next ∈ s.contents queued (.queue (Sys.queueOf build c)) from inside)
          (fun p u _ => ?_) ?_⟩
        · exact registers_congr rfl (fun _ => setCpu_current rfl) fun _ => setCpu_ctx rfl
        · have resting : (s.cpus c).current ≠ some next := by
            intro current
            have both := good.apart.unique
              (show next ∈ s.contents queued (.queue (Sys.queueOf build c)) from inside)
              (show next ∈ s.contents queued (.cpu c) by simp [Sys.contents, Cpu.held, current])
            cases both
          refine registers_of_none fun d same => ?_
          cases same
          rw [setCpu_self]
          exact resting
  | putting entry next =>
      simp only [phase] at moved
      cases current : (s.cpus c).current with
      | none => simp only [current, reduceCtorEq] at moved
      | some old =>
          simp only [current, Option.some.injEq] at moved
          subst moved
          exact ⟨queued, good.local ((good.putting_works phase current).local good),
            shown.putting good phase current⟩
  | pushing entry old next =>
      simp only [phase, Option.some.injEq] at moved
      subst moved
      have move := good.pushing_moved phase
      have inside : old ∈ (s.cpus c).held := by simp [Cpu.held, phase, Phase.hand]
      have nobody : (s.cpus c).current = none := by
        have shape := good.shape c
        unfold Cpu.Shape at shape
        simp only [phase] at shape
        exact shape.1
      have tasks : (s.schedPush build old).tasks = s.tasks :=
        schedPush_tasks ⟨c, good.home (.cpu c) old inside⟩
      refine ⟨_, good.moved move, shown.carried move
        (show old ∈ s.contents queued (.cpu c) from inside) (fun p u _ => ?_) ?_⟩
      · refine registers_congr ?_ (fun _ => setCpu_current rfl) fun _ => setCpu_ctx rfl
        rw [setCpu_tasks, tasks]
      · simp only [Sys.registers, nobody, reduceCtorEq, if_false, setCpu_tasks, tasks]
  | setting entry old next =>
      simp only [phase, Option.some.injEq] at moved
      subst moved
      exact ⟨queued, good.local ((good.setting_works phase _).local good), shown.setting good phase⟩
  | parking old =>
      simp only [phase, Option.some.injEq] at moved
      subst moved
      have move := good.parking_moved phase
      have inside : old ∈ (s.cpus c).held := by simp [Cpu.held, phase, Phase.hand]
      have resting : (s.cpus c).current ≠ some old := by
        intro current
        have nodup := good.apart.nodup (.cpu c)
        rw [Sys.contents, Cpu.held, current, phase] at nodup
        simp [Phase.hand] at nodup
      refine ⟨_, good.moved move, shown.carried move
        (show old ∈ s.contents queued (.cpu c) from inside) (fun p u _ => ?_) ?_⟩
      · exact registers_congr rfl (fun _ => setCpu_current rfl) fun _ => setCpu_ctx rfl
      · simp only [Sys.registers, if_neg resting]
        rfl
  | marking =>
      simp only [phase] at moved
      cases current : (s.cpus c).current with
      | none => simp only [current, reduceCtorEq] at moved
      | some next =>
          simp only [current, Option.some.injEq] at moved
          rw [← current] at moved
          subst moved
          exact ⟨queued, good.local (good.marking_local phase current),
            shown.marking good phase current⟩

/-- The current task goes on without a step of its own. -/
theorem related_stays (good : Good build s queued) (shown : Own s queued own) {t : T}
    (stays : Stays build s s' c t) (runs : s.runs c = some t)
    (ctx : (s'.cpus c).ctx = (s.cpus c).ctx) :
    ∃ own', exec machinesStep own (none : Option (Event T (Context Fp))).toList = some own' ∧
      Related build s' own' :=
  ⟨own, rfl, queued, good.local (stays.local runs), shown.stays good stays runs ctx⟩

/-- A task that is made is a new machine. -/
theorem made_related (good : Good build s queued) (shown : Own s queued own) {t : T} {task : Task Fp}
    {q : ℕ} (free : s.allocated t = false)
    (move : Moved build s s' queued queued' t (some (.queue q)))
    (tasks : s'.tasks = (s.made t task).tasks)
    (current : ∀ d, (s'.cpus d).current = (s.cpus d).current)
    (ctx : ∀ d, (s'.cpus d).ctx = (s.cpus d).ctx) :
    ∃ own', exec machinesStep own (some (Event.create t task.context)).toList = some own' ∧
      Related build s' own' := by
  have absent : own t = none := shown.gone t fun ⟨p, inside⟩ => good.fresh free p inside
  refine ⟨_, exec_event (if_pos absent), _, good.moved move,
    shown.moved move (fun p u other => ?_) (fun u other => Function.update_of_ne other _ _) ?_⟩
  · refine registers_congr ?_ current ctx
    rw [tasks]
    exact congrArg Task.context (setTask_of_ne s _ other)
  · rw [Function.update_self, Option.map_some]
    simp only [Sys.registers]
    rw [tasks]
    exact congrArg (fun task : Task Fp => some task.context) (setTask_self s t _).symm

/-- A task that ends is a machine less. -/
theorem destroy_related (good : Good build s queued) (shown : Own s queued own) {t : T}
    (runs : s.runs c = some t) (free : ∀ d, build.worker d ≠ t) :
    ∃ own', exec machinesStep own (event build s (.destroy c)).toList = some own' ∧
      Related build { s.setCpu c { s.cpus c with current := none, phase := .popping .destroy } with
        allocated := Function.update s.allocated t false } own' := by
  have current := (runs_eq runs).2
  have move := good.destroy_moved runs free
  refine ⟨Function.update own t none, ?_, queued, good.moved move,
    shown.moved move (fun p u other => ?_) (fun u other => Function.update_of_ne other _ _)
      (Function.update_self _ _ _)⟩
  · rw [event, current]
    exact exec_event (if_neg (shown.exists_of_runs runs))
  · cases p with
    | cpu d =>
        by_cases same : d = c
        · subst same
          have different : ¬ some t = some u := fun e => other (Option.some.inj e).symm
          simp [Sys.registers, current, Ne.symm other]
        · simp only [Sys.registers]
          rw [setCpu_of_ne _ _ same]
          rfl
    | queue q => rfl
    | parked => rfl
    | waking => rfl

theorem simulates (build : Build n T Fp) :
    Simulates (fun _ _ => True) (step build) (event build) machinesStep (Related build) := by
  rintro s act s' own ⟨queued, good, shown⟩ - moved
  cases act with
  | compute c context =>
      simp only [step, Option.map_eq_some_iff] at moved
      obtain ⟨t, runs, rfl⟩ := moved
      have current := (runs_eq runs).2
      have stays := good.compute_stays runs (schedSetCtx (s.cpus c).ctx context)
      refine ⟨Function.update own t (some context), ?_, queued, good.local (stays.local runs),
        shown.compute good stays runs ?_⟩
      · rw [event, current]
        exact exec_event (if_neg (shown.exists_of_runs runs))
      · rw [setCpu_self]
        exact save_setCtx _ _
  | write c priority criticality =>
      simp only [step, Option.map_eq_some_iff] at moved
      obtain ⟨t, runs, rfl⟩ := moved
      exact related_stays good shown (good.task_stays runs _ rfl rfl) runs rfl
  | disablePreemption c =>
      simp only [step, Option.map_eq_some_iff] at moved
      obtain ⟨t, runs, rfl⟩ := moved
      exact related_stays good shown (good.task_stays runs _ rfl rfl) runs rfl
  | enablePreemption c =>
      simp only [step, Option.map_eq_some_iff] at moved
      obtain ⟨t, runs, rfl⟩ := moved
      exact related_stays good shown (good.task_stays runs _ rfl rfl) runs rfl
  | writeLevel c criticality =>
      simp only [step, Option.some.injEq] at moved
      subst moved
      have here := good.level c (Sys.queueOf build c) criticality
      refine ⟨own, rfl, queued, good.local here, shown.kept good here fun u _ => ?_⟩
      exact registers_congr rfl (fun _ => rfl) fun _ => rfl
  | expire c =>
      simp only [step, Option.some.injEq] at moved
      subst moved
      have here : Local build s (s.setCpu c { s.cpus c with
          pending := true, stale := (s.cpus c).pending && (s.cpus c).stale }) c :=
        good.quiet rfl rfl fun both => ⟨rfl, by rw [both.1, both.2]; rfl⟩
      refine ⟨own, rfl, queued, good.local here, shown.kept good here fun u _ => ?_⟩
      exact registers_congr rfl (fun _ => setCpu_current rfl) fun _ => setCpu_ctx rfl
  | tick c =>
      cases runs : s.runs c with
      | none => simp only [step, runs, reduceCtorEq] at moved
      | some t =>
          simp only [step, runs, Option.ite_none_right_eq_some, Option.some.injEq] at moved
          obtain ⟨-, rfl⟩ := moved
          refine related_stays good shown (preempt_stays runs) runs ?_
          unfold Sys.preempt
          simp only
          split_ifs <;> simp
  | yield c =>
      simp only [step, Option.map_eq_some_iff] at moved
      obtain ⟨t, runs, rfl⟩ := moved
      exact related_stays good shown (leave_stays runs (.inl rfl)) runs (by simp [Sys.leave])
  | wait c =>
      cases runs : s.runs c with
      | none => simp only [step, runs, reduceCtorEq] at moved
      | some t =>
          simp only [step, runs, Option.ite_none_left_eq_some, Option.some.injEq, not_exists]
            at moved
          obtain ⟨free, rfl⟩ := moved
          exact related_stays good shown (leave_stays runs (.inr ⟨rfl, free⟩)) runs
            (by simp [Sys.leave])
  | destroy c =>
      cases runs : s.runs c with
      | none => simp only [step, runs, reduceCtorEq] at moved
      | some t =>
          simp only [step, runs, Option.ite_none_left_eq_some, Option.some.injEq, not_exists]
            at moved
          obtain ⟨free, rfl⟩ := moved
          exact destroy_related good shown runs free
  | switch c => exact ⟨own, rfl, switch_related good shown moved⟩
  | wake t =>
      simp only [step, Option.ite_none_right_eq_some, Option.some.injEq] at moved
      obtain ⟨inside, rfl⟩ := moved
      have move := good.wake_moved inside
      exact ⟨own, rfl, queued, good.moved move, shown.carried move
        (show t ∈ s.contents queued .parked from inside) (fun _ _ _ => rfl) rfl⟩
  | push t =>
      simp only [step, Option.ite_none_right_eq_some, Option.some.injEq] at moved
      obtain ⟨inside, rfl⟩ := moved
      have move := good.waking_moved inside
      have tasks : ({ s with waking := s.waking.erase t }.schedPush build t).tasks = s.tasks :=
        schedDoPush_tasks (s := { s with waking := s.waking.erase t })
          (home_processor (good.home .waking t inside))
      refine ⟨own, rfl, _, good.moved move, shown.carried move
        (show t ∈ s.contents queued .waking from inside) (fun p u _ => ?_) ?_⟩
      · refine registers_congr ?_ (fun _ => rfl) fun _ => rfl
        rw [tasks]
      · simp only [Sys.registers, tasks]
  | create t processor stackTop func arg priority criticality =>
      simp only [step, Option.ite_none_left_eq_some, Option.some.injEq, not_or] at moved
      obtain ⟨⟨free, foreign⟩, rfl⟩ := moved
      rw [Bool.not_eq_true] at free
      have move := good.create_moved free (not_exists.mp foreign) (show (taskInit build.fp (Sys.queueOf build processor)
        stackTop func arg priority criticality).queueId = Sys.queueOf build processor from rfl)
        ⟨rfl, rfl⟩
      refine made_related good shown free move (schedDoPush_tasks ?_) (fun _ => rfl) fun _ => rfl
      rw [Sys.made, setTask_self]
      rfl
  | trampoline c =>
      simp only [step, Option.ite_none_right_eq_some, Option.some.injEq] at moved
      obtain ⟨⟨off, free⟩, rfl⟩ := moved
      have move := good.trampoline_moved off free (show (taskInit build.fp (Sys.queueOf build c)
        (build.stackTop c) build.schedWorker 0 0 0).queueId = Sys.queueOf build c from rfl)
        ⟨rfl, rfl⟩
      refine made_related good shown free move ?_ (fun _ => setCpu_current rfl) fun _ => setCpu_ctx rfl
      rw [setCpu_tasks]
      refine schedPush_tasks ⟨c, ?_⟩
      rw [Sys.made, setTask_self]
      rfl

/-! ## The theorems -/

variable {tasks : T → Task Fp} {ctx : Fin n → InterruptInfo Fp} {run : List (Action n T Fp)}

theorem related_boot (build : Build n T Fp) (tasks : T → Task Fp) (ctx : Fin n → InterruptInfo Fp) :
    Related build (Sys.boot tasks ctx) fun _ => none := by
  have nowhere : ∀ p : Place n, ∀ t,
      t ∉ (Sys.boot tasks ctx : Sys n T Fp).contents (fun _ => []) p := by
    intro p t
    cases p <;> simp [Sys.contents, Sys.boot, Cpu.held, Phase.hand]
  have empty : ∀ t, ¬ Somewhere ((Sys.boot tasks ctx : Sys n T Fp).contents fun _ => []) t := by
    rintro t ⟨p, inside⟩
    exact nowhere p t inside
  refine ⟨fun _ => [], ⟨⟨fun p => ?_, fun {t p q} inside => absurd inside (nowhere p t)⟩,
    fun q => linked_initial _, fun t => iff_of_false Bool.false_ne_true (empty t),
    fun p t inside => absurd inside (nowhere p t), fun c => rfl, fun t inside => absurd inside (empty t),
    fun t inside => absurd inside (empty t), fun c on => absurd rfl on, fun c t leaves => ?_⟩,
    ⟨fun p t inside => absurd inside (nowhere p t), fun _ _ => rfl⟩⟩
  · cases p <;> simp [Sys.contents, Sys.boot, Cpu.held, Phase.hand]
  · simp [Sys.boot, Cpu.leaving] at leaves

theorem exec_related (ran : exec (step build) (.boot tasks ctx) run = some s) :
    ∃ own, exec machinesStep (fun _ => none) (trace (step build) (event build) (.boot tasks ctx) run) =
      some own ∧ Related build s own :=
  exec_refines (simulates build) (related_boot build tasks ctx)
    (.of_forall fun _ _ _ => trivial) ran

/-- Two processors with the workers 0 and 1. -/
def twoProcessors : Build 2 (Fin 4) Unit where
  global := true
  aging := false
  worker := Fin.castLE (by decide)
  apart := Fin.castLE_injective _
  fp := ()
  stackTop _ := 0
  schedWorker := 0

def idle : InterruptInfo Unit := ⟨⟨0, 0, 0, 0, 0, 0, 0, 0, 0, 0, 0, 0, 0, 0, 0, 0, ()⟩, 0, 0, 0, 0, 0, 0⟩

def blank : Sys 2 (Fin 4) Unit :=
  .boot (fun _ => taskInit () 0 0 0 0 0 0) fun _ => idle

/-- Task 2 takes the place of the worker 0, computes and waits; the tick that comes meanwhile marks the
worker. -/
def waitRun : List (Action 2 (Fin 4) Unit) :=
  [.trampoline 0, .switch 0, .switch 0, .create 2 0 0 0 0 5 0, .expire 0, .tick 0, .switch 0, .switch 0,
    .switch 0, .switch 0, .compute 0 { schedSaveCurrentCtx idle with rax := 7 }, .wait 0, .expire 0,
    .switch 0, .switch 0, .switch 0, .switch 0, .switch 0, .wake 2]

/-- **To the tasks nothing happens when they change**: however the processors change their tasks, a
run is one of machines by themselves, and at its end the registers of every task are those of its
machine, on the processor that runs it or in its context. -/
theorem task_switch_refines (ran : exec (step build) (.boot tasks ctx) run = some s) :
    ∃ own, exec machinesStep (fun _ => none) (trace (step build) (event build) (.boot tasks ctx) run) =
        some own ∧
      (∀ c t, (s.cpus c).current = some t → own t = some (schedSaveCurrentCtx (s.cpus c).ctx)) ∧
      (∀ t, s.allocated t = true → (∀ c, (s.cpus c).current ≠ some t) →
        own t = some (s.tasks t).context) ∧
      ∀ t, s.allocated t = false → own t = none := by
  obtain ⟨own, abstract, queued, good, shown⟩ := exec_related ran
  refine ⟨own, abstract, fun c t current => ?_, fun t live resting => ?_, fun t free => ?_⟩
  · have inside : t ∈ s.contents queued (.cpu c) := by simp [Sys.contents, Cpu.held, current]
    rw [shown.shown _ t inside]
    simp only [Sys.registers, if_pos current]
  · obtain ⟨p, inside⟩ := (good.allocated t).mp live
    rw [shown.shown p t inside, registers_of_none fun d _ => resting d]
  · refine shown.gone t fun inside => ?_
    rw [(good.allocated t).mpr inside] at free
    cases free

/-- Task 2 waits with what it has computed. -/
theorem task_switch_refines_wait : ∃ s own,
    exec (step twoProcessors) blank waitRun = some s ∧
      exec machinesStep (fun _ => none) (trace (step twoProcessors) (event twoProcessors) blank waitRun) =
        some own ∧ (own 2).map Context.rax = some 7 := by
  have applies : (exec (step twoProcessors) blank waitRun).isSome = true := by decide +kernel
  obtain ⟨s, ran⟩ := Option.isSome_iff_exists.mp applies
  obtain ⟨own, abstract, -, waiting, -⟩ := task_switch_refines ran
  have live : (exec (step twoProcessors) blank waitRun).map (·.allocated 2) = some true := by
    decide +kernel
  have others : (exec (step twoProcessors) blank waitRun).map
      (fun s => decide (∀ c, (s.cpus c).current ≠ some 2)) = some true := by decide +kernel
  have rax : (exec (step twoProcessors) blank waitRun).map (fun s => (s.tasks 2).context.rax) =
      some 7 := by decide +kernel
  rw [ran] at live others rax
  refine ⟨s, own, ran, abstract, ?_⟩
  rw [waiting 2 (Option.some.inj live) (of_decide_eq_true (Option.some.inj others))]
  exact rax

/-- **A task is in just one place**: current or in hand on one processor, in one run queue, waiting, or
in the hands of who woke it up.  What each run queue links is exactly the tasks that are in it, and
a task is only ever in its own queue and on a processor of that queue. -/
theorem task_placement (ran : exec (step build) (.boot tasks ctx) run = some s) :
    ∃ queued : ℕ → List T, Apart (s.contents queued) ∧
      (∀ q, Linked (s.queues q) s.data (queued q)) ∧
      (∀ t, s.allocated t = true ↔ Somewhere (s.contents queued) t) ∧
      (∀ q, ∀ t ∈ queued q, (s.tasks t).queueId = q) ∧
      ∀ c, ∀ t ∈ (s.cpus c).held, (s.tasks t).queueId = Sys.queueOf build c := by
  obtain ⟨own, -, queued, good, -⟩ := exec_related ran
  exact ⟨queued, good.apart, good.linked, good.allocated,
    fun q t inside => (good.home (.queue q) t inside).1, fun c t inside => good.home (.cpu c) t inside⟩

theorem task_placement_wait : ∃ s queued, exec (step twoProcessors) blank waitRun = some s ∧
    Apart (s.contents queued) ∧ ∀ q, Linked (s.queues q) s.data (queued q) := by
  have applies : (exec (step twoProcessors) blank waitRun).isSome = true := by decide +kernel
  obtain ⟨s, ran⟩ := Option.isSome_iff_exists.mp applies
  obtain ⟨queued, apart, linked, -⟩ := task_placement ran
  exact ⟨s, queued, ran, apart, linked⟩

/-- **A tick spares a task only if it came before the task was let go on**, and neither that mark nor
the request for a yield is ever on a task that no processor runs. -/
theorem tick_spared (ran : exec (step build) (.boot tasks ctx) run = some s) {t : T}
    (live : s.allocated t = true) :
    ((s.tasks t).yieldRequest = true → ∃ c, s.runs c = some t) ∧
      ((s.tasks t).preemptedEarly = true →
        ∃ c, s.runs c = some t ∧ (s.cpus c).pending = true ∧ (s.cpus c).stale = true) := by
  obtain ⟨own, -, queued, good, -⟩ := exec_related ran
  have inside := (good.allocated t).mp live
  exact ⟨good.requested t inside, good.early t inside⟩

/-- The worker is marked. -/
theorem tick_spared_wait : ∃ s, exec (step twoProcessors) blank waitRun = some s ∧
    ∃ c, s.runs c = some 0 ∧ (s.cpus c).pending = true ∧ (s.cpus c).stale = true := by
  have applies : (exec (step twoProcessors) blank waitRun).isSome = true := by decide +kernel
  obtain ⟨s, ran⟩ := Option.isSome_iff_exists.mp applies
  have live : (exec (step twoProcessors) blank waitRun).map (·.allocated 0) = some true := by
    decide +kernel
  have marked : (exec (step twoProcessors) blank waitRun).map (fun s => (s.tasks 0).preemptedEarly) =
      some true := by decide +kernel
  rw [ran] at live marked
  exact ⟨s, ran, (tick_spared ran (Option.some.inj live)).2 (Option.some.inj marked)⟩

/-- The processor holds its current task and another one, and will push the first. -/
def Cpu.AboutToPush (cpu : Cpu T Fp) : Prop :=
  match cpu.phase with
  | .putting entry _ => entry = .preempt ∨ entry = .yield
  | .pushing _ _ _ => True
  | _ => False

/-- A processor with two workers is about to push one of them. -/
theorem Good.two_workers (good : Good build s queued) {d e : Fin n} (distinct : d ≠ e)
    (left : build.worker d ∈ (s.cpus c).held) (right : build.worker e ∈ (s.cpus c).held) :
    (s.cpus c).AboutToPush := by
  have apart : build.worker d ≠ build.worker e := fun same => distinct (build.apart same)
  have shape := good.shape c
  have leaving := good.leaving c
  unfold Cpu.Shape at shape
  unfold Cpu.AboutToPush
  rw [Cpu.held] at left right
  have single : ∀ (x : Option T) (t u : T), t ∈ x.toList → u ∈ x.toList → t = u := by
    intro x t u first second
    rw [Option.mem_toList] at first second
    exact Option.some.inj (first.symm.trans second)
  cases phase : (s.cpus c).phase with
  | off =>
      simp only [phase] at shape
      simp [phase, shape, Phase.hand] at left
  | running =>
      simp only [phase, Phase.hand, List.append_nil] at left right
      exact absurd (single _ _ _ left right) apart
  | popping entry =>
      simp only [phase, Phase.hand, List.append_nil] at left right
      exact absurd (single _ _ _ left right) apart
  | putting entry next =>
      simp only [phase] at shape ⊢
      rcases shape.2 with preempt | yield | rfl
      · exact .inl preempt
      · exact .inr yield
      · -- the old task is not a worker, so both are the next one
        have old : ∀ d, build.worker d ∉ (s.cpus c).current.toList := by
          intro d inside
          rw [Option.mem_toList] at inside
          exact leaving _ (by simp only [Cpu.leaving, phase]; exact inside) d rfl
        simp only [phase, Phase.hand, List.mem_append, old, false_or, List.mem_singleton] at left right
        exact absurd (left.trans right.symm) apart
  | pushing entry old next => trivial
  | setting entry old next =>
      simp only [phase] at shape
      have foreign : ∀ d, build.worker d ∉ old.toList := by
        intro d inside
        rw [Option.mem_toList] at inside
        exact leaving _ (by simp only [Cpu.leaving, phase]; exact inside) d rfl
      simp only [phase, shape.1, Phase.hand, Option.toList_none, List.nil_append, List.mem_append,
        foreign, false_or, List.mem_singleton] at left right
      exact absurd (left.trans right.symm) apart
  | parking old =>
      have foreign : ∀ d, build.worker d ≠ old :=
        leaving old (by simp only [Cpu.leaving, phase])
      simp only [phase, Phase.hand, List.mem_append, List.mem_singleton, foreign, or_false]
        at left right
      exact absurd (single _ _ _ left right) apart
  | marking =>
      simp only [phase, Phase.hand, List.append_nil] at left right
      exact absurd (single _ _ _ left right) apart

/-- A processor that waits for a task holds no worker. -/
theorem Good.no_worker (good : Good build s queued) {entry : Entry}
    (popping : (s.cpus c).phase = .popping entry)
    (spins : entry = .wait ∨ entry = .destroy ∨ entry = .trampoline) (d : Fin n) :
    build.worker d ∉ (s.cpus c).held := by
  have shape := good.shape c
  unfold Cpu.Shape at shape
  simp only [popping] at shape
  intro inside
  simp only [Cpu.held, popping, Phase.hand, List.append_nil, Option.mem_toList] at inside
  rcases spins with rfl | rfl | rfl
  · exact good.leaving c _ (by simp only [Cpu.leaving, popping]; exact inside) d rfl
  · rw [shape.mpr (.inl rfl)] at inside
    cases inside
  · rw [shape.mpr (.inr rfl)] at inside
    cases inside

/-- **The workers keep a processor from waiting for a task in vain**: where `sched_pop_clean_spin`
finds nothing, all processors share one queue and another of them is about to push a task.  It
never finds nothing in the build with a run queue for each processor. -/
theorem idle_spin (ran : exec (step build) (.boot tasks ctx) run = some s) {entry : Entry}
    (popping : (s.cpus c).phase = .popping entry)
    (spins : entry = .wait ∨ entry = .destroy ∨ entry = .trampoline)
    (nothing : (s.popped build c (s.cpus c) entry).1 = none) :
    build.global = true ∧ ∃ d, d ≠ c ∧ (s.cpus d).AboutToPush := by
  obtain ⟨own, -, queued, good, -⟩ := exec_related ran
  have clean : s.popped build c (s.cpus c) entry =
      schedPopClean build.aging (s.queues (Sys.queueOf build c)) s.data := by
    rcases spins with rfl | rfl | rfl <;> rfl
  rw [clean] at nothing
  have empty := schedPopClean_eq_none (good.linked _) nothing
  -- the worker of each processor of this queue is on a processor of this queue
  have held : ∀ d, Sys.queueOf build d = Sys.queueOf build c → (s.cpus d).phase ≠ .off →
      ∃ e, build.worker d ∈ (s.cpus e).held ∧ Sys.queueOf build e = Sys.queueOf build c := by
    intro d same on
    obtain ⟨p, inside, unparked, unwoken, home⟩ := good.workers d on
    have placed := good.home p _ inside
    rw [home, same] at placed
    cases p with
    | cpu e => exact ⟨e, inside, placed.symm⟩
    | queue q =>
        have here : build.worker d ∈ queued q := inside
        rw [← placed.1, empty] at here
        cases here
    | parked => exact absurd rfl unparked
    | waking => exact absurd rfl unwoken
  have started : (s.cpus c).phase ≠ .off := by simp [popping]
  let mine := Finset.univ.filter fun d : Fin n =>
    Sys.queueOf build d = Sys.queueOf build c ∧ (s.cpus d).phase ≠ .off
  have member : ∀ d, d ∈ mine ↔
      Sys.queueOf build d = Sys.queueOf build c ∧ (s.cpus d).phase ≠ .off := by
    intro d
    simp [mine]
  have inMine : c ∈ mine := (member c).mpr ⟨rfl, started⟩
  have holder : ∀ d ∈ mine, ∃ e ∈ mine.erase c, build.worker d ∈ (s.cpus e).held := by
    intro d inside
    obtain ⟨same, on⟩ := (member d).mp inside
    obtain ⟨e, there, queue⟩ := held d same on
    have other : e ≠ c := by
      rintro rfl
      exact good.no_worker popping spins d there
    refine ⟨e, Finset.mem_erase.mpr ⟨other, (member e).mpr ⟨queue, fun off => ?_⟩⟩, there⟩
    have shape := good.shape e
    unfold Cpu.Shape at shape
    simp only [off] at shape
    simp [Cpu.held, off, shape, Phase.hand] at there
  choose! at_ there inside using holder
  -- there are fewer processors that hold the workers than workers
  obtain ⟨d, inD, e, inE, distinct, same⟩ := Finset.exists_ne_map_eq_of_card_lt_of_maps_to
    (Finset.card_erase_lt_of_mem inMine) there
  have other : at_ d ≠ c := (Finset.mem_erase.mp (there d inD)).1
  refine ⟨?_, at_ d, other, good.two_workers distinct (inside d inD) (by rw [same]; exact inside e inE)⟩
  have queue := ((member _).mp (Finset.mem_of_mem_erase (there d inD))).1
  cases global : build.global with
  | true => rfl
  | false =>
      simp only [Sys.queueOf, cpuToQueueId, global, Bool.false_eq_true, if_false] at queue
      exact absurd (Fin.ext queue) other

/-- Processor 0 has taken the worker of processor 1, which starts. -/
def spinRun : List (Action 2 (Fin 4) Unit) :=
  [.trampoline 0, .switch 0, .switch 0, .trampoline 1, .expire 0, .tick 0, .switch 0]

theorem idle_spin_start : ∃ s, exec (step twoProcessors) blank spinRun = some s ∧
    ∃ d, d ≠ 1 ∧ (s.cpus d).AboutToPush := by
  have applies : (exec (step twoProcessors) blank spinRun).isSome = true := by decide +kernel
  obtain ⟨s, ran⟩ := Option.isSome_iff_exists.mp applies
  have popping : (exec (step twoProcessors) blank spinRun).map (fun s => (s.cpus 1).phase) =
      some (.popping .trampoline) := by decide +kernel
  have nothing : (exec (step twoProcessors) blank spinRun).map
      (fun s => (s.popped twoProcessors 1 (s.cpus 1) .trampoline).1) = some none := by decide +kernel
  rw [ran] at popping nothing
  exact ⟨s, ran, (idle_spin ran (Option.some.inj popping) (.inr (.inr rfl))
    (Option.some.inj nothing)).2⟩

end Invariant

end Twan.Kernel.TaskSwitch
