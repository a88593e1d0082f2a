/-
# Twan.Kernel.TaskSwitchSteps -- the statements of a change

One lemma for each statement of a change of tasks: what moves none is `Local` to its processor, and
what moves one is a `Moved` from one place to another, for a push, a pop, a creation, a trampoline, a
wait, a wakeup and a destruction.
-/
import Twan.Kernel.TaskSwitchInvariant

namespace Twan.Kernel.TaskSwitch

set_option autoImplicit false
set_option linter.unusedSectionVars false

open Twan.Base Twan.Kernel.SchedQueue

section Invariant

variable {n : ℕ} {T Fp : Type} [DecidableEq T] {build : Build n T Fp} {s s' : Sys n T Fp}
  {queued queued' : ℕ → List T} {c : Fin n}
variable {t : T} {place : Option (Place n)}
variable {own : T → Option (Context Fp)}
variable {q : SchedPriorityq T} {data : T → TaskMetadata} {queue : List T}

/-! ## The statements of a change that move no task -/

theorem Good.held_calm (good : Good build s queued) (busy : (s.cpus c).phase ≠ .running) {u : T}
    (held : u ∈ (s.cpus c).held) :
    (s.tasks u).yieldRequest = false ∧ (s.tasks u).preemptedEarly = false := by
  refine good.calm (show u ∈ s.contents queued (.cpu c) from held) fun d same runs => ?_
  cases same
  exact busy (runs_eq runs).1

/-- A processor in a change keeps what it holds. -/
structure Works (build : Build n T Fp) (s s' : Sys n T Fp) (c : Fin n) : Prop where
  cpus : ∀ d, d ≠ c → s'.cpus d = s.cpus d
  tasks : ∀ u, u ∉ (s.cpus c).held → s'.tasks u = s.tasks u
  queues : s'.queues = s.queues
  allocated : s'.allocated = s.allocated
  parked : s'.parked = s.parked
  waking : s'.waking = s.waking
  requested : ∀ u, (s'.tasks u).yieldRequest = (s.tasks u).yieldRequest
  early : ∀ u, (s'.tasks u).preemptedEarly = (s.tasks u).preemptedEarly
  queueId : ∀ u, (s'.tasks u).queueId = (s.tasks u).queueId
  held : (s'.cpus c).held.Perm (s.cpus c).held
  busy : (s.cpus c).phase ≠ .off ∧ (s.cpus c).phase ≠ .running
  shape : (s'.cpus c).Shape
  leaving : ∀ u, (s'.cpus c).leaving = some u → (s.cpus c).leaving = some u

theorem Works.local (works : Works build s s' c) (good : Good build s queued) :
    Local build s s' c where
  cpus := works.cpus
  tasks := works.tasks
  queues q := .inl (congrFun works.queues q)
  allocated := works.allocated
  parked := works.parked
  waking := works.waking
  held := works.held
  queueId := works.queueId
  shape := works.shape
  requested u held set := by
    rw [works.requested, (good.held_calm works.busy.2 held).1] at set
    cases set
  early u held set := by
    rw [works.early, (good.held_calm works.busy.2 held).2] at set
    cases set
  started _ := works.busy.1
  leaving u leaves := good.leaving c u (works.leaving u leaves)

/-- `sched_pop` found nothing: the current task goes on, or the processor spins. -/
theorem Good.spin_works (good : Good build s queued) {entry : Entry}
    (popping : (s.cpus c).phase = .popping entry) :
    Works build s ((s.setQueue (Sys.queueOf build c) (s.queues (Sys.queueOf build c))).setCpu c
      { s.cpus c with
        phase := if entry = .preempt ∨ entry = .yield then .running else .popping entry }) c := by
  have shape := good.shape c
  unfold Cpu.Shape at shape
  simp only [popping] at shape
  refine ⟨fun d other => setCpu_of_ne _ _ other, fun _ _ => rfl, ?_, rfl, rfl, rfl, fun _ => rfl,
    fun _ => rfl, fun _ => rfl, ?_, by simp [popping], ?_, fun u leaves => ?_⟩
  · exact Function.update_eq_self _ _
  · rw [setCpu_self, Cpu.held, Cpu.held, popping]
    split_ifs <;> exact .refl _
  · unfold Cpu.Shape
    rw [setCpu_self]
    by_cases goes : entry = .preempt ∨ entry = .yield
    · simp only [if_pos goes]
      intro none
      rcases shape.mp none with rfl | rfl <;> simp at goes
    · simp only [if_neg goes]
      exact shape
  · unfold Cpu.leaving at leaves ⊢
    simp only [setCpu_self, popping] at leaves ⊢
    by_cases goes : entry = .preempt ∨ entry = .yield
    · simp [if_pos goes] at leaves
    · simpa only [if_neg goes] using leaves

/-- `sched_put_current_ctx`, up to its `sched_push`. -/
theorem Good.putting_works (good : Good build s queued) {entry : Entry} {old next : T}
    (putting : (s.cpus c).phase = .putting entry next) (current : (s.cpus c).current = some old) :
    Works build s ((s.setTask old
      { s.tasks old with context := schedSaveCurrentCtx (s.cpus c).ctx }).setCpu c
      { s.cpus c with
        current := none
        phase := if entry = .wait then .setting entry (some old) next else .pushing entry old next })
      c := by
  have shape := good.shape c
  unfold Cpu.Shape at shape
  simp only [putting] at shape
  have same : ∀ u, u ≠ old → (s.setTask old
      { s.tasks old with context := schedSaveCurrentCtx (s.cpus c).ctx }).tasks u = s.tasks u :=
    fun u other => setTask_of_ne s _ other
  have kept : ∀ {β : Type} (field : Task Fp → β), (∀ task context, field { task with context := context } =
      field task) → ∀ u, field ((s.setTask old
      { s.tasks old with context := schedSaveCurrentCtx (s.cpus c).ctx }).tasks u) =
      field (s.tasks u) := by
    intro β field blind u
    by_cases here : u = old
    · rw [here, setTask_self, blind]
    · rw [same u here]
  refine ⟨fun d other => setCpu_of_ne _ _ other, fun u outside => same u ?_, rfl, rfl, rfl, rfl,
    kept (·.yieldRequest) fun _ _ => rfl, kept (·.preemptedEarly) fun _ _ => rfl,
    kept (·.queueId) fun _ _ => rfl, ?_, by simp [putting], ?_, fun u leaves => ?_⟩
  · rintro rfl
    exact outside (by simp [Cpu.held, current])
  · rw [setCpu_self, Cpu.held, Cpu.held, putting, current]
    split_ifs <;> exact .refl _
  · unfold Cpu.Shape
    rw [setCpu_self]
    by_cases waits : entry = .wait
    · simp [waits]
    · simp only [if_neg waits, true_and]
      rcases shape.2 with preempt | yield | wait
      · exact .inl preempt
      · exact .inr yield
      · exact absurd wait waits
  · unfold Cpu.leaving at leaves ⊢
    simp only [setCpu_self, putting] at leaves ⊢
    by_cases waits : entry = .wait
    · subst waits
      simpa [current] using leaves
    · simp [if_neg waits] at leaves

/-- `sched_set_ctx`. -/
theorem Good.setting_works (good : Good build s queued) {entry : Entry} {old : Option T} {next : T}
    (setting : (s.cpus c).phase = .setting entry old next) (ctx : InterruptInfo Fp) :
    Works build s (s.setCpu c { s.cpus c with
      ctx := ctx
      current := some next
      phase := .afterSet entry old }) c := by
  have shape := good.shape c
  unfold Cpu.Shape at shape
  simp only [setting] at shape
  obtain ⟨nobody, waits⟩ := shape
  refine ⟨fun d other => setCpu_of_ne _ _ other, fun _ _ => rfl, rfl, rfl, rfl, rfl, fun _ => rfl,
    fun _ => rfl, fun _ => rfl, ?_, by simp [setting], ?_, fun u leaves => ?_⟩
  · rw [setCpu_self, Cpu.held, Cpu.held, setting, nobody]
    cases old with
    | none => cases entry <;> exact .refl _
    | some old =>
        rw [waits.mp (Option.some_ne_none old)]
        exact .swap old next []
  · unfold Cpu.Shape
    rw [setCpu_self]
    cases old with
    | none => cases entry <;> simp [Phase.afterSet]
    | some old => cases entry <;> simp [Phase.afterSet]
  · unfold Cpu.leaving at leaves ⊢
    simp only [setCpu_self, setting] at leaves ⊢
    cases old with
    | none => cases entry <;> simp [Phase.afterSet] at leaves
    | some old =>
        rw [waits.mp (Option.some_ne_none old)] at leaves
        exact leaves

/-- The mark of a task whose processor has a tick pending. -/
theorem Good.marking_local (good : Good build s queued) {next : T}
    (marking : (s.cpus c).phase = .marking) (current : (s.cpus c).current = some next) :
    Local build s ((s.setTask next { s.tasks next with
      preemptedEarly := (s.tasks next).preemptedEarly || (s.cpus c).pending }).setCpu c
      { s.cpus c with phase := .running, stale := (s.cpus c).pending }) c := by
  have held : (s.cpus c).held = [next] := by
    rw [Cpu.held, marking, current]
    rfl
  have busy : (s.cpus c).phase ≠ .running := by simp [marking]
  have calm : (s.tasks next).yieldRequest = false ∧ (s.tasks next).preemptedEarly = false :=
    good.held_calm busy (by rw [held]; exact List.mem_singleton_self next)
  refine ⟨fun d other => setCpu_of_ne _ _ other, fun u outside => setTask_of_ne s _ ?_,
    fun q => .inl rfl, rfl, rfl, rfl, ?_, fun u => ?_, ?_, fun u inside set => ?_,
    fun u inside set => ?_, fun _ => by simp [marking], fun u leaves => by
      simp [Cpu.leaving] at leaves⟩
  · rintro rfl
    exact outside (by rw [held]; exact List.mem_singleton_self u)
  · rw [setCpu_self, held, Cpu.held, current]
    exact .refl _
  · by_cases same : u = next
    · simp [same]
    · rw [setCpu_tasks, setTask_of_ne s _ same]
  · simp [Cpu.Shape, current]
  · rw [held, List.mem_singleton] at inside
    subst inside
    simp [calm.1] at set
  · rw [held, List.mem_singleton] at inside
    subst inside
    simp only [setCpu_tasks, setTask_self, calm.2, Bool.false_or] at set
    simp [Sys.runs, current, set]

/-! ## The statements that move a task -/

theorem queueToCpuId_queueOf (c : Fin n) :
    cpuToQueueId build.global (queueToCpuId build.global (Sys.queueOf build c)) =
      Sys.queueOf build c := by
  unfold Sys.queueOf cpuToQueueId queueToCpuId
  cases build.global <;> rfl

@[simp] theorem schedPush_cpus (s : Sys n T Fp) (t : T) : (s.schedPush build t).cpus = s.cpus := rfl
@[simp] theorem schedPush_allocated (s : Sys n T Fp) (t : T) :
    (s.schedPush build t).allocated = s.allocated := rfl
@[simp] theorem schedPush_parked (s : Sys n T Fp) (t : T) :
    (s.schedPush build t).parked = s.parked := rfl
@[simp] theorem schedPush_waking (s : Sys n T Fp) (t : T) :
    (s.schedPush build t).waking = s.waking := rfl

/-- A task that belongs to a queue goes there. -/
theorem schedDoPush_tasks {t : T} {processor : ℕ}
    (home : (s.tasks t).queueId = cpuToQueueId build.global processor) :
    (s.schedDoPush build t processor).tasks = s.tasks := by
  unfold Sys.schedDoPush
  simp only [setQueue_tasks, Sys.setTask, ← home]
  exact Function.update_eq_self t s.tasks

theorem schedDoPush_linked {t : T} {processor : ℕ}
    (home : (s.tasks t).queueId = cpuToQueueId build.global processor)
    (linked : ∀ q, Linked (s.queues q) s.data (queued q)) (absent : ∀ q, t ∉ queued q) (q : ℕ) :
    Linked ((s.schedDoPush build t processor).queues q) (s.schedDoPush build t processor).data
      (Function.update queued (s.tasks t).queueId (queued (s.tasks t).queueId ++ [t]) q) := by
  have data : (s.schedDoPush build t processor).data = s.data := by
    unfold Sys.data
    rw [schedDoPush_tasks home]
  have same : (s.setTask t { s.tasks t with queueId := (s.tasks t).queueId }).data = s.data := by
    unfold Sys.data Sys.setTask
    rw [Function.update_eq_self]
  rw [data]
  unfold Sys.schedDoPush
  simp only [← home, same, setTask_queues]
  by_cases here : q = (s.tasks t).queueId
  · rw [here, setQueue_self, Function.update_self]
    exact (linked _).push (absent _)
  · rw [setQueue_of_ne _ _ _ here, Function.update_of_ne here]
    exact linked q

theorem home_processor {q : ℕ} (home : ∃ c, q = Sys.queueOf build c) :
    q = cpuToQueueId build.global (queueToCpuId build.global q) := by
  obtain ⟨c, rfl⟩ := home
  exact (queueToCpuId_queueOf c).symm

theorem schedPush_tasks {t : T} (home : ∃ c, (s.tasks t).queueId = Sys.queueOf build c) :
    (s.schedPush build t).tasks = s.tasks := schedDoPush_tasks (home_processor home)

/-- `sched_push` of a task from a processor, from who woke it up or of a new one. -/
theorem Good.push_moved (good : Good build s queued) {t : T} (source : Option (Place n)) {q : ℕ}
    (home : ∃ c, q = Sys.queueOf build c)
    (linked : ∀ r, Linked (s'.queues r) s'.data (Function.update queued q (queued q ++ [t]) r))
    (tasks : ∀ u, u ≠ t → s'.tasks u = s.tasks u)
    (queueId : (s'.tasks t).queueId = q)
    (calm : (s'.tasks t).yieldRequest = false ∧ (s'.tasks t).preemptedEarly = false)
    (allocated : ∀ u, u ≠ t → s'.allocated u = s.allocated u) (kept : s'.allocated t = true)
    (fresh : source = none → ∀ p, t ∉ s.contents queued p)
    (elsewhere : ∀ q, source ≠ some (.queue q))
    (cpus : ∀ d, source = some (.cpu d) → (s.cpus d).held.Perm (t :: (s'.cpus d).held))
    (waking : source = some .waking → s.waking.Perm (t :: s'.waking))
    (unparked : source ≠ some .parked)
    (restCpus : ∀ d, source ≠ some (.cpu d) → (s'.cpus d).held = (s.cpus d).held)
    (restWaking : source ≠ some .waking → s'.waking = s.waking) (parked : s'.parked = s.parked)
    (runs : ∀ d u, u ≠ t → s.runs d = some u → s'.cpus d = s.cpus d)
    (shape : ∀ d, (s'.cpus d).Shape)
    (started : ∀ d, (s'.cpus d).phase ≠ .off → (s.cpus d).phase ≠ .off ∨ build.worker d = t)
    (working : ∀ d, build.worker d = t → (s'.cpus d).phase ≠ .off → q = Sys.queueOf build d)
    (leaving : ∀ d u, (s'.cpus d).leaving = some u → (s.cpus d).leaving = some u) :
    Moved build s s' queued (Function.update queued q (queued q ++ [t])) t (some (.queue q)) where
  goes := by
    refine good.apart.move source fresh (fun p origin => ?_) (fun p target => ?_)
      (fun p origin target => ?_) (fun p origin target => ?_)
    · cases p with
      | cpu d => exact cpus d origin
      | queue r => exact absurd origin (elsewhere r)
      | parked => exact absurd origin unparked
      | waking => exact waking origin
    · cases target
      rw [Sys.contents, Sys.contents, Function.update_self]
      exact List.perm_append_singleton t _
    · cases target
      exact elsewhere _ origin
    · cases p with
      | cpu d => exact restCpus d origin
      | queue r =>
          have other : r ≠ q := by
            rintro rfl
            exact target rfl
          exact Function.update_of_ne other _ _
      | parked => exact parked
      | waking => exact restWaking origin
  tasks := tasks
  linked := linked
  allocated := allocated
  kept := kept
  home p place := by
    cases place
    rw [queueId]
    exact ⟨rfl, home⟩
  calm _ := calm
  runs := runs
  shape := shape
  started := started
  worker d same on := ⟨_, rfl, by simp, by simp, by rw [queueId, working d same on]⟩
  leaving := leaving

/-- `sched_put_current_ctx` gives the old task to its queue. -/
theorem Good.pushing_moved (good : Good build s queued) {entry : Entry} {old next : T}
    (pushing : (s.cpus c).phase = .pushing entry old next) :
    Moved build s ((s.schedPush build old).setCpu c
      { s.cpus c with phase := .setting entry none next }) queued
      (Function.update queued (s.tasks old).queueId (queued (s.tasks old).queueId ++ [old])) old
      (some (.queue (s.tasks old).queueId)) := by
  have shape := good.shape c
  unfold Cpu.Shape at shape
  simp only [pushing] at shape
  obtain ⟨nobody, entries⟩ := shape
  have inside : old ∈ (s.cpus c).held := by simp [Cpu.held, pushing, Phase.hand]
  have home : ∃ d, (s.tasks old).queueId = Sys.queueOf build d :=
    ⟨c, good.home (.cpu c) old inside⟩
  have absent : ∀ q, old ∉ queued q := fun q there =>
    absurd (good.apart.unique (show old ∈ s.contents queued (.queue q) from there)
      (show old ∈ s.contents queued (.cpu c) from inside)) (fun same => by cases same)
  have busy : (s.cpus c).phase ≠ .running := by simp [pushing]
  have tasks := schedPush_tasks home
  apply good.push_moved (some (.cpu c)) home
  · exact schedDoPush_linked (home_processor home) good.linked absent
  · intro u _
    rw [setCpu_tasks, tasks]
  · rw [setCpu_tasks, tasks]
  · rw [setCpu_tasks, tasks]
    exact good.held_calm busy inside
  · exact fun _ _ => rfl
  · exact (good.allocated old).mpr ⟨.cpu c, inside⟩
  · exact fun none => by cases none
  · exact fun q place => by cases place
  · intro d place
    cases place
    rw [setCpu_self, Cpu.held, Cpu.held, pushing, nobody]
    exact .refl _
  · exact fun place => by cases place
  · exact fun place => by cases place
  · intro d other
    rw [setCpu_of_ne _ _ fun same => other (by rw [same])]
    rfl
  · exact fun _ => rfl
  · rfl
  · intro d u _ runs
    refine setCpu_of_ne _ _ fun same => busy ?_
    rw [← same]
    exact (runs_eq runs).1
  · intro d
    by_cases same : d = c
    · subst same
      rw [setCpu_self]
      rcases entries with rfl | rfl <;> simp [Cpu.Shape, nobody]
    · rw [setCpu_of_ne _ _ same]
      exact good.shape d
  · intro d on
    by_cases same : d = c
    · subst same
      exact .inl (by simp [pushing])
    · rw [setCpu_of_ne _ _ same] at on
      exact .inl on
  · intro d same on
    have before : (s.cpus d).phase ≠ .off := by
      by_cases here : d = c
      · rw [here, pushing]
        simp
      · rw [setCpu_of_ne _ _ here] at on
        exact on
    obtain ⟨-, -, -, -, home⟩ := good.workers d before
    rw [← same]
    exact home
  · intro d u leaves
    by_cases same : d = c
    · subst same
      simp [Cpu.leaving] at leaves
    · rw [setCpu_of_ne _ _ same] at leaves
      exact leaves

/-- A task is queued nowhere else. -/
theorem Good.not_queued (good : Good build s queued) {t : T} {p : Place n}
    (inside : t ∈ s.contents queued p) (elsewhere : ∀ q, p ≠ .queue q) (q : ℕ) : t ∉ queued q :=
  fun there => elsewhere q (good.apart.unique inside
    (show t ∈ s.contents queued (.queue q) from there))

/-- `sched_push` of who woke the task up. -/
theorem Good.waking_moved (good : Good build s queued) {t : T} (inside : t ∈ s.waking) :
    Moved build s ({ s with waking := s.waking.erase t }.schedPush build t) queued
      (Function.update queued (s.tasks t).queueId (queued (s.tasks t).queueId ++ [t])) t
      (some (.queue (s.tasks t).queueId)) := by
  have here : t ∈ s.contents queued .waking := inside
  have home : ∃ d, (s.tasks t).queueId = Sys.queueOf build d := good.home .waking t here
  have absent := good.not_queued here fun q same => by cases same
  have tasks : ({ s with waking := s.waking.erase t }.schedPush build t).tasks = s.tasks :=
    schedDoPush_tasks (s := { s with waking := s.waking.erase t }) (home_processor home)
  apply good.push_moved (some .waking) home
  · exact schedDoPush_linked (s := { s with waking := s.waking.erase t }) (home_processor home)
      good.linked absent
  · intro u _
    rw [tasks]
  · rw [tasks]
  · rw [tasks]
    exact good.calm here fun d same => by cases same
  · exact fun _ _ => rfl
  · exact (good.allocated t).mpr ⟨.waking, here⟩
  · exact fun none => by cases none
  · exact fun q place => by cases place
  · exact fun d place => by cases place
  · exact fun _ => List.perm_cons_erase inside
  · exact fun place => by cases place
  · exact fun d _ => rfl
  · exact fun other => absurd rfl other
  · rfl
  · exact fun d u _ _ => rfl
  · exact good.shape
  · exact fun d on => .inl on
  · intro d same on
    obtain ⟨-, -, -, -, home⟩ := good.workers d on
    rw [← same]
    exact home
  · exact fun d u leaves => leaves

theorem Good.fresh (good : Good build s queued) {t : T} (free : s.allocated t = false)
    (p : Place n) : t ∉ s.contents queued p := by
  intro inside
  rw [(good.allocated t).mpr ⟨p, inside⟩] at free
  cases free

theorem Good.made_linked (good : Good build s queued) {t : T} (free : s.allocated t = false)
    (task : Task Fp) (q : ℕ) : Linked ((s.made t task).queues q) (s.made t task).data (queued q) := by
  refine linked_congr (good.linked q) fun u inside => ?_
  have other : u ≠ t := by
    rintro rfl
    exact good.fresh free (.queue q) inside
  unfold Sys.data Sys.made
  rw [setTask_of_ne s _ other]

/-- A task that is made is pushed: `__task_create` and `sched_trampoline_ipi`. -/
theorem Good.made_moved (good : Good build s queued) {t : T} (free : s.allocated t = false)
    {task : Task Fp} {processor : ℕ} (home : ∃ c, task.queueId = Sys.queueOf build c)
    (there : task.queueId = cpuToQueueId build.global processor)
    (calm : task.yieldRequest = false ∧ task.preemptedEarly = false)
    (pushed : s'.tasks = ((s.made t task).schedDoPush build t processor).tasks)
    (queues : s'.queues = ((s.made t task).schedDoPush build t processor).queues)
    (allocated : s'.allocated = Function.update s.allocated t true)
    (parked : s'.parked = s.parked) (waking : s'.waking = s.waking)
    (held : ∀ d, (s'.cpus d).held = (s.cpus d).held)
    (runs : ∀ d u, u ≠ t → s.runs d = some u → s'.cpus d = s.cpus d)
    (shape : ∀ d, (s'.cpus d).Shape)
    (started : ∀ d, (s'.cpus d).phase ≠ .off → (s.cpus d).phase ≠ .off ∨ build.worker d = t)
    (working : ∀ d, build.worker d = t → (s'.cpus d).phase ≠ .off →
      task.queueId = Sys.queueOf build d)
    (leaving : ∀ d u, (s'.cpus d).leaving = some u → (s.cpus d).leaving = some u) :
    Moved build s s' queued (Function.update queued task.queueId (queued task.queueId ++ [t])) t
      (some (.queue task.queueId)) := by
  have self : (s.made t task).tasks t = task := setTask_self s t task
  have there' : ((s.made t task).tasks t).queueId = cpuToQueueId build.global processor := by
    rw [self]
    exact there
  have tasks : s'.tasks = (s.made t task).tasks := pushed.trans (schedDoPush_tasks there')
  apply good.push_moved none home
  · intro r
    have linked := schedDoPush_linked there' (good.made_linked free task)
      (fun q => good.fresh free (.queue q)) r
    rw [self] at linked
    unfold Sys.data at linked ⊢
    rw [pushed, queues]
    exact linked
  · intro u other
    rw [tasks]
    exact setTask_of_ne s _ other
  · rw [tasks, self]
  · rw [tasks, self]
    exact calm
  · intro u other
    rw [allocated, Function.update_of_ne other]
  · rw [allocated, Function.update_self]
  · exact fun _ => good.fresh free
  · exact fun q place => by cases place
  · exact fun d place => by cases place
  · exact fun place => by cases place
  · exact fun place => by cases place
  · exact fun d _ => held d
  · exact fun _ => waking
  · exact parked
  · exact runs
  · exact shape
  · exact started
  · exact working
  · exact leaving

theorem Good.create_moved (good : Good build s queued) {t : T} (free : s.allocated t = false)
    (foreign : ∀ d, build.worker d ≠ t) {task : Task Fp} {processor : Fin n}
    (home : task.queueId = Sys.queueOf build processor)
    (calm : task.yieldRequest = false ∧ task.preemptedEarly = false) :
    Moved build s ((s.made t task).schedDoPush build t processor) queued
      (Function.update queued task.queueId (queued task.queueId ++ [t])) t
      (some (.queue task.queueId)) :=
  good.made_moved free ⟨processor, home⟩ home calm rfl rfl rfl rfl rfl (fun _ => rfl)
    (fun _ _ _ _ => rfl) good.shape (fun _ on => .inl on) (fun d same => absurd same (foreign d))
    (fun _ _ leaves => leaves)

theorem Good.trampoline_moved (good : Good build s queued) (off : (s.cpus c).phase = .off)
    (free : s.allocated (build.worker c) = false) {task : Task Fp}
    (home : task.queueId = Sys.queueOf build c)
    (calm : task.yieldRequest = false ∧ task.preemptedEarly = false) :
    Moved build s (((s.made (build.worker c) task).schedPush build (build.worker c)).setCpu c
      { s.cpus c with phase := .popping .trampoline }) queued
      (Function.update queued task.queueId (queued task.queueId ++ [build.worker c]))
      (build.worker c) (some (.queue task.queueId)) := by
  have nobody : (s.cpus c).current = none := by
    have shape := good.shape c
    unfold Cpu.Shape at shape
    simpa only [off] using shape
  have self : (s.made (build.worker c) task).tasks (build.worker c) = task := setTask_self s _ task
  have home' : ∃ d, task.queueId = Sys.queueOf build d := ⟨c, home⟩
  apply good.made_moved free home' (home_processor home') calm
  · rw [setCpu_tasks, Sys.schedPush, self]
  · rw [setCpu_queues, Sys.schedPush, self]
  · rfl
  · rfl
  · rfl
  · intro d
    by_cases same : d = c
    · subst same
      rw [setCpu_self, Cpu.held, Cpu.held, off]
      rfl
    · rw [setCpu_of_ne _ _ same]
      rfl
  · intro d u _ runs
    refine setCpu_of_ne _ _ fun same => ?_
    have running := (runs_eq runs).1
    rw [same, off] at running
    cases running
  · intro d
    by_cases same : d = c
    · subst same
      simp [Cpu.Shape, nobody]
    · rw [setCpu_of_ne _ _ same]
      exact good.shape d
  · intro d on
    by_cases same : d = c
    · exact .inr (by rw [same])
    · rw [setCpu_of_ne _ _ same] at on
      exact .inl on
  · intro d same _
    rw [build.apart same]
    exact home
  · intro d u leaves
    by_cases same : d = c
    · subst same
      simp [Cpu.leaving] at leaves
    · rw [setCpu_of_ne _ _ same] at leaves
      exact leaves

/-- A pop takes the next task in hand. -/
theorem Good.popping_moved (good : Good build s queued) {entry : Entry}
    (popping : (s.cpus c).phase = .popping entry) {next : T} {queue : SchedPriorityq T}
    (inside : next ∈ queued (Sys.queueOf build c))
    (linked : Linked queue s.data ((queued (Sys.queueOf build c)).erase next)) :
    Moved build s ((s.setQueue (Sys.queueOf build c) queue).setCpu c { s.cpus c with
      phase := if (s.cpus c).current = none then .setting entry none next else .putting entry next })
      queued (Function.update queued (Sys.queueOf build c)
        ((queued (Sys.queueOf build c)).erase next)) next (some (.cpu c)) := by
  have shape := good.shape c
  unfold Cpu.Shape at shape
  simp only [popping] at shape
  have here : next ∈ s.contents queued (.queue (Sys.queueOf build c)) := inside
  have others : ∀ d u, s.runs d = some u → d ≠ c := by
    rintro d u runs rfl
    have running := (runs_eq runs).1
    rw [popping] at running
    cases running
  refine ⟨good.apart.move (some (.queue (Sys.queueOf build c))) (fun none => by cases none)
    (fun p origin => ?_) (fun p target => ?_) (fun p origin target => by cases origin; cases target)
    (fun p origin target => ?_), fun _ _ => rfl, fun r => ?_, fun _ _ => rfl,
    (good.allocated next).mpr ⟨_, here⟩, fun p place => ?_,
    fun _ => good.calm here (fun d same => by cases same), fun d u _ runs => ?_, fun d => ?_,
    fun d on => ?_, fun d same on => ⟨_, rfl, by simp, by simp, ?_⟩, fun d u leaves => ?_⟩
  · cases origin
    rw [Sys.contents, Sys.contents, Function.update_self]
    exact List.perm_cons_erase inside
  · cases target
    rw [Sys.contents, Sys.contents, setCpu_self, Cpu.held, Cpu.held, popping]
    cases current : (s.cpus c).current with
    | none => exact .refl _
    | some old => exact .swap next old []
  · cases p with
    | cpu d =>
        have other : d ≠ c := by
          rintro rfl
          exact target rfl
        rw [Sys.contents, setCpu_of_ne _ _ other]
        rfl
    | queue r =>
        have other : r ≠ Sys.queueOf build c := by
          rintro rfl
          exact origin rfl
        exact Function.update_of_ne other _ _
    | parked => rfl
    | waking => rfl
  · by_cases same : r = Sys.queueOf build c
    · rw [same, Function.update_self, setCpu_queues, setQueue_self]
      exact linked
    · rw [Function.update_of_ne same, setCpu_queues, setQueue_of_ne _ _ _ same]
      exact good.linked r
  · cases place
    exact (good.home _ next here).1
  · rw [setCpu_of_ne _ _ (others d u runs)]
    rfl
  · by_cases same : d = c
    · subst same
      unfold Cpu.Shape
      rw [setCpu_self]
      by_cases nobody : (s.cpus d).current = none
      · have entries := shape.mp nobody
        simp only [if_pos nobody]
        refine ⟨nobody, iff_of_false (fun absent => absent rfl) ?_⟩
        rcases entries with rfl | rfl <;> simp
      · have entries := mt shape.mpr nobody
        simp only [if_neg nobody]
        refine ⟨nobody, ?_⟩
        cases entry <;> simp_all
    · rw [setCpu_of_ne _ _ same]
      exact good.shape d
  · by_cases same : d = c
    · subst same
      exact .inl (by simp [popping])
    · rw [setCpu_of_ne _ _ same] at on
      exact .inl on
  · have before : (s.cpus d).phase ≠ .off := by
      by_cases here : d = c
      · rw [here, popping]
        simp
      · rw [setCpu_of_ne _ _ here] at on
        exact on
    obtain ⟨-, -, -, -, home⟩ := good.workers d before
    rw [← same]
    exact home
  · by_cases same : d = c
    · subst same
      unfold Cpu.leaving at leaves ⊢
      simp only [setCpu_self, popping] at leaves ⊢
      by_cases nobody : (s.cpus d).current = none
      · simp [nobody] at leaves
      · cases entry <;> simp_all
    · rw [setCpu_of_ne _ _ same] at leaves
      exact leaves

/-- The old task is inserted into what it waits for. -/
theorem Good.parking_moved (good : Good build s queued) {old : T}
    (parking : (s.cpus c).phase = .parking old) :
    Moved build s ({ s with parked := old :: s.parked }.setCpu c { s.cpus c with phase := .marking })
      queued queued old (some .parked) := by
  have shape := good.shape c
  unfold Cpu.Shape at shape
  simp only [parking] at shape
  have inside : old ∈ (s.cpus c).held := by simp [Cpu.held, parking, Phase.hand]
  have here : old ∈ s.contents queued (.cpu c) := inside
  have busy : (s.cpus c).phase ≠ .running := by simp [parking]
  have free : ∀ d, build.worker d ≠ old := good.leaving c old (by simp [Cpu.leaving, parking])
  refine ⟨good.apart.move (some (.cpu c)) (fun none => by cases none) (fun p origin => ?_)
    (fun p target => ?_) (fun p origin target => by cases origin; cases target)
    (fun p origin target => ?_), fun _ _ => rfl, good.linked, fun _ _ => rfl,
    (good.allocated old).mpr ⟨_, here⟩, fun p place => ?_, fun _ => good.held_calm busy inside,
    fun d u _ runs => ?_, fun d => ?_, fun d on => ?_, fun d same => absurd same (free d),
    fun d u leaves => ?_⟩
  · cases origin
    rw [Sys.contents, Sys.contents, setCpu_self, Cpu.held, Cpu.held, parking]
    exact List.perm_middle
  · cases target
    exact .refl _
  · cases p with
    | cpu d =>
        have other : d ≠ c := by
          rintro rfl
          exact origin rfl
        rw [Sys.contents, setCpu_of_ne _ _ other]
        rfl
    | queue r => rfl
    | parked => exact absurd rfl target
    | waking => rfl
  · cases place
    exact ⟨c, good.home _ old here⟩
  · refine setCpu_of_ne _ _ fun same => busy ?_
    rw [← same]
    exact (runs_eq runs).1
  · by_cases same : d = c
    · subst same
      simpa [Cpu.Shape] using shape
    · rw [setCpu_of_ne _ _ same]
      exact good.shape d
  · by_cases same : d = c
    · subst same
      exact .inl (by simp [parking])
    · rw [setCpu_of_ne _ _ same] at on
      exact .inl on
  · by_cases same : d = c
    · subst same
      simp [Cpu.leaving] at leaves
    · rw [setCpu_of_ne _ _ same] at leaves
      exact leaves

theorem Good.wake_moved (good : Good build s queued) {t : T} (inside : t ∈ s.parked) :
    Moved build s { s with parked := s.parked.erase t, waking := t :: s.waking } queued queued t
      (some .waking) := by
  have here : t ∈ s.contents queued .parked := inside
  refine ⟨good.apart.move (some .parked) (fun none => by cases none) (fun p origin => ?_)
    (fun p target => ?_) (fun p origin target => by cases origin; cases target)
    (fun p origin target => ?_), fun _ _ => rfl, good.linked, fun _ _ => rfl,
    (good.allocated t).mpr ⟨_, here⟩, fun p place => ?_,
    fun _ => good.calm here (fun d same => by cases same), fun _ _ _ _ => rfl, good.shape,
    fun _ on => .inl on, fun d same on => ?_, fun _ _ leaves => leaves⟩
  · cases origin
    exact List.perm_cons_erase inside
  · cases target
    exact .refl _
  · cases p with
    | cpu d => rfl
    | queue r => rfl
    | parked => exact absurd rfl origin
    | waking => exact absurd rfl target
  · cases place
    exact good.home .parked t here
  · obtain ⟨p, there, unparked, -⟩ := good.workers d on
    rw [same] at there
    exact absurd (good.apart.unique there here) unparked

/-- `current_task_destroy_ipi`, up to its pop. -/
theorem Good.destroy_moved (good : Good build s queued) {t : T} (runs : s.runs c = some t)
    (free : ∀ d, build.worker d ≠ t) :
    Moved build s { s.setCpu c { s.cpus c with current := none, phase := .popping .destroy } with
      allocated := Function.update s.allocated t false } queued queued t none := by
  refine ⟨good.apart.move (some (.cpu c)) (fun none => by cases none) (fun p origin => ?_)
    (fun p target => by cases target) (fun p origin target => by cases target)
    (fun p origin target => ?_), fun _ _ => rfl, good.linked,
    fun u other => Function.update_of_ne other _ _, Function.update_self _ _ _,
    (fun p place => by cases place), fun none => absurd rfl none, fun d u other runs' => ?_,
    fun d => ?_, fun d on => ?_, fun d same => absurd same (free d), fun d u leaves => ?_⟩
  · cases origin
    rw [Sys.contents, Sys.contents, runs_held runs]
    simp [Cpu.held, Phase.hand]
  · cases p with
    | cpu d =>
        have other : d ≠ c := by
          rintro rfl
          exact origin rfl
        simp only [Sys.contents]
        rw [setCpu_of_ne _ _ other]
    | queue r => rfl
    | parked => rfl
    | waking => rfl
  · refine setCpu_of_ne _ _ fun same => other ?_
    rw [same, runs] at runs'
    exact (Option.some.inj runs').symm
  · by_cases same : d = c
    · subst same
      simp [Cpu.Shape]
    · rw [show _ = s.cpus d from setCpu_of_ne _ _ same]
      exact good.shape d
  · by_cases same : d = c
    · subst same
      exact .inl (by simp [(runs_eq runs).1])
    · rw [show _ = s.cpus d from setCpu_of_ne _ _ same] at on
      exact .inl on
  · by_cases same : d = c
    · subst same
      simp [Cpu.leaving] at leaves
    · rw [show _ = s.cpus d from setCpu_of_ne _ _ same] at leaves
      exact leaves

end Invariant

end Twan.Kernel.TaskSwitch
