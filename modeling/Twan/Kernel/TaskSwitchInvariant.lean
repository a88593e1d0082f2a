/-
# Twan.Kernel.TaskSwitchInvariant -- what every change keeps

`Good` is that each task is in one place of its own, with what its processor and its run queue know
of it; `Own` that in each place the registers of a task are where that place keeps them.  A statement
either moves no task (`Good.local`) or one of them from its place to another (`Good.moved`), and a pop
answers a task that was queued.
-/
import Twan.Kernel.TaskSwitch

namespace Twan.Kernel.TaskSwitch

set_option autoImplicit false
set_option linter.unusedSectionVars false

open Twan.Base Twan.Kernel.SchedQueue

/-! ## The invariant -/

section Invariant

variable {n : ℕ} {T Fp : Type} [DecidableEq T] {build : Build n T Fp} {s s' : Sys n T Fp}
  {queued queued' : ℕ → List T} {c : Fin n}

/-- The system with the tasks of the run queues. -/
structure Good (build : Build n T Fp) (s : Sys n T Fp) (queued : ℕ → List T) : Prop where
  apart : Apart (s.contents queued)
  linked : ∀ q, Linked (s.queues q) s.data (queued q)
  allocated : ∀ t, s.allocated t = true ↔ Somewhere (s.contents queued) t
  home : ∀ p t, t ∈ s.contents queued p → p.Home build (s.tasks t).queueId
  shape : ∀ c, (s.cpus c).Shape
  requested : ∀ t, Somewhere (s.contents queued) t → (s.tasks t).yieldRequest = true →
    ∃ c, s.runs c = some t
  early : ∀ t, Somewhere (s.contents queued) t → (s.tasks t).preemptedEarly = true →
    ∃ c, s.runs c = some t ∧ (s.cpus c).pending = true ∧ (s.cpus c).stale = true
  workers : ∀ c, (s.cpus c).phase ≠ .off →
    ∃ p, build.worker c ∈ s.contents queued p ∧ p ≠ .parked ∧ p ≠ .waking ∧
      (s.tasks (build.worker c)).queueId = Sys.queueOf build c
  leaving : ∀ c t, (s.cpus c).leaving = some t → ∀ d, build.worker d ≠ t

/-- What each of the abstract machines is. -/
structure Own (s : Sys n T Fp) (queued : ℕ → List T) (own : T → Option (Context Fp)) : Prop where
  shown : ∀ p t, t ∈ s.contents queued p → own t = some (s.registers p t)
  gone : ∀ t, ¬ Somewhere (s.contents queued) t → own t = none

/-- A run queue does not see the data of other tasks. -/
theorem linked_congr {q : SchedPriorityq T} {data data' : T → TaskMetadata} {queue : List T}
    (linked : Linked q data queue) (same : ∀ t ∈ queue, data' t = data t) :
    Linked q data' queue := by
  have lists : binLists data' queue = binLists data queue := by
    funext q
    simp only [binLists]
    congr 1
    refine List.filter_congr fun t inside => ?_
    rw [same t inside]
  refine ⟨⟨?_, ?_⟩, linked.nodup⟩
  · rw [lists]
    exact linked.holds
  · rw [lists]
    exact linked.bits

theorem linked_level {q : SchedPriorityq T} {data : T → TaskMetadata} {queue : List T}
    (linked : Linked q data queue) (criticality : ℕ) :
    Linked { q with criticalityLevel := criticality } data queue :=
  ⟨⟨linked.holds, linked.bits⟩, linked.nodup⟩

theorem runs_eq {c : Fin n} {t : T} (runs : s.runs c = some t) :
    (s.cpus c).phase = .running ∧ (s.cpus c).current = some t := by
  unfold Sys.runs at runs
  split_ifs at runs with running
  exact ⟨running, runs⟩

theorem mem_held {c : Fin n} {t : T} (runs : s.runs c = some t) : t ∈ (s.cpus c).held := by
  obtain ⟨-, current⟩ := runs_eq runs
  simp [Cpu.held, current]

theorem runs_mem {c : Fin n} {t : T} (runs : s.runs c = some t) :
    t ∈ s.contents queued (.cpu c) :=
  mem_held runs

/-- A processor and the tasks that it holds change, and nothing else does. -/
structure Local (build : Build n T Fp) (s s' : Sys n T Fp) (c : Fin n) : Prop where
  cpus : ∀ d, d ≠ c → s'.cpus d = s.cpus d
  tasks : ∀ t, t ∉ (s.cpus c).held → s'.tasks t = s.tasks t
  queues : ∀ q, s'.queues q = s.queues q ∨ ∃ criticality, s'.queues q = { s.queues q with criticalityLevel := criticality }
  allocated : s'.allocated = s.allocated
  parked : s'.parked = s.parked
  waking : s'.waking = s.waking
  held : (s'.cpus c).held.Perm (s.cpus c).held
  queueId : ∀ t, (s'.tasks t).queueId = (s.tasks t).queueId
  shape : (s'.cpus c).Shape
  requested : ∀ t ∈ (s.cpus c).held, (s'.tasks t).yieldRequest = true → s'.runs c = some t
  early : ∀ t ∈ (s.cpus c).held, (s'.tasks t).preemptedEarly = true →
    s'.runs c = some t ∧ (s'.cpus c).pending = true ∧ (s'.cpus c).stale = true
  started : (s'.cpus c).phase ≠ .off → (s.cpus c).phase ≠ .off
  leaving : ∀ t, (s'.cpus c).leaving = some t → ∀ d, build.worker d ≠ t

theorem Local.contents (here : Local build s s' c) (p : Place n) :
    (s'.contents queued p).Perm (s.contents queued p) := by
  cases p with
  | cpu d =>
      by_cases same : d = c
      · subst same
        exact here.held
      · rw [Sys.contents, here.cpus d same]
        exact .refl _
  | queue q => exact .refl _
  | parked =>
      rw [Sys.contents, here.parked]
      exact .refl _
  | waking =>
      rw [Sys.contents, here.waking]
      exact .refl _

theorem Local.somewhere (here : Local build s s' c) (t : T) :
    Somewhere (s'.contents queued) t ↔ Somewhere (s.contents queued) t :=
  exists_congr fun p => (here.contents p).mem_iff

/-- A task that is not held by the processor is where it was. -/
theorem Local.runs_of_ne (here : Local build s s' c) {d : Fin n} (other : d ≠ c) :
    s'.runs d = s.runs d := by
  unfold Sys.runs
  rw [here.cpus d other]

theorem Good.local (good : Good build s queued) (here : Local build s s' c) :
    Good build s' queued where
  apart := good.apart.perm here.contents
  linked q := by
    have same : ∀ t ∈ queued q, s'.data t = s.data t := by
      intro t inside
      have outside : t ∉ (s.cpus c).held := fun held =>
        absurd (good.apart.unique (show t ∈ s.contents queued (.queue q) from inside)
          (show t ∈ s.contents queued (.cpu c) from held)) (fun same => by cases same)
      unfold Sys.data
      rw [here.tasks t outside]
    have linked := linked_congr (good.linked q) same
    rcases here.queues q with unchanged | ⟨criticality, level⟩
    · rw [unchanged]
      exact linked
    · rw [level]
      exact linked_level linked criticality
  allocated t := by rw [here.allocated, good.allocated, here.somewhere]
  home p t inside := by
    rw [here.queueId]
    exact good.home p t ((here.contents p).mem_iff.mp inside)
  shape d := by
    by_cases same : d = c
    · subst same
      exact here.shape
    · rw [here.cpus d same]
      exact good.shape d
  requested t inside requested := by
    by_cases held : t ∈ (s.cpus c).held
    · exact ⟨c, here.requested t held requested⟩
    · rw [here.tasks t held] at requested
      obtain ⟨d, runs⟩ := good.requested t ((here.somewhere t).mp inside) requested
      have other : d ≠ c := by
        rintro rfl
        exact held (mem_held runs)
      exact ⟨d, by rw [here.runs_of_ne other]; exact runs⟩
  early t inside early := by
    by_cases held : t ∈ (s.cpus c).held
    · exact ⟨c, here.early t held early⟩
    · rw [here.tasks t held] at early
      obtain ⟨d, runs, pending⟩ := good.early t ((here.somewhere t).mp inside) early
      have other : d ≠ c := by
        rintro rfl
        exact held (mem_held runs)
      refine ⟨d, by rw [here.runs_of_ne other]; exact runs, ?_⟩
      rw [here.cpus d other]
      exact pending
  workers d started := by
    have before : (s.cpus d).phase ≠ .off := by
      by_cases same : d = c
      · subst same
        exact here.started started
      · rw [here.cpus d same] at started
        exact started
    obtain ⟨p, inside, place⟩ := good.workers d before
    rw [here.queueId]
    exact ⟨p, (here.contents p).mem_iff.mpr inside, place⟩
  leaving d t leaving := by
    by_cases same : d = c
    · subst same
      exact here.leaving t leaving
    · rw [here.cpus d same] at leaving
      exact good.leaving d t leaving

/-- The registers of the other tasks are where they were. -/
theorem Own.local {own own' : T → Option (Context Fp)} (shown : Own s queued own)
    (good : Good build s queued) (here : Local build s s' c)
    (held : ∀ t ∈ (s.cpus c).held, own' t = some (s'.registers (.cpu c) t))
    (others : ∀ t, t ∉ (s.cpus c).held → own' t = own t) : Own s' queued own' where
  shown p t inside := by
    have before := (here.contents p).mem_iff.mp inside
    by_cases mine : t ∈ (s.cpus c).held
    · have same : p = .cpu c := good.apart.unique before (show t ∈ s.contents queued (.cpu c) from mine)
      subst same
      exact held t mine
    · rw [others t mine, shown.shown p t before]
      congr 1
      cases p with
      | cpu d =>
          have other : d ≠ c := by
            rintro rfl
            exact mine before
          simp only [Sys.registers, here.cpus d other, here.tasks t mine]
      | queue q => simp only [Sys.registers, here.tasks t mine]
      | parked => simp only [Sys.registers, here.tasks t mine]
      | waking => simp only [Sys.registers, here.tasks t mine]
  gone t outside := by
    rw [here.somewhere] at outside
    rw [others t fun held => outside ⟨.cpu c, held⟩]
    exact shown.gone t outside

/-- One task changes its place, and nothing else does. -/
structure Moved (build : Build n T Fp) (s s' : Sys n T Fp) (queued queued' : ℕ → List T) (t : T)
    (place : Option (Place n)) : Prop where
  goes : Goes t place (s.contents queued) (s'.contents queued')
  tasks : ∀ u, u ≠ t → s'.tasks u = s.tasks u
  linked : ∀ q, Linked (s'.queues q) s'.data (queued' q)
  allocated : ∀ u, u ≠ t → s'.allocated u = s.allocated u
  kept : s'.allocated t = place.isSome
  home : ∀ p, place = some p → p.Home build (s'.tasks t).queueId
  calm : place ≠ none → (s'.tasks t).yieldRequest = false ∧ (s'.tasks t).preemptedEarly = false
  runs : ∀ d u, u ≠ t → s.runs d = some u → s'.cpus d = s.cpus d
  shape : ∀ d, (s'.cpus d).Shape
  started : ∀ d, (s'.cpus d).phase ≠ .off → (s.cpus d).phase ≠ .off ∨ build.worker d = t
  worker : ∀ d, build.worker d = t → (s'.cpus d).phase ≠ .off →
    ∃ p, place = some p ∧ p ≠ .parked ∧ p ≠ .waking ∧ (s'.tasks t).queueId = Sys.queueOf build d
  leaving : ∀ d u, (s'.cpus d).leaving = some u → (s.cpus d).leaving = some u

variable {t : T} {place : Option (Place n)}

theorem Good.moved (good : Good build s queued) (move : Moved build s s' queued queued' t place) :
    Good build s' queued' where
  apart := good.apart.goes move.goes
  linked := move.linked
  allocated u := by
    by_cases same : u = t
    · subst same
      rw [move.kept, move.goes.somewhere_self]
    · rw [move.allocated u same, good.allocated, move.goes.somewhere_iff same]
  home p u inside := by
    by_cases same : u = t
    · subst same
      exact move.home p ((move.goes.here p).mp inside)
    · rw [move.tasks u same]
      exact good.home p u ((move.goes.others u same p).mp inside)
  shape := move.shape
  requested u inside requested := by
    by_cases same : u = t
    · subst same
      obtain ⟨p, here⟩ := inside
      have placed : place ≠ none := by
        rw [(move.goes.here p).mp here]
        exact Option.some_ne_none p
      rw [(move.calm placed).1] at requested
      cases requested
    · rw [move.tasks u same] at requested
      obtain ⟨d, runs⟩ := good.requested u ((move.goes.somewhere_iff same).mp inside) requested
      refine ⟨d, ?_⟩
      unfold Sys.runs at runs ⊢
      rw [move.runs d u same runs]
      exact runs
  early u inside early := by
    by_cases same : u = t
    · subst same
      obtain ⟨p, here⟩ := inside
      have placed : place ≠ none := by
        rw [(move.goes.here p).mp here]
        exact Option.some_ne_none p
      rw [(move.calm placed).2] at early
      cases early
    · rw [move.tasks u same] at early
      obtain ⟨d, runs, pending⟩ := good.early u ((move.goes.somewhere_iff same).mp inside) early
      have kept := move.runs d u same runs
      refine ⟨d, ?_, by rw [kept]; exact pending⟩
      unfold Sys.runs at runs ⊢
      rw [kept]
      exact runs
  workers d started := by
    by_cases same : build.worker d = t
    · obtain ⟨p, here, place⟩ := move.worker d same started
      rw [same]
      exact ⟨p, (move.goes.here p).mpr here, place⟩
    · have before : (s.cpus d).phase ≠ .off := (move.started d started).resolve_right same
      obtain ⟨p, inside, place⟩ := good.workers d before
      rw [move.tasks _ same]
      exact ⟨p, (move.goes.others _ same p).mpr inside, place⟩
  leaving d u leaving := good.leaving d u (move.leaving d u leaving)

theorem Own.moved {own own' : T → Option (Context Fp)} (shown : Own s queued own)
    (move : Moved build s s' queued queued' t place)
    (registers : ∀ p u, u ≠ t → s'.registers p u = s.registers p u)
    (others : ∀ u, u ≠ t → own' u = own u)
    (here : own' t = place.map fun p => s'.registers p t) : Own s' queued' own' where
  shown p u inside := by
    by_cases same : u = t
    · subst same
      rw [here, (move.goes.here p).mp inside]
      rfl
    · rw [others u same, registers p u same]
      exact shown.shown p u ((move.goes.others u same p).mp inside)
  gone u outside := by
    by_cases same : u = t
    · subst same
      rw [move.goes.somewhere_self] at outside
      rw [here, Option.not_isSome_iff_eq_none.mp outside]
      rfl
    · rw [others u same]
      exact shown.gone u fun inside => outside ((move.goes.somewhere_iff same).mpr inside)

/-- A task that no processor runs carries no flags. -/
theorem Good.calm (good : Good build s queued) {p : Place n} (inside : t ∈ s.contents queued p)
    (resting : ∀ d, p = .cpu d → s.runs d ≠ some t) :
    (s.tasks t).yieldRequest = false ∧ (s.tasks t).preemptedEarly = false := by
  have nobody : ∀ d, s.runs d ≠ some t := by
    intro d runs
    exact resting d (good.apart.unique inside (runs_mem runs)) runs
  constructor
  · refine Bool.eq_false_iff.mpr fun set => ?_
    obtain ⟨d, runs⟩ := good.requested t ⟨p, inside⟩ set
    exact nobody d runs
  · refine Bool.eq_false_iff.mpr fun set => ?_
    obtain ⟨d, runs, -⟩ := good.early t ⟨p, inside⟩ set
    exact nobody d runs

/-! ## What the current task does -/

variable {own : T → Option (Context Fp)}

theorem runs_held (runs : s.runs c = some t) : (s.cpus c).held = [t] := by
  obtain ⟨running, current⟩ := runs_eq runs
  rw [Cpu.held, current, running]
  rfl

theorem Good.early_at (good : Good build s queued) (runs : s.runs c = some t)
    (early : (s.tasks t).preemptedEarly = true) :
    (s.cpus c).pending = true ∧ (s.cpus c).stale = true := by
  have inside : t ∈ s.contents queued (.cpu c) := runs_mem runs
  obtain ⟨d, runs', facts⟩ := good.early t ⟨.cpu c, inside⟩ early
  have inside' : t ∈ s.contents queued (.cpu d) := runs_mem runs'
  have same := good.apart.unique inside inside'
  cases same
  exact facts

/-- The processor goes on with its current task. -/
structure Stays (build : Build n T Fp) (s s' : Sys n T Fp) (c : Fin n) (t : T) : Prop where
  cpus : ∀ d, d ≠ c → s'.cpus d = s.cpus d
  tasks : ∀ u, u ≠ t → s'.tasks u = s.tasks u
  queues : s'.queues = s.queues
  allocated : s'.allocated = s.allocated
  parked : s'.parked = s.parked
  waking : s'.waking = s.waking
  current : (s'.cpus c).current = some t
  phase : (s'.cpus c).phase = .running ∨ (s'.cpus c).phase = .popping .preempt ∨
    (s'.cpus c).phase = .popping .yield ∨
    (s'.cpus c).phase = .popping .wait ∧ ∀ d, build.worker d ≠ t
  queueId : (s'.tasks t).queueId = (s.tasks t).queueId
  requested : (s'.tasks t).yieldRequest = true → (s'.cpus c).phase = .running
  early : (s'.tasks t).preemptedEarly = true →
    (s'.cpus c).phase = .running ∧ (s'.cpus c).pending = true ∧ (s'.cpus c).stale = true

theorem Stays.local (stays : Stays build s s' c t) (runs : s.runs c = some t) :
    Local build s s' c where
  cpus := stays.cpus
  tasks u outside := by
    refine stays.tasks u fun same => outside ?_
    rw [runs_held runs, same]
    exact List.mem_singleton_self t
  queues q := .inl (congrFun stays.queues q)
  allocated := stays.allocated
  parked := stays.parked
  waking := stays.waking
  held := by
    rw [runs_held runs, Cpu.held, stays.current]
    rcases stays.phase with phase | phase | phase | ⟨phase, -⟩ <;> rw [phase] <;> exact .refl _
  queueId u := by
    by_cases same : u = t
    · rw [same]
      exact stays.queueId
    · rw [stays.tasks u same]
  shape := by
    unfold Cpu.Shape
    rcases stays.phase with phase | phase | phase | ⟨phase, -⟩ <;> simp [phase, stays.current]
  requested u held set := by
    rw [runs_held runs, List.mem_singleton] at held
    subst held
    rw [Sys.runs, if_pos (stays.requested set)]
    exact stays.current
  early u held set := by
    rw [runs_held runs, List.mem_singleton] at held
    subst held
    obtain ⟨running, pending⟩ := stays.early set
    rw [Sys.runs, if_pos running]
    exact ⟨stays.current, pending⟩
  started _ := by
    rw [(runs_eq runs).1]
    intro off
    cases off
  leaving u leaves := by
    unfold Cpu.leaving at leaves
    rcases stays.phase with phase | phase | phase | ⟨phase, free⟩
    · simp [phase] at leaves
    · simp [phase] at leaves
    · simp [phase] at leaves
    · simp only [phase, stays.current, Option.some.injEq] at leaves
      rw [← leaves]
      exact free

/-- The current task goes on with its registers. -/
theorem Own.stays (shown : Own s queued own) (good : Good build s queued)
    (stays : Stays build s s' c t) (runs : s.runs c = some t)
    (ctx : (s'.cpus c).ctx = (s.cpus c).ctx) : Own s' queued own := by
  refine shown.local good (stays.local runs) (fun u held => ?_) fun u _ => rfl
  rw [runs_held runs, List.mem_singleton] at held
  subst held
  rw [shown.shown (.cpu c) u (runs_mem runs)]
  simp only [Sys.registers, stays.current, (runs_eq runs).2, ctx, if_true]

theorem Own.compute (shown : Own s queued own) (good : Good build s queued)
    (stays : Stays build s s' c t) (runs : s.runs c = some t) {context : Context Fp}
    (ctx : schedSaveCurrentCtx (s'.cpus c).ctx = context) :
    Own s' queued (Function.update own t (some context)) := by
  refine shown.local good (stays.local runs) (fun u held => ?_) fun u outside => ?_
  · rw [runs_held runs, List.mem_singleton] at held
    subst held
    rw [Function.update_self]
    simp only [Sys.registers, stays.current, ctx, if_true]
  · refine Function.update_of_ne (fun same => outside ?_) _ _
    rw [runs_held runs, same]
    exact List.mem_singleton_self t

theorem Good.compute_stays (good : Good build s queued) (runs : s.runs c = some t)
    (ctx : InterruptInfo Fp) : Stays build s (s.setCpu c { s.cpus c with ctx := ctx }) c t where
  cpus d other := setCpu_of_ne s _ other
  tasks u _ := rfl
  queues := rfl
  allocated := rfl
  parked := rfl
  waking := rfl
  current := by simp [(runs_eq runs).2]
  phase := by simp [(runs_eq runs).1]
  queueId := rfl
  requested _ := by simp [(runs_eq runs).1]
  early set := by simpa [(runs_eq runs).1] using good.early_at runs set

/-- The current task changes its own data. -/
theorem Good.task_stays (good : Good build s queued) (runs : s.runs c = some t) (task : Task Fp)
    (queueId : task.queueId = (s.tasks t).queueId)
    (early : task.preemptedEarly = (s.tasks t).preemptedEarly) :
    Stays build s (s.setTask t task) c t where
  cpus _ _ := rfl
  tasks u other := setTask_of_ne s _ other
  queues := rfl
  allocated := rfl
  parked := rfl
  waking := rfl
  current := (runs_eq runs).2
  phase := .inl (runs_eq runs).1
  queueId := by simp [queueId]
  requested _ := (runs_eq runs).1
  early set := by
    rw [setTask_self, early] at set
    exact ⟨(runs_eq runs).1, good.early_at runs set⟩

theorem leave_stays (runs : s.runs c = some t) {entry : Entry}
    (asks : entry = .yield ∨ entry = .wait ∧ ∀ d, build.worker d ≠ t) :
    Stays build s (s.leave c (s.cpus c) t entry) c t where
  cpus d other := setCpu_of_ne s _ other
  tasks u other := setTask_of_ne _ _ other
  queues := rfl
  allocated := rfl
  parked := rfl
  waking := rfl
  current := by simp [Sys.leave, (runs_eq runs).2]
  phase := by
    rcases asks with rfl | ⟨rfl, free⟩
    · simp [Sys.leave]
    · simp [Sys.leave, free]
  queueId := by simp [Sys.leave]
  requested set := by simp [Sys.leave] at set
  early set := by simp [Sys.leave] at set

/-- A tick clears the mark of the task, asks it for a yield, or begins a change. -/
theorem preempt_stays (runs : s.runs c = some t) :
    Stays build s (s.preempt build c { s.cpus c with pending := false, stale := false } t) c t := by
  obtain ⟨running, current⟩ := runs_eq runs
  unfold Sys.preempt
  simp only
  by_cases early : (s.tasks t).preemptedEarly = true
  · rw [if_pos early]
    refine ⟨fun d other => setCpu_of_ne s _ other, fun u other => setTask_of_ne _ _ other, rfl, rfl, rfl,
      rfl, by simp [current], by simp [running], by simp, by simp [running], by simp⟩
  · rw [if_neg early]
    split_ifs
    · refine ⟨fun d other => setCpu_of_ne s _ other, fun u other => setTask_of_ne _ _ other, rfl, rfl,
        rfl, rfl, by simp [current], by simp [running], by simp, by simp [running], by simp [early]⟩
    · refine ⟨fun d other => setCpu_of_ne s _ other, fun u _ => rfl, rfl, rfl,
        rfl, rfl, by simp [current], by simp [running], by simp, by simp [running], by simp [early]⟩
    · refine ⟨fun d other => setCpu_of_ne s _ other, fun u other => setTask_of_ne _ _ other, rfl, rfl,
        rfl, rfl, by simp [current], by simp, by simp, by simp, by simp [early]⟩

/-! ## What the timer and the change of a level do -/

/-- A processor keeps what it holds; only its tick or the level of a queue changes. -/
theorem Good.quiet (good : Good build s queued) {cpu : Cpu T Fp}
    (current : cpu.current = (s.cpus c).current) (phase : cpu.phase = (s.cpus c).phase)
    (early : (s.cpus c).pending = true ∧ (s.cpus c).stale = true →
      cpu.pending = true ∧ cpu.stale = true) :
    Local build s (s.setCpu c cpu) c where
  cpus d other := setCpu_of_ne s _ other
  tasks _ _ := rfl
  queues _ := .inl rfl
  allocated := rfl
  parked := rfl
  waking := rfl
  held := by
    rw [setCpu_self, Cpu.held, current, phase]
    exact .refl _
  queueId _ := rfl
  shape := by
    have shape := good.shape c
    unfold Cpu.Shape at shape ⊢
    rw [setCpu_self, current, phase]
    exact shape
  requested u held set := by
    obtain ⟨d, runs⟩ := good.requested u ⟨.cpu c, held⟩ set
    have same := good.apart.unique (show u ∈ s.contents queued (.cpu c) from held) (runs_mem runs)
    cases same
    simpa [Sys.runs, current, phase] using runs
  early u held set := by
    obtain ⟨d, runs, facts⟩ := good.early u ⟨.cpu c, held⟩ set
    have same := good.apart.unique (show u ∈ s.contents queued (.cpu c) from held) (runs_mem runs)
    cases same
    rw [setCpu_self]
    exact ⟨by simpa [Sys.runs, current, phase] using runs, early facts⟩
  started on := by
    rw [setCpu_self, phase] at on
    exact on
  leaving u leaves := by
    refine good.leaving c u ?_
    unfold Cpu.leaving at leaves ⊢
    rw [setCpu_self, current, phase] at leaves
    exact leaves

theorem Good.level (good : Good build s queued) (c : Fin n) (q criticality : ℕ) :
    Local build s (s.setQueue q { s.queues q with criticalityLevel := criticality }) c := by
  have unchanged : s.setCpu c (s.cpus c) = s := by
    unfold Sys.setCpu
    rw [Function.update_eq_self]
  have quiet : Local build s s c := by
    have quiet : Local build s (s.setCpu c (s.cpus c)) c := good.quiet rfl rfl id
    rw [unchanged] at quiet
    exact quiet
  exact { quiet with
    queues := fun q' => by
      by_cases same : q' = q
      · subst same
        exact .inr ⟨criticality, setQueue_self _ _ _⟩
      · exact .inl (setQueue_of_ne s _ _ same) }

/-! ## What a pop answers -/

/-- A pop takes a task that was queued, or leaves the queue as it is. -/
def Pops (q : SchedPriorityq T) (data : T → TaskMetadata) (queue : List T)
    (result : Option T × SchedPriorityq T) : Prop :=
  result = (none, q) ∨ ∃ t ∈ queue, result.1 = some t ∧ Linked result.2 data (queue.erase t)

variable {q : SchedPriorityq T} {data : T → TaskMetadata} {queue : List T}

theorem pops_popAge (linked : Linked q data queue) : Pops q data queue (q.popAge data) := by
  rcases linked.popAge with ⟨-, result⟩ | ⟨_, _, _, t, inside, _, popped, linked', _⟩
  · exact .inl result
  · exact .inr ⟨t, inside, popped, linked'⟩

theorem pops_pop (linked : Linked q data queue) : Pops q data queue (q.pop data) := by
  rcases linked.pop with ⟨-, result⟩ | ⟨t, inside, -, result⟩
  · exact .inl result
  · rw [result]
    exact .inr ⟨t, inside, rfl, linked.dequeue inside⟩

theorem pops_schedPopOf (linked : Linked q data queue) (aging : Bool) (current : TaskMetadata) :
    Pops q data queue (q.schedPopOf aging data current) := by
  unfold SchedPriorityq.schedPopOf
  cases aging with
  | true =>
      rw [if_pos rfl]
      unfold SchedPriorityq.schedPopAge
      split
      · exact .inl rfl
      · split_ifs
        · exact pops_popAge linked
        · exact pops_popAge linked
        · exact .inl rfl
  | false =>
      rw [if_neg Bool.false_ne_true]
      unfold SchedPriorityq.schedPop
      split
      · exact .inl rfl
      · split_ifs
        · exact pops_pop linked
        · exact .inl rfl
        · exact pops_pop linked
        · exact .inl rfl

theorem pops_schedPopClean (linked : Linked q data queue) (aging : Bool) :
    Pops q data queue (schedPopClean aging q data) := by
  unfold schedPopClean
  cases aging with
  | true =>
      rw [if_pos rfl]
      exact pops_popAge linked
  | false =>
      rw [if_neg Bool.false_ne_true]
      split
      · exact .inl rfl
      · exact pops_pop linked

/-- The pop that spins finds a task unless there is none. -/
theorem schedPopClean_eq_none (linked : Linked q data queue) {aging : Bool}
    (none : (schedPopClean aging q data).1 = none) : queue = [] := by
  unfold schedPopClean at none
  cases aging with
  | true =>
      rw [if_pos rfl] at none
      rcases linked.popAge with ⟨empty, -⟩ | ⟨_, _, _, t, _, _, popped, _⟩
      · exact empty
      · rw [popped] at none
        cases none
  | false =>
      rw [if_neg Bool.false_ne_true] at none
      rcases linked.getBin_cases with ⟨-, empty⟩ | ⟨bin, p, found, -⟩
      · exact empty
      · rw [found] at none
        rcases linked.pop with ⟨empty, -⟩ | ⟨t, -, -, result⟩
        · exact empty
        · simp only [result] at none
          cases none

theorem Good.popped_pops (good : Good build s queued) (c : Fin n) (cpu : Cpu T Fp) (entry : Entry) :
    Pops (s.queues (Sys.queueOf build c)) s.data (queued (Sys.queueOf build c))
      (s.popped build c cpu entry) := by
  have linked := good.linked (Sys.queueOf build c)
  unfold Sys.popped
  simp only
  split
  · exact pops_schedPopOf linked _ _
  · exact pops_schedPopOf linked _ _
  · exact pops_schedPopClean linked _

end Invariant

end Twan.Kernel.TaskSwitch
