/-
# Twan.Kernel.SchedYield -- asking for a yield, and yielding

`sched_should_request_yield` in `src/kernel/sched/sched_yield.c`, which the timer asks while the
current task may not be preempted, and `sched_pop`, with which the yield that follows takes the next
task.  The two decide separately, and each of them differently in the build with aging.
`yield_request_agrees` says that a yield is requested exactly where it finds a task.
-/
import Twan.Kernel.SchedQueue

namespace Twan.Kernel.SchedQueue

set_option autoImplicit false

open Twan.Base

variable {Task : Type} [DecidableEq Task]

namespace SchedPriorityq

variable (s : SchedPriorityq Task)

/-- `sched_should_request_yield(task)`; `aging` is `CONFIG_KERNEL_SCHED_AGING`. -/
def shouldRequestYield (aging : Bool) (task : TaskMetadata) : Bool :=
  match s.getBin with
  | none => false
  | some (nextCriticality, nextPriority) =>
      if aging then
        s.criticalityLevel ≤ nextCriticality || task.criticality < s.criticalityLevel
      else if s.criticalityLevel ≤ task.criticality then
        s.criticalityLevel ≤ nextCriticality && task.priority ≤ nextPriority
      else
        s.criticalityLevel ≤ nextCriticality || task.priority ≤ nextPriority

/-- `sched_pop(current)` of the build with aging. -/
def schedPopAge (data : Task → TaskMetadata) (current : TaskMetadata) :
    Option Task × SchedPriorityq Task :=
  match s.getBin with
  | none => (none, s)
  | some (nextCriticality, _) =>
      if s.criticalityLevel ≤ nextCriticality then s.popAge data
      else if current.criticality < s.criticalityLevel then s.popAge data
      else (none, s)

/-- `sched_pop(current)` of either build. -/
def schedPopOf (aging : Bool) (data : Task → TaskMetadata) (current : TaskMetadata) :
    Option Task × SchedPriorityq Task :=
  if aging then s.schedPopAge data current else s.schedPop data current

end SchedPriorityq

/-! ## Where a pop finds a task -/

section Pops

variable {s : SchedPriorityq Task} {data : Task → TaskMetadata} {queue : List Task}

theorem Linked.queue_ne_nil (linked : Linked s data queue) {found : ℕ × Priority}
    (bin : s.getBin = some found) : queue ≠ [] := by
  rintro rfl
  obtain ⟨t, served, _⟩ := linked.awaiting_some (getBin_awaiting (p := found.2) bin)
  cases mem_of_frontTask served

theorem Linked.pop_isSome (linked : Linked s data queue) {found : ℕ × Priority}
    (bin : s.getBin = some found) : (s.pop data).1.isSome = true := by
  rcases linked.pop with ⟨empty, _⟩ | ⟨t, _, _, popped⟩
  · exact absurd empty (linked.queue_ne_nil bin)
  · rw [popped]
    rfl

/-- The masked bitmap may be empty; then the ages start again, and the pop goes on. -/
theorem Linked.popAge_isSome (linked : Linked s data queue) {found : ℕ × Priority}
    (bin : s.getBin = some found) : (s.popAge data).1.isSome = true := by
  rcases linked.popAge with ⟨empty, _⟩ | ⟨_, _, _, t, _, _, popped, _⟩
  · exact absurd empty (linked.queue_ne_nil bin)
  · rw [popped]
    rfl

/-- The build with aging. -/
theorem Linked.request_aging (linked : Linked s data queue) (current : TaskMetadata) :
    s.shouldRequestYield true current = (s.schedPopAge data current).1.isSome := by
  unfold SchedPriorityq.shouldRequestYield SchedPriorityq.schedPopAge
  cases bin : s.getBin with
  | none => rfl
  | some found =>
      obtain ⟨nextCriticality, nextPriority⟩ := found
      have pops := linked.popAge_isSome bin
      by_cases urgent : s.criticalityLevel ≤ nextCriticality
      · simp [urgent, pops]
      · by_cases low : current.criticality < s.criticalityLevel
        · simp [urgent, low, pops]
        · simp [urgent, low]

/-- The build without aging. -/
theorem Linked.request (linked : Linked s data queue) (current : TaskMetadata) :
    s.shouldRequestYield false current = (s.schedPop data current).1.isSome := by
  unfold SchedPriorityq.shouldRequestYield SchedPriorityq.schedPop
  cases bin : s.getBin with
  | none => rfl
  | some found =>
      obtain ⟨nextCriticality, nextPriority⟩ := found
      have pops := linked.pop_isSome bin
      by_cases high : s.criticalityLevel ≤ current.criticality
      · simp only [high, ↓reduceIte, Bool.false_eq_true]
        by_cases next : s.criticalityLevel ≤ nextCriticality ∧ current.priority ≤ nextPriority
        · simp [next, pops]
        · rw [if_neg next]
          simpa using next
      · simp only [high, ↓reduceIte, Bool.false_eq_true]
        by_cases next : s.criticalityLevel ≤ nextCriticality ∨ current.priority ≤ nextPriority
        · rw [if_pos next, pops]
          simpa using next
        · rw [if_neg next]
          simpa using next

end Pops

/-- **A yield is requested exactly where it finds a task**: in every reachable state, at every
criticality level, whichever task is running and whichever build it is. -/
theorem yield_request_agrees {maxCriticality : ℕ} {data : Task → TaskMetadata}
    {run : List (Action Task)} {s : Sys Task}
    (ran : exec (step maxCriticality) (.initial data) run = some s) (aging : Bool)
    (current : TaskMetadata) : s.q.shouldRequestYield aging current = true ↔
      ∃ t, (s.q.schedPopOf aging s.data current).1 = some t := by
  have linked := (exec_good ran).linked
  rw [← Option.isSome_iff_exists]
  cases aging with
  | true => rw [linked.request_aging current]; rfl
  | false => rw [linked.request current]; rfl

/-- A task of priority 0 waits and the criticality level is 1: a task of criticality 1 goes on, one
of criticality 0 and priority 0 yields. -/
theorem yield_request_agrees_low : ∃ s : Sys (Fin 1),
    exec (step 1) (.initial fun _ => ⟨0, 0⟩) [.push 0, .setLevel 1] = some s ∧
      s.q.shouldRequestYield false ⟨0, 1⟩ = false ∧
      (∃ t, (s.q.schedPopOf false s.data ⟨0, 0⟩).1 = some t) := by
  obtain ⟨s, ran⟩ : ∃ s, exec (step 1) (.initial fun _ => ⟨0, 0⟩) [.push (0 : Fin 1), .setLevel 1] =
      some s := ⟨_, rfl⟩
  refine ⟨s, ran, ?_, (yield_request_agrees ran false ⟨0, 0⟩).mp ?_⟩
  · cases ran
    decide +kernel
  · cases ran
    decide +kernel

end Twan.Kernel.SchedQueue
