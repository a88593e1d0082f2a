/-
# Twan.Kernel.SchedQueue -- the run queue of the kernel

`src/kernel/sched/sched_dsa.c` and `src/kernel/sched/sched_queue.c`.  A run queue has one bin for
each criticality; a bin has one list for each priority and a bitmap of the lists that are not
empty (`include/lib/dsa/priorityq.h`).  A task of criticality `c` is linked in the bins `0..c`, by
a node of its own in each.  `__sched_priorityq_pop` takes from the bin of the criticality level,
and from bin 0 where that one is empty; `__sched_priorityq_pop_age` overwrites the bitmap of the
bin by a masked copy while it pops.

The abstract queue is the list of the queued tasks in the order they came (`Sys.queue`).
`run_queue_linked` says that every bin is exactly the part of it that belongs there, in every
reachable state; `mixed_criticality_selection` says what the pops choose.
-/
import Twan.Base.PriorityFifo
import Twan.Base.Run
import Twan.Lib.Bmp256
import Twan.Lib.Dq
import Mathlib.Order.Fin.Basic

namespace Twan.Kernel.SchedQueue

set_option autoImplicit false
set_option linter.unusedSectionVars false

open Twan.Base Twan.Lib Twan.Lib.Dq

/-! ## The code -/

/-- `u8 priority`. -/
abbrev Priority : Type := Fin 256

/-- The fields of a task's metadata that the run queue reads. -/
structure TaskMetadata where
  priority : Priority
  criticality : ℕ
  deriving DecidableEq

/-- `struct sched_priorityq`: list `(i, p)` is `bins[i].priorityq.priority_bins[p]`, node `(t, i)`
is `t->nodes[i]`. -/
structure SchedPriorityq (Task : Type) where
  dqs : Dqs (ℕ × Priority) (Task × ℕ)
  bitmap : ℕ → Bmp256
  criticalityLevel : ℕ
  agingBitmap : Bmp256
  iteration : BitVec 32

section Model

variable {Task : Type} [DecidableEq Task]

/-- `node_to_task(node, criticality)`. -/
def nodeToTask (n : Task × ℕ) (criticality : ℕ) : Option Task :=
  if n.2 = criticality then some n.1 else none

namespace SchedPriorityq

variable (s : SchedPriorityq Task)

def setBitmap (bin : ℕ) (bmp : Bmp256) : SchedPriorityq Task :=
  { s with bitmap := Function.update s.bitmap bin bmp }

/-- `priorityq_push(&bins[bin].priorityq, node, priority, PUSHBACK)`. -/
def priorityqPush (bin : ℕ) (n : Task × ℕ) (priority : Priority) : SchedPriorityq Task :=
  { s with dqs := s.dqs.pushback (bin, priority) n }.setBitmap bin ((s.bitmap bin).set priority)

/-- `priorityq_dequeue(&bins[bin].priorityq, node, priority)`. -/
def priorityqDequeue (bin : ℕ) (n : Task × ℕ) (priority : Priority) : SchedPriorityq Task :=
  let s := { s with dqs := s.dqs.dequeue (bin, priority) n }
  if (s.dqs.peekfront (bin, priority)).isNone then
    s.setBitmap bin ((s.bitmap bin).unset priority)
  else s

/-- `priorityq_awaiting_priority(&bins[bin].priorityq)`. -/
def awaitingPriority (bin : ℕ) : Option Priority := (s.bitmap bin).last

/-- `priorityq_peekfront(&bins[bin].priorityq)`. -/
def peekfront (bin : ℕ) : Option (Task × ℕ) :=
  (s.awaitingPriority bin).bind fun priority => s.dqs.peekfront (bin, priority)

/-- `__sched_priorityq_get_bin`: the bin and its highest priority. -/
def getBin : Option (ℕ × Priority) :=
  match s.awaitingPriority s.criticalityLevel with
  | some priority => some (s.criticalityLevel, priority)
  | none =>
      if s.criticalityLevel = 0 then none
      else (s.awaitingPriority 0).map fun priority => (0, priority)

variable (data : Task → TaskMetadata)

/-- The first `n` iterations of the loop of `__sched_priorityq_push`. -/
def pushLoop (t : Task) : ℕ → SchedPriorityq Task
  | 0 => s
  | n + 1 => (pushLoop t n).priorityqPush n (t, n) (data t).priority

/-- `__sched_priorityq_push`. -/
def push (t : Task) : SchedPriorityq Task := s.pushLoop data t ((data t).criticality + 1)

/-- The first `n` iterations of the loop of `__sched_priorityq_dequeue`. -/
def dequeueLoop (t : Task) : ℕ → SchedPriorityq Task
  | 0 => s
  | n + 1 => (dequeueLoop t n).priorityqDequeue n (t, n) (data t).priority

/-- `__sched_priorityq_dequeue`. -/
def dequeue (t : Task) : SchedPriorityq Task := s.dequeueLoop data t ((data t).criticality + 1)

/-- `__sched_priorityq_pop`. -/
def pop : Option Task × SchedPriorityq Task :=
  match s.getBin with
  | none => (none, s)
  | some (bin, _) =>
      match (s.peekfront bin).bind fun n => nodeToTask n bin with
      | none => (none, s)
      | some t => (some t, s.dequeue data t)

/-- `__sched_reset_age`. -/
def resetAge : SchedPriorityq Task := { s with agingBitmap := Bmp256.full, iteration := 0#32 }

/-- `__sched_age`. -/
def age (lastPriority : Priority) : SchedPriorityq Task :=
  let s := { s with agingBitmap := s.agingBitmap.unsetAllAbove lastPriority }
  match s.agingBitmap.last with
  | none => s.resetAge
  | some priority =>
      if priority = 0 then s.resetAge
      else if s.iteration = BitVec.ofNat 32 (priority.val * 2) then
        { s with agingBitmap := s.agingBitmap.unset priority, iteration := 0#32 }
      else { s with iteration := s.iteration + 1#32 }

/-- The end of `__sched_priorityq_pop_age`, from the pop on. -/
def finishAge (bin : ℕ) (priorityBitmap : Bmp256) (nextPriority : Priority) :
    Option Task × SchedPriorityq Task :=
  let (task, s) := s.pop data
  let priorityBitmap :=
    if (s.bitmap bin).test nextPriority then priorityBitmap
    else priorityBitmap.unset nextPriority
  (task, (s.age nextPriority).setBitmap bin priorityBitmap)

/-- `__sched_priorityq_pop_age`. -/
def popAge : Option Task × SchedPriorityq Task :=
  match s.getBin with
  | none => (none, s)
  | some (bin, _) =>
      let priorityBitmap := s.bitmap bin
      let masked := s.setBitmap bin (priorityBitmap.and s.agingBitmap)
      let s := match masked.awaitingPriority bin with
        | some _ => masked
        | none => masked.resetAge.setBitmap bin priorityBitmap
      match s.awaitingPriority bin with
      | none => (none, s)
      | some nextPriority => s.finishAge data bin priorityBitmap nextPriority

/-- `sched_pop(current)` of the build without aging; `none` keeps the current task. -/
def schedPop (current : TaskMetadata) : Option Task × SchedPriorityq Task :=
  match s.getBin with
  | none => (none, s)
  | some (nextCriticality, nextPriority) =>
      if s.criticalityLevel ≤ current.criticality then
        if s.criticalityLevel ≤ nextCriticality ∧ current.priority ≤ nextPriority then s.pop data
        else (none, s)
      else if s.criticalityLevel ≤ nextCriticality ∨ current.priority ≤ nextPriority then s.pop data
      else (none, s)

end SchedPriorityq

/-! ## The system -/

/-- A run queue, the metadata of the tasks, and three histories: the queued tasks in the order they
came, what was pushed, and what was taken out. -/
structure Sys (Task : Type) where
  q : SchedPriorityq Task
  data : Task → TaskMetadata
  queue : List Task
  pushed : List Task
  taken : List Task

inductive Action (Task : Type) where
  | push (t : Task)
  | dequeue (t : Task)
  | pop
  | popAge
  /-- `__sched_mcs_write_criticality_level`. -/
  | setLevel (criticality : ℕ)
  /-- The metadata of a task that is not queued changes. -/
  | setMetadata (t : Task) (m : TaskMetadata)
  deriving DecidableEq

/-- A run queue after `__sched_init`. -/
def SchedPriorityq.initial : SchedPriorityq Task :=
  ⟨Dqs.empty, fun _ => Bmp256.empty, 0, Bmp256.full, 0#32⟩

def Sys.initial (data : Task → TaskMetadata) : Sys Task := ⟨.initial, data, [], [], []⟩

/-- The state after a pop. -/
def Sys.popped (s : Sys Task) (result : Option Task × SchedPriorityq Task) : Sys Task :=
  match result.1 with
  | none => { s with q := result.2 }
  | some t => { s with q := result.2, queue := s.queue.erase t, taken := s.taken ++ [t] }

/-- One operation; `none` where its caller may not make it. -/
def step (maxCriticality : ℕ) (s : Sys Task) : Action Task → Option (Sys Task)
  | .push t =>
      if t ∉ s.queue then
        some { s with q := s.q.push s.data t, queue := s.queue ++ [t], pushed := s.pushed ++ [t] }
      else none
  | .dequeue t =>
      if t ∈ s.queue then
        some { s with
          q := s.q.dequeue s.data t, queue := s.queue.erase t, taken := s.taken ++ [t] }
      else none
  | .pop => some (s.popped (s.q.pop s.data))
  | .popAge => some (s.popped (s.q.popAge s.data))
  | .setLevel criticality =>
      if criticality ≤ maxCriticality then
        some { s with q := { s.q with criticalityLevel := criticality } }
      else some s
  | .setMetadata t m =>
      if t ∉ s.queue ∧ m.criticality ≤ maxCriticality then
        some { s with data := Function.update s.data t m }
      else none

end Model

/-! ## What the operations do to the lists -/

section Lists

variable {Task : Type} [DecidableEq Task] {s : SchedPriorityq Task} {data : Task → TaskMetadata}
  {lists : ℕ × Priority → List (Task × ℕ)} {t : Task}

/-- The lists hold these nodes, and a bit is set where its list is not empty. -/
structure Exact (s : SchedPriorityq Task) (lists : ℕ × Priority → List (Task × ℕ)) : Prop where
  holds : Holds s.dqs lists
  bits : ∀ i p, (s.bitmap i).test p = true ↔ lists (i, p) ≠ []

/-- The lists after `n` iterations of the loop of a push. -/
def pushedLists (lists : ℕ × Priority → List (Task × ℕ)) (t : Task) (p : Priority) (n : ℕ) :
    ℕ × Priority → List (Task × ℕ) :=
  fun q => if q.1 < n ∧ q.2 = p then lists q ++ [(t, q.1)] else lists q

/-- The lists after `n` iterations of the loop of a dequeue. -/
def dequeuedLists (lists : ℕ × Priority → List (Task × ℕ)) (t : Task) (p : Priority) (n : ℕ) :
    ℕ × Priority → List (Task × ℕ) :=
  fun q => if q.1 < n ∧ q.2 = p then (lists q).filter fun m => m ≠ (t, q.1) else lists q

theorem lt_succ_iff_of_ne {i n : ℕ} {p r : Priority} (other : (i, p) ≠ (n, r)) :
    i < n + 1 ∧ p = r ↔ i < n ∧ p = r := by
  constructor
  · rintro ⟨less, rfl⟩
    exact ⟨Nat.lt_of_le_of_ne (Nat.lt_succ_iff.mp less) fun e => other (by rw [e]), rfl⟩
  · exact fun ⟨less, same⟩ => ⟨Nat.lt_succ_of_lt less, same⟩

theorem Exact.priorityqPush (exact : Exact s lists) {bin : ℕ} {n : Task × ℕ} {p : Priority}
    (outside : ∀ q, n ∉ lists q) :
    Exact (s.priorityqPush bin n p) (Function.update lists (bin, p) (lists (bin, p) ++ [n])) := by
  refine ⟨exact.holds.pushback outside, fun i r => ?_⟩
  simp only [SchedPriorityq.priorityqPush, SchedPriorityq.setBitmap]
  by_cases bins : i = bin
  · subst bins
    rw [Function.update_self, Bmp256.test_set]
    by_cases same : r = p
    · subst same
      simp
    · rw [Function.update_of_ne (by simpa using same)]
      simpa [same] using exact.bits i r
  · rw [Function.update_of_ne bins, Function.update_of_ne fun e => bins (congrArg Prod.fst e)]
    exact exact.bits i r

theorem pushLoop_exact (exact : Exact s lists) (outside : ∀ i q, (t, i) ∉ lists q) (n : ℕ) :
    Exact (s.pushLoop data t n) (pushedLists lists t (data t).priority n) := by
  induction n with
  | zero =>
      have same : pushedLists lists t (data t).priority 0 = lists := by
        funext q
        simp [pushedLists]
      rw [same]
      exact exact
  | succ n ih =>
      have fresh : ∀ q, (t, n) ∉ pushedLists lists t (data t).priority n q := by
        intro q inside
        unfold pushedLists at inside
        split_ifs at inside with earlier
        · rcases List.mem_append.mp inside with old | new
          · exact outside n q old
          · cases List.mem_singleton.mp new
            exact Nat.lt_irrefl _ earlier.1
        · exact outside n q inside
      have next : Function.update (pushedLists lists t (data t).priority n) (n, (data t).priority)
          (pushedLists lists t (data t).priority n (n, (data t).priority) ++ [(t, n)]) =
          pushedLists lists t (data t).priority (n + 1) := by
        funext ⟨i, p⟩
        by_cases here : (i, p) = (n, (data t).priority)
        · rw [here, Function.update_self]
          simp [pushedLists]
        · rw [Function.update_of_ne here]
          simp only [pushedLists, lt_succ_iff_of_ne here]
      rw [← next]
      exact ih.priorityqPush fresh

/-- One iteration of the loop of a dequeue; the bitmap may be a masked one. -/
theorem priorityqDequeue_spec (holds : Holds s.dqs lists) {bin : ℕ} {n : Task × ℕ} {p : Priority}
    (inside : n ∈ lists (bin, p)) :
    Holds (s.priorityqDequeue bin n p).dqs
        (Function.update lists (bin, p) ((lists (bin, p)).filter fun m => m ≠ n)) ∧
      (s.priorityqDequeue bin n p).bitmap =
        if (lists (bin, p)).filter (fun m => m ≠ n) = [] then
          Function.update s.bitmap bin ((s.bitmap bin).unset p)
        else s.bitmap := by
  have after := holds.dequeue inside
  have front : ((s.dqs.dequeue (bin, p) n).peekfront (bin, p)).isNone ↔
      (lists (bin, p)).filter (fun m => m ≠ n) = [] := by
    rw [after.peekfront, Function.update_self]
    simp only [Option.isNone_iff_eq_none, List.head?_eq_none_iff]
  unfold SchedPriorityq.priorityqDequeue
  by_cases empty : (lists (bin, p)).filter (fun m => m ≠ n) = []
  · simp only [if_pos (front.mpr empty), if_pos empty]
    exact ⟨after, rfl⟩
  · simp only [if_neg fun none => empty (front.mp none), if_neg empty]
    exact ⟨after, trivial⟩

theorem dequeueLoop_spec (holds : Holds s.dqs lists) {n : ℕ}
    (inside : ∀ i < n, (t, i) ∈ lists (i, (data t).priority)) :
    Holds (s.dequeueLoop data t n).dqs (dequeuedLists lists t (data t).priority n) ∧
      ∀ i, (s.dequeueLoop data t n).bitmap i =
        if i < n ∧ dequeuedLists lists t (data t).priority n (i, (data t).priority) = [] then
          (s.bitmap i).unset (data t).priority
        else s.bitmap i := by
  induction n with
  | zero => simpa [dequeuedLists] using ⟨holds, fun _ => rfl⟩
  | succ n ih =>
      obtain ⟨before, bits⟩ := ih fun i less => inside i (Nat.lt_succ_of_lt less)
      have here : dequeuedLists lists t (data t).priority n (n, (data t).priority) =
          lists (n, (data t).priority) := by simp [dequeuedLists]
      have member : (t, n) ∈ dequeuedLists lists t (data t).priority n (n, (data t).priority) := by
        rw [here]
        exact inside n (Nat.lt_succ_self n)
      obtain ⟨after, bitmap⟩ := priorityqDequeue_spec before member
      have next : Function.update (dequeuedLists lists t (data t).priority n) (n, (data t).priority)
          ((dequeuedLists lists t (data t).priority n (n, (data t).priority)).filter
            fun m => m ≠ (t, n)) = dequeuedLists lists t (data t).priority (n + 1) := by
        funext ⟨i, p⟩
        by_cases same : (i, p) = (n, (data t).priority)
        · rw [same, Function.update_self, here]
          simp [dequeuedLists]
        · rw [Function.update_of_ne same]
          simp only [dequeuedLists, lt_succ_iff_of_ne same]
      have last : dequeuedLists lists t (data t).priority (n + 1) (n, (data t).priority) =
          (lists (n, (data t).priority)).filter fun m => m ≠ (t, n) := by simp [dequeuedLists]
      rw [next] at after
      rw [here] at bitmap
      refine ⟨after, fun i => ?_⟩
      rw [SchedPriorityq.dequeueLoop, bitmap]
      by_cases there : i = n
      · subst there
        rw [last]
        have untouched := bits i
        rw [if_neg (by simp)] at untouched
        split_ifs with empty both both
        · rw [Function.update_self, untouched]
        · exact absurd ⟨Nat.lt_succ_self i, empty⟩ both
        · exact absurd both.2 empty
        · exact untouched
      · have less : i < n + 1 ↔ i < n := ⟨fun lt => by omega, Nat.lt_succ_of_lt⟩
        have same : dequeuedLists lists t (data t).priority (n + 1) (i, (data t).priority) =
            dequeuedLists lists t (data t).priority n (i, (data t).priority) := by
          simp only [dequeuedLists, less]
        have kept : ∀ bmp, Function.update (s.dequeueLoop data t n).bitmap n bmp i =
            (s.dequeueLoop data t n).bitmap i := fun bmp => Function.update_of_ne there _ _
        simp only [same, less]
        rw [← bits i]
        split_ifs
        · exact kept _
        · rfl

theorem pushLoop_ages (s : SchedPriorityq Task) (data : Task → TaskMetadata) (t : Task) (n : ℕ) :
    (s.pushLoop data t n).agingBitmap = s.agingBitmap ∧
      (s.pushLoop data t n).iteration = s.iteration := by
  induction n with
  | zero => exact ⟨rfl, rfl⟩
  | succ n ih => exact ih

/-- A dequeue leaves everything but the lists and the bitmaps. -/
theorem dequeueLoop_rest (s : SchedPriorityq Task) (data : Task → TaskMetadata) (t : Task) (n : ℕ) :
    (s.dequeueLoop data t n).criticalityLevel = s.criticalityLevel ∧
      (s.dequeueLoop data t n).agingBitmap = s.agingBitmap ∧
      (s.dequeueLoop data t n).iteration = s.iteration := by
  induction n with
  | zero => exact ⟨rfl, rfl, rfl⟩
  | succ n ih =>
      unfold SchedPriorityq.dequeueLoop SchedPriorityq.priorityqDequeue
      simp only
      split_ifs <;> exact ih

theorem pop_ages (s : SchedPriorityq Task) (data : Task → TaskMetadata) :
    (s.pop data).2.agingBitmap = s.agingBitmap ∧ (s.pop data).2.iteration = s.iteration := by
  unfold SchedPriorityq.pop
  split
  · exact ⟨rfl, rfl⟩
  · split
    · exact ⟨rfl, rfl⟩
    · exact (dequeueLoop_rest s data _ _).2

end Lists

/-! ## The lists of a queue -/

section Linked

variable {Task : Type} [DecidableEq Task] {s : SchedPriorityq Task} {data : Task → TaskMetadata}
  {queue : List Task} {t : Task}

/-- What belongs in the lists: of the queued tasks in order, those of this priority whose
criticality reaches the bin. -/
def binLists (data : Task → TaskMetadata) (queue : List Task) : ℕ × Priority → List (Task × ℕ) :=
  fun q => (queue.filter fun t => (data t).priority = q.2 ∧ q.1 ≤ (data t).criticality).map
    fun t => (t, q.1)

/-- The run queue links these tasks. -/
structure Linked (s : SchedPriorityq Task) (data : Task → TaskMetadata) (queue : List Task) : Prop
    extends Exact s (binLists data queue) where
  nodup : queue.Nodup

theorem mem_binLists {n : Task × ℕ} {q : ℕ × Priority} : n ∈ binLists data queue q ↔
    n.1 ∈ queue ∧ n.2 = q.1 ∧ (data n.1).priority = q.2 ∧ q.1 ≤ (data n.1).criticality := by
  simp only [binLists, List.mem_map, List.mem_filter, decide_eq_true_eq]
  constructor
  · rintro ⟨t, ⟨inside, priority, bin⟩, rfl⟩
    exact ⟨inside, rfl, priority, bin⟩
  · rintro ⟨inside, node, priority, bin⟩
    exact ⟨n.1, ⟨inside, priority, bin⟩, by rw [← node]⟩

theorem linked_initial (data : Task → TaskMetadata) : Linked .initial data [] where
  holds := holds_empty
  bits i p := by simp [SchedPriorityq.initial, Bmp256.test_empty, binLists]
  nodup := List.nodup_nil

theorem Linked.push (linked : Linked s data queue) (absent : t ∉ queue) :
    Linked (s.push data t) data (queue ++ [t]) := by
  have outside : ∀ i q, (t, i) ∉ binLists data queue q := fun i q inside =>
    absent (mem_binLists.mp inside).1
  have lists : pushedLists (binLists data queue) t (data t).priority ((data t).criticality + 1) =
      binLists data (queue ++ [t]) := by
    funext ⟨i, p⟩
    simp only [pushedLists, binLists, List.filter_append, List.map_append]
    by_cases belongs : (data t).priority = p ∧ i ≤ (data t).criticality
    · rw [if_pos ⟨Nat.lt_succ_of_le belongs.2, belongs.1.symm⟩,
        List.filter_cons_of_pos (by simpa using belongs)]
      rfl
    · rw [if_neg fun both => belongs ⟨both.2.symm, Nat.lt_succ_iff.mp both.1⟩,
        List.filter_cons_of_neg (by simpa using belongs)]
      simp
  have nodup : (queue ++ [t]).Nodup := by
    refine List.nodup_append.mpr ⟨linked.nodup, List.nodup_singleton t, ?_⟩
    rintro u inside v single rfl
    exact absent (List.mem_singleton.mp single ▸ inside)
  refine ⟨?_, nodup⟩
  rw [← lists]
  exact pushLoop_exact linked.toExact outside _

/-- What is left in the lists when a task leaves. -/
theorem dequeued_binLists (nodup : queue.Nodup) :
    dequeuedLists (binLists data queue) t (data t).priority ((data t).criticality + 1) =
      binLists data (queue.erase t) := by
  funext ⟨i, p⟩
  rw [nodup.erase_eq_filter]
  simp only [dequeuedLists, binLists, List.filter_filter]
  split_ifs with belongs
  · rw [List.filter_map, List.filter_filter]
    congr 1
    refine List.filter_congr fun u _ => ?_
    by_cases same : u = t <;> simp [same]
  · congr 1
    refine List.filter_congr fun u _ => ?_
    by_cases same : u = t
    · subst same
      have out : ¬ ((data u).priority = p ∧ i ≤ (data u).criticality) := fun both =>
        belongs ⟨Nat.lt_succ_of_le both.2, both.1.symm⟩
      simp [out]
    · simp [same]

/-- A dequeue of a queued task, whatever the bitmaps are. -/
theorem dequeue_spec (holds : Holds s.dqs (binLists data queue)) (nodup : queue.Nodup)
    (inside : t ∈ queue) :
    Holds (s.dequeue data t).dqs (binLists data (queue.erase t)) ∧
      ∀ i, (s.dequeue data t).bitmap i =
        if i ≤ (data t).criticality ∧ binLists data (queue.erase t) (i, (data t).priority) = [] then
          (s.bitmap i).unset (data t).priority
        else s.bitmap i := by
  have nodes : ∀ i < (data t).criticality + 1, (t, i) ∈ binLists data queue (i, (data t).priority) :=
    fun i less => mem_binLists.mpr ⟨inside, rfl, rfl, Nat.lt_succ_iff.mp less⟩
  obtain ⟨after, bits⟩ := dequeueLoop_spec holds nodes
  rw [dequeued_binLists nodup] at after bits
  refine ⟨after, fun i => (bits i).trans ?_⟩
  simp only [Nat.lt_succ_iff]

/-- A list that the task is not in stays. -/
theorem binLists_erase (nodup : queue.Nodup) {q : ℕ × Priority}
    (out : ¬ ((data t).priority = q.2 ∧ q.1 ≤ (data t).criticality)) :
    binLists data (queue.erase t) q = binLists data queue q := by
  rw [nodup.erase_eq_filter]
  simp only [binLists, List.filter_filter]
  congr 1
  refine List.filter_congr fun u _ => ?_
  by_cases same : u = t
  · subst same
    simp [out]
  · simp [same]

theorem Linked.dequeue (linked : Linked s data queue) (inside : t ∈ queue) :
    Linked (s.dequeue data t) data (queue.erase t) := by
  obtain ⟨after, bitmap⟩ := dequeue_spec linked.holds linked.nodup inside
  refine ⟨⟨after, fun i p => ?_⟩, linked.nodup.erase t⟩
  have bits := linked.bits i p
  rw [bitmap i]
  by_cases belongs : (data t).priority = p ∧ i ≤ (data t).criticality
  · obtain ⟨rfl, reaches⟩ := belongs
    have member : (t, i) ∈ binLists data queue (i, (data t).priority) :=
      mem_binLists.mpr ⟨inside, rfl, rfl, reaches⟩
    have before := List.ne_nil_of_mem member
    split_ifs with empty
    · rw [Bmp256.test_unset]
      simp [empty.2]
    · exact iff_of_true (bits.mpr before) fun none => empty ⟨reaches, none⟩
  · have same := binLists_erase (q := (i, p)) linked.nodup belongs
    rw [same, ← bits]
    split_ifs with empty
    · have other : p ≠ (data t).priority := fun same => belongs ⟨same.symm, empty.1⟩
      simp [Bmp256.test_unset, other]
    · rfl

/-! ## What the pops choose -/

/-- The queued tasks of a bin. -/
def inBin (data : Task → TaskMetadata) (queue : List Task) (bin : ℕ) : List Task :=
  queue.filter fun t => bin ≤ (data t).criticality

/-- The tasks a pop chooses from: those of criticality at least the level, or all. -/
def candidates (data : Task → TaskMetadata) (queue : List Task) (level : ℕ) : List Task :=
  if inBin data queue level = [] then queue else inBin data queue level

/-- The task of highest priority that came first. -/
def frontTask (data : Task → TaskMetadata) (queue : List Task) : Option Task :=
  PriorityFifo.front (fun t => (data t).priority) queue

theorem binLists_inBin (bin : ℕ) (p : Priority) : binLists data queue (bin, p) =
    ((inBin data queue bin).filter fun t => (data t).priority = p).map fun t => (t, bin) := by
  simp only [binLists, inBin, List.filter_filter, Bool.decide_and]

theorem inBin_zero : inBin data queue 0 = queue := by
  simp [inBin]

theorem Linked.awaiting_none (linked : Linked s data queue) {bin : ℕ} :
    s.awaitingPriority bin = none ↔ inBin data queue bin = [] := by
  rw [SchedPriorityq.awaitingPriority, Bmp256.last_eq_none]
  constructor
  · intro clear
    refine List.eq_nil_iff_forall_not_mem.mpr fun t inside => ?_
    obtain ⟨queued, reaches⟩ := List.mem_filter.mp inside
    have member : (t, bin) ∈ binLists data queue (bin, (data t).priority) :=
      mem_binLists.mpr ⟨queued, rfl, rfl, by simpa using reaches⟩
    have set := (linked.bits bin (data t).priority).mpr (List.ne_nil_of_mem member)
    rw [clear] at set
    cases set
  · intro empty p
    refine Bool.eq_false_iff.mpr fun set => (linked.bits bin p).mp set ?_
    rw [binLists_inBin, empty]
    rfl

/-- The highest list of a bin that is not empty starts with the task the abstract queue serves. -/
theorem Linked.awaiting_some (linked : Linked s data queue) {bin : ℕ} {p : Priority}
    (awaiting : s.awaitingPriority bin = some p) :
    ∃ t, frontTask data (inBin data queue bin) = some t ∧ (data t).priority = p ∧
      (binLists data queue (bin, p)).head? = some (t, bin) := by
  obtain ⟨set, higher⟩ := Bmp256.last_eq_some.mp awaiting
  have nonempty := (linked.bits bin p).mp set
  have highest : ∀ u ∈ inBin data queue bin, (data u).priority ≤ p := by
    intro u inside
    by_contra above
    obtain ⟨queued, reaches⟩ := List.mem_filter.mp inside
    have member : (u, bin) ∈ binLists data queue (bin, (data u).priority) :=
      mem_binLists.mpr ⟨queued, rfl, rfl, by simpa using reaches⟩
    have set := (linked.bits bin (data u).priority).mpr (List.ne_nil_of_mem member)
    rw [higher _ (not_le.mp above)] at set
    cases set
  rw [binLists_inBin] at nonempty ⊢
  cases found : ((inBin data queue bin).filter fun t => (data t).priority = p).head? with
  | none => exact absurd (by rw [List.head?_eq_none_iff.mp found]; rfl) nonempty
  | some t =>
      have member := (List.mem_filter.mp (List.mem_of_head? found)).2
      refine ⟨t, PriorityFifo.front_of_highest highest found, by simpa using member, ?_⟩
      rw [List.head?_map, found]
      rfl

theorem getBin_eq_some {bin : ℕ} {p : Priority} : s.getBin = some (bin, p) ↔
    (bin = s.criticalityLevel ∧ s.awaitingPriority bin = some p) ∨
    (bin = 0 ∧ s.criticalityLevel ≠ 0 ∧ s.awaitingPriority s.criticalityLevel = none ∧
      s.awaitingPriority bin = some p) := by
  unfold SchedPriorityq.getBin
  cases level : s.awaitingPriority s.criticalityLevel with
  | some priority =>
      simp only [Option.some.injEq, Prod.mk.injEq]
      constructor
      · rintro ⟨rfl, rfl⟩
        exact .inl ⟨rfl, level⟩
      · rintro (⟨rfl, awaiting⟩ | ⟨_, _, none, _⟩)
        · rw [level] at awaiting
          exact ⟨rfl, Option.some.inj awaiting⟩
        · cases none
  | none =>
      by_cases zero : s.criticalityLevel = 0
      · simp only [zero, if_true, reduceCtorEq, false_iff]
        rintro (⟨rfl, awaiting⟩ | ⟨_, nonzero, _⟩)
        · rw [← zero, level] at awaiting
          cases awaiting
        · exact nonzero rfl
      · rw [if_neg zero, Option.map_eq_some_iff]
        constructor
        · rintro ⟨priority, awaiting, same⟩
          cases same
          exact .inr ⟨rfl, zero, rfl, awaiting⟩
        · rintro (⟨rfl, awaiting⟩ | ⟨rfl, _, _, awaiting⟩)
          · rw [level] at awaiting
            cases awaiting
          · exact ⟨p, awaiting, rfl⟩

theorem getBin_awaiting {bin : ℕ} {p : Priority} (found : s.getBin = some (bin, p)) :
    s.awaitingPriority bin = some p := by
  rcases getBin_eq_some.mp found with ⟨_, awaiting⟩ | ⟨_, _, _, awaiting⟩ <;> exact awaiting

/-- A pop takes the head of the highest list of the bin, whatever the bitmaps are. -/
theorem pop_eq (holds : Holds s.dqs (binLists data queue)) {bin : ℕ} {p : Priority}
    (found : s.getBin = some (bin, p)) (head : (binLists data queue (bin, p)).head? = some (t, bin)) :
    s.pop data = (some t, s.dequeue data t) := by
  have front : s.peekfront bin = some (t, bin) := by
    rw [SchedPriorityq.peekfront, getBin_awaiting found, Option.bind_some, holds.peekfront, head]
  unfold SchedPriorityq.pop
  rw [found]
  simp [front, nodeToTask]

/-- The bin that is served holds the candidates. -/
theorem Linked.getBin_cases (linked : Linked s data queue) :
    (s.getBin = none ∧ queue = []) ∨
    ∃ bin p, s.getBin = some (bin, p) ∧
      inBin data queue bin = candidates data queue s.criticalityLevel ∧
      (s.criticalityLevel ≤ bin ↔ inBin data queue s.criticalityLevel ≠ []) := by
  unfold SchedPriorityq.getBin candidates
  cases level : s.awaitingPriority s.criticalityLevel with
  | some p =>
      right
      have nonempty : inBin data queue s.criticalityLevel ≠ [] := fun empty => by
        rw [linked.awaiting_none.mpr empty] at level
        cases level
      exact ⟨s.criticalityLevel, p, rfl, (if_neg nonempty).symm, iff_of_true (le_refl _) nonempty⟩
  | none =>
      have empty := linked.awaiting_none.mp level
      by_cases zero : s.criticalityLevel = 0
      · left
        rw [zero, inBin_zero] at empty
        simp [zero, empty]
      · cases all : s.awaitingPriority 0 with
        | none =>
            left
            have none := linked.awaiting_none.mp all
            rw [inBin_zero] at none
            simp [zero, none]
        | some p =>
            right
            refine ⟨0, p, by simp [zero], by rw [if_pos empty, inBin_zero], ?_⟩
            exact iff_of_false (by omega) fun nonempty => nonempty empty

theorem mem_of_frontTask {l : List Task} (served : frontTask data l = some t) : t ∈ l := by
  obtain ⟨before, after, split, _⟩ := PriorityFifo.isFront_of_front served
  rw [split]
  simp

/-- A pop takes the earliest candidate of highest priority. -/
theorem Linked.pop (linked : Linked s data queue) :
    (queue = [] ∧ s.pop data = (none, s)) ∨
    ∃ t ∈ queue, frontTask data (candidates data queue s.criticalityLevel) = some t ∧
      s.pop data = (some t, s.dequeue data t) := by
  rcases linked.getBin_cases with ⟨none, empty⟩ | ⟨bin, p, found, same, _⟩
  · left
    exact ⟨empty, by simp [SchedPriorityq.pop, none]⟩
  · right
    obtain ⟨t, served, _, head⟩ := linked.awaiting_some (getBin_awaiting found)
    refine ⟨t, ?_, by rw [← same]; exact served, pop_eq linked.holds found head⟩
    exact (List.mem_filter.mp (mem_of_frontTask served)).1

/-! ## The aging pop -/

/-- The bin and the priority that `__sched_priorityq_pop_age` serves: the highest priority of the
bin that the aging bitmap allows, or the highest one where it allows none. -/
def SchedPriorityq.serves (s : SchedPriorityq Task) : Option (ℕ × Priority) :=
  s.getBin.map fun found =>
    (found.1, (((s.bitmap found.1).and s.agingBitmap).last).getD found.2)

/-- The ages start again where the aging bitmap allows no priority of the bin. -/
def SchedPriorityq.refreshed (s : SchedPriorityq Task) : SchedPriorityq Task :=
  match s.getBin with
  | none => s
  | some (bin, _) => if ((s.bitmap bin).and s.agingBitmap).last = none then s.resetAge else s

theorem awaiting_setBitmap (bin : ℕ) (bmp : Bmp256) :
    (s.setBitmap bin bmp).awaitingPriority bin = bmp.last := by
  simp only [SchedPriorityq.awaitingPriority, SchedPriorityq.setBitmap, Function.update_self]

/-- The same bin is found while its bitmap is another one that is not empty. -/
theorem getBin_masked {bin : ℕ} {p p' : Priority} (found : s.getBin = some (bin, p'))
    {masked : SchedPriorityq Task} {bmp : Bmp256}
    (level : masked.criticalityLevel = s.criticalityLevel)
    (bitmap : masked.bitmap = Function.update s.bitmap bin bmp) (last : bmp.last = some p) :
    masked.getBin = some (bin, p) := by
  have here : masked.awaitingPriority bin = some p := by
    rw [SchedPriorityq.awaitingPriority, bitmap, Function.update_self, last]
  refine getBin_eq_some.mpr ?_
  rcases getBin_eq_some.mp found with ⟨same, _⟩ | ⟨zero, nonzero, none, _⟩
  · exact .inl ⟨same.trans level.symm, here⟩
  · refine .inr ⟨zero, by rw [level]; exact nonzero, ?_, here⟩
    rw [SchedPriorityq.awaitingPriority, bitmap, level,
      Function.update_of_ne fun same => nonzero (same.trans zero)]
    exact none

/-- `__sched_age` leaves the lists and the bitmaps. -/
theorem age_rest (p : Priority) : (s.age p).dqs = s.dqs ∧ (s.age p).bitmap = s.bitmap ∧
    (s.age p).criticalityLevel = s.criticalityLevel := by
  unfold SchedPriorityq.age
  simp only
  split
  · exact ⟨rfl, rfl, rfl⟩
  · split_ifs <;> exact ⟨rfl, rfl, rfl⟩

/-- `__sched_age` reads and writes the aging bitmap and the iteration only. -/
theorem age_congr (s s' : SchedPriorityq Task) (bitmap : s'.agingBitmap = s.agingBitmap)
    (iteration : s'.iteration = s.iteration) (p : Priority) :
    (s'.age p).agingBitmap = (s.age p).agingBitmap ∧ (s'.age p).iteration = (s.age p).iteration := by
  unfold SchedPriorityq.age
  simp only [bitmap, iteration]
  split
  · exact ⟨rfl, rfl⟩
  · split_ifs <;> simp [SchedPriorityq.resetAge]

/-- The rest of `__sched_priorityq_pop_age` once the bitmap of the bin is `bmp`, a part of the
saved one: the saved copy that is written back is exact again. -/
theorem Linked.popAge_of_masked (linked : Linked s data queue) (masked : SchedPriorityq Task)
    {bin : ℕ} {p p' : Priority} {bmp : Bmp256} (found : s.getBin = some (bin, p'))
    (dqs : masked.dqs = s.dqs) (level : masked.criticalityLevel = s.criticalityLevel)
    (bitmap : masked.bitmap = Function.update s.bitmap bin bmp)
    (part : ∀ i, bmp.test i = true → (s.bitmap bin).test i = true) (last : bmp.last = some p) :
    ∃ t ∈ queue, (data t).priority = p ∧ ∃ u,
      masked.finishAge data bin (s.bitmap bin) p = (some t, u) ∧
      Linked u data (queue.erase t) ∧ u.criticalityLevel = s.criticalityLevel ∧
      u.agingBitmap = (masked.age p).agingBitmap ∧ u.iteration = (masked.age p).iteration := by
  have set : bmp.test p = true := (Bmp256.last_eq_some.mp last).1
  have nonempty := (linked.bits bin p).mp (part p set)
  obtain ⟨⟨t, k⟩, head⟩ : ∃ n, (binLists data queue (bin, p)).head? = some n := by
    cases lists : binLists data queue (bin, p) with
    | nil => exact absurd lists nonempty
    | cons n rest => exact ⟨n, rfl⟩
  obtain ⟨inside, rfl, rfl, reaches⟩ := mem_binLists.mp (List.mem_of_head? head)
  simp only at inside reaches head
  have here : masked.getBin = some (k, (data t).priority) := getBin_masked found level bitmap last
  have holds : Holds masked.dqs (binLists data queue) := by
    rw [dqs]
    exact linked.holds
  unfold SchedPriorityq.finishAge
  rw [pop_eq holds here head]
  refine ⟨t, inside, rfl, _, rfl, ?_⟩
  obtain ⟨after, bits⟩ := dequeue_spec holds linked.nodup inside
  obtain ⟨_, exactBits⟩ := dequeue_spec linked.holds linked.nodup inside
  obtain ⟨agedDqs, agedBitmap, agedLevel⟩ := age_rest (s := masked.dequeue data t) (data t).priority
  obtain ⟨restLevel, restAging, restIteration⟩ :=
    dequeueLoop_rest masked data t ((data t).criticality + 1)
  have congr := age_congr masked (masked.dequeue data t) restAging restIteration (data t).priority
  have same : (((masked.dequeue data t).age (data t).priority).setBitmap k
      (if ((masked.dequeue data t).bitmap k).test (data t).priority then s.bitmap k
      else (s.bitmap k).unset (data t).priority)).bitmap = (s.dequeue data t).bitmap := by
    funext i
    simp only [SchedPriorityq.setBitmap]
    rw [agedBitmap]
    by_cases there : i = k
    · subst there
      rw [Function.update_self, exactBits, bits, bitmap, Function.update_self]
      split_ifs with test empty <;> simp_all [Bmp256.test_unset]
    · rw [Function.update_of_ne there, bits, exactBits, bitmap, Function.update_of_ne there]
  have exact := linked.dequeue inside
  refine ⟨⟨⟨?_, fun i r => ?_⟩, exact.nodup⟩, ?_, congr⟩
  · simp only [SchedPriorityq.setBitmap]
    rw [agedDqs]
    exact after
  · rw [same]
    exact exact.bits i r
  · simp only [SchedPriorityq.setBitmap]
    rw [agedLevel]
    exact restLevel.trans level

/-- The aging pop takes the head of the list it serves and links exactly the rest. -/
theorem Linked.popAge (linked : Linked s data queue) :
    (queue = [] ∧ s.popAge data = (none, s)) ∨
    ∃ bin p, s.serves = some (bin, p) ∧ ∃ t ∈ queue, (data t).priority = p ∧
      (s.popAge data).1 = some t ∧ Linked (s.popAge data).2 data (queue.erase t) ∧
      (s.popAge data).2.criticalityLevel = s.criticalityLevel ∧
      (s.popAge data).2.agingBitmap = (s.refreshed.age p).agingBitmap ∧
      (s.popAge data).2.iteration = (s.refreshed.age p).iteration := by
  rcases linked.getBin_cases with ⟨none, empty⟩ | ⟨bin, p', found, _⟩
  · left
    exact ⟨empty, by simp [SchedPriorityq.popAge, none]⟩
  · right
    have awaiting : (s.bitmap bin).last = some p' := getBin_awaiting found
    cases allowed : ((s.bitmap bin).and s.agingBitmap).last with
    | some p =>
        -- the masked copy is searched
        have part : ∀ i, ((s.bitmap bin).and s.agingBitmap).test i = true →
            (s.bitmap bin).test i = true := by
          intro i set
          rw [Bmp256.test_and, Bool.and_eq_true] at set
          exact set.1
        obtain ⟨t, inside, priority, u, popped, linked', level, aging, iteration⟩ :=
          linked.popAge_of_masked
          (s.setBitmap bin ((s.bitmap bin).and s.agingBitmap)) found rfl rfl rfl part allowed
        have here : (s.setBitmap bin ((s.bitmap bin).and s.agingBitmap)).awaitingPriority bin =
            some p := (awaiting_setBitmap bin _).trans allowed
        have refreshed : s.refreshed = s := by simp [SchedPriorityq.refreshed, found, allowed]
        have result : s.popAge data = (some t, u) := by
          unfold SchedPriorityq.popAge
          simp only [found, here]
          exact popped
        have congr := age_congr s (s.setBitmap bin ((s.bitmap bin).and s.agingBitmap)) rfl rfl p
        refine ⟨bin, p, by simp [SchedPriorityq.serves, found, allowed], t, inside, priority, ?_⟩
        rw [result, refreshed]
        exact ⟨rfl, linked', level, aging.trans congr.1, iteration.trans congr.2⟩
    | none =>
        -- the ages start again, and the saved copy is searched
        have bitmap : ((s.setBitmap bin ((s.bitmap bin).and s.agingBitmap)).resetAge.setBitmap bin
            (s.bitmap bin)).bitmap = Function.update s.bitmap bin (s.bitmap bin) :=
          Function.update_idem _ _ _
        obtain ⟨t, inside, priority, u, popped, linked', level, aging, iteration⟩ :=
          linked.popAge_of_masked
          ((s.setBitmap bin ((s.bitmap bin).and s.agingBitmap)).resetAge.setBitmap bin (s.bitmap bin))
          found rfl rfl bitmap (fun _ set => set) awaiting
        have here : (s.setBitmap bin ((s.bitmap bin).and s.agingBitmap)).awaitingPriority bin =
            none := (awaiting_setBitmap bin _).trans allowed
        have again := (awaiting_setBitmap (s := (s.setBitmap bin
          ((s.bitmap bin).and s.agingBitmap)).resetAge) bin (s.bitmap bin)).trans awaiting
        have refreshed : s.refreshed = s.resetAge := by
          simp [SchedPriorityq.refreshed, found, allowed]
        have result : s.popAge data = (some t, u) := by
          unfold SchedPriorityq.popAge
          simp only [found, here, again]
          exact popped
        have congr := age_congr s.resetAge
          ((s.setBitmap bin ((s.bitmap bin).and s.agingBitmap)).resetAge.setBitmap bin (s.bitmap bin))
          rfl rfl p'
        refine ⟨bin, p', by simp [SchedPriorityq.serves, found, allowed], t, inside, priority, ?_⟩
        rw [result, refreshed]
        exact ⟨rfl, linked', level, aging.trans congr.1, iteration.trans congr.2⟩

end Linked

/-! ## Runs -/

section Runs

variable {Task : Type} [DecidableEq Task] {maxCriticality : ℕ} {s t : Sys Task}
  {act : Action Task}

/-- The run queue links the queued tasks, and what was pushed is queued or was taken, once. -/
structure Good (s : Sys Task) : Prop where
  linked : Linked s.q s.data s.queue
  counts : ∀ u, s.pushed.count u = s.taken.count u + s.queue.count u

theorem good_initial (data : Task → TaskMetadata) : Good (.initial data) :=
  ⟨linked_initial data, fun _ => rfl⟩

theorem count_erase_add (queue taken : List Task) {v : Task} (inside : v ∈ queue) (u : Task) :
    (taken ++ [v]).count u + (queue.erase v).count u = taken.count u + queue.count u := by
  by_cases same : u = v
  · subst same
    have positive := List.count_pos_iff.mpr inside
    rw [List.count_append, List.count_erase_self, List.count_singleton_self]
    omega
  · rw [List.count_append, List.count_erase_of_ne same, List.count_singleton]
    simp [Ne.symm same]

/-- A task leaves. -/
theorem Good.take (good : Good s) {u : Task} (inside : u ∈ s.queue) {q : SchedPriorityq Task}
    (linked : Linked q s.data (s.queue.erase u)) :
    Good { s with q := q, queue := s.queue.erase u, taken := s.taken ++ [u] } :=
  ⟨linked, fun v => (good.counts v).trans (count_erase_add s.queue s.taken inside v).symm⟩

theorem binLists_setMetadata (data : Task → TaskMetadata) {queue : List Task} {u : Task}
    (absent : u ∉ queue) (m : TaskMetadata) :
    binLists (Function.update data u m) queue = binLists data queue := by
  funext q
  simp only [binLists]
  congr 1
  refine List.filter_congr fun v inside => ?_
  rw [Function.update_of_ne fun same : v = u => absent (same ▸ inside)]

theorem step_good (good : Good s) (moved : step maxCriticality s act = some t) : Good t := by
  cases act with
  | push u =>
      obtain ⟨absent, ⟨⟩⟩ := Option.ite_none_right_eq_some.mp moved
      refine ⟨good.linked.push absent, fun v => ?_⟩
      have before := good.counts v
      simp only [List.count_append]
      omega
  | dequeue u =>
      obtain ⟨inside, ⟨⟩⟩ := Option.ite_none_right_eq_some.mp moved
      exact good.take inside (good.linked.dequeue inside)
  | pop =>
      rw [← Option.some.inj moved]
      unfold Sys.popped
      rcases good.linked.pop with ⟨_, result⟩ | ⟨u, inside, _, result⟩
      · rw [result]
        exact ⟨good.linked, good.counts⟩
      · rw [result]
        exact good.take inside (good.linked.dequeue inside)
  | popAge =>
      rw [← Option.some.inj moved]
      unfold Sys.popped
      rcases good.linked.popAge with ⟨_, result⟩ | ⟨_, _, _, u, inside, _, popped, linked, _⟩
      · rw [result]
        exact ⟨good.linked, good.counts⟩
      · rw [popped]
        exact good.take inside linked
  | setLevel criticality =>
      simp only [step] at moved
      split_ifs at moved <;> cases moved
      · exact ⟨⟨⟨good.linked.holds, good.linked.bits⟩, good.linked.nodup⟩, good.counts⟩
      · exact good
  | setMetadata u m =>
      obtain ⟨⟨absent, _⟩, ⟨⟩⟩ := Option.ite_none_right_eq_some.mp moved
      have lists := binLists_setMetadata s.data absent m
      refine ⟨⟨⟨?_, ?_⟩, good.linked.nodup⟩, good.counts⟩
      · rw [lists]
        exact good.linked.holds
      · rw [lists]
        exact good.linked.bits

theorem exec_good {data : Task → TaskMetadata} {run : List (Action Task)}
    (ran : exec (step maxCriticality) (.initial data) run = some s) : Good s :=
  exec_invariant (fun _ _ _ => step_good) (good_initial data) ran

/-- Two tasks in one order in a list of their priority are in that order in the queue. -/
theorem order_of_list {data : Task → TaskMetadata} {queue : List Task} {u v : Task} {i j : ℕ}
    {p : Priority} (order : [(u, i), (v, i)].Sublist (binLists data queue (i, p)))
    (first : j ≤ (data u).criticality) (second : j ≤ (data v).criticality) :
    [(u, j), (v, j)].Sublist (binLists data queue (j, p)) := by
  have tasks : [u, v].Sublist
      (queue.filter fun t => (data t).priority = p ∧ i ≤ (data t).criticality) := by
    have mapped := order.map Prod.fst
    simpa [binLists, Function.comp_def] using mapped
  have priorities : ∀ t ∈ [u, v], (data t).priority = p := by
    intro t inside
    have member := List.mem_filter.mp (tasks.subset inside)
    simp only [decide_eq_true_eq] at member
    exact member.2.1
  have kept : [u, v].filter (fun t => (data t).priority = p ∧ j ≤ (data t).criticality) = [u, v] := by
    refine List.filter_eq_self.mpr fun t inside => ?_
    have priority := priorities t inside
    rcases List.mem_cons.mp inside with rfl | rest
    · simpa using ⟨priority, first⟩
    · rw [List.mem_singleton] at rest
      subst rest
      simpa using ⟨priority, second⟩
  have both := (tasks.trans List.filter_sublist).filter
    fun t => decide ((data t).priority = p ∧ j ≤ (data t).criticality)
  rw [kept] at both
  exact both.map fun t => (t, j)

/-- **The run queue is linked exactly.**  In every reachable state: a queued task is linked once in
the list of its priority in each bin up to its criticality, and nowhere else; a bit is set where its
list is not empty; tasks of one priority are in the same order in all bins; what was pushed is
queued or was taken out, once; and the pops return a queued task unless there is none. -/
theorem run_queue_linked {data : Task → TaskMetadata} {run : List (Action Task)}
    (ran : exec (step maxCriticality) (.initial data) run = some s) :
    ∃ lists : ℕ × Priority → List (Task × ℕ), Holds s.q.dqs lists ∧
      (∀ u ∈ s.queue, ∀ i ≤ (s.data u).criticality,
        (lists (i, (s.data u).priority)).count (u, i) = 1) ∧
      (∀ u j i p, (u, j) ∈ lists (i, p) → u ∈ s.queue ∧ j = i ∧ p = (s.data u).priority ∧
        i ≤ (s.data u).criticality) ∧
      (∀ i p, (s.q.bitmap i).test p = true ↔ lists (i, p) ≠ []) ∧
      (∀ u v i j p, [(u, i), (v, i)].Sublist (lists (i, p)) → j ≤ (s.data u).criticality →
        j ≤ (s.data v).criticality → [(u, j), (v, j)].Sublist (lists (j, p))) ∧
      s.queue.Nodup ∧ (∀ u, s.pushed.count u = s.taken.count u + s.queue.count u) ∧
      (∀ result ∈ [s.q.pop s.data, s.q.popAge s.data],
        (result.1 = none ↔ s.queue = []) ∧ ∀ u, result.1 = some u → u ∈ s.queue) := by
  have good := exec_good ran
  refine ⟨binLists s.data s.queue, good.linked.holds, fun u inside i reaches => ?_,
    fun u j i p inside => ?_, good.linked.bits, fun u v i j p => order_of_list, good.linked.nodup,
    good.counts, fun result inside => ?_⟩
  · exact List.count_eq_one_of_mem (good.linked.holds.nodup _)
      (mem_binLists.mpr ⟨inside, rfl, rfl, reaches⟩)
  · obtain ⟨queued, node, priority, reaches⟩ := mem_binLists.mp inside
    exact ⟨queued, node, priority.symm, reaches⟩
  · have answered : ∀ answer : Option Task,
        (s.queue = [] ∧ answer = none ∨ ∃ u ∈ s.queue, answer = some u) →
        (answer = none ↔ s.queue = []) ∧ ∀ u, answer = some u → u ∈ s.queue := by
      rintro answer (⟨empty, rfl⟩ | ⟨u, queued, rfl⟩)
      · exact ⟨iff_of_true rfl empty, fun u none => by cases none⟩
      · refine ⟨iff_of_false (by simp) (List.ne_nil_of_mem queued), fun v same => ?_⟩
        cases same
        exact queued
    rcases List.mem_cons.mp inside with rfl | inside
    · apply answered
      rcases good.linked.pop with ⟨empty, popped⟩ | ⟨u, queued, _, popped⟩
      · exact .inl ⟨empty, by rw [popped]⟩
      · exact .inr ⟨u, queued, by rw [popped]⟩
    · rw [List.mem_singleton] at inside
      subst inside
      apply answered
      rcases good.linked.popAge with ⟨empty, popped⟩ | ⟨_, _, _, u, queued, _, popped, _⟩
      · exact .inl ⟨empty, by rw [popped]⟩
      · exact .inr ⟨u, queued, by rw [popped]⟩

/-- `sched_pop` in terms of the task a pop would take. -/
theorem Linked.schedPop {q : SchedPriorityq Task} {data : Task → TaskMetadata} {queue : List Task}
    (linked : Linked q data queue) (current : TaskMetadata) {u : Task}
    (popped : (q.pop data).1 = some u) : (q.schedPop data current).1 =
      if q.criticalityLevel ≤ current.criticality then
        if inBin data queue q.criticalityLevel ≠ [] ∧ current.priority ≤ (data u).priority then some u
        else none
      else if inBin data queue q.criticalityLevel ≠ [] ∨ current.priority ≤ (data u).priority then
        some u
      else none := by
  rcases linked.getBin_cases with ⟨none, _⟩ | ⟨bin, p, found, _, level⟩
  · simp [SchedPriorityq.pop, none] at popped
  · obtain ⟨v, _, priority, head⟩ := linked.awaiting_some (getBin_awaiting found)
    have result := pop_eq linked.holds found head
    rw [result] at popped
    cases popped
    unfold SchedPriorityq.schedPop
    rw [found, ← priority]
    simp only [level, result]
    split_ifs <;> rfl

theorem Linked.schedPop_nil {q : SchedPriorityq Task} {data : Task → TaskMetadata}
    (linked : Linked q data []) (current : TaskMetadata) : (q.schedPop data current).1 = none := by
  rcases linked.getBin_cases with ⟨none, _⟩ | ⟨bin, p, found, _⟩
  · simp [SchedPriorityq.schedPop, none]
  · obtain ⟨u, served, _⟩ := linked.awaiting_some (getBin_awaiting found)
    cases mem_of_frontTask served

theorem inBin_ne_nil {data : Task → TaskMetadata} {queue : List Task} {bin : ℕ} :
    inBin data queue bin ≠ [] ↔ ∃ u ∈ queue, bin ≤ (data u).criticality := by
  rw [inBin, ne_eq, List.filter_eq_nil_iff]
  simp

theorem candidates_eq (data : Task → TaskMetadata) (queue : List Task) (level : ℕ) :
    candidates data queue level = if ∃ u ∈ queue, level ≤ (data u).criticality then
      queue.filter fun u => level ≤ (data u).criticality else queue := by
  unfold candidates
  split_ifs with none reaches reaches
  · exact absurd none (inBin_ne_nil.mpr reaches)
  · rfl
  · rfl
  · exact absurd (inBin_ne_nil.mp none) reaches

/-- **Mixed-criticality selection.**  In every reachable state a pop returns the earliest of highest
priority among the queued tasks of criticality at least the level, or among all where there is none;
`sched_pop` keeps a current task of criticality at least the level from one below it, yields a
current task below the level to one that is not, and otherwise yields exactly to at least its
priority. -/
theorem mixed_criticality_selection {data : Task → TaskMetadata} {run : List (Action Task)}
    (ran : exec (step maxCriticality) (.initial data) run = some s) (current : TaskMetadata) :
    (match (s.q.pop s.data).1 with
      | none => s.queue = []
      | some u => PriorityFifo.IsFront (fun v => (s.data v).priority)
          (if ∃ v ∈ s.queue, s.q.criticalityLevel ≤ (s.data v).criticality then
            s.queue.filter fun v => s.q.criticalityLevel ≤ (s.data v).criticality
          else s.queue) u) ∧
    (∀ u, (s.q.schedPop s.data current).1 = some u → (s.q.pop s.data).1 = some u) ∧
    (s.q.criticalityLevel ≤ current.criticality → ∀ u, (s.q.schedPop s.data current).1 = some u →
      s.q.criticalityLevel ≤ (s.data u).criticality) ∧
    (current.criticality < s.q.criticalityLevel →
      (∃ v ∈ s.queue, s.q.criticalityLevel ≤ (s.data v).criticality) →
      ∃ u, (s.q.schedPop s.data current).1 = some u) ∧
    ((s.q.criticalityLevel ≤ current.criticality ↔
      ∃ v ∈ s.queue, s.q.criticalityLevel ≤ (s.data v).criticality) →
      ∀ u, (s.q.pop s.data).1 = some u →
        ((s.q.schedPop s.data current).1 = some u ↔ current.priority ≤ (s.data u).priority)) := by
  have good := exec_good ran
  rcases good.linked.pop with ⟨empty, result⟩ | ⟨u, inside, served, result⟩
  · have linked := good.linked
    rw [empty] at linked
    rw [result, linked.schedPop_nil current]
    exact ⟨empty, by simp, by simp, by simp [empty], by simp⟩
  · have popped : (s.q.pop s.data).1 = some u := by rw [result]
    have chosen := good.linked.schedPop current popped
    have isFront := PriorityFifo.isFront_of_front served
    rw [candidates_eq] at isFront
    simp only [inBin_ne_nil] at chosen
    rw [popped]
    refine ⟨isFront, fun v yields => ?_, fun high v yields => ?_, fun low reaches => ?_,
      fun same v eq => ?_⟩
    · rw [chosen] at yields
      split_ifs at yields <;> exact yields
    · rw [chosen, if_pos high] at yields
      split_ifs at yields with both
      cases yields
      have member := mem_of_frontTask served
      rw [candidates_eq, if_pos both.1] at member
      simpa using (List.mem_filter.mp member).2
    · rw [chosen, if_neg (Nat.not_le.mpr low), if_pos (.inl reaches)]
      exact ⟨u, rfl⟩
    · cases eq
      rw [chosen]
      by_cases high : s.q.criticalityLevel ≤ current.criticality
      · have reaches := same.mp high
        simp [high, reaches]
      · have none := mt same.mpr high
        rw [if_neg high]
        simp only [none, false_or]
        split_ifs with yields <;> simp [yields]

end Runs

/-- Task 0 reaches bin 1; task 2 has the highest priority. -/
def threeTasks : Fin 3 → TaskMetadata
  | 0 => ⟨5, 1⟩
  | 1 => ⟨5, 0⟩
  | 2 => ⟨7, 0⟩

def threeRun : List (Action (Fin 3)) := [.push 0, .push 1, .push 2, .popAge, .setLevel 1]

theorem run_queue_linked_three : ∃ s : Sys (Fin 3),
    exec (step 1) (.initial threeTasks) threeRun = some s ∧ s.queue = [0, 1] ∧ s.taken = [2] ∧
      ∀ u, s.pushed.count u = s.taken.count u + s.queue.count u := by
  have ran : ∃ s : Sys (Fin 3), exec (step 1) (.initial threeTasks) threeRun = some s ∧
      s.queue = [0, 1] ∧ s.taken = [2] := ⟨_, rfl, by decide, by decide⟩
  obtain ⟨s, ran, queue, taken⟩ := ran
  obtain ⟨_, _, _, _, _, _, _, counts, _⟩ := run_queue_linked ran
  exact ⟨s, ran, queue, taken, counts⟩

/-- At level 1 a current task of criticality 0 yields to task 0, which has a lower priority. -/
theorem mixed_criticality_selection_three : ∃ s : Sys (Fin 3),
    exec (step 1) (.initial threeTasks) threeRun = some s ∧
      ∃ u, (s.q.schedPop s.data ⟨200, 0⟩).1 = some u := by
  have ran : ∃ s : Sys (Fin 3), exec (step 1) (.initial threeTasks) threeRun = some s ∧
      s.q.criticalityLevel = 1 ∧ 0 ∈ s.queue ∧ (s.data 0).criticality = 1 :=
    ⟨_, rfl, rfl, by decide, rfl⟩
  obtain ⟨s, ran, level, inside, reaches⟩ := ran
  obtain ⟨_, _, _, yields, _⟩ := mixed_criticality_selection ran ⟨200, 0⟩
  refine ⟨s, ran, yields (by rw [level]; decide) ⟨0, inside, by rw [level, reaches]⟩⟩

end Twan.Kernel.SchedQueue
