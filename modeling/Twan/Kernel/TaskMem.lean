/-
# Twan.Kernel.TaskMem -- the memory of tasks

`__task_create` and `current_task_destroy_ipi` of `kernel/sched/task.c`, over the
runtime allocator of `subsys/mem/rtalloc.c` with the TLSF heap behind it.  The stack of
a task and its `struct task` are one aligned allocation, the memory pool; the structure
sits above the stack.

Of the structure, `Task` keeps the field that the exit reads.  Its words in memory are
the pool, which is the first of them, and whatever `task_init` makes of its arguments.
Which task exits is the scheduler's choice, and part of the action.

A pool comes from `rtalloc_p2aligned` and goes to `rtfree`, which takes the pointer for
one of `rtalloc`.  So the heap is kept in the runs in which no task with a pool exits
(`task_memory_runs`), and lost at the first exit of one (`exit_corrupts`).
-/
import Twan.Lib.TlsfRuns

namespace Twan.Kernel.TaskMem

set_option autoImplicit false

open Twan.Base Twan.Lib.TlsfAlloc

/-! ## The runtime allocator -/

/-- `rtalloc_p2aligned(size, alignment)`. -/
def rtallocP2aligned (t : Tlsf) (size alignment : ℕ) : Tlsf × ℕ := t.allocP2aligned size alignment

/-- `rtfree(addr)`. -/
def rtfree (t : Tlsf) (addr : ℕ) : Tlsf := t.free addr

/-! ## Tasks -/

/-- What the build and the machine fix. -/
structure Config where
  /-- `CONFIG_KERNEL_SCHED_TASK_STACK_SIZE`. -/
  stackSize : ℕ
  /-- `sizeof(struct task)`. -/
  taskSize : ℕ
  /-- `CONFIG_KERNEL_SCHED_NUM_CRITICALITIES`. -/
  numCriticalities : ℕ
  /-- The address of `current_task_destroy`. -/
  destroy : ℕ
  /-- `cpu_data(processor_id)` is there and active. -/
  active : ℕ → Bool
  stack : 2048 ≤ stackSize

/-- `struct task`: its address, and its memory pool or NULL. -/
structure Task where
  addr : ℕ
  mempool : ℕ
  deriving DecidableEq

inductive Errno where
  | inval
  | nomem
  deriving DecidableEq

/-- Word by word, `k` words from `a` on. -/
def storeWords (t : Tlsf) (a : ℕ) (words : ℕ → ℕ) : ℕ → Tlsf
  | 0 => t
  | k + 1 => (storeWords t a words k).write (a + 8 * k) (words k)

section Create

variable (c : Config) (t : Tlsf)

/-- The stores of `task_init`: the pool is the first word of the structure. -/
def taskInit (task mempool : ℕ) (fields : ℕ → ℕ) : Tlsf :=
  storeWords t task (fun i => if i = 0 then mempool else fields i) (c.taskSize / 8)

/-- `__task_create`. -/
def taskCreate (processorId criticality : ℕ) (fields : ℕ → ℕ) : Tlsf × Except Errno Task :=
  if criticality ≥ c.numCriticalities then (t, .error .nomem)
  else if c.active processorId = false then (t, .error .inval)
  else
    let res := rtallocP2aligned t (c.taskSize + c.stackSize) 16
    if res.2 = 0 then (res.1, .error .nomem)
    else
      let stackTop := res.2 + c.stackSize
      let t := res.1.write (stackTop - 8) c.destroy
      (taskInit c t stackTop res.2 fields, .ok ⟨stackTop, res.2⟩)

/-- What `current_task_destroy_ipi` does to the memory of the current task. -/
def currentTaskDestroyIpi (current : Task) : Tlsf :=
  if current.mempool ≠ 0 then rtfree t current.mempool else t

end Create

structure State where
  tlsf : Tlsf
  tasks : List Task

inductive Action where
  | create (processorId criticality : ℕ) (fields : ℕ → ℕ)
  /-- `task_init` of a task whose memory is not from the heap. -/
  | worker (addr : ℕ)
  /-- A task, or the kernel for it, stores a word into its memory pool. -/
  | store (addr value : ℕ)
  | exit (task : Task)

/-- What a memory pool is to the allocator. -/
def pool (c : Config) (task : Task) : Live := ⟨task.mempool, c.taskSize + c.stackSize, true⟩

/-- The memory pools of these tasks. -/
def pools (c : Config) (tasks : List Task) : List Live :=
  (tasks.filter fun task => task.mempool ≠ 0).map (pool c)

def step (c : Config) (s : State) : Action → Option State
  | .create processorId criticality fields =>
      match taskCreate c s.tlsf processorId criticality fields with
      | (t, .ok task) => some ⟨t, task :: s.tasks⟩
      | (t, .error _) => some ⟨t, s.tasks⟩
  | .worker addr => some ⟨s.tlsf, ⟨addr, 0⟩ :: s.tasks⟩
  | .store addr value =>
      if (pools c s.tasks).any (owns addr) then some ⟨s.tlsf.write addr value, s.tasks⟩ else none
  | .exit task =>
      if task ∈ s.tasks then some ⟨currentTaskDestroyIpi s.tlsf task, s.tasks.erase task⟩ else none

/-! ## The property -/

/-- The heap is sound and its blocks in use are those of the tasks' memory pools, one for
each and no others. -/
def Recycled (c : Config) (s : State) : Prop :=
  ∃ bs vs, Sound s.tlsf bs ∧ Served s.tlsf bs (pools c s.tasks) vs

/-- The memory pools of the tasks that stay hold the same, but for a word that is stored. -/
def Untouched (c : Config) (s : State) (a : Action) (s' : State) : Prop :=
  ∀ e ∈ pools c s.tasks, e ∈ pools c s'.tasks → ∀ x, e.ptr ≤ x → x < e.ptr + e.size →
    (∀ value, a ≠ .store x value) → s'.tlsf.mem x = s.tlsf.mem x

/-- No task with a memory pool exits. -/
def NoPoolExit (_ : State) : Action → Prop
  | .exit task => task.mempool = 0
  | _ => True

section Runs

variable {c : Config} {t : Tlsf} {live : List Live} {e : Live}

theorem pools_cons {task : Task} {tasks : List Task} : pools c (task :: tasks) =
    if task.mempool = 0 then pools c tasks else pool c task :: pools c tasks := by
  by_cases null : task.mempool = 0 <;> simp [pools, null]

theorem Backed.storeWords {a k : ℕ} (backed : Backed t live) (inside : e ∈ live) (words : ℕ → ℕ)
    (low : e.ptr ≤ a) (high : a + 8 * k ≤ e.ptr + e.size) :
    Backed (storeWords t a words k) live := by
  induction k with
  | zero => exact backed
  | succ k ih =>
      refine (Backed.step_store (s := ⟨_, live⟩) (ih (by omega)) ?_).backed
      refine List.any_eq_true.mpr ⟨e, inside, ?_⟩
      simp only [owns, Bool.and_eq_true, decide_eq_true_eq]
      omega

theorem storeWords_mem {a k x : ℕ} (words : ℕ → ℕ) (outside : x < a ∨ a + 8 * k ≤ x) :
    (storeWords t a words k).mem x = t.mem x := by
  induction k with
  | zero => rfl
  | succ k ih =>
      rw [storeWords, write_mem, if_neg (by omega)]
      exact ih (by omega)

/-- `__task_create` adds the pool of the new task, if there is one, and leaves the others
alone. -/
theorem create_backed {tasks : List Task} {t' : Tlsf} {r : Except Errno Task}
    {processorId criticality : ℕ} {fields : ℕ → ℕ} (backed : Backed t (pools c tasks))
    (called : taskCreate c t processorId criticality fields = (t', r)) :
    (∀ task, r = .ok task → Backed t' (pools c (task :: tasks))) ∧
      (∀ err, r = .error err → Backed t' (pools c tasks)) ∧
      ∀ e ∈ pools c tasks, Undisturbed t t' e := by
  unfold taskCreate rtallocP2aligned at called
  split at called
  · cases called
    exact ⟨fun _ ok => (by cases ok), fun _ _ => backed, fun _ _ _ _ _ => rfl⟩
  split at called
  · cases called
    exact ⟨fun _ ok => (by cases ok), fun _ _ => backed, fun _ _ _ _ _ => rfl⟩
  dsimp only at called
  have stepped := Backed.step_allocP2aligned (s := ⟨t, pools c tasks⟩) backed (c.taskSize + c.stackSize)
    (by decide : 16 ≠ 0)
  have allocated := stepped.backed
  have kept := stepped.kept
  unfold State.give at allocated kept
  dsimp only at allocated kept
  split at called
  · rename_i null
    cases called
    rw [if_pos null] at allocated kept
    exact ⟨fun _ ok => (by cases ok), fun _ _ => allocated,
      fun e inside x low high => kept e inside inside x low high id⟩
  rename_i found
  cases called
  rw [if_neg found] at allocated kept
  generalize (t.allocP2aligned (c.taskSize + c.stackSize) 16).1 = u at *
  generalize (t.allocP2aligned (c.taskSize + c.stackSize) 16).2 = p at *
  have stack := c.stack
  have own : (⟨p, c.taskSize + c.stackSize, true⟩ : Live) ∈
      ⟨p, c.taskSize + c.stackSize, true⟩ :: pools c tasks := List.mem_cons_self
  have pushed : Backed (u.write (p + c.stackSize - 8) c.destroy)
      (⟨p, c.taskSize + c.stackSize, true⟩ :: pools c tasks) := by
    refine (Backed.step_store (s := ⟨u, _⟩) allocated (List.any_eq_true.mpr ⟨_, own, ?_⟩)).backed
    simp only [owns, Bool.and_eq_true, decide_eq_true_eq]
    omega
  have filled := Backed.storeWords (a := p + c.stackSize) (k := c.taskSize / 8) pushed own
    (fun i => if i = 0 then p else fields i) (by dsimp only; omega) (by dsimp only; omega)
  refine ⟨?_, fun _ error => (by cases error), ?_⟩
  · intro task ok
    cases ok
    rw [pools_cons, if_neg found]
    exact filled
  · intro e inside x low high
    -- the new pool and the old ones are apart
    obtain ⟨bs, vs, -, served⟩ := allocated.served
    have apart := (List.pairwise_cons.mp served.disjoint).1 e inside
    dsimp only at apart
    unfold taskInit
    rw [storeWords_mem _ (by omega), write_mem, if_neg (by omega)]
    exact kept e inside (List.mem_cons_of_mem _ inside) x low high id

/-- A step that is not the exit of a task with a memory pool. -/
theorem step_backed {s s' : State} {a : Action} (backed : Backed s.tlsf (pools c s.tasks))
    (allowed : NoPoolExit s a) (moved : step c s a = some s') :
    Backed s'.tlsf (pools c s'.tasks) ∧ Untouched c s a s' := by
  cases a with
  | create processorId criticality fields =>
      simp only [step] at moved
      split at moved
      · rename_i t' task called
        cases moved
        obtain ⟨ok, -, kept⟩ := create_backed backed called
        exact ⟨ok task rfl, fun e inside _ x low high _ => kept e inside x low high⟩
      · rename_i t' err called
        cases moved
        obtain ⟨-, error, kept⟩ := create_backed backed called
        exact ⟨error err rfl, fun e inside _ x low high _ => kept e inside x low high⟩
  | worker addr =>
      cases moved
      dsimp only
      rw [pools_cons, if_pos rfl]
      exact ⟨backed, fun _ _ _ _ _ _ _ => rfl⟩
  | store addr value =>
      simp only [step] at moved
      split at moved
      · rename_i owned
        cases moved
        have stepped : Stepped ⟨s.tlsf, pools c s.tasks⟩ (.store addr value)
            ⟨s.tlsf.write addr value, pools c s.tasks⟩ := Backed.step_store backed owned
        refine ⟨stepped.backed, fun e inside still x low high other => ?_⟩
        exact stepped.kept e inside still x low high fun same => other value (by rw [same])
      · cases moved
  | exit task =>
      simp only [step] at moved
      split at moved
      · rename_i inside
        cases moved
        have null : task.mempool = 0 := allowed
        obtain ⟨l, r, -, list, erased⟩ := List.exists_erase_eq inside
        have same : pools c (s.tasks.erase task) = pools c s.tasks := by
          rw [erased, list]
          simp [pools, null]
        dsimp only
        rw [same, currentTaskDestroyIpi, if_neg (not_not.mpr null)]
        exact ⟨backed, fun _ _ _ _ _ _ _ => rfl⟩
      · cases moved

/-- **Task memory is recycled in every run in which no task with a memory pool exits**: the
heap keeps its block structure, its blocks in use are those of the tasks, and no step
changes the memory of another task. -/
theorem task_memory_runs (c : Config) {start size : ℕ} (given : Given start size)
    (zeroed : Zeroed t start size) :
    ∃ fresh, t.init start size = some fresh ∧ ∀ run s, Along NoPoolExit (step c) ⟨fresh, []⟩ run →
      exec (step c) ⟨fresh, []⟩ run = some s → Recycled c s ∧
        ∀ a s', NoPoolExit s a → step c s a = some s' → Untouched c s a s' := by
  obtain ⟨fresh, accepted, valid, -⟩ := init_valid given zeroed
  refine ⟨fresh, accepted, fun run s allowed ran => ?_⟩
  have backed : Backed s.tlsf (pools c s.tasks) := by
    refine exec_invariant_along (I := fun s => Backed s.tlsf (pools c s.tasks)) ?_
      ⟨[], [], valid, .nil, .nil⟩ allowed ran
    intro s a s' backed allowed moved
    exact (step_backed backed allowed moved).1
  exact ⟨backed.served, fun a s' allowed moved => (step_backed backed allowed moved).2⟩

/-! ## One task on a heap of 64 KiB -/

/-- The default configuration, on one processor. -/
def sample : Config :=
  { stackSize := 2048, taskSize := 880, numCriticalities := 5, destroy := 0x101000,
    active := fun processorId => processorId == 0, stack := by decide }

theorem given_sample : Given (2 ^ 20) (2 ^ 16) := by
  constructor <;> decide

theorem task_memory_runs_sample :
    ∃ fresh, zeros.init (2 ^ 20) (2 ^ 16) = some fresh ∧
      ∀ run s, Along NoPoolExit (step sample) ⟨fresh, []⟩ run →
        exec (step sample) ⟨fresh, []⟩ run = some s → Recycled sample s ∧
          ∀ a s', NoPoolExit s a → step sample s a = some s' → Untouched sample s a s' :=
  task_memory_runs sample given_sample (zeroed_zeros _ _)

/-- The heap as `__tlsf_init` leaves it. -/
def fresh : Tlsf := (zeros.init (2 ^ 20) (2 ^ 16)).getD zeros

/-- `rip`, `rsp`, `rbp` and `rflags` of the new task. -/
def fields (i : ℕ) : ℕ :=
  if i = 19 then 0x102000 else if i = 16 ∨ i = 17 then 2 ^ 20 + 2088 else if i = 18 then 0x202 else 0

def task : Task := ⟨2 ^ 20 + 2096, 2 ^ 20 + 48⟩

/-- After `__task_create`. -/
def created : Tlsf := (taskCreate sample fresh 0 0 fields).1

/-- After the exit of the task. -/
def exited : Tlsf := currentTaskDestroyIpi created task

theorem create_ok {processorId criticality : ℕ} {fields : ℕ → ℕ} {s : State} {task : Task}
    (ok : (taskCreate c s.tlsf processorId criticality fields).2.toOption = some task) :
    step c s (.create processorId criticality fields) =
      some ⟨(taskCreate c s.tlsf processorId criticality fields).1, task :: s.tasks⟩ := by
  simp only [step]
  generalize taskCreate c s.tlsf processorId criticality fields = res at ok
  obtain ⟨t, r⟩ := res
  cases r with
  | ok made =>
      cases ok
      rfl
  | error err => cases ok

/-- The blocks that the headers describe after the exit: nothing there has changed. -/
def stillInUse : List Blk :=
  [{ addr := 2 ^ 20, size := 2960, free := false, prevFree := false, listed := false },
   { addr := 2 ^ 20 + 2992, size := 62512, free := true, prevFree := false, listed := true }]

/-- The exit of the one task takes the address 32 bytes below its pool for a block: the real
block stays in use, and the bin of size 0 gets an entry that is none. -/
theorem exit_corrupts : zeros.init (2 ^ 20) (2 ^ 16) = some fresh ∧
    exec (step sample) ⟨fresh, []⟩ [.create 0 0 fields, .exit task] = some ⟨exited, []⟩ ∧
    ¬ Recycled sample ⟨exited, []⟩ := by
  refine ⟨rfl, ?_, ?_⟩
  · have first : step sample ⟨fresh, []⟩ (.create 0 0 fields) = some ⟨created, [task]⟩ :=
      create_ok (by decide +kernel)
    have second : step sample ⟨created, [task]⟩ (.exit task) = some ⟨exited, []⟩ := by
      simp [step, exited]
    rw [exec, first, Option.bind_some, exec, second]
    rfl
  · rintro ⟨bs, vs, sound, -⟩
    have tags : Tags exited.mem 0 exited.heapStart stillInUse exited.heapEnd := by decide +kernel
    have same : bs = stillInUse := sound.eq_of_tags tags (by decide)
    subst same
    obtain ⟨bins, ok⟩ := sound.heap.bins
    have head : exited.blocks 0 0 = 2 ^ 20 + 16 := by decide +kernel
    obtain ⟨b, inside, addr, -⟩ := sound.heap.first ok (f := 0) (s := 0) (by rw [head]; decide)
    dsimp only at addr
    rw [head] at addr
    have none_ : ∀ b ∈ stillInUse, b.addr ≠ 2 ^ 20 + 16 := by decide
    exact none_ b inside addr

end Runs

end Twan.Kernel.TaskMem
