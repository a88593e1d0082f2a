/-
# Twan.Vsched.RunQueue -- the mixed-criticality run queues

`src/subsys/twanvisor/vsched/vsched_dsa.c` in the build with
`CONFIG_TWANVISOR_VSCHED_MCQS`, and `__vsched_put`, `__vsched_put_paused` and
`__vsched_get` of `vsched.c`.  A ready vcpu of criticality `c` is threaded through
the `c + 1` queues `queues[0..c]` of its scheduler at once, with one node of
`vsched_nodes` in each; a paused vcpu is in `paused_queue` with its first node.

`__vsched_pop` takes a vcpu out of the one bucket it was found in.  That is all of
its queues only when its criticality is 0; otherwise the vcpu runs while it is still
linked in the others (`popped_vcpu_still_linked`).  `run_queues_filed` is what holds
in every run where the vcpus that are popped have criticality 0.
-/
import Twan.Base.Run
import Twan.Lib.Dq
import Twan.Vsched.Vcpu

namespace Twan.Vsched.RunQueue

set_option autoImplicit false

open Twan.Base Twan.Lib.Dq

/-- The queues of `struct vscheduler`, for every CPU. -/
inductive Queue (Cpu : Type) where
  | queues (cpu : Cpu) (level : Nat)
  | pausedQueue (cpu : Cpu)
  deriving DecidableEq

/-- The fields of `vsched_metadata` that the queues depend on. -/
structure VschedMetadata where
  state : VcpuState
  criticality : Nat

/-- The vcpus of all schedulers, their nodes and queues, and the criticality level
of each CPU.  A node is named by its vcpu and its index in `vsched_nodes`. -/
structure Sys (Cpu V : Type) where
  vcpu : V → VschedMetadata
  dqs : Dqs (Queue Cpu) (V × Nat)
  level : Cpu → Nat

section Model

variable {Cpu V : Type} [DecidableEq Cpu] [DecidableEq V]

/-- `vsched_node_to_vcpu(node, criticality)`: the vcpu whose node of this index it is. -/
def nodeToVcpu (n : V × Nat) (criticality : Nat) : Option V :=
  if n.2 = criticality then some n.1 else none

namespace Sys

variable (home : V → Cpu) (s : Sys Cpu V)

def setVcpu (v : V) (m : VschedMetadata) : Sys Cpu V :=
  { s with vcpu := Function.update s.vcpu v m }

def setState (v : V) (state : VcpuState) : Sys Cpu V :=
  s.setVcpu v { s.vcpu v with state := state }

/-- `__vsched_get_bucket(&criticality)`, on `cpu`. -/
def getBucket (cpu : Cpu) : Option Nat :=
  if (s.dqs.peekfront (.queues cpu (s.level cpu))).isSome then some (s.level cpu)
  else if s.level cpu = 0 then none
  else if (s.dqs.peekfront (.queues cpu 0)).isSome then some 0
  else none

/-- The first `n` iterations of the loop of `__vsched_push`. -/
def pushLoop (v : V) : Nat → Dqs (Queue Cpu) (V × Nat)
  | 0 => s.dqs
  | n + 1 => (pushLoop v n).pushback (.queues (home v) n) (v, n)

/-- `__vsched_push(vcpu)`. -/
def push (v : V) : Sys Cpu V :=
  { s with dqs := s.pushLoop home v ((s.vcpu v).criticality + 1) }

/-- `__vsched_push_paused(vcpu)`. -/
def pushPaused (v : V) : Sys Cpu V :=
  { s with dqs := s.dqs.pushback (.pausedQueue (home v)) (v, 0) }

/-- `__vsched_pop()`, on `cpu`. -/
def pop (cpu : Cpu) : Option V × Sys Cpu V :=
  match s.getBucket cpu with
  | none => (none, s)
  | some criticality =>
      match s.dqs.popfront (.queues cpu criticality) with
      | (none, dqs) => (none, { s with dqs := dqs })
      | (some n, dqs) => (nodeToVcpu n criticality, { s with dqs := dqs })

/-- The first `n` iterations of the loop of `__vsched_dequeue`. -/
def dequeueLoop (v : V) : Nat → Dqs (Queue Cpu) (V × Nat)
  | 0 => s.dqs
  | n + 1 =>
      if (dequeueLoop v n).isQueued (.queues (home v) n) (v, n) then
        (dequeueLoop v n).dequeue (.queues (home v) n) (v, n)
      else dequeueLoop v n

/-- `__vsched_dequeue(vcpu)`. -/
def dequeue (v : V) : Sys Cpu V :=
  { s with dqs := s.dequeueLoop home v ((s.vcpu v).criticality + 1) }

/-- `__vsched_dequeue_paused(vcpu)`. -/
def dequeuePaused (v : V) : Sys Cpu V :=
  if s.dqs.isQueued (.pausedQueue (home v)) (v, 0) then
    { s with dqs := s.dqs.dequeue (.pausedQueue (home v)) (v, 0) }
  else s

/-- `__vsched_unpause(vcpu)`. -/
def unpause (v : V) : Sys Cpu V :=
  ((s.dequeuePaused home v).setState v .ready).push home v

/-- `__vsched_update_criticality(vcpu, criticality)`. -/
def updateCriticality (v : V) (criticality : Nat) : Sys Cpu V :=
  if (s.vcpu v).state = .ready then
    ((s.dequeue home v).setVcpu v { s.vcpu v with criticality := criticality }).push home v
  else s.setVcpu v { s.vcpu v with criticality := criticality }

/-- `__vsched_put(vcpu, ..)`. -/
def put (v : V) : Sys Cpu V :=
  (s.setState v .ready).push home v

/-- `__vsched_put_paused(vcpu, pv_spin, ..)`. -/
def putPaused (v : V) (pvSpin : Bool) : Sys Cpu V :=
  (s.setState v (if pvSpin then .pvSpinning else .paused)).pushPaused home v

/-- `__vsched_get(ctx)`, on `cpu`; `vsched_enter_ctx` sets the state. -/
def get (cpu : Cpu) : Sys Cpu V :=
  match s.pop cpu with
  | (none, s) => s
  | (some v, s) => s.setState v .transitioning

end Sys

/-- What happens to the queues, each under the lock of the scheduler: the calls above
with what their callers check, the moves of a vcpu that is on its CPU, and changes
of a criticality level. -/
inductive Action (Cpu V : Type) where
  | put (v : V)
  | putPaused (v : V) (pvSpin : Bool)
  | get (cpu : Cpu)
  | enter (v : V)
  | exit (v : V)
  | unpause (v : V)
  | dequeue (v : V)
  | dequeuePaused (v : V)
  | recover (v : V)
  | updateCriticality (v : V) (criticality : Nat)
  | writeLevel (cpu : Cpu) (level : Nat)

/-- `maxCriticality` is `VSCHED_MAX_CRITICALITY`.  A vcpu is put when it is created
or leaves its CPU; a teardown dequeues a ready or paused vcpu and terminates it, and
a vcpu on a CPU terminates itself. -/
def step (home : V → Cpu) (maxCriticality : Nat) (s : Sys Cpu V) :
    Action Cpu V → Option (Sys Cpu V)
  | .put v =>
      match (s.vcpu v).state with
      | .initializing | .transitioning => some (s.put home v)
      | _ => none
  | .putPaused v pvSpin =>
      match (s.vcpu v).state with
      | .initializing | .transitioning => some (s.putPaused home v pvSpin)
      | _ => none
  | .get cpu => some (s.get cpu)
  | .enter v =>
      match (s.vcpu v).state with
      | .transitioning => some (s.setState v .running)
      | _ => none
  | .exit v =>
      match (s.vcpu v).state with
      | .running => some (s.setState v .transitioning)
      | _ => none
  | .unpause v =>
      match (s.vcpu v).state with
      | .paused | .pvSpinning => some (s.unpause home v)
      | _ => none
  | .dequeue v =>
      match (s.vcpu v).state with
      | .ready => some ((s.dequeue home v).setState v .terminated)
      | _ => none
  | .dequeuePaused v =>
      match (s.vcpu v).state with
      | .paused | .pvSpinning => some ((s.dequeuePaused home v).setState v .terminated)
      | _ => none
  | .recover v =>
      match (s.vcpu v).state with
      | .running | .transitioning | .initializing => some (s.setState v .terminated)
      | _ => none
  | .updateCriticality v criticality =>
      if criticality ≤ maxCriticality then some (s.updateCriticality home v criticality) else none
  | .writeLevel cpu level =>
      if level ≤ maxCriticality then some { s with level := Function.update s.level cpu level }
      else none

/-- No vcpu is queued yet, and every criticality is in range. -/
structure Initial (maxCriticality : Nat) (s : Sys Cpu V) : Prop where
  empty : s.dqs = Dqs.empty
  loose : ∀ v, (s.vcpu v).state.isQueued = false
  criticality : ∀ v, (s.vcpu v).criticality ≤ maxCriticality
  level : ∀ cpu, s.level cpu ≤ maxCriticality

end Model

/-! ## Where the nodes are -/

section Filing

variable {Cpu V : Type}

/-- A ready vcpu of criticality `c` belongs in `queues[0..c]` with the node of the same
index, a paused or spinning one in `paused_queue` with its first node, and any other
vcpu nowhere. -/
def Belongs (home : V → Cpu) (s : Sys Cpu V) (n : V × Nat) : Queue Cpu → Prop
  | .queues cpu level => cpu = home n.1 ∧ n.2 = level ∧
      (s.vcpu n.1).state = .ready ∧ level ≤ (s.vcpu n.1).criticality
  | .pausedQueue cpu => cpu = home n.1 ∧ n.2 = 0 ∧
      ((s.vcpu n.1).state = .paused ∨ (s.vcpu n.1).state = .pvSpinning)

/-- The queues are well-formed lists without repetitions, and hold exactly the nodes that
belong there. -/
def Files (home : V → Cpu) (s : Sys Cpu V) : Prop :=
  ∃ contents, Holds s.dqs contents ∧ ∀ n q, n ∈ contents q ↔ Belongs home s n q

/-- So they do but for the nodes of `v`, which are in no queue. -/
def FilesBut (home : V → Cpu) (v : V) (s : Sys Cpu V) : Prop :=
  ∃ contents, Holds s.dqs contents ∧ ∀ n q, n ∈ contents q ↔ n.1 ≠ v ∧ Belongs home s n q

/-- The invariant: the nodes are where they belong, and every index into the arrays of
queues and nodes is in range. -/
structure Filed (home : V → Cpu) (maxCriticality : Nat) (s : Sys Cpu V) : Prop where
  filing : Files home s
  criticality : ∀ v, (s.vcpu v).criticality ≤ maxCriticality
  level : ∀ cpu, s.level cpu ≤ maxCriticality

theorem not_belongs {home : V → Cpu} {s : Sys Cpu V} {n : V × Nat} {q : Queue Cpu}
    (loose : (s.vcpu n.1).state.isQueued = false) : ¬ Belongs home s n q := by
  intro belongs
  cases q with
  | queues cpu level => simp [belongs.2.2.1, VcpuState.isQueued] at loose
  | pausedQueue cpu => rcases belongs.2.2 with e | e <;> simp [e, VcpuState.isQueued] at loose

theorem filed_initial {home : V → Cpu} {maxCriticality : Nat} {s : Sys Cpu V}
    (initial : Initial maxCriticality s) : Filed home maxCriticality s where
  filing := by
    refine ⟨fun _ => [], ?_, ?_⟩
    · rw [initial.empty]
      exact holds_empty
    · intro n q
      simpa using not_belongs (initial.loose n.1)
  criticality := initial.criticality
  level := initial.level

variable [DecidableEq Cpu] [DecidableEq V] {home : V → Cpu}

/-- The nodes of a vcpu that is in no queue go into the first `n` queues. -/
theorem pushLoop_holds (home : V → Cpu) {s : Sys Cpu V} {contents : Queue Cpu → List (V × Nat)} {v : V}
    (holds : Holds s.dqs contents) (outside : ∀ i q, (v, i) ∉ contents q) (n : Nat) :
    ∃ contents', Holds (s.pushLoop home v n) contents' ∧ ∀ m q, m ∈ contents' q ↔
      m ∈ contents q ∨ ∃ i < n, m = (v, i) ∧ q = .queues (home v) i := by
  induction n with
  | zero => exact ⟨contents, holds, by simp⟩
  | succ n ih =>
      obtain ⟨pushed, holds', members⟩ := ih
      have fresh : ∀ q, (v, n) ∉ pushed q := by
        intro q inside
        rcases (members _ q).mp inside with old | ⟨i, less, e, -⟩
        · exact outside n q old
        · cases e
          exact Nat.lt_irrefl n less
      refine ⟨_, holds'.pushback fresh, ?_⟩
      intro m q
      rw [mem_update]
      by_cases here : q = .queues (home v) n
      · subst here
        simp only [List.mem_append, List.mem_singleton, members, ne_eq, not_true_eq_false, false_and,
          true_and, or_false]
        constructor
        · rintro ((old | ⟨i, less, e⟩) | e)
          · exact .inl old
          · exact .inr ⟨i, Nat.lt_succ_of_lt less, e⟩
          · exact .inr ⟨n, Nat.lt_succ_self n, e, rfl⟩
        · rintro (old | ⟨i, -, e, there⟩)
          · exact .inl (.inl old)
          · cases there
            exact .inr e
      · simp only [here, members, ne_eq, not_false_eq_true, false_and, true_and, false_or]
        constructor
        · rintro (old | ⟨i, less, e⟩)
          · exact .inl old
          · exact .inr ⟨i, Nat.lt_succ_of_lt less, e⟩
        · rintro (old | ⟨i, less, e, there⟩)
          · exact .inl old
          · have other : i ≠ n := fun same => here (same ▸ there)
            exact .inr ⟨i, by omega, e, there⟩

/-- The nodes of a vcpu that is in the first `n` queues come out of them. -/
theorem dequeueLoop_holds {s : Sys Cpu V} {contents : Queue Cpu → List (V × Nat)} {v : V}
    (holds : Holds s.dqs contents) {n : Nat}
    (inside : ∀ i < n, (v, i) ∈ contents (.queues (home v) i)) :
    ∃ contents', Holds (s.dequeueLoop home v n) contents' ∧ ∀ m q, m ∈ contents' q ↔
      m ∈ contents q ∧ ¬ ∃ i < n, m = (v, i) ∧ q = .queues (home v) i := by
  induction n with
  | zero => exact ⟨contents, holds, by simp⟩
  | succ n ih =>
      obtain ⟨left, holds', members⟩ := ih fun i less => inside i (Nat.lt_succ_of_lt less)
      have here : (v, n) ∈ left (.queues (home v) n) := by
        refine (members _ _).mpr ⟨inside n (Nat.lt_succ_self n), ?_⟩
        rintro ⟨i, less, e, -⟩
        cases e
        exact Nat.lt_irrefl n less
      have result : s.dequeueLoop home v (n + 1) =
          (s.dequeueLoop home v n).dequeue (.queues (home v) n) (v, n) := by
        rw [Sys.dequeueLoop, if_pos (holds'.isQueued_of_mem here)]
      refine ⟨_, result ▸ holds'.dequeue here, ?_⟩
      · intro m q
        rw [mem_update]
        by_cases there : q = .queues (home v) n
        · subst there
          simp only [List.mem_filter, decide_eq_true_eq, members, ne_eq, not_true_eq_false, false_and,
            true_and, or_false]
          constructor
          · rintro ⟨⟨old, notBefore⟩, other⟩
            refine ⟨old, ?_⟩
            rintro ⟨i, less, e, same⟩
            cases same
            exact other e
          · rintro ⟨old, gone⟩
            refine ⟨⟨old, ?_⟩, fun e => gone ⟨n, Nat.lt_succ_self n, e, rfl⟩⟩
            rintro ⟨i, less, e, same⟩
            exact gone ⟨i, Nat.lt_succ_of_lt less, e, same⟩
        · simp only [there, members, ne_eq, not_false_eq_true, false_and, true_and, false_or]
          refine and_congr_right fun _ => not_congr ?_
          constructor
          · rintro ⟨i, less, e⟩
            exact ⟨i, Nat.lt_succ_of_lt less, e⟩
          · rintro ⟨i, less, e, same⟩
            have other : i ≠ n := fun h => there (h ▸ same)
            exact ⟨i, by omega, e, same⟩

/-! ## Out of the queues and back -/

variable {s : Sys Cpu V} {v : V}

omit [DecidableEq Cpu] [DecidableEq V] in
theorem Files.but (files : Files home s) (loose : (s.vcpu v).state.isQueued = false) :
    FilesBut home v s := by
  obtain ⟨contents, holds, members⟩ := files
  refine ⟨contents, holds, fun n q => ?_⟩
  rw [members]
  constructor
  · intro belongs
    refine ⟨?_, belongs⟩
    rintro rfl
    exact not_belongs loose belongs
  · exact And.right

omit [DecidableEq Cpu] [DecidableEq V] in
theorem FilesBut.files (but : FilesBut home v s) (loose : (s.vcpu v).state.isQueued = false) :
    Files home s := by
  obtain ⟨contents, holds, members⟩ := but
  refine ⟨contents, holds, fun n q => ?_⟩
  rw [members]
  constructor
  · exact And.right
  · intro belongs
    refine ⟨?_, belongs⟩
    rintro rfl
    exact not_belongs loose belongs

omit [DecidableEq Cpu] in
theorem belongs_setVcpu {m : VschedMetadata} {n : V × Nat} {q : Queue Cpu} (other : n.1 ≠ v) :
    Belongs home (s.setVcpu v m) n q ↔ Belongs home s n q := by
  have same : (s.setVcpu v m).vcpu n.1 = s.vcpu n.1 := Function.update_of_ne other ..
  cases q <;> simp [Belongs, same]

omit [DecidableEq Cpu] in
theorem FilesBut.setVcpu (but : FilesBut home v s) (m : VschedMetadata) :
    FilesBut home v (s.setVcpu v m) := by
  obtain ⟨contents, holds, members⟩ := but
  refine ⟨contents, holds, fun n q => ?_⟩
  rw [members]
  exact and_congr_right fun other => (belongs_setVcpu other).symm

theorem FilesBut.push (but : FilesBut home v s) (ready : (s.vcpu v).state = .ready) :
    Files home (s.push home v) := by
  obtain ⟨contents, holds, members⟩ := but
  have outside : ∀ i q, (v, i) ∉ contents q := fun i q inside => ((members _ q).mp inside).1 rfl
  obtain ⟨pushed, holds', members'⟩ :=
    pushLoop_holds home holds outside ((s.vcpu v).criticality + 1)
  refine ⟨pushed, holds', fun n q => ?_⟩
  show _ ↔ Belongs home s n q
  rw [members', members]
  constructor
  · rintro (⟨-, belongs⟩ | ⟨i, less, rfl, rfl⟩)
    · exact belongs
    · exact ⟨rfl, rfl, ready, Nat.le_of_lt_succ less⟩
  · intro belongs
    by_cases same : n.1 = v
    · subst same
      refine .inr ?_
      cases q with
      | queues cpu level =>
          obtain ⟨here, index, -, most⟩ := belongs
          exact ⟨level, Nat.lt_succ_of_le most, Prod.ext rfl index, by rw [here]⟩
      | pausedQueue cpu => rcases belongs.2.2 with e | e <;> simp [ready] at e
    · exact .inl ⟨same, belongs⟩

theorem FilesBut.pushPaused (but : FilesBut home v s)
    (paused : (s.vcpu v).state = .paused ∨ (s.vcpu v).state = .pvSpinning) :
    Files home (s.pushPaused home v) := by
  obtain ⟨contents, holds, members⟩ := but
  have outside : ∀ q, (v, 0) ∉ contents q := fun q inside => ((members _ q).mp inside).1 rfl
  refine ⟨_, holds.pushback outside, fun n q => ?_⟩
  show _ ↔ Belongs home s n q
  rw [mem_update, List.mem_append, List.mem_singleton, members, members]
  constructor
  · rintro (⟨rfl, ⟨-, belongs⟩ | rfl⟩ | ⟨-, -, belongs⟩)
    · exact belongs
    · exact ⟨rfl, rfl, paused⟩
    · exact belongs
  · intro belongs
    by_cases same : n.1 = v
    · subst same
      cases q with
      | queues cpu level => rcases paused with e | e <;> simp [Belongs, e] at belongs
      | pausedQueue cpu =>
          obtain ⟨here, index, -⟩ := belongs
          exact .inl ⟨by rw [here], .inr (Prod.ext rfl index)⟩
    · by_cases here : q = .pausedQueue (home v)
      · exact .inl ⟨here, .inl ⟨same, here ▸ belongs⟩⟩
      · exact .inr ⟨here, same, belongs⟩

theorem Files.dequeue (files : Files home s) (ready : (s.vcpu v).state = .ready) :
    FilesBut home v (s.dequeue home v) := by
  obtain ⟨contents, holds, members⟩ := files
  have inside : ∀ i < (s.vcpu v).criticality + 1, (v, i) ∈ contents (.queues (home v) i) := by
    intro i less
    exact (members _ _).mpr ⟨rfl, rfl, ready, Nat.le_of_lt_succ less⟩
  obtain ⟨left, holds', members'⟩ := dequeueLoop_holds holds inside
  refine ⟨left, holds', fun n q => ?_⟩
  show _ ↔ n.1 ≠ v ∧ Belongs home s n q
  rw [members', members]
  constructor
  · rintro ⟨belongs, gone⟩
    refine ⟨?_, belongs⟩
    rintro rfl
    cases q with
    | queues cpu level =>
        obtain ⟨here, index, -, most⟩ := belongs
        exact gone ⟨level, Nat.lt_succ_of_le most, Prod.ext rfl index, by rw [here]⟩
    | pausedQueue cpu => rcases belongs.2.2 with e | e <;> simp [ready] at e
  · rintro ⟨other, belongs⟩
    refine ⟨belongs, ?_⟩
    rintro ⟨i, -, rfl, -⟩
    exact other rfl

/-- A vcpu with one node in the queues, which is taken out. -/
theorem Files.dequeue_only (files : Files home s) {i : Nat} {queue : Queue Cpu}
    (here : Belongs home s (v, i) queue)
    (only : ∀ j q, Belongs home s (v, j) q → j = i ∧ q = queue) :
    FilesBut home v { s with dqs := s.dqs.dequeue queue (v, i) } := by
  obtain ⟨contents, holds, members⟩ := files
  refine ⟨_, holds.dequeue ((members _ _).mpr here), fun n q => ?_⟩
  show _ ↔ n.1 ≠ v ∧ Belongs home s n q
  rw [mem_update, List.mem_filter, decide_eq_true_eq, members, members]
  constructor
  · rintro (⟨rfl, belongs, other⟩ | ⟨elsewhere, belongs⟩)
    · refine ⟨?_, belongs⟩
      rintro rfl
      exact other (Prod.ext rfl (only _ _ belongs).1)
    · refine ⟨?_, belongs⟩
      rintro rfl
      exact elsewhere (only _ _ belongs).2
  · rintro ⟨other, belongs⟩
    by_cases same : q = queue
    · refine .inl ⟨same, same ▸ belongs, ?_⟩
      rintro rfl
      exact other rfl
    · exact .inr ⟨same, belongs⟩

theorem Files.dequeuePaused (files : Files home s)
    (paused : (s.vcpu v).state = .paused ∨ (s.vcpu v).state = .pvSpinning) :
    FilesBut home v (s.dequeuePaused home v) := by
  have here : Belongs home s (v, 0) (.pausedQueue (home v)) := ⟨rfl, rfl, paused⟩
  have queued : s.dqs.isQueued (.pausedQueue (home v)) (v, 0) = true := by
    obtain ⟨contents, holds, members⟩ := files
    exact holds.isQueued_of_mem ((members _ _).mpr here)
  rw [Sys.dequeuePaused, if_pos queued]
  apply files.dequeue_only here
  intro j q belongs
  cases q with
  | queues cpu level => rcases paused with e | e <;> simp [Belongs, e] at belongs
  | pausedQueue cpu => exact ⟨belongs.2.1, by rw [belongs.1]⟩

/-- A vcpu in no queue is not taken out of one. -/
theorem FilesBut.dequeuePaused (but : FilesBut home v s) : s.dequeuePaused home v = s := by
  obtain ⟨contents, holds, members⟩ := but
  have outside : ∀ q, (v, 0) ∉ contents q := fun q inside => ((members _ q).mp inside).1 rfl
  rw [Sys.dequeuePaused, holds.isQueued_of_not_mem outside, if_neg Bool.false_ne_true]

/-- The vcpu that `__vsched_pop` would take on this CPU has criticality 0. -/
def PopsCriticalityZero (s : Sys Cpu V) : Action Cpu V → Prop
  | .get cpu => ∀ criticality n, s.getBucket cpu = some criticality →
      s.dqs.peekfront (.queues cpu criticality) = some n → (s.vcpu n.1).criticality = 0
  | _ => True

omit [DecidableEq Cpu] [DecidableEq V] in
theorem getBucket_front {cpu : Cpu} {criticality : Nat} (bucket : s.getBucket cpu = some criticality) :
    ∃ n, s.dqs.peekfront (.queues cpu criticality) = some n := by
  simp only [Sys.getBucket] at bucket
  split at bucket
  · rename_i found
    cases bucket
    exact Option.isSome_iff_exists.mp found
  split at bucket
  · cases bucket
  split at bucket
  · rename_i found
    cases bucket
    exact Option.isSome_iff_exists.mp found
  · cases bucket

/-- A pop takes the vcpu it finds out of its only queue. -/
theorem Files.get {cpu : Cpu} (files : Files home s)
    (zero : PopsCriticalityZero s (.get cpu)) : Files home (s.get cpu) := by
  cases bucket : s.getBucket cpu with
  | none =>
      have idle : s.get cpu = s := by simp [Sys.get, Sys.pop, bucket]
      rw [idle]
      exact files
  | some criticality =>
      obtain ⟨contents, holds, members⟩ := files
      obtain ⟨⟨v, i⟩, first⟩ := getBucket_front bucket
      have isZero : (s.vcpu v).criticality = 0 := zero criticality (v, i) bucket first
      rw [holds.peekfront] at first
      obtain ⟨rest, here⟩ := List.head?_eq_some_iff.mp first
      have inside : (v, i) ∈ contents (.queues cpu criticality) := by
        rw [here]
        exact List.mem_cons_self
      obtain ⟨local_, index, ready, most⟩ := (members _ _).mp inside
      -- criticality 0 leaves no other queue than the one popped
      obtain rfl : criticality = 0 := by
        rw [isZero] at most
        exact Nat.le_zero.mp most
      obtain rfl : i = 0 := index
      have popped : s.pop cpu =
          (some v, { s with dqs := s.dqs.dequeue (.queues cpu 0) (v, 0) }) := by
        simp [Sys.pop, bucket, holds.popfront_cons here, nodeToVcpu]
      have but : FilesBut home v { s with dqs := s.dqs.dequeue (.queues cpu 0) (v, 0) } := by
        have belongs : Belongs home s (v, 0) (.queues cpu 0) := ⟨local_, rfl, ready, most⟩
        apply Files.dequeue_only ⟨contents, holds, members⟩ belongs
        intro j q belongs
        cases q with
        | queues cpu' level =>
            obtain ⟨there, index', -, most'⟩ := belongs
            have bottom : level = 0 := by
              rw [isZero] at most'
              exact Nat.le_zero.mp most'
            exact ⟨index'.trans bottom, by rw [there, bottom, local_]⟩
        | pausedQueue cpu' => rcases belongs.2.2 with e | e <;> simp [ready] at e
      have result : s.get cpu = Sys.setState { s with
          dqs := s.dqs.dequeue (.queues cpu 0) (v, 0) } v .transitioning := by
        rw [Sys.get, popped]
      rw [result]
      apply (but.setVcpu _).files
      simp [Sys.setVcpu, VcpuState.isQueued]

/-- The condition is sharp: a vcpu of higher criticality stays in another queue. -/
theorem get_leaves_links {cpu : Cpu} {criticality : Nat} {n : V × Nat} (files : Files home s)
    (bucket : s.getBucket cpu = some criticality)
    (first : s.dqs.peekfront (.queues cpu criticality) = some n)
    (high : (s.vcpu n.1).criticality ≠ 0) : ¬ Files home (s.get cpu) := by
  obtain ⟨contents, holds, members⟩ := files
  obtain ⟨v, i⟩ := n
  replace high : (s.vcpu v).criticality ≠ 0 := high
  rw [holds.peekfront] at first
  obtain ⟨rest, here⟩ := List.head?_eq_some_iff.mp first
  have inside : (v, i) ∈ contents (.queues cpu criticality) := by
    rw [here]
    exact List.mem_cons_self
  obtain ⟨rfl, rfl, ready, most⟩ : cpu = home v ∧ i = criticality ∧ _ ∧ _ := (members _ _).mp inside
  have result : s.get (home v) = Sys.setState { s with
      dqs := s.dqs.dequeue (.queues (home v) i) (v, i) } v .transitioning := by
    simp [Sys.get, Sys.pop, bucket, holds.popfront_cons here, nodeToVcpu]
  rw [result]
  rintro ⟨contents', holds', members'⟩
  -- some other queue of the vcpu, which the pop did not touch
  obtain ⟨j, other, low⟩ : ∃ j, j ≠ i ∧ j ≤ (s.vcpu v).criticality := by
    by_cases bottom : i = 0
    · exact ⟨1, by omega, by omega⟩
    · exact ⟨0, by omega, by omega⟩
  have left : (v, j) ∈ contents' (.queues (home v) j) := by
    rw [← (holds.dequeue inside).unique holds', mem_update]
    exact .inr ⟨by simp [other], (members _ _).mpr ⟨rfl, rfl, ready, low⟩⟩
  refine not_belongs ?_ ((members' _ _).mp left)
  simp [Sys.setState, Sys.setVcpu, VcpuState.isQueued]

/-! ## What the calls do to the states -/

omit [DecidableEq Cpu] in
@[simp] theorem setState_vcpu_state (w : V) (state : VcpuState) :
    ((s.setState w state).vcpu v).state = if v = w then state else (s.vcpu v).state := by
  by_cases same : v = w
  · subst same
    simp [Sys.setState, Sys.setVcpu]
  · simp [Sys.setState, Sys.setVcpu, same]

@[simp] theorem push_vcpu (w : V) : (s.push home w).vcpu = s.vcpu := rfl

@[simp] theorem pushPaused_vcpu (w : V) : (s.pushPaused home w).vcpu = s.vcpu := rfl

@[simp] theorem dequeue_vcpu (w : V) : (s.dequeue home w).vcpu = s.vcpu := rfl

@[simp] theorem dequeuePaused_vcpu (w : V) : (s.dequeuePaused home w).vcpu = s.vcpu := by
  rw [Sys.dequeuePaused]
  split <;> rfl

theorem updateCriticality_state (w : V) (criticality : Nat) :
    ((s.updateCriticality home w criticality).vcpu v).state = (s.vcpu v).state := by
  by_cases same : v = w
  · subst same
    rw [Sys.updateCriticality]
    split <;> simp [Sys.setVcpu]
  · rw [Sys.updateCriticality]
    split <;> simp [Sys.setVcpu, same]

/-- What `__vsched_pop` takes from well-filed queues was ready, on this CPU. -/
theorem Files.pop_cases (files : Files home s) (cpu : Cpu) :
    (s.pop cpu).1 = none ∧ s.get cpu = s ∨
      ∃ w, (s.pop cpu).1 = some w ∧ home w = cpu ∧ (s.vcpu w).state = .ready ∧
        ∀ v, ((s.get cpu).vcpu v).state = if v = w then .transitioning else (s.vcpu v).state := by
  cases bucket : s.getBucket cpu with
  | none =>
      have none : s.pop cpu = (none, s) := by simp [Sys.pop, bucket]
      refine .inl ⟨by rw [none], ?_⟩
      rw [Sys.get, none]
  | some criticality =>
      obtain ⟨contents, holds, members⟩ := files
      obtain ⟨⟨w, i⟩, first⟩ := getBucket_front bucket
      rw [holds.peekfront] at first
      obtain ⟨rest, here⟩ := List.head?_eq_some_iff.mp first
      obtain ⟨local_, rfl, ready, -⟩ := (members (w, i) _).mp (here ▸ List.mem_cons_self)
      have popped : s.pop cpu = (some w, { s with
          dqs := s.dqs.dequeue (.queues cpu i) (w, i) }) := by
        simp [Sys.pop, bucket, holds.popfront_cons here, nodeToVcpu]
      refine .inr ⟨w, by rw [popped], local_.symm, ready, fun v => ?_⟩
      rw [Sys.get, popped]
      exact setState_vcpu_state w .transitioning

theorem Files.pop_ready (files : Files home s) {cpu : Cpu} (answer : (s.pop cpu).1 = some v) :
    (s.vcpu v).state = .ready := by
  rcases files.pop_cases cpu with ⟨none, -⟩ | ⟨w, some, -, ready, -⟩
  · rw [none] at answer
    cases answer
  · rw [some] at answer
    cases answer
    exact ready

/-- What `__vsched_get` does to a state. -/
theorem Files.get_state (files : Files home s) (cpu : Cpu) (v : V) :
    ((s.get cpu).vcpu v).state = (s.vcpu v).state ∨
      (s.vcpu v).state = .ready ∧ ((s.get cpu).vcpu v).state = .transitioning := by
  rcases files.pop_cases cpu with ⟨-, idle⟩ | ⟨w, -, -, ready, states⟩
  · exact .inl (by rw [idle])
  · by_cases same : v = w
    · subst same
      exact .inr ⟨ready, (states v).trans (if_pos rfl)⟩
    · exact .inl ((states v).trans (if_neg same))

/-! ## Runs -/

/-- The criticalities and levels are those of `s`. -/
def SameBounds (s t : Sys Cpu V) : Prop :=
  (∀ v, (t.vcpu v).criticality = (s.vcpu v).criticality) ∧ t.level = s.level

omit [DecidableEq Cpu] in
theorem sameBounds_setState {t : Sys Cpu V} (same : SameBounds s t) (v : V) (state : VcpuState) :
    SameBounds s (t.setState v state) := by
  refine ⟨fun w => ?_, same.2⟩
  by_cases here : w = v
  · subst here
    simpa [Sys.setState, Sys.setVcpu] using same.1 w
  · simpa [Sys.setState, Sys.setVcpu, here] using same.1 w

theorem sameBounds_dequeuePaused (v : V) : SameBounds s (s.dequeuePaused home v) := by
  rw [Sys.dequeuePaused]
  split
  · exact ⟨fun _ => rfl, rfl⟩
  · exact ⟨fun _ => rfl, rfl⟩

theorem sameBounds_pop (cpu : Cpu) : SameBounds s (s.pop cpu).2 := by
  rw [Sys.pop]
  split
  · exact ⟨fun _ => rfl, rfl⟩
  · split
    · exact ⟨fun _ => rfl, rfl⟩
    · exact ⟨fun _ => rfl, rfl⟩

theorem sameBounds_get (cpu : Cpu) : SameBounds s (s.get cpu) := by
  have popped := sameBounds_pop (s := s) cpu
  rw [Sys.get]
  split
  · rename_i t result
    rw [result] at popped
    exact popped
  · rename_i v t result
    rw [result] at popped
    exact sameBounds_setState popped v .transitioning

omit [DecidableEq Cpu] [DecidableEq V] in
theorem Filed.of_sameBounds {maxCriticality : Nat} {t : Sys Cpu V}
    (filed : Filed home maxCriticality s) (files : Files home t) (same : SameBounds s t) :
    Filed home maxCriticality t where
  filing := files
  criticality := fun v => by
    rw [same.1 v]
    exact filed.criticality v
  level := fun cpu => by
    rw [same.2]
    exact filed.level cpu

theorem Filed.updateCriticality {maxCriticality criticality : Nat}
    (filed : Filed home maxCriticality s) (bound : criticality ≤ maxCriticality) :
    Filed home maxCriticality (s.updateCriticality home v criticality) := by
  have files : Files home (s.updateCriticality home v criticality) := by
    rw [Sys.updateCriticality]
    split
    · rename_i ready
      apply ((filed.filing.dequeue ready).setVcpu _).push
      simp [Sys.setVcpu, ready]
    · rename_i notReady
      obtain ⟨contents, holds, members⟩ := filed.filing
      refine ⟨contents, holds, fun n q => ?_⟩
      rw [members]
      by_cases same : n.1 = v
      · subst same
        cases q <;> simp [Belongs, Sys.setVcpu, notReady]
      · exact (belongs_setVcpu same).symm
  have crit : ∀ w, ((s.updateCriticality home v criticality).vcpu w).criticality =
      if w = v then criticality else (s.vcpu w).criticality := by
    intro w
    rw [Sys.updateCriticality]
    by_cases same : w = v
    · subst same
      split <;> simp [Sys.push, Sys.setVcpu]
    · split <;> simp [Sys.push, Sys.setVcpu, Sys.dequeue, same]
  have level : (s.updateCriticality home v criticality).level = s.level := by
    rw [Sys.updateCriticality]
    split <;> rfl
  refine ⟨files, fun w => ?_, fun cpu => ?_⟩
  · rw [crit]
    split
    · exact bound
    · exact filed.criticality w
  · rw [level]
    exact filed.level cpu

omit [DecidableEq Cpu] in
theorem setState_state (w : V) (state : VcpuState) : ((s.setState w state).vcpu w).state = state := by
  simp [Sys.setState, Sys.setVcpu]

omit [DecidableEq Cpu] in
/-- A vcpu in no queue stays in none. -/
theorem Filed.setState {maxCriticality : Nat} (filed : Filed home maxCriticality s) {v : V}
    {state : VcpuState} (loose : (s.vcpu v).state.isQueued = false)
    (still : state.isQueued = false) : Filed home maxCriticality (s.setState v state) := by
  refine filed.of_sameBounds ?_ (sameBounds_setState ⟨fun _ => rfl, rfl⟩ v state)
  apply ((filed.filing.but loose).setVcpu _).files
  exact (congrArg _ (setState_state v state)).trans still

/-- A vcpu in no queue is made ready. -/
theorem Filed.unpause_loose {maxCriticality : Nat} (filed : Filed home maxCriticality s) {v : V}
    (loose : (s.vcpu v).state.isQueued = false) :
    Filed home maxCriticality (s.unpause home v) := by
  have but := filed.filing.but loose
  rw [Sys.unpause, but.dequeuePaused]
  refine filed.of_sameBounds ?_ (sameBounds_setState ⟨fun _ => rfl, rfl⟩ v .ready)
  exact (but.setVcpu _).push (setState_state v .ready)

omit [DecidableEq V] in
theorem Filed.writeLevel {maxCriticality level : Nat} {cpu : Cpu}
    (filed : Filed home maxCriticality s) (bound : level ≤ maxCriticality) :
    Filed home maxCriticality { s with level := Function.update s.level cpu level } := by
  refine ⟨filed.filing, filed.criticality, fun cpu' => ?_⟩
  by_cases same : cpu' = cpu
  · subst same
    simpa using bound
  · simpa [same] using filed.level cpu'

theorem step_filed {maxCriticality : Nat} (s : Sys Cpu V) (a : Action Cpu V) (t : Sys Cpu V)
    (filed : Filed home maxCriticality s) (zero : PopsCriticalityZero s a)
    (moved : step home maxCriticality s a = some t) : Filed home maxCriticality t := by
  have self : SameBounds s s := ⟨fun _ => rfl, rfl⟩
  cases a with
  | put v =>
      simp only [step] at moved
      split at moved <;> rename_i state <;> cases moved
      all_goals
        refine filed.of_sameBounds ?_ (sameBounds_setState self v .ready)
        apply ((filed.filing.but (by simp [state, VcpuState.isQueued])).setVcpu _).push
        exact setState_state v .ready
  | putPaused v pvSpin =>
      simp only [step] at moved
      split at moved <;> rename_i state <;> cases moved
      all_goals
        refine filed.of_sameBounds ?_ (sameBounds_setState self v _)
        apply ((filed.filing.but (by simp [state, VcpuState.isQueued])).setVcpu _).pushPaused
        cases pvSpin
        · exact .inl (setState_state v _)
        · exact .inr (setState_state v _)
  | get cpu =>
      cases moved
      exact filed.of_sameBounds (filed.filing.get zero) (sameBounds_get cpu)
  | enter v =>
      simp only [step] at moved
      split at moved <;> rename_i state <;> cases moved
      exact filed.setState (by simp [state, VcpuState.isQueued]) rfl
  | exit v =>
      simp only [step] at moved
      split at moved <;> rename_i state <;> cases moved
      exact filed.setState (by simp [state, VcpuState.isQueued]) rfl
  | unpause v =>
      simp only [step] at moved
      split at moved <;> rename_i state <;> cases moved
      all_goals
        refine filed.of_sameBounds ?_ (sameBounds_setState (sameBounds_dequeuePaused v) v .ready)
        apply ((filed.filing.dequeuePaused (by simp [state])).setVcpu _).push
        exact setState_state v .ready
  | dequeue v =>
      simp only [step] at moved
      split at moved <;> rename_i state <;> cases moved
      refine filed.of_sameBounds ?_ (sameBounds_setState (t := s.dequeue home v) ⟨fun _ => rfl, rfl⟩ v _)
      apply ((filed.filing.dequeue state).setVcpu _).files
      exact (congrArg _ (setState_state v .terminated)).trans rfl
  | dequeuePaused v =>
      simp only [step] at moved
      split at moved <;> rename_i state <;> cases moved
      all_goals
        refine filed.of_sameBounds ?_ (sameBounds_setState (sameBounds_dequeuePaused v) v _)
        apply ((filed.filing.dequeuePaused (by simp [state])).setVcpu _).files
        exact (congrArg _ (setState_state v .terminated)).trans rfl
  | recover v =>
      simp only [step] at moved
      split at moved <;> rename_i state <;> cases moved
      all_goals exact filed.setState (by simp [state, VcpuState.isQueued]) rfl
  | updateCriticality v criticality =>
      obtain ⟨bound, ⟨⟩⟩ := Option.ite_none_right_eq_some.mp moved
      exact filed.updateCriticality bound
  | writeLevel cpu level =>
      obtain ⟨bound, ⟨⟩⟩ := Option.ite_none_right_eq_some.mp moved
      exact filed.writeLevel bound

/-- **The run queues hold what they should.**  In every run whose pops take vcpus of
criticality 0, every queue is a well-formed list without repetitions, a ready vcpu of
criticality `c` is in exactly `queues[0..c]` of its scheduler, a paused or spinning one
in `paused_queue` only, and a vcpu that runs, or was never put, in none. -/
theorem run_queues_filed {maxCriticality : Nat} {s t : Sys Cpu V} {run : List (Action Cpu V)}
    (initial : Initial maxCriticality s)
    (zero : Along PopsCriticalityZero (step home maxCriticality) s run)
    (ran : exec (step home maxCriticality) s run = some t) : Filed home maxCriticality t :=
  exec_invariant_along step_filed (filed_initial initial) zero ran

end Filing

/-! ## Two short runs -/

/-- One CPU at level 0 with two new vcpus, both of criticality `c`. -/
def two (c : Nat) : Sys Unit Bool :=
  ⟨fun _ => ⟨.initializing, c⟩, Dqs.empty, fun _ => 0⟩

theorem initial_two {c : Nat} (bound : c ≤ 1) : Initial 1 (two c) where
  empty := rfl
  loose := fun _ => rfl
  criticality := fun _ => bound
  level := fun _ => Nat.zero_le 1

/-- A vcpu of criticality 0 is popped past one that was raised to criticality 1. -/
theorem run_queues_filed_raised : ∃ t, exec (step (fun _ => ()) 1) (two 0)
    [.put true, .put false, .updateCriticality false 1, .get ()] = some t ∧
      (t.vcpu true).state = .transitioning ∧ t.dqs.peekfront (.queues () 1) = some (false, 1) ∧
      Filed (fun _ => ()) 1 t := by
  have ran : exec (step (fun _ => ()) 1) (two 0)
      [.put true, .put false, .updateCriticality false 1, .get ()] = some _ := rfl
  have zero : Along PopsCriticalityZero (step (fun _ => ()) 1) (two 0)
      [.put true, .put false, .updateCriticality false 1, .get ()] := by
    iterate 3 refine .cons trivial rfl ?_
    refine .cons ?_ rfl trivial
    intro criticality n bucket front
    obtain rfl : 0 = criticality := Option.some.inj bucket
    obtain rfl : (true, 0) = n := Option.some.inj front
    rfl
  exact ⟨_, ran, rfl, rfl, run_queues_filed (initial_two (by decide)) zero ran⟩

/-- A vcpu of criticality 1 is pushed into two queues and popped from one: it runs while
it is still linked in the other. -/
theorem popped_vcpu_still_linked : ∃ t, Initial 1 (two 1) ∧
    exec (step (fun _ => ()) 1) (two 1) [.put true, .get ()] = some t ∧
      (t.vcpu true).state = .transitioning ∧ t.dqs.peekfront (.queues () 1) = some (true, 1) ∧
      ¬ Files (fun _ => ()) t := by
  have ran : ∃ t, exec (step (fun _ => ()) 1) (two 1) [.put true, .get ()] = some t ∧
      (t.vcpu true).state = .transitioning ∧
      t.dqs.peekfront (.queues () 1) = some (true, 1) := ⟨_, rfl, rfl, rfl⟩
  obtain ⟨t, done, running, linked⟩ := ran
  refine ⟨t, initial_two (by decide), done, running, linked, ?_⟩
  rintro ⟨contents, holds, members⟩
  rw [holds.peekfront] at linked
  refine not_belongs ?_ ((members _ _).mp (List.mem_of_mem_head? linked))
  rw [running]
  rfl

end Twan.Vsched.RunQueue
