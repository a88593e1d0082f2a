/-
# Twan.Vportal.Teardown -- the three ways into the end of a partition

`vteardown`, `vfailure_recover` and `vdo_transitioning_recover` of
`src/subsys/twanvisor/vportal/vrecovery.c`, interleaved step by step with each
other and with the scheduler of `Twan.Vsched.Lifecycle`, for one created partition of
`N` vcpus among any others.

Each step below is one critical section of the source: one iteration of the loop
over the vcpus runs under the lock of that vcpu's scheduler, `vpartition_get` and
`vpartition_put` take and release the entry of the table, `num_terminated` is
added to in one `atomic32_fetch_and_add`, and `vdo_finalize_teardown` runs
exclusively.  What a call has terminated but not yet added is on its program
counter, so that the counting is an instance of `Twan.Base.Latch`.

Every vcpu is counted once, as long as a terminated vcpu stays terminated.  The scheduler
brings one back in two ways, and then it recovers and is counted again: `__vsched_pop`
finds it in a bucket where an earlier pop left it (`popped_vcpu_counted_twice`), or a kick
finds the `VSPIN_PAUSED` that the visit to a waiting vcpu left behind
(`kicked_vcpu_counted_twice`).  And a `vteardown` that finds nothing left to terminate
adds 0 and still compares with the number of vcpus: when everybody else has been
counted by then it finalizes too (`teardown_finalizes_twice`).  `teardown_once` (in
`Twan.Vportal.TeardownRuns`) is what holds in every run without these three.
-/
import Twan.Base.Latch
import Twan.Vsched.LifecycleRuns
import Mathlib.Data.Fin.VecNotation

namespace Twan.Vportal.Teardown

set_option autoImplicit false

open Twan.Base Twan.Vsched

/-- Who executes recovery code: a call of `vteardown`, or a vcpu for itself (its
creator stands in for a vcpu that is still being pushed). -/
inductive Party (T : Type) (N : Nat) where
  | teardown (t : T)
  | vcpu (i : Fin N)
  deriving DecidableEq

/-- Where a party is.  `mine` lists the vcpus it has terminated since it started;
`terminated_count` is its length. -/
inductive Pc (N : Nat) where
  | idle
  /-- `vpartition_get` is next. -/
  | get
  /-- The test `i < vpartition->vcpu_count` is next. -/
  | loop (i : Nat) (mine : List (Fin N))
  /-- `atomic32_fetch_and_add` is next. -/
  | add (mine : List (Fin N))
  /-- `vdo_finalize_teardown` is next. -/
  | finalize
  | done

/-- What a party has terminated and not yet added. -/
def Pc.mine {N : Nat} : Pc N → List (Fin N)
  | .loop _ mine | .add mine => mine
  | _ => []

/-- The party holds the partition's entry. -/
def Pc.inLoop {N : Nat} : Pc N → Bool
  | .loop _ _ => true
  | _ => false

/-- The party is in none of the recovery calls. -/
def Pc.atRest {N : Nat} : Pc N → Bool
  | .idle | .done => true
  | _ => false

/-- Where the vcpus are: the `N` of the partition, and those of the others. -/
structure Layout (P Cpu W : Type) (N : Nat) where
  life : Lifecycle.Layout P Cpu (Fin N ⊕ W)
  target : P
  vid : ∀ i, life.vid (.inl i) = target
  vcpus : ∀ v ∈ life.vcpus target, ∃ i, v = .inl i

/-- The vcpus with their run queues, and the partition.  `lock` is the holder of its entry in
the table; `counted` is the order in which vcpus were added to `numTerminated`,
`finalized` the number of executions of `vdo_finalize_teardown`, and `fault` a
failed `VDYNAMIC_ASSERT`. -/
structure Sys (T P Cpu W : Type) (N : Nat) where
  life : Lifecycle.Sys P Cpu (Fin N ⊕ W)
  pc : Party T N → Pc N
  lock : Option (Party T N)
  numTerminated : Nat
  counted : List (Fin N)
  finalized : Nat
  fault : Bool

/-- A step of a party, of the scheduler, or the detection of a failure. -/
inductive Action (T P Cpu W : Type) (N : Nat) where
  | run (p : Party T N)
  | schedule (a : Lifecycle.Action P Cpu (Fin N ⊕ W))
  | fail (i : Fin N)

section Model

variable {T P Cpu W : Type} {N : Nat} [DecidableEq T] [DecidableEq P] [DecidableEq Cpu]
  [DecidableEq W]

namespace Sys

variable (l : Layout P Cpu W N) (s : Sys T P Cpu W N)

def state (i : Fin N) : VcpuState := s.life.state (.inl i)

def goto (p : Party T N) (pc : Pc N) : Sys T P Cpu W N :=
  { s with pc := Function.update s.pc p pc }

def setLife (life : Lifecycle.Sys P Cpu (Fin N ⊕ W)) : Sys T P Cpu W N := { s with life := life }

/-- `vpartition_get(vid)`: NULL makes `vteardown` return and trips the assertion
of `vfailure_recover`. -/
def get (p : Party T N) : Option (Sys T P Cpu W N) :=
  if s.lock.isSome then none
  else if s.life.slot l.target = .placed then some ({ s with lock := some p }.goto p (.loop 0 []))
  else match p with
    | .teardown _ => some (s.goto p .done)
    | .vcpu _ => some ({ s with fault := true }.goto p .done)

/-- One iteration of the loop of `vteardown` and `vfailure_recover`.  Only the
latter has a vcpu of its own, which it terminates in whatever state it is. -/
def visit (p : Party T N) (i : Fin N) (mine : List (Fin N)) : Sys T P Cpu W N :=
  if p = .vcpu i then
    (s.setLife (s.life.visitCurrent (.inl i))).goto p (.loop (i + 1) (mine ++ [i]))
  else
    (s.setLife (s.life.visit l.life (.inl i))).goto p
      (.loop (i + 1) (if (s.state i).isQueued then mine ++ [i] else mine))

/-- `atomic32_fetch_and_add(&vpartition->num_terminated, terminated_count)` and
the comparison of the sum with the number of vcpus. -/
def add (p : Party T N) (mine : List (Fin N)) : Sys T P Cpu W N :=
  { s with
    numTerminated := s.numTerminated + mine.length
    counted := s.counted ++ mine }.goto p
      (if s.numTerminated + mine.length = N then .finalize else .done)

/-- `vdo_finalize_teardown(vid)`: the writer waits for every reader of the table;
the entry must still be there. -/
def finalize (p : Party T N) : Option (Sys T P Cpu W N) :=
  if s.lock.isSome then none
  else some ({ s with
    life := { s.life with slot := Function.update s.life.slot l.target .removed }
    finalized := s.finalized + 1
    fault := s.fault || decide (s.life.slot l.target ≠ Lifecycle.Slot.placed) }.goto p .done)

/-- `vdo_transitioning_recover` of a vcpu whose flag was seen, up to its addition. -/
def recover (i : Fin N) : Option (Sys T P Cpu W N) :=
  (Lifecycle.step l.life s.life (.recover (.inl i))).map fun life =>
    (s.setLife life).goto (.vcpu i) (.add [i])

/-- The next atomic step of a party. -/
def runParty (p : Party T N) : Option (Sys T P Cpu W N) :=
  match s.pc p, p with
  | .idle, .teardown _ => some (s.goto p .get)
  | .done, .teardown _ => none
  | .idle, .vcpu i | .done, .vcpu i => s.recover l i
  | .get, _ => s.get l p
  | .loop i mine, _ =>
      if h : i < N then some (s.visit l p ⟨i, h⟩ mine)
      else some ({ s with lock := none }.goto p (.add mine))
  | .add mine, _ => some (s.add p mine)
  | .finalize, _ => s.finalize l p

/-- What the scheduler does meanwhile.  A vcpu of the partition is moved by its CPU only while it
executes no recovery code, and by others under the entry of the partition; it is terminated by
the parties only. -/
def allows : Lifecycle.Action P Cpu (Fin N ⊕ W) → Bool
  | .put (.inl i) | .putPaused (.inl i) _ | .enter (.inl i) | .exit (.inl i) | .notice (.inl i) =>
      (s.pc (.vcpu i)).atRest
  | .unpause (.inl _) | .kick _ (.inl _) | .updateCriticality (.inl _) _ => s.lock.isNone
  | .visit (.inl _) | .visitCurrent (.inl _) | .recover (.inl _) => false
  | .place p | .remove p => decide (p ≠ l.target)
  | _ => true

end Sys

def step (l : Layout P Cpu W N) (s : Sys T P Cpu W N) :
    Action T P Cpu W N → Option (Sys T P Cpu W N)
  | .run p => s.runParty l p
  | .schedule a =>
      if s.allows l a then (Lifecycle.step l.life s.life a).map s.setLife else none
  | .fail i =>
      if (s.pc (.vcpu i)).atRest ∧ (s.state i = .transitioning ∨ s.state i = .running) ∧
          s.life.recovering (.inl i) = false then
        some (s.goto (.vcpu i) .get)
      else none

/-- The partition is placed, its vcpus are in any states that the scheduler can reach, and none of
them has been torn down. -/
structure Created (l : Layout P Cpu W N) (s : Sys T P Cpu W N) : Prop where
  nonempty : 0 < N
  reached : Lifecycle.Reached l.life s.life
  placed : s.life.slot l.target = .placed
  alive : ∀ i, s.state i ≠ .terminated
  unflagged : ∀ i, s.life.terminate (.inl i) = false
  pc : ∀ p, s.pc p = .idle
  lock : s.lock = none
  numTerminated : s.numTerminated = 0
  counted : s.counted = []
  finalized : s.finalized = 0
  fault : s.fault = false

/-! ## The conditions -/

/-- No `vteardown` adds nothing to a counter that already stands at the number of
vcpus. -/
def Early (s : Sys T P Cpu W N) : Action T P Cpu W N → Prop
  | .run (.teardown t) => s.pc (.teardown t) = .add [] → s.numTerminated ≠ N
  | _ => True

/-- No loop visits a vcpu that waits for a kick. -/
def SparesSpinning (s : Sys T P Cpu W N) : Action T P Cpu W N → Prop
  | .run p => ∀ i mine, s.pc p = .loop i.val mine → p ≠ .vcpu i → s.state i ≠ .pvSpinning
  | _ => True

/-- The vcpus that `__vsched_pop` takes have criticality 0. -/
def PopsZero (s : Sys T P Cpu W N) : Action T P Cpu W N → Prop
  | .schedule a => Lifecycle.PopsZero s.life a
  | _ => True

/-- The condition on a step of a run. -/
def Careful (s : Sys T P Cpu W N) (a : Action T P Cpu W N) : Prop :=
  Early s a ∧ SparesSpinning s a ∧ PopsZero s a

end Model

end Twan.Vportal.Teardown
