/-
# Twan.Vsched.Lifecycle -- the life of a vcpu, from its creation to its termination

`vsched_put` and `vsched_put_paused` of `vsched.c`, `__vemu_unpause_vcpu` and
`__vemu_pv_spin_kick` of `vemulate_utils.c`, the visits of `vteardown` and
`vfailure_recover` and the end of `vdo_transitioning_recover` of `vrecovery.c`, and the
locked sections of `__venter` and `vexit_dispatcher`, over the run queues of
`Twan.Vsched.RunQueue`.  Each action is one section under the lock of the vcpu's
scheduler.

`Effect` says once what a step can do to the fields of one vcpu, and `step_effect` that it does
nothing else; what holds in every run (`Twan.Vsched.LifecycleRuns`), and for the systems that
run these steps with more around them, is read off it.
-/
import Twan.Vsched.RunQueue

namespace Twan.Vsched.Lifecycle

set_option autoImplicit false

open Twan.Base Twan.Lib.Dq Twan.Vsched.RunQueue

/-- Whether `vpartition_get` finds a partition. -/
inductive Slot where
  | unplaced
  | placed
  | removed
  deriving DecidableEq, Repr

/-- Where the vcpus are: their scheduler, their partition and its array of vcpus. -/
structure Layout (P Cpu V : Type) where
  home : V → Cpu
  vid : V → P
  vcpus : P → List V
  maxCriticality : Nat

/-- The fields of the vcpus and partitions that decide over a vcpu's life.
`recovering` is a vcpu whose `terminate` flag was seen and which is now in
`vdo_transitioning_recover`; `failed` records that a `VDYNAMIC_ASSERT` failed. -/
structure Sys (P Cpu V : Type) where
  queues : RunQueue.Sys Cpu V
  pvSpin : V → PvSpinState
  terminate : V → Bool
  recovering : V → Bool
  slot : P → Slot
  pvSpinKickSenders : P → P → Bool
  failed : Bool

section Model

variable {P Cpu V : Type} [DecidableEq P] [DecidableEq Cpu] [DecidableEq V]

namespace Sys

variable (l : Layout P Cpu V) (s : Sys P Cpu V)

def state (v : V) : VcpuState := (s.queues.vcpu v).state

def setState (v : V) (state : VcpuState) : Sys P Cpu V :=
  { s with queues := s.queues.setState v state }

def setPvSpin (v : V) (spin : PvSpinState) : Sys P Cpu V :=
  { s with pvSpin := Function.update s.pvSpin v spin }

def setTerminate (v : V) : Sys P Cpu V :=
  { s with terminate := Function.update s.terminate v true }

def setRecovering (v : V) (busy : Bool) : Sys P Cpu V :=
  { s with recovering := Function.update s.recovering v busy }

/-- `vsched_put(vcpu, ..)`. -/
def vschedPut (v : V) : Sys P Cpu V :=
  if s.terminate v then s.setRecovering v true
  else { s with queues := s.queues.put l.home v }

/-- `vsched_put_paused(vcpu, pv_spin, ..)`. -/
def vschedPutPaused (v : V) (pvSpin : Bool) : Sys P Cpu V :=
  if s.terminate v then s.setRecovering v true
  else if pvSpin then
    match s.pvSpin v with
    | .none => { s with queues := s.queues.putPaused l.home v true }.setPvSpin v .paused
    | .kicked => s.setPvSpin v .none
    | .paused => { s with failed := true }
  else { s with queues := s.queues.putPaused l.home v false }

/-- The locked section of `__venter`. -/
def venter (v : V) : Sys P Cpu V :=
  if s.terminate v then s.setRecovering v true else s.setState v .running

/-- `__vemu_unpause_vcpu(vcpu, ..)`. -/
def vemuUnpauseVcpu (v : V) : Sys P Cpu V :=
  if s.state v = .paused then { s with queues := s.queues.unpause l.home v } else s

/-- `__vemu_pv_spin_kick(vcpu)`. -/
def vemuPvSpinKick (v : V) : Sys P Cpu V :=
  if s.pvSpin v = .paused then
    { s with
      failed := s.failed || decide (s.state v ≠ VcpuState.pvSpinning)
      queues := s.queues.unpause l.home v }.setPvSpin v .none
  else s.setPvSpin v .kicked

/-- `vemu_pv_spin_kick_local` of a vcpu of `sender`, or `vemu_pv_spin_kick_far`. -/
def kick (sender : P) (v : V) : Sys P Cpu V :=
  if s.slot (l.vid v) = .placed ∧ (sender = l.vid v ∨ s.pvSpinKickSenders (l.vid v) sender = true)
  then s.vemuPvSpinKick l v
  else s

/-- The body of the loop of `vteardown`, and of `vfailure_recover` for a vcpu that is not
the current one.  The IPI to a running vcpu only makes it leave the guest. -/
def visit (v : V) : Sys P Cpu V :=
  match s.state v with
  | .ready => { s.setTerminate v with queues := (s.queues.dequeue l.home v).setState v .terminated }
  | .paused | .pvSpinning =>
      { s.setTerminate v with queues := (s.queues.dequeuePaused l.home v).setState v .terminated }
  | _ => s.setTerminate v

/-- The body of the loop of `vfailure_recover` for the current vcpu. -/
def visitCurrent (v : V) : Sys P Cpu V := (s.setTerminate v).setState v .terminated

end Sys

/-- One section under the lock of a scheduler, and the changes of the partition table
that decide who may kick. -/
inductive Action (P Cpu V : Type) where
  | place (p : P)
  | put (v : V)
  | putPaused (v : V) (pvSpin : Bool)
  | get (cpu : Cpu)
  | enter (v : V)
  | exit (v : V)
  | notice (v : V)
  | unpause (v : V)
  | kick (sender : P) (v : V)
  | visit (v : V)
  | visitCurrent (v : V)
  | recover (v : V)
  | remove (p : P)
  | setRoute (target sender : P) (allow : Bool)
  | updateCriticality (v : V) (criticality : Nat)
  | writeLevel (cpu : Cpu) (level : Nat)

/-- `notice` is the look at `terminate` that `vexit_dispatcher` and
`vthis_vsched_reschedule` take, `recover` the last section of
`vdo_transitioning_recover`.  A vcpu is put by the CPU it is on, or, when it is new, by
the CPU that creates it, which never makes it spin. -/
def step (l : Layout P Cpu V) (s : Sys P Cpu V) : Action P Cpu V → Option (Sys P Cpu V)
  | .place p =>
      if s.slot p = .unplaced then some { s with slot := Function.update s.slot p .placed } else none
  | .put v =>
      match s.state v, s.recovering v with
      | .transitioning, false => some (s.vschedPut l v)
      | .initializing, false =>
          if s.slot (l.vid v) = .unplaced then none else some (s.vschedPut l v)
      | _, _ => none
  | .putPaused v pvSpin =>
      match s.state v, s.recovering v, pvSpin with
      | .transitioning, false, _ => some (s.vschedPutPaused l v pvSpin)
      | .initializing, false, false =>
          if s.slot (l.vid v) = .unplaced then none else some (s.vschedPutPaused l v false)
      | _, _, _ => none
  | .get cpu => some { s with queues := s.queues.get cpu }
  | .enter v =>
      match s.state v, s.recovering v with
      | .transitioning, false => some (s.venter v)
      | _, _ => none
  | .exit v => if s.state v = .running then some (s.setState v .transitioning) else none
  | .notice v =>
      match s.state v, s.recovering v, s.terminate v with
      | .transitioning, false, true => some (s.setRecovering v true)
      | _, _, _ => none
  | .unpause v => if s.slot (l.vid v) = .placed then some (s.vemuUnpauseVcpu l v) else none
  | .kick sender v => some (s.kick l sender v)
  | .visit v => if s.slot (l.vid v) = .placed then some (s.visit l v) else none
  | .visitCurrent v =>
      match s.state v, s.recovering v with
      | .transitioning, false | .running, false =>
          if s.slot (l.vid v) = .placed then some (s.visitCurrent v) else none
      | _, _ => none
  | .recover v =>
      if s.recovering v then some ((s.setState v .terminated).setRecovering v false) else none
  | .remove p =>
      if s.slot p = .placed ∧ (l.vcpus p).all (fun v => s.state v == .terminated) then
        some { s with slot := Function.update s.slot p .removed }
      else none
  | .setRoute target sender allow =>
      some { s with
        pvSpinKickSenders := Function.update s.pvSpinKickSenders target
          (Function.update (s.pvSpinKickSenders target) sender allow) }
  | .updateCriticality v criticality =>
      if criticality ≤ l.maxCriticality then
        some { s with queues := s.queues.updateCriticality l.home v criticality }
      else none
  | .writeLevel cpu level =>
      if level ≤ l.maxCriticality then
        some { s with queues := { s.queues with level := Function.update s.queues.level cpu level } }
      else none

/-- Before the first partition is placed: every vcpu is as `vcpu_setup` leaves it, or
belongs to the root partition and runs. -/
structure Initial (l : Layout P Cpu V) (s : Sys P Cpu V) : Prop where
  queues : RunQueue.Initial l.maxCriticality s.queues
  state : ∀ v, s.state v = .initializing ∨ s.state v = .running
  pvSpin : ∀ v, s.pvSpin v = .none
  terminate : ∀ v, s.terminate v = false
  recovering : ∀ v, s.recovering v = false
  failed : s.failed = false

end Model

/-! ## What a step does to a vcpu -/

section Proofs

variable {P Cpu V : Type} {l : Layout P Cpu V} {s t : Sys P Cpu V} {v w : V}

/-- The fields of a vcpu that decide over its life. -/
structure VcpuFields where
  state : VcpuState
  pvSpin : PvSpinState
  terminate : Bool
  recovering : Bool

def Sys.fields (s : Sys P Cpu V) (v : V) : VcpuFields :=
  ⟨s.state v, s.pvSpin v, s.terminate v, s.recovering v⟩

/-- The vcpu whose CPU takes the step. -/
def Action.onCpu : Action P Cpu V → Option V
  | .put v | .putPaused v _ | .enter v | .exit v | .notice v | .visitCurrent v | .recover v => some v
  | _ => none

/-- The vcpu whose `terminate` flag the step looks at. -/
def Action.looks : Action P Cpu V → Option V
  | .put v | .putPaused v _ | .enter v | .notice v => some v
  | _ => none

/-- A step that no CPU takes with the vcpu that is on it. -/
def Action.isRemote : Action P Cpu V → Bool
  | .place _ | .unpause _ | .kick .. | .remove _ | .setRoute .. | .updateCriticality .. | .writeLevel .. => true
  | _ => false

/-- What a step does to one vcpu. -/
inductive Effect (s t : Sys P Cpu V) (v : V) : Action P Cpu V → Prop where
  | stays {a} (elsewhere : a.onCpu ≠ some v) (same : t.fields v = s.fields v) : Effect s t v a
  | parks {a} {state : VcpuState} (own : a = .put v ∨ a = .putPaused v false)
      (busy : s.state v = .transitioning ∨ s.state v = .initializing)
      (free : s.recovering v = false) (clear : s.terminate v = false)
      (queue : state = .ready ∨ state = .paused)
      (now : t.fields v = { s.fields v with state := state }) : Effect s t v a
  | spins (busy : s.state v = .transitioning ∨ s.state v = .initializing)
      (free : s.recovering v = false) (clear : s.terminate v = false)
      (now : t.fields v = { s.fields v with state := .pvSpinning, pvSpin := .paused }) :
      Effect s t v (.putPaused v true)
  | asserts (busy : s.state v = .transitioning ∨ s.state v = .initializing)
      (paused : s.pvSpin v = .paused) (same : t.fields v = s.fields v) :
      Effect s t v (.putPaused v true)
  | forgets (free : s.recovering v = false) (kicked : s.pvSpin v = .kicked)
      (now : t.fields v = { s.fields v with pvSpin := .none }) : Effect s t v (.putPaused v true)
  | notices {a} (own : a.looks = some v)
      (busy : s.state v = .transitioning ∨ s.state v = .initializing)
      (free : s.recovering v = false) (flag : s.terminate v = true)
      (now : t.fields v = { s.fields v with recovering := true }) : Effect s t v a
  | enters (here : s.state v = .transitioning) (free : s.recovering v = false)
      (clear : s.terminate v = false) (now : t.fields v = { s.fields v with state := .running }) :
      Effect s t v (.enter v)
  | exits (here : s.state v = .running)
      (now : t.fields v = { s.fields v with state := .transitioning }) : Effect s t v (.exit v)
  | popped {cpu} (ready : s.state v = .ready)
      (now : t.fields v = { s.fields v with state := .transitioning }) : Effect s t v (.get cpu)
  | unpaused (paused : s.state v = .paused)
      (now : t.fields v = { s.fields v with state := .ready }) : Effect s t v (.unpause v)
  | kicked {sender} (paused : s.pvSpin v = .paused)
      (now : t.fields v = { s.fields v with state := .ready, pvSpin := .none }) :
      Effect s t v (.kick sender v)
  | remembers {sender} (awake : s.pvSpin v ≠ .paused)
      (now : t.fields v = { s.fields v with pvSpin := .kicked }) : Effect s t v (.kick sender v)
  | visited (now : t.fields v = { s.fields v with
        state := if (s.state v).isQueued then .terminated else s.state v, terminate := true }) :
      Effect s t v (.visit v)
  | fails (mine : s.state v = .transitioning ∨ s.state v = .running) (free : s.recovering v = false)
      (now : t.fields v = { s.fields v with state := .terminated, terminate := true }) :
      Effect s t v (.visitCurrent v)
  | recovers (busy : s.recovering v = true)
      (now : t.fields v = { s.fields v with state := .terminated, recovering := false }) :
      Effect s t v (.recover v)

/-- What the queues rely on: a vcpu that is popped has criticality 0. -/
def PopsZero (s : Sys P Cpu V) : Action P Cpu V → Prop
  | .get cpu => PopsCriticalityZero s.queues (.get cpu)
  | _ => True

/-- What the recovery relies on: a vcpu that is terminated is not waiting for a kick. -/
def SparesSpinning (s : Sys P Cpu V) : Action P Cpu V → Prop
  | .visit v => s.state v ≠ .pvSpinning
  | _ => True

/-- The condition on a step of a run. -/
def Careful (s : Sys P Cpu V) (a : Action P Cpu V) : Prop := PopsZero s a ∧ SparesSpinning s a

variable [DecidableEq V]

@[simp] theorem fields_setState (state : VcpuState) : (s.setState w state).fields v =
    if v = w then { s.fields v with state := state } else s.fields v := by
  by_cases same : v = w
  · simp [same, Sys.fields, Sys.setState, Sys.state]
  · simp [same, Sys.fields, Sys.setState, Sys.state]

@[simp] theorem fields_setPvSpin (spin : PvSpinState) : (s.setPvSpin w spin).fields v =
    if v = w then { s.fields v with pvSpin := spin } else s.fields v := by
  by_cases same : v = w
  · simp [same, Sys.fields, Sys.setPvSpin, Sys.state]
  · simp [same, Sys.fields, Sys.setPvSpin, Sys.state]

@[simp] theorem fields_setTerminate : (s.setTerminate w).fields v =
    if v = w then { s.fields v with terminate := true } else s.fields v := by
  by_cases same : v = w
  · simp [same, Sys.fields, Sys.setTerminate, Sys.state]
  · simp [same, Sys.fields, Sys.setTerminate, Sys.state]

@[simp] theorem fields_setRecovering (busy : Bool) : (s.setRecovering w busy).fields v =
    if v = w then { s.fields v with recovering := busy } else s.fields v := by
  by_cases same : v = w
  · simp [same, Sys.fields, Sys.setRecovering, Sys.state]
  · simp [same, Sys.fields, Sys.setRecovering, Sys.state]

/-- The queues change, and with them the state of one vcpu at most. -/
theorem fields_queues {queues : RunQueue.Sys Cpu V} {state : VcpuState}
    (states : ∀ u, (queues.vcpu u).state = if u = w then state else s.state u) :
    Sys.fields { s with queues := queues } v =
      if v = w then { s.fields v with state := state } else s.fields v := by
  have here := states v
  by_cases same : v = w
  · subst same
    rw [if_pos rfl] at here
    simp [Sys.fields, Sys.state, here]
  · rw [if_neg same] at here
    simp [same, Sys.fields, Sys.state, here]

omit [DecidableEq V] in
theorem fields_queues_same {queues : RunQueue.Sys Cpu V}
    (states : ∀ u, (queues.vcpu u).state = s.state u) :
    Sys.fields { s with queues := queues } v = s.fields v := by
  simp [Sys.fields, Sys.state, states v]

variable [DecidableEq Cpu]

/-! ## One lemma for each call -/

variable {a : Action P Cpu V}

omit [DecidableEq Cpu] [DecidableEq V] in
theorem onCpu_of_looks (looks : a.looks = some v) : a.onCpu = some v := by
  cases a <;> first | exact looks | cases looks

omit [DecidableEq Cpu] [DecidableEq V] in
theorem onCpu_of_remote (remote : a.isRemote = true) : a.onCpu = none := by
  cases a <;> first | rfl | cases remote

omit [DecidableEq V] [DecidableEq Cpu] in
theorem careful_of_remote (remote : a.isRemote = true) : Careful s a := by
  cases a <;> first | exact ⟨trivial, trivial⟩ | cases remote

omit [DecidableEq Cpu] [DecidableEq V] in
theorem elsewhere_of_ne (own : a.onCpu = some w) (other : v ≠ w) : a.onCpu ≠ some v := by
  rw [own]
  exact fun same => other (Option.some.inj same).symm

theorem effect_vschedPut (busy : s.state w = .transitioning ∨ s.state w = .initializing)
    (free : s.recovering w = false) : Effect s (s.vschedPut l w) v (.put w) := by
  have queue : ∀ u, ((s.queues.put l.home w).vcpu u).state =
      if u = w then .ready else s.state u := by
    simp [RunQueue.Sys.put, Sys.state]
  rw [Sys.vschedPut]
  by_cases same : v = w
  · subst same
    split
    · rename_i flag
      exact .notices rfl busy free flag (by simp)
    · rename_i clear
      exact .parks (.inl rfl) busy free (by simpa using clear) (.inl rfl) (by simp [fields_queues queue])
  · apply Effect.stays (elsewhere_of_ne rfl same)
    split
    · simp [same]
    · simp [fields_queues queue, same]

theorem effect_vschedPutPaused {pvSpin : Bool}
    (busy : s.state w = .transitioning ∨ s.state w = .initializing) (free : s.recovering w = false) :
    Effect s (s.vschedPutPaused l w pvSpin) v (.putPaused w pvSpin) := by
  have queue : ∀ u, ((s.queues.putPaused l.home w pvSpin).vcpu u).state =
      if u = w then (if pvSpin then .pvSpinning else .paused) else s.state u := by
    simp [RunQueue.Sys.putPaused, Sys.state]
  rw [Sys.vschedPutPaused]
  by_cases same : v = w
  · subst same
    split
    · rename_i flag
      exact .notices rfl busy free flag (by simp)
    rename_i clear
    replace clear : s.terminate v = false := by simpa using clear
    cases pvSpin with
    | true =>
        rw [if_pos rfl]
        split
        · exact .spins busy free clear (by simp [fields_queues queue])
        · rename_i kicked
          exact .forgets free kicked (by simp)
        · rename_i paused
          exact .asserts busy paused rfl
    | false =>
        rw [if_neg Bool.false_ne_true]
        exact .parks (.inr rfl) busy free clear (.inr rfl) (by simp [fields_queues queue])
  · apply Effect.stays (elsewhere_of_ne rfl same)
    split
    · simp [same]
    cases pvSpin with
    | true =>
        rw [if_pos rfl]
        split
        · simp [fields_queues queue, same]
        · simp [same]
        · rfl
    | false =>
        rw [if_neg Bool.false_ne_true]
        simp [fields_queues queue, same]

omit [DecidableEq Cpu] in
theorem effect_venter (here : s.state w = .transitioning) (free : s.recovering w = false) :
    Effect s (s.venter w) v (.enter w) := by
  rw [Sys.venter]
  by_cases same : v = w
  · subst same
    split
    · rename_i flag
      exact .notices rfl (.inl here) free flag (by simp)
    · rename_i clear
      exact .enters here free (by simpa using clear) (by simp)
  · apply Effect.stays (elsewhere_of_ne rfl same)
    split
    · simp [same]
    · simp [same]

theorem unpause_state (u : V) : ((s.queues.unpause l.home w).vcpu u).state =
    if u = w then .ready else s.state u := by
  simp [RunQueue.Sys.unpause, Sys.state]

theorem effect_vemuUnpauseVcpu : Effect s (s.vemuUnpauseVcpu l w) v (.unpause w) := by
  rw [Sys.vemuUnpauseVcpu]
  split
  · rename_i paused
    by_cases same : v = w
    · subst same
      exact .unpaused paused (by simp [fields_queues unpause_state])
    · exact .stays nofun (by simp [fields_queues unpause_state, same])
  · exact .stays nofun rfl

theorem effect_kick [DecidableEq P] {sender : P} :
    Effect s (s.kick l sender w) v (.kick sender w) := by
  rw [Sys.kick]
  split
  · rw [Sys.vemuPvSpinKick]
    split
    · rename_i paused
      have fields : ∀ failed, Sys.fields
          { s with failed := failed, queues := s.queues.unpause l.home w } v =
            if v = w then { s.fields v with state := .ready } else s.fields v :=
        fun failed => fields_queues (s := { s with failed := failed }) unpause_state
      by_cases same : v = w
      · subst same
        exact .kicked paused (by simp [fields])
      · exact .stays nofun (by simp [fields, same])
    · rename_i awake
      by_cases same : v = w
      · subst same
        exact .remembers awake (by simp)
      · exact .stays nofun (by simp [same])
  · exact .stays nofun rfl

theorem visit_fields : (s.visit l w).fields v = if v = w then { s.fields v with
    state := if (s.state v).isQueued then .terminated else s.state v, terminate := true }
      else s.fields v := by
  have ready : ∀ u, (((s.queues.dequeue l.home w).setState w .terminated).vcpu u).state =
      if u = w then .terminated else (s.setTerminate w).state u := by
    simp [Sys.state, Sys.setTerminate]
  have paused : ∀ u, (((s.queues.dequeuePaused l.home w).setState w .terminated).vcpu u).state =
      if u = w then .terminated else (s.setTerminate w).state u := by
    simp [Sys.state, Sys.setTerminate]
  rw [Sys.visit]
  split
  · rename_i here
    rw [fields_queues ready]
    by_cases same : v = w
    · simp [same, here, VcpuState.isQueued]
    · simp [same]
  · rename_i here
    rw [fields_queues paused]
    by_cases same : v = w
    · simp [same, here, VcpuState.isQueued]
    · simp [same]
  · rename_i here
    rw [fields_queues paused]
    by_cases same : v = w
    · simp [same, here, VcpuState.isQueued]
    · simp [same]
  · rename_i ready paused spinning
    have loose : (s.state w).isQueued = false := by
      cases here : s.state w <;> simp_all [VcpuState.isQueued]
    by_cases same : v = w
    · subst same
      rw [fields_setTerminate, if_pos rfl, if_pos rfl, loose]
      rfl
    · simp [same]

theorem effect_visit : Effect s (s.visit l w) v (.visit w) := by
  by_cases same : v = w
  · subst same
    exact .visited (by simp [visit_fields])
  · exact .stays nofun (by simp [visit_fields, same])

omit [DecidableEq Cpu] in
theorem effect_visitCurrent (mine : s.state w = .transitioning ∨ s.state w = .running)
    (free : s.recovering w = false) : Effect s (s.visitCurrent w) v (.visitCurrent w) := by
  by_cases same : v = w
  · subst same
    exact .fails mine free (by simp [Sys.visitCurrent])
  · exact .stays (elsewhere_of_ne rfl same) (by simp [Sys.visitCurrent, same])

/-- What `vsched_get` pops was ready. -/
theorem effect_get (files : Files l.home s.queues) (cpu : Cpu) :
    Effect s { s with queues := s.queues.get cpu } v (.get cpu) := by
  rcases files.get_state cpu v with kept | ⟨ready, popped⟩
  · exact .stays nofun (by simp [Sys.fields, Sys.state, kept])
  · exact .popped ready (by simp [Sys.fields, Sys.state, popped])

/-! ## Steps -/

variable [DecidableEq P]

theorem step_effect (files : Files l.home s.queues) (moved : step l s a = some t) (v : V) :
    Effect s t v a := by
  cases a with
  | place p | remove p =>
      obtain ⟨-, moved⟩ := Option.ite_none_right_eq_some.mp moved
      cases moved
      exact .stays nofun rfl
  | setRoute target sender allow =>
      cases moved
      exact .stays nofun rfl
  | put w =>
      simp only [step] at moved
      split at moved
      · rename_i here free
        cases moved
        exact effect_vschedPut (.inl here) free
      · rename_i here free
        split at moved <;> cases moved
        exact effect_vschedPut (.inr here) free
      · cases moved
  | putPaused w pvSpin =>
      simp only [step] at moved
      split at moved
      · rename_i here free
        cases moved
        exact effect_vschedPutPaused (.inl here) free
      · rename_i here free
        split at moved <;> cases moved
        exact effect_vschedPutPaused (.inr here) free
      · cases moved
  | get cpu =>
      cases moved
      exact effect_get files cpu
  | enter w =>
      simp only [step] at moved
      split at moved
      · rename_i here free
        cases moved
        exact effect_venter here free
      · cases moved
  | exit w =>
      obtain ⟨here, moved⟩ := Option.ite_none_right_eq_some.mp moved
      cases moved
      by_cases same : v = w
      · subst same
        exact .exits here (by simp)
      · exact .stays (elsewhere_of_ne rfl same) (by simp [same])
  | notice w =>
      simp only [step] at moved
      split at moved
      · rename_i here free flag
        cases moved
        by_cases same : v = w
        · subst same
          exact .notices rfl (.inl here) free flag (by simp)
        · exact .stays (elsewhere_of_ne rfl same) (by simp [same])
      · cases moved
  | unpause w =>
      obtain ⟨-, moved⟩ := Option.ite_none_right_eq_some.mp moved
      cases moved
      exact effect_vemuUnpauseVcpu
  | kick sender w =>
      cases moved
      exact effect_kick
  | visit w =>
      obtain ⟨-, moved⟩ := Option.ite_none_right_eq_some.mp moved
      cases moved
      exact effect_visit
  | visitCurrent w =>
      simp only [step] at moved
      split at moved
      · rename_i here free
        split at moved <;> cases moved
        exact effect_visitCurrent (.inl here) free
      · rename_i here free
        split at moved <;> cases moved
        exact effect_visitCurrent (.inr here) free
      · cases moved
  | recover w =>
      obtain ⟨busy, moved⟩ := Option.ite_none_right_eq_some.mp moved
      cases moved
      by_cases same : v = w
      · subst same
        exact .recovers busy (by simp)
      · exact .stays (elsewhere_of_ne rfl same) (by simp [same])
  | updateCriticality w criticality =>
      obtain ⟨-, moved⟩ := Option.ite_none_right_eq_some.mp moved
      cases moved
      exact .stays nofun (fields_queues_same fun u => updateCriticality_state w criticality)
  | writeLevel cpu level =>
      obtain ⟨-, moved⟩ := Option.ite_none_right_eq_some.mp moved
      cases moved
      exact .stays nofun rfl

end Proofs

end Twan.Vsched.Lifecycle
