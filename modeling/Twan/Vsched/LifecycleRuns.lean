/-
# Twan.Vsched.LifecycleRuns -- what every run does with the vcpus

A vcpu has two fields for one fact: `state` is `VPV_SPINNING` and `pv_spin_state` is
`VSPIN_PAUSED` while it waits for a kick.  `vsched_put_paused` and
`__vemu_pv_spin_kick` write both; the visit of a teardown writes only `state`.  A
spinning vcpu that is terminated keeps `VSPIN_PAUSED`, and as long as its partition has
other vcpus to wait for, a kick finds it, fails the assertion and makes it ready again
(`terminated_vcpu_kicked`).

* `step_queues`: a step does one action of `RunQueue` at most, but for that kick;
* `step_orderly`, `step_inv`: what every run keeps whose pops take vcpus of criticality 0, and
  what it keeps if in addition no spinning vcpu is terminated;
* `lifecycle_runs`: in every run that terminates no spinning vcpu, and pops vcpus of
  criticality 0 only, the two fields agree, no assertion fails, and a terminated vcpu
  stays terminated and out of every queue.
-/
import Twan.Vsched.Lifecycle

namespace Twan.Vsched.Lifecycle

set_option autoImplicit false

open Twan.Base Twan.Lib.Dq Twan.Vsched.RunQueue

section Invariant

variable {P Cpu V : Type} [DecidableEq P] [DecidableEq Cpu] [DecidableEq V] {l : Layout P Cpu V}
  {s t : Sys P Cpu V} {v w : V} {a : Action P Cpu V}

/-! ## The invariants -/

/-- The two fields of a vcpu agree, and if it recovers it is still on its way. -/
def VcpuFields.Agrees (f : VcpuFields) : Prop :=
  (f.pvSpin = .paused ↔ f.state = .pvSpinning) ∧
    (f.recovering = true → f.state = .transitioning ∨ f.state = .initializing)

/-- So it is for a vcpu that is not to be terminated; one that is may have been terminated while it
waited for a kick. -/
def VcpuFields.Settled (f : VcpuFields) : Prop :=
  (f.terminate = false → f.Agrees) ∧
    (f.pvSpin = .paused → f.state = .pvSpinning ∨ f.state = .terminated) ∧
    (f.recovering = true → f.state = .transitioning ∨ f.state = .initializing)

/-- The queues are in order, and every vcpu is settled. -/
structure Orderly (l : Layout P Cpu V) (s : Sys P Cpu V) : Prop where
  filed : Filed l.home l.maxCriticality s.queues
  settled : ∀ v, (s.fields v).Settled

/-- The two fields agree, and no assertion has failed. -/
structure Inv (l : Layout P Cpu V) (s : Sys P Cpu V) : Prop where
  filed : Filed l.home l.maxCriticality s.queues
  spins : ∀ v, s.pvSpin v = .paused ↔ s.state v = .pvSpinning
  recovers : ∀ v, s.recovering v = true → s.state v = .transitioning ∨ s.state v = .initializing
  failed : s.failed = false

omit [DecidableEq P] [DecidableEq Cpu] [DecidableEq V] in
theorem Inv.agrees (inv : Inv l s) (v : V) : (s.fields v).Agrees := ⟨inv.spins v, inv.recovers v⟩

omit [DecidableEq P] [DecidableEq Cpu] [DecidableEq V] in
theorem Inv.orderly (inv : Inv l s) : Orderly l s :=
  ⟨inv.filed, fun v => ⟨fun _ => inv.agrees v, fun paused => .inl ((inv.spins v).mp paused),
    inv.recovers v⟩⟩

omit [DecidableEq P] [DecidableEq Cpu] [DecidableEq V] in
theorem Inv.initial (initial : Initial l s) : Inv l s where
  filed := filed_initial initial.queues
  spins := fun v => by rcases initial.state v with here | here <;> simp [initial.pvSpin v, here]
  recovers := fun v busy => by simp [initial.recovering v] at busy
  failed := initial.failed

/-- What a step does to the queues: nothing, one action of `RunQueue`, or the kick that wakes a
terminated vcpu. -/
inductive QueueStep (l : Layout P Cpu V) (s t : Sys P Cpu V) : Prop where
  | same (queues : t.queues = s.queues)
  | action (b : RunQueue.Action Cpu V)
      (moved : RunQueue.step l.home l.maxCriticality s.queues b = some t.queues)
      (zero : PopsCriticalityZero s.queues b)
  | woken (v : V) (dead : s.state v = .terminated)
      (queues : t.queues = s.queues.unpause l.home v)

omit [DecidableEq P] in
theorem QueueStep.filed (queues : QueueStep l s t)
    (filed : Filed l.home l.maxCriticality s.queues) : Filed l.home l.maxCriticality t.queues := by
  cases queues with
  | same queues =>
      rw [queues]
      exact filed
  | action b moved zero => exact step_filed s.queues b t.queues filed zero moved
  | woken v dead queues =>
      rw [queues]
      exact filed.unpause_loose (by rw [show (s.queues.vcpu v).state = _ from dead]; rfl)

omit [DecidableEq P] in
theorem queues_vschedPut (busy : s.state w = .transitioning ∨ s.state w = .initializing) :
    QueueStep l s (s.vschedPut l w) := by
  rw [Sys.vschedPut]
  split
  · exact .same rfl
  · refine .action (.put w) ?_ trivial
    rcases busy with here | here <;> simp [RunQueue.step, show (s.queues.vcpu w).state = _ from here]

omit [DecidableEq P] in
theorem queues_vschedPutPaused {pvSpin : Bool}
    (busy : s.state w = .transitioning ∨ s.state w = .initializing) :
    QueueStep l s (s.vschedPutPaused l w pvSpin) := by
  have moved : ∀ spin, RunQueue.step l.home l.maxCriticality s.queues (.putPaused w spin) =
      some (s.queues.putPaused l.home w spin) := by
    intro spin
    rcases busy with here | here <;> simp [RunQueue.step, show (s.queues.vcpu w).state = _ from here]
  rw [Sys.vschedPutPaused]
  split
  · exact .same rfl
  split
  · split
    · exact .action (.putPaused w true) (moved true) trivial
    · exact .same rfl
    · exact .same rfl
  · exact .action (.putPaused w false) (moved false) trivial

omit [DecidableEq P] in
theorem Orderly.queues_kick (orderly : Orderly l s) :
    QueueStep l s (s.vemuPvSpinKick l w) := by
  rw [Sys.vemuPvSpinKick]
  split
  · rename_i paused
    rcases (orderly.settled w).2.1 paused with spinning | dead
    · refine .action (.unpause w) ?_ trivial
      simp [RunQueue.step, show (s.queues.vcpu w).state = _ from spinning]
      rfl
    · exact .woken w dead rfl
  · exact .same rfl

omit [DecidableEq P] in
theorem queues_visit : QueueStep l s (s.visit l w) := by
  rw [Sys.visit]
  split
  · rename_i here
    refine .action (.dequeue w) ?_ trivial
    simp [RunQueue.step, show (s.queues.vcpu w).state = _ from here]
  · rename_i here
    refine .action (.dequeuePaused w) ?_ trivial
    simp [RunQueue.step, show (s.queues.vcpu w).state = _ from here]
  · rename_i here
    refine .action (.dequeuePaused w) ?_ trivial
    simp [RunQueue.step, show (s.queues.vcpu w).state = _ from here]
  · exact .same rfl

omit [DecidableEq P] in
/-- A vcpu in the hands of a CPU is terminated there. -/
theorem queues_terminated {state : VcpuState} (here : s.state w = state)
    (busy : state.isBusy = true) (same : t.queues = s.queues.setState w .terminated) :
    QueueStep l s t := by
  refine .action (.recover w) ?_ trivial
  rw [RunQueue.step, show (s.queues.vcpu w).state = _ from here, same]
  cases state <;> first | rfl | cases busy

theorem step_queues (orderly : Orderly l s) (zero : PopsZero s a) (moved : step l s a = some t) :
    QueueStep l s t := by
  cases a with
  | place p | remove p =>
      obtain ⟨-, moved⟩ := Option.ite_none_right_eq_some.mp moved
      cases moved
      exact .same rfl
  | setRoute target sender allow =>
      cases moved
      exact .same rfl
  | put w =>
      simp only [step] at moved
      split at moved
      · rename_i here _
        cases moved
        exact queues_vschedPut (.inl here)
      · rename_i here _
        split at moved <;> cases moved
        exact queues_vschedPut (.inr here)
      · cases moved
  | putPaused w pvSpin =>
      simp only [step] at moved
      split at moved
      · rename_i here _
        cases moved
        exact queues_vschedPutPaused (.inl here)
      · rename_i here _
        split at moved <;> cases moved
        exact queues_vschedPutPaused (.inr here)
      · cases moved
  | get cpu =>
      cases moved
      exact .action (.get cpu) rfl zero
  | enter w =>
      simp only [step] at moved
      split at moved
      · rename_i here _
        cases moved
        rw [Sys.venter]
        split
        · exact .same rfl
        · refine .action (.enter w) ?_ trivial
          simp [RunQueue.step, show (s.queues.vcpu w).state = _ from here, Sys.setState]
      · cases moved
  | exit w =>
      obtain ⟨here, moved⟩ := Option.ite_none_right_eq_some.mp moved
      cases moved
      refine .action (.exit w) ?_ trivial
      simp [RunQueue.step, show (s.queues.vcpu w).state = _ from here, Sys.setState]
  | notice w =>
      simp only [step] at moved
      split at moved <;> cases moved
      exact .same rfl
  | unpause w =>
      obtain ⟨-, moved⟩ := Option.ite_none_right_eq_some.mp moved
      cases moved
      rw [Sys.vemuUnpauseVcpu]
      split
      · rename_i here
        refine .action (.unpause w) ?_ trivial
        simp [RunQueue.step, show (s.queues.vcpu w).state = _ from here]
      · exact .same rfl
  | kick sender w =>
      cases moved
      rw [Sys.kick]
      split
      · exact orderly.queues_kick
      · exact .same rfl
  | visit w =>
      obtain ⟨-, moved⟩ := Option.ite_none_right_eq_some.mp moved
      cases moved
      exact queues_visit
  | visitCurrent w =>
      simp only [step] at moved
      split at moved
      · rename_i here _
        split at moved <;> cases moved
        exact queues_terminated here rfl rfl
      · rename_i here _
        split at moved <;> cases moved
        exact queues_terminated here rfl rfl
      · cases moved
  | recover w =>
      obtain ⟨busy, moved⟩ := Option.ite_none_right_eq_some.mp moved
      cases moved
      rcases (orderly.settled w).2.2 busy with here | here
      · exact queues_terminated here rfl rfl
      · exact queues_terminated here rfl rfl
  | updateCriticality w criticality =>
      obtain ⟨bound, moved⟩ := Option.ite_none_right_eq_some.mp moved
      cases moved
      exact .action (.updateCriticality w criticality) (if_pos bound) trivial
  | writeLevel cpu level =>
      obtain ⟨bound, moved⟩ := Option.ite_none_right_eq_some.mp moved
      cases moved
      exact .action (.writeLevel cpu level) (if_pos bound) trivial

omit [DecidableEq P] [DecidableEq Cpu] [DecidableEq V] in
/-- The visit to a spinning vcpu is the only one that takes the two fields apart. -/
theorem Effect.agrees (effect : Effect s t v a) (spares : a = .visit v → s.state v ≠ .pvSpinning)
    (before : (s.fields v).Agrees) : (t.fields v).Agrees := by
  obtain ⟨spins, recovers⟩ := before
  cases effect with
  | visited now =>
      have calm := spares rfl
      rw [now]
      grind [VcpuFields.Agrees, Sys.fields, VcpuState.isQueued]
  | stays _ now | parks _ _ _ _ _ now | spins _ _ _ now | asserts _ _ now | forgets _ _ now | notices _ _ _ _ now
  | enters _ _ _ now | exits _ now | popped _ now | unpaused _ now | kicked _ now
  | remembers _ now | fails _ _ now | recovers _ now =>
      rw [now]
      grind [VcpuFields.Agrees, Sys.fields]

omit [DecidableEq P] [DecidableEq Cpu] [DecidableEq V] in
theorem Effect.settled (effect : Effect s t v a) (before : (s.fields v).Settled) :
    (t.fields v).Settled := by
  obtain ⟨unflagged, spins, recovers⟩ := before
  cases effect with
  | visited now =>
      rw [now]
      grind [VcpuFields.Settled, VcpuFields.Agrees, Sys.fields, VcpuState.isQueued]
  | stays _ now | parks _ _ _ _ _ now | spins _ _ _ now | asserts _ _ now | forgets _ _ now
  | notices _ _ _ _ now | enters _ _ _ now | exits _ now | popped _ now | unpaused _ now
  | kicked _ now | remembers _ now | fails _ _ now | recovers _ now =>
      rw [now]
      grind [VcpuFields.Settled, VcpuFields.Agrees, Sys.fields]

omit [DecidableEq P] [DecidableEq Cpu] [DecidableEq V] in
/-- Nothing takes a terminated vcpu back. -/
theorem Effect.terminated (effect : Effect s t v a) (agrees : (s.fields v).Agrees)
    (dead : s.state v = .terminated) : t.state v = .terminated := by
  obtain ⟨spins, recovers⟩ := agrees
  have same : ∀ {f : VcpuFields}, t.fields v = f → f.state = .terminated →
      t.state v = .terminated := fun now there => (congrArg VcpuFields.state now).trans there
  cases effect with
  | stays _ now | asserts _ _ now | forgets _ _ now | notices _ _ _ _ now | remembers _ now =>
      exact same now dead
  | fails _ _ now | recovers _ now => exact same now rfl
  | visited now => exact same now (by simp [dead, VcpuState.isQueued])
  | parks _ busy | spins busy => rcases busy with here | here <;> simp [dead] at here
  | enters here | exits here | popped here | unpaused here => simp [dead] at here
  | kicked paused =>
      have spinning : s.state v = .pvSpinning := spins.mp paused
      simp [dead] at spinning

omit [DecidableEq P] [DecidableEq Cpu] [DecidableEq V] in
/-- Only its own CPU takes a vcpu into the guest or out of it. -/
theorem Effect.running (effect : Effect s t v a) (settled : (s.fields v).Settled)
    (elsewhere : a.onCpu ≠ some v) : t.state v = .running ↔ s.state v = .running := by
  have same : ∀ {f : VcpuFields}, t.fields v = f → t.state v = f.state :=
    fun now => congrArg VcpuFields.state now
  cases effect with
  | stays _ now | remembers _ now =>
      rw [same now]
      rfl
  | popped here now | unpaused here now => simp [same now, here]
  | kicked paused now =>
      rcases settled.2.1 paused with here | here <;> simp [same now, show s.state v = _ from here]
  | visited now => rw [same now]; cases s.state v <;> simp [VcpuState.isQueued]
  | parks own => rcases own with rfl | rfl <;> exact absurd rfl elsewhere
  | notices own => exact absurd (onCpu_of_looks own) elsewhere
  | spins | asserts | forgets | enters | exits | fails | recovers => exact absurd rfl elsewhere

omit [DecidableEq P] [DecidableEq Cpu] [DecidableEq V] in
/-- Only `__venter` runs a vcpu. -/
theorem Effect.not_running (effect : Effect s t v a) (calm : s.state v ≠ .running)
    (out : a ≠ .enter v) : t.state v ≠ .running := by
  have same : ∀ {f : VcpuFields}, t.fields v = f → t.state v = f.state :=
    fun now => congrArg VcpuFields.state now
  cases effect with
  | stays _ now | asserts _ _ now | forgets _ _ now | notices _ _ _ _ now | remembers _ now =>
      rw [same now]
      exact calm
  | parks _ _ _ _ queue now => rcases queue with rfl | rfl <;> simp [same now]
  | spins _ _ _ now | exits _ now | popped _ now | unpaused _ now | kicked _ now | fails _ _ now
  | recovers _ now => simp [same now]
  | enters => exact absurd rfl out
  | visited now =>
      rw [same now]
      dsimp only
      split
      · decide
      · exact calm

/-- The step terminates the vcpu, or may do so. -/
def Action.ends : Action P Cpu V → Option V
  | .visit v | .visitCurrent v | .recover v => some v
  | _ => none

omit [DecidableEq P] [DecidableEq Cpu] [DecidableEq V] in
/-- Every other step leaves a vcpu terminated or alive as it was. -/
theorem Effect.terminated_iff (effect : Effect s t v a) (agrees : (s.fields v).Agrees)
    (spared : a.ends ≠ some v) : t.state v = .terminated ↔ s.state v = .terminated := by
  refine ⟨fun dead => ?_, effect.terminated agrees⟩
  have same : ∀ {f : VcpuFields}, t.fields v = f → f.state = .terminated :=
    fun now => (congrArg VcpuFields.state now).symm.trans dead
  cases effect with
  | stays _ now | asserts _ _ now | forgets _ _ now | notices _ _ _ _ now | remembers _ now =>
      exact same now
  | parks _ _ _ _ queue now =>
      have there := same now
      rcases queue with rfl | rfl <;> cases there
  | spins _ _ _ now | enters _ _ _ now | exits _ now | popped _ now | unpaused _ now
  | kicked _ now => cases same now
  | visited | fails | recovers => exact absurd rfl spared

omit [DecidableEq P] [DecidableEq Cpu] [DecidableEq V] in
/-- A vcpu that is flagged outside the queues stays outside. -/
theorem Effect.flagged (effect : Effect s t v a) (agrees : (s.fields v).Agrees)
    (before : s.terminate v = true → (s.state v).isQueued = false) :
    t.terminate v = true → (t.state v).isQueued = false := by
  obtain ⟨spins, recovers⟩ := agrees
  have state : ∀ {f : VcpuFields}, t.fields v = f → t.state v = f.state :=
    fun now => congrArg VcpuFields.state now
  have flag : ∀ {f : VcpuFields}, t.fields v = f → t.terminate v = f.terminate :=
    fun now => congrArg VcpuFields.terminate now
  cases effect with
  | stays _ now | asserts _ _ now | forgets _ _ now | notices _ _ _ _ now | remembers _ now =>
      rw [state now, flag now]
      exact before
  | parks _ _ _ clear _ now | spins _ _ clear now =>
      rw [flag now]
      intro set
      exact absurd (clear.symm.trans set) Bool.false_ne_true
  | enters _ _ _ now | exits _ now | popped _ now | fails _ _ now | recovers _ now =>
      rw [state now]
      exact fun _ => rfl
  | unpaused paused now =>
      rw [flag now]
      intro set
      have loose := before set
      simp [paused, VcpuState.isQueued] at loose
  | kicked paused now =>
      rw [flag now]
      intro set
      have loose := before set
      have spinning : s.state v = .pvSpinning := spins.mp paused
      simp [spinning, VcpuState.isQueued] at loose
  | visited now =>
      rw [state now]
      intro _
      dsimp only
      split
      · rfl
      · rename_i loose
        simpa using loose

omit [DecidableEq P] in
theorem Orderly.next (orderly : Orderly l s) (queues : QueueStep l s t)
    (effect : ∀ v, Effect s t v a) : Orderly l t :=
  ⟨queues.filed orderly.filed, fun v => (effect v).settled (orderly.settled v)⟩

theorem step_orderly (orderly : Orderly l s) (zero : PopsZero s a) (moved : step l s a = some t) :
    Orderly l t :=
  orderly.next (step_queues orderly zero moved) (step_effect orderly.filed.filing moved)

omit [DecidableEq P] in
theorem failed_vschedPut : (s.vschedPut l w).failed = s.failed := by
  rw [Sys.vschedPut]
  split <;> rfl

omit [DecidableEq P] in
theorem failed_visit : (s.visit l w).failed = s.failed := by
  rw [Sys.visit]
  split <;> rfl

omit [DecidableEq P] in
theorem slot_visit : (s.visit l w).slot = s.slot := by
  rw [Sys.visit]
  split <;> rfl

omit [DecidableEq P] in
/-- A vcpu on its way is not paused by `vpv_spin_pause`. -/
theorem Inv.failed_vschedPutPaused {pvSpin : Bool} (inv : Inv l s)
    (busy : s.state w = .transitioning ∨ s.state w = .initializing) :
    (s.vschedPutPaused l w pvSpin).failed = s.failed := by
  rw [Sys.vschedPutPaused]
  split
  · rfl
  split
  · split
    · rfl
    · rfl
    · rename_i paused
      have spinning : s.state w = .pvSpinning := (inv.spins w).mp paused
      rcases busy with here | here <;> simp [spinning] at here
  · rfl

/-- The assertion of a kick holds where the two fields agree. -/
theorem Inv.failed_kick {sender : P} (inv : Inv l s) : (s.kick l sender w).failed = s.failed := by
  rw [Sys.kick]
  split
  · rw [Sys.vemuPvSpinKick]
    split
    · rename_i paused
      have spinning : s.state w = .pvSpinning := (inv.spins w).mp paused
      simp [Sys.setPvSpin, spinning]
    · rfl
  · rfl

theorem Inv.step_failed (inv : Inv l s) (moved : step l s a = some t) : t.failed = s.failed := by
  cases a with
  | place p | remove p | exit w | recover w | updateCriticality w c | writeLevel cpu c =>
      obtain ⟨-, moved⟩ := Option.ite_none_right_eq_some.mp moved
      cases moved
      rfl
  | setRoute target sender allow | get cpu =>
      cases moved
      rfl
  | put w =>
      simp only [step] at moved
      split at moved
      · cases moved
        exact failed_vschedPut
      · split at moved <;> cases moved
        exact failed_vschedPut
      · cases moved
  | putPaused w pvSpin =>
      simp only [step] at moved
      split at moved
      · rename_i here _
        cases moved
        exact inv.failed_vschedPutPaused (.inl here)
      · rename_i here _
        split at moved <;> cases moved
        exact inv.failed_vschedPutPaused (.inr here)
      · cases moved
  | enter w =>
      simp only [step, Sys.venter] at moved
      split at moved
      · cases moved
        split <;> rfl
      · cases moved
  | notice w =>
      simp only [step] at moved
      split at moved <;> cases moved
      rfl
  | unpause w =>
      obtain ⟨-, moved⟩ := Option.ite_none_right_eq_some.mp moved
      cases moved
      rw [Sys.vemuUnpauseVcpu]
      split <;> rfl
  | kick sender w =>
      cases moved
      exact inv.failed_kick
  | visit w =>
      obtain ⟨-, moved⟩ := Option.ite_none_right_eq_some.mp moved
      cases moved
      exact failed_visit
  | visitCurrent w =>
      simp only [step] at moved
      split at moved
      · split at moved <;> cases moved
        rfl
      · split at moved <;> cases moved
        rfl
      · cases moved

/-- Only the end of a partition, or its beginning, changes its entry. -/
theorem step_slot (moved : step l s a = some t) {p : P} (placed : a ≠ .place p)
    (removed : a ≠ .remove p) : t.slot p = s.slot p := by
  cases a with
  | place q | remove q =>
      obtain ⟨-, moved⟩ := Option.ite_none_right_eq_some.mp moved
      cases moved
      apply Function.update_of_ne
      rintro rfl
      first | exact placed rfl | exact removed rfl
  | exit w | recover w | updateCriticality w c | writeLevel cpu c =>
      obtain ⟨-, moved⟩ := Option.ite_none_right_eq_some.mp moved
      cases moved
      rfl
  | setRoute target sender allow | get cpu =>
      cases moved
      rfl
  | put w =>
      simp only [step, Sys.vschedPut] at moved
      split at moved
      · cases moved
        split <;> rfl
      · split at moved <;> cases moved
        split <;> rfl
      · cases moved
  | putPaused w pvSpin =>
      have kept : ∀ spin, (s.vschedPutPaused l w spin).slot = s.slot := by
        intro spin
        rw [Sys.vschedPutPaused]
        repeat' first | rfl | split
      simp only [step] at moved
      split at moved
      · cases moved
        rw [kept]
      · split at moved <;> cases moved
        rw [kept]
      · cases moved
  | enter w =>
      simp only [step, Sys.venter] at moved
      split at moved <;> cases moved
      split <;> rfl
  | notice w =>
      simp only [step] at moved
      split at moved <;> cases moved
      rfl
  | unpause w =>
      obtain ⟨-, moved⟩ := Option.ite_none_right_eq_some.mp moved
      cases moved
      rw [Sys.vemuUnpauseVcpu]
      split <;> rfl
  | kick sender w =>
      cases moved
      rw [Sys.kick, Sys.vemuPvSpinKick]
      repeat' first | rfl | split
  | visit w =>
      obtain ⟨-, moved⟩ := Option.ite_none_right_eq_some.mp moved
      cases moved
      rw [slot_visit]
  | visitCurrent w =>
      simp only [step] at moved
      split at moved
      · split at moved <;> cases moved
        rfl
      · split at moved <;> cases moved
        rfl
      · cases moved

omit [DecidableEq P] [DecidableEq Cpu] [DecidableEq V] in
theorem spares_visit (spares : SparesSpinning s a) (visits : a = .visit v) :
    s.state v ≠ .pvSpinning := by
  subst visits
  exact spares

theorem step_inv (inv : Inv l s) (careful : Careful s a) (moved : step l s a = some t) :
    Inv l t := by
  have agrees : ∀ v, (t.fields v).Agrees := fun v =>
    (step_effect inv.filed.filing moved v).agrees (spares_visit careful.2) (inv.agrees v)
  exact ⟨(step_orderly inv.orderly careful.1 moved).filed, fun v => (agrees v).1,
    fun v => (agrees v).2, (inv.step_failed moved).trans inv.failed⟩

omit [DecidableEq P] in
/-- The condition on terminations is sharp: the visit to a spinning vcpu leaves the two
fields apart at once. -/
theorem visit_spinning (inv : Inv l s) (spinning : s.state v = .pvSpinning) :
    (s.visit l v).state v = .terminated ∧ (s.visit l v).pvSpin v = .paused := by
  have paused : s.pvSpin v = .paused := (inv.spins v).mpr spinning
  rw [Sys.visit, spinning]
  exact ⟨by simp [Sys.state], paused⟩

/-! ## Runs -/

/-- A state that the scheduler can reach, as long as its pops take vcpus of criticality 0. -/
def Reached (l : Layout P Cpu V) (t : Sys P Cpu V) : Prop :=
  ∃ s run, Initial l s ∧ Along PopsZero (step l) s run ∧ exec (step l) s run = some t

theorem Reached.orderly (reached : Reached l t) : Orderly l t := by
  obtain ⟨s, run, initial, zero, ran⟩ := reached
  exact exec_invariant_along (fun _ _ _ => step_orderly) (Inv.initial initial).orderly zero ran

theorem exec_inv {run : List (Action P Cpu V)} (inv : Inv l s)
    (careful : Along Careful (step l) s run) (ran : exec (step l) s run = some t) : Inv l t :=
  exec_invariant_along (fun _ _ _ => step_inv) inv careful ran

/-- Once terminated, terminated in every later state. -/
theorem exec_terminated {run : List (Action P Cpu V)} (inv : Inv l s)
    (careful : Along Careful (step l) s run) (ran : exec (step l) s run = some t)
    (dead : s.state v = .terminated) : t.state v = .terminated := by
  have both : Inv l t ∧ t.state v = .terminated :=
    exec_invariant_along (I := fun s => Inv l s ∧ s.state v = .terminated)
      (fun s a u held ok moved => ⟨step_inv held.1 ok moved,
        (step_effect held.1.filed.filing moved v).terminated (held.1.agrees v) held.2⟩)
      ⟨inv, dead⟩ careful ran
  exact both.2

/-- **Lifecycle of a vcpu.**  Take any run that terminates no spinning vcpu and pops
vcpus of criticality 0 only, and cut it anywhere.  At the cut `pv_spin_state` is
`VSPIN_PAUSED` only for vcpus in state `VPV_SPINNING` and no assertion has failed; a vcpu
that is terminated there is terminated at the end, and in no queue. -/
theorem lifecycle_runs {s u t : Sys P Cpu V} {first second : List (Action P Cpu V)}
    (initial : Initial l s) (careful : Along Careful (step l) s (first ++ second))
    (ran : exec (step l) s first = some u) (later : exec (step l) u second = some t) :
    (∀ v, u.pvSpin v = .paused → u.state v = .pvSpinning) ∧ u.failed = false ∧
      ∀ v, u.state v = .terminated → t.state v = .terminated ∧
        ∃ contents, Holds t.queues.dqs contents ∧ ∀ q i, (v, i) ∉ contents q := by
  obtain ⟨front, back⟩ := careful.split ran
  have middle : Inv l u := exec_inv (Inv.initial initial) front ran
  refine ⟨fun v => (middle.spins v).mp, middle.failed, fun v dead => ?_⟩
  have still : t.state v = .terminated := exec_terminated middle back later dead
  obtain ⟨contents, holds, members⟩ := (exec_inv middle back later).filed.filing
  refine ⟨still, contents, holds, fun q i inside => ?_⟩
  refine not_belongs ?_ ((members (v, i) q).mp inside)
  rw [show (t.queues.vcpu v).state = _ from still]
  rfl

end Invariant

/-! ## Short runs -/

/-- One partition with two vcpus on one CPU. -/
def pair (maxCriticality : Nat) : Layout Unit Unit Bool :=
  ⟨fun _ => (), fun _ => (), fun _ => [false, true], maxCriticality⟩

def newPair (criticality : Nat) : Sys Unit Unit Bool :=
  ⟨two criticality, fun _ => .none, fun _ => false, fun _ => false, fun _ => .unplaced,
    fun _ _ => false, false⟩

theorem initial_newPair {criticality : Nat} (bound : criticality ≤ 1) :
    Initial (pair 1) (newPair criticality) where
  queues := initial_two bound
  state := fun _ => .inl rfl
  pvSpin := fun _ => rfl
  terminate := fun _ => rfl
  recovering := fun _ => rfl
  failed := rfl

/-- Both vcpus are put; the first one runs, waits for a kick, and the second one runs. -/
def spin : List (Action Unit Unit Bool) :=
  [.place (), .put false, .put true, .get (), .enter false, .exit false, .putPaused false true,
    .get (), .enter true, .exit true]

/-- The waiting vcpu is kicked, terminated while it is ready, and kicked once more. -/
theorem lifecycle_runs_kicked : ∃ u t,
    exec (step (pair 1)) (newPair 0) (spin ++ [.kick () false, .visit false]) = some u ∧
      exec (step (pair 1)) u [.kick () false] = some t ∧
      u.state false = .terminated ∧ u.failed = false ∧ t.state false = .terminated ∧
      ∃ contents, Holds t.queues.dqs contents ∧ ∀ q i, (false, i) ∉ contents q := by
  have ran : ∃ u, exec (step (pair 1)) (newPair 0) (spin ++ [.kick () false, .visit false]) = some u ∧
      u.state false = .terminated ∧ ∃ t, exec (step (pair 1)) u [.kick () false] = some t :=
    ⟨_, rfl, rfl, _, rfl⟩
  obtain ⟨u, done, dead, t, later⟩ := ran
  have zero : ∀ {s : Sys Unit Unit Bool}, (∀ v, (s.queues.vcpu v).criticality = 0) →
      Careful s (.get ()) := fun level => ⟨fun _ n _ _ => level n.1, trivial⟩
  have careful : Along Careful (step (pair 1)) (newPair 0)
      ((spin ++ [.kick () false, .visit false]) ++ [.kick () false]) := by
    iterate 3 refine .cons ⟨trivial, trivial⟩ rfl ?_
    refine .cons (zero (by decide +kernel)) rfl ?_
    iterate 3 refine .cons ⟨trivial, trivial⟩ rfl ?_
    refine .cons (zero (by decide +kernel)) rfl ?_
    iterate 3 refine .cons ⟨trivial, trivial⟩ rfl ?_
    refine .cons ⟨trivial, ?_⟩ rfl (.cons ⟨trivial, trivial⟩ rfl trivial)
    rw [SparesSpinning]
    decide +kernel
  obtain ⟨-, calm, stays⟩ := lifecycle_runs (initial_newPair (by decide)) careful done later
  exact ⟨u, t, done, later, dead, calm, stays false dead⟩

/-- A spinning vcpu is terminated while the other vcpu of its partition is still in a
call; the kick of that call fails its assertion and puts the terminated vcpu back into
the run queue. -/
theorem terminated_vcpu_kicked : ∃ u t, Initial (pair 1) (newPair 0) ∧
    exec (step (pair 1)) (newPair 0) (spin ++ [.visit false, .visit true]) = some u ∧
      u.state false = .terminated ∧ u.pvSpin false = .paused ∧ u.failed = false ∧
      exec (step (pair 1)) u [.kick () false] = some t ∧
      t.state false = .ready ∧ t.failed = true ∧
      t.queues.dqs.peekfront (.queues () 0) = some (false, 0) :=
  ⟨_, _, initial_newPair (by decide), rfl, rfl, rfl, rfl, rfl, rfl, rfl, rfl⟩

/-- A vcpu of criticality 1 terminates itself while it is still linked in a queue it was
not popped from, and a change of the level takes it out of there onto a CPU. -/
theorem terminated_vcpu_popped : ∃ u t, Initial (pair 1) (newPair 1) ∧
    exec (step (pair 1)) (newPair 1) [.place (), .put false, .get (), .enter false, .visit false,
      .exit false, .notice false, .recover false] = some u ∧ u.state false = .terminated ∧
      exec (step (pair 1)) u [.writeLevel () 1, .get ()] = some t ∧
      t.state false = .transitioning :=
  ⟨_, _, initial_newPair (by decide), rfl, rfl, rfl, rfl⟩

end Twan.Vsched.Lifecycle
