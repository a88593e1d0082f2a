/-
# Twan.Vsched.SliceTimerGuard -- a vcpu with a time slice has a timer

* `slice_guarded_iff`: in a run that pops ready vcpus only, a vcpu with a time slice never runs
  without a timer, a request to yield or a reload to come, if and only if no other CPU gives a slice
  to a vcpu in transition that has none, where no reload is to come.  `vemu_alter_vcpu` has the
  reload for a running vcpu and for the caller itself.

Poles: `slice_guarded_remote` and `slice_without_timer`.
-/
import Twan.Vsched.SliceTimerLaw

namespace Twan.Vsched.SliceTimer

set_option autoImplicit false
set_option linter.unusedSectionVars false

open Twan.Base

section Spec

variable {V : Type} [DecidableEq V] (s : Sys V)

/-- The CPU works for the current vcpu. -/
def Phase.live : Phase → Bool
  | .picking _ | .failing => false
  | _ => true

/-- A current vcpu with a slice has a timer, a request to yield or a reload to come. -/
def Timed : Phase → Prop
  | .preempt _ | .reread _ | .picking _ | .failing => True
  | .arming ticks _ _ => s.cur.currentTimeSliceTicks ≠ 0 →
      ticks ≠ 0 ∨ s.cur.yieldRequest = true ∨ s.cur.rearm = true
  | .entering ticks rearm => s.cur.currentTimeSliceTicks ≠ 0 →
      (if rearm then ticks ≠ 0 else s.schedTimerArmed = true) ∨ s.cur.rearm = true
  | _ => s.cur.currentTimeSliceTicks ≠ 0 →
      s.schedTimerArmed = true ∨ s.cur.yieldRequest = true ∨ s.cur.rearm = true

/-- So it has, and in its guest the timer counts or interrupts, or the reload is on its way. -/
def Guarded : Prop :=
  Timed s s.phase ∧ (s.phase = .guest → s.cur.currentTimeSliceTicks ≠ 0 →
    s.schedTimerArmed = true ∧ (s.curCount ≠ 0 ∨ s.irr = true ∨ s.inService = true) ∨
      s.cur.rearm = true ∧ s.vipi = true)

/-- A slice is given to a vcpu in transition that has none by the vcpu itself, or where a reload is
to come anyway, or where its CPU does not work for it any more. -/
def Rearms : Action V → Prop
  | .alter v ticks own => v = s.current → s.phase.live = true →
      (s.vcpu v).state = .transitioning → (s.vcpu v).currentTimeSliceTicks = 0 → ticks ≠ 0 →
        own = true ∨ (s.vcpu v).rearm = true
  | _ => True

instance Rearms.decidable : DecidablePred (Rearms s)
  | .alter v ticks own => inferInstanceAs (Decidable (v = s.current → s.phase.live = true →
      (s.vcpu v).state = .transitioning → (s.vcpu v).currentTimeSliceTicks = 0 → ticks ≠ 0 →
        own = true ∨ (s.vcpu v).rearm = true))
  | .count | .vmexit _ | .vexit | .extDispatch | .disablePreemption | .enablePreemptionNoYield
  | .tryAnswerYieldRequest _ | .interrupt | .timerDone | .requestYield _ | .reread | .preempt _
  | .armTimer | .acknowledge | .yield _ | .pause _ | .recover | .fail | .terminate | .getOrIdle _
  | .idleYield | .venter | .vmentry | .vipi | .put _ | .putPaused _ | .unpause _ | .kick _
  | .teardown _ => isTrue trivial

end Spec

section Proofs

variable {V : Type} [DecidableEq V] {idle : V} {s t : Sys V}

theorem Timed.congr {phase : Phase} (timed : Timed s phase) (cur : t.cur = s.cur)
    (armed : t.schedTimerArmed = s.schedTimerArmed) : Timed t phase := by
  cases phase
  case preempt | reread | picking | failing => trivial
  all_goals simpa only [Timed, cur, armed] using timed

theorem timed_of_rearm (phase : Phase) (set : s.cur.rearm = true) : Timed s phase := by
  cases phase
  case preempt | reread | picking | failing => trivial
  case entering => exact fun _ => .inr set
  all_goals exact fun _ => .inr (.inr set)

theorem start_timed (timer : Bool) (v : V) : Timed (s.start timer v) (s.start timer v).phase := by
  intro slice
  refine .inl ?_
  simpa [Sys.cur, Sys.start] using slice

theorem reschedule_timed (timer : Bool) (p : Point) (next : Option V) :
    Timed (s.reschedule timer p next) (s.reschedule timer p next).phase := by
  cases next with
  | none =>
      intro slice
      refine .inl ?_
      simpa [Sys.reschedule, Sys.cur, Sys.setCur] using slice
  | some v => exact start_timed timer v

/-- Where the phase goes on and the vcpu keeps its slice, its request and its reload. -/
theorem Timed.keep {phase : Phase} (timed : Timed s phase)
    (slice : t.cur.currentTimeSliceTicks = s.cur.currentTimeSliceTicks)
    (yieldRequest : t.cur.yieldRequest = s.cur.yieldRequest) (rearm : t.cur.rearm = s.cur.rearm)
    (armed : t.schedTimerArmed = s.schedTimerArmed) : Timed t phase := by
  cases phase
  case preempt | reread | picking | failing => trivial
  all_goals simpa only [Timed, slice, yieldRequest, rearm, armed] using timed

theorem Good.waits (good : Good idle s) (live : s.phase.live = true) :
    s.cur.state = .running ∨ s.cur.state = .transitioning := by
  have here := good.here
  cases phase : s.phase <;> rw [phase] at here live
  case guest | entering => exact .inl here.2.2.1.state
  case exited => exact .inl here.2.2.state
  case host | isr | preempt | reread | leaving => exact .inr here.2.2.state
  case arming => exact .inr here.2.1.state
  case picking | failing => cases live

theorem timed_of_left (left : s.phase.live = false) : Timed t s.phase := by
  cases phase : s.phase <;> rw [phase] at left
  case picking | failing => trivial
  all_goals cases left

theorem timed_of_picking (picking : ∃ timer, s.phase = .picking timer) : Timed t s.phase := by
  obtain ⟨timer, phase⟩ := picking
  rw [phase]
  trivial

/-- Another CPU moves a vcpu that is not on its own. -/
theorem relocate_timed (timed : Timed s s.phase) {v : V} {c : Vcpu}
    (left : v = s.current → ∃ timer, s.phase = .picking timer) :
    Timed { s with vcpu := Function.update s.vcpu v c } s.phase := by
  by_cases same : v = s.current
  · exact timed_of_picking (left same)
  · exact timed.congr (Function.update_of_ne (Ne.symm same) _ _) rfl

theorem alter_of_ne {v w : V} (other : w ≠ v) (ticks : ℕ) (own : Bool) :
    (s.alter v ticks own).vcpu w = s.vcpu w := by
  unfold Sys.alter
  dsimp only
  split_ifs <;> exact Function.update_of_ne other _ _

theorem alter_timed (good : Good idle s) (timed : Timed s s.phase) {v : V} {ticks : ℕ} {own : Bool}
    (rearms : Rearms s (.alter v ticks own)) : Timed (s.alter v ticks own) s.phase := by
  have altered := alter_altered (s := s) v ticks own
  by_cases same : v = s.current
  · subst same
    have cur : (s.alter s.current ticks own).cur = (s.alter s.current ticks own).vcpu s.current := by
      rw [Sys.cur, altered.current]
    by_cases live : s.phase.live = true
    · by_cases fresh : s.cur.currentTimeSliceTicks = 0 ∧ ticks ≠ 0
      · -- a reload is to come, whoever gives the slice
        apply timed_of_rearm
        rw [cur]
        obtain running | transitioning := good.waits live
        · have state : (s.vcpu s.current).state = .running := running
          have slice : (s.vcpu s.current).currentTimeSliceTicks = 0 := fresh.1
          simp [Sys.alter, slice, fresh.2, state]
        · obtain rfl | set := rearms rfl live transitioning fresh.1 fresh.2
          · have state : (s.vcpu s.current).state = .transitioning := transitioning
            have slice : (s.vcpu s.current).currentTimeSliceTicks = 0 := fresh.1
            simp [Sys.alter, slice, fresh.2, state]
          · exact altered.kept _ set
      · have kept : (s.alter s.current ticks own).cur = { s.cur with timeSliceTicks := ticks } := by
          have stays : ¬ ((s.vcpu s.current).currentTimeSliceTicks = 0 ∧ ticks ≠ 0) := fresh
          simp only [Sys.alter, if_neg stays, Sys.cur, Function.update_self]
        exact timed.keep (by rw [kept]) (by rw [kept]) (by rw [kept]) altered.armed
    · exact timed_of_left (Bool.eq_false_iff.mpr live)
  · refine timed.congr ?_ altered.armed
    rw [Sys.cur, altered.current, alter_of_ne (Ne.symm same), Sys.cur]

/-! ## The steps of the current vcpu -/

theorem vmexit_timed {exit : Exit} (timed : Timed s s.phase)
    (moved : step idle s (.vmexit exit) = some t) : Timed t t.phase := by
  obtain ⟨phase, moved⟩ := Option.ite_none_right_eq_some.mp moved
  rw [phase] at timed
  cases exit with
  | timer | vipi =>
      obtain ⟨-, ⟨⟩⟩ := Option.ite_none_right_eq_some.mp moved
      exact timed
  | other =>
      cases moved
      exact timed

theorem vexit_timed (timed : Timed s s.phase) (moved : step idle s .vexit = some t) :
    Timed t t.phase := by
  obtain ⟨phase, ⟨⟩⟩ := Option.ite_none_right_eq_some.mp moved
  rw [phase] at timed
  simpa [Timed, Sys.cur, Sys.setCur] using timed

theorem extDispatch_timed (timed : Timed s s.phase) (moved : step idle s .extDispatch = some t) :
    Timed t t.phase := by
  obtain ⟨⟨phase, -⟩, moved⟩ := Option.ite_none_right_eq_some.mp moved
  split at moved
  · cases moved
    change Timed _ s.phase
    rw [phase]
    exact fun _ => .inr (.inl (by simp [Sys.cur, Sys.setCur]))
  · cases moved
    exact timed.congr rfl rfl

theorem enablePreemptionNoYield_timed (timed : Timed s s.phase)
    (moved : step idle s .enablePreemptionNoYield = some t) : Timed t t.phase := by
  obtain ⟨phase, moved⟩ := Option.ite_none_right_eq_some.mp moved
  split at moved
  · cases moved
    rw [phase] at timed
    simpa [Timed, Sys.cur, Sys.setCur] using timed
  · cases moved
    exact timed.keep (by simp) (by simp) (by simp) rfl

theorem tryAnswerYieldRequest_timed {next : Option V} (timed : Timed s s.phase)
    (moved : step idle s (.tryAnswerYieldRequest next) = some t) : Timed t t.phase := by
  obtain ⟨phase, moved⟩ := Option.ite_none_right_eq_some.mp moved
  split at moved
  · cases moved
    exact reschedule_timed ..
  · cases moved
    rw [phase] at timed
    exact timed

theorem interrupt_timed (timed : Timed s s.phase) (moved : step idle s .interrupt = some t) :
    Timed t t.phase := by
  simp only [step] at moved
  split at moved
  · rename_i p phase
    obtain ⟨-, ⟨⟩⟩ := Option.ite_none_right_eq_some.mp moved
    rw [phase] at timed
    exact timed
  · cases moved

theorem timerDone_timed (timed : Timed s s.phase) (moved : step idle s .timerDone = some t) :
    Timed t t.phase := by
  simp only [step] at moved
  split at moved
  · rename_i p phase
    split at moved
    · cases moved
      trivial
    · cases moved
      rw [phase] at timed
      exact timed
  · cases moved

theorem requestYield_timed {preemptible : Bool}
    (moved : step idle s (.requestYield preemptible) = some t) : Timed t t.phase := by
  simp only [step] at moved
  split at moved
  · obtain ⟨-, moved⟩ := Option.ite_none_right_eq_some.mp moved
    split at moved
    · cases moved
      exact fun _ => .inr (.inl (by simp [Sys.cur, Sys.setCur]))
    · cases moved
      trivial
  · cases moved

theorem reread_timed (moved : step idle s .reread = some t) : Timed t t.phase := by
  simp only [step] at moved
  split at moved
  · cases moved
    exact fun slice => .inl slice
  · cases moved

theorem preempt_timed {next : Option V} (moved : step idle s (.preempt next) = some t) :
    Timed t t.phase := by
  simp only [step] at moved
  split at moved
  · obtain ⟨-, ⟨⟩⟩ := Option.ite_none_right_eq_some.mp moved
    exact reschedule_timed ..
  · cases moved

theorem armTimer_timed (timed : Timed s s.phase) (moved : step idle s .armTimer = some t) :
    Timed t t.phase := by
  simp only [step] at moved
  split at moved
  · rename_i ticks timer p phase
    cases moved
    rw [phase] at timed
    have cur : (s.armTimer ticks).cur = s.cur := by simp [Sys.cur]
    have after : (s.armTimer ticks).cur.currentTimeSliceTicks ≠ 0 →
        (s.armTimer ticks).schedTimerArmed = true ∨ (s.armTimer ticks).cur.yieldRequest = true ∨
          (s.armTimer ticks).cur.rearm = true := by
      rw [cur, armTimer_armed, decide_eq_true_eq]
      exact timed
    cases timer
    · exact after
    · exact after
  · cases moved

theorem acknowledge_timed (timed : Timed s s.phase) (moved : step idle s .acknowledge = some t) :
    Timed t t.phase := by
  simp only [step] at moved
  split at moved
  · rename_i p phase
    cases moved
    rw [phase] at timed
    exact timed
  · cases moved

/-- A vcpu that was kicked before it pauses goes on as it was. -/
theorem pause_timed {pvSpin : Bool} (timed : Timed s s.phase)
    (moved : step idle s (.pause pvSpin) = some t) : Timed t t.phase := by
  obtain ⟨-, ⟨⟩⟩ := Option.ite_none_right_eq_some.mp moved
  rw [Sys.pause]
  split
  · split
    · trivial
    · exact timed.keep (by simp) (by simp) (by simp) rfl
    · exact timed
  · trivial

theorem recover_timed (moved : step idle s .recover = some t) : Timed t t.phase := by
  obtain ⟨-, moved⟩ := Option.ite_none_left_eq_some.mp moved
  split at moved
  · cases moved
    trivial
  · obtain ⟨-, ⟨⟩⟩ := Option.ite_none_right_eq_some.mp moved
    trivial
  · cases moved

theorem fail_timed (moved : step idle s .fail = some t) : Timed t t.phase := by
  obtain ⟨-, moved⟩ := Option.ite_none_left_eq_some.mp moved
  split at moved
  · cases moved
    trivial
  · cases moved
    trivial
  · cases moved

theorem getOrIdle_timed {next : Option V} (moved : step idle s (.getOrIdle next) = some t) :
    Timed t t.phase := by
  simp only [step] at moved
  split at moved
  · cases moved
    exact start_timed _ _
  · cases moved

theorem venter_timed (good : Good idle s) (timed : Timed s s.phase)
    (moved : step idle s .venter = some t) : Timed t t.phase := by
  obtain ⟨⟨phase, -⟩, ⟨⟩⟩ := Option.ite_none_right_eq_some.mp moved
  obtain ⟨-, -, here⟩ := good.at phase
  rw [phase] at timed
  intro slice
  have before : s.cur.currentTimeSliceTicks ≠ 0 := by
    simpa [Sys.cur, Sys.setCur] using slice
  refine .inl ?_
  split_ifs with set
  · exact before
  · obtain armed | asks | rearms := timed before
    · exact armed
    · rw [here.settled rfl] at asks
      cases asks
    · exact absurd rearms set

theorem vmentry_timed (timed : Timed s s.phase) (moved : step idle s .vmentry = some t) :
    Timed t t.phase := by
  simp only [step] at moved
  split at moved
  · rename_i ticks rearm phase
    cases moved
    rw [phase] at timed
    cases rearm
    · intro slice
      obtain armed | set := timed slice
      · exact .inl armed
      · exact .inr (.inr set)
    · have cur : (s.armTimer ticks).cur = s.cur := by simp [Sys.cur]
      change (s.armTimer ticks).cur.currentTimeSliceTicks ≠ 0 →
        (s.armTimer ticks).schedTimerArmed = true ∨ (s.armTimer ticks).cur.yieldRequest = true ∨
          (s.armTimer ticks).cur.rearm = true
      rw [cur, armTimer_armed, decide_eq_true_eq]
      intro slice
      obtain positive | set := timed slice
      · exact .inl positive
      · exact .inr (.inr set)
  · cases moved

/-! ## Runs -/

theorem setState_timed (good : Good idle s) (timed : Timed s s.phase) {v : V} {state : VcpuState}
    (waits : (s.vcpu v).state ≠ .running ∧ (s.vcpu v).state ≠ .transitioning) :
    Timed (s.setState v state) s.phase := by
  refine relocate_timed timed ?_
  rintro rfl
  exact good.left (.inl waits)

theorem kick_timed (good : Good idle s) (timed : Timed s s.phase) (v : V) :
    Timed (s.vemuPvSpinKick v) s.phase := by
  rw [Sys.vemuPvSpinKick]
  split
  · rename_i paused
    refine relocate_timed timed ?_
    rintro rfl
    exact good.left (.inr paused)
  · by_cases same : v = s.current
    · subst same
      exact timed.keep (by simp [Sys.cur]) (by simp [Sys.cur]) (by simp [Sys.cur]) rfl
    · exact timed.congr (Function.update_of_ne (Ne.symm same) _ _) rfl

theorem step_timed (s : Sys V) (a : Action V) (t : Sys V) (good : Good idle s)
    (timed : Timed s s.phase) (rearms : Rearms s a) (moved : step idle s a = some t) :
    Timed t t.phase := by
  cases a with
  | count =>
      obtain ⟨-, ⟨⟩⟩ := Option.ite_none_left_eq_some.mp moved
      exact timed.congr rfl rfl
  | vmexit exit => exact vmexit_timed timed moved
  | vexit => exact vexit_timed timed moved
  | extDispatch => exact extDispatch_timed timed moved
  | disablePreemption =>
      obtain ⟨-, ⟨⟩⟩ := Option.ite_none_right_eq_some.mp moved
      exact timed.keep (by simp) (by simp) (by simp) rfl
  | enablePreemptionNoYield => exact enablePreemptionNoYield_timed timed moved
  | tryAnswerYieldRequest next => exact tryAnswerYieldRequest_timed timed moved
  | interrupt => exact interrupt_timed timed moved
  | timerDone => exact timerDone_timed timed moved
  | requestYield preemptible => exact requestYield_timed moved
  | reread => exact reread_timed moved
  | preempt next => exact preempt_timed moved
  | armTimer => exact armTimer_timed timed moved
  | acknowledge => exact acknowledge_timed timed moved
  | yield next =>
      obtain ⟨-, ⟨⟩⟩ := Option.ite_none_right_eq_some.mp moved
      exact reschedule_timed ..
  | pause pvSpin => exact pause_timed timed moved
  | terminate | idleYield =>
      obtain ⟨-, ⟨⟩⟩ := Option.ite_none_right_eq_some.mp moved
      trivial
  | recover => exact recover_timed moved
  | fail => exact fail_timed moved
  | getOrIdle next => exact getOrIdle_timed moved
  | venter => exact venter_timed good timed moved
  | vmentry => exact vmentry_timed timed moved
  | vipi =>
      simp only [step] at moved
      split at moved
      · cases moved
        exact timed.congr rfl rfl
      · cases moved
  | alter v ticks own =>
      obtain ⟨-, ⟨⟩⟩ := Option.ite_none_right_eq_some.mp moved
      rw [(alter_altered v ticks own).phase]
      exact alter_timed good timed rearms
  | put v | putPaused v | unpause v =>
      obtain ⟨waits, ⟨⟩⟩ := Option.ite_none_right_eq_some.mp moved
      exact setState_timed good timed (by simp [waits])
  | kick v =>
      obtain ⟨-, ⟨⟩⟩ := Option.ite_none_right_eq_some.mp moved
      rw [show (s.vemuPvSpinKick v).phase = s.phase by rw [Sys.vemuPvSpinKick]; split <;> rfl]
      exact kick_timed good timed v
  | teardown v =>
      obtain ⟨⟨waits, -⟩, ⟨⟩⟩ := Option.ite_none_right_eq_some.mp moved
      refine setState_timed good timed ⟨?_, ?_⟩ <;> intro state <;>
        simp [state, VcpuState.isQueued] at waits

/-- A slice that another CPU gives to a vcpu in transition goes without a timer. -/
theorem step_needs (s : Sys V) (a : Action V) (t : Sys V) (good : Good idle s)
    (moved : step idle s a = some t) (timed : Timed t t.phase) : Rearms s a := by
  cases a with
  | alter v ticks own =>
      obtain ⟨-, ⟨⟩⟩ := Option.ite_none_right_eq_some.mp moved
      intro same live transitioning slice positive
      subst same
      by_contra neither
      obtain ⟨remote, unset⟩ := not_or.mp neither
      have cur : (s.alter s.current ticks own).cur =
          { s.cur with timeSliceTicks := ticks, currentTimeSliceTicks := ticks } := by
        have other : (s.vcpu s.current).state ≠ .running := by
          rw [transitioning]
          decide
        simp [Sys.alter, slice, positive, other, remote, Sys.cur]
      rw [(alter_altered s.current ticks own).phase] at timed
      have armed : (s.alter s.current ticks own).schedTimerArmed = s.schedTimerArmed :=
        (alter_altered s.current ticks own).armed
      have here := good.here
      -- without a slice nothing was asked for, and nothing is armed
      have unarmed : Backed s → ¬ s.schedTimerArmed = true := fun backed set => backed set slice
      have unasked : ∀ p, At p s.cur → ¬ s.cur.yieldRequest = true :=
        fun p here asks => here.asked asks slice
      have unset : ¬ s.cur.rearm = true := unset
      cases phase : s.phase <;> rw [phase] at here timed live
      case guest | entering => exact absurd (here.2.2.1.state.symm.trans transitioning) (by decide)
      case exited => exact absurd (here.2.2.state.symm.trans transitioning) (by decide)
      case host p | isr p | leaving p =>
        simp [Timed, cur, armed, positive, unarmed here.2.1, unasked p here.2.2, unset] at timed
      case preempt | reread => exact here.2.1 slice
      case arming ticks' timer p =>
        have none : ticks' = 0 := by
          by_contra positive'
          exact here.2.2 positive' slice
        simp [Timed, cur, positive, none, unasked p here.2.1, unset] at timed
      case picking | failing => cases live
  | _ => trivial

/-- **A vcpu with a time slice is guarded.**  Throughout a run that pops ready vcpus only the current
vcpu, if it has a slice, has an armed timer, a request to yield or a reload to come, and in its guest
a timer that counts or interrupts, or a reload announced by an interrupt, if and only if no other CPU
gives a slice to a vcpu that is in transition without one, unless a reload is to come or the vcpu is
left by its CPU.  Of the timer's own interrupt, after its check, and of the choice of the next vcpu
nothing is said. -/
theorem slice_guarded_iff {run : List (Action V)} (initial : Initial idle s)
    (pops : Along PopsReady (step idle) s run) (ran : exec (step idle) s run = some t) :
    (∀ first second u, run = first ++ second → exec (step idle) s first = some u → Guarded u) ↔
      Along Rearms (step idle) s run := by
  have start : Good idle s ∧ Timed s s.phase := by
    refine ⟨initial.good, ?_⟩
    rw [initial.phase]
    exact fun slice => absurd initial.slice slice
  have shows : ∀ u, Good idle u ∧ Timed u u.phase → Guarded u := by
    intro u inv
    obtain ⟨good, timed⟩ := inv
    refine ⟨timed, fun phase slice => ?_⟩
    obtain ⟨heard, -, running, urged⟩ := good.at phase
    rw [phase] at timed
    obtain armed | asks | set := timed slice
    · obtain counting | requested | ⟨serviced, -⟩ := heard armed
      · exact .inl ⟨armed, .inl counting⟩
      · exact .inl ⟨armed, .inr (.inl requested)⟩
      · exact .inl ⟨armed, .inr (.inr serviced)⟩
    · rw [running.settled] at asks
      cases asks
    · exact .inr ⟨set, urged set⟩
  exact exec_shows_iff_along shows
    (fun s a t inv ready rearms moved =>
      ⟨step_good s a t inv.1 ready moved, step_timed s a t inv.1 inv.2 rearms moved⟩)
    (fun s a t inv _ moved guarded => step_needs s a t inv.1 moved guarded.1) start pops ran

end Proofs

/-! ## A root that gets a slice -/

theorem slice_guarded_remote : ∃ t, exec (step 2) boot sliceRun = some t ∧
    ∀ first second u, sliceRun = first ++ second → exec (step 2) boot first = some u → Guarded u := by
  obtain ⟨t, ran⟩ : ∃ t, exec (step 2) boot sliceRun = some t := ⟨_, rfl⟩
  exact ⟨t, ran,
    (slice_guarded_iff boot_initial (by decide +kernel) ran).mpr (by decide +kernel)⟩

/-- The same slice given while the root handles a VM exit: it runs on without a timer. -/
theorem slice_without_timer : ∃ t, exec (step 2) boot
    [.vmexit .other, .vexit, .alter 0 1 false, .enablePreemptionNoYield,
      .tryAnswerYieldRequest none, .venter, .vmentry] = some t ∧
    t.phase = .guest ∧ t.cur.currentTimeSliceTicks = 1 ∧ t.schedTimerArmed = false ∧
      t.cur.rearm = false :=
  ⟨_, rfl, by decide +kernel⟩

end Twan.Vsched.SliceTimer
