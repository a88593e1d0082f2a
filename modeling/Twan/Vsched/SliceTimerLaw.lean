/-
# Twan.Vsched.SliceTimerLaw -- no expiry of the slice timer is lost

* `slice_timer_law`: a timer that is armed is counting or its interrupt is still to be checked, so
  no expiry is lost; what is armed belongs to the current vcpu; a guest is entered with no request
  to yield left and preemption enabled;
* `law_of_files`, `law_of_frames`: so it is over filed run queues, and over frames.

`Here` says what holds of the current vcpu and the timer in each phase, and each action of
`Twan.Vsched.SliceTimer` has a lemma that it leads from one phase to the next.
-/
import Mathlib.Tactic.SplitIfs
import Twan.Vsched.SliceTimer

namespace Twan.Vsched.SliceTimer

set_option autoImplicit false
set_option linter.unusedSectionVars false

open Twan.Base

section Spec

variable {V : Type} [DecidableEq V] (idle : V) (s : Sys V)

/-- The vcpu is in its guest, or just out of it, or on its way back. -/
structure Running (c : Vcpu) : Prop where
  state : c.state = .running
  awake : c.pvSpin ≠ .paused
  settled : c.yieldRequest = false
  enabled : c.preemptionCount = 0

/-- The vcpu is at `p` of the host. -/
structure At (p : Point) (c : Vcpu) : Prop where
  state : c.state = .transitioning
  awake : c.pvSpin ≠ .paused
  asked : c.yieldRequest = true → c.currentTimeSliceTicks ≠ 0
  settled : p = .answered → c.yieldRequest = false
  disabled : p = .handling ↔ 0 < c.preemptionCount

/-- The vcpu is on its CPU. -/
structure Active (c : Vcpu) : Prop where
  state : c.state = .running ∨ c.state = .transitioning
  awake : c.pvSpin ≠ .paused

/-- Nothing but its own CPU makes the vcpu wait or end. -/
structure Alive (c : Vcpu) : Prop where
  state : c.state ≠ .terminated
  awake : c.pvSpin ≠ .paused

/-- A vcpu that can be picked has no request to yield, and goes on where its count says; so it is
with a terminated one that a kick can wake. -/
structure Parked (c : Vcpu) : Prop where
  spins : c.pvSpin = .paused → c.state = .pvSpinning ∨ c.state = .terminated
  settled : c.state ≠ .terminated ∨ c.pvSpin = .paused →
    c.yieldRequest = false ∧ (c.point = .handling ↔ 0 < c.preemptionCount)

/-- An armed timer counts, or its interrupt is still to be checked; `checked` is whether the one in
service was. -/
def Heard (checked : Bool) : Prop :=
  s.schedTimerArmed = true → s.curCount ≠ 0 ∨ s.irr = true ∨ s.inService = true ∧ checked = false

/-- The timer is armed for the current vcpu. -/
def Backed : Prop := s.schedTimerArmed = true → s.cur.currentTimeSliceTicks ≠ 0

/-- A reload that a running vcpu is to make is on its way. -/
def Urged : Prop := s.cur.rearm = true → s.vipi = true

/-- The invariant of the current vcpu and the timer in a phase. -/
def Here : Phase → Prop
  | .guest => Heard s false ∧ Backed s ∧ Running s.cur ∧ Urged s
  | .entering ticks _ => Heard s false ∧ Backed s ∧ Running s.cur ∧ Urged s ∧
      (ticks ≠ 0 → s.cur.currentTimeSliceTicks ≠ 0)
  | .exited => Heard s false ∧ Backed s ∧ Running s.cur
  | .host p | .isr p => Heard s false ∧ Backed s ∧ At p s.cur
  | .leaving p => Heard s true ∧ Backed s ∧ At p s.cur
  | .preempt p | .reread p => Heard s true ∧ s.cur.currentTimeSliceTicks ≠ 0 ∧ At p s.cur
  | .arming ticks timer p => Heard s timer ∧ At p s.cur ∧
      (ticks ≠ 0 → s.cur.currentTimeSliceTicks ≠ 0)
  | .picking timer => Heard s timer ∧ Parked s.cur
  | .failing => Heard s false ∧ Active s.cur

/-- The invariant. -/
structure Good : Prop where
  here : Here s s.phase
  parked : ∀ v, v ≠ s.current → Parked (s.vcpu v)
  idle : Alive (s.vcpu idle)

/-- The interrupt of the timer was checked already. -/
def Phase.checked : Phase → Bool
  | .preempt _ | .reread _ | .leaving _ => true
  | .arming _ timer _ | .picking timer => timer
  | _ => false

/-- What holds of the timer and the guest in every run. -/
structure Law : Prop where
  heard : Heard s s.phase.checked
  backed : s.phase = .guest → Backed s
  running : s.phase = .guest → Running s.cur
  urged : s.phase = .guest → Urged s
  resumed : ∀ v, (s.vcpu v).state = .ready →
    (s.vcpu v).yieldRequest = false ∧ ((s.vcpu v).point = .handling ↔ 0 < (s.vcpu v).preemptionCount)

end Spec

section Proofs

variable {V : Type} [DecidableEq V] {idle : V} {s t : Sys V}

@[simp] theorem setCur_cur (c : Vcpu) : (s.setCur c).cur = c := Function.update_self _ _ _

@[simp] theorem setCur_current (c : Vcpu) : (s.setCur c).current = s.current := rfl

@[simp] theorem setCur_phase (c : Vcpu) : (s.setCur c).phase = s.phase := rfl

@[simp] theorem setCur_vcpu_of_ne {v : V} (other : v ≠ s.current) (c : Vcpu) :
    (s.setCur c).vcpu v = s.vcpu v := Function.update_of_ne other _ _

/-- A step of the current vcpu, or of the timer. -/
theorem Good.move (good : Good idle s) (here : Here t t.phase) (current : t.current = s.current)
    (others : ∀ v, v ≠ s.current → t.vcpu v = s.vcpu v)
    (spared : s.current = idle → Alive t.cur) : Good idle t where
  here := here
  parked v other := by
    rw [current] at other
    rw [others v other]
    exact good.parked v other
  idle := by
    by_cases same : idle = s.current
    · subst same
      have alive := spared rfl
      rwa [Sys.cur, current] at alive
    · rw [others idle same]
      exact good.idle

/-- Where nothing of the vcpu itself changes. -/
theorem Good.quiet (good : Good idle s) (here : Here t t.phase) (current : t.current = s.current)
    (vcpu : t.vcpu = s.vcpu) : Good idle t := by
  refine good.move here current (fun v _ => by rw [vcpu]) fun same => ?_
  rw [Sys.cur, current, vcpu, same]
  exact good.idle

theorem Good.at {phase : Phase} (good : Good idle s) (here : s.phase = phase) : Here s phase :=
  here ▸ good.here

/-! ## The timer -/

theorem heard_count (checked : Bool) (running : s.curCount ≠ 0) :
    Heard { s with curCount := s.curCount - 1, irr := s.irr || decide (s.curCount = 1) } checked := by
  intro _
  by_cases last : s.curCount = 1
  · exact .inr (.inl (by simp [last]))
  · exact .inl (Nat.sub_ne_zero_of_lt (by omega))

/-- What was not done at the check is still counting or requested. -/
theorem heard_of_late {checked : Bool} (late : s.timerDone = false) : Heard s checked := by
  refine fun armed => .inl fun zero => ?_
  rw [Sys.timerDone, armed, zero] at late
  cases late

theorem heard_of_unarmed {checked : Bool} (unarmed : s.schedTimerArmed = false) : Heard s checked := by
  intro armed
  rw [unarmed] at armed
  cases armed

theorem heard_of_counting {checked : Bool} (counting : s.curCount ≠ 0) : Heard s checked :=
  fun _ => .inl counting

theorem armTimer_heard (checked : Bool) (ticks : ℕ) : Heard (s.armTimer ticks) checked := by
  unfold Sys.armTimer
  split_ifs with positive
  · exact heard_of_counting positive
  · exact heard_of_unarmed rfl

theorem armTimer_armed (ticks : ℕ) : (s.armTimer ticks).schedTimerArmed = decide (ticks ≠ 0) := by
  unfold Sys.armTimer
  split_ifs with positive
  · simp [positive]
  · simp [positive]

@[simp] theorem armTimer_vcpu (ticks : ℕ) : (s.armTimer ticks).vcpu = s.vcpu := by
  unfold Sys.armTimer
  split_ifs <;> rfl

@[simp] theorem armTimer_current (ticks : ℕ) : (s.armTimer ticks).current = s.current := by
  unfold Sys.armTimer
  split_ifs <;> rfl

@[simp] theorem armTimer_vipi (ticks : ℕ) : (s.armTimer ticks).vipi = s.vipi := by
  unfold Sys.armTimer
  split_ifs <;> rfl

/-! ## The current vcpu -/

section Vcpus

variable {c : Vcpu} {p : Point}

theorem At.alive (here : At p c) : Alive c where
  state := by
    rw [here.state]
    decide
  awake := here.awake

theorem At.active (here : At p c) : Active c := ⟨.inr here.state, here.awake⟩

theorem Running.active (running : Running c) : Active c := ⟨.inl running.state, running.awake⟩

theorem Running.exit (running : Running c) :
    At .handling { c with state := .transitioning, preemptionCount := c.preemptionCount + 1 } where
  state := rfl
  awake := running.awake
  asked asks := by
    rw [running.settled] at asks
    cases asks
  settled := nofun
  disabled := ⟨fun _ => Nat.succ_pos _, fun _ => rfl⟩

theorem At.ask (here : At p c) (before : p ≠ .answered) (slice : c.currentTimeSliceTicks ≠ 0) :
    At p { c with yieldRequest := true } where
  state := here.state
  awake := here.awake
  asked _ := slice
  settled late := absurd late before
  disabled := here.disabled

theorem At.unask (here : At p c) : At p { c with yieldRequest := false } where
  state := here.state
  awake := here.awake
  asked := nofun
  settled _ := rfl
  disabled := here.disabled

theorem At.count (here : At p c) {n : ℕ} (count : p = .handling ↔ 0 < n) :
    At p { c with preemptionCount := n } where
  state := here.state
  awake := here.awake
  asked := here.asked
  settled := here.settled
  disabled := count

theorem At.enable (here : At .handling c) : At .answering { c with preemptionCount := 0 } where
  state := here.state
  awake := here.awake
  asked := here.asked
  settled := nofun
  disabled := by simp

theorem At.answer (here : At .answering c) (settled : c.yieldRequest = false) : At .answered c where
  state := here.state
  awake := here.awake
  asked := here.asked
  settled _ := settled
  disabled := by
    have enabled := here.disabled
    simp only [reduceCtorEq, false_iff] at enabled ⊢
    exact enabled

theorem At.slice (here : At p c) (settled : c.yieldRequest = false) (ticks : ℕ) :
    At p { c with currentTimeSliceTicks := ticks } where
  state := here.state
  awake := here.awake
  asked asks := by
    rw [settled] at asks
    cases asks
  settled _ := settled
  disabled := here.disabled

theorem At.forget (here : At p c) : At p { c with pvSpin := .none } where
  state := here.state
  awake := nofun
  asked := here.asked
  settled := here.settled
  disabled := here.disabled

theorem At.enter (here : At .answered c) : Running { c with state := .running, rearm := false } where
  state := rfl
  awake := here.awake
  settled := here.settled rfl
  enabled := by
    have enabled := here.disabled
    simp only [reduceCtorEq, false_iff, Nat.not_lt, Nat.le_zero] at enabled
    exact enabled

/-- What is put with its request unset can be picked. -/
theorem At.park (here : At p c) (settled : c.yieldRequest = false) {state : VcpuState}
    {spin : PvSpinState} (spins : spin = .paused → state = .pvSpinning) :
    Parked { c with state := state, pvSpin := spin, rearm := false, point := p } where
  spins paused := .inl (spins paused)
  settled _ := ⟨settled, here.disabled⟩

theorem Parked.start (parked : Parked c) (alive : Alive c) :
    At c.point { c with
      state := .transitioning, currentTimeSliceTicks := c.timeSliceTicks } where
  state := rfl
  awake := alive.awake
  asked asks := by
    rw [(parked.settled (.inl alive.state)).1] at asks
    cases asks
  settled _ := (parked.settled (.inl alive.state)).1
  disabled := (parked.settled (.inl alive.state)).2

theorem Parked.alive (parked : Parked c) (ready : c.state = .ready) : Alive c where
  state := by
    rw [ready]
    decide
  awake paused := by
    obtain spinning | dead := parked.spins paused
    · exact absurd (ready.symm.trans spinning) (by decide)
    · exact absurd (ready.symm.trans dead) (by decide)

theorem Parked.setState (parked : Parked c) (state : VcpuState) (alive : c.state ≠ .terminated)
    (calm : c.state ≠ .pvSpinning) : Parked { c with state := state } where
  spins paused := absurd (parked.spins paused) (by simp [alive, calm])
  settled _ := parked.settled (.inl alive)

theorem Parked.terminate (parked : Parked c) : Parked { c with state := .terminated } where
  spins _ := .inr rfl
  settled woken := parked.settled (.inr (woken.resolve_left fun alive => alive rfl))

theorem Parked.wake (parked : Parked c) (paused : c.pvSpin = .paused) :
    Parked { c with state := .ready, pvSpin := .none } where
  spins := nofun
  settled _ := parked.settled (.inr paused)

/-- A vcpu that ends by itself is not woken again. -/
theorem Active.terminate (active : Active c) : Parked { c with state := .terminated } where
  spins _ := .inr rfl
  settled woken := absurd (woken.resolve_left fun alive => alive rfl) active.awake

end Vcpus

/-! ## The switch -/

theorem start_good {timer : Bool} {v : V} (parked : ∀ w, Parked (s.vcpu w))
    (idles : Alive (s.vcpu idle)) (alive : Alive (s.vcpu v)) (heard : Heard s timer) :
    Good idle (s.start timer v) where
  here := by
    refine ⟨heard, ?_, fun positive => ?_⟩
    · have here := (parked v).start alive
      simpa [Sys.cur, Sys.start] using here
    · simpa [Sys.cur, Sys.start] using positive
  parked w other := by
    rw [show (s.start timer v).vcpu w = s.vcpu w from Function.update_of_ne other _ _]
    exact parked w
  idle := by
    by_cases same : idle = v
    · subst same
      exact ⟨by simp [Sys.start], by simpa [Sys.start] using idles.awake⟩
    · rw [show (s.start timer v).vcpu idle = s.vcpu idle from Function.update_of_ne same _ _]
      exact idles

theorem reschedule_good {timer : Bool} {p : Point} {next : Option V} (good : Good idle s)
    (heard : Heard s timer) (here : At p { s.cur with yieldRequest := false })
    (ready : ∀ v, next = some v → v ≠ s.current → (s.vcpu v).state = .ready) :
    Good idle (s.reschedule timer p next) := by
  cases next with
  | none =>
      have cur : (s.reschedule timer p none).cur = { s.cur with
          yieldRequest := false, currentTimeSliceTicks := s.cur.timeSliceTicks } := by
        simp [Sys.reschedule, Sys.cur, Sys.setCur]
      have here : At p (s.reschedule timer p none).cur := by
        rw [cur]
        exact here.slice rfl s.cur.timeSliceTicks
      refine good.move ⟨heard, here, fun positive => ?_⟩ rfl (fun v other => ?_) fun _ => here.alive
      · rw [cur]
        simpa [Sys.cur, Sys.setCur] using positive
      · simp [Sys.reschedule, Sys.setCur, other]
  | some v =>
      let put := (s.setCur { s.cur with yieldRequest := false }).put p
      have parked : ∀ w, Parked (put.vcpu w) := by
        intro w
        by_cases own : w = s.current
        · subst own
          have parks : Parked { s.cur with
              yieldRequest := false, state := .ready, rearm := false, point := p } :=
            here.park rfl fun paused => absurd paused here.awake
          simpa [put, Sys.put, Sys.setCur, Sys.cur] using parks
        · simpa [put, Sys.put, Sys.setCur, own] using good.parked w own
      have alive : ∀ w, (put.vcpu w).state = .ready → Alive (put.vcpu w) :=
        fun w here => (parked w).alive here
      refine start_good parked ?_ (alive v ?_) heard
      · by_cases same : idle = s.current
        · subst same
          exact alive _ (by simp [put, Sys.put, Sys.setCur])
        · simpa [put, Sys.put, Sys.setCur, same] using good.idle
      · by_cases own : v = s.current
        · subst own
          simp [put, Sys.put, Sys.setCur]
        · simpa [put, Sys.put, Sys.setCur, own] using ready v rfl own

/-- A vcpu that ends is in nobody's way. -/
theorem terminated_good {timer : Bool} (good : Good idle s) (busy : s.current ≠ idle)
    (heard : Heard s timer) (active : Active s.cur) :
    Good idle { s.setState s.current .terminated with phase := .picking timer } := by
  refine good.move ⟨heard, ?_⟩ rfl (fun v other => ?_) fun same => absurd same busy
  · simpa [Sys.cur, Sys.setState] using active.terminate
  · exact Function.update_of_ne other _ _

/-! ## The other CPUs -/

/-- What the phases say depends on the current vcpu, the timer and the interrupts. -/
theorem Here.congr {phase : Phase} (here : Here s phase) (cur : t.cur = s.cur)
    (armed : t.schedTimerArmed = s.schedTimerArmed) (count : t.curCount = s.curCount)
    (irr : t.irr = s.irr) (inService : t.inService = s.inService) (vipi : t.vipi = s.vipi) :
    Here t phase := by
  have heard : ∀ checked, Heard t checked ↔ Heard s checked := by
    intro checked
    rw [Heard, Heard, armed, count, irr, inService]
  have backed : Backed t ↔ Backed s := by rw [Backed, Backed, armed, cur]
  have urged : Urged t ↔ Urged s := by rw [Urged, Urged, vipi, cur]
  cases phase <;> simpa only [Here, heard, backed, urged, cur] using here

/-- A vcpu that waits, or ended, is current only while its CPU picks another. -/
theorem Good.left (good : Good idle s)
    (out : s.cur.state ≠ .running ∧ s.cur.state ≠ .transitioning ∨ s.cur.pvSpin = .paused) :
    ∃ timer, s.phase = .picking timer := by
  have inactive : ¬ Active s.cur := by
    intro active
    obtain ⟨running, transitioning⟩ | paused := out
    · exact active.state.elim running transitioning
    · exact active.awake paused
  have here := good.here
  cases phase : s.phase <;> rw [phase] at here
  case picking timer => exact ⟨timer, rfl⟩
  case guest | entering => exact absurd here.2.2.1.active inactive
  case exited => exact absurd here.2.2.active inactive
  case host | isr | preempt | reread | leaving => exact absurd here.2.2.active inactive
  case arming => exact absurd here.2.1.active inactive
  case failing => exact absurd here.2 inactive

/-- Another CPU moves a vcpu that is not on its own. -/
theorem relocate_good (good : Good idle s) {v : V} {c : Vcpu}
    (left : v = s.current → ∃ timer, s.phase = .picking timer)
    (parks : Parked (s.vcpu v) → Parked c) (spared : v = idle → Alive c) :
    Good idle { s with vcpu := Function.update s.vcpu v c } := by
  refine ⟨?_, fun w other => ?_, ?_⟩
  · by_cases same : v = s.current
    · subst same
      obtain ⟨timer, phase⟩ := left rfl
      obtain ⟨heard, parked⟩ := good.at phase
      change Here _ s.phase
      rw [phase]
      exact ⟨heard, by simpa [Sys.cur] using parks parked⟩
    · refine good.here.congr ?_ rfl rfl rfl rfl rfl
      exact Function.update_of_ne (Ne.symm same) _ _
  · by_cases same : w = v
    · subst same
      simpa using parks (good.parked w other)
    · show Parked (Function.update s.vcpu v c w)
      rw [Function.update_of_ne same]
      exact good.parked w other
  · by_cases same : idle = v
    · subst same
      simpa using spared rfl
    · show Alive (Function.update s.vcpu v c idle)
      rw [Function.update_of_ne same]
      exact good.idle

/-- What the timer does on its own is heard. -/
theorem Here.hear {phase : Phase} (here : Here s phase) (cur : t.cur = s.cur)
    (heard : ∀ checked, Heard t checked)
    (armed : t.schedTimerArmed = true → s.schedTimerArmed = true) (vipi : t.vipi = s.vipi) :
    Here t phase := by
  have backed : Backed s → Backed t := by
    intro backed set
    rw [cur]
    exact backed (armed set)
  have urged : Urged t ↔ Urged s := by rw [Urged, Urged, vipi, cur]
  cases phase
  case guest =>
    obtain ⟨-, back, running, urges⟩ := here
    exact ⟨heard _, backed back, cur ▸ running, urged.mpr urges⟩
  case entering =>
    obtain ⟨-, back, running, urges, positive⟩ := here
    exact ⟨heard _, backed back, cur ▸ running, urged.mpr urges, cur ▸ positive⟩
  case exited | host | isr | leaving =>
    obtain ⟨-, back, rest⟩ := here
    exact ⟨heard _, backed back, cur ▸ rest⟩
  case preempt | reread => exact ⟨heard _, cur ▸ here.2⟩
  case arming | picking => exact ⟨heard _, cur ▸ here.2⟩
  case failing => exact ⟨heard _, cur ▸ here.2⟩

/-- What `vemu_alter_vcpu` leaves, and a kick of a vcpu that does not wait for it. -/
structure Altered (s t : Sys V) : Prop where
  current : t.current = s.current
  phase : t.phase = s.phase
  armed : t.schedTimerArmed = s.schedTimerArmed
  count : t.curCount = s.curCount
  irr : t.irr = s.irr
  inService : t.inService = s.inService
  vipi : s.vipi = true → t.vipi = true
  state : ∀ w, (t.vcpu w).state = (s.vcpu w).state
  awake : ∀ w, (t.vcpu w).pvSpin = .paused → (s.vcpu w).pvSpin = .paused
  yieldRequest : ∀ w, (t.vcpu w).yieldRequest = (s.vcpu w).yieldRequest
  preemptionCount : ∀ w, (t.vcpu w).preemptionCount = (s.vcpu w).preemptionCount
  point : ∀ w, (t.vcpu w).point = (s.vcpu w).point
  slice : ∀ w, (s.vcpu w).currentTimeSliceTicks ≠ 0 → (t.vcpu w).currentTimeSliceTicks ≠ 0
  kept : ∀ w, (s.vcpu w).rearm = true → (t.vcpu w).rearm = true
  urged : ∀ w, (t.vcpu w).rearm = true →
    (s.vcpu w).rearm = true ∨ t.vipi = true ∨ (s.vcpu w).state ≠ .running

theorem alter_altered (v : V) (ticks : ℕ) (own : Bool) : Altered s (s.alter v ticks own) := by
  unfold Sys.alter
  dsimp only
  split_ifs with fresh running own
  all_goals
    refine ⟨rfl, rfl, rfl, rfl, rfl, rfl, by simp, ?_, ?_, ?_, ?_, ?_, ?_, ?_, ?_⟩
    all_goals
      intro w
      by_cases same : w = v
      · subst same
        simp_all
      · simp +contextual [same]

theorem kick_altered {v : V} (busy : (s.vcpu v).pvSpin ≠ .paused) :
    Altered s (s.vemuPvSpinKick v) := by
  rw [Sys.vemuPvSpinKick, if_neg busy]
  refine ⟨rfl, rfl, rfl, rfl, rfl, rfl, id, ?_, ?_, ?_, ?_, ?_, ?_, ?_, ?_⟩
  all_goals
    intro w
    by_cases same : w = v
    · subst same
      simp +contextual
    · simp +contextual [same]

section Altered

variable (altered : Altered s t)

include altered

theorem Altered.heard {checked : Bool} (heard : Heard s checked) : Heard t checked := by
  rw [Heard, altered.armed, altered.count, altered.irr, altered.inService]
  exact heard

theorem Altered.backed (backed : Backed s) : Backed t := by
  intro armed
  rw [Sys.cur, altered.current]
  exact altered.slice _ (backed (altered.armed ▸ armed))

theorem Altered.running (running : Running s.cur) : Running t.cur := by
  rw [Sys.cur, altered.current]
  exact ⟨(altered.state _).trans running.state, fun paused => running.awake (altered.awake _ paused),
    (altered.yieldRequest _).trans running.settled,
    (altered.preemptionCount _).trans running.enabled⟩

theorem Altered.at {p : Point} (here : At p s.cur) : At p t.cur := by
  rw [Sys.cur, altered.current]
  refine ⟨(altered.state _).trans here.state, fun paused => here.awake (altered.awake _ paused),
    fun asks => ?_, fun late => ?_, ?_⟩
  · exact altered.slice _ (here.asked ((altered.yieldRequest _).symm.trans asks))
  · exact (altered.yieldRequest _).trans (here.settled late)
  · rw [altered.preemptionCount]
    exact here.disabled

theorem Altered.urge (running : Running s.cur) (urged : Urged s) : Urged t := by
  intro set
  rw [Sys.cur, altered.current] at set
  obtain before | now | idles := altered.urged _ set
  · exact altered.vipi (urged before)
  · exact now
  · exact absurd running.state idles

theorem Altered.active (active : Active s.cur) : Active t.cur := by
  rw [Sys.cur, altered.current]
  refine ⟨?_, fun paused => active.awake (altered.awake _ paused)⟩
  rw [altered.state]
  exact active.state

theorem Altered.parked {w : V} (parked : Parked (s.vcpu w)) : Parked (t.vcpu w) where
  spins paused := by
    rw [altered.state]
    exact parked.spins (altered.awake w paused)
  settled woken := by
    rw [altered.yieldRequest, altered.point, altered.preemptionCount]
    rw [altered.state] at woken
    exact parked.settled (woken.imp_right (altered.awake w))

theorem Altered.here {phase : Phase} (here : Here s phase) : Here t phase := by
  have slice : s.cur.currentTimeSliceTicks ≠ 0 → t.cur.currentTimeSliceTicks ≠ 0 := by
    intro slice
    rw [Sys.cur, altered.current]
    exact altered.slice _ slice
  cases phase
  case guest =>
    obtain ⟨heard, backed, running, urged⟩ := here
    exact ⟨altered.heard heard, altered.backed backed, altered.running running,
      altered.urge running urged⟩
  case entering =>
    obtain ⟨heard, backed, running, urged, positive⟩ := here
    exact ⟨altered.heard heard, altered.backed backed, altered.running running,
      altered.urge running urged, fun ticks => slice (positive ticks)⟩
  case exited => exact ⟨altered.heard here.1, altered.backed here.2.1, altered.running here.2.2⟩
  case host | isr | leaving =>
    exact ⟨altered.heard here.1, altered.backed here.2.1, altered.at here.2.2⟩
  case preempt | reread => exact ⟨altered.heard here.1, slice here.2.1, altered.at here.2.2⟩
  case arming =>
    exact ⟨altered.heard here.1, altered.at here.2.1, fun ticks => slice (here.2.2 ticks)⟩
  case picking =>
    refine ⟨altered.heard here.1, ?_⟩
    rw [Sys.cur, altered.current]
    exact altered.parked here.2
  case failing => exact ⟨altered.heard here.1, altered.active here.2⟩

theorem Altered.good (good : Good idle s) : Good idle t where
  here := by
    rw [altered.phase]
    exact altered.here good.here
  parked w apart := altered.parked (good.parked w (altered.current ▸ apart))
  idle := by
    refine ⟨?_, fun paused => good.idle.awake (altered.awake _ paused)⟩
    rw [altered.state]
    exact good.idle.state

end Altered


/-- A step of the current vcpu. -/
theorem Good.own (good : Good idle s) {c : Vcpu} {p : Phase} (here : Here t t.phase)
    (moved : t = { s.setCur c with
      phase := p, schedTimerArmed := t.schedTimerArmed, inService := t.inService })
    (alive : Alive c) : Good idle t := by
  refine good.move here (by rw [moved]; rfl) (fun v other => ?_) fun _ => ?_
  · rw [moved]
    exact setCur_vcpu_of_ne other c
  · rw [moved]
    simpa [Sys.cur, Sys.setCur] using alive

/-! ## The guest and its exits -/

theorem count_good (good : Good idle s) (moved : step idle s .count = some t) : Good idle t := by
  obtain ⟨running, ⟨⟩⟩ := Option.ite_none_left_eq_some.mp moved
  exact good.quiet (good.here.hear rfl (fun checked => heard_count checked running) id rfl) rfl rfl

theorem vmexit_good {exit : Exit} (good : Good idle s)
    (moved : step idle s (.vmexit exit) = some t) : Good idle t := by
  obtain ⟨phase, moved⟩ := Option.ite_none_right_eq_some.mp moved
  obtain ⟨heard, backed, running, -⟩ := good.at phase
  cases exit with
  | timer =>
      obtain ⟨-, ⟨⟩⟩ := Option.ite_none_right_eq_some.mp moved
      exact good.quiet ⟨fun _ => .inr (.inr ⟨rfl, rfl⟩), backed, running⟩ rfl rfl
  | vipi =>
      obtain ⟨-, ⟨⟩⟩ := Option.ite_none_right_eq_some.mp moved
      exact good.quiet ⟨heard, backed, running⟩ rfl rfl
  | other =>
      cases moved
      exact good.quiet ⟨heard, backed, running⟩ rfl rfl

theorem vexit_good (good : Good idle s) (moved : step idle s .vexit = some t) : Good idle t := by
  obtain ⟨phase, ⟨⟩⟩ := Option.ite_none_right_eq_some.mp moved
  obtain ⟨heard, backed, running⟩ := good.at phase
  refine good.own ⟨heard, ?_, ?_⟩ rfl running.exit.alive
  · intro armed
    simpa [Sys.cur, Sys.setCur] using backed armed
  · simpa [Sys.cur, Sys.setCur] using running.exit

theorem venter_good (good : Good idle s) (moved : step idle s .venter = some t) :
    Good idle t := by
  obtain ⟨⟨phase, -⟩, ⟨⟩⟩ := Option.ite_none_right_eq_some.mp moved
  obtain ⟨heard, backed, here⟩ := good.at phase
  refine good.own ⟨heard, fun armed => ?_, ?_, ?_⟩ rfl ⟨nofun, here.awake⟩
  · simpa [Sys.cur, Sys.setCur] using backed armed
  · simpa [Sys.cur, Sys.setCur] using here.enter
  · refine ⟨fun set => ?_, fun positive => ?_⟩
    · simp [Sys.cur, Sys.setCur] at set
    · simpa [Sys.cur, Sys.setCur] using positive

theorem vmentry_good (good : Good idle s) (moved : step idle s .vmentry = some t) :
    Good idle t := by
  simp only [step] at moved
  split at moved
  · rename_i ticks rearm phase
    obtain ⟨heard, backed, running, urged, positive⟩ := good.at phase
    cases moved
    cases rearm
    · exact good.quiet ⟨heard, backed, running, urged⟩ rfl rfl
    · have cur : (s.armTimer ticks).cur = s.cur := by simp [Sys.cur]
      refine good.quiet ⟨armTimer_heard false ticks, fun armed => ?_, cur ▸ running, fun set => ?_⟩
        (armTimer_current ticks) (armTimer_vcpu ticks)
      · change (s.armTimer ticks).schedTimerArmed = true at armed
        rw [armTimer_armed, decide_eq_true_eq] at armed
        exact cur ▸ positive armed
      · change (s.armTimer ticks).cur.rearm = true at set
        rw [cur] at set
        exact (armTimer_vipi ticks).trans (urged set)
  · cases moved

/-! ## The handler -/

theorem extDispatch_good (good : Good idle s) (moved : step idle s .extDispatch = some t) :
    Good idle t := by
  obtain ⟨⟨phase, -⟩, moved⟩ := Option.ite_none_right_eq_some.mp moved
  obtain ⟨heard, backed, here⟩ := good.at phase
  split at moved
  · rename_i done
    cases moved
    have slice : s.cur.currentTimeSliceTicks ≠ 0 := by
      apply backed
      rw [Sys.timerDone, Bool.and_eq_true] at done
      exact done.1
    have asks := here.ask nofun slice
    refine good.own (p := s.phase) ?_ rfl asks.alive
    change Here _ s.phase
    rw [phase]
    refine ⟨heard_of_unarmed rfl, nofun, ?_⟩
    simpa [Sys.cur, Sys.setCur] using asks
  · rename_i late
    cases moved
    refine good.quiet ?_ rfl rfl
    change Here _ s.phase
    rw [phase]
    exact ⟨heard_of_late (Bool.not_eq_true _ ▸ late), backed, here⟩

/-- A handler that changes how often preemption is disabled stays in it. -/
theorem handling_good (good : Good idle s) (phase : s.phase = .host .handling) {n : ℕ}
    (positive : 0 < n) : Good idle (s.setCur { s.cur with preemptionCount := n }) := by
  obtain ⟨heard, backed, here⟩ := good.at phase
  have counts := here.count (n := n) (by simp [positive])
  refine good.own (p := s.phase) ?_ rfl counts.alive
  change Here _ s.phase
  rw [phase]
  refine ⟨heard, fun armed => ?_, ?_⟩
  · simpa [Sys.cur, Sys.setCur] using backed armed
  · simpa [Sys.cur, Sys.setCur] using counts

theorem disablePreemption_good (good : Good idle s)
    (moved : step idle s .disablePreemption = some t) : Good idle t := by
  obtain ⟨phase, ⟨⟩⟩ := Option.ite_none_right_eq_some.mp moved
  exact handling_good good phase (Nat.succ_pos _)

theorem enablePreemptionNoYield_good (good : Good idle s)
    (moved : step idle s .enablePreemptionNoYield = some t) : Good idle t := by
  obtain ⟨phase, moved⟩ := Option.ite_none_right_eq_some.mp moved
  obtain ⟨heard, backed, here⟩ := good.at phase
  split at moved
  · cases moved
    refine good.own ⟨heard, fun armed => ?_, ?_⟩ rfl here.enable.alive
    · simpa [Sys.cur, Sys.setCur] using backed armed
    · simpa [Sys.cur, Sys.setCur] using here.enable
  · rename_i several
    cases moved
    have positive := here.disabled.mp rfl
    exact handling_good good phase (by omega)

theorem tryAnswerYieldRequest_good {next : Option V} (good : Good idle s)
    (pops : PopsReady s (.tryAnswerYieldRequest next))
    (moved : step idle s (.tryAnswerYieldRequest next) = some t) : Good idle t := by
  obtain ⟨phase, moved⟩ := Option.ite_none_right_eq_some.mp moved
  obtain ⟨heard, backed, here⟩ := good.at phase
  split at moved
  · cases moved
    refine reschedule_good good heard (here.unask.answer rfl) ?_
    rintro v rfl
    exact pops
  · rename_i unasked
    cases moved
    refine good.quiet ⟨heard, backed, here.answer ?_⟩ rfl rfl
    have enabled := here.disabled
    simp only [reduceCtorEq, false_iff, Nat.not_lt, Nat.le_zero] at enabled
    simpa [enabled] using unasked

/-! ## The interrupt of the timer -/

theorem interrupt_good (good : Good idle s) (moved : step idle s .interrupt = some t) :
    Good idle t := by
  simp only [step] at moved
  split at moved
  · rename_i p phase
    obtain ⟨-, ⟨⟩⟩ := Option.ite_none_right_eq_some.mp moved
    obtain ⟨heard, backed, here⟩ := good.at phase
    exact good.quiet ⟨fun _ => .inr (.inr ⟨rfl, rfl⟩), backed, here⟩ rfl rfl
  · cases moved

theorem timerDone_good (good : Good idle s) (moved : step idle s .timerDone = some t) :
    Good idle t := by
  simp only [step] at moved
  split at moved
  · rename_i p phase
    obtain ⟨heard, backed, here⟩ := good.at phase
    split at moved
    · rename_i done
      cases moved
      rw [Sys.timerDone, Bool.and_eq_true] at done
      exact good.quiet ⟨heard_of_unarmed rfl, backed done.1, here⟩ rfl rfl
    · rename_i late
      cases moved
      have late := Bool.not_eq_true _ ▸ late
      exact good.quiet ⟨heard_of_late late, backed, here⟩ rfl rfl
  · cases moved

theorem requestYield_good {preemptible : Bool} (good : Good idle s)
    (moved : step idle s (.requestYield preemptible) = some t) : Good idle t := by
  simp only [step] at moved
  split at moved
  · rename_i p phase
    obtain ⟨heard, slice, here⟩ := good.at phase
    obtain ⟨disabled, moved⟩ := Option.ite_none_right_eq_some.mp moved
    split at moved
    · cases moved
      have handling := here.disabled.mpr disabled
      have asks := here.ask (by rw [handling]; nofun) slice
      refine good.own ⟨heard, fun _ => ?_, ?_⟩ rfl asks.alive
      · simpa [Sys.cur, Sys.setCur] using slice
      · simpa [Sys.cur, Sys.setCur] using asks
    · cases moved
      exact good.quiet ⟨heard, slice, here⟩ rfl rfl
  · cases moved

theorem reread_good (good : Good idle s) (moved : step idle s .reread = some t) : Good idle t := by
  simp only [step] at moved
  split at moved
  · rename_i p phase
    cases moved
    obtain ⟨heard, slice, here⟩ := good.at phase
    exact good.quiet ⟨heard, here, fun _ => slice⟩ rfl rfl
  · cases moved

theorem preempt_good {next : Option V} (good : Good idle s) (pops : PopsReady s (.preempt next))
    (moved : step idle s (.preempt next) = some t) : Good idle t := by
  simp only [step] at moved
  split at moved
  · rename_i p phase
    obtain ⟨heard, -, here⟩ := good.at phase
    obtain ⟨-, ⟨⟩⟩ := Option.ite_none_right_eq_some.mp moved
    refine reschedule_good good heard here.unask ?_
    rintro v rfl
    exact pops
  · cases moved

theorem armTimer_good (good : Good idle s) (moved : step idle s .armTimer = some t) :
    Good idle t := by
  simp only [step] at moved
  split at moved
  · rename_i ticks timer p phase
    obtain ⟨-, here, positive⟩ := good.at phase
    cases moved
    have cur : (s.armTimer ticks).cur = s.cur := by simp [Sys.cur]
    have heard : ∀ checked, Heard (s.armTimer ticks) checked :=
      fun checked => armTimer_heard checked ticks
    have backed : Backed (s.armTimer ticks) := by
      intro armed
      rw [armTimer_armed, decide_eq_true_eq] at armed
      exact cur ▸ positive armed
    refine good.quiet ?_ (armTimer_current ticks) (armTimer_vcpu ticks)
    cases timer
    · exact ⟨heard false, backed, cur ▸ here⟩
    · exact ⟨heard true, backed, cur ▸ here⟩
  · cases moved

theorem acknowledge_good (good : Good idle s) (moved : step idle s .acknowledge = some t) :
    Good idle t := by
  simp only [step] at moved
  split at moved
  · rename_i p phase
    cases moved
    obtain ⟨heard, backed, here⟩ := good.at phase
    refine good.quiet ⟨fun armed => ?_, backed, here⟩ rfl rfl
    obtain counting | requested | ⟨-, checked⟩ := heard armed
    · exact .inl counting
    · exact .inr (.inl requested)
    · cases checked
  · cases moved

/-! ## What leaves the current vcpu -/

theorem yield_good {next : Option V} (good : Good idle s) (pops : PopsReady s (.yield next))
    (moved : step idle s (.yield next) = some t) : Good idle t := by
  obtain ⟨⟨phase, -⟩, ⟨⟩⟩ := Option.ite_none_right_eq_some.mp moved
  obtain ⟨heard, -, here⟩ := good.at phase
  refine reschedule_good good heard here.unask ?_
  rintro v rfl
  exact pops

theorem putPaused_good (good : Good idle s) (phase : s.phase = .host .handling)
    (busy : s.current ≠ idle) {state : VcpuState} {spin : PvSpinState}
    (spins : spin = .paused → state = .pvSpinning) : Good idle (s.putPaused state spin) := by
  obtain ⟨heard, -, here⟩ := good.at phase
  have parks := here.unask.park rfl spins
  refine good.move ⟨heard, ?_⟩ rfl (fun v other => setCur_vcpu_of_ne other _)
    fun same => absurd same busy
  simpa [Sys.putPaused, Sys.cur, Sys.setCur] using parks

theorem pause_good {pvSpin : Bool} (good : Good idle s)
    (moved : step idle s (.pause pvSpin) = some t) : Good idle t := by
  obtain ⟨⟨phase, busy⟩, ⟨⟩⟩ := Option.ite_none_right_eq_some.mp moved
  obtain ⟨heard, backed, here⟩ := good.at phase
  rw [Sys.pause]
  split
  · split
    · exact putPaused_good good phase busy fun _ => rfl
    · -- it was kicked, and goes on
      refine good.own (p := s.phase) ?_ rfl here.forget.alive
      change Here _ s.phase
      rw [phase]
      refine ⟨heard, fun armed => ?_, ?_⟩
      · simpa [Sys.cur, Sys.setCur] using backed armed
      · simpa [Sys.cur, Sys.setCur] using here.forget
    · exact good
  · exact putPaused_good good phase busy fun paused => absurd paused here.awake

theorem recover_good (good : Good idle s) (moved : step idle s .recover = some t) :
    Good idle t := by
  obtain ⟨busy, moved⟩ := Option.ite_none_left_eq_some.mp moved
  split at moved
  · rename_i p phase
    cases moved
    obtain ⟨heard, -, here⟩ := good.at phase
    exact terminated_good good busy heard here.active
  · rename_i p phase
    obtain ⟨-, ⟨⟩⟩ := Option.ite_none_right_eq_some.mp moved
    obtain ⟨heard, -, here⟩ := good.at phase
    exact terminated_good good busy heard here.active
  · cases moved

theorem fail_good (good : Good idle s) (moved : step idle s .fail = some t) : Good idle t := by
  obtain ⟨-, moved⟩ := Option.ite_none_left_eq_some.mp moved
  split at moved
  · rename_i phase
    cases moved
    exact good.quiet ⟨heard_of_unarmed rfl, (good.at phase).2.2.active⟩ rfl rfl
  · rename_i p phase
    cases moved
    exact good.quiet ⟨heard_of_unarmed rfl, (good.at phase).2.2.active⟩ rfl rfl
  · cases moved

theorem terminate_good (good : Good idle s) (moved : step idle s .terminate = some t) :
    Good idle t := by
  obtain ⟨⟨phase, busy⟩, ⟨⟩⟩ := Option.ite_none_right_eq_some.mp moved
  obtain ⟨heard, active⟩ := good.at phase
  exact terminated_good good busy heard active

theorem getOrIdle_good {next : Option V} (good : Good idle s) (pops : PopsReady s (.getOrIdle next))
    (moved : step idle s (.getOrIdle next) = some t) : Good idle t := by
  simp only [step] at moved
  split at moved
  · rename_i timer phase
    cases moved
    obtain ⟨heard, left⟩ := good.at phase
    have parked : ∀ w, Parked (s.vcpu w) := by
      intro w
      by_cases same : w = s.current
      · subst same
        exact left
      · exact good.parked w same
    cases next with
    | none => exact start_good parked good.idle good.idle heard
    | some v => exact start_good parked good.idle ((parked v).alive pops) heard
  · cases moved

theorem idleYield_good (good : Good idle s) (moved : step idle s .idleYield = some t) :
    Good idle t := by
  obtain ⟨⟨phase, -⟩, ⟨⟩⟩ := Option.ite_none_right_eq_some.mp moved
  obtain ⟨heard, -, here⟩ := good.at phase
  have parks : Parked { s.cur with point := .answered } :=
    ⟨fun paused => absurd paused here.awake, fun _ => ⟨here.settled rfl, here.disabled⟩⟩
  refine good.own ⟨heard, ?_⟩ rfl ⟨here.alive.state, here.awake⟩
  simpa [Sys.cur, Sys.setCur] using parks

/-! ## What other CPUs do -/

theorem vipi_good (good : Good idle s) (moved : step idle s .vipi = some t) : Good idle t := by
  simp only [step] at moved
  split at moved
  · rename_i p phase
    cases moved
    refine good.quiet ?_ rfl rfl
    change Here _ s.phase
    rw [phase]
    exact good.at phase
  · cases moved

/-- A vcpu that waits gets another state. -/
theorem setState_good (good : Good idle s) {v : V} {state : VcpuState}
    (waits : (s.vcpu v).state = .initializing ∨ (s.vcpu v).state = .paused)
    (alive : state ≠ .terminated) : Good idle (s.setState v state) := by
  refine relocate_good good ?_ (fun parked => parked.setState state ?_ ?_) fun same => ?_
  · rintro rfl
    refine good.left (.inl ?_)
    obtain here | here := waits <;> simp [Sys.cur, here]
  · obtain here | here := waits <;> simp [here]
  · obtain here | here := waits <;> simp [here]
  · subst same
    exact ⟨alive, good.idle.awake⟩

theorem kick_good {v : V} (good : Good idle s) (moved : step idle s (.kick v) = some t) :
    Good idle t := by
  obtain ⟨other, ⟨⟩⟩ := Option.ite_none_right_eq_some.mp moved
  by_cases paused : (s.vcpu v).pvSpin = .paused
  · rw [Sys.vemuPvSpinKick, if_pos paused]
    refine relocate_good good ?_ (fun parked => parked.wake paused) fun same => absurd same other
    rintro rfl
    exact good.left (.inr paused)
  · exact (kick_altered paused).good good

theorem teardown_good {v : V} (good : Good idle s) (moved : step idle s (.teardown v) = some t) :
    Good idle t := by
  obtain ⟨⟨waits, other⟩, ⟨⟩⟩ := Option.ite_none_right_eq_some.mp moved
  refine relocate_good good ?_ (fun parked => parked.terminate) fun same => absurd same other
  rintro rfl
  refine good.left (.inl ⟨?_, ?_⟩) <;>
  · intro here
    simp [Sys.cur] at here
    simp [here, VcpuState.isQueued] at waits

/-! ## Runs -/

theorem step_good (s : Sys V) (a : Action V) (t : Sys V) (good : Good idle s)
    (pops : PopsReady s a) (moved : step idle s a = some t) : Good idle t := by
  cases a with
  | count => exact count_good good moved
  | vmexit exit => exact vmexit_good good moved
  | vexit => exact vexit_good good moved
  | extDispatch => exact extDispatch_good good moved
  | disablePreemption => exact disablePreemption_good good moved
  | enablePreemptionNoYield => exact enablePreemptionNoYield_good good moved
  | tryAnswerYieldRequest next => exact tryAnswerYieldRequest_good good pops moved
  | interrupt => exact interrupt_good good moved
  | timerDone => exact timerDone_good good moved
  | requestYield preemptible => exact requestYield_good good moved
  | reread => exact reread_good good moved
  | preempt next => exact preempt_good good pops moved
  | armTimer => exact armTimer_good good moved
  | acknowledge => exact acknowledge_good good moved
  | yield next => exact yield_good good pops moved
  | pause pvSpin => exact pause_good good moved
  | recover => exact recover_good good moved
  | fail => exact fail_good good moved
  | terminate => exact terminate_good good moved
  | getOrIdle next => exact getOrIdle_good good pops moved
  | idleYield => exact idleYield_good good moved
  | venter => exact venter_good good moved
  | vmentry => exact vmentry_good good moved
  | vipi => exact vipi_good good moved
  | alter v ticks own =>
      obtain ⟨-, ⟨⟩⟩ := Option.ite_none_right_eq_some.mp moved
      exact (alter_altered v ticks own).good good
  | put v | putPaused v =>
      obtain ⟨waits, ⟨⟩⟩ := Option.ite_none_right_eq_some.mp moved
      exact setState_good good (.inl waits) nofun
  | unpause v =>
      obtain ⟨waits, ⟨⟩⟩ := Option.ite_none_right_eq_some.mp moved
      exact setState_good good (.inr waits) nofun
  | kick v => exact kick_good good moved
  | teardown v => exact teardown_good good moved

theorem Initial.good (initial : Initial idle s) : Good idle s where
  here := by
    rw [initial.phase]
    obtain ⟨settled, enabled, -, unspun⟩ := initial.fresh s.current
    have awake : s.cur.pvSpin ≠ .paused := by
      rw [Sys.cur, unspun]
      decide
    refine ⟨heard_of_unarmed initial.armed, fun armed => ?_,
      ⟨initial.running, awake, settled, enabled⟩, fun set => ?_⟩
    · rw [initial.armed] at armed
      cases armed
    · rw [initial.rearm] at set
      cases set
  parked v _ := by
    obtain ⟨settled, enabled, answered, unspun⟩ := initial.fresh v
    refine ⟨fun paused => ?_, fun _ => ⟨settled, ?_⟩⟩
    · rw [unspun] at paused
      cases paused
    · rw [answered, enabled]
      simp
  idle := by
    refine ⟨initial.idle, ?_⟩
    rw [(initial.fresh idle).2.2.2]
    decide

theorem Good.law (good : Good idle s) : Law s where
  heard := by
    have here := good.here
    cases phase : s.phase <;> rw [phase] at here
    all_goals exact here.1
  backed phase := (good.at phase).2.1
  running phase := (good.at phase).2.2.1
  urged phase := (good.at phase).2.2.2
  resumed v ready := by
    have alive : (s.vcpu v).state ≠ .terminated := by
      rw [ready]
      decide
    by_cases same : v = s.current
    · subst same
      obtain ⟨timer, phase⟩ := good.left (.inl (by simp [Sys.cur, ready]))
      exact (good.at phase).2.settled (.inl alive)
    · exact (good.parked v same).settled (.inl alive)

/-- **No expiry is lost, and no request is left at VM entry.**  In every run that pops ready vcpus
only an armed timer counts, or its interrupt is requested or in service and still to be checked; in
the guest it is armed for the current vcpu's slice, which has no request to yield left, preemption
enabled, and any reload announced by an interrupt; and a ready vcpu has no request to yield. -/
theorem slice_timer_law {run : List (Action V)} (initial : Initial idle s)
    (pops : Along PopsReady (step idle) s run) (ran : exec (step idle) s run = some t) : Law t :=
  (exec_invariant_along step_good initial.good pops ran).law

/-- So it is over run queues that stay filed. -/
theorem law_of_files {Cpu : Type} [DecidableEq Cpu] {home : V → Cpu} {cpu : Cpu}
    {run : List (Action V)} (initial : Initial idle s)
    (filed : Along (PopsFiled home cpu) (step idle) s run)
    (ran : exec (step idle) s run = some t) : Law t :=
  (exec_invariant_along (fun s a t good filed moved => step_good s a t good filed.ready moved)
    initial.good filed ran).law

/-- And over frames. -/
theorem law_of_frames {N : ℕ} [NeZero N] {run : List (Action V)} (initial : Initial idle s)
    (framed : Along (PopsFramed N) (step idle) s run) (ran : exec (step idle) s run = some t) :
    Law t :=
  (exec_invariant_along (fun s a t good framed moved => step_good s a t good framed.ready moved)
    initial.good framed ran).law

end Proofs

/-! ## A root that gets a slice -/

/-- The root vcpu 0 in its guest, a new vcpu 1, and the idle vcpu 2. -/
def boot : Sys (Fin 3) where
  vcpu v := ⟨if v = 0 then .running else .initializing, .none, if v = 1 then 5 else 0, 0, false, 0,
    false, .answered⟩
  current := 0
  phase := .guest
  schedTimerArmed := false
  curCount := 0
  irr := false
  inService := false
  vipi := false

theorem boot_initial : Initial 2 boot where
  phase := rfl
  running := rfl
  slice := rfl
  fresh _ := ⟨rfl, rfl, rfl, rfl⟩
  idle := by decide
  rearm := rfl
  armed := rfl

/-- Another CPU gives the root a slice of one tick, which expires and puts vcpu 1 in its place. -/
def sliceRun : List (Action (Fin 3)) :=
  [.put 1, .alter 0 1 false, .vmexit .vipi, .vexit, .enablePreemptionNoYield,
    .tryAnswerYieldRequest none, .venter, .vmentry, .count, .vmexit .timer, .vexit, .extDispatch,
    .enablePreemptionNoYield, .tryAnswerYieldRequest (some 1), .armTimer, .venter, .vmentry]

theorem slice_timer_law_expiry : ∃ t, exec (step 2) boot sliceRun = some t ∧ t.current = 1 ∧
    t.phase = .guest ∧ t.curCount = 5 ∧ Law t := by
  obtain ⟨t, ran, facts⟩ : ∃ t, exec (step 2) boot sliceRun = some t ∧
      t.current = 1 ∧ t.phase = .guest ∧ t.curCount = 5 := ⟨_, rfl, by decide +kernel⟩
  exact ⟨t, ran, facts.1, facts.2.1, facts.2.2,
    slice_timer_law boot_initial (by decide +kernel) ran⟩

/-- Vcpu 1, popped while it waits for a kick, asks to yield in its next exit; the kick makes it ready
with that request. -/
theorem ready_with_request : ∃ t, exec (step 2) boot
    [.put 1, .vmexit .other, .vexit, .yield (some 1), .armTimer, .venter, .vmentry, .vmexit .other,
      .vexit, .pause true, .getOrIdle (some 1), .armTimer, .count, .count, .count, .count, .count,
      .interrupt, .timerDone, .requestYield true, .acknowledge, .kick 1] = some t ∧
    (t.vcpu 1).state = .ready ∧ (t.vcpu 1).yieldRequest = true :=
  ⟨_, rfl, by decide +kernel⟩

end Twan.Vsched.SliceTimer
