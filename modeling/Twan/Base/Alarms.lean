/-
# Twan.Base.Alarms -- timers on one clock

Any number of alarms run on one clock.  Each is armed for some ticks, once or periodically, and may
be disarmed again.  The clock does not run past an alarm that is due, so that alarms that are due
together ring one after another while it stands still.

`Alarm.Punctual` says what an armed alarm may rely on.  It has rung exactly when the first, the
second, … of its periods was over; it is no period behind, and it never rings early.  An alarm that
is not periodic rings once, and then it is no longer armed.
-/
import Mathlib.Logic.Function.Basic
import Mathlib.Tactic.Ring

namespace Twan.Base.Alarms

set_option autoImplicit false

universe u

/-- An alarm as it was armed last: when that was, and when it has rung since. -/
structure Alarm where
  armed : Bool
  periodic : Bool
  ticks : ℕ
  since : ℕ
  rung : List ℕ

namespace Alarm

/-- When it rings next. -/
def due (a : Alarm) : ℕ := a.since + (a.rung.length + 1) * a.ticks

/-- Armed at `now`. -/
def start (now : ℕ) (periodic : Bool) (ticks : ℕ) : Alarm :=
  { armed := true, periodic := periodic, ticks := ticks, since := now, rung := [] }

def stop (a : Alarm) : Alarm := { a with armed := false }

/-- It rings at `now`, and is armed again if it is periodic. -/
def ring (a : Alarm) (now : ℕ) : Alarm :=
  { a with armed := a.periodic, rung := a.rung ++ [now] }

/-- **The alarm is on time.** -/
structure Punctual (a : Alarm) (now : ℕ) : Prop where
  /-- It has rung at the end of each period. -/
  rung : a.rung = (List.range a.rung.length).map fun i => a.since + (i + 1) * a.ticks
  /-- The periods it has rung for are over. -/
  over_ : a.since + a.rung.length * a.ticks ≤ now
  /-- And no other is. -/
  ahead : a.armed = true → now ≤ a.due
  once : a.periodic = false → a.rung.length + a.armed.toNat ≤ 1

variable {a : Alarm} {now : ℕ}

theorem due_start (now : ℕ) (periodic : Bool) (ticks : ℕ) :
    (start now periodic ticks).due = now + ticks := by
  simp [due, start]

theorem due_ring : (a.ring now).due = a.due + a.ticks := by
  simp only [due, ring, List.length_append, List.length_singleton]
  ring

theorem Punctual.start (now : ℕ) (periodic : Bool) (ticks : ℕ) :
    (Alarm.start now periodic ticks).Punctual now where
  rung := rfl
  over_ := by simp [Alarm.start]
  ahead := by
    intro _
    rw [due_start]
    exact Nat.le_add_right now ticks
  once := by simp [Alarm.start]

theorem Punctual.stop (punctual : a.Punctual now) : a.stop.Punctual now where
  rung := punctual.rung
  over_ := punctual.over_
  ahead := by simp [Alarm.stop]
  once := by
    intro single
    have := punctual.once single
    simp only [Alarm.stop, Bool.toNat_false]
    omega

/-- Time goes by, as far as the alarm allows. -/
theorem Punctual.wait {k : ℕ} (punctual : a.Punctual now)
    (next : a.armed = true → now + k ≤ a.due) : a.Punctual (now + k) where
  rung := punctual.rung
  over_ := Nat.le_add_right_of_le punctual.over_
  ahead := next
  once := punctual.once

/-- The alarm rings when it is due. -/
theorem Punctual.ring (punctual : a.Punctual now) (armed : a.armed = true) (due : a.due = now) :
    (a.ring now).Punctual now where
  rung := by
    show a.rung ++ [now] = _
    have length : (a.ring now).rung.length = a.rung.length + 1 := by simp [Alarm.ring]
    have last : now = a.since + (a.rung.length + 1) * a.ticks := due.symm
    rw [length, List.range_succ, List.map_append, List.map_singleton]
    conv_lhs => rw [punctual.rung]
    rw [last]
    rfl
  over_ := by
    have length : (a.ring now).rung.length = a.rung.length + 1 := by simp [Alarm.ring]
    rw [length]
    exact due.le
  ahead := by
    intro _
    rw [due_ring, due]
    exact Nat.le_add_right now a.ticks
  once := by
    intro single
    have before := punctual.once single
    have stops : (a.ring now).armed = false := single
    have length : (a.ring now).rung.length = a.rung.length + 1 := by simp [Alarm.ring]
    rw [stops, length]
    rw [armed] at before
    exact before

end Alarm

/-! ## The clock -/

structure Clock (N : Type u) where
  now : ℕ
  alarms : N → Alarm

variable {N : Type u} [DecidableEq N]

namespace Clock

variable (c : Clock N)

def set (n : N) (a : Alarm) : Clock N :=
  { c with alarms := Function.update c.alarms n a }

/-- When each alarm rings next. -/
def due (n : N) : ℕ := (c.alarms n).due

theorem due_set (n : N) (a : Alarm) : (c.set n a).due = Function.update c.due n a.due :=
  Function.comp_update Alarm.due c.alarms n a

/-- What can happen on the clock. -/
inductive Step : Clock N → Clock N → Prop
  | idle {c : Clock N} : Step c c
  | arm {c : Clock N} (n : N) (periodic : Bool) (ticks : ℕ) (free : (c.alarms n).armed = false) :
      Step c (c.set n (.start c.now periodic ticks))
  | disarm {c : Clock N} (n : N) : Step c (c.set n (c.alarms n).stop)
  | wait {c : Clock N} (k : ℕ)
      (next : ∀ n, (c.alarms n).armed = true → c.now + k ≤ (c.alarms n).due) :
      Step c { c with now := c.now + k }
  | ring {c : Clock N} (n : N) (armed : (c.alarms n).armed = true)
      (due : (c.alarms n).due = c.now) : Step c (c.set n ((c.alarms n).ring c.now))

/-- All alarms are on time. -/
def Punctual : Prop := ∀ n, (c.alarms n).Punctual c.now

variable {c}

theorem Punctual.set (punctual : c.Punctual) {n : N} {a : Alarm} (here : a.Punctual c.now) :
    (c.set n a).Punctual := by
  show ∀ m, (Function.update c.alarms n a m).Punctual c.now
  rw [Function.forall_update_iff c.alarms (p := fun _ a => a.Punctual c.now)]
  exact ⟨here, fun m _ => punctual m⟩

/-- Every step keeps all alarms on time. -/
theorem Step.punctual {d : Clock N} (moved : Step c d) (punctual : c.Punctual) : d.Punctual := by
  cases moved with
  | idle => exact punctual
  | arm n periodic ticks free => exact punctual.set (.start c.now periodic ticks)
  | disarm n => exact punctual.set (punctual n).stop
  | wait k next => exact fun n => (punctual n).wait (next n)
  | ring n armed due => exact punctual.set ((punctual n).ring armed due)

end Clock

end Twan.Base.Alarms
