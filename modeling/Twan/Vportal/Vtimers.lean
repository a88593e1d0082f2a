/-
# Twan.Vportal.Vtimers -- the virtual timers of a vcpu

A vcpu has any number of timers and one VMX preemption timer.  The timers that are armed are in a
delta chain, and the preemption timer counts for the first of them.  While it counts, the delta
that the chain stores for the front says nothing: what is left is in the VMCS, and only `varm_timern`
and `vdisarm_timern` put it back where they need it.

A run is any sequence of the two vcalls, of guest time and of exits of the preemption timer, which
is an exit of a timer that is on and has nothing left.  `Timed` is the invariant: with the
hardware's value for the front, the chain says when each armed timer is due.  Each step keeps it
and is a step of the clock of `Twan.Base.Alarms`, so the timers are on time (`vtimer_law`).
-/
import Twan.Base.Alarms
import Twan.Base.Run
import Twan.Vemulate.TimerChain
import Twan.Vportal.Exits

namespace Twan.Vportal

set_option autoImplicit false

open Twan.Base Twan.Base.Prog Twan.Base.Alarms Twan.Lib Twan.Vemulate

/-! ## What the timers work with -/

namespace Ctx

variable (s : Ctx)

/-- The VMX preemption timer value. -/
def timerValue : BitVec 32 := (s.vmcs .guestVmxPreemptionTimerValue).setWidth 32

/-- "Activate VMX-preemption timer". -/
def timerActive : Bool := ((s.vmcs .ctrlPinbasedControls).setWidth 32).getLsbD 6

/-- "Save VMX-preemption timer value". -/
def timerSaved : Bool := ((s.vmcs .ctrlPrimaryVmexitControls).setWidth 32).getLsbD 22

/-- The guest runs for `k` ticks, and `visr` is pending then.  The value is only kept if it is
saved at the exit. -/
def elapse (k : ℕ) (visr : VisrPending) : Ctx :=
  { s with
    visr := visr
    vmcs :=
      if s.timerActive && s.timerSaved then
        Function.update s.vmcs .guestVmxPreemptionTimerValue
          ((s.timerValue - BitVec.ofNat 32 k).setWidth 64)
      else s.vmcs }

end Ctx

/-- A vcpu, with the guest time so far and what its timers have done in it: when each was armed
last, and when it was made pending since. -/
structure TimerState where
  ctx : Ctx
  now : ℕ
  since : ℕ → ℕ
  rung : ℕ → List ℕ

inductive TimerAction where
  | varmTimern (vregs : Vregs)
  | vdisarmTimern (vregs : Vregs)
  /-- Guest time, after which this is pending. -/
  | elapse (k : ℕ) (visr : VisrPending)
  | vexitVmxPreempt

namespace TimerState

variable (s : TimerState)

def timer (n : ℕ) : Vtimer := s.ctx.timers.timers n

/-- The timer as an alarm. -/
def alarm (n : ℕ) : Alarm where
  armed := (s.timer n).armed
  periodic := (s.timer n).periodic
  ticks := (s.timer n).ticks.toNat
  since := s.since n
  rung := s.rung n

/-- All timers as alarms on the guest's clock. -/
def clock : Clock ℕ := ⟨s.now, s.alarm⟩

/-- The ticks that are left until the timer is due. -/
def left (n : ℕ) : ℕ := (s.alarm n).due - s.now

/-- A vcpu at its start. -/
def start (ctx : Ctx) : TimerState where
  ctx := ctx
  now := 0
  since := fun _ => 0
  rung := fun _ => []

end TimerState

/-! ## What the handlers do to it -/

/-- Of a vcpu, what its timers read and write. -/
structure Timing where
  value : BitVec 32
  active : Bool
  saved : Bool
  timers : Vtimers
  visr : VisrPending

def Ctx.timing (s : Ctx) : Timing where
  value := s.timerValue
  active := s.timerActive
  saved := s.timerSaved
  timers := s.timers
  visr := s.visr

namespace Timing

variable (t : Timing) (n : ℕ)

/-- The preemption timer on or off. -/
def turn (on : Bool) : Timing := { t with active := on, saved := on }

/-- The front's delta is what the hardware has left. -/
def settle : Timing :=
  { t with timers := { t.timers with
      chain := setFrontDelta (t.value.setWidth 64) t.timers.chain } }

/-- `varmHardware`. -/
def load (ticks : BitVec 32) : Timing :=
  if t.timers.chain.isEmpty then { t.turn true with value := ticks }
  else { t.settle with value := if ticks < t.value then ticks else t.value }

/-- `varm_timern`. -/
def arm (timer : Vtimer) : Timing :=
  let loaded := t.load timer.ticks
  { loaded with timers := loaded.timers.insert n timer }

/-- `vdisarmHardware`. -/
def unload : Timing :=
  if isFront n t.timers.chain then
    match nextDelta t.timers.chain with
    | none => t.turn false
    | some delta => { t.settle with value := (t.value.setWidth 64 + delta).setWidth 32 }
  else t

/-- `vdisarm_timern`. -/
def disarm : Timing :=
  let unloaded := t.unload n
  { unloaded with timers := unloaded.timers.remove n }

/-- The front, `n`, has run out. -/
def expire (rest : List (ℕ × BitVec 64)) : Timing := { t with timers := expireFront t.timers n rest }

/-- `reloadPreemptionTimer`. -/
def reload : Timing :=
  match t.timers.chain with
  | (_, delta) :: _ => { t with value := delta.setWidth 32 }
  | [] => t.turn false

def pend (vector : Fin 256) (nmi : Bool) : Timing :=
  { t with visr := t.visr.setInterruptPending vector nmi }

end Timing

variable {α β : Type} {w : World} {site : Site} {vregs : Vregs} {s t : Ctx} {tm tm' : Timing}

/-- The program returns `a` and leaves this. -/
def Leaves (w : World) (p : Handler α) (s : Ctx) (a : α) (tm : Timing) : Prop :=
  ∃ t, run (answer w) p s = (some a, t) ∧ t.timing = tm

theorem Leaves.bind {p : Handler α} {f : α → Handler β} {a : α} {b : β}
    (first : Leaves w p s a tm) (second : ∀ t, t.timing = tm → Leaves w (f a) t b tm') :
    Leaves w (p >>= f) s b tm' := by
  obtain ⟨t, ran, left⟩ := first
  obtain ⟨u, rest, after⟩ := second t left
  refine ⟨u, ?_, after⟩
  rw [run_bind, ran]
  exact rest

/-- What `varm_timern` arms. -/
def armedTimer (vregs : Vregs) : Vtimer where
  vector := arg8 vregs.rdi
  periodic := argBool vregs.rcx
  armed := true
  nmi := argBool vregs.r8
  ticks := arg32 vregs.rdx

/-- `varm_timern` accepts this. -/
def Armable (site : Site) (vregs : Vregs) (s : Ctx) : Prop :=
  (arg8 vregs.rsi).val < site.numVtimers ∧ (argBool vregs.r8 = true → arg8 vregs.rdi = nmiVector) ∧
    (s.timers.timers (arg8 vregs.rsi).val).armed = false

/-- `vdisarm_timern` accepts this. -/
def Disarmable (site : Site) (vregs : Vregs) (s : Ctx) : Prop :=
  (arg8 vregs.rdi).val < site.numVtimers ∧ (s.timers.timers (arg8 vregs.rdi).val).armed = true

theorem map_fst_setFrontDelta (delta : BitVec 64) (chain : List (ℕ × BitVec 64)) :
    (setFrontDelta delta chain).map Prod.fst = chain.map Prod.fst := by
  cases chain <;> rfl

/-- With what the hardware has left for the front, the chain says when each armed timer is due, and
the preemption timer is on if there is one. -/
structure Timed (tm : Timing) (now : ℕ) (due : ℕ → ℕ) : Prop where
  active : tm.active = !tm.timers.chain.isEmpty
  saved : tm.saved = !tm.timers.chain.isEmpty
  queued : tm.settle.timers.Queued now due

variable {now n : ℕ} {due : ℕ → ℕ}

theorem widen_lt {a b : BitVec 32} : a.setWidth 64 < b.setWidth 64 ↔ a < b := by
  rw [BitVec.lt_def, BitVec.lt_def, BitVec.toNat_setWidth, BitVec.toNat_setWidth,
    Nat.mod_eq_of_lt (by omega), Nat.mod_eq_of_lt (by omega)]

/-- The lesser of the new timer's ticks and what the hardware has left is the front's. -/
theorem setFrontDelta_insert (ticks value : BitVec 32) (front : ℕ × BitVec 64)
    (rest : List (ℕ × BitVec 64)) :
    setFrontDelta ((if ticks < value then ticks else value).setWidth 64)
        (deltaChainInsert n (ticks.setWidth 64) (setFrontDelta (value.setWidth 64) (front :: rest))) =
      deltaChainInsert n (ticks.setWidth 64) (setFrontDelta (value.setWidth 64) (front :: rest)) := by
  simp only [setFrontDelta, deltaChainInsert, widen_lt]
  by_cases less : ticks < value
  · rw [if_pos less, if_pos less]
  · rw [if_neg less, if_neg less]

/-- A delta of 32 bits is loaded as it is. -/
theorem widen_narrow {delta : BitVec 64} (small : delta.toNat < 2 ^ 32) :
    (delta.setWidth 32).setWidth 64 = delta := by
  apply BitVec.eq_of_toNat_eq
  rw [BitVec.toNat_setWidth, BitVec.toNat_setWidth, Nat.mod_eq_of_lt small,
    Nat.mod_eq_of_lt delta.isLt]

/-- Arming a timer inserts it into the chain as the hardware counts it. -/
theorem settle_arm (timer : Vtimer) :
    (tm.arm n timer).settle.timers = tm.settle.timers.insert n timer := by
  obtain ⟨value, active, saved, ⟨timers, chain⟩, visr⟩ := tm
  cases chain with
  | nil => rfl
  | cons front rest =>
      exact congrArg (Vtimers.mk _) (setFrontDelta_insert timer.ticks value front rest)

theorem deltaChainInsert_ne_nil (remaining : BitVec 64) (chain : List (ℕ × BitVec 64)) :
    (deltaChainInsert n remaining chain).isEmpty = false := by
  cases chain with
  | nil => rfl
  | cons front rest =>
      unfold deltaChainInsert
      split <;> rfl

theorem Timed.arm {timer : Vtimer} (timed : Timed tm now due)
    (free : (tm.timers.timers n).armed = false) (on : timer.armed = true)
    (valid : timer.nmi = true → timer.vector = nmiVector) :
    Timed (tm.arm n timer) now (Function.update due n (now + timer.ticks.toNat)) := by
  have filled : (tm.arm n timer).timers.chain.isEmpty = false := deltaChainInsert_ne_nil _ _
  have running : (tm.arm n timer).active = true ∧ (tm.arm n timer).saved = true := by
    have active := timed.active
    have saved := timed.saved
    unfold Timing.arm Timing.load
    cases empty : tm.timers.chain.isEmpty with
    | true => exact ⟨rfl, rfl⟩
    | false =>
        rw [empty] at active saved
        exact ⟨active, saved⟩
  refine ⟨by rw [running.1, filled]; rfl, by rw [running.2, filled]; rfl, ?_⟩
  rw [settle_arm]
  exact timed.queued.insert free on valid

/-- Disarming a timer takes it out of the chain as the hardware counts it. -/
theorem settle_disarm (timed : Timed tm now due) :
    (tm.disarm n).settle.timers = tm.settle.timers.remove n := by
  have small := timed.queued.small
  obtain ⟨value, active, saved, ⟨timers, chain⟩, visr⟩ := tm
  match chain with
  | [] => rfl
  | [(cur, delta)] =>
      by_cases same : cur = n
      · simp [Timing.disarm, Timing.unload, Timing.settle, Timing.turn, Vtimers.remove, isFront,
          nextDelta, setFrontDelta, deltaChainDequeueNoCallback, same]
      · simp [Timing.disarm, Timing.unload, Timing.settle, Vtimers.remove, isFront, setFrontDelta,
          deltaChainDequeueNoCallback, same]
  | (cur, delta) :: (next, nextDelta) :: rest =>
      by_cases same : cur = n
      · have bound := small (next, now + (value.setWidth 64).toNat + nextDelta.toNat) (by
          simp [Timing.settle, setFrontDelta, dues])
        have exact_ : ((value.setWidth 64 + nextDelta).setWidth 32).setWidth 64 =
            nextDelta + value.setWidth 64 := by
          rw [BitVec.add_comm, widen_narrow]
          rw [BitVec.toNat_add]
          exact Nat.lt_of_le_of_lt (Nat.mod_le _ _) (by omega)
        simp [Timing.disarm, Timing.unload, Timing.settle, Vtimers.remove, isFront,
          Vportal.nextDelta, setFrontDelta, deltaChainDequeueNoCallback, same, exact_]
      · simp [Timing.disarm, Timing.unload, Timing.settle, Vtimers.remove, isFront, setFrontDelta,
          deltaChainDequeueNoCallback, same]

theorem Timed.disarm (timed : Timed tm now due) : Timed (tm.disarm n) now due := by
  have queued : (tm.disarm n).settle.timers.Queued now due := by
    rw [settle_disarm timed]
    exact timed.queued.remove
  have active := timed.active
  have saved := timed.saved
  obtain ⟨value, on, saves, ⟨timers, chain⟩, visr⟩ := tm
  match chain with
  | [] => exact ⟨active, saved, queued⟩
  | [(cur, delta)] =>
      by_cases same : cur = n
      · refine ⟨?_, ?_, queued⟩ <;> simp [Timing.disarm, Timing.unload, Timing.turn, Vtimers.remove,
          isFront, nextDelta, deltaChainDequeueNoCallback, same]
      · refine ⟨?_, ?_, queued⟩ <;> simpa [Timing.disarm, Timing.unload, Vtimers.remove, isFront,
          deltaChainDequeueNoCallback, same]
  | (cur, delta) :: (next, nextDelta) :: rest =>
      by_cases same : cur = n
      · refine ⟨?_, ?_, queued⟩ <;> simpa [Timing.disarm, Timing.unload, Timing.settle,
          Vtimers.remove, isFront, Vportal.nextDelta, setFrontDelta, deltaChainDequeueNoCallback, same]
      · refine ⟨?_, ?_, queued⟩ <;> simpa [Timing.disarm, Timing.unload, Vtimers.remove, isFront,
          deltaChainDequeueNoCallback, same]

theorem widen_toNat (value : BitVec 32) : (value.setWidth 64).toNat = value.toNat := by
  rw [BitVec.toNat_setWidth, Nat.mod_eq_of_lt (by omega)]

theorem settle_chain (tm : Timing) {delta : BitVec 64} {rest : List (ℕ × BitVec 64)}
    (chain : tm.timers.chain = (n, delta) :: rest) :
    tm.settle.timers.chain = (n, tm.value.setWidth 64) :: rest := by
  show setFrontDelta _ tm.timers.chain = _
  rw [chain]
  rfl

/-- The hardware counts for the front. -/
theorem Timed.front_due {delta : BitVec 64} {rest : List (ℕ × BitVec 64)}
    (timed : Timed tm now due) (chain : tm.timers.chain = (n, delta) :: rest) :
    due n = now + tm.value.toNat := by
  have inside : (n, now + tm.value.toNat) ∈ dues now tm.settle.timers.chain := by
    rw [settle_chain tm chain, dues, widen_toNat]
    exact List.mem_cons_self
  exact (timed.queued.dated _ inside).symm

theorem dequeue_front (rest : List (ℕ × BitVec 64)) :
    deltaChainDequeueNoCallback n ((n, 0) :: rest) = rest := by
  cases rest <;> simp [deltaChainDequeueNoCallback]

/-- The front leaves when it has run out, and is armed again if it is periodic. -/
theorem settle_expire {delta : BitVec 64} {rest : List (ℕ × BitVec 64)}
    (chain : tm.timers.chain = (n, delta) :: rest) (zero : tm.value = 0) :
    expireFront tm.timers n rest =
      if (tm.timers.timers n).periodic then
        (tm.settle.timers.remove n).insert n (tm.timers.timers n)
      else tm.settle.timers.remove n := by
  have removed : tm.settle.timers.remove n =
      { timers := Function.update tm.timers.timers n { tm.timers.timers n with armed := false }
        chain := rest } := by
    unfold Vtimers.remove
    rw [settle_chain tm chain, zero]
    exact congrArg (Vtimers.mk _) (dequeue_front rest)
  rw [removed, expireFront, Vtimers.insert, Function.update_idem, Function.update_eq_self]

/-- With the next timer loaded, or the preemption timer off, the chain is counted as it is stored. -/
theorem timed_reload (active : tm.active = true) (saved : tm.saved = true)
    (queued : tm.timers.Queued now due) : Timed tm.reload now due := by
  have small := queued.small
  obtain ⟨value, on, saves, ⟨timers, chain⟩, visr⟩ := tm
  cases chain with
  | nil => exact ⟨rfl, rfl, queued⟩
  | cons front rest =>
      have bound := small (front.1, now + front.2.toNat) List.mem_cons_self
      have delta : (front.2.setWidth 32).setWidth 64 = front.2 :=
        widen_narrow (Nat.lt_of_add_lt_add_left bound)
      refine ⟨active, saved, ?_⟩
      show Vtimers.Queued ⟨timers, (front.1, (front.2.setWidth 32).setWidth 64) :: rest⟩ now due
      rw [delta]
      exact queued

/-- The exit of a preemption timer that has run out. -/
theorem Timed.expire {delta : BitVec 64} {rest : List (ℕ × BitVec 64)} (timed : Timed tm now due)
    (chain : tm.timers.chain = (n, delta) :: rest) (zero : tm.value = 0) :
    Timed (tm.expire n rest).reload now
      (Function.update due n (now + (tm.timers.timers n).ticks.toNat)) := by
  have active : tm.active = true := by rw [timed.active, chain]; rfl
  have saved : tm.saved = true := by rw [timed.saved, chain]; rfl
  have front : n ∈ tm.settle.timers.chain.map Prod.fst := by simp [settle_chain tm chain]
  have armed : (tm.timers.timers n).armed = true := (timed.queued.armed n).mpr front
  have removed := timed.queued.remove (n := n)
  refine timed_reload active saved ?_
  show (expireFront tm.timers n rest).Queued now _
  rw [settle_expire chain zero]
  cases (tm.timers.timers n).periodic with
  | true => exact removed.insert (by simp [Vtimers.remove]) armed (timed.queued.valid n armed)
  | false =>
      refine removed.redate fun m on => Function.update_of_ne ?_ ..
      rintro rfl
      simp [Vtimers.remove] at on

theorem timing_elapse_active {k : ℕ} {visr : VisrPending} (active : s.timerActive = true)
    (saved : s.timerSaved = true) : (s.elapse k visr).timing =
      { s.timing with value := s.timerValue - BitVec.ofNat 32 k, visr := visr } := by
  have on : (s.timerActive && s.timerSaved) = true := by rw [active, saved]; rfl
  unfold Ctx.elapse
  rw [if_pos on]
  simp [Ctx.timing, Ctx.timerValue, Ctx.timerActive, Ctx.timerSaved]

theorem timing_elapse_inactive {k : ℕ} {visr : VisrPending} (inactive : s.timerActive = false) :
    (s.elapse k visr).timing = { s.timing with visr := visr } := by
  have off : ¬ (s.timerActive && s.timerSaved) = true := by simp [inactive]
  unfold Ctx.elapse
  rw [if_neg off]
  rfl

/-- Guest time, no more than is left. -/
theorem Timed.elapse {k : ℕ} {visr : VisrPending} (timed : Timed s.timing now due)
    (within : s.timerActive = true → k ≤ s.timerValue.toNat) :
    Timed (s.elapse k visr).timing (now + k) due := by
  have active : s.timerActive = !s.timers.chain.isEmpty := timed.active
  have saved : s.timerSaved = !s.timers.chain.isEmpty := timed.saved
  cases chain : s.timers.chain with
  | nil =>
      have inactive : s.timerActive = false := by rw [active, chain]; rfl
      rw [timing_elapse_inactive inactive]
      refine ⟨timed.active, timed.saved, timed.queued.recount ?_ (Nat.le_add_right now k)⟩
      show dues (now + k) (setFrontDelta _ s.timers.chain) = dues now (setFrontDelta _ s.timers.chain)
      rw [chain]
      rfl
  | cons front rest =>
      obtain ⟨n, delta⟩ := front
      have on : s.timerActive = true := by rw [active, chain]; rfl
      have saves : s.timerSaved = true := by rw [saved, chain]; rfl
      have enough : k ≤ s.timerValue.toNat := within on
      rw [timing_elapse_active on saves]
      refine ⟨timed.active, timed.saved, timed.queued.recount ?_ (Nat.le_add_right now k)⟩
      have ticks : (BitVec.ofNat 32 k).toNat = k := by
        rw [BitVec.toNat_ofNat, Nat.mod_eq_of_lt (by omega)]
      have counted : now + k + (s.timerValue - BitVec.ofNat 32 k).toNat =
          now + s.timerValue.toNat := by
        rw [BitVec.toNat_sub_of_le (BitVec.le_def.mpr (ticks.trans_le enough)), ticks]
        omega
      show dues (now + k)
          (setFrontDelta ((s.timerValue - BitVec.ofNat 32 k).setWidth 64) s.timers.chain) =
        dues now (setFrontDelta (s.timerValue.setWidth 64) s.timers.chain)
      rw [chain, setFrontDelta, setFrontDelta, dues, dues, widen_toNat, widen_toNat, counted]

/-! ## The steps -/

/-- What a step can be. -/
inductive TimerMove (site : Site) (s : TimerState) : TimerAction → TimerState → Prop
  | varmRefused {vregs : Vregs} {c : Ctx} (refused : ¬ Armable site vregs s.ctx)
      (same : c.timing = s.ctx.timing) : TimerMove site s (.varmTimern vregs) { s with ctx := c }
  | varm {vregs : Vregs} {c : Ctx} (able : Armable site vregs s.ctx)
      (timing : c.timing = s.ctx.timing.arm (arg8 vregs.rsi).val (armedTimer vregs)) :
      TimerMove site s (.varmTimern vregs) { s with
        ctx := c
        since := Function.update s.since (arg8 vregs.rsi).val s.now
        rung := Function.update s.rung (arg8 vregs.rsi).val [] }
  | vdisarmRefused {vregs : Vregs} {c : Ctx} (refused : ¬ Disarmable site vregs s.ctx)
      (same : c.timing = s.ctx.timing) : TimerMove site s (.vdisarmTimern vregs) { s with ctx := c }
  | vdisarm {vregs : Vregs} {c : Ctx} (able : Disarmable site vregs s.ctx)
      (timing : c.timing = s.ctx.timing.disarm (arg8 vregs.rdi).val) :
      TimerMove site s (.vdisarmTimern vregs) { s with ctx := c }
  | elapse {k : ℕ} {visr : VisrPending}
      (within : s.ctx.timerActive = true → k ≤ s.ctx.timerValue.toNat) :
      TimerMove site s (.elapse k visr) { s with ctx := s.ctx.elapse k visr, now := s.now + k }
  | vexitVmxPreempt {c : Ctx} {n : ℕ} {delta : BitVec 64} {rest : List (ℕ × BitVec 64)}
      (chain : s.ctx.timers.chain = (n, delta) :: rest) (zero : s.ctx.timerValue = 0)
      (timing : c.timing =
        (s.ctx.timing.expire n rest).reload.pend (s.timer n).vector (s.timer n).nmi) :
      TimerMove site s .vexitVmxPreempt
        { s with ctx := c, rung := Function.update s.rung n (s.rung n ++ [s.now]) }

/-- The timers are on time, and the chain and the hardware say when each is due. -/
structure TimersOk (s : TimerState) : Prop where
  punctual : s.clock.Punctual
  timed : Timed s.ctx.timing s.now s.clock.due

section Steps

variable {x y : TimerState} {a : TimerAction}

theorem TimersOk.valid (ok : TimersOk x) (armed : (x.timer n).armed = true) :
    (x.timer n).nmi = true → (x.timer n).vector = nmiVector :=
  ok.timed.queued.valid n armed

theorem TimersOk.armed_front {delta : BitVec 64} {rest : List (ℕ × BitVec 64)} (ok : TimersOk x)
    (chain : x.ctx.timers.chain = (n, delta) :: rest) : (x.timer n).armed = true := by
  refine (ok.timed.queued.armed n).mpr ?_
  rw [settle_chain x.ctx.timing chain]
  exact List.mem_cons_self

theorem arm_timers (timer : Vtimer) :
    (tm.arm n timer).timers.timers = Function.update tm.timers.timers n timer := by
  unfold Timing.arm Timing.load
  cases tm.timers.chain.isEmpty <;> rfl

theorem disarm_timers : (tm.disarm n).timers.timers =
    Function.update tm.timers.timers n { tm.timers.timers n with armed := false } := by
  unfold Timing.disarm Timing.unload
  cases isFront n tm.timers.chain with
  | false => rfl
  | true => cases nextDelta tm.timers.chain <;> rfl

/-- The timer that expires is left armed if it is periodic. -/
theorem expire_timers {rest : List (ℕ × BitVec 64)} (armed : (tm.timers.timers n).armed = true) :
    (tm.expire n rest).reload.timers.timers = Function.update tm.timers.timers n
      { tm.timers.timers n with armed := (tm.timers.timers n).periodic } := by
  have reloaded : (tm.expire n rest).reload.timers = expireFront tm.timers n rest := by
    unfold Timing.reload
    split <;> rfl
  rw [reloaded, expireFront]
  cases periodic : (tm.timers.timers n).periodic with
  | true =>
      have same : { tm.timers.timers n with armed := true } = tm.timers.timers n := by
        rw [← armed]
      rw [same, Function.update_eq_self]
      rfl
  | false => rfl

theorem arm_visr (timer : Vtimer) : (tm.arm n timer).visr = tm.visr := by
  unfold Timing.arm Timing.load
  cases tm.timers.chain.isEmpty <;> rfl

theorem disarm_visr : (tm.disarm n).visr = tm.visr := by
  unfold Timing.disarm Timing.unload
  cases isFront n tm.timers.chain with
  | false => rfl
  | true => cases nextDelta tm.timers.chain <;> rfl

theorem expire_visr {rest : List (ℕ × BitVec 64)} : (tm.expire n rest).reload.visr = tm.visr := by
  unfold Timing.reload
  split <;> rfl

/-- Where one timer is written, the others' alarms are as they were. -/
theorem clock_set {c : Ctx} {timer : Vtimer} (since : ℕ) (rung : List ℕ)
    (timers : c.timers.timers = Function.update x.ctx.timers.timers n timer) :
    TimerState.clock ⟨c, x.now, Function.update x.since n since, Function.update x.rung n rung⟩ =
      x.clock.set n
        { armed := timer.armed
          periodic := timer.periodic
          ticks := timer.ticks.toNat
          since := since
          rung := rung } := by
  refine congrArg (Clock.mk x.now) (funext fun m => ?_)
  simp only [TimerState.alarm, TimerState.timer, timers]
  show _ = Function.update x.alarm n _ m
  by_cases same : m = n
  · subst same
    simp only [Function.update_self]
  · simp only [Function.update_of_ne same]
    rfl

theorem clock_same {c : Ctx} (same : c.timing = x.ctx.timing) :
    TimerState.clock { x with ctx := c } = x.clock := by
  have timers : c.timers = x.ctx.timers := congrArg Timing.timers same
  refine congrArg (Clock.mk x.now) (funext fun m => ?_)
  simp only [TimerState.alarm, TimerState.timer, timers]

theorem clock_arm {c : Ctx} {timer : Vtimer} (on : timer.armed = true)
    (timing : c.timing = x.ctx.timing.arm n timer) :
    TimerState.clock ⟨c, x.now, Function.update x.since n x.now, Function.update x.rung n []⟩ =
      x.clock.set n (.start x.now timer.periodic timer.ticks.toNat) := by
  have timers := (congrArg (fun tm => tm.timers.timers) timing).trans (arm_timers timer)
  rw [clock_set x.now [] timers, on]
  rfl

theorem clock_disarm {c : Ctx} (timing : c.timing = x.ctx.timing.disarm n) :
    TimerState.clock { x with ctx := c } = x.clock.set n (x.alarm n).stop := by
  have timers := (congrArg (fun tm => tm.timers.timers) timing).trans disarm_timers
  have set := clock_set (x.since n) (x.rung n) timers
  rw [Function.update_eq_self, Function.update_eq_self] at set
  exact set

theorem clock_expire {c : Ctx} {rest : List (ℕ × BitVec 64)} {vector : Fin 256} {nmi : Bool}
    (armed : (x.timer n).armed = true)
    (timing : c.timing = (x.ctx.timing.expire n rest).reload.pend vector nmi) :
    TimerState.clock { x with ctx := c, rung := Function.update x.rung n (x.rung n ++ [x.now]) } =
      x.clock.set n ((x.alarm n).ring x.now) := by
  have timers := (congrArg (fun tm => tm.timers.timers) timing).trans (expire_timers armed)
  have set := clock_set (x.since n) (x.rung n ++ [x.now]) timers
  rw [Function.update_eq_self] at set
  exact set

theorem TimersOk.front_due {delta : BitVec 64} {rest : List (ℕ × BitVec 64)} (ok : TimersOk x)
    (chain : x.ctx.timers.chain = (n, delta) :: rest) :
    (x.alarm n).due = x.now + x.ctx.timerValue.toNat :=
  ok.timed.front_due chain

/-- Guest time does not run past a timer. -/
theorem TimersOk.next {k : ℕ} (ok : TimersOk x)
    (within : x.ctx.timerActive = true → k ≤ x.ctx.timerValue.toNat)
    (armed : (x.timer n).armed = true) : x.now + k ≤ (x.alarm n).due := by
  have inside : (n, (x.alarm n).due) ∈ dues x.now x.ctx.timing.settle.timers.chain :=
    ok.timed.queued.mem_dues armed
  match chain : x.ctx.timers.chain with
  | [] =>
      have empty : x.ctx.timing.settle.timers.chain = [] := congrArg (setFrontDelta _) chain
      rw [empty] at inside
      exact absurd inside List.not_mem_nil
  | (front, delta) :: rest =>
      have on : x.ctx.timerActive = true := ok.timed.active.trans (by
        show (!x.ctx.timers.chain.isEmpty) = true
        rw [chain]
        rfl)
      rw [settle_chain x.ctx.timing chain, dues, widen_toNat] at inside
      have later : x.now + x.ctx.timerValue.toNat ≤ (x.alarm n).due := by
        rcases List.mem_cons.mp inside with same | inside
        · exact (congrArg Prod.snd same).ge
        · exact le_of_mem_dues _ inside
      have enough := within on
      omega

/-- A timer that the hardware has nothing left for is due. -/
theorem TimersOk.due_now {delta : BitVec 64} {rest : List (ℕ × BitVec 64)} (ok : TimersOk x)
    (chain : x.ctx.timers.chain = (n, delta) :: rest) (zero : x.ctx.timerValue = 0) :
    (x.alarm n).due = x.now := by
  have due := ok.front_due chain
  rwa [zero] at due

/-- Each step is one of the clock. -/
theorem TimerMove.clock (ok : TimersOk x) (move : TimerMove site x a y) :
    Clock.Step x.clock y.clock := by
  cases move with
  | varmRefused refused same =>
      rw [clock_same same]
      exact .idle
  | varm able timing =>
      rw [clock_arm rfl timing]
      exact .arm _ _ _ able.2.2
  | vdisarmRefused refused same =>
      rw [clock_same same]
      exact .idle
  | vdisarm able timing =>
      rw [clock_disarm timing]
      exact .disarm _
  | elapse within => exact .wait _ fun m => ok.next within
  | vexitVmxPreempt chain zero timing =>
      have armed := ok.armed_front chain
      rw [clock_expire armed timing]
      exact .ring _ armed (ok.due_now chain zero)

/-- Each step keeps the chain and the hardware right. -/
theorem TimerMove.timed (ok : TimersOk x) (move : TimerMove site x a y) :
    Timed y.ctx.timing y.now y.clock.due := by
  have timed := ok.timed
  cases move with
  | varmRefused refused same =>
      rw [clock_same same, same]
      exact timed
  | varm able timing =>
      rw [clock_arm rfl timing, Clock.due_set, Alarm.due_start, timing]
      exact timed.arm able.2.2 rfl able.2.1
  | vdisarmRefused refused same =>
      rw [clock_same same, same]
      exact timed
  | @vdisarm vregs c able timing =>
      have due : (x.clock.set (arg8 vregs.rdi).val (x.alarm (arg8 vregs.rdi).val).stop).due =
          x.clock.due := by
        rw [Clock.due_set]
        exact Function.update_eq_self _ x.clock.due
      rw [clock_disarm timing, due, timing]
      exact timed.disarm
  | elapse within => exact timed.elapse within
  | vexitVmxPreempt chain zero timing =>
      have expired := timed.expire chain zero
      rw [clock_expire (ok.armed_front chain) timing, Clock.due_set, Alarm.due_ring,
        ok.due_now chain zero, timing]
      exact ⟨expired.active, expired.saved, expired.queued⟩

theorem TimerMove.ok (ok : TimersOk x) (move : TimerMove site x a y) : TimersOk y :=
  ⟨(move.clock ok).punctual ok.punctual, move.timed ok⟩

end Steps

/-! ## The law -/

/-- What is said of the timers at any time. -/
structure TimerLaw (s : TimerState) : Prop where
  /-- The preemption timer is on, and its value kept, exactly when the chain is not empty. -/
  active : s.ctx.timerActive = true ↔ s.ctx.timers.chain ≠ []
  saved : s.ctx.timerSaved = true ↔ s.ctx.timers.chain ≠ []
  armed : s.ctx.timers.chain ≠ [] ↔ ∃ n, (s.timer n).armed = true
  /-- The hardware has what the front has left. -/
  front : ∀ n delta rest, s.ctx.timers.chain = (n, delta) :: rest →
    (s.timer n).armed = true ∧ s.left n = s.ctx.timerValue.toNat
  /-- An armed timer has that left and the deltas of the nodes after the front up to its own. -/
  left : ∀ n, (s.timer n).armed = true → ∃ before delta after,
    s.ctx.timers.chain = before ++ (n, delta) :: after ∧
      s.left n = s.ctx.timerValue.toNat + deltaSum (before ++ [(n, delta)]).tail
  /-- Each timer was made pending when its ticks were over, and again after each period. -/
  punctual : ∀ n, (s.alarm n).Punctual s.now

/-- What a step does: a vcall that is accepted arms or disarms its timer, guest time goes by, and an
exit makes a timer pending that is due now. -/
def TimerEffect (site : Site) (s : TimerState) (t : TimerState) : TimerAction → Prop
  | .varmTimern vregs => t.ctx.visr = s.ctx.visr ∧
      (Armable site vregs s.ctx → t.clock = s.clock.set (arg8 vregs.rsi).val
        (.start s.now (argBool vregs.rcx) (arg32 vregs.rdx).toNat)) ∧
      (¬ Armable site vregs s.ctx → t.clock = s.clock)
  | .vdisarmTimern vregs => t.ctx.visr = s.ctx.visr ∧
      (Disarmable site vregs s.ctx → t.clock = s.clock.set (arg8 vregs.rdi).val
        (s.alarm (arg8 vregs.rdi).val).stop) ∧
      (¬ Disarmable site vregs s.ctx → t.clock = s.clock)
  | .elapse k visr => t.ctx.visr = visr ∧ t.clock = { s.clock with now := s.now + k }
  | .vexitVmxPreempt => ∃ n, (s.timer n).armed = true ∧ (s.alarm n).due = s.now ∧
      t.ctx.visr = s.ctx.visr.setInterruptPending (s.timer n).vector (s.timer n).nmi ∧
      t.clock = s.clock.set n ((s.alarm n).ring s.now)

/-- A vcpu none of whose timers has been armed. -/
structure FreshTimers (ctx : Ctx) : Prop where
  chain : ctx.timers.chain = []
  armed : ∀ n, (ctx.timers.timers n).armed = false
  active : ctx.timerActive = false
  saved : ctx.timerSaved = false

section Law

variable {x y : TimerState} {a : TimerAction}

/-- What is left of a timer that is not the front. -/
theorem TimersOk.left_behind {front : ℕ × BitVec 64} {mid after : List (ℕ × BitVec 64)}
    {delta : BitVec 64} (ok : TimersOk x)
    (chain : x.ctx.timers.chain = front :: mid ++ (n, delta) :: after) :
    x.left n = x.ctx.timerValue.toNat + deltaSum (mid ++ [(n, delta)]) := by
  have settled : x.ctx.timing.settle.timers.chain =
      (front.1, x.ctx.timerValue.setWidth 64) :: mid ++ (n, delta) :: after :=
    congrArg (setFrontDelta _) chain
  have inside := mem_dues_middle (n := n) x.now
    ((front.1, x.ctx.timerValue.setWidth 64) :: mid) after delta
  rw [← settled] at inside
  have due : x.now + deltaSum ((front.1, x.ctx.timerValue.setWidth 64) :: mid ++ [(n, delta)]) =
      (x.alarm n).due := ok.timed.queued.dated _ inside
  rw [TimerState.left, ← due, Nat.add_sub_cancel_left]
  simp only [deltaSum, List.cons_append, List.map_cons, List.sum_cons, widen_toNat]

theorem TimersOk.law (ok : TimersOk x) : TimerLaw x := by
  have timed := ok.timed
  have active : x.ctx.timerActive = !x.ctx.timers.chain.isEmpty := timed.active
  have saved : x.ctx.timerSaved = !x.ctx.timers.chain.isEmpty := timed.saved
  have armed : ∀ n, (x.timer n).armed = true ↔ n ∈ x.ctx.timers.chain.map Prod.fst := by
    intro n
    rw [← map_fst_setFrontDelta (x.ctx.timerValue.setWidth 64)]
    exact timed.queued.armed n
  have front : ∀ n delta rest, x.ctx.timers.chain = (n, delta) :: rest →
      (x.timer n).armed = true ∧ x.left n = x.ctx.timerValue.toNat := by
    intro n delta rest chain
    refine ⟨ok.armed_front chain, ?_⟩
    rw [TimerState.left, ok.front_due chain]
    exact Nat.add_sub_cancel_left ..
  refine ⟨by simp [active], by simp [saved], ?_, front, ?_, ok.punctual⟩
  · simp only [armed]
    cases x.ctx.timers.chain with
    | nil => simp
    | cons first rest => exact iff_of_true (List.cons_ne_nil _ _) ⟨first.1, List.mem_cons_self⟩
  · intro n on
    obtain ⟨⟨m, delta⟩, inside, rfl⟩ := List.mem_map.mp ((armed n).mp on)
    obtain ⟨before, after, chain⟩ := List.append_of_mem inside
    refine ⟨before, delta, after, chain, ?_⟩
    cases before with
    | nil => exact (front m delta after chain).2
    | cons first before => exact ok.left_behind chain

theorem TimerMove.effect (ok : TimersOk x) (move : TimerMove site x a y) :
    TimerEffect site x y a := by
  cases move with
  | varmRefused refused same =>
      exact ⟨congrArg Timing.visr same, fun able => absurd able refused, fun _ => clock_same same⟩
  | varm able timing =>
      exact ⟨(congrArg Timing.visr timing).trans (arm_visr _), fun _ => clock_arm rfl timing,
        fun refused => absurd able refused⟩
  | vdisarmRefused refused same =>
      exact ⟨congrArg Timing.visr same, fun able => absurd able refused, fun _ => clock_same same⟩
  | vdisarm able timing =>
      exact ⟨(congrArg Timing.visr timing).trans disarm_visr, fun _ => clock_disarm timing,
        fun refused => absurd able refused⟩
  | elapse within => exact ⟨rfl, rfl⟩
  | @vexitVmxPreempt c n delta rest chain zero timing =>
      have armed := ok.armed_front chain
      have visr : ((x.ctx.timing.expire n rest).reload.pend (x.timer n).vector (x.timer n).nmi).visr =
          x.ctx.visr.setInterruptPending (x.timer n).vector (x.timer n).nmi :=
        congrArg (fun v => v.setInterruptPending (x.timer n).vector (x.timer n).nmi) expire_visr
      exact ⟨n, armed, ok.due_now chain zero, (congrArg Timing.visr timing).trans visr,
        clock_expire armed timing⟩

theorem FreshTimers.ok {ctx : Ctx} (fresh : FreshTimers ctx) : TimersOk (.start ctx) := by
  have active : ctx.timerActive = !ctx.timers.chain.isEmpty := by
    rw [fresh.active, fresh.chain]
    rfl
  have saved : ctx.timerSaved = !ctx.timers.chain.isEmpty := by
    rw [fresh.saved, fresh.chain]
    rfl
  have off : ∀ n, ¬ (ctx.timers.timers n).armed = true := fun n => by simp [fresh.armed n]
  have empty : ctx.timing.settle.timers.chain = [] := congrArg (setFrontDelta _) fresh.chain
  refine ⟨fun n => ⟨rfl, ?_, fun on => absurd on (off n), fun _ => ?_⟩, active, saved,
    ?_, ?_, ?_, ?_, ?_⟩
  · simp [TimerState.clock, TimerState.alarm, TimerState.start]
  · simp [TimerState.clock, TimerState.alarm, TimerState.start, TimerState.timer, fresh.armed n]
  · rw [show (TimerState.start ctx).ctx.timing.settle.timers.chain = [] from empty]
    exact List.nodup_nil
  · intro n
    rw [show (TimerState.start ctx).ctx.timing.settle.timers.chain = [] from empty]
    exact iff_of_false (off n) List.not_mem_nil
  · rw [show (TimerState.start ctx).ctx.timing.settle.timers.chain = [] from empty]
    exact fun e inside => absurd inside List.not_mem_nil
  · exact fun n on => absurd on (off n)
  · exact fun n on => absurd on (off n)

end Law

end Twan.Vportal
