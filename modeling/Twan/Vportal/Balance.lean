/-
# Twan.Vportal.Balance -- the preemption count over an exit

`vexit_dispatcher` disables preemption and leaves it to the handler to enable it again.  Any number
of vcpus share a CPU; each has a count of its own, and what is left of its exit up to where the
handler returns.  A step is one operation of the current vcpu, or a point at which the CPU changes
hands: a timer interrupt or an answered yield request while preemption is enabled, a yield or a
pause.  While vipis are drained the count is one higher, since `vipi_drain_no_yield` disables
preemption for as long as it spins.

The verdict on the handlers (`body_obeys`) starts from a count of 1.  `counting_of_discipline` moves
it to any count: the discipline never looks below where it starts.

`preemption_balanced`: in every run, a handler returns with the count from before the exit, and
nothing is enabled that is not disabled; `vexitDispatcher_eq` is that its programs are those of
`vexit_dispatcher`.
-/
import Twan.Base.Run
import Twan.Vportal.Exits

namespace Twan.Vportal.Balance

set_option autoImplicit false

open Twan.Base Twan.Base.Prog Twan.Vemulate

variable {α : Type}

/-! ## The dispatcher up to the handler's return -/

/-- `vexit_dispatcher` from where the function is known to where it returns. -/
def throughHandler (site : Site) (vregs : Vregs) (reason : BitVec 32) (func : VexitFunc) :
    Handler (BitVec 32) := do
  vexitBegin site reason
  let val ← vmread32 .roIdtVectoringInfoField
  func.body site vregs
  return val

/-- What `vexit_dispatcher` does when the handler has returned. -/
def afterHandler (val : BitVec 32) : Handler Unit := do
  let enabled ← Op.perform .preemptionEnabled
  assert .preemptionEnabled enabled
  let info := VectoredEventsInfo.ofVal val
  onlyIf info.valid (vqueueIdtVectoringInfo info)
  venter

/-! ## Counting -/

/-- What an operation does to the count of the vcpu. -/
def countAfter : Op → ℕ → ℕ
  | .disablePreemption, n => n + 1
  | .enablePreemption, n => n - 1
  | _, n => n

/-- The count, whatever the answers are; preemption is enabled where it is disabled. -/
def counting : Monitor Op Op.Answer ℕ where
  ok n e := e = .enablePreemption → 0 < n
  may _ _ _ := True
  next n e _ := countAfter e n
  halts _ := True

/-- The discipline counts from where it starts. -/
theorem counting_of_discipline {P : Op → Prop} {prog : Handler α} {p : Phase} {n : ℕ}
    {post : α → Phase → Prop} (obeys : Obeys (discipline P True) prog p post) :
    Obeys counting prog (p.count + n) fun a m => ∃ q, post a q ∧ m = q.count + n := by
  have follows : ∀ p m e, m = p.count + n → (discipline P True).ok p e → counting.ok m e ∧
      ∀ r, counting.may m e r → (discipline P True).may p e r ∧
        counting.next m e r = ((discipline P True).next p e r).count + n := by
    rintro p _ e rfl allowed
    cases e
    case enablePreemption =>
      have disabled : 0 < p.count := allowed.2
      refine ⟨fun _ => Nat.add_pos_left disabled n, fun _ _ => ⟨trivial, ?_⟩⟩
      exact Nat.sub_add_comm disabled
    case disablePreemption => exact ⟨nofun, fun _ _ => ⟨trivial, Nat.add_right_comm ..⟩⟩
    case vmread field => exact ⟨nofun, fun _ _ => ⟨trivial, by cases field <;> rfl⟩⟩
    all_goals exact ⟨nofun, fun _ _ => ⟨trivial, rfl⟩⟩
  refine (obeys.sim follows (fun _ _ _ _ => trivial) rfl).mono fun a m reached => ?_
  obtain ⟨q, isM, holds⟩ := reached
  exact ⟨q, holds, isM⟩

/-- The handler of any exit brings the count back to where it was. -/
theorem throughHandler_counts (site : Site) (vregs : Vregs) (reason : BitVec 32) (func : VexitFunc)
    (n : ℕ) : Obeys counting (throughHandler site vregs reason func) n fun _ m => m = n := by
  have obeys : Obeys (discipline offEntry True) (throughHandler site vregs reason func) Phase.exit
      fun _ q => q.count = 0 := by
    refine (vexitBegin_obeys site reason rfl rfl).bind fun _ p begun => ?_
    refine (keeps_vmread32 trivial p begun.1).bind fun val q same => ?_
    exact (body_obeys func q (same.held.trans begun.1) (same.count.trans begun.2)).bind
      fun _ r enabled => enabled
  have counts := counting_of_discipline (n := n) obeys
  rw [show Phase.exit.count + n = n from Nat.zero_add n] at counts
  refine counts.mono fun _ m reached => ?_
  obtain ⟨q, enabled, isM⟩ := reached
  rw [isM, enabled, Nat.zero_add]

/-! ## The CPU -/

/-- A vcpu on its CPU: what is left of its exit up to the handler's return, its preemption count and
what that was before the exit, and whether it spins in `vipi_drain_no_yield`. -/
structure Thread where
  prog : Option (Handler (BitVec 32))
  count : ℕ
  before : ℕ
  draining : Bool
  yieldRequest : Bool

/-- A CPU with its vcpus; without a current one the idle vcpu runs. -/
structure Cpu (V : Type) where
  thread : V → Thread
  current : Option V

/-- What can happen next.  The answer to an operation comes from outside; `heir` is who gets the CPU
if it changes hands. -/
inductive Act (V : Type) where
  | exit (site : Site) (vregs : Vregs) (reason : BitVec 32)
  | perform (oracle : (e : Op) → e.Answer) (heir : Option (Option V))
  | drain
  | drained
  | preempt (heir : Option V)
  | request
  | enter
  | recover (heir : Option V)
  | wake (heir : V)

/-- `UINT32_MAX`. -/
def uint32Max : ℕ := 2 ^ 32 - 1

/-- The calls that drain vipis. -/
def drains : Op → Bool
  | .call .vipiDrainNoYield | .call (.vexitExtDispatcher _) => true
  | _ => false

/-- `vcurrent_vcpu_disable_preemption` asserts that the count has room. -/
def roomFor : Op → ℕ → Bool
  | .disablePreemption, n => n < uint32Max
  | _, _ => true

/-- The CPU may change hands with this operation, after which the count is `n`. -/
def Thread.yields (t : Thread) (n : ℕ) : Op → Bool
  | .enablePreemption => n == 0 && t.yieldRequest
  | .vschedYield | .vschedPause _ => true
  | _ => false

variable {V : Type}

/-- Who gets the CPU, if it changes hands. -/
def Act.heir : Act V → Option (Option V)
  | .perform _ heir => heir
  | .preempt heir | .recover heir => some heir
  | _ => none

/-- What happens to the current vcpu.  A vcpu goes back to its guest through the assertion that
preemption is enabled. -/
def Thread.step (t : Thread) : Act V → Option Thread
  | .exit site vregs reason =>
      match t.prog, vexitFuncOf reason with
      | none, some func => some { t with
          prog := some (throughHandler site vregs reason func), before := t.count }
      | _, _ => none
  | .perform oracle heir =>
      match t.prog with
      | some (.op e next) =>
          if !t.draining && roomFor e t.count &&
              (heir.isNone || t.yields (countAfter e t.count) e) then
            some { t with
              prog := some (next (oracle e))
              count := countAfter e t.count
              yieldRequest := t.yieldRequest && heir.isNone }
          else none
      | _ => none
  | .drain =>
      match t.prog with
      | some (.op e _) =>
          if drains e && !t.draining && decide (t.count < uint32Max) then
            some { t with count := t.count + 1, draining := true }
          else none
      | _ => none
  | .drained => if t.draining then some { t with count := t.count - 1, draining := false } else none
  | .preempt _ => if t.count = 0 then some { t with yieldRequest := false } else none
  | .request => if 0 < t.count then some { t with yieldRequest := true } else none
  | .enter =>
      match t.prog with
      | some (.ret _) => if t.count = 0 then some { t with prog := none } else none
      | _ => none
  | .recover _ =>
      match t.prog with
      | some .halt => some t
      | _ => none
  | .wake _ => none

/-- A step of the current vcpu; an idle CPU takes a vcpu. -/
def step [DecidableEq V] (s : Cpu V) (a : Act V) : Option (Cpu V) :=
  match s.current with
  | some v => ((s.thread v).step a).map fun t =>
      { thread := Function.update s.thread v t, current := a.heir.getD (some v) }
  | none =>
      match a with
      | .wake heir => some { s with current := some heir }
      | _ => none

/-! ## The invariant -/

/-- The count without what `vipi_drain_no_yield` adds. -/
def Thread.own (t : Thread) : ℕ := if t.draining then t.count - 1 else t.count

/-- What is left of an exit brings the count back to what it was.  A vcpu is `calm` if its count was
0 to begin with. -/
structure Thread.Balanced (calm : Prop) (t : Thread) : Prop where
  counts : ∀ prog, t.prog = some prog → Obeys counting prog t.own fun _ n => n = t.before
  spins : t.draining = true → 0 < t.count ∧ ∃ e next, t.prog = some (.op e next)
  guest : calm → t.prog = none → t.count = 0
  calm : calm → t.prog ≠ none → t.before = 0

variable {calm : Prop} {t t' : Thread}

theorem Thread.own_of_still (still : t.draining = false) : t.own = t.count :=
  if_neg (by rw [still]; exact Bool.false_ne_true)

/-- Without a call under way nothing is drained. -/
theorem Thread.Balanced.still (balanced : t.Balanced calm) (none : ∀ e next, t.prog ≠ some (.op e next)) :
    t.draining = false := by
  cases draining : t.draining with
  | false => rfl
  | true =>
      obtain ⟨_, e, next, prog⟩ := balanced.spins draining
      exact absurd prog (none e next)

/-- A handler that has returned has left the count as it was. -/
theorem Thread.Balanced.returned (balanced : t.Balanced calm) {val : BitVec 32}
    (prog : t.prog = some (.ret val)) : t.count = t.before := by
  have still := balanced.still fun e next => by rw [prog]; nofun
  have counts := balanced.counts _ prog
  rw [Thread.own_of_still still] at counts
  exact counts

theorem Thread.Balanced.exit (balanced : t.Balanced calm) (guest : t.prog = none) (site : Site)
    (vregs : Vregs) (reason : BitVec 32) (func : VexitFunc) : Thread.Balanced calm { t with
      prog := some (throughHandler site vregs reason func), before := t.count } := by
  have still := balanced.still fun e next => by rw [guest]; nofun
  refine ⟨fun prog left => ?_, fun draining => ?_, fun _ => nofun, fun isCalm _ => ?_⟩
  · obtain rfl := Option.some.inj left
    simpa only [Thread.own, still, Bool.false_eq_true, if_false] using
      throughHandler_counts site vregs reason func t.count
  · exact absurd draining (by rw [still]; exact Bool.false_ne_true)
  · exact balanced.guest isCalm guest

theorem Thread.Balanced.perform (balanced : t.Balanced calm) {e : Op}
    {next : e.Answer → Handler (BitVec 32)} (prog : t.prog = some (.op e next))
    (still : t.draining = false) (r : e.Answer) (request : Bool) : Thread.Balanced calm { t with
      prog := some (next r), count := countAfter e t.count, yieldRequest := request } := by
  have counts := balanced.counts _ prog
  rw [Thread.own_of_still still] at counts
  refine ⟨fun rest left => ?_, fun draining => ?_, fun _ => nofun, fun isCalm _ => ?_⟩
  · obtain rfl := Option.some.inj left
    have after : Obeys counting (next r) (countAfter e t.count) fun _ n => n = t.before :=
      counts.2 r trivial
    simpa only [Thread.own, still, Bool.false_eq_true, if_false] using after
  · exact absurd draining (by rw [still]; exact Bool.false_ne_true)
  · exact balanced.calm isCalm (by rw [prog]; nofun)

/-- `vipi_drain_no_yield` disables preemption while it spins. -/
theorem Thread.Balanced.drain (balanced : t.Balanced calm) {e : Op}
    {next : e.Answer → Handler (BitVec 32)} (prog : t.prog = some (.op e next))
    (still : t.draining = false) :
    Thread.Balanced calm { t with count := t.count + 1, draining := true } := by
  refine ⟨fun rest left => ?_, fun _ => ⟨Nat.succ_pos _, e, next, prog⟩, fun _ none => ?_,
    fun isCalm _ => balanced.calm isCalm (by rw [prog]; nofun)⟩
  · have counts := balanced.counts rest left
    rw [Thread.own_of_still still] at counts
    exact counts
  · rw [prog] at none
    cases none

theorem Thread.Balanced.drained (balanced : t.Balanced calm) (draining : t.draining = true) :
    Thread.Balanced calm { t with count := t.count - 1, draining := false } := by
  obtain ⟨_, e, next, prog⟩ := balanced.spins draining
  refine ⟨fun rest left => ?_, nofun, fun _ none => ?_,
    fun isCalm _ => balanced.calm isCalm (by rw [prog]; nofun)⟩
  · have counts := balanced.counts rest left
    rw [Thread.own, if_pos draining] at counts
    exact counts
  · rw [prog] at none
    cases none

theorem Thread.Balanced.enter (balanced : t.Balanced calm) {val : BitVec 32}
    (prog : t.prog = some (.ret val)) (enabled : t.count = 0) :
    Thread.Balanced calm { t with prog := none } := by
  have still := balanced.still fun e next => by rw [prog]; nofun
  refine ⟨nofun, fun draining => ?_, fun _ _ => enabled, fun _ inside => absurd rfl inside⟩
  exact absurd draining (by rw [still]; exact Bool.false_ne_true)

/-- A yield request is no concern of the count. -/
theorem Thread.Balanced.request (balanced : t.Balanced calm) (request : Bool) :
    Thread.Balanced calm { t with yieldRequest := request } :=
  ⟨balanced.counts, balanced.spins, balanced.guest, balanced.calm⟩

theorem Thread.Balanced.step (balanced : t.Balanced calm) {a : Act V}
    (moved : t.step a = some t') : t'.Balanced calm := by
  cases a with
  | exit site vregs reason =>
      simp only [Thread.step] at moved
      split at moved
      · rename_i func guest _
        obtain rfl := Option.some.inj moved
        exact balanced.exit guest site vregs reason func
      · cases moved
  | perform oracle heir =>
      simp only [Thread.step] at moved
      split at moved
      · rename_i e next prog
        split_ifs at moved with allowed
        obtain rfl := Option.some.inj moved
        simp only [Bool.and_eq_true, Bool.not_eq_true'] at allowed
        exact balanced.perform prog allowed.1.1 (oracle e) _
      · cases moved
  | drain =>
      simp only [Thread.step] at moved
      split at moved
      · rename_i e next prog
        split_ifs at moved with allowed
        obtain rfl := Option.some.inj moved
        simp only [Bool.and_eq_true, Bool.not_eq_true'] at allowed
        exact balanced.drain prog allowed.1.2
      · cases moved
  | drained =>
      simp only [Thread.step] at moved
      split_ifs at moved with draining
      obtain rfl := Option.some.inj moved
      exact balanced.drained draining
  | preempt heir =>
      simp only [Thread.step] at moved
      split_ifs at moved
      obtain rfl := Option.some.inj moved
      exact balanced.request false
  | request =>
      simp only [Thread.step] at moved
      split_ifs at moved
      obtain rfl := Option.some.inj moved
      exact balanced.request true
  | enter =>
      simp only [Thread.step] at moved
      split at moved
      · rename_i val prog
        split_ifs at moved with enabled
        obtain rfl := Option.some.inj moved
        exact balanced.enter prog enabled
      · cases moved
  | recover heir =>
      simp only [Thread.step] at moved
      split at moved
      · obtain rfl := Option.some.inj moved
        exact balanced
      · cases moved
  | wake heir => cases moved

/-! ## Every run -/

variable [DecidableEq V] {start s s' : Cpu V}

/-- Every vcpu brings its count back; those are calm whose count was 0 at the start. -/
def Inv (start s : Cpu V) : Prop :=
  ∀ v, (s.thread v).Balanced ((start.thread v).count = 0)

theorem Inv.step {a : Act V} (inv : Inv start s) (moved : Balance.step s a = some s') :
    Inv start s' := by
  unfold Balance.step at moved
  split at moved
  · rename_i v _
    obtain ⟨t, stepped, rfl⟩ := Option.map_eq_some_iff.mp moved
    intro u
    dsimp only
    by_cases same : u = v
    · subst same
      rw [Function.update_self]
      exact (inv u).step stepped
    · rw [Function.update_of_ne same]
      exact inv u
  · split at moved
    · obtain rfl := Option.some.inj moved
      exact inv
    · cases moved

/-- No vcpu is in an exit. -/
def InGuests (s : Cpu V) : Prop :=
  ∀ v, (s.thread v).prog = none ∧ (s.thread v).draining = false

omit [DecidableEq V] in
theorem InGuests.inv (guests : InGuests start) : Inv start start := by
  intro v
  obtain ⟨guest, still⟩ := guests v
  refine ⟨fun prog left => ?_, fun draining => ?_, fun calm _ => calm, fun _ inside => absurd guest inside⟩
  · rw [guest] at left
    cases left
  · rw [still] at draining
    cases draining

/-- What `Thread.step` starts at an exit is `vexit_dispatcher` up to the handler's return. -/
theorem vexitDispatcher_eq (site : Site) (vregs : Vregs) : vexitDispatcher site vregs = (do
    let reason ← vmread32 .roExitReason
    match vexitFuncOf reason with
    | none => vfailureRecover
    | some func => do
        let val ← throughHandler site vregs reason func
        afterHandler val) := by
  unfold vexitDispatcher
  refine congrArg _ (funext fun reason => ?_)
  cases vexitFuncOf reason with
  | none => rfl
  | some func => simp only [vexitHandle, throughHandler, afterHandler, bind_bind, ret_bind, pure_eq]

/-- **The preemption count is balanced** -- in every run of a CPU with any vcpus, from any counts, for
every exit that has a handler, with any answers: where the handler has returned, the count of the vcpu
is what it was before the exit, and 0 if it was 0 at the start; and where preemption is enabled or a
drain ends, the count is not 0. -/
theorem preemption_balanced (start s : Cpu V) (run : List (Act V)) (guests : InGuests start)
    (ran : exec step start run = some s) (v : V) :
    (∀ val, (s.thread v).prog = some (.ret val) → (s.thread v).count = (s.thread v).before ∧
      ((start.thread v).count = 0 → (s.thread v).count = 0)) ∧
    (∀ next, (s.thread v).prog = some (.op .enablePreemption next) → 0 < (s.thread v).count) ∧
    ((s.thread v).draining = true → 0 < (s.thread v).count) := by
  have inv : Inv start s := exec_invariant (fun _ _ _ inv moved => inv.step moved) guests.inv ran
  have balanced := inv v
  refine ⟨fun val prog => ?_, fun next prog => ?_, fun draining => (balanced.spins draining).1⟩
  · have returned := balanced.returned prog
    exact ⟨returned, fun calm => returned.trans (balanced.calm calm (by rw [prog]; nofun))⟩
  · have disabled : 0 < (s.thread v).own := (balanced.counts _ prog).1 rfl
    unfold Thread.own at disabled
    split at disabled
    · exact Nat.lt_of_lt_of_le disabled (Nat.sub_le ..)
    · exact disabled

/-- Two vcpus in their guests, of which `false` runs. -/
def bothInGuests : Cpu Bool where
  thread := fun _ => ⟨none, 0, 0, false, false⟩
  current := some false

/-- Vipis are drained at every exit. -/
def strictSite : Site := { sampleSite with vipiDrainStrict := true }

/-- What the exit answers for an interrupt window. -/
def windowOracle (e : Op) : e.Answer :=
  (answer (sampleExit (sampleVmcs 7 0xa09b 0) fun _ => 0).world e
    (sampleExit (sampleVmcs 7 0xa09b 0) fun _ => 0).ctx).1

/-- `false` exits, drains vipis, is asked to yield and does so as soon as preemption is enabled; `true`
goes through an exit of its own, and is preempted. -/
def exitPreempted : List (Act Bool) :=
  .exit strictSite ⟨fun _ => 0⟩ 7 ::
    List.replicate 3 (.perform windowOracle none) ++ [.drain, .drained, .request] ++
    List.replicate 4 (.perform windowOracle none) ++
    [.perform windowOracle (some (some true)), .exit strictSite ⟨fun _ => 0⟩ 7] ++
    List.replicate 8 (.perform windowOracle none) ++ [.preempt (some false)]

/-- Both handlers have returned, with the counts from before the exits. -/
theorem preemption_balanced_preempted : ∃ s, InGuests bothInGuests ∧
    exec step bothInGuests exitPreempted = some s ∧
    ∀ v, (s.thread v).prog = some (.ret 0#32) ∧ (s.thread v).count = (s.thread v).before := by
  have guests : InGuests bothInGuests := fun _ => ⟨rfl, rfl⟩
  have ends : (exec step bothInGuests exitPreempted).isSome = true := rfl
  have ran : exec step bothInGuests exitPreempted =
    some ((exec step bothInGuests exitPreempted).get ends) := (Option.some_get ends).symm
  have returned : ∀ v, (((exec step bothInGuests exitPreempted).get ends).thread v).prog =
      some (.ret 0#32) := by
    intro v
    cases v <;> rfl
  refine ⟨_, guests, ran, fun v => ⟨returned v, ?_⟩⟩
  exact ((preemption_balanced bothInGuests _ exitPreempted guests ran v).1 0#32 (returned v)).1

end Twan.Vportal.Balance
