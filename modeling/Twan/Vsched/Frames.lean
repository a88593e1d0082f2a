/-
# Twan.Vsched.Frames -- the mixed-criticality frame scheduler

`src/subsys/twanvisor/vsched/vsched_dsa.c` in the build with `CONFIG_TWANVISOR_VSCHED_MCFS`, the
scheduler functions of `vsched.c` over it, and `vemu_vframe_set` and `vemu_vframe_unset`.  A
scheduler has `N` frames and a clock; `__vsched_pop` looks at all frames from the clock on, and
leaves the clock behind the frame that it took.

`__vsched_is_current_preemptible` looks at all frames but the last of these, which is the frame that
the current vcpu was popped from.  That frame can be unset, and set again to another vcpu, while the
current one runs; before the first pop it was nobody's.  `preemptible_exact` is that the answer is
right as long as this frame is given to no other vcpu.

Poles: `preemptible_after_pop` and `hidden_ready_vcpu`.
-/
import Twan.Vsched.RunQueue
import Mathlib.Data.Int.ModEq

namespace Twan.Vsched.Frames

set_option autoImplicit false
set_option linter.unusedSectionVars false

open Twan.Base Twan.Vsched

/-- The scheduler of one CPU with its vcpus. -/
structure Sys (N : ℕ) (V : Type) where
  vcpu : V → RunQueue.VschedMetadata
  pvSpin : V → PvSpinState
  frames : Fin N → Option V
  clock : ℕ
  level : ℕ
  kick : Bool
  current : V

section Model

variable {N : ℕ} [NeZero N] {V : Type} [DecidableEq V] (idle : V) (s : Sys N V)

namespace Sys

def setState (v : V) (state : VcpuState) : Sys N V :=
  { s with vcpu := Function.update s.vcpu v { s.vcpu v with state := state } }

def setPvSpin (v : V) (spin : PvSpinState) : Sys N V :=
  { s with pvSpin := Function.update s.pvSpin v spin }

/-- `cur_idx` of both scans. -/
def curIdx (i : ℕ) : Fin N := Fin.ofNat N (s.clock + i)

/-- `__vsched_is_current_preemptible(current)`. -/
def isCurrentPreemptible : Bool :=
  (List.range (N - 1)).any fun i =>
    match s.frames (s.curIdx i) with
    | none => false
    | some v =>
        decide ((s.vcpu v).state = .ready) &&
          (decide ((s.vcpu s.current).criticality < s.level) ||
            decide (s.level ≤ (s.vcpu v).criticality))

/-- The loop of `__vsched_pop`, over what is left of its iterations, with `first_idx` and
`first_vcpu`. -/
def popScan : List ℕ → Option (Fin N × V) → Option (Fin N × V)
  | [], first => first
  | i :: rest, first =>
      match s.frames (s.curIdx i) with
      | none => popScan rest first
      | some v =>
          if (s.vcpu v).state = .ready then
            if s.level ≤ (s.vcpu v).criticality then some (s.curIdx i, v)
            else popScan rest (first.or (some (s.curIdx i, v)))
          else popScan rest first

/-- `__vsched_pop()`. -/
def pop : Option V × Sys N V :=
  match s.popScan (List.range N) none with
  | none => (none, s)
  | some (idx, v) => (some v, { s with clock := idx + 1 })

/-- `__vsched_dequeue(vcpu)`. -/
def dequeue (v : V) : Sys N V :=
  { s with frames := fun f => if s.frames f = some v then none else s.frames f }

/-- `__vsched_unpause(vcpu)`. -/
def unpause (v : V) : Sys N V := { s.setState v .ready with kick := true }

/-- `__vemu_pv_spin_kick(vcpu)`. -/
def vemuPvSpinKick (v : V) : Sys N V :=
  if s.pvSpin v = .paused then (s.unpause v).setPvSpin v .none else s.setPvSpin v .kicked

/-- `vsched_put_paused(current, pv_spin, ..)` of a vcpu that is not to be terminated. -/
def putPaused (pvSpin : Bool) : Sys N V :=
  if pvSpin then
    match s.pvSpin s.current with
    | .none => (s.setState s.current .pvSpinning).setPvSpin s.current .paused
    | .kicked => s.setPvSpin s.current .none
    | .paused => s
  else s.setState s.current .paused

/-- `__vsched_update_criticality(vcpu, criticality)`. -/
def updateCriticality (v : V) (criticality : ℕ) : Sys N V :=
  { s with vcpu := Function.update s.vcpu v { s.vcpu v with criticality := criticality } }

/-- `vsched_enter_ctx(vcpu, ctx)`. -/
def enterCtx (v : V) : Sys N V := { s.setState v .transitioning with current := v }

/-- `__vsched_get(ctx)`. -/
def get : Option V × Sys N V :=
  match s.pop with
  | (none, s) => (none, s)
  | (some v, s) => (some v, s.enterCtx v)

/-- `vsched_get_or_idle(ctx)`. -/
def getOrIdle : Sys N V :=
  match s.get with
  | (some _, s) => s
  | (none, s) => { s.enterCtx idle with kick := false }

/-- `vthis_vsched_reschedule(current, ctx)`, of a vcpu that is not to be terminated. -/
def reschedule : Sys N V :=
  if s.isCurrentPreemptible then (s.setState s.current .ready).get.2 else s

/-- `vemu_vframe_set(vid, processor_id, frame_id)`, of a vcpu that exists. -/
def vframeSet (v : V) (frameId : ℕ) : Sys N V :=
  if inside : frameId < N then
    if (s.vcpu v).state ≠ .terminated ∧ s.frames ⟨frameId, inside⟩ = none then
      { s with
        frames := Function.update s.frames ⟨frameId, inside⟩ (some v)
        kick := s.kick || decide ((s.vcpu v).state = .ready) }
    else s
  else s

/-- `vemu_vframe_unset(physical_processor_id, frame_id)`. -/
def vframeUnset (frameId : ℕ) : Sys N V :=
  if inside : frameId < N then
    { s with frames := Function.update s.frames ⟨frameId, inside⟩ none }
  else s

/-- The CPU executes the current vcpu. -/
def Runs : Prop :=
  (s.vcpu s.current).state = .running ∨ (s.vcpu s.current).state = .transitioning

instance : Decidable s.Runs := by
  unfold Runs
  infer_instance

end Sys

/-- What happens under the lock of the scheduler.  A vcpu that pauses or is terminated is left by
`getOrIdle`, which is a section of its own; `putTerminated` is a new vcpu that is put when it is to
be terminated. -/
inductive Action (V : Type) where
  | put (v : V)
  | putPaused (v : V)
  | putTerminated (v : V)
  | enter
  | exit
  | reschedule
  | pause (pvSpin : Bool)
  | recover
  | getOrIdle
  | unpause (v : V)
  | kick (v : V)
  | teardown (v : V)
  | vframeSet (v : V) (frameId : ℕ)
  | vframeUnset (frameId : ℕ)
  | updateCriticality (v : V) (criticality : ℕ)
  | writeLevel (level : ℕ)

def step : Action V → Option (Sys N V)
  | .put v => if (s.vcpu v).state = .initializing then some (s.setState v .ready) else none
  | .putPaused v => if (s.vcpu v).state = .initializing then some (s.setState v .paused) else none
  | .putTerminated v =>
      if (s.vcpu v).state = .initializing then some (s.setState v .terminated) else none
  | .enter => if s.Runs then some (s.setState s.current .running) else none
  | .exit => if s.Runs then some (s.setState s.current .transitioning) else none
  | .reschedule => if s.Runs then some s.reschedule else none
  | .pause pvSpin => if s.Runs ∧ s.current ≠ idle then some (s.putPaused pvSpin) else none
  | .recover =>
      if s.Runs ∧ s.current ≠ idle then some (s.setState s.current .terminated) else none
  | .getOrIdle => if s.Runs ∧ s.current ≠ idle then none else some (s.getOrIdle idle)
  | .unpause v => if (s.vcpu v).state = .paused then some (s.unpause v) else none
  | .kick v => some (s.vemuPvSpinKick v)
  | .teardown v =>
      if (s.vcpu v).state.isQueued then some ((s.dequeue v).setState v .terminated) else none
  | .vframeSet v frameId => if v = idle then none else some (s.vframeSet v frameId)
  | .vframeUnset frameId => some (s.vframeUnset frameId)
  | .updateCriticality v criticality => some (s.updateCriticality v criticality)
  | .writeLevel level => some { s with level := level }

/-- No frame is set and nothing was popped yet. -/
structure Initial : Prop where
  frames : ∀ f, s.frames f = none
  clock : s.clock = 0

/-- A ready vcpu that the current one gives way to. -/
def MayDisplace (v : V) : Prop :=
  (s.vcpu v).state = .ready ∧ v ≠ s.current ∧
    ((s.vcpu s.current).criticality < s.level ∨ s.level ≤ (s.vcpu v).criticality)

/-- The answer is the right one, if a vcpu runs. -/
def Exact : Prop :=
  s.Runs → s.current ≠ idle →
    (s.isCurrentPreemptible = true ↔ ∃ f v, s.frames f = some v ∧ MayDisplace s v)

/-- The frame that the scan leaves out. -/
def lastFrame : Fin N := s.curIdx (N - 1)

/-- While a vcpu runs, the frame that the scan leaves out is given to no other vcpu. -/
def KeepsLastFrame : Action V → Prop
  | .vframeSet v frameId =>
      frameId = (lastFrame s).val → s.frames (lastFrame s) = none → v = s.current ∨ s.current = idle
  | _ => True

instance : DecidablePred (KeepsLastFrame idle s) := by
  intro a
  cases a <;> unfold KeepsLastFrame <;> infer_instance

end Model

/-! ## The scans -/

section Proofs

variable {N : ℕ} [NeZero N] {V : Type} [DecidableEq V] {idle : V} {s t : Sys N V}

theorem curIdx_surjective (f : Fin N) : ∃ i < N, s.curIdx i = f := by
  have pos : 0 < N := Nat.pos_of_ne_zero (NeZero.ne N)
  have small : s.clock % N < N := Nat.mod_lt _ pos
  refine ⟨(f.val + (N - s.clock % N)) % N, Nat.mod_lt _ pos, Fin.ext ?_⟩
  calc (s.clock + (f.val + (N - s.clock % N)) % N) % N
      = (s.clock % N + (f.val + (N - s.clock % N))) % N := by
        rw [Nat.add_mod_mod, Nat.mod_add_mod]
    _ = (f.val + N) % N := by
        congr 1
        omega
    _ = f.val := by rw [Nat.add_mod_right, Nat.mod_eq_of_lt f.isLt]

/-- Every frame but the last is scanned. -/
theorem curIdx_iff (f : Fin N) : (∃ i < N - 1, s.curIdx i = f) ↔ f ≠ lastFrame s := by
  have pos : 0 < N := Nat.pos_of_ne_zero (NeZero.ne N)
  constructor
  · intro found same
    obtain ⟨i, small, here⟩ := found
    have equal : (s.clock + i) % N = (s.clock + (N - 1)) % N :=
      congrArg Fin.val (here.trans same)
    have congruent : i % N = (N - 1) % N := Nat.ModEq.add_left_cancel' s.clock equal
    rw [Nat.mod_eq_of_lt (by omega), Nat.mod_eq_of_lt (by omega)] at congruent
    omega
  · intro other
    obtain ⟨i, small, here⟩ := curIdx_surjective (s := s) f
    have apart : i ≠ N - 1 := by
      intro same
      exact other (here.symm.trans (congrArg s.curIdx same))
    exact ⟨i, by omega, here⟩

/-- What the answer is: the last frame does not count. -/
theorem isCurrentPreemptible_iff : s.isCurrentPreemptible = true ↔
    ∃ f ≠ lastFrame s, ∃ v, s.frames f = some v ∧ (s.vcpu v).state = .ready ∧
      ((s.vcpu s.current).criticality < s.level ∨ s.level ≤ (s.vcpu v).criticality) := by
  unfold Sys.isCurrentPreemptible
  rw [List.any_eq_true]
  constructor
  · intro found
    obtain ⟨i, mem, holds⟩ := found
    have scanned : s.curIdx i ≠ lastFrame s := (curIdx_iff _).mp ⟨i, List.mem_range.mp mem, rfl⟩
    cases frame : s.frames (s.curIdx i) with
    | none => simp [frame] at holds
    | some v =>
        refine ⟨s.curIdx i, scanned, v, frame, ?_⟩
        simpa [frame] using holds
  · intro found
    obtain ⟨f, scanned, v, frame, displaces⟩ := found
    obtain ⟨i, small, rfl⟩ := (curIdx_iff f).mpr scanned
    refine ⟨i, List.mem_range.mpr small, ?_⟩
    simpa [frame] using displaces

/-- What the scan finds is ready, in its frame. -/
theorem popScan_some {l : List ℕ} {first : Option (Fin N × V)} {idx : Fin N} {v : V}
    (found : s.popScan l first = some (idx, v)) :
    first = some (idx, v) ∨ s.frames idx = some v ∧ (s.vcpu v).state = .ready := by
  induction l generalizing first with
  | nil => exact .inl found
  | cons i l ih =>
      rw [Sys.popScan] at found
      cases frame : s.frames (s.curIdx i) with
      | none =>
          simp only [frame] at found
          exact ih found
      | some w =>
          simp only [frame] at found
          split_ifs at found with ready high
          · cases found
            exact .inr ⟨frame, ready⟩
          · cases first with
            | none =>
                obtain here | later := ih found
                · cases here
                  exact .inr ⟨frame, ready⟩
                · exact .inr later
            | some pair => exact ih found
          · exact ih found

theorem pop_ready {v : V} (found : s.pop.1 = some v) : (s.vcpu v).state = .ready := by
  unfold Sys.pop at found
  cases scanned : s.popScan (List.range N) none with
  | none => simp [scanned] at found
  | some pair =>
      obtain ⟨idx, w⟩ := pair
      simp only [scanned] at found
      cases found
      exact ((popScan_some scanned).resolve_left nofun).2

/-- `__vsched_pop` leaves the clock behind the frame of the vcpu. -/
theorem pop_some {v : V} (found : s.pop.1 = some v) :
    s.pop.2.frames (lastFrame s.pop.2) = some v := by
  unfold Sys.pop at found ⊢
  cases scanned : s.popScan (List.range N) none with
  | none => simp [scanned] at found
  | some pair =>
      obtain ⟨idx, w⟩ := pair
      simp only [scanned] at found ⊢
      cases found
      have pos : 0 < N := Nat.pos_of_ne_zero (NeZero.ne N)
      have back : lastFrame { s with clock := idx.val + 1 } = idx := by
        apply Fin.ext
        show (idx.val + 1 + (N - 1)) % N = idx.val
        rw [show idx.val + 1 + (N - 1) = idx.val + N by omega, Nat.add_mod_right,
          Nat.mod_eq_of_lt idx.isLt]
      rw [back]
      exact ((popScan_some scanned).resolve_left nofun).1

theorem pop_none (missing : s.pop.1 = none) : s.pop.2 = s := by
  unfold Sys.pop at missing ⊢
  cases scanned : s.popScan (List.range N) none with
  | none => rfl
  | some pair => simp [scanned] at missing

/-! ## The last frame -/

/-- While a vcpu runs, the frame that the scan leaves out is its own or nobody's. -/
def OwnLastFrame (idle : V) (s : Sys N V) : Prop :=
  s.current ≠ idle → ∀ v, s.frames (lastFrame s) = some v → v = s.current

theorem OwnLastFrame.exact (own : OwnLastFrame idle s) : Exact idle s := by
  intro runs busy
  rw [isCurrentPreemptible_iff]
  constructor
  · intro found
    obtain ⟨f, -, v, frame, ready, displaces⟩ := found
    refine ⟨f, v, frame, ready, fun same => ?_, displaces⟩
    subst same
    obtain running | transitioning := runs
    · rw [ready] at running
      cases running
    · rw [ready] at transitioning
      cases transitioning
  · intro found
    obtain ⟨f, v, frame, ready, other, displaces⟩ := found
    refine ⟨f, fun last => other (own busy v ?_), v, frame, ready, displaces⟩
    rw [← last]
    exact frame

theorem OwnLastFrame.get (own : OwnLastFrame idle s) : OwnLastFrame idle s.get.2 := by
  unfold Sys.get
  cases popped : s.pop with
  | mk answer u =>
      cases answer with
      | none =>
          have same : u = s := by
            have kept := pop_none (s := s) (by rw [popped])
            rwa [popped] at kept
          rw [same]
          exact own
      | some v =>
          intro busy w frame
          have here : u.frames (lastFrame u) = some v := by
            have found := pop_some (s := s) (v := v) (by rw [popped])
            rwa [popped] at found
          change u.frames (lastFrame u) = some w at frame
          rw [here] at frame
          cases frame
          rfl

/-- A step keeps the last frame to the current vcpu. -/
theorem step_ownLastFrame (s : Sys N V) (a : Action V) (t : Sys N V) (own : OwnLastFrame idle s)
    (kept : KeepsLastFrame idle s a) (moved : step idle s a = some t) : OwnLastFrame idle t := by
  cases a with
  | put _ | putPaused _ | putTerminated _ | enter | exit | recover | unpause _ =>
      obtain ⟨-, ⟨⟩⟩ := Option.ite_none_right_eq_some.mp moved
      exact own
  | pause pvSpin =>
      obtain ⟨-, ⟨⟩⟩ := Option.ite_none_right_eq_some.mp moved
      unfold Sys.putPaused
      split
      · split <;> exact own
      · exact own
  | kick v =>
      cases moved
      unfold Sys.vemuPvSpinKick
      split <;> exact own
  | updateCriticality _ _ | writeLevel _ =>
      cases moved
      exact own
  | reschedule =>
      obtain ⟨-, ⟨⟩⟩ := Option.ite_none_right_eq_some.mp moved
      unfold Sys.reschedule
      split
      · exact OwnLastFrame.get (s := s.setState s.current .ready) own
      · exact own
  | getOrIdle =>
      obtain ⟨-, ⟨⟩⟩ := Option.ite_none_left_eq_some.mp moved
      unfold Sys.getOrIdle
      have next := own.get
      cases got : s.get with
      | mk answer u =>
          rw [got] at next
          cases answer with
          | none => exact fun busy => absurd rfl busy
          | some v => exact next
  | teardown v =>
      obtain ⟨-, ⟨⟩⟩ := Option.ite_none_right_eq_some.mp moved
      intro busy w frame
      change (if s.frames (lastFrame s) = some v then none else s.frames (lastFrame s)) = some w at frame
      split_ifs at frame
      exact own busy w frame
  | vframeUnset frameId =>
      cases moved
      unfold Sys.vframeUnset
      split
      · rename_i inside
        intro busy w frame
        change Function.update s.frames ⟨frameId, inside⟩ none (lastFrame s) = some w at frame
        by_cases here : lastFrame s = ⟨frameId, inside⟩
        · rw [here, Function.update_self] at frame
          cases frame
        · rw [Function.update_of_ne here] at frame
          exact own busy w frame
      · exact own
  | vframeSet v frameId =>
      obtain ⟨-, ⟨⟩⟩ := Option.ite_none_left_eq_some.mp moved
      unfold Sys.vframeSet
      split_ifs with inside free
      · intro busy w frame
        change Function.update s.frames ⟨frameId, inside⟩ (some v) (lastFrame s) = some w at frame
        by_cases here : lastFrame s = ⟨frameId, inside⟩
        · rw [here, Function.update_self] at frame
          cases frame
          refine (kept (congrArg Fin.val here).symm ?_).resolve_right busy
          rw [here]
          exact free.2
        · rw [Function.update_of_ne here] at frame
          exact own busy w frame
      · exact own
      · exact own

theorem Initial.ownLastFrame (initial : Initial s) : OwnLastFrame idle s := by
  intro _ v frame
  rw [initial.frames] at frame
  cases frame

/-- **The answer is right while the last frame is kept.**  In every run that gives the frame before
the clock to no vcpu but the current one, a running vcpu is preemptible exactly when a frame holds a
ready vcpu that may displace it. -/
theorem preemptible_exact {run : List (Action V)} (initial : Initial s)
    (kept : Along (KeepsLastFrame idle) (step idle) s run) (ran : exec (step idle) s run = some t) :
    Exact idle t :=
  (exec_invariant_along step_ownLastFrame initial.ownLastFrame kept ran).exact

end Proofs

/-! ## Two frames -/

/-- The root vcpu 0 runs, nothing is set yet; 1 is new, and 2 is idle. -/
def boot (N : ℕ) [NeZero N] : Sys N (Fin 3) :=
  ⟨fun v => ⟨if v = 0 then .running else .initializing, 0⟩, fun _ => .none, fun _ => none, 0, 0,
    false, 0⟩

theorem boot_initial (N : ℕ) [NeZero N] : Initial (boot N) := ⟨fun _ => rfl, rfl⟩

/-- Vcpu 1 is popped from frame 0, and then gives way to the root in frame 1. -/
theorem preemptible_after_pop : ∃ t, exec (step 2) (boot 2)
    [.put 1, .vframeSet 1 0, .reschedule, .vframeSet 0 1] = some t ∧ Exact 2 t ∧ t.current = 1 ∧
      t.isCurrentPreemptible = true :=
  ⟨_, rfl, preemptible_exact (boot_initial 2)
    (show Along (KeepsLastFrame 2) (step 2) (boot 2)
      [.put 1, .vframeSet 1 0, .reschedule, .vframeSet 0 1] by decide) rfl, rfl, by decide⟩

/-- Vcpu 1 is ready in frame 1 and not seen, where frame 1 is the one before the clock. -/
theorem hidden_ready_vcpu : ¬ ∀ t, exec (step 2) (boot 2) [.put 1, .vframeSet 1 1] = some t →
    Exact 2 t := by
  intro sound
  have answer := sound _ rfl (by decide) (by decide)
  have seen := answer.mpr ⟨1, 1, rfl, by decide, by decide, .inr (by decide)⟩
  exact absurd seen (by decide)

end Twan.Vsched.Frames
