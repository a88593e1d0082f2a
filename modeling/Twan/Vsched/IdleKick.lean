/-
# Twan.Vsched.IdleKick -- what wakes an idle CPU

A CPU with nothing to run executes its idle vcpu, `vidle_vcpu_loop` of
`src/subsys/twanvisor/vsched/vsched.c`: it spins until `kick` is set, and only then yields to
`vsched_get_or_idle`, which unsets `kick` when it again finds nothing.  Whoever makes a vcpu ready
has to set `kick`, or the vcpu waits on a CPU that does nothing.

In the build with `CONFIG_TWANVISOR_VSCHED_MCQS` every push sets it, and no ready vcpu is left
behind (`ready_kicks`).  In the build with `CONFIG_TWANVISOR_VSCHED_MCFS` there is no push:
`__vsched_unpause` and `vemu_vframe_set` of a ready vcpu set it, but `vsched_put` does not.
`vpartition_push` makes the partition known before it puts its vcpus, and a frame can be given to a
vcpu that is not put yet.  `framed_kicks_iff` is that this is the only way to be left behind.

Poles: `framed_kicks_late` and `put_without_kick`.
-/
import Twan.Vsched.Frames

namespace Twan.Vsched.IdleKick

set_option autoImplicit false
set_option linter.unusedSectionVars false

open Twan.Base Twan.Vsched

/-! ## Frames -/

section Frames

open Frames

variable {N : ℕ} [NeZero N] {V : Type} [DecidableEq V] {idle : V} {s t : Frames.Sys N V}

/-- A frame of the CPU holds a ready vcpu. -/
def HasReady (s : Frames.Sys N V) : Prop :=
  ∃ f v, s.frames f = some v ∧ (s.vcpu v).state = .ready

/-- An idle CPU with a ready vcpu is kicked, and will take a vcpu when it yields. -/
def Kicked (idle : V) (s : Frames.Sys N V) : Prop :=
  s.current = idle → HasReady s → s.kick = true ∧ (s.getOrIdle idle).current ≠ idle

/-- The CPU spins in `vidle_vcpu_loop`. -/
def Sleeps (idle : V) (s : Frames.Sys N V) : Prop := s.current = idle ∧ s.kick = false

/-- No vcpu that is put has a frame of a sleeping CPU. -/
def PutsAwake (idle : V) (s : Frames.Sys N V) : Frames.Action V → Prop
  | .put v => Sleeps idle s → ∀ f, s.frames f ≠ some v
  | _ => True

instance decidableSleeps : Decidable (Sleeps idle s) := by
  unfold Sleeps
  infer_instance

instance decidablePutsAwake : DecidablePred (PutsAwake idle s)
  | .put v =>
      haveI : Decidable (∀ f, s.frames f ≠ some v) := Nat.decidableForallFin _
      inferInstanceAs (Decidable (Sleeps idle s → ∀ f, s.frames f ≠ some v))
  | .putPaused _ | .putTerminated _ | .enter | .exit | .reschedule | .pause _ | .recover
  | .getOrIdle | .unpause _ | .kick _ | .teardown _ | .vframeSet _ _ | .vframeUnset _
  | .updateCriticality _ _ | .writeLevel _ =>
      .isTrue trivial

/-- What `Kicked` rests on. -/
structure Inv (idle : V) (s : Frames.Sys N V) : Prop where
  kicked : s.current = idle → HasReady s → s.kick = true
  framed : ∀ f, s.frames f ≠ some idle

theorem setState_state (v w : V) (state : VcpuState) :
    ((s.setState v state).vcpu w).state = if w = v then state else (s.vcpu w).state := by
  by_cases same : w = v
  · subst same
    simp [Frames.Sys.setState]
  · simp [Frames.Sys.setState, same]

theorem popScan_none {l : List ℕ} {first : Option (Fin N × V)}
    (missing : s.popScan l first = none) :
    first = none ∧ ∀ i ∈ l, ∀ v, s.frames (s.curIdx i) = some v → (s.vcpu v).state ≠ .ready := by
  induction l generalizing first with
  | nil => exact ⟨missing, fun i inside => absurd inside List.not_mem_nil⟩
  | cons i l ih =>
      rw [Frames.Sys.popScan] at missing
      cases frame : s.frames (s.curIdx i) with
      | none =>
          simp only [frame] at missing
          obtain ⟨fresh, rest⟩ := ih missing
          refine ⟨fresh, fun j inside v here => ?_⟩
          obtain rfl | later := List.mem_cons.mp inside
          · rw [frame] at here
            cases here
          · exact rest j later v here
      | some w =>
          simp only [frame] at missing
          split_ifs at missing with ready high
          · obtain ⟨fresh, -⟩ := ih missing
            cases first <;> cases fresh
          · obtain ⟨fresh, rest⟩ := ih missing
            refine ⟨fresh, fun j inside v here => ?_⟩
            obtain rfl | later := List.mem_cons.mp inside
            · rw [frame] at here
              cases here
              exact ready
            · exact rest j later v here

/-- `__vsched_pop` finds a ready vcpu if a frame holds one. -/
theorem pop_missing (missing : s.pop.1 = none) : ¬ HasReady s := by
  rintro ⟨f, v, frame, ready⟩
  have scanned : s.popScan (List.range N) none = none := by
    unfold Frames.Sys.pop at missing
    cases scanned : s.popScan (List.range N) none with
    | none => rfl
    | some pair => simp [scanned] at missing
  obtain ⟨i, small, rfl⟩ := curIdx_surjective (s := s) f
  exact (popScan_none scanned).2 i (List.mem_range.mpr small) v frame ready

theorem pop_frames : s.pop.2.frames = s.frames := by
  unfold Frames.Sys.pop
  split <;> rfl

/-- What `vsched_get_or_idle` leaves: a vcpu of a frame, or the idle one with nothing ready. -/
theorem getOrIdle_cases (framed : ∀ f, s.frames f ≠ some idle) :
    (s.getOrIdle idle).frames = s.frames ∧
      (HasReady s → (s.getOrIdle idle).current ≠ idle) ∧
      ((s.getOrIdle idle).current = idle → ¬ HasReady (s.getOrIdle idle)) := by
  unfold Frames.Sys.getOrIdle Frames.Sys.get
  have kept := pop_frames (s := s)
  cases popped : s.pop with
  | mk answer u =>
      rw [popped] at kept
      cases answer with
      | none =>
          have missing : ¬ HasReady s := pop_missing (by rw [popped])
          have same : u = s := by
            have unchanged := pop_none (s := s) (by rw [popped])
            rwa [popped] at unchanged
          subst same
          refine ⟨rfl, fun ready => absurd ready missing, fun _ found => ?_⟩
          obtain ⟨f, v, frame, ready⟩ := found
          have other : v ≠ idle := by
            rintro rfl
            exact framed f frame
          have before := setState_state (s := u) idle v .transitioning
          rw [if_neg other] at before
          exact missing ⟨f, v, frame, before ▸ ready⟩
      | some v =>
          have here : u.frames (lastFrame u) = some v := by
            have found := pop_some (s := s) (v := v) (by rw [popped])
            rwa [popped] at found
          have other : v ≠ idle := by
            rintro rfl
            rw [kept] at here
            exact framed _ here
          exact ⟨kept, fun _ => other, fun idles => absurd idles other⟩

theorem Inv.shows (inv : Inv idle s) : Kicked idle s := by
  intro idles ready
  exact ⟨inv.kicked idles ready, (getOrIdle_cases inv.framed).2.1 ready⟩

/-- A vcpu that was not ready, or was in no frame, adds no ready vcpu. -/
theorem HasReady.of_setState {v : V} {state : VcpuState}
    (quiet : state = .ready → ∀ f, s.frames f ≠ some v) (ready : HasReady (s.setState v state)) :
    HasReady s := by
  obtain ⟨f, w, frame, ready⟩ := ready
  rw [setState_state] at ready
  split_ifs at ready with here
  · subst here
    exact absurd frame (quiet ready f)
  · exact ⟨f, w, frame, ready⟩

theorem Inv.setState (inv : Inv idle s) {v : V} {state : VcpuState}
    (quiet : Sleeps idle s → state = .ready → ∀ f, s.frames f ≠ some v) :
    Inv idle (s.setState v state) where
  kicked idles ready := by
    by_contra unset
    have asleep : s.kick = false := Bool.not_eq_true _ ▸ unset
    exact unset (inv.kicked idles (ready.of_setState (quiet ⟨idles, asleep⟩)))
  framed := inv.framed

theorem Inv.setPvSpin (inv : Inv idle s) (v : V) (spin : PvSpinState) :
    Inv idle (s.setPvSpin v spin) := ⟨inv.kicked, inv.framed⟩

/-- A vcpu is never unpaused without a kick. -/
theorem Inv.unpause (inv : Inv idle s) (v : V) : Inv idle (s.unpause v) :=
  ⟨fun _ _ => rfl, inv.framed⟩

theorem Inv.getOrIdle (inv : Inv idle s) : Inv idle (s.getOrIdle idle) := by
  obtain ⟨frames, -, nothing⟩ := getOrIdle_cases inv.framed
  refine ⟨fun idles ready => absurd ready (nothing idles), fun f => ?_⟩
  rw [frames]
  exact inv.framed f

/-- A vcpu that gives way does so to another, and not to the idle one. -/
theorem Inv.reschedule (inv : Inv idle s) : Inv idle s.reschedule := by
  unfold Frames.Sys.reschedule
  split
  · rename_i preemptible
    have ready : HasReady (s.setState s.current .ready) := by
      obtain ⟨f, -, v, frame, ready, -⟩ := isCurrentPreemptible_iff.mp preemptible
      refine ⟨f, v, frame, ?_⟩
      rw [setState_state]
      split_ifs
      · rfl
      · exact ready
    have kept := pop_frames (s := s.setState s.current .ready)
    unfold Frames.Sys.get
    cases popped : (s.setState s.current .ready).pop with
    | mk answer u =>
        rw [popped] at kept
        cases answer with
        | none => exact absurd ready (pop_missing (by rw [popped]))
        | some v =>
            have here : u.frames (lastFrame u) = some v := by
              have found := pop_some (s := s.setState s.current .ready) (v := v) (by rw [popped])
              rwa [popped] at found
            have framed : ∀ f, u.frames f ≠ some idle := by
              intro f
              rw [kept]
              exact inv.framed f
            refine ⟨fun idles => ?_, framed⟩
            have same : v = idle := idles
            subst same
            exact absurd here (framed _)
  · exact inv

theorem Inv.unsets (inv : Inv idle s) {frames : Fin N → Option V}
    (fewer : ∀ f v, frames f = some v → s.frames f = some v) :
    Inv idle { s with frames := frames } where
  kicked idles ready := by
    obtain ⟨f, v, frame, ready⟩ := ready
    exact inv.kicked idles ⟨f, v, fewer f v frame, ready⟩
  framed f frame := inv.framed f (fewer f idle frame)

theorem Inv.vframeSet (inv : Inv idle s) {v : V} (other : v ≠ idle) (frameId : ℕ) :
    Inv idle (s.vframeSet v frameId) := by
  unfold Frames.Sys.vframeSet
  split_ifs with inside free
  · constructor
    · intro idles ready
      obtain ⟨f, w, frame, ready⟩ := ready
      change Function.update s.frames ⟨frameId, inside⟩ (some v) f = some w at frame
      refine (Bool.or_eq_true _ _).mpr ?_
      by_cases here : f = ⟨frameId, inside⟩
      · subst here
        rw [Function.update_self] at frame
        cases frame
        exact .inr (decide_eq_true ready)
      · rw [Function.update_of_ne here] at frame
        exact .inl (inv.kicked idles ⟨f, w, frame, ready⟩)
    · intro f frame
      change Function.update s.frames ⟨frameId, inside⟩ (some v) f = some idle at frame
      by_cases here : f = ⟨frameId, inside⟩
      · subst here
        rw [Function.update_self] at frame
        cases frame
        exact other rfl
      · rw [Function.update_of_ne here] at frame
        exact inv.framed f frame
  · exact inv
  · exact inv

theorem step_inv (s : Frames.Sys N V) (a : Frames.Action V) (t : Frames.Sys N V) (inv : Inv idle s)
    (awake : PutsAwake idle s a) (moved : Frames.step idle s a = some t) : Inv idle t := by
  cases a with
  | put v =>
      obtain ⟨-, ⟨⟩⟩ := Option.ite_none_right_eq_some.mp moved
      exact inv.setState fun asleep _ => awake asleep
  | putPaused _ | putTerminated _ | enter | exit | recover =>
      obtain ⟨-, ⟨⟩⟩ := Option.ite_none_right_eq_some.mp moved
      exact inv.setState fun _ => nofun
  | pause pvSpin =>
      obtain ⟨-, ⟨⟩⟩ := Option.ite_none_right_eq_some.mp moved
      unfold Frames.Sys.putPaused
      split
      · split
        · have spins : Inv idle (s.setState s.current .pvSpinning) := inv.setState fun _ => nofun
          exact spins.setPvSpin _ _
        · exact inv.setPvSpin _ _
        · exact inv
      · exact inv.setState fun _ => nofun
  | reschedule =>
      obtain ⟨-, ⟨⟩⟩ := Option.ite_none_right_eq_some.mp moved
      exact inv.reschedule
  | getOrIdle =>
      obtain ⟨-, ⟨⟩⟩ := Option.ite_none_left_eq_some.mp moved
      exact inv.getOrIdle
  | unpause v =>
      obtain ⟨-, ⟨⟩⟩ := Option.ite_none_right_eq_some.mp moved
      exact inv.unpause v
  | kick v =>
      cases moved
      unfold Frames.Sys.vemuPvSpinKick
      split
      · exact (inv.unpause v).setPvSpin _ _
      · exact inv.setPvSpin _ _
  | teardown v =>
      obtain ⟨-, ⟨⟩⟩ := Option.ite_none_right_eq_some.mp moved
      have fewer : ∀ f w, (s.dequeue v).frames f = some w → s.frames f = some w := by
        intro f w frame
        change (if s.frames f = some v then none else s.frames f) = some w at frame
        split_ifs at frame
        exact frame
      exact (inv.unsets fewer).setState fun _ => nofun
  | vframeSet v frameId =>
      obtain ⟨other, ⟨⟩⟩ := Option.ite_none_left_eq_some.mp moved
      exact inv.vframeSet other frameId
  | vframeUnset frameId =>
      cases moved
      unfold Frames.Sys.vframeUnset
      split
      · rename_i inside
        apply inv.unsets
        intro f w frame
        by_cases here : f = ⟨frameId, inside⟩
        · subst here
          rw [Function.update_self] at frame
          cases frame
        · rwa [Function.update_of_ne here] at frame
      · exact inv
  | updateCriticality v criticality =>
      cases moved
      refine ⟨fun idles ready => inv.kicked idles ?_, inv.framed⟩
      obtain ⟨f, w, frame, ready⟩ := ready
      refine ⟨f, w, frame, ?_⟩
      rw [← ready]
      by_cases here : w = v
      · subst here
        simp [Frames.Sys.updateCriticality]
      · simp [Frames.Sys.updateCriticality, here]
  | writeLevel _ =>
      cases moved
      exact ⟨inv.kicked, inv.framed⟩

/-- A vcpu that is put into a frame of a sleeping CPU is left behind. -/
theorem step_needs (s : Frames.Sys N V) (a : Frames.Action V) (t : Frames.Sys N V)
    (moved : Frames.step idle s a = some t) (kicked : Kicked idle t) : PutsAwake idle s a := by
  cases a with
  | put v =>
      obtain ⟨-, ⟨⟩⟩ := Option.ite_none_right_eq_some.mp moved
      intro asleep f frame
      have ready : HasReady (s.setState v .ready) := by
        refine ⟨f, v, frame, ?_⟩
        rw [setState_state, if_pos rfl]
      have set : s.kick = true := (kicked asleep.1 ready).1
      rw [asleep.2] at set
      cases set
  | _ => trivial

/-- **A sleeping CPU has nothing to run, but for a vcpu that was put too late.**  Throughout a run
from the start, an idle CPU with a ready vcpu in a frame is kicked and takes a vcpu when it yields,
if and only if no vcpu is put while it has a frame of a CPU that sleeps. -/
theorem framed_kicks_iff {run : List (Frames.Action V)} (initial : Initial s)
    (ran : exec (Frames.step idle) s run = some t) :
    (∀ first second u, run = first ++ second → exec (Frames.step idle) s first = some u →
        Kicked idle u) ↔
      Along (PutsAwake idle) (Frames.step idle) s run := by
  have start : Inv idle s := by
    have none : ∀ f v, s.frames f ≠ some v := by
      intro f v frame
      rw [initial.frames] at frame
      cases frame
    exact ⟨fun _ ready => absurd ready.choose_spec.choose_spec.1 (none _ _), fun f => none f idle⟩
  exact exec_shows_iff (fun _ inv => inv.shows) step_inv
    (fun s a t _ moved kicked => step_needs s a t moved kicked) start ran

end Frames

/-! ## Queues -/

section Queues

open RunQueue

/-- The run queues, with `kick` of every scheduler, and where the idle vcpu is the current one. -/
structure Kicks (Cpu V : Type) where
  queue : RunQueue.Sys Cpu V
  kick : Cpu → Bool
  idles : Cpu → Bool

variable {Cpu V : Type} [DecidableEq Cpu] [DecidableEq V]

/-- What a call is to `kick` and to the current vcpu: `__vsched_push` sets `kick`, and `get` is
`vsched_get_or_idle`, which unsets it when `__vsched_pop` finds nothing. -/
def Kicks.effect (home : V → Cpu) (s : Kicks Cpu V) :
    RunQueue.Action Cpu V → (Cpu → Bool) × (Cpu → Bool)
  | .put v | .unpause v => (Function.update s.kick (home v) true, s.idles)
  | .updateCriticality v _ =>
      if (s.queue.vcpu v).state = .ready then (Function.update s.kick (home v) true, s.idles)
      else (s.kick, s.idles)
  | .get cpu =>
      if (s.queue.pop cpu).1 = none then
        (Function.update s.kick cpu false, Function.update s.idles cpu true)
      else (s.kick, Function.update s.idles cpu false)
  | _ => (s.kick, s.idles)

def kicksStep (home : V → Cpu) (maxCriticality : ℕ) (s : Kicks Cpu V) (a : RunQueue.Action Cpu V) :
    Option (Kicks Cpu V) :=
  (RunQueue.step home maxCriticality s.queue a).map fun queue =>
    ⟨queue, (s.effect home a).1, (s.effect home a).2⟩

/-- No vcpu is queued yet, and no CPU idles. -/
structure KicksInitial (maxCriticality : ℕ) (s : Kicks Cpu V) : Prop where
  queue : RunQueue.Initial maxCriticality s.queue
  idles : ∀ cpu, s.idles cpu = false

/-- A vcpu of the CPU is ready. -/
def ReadyAt (home : V → Cpu) (s : RunQueue.Sys Cpu V) (cpu : Cpu) : Prop :=
  ∃ v, home v = cpu ∧ (s.vcpu v).state = .ready

/-- An idle CPU with a ready vcpu is kicked, and will take a vcpu when it yields. -/
def KicksReady (home : V → Cpu) (s : Kicks Cpu V) : Prop :=
  ∀ cpu, s.idles cpu = true → ReadyAt home s.queue cpu →
    s.kick cpu = true ∧ (s.queue.pop cpu).1 ≠ none

variable {home : V → Cpu} {maxCriticality : ℕ}

/-- A bucket is found as long as a vcpu is ready, and its front node is that of a vcpu. -/
theorem pop_found {s : RunQueue.Sys Cpu V} {cpu : Cpu} (files : Files home s)
    (ready : ReadyAt home s cpu) : (s.pop cpu).1 ≠ none := by
  obtain ⟨contents, holds, members⟩ := files
  obtain ⟨v, rfl, ready⟩ := ready
  have bottom : (s.dqs.peekfront (.queues (home v) 0)).isSome := by
    rw [holds.peekfront, List.isSome_head?]
    apply List.ne_nil_of_mem
    exact (members (v, 0) _).mpr ⟨rfl, rfl, ready, Nat.zero_le _⟩
  obtain ⟨criticality, bucket⟩ : ∃ criticality, s.getBucket (home v) = some criticality := by
    unfold RunQueue.Sys.getBucket
    split_ifs with level zero
    · exact ⟨_, rfl⟩
    · rw [zero] at level
      exact absurd bottom level
    · exact ⟨_, rfl⟩
  obtain ⟨⟨w, i⟩, first⟩ := getBucket_front bucket
  rw [holds.peekfront] at first
  obtain ⟨rest, here⟩ := List.head?_eq_some_iff.mp first
  obtain ⟨-, rfl, -, -⟩ := (members (w, i) _).mp (here ▸ List.mem_cons_self)
  simp [RunQueue.Sys.pop, bucket, holds.popfront_cons here, nodeToVcpu]

/-- Only a put or an unpause makes a vcpu ready. -/
theorem step_ready {s t : RunQueue.Sys Cpu V} {a : RunQueue.Action Cpu V} {v : V}
    (files : Files home s) (moved : RunQueue.step home maxCriticality s a = some t)
    (ready : (t.vcpu v).state = .ready) :
    (s.vcpu v).state = .ready ∨ a = .put v ∨ a = .unpause v := by
  cases a with
  | get cpu =>
      cases moved
      rcases files.get_state cpu v with kept | ⟨-, left⟩
      · exact .inl (kept.symm.trans ready)
      · rw [left] at ready
        cases ready
  | updateCriticality w criticality =>
      obtain ⟨-, ⟨⟩⟩ := Option.ite_none_right_eq_some.mp moved
      exact .inl ((updateCriticality_state w criticality).symm.trans ready)
  | writeLevel cpu level =>
      obtain ⟨-, ⟨⟩⟩ := Option.ite_none_right_eq_some.mp moved
      exact .inl ready
  | put w | unpause w =>
      simp only [RunQueue.step] at moved
      split at moved <;> cases moved
      all_goals
        by_cases same : v = w
        · subst same
          simp
        · refine .inl ?_
          simpa [RunQueue.Sys.put, RunQueue.Sys.unpause, same] using ready
  | putPaused w pvSpin =>
      simp only [RunQueue.step] at moved
      split at moved <;> cases moved
      all_goals
        refine .inl ?_
        by_cases same : v = w
        · subst same
          cases pvSpin <;> simp [RunQueue.Sys.putPaused] at ready
        · simpa [RunQueue.Sys.putPaused, same] using ready
  | enter w | exit w | dequeue w | dequeuePaused w | recover w =>
      simp only [RunQueue.step] at moved
      split at moved <;> cases moved
      all_goals
        refine .inl ?_
        by_cases same : v = w
        · subst same
          simp at ready
        · simpa [same] using ready

/-- What `KicksReady` rests on. -/
structure KicksInv (home : V → Cpu) (maxCriticality : ℕ) (s : Kicks Cpu V) : Prop where
  filed : Filed home maxCriticality s.queue
  kicked : ∀ cpu, s.idles cpu = true → ReadyAt home s.queue cpu → s.kick cpu = true

theorem KicksInv.shows {s : Kicks Cpu V} (inv : KicksInv home maxCriticality s) :
    KicksReady home s := by
  intro cpu idles ready
  exact ⟨inv.kicked cpu idles ready, pop_found inv.filed.filing ready⟩

/-- A call that pushes a vcpu kicks its CPU, and makes no other vcpu ready. -/
theorem KicksInv.pushed {s : Kicks Cpu V} (inv : KicksInv home maxCriticality s)
    {queue : RunQueue.Sys Cpu V} {v : V} (filed : Filed home maxCriticality queue)
    (others : ∀ w, (queue.vcpu w).state = .ready → (s.queue.vcpu w).state = .ready ∨ w = v) :
    KicksInv home maxCriticality ⟨queue, Function.update s.kick (home v) true, s.idles⟩ where
  filed := filed
  kicked cpu idles ready := by
    change Function.update s.kick (home v) true cpu = true
    by_cases here : cpu = home v
    · subst here
      exact Function.update_self _ _ _
    · rw [Function.update_of_ne here]
      obtain ⟨w, rfl, ready⟩ := ready
      obtain before | rfl := others w ready
      · exact inv.kicked _ idles ⟨w, rfl, before⟩
      · exact absurd rfl here

/-- Nor does a call that pushes none. -/
theorem KicksInv.quiet {s : Kicks Cpu V} (inv : KicksInv home maxCriticality s)
    {queue : RunQueue.Sys Cpu V} (filed : Filed home maxCriticality queue)
    (others : ∀ w, (queue.vcpu w).state = .ready → (s.queue.vcpu w).state = .ready) :
    KicksInv home maxCriticality ⟨queue, s.kick, s.idles⟩ where
  filed := filed
  kicked cpu idles ready := by
    obtain ⟨w, rfl, ready⟩ := ready
    exact inv.kicked _ idles ⟨w, rfl, others w ready⟩

theorem effect_get (s : Kicks Cpu V) (cpu : Cpu) : s.effect home (.get cpu) =
    if (s.queue.pop cpu).1 = none then
      (Function.update s.kick cpu false, Function.update s.idles cpu true)
    else (s.kick, Function.update s.idles cpu false) := rfl

theorem effect_updateCriticality (s : Kicks Cpu V) (v : V) (criticality : ℕ) :
    s.effect home (.updateCriticality v criticality) =
      if (s.queue.vcpu v).state = .ready then (Function.update s.kick (home v) true, s.idles)
      else (s.kick, s.idles) := rfl

theorem KicksInv.get {s : Kicks Cpu V} (inv : KicksInv home maxCriticality s)
    {queue : RunQueue.Sys Cpu V} {cpu : Cpu} (filed : Filed home maxCriticality queue)
    (others : ∀ w, (queue.vcpu w).state = .ready → (s.queue.vcpu w).state = .ready) :
    KicksInv home maxCriticality
      ⟨queue, (s.effect home (.get cpu)).1, (s.effect home (.get cpu)).2⟩ := by
  refine ⟨filed, fun d idles ready => ?_⟩
  have before : ReadyAt home s.queue d := by
    obtain ⟨w, rfl, ready⟩ := ready
    exact ⟨w, rfl, others w ready⟩
  rw [effect_get] at idles ⊢
  split_ifs at idles ⊢ with missing
  · by_cases here : d = cpu
    · subst here
      exact absurd missing (pop_found inv.filed.filing before)
    · simp only [Function.update_of_ne here] at idles ⊢
      exact inv.kicked d idles before
  · by_cases here : d = cpu
    · subst here
      simp at idles
    · simp only [Function.update_of_ne here] at idles
      exact inv.kicked d idles before

theorem kicksStep_inv (s : Kicks Cpu V) (a : RunQueue.Action Cpu V) (t : Kicks Cpu V)
    (inv : KicksInv home maxCriticality s) (zero : PopsCriticalityZero s.queue a)
    (moved : kicksStep home maxCriticality s a = some t) : KicksInv home maxCriticality t := by
  obtain ⟨queue, queued, rfl⟩ := Option.map_eq_some_iff.mp moved
  have filed : Filed home maxCriticality queue := step_filed s.queue a queue inv.filed zero queued
  have ready : ∀ w, (queue.vcpu w).state = .ready →
      (s.queue.vcpu w).state = .ready ∨ a = .put w ∨ a = .unpause w :=
    fun w => step_ready inv.filed.filing queued
  cases a with
  | put v | unpause v =>
      apply inv.pushed filed
      intro w here
      obtain before | made := ready w here
      · exact .inl before
      · exact .inr (by simpa [eq_comm] using made)
  | updateCriticality v criticality =>
      have others : ∀ w, (queue.vcpu w).state = .ready → (s.queue.vcpu w).state = .ready := by
        intro w here
        simpa using ready w here
      rw [effect_updateCriticality]
      split_ifs
      · exact inv.pushed filed fun w here => .inl (others w here)
      · exact inv.quiet filed others
  | get cpu => exact inv.get filed fun w here => by simpa using ready w here
  | putPaused _ _ | enter _ | exit _ | dequeue _ | dequeuePaused _ | recover _ | writeLevel _ _ =>
      exact inv.quiet filed fun w here => by simpa using ready w here

/-- **No ready vcpu is left behind by the run queues.**  In every run whose pops take vcpus of
criticality 0, an idle CPU with a ready vcpu is kicked and finds a vcpu when it yields. -/
theorem ready_kicks {s t : Kicks Cpu V} {run : List (RunQueue.Action Cpu V)}
    (initial : KicksInitial maxCriticality s)
    (zero : Along (fun s => PopsCriticalityZero s.queue) (kicksStep home maxCriticality) s run)
    (ran : exec (kicksStep home maxCriticality) s run = some t) : KicksReady home t := by
  have start : KicksInv home maxCriticality s := by
    refine ⟨filed_initial initial.queue, fun cpu idles => ?_⟩
    rw [initial.idles] at idles
    cases idles
  exact (exec_invariant_along kicksStep_inv start zero ran).shows

end Queues

/-! ## Runs of an idle CPU -/

/-- The root pauses and the CPU sleeps until vcpu 1, which is ready, gets frame 0. -/
theorem framed_kicks_late : ∃ t, exec (Frames.step 2) (Frames.boot 2)
    [.put 1, .pause false, .getOrIdle, .vframeSet 1 0, .getOrIdle] = some t ∧ t.current = 1 ∧
      ∀ first second u, [.put 1, .pause false, .getOrIdle, .vframeSet 1 0, .getOrIdle] =
        first ++ second → exec (Frames.step 2) (Frames.boot 2) first = some u → Kicked 2 u :=
  ⟨_, rfl, by decide, (framed_kicks_iff (Frames.boot_initial 2) rfl).mpr (by decide)⟩

/-- Vcpu 1 gets frame 0 before it is put: it is ready, and the CPU sleeps. -/
theorem put_without_kick : ∃ t, exec (Frames.step 2) (Frames.boot 2)
    [.pause false, .getOrIdle, .vframeSet 1 0, .put 1] = some t ∧ Sleeps 2 t ∧ HasReady t :=
  ⟨_, rfl, by decide, 0, 1, by decide, by decide⟩

/-- A vcpu of a sleeping CPU is put: the CPU is kicked, and runs it. -/
theorem ready_kicks_put : ∃ t, exec (kicksStep (fun _ => ()) 1)
    ⟨RunQueue.two 0, fun _ => false, fun _ => false⟩ [.get (), .put true] = some t ∧
      t.idles () = true ∧ ReadyAt (fun _ => ()) t.queue () ∧ KicksReady (fun _ => ()) t := by
  have ran : exec (kicksStep (fun _ => ()) 1)
      ⟨RunQueue.two 0, fun _ => false, fun _ => false⟩ [.get (), .put true] = some _ := rfl
  have zero : Along (fun s => RunQueue.PopsCriticalityZero s.queue) (kicksStep (fun _ => ()) 1)
      ⟨RunQueue.two 0, fun _ => false, fun _ => false⟩ [.get (), .put true] := by
    refine .cons ?_ rfl (.cons trivial rfl trivial)
    intro criticality n bucket
    cases bucket
  exact ⟨_, ran, rfl, ⟨true, rfl, rfl⟩,
    ready_kicks ⟨RunQueue.initial_two (by decide), fun _ => rfl⟩ zero ran⟩

end Twan.Vsched.IdleKick
