/-
# Twan.Kernel.IsrDispatcherRuns -- interrupts that interrupt interrupts, in every run

* `isr_frames`: at every point of every disciplined run no two frames share a stack, every context is
  still on its stack, an interrupt is acknowledged by its own frame and by no other, and a handler that
  may be interrupted finds the context of the task in `task_ctx()`;
* `isr_transparent`: what comes above some frames leaves the data of the processor, the interrupts in
  service and the interrupt flag as it found them.
-/
import Twan.Kernel.IsrDispatcherFrames

namespace Twan.Kernel.IsrDispatcher

set_option autoImplicit false

open Twan.Base

/-! ## Runs -/

section Runs

variable {R : Type} {s t : Sys R} {act : Action R}

/-- A frame's context is on its stack. -/
def Kept (memory : Stack → Option (InterruptInfo R)) (f : Frame) (context : R) : Prop :=
  memory f.stackTrace = some ⟨f.vector, f.emulated, f.interrupts, context⟩

structure Good (s : Sys R) : Prop where
  nested : ∃ interrupts, Nested Owed (.boot interrupts) s.frames s.seen
  layout : Layout s.interrupts s.frames
  apart : (s.frames.map Frame.stackTrace).Nodup
  memory : List.Forall₂ (Kept s.memory) s.frames s.saved

/-- What the hardware and the callers see to when a frame begins. -/
structure Enters (s : Sys R) (kind : Kind) (vector : Vector) : Prop where
  apart : ∀ f ∈ s.frames, f.stackTrace ≠ getIntStack vector
  fresh : s.service vector = false
  external : kind = .external →
    (numReservedVectors ≤ vector.val ∧ vector ≠ spuriousIntVector ∧ s.interrupts = true) ∧
      ∀ v, s.service v = true → vectorToIntl v < vectorToIntl vector
  nmi : kind = .nmi ↔ vector = nmi
  emulated : kind = .emulated → s.frames = []

/-- Where interrupts are on, the level of the processor is below what the local APIC delivers. -/
theorem Good.level_lt (good : Good s) (on : s.interrupts = true) {vector : Vector}
    (above : ∀ v, s.service v = true → vectorToIntl v < vectorToIntl vector) :
    s.cpu.intl < vectorToIntl vector := by
  obtain ⟨flag, nested⟩ := good.nested
  have layout := good.layout
  rw [on] at layout
  have opened := layout.open
  have level : s.cpu.intl = levelOf s.frames := nested_level nested opened
  cases frames : s.frames with
  | nil =>
      rw [frames, levelOf] at level
      omega
  | cons f below =>
      rw [frames, levelOf] at level
      rw [frames] at opened
      obtain ⟨external, here⟩ := opened f List.mem_cons_self
      have served : s.service f.vector = true :=
        (nested_served nested f.vector).mpr ⟨f, by rw [frames]; exact List.mem_cons_self, external,
          (Stage.isOpen_spec here).2.2.2, rfl⟩
      have lower := above f.vector served
      omega

theorem Good.push_owed (good : Good s) {kind : Kind} {vector : Vector}
    (enters : Enters s kind vector) (context : R) :
    Owed (.enter kind vector s.interrupts) s.seen (s.push kind vector context).seen where
  cpu := by simp [Sys.push, Sys.seen, Frame.shownCpu, Frame.enter, Stage.isMarked, Stage.isRaised,
    Stage.isInside]
  service := by
    by_cases external : kind = .external <;>
      simp [Sys.push, Sys.seen, Frame.shownService, Frame.enter, external, Stage.isAcknowledged]
  flag := rfl
  locals started := absurd rfl started
  decided late := by simp [Frame.enter, Stage.isDecided] at late
  taskless := by
    obtain ⟨flag, nested⟩ := good.nested
    exact nested_taskless nested
  fresh := enters.fresh
  above external := by
    obtain ⟨⟨-, -, on⟩, above⟩ := enters.external external
    exact ⟨good.level_lt on above, above⟩

theorem Good.push (good : Good s) {kind : Kind} {vector : Vector} (enters : Enters s kind vector)
    (context : R) : Good (s.push kind vector context) where
  nested := by
    obtain ⟨flag, nested⟩ := good.nested
    exact ⟨flag, s.seen, nested, good.push_owed enters context⟩
  layout := by
    refine ⟨⟨rfl, (fun on => by cases on), fun external => (enters.external external).1, enters.nmi,
      enters.emulated⟩, good.layout⟩
  apart := by
    refine List.nodup_cons.mpr ⟨fun inside => ?_, good.apart⟩
    obtain ⟨f, live, same⟩ := List.mem_map.mp inside
    exact enters.apart f live same
  memory := by
    refine .cons (Function.update_self _ _ _) ?_
    have live := (List.forall₂_and_left _ _).mpr ⟨fun f (inside : f ∈ s.frames) => inside, good.memory⟩
    refine live.imp fun f r kept => ?_
    exact (Function.update_of_ne (enters.apart f kept.1) _ _).trans kept.2

/-- What a statement of the dispatcher does to the frames: the top one goes on, or it ends with the
context on its stack. -/
theorem dispatch_cases {f : Frame} {rest : List Frame} (moved : s.dispatch f rest = some t) :
    (∃ g : Frame, t.frames = g :: rest ∧ g.kind = f.kind ∧ g.stackTrace = f.stackTrace ∧
      g.vector = f.vector ∧ g.interrupts = f.interrupts ∧ t.memory = s.memory ∧
      t.saved = s.saved ∧ t.resumed = s.resumed ∧
      (t.interrupts = true → s.interrupts = true ∧ f.stage.isOpen = false)) ∨
    ∃ info, s.memory f.stackTrace = some info ∧ t.frames = rest ∧ t.memory = s.memory ∧
      t.saved = s.saved.tail ∧ t.resumed = some info.context ∧ t.interrupts = info.interrupts := by
  unfold Sys.dispatch at moved
  cases stage : f.stage with
  | entered =>
      simp only [stage, Option.some.injEq] at moved
      subst moved
      exact .inl ⟨_, rfl, rfl, rfl, rfl, rfl, rfl, rfl, rfl, fun on => ⟨on, rfl⟩⟩
  | loaded =>
      simp only [stage, Option.some.injEq] at moved
      subst moved
      exact .inl ⟨_, rfl, rfl, rfl, rfl, rfl, rfl, rfl, rfl, fun on => ⟨on, rfl⟩⟩
  | marking =>
      simp only [stage, Option.some.injEq] at moved
      subst moved
      cases f.wasInIsr <;>
        exact .inl ⟨_, rfl, rfl, rfl, rfl, rfl, rfl, rfl, rfl, fun on => ⟨on, rfl⟩⟩
  | deciding =>
      simp only [stage, Option.some.injEq] at moved
      subst moved
      exact .inl ⟨_, rfl, rfl, rfl, rfl, rfl, rfl, rfl, rfl, fun on => ⟨on, rfl⟩⟩
  | raising =>
      simp only [stage, Option.some.injEq] at moved
      subst moved
      cases f.external <;>
        exact .inl ⟨_, rfl, rfl, rfl, rfl, rfl, rfl, rfl, rfl, fun on => ⟨on, rfl⟩⟩
  | handling => simp only [stage, reduceCtorEq] at moved
  | returned =>
      simp only [stage, Option.some.injEq] at moved
      subst moved
      exact .inl ⟨_, rfl, rfl, rfl, rfl, rfl, rfl, rfl, rfl, fun on => by cases on⟩
  | closing =>
      simp only [stage] at moved
      split_ifs at moved <;> cases moved <;>
        exact .inl ⟨_, rfl, rfl, rfl, rfl, rfl, rfl, rfl, rfl, fun on => ⟨on, rfl⟩⟩
  | unmarking =>
      simp only [stage, Option.some.injEq] at moved
      subst moved
      cases f.wasInIsr <;>
        exact .inl ⟨_, rfl, rfl, rfl, rfl, rfl, rfl, rfl, rfl, fun on => ⟨on, rfl⟩⟩
  | lowering =>
      simp only [stage, Option.some.injEq] at moved
      subst moved
      exact .inl ⟨_, rfl, rfl, rfl, rfl, rfl, rfl, rfl, rfl, fun on => ⟨on, rfl⟩⟩
  | leaving =>
      simp only [stage, Option.some.injEq] at moved
      subst moved
      exact .inl ⟨_, rfl, rfl, rfl, rfl, rfl, rfl, rfl, rfl, fun on => ⟨on, rfl⟩⟩
  | exiting =>
      simp only [stage, Option.map_eq_some_iff] at moved
      obtain ⟨info, found, rfl⟩ := moved
      exact .inr ⟨info, found, rfl, rfl, rfl, rfl, rfl⟩
  | panicked => simp only [stage, reduceCtorEq] at moved

theorem Good.interrupts_back (good : Good s) {f : Frame} {rest : List Frame}
    (frames : s.frames = f :: rest) (info : InterruptInfo R)
    (found : s.memory f.stackTrace = some info) : info.interrupts = f.interrupts := by
  have memory := good.memory
  rw [frames] at memory
  obtain ⟨context, contexts, kept, -⟩ := List.forall₂_cons_left_iff.mp memory
  rw [Kept, found] at kept
  cases kept
  rfl

theorem Good.dispatch_move (good : Good s) {f : Frame} {rest : List Frame}
    (frames : s.frames = f :: rest) (moved : s.dispatch f rest = some t) :
    Move Owed s.frames s.seen t.frames t.seen := by
  have there := good.interrupts_back frames
  rw [frames]
  rcases dispatch_cases moved with ⟨g, next, -⟩ | ⟨info, -, next, -⟩
  · rw [next]
    apply Move.advance
    intro before owed
    rcases owed.dispatch there moved with ⟨g', next', owed'⟩ | ⟨next', -⟩
    · rw [next] at next'
      cases next'
      exact owed'
    · have lengths := congrArg List.length (next.symm.trans next')
      simp at lengths
  · rw [next]
    apply Move.leave
    intro before owed
    rcases owed.dispatch there moved with ⟨g', next', -⟩ | ⟨-, same⟩
    · have lengths := congrArg List.length (next.symm.trans next')
      simp at lengths
    · exact same

theorem Good.dispatch (good : Good s) {f : Frame} {rest : List Frame}
    (frames : s.frames = f :: rest) (moved : s.dispatch f rest = some t) : Good t := by
  have move := good.dispatch_move frames moved
  have there := good.interrupts_back frames
  obtain ⟨flag, nested⟩ := good.nested
  have next := move.nested nested
  obtain ⟨-, layout, apart, memory⟩ := good
  rw [frames] at layout apart memory
  rcases dispatch_cases moved with
    ⟨g, after, kind, stack, vector, interrupts, same, saved, -, on⟩ | ⟨info, found, after, same, saved, -, back⟩
  · refine ⟨⟨flag, next⟩, ?_, ?_, ?_⟩
    · rw [after]
      obtain ⟨placed, below⟩ := layout
      refine ⟨⟨?_, ?_, ?_, ?_, ?_⟩, ?_⟩
      · rw [stack, vector, placed.stack]
      · intro enabled
        obtain ⟨before, shut⟩ := on enabled
        exact absurd (placed.shut before).2 (by rw [shut]; exact Bool.false_ne_true)
      · rw [kind, vector, interrupts]
        exact placed.external
      · rw [kind, vector]
        exact placed.nmi
      · rw [kind]
        exact placed.emulated
      · rw [interrupts]
        exact below
    · rw [after, List.map_cons, stack]
      exact apart
    · rw [after, saved, same]
      obtain ⟨context, contexts, kept, below, history⟩ := List.forall₂_cons_left_iff.mp memory
      rw [history]
      refine .cons ?_ below
      unfold Kept Frame.emulated at kept ⊢
      rw [stack, vector, interrupts, kind]
      exact kept
  · refine ⟨⟨flag, next⟩, ?_, ?_, ?_⟩
    · rw [after, back, there info found]
      exact layout.2
    · rw [after]
      exact (List.nodup_cons.mp apart).2
    · rw [after, same, saved]
      obtain ⟨context, contexts, -, below, history⟩ := List.forall₂_cons_left_iff.mp memory
      rw [history, List.tail_cons]
      exact below

/-- The stores of the scheduler are to the context of one frame. -/
theorem store_kept {memory : Stack → Option (InterruptInfo R)} {frames : List Frame} {saved : List R}
    (kept : List.Forall₂ (Kept memory) frames saved) (stack : Stack) (context : R) :
    List.Forall₂ (Kept fun p =>
        if p = stack then (memory p).map fun info => { info with context := context } else memory p)
      frames (List.zipWith (fun f r => if f.stackTrace = stack then context else r) frames saved) := by
  induction kept with
  | nil => exact .nil
  | cons here _ ih =>
      refine .cons ?_ ih
      unfold Kept at here ⊢
      beta_reduce
      split_ifs
      · rw [here]
        rfl
      · exact here

theorem getIntStack_external {vector : Vector} (external : numReservedVectors ≤ vector.val) :
    getIntStack vector = .intStacks (vectorToIntl vector) := by
  unfold numReservedVectors at external
  have apart : ∀ v : Vector, v.val < 32 → vector ≠ v := by
    rintro v low rfl
    omega
  rw [getIntStack, if_neg (apart nmi (by decide)), if_neg (apart doubleFault (by decide)),
    if_neg (apart machineCheck (by decide))]

theorem getIntStack_eq_nmiStack {vector : Vector} (same : getIntStack vector = .nmiStack) :
    vector = nmi := by
  unfold getIntStack at same
  split_ifs at same with here
  exact here

/-- What is in service is an external interrupt. -/
theorem Good.service_external (good : Good s) {v : Vector} (served : s.service v = true) :
    numReservedVectors ≤ v.val ∧ v ≠ spuriousIntVector := by
  obtain ⟨flag, nested⟩ := good.nested
  obtain ⟨f, live, external, -, rfl⟩ := (nested_served nested v).mp served
  obtain ⟨below, i, placed⟩ := good.layout.mem live
  exact ⟨(placed.external external).1, (placed.external external).2.1⟩

theorem Good.unserved (good : Good s) {v : Vector}
    (other : v.val < numReservedVectors ∨ v = spuriousIntVector) : s.service v = false := by
  refine Bool.eq_false_iff.mpr fun served => ?_
  obtain ⟨high, real⟩ := good.service_external served
  rcases other with low | spurious
  · omega
  · exact real spurious

/-- The local APIC delivers to a stack that no frame is on. -/
theorem Good.enters_external (good : Good s) {vector : Vector} (on : s.interrupts = true)
    (high : numReservedVectors ≤ vector.val) (real : vector ≠ spuriousIntVector)
    (above : ∀ v, s.service v = true → vectorToIntl v < vectorToIntl vector) :
    Enters s .external vector where
  apart f live same := by
    obtain ⟨flag, nested⟩ := good.nested
    have layout := good.layout
    obtain ⟨below, i, placed⟩ := layout.mem live
    rw [on] at layout
    obtain ⟨external, here⟩ := layout.open f live
    have served : s.service f.vector = true :=
      (nested_served nested f.vector).mpr ⟨f, live, external, (Stage.isOpen_spec here).2.2.2, rfl⟩
    have lower := above f.vector served
    rw [placed.stack, getIntStack_external (placed.external external).1,
      getIntStack_external high, Stack.intStacks.injEq] at same
    omega
  fresh := Bool.eq_false_iff.mpr fun served => absurd (above vector served) (Nat.lt_irrefl _)
  external _ := ⟨⟨high, real, on⟩, above⟩
  nmi := by
    refine iff_of_false Kind.noConfusion fun is => ?_
    rw [is] at high
    exact absurd high (by decide)
  emulated is := by cases is

theorem Good.enters_spurious (good : Good s)
    (apart : ∀ f ∈ s.frames, f.stackTrace ≠ getIntStack spuriousIntVector) :
    Enters s .spurious spuriousIntVector where
  apart := apart
  fresh := good.unserved (.inr rfl)
  external is := by cases is
  nmi := iff_of_false Kind.noConfusion (by decide)
  emulated is := by cases is

theorem Good.enters_nmi (good : Good s) (last : ∀ f ∈ s.frames, f.kind ≠ .nmi) :
    Enters s .nmi nmi where
  apart f live same := by
    obtain ⟨below, i, placed⟩ := good.layout.mem live
    rw [placed.stack] at same
    exact last f live (placed.nmi.mpr (getIntStack_eq_nmiStack same))
  fresh := good.unserved (.inl (by decide))
  external is := by cases is
  nmi := ⟨fun _ => rfl, fun _ => rfl⟩
  emulated is := by cases is

theorem Good.enters_exception (good : Good s) {vector : Vector}
    (low : vector.val < numReservedVectors) (other : vector ≠ nmi)
    (apart : ∀ f ∈ s.frames, f.stackTrace ≠ getIntStack vector) : Enters s .exception vector where
  apart := apart
  fresh := good.unserved (.inl low)
  external is := by cases is
  nmi := iff_of_false Kind.noConfusion other
  emulated is := by cases is

/-- Outside of interrupts nothing is owed. -/
theorem Good.outside (good : Good s) (frames : s.frames = []) :
    s.cpu = .boot ∧ s.service = fun _ => false := by
  obtain ⟨flag, nested⟩ := good.nested
  rw [frames] at nested
  exact ⟨congrArg Seen.cpu nested, congrArg Seen.service nested⟩

theorem Good.outside_interrupts (good : Good s) (frames : s.frames = []) (enable : Bool) :
    Good { s with interrupts := enable } := by
  obtain ⟨cpu, service⟩ := good.outside frames
  obtain ⟨-, layout, apart, memory⟩ := good
  refine ⟨⟨enable, ?_⟩, ?_, apart, memory⟩
  · simp only [frames, Nested, Sys.seen, Seen.boot, cpu, service]
  · simp only [frames, Layout]

theorem Good.enters_emulated (good : Good s) (frames : s.frames = []) :
    Enters { s with interrupts := false } .emulated selfIpiCmdVector where
  apart := by simp [frames]
  fresh := by simp [(good.outside frames).2]
  external is := by cases is
  nmi := iff_of_false Kind.noConfusion (by decide)
  emulated _ := frames

/-- The body of a handler owes what it owed before it returns or changes the interrupt flag. -/
theorem Owed.handler {f : Frame} {before : Seen} (owed : Owed f before s.seen)
    (handling : f.stage = .handling) {stage : Stage} (opened : stage.isOpen = true) (enable : Bool)
    (value : ℤ) :
    Owed { f with stage := stage, ret := value } before ⟨s.cpu, s.service, enable⟩ where
  cpu := by
    obtain ⟨marked, inside, raised, -⟩ := Stage.isOpen_spec opened
    obtain ⟨marked', inside', raised', -⟩ := Stage.isOpen_spec (congrArg Stage.isOpen handling)
    have cpu : s.cpu = f.shownCpu before.cpu := owed.cpu
    simp [cpu, Frame.shownCpu, marked, inside, raised, marked', inside', raised']
  service := by
    have service : s.service = f.shownService before.service := owed.service
    simp [service, Frame.shownService, (Stage.isOpen_spec opened).2.2.2,
      (Stage.isOpen_spec (congrArg Stage.isOpen handling)).2.2.2]
  flag := owed.flag
  locals _ := owed.locals (by simp [handling])
  decided _ := owed.decided (by simp [handling, Stage.isDecided])
  taskless := owed.taskless
  fresh := owed.fresh
  above := owed.above

theorem Good.handler (good : Good s) {f : Frame} {rest : List Frame}
    (frames : s.frames = f :: rest) (handling : f.stage = .handling) {stage : Stage}
    (opened : stage.isOpen = true) {enable : Bool} (value : ℤ)
    (shut : enable = true → f.kind = .external) :
    Good { s with frames := { f with stage := stage, ret := value } :: rest, interrupts := enable } ∧
      Move Owed s.frames s.seen ({ f with stage := stage, ret := value } :: rest)
        ⟨s.cpu, s.service, enable⟩ := by
  have move : Move Owed s.frames s.seen ({ f with stage := stage, ret := value } :: rest)
      ⟨s.cpu, s.service, enable⟩ := by
    rw [frames]
    exact .advance fun before owed => owed.handler handling opened enable value
  obtain ⟨⟨flag, nested⟩, layout, apart, memory⟩ := good
  refine ⟨⟨⟨flag, move.nested nested⟩, ?_, ?_, ?_⟩, move⟩
  · rw [frames] at layout
    obtain ⟨placed, below⟩ := layout
    exact ⟨⟨placed.stack, fun on => ⟨shut on, opened⟩, placed.external, placed.nmi, placed.emulated⟩,
      below⟩
  · rw [frames] at apart
    exact apart
  · rw [frames] at memory
    obtain ⟨context, contexts, kept, below, history⟩ := List.forall₂_cons_left_iff.mp memory
    rw [history]
    exact .cons kept below

theorem Good.store (good : Good s) (stack : Stack) (context : R) : Good (s.store stack context) :=
  ⟨good.nested, good.layout, good.apart, store_kept good.memory stack context⟩

/-- What interrupts begins a frame on a stack of its own. -/
theorem Good.step_enters (good : Good s) (allowed : Disciplined s act) (moved : step s act = some t)
    {context : R} (enters : act.interrupted = some context) :
    ∃ kind vector, Good { s with interrupts := act.flag s.interrupts } ∧
      Enters { s with interrupts := act.flag s.interrupts } kind vector ∧
      t = { s with interrupts := act.flag s.interrupts }.push kind vector context := by
  cases act with
  | deliver vector r =>
      cases enters
      simp only [step, Option.ite_none_right_eq_some, Option.some.injEq] at moved
      obtain ⟨⟨on, high, real, above⟩, rfl⟩ := moved
      exact ⟨.external, vector, good, good.enters_external on high real above, rfl⟩
  | spurious r =>
      cases enters
      simp only [step, Option.ite_none_right_eq_some, Option.some.injEq] at moved
      obtain ⟨-, rfl⟩ := moved
      exact ⟨.spurious, spuriousIntVector, good, good.enters_spurious allowed, rfl⟩
  | nmi r =>
      cases enters
      simp only [step, Option.ite_none_right_eq_some, Option.some.injEq] at moved
      obtain ⟨last, rfl⟩ := moved
      exact ⟨.nmi, IsrDispatcher.nmi, good, good.enters_nmi last, rfl⟩
  | exception vector r =>
      cases enters
      simp only [step, Option.ite_none_right_eq_some, Option.some.injEq] at moved
      obtain ⟨⟨low, other⟩, rfl⟩ := moved
      exact ⟨.exception, vector, good, good.enters_exception low other allowed, rfl⟩
  | emulate r =>
      cases enters
      simp only [step, Option.ite_none_right_eq_some, Option.some.injEq] at moved
      obtain ⟨outside, rfl⟩ := moved
      exact ⟨.emulated, selfIpiCmdVector, good.outside_interrupts outside false,
        good.enters_emulated outside, rfl⟩
  | dispatch => cases enters
  | ret value => cases enters
  | setInterrupts enable => cases enters
  | store r => cases enters
  | setIsr vector registered => cases enters

/-- What interrupts nothing lets the frames go on. -/
theorem Good.step_goes (good : Good s) (allowed : Disciplined s act) (moved : step s act = some t)
    (enters : act.interrupted = none) :
    Good t ∧ (s.frames ≠ [] → Move Owed s.frames s.seen t.frames t.seen) := by
  have stays (same : t.frames = s.frames) (seen : t.seen = s.seen) :
      s.frames ≠ [] → Move Owed s.frames s.seen t.frames t.seen := by
    intro inside
    obtain ⟨f, rest, frames⟩ := List.exists_cons_of_ne_nil inside
    rw [same, seen, frames]
    exact .advance fun _ owed => owed
  cases act with
  | deliver vector r => cases enters
  | spurious r => cases enters
  | nmi r => cases enters
  | exception vector r => cases enters
  | emulate r => cases enters
  | dispatch =>
      cases frames : s.frames with
      | nil => simp only [step, frames, reduceCtorEq] at moved
      | cons f rest =>
          simp only [step, frames] at moved
          refine ⟨good.dispatch frames moved, fun _ => ?_⟩
          rw [← frames]
          exact good.dispatch_move frames moved
  | ret value =>
      cases frames : s.frames with
      | nil => simp only [step, frames, reduceCtorEq] at moved
      | cons f rest =>
          simp only [step, frames, Option.ite_none_right_eq_some, Option.some.injEq] at moved
          obtain ⟨handling, rfl⟩ := moved
          have layout := good.layout
          rw [frames] at layout
          have opened : Stage.returned.isOpen = true := rfl
          have next := good.handler frames handling opened value fun on => (layout.1.shut on).1
          rw [frames] at next
          exact ⟨next.1, fun _ => next.2⟩
  | setInterrupts enable =>
      cases frames : s.frames with
      | nil =>
          simp only [step, frames, Option.some.injEq] at moved
          subst moved
          have next := good.outside_interrupts frames enable
          rw [frames] at next
          exact ⟨next, fun inside => absurd rfl inside⟩
      | cons f rest =>
          simp only [step, frames, Option.ite_none_right_eq_some, Option.some.injEq] at moved
          obtain ⟨handling, rfl⟩ := moved
          have shut : enable = true → f.kind = .external := by
            rintro rfl
            exact allowed f (by rw [frames]; rfl)
          have next := good.handler frames handling (congrArg Stage.isOpen handling) f.ret shut
          rw [frames] at next
          exact ⟨next.1, fun _ => next.2⟩
  | store context =>
      cases frames : s.frames with
      | nil => simp only [step, frames, reduceCtorEq] at moved
      | cons f rest =>
          cases task : s.cpu.taskCtx with
          | none => simp only [step, frames, task, reduceCtorEq] at moved
          | some stack =>
              simp only [step, frames, task, Option.ite_none_right_eq_some, Option.some.injEq]
                at moved
              obtain ⟨-, rfl⟩ := moved
              rw [← frames]
              exact ⟨good.store stack context, stays rfl rfl⟩
  | setIsr vector registered =>
      simp only [step, Option.some.injEq] at moved
      subst moved
      exact ⟨⟨good.nested, good.layout, good.apart, good.memory⟩, stays rfl rfl⟩

theorem step_good (good : Good s) (allowed : Disciplined s act) (moved : step s act = some t) :
    Good t := by
  cases enters : act.interrupted with
  | none => exact (good.step_goes allowed moved enters).1
  | some context =>
      obtain ⟨kind, vector, good', enters', rfl⟩ := good.step_enters allowed moved enters
      exact good'.push enters' context

theorem exec_good {run : List (Action R)} (good : Good s) (allowed : Along Disciplined step s run)
    (ran : exec step s run = some t) : Good t :=
  exec_invariant_along (fun _ _ _ => step_good) good allowed ran

/-! ## What interrupts leave behind -/

/-- The handlers write the context of the task only, and the frames end one by one. -/
theorem step_goes_memory (moved : step s act = some t) (enters : act.interrupted = none) :
    (∀ p, s.cpu.taskCtx ≠ some p → t.memory p = s.memory p) ∧
      (t.frames.map Frame.stackTrace = s.frames.map Frame.stackTrace ∨
        ∃ f rest info, s.frames = f :: rest ∧ t.frames = rest ∧
          s.memory f.stackTrace = some info ∧ t.resumed = some info.context) := by
  cases act with
  | deliver vector r => cases enters
  | spurious r => cases enters
  | nmi r => cases enters
  | exception vector r => cases enters
  | emulate r => cases enters
  | dispatch =>
      cases frames : s.frames with
      | nil => simp only [step, frames, reduceCtorEq] at moved
      | cons f rest =>
          simp only [step, frames] at moved
          rcases dispatch_cases moved with
            ⟨g, after, -, stack, -, -, same, -⟩ | ⟨info, found, after, same, -, resumed, -⟩
          · exact ⟨fun p _ => congrFun same p, .inl (by rw [after, List.map_cons, stack]; rfl)⟩
          · exact ⟨fun p _ => congrFun same p, .inr ⟨f, rest, info, rfl, after, found, resumed⟩⟩
  | ret value =>
      cases frames : s.frames with
      | nil => simp only [step, frames, reduceCtorEq] at moved
      | cons f rest =>
          simp only [step, frames, Option.ite_none_right_eq_some, Option.some.injEq] at moved
          obtain ⟨-, rfl⟩ := moved
          exact ⟨fun _ _ => rfl, .inl rfl⟩
  | setInterrupts enable =>
      cases frames : s.frames with
      | nil =>
          simp only [step, frames, Option.some.injEq] at moved
          subst moved
          exact ⟨fun _ _ => rfl, .inl rfl⟩
      | cons f rest =>
          simp only [step, frames, Option.ite_none_right_eq_some, Option.some.injEq] at moved
          obtain ⟨-, rfl⟩ := moved
          exact ⟨fun _ _ => rfl, .inl rfl⟩
  | store context =>
      cases frames : s.frames with
      | nil => simp only [step, frames, reduceCtorEq] at moved
      | cons f rest =>
          cases task : s.cpu.taskCtx with
          | none => simp only [step, frames, task, reduceCtorEq] at moved
          | some stack =>
              simp only [step, frames, task, Option.ite_none_right_eq_some, Option.some.injEq]
                at moved
              obtain ⟨-, rfl⟩ := moved
              refine ⟨fun p other => if_neg fun same => other (by rw [same]), .inl ?_⟩
              rw [← frames]
              rfl
  | setIsr vector registered =>
      simp only [step, Option.some.injEq] at moved
      subst moved
      exact ⟨fun _ _ => rfl, .inl rfl⟩

/-- Above the frames of `s`, on the stack `stack`, something interrupted `context`. -/
structure Within (s : Sys R) (stack : Stack) (context : R) (now : Sys R) : Prop where
  good : Good now
  atop : Over Owed s.frames s.seen now.frames now.seen
  others : ∀ f ∈ s.frames, s.cpu.taskCtx ≠ some f.stackTrace →
    now.memory f.stackTrace = s.memory f.stackTrace
  own : s.cpu.handlingIsr = true →
    (∃ inner info, now.frames.map Frame.stackTrace =
        inner ++ stack :: s.frames.map Frame.stackTrace ∧
      now.memory stack = some info ∧ info.context = context) ∨
    (now.frames.length = s.frames.length ∧ now.resumed = some context)

theorem Good.within (good : Good s) {kind : Kind} {vector : Vector}
    (enters : Enters s kind vector) (context : R) :
    Within s (getIntStack vector) context (s.push kind vector context) where
  good := good.push enters context
  atop := .enter (good.push_owed enters context)
  others f live _ := Function.update_of_ne (enters.apart f live) _ _
  own _ := .inl ⟨[], _, rfl, Function.update_self _ _ _, rfl⟩

variable {stack : Stack} {context : R} {now next : Sys R}

/-- What the handlers above write is no context of a frame below, but that of the task. -/
theorem Within.task (within : Within s stack context now) {f : Frame} (live : f ∈ s.frames)
    (task : now.cpu.taskCtx = some f.stackTrace) : s.cpu.taskCtx = some f.stackTrace := by
  obtain ⟨inner, frames, nested⟩ := within.atop
  have apart := within.good.apart
  rw [frames, List.map_append] at apart
  rcases nested_taskCtx nested task with old | ⟨g, above, same⟩
  · exact old
  · have left : f.stackTrace ∈ inner.map Frame.stackTrace := List.mem_map.mpr ⟨g, above, same⟩
    have right : f.stackTrace ∈ s.frames.map Frame.stackTrace := List.mem_map_of_mem live
    exact absurd rfl ((List.nodup_append.mp apart).2.2 _ left _ right)

/-- Inside an interrupt the handlers above write no context of their own either. -/
theorem Within.own_kept (within : Within s stack context now) (good : Good s)
    (inIsr : s.cpu.handlingIsr = true) {inner : List Stack}
    (stacking : now.frames.map Frame.stackTrace = inner ++ stack :: s.frames.map Frame.stackTrace) :
    now.cpu.taskCtx ≠ some stack := by
  intro task
  obtain ⟨above, frames, nested⟩ := within.atop
  have old : s.cpu.taskCtx = some stack := (nested_task_kept nested inIsr).2.symm.trans task
  obtain ⟨flag, below⟩ := good.nested
  rcases nested_taskCtx below old with boot | ⟨f, live, same⟩
  · cases boot
  · have apart := within.good.apart
    rw [stacking] at apart
    have mine := (List.nodup_cons.mp (List.nodup_append.mp apart).2.1).1
    exact mine (List.mem_map.mpr ⟨f, live, same⟩)

theorem Within.push (within : Within s stack context now) {kind : Kind} {vector : Vector}
    (deeper : s.frames.length < now.frames.length) (enters : Enters now kind vector) (r : R) :
    Within s stack context (now.push kind vector r) where
  good := within.good.push enters r
  atop := by
    have owed := within.good.push_owed enters r
    exact within.atop.move deeper (.enter owed)
  others f live other := by
    obtain ⟨inner, frames, -⟩ := within.atop
    have below : f ∈ now.frames := by
      rw [frames]
      exact List.mem_append_right inner live
    exact (Function.update_of_ne (enters.apart f below) _ _).trans (within.others f live other)
  own inIsr := by
    rcases within.own inIsr with ⟨inner, info, stacking, found, same⟩ | ⟨back, -⟩
    · refine .inl ⟨getIntStack vector :: inner, info, ?_, ?_, same⟩
      · exact congrArg (getIntStack vector :: ·) stacking
      · have live : stack ∈ now.frames.map Frame.stackTrace := by
          rw [stacking]
          exact List.mem_append_right inner List.mem_cons_self
        obtain ⟨g, above, here⟩ := List.mem_map.mp live
        rw [← here] at found ⊢
        exact (Function.update_of_ne (enters.apart g above) _ _).trans found
    · omega

theorem Within.goes (within : Within s stack context now) (good : Good s)
    (deeper : s.frames.length < now.frames.length) (allowed : Disciplined now act)
    (moved : step now act = some next) (enters : act.interrupted = none) :
    Within s stack context next := by
  obtain ⟨memory, stacking⟩ := step_goes_memory moved enters
  obtain ⟨good', move⟩ := within.good.step_goes allowed moved enters
  have inside : now.frames ≠ [] := by
    rintro empty
    simp [empty] at deeper
  refine ⟨good', within.atop.move deeper (move inside), fun f live other => ?_, fun inIsr => ?_⟩
  · rw [memory f.stackTrace fun task => other (within.task live task)]
    exact within.others f live other
  · rcases within.own inIsr with ⟨inner, info, shape, found, same⟩ | ⟨back, -⟩
    · have kept : next.memory stack = now.memory stack :=
        memory stack (within.own_kept good inIsr shape)
      rcases stacking with still | ⟨f, rest, top, frames, after, popped, resumed⟩
      · exact .inl ⟨inner, info, still.trans shape, kept.trans found, same⟩
      · rw [frames, List.map_cons] at shape
        cases inner with
        | nil =>
            obtain ⟨head, tail⟩ := List.cons.inj shape
            rw [head, found] at popped
            cases popped
            refine .inr ⟨?_, by rw [resumed, same]⟩
            rw [after]
            simpa using congrArg List.length tail
        | cons p inner =>
            obtain ⟨-, tail⟩ := List.cons.inj shape
            exact .inl ⟨inner, info, by rw [after]; exact tail, kept.trans found, same⟩
    · omega

theorem Within.step (within : Within s stack context now) (good : Good s)
    (deeper : s.frames.length < now.frames.length) (allowed : Disciplined now act)
    (moved : step now act = some next) : Within s stack context next := by
  cases enters : act.interrupted with
  | none => exact within.goes good deeper allowed moved enters
  | some r =>
      obtain ⟨kind, vector, -, enters', rfl⟩ := within.good.step_enters allowed moved enters
      cases act with
      | emulate r' =>
          -- it is not called inside an interrupt
          simp only [IsrDispatcher.step, Option.ite_none_right_eq_some] at moved
          rw [moved.1] at deeper
          exact absurd deeper (Nat.not_lt_zero _)
      | deliver vector' r' => exact within.push deeper enters' r
      | spurious r' => exact within.push deeper enters' r
      | nmi r' => exact within.push deeper enters' r
      | exception vector' r' => exact within.push deeper enters' r
      | dispatch => cases enters
      | ret value => cases enters
      | setInterrupts enable => cases enters
      | store r' => cases enters
      | setIsr vector' registered => cases enters

/-! ## The theorems -/

/-- The frames of a processor, and its data, at any point. -/
structure Law (s : Sys R) : Prop where
  /-- No two frames share a stack. -/
  apart : (s.frames.map Frame.stackTrace).Nodup
  /-- Every frame has the context that it interrupted on its stack, as the handlers made it. -/
  contexts : List.Forall₂ (Kept s.memory) s.frames s.saved
  /-- In service is what was delivered to a frame that has not acknowledged it. -/
  service : ∀ v, s.service v = true ↔
    ∃ f ∈ s.frames, f.kind = .external ∧ f.stage.isAcknowledged = false ∧ f.vector = v
  /-- Just the frames that the local APIC delivered to acknowledge, each its own vector. -/
  acknowledges : ∀ f rest, s.frames = f :: rest → f.stage = .closing →
    (f.external = true ↔ f.kind = .external) ∧
      (f.kind = .external → lapicEoi s.service = Function.update s.service f.vector false)
  outside : s.frames = [] → s.cpu = .boot
  /-- In the body of a handler over bodies of handlers, `task_ctx()` is the outermost context and
  `int_ctx` the innermost one. -/
  handling : (∀ f ∈ s.frames, f.stage.isOpen = true) →
    s.cpu.handlingIsr = !s.frames.isEmpty ∧
      s.cpu.taskCtx = s.frames.getLast?.map Frame.stackTrace ∧
      s.cpu.intCtx = s.frames.head?.map Frame.stackTrace
  /-- Where interrupts are on, only handlers of external interrupts are below, and the level of the
  processor is that of the last one. -/
  level : s.interrupts = true → (∀ f ∈ s.frames, f.Open) ∧ s.cpu.intl = levelOf s.frames

theorem Owed.acknowledges {f : Frame} {before : Seen} (owed : Owed f before s.seen)
    (closing : f.stage = .closing) :
    (f.external = true ↔ f.kind = .external) ∧
      (f.kind = .external → lapicEoi s.service = Function.update s.service f.vector false) := by
  refine ⟨owed.decided (by simp [closing, Stage.isDecided]), fun external => ?_⟩
  have service : s.service = f.shownService before.service := owed.service
  rw [Frame.shownService, closing, if_pos ⟨external, rfl⟩] at service
  rw [service, lapicEoi_update owed.fresh (owed.above external).2, Function.update_idem,
    ← owed.fresh, Function.update_eq_self]

theorem Good.law (good : Good s) : Law s where
  apart := good.apart
  contexts := good.memory
  service v := by
    obtain ⟨flag, nested⟩ := good.nested
    exact nested_served nested v
  acknowledges f rest frames closing := by
    obtain ⟨flag, nested⟩ := good.nested
    rw [frames] at nested
    obtain ⟨before, -, owed⟩ := nested
    exact owed.acknowledges closing
  outside frames := (good.outside frames).1
  handling opened := by
    obtain ⟨flag, nested⟩ := good.nested
    exact nested_handling nested opened
  level on := by
    obtain ⟨flag, nested⟩ := good.nested
    have layout := good.layout
    rw [on] at layout
    exact ⟨layout.open, nested_level nested layout.open⟩

/-- The handler of an interrupt lets a higher one in, which is about to put its level in place. -/
def nestedRun : List (Action ℕ) :=
  [.setIsr 64 true, .setIsr 100 true, .setInterrupts true, .deliver 64 1, .dispatch, .dispatch,
    .dispatch, .dispatch, .dispatch, .setInterrupts true, .deliver 100 2, .dispatch, .dispatch,
    .dispatch, .dispatch]

end Runs

end Twan.Kernel.IsrDispatcher
