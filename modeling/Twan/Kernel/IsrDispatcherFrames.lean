/-
# Twan.Kernel.IsrDispatcherFrames -- what a frame owes

A frame at a stage has changed the data of the processor and the interrupts in service in a known way
since it began (`Owed`), and every statement of the dispatcher keeps that account; `Layout` is how
frames can lie on each other, and what follows for the frames of a nest.
-/
import Twan.Kernel.IsrDispatcher

namespace Twan.Kernel.IsrDispatcher

set_option autoImplicit false

open Twan.Base

/-! ## What a frame owes -/

namespace Stage

/-- Between `this_cpu->int_ctx = stack_trace` and what puts it back. -/
def isInside : Stage → Bool
  | .entered | .loaded | .exiting => false
  | _ => true

/-- Between the two `if (!was_in_isr)`. -/
def isMarked : Stage → Bool
  | .entered | .loaded | .marking | .lowering | .leaving | .exiting => false
  | _ => true

/-- After `bool external = ...`. -/
def isDecided : Stage → Bool
  | .entered | .loaded | .marking | .deciding => false
  | _ => true

/-- Between `this_cpu->intl = intl` and what puts it back. -/
def isRaised : Stage → Bool
  | .handling | .returned | .closing | .unmarking | .lowering | .panicked => true
  | _ => false

/-- After `__acknowledge_interrupt()`. -/
def isAcknowledged : Stage → Bool
  | .unmarking | .lowering | .leaving | .exiting => true
  | _ => false

/-- Where interrupts may be enabled. -/
def isOpen : Stage → Bool
  | .handling | .returned => true
  | _ => false

end Stage

/-- What the frames of a processor change, and what they have to put back. -/
structure Seen where
  cpu : PerCpu
  service : Vector → Bool
  interrupts : Bool

def Seen.boot (interrupts : Bool) : Seen := ⟨.boot, fun _ => false, interrupts⟩

def Sys.seen {R : Type} (s : Sys R) : Seen := ⟨s.cpu, s.service, s.interrupts⟩

/-- The data of the processor where this frame is on top of what began in `before`. -/
def Frame.shownCpu (f : Frame) (before : PerCpu) : PerCpu where
  handlingIsr := before.handlingIsr || f.stage.isMarked
  intl := if f.stage.isRaised ∧ f.kind = .external then vectorToIntl f.vector else before.intl
  taskCtx :=
    if f.stage.isMarked ∧ before.handlingIsr = false then some f.stackTrace else before.taskCtx
  intCtx := if f.stage.isInside then some f.stackTrace else before.intCtx

/-- The interrupts in service there. -/
def Frame.shownService (f : Frame) (before : Vector → Bool) : Vector → Bool :=
  if f.kind = .external ∧ f.stage.isAcknowledged = false then Function.update before f.vector true
  else before

/-- What a frame owes to what it interrupted. -/
structure Owed (f : Frame) (before now : Seen) : Prop where
  cpu : now.cpu = f.shownCpu before.cpu
  service : now.service = f.shownService before.service
  flag : f.interrupts = before.interrupts
  locals : f.stage ≠ .entered → f.wasInIsr = before.cpu.handlingIsr ∧
    f.oldIntl = before.cpu.intl ∧ f.oldIntCtx = before.cpu.intCtx
  decided : f.stage.isDecided = true → (f.external = true ↔ f.kind = .external)
  taskless : before.cpu.handlingIsr = false → before.cpu.taskCtx = none
  fresh : before.service f.vector = false
  above : f.kind = .external → before.cpu.intl < vectorToIntl f.vector ∧
    ∀ v, before.service v = true → vectorToIntl v < vectorToIntl f.vector

/-! ## The end of an interrupt -/

theorem find?_of_pairwise {l : List Vector} (sorted : l.Pairwise (fun v w => w < v))
    {service : Vector → Bool} {v : Vector} (inside : v ∈ l) (served : service v = true)
    (highest : ∀ w, service w = true → w ≤ v) : l.find? service = some v := by
  induction l with
  | nil => cases inside
  | cons w l ih =>
      obtain ⟨first, rest⟩ := List.pairwise_cons.mp sorted
      rcases List.mem_cons.mp inside with rfl | later
      · exact List.find?_cons_of_pos served
      · have lower : v < w := first v later
        have out : ¬ service w = true := fun set => absurd (highest w set) (not_le.mpr lower)
        rw [List.find?_cons_of_neg out]
        exact ih rest later

/-- The end of an interrupt that is above all others in service is its own. -/
theorem lapicEoi_update {before : Vector → Bool} {v : Vector} (fresh : before v = false)
    (above : ∀ w, before w = true → vectorToIntl w < vectorToIntl v) :
    lapicEoi (Function.update before v true) = before := by
  have highest : inServiceHighest (Function.update before v true) = some v := by
    apply find?_of_pairwise (List.pairwise_reverse.mpr (List.pairwise_lt_finRange 256))
    · simp
    · exact Function.update_self v true before
    · intro w served
      by_cases same : w = v
      · exact le_of_eq same
      · rw [Function.update_of_ne same] at served
        have lower := above w served
        simp only [vectorToIntl] at lower
        rw [Fin.le_def]
        omega
  unfold lapicEoi
  rw [highest]
  simp only [Function.update_idem]
  rw [← fresh, Function.update_eq_self]

/-! ## One step of a frame -/

section Steps

variable {R : Type} {s t : Sys R} {f : Frame} {rest : List Frame} {before : Seen}

/-- The frame goes on to another statement. -/
theorem Owed.goOn {now : Seen} (owed : Owed f before s.seen) {stage : Stage}
    (cpu : now.cpu = { f with stage := stage : Frame }.shownCpu before.cpu)
    (service : now.service = { f with stage := stage : Frame }.shownService before.service)
    (started : f.stage ≠ .entered) (decided : stage.isDecided = true → f.stage.isDecided = true) :
    Owed { f with stage := stage } before now where
  cpu := cpu
  service := service
  flag := owed.flag
  locals _ := owed.locals started
  decided late := owed.decided (decided late)
  taskless := owed.taskless
  fresh := owed.fresh
  above := owed.above

/-- Only the statement after the handler acknowledges: the others leave what is in service as it was. -/
theorem Owed.unacknowledged {now : Seen} (owed : Owed f before s.seen) {g : Frame}
    (service : now.service = s.service) (same : g.kind = f.kind ∧ g.vector = f.vector)
    (stage : g.stage.isAcknowledged = f.stage.isAcknowledged) :
    now.service = g.shownService before.service := by
  have shown : s.service = f.shownService before.service := owed.service
  rw [service, shown, Frame.shownService, Frame.shownService, same.1, same.2, stage]

/-- The interrupt that is acknowledged is the one that is delivered. -/
theorem Owed.closing (owed : Owed f before s.seen) (stage : f.stage = .closing)
    (moved : s.dispatch f rest = some t) : ∃ g, t.frames = g :: rest ∧ Owed g before t.seen := by
  have cpu : s.cpu = f.shownCpu before.cpu := owed.cpu
  have service : s.service = f.shownService before.service := owed.service
  have same := owed.decided (by simp [stage, Stage.isDecided])
  simp only [Frame.shownCpu, Frame.shownService, stage] at cpu service
  simp only [Sys.dispatch, stage] at moved
  by_cases external : f.kind = .external
  · rw [if_pos (same.mpr external), Option.some.injEq] at moved
    subst moved
    refine ⟨_, rfl, owed.goOn ?_ ?_ (by simp [stage]) (by simp [stage, Stage.isDecided])⟩
    · simpa [Sys.top, Sys.seen, Frame.shownCpu, Stage.isMarked, Stage.isRaised, Stage.isInside]
        using cpu
    · simp only [external, Stage.isAcknowledged, and_self, if_true] at service
      simp [Sys.top, Sys.seen, Frame.shownService, Stage.isAcknowledged, service,
        lapicEoi_update owed.fresh (owed.above external).2]
  · rw [if_neg fun set => external (same.mp set)] at moved
    have unchanged : ∀ stage : Stage, Stage.closing.isMarked = stage.isMarked →
        Stage.closing.isInside = stage.isInside →
        s.seen.cpu = { f with stage := stage : Frame }.shownCpu before.cpu ∧
          s.seen.service = { f with stage := stage : Frame }.shownService before.service := by
      intro stage marked inside
      simp [Sys.seen, Frame.shownCpu, Frame.shownService, cpu, service, external, ← marked, ← inside]
    split_ifs at moved with panics <;> cases moved
    · obtain ⟨cpu, service⟩ := unchanged .panicked rfl rfl
      exact ⟨_, rfl, owed.goOn cpu service (by simp [stage]) fun _ => by simp [stage, Stage.isDecided]⟩
    · obtain ⟨cpu, service⟩ := unchanged .unmarking rfl rfl
      exact ⟨_, rfl, owed.goOn cpu service (by simp [stage]) fun _ => by simp [stage, Stage.isDecided]⟩

/-- What is decided is whether the local APIC delivered the interrupt: it is in service and above the
level, and of what is not delivered nothing is in service. -/
theorem Owed.deciding (owed : Owed f before s.seen) (stage : f.stage = .deciding)
    (moved : s.dispatch f rest = some t) : ∃ g, t.frames = g :: rest ∧ Owed g before t.seen := by
  have cpu : s.cpu = f.shownCpu before.cpu := owed.cpu
  have service : s.service = f.shownService before.service := owed.service
  simp only [Frame.shownCpu, Frame.shownService, stage] at cpu service
  simp only [Sys.dispatch, stage, Option.some.injEq] at moved
  subst moved
  obtain ⟨was, old, ctx⟩ := owed.locals (by simp [stage])
  refine ⟨_, rfl, ?_, ?_, owed.flag, fun _ => ⟨was, old, ctx⟩, fun _ => ?_, owed.taskless,
    owed.fresh, owed.above⟩
  · simpa [Sys.top, Sys.seen, Frame.shownCpu, Stage.isMarked, Stage.isRaised, Stage.isInside]
      using cpu
  · exact owed.unacknowledged rfl ⟨rfl, rfl⟩ (by rw [stage]; rfl)
  · by_cases external : f.kind = .external
    · have higher := (owed.above external).1
      simp [service, external, Frame.emulated, old, higher, Stage.isAcknowledged]
    · simp [service, external, owed.fresh]

/-- A statement of the dispatcher pays back part of what the frame owes; the last one is made where
nothing is owed any more. -/
theorem Owed.dispatch (owed : Owed f before s.seen)
    (there : ∀ info, s.memory f.stackTrace = some info → info.interrupts = f.interrupts)
    (moved : s.dispatch f rest = some t) :
    (∃ g, t.frames = g :: rest ∧ Owed g before t.seen) ∨ (t.frames = rest ∧ t.seen = before) := by
  have cpu : s.cpu = f.shownCpu before.cpu := owed.cpu
  simp only [Frame.shownCpu] at cpu
  cases stage : f.stage with
  | entered =>
      simp only [Sys.dispatch, stage, Option.some.injEq] at moved cpu
      subst moved
      refine .inl ⟨_, rfl, ?_, ?_, owed.flag, fun _ => ?_, ?_, owed.taskless, owed.fresh, owed.above⟩
      · simpa [Sys.top, Sys.seen, Frame.shownCpu, Stage.isMarked, Stage.isRaised, Stage.isInside]
          using cpu
      · exact owed.unacknowledged rfl ⟨rfl, rfl⟩ (by rw [stage]; rfl)
      · simp [cpu, Stage.isMarked, Stage.isRaised, Stage.isInside]
      · simp [Stage.isDecided]
  | loaded =>
      simp only [Sys.dispatch, stage, Option.some.injEq] at moved cpu
      subst moved
      refine .inl ⟨_, rfl, owed.goOn ?_ ?_ (by simp [stage]) (by simp [Stage.isDecided])⟩
      · simp [Sys.top, Sys.seen, Frame.shownCpu, cpu, Stage.isMarked, Stage.isRaised, Stage.isInside]
      · exact owed.unacknowledged rfl ⟨rfl, rfl⟩ (by rw [stage]; rfl)
  | marking =>
      simp only [Sys.dispatch, stage, Option.some.injEq] at moved cpu
      subst moved
      obtain ⟨was, -, -⟩ := owed.locals (by simp [stage])
      refine .inl ⟨_, rfl, owed.goOn ?_ (owed.unacknowledged ?_ ⟨rfl, rfl⟩ (by rw [stage]; rfl))
        (by simp [stage]) (by simp [Stage.isDecided])⟩
      · cases inIsr : before.cpu.handlingIsr <;>
          simp [Sys.top, Sys.seen, Frame.shownCpu, cpu, was, inIsr, Stage.isMarked, Stage.isRaised,
            Stage.isInside]
      · cases f.wasInIsr <;> rfl
  | deciding => exact .inl (owed.deciding stage moved)
  | raising =>
      simp only [Sys.dispatch, stage, Option.some.injEq] at moved cpu
      subst moved
      have same := owed.decided (by simp [stage, Stage.isDecided])
      refine .inl ⟨_, rfl, ?_, owed.unacknowledged ?_ ⟨rfl, rfl⟩ ?_, owed.flag,
        fun _ => owed.locals (by simp [stage]), fun _ => same, owed.taskless, owed.fresh, owed.above⟩
      · by_cases external : f.kind = .external <;>
          by_cases registered : s.isrTable f.vector <;>
            simp [Sys.top, Sys.seen, Frame.shownCpu, cpu, same, external, registered,
              Stage.isMarked, Stage.isRaised, Stage.isInside]
      · cases f.external <;> rfl
      · dsimp only
        rw [stage]
        split_ifs <;> rfl
  | handling => simp only [Sys.dispatch, stage, reduceCtorEq] at moved
  | returned =>
      simp only [Sys.dispatch, stage, Option.some.injEq] at moved cpu
      subst moved
      refine .inl ⟨_, rfl, owed.goOn ?_ ?_ (by simp [stage]) (by simp [stage, Stage.isDecided])⟩
      · simpa [Sys.top, Sys.seen, Frame.shownCpu, Stage.isMarked, Stage.isRaised, Stage.isInside]
          using cpu
      · exact owed.unacknowledged rfl ⟨rfl, rfl⟩ (by rw [stage]; rfl)
  | closing => exact .inl (owed.closing stage moved)
  | unmarking =>
      simp only [Sys.dispatch, stage, Option.some.injEq] at moved cpu
      subst moved
      obtain ⟨was, -, -⟩ := owed.locals (by simp [stage])
      refine .inl ⟨_, rfl, owed.goOn ?_ (owed.unacknowledged ?_ ⟨rfl, rfl⟩ (by rw [stage]; rfl))
        (by simp [stage]) (by simp [stage, Stage.isDecided])⟩
      · cases inIsr : before.cpu.handlingIsr
        · simp [Sys.top, Sys.seen, Frame.shownCpu, cpu, was, inIsr, owed.taskless inIsr,
            Stage.isMarked, Stage.isRaised, Stage.isInside]
        · simp [Sys.top, Sys.seen, Frame.shownCpu, cpu, was, inIsr, Stage.isMarked, Stage.isRaised,
            Stage.isInside]
      · cases f.wasInIsr <;> rfl
  | lowering =>
      simp only [Sys.dispatch, stage, Option.some.injEq] at moved cpu
      subst moved
      obtain ⟨-, old, -⟩ := owed.locals (by simp [stage])
      refine .inl ⟨_, rfl, owed.goOn ?_ ?_ (by simp [stage]) (by simp [stage, Stage.isDecided])⟩
      · simp [Sys.top, Sys.seen, Frame.shownCpu, cpu, old, Stage.isMarked, Stage.isRaised,
          Stage.isInside]
      · exact owed.unacknowledged rfl ⟨rfl, rfl⟩ (by rw [stage]; rfl)
  | leaving =>
      simp only [Sys.dispatch, stage, Option.some.injEq] at moved cpu
      subst moved
      obtain ⟨-, -, old⟩ := owed.locals (by simp [stage])
      refine .inl ⟨_, rfl, owed.goOn ?_ ?_ (by simp [stage]) (by simp [stage, Stage.isDecided])⟩
      · simp [Sys.top, Sys.seen, Frame.shownCpu, cpu, old, Stage.isMarked, Stage.isRaised,
          Stage.isInside]
      · exact owed.unacknowledged rfl ⟨rfl, rfl⟩ (by rw [stage]; rfl)
  | exiting =>
      have service : s.service = f.shownService before.service := owed.service
      simp only [Sys.dispatch, stage, Option.map_eq_some_iff] at moved cpu
      obtain ⟨info, found, rfl⟩ := moved
      refine .inr ⟨rfl, ?_⟩
      have nothing : s.cpu = before.cpu := by
        simpa [Stage.isMarked, Stage.isRaised, Stage.isInside] using cpu
      have none : s.service = before.service := by
        simpa [Frame.shownService, stage, Stage.isAcknowledged] using service
      simp only [Sys.seen, nothing, none, there info found, owed.flag]
  | panicked => simp only [Sys.dispatch, stage, reduceCtorEq] at moved

end Steps

/-! ## How the frames lie -/

/-- A frame over the frames `below`, where interrupts are on or off. -/
structure Frame.Placed (f : Frame) (below : List Frame) (interrupts : Bool) : Prop where
  stack : f.stackTrace = getIntStack f.vector
  /-- Only in the handler of an external interrupt are interrupts on. -/
  shut : interrupts = true → f.kind = .external ∧ f.stage.isOpen = true
  external : f.kind = .external →
    numReservedVectors ≤ f.vector.val ∧ f.vector ≠ spuriousIntVector ∧ f.interrupts = true
  nmi : f.kind = .nmi ↔ f.vector = nmi
  emulated : f.kind = .emulated → below = []

/-- Each frame was entered with the interrupt flag that it saved. -/
def Layout : Bool → List Frame → Prop
  | _, [] => True
  | interrupts, f :: below => f.Placed below interrupts ∧ Layout f.interrupts below

/-- A frame in the body of the handler of an external interrupt. -/
def Frame.Open (f : Frame) : Prop := f.kind = .external ∧ f.stage.isOpen = true

section Placed

variable {f : Frame} {frames : List Frame} {interrupts flag : Bool} {base now : Seen}

theorem Layout.mem (layout : Layout interrupts frames) (inside : f ∈ frames) :
    ∃ below i, f.Placed below i := by
  induction frames generalizing interrupts with
  | nil => cases inside
  | cons g below ih =>
      rcases List.mem_cons.mp inside with rfl | later
      · exact ⟨below, interrupts, layout.1⟩
      · exact ih layout.2 later

/-- Where interrupts are on, every frame is in the handler of an external interrupt. -/
theorem Layout.open (layout : Layout true frames) : ∀ f ∈ frames, f.Open := by
  induction frames with
  | nil => exact fun _ inside => absurd inside List.not_mem_nil
  | cons g below ih =>
      obtain ⟨placed, rest⟩ := layout
      have here : g.Open := placed.shut rfl
      rw [(placed.external here.1).2.2] at rest
      intro f inside
      rcases List.mem_cons.mp inside with rfl | later
      · exact here
      · exact ih rest f later

/-- What is in service was delivered to a frame that has not acknowledged it. -/
theorem nested_served (nested : Nested Owed (.boot flag) frames now) (v : Vector) :
    now.service v = true ↔
      ∃ f ∈ frames, f.kind = .external ∧ f.stage.isAcknowledged = false ∧ f.vector = v := by
  induction frames generalizing now with
  | nil =>
      cases nested
      simp [Seen.boot]
  | cons g below ih =>
      obtain ⟨before, rest, owed⟩ := nested
      rw [owed.service]
      unfold Frame.shownService
      by_cases mine : g.kind = .external ∧ g.stage.isAcknowledged = false
      · by_cases same : v = g.vector
        · subst same
          simp [mine]
        · rw [if_pos mine, Function.update_of_ne same, ih rest]
          simp [mine, Ne.symm same]
      · rw [if_neg mine, ih rest]
        constructor
        · rintro ⟨f, inside, facts⟩
          exact ⟨f, List.mem_cons_of_mem g inside, facts⟩
        · rintro ⟨f, inside, external, pending, here⟩
          rcases List.mem_cons.mp inside with rfl | later
          · exact absurd ⟨external, pending⟩ mine
          · exact ⟨f, later, external, pending, here⟩

theorem Stage.isOpen_spec {stage : Stage} (opened : stage.isOpen = true) :
    stage.isMarked = true ∧ stage.isInside = true ∧ stage.isRaised = true ∧
      stage.isAcknowledged = false := by
  cases stage <;> first | exact ⟨rfl, rfl, rfl, rfl⟩ | cases opened

/-- While all frames are in the bodies of their handlers, the data of the processor is about the
outermost one and the innermost one. -/
theorem nested_handling (nested : Nested Owed (.boot flag) frames now)
    (opened : ∀ f ∈ frames, f.stage.isOpen = true) :
    now.cpu.handlingIsr = !frames.isEmpty ∧
      now.cpu.taskCtx = frames.getLast?.map Frame.stackTrace ∧
      now.cpu.intCtx = frames.head?.map Frame.stackTrace := by
  induction frames generalizing now with
  | nil =>
      cases nested
      exact ⟨rfl, rfl, rfl⟩
  | cons g below ih =>
      obtain ⟨before, rest, owed⟩ := nested
      obtain ⟨inIsr, task, -⟩ := ih rest fun f inside => opened f (List.mem_cons_of_mem g inside)
      obtain ⟨marked, inside, -, -⟩ := Stage.isOpen_spec (opened g List.mem_cons_self)
      rw [owed.cpu]
      cases below with
      | nil => simp [Frame.shownCpu, marked, inside, inIsr]
      | cons h below =>
          simp [Frame.shownCpu, marked, inside, inIsr, task, List.getLast?_cons_cons]

/-- The level that handlers of external interrupts run at. -/
def levelOf : List Frame → ℤ
  | [] => -1
  | f :: _ => vectorToIntl f.vector

theorem nested_level (nested : Nested Owed (.boot flag) frames now)
    (opened : ∀ f ∈ frames, f.Open) : now.cpu.intl = levelOf frames := by
  cases frames with
  | nil =>
      cases nested
      rfl
  | cons g below =>
      obtain ⟨before, -, owed⟩ := nested
      obtain ⟨external, here⟩ := opened g List.mem_cons_self
      rw [owed.cpu]
      simp [Frame.shownCpu, levelOf, external, (Stage.isOpen_spec here).2.2.1]

/-- `task_ctx` is the context of a frame. -/
theorem nested_taskCtx (nested : Nested Owed base frames now) {stack : Stack}
    (task : now.cpu.taskCtx = some stack) :
    base.cpu.taskCtx = some stack ∨ ∃ f ∈ frames, f.stackTrace = stack := by
  induction frames generalizing now with
  | nil =>
      cases nested
      exact .inl task
  | cons g below ih =>
      obtain ⟨before, rest, owed⟩ := nested
      rw [owed.cpu, Frame.shownCpu] at task
      simp only at task
      split_ifs at task
      · exact .inr ⟨g, List.mem_cons_self, Option.some.inj task⟩
      · rcases ih rest task with old | ⟨f, inside, same⟩
        · exact .inl old
        · exact .inr ⟨f, List.mem_cons_of_mem g inside, same⟩

/-- Inside an interrupt the context of the task is left alone. -/
theorem nested_task_kept (nested : Nested Owed base frames now)
    (inIsr : base.cpu.handlingIsr = true) :
    now.cpu.handlingIsr = true ∧ now.cpu.taskCtx = base.cpu.taskCtx := by
  induction frames generalizing now with
  | nil =>
      cases nested
      exact ⟨inIsr, rfl⟩
  | cons g below ih =>
      obtain ⟨before, rest, owed⟩ := nested
      obtain ⟨still, same⟩ := ih rest
      rw [owed.cpu]
      simp [Frame.shownCpu, still, same]

theorem nested_taskless (nested : Nested Owed (.boot flag) frames now)
    (idle : now.cpu.handlingIsr = false) : now.cpu.taskCtx = none := by
  cases frames with
  | nil =>
      cases nested
      rfl
  | cons g below =>
      obtain ⟨before, -, owed⟩ := nested
      rw [owed.cpu] at idle ⊢
      simp only [Frame.shownCpu, Bool.or_eq_false_iff] at idle ⊢
      simp [idle.2, owed.taskless idle.1]

end Placed

end Twan.Kernel.IsrDispatcher
