/-
# Twan.Sync.RwLockIsr -- reader-writer locks that save the interrupt flag

`src/subsys/sync/rwlock.c`, `rw_lock_read_isr_save`, `rw_unlock_read_isr_restore` and the two for
writers; `vrw_lock_read_isr_save` and its siblings in `src/subsys/twanvisor/vsched/vsync.c` are the
same calls.  A lock reads the flags of its CPU and disables interrupts, takes the lock of
`Twan.Sync.RwLock`, and stores the flags in `lock->flags`; an unlock reads `lock->flags`, gives the
lock back and writes the flags.

`lock->flags` is one field for all readers.  `nested_read_flags` is a run that ends with
interrupts disabled though they were enabled at the lock; `isr_flags_restored` is what holds of
every run in which no store replaces the flag of another holder by a different one.
-/
import Twan.Sync.RwLock

namespace Twan.Sync.RwLockIsr

set_option autoImplicit false
set_option linter.unusedSectionVars false

open Twan.Base

/-! ## The code -/

/-- `rflags_t`. -/
abbrev Flags : Type := BitVec 64

/-- `flags_is_interrupts_enabled`: `IF` is bit 9. -/
def interruptsEnabled (flags : Flags) : Bool := flags.getLsbD 9

/-- `disable_interrupts`. -/
def disableInterrupts (flags : Flags) : Flags := flags &&& ~~~(1#64 <<< 9)

inductive Kind where
  | read
  | write
  deriving DecidableEq

/-- Where an acquisition is.  The code keeps no copy of the flags of a holder: those that stand at
`holding` are there to say whose they are. -/
inductive IsrPc where
  | idle
  /-- `__flags` is read and interrupts are disabled; in `__rw_lock_read` or `__rw_lock_write`. -/
  | locking (kind : Kind) (flags : Flags)
  /-- `*flags = __flags` is next. -/
  | storing (flags : Flags)
  | holding (flags : Flags)
  /-- `lock->flags` is read; in `__rw_unlock_read` or `__rw_unlock_write`. -/
  | unlocking (flags : Flags)
  /-- `write_flags(flags)` is next. -/
  | restoring (flags : Flags)
  deriving DecidableEq

/-- One `struct rwlock_isr`, its acquisitions `C` and the CPUs that make them.  A CPU that nests
its acquisitions has several on its stack. -/
structure Sys (Cpu C : Type) where
  rw : RwLock.Sys C
  flags : Flags
  rflags : Cpu → Flags
  stack : Cpu → List C
  pc : C → IsrPc

inductive Action (Cpu C : Type) where
  /-- A CPU outside the calls sets its flags. -/
  | setFlags (p : Cpu) (flags : Flags)
  /-- `read_flags_and_disable_interrupts`. -/
  | disable (kind : Kind) (c : C)
  /-- An atomic step of `__rw_lock_read` and its siblings. -/
  | rw (act : RwLock.Action C)
  /-- `*flags = __flags`. -/
  | store (c : C)
  /-- The argument `lock->flags` of the unlock. -/
  | load (c : C)
  /-- `write_flags(flags)`. -/
  | restore (c : C)
  deriving DecidableEq

/-- The calls of the lock below that are made here. -/
def IsrPc.calls {C : Type} : IsrPc → RwLock.Action C → Bool
  | .locking .read _, .lockRead _ | .locking .read _, .readRin _ => true
  | .locking .write _, .lockWrite _ | .locking .write _, .readWout _
  | .locking .write _, .addRin _ | .locking .write _, .readRout _ => true
  | .unlocking _, .unlockRead _ | .unlocking _, .unlockWrite _ | .unlocking _, .incWout _ => true
  | _, _ => false

/-- A call of the lock below returns when it has the lock, or has given it back. -/
def IsrPc.after : IsrPc → RwLock.Pc → IsrPc
  | .locking _ flags, .reading | .locking _ flags, .writing => .storing flags
  | .unlocking flags, .idle => .restoring flags
  | pc, _ => pc

def IsrPc.isHolding : IsrPc → Bool
  | .holding _ => true
  | _ => false

section Model

variable {Cpu C : Type} [DecidableEq Cpu] [DecidableEq C] (cpu : C → Cpu)

def Sys.initial (rflags : Cpu → Flags) : Sys Cpu C :=
  ⟨.initial, 0#64, rflags, fun _ => [], fun _ => .idle⟩

def Sys.goto (s : Sys Cpu C) (c : C) (pc : IsrPc) : Sys Cpu C :=
  { s with pc := Function.update s.pc c pc }

/-- The CPU is in none of the calls: it holds nothing, or is in the section of its last
acquisition. -/
def Sys.outside (s : Sys Cpu C) (p : Cpu) : Bool :=
  match s.stack p with
  | [] => true
  | c :: _ => (s.pc c).isHolding

/-- One step; `none` when the CPU is not at that step. -/
def step (s : Sys Cpu C) : Action Cpu C → Option (Sys Cpu C)
  | .setFlags p flags =>
      if s.outside p then some { s with rflags := Function.update s.rflags p flags } else none
  | .disable kind c =>
      if s.outside (cpu c) ∧ s.pc c = .idle then
        let flags := s.rflags (cpu c)
        some { s.goto c (.locking kind flags) with
          rflags := Function.update s.rflags (cpu c) (disableInterrupts flags)
          stack := Function.update s.stack (cpu c) (c :: s.stack (cpu c)) }
      else none
  | .rw act =>
      let c := act.caller
      if (s.stack (cpu c)).head? = some c ∧ (s.pc c).calls act then
        (RwLock.step s.rw act).map fun rw => { s.goto c ((s.pc c).after (rw.pc c)) with rw := rw }
      else none
  | .store c =>
      match s.pc c with
      | .storing flags =>
          if (s.stack (cpu c)).head? = some c then
            some { s.goto c (.holding flags) with flags := flags }
          else none
      | _ => none
  | .load c =>
      if (s.stack (cpu c)).head? = some c ∧ (s.pc c).isHolding then
        some (s.goto c (.unlocking s.flags))
      else none
  | .restore c =>
      match s.pc c with
      | .restoring flags =>
          if (s.stack (cpu c)).head? = some c then
            some { s.goto c .idle with
              rflags := Function.update s.rflags (cpu c) flags
              stack := Function.update s.stack (cpu c) (s.stack (cpu c)).tail }
          else none
      | _ => none

/-- Every unlock leaves the interrupt flag of its CPU as it was at the matching lock: the run is
cut before the lock of `c` and ends with its unlock, and no other unlock of `c` lies between. -/
def Restored (s : Sys Cpu C) (run : List (Action Cpu C)) : Prop :=
  ∀ (first middle : List (Action Cpu C)) (kind : Kind) (c : C) (u t : Sys Cpu C),
    run = first ++ .disable kind c :: (middle ++ [.restore c]) → .restore c ∉ middle →
    exec (step cpu) s first = some u → exec (step cpu) s run = some t →
    interruptsEnabled (t.rflags (cpu c)) = interruptsEnabled (u.rflags (cpu c))

/-- A store replaces the flags of the other holders by flags with the same interrupt flag. -/
def Agree (s : Sys Cpu C) : Action Cpu C → Prop
  | .store c => ∀ f d g, s.pc c = .storing f → s.pc d = .holding g → d ≠ c →
      interruptsEnabled g = interruptsEnabled f
  | _ => True

end Model

/-! ## What a step can do -/

section Steps

variable {Cpu C : Type} [DecidableEq Cpu] [DecidableEq C] {cpu : C → Cpu} {s t u : Sys Cpu C}
  {act : Action Cpu C}

/-- What a step does to where its acquisition is, with the flags of the lock before and after. -/
inductive Move (before after : Flags) : IsrPc → IsrPc → Prop
  | disable (kind : Kind) (flags : Flags) (same : after = before) :
      Move before after .idle (.locking kind flags)
  | call (pc : IsrPc) (rw : RwLock.Pc) (same : after = before) : Move before after pc (pc.after rw)
  | store (flags : Flags) (stored : after = flags) :
      Move before after (.storing flags) (.holding flags)
  | load (flags : Flags) (same : after = before) :
      Move before after (.holding flags) (.unlocking before)

/-- A step leaves every acquisition where it is, or moves one of them. -/
theorem step_cases (moved : step cpu s act = some t) :
    (t.pc = s.pc ∧ t.flags = s.flags) ∨
    (∃ c new, t.pc = Function.update s.pc c new ∧ Move s.flags t.flags (s.pc c) new ∧
      ∀ f, s.pc c = .storing f → new = .holding f → act = .store c) ∨
    (∃ c, act = .restore c ∧ t.pc = Function.update s.pc c .idle ∧ t.flags = s.flags) := by
  cases act with
  | setFlags p flags =>
      obtain ⟨_, ⟨⟩⟩ := Option.ite_none_right_eq_some.mp moved
      exact .inl ⟨rfl, rfl⟩
  | disable kind c =>
      obtain ⟨⟨_, idle⟩, ⟨⟩⟩ := Option.ite_none_right_eq_some.mp moved
      refine .inr (.inl ⟨c, _, rfl, ?_, fun f storing => ?_⟩)
      · rw [idle]
        exact .disable kind _ rfl
      · cases idle.symm.trans storing
  | rw call =>
      obtain ⟨_, called⟩ := Option.ite_none_right_eq_some.mp moved
      obtain ⟨rw, _, rfl⟩ := Option.map_eq_some_iff.mp called
      refine .inr (.inl ⟨call.caller, _, rfl, .call _ _ rfl, fun f storing holding => ?_⟩)
      rw [storing] at holding
      cases holding
  | store c =>
      simp only [step] at moved
      split at moved
      · rename_i flags storing
        obtain ⟨_, ⟨⟩⟩ := Option.ite_none_right_eq_some.mp moved
        refine .inr (.inl ⟨c, _, rfl, ?_, fun _ _ _ => rfl⟩)
        rw [storing]
        exact .store flags rfl
      · cases moved
  | load c =>
      obtain ⟨⟨_, holding⟩, ⟨⟩⟩ := Option.ite_none_right_eq_some.mp moved
      refine .inr (.inl ⟨c, _, rfl, ?_, fun f _ same => by cases same⟩)
      cases pc : s.pc c with
      | holding flags => exact .load flags rfl
      | _ => rw [pc] at holding; cases holding
  | restore c =>
      simp only [step] at moved
      split at moved
      · obtain ⟨_, ⟨⟩⟩ := Option.ite_none_right_eq_some.mp moved
        exact .inr (.inr ⟨c, rfl, rfl, rfl⟩)
      · cases moved

/-! ## The flags of the holders -/

/-- The field of the lock has the interrupt flag of every holder. -/
def Shared (s : Sys Cpu C) : Prop :=
  ∀ d g, s.pc d = .holding g → interruptsEnabled s.flags = interruptsEnabled g

/-- The flags an acquisition has at hand have this interrupt flag. -/
def IsrPc.Carries (enabled : Bool) : IsrPc → Prop
  | .idle => False
  | .locking _ g | .storing g | .holding g | .unlocking g | .restoring g =>
      interruptsEnabled g = enabled

theorem carries_after {enabled : Bool} {pc : IsrPc} (rw : RwLock.Pc) (carries : pc.Carries enabled) :
    (pc.after rw).Carries enabled := by
  cases pc <;> cases rw <;> exact carries

theorem after_holding {pc : IsrPc} {rw : RwLock.Pc} {g : Flags} (holding : pc.after rw = .holding g) :
    pc = .holding g := by
  cases pc <;> cases rw <;> first | exact holding | cases holding

theorem step_shared (shared : Shared s) (agree : Agree s act) (moved : step cpu s act = some t) :
    Shared t := by
  intro d g holding
  obtain ⟨pc, flags⟩ | ⟨c, new, pc, move, stores⟩ | ⟨c, rfl, pc, flags⟩ := step_cases moved
  · rw [flags]
    exact shared d g (pc ▸ holding)
  · rw [pc] at holding
    generalize from_ : s.pc c = old at move
    by_cases here : d = c
    · subst here
      rw [Function.update_self] at holding
      cases move with
      | disable kind flags same => cases holding
      | call old rw same =>
          rw [same]
          exact shared d g (from_.trans (after_holding holding))
      | store flags stored => cases holding; rw [stored]
      | load flags same => cases holding
    · rw [Function.update_of_ne here] at holding
      cases move with
      | disable kind flags same => rw [same]; exact shared d g holding
      | call old rw same => rw [same]; exact shared d g holding
      | store flags stored =>
          have isStore := stores flags from_ rfl
          subst isStore
          rw [stored]
          exact (agree flags d g from_ holding here).symm
      | load flags same => rw [same]; exact shared d g holding
  · rw [pc] at holding
    by_cases here : d = c
    · subst here
      rw [Function.update_self] at holding
      cases holding
    · rw [Function.update_of_ne here] at holding
      rw [flags]
      exact shared d g holding

theorem step_carries {enabled : Bool} {c : C} (shared : Shared s)
    (carries : (s.pc c).Carries enabled) (other : act ≠ .restore c)
    (moved : step cpu s act = some t) : (t.pc c).Carries enabled := by
  obtain ⟨pc, _⟩ | ⟨d, new, pc, move, _⟩ | ⟨d, rfl, pc, _⟩ := step_cases moved
  · rw [pc]
    exact carries
  · rw [pc]
    by_cases here : c = d
    · subst here
      rw [Function.update_self]
      generalize from_ : s.pc c = old at move carries
      cases move with
      | disable kind flags same => cases carries
      | call old rw same => exact carries_after rw carries
      | store flags stored => exact carries
      | load flags same => exact (shared c flags from_).trans carries
    · rw [Function.update_of_ne here]
      exact carries
  · rw [pc, Function.update_of_ne fun here => other (by rw [here])]
    exact carries

/-- **Where no store replaces the flag of another holder by a different one, every unlock leaves
the interrupt flag as it was at the matching lock.** -/
theorem isr_flags_restored (rflags : Cpu → Flags) (run : List (Action Cpu C))
    (agree : Along Agree (step cpu) (.initial rflags) run) :
    Restored cpu (.initial rflags) run := by
  rintro first middle kind c u t rfl none before ran
  obtain ⟨v, same, rest⟩ := exec_split ran
  cases before.symm.trans same
  obtain ⟨w, locked, after⟩ := exec_cons rest
  obtain ⟨x, within, last⟩ := exec_split after
  obtain ⟨y, restored, ⟨⟩⟩ := exec_cons last
  obtain ⟨allowed, later⟩ := agree.split before
  have start : Shared (.initial rflags : Sys Cpu C) := fun d g holding => by cases holding
  have shared : Shared u := exec_invariant_along (fun _ _ _ => step_shared) start allowed before
  have carries : (w.pc c).Carries (interruptsEnabled (u.rflags (cpu c))) := by
    obtain ⟨_, ⟨⟩⟩ := Option.ite_none_right_eq_some.mp locked
    simp [Sys.goto, IsrPc.Carries]
  have others : ∀ a ∈ middle, a ≠ .restore c := by
    rintro a inside rfl
    exact none inside
  obtain ⟨_, kept⟩ := exec_invariant_along
    (I := fun s => Shared s ∧ (s.pc c).Carries (interruptsEnabled (u.rflags (cpu c))))
    (fun _ _ _ good allowed moved => ⟨step_shared good.1 allowed.1 moved,
      step_carries good.1 good.2 allowed.2 moved⟩)
    ⟨step_shared shared later.1 locked, carries⟩
    (((later.2 w locked).split within).1.and_mem others) within
  simp only [step] at restored
  split at restored
  · rename_i flags restoring
    obtain ⟨_, ⟨⟩⟩ := Option.ite_none_right_eq_some.mp restored
    rw [restoring] at kept
    simpa [IsrPc.Carries] using kept
  · cases restored

end Steps

/-- Flags with interrupts enabled. -/
def enabledFlags : Flags := 0x202#64

/-- Two CPUs that both have interrupts enabled read at the same time. -/
def sharedRun : List (Action (Fin 2) (Fin 2)) :=
  [.disable .read 0, .rw (.lockRead 0), .store 0, .disable .read 1, .rw (.lockRead 1), .store 1,
    .load 0, .rw (.unlockRead 0), .restore 0]

theorem isr_flags_restored_shared :
    Along Agree (step id) (.initial fun _ => enabledFlags) sharedRun ∧
      Restored id (.initial fun _ => enabledFlags) sharedRun := by
  have agree : Along Agree (step id) (.initial fun _ => enabledFlags) sharedRun := by
    refine .cons trivial rfl (.cons trivial rfl (.cons (fun f d g storing holding other => ?_) rfl
      (.cons trivial rfl (.cons trivial rfl (.cons (fun f d g storing holding other => ?_) rfl
        (.cons trivial rfl (.cons trivial rfl (.cons trivial rfl trivial))))))))
    · obtain rfl : d = 1 := by omega
      cases holding
    · obtain rfl : d = 0 := by omega
      cases holding
      cases storing
      rfl
  exact ⟨agree, isr_flags_restored _ _ agree⟩

/-- One CPU reads twice, as `vemu_set_route` does through `vpartition_get`. -/
def nestedRun : List (Action Unit (Fin 2)) :=
  [.disable .read 0, .rw (.lockRead 0), .store 0, .disable .read 1, .rw (.lockRead 1), .store 1,
    .load 1, .rw (.unlockRead 1), .restore 1, .load 0, .rw (.unlockRead 0), .restore 0]

/-- The inner lock stores the flags with interrupts disabled, and the outer unlock writes them. -/
theorem nested_read_flags :
    ¬ ∀ run : List (Action Unit (Fin 2)),
      Restored (fun _ => ()) (.initial fun _ => enabledFlags) run := by
  intro restored
  have same := restored nestedRun [] (nestedRun.tail.take 10) .read 0 _ _ rfl (by decide) rfl rfl
  exact absurd same (by decide)

end Twan.Sync.RwLockIsr
