/-
# Twan.Vportal.Cr8 -- the task priority of a vcpu

The level that pending interrupts are compared with is `delivery.intl`; the guest sets it through
CR8.  Which moves to and from CR8 exit is up to the processor-based controls: `__do_virtualise_core`
of `vmain.c` has the moves to CR8 exit for root, `vcpu_entry` of `vcreate.c` the moves from CR8 for
the other vcpus.  A move that exits is handled by `vexit_cr_access`, which takes it for a move to
CR8; any other is the processor's.

Beside the level and CR8 a state has the last value that was moved to CR8, and whether a move from
CR8 has changed something.  `level_follows_iff`: the level of root follows CR8, the level of another
vcpu as long as nothing but 0 is moved.
-/
import Twan.Vportal.Exits

namespace Twan.Vportal

set_option autoImplicit false

open Twan.Base Twan.Base.Prog Twan.Vemulate

/-- The controls of `vmx_procbased_ctls_t` on CR8. -/
structure ProcBased where
  cr8LoadExiting : Bool
  cr8StoreExiting : Bool

/-- `proc` in `__do_virtualise_core` and in `vcpu_entry`. -/
def procBased (root : Bool) : ProcBased :=
  if root then { cr8LoadExiting := true, cr8StoreExiting := false }
  else { cr8LoadExiting := false, cr8StoreExiting := true }

inductive Direction where
  | toCr8
  | fromCr8
  deriving DecidableEq

def Direction.exits (proc : ProcBased) : Direction → Bool
  | .toCr8 => proc.cr8LoadExiting
  | .fromCr8 => proc.cr8StoreExiting

/-- A move, with the registers and whatever else an exit finds then. -/
structure Move where
  direction : Direction
  gpr : Fin 16
  exit : Exit

namespace Move

variable (a : Move)

/-- What the register has. -/
def operand : BitVec 64 := Vportal.operand a.exit.ctx.vmcs a.exit.vregs a.gpr

/-- `cr_access_qualification_t`: the control register, the access type and the register. -/
def qualification : BitVec 64 :=
  BitVec.ofNat 64 (8 + 16 * (match a.direction with
    | .toCr8 => 0
    | .fromCr8 => 1) + 256 * a.gpr)

end Move

structure Priority where
  intl : BitVec 4
  cr8 : BitVec 64
  last : BitVec 4
  disturbed : Bool

namespace Priority

/-- The level of root is read from CR8 before the launch; of another vcpu both are 0. -/
def launch (root : Bool) (tpr : BitVec 4) : Priority :=
  let intl := if root then tpr else 0
  { intl := intl, cr8 := intl.setWidth 64, last := intl, disturbed := false }

/-- What the exit of a move finds. -/
def found (s : Priority) (a : Move) : Ctx :=
  { a.exit.ctx with
    vmcs := Function.update a.exit.ctx.vmcs .roExitQualification a.qualification
    cr8 := s.cr8
    visr := { a.exit.ctx.visr with intl := s.intl } }

/-- What `vexit_cr_access` leaves. -/
def handled (s : Priority) (a : Move) : Ctx :=
  (run (answer a.exit.world) (vexitCrAccess a.exit.site a.exit.vregs) (s.found a)).2

/-- The level and CR8 after a move.  The processor refuses a value with a reserved bit. -/
def moved (proc : ProcBased) (s : Priority) (a : Move) : BitVec 4 × BitVec 64 :=
  if a.direction.exits proc then ((s.handled a).visr.intl, (s.handled a).cr8)
  else
    match a.direction with
    | .toCr8 => if cr8Valid a.operand then (s.intl, a.operand) else (s.intl, s.cr8)
    | .fromCr8 => (s.intl, s.cr8)

/-- Every move can be made. -/
def step (proc : ProcBased) (s : Priority) (a : Move) : Option Priority :=
  let after := s.moved proc a
  some
    { intl := after.1
      cr8 := after.2
      last := if a.direction = .toCr8 ∧ cr8Valid a.operand then a.operand.setWidth 4 else s.last
      disturbed := s.disturbed ||
        (decide (a.direction = .fromCr8) && decide (after ≠ (s.intl, s.cr8))) }

/-- The level is the last value moved to CR8, and the moves from CR8 have changed nothing. -/
def Follows (s : Priority) : Prop := s.intl = s.last ∧ s.disturbed = false

instance (s : Priority) : Decidable s.Follows := inferInstanceAs (Decidable (_ ∧ _))

end Priority

/-! ## What the handler does -/

theorem crOf_qualification (a : Move) : crOf (a.qualification.setWidth 32) = 8 := by
  have all : ∀ (type : Fin 2) (gpr : Fin 16),
      crOf ((BitVec.ofNat 64 (8 + 16 * type.val + 256 * gpr.val)).setWidth 32) = 8 := by decide
  unfold Move.qualification
  cases a.direction with
  | toCr8 => exact all 0 a.gpr
  | fromCr8 => exact all 1 a.gpr

theorem gprOf_qualification (a : Move) : gprOf (a.qualification.setWidth 32) = a.gpr := by
  have all : ∀ (type : Fin 2) (gpr : Fin 16),
      gprOf ((BitVec.ofNat 64 (8 + 16 * type.val + 256 * gpr.val)).setWidth 32) = gpr := by decide
  unfold Move.qualification
  cases a.direction with
  | toCr8 => exact all 0 a.gpr
  | fromCr8 => exact all 1 a.gpr

theorem run_crMove_cr8 (w : World) (site : Site) (val : BitVec 64) (s : Ctx) :
    (run (answer w) (crMove site val 8) s).2.visr.intl =
        (if cr8Valid val then val.setWidth 4 else s.visr.intl) ∧
      (run (answer w) (crMove site val 8) s).2.cr8 = if cr8Valid val then val else s.cr8 := by
  cases valid : cr8Valid val with
  | true =>
      simp only [crMove, valid]
      exact ⟨rfl, rfl⟩
  | false =>
      simp only [crMove, valid]
      exact ⟨rfl, rfl⟩

/-- `vexit_cr_access` handles either direction as a move to CR8. -/
theorem handled_spec (s : Priority) (a : Move) :
    (s.handled a).visr.intl = (if cr8Valid a.operand then a.operand.setWidth 4 else s.intl) ∧
      (s.handled a).cr8 = if cr8Valid a.operand then a.operand else s.cr8 := by
  have qual : (s.found a).vmcs .roExitQualification = a.qualification := by
    simp [Priority.found]
  have begun : run (answer a.exit.world) (vexitCrAccess a.exit.site a.exit.vregs) (s.found a) =
      run (answer a.exit.world) (crMove a.exit.site a.operand 8)
        { s.found a with preemptionCount := (s.found a).preemptionCount - 1 } := by
    simp only [vexitCrAccess, run_bind, run_vmread32, run_enable, run_vgprVal, qual,
      crOf_qualification, gprOf_qualification]
    rfl
  unfold Priority.handled
  rw [begun]
  exact run_crMove_cr8 a.exit.world a.exit.site a.operand _

theorem cr8Valid_iff (val : BitVec 64) : cr8Valid val = true ↔ val.toNat < 16 := by
  unfold cr8Valid
  rw [beq_iff_eq]
  constructor
  · intro clear
    have high := congrArg BitVec.toNat clear
    simp only [BitVec.extractLsb'_toNat, Nat.shiftRight_eq_div_pow] at high
    have bound := val.isLt
    have zero : (0 : BitVec 60).toNat = 0 := rfl
    omega
  · intro small
    apply BitVec.eq_of_toNat_eq
    simp only [BitVec.extractLsb'_toNat, Nat.shiftRight_eq_div_pow]
    have zero : (0 : BitVec 60).toNat = 0 := rfl
    omega

/-- A value that CR8 can have is its four bits. -/
theorem setWidth_of_valid {val : BitVec 64} (valid : cr8Valid val = true) :
    (val.setWidth 4).setWidth 64 = val := by
  have small := (cr8Valid_iff val).mp valid
  apply BitVec.eq_of_toNat_eq
  simp only [BitVec.toNat_setWidth]
  omega

namespace Priority

variable {s t : Priority} {a : Move}

/-- A move that exits moves a valid value to CR8, whatever its direction. -/
theorem moved_exits {proc : ProcBased} (exits : a.direction.exits proc = true) :
    s.moved proc a = if cr8Valid a.operand then (a.operand.setWidth 4, a.operand)
      else (s.intl, s.cr8) := by
  obtain ⟨intl, cr8⟩ := handled_spec s a
  unfold moved
  rw [if_pos exits, intl, cr8]
  split_ifs <;> rfl

/-! ## Root -/

/-- Level and CR8 are what was last moved. -/
structure Agrees (s : Priority) : Prop where
  intl : s.intl = s.last
  cr8 : s.cr8 = s.last.setWidth 64
  undisturbed : s.disturbed = false

theorem launch_agrees (root : Bool) (tpr : BitVec 4) : (launch root tpr).Agrees := ⟨rfl, rfl, rfl⟩

theorem step_root (agrees : s.Agrees) (stepped : step (procBased true) s a = some t) :
    t.Agrees := by
  obtain rfl := Option.some.inj stepped
  cases way : a.direction with
  | toCr8 =>
      have exits : a.direction.exits (procBased true) = true := by
        rw [way]
        rfl
      cases valid : cr8Valid a.operand with
      | true =>
          have same := setWidth_of_valid valid
          refine ⟨?_, ?_, ?_⟩ <;> simp [moved_exits exits, valid, same, agrees.undisturbed]
      | false =>
          refine ⟨?_, ?_, ?_⟩ <;>
            simp [moved_exits exits, valid, agrees.undisturbed, agrees.intl, agrees.cr8]
  | fromCr8 =>
      have stays : s.moved (procBased true) a = (s.intl, s.cr8) := by
        unfold moved
        rw [way]
        rfl
      refine ⟨?_, ?_, ?_⟩ <;> simp [stays, agrees.undisturbed, agrees.intl, agrees.cr8]

/-! ## The other vcpus -/

/-- Nothing but 0 has been moved. -/
structure AtZero (s : Priority) : Prop where
  intl : s.intl = 0
  cr8 : s.cr8 = 0
  last : s.last = 0
  undisturbed : s.disturbed = false

theorem launch_atZero (tpr : BitVec 4) : (launch false tpr).AtZero := ⟨rfl, rfl, rfl, rfl⟩

theorem moved_store (way : a.direction = .toCr8) : s.moved (procBased false) a =
    if cr8Valid a.operand then (s.intl, a.operand) else (s.intl, s.cr8) := by
  unfold moved
  rw [way]
  rfl

theorem step_zero (zero : s.AtZero) (harmless : cr8Valid a.operand = true → a.operand = 0)
    (stepped : step (procBased false) s a = some t) : t.AtZero := by
  obtain rfl := Option.some.inj stepped
  have stays : s.moved (procBased false) a = (0, 0) := by
    cases way : a.direction with
    | toCr8 =>
        rw [moved_store way]
        split_ifs with valid
        · rw [zero.intl, harmless valid]
        · rw [zero.intl, zero.cr8]
    | fromCr8 =>
        rw [moved_exits (by rw [way]; rfl)]
        split_ifs with valid
        · rw [harmless valid]
          rfl
        · rw [zero.intl, zero.cr8]
  have last : (if a.direction = .toCr8 ∧ cr8Valid a.operand then a.operand.setWidth 4
      else s.last) = 0 := by
    split_ifs with valid
    · rw [harmless valid.2]
      rfl
    · exact zero.last
  refine ⟨?_, ?_, last, ?_⟩ <;> simp [stays, zero.undisturbed, zero.intl, zero.cr8]

/-- A move of another value is noticed: the level does not follow it, or it is taken for one. -/
theorem step_nonzero (zero : s.AtZero) (stepped : step (procBased false) s a = some t)
    (follows : t.Follows) (valid : cr8Valid a.operand = true) : a.operand = 0 := by
  obtain rfl := Option.some.inj stepped
  obtain ⟨level, undisturbed⟩ := follows
  cases way : a.direction with
  | toCr8 =>
      simp only [moved_store way, valid, if_true, way, and_self, zero.intl] at level
      rw [← setWidth_of_valid valid, ← level]
      rfl
  | fromCr8 =>
      have exits : a.direction.exits (procBased false) = true := by
        rw [way]
        rfl
      simp only [moved_exits exits, valid, if_true, zero.undisturbed, zero.intl, zero.cr8, way,
        decide_true, Bool.false_or, Bool.true_and, decide_eq_false_iff_not, ne_eq, not_not,
        Prod.mk.injEq] at undisturbed
      exact undisturbed.2

theorem AtZero.follows (zero : s.AtZero) : s.Follows :=
  ⟨zero.intl.trans zero.last.symm, zero.undisturbed⟩

theorem Agrees.follows (agrees : s.Agrees) : s.Follows := ⟨agrees.intl, agrees.undisturbed⟩

theorem exec_moves (proc : ProcBased) (s : Priority) (run : List Move) :
    ∃ t, exec (step proc) s run = some t := by
  induction run generalizing s with
  | nil => exact ⟨s, rfl⟩
  | cons a run ih => exact ih _

theorem along_moves {proc : ProcBased} {p : Move → Prop} {run : List Move}
    (along : Along (fun _ a => p a) (step proc) s run) : ∀ a ∈ run, p a := by
  induction run generalizing s with
  | nil => exact fun _ absent => by cases absent
  | cons a run ih =>
      intro b inside
      rcases List.mem_cons.mp inside with rfl | later
      · exact along.1
      · exact ih (along.2 _ rfl) b later

/-- **The level follows CR8** throughout a run of moves, with any registers and values: for root
always, for another vcpu exactly when the registers of the moves have 0 or what CR8 cannot have. -/
theorem level_follows_iff (root : Bool) (tpr : BitVec 4) (run : List Move) :
    (∀ first second s, run = first ++ second →
      exec (step (procBased root)) (launch root tpr) first = some s → s.Follows) ↔
    root = true ∨ ∀ a ∈ run, cr8Valid a.operand = true → a.operand = 0 := by
  cases root with
  | true =>
      refine iff_of_true (fun first second s _ ran => ?_) (.inl rfl)
      have agrees : s.Agrees := exec_invariant (fun _ _ _ before stepped => step_root before stepped)
        (launch_agrees true tpr) ran
      exact agrees.follows
  | false =>
      obtain ⟨t, ran⟩ := exec_moves (procBased false) (launch false tpr) run
      have throughout : (∀ first second s, run = first ++ second →
            exec (step (procBased false)) (launch false tpr) first = some s → s.Follows) ↔
          Along (fun _ a => cr8Valid a.operand = true → a.operand = 0)
            (step (procBased false)) (launch false tpr) run :=
        exec_shows_iff (I := AtZero) (fun _ zero => zero.follows)
          (fun _ _ _ zero harmless stepped => step_zero zero harmless stepped)
          (fun _ _ _ zero stepped follows => step_nonzero zero stepped follows)
          (launch_atZero tpr) ran
      refine throughout.trans ⟨fun along => .inr (along_moves along), ?_⟩
      rintro (impossible | harmless)
      · cases impossible
      · exact Along.of_forall fun a inside _ => harmless a inside

end Priority

/-- A move with 5 in RAX. -/
def moveFive (direction : Direction) : Move where
  direction := direction
  gpr := 0
  exit := sampleExit (fun _ => 0) fun _ => 5

/-- A vcpu that is not root moves 5 to CR8, and its level stays 0; or it moves CR8 to RAX, and CR8
and the level are 5. -/
theorem level_not_followed :
    (∃ s, exec (Priority.step (procBased false)) (Priority.launch false 0) [moveFive .toCr8] = some s ∧
      ¬ s.Follows ∧ s.cr8 = 5 ∧ s.intl = 0) ∧
    ∃ s, exec (Priority.step (procBased false)) (Priority.launch false 0) [moveFive .fromCr8] = some s ∧
      ¬ s.Follows ∧ s.cr8 = 5 ∧ s.intl = 5 := by
  refine ⟨⟨_, rfl, ?_⟩, _, rfl, ?_⟩
  · decide
  · decide

end Twan.Vportal
