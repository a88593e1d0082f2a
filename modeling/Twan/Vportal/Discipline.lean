/-
# Twan.Vportal.Discipline -- what the programs of the exit path may do

One monitor for every program of the exit path.  It follows whether the vcpu's VMCS is known
to be loaded, whether the vcpu has been found to be root, the interrupt flag and the
preemption count, and allows an operation only where the hypervisor means it to happen.
Each handler, vcall and `__venter` is judged against it once; what holds of every exit is then
read off the monitor.
-/
import Twan.Vemulate.Utils

namespace Twan.Vportal

set_option autoImplicit false

open Twan.Base Twan.Base.Prog Twan.Vemulate

/-- The calls that are reserved to root. -/
def Call.rootOnly : Call → Bool
  | .vemuAlterVcpu .. | .vemuSetRoute .. | .vemuSetVcpuSubscriptionPerms ..
  | .vemuSetCriticalityPerm .. | .vdbgf _ | .vpartitionPrecheck _ | .vpartitionIdAlloc
  | .vpartitionSetup .. | .vpartitionPush _ | .vteardown _ | .vemuVframeSet ..
  | .vemuVframeUnset .. => true
  | _ => false

/-- Where a program of the exit path is: `held` while the vcpu cannot have lost its CPU since
its own VMCS was last known to be loaded, `root` once it has been found to be root, `rsp` once
the exit has been found to be a move from RSP, the interrupt flag, and the preemption count. -/
structure Phase where
  held : Bool
  root : Bool
  rsp : Bool
  irq : Bool
  count : ℕ

/-- An exit starts with the VMCS held, interrupts off and preemption enabled. -/
def Phase.exit : Phase where
  held := true
  root := false
  rsp := false
  irq := false
  count := 0

/-- The discipline of the exit path: the VMCS is touched, and a preemption forgotten, while the
VMCS is held, except that a move from RSP reads RSP at any time; the preemption count does not
underflow; what is reserved to root is done by root.  Besides, `P` holds of every operation, and the program returns unless it
may stop. -/
def discipline (P : Op → Prop) (stops : Prop) : Monitor Op Op.Answer Phase where
  ok p e := P e ∧ match e with
    | .vmread field => p.held = true ∨ (field = .guestRsp ∧ p.rsp = true)
    | .vmwrite _ _ | .clearPreempted => p.held = true
    | .enablePreemption => 0 < p.count
    | .call c => Call.rootOnly c = true → p.root = true
    | .rdmsrShielded _ | .wrmsrShielded _ _ => p.root = true
    | _ => True
  may _ _ _ := True
  next p e := match e with
    | .disableInterrupts => fun _ => { p with irq := false }
    | .enableInterrupts => fun _ => { p with irq := true, held := p.held && decide (0 < p.count) }
    | .disablePreemption => fun _ => { p with count := p.count + 1 }
    | .enablePreemption => fun _ =>
        { p with count := p.count - 1, held := p.held && decide (1 < p.count) }
    | .vschedYield | .vschedPause _ => fun _ => { p with held := false }
    | .preempted => fun was => { p with held := !was && !p.irq }
    | .vmptrld => fun loaded => { p with held := loaded && !p.irq }
    | .root => fun root => { p with root := root }
    | .vmread .roExitQualification => fun (qual : BitVec 64) =>
        { p with rsp := gprOf (qual.setWidth 32) = 4 }
    | _ => fun _ => p
  halts _ := stops

/-- The operations that leave the operation queue alone. -/
def offQueue : Op → Prop
  | .setVoperationQueue _ | .assert _ _ => False
  | _ => True

/-- The operations that leave the guest's instruction pointer alone. -/
def offRip : Op → Prop
  | .vmwrite .guestRip _ => False
  | _ => True

/-- The operations that leave alone what only an entry writes. -/
def offEntry : Op → Prop
  | .vmwrite .guestRip _ | .vmwrite .ctrlVmentryInterruptInfo _ => False
  | _ => True

/-- A handler starts with preemption disabled and the VMCS held. -/
def Phase.handler : Phase where
  held := true
  root := false
  rsp := false
  irq := true
  count := 1

variable {α β : Type} {P Q : Op → Prop} {stops : Prop}

theorem discipline_weaken (weaker : ∀ e, P e → Q e) {before : Prop} (may : before → stops)
    {prog : Handler α} {p : Phase} {post : α → Phase → Prop}
    (obeys : Obeys (discipline P before) prog p post) :
    Obeys (discipline Q stops) prog p post := by
  have follows : ∀ p q e, p = q → (discipline P before).ok p e → (discipline Q stops).ok q e ∧
      ∀ r, (discipline Q stops).may q e r → (discipline P before).may p e r ∧
        (discipline P before).next p e r = (discipline Q stops).next q e r := by
    rintro p _ e rfl allowed
    exact ⟨⟨weaker e allowed.1, allowed.2⟩, fun r _ => ⟨trivial, rfl⟩⟩
  refine (obeys.sim follows (fun _ _ _ halted => may halted) rfl).mono fun a q reached => ?_
  obtain ⟨p, rfl, holds⟩ := reached
  exact holds

/-! ## Programs that keep the phase -/

/-- The two phases differ at most in what has been found out about the exit. -/
structure Phase.Same (p q : Phase) : Prop where
  held : q.held = p.held
  irq : q.irq = p.irq
  count : q.count = p.count

theorem Phase.Same.rfl {p : Phase} : p.Same p := ⟨.refl _, .refl _, .refl _⟩

theorem Phase.Same.trans {p q r : Phase} (first : p.Same q) (second : q.Same r) : p.Same r :=
  ⟨second.held.trans first.held, second.irq.trans first.irq, second.count.trans first.count⟩

/-- While the VMCS is held the program keeps the discipline, and it leaves the phase as it is. -/
def Keeps (P : Op → Prop) (stops : Prop) (prog : Handler α) : Prop :=
  ∀ p : Phase, p.held = true → Obeys (discipline P stops) prog p fun _ q => p.Same q

/-- The program does not touch the VMCS, keeps the discipline and leaves the phase as it is. -/
def Plain (P : Op → Prop) (stops : Prop) (prog : Handler α) : Prop :=
  ∀ p : Phase, Obeys (discipline P stops) prog p fun _ q => p.Same q

theorem Plain.keeps {prog : Handler α} (plain : Plain P stops prog) : Keeps P stops prog :=
  fun p _ => plain p

theorem Keeps.weaken (weaker : ∀ e, P e → Q e) {before : Prop} (may : before → stops)
    {prog : Handler α} (keeps : Keeps P before prog) : Keeps Q stops prog :=
  fun p held => discipline_weaken weaker may (keeps p held)

theorem Keeps.bind {prog : Handler α} {f : α → Handler β} (first : Keeps P stops prog)
    (rest : ∀ a, Keeps P stops (f a)) : Keeps P stops (prog >>= f) := by
  intro p held
  refine Obeys.bind (first p held) fun a q same => ?_
  exact (rest a q (same.held.trans held)).mono fun _ r later => same.trans later

theorem Plain.bind {prog : Handler α} {f : α → Handler β} (first : Plain P stops prog)
    (rest : ∀ a, Plain P stops (f a)) : Plain P stops (prog >>= f) := by
  intro p
  refine Obeys.bind (first p) fun a q same => ?_
  exact (rest a q).mono fun _ r later => same.trans later

theorem plain_ret (a : α) : Plain P stops (pure a : Handler α) := fun _ => .rfl

theorem keeps_ret (a : α) : Keeps P stops (pure a : Handler α) := (plain_ret a).keeps

theorem Keeps.ite {c : Prop} [Decidable c] {left right : Handler α} (first : Keeps P stops left)
    (second : Keeps P stops right) : Keeps P stops (if c then left else right) := by
  split
  · exact first
  · exact second

theorem Plain.ite {c : Prop} [Decidable c] {left right : Handler α} (first : Plain P stops left)
    (second : Plain P stops right) : Plain P stops (if c then left else right) := by
  split
  · exact first
  · exact second

theorem Keeps.onlyIf {c : Bool} {prog : Handler Unit} (keeps : Keeps P stops prog) :
    Keeps P stops (onlyIf c prog) :=
  keeps.ite (keeps_ret ())

theorem Plain.onlyIf {c : Bool} {prog : Handler Unit} (plain : Plain P stops prog) :
    Plain P stops (onlyIf c prog) :=
  plain.ite (plain_ret ())

theorem keeps_vmread {field : VmcsField} (allowed : P (.vmread field)) :
    Keeps P stops (vmread field) := by
  intro p held
  refine ⟨⟨allowed, .inl held⟩, fun r _ => ?_⟩
  cases field <;> exact ⟨rfl, rfl, rfl⟩

theorem keeps_vmread32 {field : VmcsField} (allowed : P (.vmread field)) :
    Keeps P stops (vmread32 field) :=
  (keeps_vmread allowed).bind fun _ => keeps_ret _

theorem keeps_vmwrite {field : VmcsField} {val : BitVec 64} (allowed : P (.vmwrite field val)) :
    Keeps P stops (vmwrite field val) :=
  fun _ held => ⟨⟨allowed, held⟩, fun _ _ => .rfl⟩

theorem plain_call {c : Call} (unreserved : Call.rootOnly c = false) (allowed : P (.call c)) :
    Plain P stops (call c) := by
  refine fun _ => ⟨⟨allowed, fun only => ?_⟩, fun _ _ => .rfl⟩
  rw [unreserved] at only
  cases only

/-- An operation that says nothing about the phase. -/
theorem plain_perform {e : Op} (allowed : ∀ p, (discipline P stops).ok p e)
    (stays : ∀ p r, (discipline P stops).next p e r = p) : Plain P stops (Op.perform e) := by
  refine fun p => ⟨allowed p, fun r _ => ?_⟩
  rw [stays p r]
  exact .rfl

/-! ## Programs that enable preemption -/

/-- With the VMCS held and preemption disabled once, the program keeps the discipline and enables
preemption. -/
def Serves (P : Op → Prop) (stops : Prop) (prog : Handler α) : Prop :=
  ∀ p : Phase, p.held = true → p.count = 1 →
    Obeys (discipline P stops) prog p fun _ q => q.count = 0

theorem Serves.bind {prog : Handler α} {f : α → Handler β} (first : Keeps P stops prog)
    (rest : ∀ a, Serves P stops (f a)) : Serves P stops (prog >>= f) := by
  intro p held count
  refine (first p held).bind fun a q same => ?_
  exact rest a q (same.held.trans held) (same.count.trans count)

theorem Serves.ite {c : Prop} [Decidable c] {left right : Handler α} (first : Serves P stops left)
    (second : Serves P stops right) : Serves P stops (if c then left else right) := by
  split
  · exact first
  · exact second

/-- What follows on enabling preemption does not touch the VMCS. -/
theorem Serves.andThen {prog : Handler α} {f : α → Handler β} (first : Serves P stops prog)
    (rest : ∀ a, Plain P stops (f a)) : Serves P stops (prog >>= f) := by
  intro p held count
  refine (first p held count).bind fun a q none => ?_
  exact (rest a q).mono fun _ r same => same.count.trans none

theorem serves_enablePreemption (allowed : P .enablePreemption) :
    Serves P stops enablePreemption := by
  intro p held count
  exact ⟨⟨allowed, by omega⟩, fun _ _ => by simp [discipline, count]⟩

end Twan.Vportal
