/-
# Twan.Base.Prog -- programs over a set of operations

A program performs operations one after another, continues with the answer of each, and
either returns or never comes back (`halt`).  The operations mean nothing by themselves;
three readings are given.

* `Prog.run`: execution against a state that answers every operation, with
  `Prog.run_bind` for sequences;
* `Prog.events`: the operations of such an execution with their answers;
* `Prog.Obeys`: whatever the answers, within what the monitor expects of them, every
  operation is one the monitor allows.  `Obeys.bind` composes, `Obeys.mono` weakens, and
  `Obeys.events` carries a verdict on the program to its executions.
-/
import Mathlib.Logic.Basic

namespace Twan.Base

set_option autoImplicit false

/-- Programs over the operations `E`, the operation `e` being answered in `R e`. -/
inductive Prog (E : Type) (R : E → Type) (α : Type) : Type where
  | ret (a : α)
  | op (e : E) (next : R e → Prog E R α)
  | halt

namespace Prog

variable {E : Type} {R : E → Type} {α β γ σ μ : Type}

def bind : Prog E R α → (α → Prog E R β) → Prog E R β
  | .ret a, f => f a
  | .op e next, f => .op e fun r => (next r).bind f
  | .halt, _ => .halt

instance : Monad (Prog E R) where
  pure := ret
  bind := bind

/-- One operation, for its answer. -/
def perform (e : E) : Prog E R (R e) := .op e .ret

@[simp] theorem pure_eq (a : α) : (pure a : Prog E R α) = .ret a := rfl

@[simp] theorem ret_bind (a : α) (f : α → Prog E R β) : (Prog.ret a >>= f) = f a := rfl

@[simp] theorem op_bind (e : E) (next : R e → Prog E R α) (f : α → Prog E R β) :
    (Prog.op e next >>= f) = .op e fun r => next r >>= f := rfl

@[simp] theorem halt_bind (f : α → Prog E R β) : ((Prog.halt : Prog E R α) >>= f) = .halt := rfl

theorem bind_bind (p : Prog E R α) (f : α → Prog E R β) (g : β → Prog E R γ) :
    p >>= f >>= g = p >>= fun a => f a >>= g := by
  induction p with
  | ret a => rfl
  | op e next ih => exact congrArg (op e) (funext ih)
  | halt => rfl

/-! ## Execution -/

/-- What the program returns, if it comes back, and the state it leaves. -/
def run (answer : (e : E) → σ → R e × σ) : Prog E R α → σ → Option α × σ
  | .ret a, s => (some a, s)
  | .op e next, s => run answer (next (answer e s).1) (answer e s).2
  | .halt, s => (none, s)

variable {answer : (e : E) → σ → R e × σ}

@[simp] theorem run_ret (a : α) (s : σ) : run answer (.ret a : Prog E R α) s = (some a, s) := rfl

@[simp] theorem run_op (e : E) (next : R e → Prog E R α) (s : σ) :
    run answer (.op e next) s = run answer (next (answer e s).1) (answer e s).2 := rfl

@[simp] theorem run_halt (s : σ) : run answer (.halt : Prog E R α) s = (none, s) := rfl

@[simp] theorem run_perform (e : E) (s : σ) :
    run answer (perform e) s = (some (answer e s).1, (answer e s).2) := rfl

theorem run_ite (c : Prop) [Decidable c] (p q : Prog E R α) (s : σ) :
    run answer (if c then p else q) s = if c then run answer p s else run answer q s := by
  split <;> rfl

@[simp] theorem run_bind (p : Prog E R α) (f : α → Prog E R β) (s : σ) :
    run answer (p >>= f) s =
      match run answer p s with
      | (some a, t) => run answer (f a) t
      | (none, t) => (none, t) := by
  induction p generalizing s with
  | ret a => rfl
  | op e next ih => exact ih (answer e s).1 (answer e s).2
  | halt => rfl

/-- The operations of an execution, each with the answer it got. -/
def events (answer : (e : E) → σ → R e × σ) : Prog E R α → σ → List ((e : E) × R e)
  | .ret _, _ => []
  | .op e next, s => ⟨e, (answer e s).1⟩ :: events answer (next (answer e s).1) (answer e s).2
  | .halt, _ => []

@[simp] theorem events_ret (a : α) (s : σ) : events answer (.ret a : Prog E R α) s = [] := rfl

@[simp] theorem events_op (e : E) (next : R e → Prog E R α) (s : σ) :
    events answer (.op e next) s =
      ⟨e, (answer e s).1⟩ :: events answer (next (answer e s).1) (answer e s).2 := rfl

@[simp] theorem events_halt (s : σ) : events answer (.halt : Prog E R α) s = [] := rfl

@[simp] theorem events_perform (e : E) (s : σ) :
    events answer (perform e) s = [⟨e, (answer e s).1⟩] := rfl

theorem events_ite (c : Prop) [Decidable c] (p q : Prog E R α) (s : σ) :
    events answer (if c then p else q) s =
      if c then events answer p s else events answer q s := by
  split <;> rfl

@[simp] theorem events_bind (p : Prog E R α) (f : α → Prog E R β) (s : σ) :
    events answer (p >>= f) s = events answer p s ++
      match run answer p s with
      | (some a, t) => events answer (f a) t
      | (none, _) => [] := by
  induction p generalizing s with
  | ret a => rfl
  | op e next ih => exact congrArg _ (ih (answer e s).1 (answer e s).2)
  | halt => rfl

/-! ## Monitors -/

/-- A monitor follows a program with a state of its own: it allows an operation or not, expects
something of the answer, and says where the program may stop for good. -/
structure Monitor (E : Type) (R : E → Type) (μ : Type) where
  ok : μ → E → Prop
  may : μ → (e : E) → R e → Prop
  next : μ → (e : E) → R e → μ
  halts : μ → Prop

/-- The monitor without a state: `P` holds of every operation, and the program returns. -/
def Monitor.always (P : E → Prop) : Monitor E R Unit where
  ok _ e := P e
  may _ _ _ := True
  next _ _ _ := ()
  halts _ := False

/-- Every operation of the program is allowed where it is performed, and `post` holds of the
result and the monitor's state if the program returns. -/
def Obeys (m : Monitor E R μ) : Prog E R α → μ → (α → μ → Prop) → Prop
  | .ret a, s, post => post a s
  | .op e next, s, post =>
      m.ok s e ∧ ∀ r, m.may s e r → Obeys m (next r) (m.next s e r) post
  | .halt, s, _ => m.halts s

variable {m : Monitor E R μ}

@[simp] theorem obeys_ret (a : α) (s : μ) (post : α → μ → Prop) :
    Obeys m (.ret a) s post ↔ post a s := Iff.rfl

@[simp] theorem obeys_op (e : E) (next : R e → Prog E R α) (s : μ) (post : α → μ → Prop) :
    Obeys m (.op e next) s post ↔
      m.ok s e ∧ ∀ r, m.may s e r → Obeys m (next r) (m.next s e r) post := Iff.rfl

@[simp] theorem obeys_halt (s : μ) (post : α → μ → Prop) :
    Obeys m (.halt : Prog E R α) s post ↔ m.halts s := Iff.rfl

@[simp] theorem obeys_perform (e : E) (s : μ) (post : R e → μ → Prop) :
    Obeys m (perform e) s post ↔ m.ok s e ∧ ∀ r, m.may s e r → post r (m.next s e r) := Iff.rfl

@[simp] theorem obeys_bind (p : Prog E R α) (f : α → Prog E R β) (s : μ) (post : β → μ → Prop) :
    Obeys m (p >>= f) s post ↔ Obeys m p s fun a t => Obeys m (f a) t post := by
  induction p generalizing s with
  | ret a => rfl
  | op e next ih =>
      simp only [op_bind, obeys_op, ih]
  | halt => rfl

theorem obeys_ite (c : Prop) [Decidable c] (p q : Prog E R α) (s : μ) (post : α → μ → Prop) :
    Obeys m (if c then p else q) s post ↔
      (c → Obeys m p s post) ∧ (¬c → Obeys m q s post) := by
  split <;> simp_all

theorem Obeys.mono {p : Prog E R α} {s : μ} {post post' : α → μ → Prop}
    (obeys : Obeys m p s post) (weaker : ∀ a t, post a t → post' a t) : Obeys m p s post' := by
  induction p generalizing s with
  | ret a => exact weaker a s obeys
  | op e next ih => exact ⟨obeys.1, fun r may => ih r (obeys.2 r may)⟩
  | halt => exact obeys

/-- A verdict of one monitor is one of another that follows it. -/
theorem Obeys.sim {ν : Type} {n : Monitor E R ν} {rel : μ → ν → Prop}
    (follows : ∀ s t e, rel s t → m.ok s e → n.ok t e ∧ ∀ r, n.may t e r →
      m.may s e r ∧ rel (m.next s e r) (n.next t e r))
    (halts : ∀ s t, rel s t → m.halts s → n.halts t) {p : Prog E R α} {s : μ} {t : ν}
    {post : α → μ → Prop} (obeys : Obeys m p s post) (related : rel s t) :
    Obeys n p t fun a t => ∃ s, rel s t ∧ post a s := by
  induction p generalizing s t with
  | ret a => exact ⟨s, related, obeys⟩
  | op e next ih =>
      obtain ⟨allowed, after⟩ := follows s t e related obeys.1
      refine ⟨allowed, fun r may => ?_⟩
      exact ih r (obeys.2 r (after r may).1) (after r may).2
  | halt => exact halts s t related obeys

/-- Two parts of a verdict are one. -/
theorem Obeys.bind {p : Prog E R α} {f : α → Prog E R β} {s : μ} {mid : α → μ → Prop}
    {post : β → μ → Prop} (first : Obeys m p s mid)
    (second : ∀ a t, mid a t → Obeys m (f a) t post) : Obeys m (p >>= f) s post :=
  (obeys_bind p f s post).2 (first.mono second)

/-- An execution whose answers are the expected ones performs allowed operations only, and each
has its answer. -/
theorem Obeys.events {p : Prog E R α} {s : μ} {x : σ} {post : α → μ → Prop}
    (expected : ∀ e x s, m.may s e (answer e x).1) (obeys : Obeys m p s post) :
    ∀ event ∈ p.events answer x, ∃ t y, m.ok t event.1 ∧ event.2 = (answer event.1 y).1 := by
  induction p generalizing s x with
  | ret a => intro event inside; cases inside
  | op e next ih =>
      intro event inside
      cases inside with
      | head => exact ⟨s, x, obeys.1, rfl⟩
      | tail _ later =>
          exact ih (answer e x).1 (obeys.2 (answer e x).1 (expected e x s)) event later
  | halt => intro event inside; cases inside

/-- A program that may stop nowhere returns. -/
theorem Obeys.returns {p : Prog E R α} {s : μ} {x : σ} {post : α → μ → Prop}
    (never : ∀ s, ¬m.halts s) (expected : ∀ e x s, m.may s e (answer e x).1)
    (obeys : Obeys m p s post) : ∃ a t, p.run answer x = (some a, t) := by
  induction p generalizing s x with
  | ret a => exact ⟨a, x, rfl⟩
  | op e next ih => exact ih (answer e x).1 (obeys.2 (answer e x).1 (expected e x s))
  | halt => exact absurd obeys (never s)

/-- What the allowed operations keep, the program keeps. -/
theorem Obeys.run {I : σ → Prop} (expected : ∀ e x s, m.may s e (answer e x).1)
    (kept : ∀ e x s, m.ok s e → I x → I (answer e x).2) {p : Prog E R α} {s : μ} {x : σ}
    {post : α → μ → Prop} (obeys : Obeys m p s post) (start : I x) : I (p.run answer x).2 := by
  induction p generalizing s x with
  | ret a => exact start
  | op e next ih =>
      exact ih (answer e x).1 (obeys.2 (answer e x).1 (expected e x s)) (kept e x s obeys.1 start)
  | halt => exact start

end Prog

end Twan.Base
