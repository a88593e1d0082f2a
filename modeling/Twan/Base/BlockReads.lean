/-
# Twan.Base.BlockReads -- loops of programs that read a block of bytes

A program reads little-endian values at offsets of a block, and calls other things besides.  Its
loops take fuel and do not come back without it.

`TerminatesInside` says that with enough fuel the program returns and has read inside the first
bytes of the block only.  A loop is followed from place to place: `Turns` describes one turn by the
place where it begins, `next` being the place where it leads.  `Turns.loop_iff`: a loop whose turns
come closer to an end unless they stay where they are terminates inside exactly when every place
that is reached is fine and is left.
-/
import Mathlib.Data.BitVec
import Mathlib.Logic.Relation
import Twan.Base.Prog

namespace Twan.Base

set_option autoImplicit false

namespace Prog

variable {E : Type} {R : E → Type} {α σ μ κ : Type}

/-! ## Executions as verdicts -/

/-- The monitor of one way to answer: `ok` holds of every operation, and the program returns. -/
def Monitor.exact (answer : (e : E) → μ → R e × μ) (ok : E → Prop) : Monitor E R μ where
  ok _ e := ok e
  may x e r := r = (answer e x).1
  next x e _ := (answer e x).2
  halts _ := False

variable {answer : (e : E) → μ → R e × μ} {ok : E → Prop}

theorem obeys_exact_op (e : E) (next : R e → Prog E R α) (x : μ) (post : α → μ → Prop) :
    Obeys (Monitor.exact answer ok) (.op e next) x post ↔
      ok e ∧ Obeys (Monitor.exact answer ok) (next (answer e x).1) (answer e x).2 post := by
  simp only [obeys_op, Monitor.exact, forall_eq]

theorem obeys_exact_iff (p : Prog E R α) (x : μ) (post : α → μ → Prop) :
    Obeys (Monitor.exact answer ok) p x post ↔
      (∃ a y, p.run answer x = (some a, y) ∧ post a y) ∧
        ∀ event ∈ p.events answer x, ok event.1 := by
  induction p generalizing x with
  | ret a =>
      simp only [obeys_ret, run_ret, events_ret, List.not_mem_nil, false_implies, implies_true,
        and_true, Prod.mk.injEq, Option.some.injEq]
      constructor
      · exact fun holds => ⟨a, x, ⟨rfl, rfl⟩, holds⟩
      · rintro ⟨_, _, ⟨rfl, rfl⟩, holds⟩
        exact holds
  | op e next ih =>
      rw [obeys_exact_op, ih, run_op, events_op, List.forall_mem_cons]
      exact and_left_comm
  | halt => simp [Monitor.exact]

/-! ## Loops -/

/-- The places that a walk comes to. -/
abbrev Reached (next : κ → Option κ) : κ → κ → Prop :=
  Relation.ReflTransGen fun k k' => next k = some k'

/-- Turn after turn, up to the one that ends the loop. -/
def loop (body : σ → Prog E R (σ ⊕ α)) : ℕ → σ → Prog E R α
  | 0, _ => .halt
  | fuel + 1, s => body s >>= fun
      | .inl t => loop body fuel t
      | .inr a => .ret a

/-- The turn ends at the place where it leads, or ends the loop if it leads nowhere. -/
def Leads (place : σ → μ → κ) (next : Option κ) : σ ⊕ α → μ → Prop
  | .inl s, x => next = some (place s x)
  | .inr _, _ => next = none

/-- One turn: it is as the monitor wants it only where it is fine, and with enough fuel for the loops
inside it everywhere there. -/
structure Turns (m : Monitor E R μ) (body : ℕ → σ → Prog E R (σ ⊕ α)) (place : σ → μ → κ)
    (fine : κ → Prop) (next : κ → Option κ) (enough : ℕ) : Prop where
  never : ∀ x, ¬m.halts x
  sound : ∀ {fuel s x} {post : σ ⊕ α → μ → Prop}, Obeys m (body fuel s) x post →
    fine (place s x) ∧ ∃ t y, post t y ∧ Leads place (next (place s x)) t y
  complete : ∀ {fuel s x}, enough ≤ fuel → fine (place s x) →
    Obeys m (body fuel s) x (Leads place (next (place s x)))

namespace Turns

variable {m : Monitor E R μ} {body : ℕ → σ → Prog E R (σ ⊕ α)} {place : σ → μ → κ}
  {fine : κ → Prop} {next : κ → Option κ} {enough fuel n : ℕ} {s : σ} {x : μ}
  {post : α → μ → Prop}

/-- A turn that always ends in one way. -/
theorem of_iff {body : σ → Prog E R (σ ⊕ α)} (never : ∀ x, ¬m.halts x)
    (ends : ∀ s x, ∃ t y, Leads place (next (place s x)) t y ∧
      ∀ post, Obeys m (body s) x post ↔ fine (place s x) ∧ post t y) :
    Turns m (fun _ => body) place fine next 0 where
  never := never
  sound := by
    intro _ s x post obeys
    obtain ⟨t, y, leads, spec⟩ := ends s x
    obtain ⟨isFine, holds⟩ := (spec post).mp obeys
    exact ⟨isFine, t, y, holds, leads⟩
  complete := by
    intro _ s x _ isFine
    obtain ⟨t, y, leads, spec⟩ := ends s x
    exact (spec _).mpr ⟨isFine, leads⟩

/-- The first turn of a loop, and the loop from where it ends. -/
theorem first (turns : Turns m body place fine next enough)
    (obeys : Obeys m (loop (body fuel) n s) x post) :
    ∃ k, n = k + 1 ∧ fine (place s x) ∧ ∀ place', next (place s x) = some place' →
      ∃ t y, place t y = place' ∧ Obeys m (loop (body fuel) k t) y post := by
  cases n with
  | zero => exact absurd obeys (turns.never x)
  | succ k =>
      rw [loop, obeys_bind] at obeys
      obtain ⟨isFine, t, y, after, leads⟩ := turns.sound obeys
      refine ⟨k, rfl, isFine, fun place' onward => ?_⟩
      cases t with
      | inl t => exact ⟨t, y, Option.some.inj (leads.symm.trans onward), after⟩
      | inr a => cases leads.symm.trans onward

theorem reached (turns : Turns m body place fine next enough)
    (obeys : Obeys m (loop (body fuel) n s) x post) {k : κ} (comes : Reached next (place s x) k) :
    ∃ n t y, place t y = k ∧ Obeys m (loop (body fuel) n t) y post := by
  induction comes with
  | refl => exact ⟨n, s, x, rfl, obeys⟩
  | tail _ onward ih =>
      obtain ⟨n, t, y, rfl, obeys⟩ := ih
      obtain ⟨k, _, _, rest⟩ := turns.first obeys
      obtain ⟨t, y, same, obeys⟩ := rest _ onward
      exact ⟨k, t, y, same, obeys⟩

/-- A turn that leads to where it began is repeated for ever. -/
theorem moves (turns : Turns m body place fine next enough)
    (obeys : Obeys m (loop (body fuel) n s) x post) : next (place s x) ≠ some (place s x) := by
  induction n generalizing s x with
  | zero => exact absurd obeys (turns.never x)
  | succ n ih =>
      intro stays
      obtain ⟨k, isK, _, rest⟩ := turns.first obeys
      obtain rfl := Nat.succ.inj isK
      obtain ⟨t, y, same, obeys⟩ := rest _ stays
      rw [← same] at stays
      exact ih obeys stays

/-- A loop that is as the monitor wants it is fine wherever it comes, and moves on. -/
theorem good (turns : Turns m body place fine next enough) (fuel : ℕ)
    (obeys : Obeys m (loop (body fuel) n s) x post) {k : κ} (comes : Reached next (place s x) k) :
    fine k ∧ next k ≠ some k := by
  obtain ⟨n, t, y, rfl, obeys⟩ := turns.reached obeys comes
  obtain ⟨_, _, isFine, _⟩ := turns.first obeys
  exact ⟨isFine, turns.moves obeys⟩

/-- The rule for loops: turns that come closer to an end. -/
theorem returns (turns : Turns m body place fine next enough) (measure : κ → ℕ)
    (progress : ∀ k k', fine k → next k = some k' → k' ≠ k → measure k' < measure k)
    (within : enough ≤ fuel)
    (good : ∀ k, Reached next (place s x) k → fine k ∧ next k ≠ some k)
    (closer : measure (place s x) < n) :
    Obeys m (loop (body fuel) n s) x fun _ _ => True := by
  induction n generalizing s x with
  | zero => exact absurd closer (Nat.not_lt_zero _)
  | succ n ih =>
      obtain ⟨isFine, leaves⟩ := good _ .refl
      rw [loop]
      refine (turns.complete within isFine).bind fun t y leads => ?_
      cases t with
      | inr a => trivial
      | inl t =>
          have onward : next (place s x) = some (place t y) := leads
          have away : place t y ≠ place s x := fun same => leaves (same ▸ onward)
          have less := progress _ _ isFine onward away
          exact ih (fun k comes => good k (.head onward comes)) (by omega)

/-- **When a loop terminates.** -/
theorem loop_iff (turns : Turns m body place fine next enough) (measure : κ → ℕ)
    (progress : ∀ k k', fine k → next k = some k' → k' ≠ k → measure k' < measure k) :
    (∃ fuel, Obeys m (loop (body fuel) fuel s) x fun _ _ => True) ↔
      ∀ k, Reached next (place s x) k → fine k ∧ next k ≠ some k := by
  constructor
  · rintro ⟨fuel, obeys⟩ k comes
    exact turns.good fuel obeys comes
  · intro good
    refine ⟨max enough (measure (place s x) + 1), ?_⟩
    exact turns.returns measure progress (le_max_left ..) good
      (Nat.lt_of_succ_le (le_max_right ..))

end Turns

end Prog

/-! ## Reads of a block -/

/-- Programs read `bits` bits at an offset of the block, or call something else. -/
inductive BlockOp (C : Type) where
  | read (offset bits : ℕ)
  | call (c : C)

variable {C : Type}

def BlockOp.Answer (R : C → Type) : BlockOp C → Type
  | .read _ bits => BitVec bits
  | .call c => R c

/-- What is read lies in the first `size` bytes. -/
def BlockOp.Inside (size : ℕ) : BlockOp C → Prop
  | .read offset bits => offset + bits / 8 ≤ size
  | .call _ => True

abbrev BlockProg (C : Type) (R : C → Type) (α : Type) : Type :=
  Prog (BlockOp C) (BlockOp.Answer R) α

namespace Block

/-- The number whose digits are the bytes from an offset, the lowest first. -/
def load (block : ℕ → BitVec 8) (offset : ℕ) : ℕ → ℕ
  | 0 => 0
  | width + 1 => (block offset).toNat + 2 ^ 8 * load block (offset + 1) width

def value (block : ℕ → BitVec 8) (offset bits : ℕ) : BitVec bits :=
  BitVec.ofNat bits (load block offset (bits / 8))

section

variable {R : C → Type} {α σ : Type}

def read (offset bits : ℕ) : BlockProg C R (BitVec bits) := .op (.read offset bits) .ret

def call (c : C) : BlockProg C R (R c) := .op (.call c) .ret

variable (block : ℕ → BitVec 8) (reply : (c : C) → σ → R c × σ) (size : ℕ)

/-- The block answers the reads, and what is called the calls. -/
def answer : (e : BlockOp C) → σ → e.Answer R × σ
  | .read offset bits, x => (value block offset bits, x)
  | .call c, x => reply c x

/-- With enough fuel the program returns, and no byte behind the first `size` is read on the way. -/
def TerminatesInside (program : ℕ → BlockProg C R α) (x : σ) : Prop :=
  ∃ fuel, ((program fuel).run (answer block reply) x).1.isSome = true ∧
    ∀ event ∈ (program fuel).events (answer block reply) x, event.1.Inside size

/-- The monitor that wants to see reads inside the block only. -/
def inside : Prog.Monitor (BlockOp C) (BlockOp.Answer R) σ :=
  .exact (answer block reply) (BlockOp.Inside size)

variable {block reply size}

@[simp] theorem inside_halts (x : σ) : ¬(inside block reply size).halts x := not_false

theorem terminatesInside_iff (program : ℕ → BlockProg C R α) (x : σ) :
    TerminatesInside block reply size program x ↔
      ∃ fuel, Prog.Obeys (inside block reply size) (program fuel) x fun _ _ => True := by
  refine exists_congr fun fuel => ?_
  rw [inside, Prog.obeys_exact_iff]
  refine and_congr_left fun _ => ?_
  simp only [and_true]
  constructor
  · intro some
    obtain ⟨a, isA⟩ := Option.isSome_iff_exists.mp some
    exact ⟨a, _, Prod.ext isA rfl⟩
  · rintro ⟨a, y, ran⟩
    rw [ran]
    rfl

theorem inside_returns {p : BlockProg C R α} {x : σ} {post : α → σ → Prop}
    (obeys : Prog.Obeys (inside block reply size) p x post) : ∃ a y, post a y := by
  obtain ⟨⟨a, y, _, holds⟩, _⟩ := (Prog.obeys_exact_iff p x post).mp obeys
  exact ⟨a, y, holds⟩

@[simp] theorem obeys_read (offset bits : ℕ) (x : σ) (post : BitVec bits → σ → Prop) :
    Prog.Obeys (inside block reply size) (read offset bits) x post ↔
      offset + bits / 8 ≤ size ∧ post (value block offset bits) x :=
  Prog.obeys_exact_op ..

@[simp] theorem obeys_call (c : C) (x : σ) (post : R c → σ → Prop) :
    Prog.Obeys (inside block reply size) (call c) x post ↔
      post (reply c x).1 (reply c x).2 :=
  (Prog.obeys_exact_op ..).trans (and_iff_right trivial)

/-! ## Programs that do not read -/

/-- The program reads nothing, and returns. -/
def Quiet (block : ℕ → BitVec 8) (reply : (c : C) → σ → R c × σ) (size : ℕ)
    (p : BlockProg C R α) : Prop :=
  ∀ x, ∃ a y, ∀ post, Prog.Obeys (inside block reply size) p x post ↔ post a y

theorem Quiet.ret (a : α) : Quiet block reply size (.ret a) := fun x => ⟨a, x, fun _ => Iff.rfl⟩

theorem Quiet.call (c : C) : Quiet block reply size (call c) :=
  fun x => ⟨(reply c x).1, (reply c x).2, fun post => obeys_call c x post⟩

theorem Quiet.bind {β : Type} {p : BlockProg C R α} {f : α → BlockProg C R β}
    (first : Quiet block reply size p) (second : ∀ a, Quiet block reply size (f a)) :
    Quiet block reply size (p >>= f) := by
  intro x
  obtain ⟨a, y, isFirst⟩ := first x
  obtain ⟨b, z, isSecond⟩ := second a y
  refine ⟨b, z, fun post => ?_⟩
  rw [Prog.obeys_bind, isFirst, isSecond]

/-- What does not read may follow. -/
theorem Quiet.after {β : Type} {p : BlockProg C R α} {f : α → BlockProg C R β} {x : σ}
    (quiet : ∀ a, Quiet block reply size (f a)) :
    Prog.Obeys (inside block reply size) (p >>= f) x (fun _ _ => True) ↔
      Prog.Obeys (inside block reply size) p x fun _ _ => True := by
  rw [Prog.obeys_bind]
  constructor
  · exact fun obeys => obeys.mono fun _ _ _ => trivial
  · intro obeys
    refine obeys.mono fun a y _ => ?_
    obtain ⟨b, z, ends⟩ := quiet a y
    exact (ends _).mpr trivial

theorem Quiet.ite {c : Prop} [Decidable c] {p q : BlockProg C R α}
    (yes : Quiet block reply size p) (no : Quiet block reply size q) :
    Quiet block reply size (if c then p else q) := by
  split
  · exact yes
  · exact no

end

end Block

end Twan.Base
