/-
# Twan.Base.PhaseLock -- reader-writer locks that alternate in phases

A phase-fair lock counts its readers at the way in and at the way out and serves its writers by
ticket.  The writer whose turn it is shows itself at the way in and notes how many readers have
arrived; it goes in when that many have left.  A reader that arrives while a writer shows itself
waits for that very writer, not for the ones after it.

Counters and tickets are natural numbers here: a lock that keeps them in words refines this
system as long as the differences fit.  `Inv` is the invariant of every run; what follows from it
is that a writer is inside alone (`Inv.alone`), that a reader that has arrived keeps out every
writer that shows itself later (`Inv.kept_out`), and that where anyone waits someone is inside or
goes on (`Inv.progress`).
-/
import Mathlib.Data.Fintype.Card
import Mathlib.Order.Interval.Finset.Nat
import Mathlib.Logic.Function.Basic

namespace Twan.Base

set_option autoImplicit false
set_option linter.unusedSectionVars false

/-! ## Counting callers -/

section Count

variable {C P : Type} [Fintype C] [DecidableEq C]

/-- How many callers are in such a phase. -/
def count (p : P → Bool) (phase : C → P) : ℕ := (Finset.univ.filter fun c => p (phase c)).card

/-- What one caller's step does to a count. -/
theorem count_update (p : P → Bool) (phase : C → P) (c : C) (new : P) :
    count p (Function.update phase c new) + (p (phase c)).toNat = count p phase + (p new).toNat := by
  have others : (Finset.univ.filter fun d => p (Function.update phase c new d)).erase c =
      (Finset.univ.filter fun d => p (phase d)).erase c := by
    ext d
    simp only [Finset.mem_erase, Finset.mem_filter, Finset.mem_univ, true_and]
    refine and_congr_right fun other => ?_
    rw [Function.update_of_ne other]
  have split : ∀ f : C → P, count p f = ((Finset.univ.filter fun d => p (f d)).erase c).card +
      (p (f c)).toNat := by
    intro f
    cases here : p (f c) with
    | true =>
        have inside : c ∈ Finset.univ.filter fun d => p (f d) := by simp [here]
        rw [count, ← Finset.card_erase_add_one inside]
        rfl
    | false =>
        have outside : c ∉ Finset.univ.filter fun d => p (f d) := by simp [here]
        rw [count, Finset.erase_eq_of_notMem outside]
        rfl
  rw [split (Function.update phase c new), split phase, others, Function.update_self]
  omega

theorem count_update_same {p : P → Bool} (new : P) {phase : C → P} {c : C} {old : P}
    (was : phase c = old) (same : p new = p old) :
    count p (Function.update phase c new) = count p phase := by
  have counts := count_update p phase c new
  rw [was, same] at counts
  omega

theorem count_pos {p : P → Bool} {phase : C → P} {c : C} (here : p (phase c) = true) :
    0 < count p phase :=
  Finset.card_pos.mpr ⟨c, by simp [here]⟩

theorem count_eq_zero {p : P → Bool} {phase : C → P} :
    count p phase = 0 ↔ ∀ c, p (phase c) = false := by
  simp [count, Finset.filter_eq_empty_iff]

theorem count_le {p q : P → Bool} {phase : C → P} (weaker : ∀ x, p x = true → q x = true) :
    count p phase ≤ count q phase :=
  Finset.card_le_card fun c inside => by
    simp only [Finset.mem_filter, Finset.mem_univ, true_and] at inside ⊢
    exact weaker _ inside

theorem count_le_card (p : P → Bool) (phase : C → P) : count p phase ≤ Fintype.card C :=
  Finset.card_le_univ _

theorem count_congr {p q : P → Bool} {phase : C → P} (same : ∀ c, p (phase c) = q (phase c)) :
    count p phase = count q phase := by
  simp only [count, same]

end Count

namespace PhaseLock

/-! ## The lock -/

/-- Where a caller is: a reader waits for writer `k`; writer `n` waits for its turn, shows itself
when `m` readers have arrived, is inside and goes. -/
inductive Phase where
  | idle
  | waiting (k : ℕ)
  | reading
  | queued (n : ℕ)
  | chosen (n : ℕ)
  | draining (n m : ℕ)
  | writing (n : ℕ)
  | leaving (n : ℕ)
  deriving DecidableEq

structure State (C : Type) where
  arrived : ℕ
  left : ℕ
  tickets : ℕ
  turn : ℕ
  present : Option ℕ
  phase : C → Phase

namespace Phase

/-- The ticket of a writer. -/
def ticket : Phase → Option ℕ
  | queued n | chosen n | draining n _ | writing n | leaving n => some n
  | _ => none

/-- A writer whose turn it is. -/
def serving : Phase → Option ℕ
  | chosen n | draining n _ | writing n | leaving n => some n
  | _ => none

/-- A writer that has shown itself in this turn. -/
def shown : Phase → Option ℕ
  | draining n _ | writing n | leaving n => some n
  | _ => none

/-- A writer that shows itself. -/
def marked : Phase → Option ℕ
  | draining n _ | writing n => some n
  | _ => none

/-- A reader that has arrived and not left. -/
def reader : Phase → Bool
  | waiting _ | reading => true
  | _ => false

/-- A reader that arrived before writer `n` showed itself. -/
def old (n : ℕ) : Phase → Bool
  | waiting k => k ≠ n
  | reading => true
  | _ => false

end Phase

section System

variable {C : Type} [DecidableEq C]

def State.initial : State C := ⟨0, 0, 0, 0, none, fun _ => .idle⟩

def State.goto (s : State C) (c : C) (p : Phase) : State C :=
  { s with phase := Function.update s.phase c p }

/-- The phase of a reader that arrives. -/
def State.arrival (s : State C) : Phase :=
  match s.present with
  | none => .reading
  | some k => .waiting k

/-- One step of one caller. -/
inductive Step : State C → State C → Prop
  | arrive {s : State C} (c : C) (idle : s.phase c = .idle) :
      Step s { s.goto c s.arrival with arrived := s.arrived + 1 }
  | enter {s : State C} (c : C) (k : ℕ) (waiting : s.phase c = .waiting k)
      (passed : s.present ≠ some k) : Step s (s.goto c .reading)
  | leave {s : State C} (c : C) (reading : s.phase c = .reading) :
      Step s { s.goto c .idle with left := s.left + 1 }
  | take {s : State C} (c : C) (idle : s.phase c = .idle) :
      Step s { s.goto c (.queued s.tickets) with tickets := s.tickets + 1 }
  | choose {s : State C} (c : C) (queued : s.phase c = .queued s.turn) :
      Step s (s.goto c (.chosen s.turn))
  | mark {s : State C} (c : C) (n : ℕ) (chosen : s.phase c = .chosen n) :
      Step s { s.goto c (.draining n s.arrived) with present := some n }
  | drain {s : State C} (c : C) (n : ℕ) (draining : s.phase c = .draining n s.left) :
      Step s (s.goto c (.writing n))
  | clear {s : State C} (c : C) (n : ℕ) (writing : s.phase c = .writing n) :
      Step s { s.goto c (.leaving n) with present := none }
  | pass {s : State C} (c : C) (n : ℕ) (leaving : s.phase c = .leaving n) :
      Step s { s.goto c .idle with turn := s.turn + 1 }

end System

/-! ## The invariant -/

section Invariant

variable {C : Type} [Fintype C] [DecidableEq C] {s t : State C}

/-- The tickets from the turn on are out, each with one writer; only the writer whose turn it is
goes on, and it is present while it shows itself. -/
structure Writers (s : State C) : Prop where
  order : s.turn ≤ s.tickets
  ticket : ∀ c n, (s.phase c).ticket = some n → s.turn ≤ n ∧ n < s.tickets
  unique : ∀ c d n, (s.phase c).ticket = some n → (s.phase d).ticket = some n → c = d
  all : ∀ n, s.turn ≤ n → n < s.tickets → ∃ c, (s.phase c).ticket = some n
  serving : ∀ c n, (s.phase c).serving = some n → n = s.turn
  present : ∀ k, s.present = some k ↔ ∃ c, (s.phase c).marked = some k

/-- The readers are the difference of the counters; a writer that drains waits for the old ones,
and none of them is left once it is inside.  A reader waits for the writer of this turn or of the
last one. -/
structure Inv (s : State C) : Prop extends Writers s where
  readers : s.left + count Phase.reader s.phase = s.arrived
  draining : ∀ c n m, s.phase c = .draining n m → s.left + count (Phase.old n) s.phase = m
  writing : ∀ c n, s.phase c = .writing n → ∀ d, (s.phase d).old n = false
  waiting : ∀ c k, s.phase c = .waiting k → s.turn ≤ k + 1 ∧
    (k < s.turn ∨ ∃ d, (s.phase d).shown = some k)
  leaving : ∀ c n, s.phase c = .leaving n → ∀ d k, s.phase d = .waiting k → k = n

theorem inv_initial : Inv (State.initial : State C) where
  order := le_refl 0
  ticket c n found := by cases found
  unique c d n found := by cases found
  all n _ lt := by cases lt
  serving c n found := by cases found
  present k := by simp [State.initial, Phase.marked]
  readers := by
    have none : count Phase.reader (State.initial : State C).phase = 0 :=
      count_eq_zero.mpr fun _ => rfl
    rw [none]
    rfl
  draining c n m found := by cases found
  writing c n found := by cases found
  waiting c k found := by cases found
  leaving c n found := by cases found

theorem Phase.ticket_of_serving {p : Phase} {n : ℕ} (found : p.serving = some n) :
    p.ticket = some n := by
  cases p <;> first | exact found | cases found

theorem Phase.serving_of_shown {p : Phase} {n : ℕ} (found : p.shown = some n) :
    p.serving = some n := by
  cases p <;> first | exact found | cases found

theorem Phase.shown_of_marked {p : Phase} {n : ℕ} (found : p.marked = some n) :
    p.shown = some n := by
  cases p <;> first | exact found | cases found

/-- It is the turn of one writer. -/
theorem Writers.serving_unique (writers : Writers s) {c d : C} {n m : ℕ}
    (first : (s.phase c).serving = some n) (second : (s.phase d).serving = some m) : c = d := by
  have same : n = m := (writers.serving c n first).trans (writers.serving d m second).symm
  subst same
  exact writers.unique c d n (Phase.ticket_of_serving first) (Phase.ticket_of_serving second)

theorem Writers.marked_turn (writers : Writers s) {k : ℕ} (present : s.present = some k) :
    k = s.turn ∧ ∃ c, (s.phase c).shown = some k := by
  obtain ⟨c, marked⟩ := (writers.present k).mp present
  have shown := Phase.shown_of_marked marked
  exact ⟨writers.serving c k (Phase.serving_of_shown shown), c, shown⟩

/-- A step that leaves what `f` reads of the caller leaves what it reads of everyone. -/
theorem view_update {α : Type} (f : Phase → α) (new : Phase) {phase : C → Phase} {c : C}
    {old : Phase} (was : phase c = old) (same : f new = f old) (d : C) :
    f (Function.update phase c new d) = f (phase d) := by
  by_cases here : d = c
  · subst here
    rw [Function.update_self, same, was]
  · rw [Function.update_of_ne here]

/-- The phase of a caller after a step: its new one, or the one it had. -/
theorem update_cases (phase : C → Phase) (c : C) (new : Phase) (d : C) :
    (d = c ∧ Function.update phase c new d = new) ∨
      (d ≠ c ∧ Function.update phase c new d = phase d) := by
  by_cases here : d = c
  · exact .inl ⟨here, by rw [here, Function.update_self]⟩
  · exact .inr ⟨here, Function.update_of_ne here _ _⟩

/-- A step that moves no writer in the queue, whatever it does to the mark. -/
theorem Writers.remark (writers : Writers s) {t : State C} (tickets : t.tickets = s.tickets)
    (turn : t.turn = s.turn) (ticket : ∀ d, (t.phase d).ticket = (s.phase d).ticket)
    (serving : ∀ d, (t.phase d).serving = (s.phase d).serving)
    (present : ∀ k, t.present = some k ↔ ∃ c, (t.phase c).marked = some k) : Writers t where
  order := by rw [tickets, turn]; exact writers.order
  ticket c n := by rw [ticket, turn, tickets]; exact writers.ticket c n
  unique c d n := by rw [ticket, ticket]; exact writers.unique c d n
  all n := by
    rw [turn, tickets]
    simp only [ticket]
    exact writers.all n
  serving c n := by rw [serving, turn]; exact writers.serving c n
  present := present

/-- A step that the writers do not see. -/
theorem Writers.congr (writers : Writers s) {t : State C} (tickets : t.tickets = s.tickets)
    (turn : t.turn = s.turn) (present : t.present = s.present)
    (ticket : ∀ d, (t.phase d).ticket = (s.phase d).ticket)
    (serving : ∀ d, (t.phase d).serving = (s.phase d).serving)
    (marked : ∀ d, (t.phase d).marked = (s.phase d).marked) : Writers t := by
  apply writers.remark tickets turn ticket serving
  intro k
  rw [present]
  simp only [marked]
  exact writers.present k

/-- A reader that arrives goes in, or waits for the writer that is present. -/
theorem arrival_cases (s : State C) : s.arrival = .reading ∧ s.present = none ∨
    ∃ k, s.arrival = .waiting k ∧ s.present = some k := by
  unfold State.arrival
  cases s.present with
  | none => exact .inl ⟨rfl, rfl⟩
  | some k => exact .inr ⟨k, rfl, rfl⟩

theorem arrival_reader (s : State C) : s.arrival.ticket = none ∧ s.arrival.serving = none ∧
    s.arrival.marked = none ∧ s.arrival.shown = none ∧ s.arrival.reader = true := by
  rcases arrival_cases s with ⟨arrival, _⟩ | ⟨k, arrival, _⟩ <;> rw [arrival] <;>
    exact ⟨rfl, rfl, rfl, rfl, rfl⟩

theorem arrival_new {n : ℕ} (present : s.present = some n) : s.arrival.old n = false := by
  rw [State.arrival, present]
  simp [Phase.old]

theorem Inv.arrive (inv : Inv s) {c : C} (idle : s.phase c = .idle) :
    Inv { s.goto c s.arrival with arrived := s.arrived + 1 } := by
  obtain ⟨ticket, serving, marked, shown, reader⟩ := arrival_reader s
  have shows := view_update Phase.shown s.arrival idle (shown.trans rfl)
  refine ⟨inv.toWriters.congr rfl rfl rfl (view_update Phase.ticket _ idle (ticket.trans rfl))
    (view_update Phase.serving _ idle (serving.trans rfl))
    (view_update Phase.marked _ idle (marked.trans rfl)), ?_, fun d n m found => ?_,
    fun d n found e => ?_, fun d k found => ?_, fun d n found e k waits => ?_⟩
  · have counts := count_update Phase.reader s.phase c s.arrival
    rw [idle, reader] at counts
    have before := inv.readers
    simp only [State.goto, Phase.reader, Bool.toNat_true, Bool.toNat_false] at counts ⊢
    omega
  · -- a writer that drains is present, so that the reader that arrives is not an old one
    rcases update_cases s.phase c s.arrival d with ⟨_, new⟩ | ⟨_, same⟩
    · rw [show s.arrival = .draining n m from new.symm.trans found] at marked
      cases marked
    · have before := same.symm.trans found
      have present := (inv.present n).mpr ⟨d, by rw [before]; rfl⟩
      have counts : count (Phase.old n) _ = count (Phase.old n) _ :=
        count_update_same s.arrival idle ((arrival_new present).trans rfl)
      exact (congrArg (s.left + ·) counts).trans (inv.draining d n m before)
  · rcases update_cases s.phase c s.arrival d with ⟨_, new⟩ | ⟨_, same⟩
    · rw [show s.arrival = .writing n from new.symm.trans found] at marked
      cases marked
    · have before := same.symm.trans found
      have present := (inv.present n).mpr ⟨d, by rw [before]; rfl⟩
      rcases update_cases s.phase c s.arrival e with ⟨_, new⟩ | ⟨_, same⟩
      · exact (congrArg (Phase.old n) new).trans (arrival_new present)
      · exact (congrArg (Phase.old n) same).trans (inv.writing d n before e)
  · rcases update_cases s.phase c s.arrival d with ⟨_, new⟩ | ⟨_, same⟩
    · rcases arrival_cases s with ⟨arrival, _⟩ | ⟨j, arrival, present⟩
      · cases arrival.symm.trans (new.symm.trans found)
      · cases arrival.symm.trans (new.symm.trans found)
        obtain ⟨rfl, e, shown⟩ := inv.marked_turn present
        exact ⟨Nat.le_succ _, .inr ⟨e, (shows e).trans shown⟩⟩
    · obtain ⟨near, before⟩ := inv.waiting d k (same.symm.trans found)
      exact ⟨near, before.imp_right fun ⟨e, shown⟩ => ⟨e, (shows e).trans shown⟩⟩
  · rcases update_cases s.phase c s.arrival d with ⟨_, new⟩ | ⟨_, same⟩
    · rw [show s.arrival = .leaving n from new.symm.trans found] at ticket
      cases ticket
    · have before := same.symm.trans found
      have turn : n = s.turn := inv.serving d n (by rw [before]; rfl)
      rcases update_cases s.phase c s.arrival e with ⟨_, new⟩ | ⟨_, same⟩
      · rcases arrival_cases s with ⟨arrival, _⟩ | ⟨j, arrival, present⟩
        · cases arrival.symm.trans (new.symm.trans waits)
        · cases arrival.symm.trans (new.symm.trans waits)
          exact (inv.marked_turn present).1.trans turn.symm
      · exact inv.leaving d n before e k (same.symm.trans waits)

/-- A caller in a phase that is not the new one was in it before. -/
theorem before_update {phase : C → Phase} {c d : C} {new p : Phase}
    (found : Function.update phase c new d = p) (apart : new ≠ p) : d ≠ c ∧ phase d = p := by
  rcases update_cases phase c new d with ⟨_, same⟩ | ⟨other, same⟩
  · exact absurd (same.symm.trans found) apart
  · exact ⟨other, same.symm.trans found⟩

theorem Inv.enter (inv : Inv s) {c : C} {k : ℕ} (waiting : s.phase c = .waiting k)
    (passed : s.present ≠ some k) : Inv (s.goto c .reading) := by
  have shows := view_update Phase.shown .reading waiting rfl
  refine ⟨inv.toWriters.congr rfl rfl rfl (view_update Phase.ticket _ waiting rfl)
    (view_update Phase.serving _ waiting rfl) (view_update Phase.marked _ waiting rfl), ?_,
    fun d n m found => ?_, fun d n found => ?_, fun d j found => ?_, fun d n found e j waits => ?_⟩
  · have counts : count Phase.reader _ = count Phase.reader _ :=
      count_update_same .reading waiting rfl
    exact (congrArg (s.left + ·) counts).trans inv.readers
  · obtain ⟨_, before⟩ := before_update found Phase.noConfusion
    have present := (inv.present n).mpr ⟨d, by rw [before]; rfl⟩
    have other : k ≠ n := fun same => passed (by rw [present, same])
    have counts : count (Phase.old n) _ = count (Phase.old n) _ :=
      count_update_same .reading waiting (by simp [Phase.old, other])
    exact (congrArg (s.left + ·) counts).trans (inv.draining d n m before)
  · -- the writer inside would be the one that the reader waits for
    obtain ⟨_, before⟩ := before_update found Phase.noConfusion
    have present := (inv.present n).mpr ⟨d, by rw [before]; rfl⟩
    have new := inv.writing d n before c
    rw [waiting] at new
    have same : k = n := by simpa [Phase.old] using new
    exact absurd (by rw [present, same]) passed
  · obtain ⟨_, before⟩ := before_update found Phase.noConfusion
    obtain ⟨near, shown⟩ := inv.waiting d j before
    exact ⟨near, shown.imp_right fun ⟨e, shown⟩ => ⟨e, (shows e).trans shown⟩⟩
  · obtain ⟨_, before⟩ := before_update found Phase.noConfusion
    obtain ⟨_, waited⟩ := before_update waits Phase.noConfusion
    exact inv.leaving d n before e j waited

theorem Inv.leave (inv : Inv s) {c : C} (reading : s.phase c = .reading) :
    Inv { s.goto c .idle with left := s.left + 1 } := by
  have shows := view_update Phase.shown .idle reading rfl
  refine ⟨inv.toWriters.congr rfl rfl rfl (view_update Phase.ticket _ reading rfl)
    (view_update Phase.serving _ reading rfl) (view_update Phase.marked _ reading rfl), ?_,
    fun d n m found => ?_, fun d n found => ?_, fun d j found => ?_, fun d n found e j waits => ?_⟩
  · have counts := count_update Phase.reader s.phase c .idle
    rw [reading] at counts
    have before := inv.readers
    simp only [State.goto, Phase.reader, Bool.toNat_true, Bool.toNat_false] at counts ⊢
    omega
  · obtain ⟨_, before⟩ := before_update found Phase.noConfusion
    have counts := count_update (Phase.old n) s.phase c .idle
    rw [reading] at counts
    have was := inv.draining d n m before
    simp only [State.goto, Phase.old, Bool.toNat_true, Bool.toNat_false] at counts ⊢
    omega
  · obtain ⟨_, before⟩ := before_update found Phase.noConfusion
    have new := inv.writing d n before c
    rw [reading] at new
    cases new
  · obtain ⟨_, before⟩ := before_update found Phase.noConfusion
    obtain ⟨near, shown⟩ := inv.waiting d j before
    exact ⟨near, shown.imp_right fun ⟨e, shown⟩ => ⟨e, (shows e).trans shown⟩⟩
  · obtain ⟨_, before⟩ := before_update found Phase.noConfusion
    obtain ⟨_, waited⟩ := before_update waits Phase.noConfusion
    exact inv.leaving d n before e j waited

/-- A step of a writer, as the readers see it: who has shown itself still has, and only the
counters' owner changes. -/
theorem Inv.of_writer (inv : Inv s) {c : C} {old new : Phase} (was : s.phase c = old)
    (writers : Writers t) (phase : t.phase = Function.update s.phase c new)
    (left : t.left = s.left) (arrived : t.arrived = s.arrived)
    (notOld : old.reader = false) (notNew : new.reader = false)
    (turn : ∀ d k, s.phase d = .waiting k → t.turn ≤ k + 1 ∧
      (k < t.turn ∨ ∃ e, (t.phase e).shown = some k))
    (drains : ∀ n m, new = .draining n m → s.left + count (Phase.old n) s.phase = m)
    (writes : ∀ n, new = .writing n → ∀ d, (s.phase d).old n = false)
    (leaves : ∀ n, new = .leaving n → ∀ d k, s.phase d = .waiting k → k = n) : Inv t := by
  have noReader : ∀ {p : Phase}, p.reader = false → ∀ n, p.old n = false := by
    intro p none n
    cases p <;> first | rfl | cases none
  have oldSame : ∀ n d, (Function.update s.phase c new d).old n = (s.phase d).old n := fun n =>
    view_update (Phase.old n) new was ((noReader notNew n).trans (noReader notOld n).symm)
  have waited : ∀ d k, t.phase d = .waiting k → s.phase d = .waiting k := by
    intro d k found
    rw [phase] at found
    refine (before_update found fun same => ?_).2
    rw [same] at notNew
    cases notNew
  refine ⟨writers, ?_, fun d n m found => ?_, fun d n found e => ?_, fun d k found => ?_,
    fun d n found e k waits => ?_⟩
  · have counts : count Phase.reader _ = count Phase.reader _ :=
      count_update_same new was (notNew.trans notOld.symm)
    rw [left, arrived, phase, counts]
    exact inv.readers
  · rw [left, phase, count_update_same new was ((noReader notNew n).trans (noReader notOld n).symm)]
    rw [phase] at found
    rcases update_cases s.phase c new d with ⟨_, same⟩ | ⟨_, same⟩
    · exact drains n m (same.symm.trans found)
    · exact inv.draining d n m (same.symm.trans found)
  · rw [phase] at found ⊢
    rw [oldSame]
    rcases update_cases s.phase c new d with ⟨_, same⟩ | ⟨_, same⟩
    · exact writes n (same.symm.trans found) e
    · exact inv.writing d n (same.symm.trans found) e
  · exact turn d k (waited d k found)
  · rw [phase] at found
    rcases update_cases s.phase c new d with ⟨_, same⟩ | ⟨_, same⟩
    · exact leaves n (same.symm.trans found) e k (waited e k waits)
    · exact inv.leaving d n (same.symm.trans found) e k (waited e k waits)

/-- What a reader waits for has been shown, and still is. -/
theorem Inv.waiting_of_shown (inv : Inv s) (turn : t.turn = s.turn)
    (shows : ∀ d k, (s.phase d).shown = some k → (t.phase d).shown = some k) (d : C) (k : ℕ)
    (waits : s.phase d = .waiting k) :
    t.turn ≤ k + 1 ∧ (k < t.turn ∨ ∃ e, (t.phase e).shown = some k) := by
  obtain ⟨near, shown⟩ := inv.waiting d k waits
  rw [turn]
  exact ⟨near, shown.imp_right fun ⟨e, found⟩ => ⟨e, shows e k found⟩⟩

theorem Inv.take (inv : Inv s) {c : C} (idle : s.phase c = .idle) :
    Inv { s.goto c (.queued s.tickets) with tickets := s.tickets + 1 } := by
  have shows := view_update Phase.shown (.queued s.tickets) idle rfl
  have none : (s.phase c).ticket = none := by rw [idle]; rfl
  have writers : Writers { s.goto c (.queued s.tickets) with tickets := s.tickets + 1 } := by
    refine ⟨Nat.le_succ_of_le inv.order, fun d n found => ?_, fun d e n found other => ?_,
      fun n above below => ?_, fun d n found => ?_, fun k => ?_⟩
    · rcases update_cases s.phase c (.queued s.tickets) d with ⟨_, same⟩ | ⟨_, same⟩
      · cases (congrArg Phase.ticket same).symm.trans found
        exact ⟨inv.order, Nat.lt_succ_self _⟩
      · obtain ⟨above, below⟩ := inv.ticket d n ((congrArg Phase.ticket same).symm.trans found)
        exact ⟨above, Nat.lt_succ_of_lt below⟩
    · rcases update_cases s.phase c (.queued s.tickets) d with ⟨here, same⟩ | ⟨_, same⟩ <;>
        rcases update_cases s.phase c (.queued s.tickets) e with ⟨here', same'⟩ | ⟨_, same'⟩
      · exact here.trans here'.symm
      · cases (congrArg Phase.ticket same).symm.trans found
        have below := (inv.ticket e _ ((congrArg Phase.ticket same').symm.trans other)).2
        exact absurd below (lt_irrefl _)
      · cases (congrArg Phase.ticket same').symm.trans other
        have below := (inv.ticket d _ ((congrArg Phase.ticket same).symm.trans found)).2
        exact absurd below (lt_irrefl _)
      · exact inv.unique d e n ((congrArg Phase.ticket same).symm.trans found)
          ((congrArg Phase.ticket same').symm.trans other)
    · rcases Nat.lt_succ_iff_lt_or_eq.mp below with below | rfl
      · obtain ⟨d, found⟩ := inv.all n above below
        have other : d ≠ c := by
          rintro rfl
          cases none.symm.trans found
        exact ⟨d, (congrArg Phase.ticket (Function.update_of_ne other _ _)).trans found⟩
      · exact ⟨c, by simp [State.goto, Phase.ticket]⟩
    · have same := view_update Phase.serving (.queued s.tickets) idle rfl d
      exact inv.serving d n (same.symm.trans found)
    · have same : ∀ d, ((s.goto c (.queued s.tickets)).phase d).marked = (s.phase d).marked :=
        view_update Phase.marked (.queued s.tickets) idle rfl
      simp only [same]
      exact inv.present k
  exact inv.of_writer idle writers rfl rfl rfl rfl rfl
    (inv.waiting_of_shown rfl fun d k shown => (shows d).trans shown) (by simp) (by simp) (by simp)

theorem Inv.choose (inv : Inv s) {c : C} (queued : s.phase c = .queued s.turn) :
    Inv (s.goto c (.chosen s.turn)) := by
  have ticket := view_update Phase.ticket (.chosen s.turn) queued rfl
  have marked := view_update Phase.marked (.chosen s.turn) queued rfl
  have shows := view_update Phase.shown (.chosen s.turn) queued rfl
  have writers : Writers (s.goto c (.chosen s.turn)) := by
    refine ⟨inv.order, fun d n found => ?_, fun d e n found other => ?_, fun n above below => ?_,
      fun d n found => ?_, fun k => ?_⟩
    · exact inv.ticket d n ((ticket d).symm.trans found)
    · exact inv.unique d e n ((ticket d).symm.trans found) ((ticket e).symm.trans other)
    · obtain ⟨d, found⟩ := inv.all n above below
      exact ⟨d, (ticket d).trans found⟩
    · rcases update_cases s.phase c (.chosen s.turn) d with ⟨_, same⟩ | ⟨_, same⟩
      · cases (congrArg Phase.serving same).symm.trans found
        rfl
      · exact inv.serving d n ((congrArg Phase.serving same).symm.trans found)
    · refine (inv.present k).trans ⟨fun ⟨d, found⟩ => ⟨d, (marked d).trans found⟩, ?_⟩
      exact fun ⟨d, found⟩ => ⟨d, (marked d).symm.trans found⟩
  exact inv.of_writer queued writers rfl rfl rfl rfl rfl
    (inv.waiting_of_shown rfl fun d k shown => (shows d).trans shown) (by simp) (by simp) (by simp)

/-- A writer that has not shown itself in its turn finds readers of earlier turns only. -/
theorem Inv.waiting_before (inv : Inv s) {c d : C} {n k : ℕ} (chosen : s.phase c = .chosen n)
    (waits : s.phase d = .waiting k) : k < n := by
  have turn : n = s.turn := inv.serving c n (by rw [chosen]; rfl)
  rcases (inv.waiting d k waits).2 with before | ⟨e, shown⟩
  · omega
  · have same := inv.serving_unique (c := c) (d := e) (by rw [chosen]; rfl)
      (Phase.serving_of_shown shown)
    rw [← same, chosen] at shown
    cases shown

theorem Inv.mark (inv : Inv s) {c : C} {n : ℕ} (chosen : s.phase c = .chosen n) :
    Inv { s.goto c (.draining n s.arrived) with present := some n } := by
  have ticket := view_update Phase.ticket (.draining n s.arrived) chosen rfl
  have serving := view_update Phase.serving (.draining n s.arrived) chosen rfl
  have isServing : (s.phase c).serving = some n := by rw [chosen]; rfl
  have writers : Writers { s.goto c (.draining n s.arrived) with present := some n } := by
    refine inv.toWriters.remark rfl rfl ticket serving fun k => ?_
    constructor
    · intro same
      cases same
      exact ⟨c, by simp [State.goto, Phase.marked]⟩
    · rintro ⟨d, found⟩
      have shown := Phase.serving_of_shown (Phase.shown_of_marked found)
      have here : c = d := inv.serving_unique isServing ((serving d).symm.trans shown)
      subst here
      simpa [State.goto, Phase.marked] using found
  refine inv.of_writer chosen writers rfl rfl rfl rfl rfl (fun d k waits => ?_)
    (fun m k same => ?_) (by simp) (by simp)
  · obtain ⟨near, _⟩ := inv.waiting d k waits
    have turn : n = s.turn := inv.serving c n isServing
    have before : k < s.turn := turn ▸ inv.waiting_before chosen waits
    exact ⟨near, .inl before⟩
  · -- every reader that has arrived is an old one
    cases same
    have counts : count (Phase.old n) s.phase = count Phase.reader s.phase := by
      refine count_congr fun d => ?_
      cases phase : s.phase d with
      | waiting k => simp [Phase.old, Phase.reader, (inv.waiting_before chosen phase).ne]
      | _ => rfl
    rw [counts]
    exact inv.readers

theorem Inv.drain (inv : Inv s) {c : C} {n : ℕ} (draining : s.phase c = .draining n s.left) :
    Inv (s.goto c (.writing n)) := by
  have shows := view_update Phase.shown (.writing n) draining rfl
  have writers := inv.toWriters.congr (t := s.goto c (.writing n)) rfl rfl rfl
    (view_update Phase.ticket (.writing n) draining rfl)
    (view_update Phase.serving (.writing n) draining rfl)
    (view_update Phase.marked (.writing n) draining rfl)
  refine inv.of_writer draining writers rfl rfl rfl rfl rfl
    (inv.waiting_of_shown rfl fun d k shown => (shows d).trans shown) (by simp) (fun m same => ?_)
    (by simp)
  cases same
  have none := inv.draining c n s.left draining
  exact count_eq_zero.mp (by omega)

theorem Inv.clear (inv : Inv s) {c : C} {n : ℕ} (writing : s.phase c = .writing n) :
    Inv { s.goto c (.leaving n) with present := none } := by
  have ticket := view_update Phase.ticket (.leaving n) writing rfl
  have serving := view_update Phase.serving (.leaving n) writing rfl
  have shows := view_update Phase.shown (.leaving n) writing rfl
  have writers : Writers { s.goto c (.leaving n) with present := none } := by
    refine inv.toWriters.remark rfl rfl ticket serving fun k => ?_
    refine iff_of_false (fun same => by cases same) ?_
    rintro ⟨d, found⟩
    have shown := Phase.serving_of_shown (Phase.shown_of_marked found)
    have here : c = d := inv.serving_unique (by rw [writing]; rfl) ((serving d).symm.trans shown)
    subst here
    simp [State.goto, Phase.marked] at found
  refine inv.of_writer writing writers rfl rfl rfl rfl rfl
    (inv.waiting_of_shown rfl fun d k shown => (shows d).trans shown) (by simp) (by simp)
    (fun m same d k waits => ?_)
  cases same
  have new := inv.writing c n writing d
  rw [waits] at new
  simpa [Phase.old] using new

theorem Inv.pass (inv : Inv s) {c : C} {n : ℕ} (leaving : s.phase c = .leaving n) :
    Inv { s.goto c .idle with turn := s.turn + 1 } := by
  have marked := view_update Phase.marked .idle leaving rfl
  have isServing : (s.phase c).serving = some n := by rw [leaving]; rfl
  have turn : n = s.turn := inv.serving c n isServing
  have below := (inv.ticket c n (Phase.ticket_of_serving isServing)).2
  have others : ∀ d m, (Function.update s.phase c .idle d).ticket = some m →
      d ≠ c ∧ (s.phase d).ticket = some m := by
    intro d m found
    rcases update_cases s.phase c .idle d with ⟨_, same⟩ | ⟨other, same⟩
    · cases (congrArg Phase.ticket same).symm.trans found
    · exact ⟨other, (congrArg Phase.ticket same).symm.trans found⟩
  have writers : Writers { s.goto c .idle with turn := s.turn + 1 } := by
    refine ⟨by rw [turn] at below; exact below, fun d m found => ?_, fun d e m found other => ?_,
      fun m above lt => ?_, fun d m found => ?_, fun k => ?_⟩
    · obtain ⟨other, was⟩ := others d m found
      obtain ⟨above, lt⟩ := inv.ticket d m was
      refine ⟨Nat.lt_of_le_of_ne above fun same => other ?_, lt⟩
      exact inv.unique d c m was (by rw [← same, ← turn]; exact Phase.ticket_of_serving isServing)
    · exact inv.unique d e m (others d m found).2 (others e m other).2
    · obtain ⟨d, found⟩ := inv.all m (Nat.le_of_succ_le above) lt
      have other : d ≠ c := by
        rintro rfl
        rw [leaving] at found
        cases found
        exact absurd above (by rw [turn]; exact Nat.not_succ_le_self _)
      exact ⟨d, (congrArg Phase.ticket (Function.update_of_ne other _ _)).trans found⟩
    · obtain ⟨other, same⟩ := before_update (p := Function.update s.phase c .idle d) rfl (by
        intro idle
        rw [show (s.goto c .idle).phase d = .idle from idle.symm] at found
        cases found)
      exact absurd (inv.serving_unique ((congrArg Phase.serving same).trans found) isServing) other
    · refine (inv.present k).trans ⟨fun ⟨d, found⟩ => ⟨d, (marked d).trans found⟩, ?_⟩
      exact fun ⟨d, found⟩ => ⟨d, (marked d).symm.trans found⟩
  refine inv.of_writer leaving writers rfl rfl rfl rfl rfl (fun d k waits => ?_) (by simp) (by simp)
    (by simp)
  have same : k = s.turn := (inv.leaving c n leaving d k waits).trans turn
  subst same
  exact ⟨le_refl _, .inl (Nat.lt_succ_self _)⟩

/-- Every step keeps the invariant. -/
theorem Inv.step (inv : Inv s) (moved : Step s t) : Inv t := by
  cases moved with
  | arrive c idle => exact inv.arrive idle
  | enter c k waiting passed => exact inv.enter waiting passed
  | leave c reading => exact inv.leave reading
  | take c idle => exact inv.take idle
  | choose c queued => exact inv.choose queued
  | mark c n chosen => exact inv.mark chosen
  | drain c n draining => exact inv.drain draining
  | clear c n writing => exact inv.clear writing
  | pass c n leaving => exact inv.pass leaving

/-! ## What follows -/

/-- A writer that waits for its turn. -/
def Phase.isQueued : Phase → Bool
  | queued _ => true
  | _ => false

/-- The tickets that are out are those of the queued writers and of the one whose turn it is. -/
theorem Writers.tickets_le (writers : Writers s) :
    s.tickets ≤ s.turn + count Phase.isQueued s.phase + 1 := by
  have owners : (Finset.Ico s.turn s.tickets).card ≤
      (Finset.univ.filter fun c => (s.phase c).ticket.isSome).card := by
    refine Finset.card_le_card_of_surjOn (fun c => (s.phase c).ticket.getD 0) fun n inside => ?_
    obtain ⟨above, below⟩ := Finset.mem_Ico.mp inside
    obtain ⟨c, found⟩ := writers.all n above below
    exact ⟨c, by simp [found], by simp [found]⟩
  have one : (Finset.univ.filter fun c => (s.phase c).serving.isSome).card ≤ 1 := by
    refine Finset.card_le_one.mpr fun c left d right => ?_
    obtain ⟨n, first⟩ := Option.isSome_iff_exists.mp (Finset.mem_filter.mp left).2
    obtain ⟨m, second⟩ := Option.isSome_iff_exists.mp (Finset.mem_filter.mp right).2
    exact writers.serving_unique first second
  have split : (Finset.univ.filter fun c => (s.phase c).ticket.isSome) ⊆
      (Finset.univ.filter fun c => (s.phase c).isQueued) ∪
        (Finset.univ.filter fun c => (s.phase c).serving.isSome) := by
    intro c inside
    simp only [Finset.mem_union, Finset.mem_filter, Finset.mem_univ, true_and] at inside ⊢
    cases phase : s.phase c <;> rw [phase] at inside <;>
      first | exact .inl rfl | exact .inr rfl | cases inside
  have total := (Finset.card_le_card split).trans (Finset.card_union_le _ _)
  rw [Nat.card_Ico] at owners
  have queued : count Phase.isQueued s.phase =
    (Finset.univ.filter fun c => (s.phase c).isQueued).card := rfl
  omega

/-- Before the writer whose turn it is shows itself, none is present. -/
theorem Writers.absent (writers : Writers s) {c : C} {n : ℕ} (chosen : s.phase c = .chosen n) :
    s.present = none := by
  cases present : s.present with
  | none => rfl
  | some k =>
      obtain ⟨d, marked⟩ := (writers.present k).mp present
      have same := writers.serving_unique (c := c) (d := d) (by rw [chosen]; rfl)
        (Phase.serving_of_shown (Phase.shown_of_marked marked))
      rw [← same, chosen] at marked
      cases marked

/-- A writer that drains waits for no more readers than there are. -/
theorem Inv.draining_le (inv : Inv s) {c : C} {n m : ℕ} (draining : s.phase c = .draining n m) :
    s.left ≤ m ∧ m ≤ s.left + count Phase.reader s.phase := by
  have counts := inv.draining c n m draining
  have fewer : count (Phase.old n) s.phase ≤ count Phase.reader s.phase := by
    refine count_le fun p old => ?_
    cases p <;> first | rfl | cases old
  omega

/-- **A writer is inside alone.** -/
theorem Inv.alone (inv : Inv s) {c d : C} {n : ℕ} (writing : s.phase c = .writing n)
    (inside : s.phase d = .reading ∨ ∃ m, s.phase d = .writing m) : c = d := by
  rcases inside with reading | ⟨m, other⟩
  · have new := inv.writing c n writing d
    rw [reading] at new
    cases new
  · exact inv.serving_unique (n := n) (m := m) (by rw [writing]; rfl) (by rw [other]; rfl)

/-- A writer that shows itself while a reader has arrived stays out until the reader has left. -/
theorem Inv.kept_out (inv : Inv s) {c d : C} {n m : ℕ} (draining : s.phase d = .draining n m)
    (old : (s.phase c).old n = true) : m ≠ s.left := by
  have counts := inv.draining d n m draining
  have some := count_pos (p := Phase.old n) old
  omega

/-- Writer `d` waits for reader `c`. -/
def Kept (s : State C) (c d : C) : Prop :=
  ∃ n m, s.phase d = .draining n m ∧ (s.phase c).old n = true

/-- A writer that shows itself waits for every reader that has arrived. -/
theorem Inv.kept_mark (inv : Inv s) {c d : C} {n : ℕ} (chosen : s.phase d = .chosen n)
    (reader : (s.phase c).reader = true) :
    Kept { s.goto d (.draining n s.arrived) with present := some n } c d := by
  have other : c ≠ d := by
    rintro rfl
    rw [chosen] at reader
    cases reader
  refine ⟨n, s.arrived, by simp [State.goto], ?_⟩
  simp only [State.goto, Function.update_of_ne other]
  cases phase : s.phase c with
  | waiting k => simp [Phase.old, (inv.waiting_before chosen phase).ne]
  | reading => rfl
  | _ => rw [phase] at reader; cases reader

/-- It does so as long as the reader is there. -/
theorem Kept.step (inv : Inv s) {c d : C} (kept : Kept s c d) (moved : Step s t)
    (reader : (t.phase c).reader = true) : Kept t c d := by
  obtain ⟨n, m, draining, old⟩ := kept
  -- a step of a third caller changes neither phase
  have frame : ∀ (e : C) (new : Phase), e ≠ c → e ≠ d → t.phase = Function.update s.phase e new →
      Kept t c d := by
    intro e new notC notD same
    refine ⟨n, m, ?_, ?_⟩
    · rw [same, Function.update_of_ne notD.symm]
      exact draining
    · rw [same, Function.update_of_ne notC.symm]
      exact old
  have notOld : ∀ {e : C} {p : Phase}, s.phase e = p → p.old n = false → e ≠ c := by
    rintro e p was none rfl
    rw [was, none] at old
    cases old
  have notDraining : ∀ {e : C} {p : Phase}, s.phase e = p → p ≠ .draining n m → e ≠ d := by
    rintro e p was other rfl
    exact other (was.symm.trans draining)
  cases moved with
  | arrive e idle => exact frame e _ (notOld idle rfl) (notDraining idle Phase.noConfusion) rfl
  | enter e k waiting passed =>
      by_cases here : e = c
      · subst here
        have other : d ≠ e := (notDraining waiting Phase.noConfusion).symm
        exact ⟨n, m, (Function.update_of_ne other _ _).trans draining, by simp [State.goto, Phase.old]⟩
      · exact frame e _ here (notDraining waiting Phase.noConfusion) rfl
  | leave e reading =>
      have other : e ≠ c := by
        rintro rfl
        simp [State.goto, Phase.reader] at reader
      exact frame e _ other (notDraining reading Phase.noConfusion) rfl
  | take e idle => exact frame e _ (notOld idle rfl) (notDraining idle Phase.noConfusion) rfl
  | choose e queued => exact frame e _ (notOld queued rfl) (notDraining queued Phase.noConfusion) rfl
  | mark e k chosen => exact frame e _ (notOld chosen rfl) (notDraining chosen Phase.noConfusion) rfl
  | drain e k drains =>
      refine frame e _ (notOld drains rfl) (notDraining drains fun same => ?_) rfl
      cases same
      exact inv.kept_out draining old rfl
  | clear e k writing =>
      exact frame e _ (notOld writing rfl) (notDraining writing Phase.noConfusion) rfl
  | pass e k leaving =>
      exact frame e _ (notOld leaving rfl) (notDraining leaving Phase.noConfusion) rfl

/-! ## Progress -/

/-- A caller that goes on by itself. -/
def Ready (s : State C) (c : C) : Prop :=
  match s.phase c with
  | .waiting k => s.present ≠ some k
  | .queued n => n = s.turn
  | .draining _ m => m = s.left
  | .chosen _ | .leaving _ => True
  | _ => False

/-- A reader or a writer that is inside, or a caller that goes on by itself. -/
def Live (s : State C) (c : C) : Prop :=
  s.phase c = .reading ∨ (∃ n, s.phase c = .writing n) ∨ Ready s c

/-- A writer that drains waits for a reader that is inside or is free to go in. -/
theorem Inv.draining_live (inv : Inv s) {c : C} {n m : ℕ} (draining : s.phase c = .draining n m) :
    ∃ d, Live s d := by
  by_cases drained : m = s.left
  · exact ⟨c, .inr (.inr (by simp [Ready, draining, drained]))⟩
  · have counts := inv.draining c n m draining
    have some : ∃ d, (s.phase d).old n = true := by
      by_contra none
      have zero : count (Phase.old n) s.phase = 0 :=
        count_eq_zero.mpr fun d => Bool.eq_false_iff.mpr fun old => none ⟨d, old⟩
      omega
    obtain ⟨d, old⟩ := some
    have present : s.present = some n := (inv.present n).mpr ⟨c, by rw [draining]; rfl⟩
    cases phase : s.phase d with
    | reading => exact ⟨d, .inl phase⟩
    | waiting k =>
        rw [phase] at old
        have other : k ≠ n := by simpa [Phase.old] using old
        exact ⟨d, .inr (.inr (by simp [Ready, phase, present, other.symm]))⟩
    | _ => rw [phase] at old; cases old

theorem Inv.shown_live (inv : Inv s) {c : C} {n : ℕ} (serving : (s.phase c).serving = some n) :
    ∃ d, Live s d := by
  cases phase : s.phase c with
  | draining k m => exact inv.draining_live phase
  | writing k => exact ⟨c, .inr (.inl ⟨k, phase⟩)⟩
  | chosen k => exact ⟨c, .inr (.inr (by simp [Ready, phase]))⟩
  | leaving k => exact ⟨c, .inr (.inr (by simp [Ready, phase]))⟩
  | _ => rw [phase] at serving; cases serving

/-- Where a caller is not idle, one is inside or goes on. -/
theorem Inv.progress (inv : Inv s) {c : C} (busy : s.phase c ≠ .idle) : ∃ d, Live s d := by
  cases phase : s.phase c with
  | idle => exact absurd phase busy
  | reading => exact ⟨c, .inl phase⟩
  | waiting k =>
      by_cases present : s.present = some k
      · obtain ⟨_, d, shown⟩ := inv.marked_turn present
        exact inv.shown_live (Phase.serving_of_shown shown)
      · exact ⟨c, .inr (.inr (by simp [Ready, phase, present]))⟩
  | queued n =>
      obtain ⟨above, below⟩ := inv.ticket c n (by rw [phase]; rfl)
      obtain ⟨d, first⟩ := inv.all s.turn (le_refl _) (lt_of_le_of_lt above below)
      cases turn : s.phase d with
      | queued m =>
          rw [turn] at first
          exact ⟨d, .inr (.inr (by simpa [Ready, turn, Phase.ticket] using first))⟩
      | idle | waiting k | reading => rw [turn] at first; cases first
      | chosen m | draining m k | writing m | leaving m =>
          exact inv.shown_live (c := d) (n := m) (by rw [turn]; rfl)
  | chosen n | draining n m | writing n | leaving n =>
      exact inv.shown_live (c := c) (n := n) (by rw [phase]; rfl)

/-- A reader waits for the writer of this turn or of the turn before. -/
theorem Inv.waiting_near (inv : Inv s) {c : C} {k n : ℕ} (waits : s.phase c = .waiting k)
    (present : s.present = some n) : n = k ∨ n = k + 1 := by
  obtain ⟨turn, _⟩ := inv.marked_turn present
  obtain ⟨near, before | ⟨e, shown⟩⟩ := inv.waiting c k waits
  · omega
  · have same := inv.serving e k (Phase.serving_of_shown shown)
    omega

end Invariant

end PhaseLock

end Twan.Base
