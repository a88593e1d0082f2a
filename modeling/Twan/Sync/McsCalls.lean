/-
# Twan.Sync.McsCalls -- callers of several MCS locks

Callers that lock and unlock any number of MCS locks, every acquisition with a node of its own:
the node is a local variable of the caller, and `serial` counts the ones it has used on a lock.
`stepLock` and `stepUnlock` are one atomic access of `__mcs_lock` and `__mcs_unlock`, and say
whether the call returns with it.

`Inv` holds of every state in which callers lock what they do not hold and unlock what they do;
`Inv.stepLock` and `Inv.stepUnlock` keep it.  `Inv.lock_cases` and `Inv.unlock_cases` tell an
access that changes something from a spin that fails, and `Inv.spin_waits` and
`Inv.spinNext_waits` name the caller such a spin waits for.
-/
import Twan.Sync.McsLock

namespace Twan.Sync.McsCalls

set_option autoImplicit false
set_option linter.unusedSectionVars false

open Twan.Base

/-- The locks, and how many nodes each caller has used on each. -/
structure Locks (C L : Type) where
  lock : L → McsLock.Sys C (C × ℕ)
  serial : C → L → ℕ

variable {C L : Type} [DecidableEq C] [DecidableEq L]

/-- A caller that is not in `__mcs_lock` yet, or has not returned from it. -/
def Arriving {N : Type} (pc : McsLock.Pc N) : Prop :=
  pc = .fresh ∨ (∃ prev, pc = .setNext prev) ∨ pc = .spin

namespace Locks

def initial : Locks C L := ⟨fun _ => .initial, fun _ _ => 0⟩

variable (s : Locks C L)

/-- The node that the caller uses next, or is using. -/
def node (c : C) (l : L) : C × ℕ := (c, s.serial c l)

/-- Where its acquisition is. -/
def pc (c : C) (l : L) : McsLock.Pc (C × ℕ) := (s.lock l).pc (s.node c l)

/-- The next access of `__mcs_lock`. -/
def lockNext (c : C) (l : L) : McsLock.Action (C × ℕ) :=
  match s.pc c l with
  | .fresh => .xchgTail (s.node c l)
  | .setNext _ => .setNext (s.node c l)
  | _ => .readState (s.node c l)

/-- The next access of `__mcs_unlock`. -/
def unlockNext (c : C) (l : L) : McsLock.Action (C × ℕ) :=
  match s.pc c l with
  | .critical => .readNext (s.node c l)
  | .cmpxchg => .cmpxchgTail (s.node c l)
  | .spinNext => .rereadNext (s.node c l)
  | _ => .setState (s.node c l)

def setLock (l : L) (e : McsLock.Sys C (C × ℕ)) : Locks C L :=
  { s with lock := Function.update s.lock l e }

/-- The node is not used again. -/
def retire (c : C) (l : L) : Locks C L :=
  { s with serial := Function.update s.serial c (Function.update (s.serial c) l (s.serial c l + 1)) }

/-- An access of `__mcs_lock`. -/
def stepLock (c : C) (l : L) : Option (Bool × Locks C L) :=
  (McsLock.step Prod.fst (s.lock l) (s.lockNext c l)).map fun e =>
    match e.pc (s.node c l) with
    | .critical => (true, s.setLock l e)
    | _ => (false, s.setLock l e)

/-- An access of `__mcs_unlock`. -/
def stepUnlock (c : C) (l : L) : Option (Bool × Locks C L) :=
  (McsLock.step Prod.fst (s.lock l) (s.unlockNext c l)).map fun e =>
    match e.pc (s.node c l) with
    | .done => (true, (s.setLock l e).retire c l)
    | _ => (false, s.setLock l e)

end Locks

/-! ## What an access does -/

/-- The locks are in reachable states, the nodes a caller has used are done and the ones it will
use are fresh. -/
structure Inv (s : Locks C L) : Prop where
  lock : ∀ l, McsLock.Good Prod.fst (s.lock l) ∧ McsLock.Current Prod.fst (s.lock l)
  past : ∀ c l k, k < s.serial c l → (s.lock l).pc (c, k) = .done
  future : ∀ c l k, s.serial c l < k → (s.lock l).pc (c, k) = .fresh

theorem inv_initial : Inv (Locks.initial : Locks C L) where
  lock _ := ⟨McsLock.good_initial, fun c n executes => by cases executes⟩
  past c l k lt := absurd lt (Nat.not_lt_zero k)
  future _ _ _ _ := rfl

section Accesses

variable {s t : Locks C L} {c c' : C} {l l' : L} {e : McsLock.Sys C (C × ℕ)}
  {act : McsLock.Action (C × ℕ)}

theorem lockNext_node : (s.lockNext c l).node = s.node c l := by
  unfold Locks.lockNext
  split <;> rfl

theorem unlockNext_node : (s.unlockNext c l).node = s.node c l := by
  unfold Locks.unlockNext
  split <;> rfl

theorem lock_pc (arriving : Arriving (s.pc c l))
    (moved : McsLock.step Prod.fst (s.lock l) (s.lockNext c l) = some e) :
    e.pc (s.node c l) = .critical ∨ (∃ prev, e.pc (s.node c l) = .setNext prev) ∨
      e.pc (s.node c l) = .spin := by
  refine McsLock.LockAccess.pc ?_ moved
  change McsLock.LockAccess _ (s.pc c l) _
  unfold Locks.lockNext
  rcases arriving with fresh | ⟨prev, joining⟩ | spins
  · rw [fresh]
    exact .xchgTail
  · rw [joining]
    exact .setNext
  · rw [spins]
    exact .readState

theorem unlock_pc (holds : (s.pc c l).Holding)
    (moved : McsLock.step Prod.fst (s.lock l) (s.unlockNext c l) = some e) :
    e.pc (s.node c l) = .done ∨ (e.pc (s.node c l)).Holding := by
  refine McsLock.UnlockAccess.pc ?_ moved
  change McsLock.UnlockAccess _ (s.pc c l) _
  unfold Locks.unlockNext
  cases pc : s.pc c l with
  | critical => exact .readNext
  | cmpxchg => exact .cmpxchgTail
  | spinNext => exact .rereadNext
  | setState next => exact .setState
  | _ => rw [pc] at holds; exact holds.elim

/-- Nodes of other callers, and other nodes of this one. -/
theorem node_ne {k : ℕ} (differ : c' ≠ c ∨ k ≠ s.serial c l) : (c', k) ≠ s.node c l := by
  intro equal
  rcases differ with caller | number
  · exact caller (congrArg Prod.fst equal)
  · exact number (congrArg Prod.snd equal)

/-- An access with the caller's own node, after which it goes on using that node. -/
theorem Inv.setLock (inv : Inv s) (node : act.node = s.node c l)
    (moved : McsLock.step Prod.fst (s.lock l) act = some e) : Inv (s.setLock l e) ∧
      (s.setLock l e).pc c l = e.pc (s.node c l) ∧
      ∀ c' l', c' ≠ c ∨ l' ≠ l → (s.setLock l e).pc c' l' = s.pc c' l' := by
  have frame : ∀ n, n ≠ s.node c l → e.pc n = (s.lock l).pc n := fun n other =>
    McsLock.step_frame (by rw [node]; exact other) moved
  have same : (s.setLock l e).lock l = e := Function.update_self _ _ _
  have others : ∀ l', l' ≠ l → (s.setLock l e).lock l' = s.lock l' := fun l' apart =>
    Function.update_of_ne apart _ _
  have pcs : ∀ c' l' k, (c' ≠ c ∨ l' ≠ l) ∨ k ≠ s.serial c l →
      ((s.setLock l e).lock l').pc (c', k) = (s.lock l').pc (c', k) := by
    intro c' l' k differ
    by_cases here : l' = l
    · subst here
      rw [same]
      refine frame _ (node_ne ?_)
      rcases differ with (caller | lock) | number
      · exact .inl caller
      · exact absurd rfl lock
      · exact .inr number
    · rw [others l' here]
  have elsewhere : ∀ c' l' k, k ≠ s.serial c' l' → (c' ≠ c ∨ l' ≠ l) ∨ k ≠ s.serial c l := by
    intro c' l' k number
    by_cases here : c' = c ∧ l' = l
    · obtain ⟨rfl, rfl⟩ := here
      exact .inr number
    · exact .inl (not_and_or.mp here)
  refine ⟨⟨fun l' => ?_, fun c' l' k lt => ?_, fun c' l' k lt => ?_⟩, ?_, fun c' l' differ => ?_⟩
  · by_cases here : l' = l
    · subst here
      obtain ⟨good, current⟩ := inv.lock l'
      rw [same]
      exact ⟨McsLock.step_good good moved, McsLock.step_current current moved⟩
    · rw [others l' here]
      exact inv.lock l'
  · rw [pcs c' l' k (elsewhere c' l' k (Nat.ne_of_lt lt))]
    exact inv.past c' l' k lt
  · rw [pcs c' l' k (elsewhere c' l' k (Nat.ne_of_gt lt))]
    exact inv.future c' l' k lt
  · rw [Locks.pc, same]
    rfl
  · exact pcs c' l' _ (.inl differ)

/-- The caller's node has been released. -/
theorem Inv.retire (inv : Inv s) (done : s.pc c l = .done) : Inv (s.retire c l) ∧
    (s.retire c l).pc c l = .fresh ∧ ∀ c' l', c' ≠ c ∨ l' ≠ l → (s.retire c l).pc c' l' = s.pc c' l' := by
  have here : (s.retire c l).serial c l = s.serial c l + 1 := by simp [Locks.retire]
  have others : ∀ c' l', c' ≠ c ∨ l' ≠ l → (s.retire c l).serial c' l' = s.serial c' l' := by
    intro c' l' differ
    by_cases caller : c' = c
    · subst caller
      simp [Locks.retire, differ.resolve_left fun differs => differs rfl]
    · simp [Locks.retire, caller]
  refine ⟨⟨inv.lock, fun c' l' k lt => ?_, fun c' l' k lt => ?_⟩, ?_, fun c' l' differ => ?_⟩
  · by_cases same : c' = c ∧ l' = l
    · obtain ⟨rfl, rfl⟩ := same
      rw [here] at lt
      rcases Nat.lt_succ_iff_lt_or_eq.mp lt with before | rfl
      · exact inv.past c' l' k before
      · exact done
    · rw [others c' l' (not_and_or.mp same)] at lt
      exact inv.past c' l' k lt
  · refine inv.future c' l' k ?_
    by_cases same : c' = c ∧ l' = l
    · obtain ⟨rfl, rfl⟩ := same
      omega
    · rw [others c' l' (not_and_or.mp same)] at lt
      exact lt
  · rw [Locks.pc, Locks.node, here]
    exact inv.future c l _ (Nat.lt_succ_self _)
  · rw [Locks.pc, Locks.node, others c' l' differ]
    rfl

/-- An access of `__mcs_lock`. -/
theorem Inv.stepLock (inv : Inv s) (arriving : Arriving (s.pc c l)) {returned : Bool}
    (moved : s.stepLock c l = some (returned, t)) : Inv t ∧
      (returned = true ∧ t.pc c l = .critical ∨ returned = false ∧ Arriving (t.pc c l)) ∧
      ∀ c' l', c' ≠ c ∨ l' ≠ l → t.pc c' l' = s.pc c' l' := by
  obtain ⟨e, access, result⟩ := Option.map_eq_some_iff.mp moved
  obtain ⟨inv', here, others⟩ := inv.setLock lockNext_node access
  have arrived := lock_pc arriving access
  split at result
  · rename_i critical
    cases result
    exact ⟨inv', .inl ⟨rfl, here.trans critical⟩, others⟩
  · rename_i waits
    cases result
    exact ⟨inv', .inr ⟨rfl, .inr (here ▸ arrived.resolve_left waits)⟩, others⟩

/-- An access of `__mcs_unlock`. -/
theorem Inv.stepUnlock (inv : Inv s) (holds : (s.pc c l).Holding) {returned : Bool}
    (moved : s.stepUnlock c l = some (returned, t)) : Inv t ∧
      (returned = true ∧ t.pc c l = .fresh ∨ returned = false ∧ (t.pc c l).Holding) ∧
      ∀ c' l', c' ≠ c ∨ l' ≠ l → t.pc c' l' = s.pc c' l' := by
  obtain ⟨e, access, result⟩ := Option.map_eq_some_iff.mp moved
  obtain ⟨inv', here, others⟩ := inv.setLock unlockNext_node access
  have left := unlock_pc holds access
  split at result
  · rename_i done
    cases result
    obtain ⟨inv'', fresh, kept⟩ := inv'.retire (here.trans done)
    exact ⟨inv'', .inl ⟨rfl, fresh⟩, fun c' l' differ => (kept c' l' differ).trans (others c' l' differ)⟩
  · rename_i still
    cases result
    exact ⟨inv', .inr ⟨rfl, here ▸ left.resolve_left still⟩, others⟩

/-! ## Spins -/

/-- A node in use is the last one of its caller. -/
theorem Inv.node_serial (inv : Inv s) {k : ℕ} (fresh : (s.lock l).pc (c, k) ≠ .fresh)
    (live : (s.lock l).pc (c, k) ≠ .done) : k = s.serial c l := by
  rcases Nat.lt_trichotomy k (s.serial c l) with before | same | after
  · exact absurd (inv.past c l k before) live
  · exact same
  · exact absurd (inv.future c l k after) fresh

/-- Between its calls a caller executes nothing of a lock. -/
theorem Inv.cur_none (inv : Inv s) (outside : ¬ (s.pc c l).InCall) : (s.lock l).cur c = none := by
  cases cur : (s.lock l).cur c with
  | none => rfl
  | some n =>
      obtain ⟨owner, inside⟩ := (inv.lock l).2 c n cur
      obtain ⟨c', k⟩ := n
      obtain rfl : c' = c := owner
      have last := inv.node_serial (fun fresh => by rw [fresh] at inside; exact inside)
        fun done => by rw [done] at inside; exact inside
      subst last
      exact absurd inside outside

/-- The acquisition goes on by itself. -/
def Moves (s : Locks C L) (c : C) (l : L) : Prop := McsLock.Moves (s.lock l) (s.node c l)

/-- An access of `__mcs_lock` changes something, or it is a spin that fails. -/
theorem Inv.lock_cases (inv : Inv s) (arriving : Arriving (s.pc c l)) :
    (∃ returned t, s.stepLock c l = some (returned, t) ∧ t.pc c l ≠ s.pc c l) ∨
      s.pc c l = .spin ∧ ¬ Moves s c l := by
  have enough : (∃ e, McsLock.step Prod.fst (s.lock l) (s.lockNext c l) = some e ∧
      e.pc (s.node c l) ≠ s.pc c l) →
      ∃ returned t, s.stepLock c l = some (returned, t) ∧ t.pc c l ≠ s.pc c l := by
    rintro ⟨e, access, changed⟩
    have here := (inv.setLock lockNext_node access).2.1
    rw [Locks.stepLock, access, Option.map_some]
    split
    · exact ⟨true, _, rfl, here ▸ changed⟩
    · exact ⟨false, _, rfl, here ▸ changed⟩
  rcases arriving with fresh | ⟨prev, joining⟩ | spins
  · left
    have free := inv.cur_none (by rw [fresh]; exact id)
    have place : (s.lock l).pc (s.node c l) = .fresh := fresh
    have free' : (s.lock l).cur (s.node c l).1 = none := free
    obtain ⟨e, access⟩ : ∃ e, McsLock.step Prod.fst (s.lock l) (s.lockNext c l) = some e := by
      simp only [Locks.lockNext, fresh, McsLock.step, place, free']
      simp only [true_and, if_true]
      split <;> exact ⟨_, rfl⟩
    refine enough ⟨e, access, ?_⟩
    rw [fresh]
    rcases lock_pc (.inl fresh) access with critical | ⟨prev, joins⟩ | spins
    · simp [critical]
    · simp [joins]
    · simp [spins]
  · left
    have place : (s.lock l).pc (s.node c l) = .setNext prev := joining
    refine enough ?_
    simp only [Locks.lockNext, joining, McsLock.step, place]
    exact ⟨_, rfl, by simp [McsLock.Sys.goto]⟩
  · by_cases moves : Moves s c l
    · left
      have place : (s.lock l).pc (s.node c l) = .spin := spins
      have granted : ((s.lock l).node (s.node c l)).state = .unlocked := by
        simpa [Moves, McsLock.Moves, place] using moves
      refine enough ?_
      simp only [Locks.lockNext, spins, McsLock.step, place, granted, if_true]
      exact ⟨_, rfl, by simp [McsLock.Sys.acquire, McsLock.Sys.setCur, McsLock.Sys.goto]⟩
    · exact .inr ⟨spins, moves⟩

/-- So does one of `__mcs_unlock`. -/
theorem Inv.unlock_cases (inv : Inv s) (holds : (s.pc c l).Holding) :
    (∃ returned t, s.stepUnlock c l = some (returned, t) ∧ t.pc c l ≠ s.pc c l) ∨
      s.pc c l = .spinNext ∧ ¬ Moves s c l := by
  have enough : (∃ e, McsLock.step Prod.fst (s.lock l) (s.unlockNext c l) = some e ∧
      e.pc (s.node c l) ≠ s.pc c l) →
      ∃ returned t, s.stepUnlock c l = some (returned, t) ∧ t.pc c l ≠ s.pc c l := by
    rintro ⟨e, access, changed⟩
    obtain ⟨inv', here, -⟩ := inv.setLock unlockNext_node access
    rw [Locks.stepUnlock, access, Option.map_some]
    split
    · rename_i done
      refine ⟨true, _, rfl, ?_⟩
      rw [(inv'.retire (here.trans done)).2.1]
      intro fresh
      rw [← fresh] at holds
      exact holds
    · exact ⟨false, _, rfl, here ▸ changed⟩
  cases pc : s.pc c l with
  | critical =>
      left
      have free := inv.cur_none (c := c) (l := l) (by rw [pc]; exact id)
      have place : (s.lock l).pc (s.node c l) = .critical := pc
      have free' : (s.lock l).cur (s.node c l).1 = none := free
      rw [pc] at enough
      refine enough ?_
      simp only [Locks.unlockNext, pc, McsLock.step, place, free', true_and, if_true]
      split <;> exact ⟨_, rfl, by simp [McsLock.Sys.setCur, McsLock.Sys.goto]⟩
  | cmpxchg =>
      left
      have place : (s.lock l).pc (s.node c l) = .cmpxchg := pc
      rw [pc] at enough
      refine enough ?_
      simp only [Locks.unlockNext, pc, McsLock.step, place, if_true]
      split_ifs <;> exact ⟨_, rfl, by simp [McsLock.Sys.setCur, McsLock.Sys.goto]⟩
  | spinNext =>
      have place : (s.lock l).pc (s.node c l) = .spinNext := pc
      cases linked : ((s.lock l).node (s.node c l)).next with
      | none => exact .inr ⟨rfl, by simp [Moves, McsLock.Moves, place, linked]⟩
      | some next =>
          left
          rw [pc] at enough
          refine enough ?_
          simp only [Locks.unlockNext, pc, McsLock.step, place, linked, if_true]
          exact ⟨_, rfl, by simp [McsLock.Sys.goto]⟩
  | setState next =>
      left
      have place : (s.lock l).pc (s.node c l) = .setState next := pc
      rw [pc] at enough
      refine enough ?_
      simp only [Locks.unlockNext, pc, McsLock.step, place]
      exact ⟨_, rfl, by simp [McsLock.Sys.setCur, McsLock.Sys.goto]⟩
  | _ => rw [pc] at holds; exact holds.elim

/-- Whoever spins for a lock waits for one who holds it or goes on by itself. -/
theorem Inv.spin_waits (inv : Inv s) (spins : s.pc c l = .spin) :
    ∃ c', s.pc c' l = .critical ∨ Moves s c' l := by
  have place : (s.lock l).pc (s.node c l) = .spin := spins
  obtain ⟨⟨c', k⟩, holds | moves⟩ := McsLock.progress (inv.lock l).1 (n := s.node c l)
    (by rw [place]; simp) (by rw [place]; simp)
  · have last := inv.node_serial (by rw [holds]; simp) (by rw [holds]; simp)
    subst last
    exact ⟨c', .inl holds⟩
  · obtain ⟨fresh, -, done⟩ := McsLock.moves_busy moves
    have last := inv.node_serial fresh done
    subst last
    exact ⟨c', .inr moves⟩

/-- Whoever spins for its successor waits for one who goes on by itself. -/
theorem Inv.spinNext_waits (inv : Inv s) (spins : s.pc c l = .spinNext) :
    ∃ c', Moves s c' l := by
  have place : (s.lock l).pc (s.node c l) = .spinNext := spins
  obtain ⟨⟨c', k⟩, moves⟩ := McsLock.progress_spinNext (inv.lock l).1 place
  obtain ⟨fresh, -, done⟩ := McsLock.moves_busy moves
  have last := inv.node_serial fresh done
  subst last
  exact ⟨c', moves⟩

/-- A lock has one holder. -/
theorem Inv.holder_unique (inv : Inv s) (left : (s.pc c l).Holding) (right : (s.pc c' l).Holding) :
    c = c' := by
  obtain ⟨old, queue, queued⟩ := (inv.lock l).1.queue
  have same := queued.active_unique (m := s.node c l) (n := s.node c' l)
    ((McsLock.holding_iff_active _).mp left) ((McsLock.holding_iff_active _).mp right)
  exact congrArg Prod.fst same

end Accesses

end Twan.Sync.McsCalls
