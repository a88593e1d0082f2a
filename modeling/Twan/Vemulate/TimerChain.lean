/-
# Twan.Vemulate.TimerChain -- when the timers of a delta chain are due

A delta chain stores distances.  `dues base chain` is the list of its timers with the ticks that
each is due at, the chain counting from `base`; the operations on the chain are the plain ones on
this list:

* `dues_insert`: a new timer goes behind those that are due no later, and no other moves;
* `dues_dequeue`: a timer leaves, and no other moves.  The sum of two deltas does not wrap as long
  as everything is due within 64 bits;
* `mem_dues_middle`: a timer is due after all deltas up to its own.

`Vtimers.Queued` says that the chain has the armed timers of a vcpu and when each is due, and is
kept by arming and disarming one (`Queued.insert`, `Queued.remove`).

`Shows` compares the list with the linked chain of `delta_chain.h`: it shows the list, and
inserting and dequeuing keep that (`Shows.insert`, `Shows.dequeue`).
-/
import Twan.Lib.DeltaChain
import Twan.Vemulate.Utils
import Mathlib.Data.List.Sort

namespace Twan.Vemulate

set_option autoImplicit false

open Twan.Lib

/-- What each timer is due at, the first one its delta after `base`. -/
def dues : ℕ → List (ℕ × BitVec 64) → List (ℕ × ℕ)
  | _, [] => []
  | base, (n, delta) :: rest => (n, base + delta.toNat) :: dues (base + delta.toNat) rest

/-- The deltas of these nodes together. -/
def deltaSum (chain : List (ℕ × BitVec 64)) : ℕ :=
  (chain.map fun e => e.2.toNat).sum

variable {base n : ℕ} {remaining : BitVec 64} {chain : List (ℕ × BitVec 64)}

@[simp] theorem map_fst_dues (base : ℕ) (chain : List (ℕ × BitVec 64)) :
    (dues base chain).map Prod.fst = chain.map Prod.fst := by
  induction chain generalizing base with
  | nil => rfl
  | cons e chain ih => exact congrArg _ (ih _)

theorem le_of_mem_dues : ∀ e ∈ dues base chain, base ≤ e.2 := by
  induction chain generalizing base with
  | nil => exact fun e inside => absurd inside List.not_mem_nil
  | cons first chain ih =>
      intro e inside
      rcases List.mem_cons.mp inside with rfl | inside
      · exact Nat.le_add_right base _
      · exact Nat.le_trans (Nat.le_add_right base _) (ih e inside)

/-- A timer is due after all deltas up to its own. -/
theorem mem_dues_middle (base : ℕ) (before after : List (ℕ × BitVec 64)) (delta : BitVec 64) :
    (n, base + deltaSum (before ++ [(n, delta)])) ∈ dues base (before ++ (n, delta) :: after) := by
  induction before generalizing base with
  | nil => simp [dues, deltaSum]
  | cons first before ih =>
      have sum : base + deltaSum (first :: before ++ [(n, delta)]) =
          base + first.2.toNat + deltaSum (before ++ [(n, delta)]) := by
        simp only [deltaSum, List.cons_append, List.map_cons, List.sum_cons, Nat.add_assoc]
      rw [sum]
      exact List.mem_cons_of_mem _ (ih _)

/-! ## The operations -/

/-- Who is due earlier. -/
def Sooner (e f : ℕ × ℕ) : Prop := e.2 < f.2

instance : DecidableRel Sooner := fun e f => inferInstanceAs (Decidable (e.2 < f.2))

/-- The new timer comes before the first one that is due later. -/
theorem dues_insert (base : ℕ) : dues base (deltaChainInsert n remaining chain) =
    (dues base chain).orderedInsert Sooner (n, base + remaining.toNat) := by
  induction chain generalizing base remaining with
  | nil => rfl
  | cons first chain ih =>
      obtain ⟨cur, delta⟩ := first
      rw [deltaChainInsert, dues, List.orderedInsert_cons]
      by_cases less : remaining < delta
      · have sooner : Sooner (n, base + remaining.toNat) (cur, base + delta.toNat) :=
          Nat.add_lt_add_left less base
        have left : base + remaining.toNat + (delta - remaining).toNat = base + delta.toNat := by
          rw [BitVec.toNat_sub_of_le (BitVec.le_of_lt less)]
          have : remaining.toNat < delta.toNat := less
          omega
        rw [if_pos less, if_pos sooner, dues, dues, left]
      · have later : ¬ Sooner (n, base + remaining.toNat) (cur, base + delta.toNat) :=
          fun sooner => less (Nat.lt_of_add_lt_add_left sooner)
        have enough : delta ≤ remaining := BitVec.not_lt.mp less
        have left : base + delta.toNat + (remaining - delta).toNat = base + remaining.toNat := by
          rw [BitVec.toNat_sub_of_le enough]
          have : delta.toNat ≤ remaining.toNat := enough
          omega
        rw [if_neg less, if_neg later, dues, ih, left]

theorem mem_dues_insert {e : ℕ × ℕ} : e ∈ dues base (deltaChainInsert n remaining chain) ↔
    e = (n, base + remaining.toNat) ∨ e ∈ dues base chain := by
  rw [dues_insert, List.mem_orderedInsert]

theorem insert_perm : ((deltaChainInsert n remaining chain).map Prod.fst).Perm
    (n :: chain.map Prod.fst) := by
  have perm := List.perm_orderedInsert Sooner (n, 0 + remaining.toNat) (dues 0 chain)
  rw [← dues_insert] at perm
  simpa using perm.map Prod.fst

/-- Only the timer itself leaves. -/
theorem dues_dequeue (nodup : (chain.map Prod.fst).Nodup)
    (small : ∀ e ∈ dues base chain, e.2 < base + 2 ^ 64) :
    dues base (deltaChainDequeueNoCallback n chain) =
      (dues base chain).filter fun e => e.1 ≠ n := by
  have others : ∀ (base : ℕ) (chain : List (ℕ × BitVec 64)), n ∉ chain.map Prod.fst →
      (dues base chain).filter (fun e => e.1 ≠ n) = dues base chain := by
    intro base chain outside
    refine List.filter_eq_self.mpr fun e inside => decide_eq_true fun same => outside ?_
    rw [← map_fst_dues base, ← same]
    exact List.mem_map_of_mem inside
  induction chain using deltaChainDequeueNoCallback.induct n generalizing base with
  | case1 => rfl
  | case2 delta => simp [deltaChainDequeueNoCallback, dues]
  | case3 cur delta other => simp [deltaChainDequeueNoCallback, dues, other]
  | case4 delta next nextDelta rest =>
      obtain ⟨here, -⟩ := List.nodup_cons.mp nodup
      have bound := small (next, base + delta.toNat + nextDelta.toNat) (by simp [dues])
      have sum : (nextDelta + delta).toNat = delta.toNat + nextDelta.toNat := by
        rw [BitVec.toNat_add, Nat.mod_eq_of_lt] <;> omega
      rw [deltaChainDequeueNoCallback, if_pos rfl, dues, dues, List.filter_cons_of_neg (by simp),
        others _ _ here, dues, sum, Nat.add_assoc]
  | case5 cur delta next nextDelta rest other ih =>
      obtain ⟨-, later⟩ := List.nodup_cons.mp nodup
      rw [deltaChainDequeueNoCallback, if_neg other, dues, dues,
        List.filter_cons_of_pos (by simpa using other)]
      refine congrArg _ (ih later fun e inside => ?_)
      have := small e (List.mem_cons_of_mem _ inside)
      omega

/-! ## The timers of a vcpu -/

namespace Vtimers

variable (v : Vtimers)

/-- The timer is armed. -/
def insert (n : ℕ) (timer : Vtimer) : Vtimers where
  timers := Function.update v.timers n timer
  chain := deltaChainInsert n (timer.ticks.setWidth 64) v.chain

/-- The timer is no longer armed. -/
def remove (n : ℕ) : Vtimers where
  timers := Function.update v.timers n { v.timers n with armed := false }
  chain := deltaChainDequeueNoCallback n v.chain

/-- The chain has the armed timers and says when each is due. -/
structure Queued (now : ℕ) (due : ℕ → ℕ) : Prop where
  nodup : (v.chain.map Prod.fst).Nodup
  armed : ∀ n, (v.timers n).armed = true ↔ n ∈ v.chain.map Prod.fst
  dated : ∀ e ∈ dues now v.chain, e.2 = due e.1
  near : ∀ n, (v.timers n).armed = true → due n < now + 2 ^ 32
  /-- As `varm_timern` has checked. -/
  valid : ∀ n, (v.timers n).armed = true → (v.timers n).nmi = true →
    (v.timers n).vector = nmiVector

variable {v} {now : ℕ} {due : ℕ → ℕ}

theorem Queued.armed_of_due (queued : v.Queued now due) {e : ℕ × ℕ}
    (inside : e ∈ dues now v.chain) : (v.timers e.1).armed = true := by
  rw [queued.armed, ← map_fst_dues now]
  exact List.mem_map_of_mem inside

theorem Queued.mem_dues (queued : v.Queued now due) (armed : (v.timers n).armed = true) :
    (n, due n) ∈ dues now v.chain := by
  have inside := (queued.armed n).mp armed
  rw [← map_fst_dues now] at inside
  obtain ⟨e, member, rfl⟩ := List.mem_map.mp inside
  rwa [← queued.dated e member]

theorem Queued.small (queued : v.Queued now due) : ∀ e ∈ dues now v.chain, e.2 < now + 2 ^ 32 := by
  intro e inside
  rw [queued.dated e inside]
  exact queued.near e.1 (queued.armed_of_due inside)

/-- Only what the armed timers are due at matters. -/
theorem Queued.redate {due' : ℕ → ℕ} (queued : v.Queued now due)
    (same : ∀ n, (v.timers n).armed = true → due' n = due n) : v.Queued now due' where
  nodup := queued.nodup
  armed := queued.armed
  dated := fun e inside =>
    (queued.dated e inside).trans (same e.1 (queued.armed_of_due inside)).symm
  near := fun n on => (same n on).trans_lt (queued.near n on)
  valid := queued.valid

/-- The chain may count from a later time. -/
theorem Queued.recount {later : ℕ} {chain : List (ℕ × BitVec 64)} (queued : v.Queued now due)
    (same : dues later chain = dues now v.chain) (le : now ≤ later) :
    Queued { v with chain := chain } later due := by
  have numbers : chain.map Prod.fst = v.chain.map Prod.fst := by
    rw [← map_fst_dues later, same, map_fst_dues]
  refine ⟨?_, ?_, ?_, ?_, queued.valid⟩
  · rw [numbers]
    exact queued.nodup
  · rw [numbers]
    exact queued.armed
  · rw [same]
    exact queued.dated
  · intro n on
    have := queued.near n on
    omega

theorem Queued.insert {timer : Vtimer} (queued : v.Queued now due)
    (free : (v.timers n).armed = false) (on : timer.armed = true)
    (valid : timer.nmi = true → timer.vector = nmiVector) :
    (v.insert n timer).Queued now (Function.update due n (now + timer.ticks.toNat)) := by
  have outside : n ∉ v.chain.map Prod.fst := by
    rw [← queued.armed, free]
    exact Bool.false_ne_true
  have perm : ((v.insert n timer).chain.map Prod.fst).Perm (n :: v.chain.map Prod.fst) :=
    insert_perm
  have ticks : (timer.ticks.setWidth 64).toNat = timer.ticks.toNat := by
    rw [BitVec.toNat_setWidth, Nat.mod_eq_of_lt (by omega)]
  refine ⟨perm.nodup_iff.mpr (List.nodup_cons.mpr ⟨outside, queued.nodup⟩), ?_, ?_, ?_, ?_⟩
  · intro m
    rw [perm.mem_iff, List.mem_cons]
    show (Function.update v.timers n timer m).armed = true ↔ _
    by_cases same : m = n
    · subst same
      rw [Function.update_self]
      exact iff_of_true on (.inl rfl)
    · rw [Function.update_of_ne same, queued.armed]
      exact (or_iff_right same).symm
  · intro e inside
    rcases mem_dues_insert.mp inside with rfl | older
    · rw [Function.update_self, ticks]
    · have apart : e.1 ≠ n := by
        intro same
        rw [← same, queued.armed_of_due older] at free
        cases free
      rw [Function.update_of_ne apart]
      exact queued.dated e older
  · intro m
    show (Function.update v.timers n timer m).armed = true → _
    by_cases same : m = n
    · subst same
      rw [Function.update_self, Function.update_self]
      omega
    · rw [Function.update_of_ne same, Function.update_of_ne same]
      exact queued.near m
  · exact (Function.forall_update_iff v.timers
      (p := fun _ timer => timer.armed = true → timer.nmi = true → timer.vector = nmiVector)).mpr
      ⟨fun _ => valid, fun m _ => queued.valid m⟩

theorem Queued.remove (queued : v.Queued now due) : (v.remove n).Queued now due := by
  have left : dues now (v.remove n).chain = (dues now v.chain).filter fun e => e.1 ≠ n := by
    refine dues_dequeue queued.nodup fun e inside => ?_
    have := queued.small e inside
    omega
  have numbers : (v.remove n).chain.map Prod.fst = (v.chain.map Prod.fst).filter (· ≠ n) := by
    rw [← map_fst_dues now, left, ← map_fst_dues now, List.filter_map]
    rfl
  have armed : ∀ m, ((v.remove n).timers m).armed = true → m ≠ n ∧ (v.timers m).armed = true := by
    intro m
    show (Function.update v.timers n _ m).armed = true → _
    by_cases same : m = n
    · subst same
      rw [Function.update_self]
      exact fun on => absurd on Bool.false_ne_true
    · rw [Function.update_of_ne same]
      exact fun on => ⟨same, on⟩
  have other : ∀ m, m ≠ n → (v.remove n).timers m = v.timers m := fun m apart =>
    Function.update_of_ne apart ..
  refine ⟨?_, ?_, ?_, ?_, ?_⟩
  · rw [numbers]
    exact queued.nodup.filter _
  · intro m
    rw [numbers, List.mem_filter, ← queued.armed, decide_eq_true_iff]
    constructor
    · exact fun on => (armed m on).symm
    · intro both
      rw [other m both.2]
      exact both.1
  · intro e inside
    rw [left] at inside
    exact queued.dated e (List.mem_filter.mp inside).1
  · exact fun m on => queued.near m (armed m on).2
  · intro m on
    rw [other m (armed m on).1]
    exact queued.valid m (armed m on).2

end Vtimers

/-! ## The linked chain -/

theorem orderedInsert_between {a b : List (ℕ × ℕ)} {x : ℕ × ℕ} (sooner : ∀ e ∈ a, e.2 ≤ x.2)
    (later : ∀ e ∈ b, x.2 < e.2) : (a ++ b).orderedInsert Sooner x = a ++ x :: b := by
  induction a with
  | nil =>
      cases b with
      | nil => rfl
      | cons e b => exact List.orderedInsert_cons_of_le Sooner b (later e List.mem_cons_self)
  | cons e a ih =>
      have notYet : ¬ Sooner x e := Nat.not_lt.mpr (sooner e List.mem_cons_self)
      rw [List.cons_append, List.orderedInsert_of_not_le Sooner _ notYet,
        ih fun e inside => sooner e (List.mem_cons_of_mem _ inside)]
      rfl

section Linked

variable {k : ℕ} {c : DeltaChain.DeltaChain (Fin k)} {node : Fin k}

/-- The linked chain has these timers, due in the same ticks. -/
def Shows (c : DeltaChain.DeltaChain (Fin k)) (chain : List (ℕ × BitVec 64)) : Prop :=
  ∃ l, DeltaChain.Holds c l ∧ dues 0 chain = l.map fun e => (e.1.val, e.2)

theorem numbers_of_dues {l : List (Fin k × ℕ)}
    (same : dues 0 chain = l.map fun e => (e.1.val, e.2)) :
    chain.map Prod.fst = (l.map Prod.fst).map Fin.val := by
  rw [← map_fst_dues 0, same, List.map_map, List.map_map]
  rfl

/-- `delta_chain_insert` of the linked chain. -/
theorem Shows.insert (shows_ : Shows c chain) (outside : node.val ∉ chain.map Prod.fst) :
    Shows (c.insert node remaining.toNat) (deltaChainInsert node.val remaining chain) := by
  obtain ⟨l, holds, same⟩ := shows_
  have notIn : node ∉ l.map Prod.fst := by
    rw [numbers_of_dues same] at outside
    exact fun inside => outside (List.mem_map_of_mem inside)
  obtain ⟨a, b, split, sooner, later, inserted⟩ := holds.insert remaining.toNat notIn
  refine ⟨_, inserted, ?_⟩
  rw [dues_insert, same, split, List.map_append, Nat.zero_add, orderedInsert_between
    (List.forall_mem_map.mpr sooner) (List.forall_mem_map.mpr later), List.map_append]
  rfl

/-- `delta_chain_dequeue_no_callback` of the linked chain. -/
theorem Shows.dequeue (shows_ : Shows c chain) (inside : node.val ∈ chain.map Prod.fst)
    (small : ∀ e ∈ dues 0 chain, e.2 < 2 ^ 64) :
    Shows (c.dequeueNoCallback node) (deltaChainDequeueNoCallback node.val chain) := by
  obtain ⟨l, holds, same⟩ := shows_
  have numbers := numbers_of_dues same
  have nodup : (chain.map Prod.fst).Nodup := by
    rw [numbers]
    exact holds.nodup.map Fin.val_injective
  rw [numbers, List.mem_map_of_injective Fin.val_injective] at inside
  obtain ⟨⟨m, due⟩, member, rfl⟩ := List.mem_map.mp inside
  obtain ⟨a, b, rfl⟩ := List.append_of_mem member
  have others : ∀ e ∈ a ++ b, e.1 ≠ m := by
    intro e inside
    rcases List.mem_append.mp inside with inside | inside
    · exact holds.apart inside List.mem_cons_self
    · have shift : a ++ (m, due) :: b = (a ++ [(m, due)]) ++ b := by simp
      rw [shift] at holds
      exact (holds.apart (List.mem_append_right a (List.mem_singleton_self _)) inside).symm
  have stay : ∀ e ∈ (a ++ b).map fun e => (e.1.val, e.2), decide (e.1 ≠ m.val) = true := by
    refine List.forall_mem_map.mpr fun e inside => decide_eq_true ?_
    exact fun same => others e inside (Fin.val_injective same)
  refine ⟨a ++ b, holds.dequeue, ?_⟩
  rw [dues_dequeue nodup (by simpa using small), same, List.map_append, List.map_cons,
    List.filter_append, List.filter_cons_of_neg (by simp), ← List.filter_append, ← List.map_append,
    List.filter_eq_self.mpr stay]

end Linked

end Twan.Vemulate
