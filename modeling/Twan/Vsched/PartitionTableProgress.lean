/-
# Twan.Vsched.PartitionTableProgress -- nobody waits for ever

`Inv` ties what a CPU has to do yet to where it is in each of the locks.  A CPU that cannot go on
waits for one of them (`enabled_or_blocked`), and so somebody else has it, or comes before it
(`blocked_cases`): where nobody can go on, all calls have returned (`stuck_done`).
`partition_table_progress` is that for every run in which no writer is present at a second read,
`set_route_deadlock` a run in which one is.
-/
import Mathlib.Data.Fintype.Prod
import Twan.Vsched.PartitionTable

namespace Twan.Vsched.PartitionTable

set_option autoImplicit false
set_option linter.unusedSectionVars false

open Twan.Base Twan.Sync

/-! ## The invariant -/

section Invariant

variable {Cpu : Type} [DecidableEq Cpu] [Fintype Cpu] {s t : Sys Cpu} {p q : Cpu}

/-- Where the acquisitions of the entries by a CPU are. -/
def Sys.pcs (s : Sys Cpu) (p : Cpu) (vid : Vid) : McsLock.Pc (Cpu × ℕ) :=
  (s.entry vid).pc (s.node p vid)

def Local (s : Sys Cpu) (p : Cpu) : Prop :=
  Obeys (s.rw.pc (p, .outer)) (s.rw.pc (p, .inner)) (s.pcs p) (s.code p)

/-- The locks are in reachable states, every CPU holds what its code fits, the nodes it has used
are done and the ones it will use are fresh. -/
structure Inv (s : Sys Cpu) : Prop where
  rw : RwLock.Good s.rw
  entry : ∀ vid, McsLock.Good Prod.fst (s.entry vid) ∧ McsLock.Current Prod.fst (s.entry vid)
  obeys : ∀ p, Local s p
  past : ∀ p vid k, k < s.serial p vid → (s.entry vid).pc (p, k) = .done
  future : ∀ p vid k, s.serial p vid < k → (s.entry vid).pc (p, k) = .fresh
  inner : ∀ p wp, s.rw.pc (p, .inner) ≠ .spinRin wp

theorem inv_initial (valid : Vid → Bool) : Inv (.initial valid : Sys Cpu) where
  rw := RwLock.good_initial
  entry _ := ⟨McsLock.good_initial, fun p n executes => by cases executes⟩
  obeys _ := ⟨rfl, rfl, fun _ => rfl⟩
  past p vid k lt := absurd lt (Nat.not_lt_zero k)
  future _ _ _ _ := rfl
  inner p wp := RwLock.Pc.noConfusion

/-- An access of the reader-writer lock by `p`. -/
theorem Inv.of_rw (inv : Inv s) (few : 2 * Fintype.card Cpu < 2 ^ 24)
    {act : RwLock.Action (Cpu × Level)} {l : Level} (caller : act.caller = (p, l))
    (moved : RwLock.step s.rw act = some t.rw) (entry : t.entry = s.entry)
    (serial : t.serial = s.serial) (code : ∀ q, q ≠ p → t.code q = s.code q)
    (obeys : Local t p) (inner : ∀ wp, t.rw.pc (p, .inner) ≠ .spinRin wp) : Inv t := by
  have frame : ∀ q m, q ≠ p → t.rw.pc (q, m) = s.rw.pc (q, m) := by
    intro q m other
    refine RwLock.step_frame (fun same => other ?_) moved
    rw [caller] at same
    exact congrArg Prod.fst same
  have pcs : t.pcs = s.pcs := by
    funext q vid
    simp only [Sys.pcs, Sys.node, entry, serial]
  have cards : Fintype.card (Cpu × Level) = 2 * Fintype.card Cpu := by
    rw [Fintype.card_prod, Nat.mul_comm]
    rfl
  refine ⟨?_, fun vid => by rw [entry]; exact inv.entry vid, fun q => ?_, ?_, ?_, fun q wp => ?_⟩
  · have bounded : RwLock.Bounded s.rw act := by
      have most := count_le_card RwLock.Pc.reader s.rw.pc
      have mostWriters := count_le_card RwLock.Pc.waitsTurn s.rw.pc
      constructor <;> omega
    exact RwLock.step_good inv.rw bounded moved
  · by_cases here : q = p
    · exact here ▸ obeys
    · unfold Local
      rw [frame q _ here, frame q _ here, pcs, code q here]
      exact inv.obeys q
  · rw [serial, entry]
    exact inv.past
  · rw [serial, entry]
    exact inv.future
  · by_cases here : q = p
    · exact here ▸ inner wp
    · rw [frame q _ here]
      exact inv.inner q wp

/-- An access of the lock of entry `vid` by `p`. -/
theorem Inv.of_entry (inv : Inv s) {act : McsLock.Action (Cpu × ℕ)} {vid : Vid}
    {e : McsLock.Sys Cpu (Cpu × ℕ)} (node : act.node = s.node p vid)
    (moved : McsLock.step Prod.fst (s.entry vid) act = some e) (rw : t.rw = s.rw)
    (entry : t.entry = Function.update s.entry vid e)
    (elsewhere : ∀ q v, q ≠ p ∨ v ≠ vid → t.serial q v = s.serial q v)
    (here : t.serial p vid = s.serial p vid ∨
      t.serial p vid = s.serial p vid + 1 ∧ e.pc (s.node p vid) = .done)
    (code : ∀ q, q ≠ p → t.code q = s.code q) (obeys : Local t p) : Inv t := by
  have frame : ∀ n, n ≠ s.node p vid → e.pc n = (s.entry vid).pc n := fun n other =>
    McsLock.step_frame (by rw [node]; exact other) moved
  have same : t.entry vid = e := by rw [entry, Function.update_self]
  have others : ∀ v, v ≠ vid → t.entry v = s.entry v := fun v apart => by
    rw [entry, Function.update_of_ne apart]
  have apart : ∀ {q k}, q ≠ p ∨ k ≠ s.serial p vid → (q, k) ≠ s.node p vid := by
    rintro q k differ equal
    rcases differ with cpu | number
    · exact cpu (congrArg Prod.fst equal)
    · exact number (congrArg Prod.snd equal)
  refine ⟨rw ▸ inv.rw, fun v => ?_, fun q => ?_, fun q v k lt => ?_, fun q v k lt => ?_, fun q wp => ?_⟩
  · by_cases there : v = vid
    · subst there
      obtain ⟨good, current⟩ := inv.entry v
      rw [same]
      exact ⟨McsLock.step_good good moved, McsLock.step_current current moved⟩
    · rw [others v there]
      exact inv.entry v
  · by_cases mine : q = p
    · exact mine ▸ obeys
    · have pcs : t.pcs q = s.pcs q := by
        funext v
        unfold Sys.pcs Sys.node
        rw [elsewhere q v (.inl mine)]
        by_cases there : v = vid
        · subst there
          rw [same]
          exact frame _ (apart (.inl mine))
        · rw [others v there]
      unfold Local
      rw [rw, pcs, code q mine]
      exact inv.obeys q
  · by_cases there : v = vid
    · subst there
      rw [same]
      by_cases mine : q = p
      · subst mine
        rcases here with kept | ⟨bumped, done⟩
        · rw [frame _ (apart (.inr (by omega)))]
          exact inv.past q v k (by omega)
        · by_cases last : k = s.serial q v
          · subst last
            exact done
          · rw [frame _ (apart (.inr last))]
            exact inv.past q v k (by omega)
      · rw [frame _ (apart (.inl mine))]
        exact inv.past q v k (by rw [← elsewhere q v (.inl mine)]; exact lt)
    · rw [others v there]
      exact inv.past q v k (by rw [← elsewhere q v (.inr there)]; exact lt)
  · by_cases there : v = vid
    · subst there
      rw [same]
      by_cases mine : q = p
      · subst mine
        rw [frame _ (apart (.inr (by omega)))]
        exact inv.future q v k (by omega)
      · rw [frame _ (apart (.inl mine))]
        exact inv.future q v k (by rw [← elsewhere q v (.inl mine)]; exact lt)
    · rw [others v there]
      exact inv.future q v k (by rw [← elsewhere q v (.inr there)]; exact lt)
  · rw [rw]
    exact inv.inner q wp

/-- A step that leaves the locks. -/
theorem Inv.of_code (inv : Inv s) (rw : t.rw = s.rw) (entry : t.entry = s.entry)
    (serial : t.serial = s.serial) (code : ∀ q, q ≠ p → t.code q = s.code q) (obeys : Local t p) :
    Inv t := by
  have pcs : t.pcs = s.pcs := by
    funext q vid
    simp only [Sys.pcs, Sys.node, entry, serial]
  refine ⟨rw ▸ inv.rw, fun v => by rw [entry]; exact inv.entry v, fun q => ?_, ?_, ?_, ?_⟩
  · by_cases mine : q = p
    · exact mine ▸ obeys
    · unfold Local
      rw [rw, pcs, code q mine]
      exact inv.obeys q
  · rw [serial, entry]
    exact inv.past
  · rw [serial, entry]
    exact inv.future
  · rw [rw]
    exact inv.inner

theorem other_level {act : RwLock.Action (Cpu × Level)} {l m : Level} (caller : act.caller = (p, l))
    (apart : m ≠ l) {rw : RwLock.Sys (Cpu × Level)} (moved : RwLock.step s.rw act = some rw) :
    rw.pc (p, m) = s.rw.pc (p, m) := by
  refine RwLock.step_frame (fun same => apart ?_) moved
  rw [caller] at same
  exact congrArg Prod.snd same

/-- The code after an access of the reader-writer lock. -/
theorem callRw_inv (inv : Inv s) (few : 2 * Fintype.card Cpu < 2 ^ 24)
    {act : RwLock.Action (Cpu × Level)} {l : Level} {last : RwLock.Pc} {k : Code}
    (caller : act.caller = (p, l)) (moved : s.callRw p act last k = some t)
    (obeys : ∀ rw, RwLock.step s.rw act = some rw →
      Obeys (rw.pc (p, .outer)) (rw.pc (p, .inner)) (s.pcs p)
        (if rw.pc (p, l) = last then k else s.code p))
    (inner : ∀ rw, RwLock.step s.rw act = some rw → ∀ wp, rw.pc (p, .inner) ≠ .spinRin wp) :
    Inv t := by
  obtain ⟨rw, access, rfl⟩ := Option.map_eq_some_iff.mp moved
  refine inv.of_rw few caller access rfl rfl (fun q other => ?_) ?_ (inner rw access)
  · simp only
    split_ifs
    · exact Function.update_of_ne other _ _
    · rfl
  · have fits := obeys rw access
    unfold Local
    simp only [caller]
    split_ifs at fits ⊢ with returned
    · rw [Function.update_self]
      exact fits
    · exact fits

omit [Fintype Cpu] in
/-- Where the CPU is at the entries once one of them is another. -/
theorem pcs_entry (vid : Vid) (e : McsLock.Sys Cpu (Cpu × ℕ)) (code : Cpu → Code) :
    Sys.pcs { s with entry := Function.update s.entry vid e, code := code } p =
      Function.update (s.pcs p) vid (e.pc (s.node p vid)) := by
  funext v
  by_cases there : v = vid
  · subst there
    simp [Sys.pcs, Sys.node]
  · simp [Sys.pcs, Sys.node, there]

theorem callLock_inv (inv : Inv s) {vid : Vid} {k : Code} (code : s.code p = .entryLock vid k)
    (moved : s.callLock p vid k = some t) : Inv t := by
  have fits := inv.obeys p
  unfold Local at fits
  rw [code] at fits
  obtain ⟨outer, inner, place, below, next⟩ := fits
  obtain ⟨e, access, rfl⟩ := Option.map_eq_some_iff.mp moved
  refine inv.of_entry entryLockNext_node access rfl rfl (fun _ _ _ => rfl) (.inl rfl)
    (fun q other => ?_) ?_
  · simp only
    split_ifs
    · exact Function.update_of_ne other _ _
    · rfl
  · unfold Local
    simp only
    rcases entryLock_pc place access with critical | waits
    · rw [if_pos critical, pcs_entry, critical, Function.update_self]
      exact next
    · have spins : e.pc (s.node p vid) ≠ .critical := by
        rcases waits with ⟨_, joins⟩ | spins
        · simp [joins]
        · simp [spins]
      rw [if_neg spins, pcs_entry, code]
      refine ⟨outer, inner, ?_, fun v apart => ?_, ?_⟩
      · rw [Function.update_self]
        exact .inr waits
      · rw [Function.update_of_ne apart]
        exact below v apart
      · rw [Function.update_idem]
        exact next

theorem callUnlock_inv (inv : Inv s) {vid : Vid} {k : Code} (code : s.code p = .entryUnlock vid k)
    (moved : s.callUnlock p vid k = some t) : Inv t := by
  have fits := inv.obeys p
  unfold Local at fits
  rw [code] at fits
  obtain ⟨outer, inner, holds, rest, next⟩ := fits
  obtain ⟨e, access, rfl⟩ := Option.map_eq_some_iff.mp moved
  split_ifs with done
  · refine inv.of_entry entryUnlockNext_node access rfl rfl (fun q v apart => ?_) (.inr ⟨?_, done⟩)
      (fun q other => Function.update_of_ne other _ _) ?_
    · by_cases mine : q = p
      · subst mine
        have there := apart.resolve_left fun differ => differ rfl
        simp [there]
      · simp [mine]
    · simp
    · -- the next node is fresh
      have pcs : Sys.pcs { s with
          entry := Function.update s.entry vid e
          code := Function.update s.code p k
          serial := Function.update s.serial p
            (Function.update (s.serial p) vid (s.serial p vid + 1)) } p =
          Function.update (s.pcs p) vid .fresh := by
        funext v
        by_cases there : v = vid
        · subst there
          have apart : (p, s.serial p v + 1) ≠ (entryUnlockNext s p v).node := by
            rw [entryUnlockNext_node]
            intro same
            have number := congrArg Prod.snd same
            simp [Sys.node] at number
          simp only [Sys.pcs, Sys.node, Function.update_self]
          rw [McsLock.step_frame apart access]
          exact inv.future p v _ (Nat.lt_succ_self _)
        · simp [Sys.pcs, Sys.node, there]
      unfold Local
      rw [pcs]
      simp only [Function.update_self]
      exact next
  · refine inv.of_entry entryUnlockNext_node access rfl rfl (fun _ _ _ => rfl) (.inl rfl)
      (fun _ _ => rfl) ?_
    unfold Local
    rw [pcs_entry]
    simp only [code]
    refine ⟨outer, inner, ?_, fun v apart => ?_, ?_⟩
    · rw [Function.update_self]
      exact (entryUnlock_pc holds access).resolve_left done
    · rw [Function.update_of_ne apart]
      exact rest v apart
    · rw [Function.update_idem]
      exact next

theorem readLock_outer_inv (inv : Inv s) (few : 2 * Fintype.card Cpu < 2 ^ 24) {k : Code}
    (code : s.code p = .readLock .outer k)
    (moved : s.callRw p (readLockNext s p .outer) .reading k = some t) : Inv t := by
  have fits := inv.obeys p
  unfold Local at fits
  rw [code] at fits
  obtain ⟨place, idle, fresh, next⟩ := fits
  have caller := readLockNext_caller (s := s) (p := p) .outer
  have frame := @other_level Cpu _ _ s p _ .outer .inner caller (by decide)
  refine callRw_inv inv few caller moved (fun rw access => ?_) fun rw access wp => ?_
  · rw [frame access, code]
    rcases readLock_pc place access with reading | ⟨wp, spins⟩
    · rw [if_pos reading, reading]
      exact next
    · rw [if_neg (by rw [spins]; exact RwLock.Pc.noConfusion), spins]
      exact ⟨.inr ⟨wp, rfl⟩, idle, fresh, next⟩
  · rw [frame access]
    exact inv.inner p wp

/-- No writer is present, so that the second read does not wait. -/
theorem readLock_inner_inv (inv : Inv s) (few : 2 * Fintype.card Cpu < 2 ^ 24)
    (alone : NoWriter s (.move p)) {k : Code} (code : s.code p = .readLock .inner k)
    (moved : s.callRw p (readLockNext s p .inner) .reading k = some t) : Inv t := by
  have fits := inv.obeys p
  unfold Local at fits
  rw [code] at fits
  obtain ⟨reading, place, rest, next⟩ := fits
  have caller := readLockNext_caller (s := s) (p := p) .inner
  have frame := @other_level Cpu _ _ s p _ .inner .outer caller (by decide)
  have enters : ∀ rw, RwLock.step s.rw (readLockNext s p .inner) = some rw →
      rw.pc (p, .inner) = .reading := by
    intro rw access
    rcases place with idle | ⟨wp, spins⟩
    · simp only [NoWriter, code] at alone
      exact readLock_alone idle (alone idle) access
    · exact absurd spins (inv.inner p wp)
  refine callRw_inv inv few caller moved (fun rw access => ?_) fun rw access wp => ?_
  · rw [frame access, if_pos (enters rw access), enters rw access]
    exact next
  · rw [enters rw access]
    exact RwLock.Pc.noConfusion

theorem readUnlock_inv (inv : Inv s) (few : 2 * Fintype.card Cpu < 2 ^ 24) {l : Level} {k : Code}
    (code : s.code p = .readUnlock l k)
    (moved : s.callRw p (.unlockRead (p, l)) .idle k = some t) : Inv t := by
  have fits := inv.obeys p
  unfold Local at fits
  rw [code] at fits
  cases l with
  | outer =>
      obtain ⟨_, next⟩ := fits
      have frame := @other_level Cpu _ _ s p (.unlockRead (p, .outer)) .outer .inner rfl (by decide)
      refine callRw_inv inv few (l := .outer) rfl moved (fun rw access => ?_) fun rw access wp => ?_
      · rw [frame access, if_pos (readUnlock_pc access), readUnlock_pc access]
        exact next
      · rw [frame access]
        exact inv.inner p wp
  | inner =>
      obtain ⟨_, next⟩ := fits
      have frame := @other_level Cpu _ _ s p (.unlockRead (p, .inner)) .inner .outer rfl (by decide)
      refine callRw_inv inv few (l := .inner) rfl moved (fun rw access => ?_) fun rw access wp => ?_
      · rw [frame access, if_pos (readUnlock_pc access), readUnlock_pc access]
        exact next
      · rw [readUnlock_pc access]
        exact RwLock.Pc.noConfusion

theorem writeLock_inv (inv : Inv s) (few : 2 * Fintype.card Cpu < 2 ^ 24) {k : Code}
    (code : s.code p = .writeLock k)
    (moved : s.callRw p (writeLockNext s p) .writing k = some t) : Inv t := by
  have fits := inv.obeys p
  unfold Local at fits
  rw [code] at fits
  obtain ⟨place, idle, fresh, next⟩ := fits
  have caller := writeLockNext_caller (s := s) (p := p)
  have frame := @other_level Cpu _ _ s p _ .outer .inner caller (by decide)
  refine callRw_inv inv few caller moved (fun rw access => ?_) fun rw access wp => ?_
  · rw [frame access, code]
    rcases writeLock_pc place access with writing | spins
    · rw [if_pos writing, writing]
      exact next
    · have waits : rw.pc (p, .outer) ≠ .writing := by
        rcases spins with ⟨_, spins⟩ | ⟨_, spins⟩ | ⟨_, spins⟩ <;> rw [spins] <;>
          exact RwLock.Pc.noConfusion
      rw [if_neg waits]
      exact ⟨.inr spins, idle, fresh, next⟩
  · rw [frame access]
    exact inv.inner p wp

theorem writeUnlock_inv (inv : Inv s) (few : 2 * Fintype.card Cpu < 2 ^ 24) {k : Code}
    (code : s.code p = .writeUnlock k)
    (moved : s.callRw p (writeUnlockNext s p) .idle k = some t) : Inv t := by
  have fits := inv.obeys p
  unfold Local at fits
  rw [code] at fits
  obtain ⟨place, next⟩ := fits
  have caller := writeUnlockNext_caller (s := s) (p := p)
  have frame := @other_level Cpu _ _ s p _ .outer .inner caller (by decide)
  refine callRw_inv inv few caller moved (fun rw access => ?_) fun rw access wp => ?_
  · rw [frame access, code]
    rcases writeUnlock_pc place access with last | idle
    · rw [if_neg (by rw [last]; exact RwLock.Pc.noConfusion), last]
      exact ⟨.inr rfl, next⟩
    · rw [if_pos idle, idle]
      exact next
  · rw [frame access]
    exact inv.inner p wp

/-- A step that reads or writes no lock. -/
theorem goto_inv (inv : Inv s) {k : Code} {valid : Vid → Bool}
    (fits : Obeys (s.rw.pc (p, .outer)) (s.rw.pc (p, .inner)) (s.pcs p) k) :
    Inv { s.goto p k with valid := valid } := by
  refine inv.of_code rfl rfl rfl (fun q other => Function.update_of_ne other _ _) ?_
  unfold Local
  simp only [Sys.goto, Function.update_self]
  exact fits

theorem move_inv (inv : Inv s) (few : 2 * Fintype.card Cpu < 2 ^ 24) (alone : NoWriter s (.move p))
    (moved : step s (.move p) = some t) : Inv t := by
  have fits := inv.obeys p
  unfold Local at fits
  unfold step at moved
  cases code : s.code p with
  | done => simp only [code] at moved; cases moved
  | readLock l k =>
      simp only [code] at moved
      cases l with
      | outer => exact readLock_outer_inv inv few code moved
      | inner => exact readLock_inner_inv inv few alone code moved
  | readUnlock l k =>
      simp only [code] at moved
      exact readUnlock_inv inv few code moved
  | entryLock vid k =>
      simp only [code] at moved
      exact callLock_inv inv code moved
  | entryUnlock vid k =>
      simp only [code] at moved
      exact callUnlock_inv inv code moved
  | ifValid vid valid invalid =>
      simp only [code] at moved
      cases moved
      rw [code] at fits
      refine goto_inv inv ?_
      split_ifs
      · exact fits.1
      · exact fits.2
  | setValid vid valid k =>
      simp only [code] at moved
      cases moved
      rw [code] at fits
      exact goto_inv inv fits
  | writeLock k =>
      simp only [code] at moved
      exact writeLock_inv inv few code moved
  | writeUnlock k =>
      simp only [code] at moved
      exact writeUnlock_inv inv few code moved

theorem step_inv (few : 2 * Fintype.card Cpu < 2 ^ 24) {act : Action Cpu} (inv : Inv s)
    (alone : NoWriter s act) (moved : step s act = some t) : Inv t := by
  cases act with
  | start p call =>
      obtain ⟨done, ⟨⟩⟩ := Option.ite_none_right_eq_some.mp moved
      have fits := inv.obeys p
      unfold Local at fits
      rw [done] at fits
      obtain ⟨outer, inner, fresh⟩ := fits
      refine inv.of_code rfl rfl rfl (fun q other => Function.update_of_ne other _ _) ?_
      unfold Local
      simp only [Sys.goto, Function.update_self, outer, inner]
      exact call_obeys fresh call
  | move p => exact move_inv inv few alone moved

end Invariant

/-! ## Progress -/

section Progress

variable {Cpu : Type} [DecidableEq Cpu] [Fintype Cpu] {s t : Sys Cpu} {p q : Cpu}

/-- The CPU is at a spin that fails. -/
def Blocked (s : Sys Cpu) (p : Cpu) : Prop :=
  match s.code p with
  | .readLock l _ => s.rw.pc (p, l) ≠ .idle ∧ ¬ RwLock.Moves s.rw (p, l)
  | .writeLock _ => s.rw.pc (p, .outer) ≠ .idle ∧ ¬ RwLock.Moves s.rw (p, .outer)
  | .entryLock vid _ => s.pcs p vid = .spin ∧ ¬ McsLock.Moves (s.entry vid) (s.node p vid)
  | .entryUnlock vid _ => s.pcs p vid = .spinNext ∧ ¬ McsLock.Moves (s.entry vid) (s.node p vid)
  | _ => False

/-- A CPU in a call of the reader-writer lock whose access changes where the call is. -/
theorem enabled_rw {act : RwLock.Action (Cpu × Level)} {l : Level} {last : RwLock.Pc} {k : Code}
    {rw : RwLock.Sys (Cpu × Level)} (move : step s (.move p) = s.callRw p act last k)
    (access : RwLock.step s.rw act = some rw) (changed : rw.pc (p, l) ≠ s.rw.pc (p, l)) :
    Enabled s p := by
  refine ⟨_, by rw [move, Sys.callRw, access]; rfl, fun same => changed ?_⟩
  exact congrArg (fun u : Sys Cpu => u.rw.pc (p, l)) same

theorem enabled_entry {act : McsLock.Action (Cpu × ℕ)} {vid : Vid}
    {e : McsLock.Sys Cpu (Cpu × ℕ)} (access : McsLock.step Prod.fst (s.entry vid) act = some e)
    (changed : e.pc (s.node p vid) ≠ s.pcs p vid)
    (move : ∀ e, McsLock.step Prod.fst (s.entry vid) act = some e →
      ∃ t, step s (.move p) = some t ∧ t.entry vid = e) : Enabled s p := by
  obtain ⟨t, moved, entry⟩ := move e access
  refine ⟨t, moved, fun same => changed ?_⟩
  rw [← entry, same]
  rfl

theorem enabled_or_blocked_read {l : Level} {k : Code} (code : s.code p = .readLock l k)
    (place : s.rw.pc (p, l) = .idle ∨ ∃ wp, s.rw.pc (p, l) = .spinRin wp) :
    Enabled s p ∨ Blocked s p := by
  have move : step s (.move p) = s.callRw p (readLockNext s p l) .reading k := by
    simp only [step, code]
  rcases place with idle | ⟨wp, spins⟩
  · left
    obtain ⟨rw, access⟩ : ∃ rw, RwLock.step s.rw (readLockNext s p l) = some rw := by
      simp only [readLockNext, idle]
      exact ⟨_, if_pos idle⟩
    refine enabled_rw (l := l) move access ?_
    rw [idle]
    rcases readLock_pc (.inl idle) access with reading | ⟨wp, spins⟩
    · rw [reading]
      exact RwLock.Pc.noConfusion
    · rw [spins]
      exact RwLock.Pc.noConfusion
  · by_cases moves : s.rw.lock.rin &&& RwLock.pfWriterBits = wp
    · right
      unfold Blocked
      simp only [code]
      exact ⟨by rw [spins]; exact RwLock.Pc.noConfusion, by simp [RwLock.Moves, spins, moves]⟩
    · left
      have access : RwLock.step s.rw (readLockNext s p l) = some (s.rw.goto (p, l) .reading) := by
        simp [readLockNext, spins, RwLock.step, moves]
      refine enabled_rw (l := l) move access ?_
      rw [RwLock.Sys.goto_self, spins]
      exact RwLock.Pc.noConfusion

theorem enabled_or_blocked_write {k : Code} (code : s.code p = .writeLock k)
    (place : s.rw.pc (p, .outer) = .idle ∨ (∃ ticket, s.rw.pc (p, .outer) = .spinWout ticket) ∨
      (∃ ticket, s.rw.pc (p, .outer) = .addRin ticket) ∨
      ∃ ticket, s.rw.pc (p, .outer) = .spinRout ticket) : Enabled s p ∨ Blocked s p := by
  have move : step s (.move p) = s.callRw p (writeLockNext s p) .writing k := by
    simp only [step, code]
  rcases place with idle | ⟨ticket, spins⟩ | ⟨ticket, turn⟩ | ⟨ticket, spins⟩
  · left
    obtain ⟨rw, access⟩ : ∃ rw, RwLock.step s.rw (writeLockNext s p) = some rw := by
      simp only [writeLockNext, idle]
      exact ⟨_, if_pos idle⟩
    refine enabled_rw (l := .outer) move access ?_
    rw [idle]
    rcases writeLock_pc (.inl idle) access with pc | ⟨_, pc⟩ | ⟨_, pc⟩ | ⟨_, pc⟩ <;> rw [pc] <;>
      exact RwLock.Pc.noConfusion
  · by_cases moves : ticket = s.rw.lock.wout
    · left
      obtain ⟨rw, access, changed⟩ : ∃ rw, RwLock.step s.rw (writeLockNext s p) = some rw ∧
          rw.pc (p, .outer) ≠ s.rw.pc (p, .outer) := by
        simp only [writeLockNext, spins, RwLock.step, moves, if_true]
        exact ⟨_, rfl, by simp [RwLock.Sys.goto]⟩
      exact enabled_rw move access changed
    · right
      unfold Blocked
      simp only [code]
      exact ⟨by rw [spins]; exact RwLock.Pc.noConfusion, by simp [RwLock.Moves, spins, moves]⟩
  · left
    obtain ⟨rw, access, changed⟩ : ∃ rw, RwLock.step s.rw (writeLockNext s p) = some rw ∧
        rw.pc (p, .outer) ≠ s.rw.pc (p, .outer) := by
      simp only [writeLockNext, turn, RwLock.step]
      exact ⟨_, rfl, by simp [RwLock.Sys.goto]⟩
    exact enabled_rw move access changed
  · by_cases moves : ticket = s.rw.lock.rout
    · left
      obtain ⟨rw, access, changed⟩ : ∃ rw, RwLock.step s.rw (writeLockNext s p) = some rw ∧
          rw.pc (p, .outer) ≠ s.rw.pc (p, .outer) := by
        simp only [writeLockNext, spins, RwLock.step, moves, if_true]
        exact ⟨_, rfl, by simp [RwLock.Sys.goto]⟩
      exact enabled_rw move access changed
    · right
      unfold Blocked
      simp only [code]
      exact ⟨by rw [spins]; exact RwLock.Pc.noConfusion, by simp [RwLock.Moves, spins, moves]⟩

/-- Between its calls a CPU executes nothing of an entry's lock. -/
theorem Inv.cur_none (inv : Inv s) (p : Cpu) (vid : Vid) (outside : ¬ (s.pcs p vid).InCall) :
    (s.entry vid).cur p = none := by
  cases cur : (s.entry vid).cur p with
  | none => rfl
  | some n =>
      obtain ⟨owner, inside⟩ := (inv.entry vid).2 p n cur
      obtain ⟨q, k⟩ := n
      obtain rfl : q = p := owner
      rcases Nat.lt_trichotomy k (s.serial q vid) with before | rfl | after
      · rw [inv.past q vid k before] at inside
        exact inside.elim
      · exact absurd inside outside
      · rw [inv.future q vid k after] at inside
        exact inside.elim

theorem enabled_or_blocked_lock (inv : Inv s) {vid : Vid} {k : Code}
    (code : s.code p = .entryLock vid k) (place : s.pcs p vid = .fresh ∨
      (∃ prev, s.pcs p vid = .setNext prev) ∨ s.pcs p vid = .spin) : Enabled s p ∨ Blocked s p := by
  have move : ∀ e, McsLock.step Prod.fst (s.entry vid) (entryLockNext s p vid) = some e →
      ∃ t, step s (.move p) = some t ∧ t.entry vid = e := by
    intro e access
    simp only [step, code, Sys.callLock, access, Option.map_some]
    exact ⟨_, rfl, Function.update_self _ _ _⟩
  rcases place with fresh | ⟨prev, joining⟩ | spins
  · left
    have free := inv.cur_none p vid (by rw [fresh]; exact id)
    have place : (s.entry vid).pc (s.node p vid) = .fresh := fresh
    have access : ∃ e, McsLock.step Prod.fst (s.entry vid) (entryLockNext s p vid) = some e := by
      simp only [entryLockNext, place, McsLock.step]
      rw [if_pos ⟨trivial, free⟩]
      split <;> exact ⟨_, rfl⟩
    obtain ⟨e, access⟩ := access
    refine enabled_entry access ?_ move
    rw [fresh]
    rcases entryLock_pc (.inl fresh) access with critical | ⟨prev, joins⟩ | spins <;> simp_all
  · left
    have place : (s.entry vid).pc (s.node p vid) = .setNext prev := joining
    obtain ⟨e, access, changed⟩ : ∃ e, McsLock.step Prod.fst (s.entry vid)
        (entryLockNext s p vid) = some e ∧ e.pc (s.node p vid) ≠ s.pcs p vid := by
      simp only [entryLockNext, place, McsLock.step]
      exact ⟨_, rfl, by simp [McsLock.Sys.goto, joining]⟩
    exact enabled_entry access changed move
  · have place : (s.entry vid).pc (s.node p vid) = .spin := spins
    by_cases moves : ((s.entry vid).node (s.node p vid)).state = .unlocked
    · left
      obtain ⟨e, access, changed⟩ : ∃ e, McsLock.step Prod.fst (s.entry vid)
          (entryLockNext s p vid) = some e ∧ e.pc (s.node p vid) ≠ s.pcs p vid := by
        simp only [entryLockNext, place, McsLock.step, moves, if_true]
        exact ⟨_, rfl, by simp [McsLock.Sys.acquire, McsLock.Sys.setCur, McsLock.Sys.goto, spins]⟩
      exact enabled_entry access changed move
    · right
      unfold Blocked
      simp only [code]
      exact ⟨spins, by simp [McsLock.Moves, place, moves]⟩

theorem enabled_or_blocked_unlock (inv : Inv s) {vid : Vid} {k : Code}
    (code : s.code p = .entryUnlock vid k) (holds : (s.pcs p vid).Holding) :
    Enabled s p ∨ Blocked s p := by
  have move : ∀ e, McsLock.step Prod.fst (s.entry vid) (entryUnlockNext s p vid) = some e →
      ∃ t, step s (.move p) = some t ∧ t.entry vid = e := by
    intro e access
    simp only [step, code, Sys.callUnlock, access, Option.map_some]
    refine ⟨_, rfl, ?_⟩
    split_ifs <;> exact Function.update_self _ _ _
  cases pc : s.pcs p vid with
  | critical =>
      left
      have free := inv.cur_none p vid (by rw [pc]; exact id)
      have place : (s.entry vid).pc (s.node p vid) = .critical := pc
      obtain ⟨e, access, changed⟩ : ∃ e, McsLock.step Prod.fst (s.entry vid)
          (entryUnlockNext s p vid) = some e ∧ e.pc (s.node p vid) ≠ .critical := by
        simp only [entryUnlockNext, place, McsLock.step]
        rw [if_pos ⟨trivial, free⟩]
        split <;> exact ⟨_, rfl, by simp [McsLock.Sys.setCur, McsLock.Sys.goto]⟩
      exact enabled_entry access (by rw [pc]; exact changed) move
  | cmpxchg =>
      left
      have place : (s.entry vid).pc (s.node p vid) = .cmpxchg := pc
      obtain ⟨e, access, changed⟩ : ∃ e, McsLock.step Prod.fst (s.entry vid)
          (entryUnlockNext s p vid) = some e ∧ e.pc (s.node p vid) ≠ .cmpxchg := by
        simp only [entryUnlockNext, place, McsLock.step, if_true]
        split_ifs <;> exact ⟨_, rfl, by simp [McsLock.Sys.setCur, McsLock.Sys.goto]⟩
      exact enabled_entry access (by rw [pc]; exact changed) move
  | spinNext =>
      have place : (s.entry vid).pc (s.node p vid) = .spinNext := pc
      cases linked : ((s.entry vid).node (s.node p vid)).next with
      | none =>
          right
          unfold Blocked
          simp only [code]
          exact ⟨pc, by simp [McsLock.Moves, place, linked]⟩
      | some next =>
          left
          obtain ⟨e, access, changed⟩ : ∃ e, McsLock.step Prod.fst (s.entry vid)
              (entryUnlockNext s p vid) = some e ∧ e.pc (s.node p vid) ≠ s.pcs p vid := by
            simp only [entryUnlockNext, place, McsLock.step, linked, if_true]
            exact ⟨_, rfl, by simp [McsLock.Sys.goto, pc]⟩
          exact enabled_entry access changed move
  | setState next =>
      left
      have place : (s.entry vid).pc (s.node p vid) = .setState next := pc
      obtain ⟨e, access, changed⟩ : ∃ e, McsLock.step Prod.fst (s.entry vid)
          (entryUnlockNext s p vid) = some e ∧ e.pc (s.node p vid) ≠ s.pcs p vid := by
        simp only [entryUnlockNext, place, McsLock.step]
        exact ⟨_, rfl, by simp [McsLock.Sys.setCur, McsLock.Sys.goto, pc]⟩
      exact enabled_entry access changed move
  | _ => rw [pc] at holds; exact holds.elim

/-- A CPU in a call has a step other than spinning, or it spins. -/
theorem enabled_or_blocked (inv : Inv s) (busy : s.code p ≠ .done) : Enabled s p ∨ Blocked s p := by
  have fits := inv.obeys p
  unfold Local at fits
  have shrinks : ∀ k : Code, sizeOf k < sizeOf (s.code p) → ∀ t : Sys Cpu, t.code p = k → t ≠ s := by
    rintro k less t next rfl
    rw [next] at less
    exact lt_irrefl _ less
  cases code : s.code p with
  | done => exact absurd code busy
  | readLock l k =>
      rw [code] at fits
      cases l with
      | outer => exact enabled_or_blocked_read code fits.1
      | inner => exact enabled_or_blocked_read code fits.2.1
  | readUnlock l k =>
      have reading : s.rw.pc (p, l) = .reading := by
        rw [code] at fits
        cases l with
        | outer => exact fits.1
        | inner => exact fits.1
      left
      have move : step s (.move p) = s.callRw p (.unlockRead (p, l)) .idle k := by
        simp only [step, code]
      have access : RwLock.step s.rw (.unlockRead (p, l)) = some _ := if_pos reading
      refine enabled_rw (l := l) move access ?_
      rw [readUnlock_pc access, reading]
      exact RwLock.Pc.noConfusion
  | entryLock vid k =>
      rw [code] at fits
      exact enabled_or_blocked_lock inv code fits.2.2.1
  | entryUnlock vid k =>
      rw [code] at fits
      exact enabled_or_blocked_unlock inv code fits.2.2.1
  | ifValid vid valid invalid =>
      left
      have move : step s (.move p) = some (s.goto p (if s.valid vid then valid else invalid)) := by
        simp only [step, code]
      have less : sizeOf (if s.valid vid then valid else invalid) < sizeOf (s.code p) := by
        rw [code, Code.ifValid.sizeOf_spec]
        split_ifs
        · omega
        · omega
      exact ⟨_, move, shrinks _ less _ (Function.update_self _ _ _)⟩
  | setValid vid valid k =>
      left
      have move : step s (.move p) =
          some { s.goto p k with valid := Function.update s.valid vid valid } := by
        simp only [step, code]
      have less : sizeOf k < sizeOf (s.code p) := by
        rw [code]
        simp
      exact ⟨_, move, shrinks k less _ (Function.update_self _ _ _)⟩
  | writeLock k =>
      rw [code] at fits
      exact enabled_or_blocked_write code fits.1
  | writeUnlock k =>
      rw [code] at fits
      left
      have move : step s (.move p) = s.callRw p (writeUnlockNext s p) .idle k := by
        simp only [step, code]
      obtain ⟨rw, access, changed⟩ : ∃ rw, RwLock.step s.rw (writeUnlockNext s p) = some rw ∧
          rw.pc (p, .outer) ≠ s.rw.pc (p, .outer) := by
        rcases fits.1 with writing | last
        · simp only [writeUnlockNext, writing]
          exact ⟨_, if_pos writing, by simp [RwLock.Sys.goto]⟩
        · simp only [writeUnlockNext, last]
          exact ⟨_, if_pos last, by simp [RwLock.Sys.goto]⟩
      exact enabled_rw move access changed

/-- A CPU that spins has no acquisition of the reader-writer lock that moves, none that is inside
unless it waits for an entry, and no second read that waits. -/
theorem blocked_rw (inv : Inv s) (blocked : Blocked s p) (l : Level)
    (busy : s.rw.pc (p, l) = .reading ∨ s.rw.pc (p, l) = .writing ∨ RwLock.Moves s.rw (p, l)) :
    ∃ vid k, s.code p = .entryLock vid k ∨ s.code p = .entryUnlock vid k := by
  have fits := inv.obeys p
  unfold Local at fits
  have quiet : ∀ m, s.rw.pc (p, m) = .idle → m ≠ l := by
    rintro m idle rfl
    rw [idle] at busy
    rcases busy with reading | writing | moves
    · cases reading
    · cases writing
    · simp [RwLock.Moves, idle] at moves
  unfold Blocked at blocked
  cases code : s.code p with
  | entryLock vid k => exact ⟨vid, k, .inl rfl⟩
  | entryUnlock vid k => exact ⟨vid, k, .inr rfl⟩
  | readLock m k =>
      rw [code] at fits blocked
      cases m with
      | outer =>
          obtain ⟨idle | ⟨wp, spins⟩, inner, _⟩ := fits
          · exact absurd idle blocked.1
          · cases l with
            | inner => exact absurd rfl (quiet .inner inner)
            | outer =>
                rw [spins] at busy
                rcases busy with reading | writing | moves
                · cases reading
                · cases writing
                · exact absurd moves blocked.2
      | inner =>
          obtain ⟨_, idle | ⟨wp, spins⟩, _⟩ := fits
          · exact absurd idle blocked.1
          · exact absurd spins (inv.inner p wp)
  | writeLock k =>
      rw [code] at fits blocked
      obtain ⟨place, inner, _⟩ := fits
      cases l with
      | inner => exact absurd rfl (quiet .inner inner)
      | outer =>
          have waits : s.rw.pc (p, .outer) ≠ .reading ∧ s.rw.pc (p, .outer) ≠ .writing := by
            rcases place with pc | ⟨_, pc⟩ | ⟨_, pc⟩ | ⟨_, pc⟩ <;> rw [pc] <;>
              exact ⟨RwLock.Pc.noConfusion, RwLock.Pc.noConfusion⟩
          rcases busy with reading | writing | moves
          · exact absurd reading waits.1
          · exact absurd writing waits.2
          · exact absurd moves blocked.2
  | _ => rw [code] at blocked; exact blocked.elim

/-- A node in use is the last one of its CPU. -/
theorem Inv.node_serial (inv : Inv s) {vid : Vid} {n : ℕ} (fresh : (s.entry vid).pc (p, n) ≠ .fresh)
    (live : (s.entry vid).pc (p, n) ≠ .done) : n = s.serial p vid := by
  rcases Nat.lt_trichotomy n (s.serial p vid) with before | same | after
  · exact absurd (inv.past p vid n before) live
  · exact same
  · exact absurd (inv.future p vid n after) fresh

/-- A CPU that spins waits for an entry, or has used none. -/
theorem blocked_cases (inv : Inv s) (blocked : Blocked s p) :
    (∃ vid k, s.code p = .entryLock vid k) ∨ (∃ vid k, s.code p = .entryUnlock vid k) ∨
      ∀ vid, s.pcs p vid = .fresh := by
  have fits := inv.obeys p
  unfold Local at fits
  unfold Blocked at blocked
  cases code : s.code p with
  | entryLock vid k => exact .inl ⟨vid, k, rfl⟩
  | entryUnlock vid k => exact .inr (.inl ⟨vid, k, rfl⟩)
  | readLock l k =>
      rw [code] at fits blocked
      cases l with
      | outer => exact .inr (.inr fits.2.2.1)
      | inner =>
          obtain ⟨_, idle | ⟨wp, spins⟩, _⟩ := fits
          · exact absurd idle blocked.1
          · exact absurd spins (inv.inner p wp)
  | writeLock k =>
      rw [code] at fits
      exact .inr (.inr fits.2.2.1)
  | _ => rw [code] at blocked; exact blocked.elim

/-- A CPU that spins has no acquisition of an entry that moves. -/
theorem blocked_not_moves (inv : Inv s) (blocked : Blocked s p) {vid : Vid} {n : ℕ} :
    ¬ McsLock.Moves (s.entry vid) (p, n) := by
  intro moves
  obtain ⟨fresh, critical, done⟩ := McsLock.moves_busy moves
  have last := inv.node_serial fresh done
  subst last
  have fits := inv.obeys p
  unfold Local at fits
  rcases blocked_cases inv blocked with ⟨w, k, code⟩ | ⟨w, k, code⟩ | unused
  · unfold Blocked at blocked
    rw [code] at fits blocked
    by_cases same : vid = w
    · subst same
      exact blocked.2 moves
    · rcases fits.2.2.2.1 vid same with other | ⟨other, _⟩
      · exact fresh other
      · exact critical other
  · unfold Blocked at blocked
    rw [code] at fits blocked
    by_cases same : vid = w
    · subst same
      exact blocked.2 moves
    · rcases fits.2.2.2.1 vid same with other | other
      · exact fresh other
      · exact critical other
  · exact fresh (unused vid)

/-- A CPU that spins with an entry locked waits for a later one, or unlocks. -/
theorem blocked_critical (inv : Inv s) (blocked : Blocked s p) {vid : Vid} {n : ℕ}
    (critical : (s.entry vid).pc (p, n) = .critical) :
    (∃ w k, vid < w ∧ s.code p = .entryLock w k) ∨ ∃ w k, s.code p = .entryUnlock w k := by
  have last := inv.node_serial (by rw [critical]; simp) (by rw [critical]; simp)
  subst last
  have holds : s.pcs p vid = .critical := critical
  have fits := inv.obeys p
  unfold Local at fits
  rcases blocked_cases inv blocked with ⟨w, k, code⟩ | unlocks | unused
  · left
    unfold Blocked at blocked
    rw [code] at fits blocked
    by_cases same : vid = w
    · subst same
      cases holds.symm.trans blocked.1
    · rcases fits.2.2.2.1 vid same with other | ⟨_, less⟩
      · cases holds.symm.trans other
      · exact ⟨w, k, less, code⟩
  · exact .inr unlocks
  · cases holds.symm.trans (unused vid)

variable (inv : Inv s) (stuck : ∀ q, ¬ Enabled s q)

include inv stuck

theorem blocked_of_stuck (busy : s.code p ≠ .done) : Blocked s p :=
  (enabled_or_blocked inv busy).resolve_left (stuck p)

/-- A CPU with an acquisition in use is in a call. -/
theorem busy_of_entry {vid : Vid} {n : ℕ} (fresh : (s.entry vid).pc (p, n) ≠ .fresh)
    (live : (s.entry vid).pc (p, n) ≠ .done) : s.code p ≠ .done := by
  intro done
  have fits := inv.obeys p
  unfold Local at fits
  rw [done] at fits
  have last := inv.node_serial fresh live
  subst last
  exact fresh (fits.2.2 vid)

/-- Where no CPU has a step, no acquisition of an entry moves. -/
theorem stuck_not_moves {vid : Vid} (m : Cpu × ℕ) : ¬ McsLock.Moves (s.entry vid) m := by
  intro moves
  obtain ⟨fresh, _, done⟩ := McsLock.moves_busy moves
  exact blocked_not_moves inv (blocked_of_stuck inv stuck (busy_of_entry inv stuck fresh done)) moves

theorem stuck_not_unlock {vid : Vid} {k : Code} : s.code p ≠ .entryUnlock vid k := by
  intro code
  have blocked := blocked_of_stuck inv stuck (p := p) (by rw [code]; exact Code.noConfusion)
  unfold Blocked at blocked
  rw [code] at blocked
  obtain ⟨m, moves⟩ := McsLock.progress_spinNext (inv.entry vid).1 blocked.1
  exact stuck_not_moves inv stuck m moves

/-- Nobody waits for an entry: the one who holds it waits for a later one. -/
theorem stuck_not_lock (vid : Vid) : ∀ p k, s.code p ≠ .entryLock vid k := by
  induction vid using WellFoundedGT.induction with
  | ind vid ih =>
      intro p k code
      have blocked := blocked_of_stuck inv stuck (p := p) (by rw [code]; exact Code.noConfusion)
      unfold Blocked at blocked
      rw [code] at blocked
      have spins : (s.entry vid).pc (s.node p vid) = .spin := blocked.1
      obtain ⟨m, critical | moves⟩ := McsLock.progress (inv.entry vid).1 (n := s.node p vid)
        (by rw [spins]; simp) (by rw [spins]; simp)
      · have holder := blocked_of_stuck inv stuck
          (busy_of_entry inv stuck (p := m.1) (n := m.2) (by rw [critical]; simp)
            (by rw [critical]; simp))
        rcases blocked_critical inv holder critical with ⟨w, k, later, code⟩ | ⟨w, k, code⟩
        · exact ih w later m.1 k code
        · exact stuck_not_unlock inv stuck code
      · exact stuck_not_moves inv stuck m moves

/-- Where no CPU has a step other than spinning, no CPU is in a call. -/
theorem stuck_done : s.code p = .done := by
  by_contra busy
  have blocked := blocked_of_stuck inv stuck busy
  rcases blocked_cases inv blocked with ⟨vid, k, code⟩ | ⟨vid, k, code⟩ | unused
  · exact stuck_not_lock inv stuck vid p k code
  · exact stuck_not_unlock inv stuck code
  · obtain ⟨l, waits⟩ : ∃ l, s.rw.pc (p, l) ≠ .idle := by
      unfold Blocked at blocked
      cases code : s.code p with
      | readLock l k => rw [code] at blocked; exact ⟨l, blocked.1⟩
      | writeLock k => rw [code] at blocked; exact ⟨.outer, blocked.1⟩
      | entryLock vid k => exact absurd code (stuck_not_lock inv stuck vid p k)
      | entryUnlock vid k => exact absurd code (stuck_not_unlock inv stuck)
      | _ => rw [code] at blocked; exact blocked.elim
    obtain ⟨⟨q, m⟩, live⟩ := RwLock.progress inv.rw waits
    have inCall : s.code q ≠ .done := by
      intro done
      have fits := inv.obeys q
      unfold Local at fits
      rw [done] at fits
      obtain ⟨outer, inner, _⟩ := fits
      have idle : s.rw.pc (q, m) = .idle := by cases m <;> assumption
      simp [RwLock.Moves, idle] at live
    obtain ⟨vid, k, code | code⟩ := blocked_rw inv (blocked_of_stuck inv stuck inCall) m live
    · exact stuck_not_lock inv stuck vid q k code
    · exact stuck_not_unlock inv stuck code

end Progress

/-! ## Runs -/

section Runs

variable {Cpu : Type} [DecidableEq Cpu] [Fintype Cpu] {s : Sys Cpu}

/-- **Where no writer is present at a second read, the locks of the partition table make
progress**: in every state of such a run, if some CPU waits then some CPU has a step other than
spinning. -/
theorem partition_table_progress (few : 2 * Fintype.card Cpu < 2 ^ 24) (valid : Vid → Bool)
    {run : List (Action Cpu)} (alone : Along NoWriter step (.initial valid) run)
    (ran : exec step (.initial valid) run = some s) : Progress s := by
  have inv : Inv s := exec_invariant_along (fun _ _ _ => step_inv few) (inv_initial valid) alone ran
  intro p waiting
  by_contra none
  have done := stuck_done (p := p) inv fun q enabled => none ⟨q, enabled⟩
  simp only [Waiting, step, done] at waiting
  cases waiting

end Runs

/-- CPU 0 sets a route and is between its two reads. -/
def betweenReads : List (Action (Fin 2)) :=
  [.start 0 (.setRoute 2 1), .start 1 (.finalizeTeardown 3 0), .move 0, .move 0, .move 0]

/-- The writer of CPU 1 arrives after the second read: it waits, and CPU 0 goes on. -/
theorem partition_table_progress_waiting :
    ∃ s : Sys (Fin 2), exec step (.initial fun _ => true)
        (betweenReads ++ [.move 0, .move 1, .move 1, .move 1]) = some s ∧
      Waiting s 1 ∧ Progress s := by
  have ran : ∃ s : Sys (Fin 2), exec step (.initial fun _ => true)
      (betweenReads ++ [.move 0, .move 1, .move 1, .move 1]) = some s ∧ Waiting s 1 :=
    ⟨_, rfl, rfl⟩
  obtain ⟨s, ran, waits⟩ := ran
  refine ⟨s, ran, waits, partition_table_progress (by decide) _ ?_ ran⟩
  exact .cons trivial rfl (.cons trivial rfl (.cons trivial rfl (.cons trivial rfl (.cons trivial rfl
    (.cons (fun _ => rfl) rfl (.cons trivial rfl (.cons trivial rfl (.cons trivial rfl trivial))))))))

/-- The writer arrives before it: the second read waits for the writer, and the writer for the
first read. -/
theorem set_route_deadlock :
    ¬ ∀ (run : List (Action (Fin 2))) (s : Sys (Fin 2)),
      exec step (.initial fun _ => true) run = some s → Progress s := by
  intro progress
  have waits : ∃ s : Sys (Fin 2), exec step (.initial fun _ => true)
      (betweenReads ++ [.move 1, .move 1, .move 1, .move 0]) = some s ∧
        Waiting s 0 ∧ Waiting s 1 := ⟨_, rfl, rfl, rfl⟩
  obtain ⟨s, ran, route, teardown⟩ := waits
  obtain ⟨q, t, moved, other⟩ := progress _ s ran 0 route
  have same : step s (.move q) = some s := by
    match q with
    | 0 => exact route
    | 1 => exact teardown
  rw [same] at moved
  exact other (Option.some.inj moved).symm

end Twan.Vsched.PartitionTable
