/-
# Twan.Kernel.SchedAging -- how long one priority is served

`__sched_age` in `src/kernel/sched/sched_dsa.c`.  An aging pop clears the ages above the priority
it served, counts the pops of the highest age that is left, and clears that age when the count is
exactly twice its priority; "each priorities max iteration count can be calculcated by
(priority * 2) + 1".  The count is shared by all priorities and starts again only when an age is
cleared, so a priority whose turn comes by itself may find it past its own limit:
`aging_not_bounded` is a run in which priority 1 is served four times before priority 0.

`aging_bound` is what holds of every run whose pops find the count within the limit.
-/
import Twan.Kernel.SchedQueue

namespace Twan.Kernel.SchedAging

set_option autoImplicit false
set_option linter.unusedSectionVars false

open Twan.Base Twan.Lib Twan.Kernel.SchedQueue

variable {Task : Type} [DecidableEq Task] {maxCriticality : ℕ}

/-- The next aging pop is served from priority `p` while a task of lower priority is queued in the
bin. -/
def Streak (p : Priority) (s : Sys Task) : Action Task → Prop
  | .popAge => ∃ bin, s.q.serves = some (bin, p) ∧
      ∃ t ∈ s.queue, bin ≤ (s.data t).criticality ∧ (s.data t).priority < p
  | _ => True

/-- The next aging pop finds the count within the limit of the priority that the aging bitmap
allows. -/
def Within (s : Sys Task) : Action Task → Prop
  | .popAge => ∀ found p, s.q.getBin = some found →
      ((s.q.bitmap found.1).and s.q.agingBitmap).last = some p → p ≠ 0 →
      s.q.iteration.toNat ≤ 2 * p.val
  | _ => True

instance (p : Priority) (s : Sys Task) (a : Action Task) : Decidable (Streak p s a) :=
  match a with
  | .popAge =>
      match found : s.q.serves with
      | none => isFalse fun ⟨_, serves, _⟩ => by rw [found] at serves; cases serves
      | some (bin, p') =>
          decidable_of_iff (p' = p ∧ ∃ t ∈ s.queue, bin ≤ (s.data t).criticality ∧
              (s.data t).priority < p) <| by
            constructor
            · rintro ⟨rfl, lower⟩
              exact ⟨bin, found, lower⟩
            · rintro ⟨bin', serves, lower⟩
              rw [found] at serves
              cases serves
              exact ⟨rfl, lower⟩
  | .push _ | .dequeue _ | .pop | .setLevel _ | .setMetadata _ _ => isTrue trivial

/-! ## The ages -/

section Ages

variable {s : SchedPriorityq Task} {p : Priority}

/-- The ages that are left are the lowest ones. -/
def Down (bmp : Bmp256) : Prop := ∀ i j, i ≤ j → bmp.test j = true → bmp.test i = true

theorem down_full : Down Bmp256.full := fun i _ _ _ => Bmp256.test_full i

theorem last_unsetAllAbove {bmp : Bmp256} (set : bmp.test p = true) :
    (bmp.unsetAllAbove p).last = some p := by
  refine Bmp256.last_eq_some.mpr ⟨?_, fun higher above => ?_⟩
  · rw [Bmp256.test_unsetAllAbove, set]
    simp
  · rw [Bmp256.test_unsetAllAbove]
    simp [not_le.mpr above]

theorem down_unsetAllAbove {bmp : Bmp256} (down : Down bmp) (p : Priority) :
    Down (bmp.unsetAllAbove p) := by
  intro i j le set
  rw [Bmp256.test_unsetAllAbove, Bool.and_eq_true, decide_eq_true_eq] at set ⊢
  exact ⟨down i j le set.1, le_trans le set.2⟩

theorem down_unset_last {bmp : Bmp256} (down : Down bmp) (last : bmp.last = some p) :
    Down (bmp.unset p) := by
  intro i j le set
  rw [Bmp256.test_unset, Bool.and_eq_true] at set ⊢
  refine ⟨?_, down i j le set.2⟩
  have below : j < p := by
    refine lt_of_le_of_ne (not_lt.mp fun above => ?_) (by simpa using set.1)
    rw [(Bmp256.last_eq_some.mp last).2 j above] at set
    cases set.2
  simpa using (lt_of_le_of_lt le below).ne

theorem age_down (down : Down s.agingBitmap) (p : Priority) : Down (s.age p).agingBitmap := by
  unfold SchedPriorityq.age
  simp only
  split
  · exact down_full
  · rename_i top last
    split_ifs
    · exact down_full
    · exact down_unset_last (down_unsetAllAbove down p) last
    · exact down_unsetAllAbove down p

theorem refreshed_down (down : Down s.agingBitmap) : Down s.refreshed.agingBitmap := by
  unfold SchedPriorityq.refreshed
  split
  · exact down
  · split_ifs
    · exact down_full
    · exact down

/-- The ages while `p` is served: those up to `p` with the count in its limit, or, when the count
has run out, those below. -/
def Served (p : Priority) (bmp : Bmp256) (iteration : BitVec 32) : Prop :=
  (∀ i, bmp.test i = true ↔ i ≤ p) ∧ iteration.toNat ≤ 2 * p.val ∨ ∀ i, bmp.test i = true ↔ i < p

/-- How many more pops `p` gets. -/
def left (p : Priority) (bmp : Bmp256) (iteration : BitVec 32) : ℕ :=
  if bmp.test p then 2 * p.val + 1 - iteration.toNat else 0

/-- A pop from `p` within its limit uses up one of its pops. -/
theorem age_served (positive : 0 < p) (down : Down s.agingBitmap) (set : s.agingBitmap.test p = true)
    (within : s.iteration.toNat ≤ 2 * p.val) :
    Served p (s.age p).agingBitmap (s.age p).iteration ∧
      left p (s.age p).agingBitmap (s.age p).iteration + 1 =
        left p s.agingBitmap s.iteration := by
  have limit : p.val * 2 < 2 ^ 32 := by omega
  have upTo : ∀ i, (s.agingBitmap.unsetAllAbove p).test i = true ↔ i ≤ p := by
    intro i
    rw [Bmp256.test_unsetAllAbove, Bool.and_eq_true, decide_eq_true_eq]
    exact ⟨And.right, fun le => ⟨down i p le set, le⟩⟩
  have full : left p s.agingBitmap s.iteration = 2 * p.val + 1 - s.iteration.toNat := if_pos set
  unfold SchedPriorityq.age
  simp only [last_unsetAllAbove set, if_neg positive.ne', full]
  split_ifs with out
  · have count : s.iteration.toNat = 2 * p.val := by
      rw [out, BitVec.toNat_ofNat]
      omega
    constructor
    · right
      intro i
      rw [Bmp256.test_unset, Bool.and_eq_true, upTo]
      simp only [Bool.not_eq_true', decide_eq_false_iff_not]
      exact ⟨fun ⟨other, le⟩ => lt_of_le_of_ne le other, fun lt => ⟨lt.ne, le_of_lt lt⟩⟩
    · rw [left, Bmp256.test_unset]
      simp [count]
  · have more : s.iteration.toNat < 2 * p.val := by
      refine lt_of_le_of_ne within fun same => out ?_
      refine BitVec.eq_of_toNat_eq ?_
      rw [BitVec.toNat_ofNat, same]
      omega
    have count : (s.iteration + 1#32).toNat = s.iteration.toNat + 1 := by
      rw [BitVec.toNat_add, BitVec.toNat_ofNat]
      omega
    refine ⟨.inl ⟨upTo, (le_of_eq count).trans more⟩, ?_⟩
    rw [left, if_pos ((upTo p).mpr (le_refl p)), count]
    omega

end Ages

/-! ## Pops -/

section Pops

variable {s t : Sys Task} {p : Priority} {act : Action Task}

/-- An action other than an aging pop leaves the ages. -/
theorem step_ages (moved : step maxCriticality s act = some t) (other : act ≠ .popAge) :
    t.q.agingBitmap = s.q.agingBitmap ∧ t.q.iteration = s.q.iteration := by
  cases act with
  | push u =>
      obtain ⟨_, ⟨⟩⟩ := Option.ite_none_right_eq_some.mp moved
      exact pushLoop_ages s.q s.data u _
  | dequeue u =>
      obtain ⟨_, ⟨⟩⟩ := Option.ite_none_right_eq_some.mp moved
      exact (dequeueLoop_rest s.q s.data u _).2
  | pop =>
      rw [← Option.some.inj moved]
      unfold Sys.popped
      split <;> exact pop_ages s.q s.data
  | popAge => exact absurd rfl other
  | setLevel criticality =>
      simp only [step] at moved
      split_ifs at moved <;> cases moved <;> exact ⟨rfl, rfl⟩
  | setMetadata u m =>
      obtain ⟨_, ⟨⟩⟩ := Option.ite_none_right_eq_some.mp moved
      exact ⟨rfl, rfl⟩

/-- The ages an aging pop leaves. -/
theorem popAge_ages (good : Good s) (moved : step maxCriticality s .popAge = some t) {bin : ℕ}
    (serves : s.q.serves = some (bin, p)) :
    t.q.agingBitmap = (s.q.refreshed.age p).agingBitmap ∧
      t.q.iteration = (s.q.refreshed.age p).iteration := by
  have result : t = s.popped (s.q.popAge s.data) := (Option.some.inj moved).symm
  rw [result]
  unfold Sys.popped
  rcases good.linked.popAge with ⟨empty, _⟩ | ⟨bin', p', serves', u, _, _, popped, _, _, ages⟩
  · have linked := good.linked
    rw [empty] at linked
    rcases linked.getBin_cases with ⟨none, _⟩ | ⟨bin, p, found, _⟩
    · simp [SchedPriorityq.serves, none] at serves
    · obtain ⟨u, served, _⟩ := linked.awaiting_some (getBin_awaiting found)
      cases mem_of_frontTask served
  · rw [popped]
    cases serves'.symm.trans serves
    exact ages

/-- The priority that is served is allowed, or none is and the ages start again. -/
theorem serves_cases {bin : ℕ} (serves : s.q.serves = some (bin, p)) :
    ∃ p', s.q.getBin = some (bin, p') ∧
      (((s.q.bitmap bin).and s.q.agingBitmap).last = some p ∧ s.q.refreshed = s.q ∨
        ((s.q.bitmap bin).and s.q.agingBitmap).last = none ∧ s.q.refreshed = s.q.resetAge) := by
  unfold SchedPriorityq.serves at serves
  obtain ⟨⟨b, p'⟩, found, same⟩ := Option.map_eq_some_iff.mp serves
  obtain ⟨rfl, top⟩ := Prod.mk.inj same
  refine ⟨p', found, ?_⟩
  unfold SchedPriorityq.refreshed
  simp only [found]
  cases allowed : ((s.q.bitmap b).and s.q.agingBitmap).last with
  | none => exact .inr ⟨rfl, if_pos rfl⟩
  | some r =>
      rw [allowed, Option.getD_some] at top
      exact .inl ⟨by rw [top], if_neg (by simp)⟩

theorem serves_allowed {bin : ℕ} (serves : s.q.serves = some (bin, p)) :
    s.q.refreshed.agingBitmap.test p = true := by
  obtain ⟨_, _, ⟨allowed, same⟩ | ⟨_, again⟩⟩ := serves_cases serves
  · have set := (Bmp256.last_eq_some.mp allowed).1
    rw [Bmp256.test_and, Bool.and_eq_true] at set
    rw [same]
    exact set.2
  · rw [again]
    exact Bmp256.test_full p

theorem within_refreshed (within : Within s .popAge) {bin : ℕ} (positive : 0 < p)
    (serves : s.q.serves = some (bin, p)) : s.q.refreshed.iteration.toNat ≤ 2 * p.val := by
  obtain ⟨p', found, ⟨allowed, same⟩ | ⟨_, again⟩⟩ := serves_cases serves
  · rw [same]
    exact within ⟨bin, p'⟩ p found allowed positive.ne'
  · rw [again]
    exact Nat.zero_le _

/-- What every reachable state satisfies. -/
structure Aged (s : Sys Task) : Prop where
  good : Good s
  down : Down s.q.agingBitmap

theorem aged_initial (data : Task → TaskMetadata) : Aged (.initial data) :=
  ⟨good_initial data, down_full⟩

theorem step_aged (aged : Aged s) (moved : step maxCriticality s act = some t) : Aged t := by
  refine ⟨step_good aged.good moved, ?_⟩
  by_cases pop : act = .popAge
  · subst pop
    cases serves : s.q.serves with
    | some found =>
        rw [(popAge_ages aged.good moved serves).1]
        exact age_down (refreshed_down aged.down) _
    | none =>
        rw [← Option.some.inj moved]
        rcases aged.good.linked.popAge with ⟨_, result⟩ | ⟨_, _, serves', _⟩
        · rw [result]
          exact aged.down
        · rw [serves] at serves'
          cases serves'
  · rw [(step_ages moved pop).1]
    exact aged.down

/-- The first pop of a streak leaves at most `2 p` more. -/
theorem first_pop (aged : Aged s) (positive : 0 < p) (streak : Streak p s .popAge)
    (within : Within s .popAge) (moved : step maxCriticality s .popAge = some t) :
    Served p t.q.agingBitmap t.q.iteration ∧ left p t.q.agingBitmap t.q.iteration ≤ 2 * p.val := by
  obtain ⟨bin, serves, _⟩ := streak
  obtain ⟨served, used⟩ := age_served positive (refreshed_down aged.down) (serves_allowed serves)
    (within_refreshed within positive serves)
  obtain ⟨bitmap, iteration⟩ := popAge_ages aged.good moved serves
  rw [bitmap, iteration]
  refine ⟨served, ?_⟩
  have most : left p s.q.refreshed.agingBitmap s.q.refreshed.iteration ≤ 2 * p.val + 1 := by
    unfold left
    split_ifs <;> omega
  omega

/-- While a task of lower priority is queued, `p` is served only where it has pops left. -/
theorem next_pop (aged : Aged s) (positive : 0 < p) (streak : Streak p s .popAge)
    (within : Within s .popAge) (served : Served p s.q.agingBitmap s.q.iteration)
    (moved : step maxCriticality s .popAge = some t) :
    Served p t.q.agingBitmap t.q.iteration ∧
      left p t.q.agingBitmap t.q.iteration + 1 = left p s.q.agingBitmap s.q.iteration := by
  obtain ⟨bin, serves, u, inside, reaches, lower⟩ := streak
  have low : s.q.agingBitmap.test (s.data u).priority = true := by
    rcases served with ⟨upTo, _⟩ | below
    · exact (upTo _).mpr (le_of_lt lower)
    · exact (below _).mpr lower
  have member : (u, bin) ∈ binLists s.data s.queue (bin, (s.data u).priority) :=
    mem_binLists.mpr ⟨inside, rfl, rfl, reaches⟩
  have bit := (aged.good.linked.bits bin (s.data u).priority).mpr (List.ne_nil_of_mem member)
  -- the lower task is allowed, so that the ages do not start again
  obtain ⟨p', found, ⟨allowed, same⟩ | ⟨none, _⟩⟩ := serves_cases serves
  · have set := serves_allowed serves
    have limit := within_refreshed within positive serves
    rw [same] at set limit
    obtain ⟨bitmap, iteration⟩ := popAge_ages aged.good moved serves
    rw [bitmap, iteration, same]
    exact age_served positive aged.down set limit
  · have clear := Bmp256.last_eq_none.mp none (s.data u).priority
    rw [Bmp256.test_and, bit, low] at clear
    cases clear

/-! ## Runs -/

/-- A streak in which `p` has been served already. -/
theorem streak_left {run : List (Action Task)} (aged : Aged s) (positive : 0 < p)
    (served : Served p s.q.agingBitmap s.q.iteration)
    (allowed : Along (fun s a => Streak p s a ∧ Within s a) (step maxCriticality) s run)
    (ran : exec (step maxCriticality) s run = some t) :
    run.count .popAge ≤ left p s.q.agingBitmap s.q.iteration := by
  induction run generalizing s with
  | nil => exact Nat.zero_le _
  | cons a run ih =>
      obtain ⟨u, moved, rest⟩ := exec_cons ran
      obtain ⟨⟨streak, within⟩, later⟩ := allowed
      by_cases pop : a = .popAge
      · subst pop
        obtain ⟨served', used⟩ := next_pop aged positive streak within served moved
        have bound := ih (step_aged aged moved) served' (later u moved) rest
        rw [List.count_cons_self]
        omega
      · obtain ⟨bitmap, iteration⟩ := step_ages moved pop
        have bound := ih (step_aged aged moved) (by rw [bitmap, iteration]; exact served)
          (later u moved) rest
        rw [bitmap, iteration] at bound
        rw [List.count_cons_of_ne pop]
        exact bound

theorem streak_bound {run : List (Action Task)} (aged : Aged s) (positive : 0 < p)
    (allowed : Along (fun s a => Streak p s a ∧ Within s a) (step maxCriticality) s run)
    (ran : exec (step maxCriticality) s run = some t) : run.count .popAge ≤ 2 * p.val + 1 := by
  induction run generalizing s with
  | nil => exact Nat.zero_le _
  | cons a run ih =>
      obtain ⟨u, moved, rest⟩ := exec_cons ran
      obtain ⟨⟨streak, within⟩, later⟩ := allowed
      by_cases pop : a = .popAge
      · subst pop
        obtain ⟨served, most⟩ := first_pop aged positive streak within moved
        have bound := streak_left (step_aged aged moved) positive served (later u moved) rest
        rw [List.count_cons_self]
        omega
      · rw [List.count_cons_of_ne pop]
        exact ih (step_aged aged moved) (later u moved) rest

/-- **Aging bounds starvation where the count is within the limit.**  From every reachable state, a
stretch of a run whose aging pops are all served from priority `p` above 0, while a task of lower
priority is queued in the bin, has at most `2 p + 1` of them, provided each finds the count within
the limit of the priority it serves. -/
theorem aging_bound {data : Task → TaskMetadata} {before during : List (Action Task)}
    (positive : 0 < p) (reached : exec (step maxCriticality) (.initial data) before = some s)
    (ran : exec (step maxCriticality) s during = some t)
    (streak : Along (Streak p) (step maxCriticality) s during)
    (within : Along Within (step maxCriticality) s during) :
    during.count .popAge ≤ 2 * p.val + 1 := by
  have aged : Aged s := exec_invariant (fun _ _ _ => step_aged) (aged_initial data) reached
  exact streak_bound aged positive (streak.and within) ran

end Pops

/-- Three tasks of priority 5, four of priority 1, and one of priority 0. -/
def eightTasks (t : Fin 8) : TaskMetadata := ⟨if t < 3 then 5 else if t < 7 then 1 else 0, 0⟩

/-- The state after these operations. -/
def after (run : List (Action (Fin 8))) : Sys (Fin 8) :=
  (exec (step 0) (.initial eightTasks) run).getD (.initial eightTasks)

theorem exec_after {run : List (Action (Fin 8))}
    (applies : (exec (step 0) (.initial eightTasks) run).isSome = true) :
    exec (step 0) (.initial eightTasks) run = some (after run) := by
  obtain ⟨s, ran⟩ := Option.isSome_iff_exists.mp applies
  rw [after, ran]
  rfl

/-- A pop of a task of priority 1 after the pushes, with the count at 0. -/
theorem aging_bound_first : Along (Streak 1) (step 0) (after [.push 3, .push 7]) [.popAge] ∧
    ([.popAge] : List (Action (Fin 8))).count .popAge ≤ 2 * (1 : Priority).val + 1 := by
  have streak : Along (Streak 1) (step 0) (after [.push 3, .push 7]) [.popAge] := by decide +kernel
  have zero : (after [.push 3, .push 7]).q.iteration = 0#32 := by decide +kernel
  have within : Along Within (step 0) (after [.push 3, .push 7]) [.popAge] := by
    refine ⟨fun _ p _ _ _ => ?_, fun _ _ => trivial⟩
    rw [zero]
    exact Nat.zero_le _
  have reached : exec (step 0) (.initial eightTasks) [.push 3, .push 7] = some _ :=
    exec_after (by decide +kernel)
  obtain ⟨t, ran⟩ : ∃ t, exec (step 0) (after [.push 3, .push 7]) [.popAge] = some t := ⟨_, rfl⟩
  exact ⟨streak, aging_bound (by decide) reached ran streak within⟩

/-- The pushes of all tasks and three pops of priority 5. -/
def threePops : List (Action (Fin 8)) :=
  [.push 0, .push 1, .push 2, .push 3, .push 4, .push 5, .push 6, .push 7, .popAge, .popAge, .popAge]

/-- They leave the count at 3, past the limit of priority 1, which is then served four times. -/
theorem aging_not_bounded :
    ¬ ∀ (data : Fin 8 → TaskMetadata) (before during : List (Action (Fin 8))) (s t : Sys (Fin 8))
      (p : Priority), 0 < p → exec (step 0) (.initial data) before = some s →
      exec (step 0) s during = some t → Along (Streak p) (step 0) s during →
      during.count .popAge ≤ 2 * p.val + 1 := by
  intro bound
  have streak : Along (Streak 1) (step 0) (after threePops) [.popAge, .popAge, .popAge, .popAge] := by
    decide +kernel
  have reached : exec (step 0) (.initial eightTasks) threePops = some _ :=
    exec_after (by decide +kernel)
  obtain ⟨t, ran⟩ : ∃ t, exec (step 0) (after threePops) [.popAge, .popAge, .popAge, .popAge] =
      some t := ⟨_, rfl⟩
  have four := bound eightTasks threePops _ _ t 1 (by decide) reached ran streak
  exact absurd four (by decide)

end Twan.Kernel.SchedAging
