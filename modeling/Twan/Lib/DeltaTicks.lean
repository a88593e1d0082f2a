/-
# Twan.Lib.DeltaTicks -- the tick at which a node of a delta chain is due

Nodes are inserted into a chain for a number of ticks and dequeued again in any order, and
each `delta_chain_tick` passes the nodes that are due to its callback.  The log keeps what
each tick has passed on.

A tick takes one from the front's delta, and so from all times; but a front that is due
already, because it was inserted with 0 ticks, is only popped.  Every node that has ticks
left behind such a front is then one tick late.  `Timely` says that this does not happen
at a tick; `timeouts_punctual`: in a run of which it holds every node fires on its tick,
once.  `late_behind_zero` is the shortest run that is late.
-/
import Twan.Base.Run
import Twan.Lib.DeltaChain

namespace Twan.Lib.DeltaChain

set_option autoImplicit false
set_option linter.dupNamespace false

open Twan.Base Twan.Lib.Dq

/-! ## A whole tick -/

namespace DeltaChain

variable {Node : Type} [DecidableEq Node] (c : DeltaChain Node)

/-- `delta_chain_advance(chain, func)`, for at most `fuel` nodes: the nodes that the callback
gets. -/
def advanceAll (c : DeltaChain Node) : ℕ → DeltaChain Node × List Node
  | 0 => (c, [])
  | fuel + 1 =>
      match c.advance with
      | none => (c, [])
      | some (n, c) =>
          let rest := advanceAll c fuel
          (rest.1, n :: rest.2)

/-- `delta_chain_tick(chain, func)`: the nodes that the callback gets. -/
def tickAll [Fintype Node] : DeltaChain Node × List Node :=
  if c.tick.2 then c.tick.1.advanceAll (Fintype.card Node) else (c.tick.1, [])

end DeltaChain

/-- A chain, and what each tick has passed to the callback. -/
structure Timed (Node : Type) where
  chain : DeltaChain Node
  log : List (List Node)

inductive Action (Node : Type) where
  | insert (n : Node) (ticks : ℕ)
  | dequeue (n : Node)
  | tick

/-- The action inserts or dequeues this node. -/
def Action.Touches {Node : Type} (n : Node) : Action Node → Prop
  | .insert m _ => m = n
  | .dequeue m => m = n
  | .tick => False

def Action.isTick {Node : Type} : Action Node → Bool
  | .tick => true
  | _ => false

section System

variable {Node : Type} [DecidableEq Node] [Fintype Node]

/-- Only a node that is not queued is inserted, and only one that is is dequeued. -/
def timedStep (s : Timed Node) : Action Node → Option (Timed Node)
  | .insert n ticks =>
      if s.chain.isQueued n then none else some { s with chain := s.chain.insert n ticks }
  | .dequeue n =>
      if s.chain.isQueued n then some { s with chain := s.chain.dequeueNoCallback n } else none
  | .tick => some ⟨s.chain.tickAll.1, s.log ++ [s.chain.tickAll.2]⟩

/-- `delta_chain_init(chain)`, before any tick. -/
def timedStart : Timed Node := ⟨DeltaChain.empty, []⟩

/-- If the front of the chain is due, no node has ticks left. -/
def Level (c : DeltaChain Node) : Prop :=
  ∀ m, c.dqs.peekfront () = some m → c.delta m = 0 → ∀ n, c.isQueued n = true → c.delta n = 0

/-- No tick finds a front that is due before a node that is not. -/
def Timely (s : Timed Node) : Action Node → Prop
  | .tick => Level s.chain
  | _ => True

instance (c : DeltaChain Node) : Decidable (Level c) :=
  inferInstanceAs (Decidable (∀ m, c.dqs.peekfront () = some m → c.delta m = 0 →
    ∀ n, c.isQueued n = true → c.delta n = 0))

instance (s : Timed Node) : ∀ a, Decidable (Timely s a)
  | .tick => inferInstanceAs (Decidable (Level s.chain))
  | .insert _ _ => isTrue trivial
  | .dequeue _ => isTrue trivial

end System

section Ticks

variable {Node : Type} [DecidableEq Node] {c c' : DeltaChain Node} {l z r : List (Node × ℕ)}
  {n : Node} {d : ℕ}

/-! ## One tick -/

/-- The advance pops a front that is due. -/
theorem Holds.advance_due (holds : Holds c ((n, 0) :: l)) :
    ∃ c', c.advance = some (n, c') ∧ Holds c' l := by
  have front : c.dqs.peekfront () = some n := holds.dqs.peekfront
  have zero : c.delta n = 0 := by
    have here := holds.due.1
    omega
  have popped : c.advance = some (n, { c with dqs := (c.dqs.popfront ()).2 }) := by
    unfold DeltaChain.advance
    rw [front]
    exact if_pos zero
  obtain ⟨b, same, rest⟩ := holds.advance popped
  obtain ⟨-, rfl⟩ := List.cons.inj same
  exact ⟨_, popped, rest⟩

theorem Holds.advance_later (holds : Holds c l) (later : ∀ e ∈ l, e.2 ≠ 0) : c.advance = none := by
  cases popped : c.advance with
  | none => rfl
  | some front =>
      obtain ⟨n, c'⟩ := front
      obtain ⟨b, rfl, -⟩ := holds.advance popped
      exact absurd rfl (later _ List.mem_cons_self)

/-- The loop pops the nodes that are due and no others. -/
theorem Holds.advanceAll {fuel : ℕ} (holds : Holds c (z ++ r)) (due : ∀ e ∈ z, e.2 = 0)
    (later : ∀ e ∈ r, e.2 ≠ 0) (enough : z.length ≤ fuel) :
    (c.advanceAll fuel).2 = z.map Prod.fst ∧ Holds (c.advanceAll fuel).1 r := by
  induction z generalizing c fuel with
  | nil =>
      cases fuel with
      | zero => exact ⟨rfl, holds⟩
      | succ fuel =>
          rw [DeltaChain.advanceAll, holds.advance_later later]
          exact ⟨rfl, holds⟩
  | cons e z ih =>
      obtain ⟨fuel, rfl⟩ : ∃ f, fuel = f + 1 := ⟨fuel - 1, by simp at enough; omega⟩
      obtain ⟨m, k⟩ := e
      obtain rfl : k = 0 := due _ List.mem_cons_self
      obtain ⟨c', popped, rest⟩ := holds.advance_due
      obtain ⟨fired, left⟩ := ih rest (fun e inside => due e (List.mem_cons_of_mem _ inside))
        (Nat.le_of_succ_le_succ enough)
      rw [DeltaChain.advanceAll, popped]
      exact ⟨congrArg (m :: ·) fired, left⟩

omit [DecidableEq Node] in
/-- The nodes that are due come first. -/
theorem Due.split {delta : Node → ℕ} (dues : Due delta 0 l) :
    ∃ z r, l = z ++ r ∧ (∀ e ∈ z, e.2 = 0) ∧ ∀ e ∈ r, e.2 ≠ 0 := by
  induction l with
  | nil => exact ⟨[], [], rfl, by simp, by simp⟩
  | cons e l ih =>
      obtain ⟨here, rest⟩ := dues
      by_cases zero : e.2 = 0
      · rw [zero] at rest
        obtain ⟨z, r, rfl, due, later⟩ := ih rest
        refine ⟨e :: z, r, rfl, ?_, later⟩
        intro f inside
        rcases List.mem_cons.mp inside with rfl | inside
        · exact zero
        · exact due f inside
      · refine ⟨[], e :: l, rfl, by simp, ?_⟩
        intro f inside
        rcases List.mem_cons.mp inside with rfl | inside
        · exact zero
        · have after := rest.base_le f inside
          omega

/-- In a level chain with a node that is due all nodes are. -/
theorem Holds.level (holds : Holds c l) (level : Level c) (first : (l.map Prod.snd).head? = some 0) :
    ∀ e ∈ l, e.2 = 0 := by
  cases l with
  | nil => cases first
  | cons e l =>
      obtain ⟨m, k⟩ := e
      obtain rfl : k = 0 := Option.some.inj first
      have front : c.dqs.peekfront () = some m := holds.dqs.peekfront
      have zero : c.delta m = 0 := by
        have here := holds.due.1
        omega
      have all : ∀ e ∈ (m, 0) :: l, c.delta e.1 = 0 := fun e inside =>
        level m front zero e.1 (holds.isQueued.mpr (List.mem_map_of_mem inside))
      have flat : ∀ (base : ℕ) (l : List (Node × ℕ)), Due c.delta base l →
          (∀ e ∈ l, c.delta e.1 = 0) → ∀ e ∈ l, e.2 = base := by
        intro base l
        induction l generalizing base with
        | nil => exact fun _ _ _ => nofun
        | cons f l ih =>
            rintro ⟨here, rest⟩ zeros e inside
            have same : f.2 = base := by
              rw [here, zeros f List.mem_cons_self, Nat.add_zero]
            rcases List.mem_cons.mp inside with rfl | inside
            · exact same
            · rw [same] at rest
              exact ih base rest (fun e inside => zeros e (List.mem_cons_of_mem _ inside)) e inside
      exact flat 0 _ holds.due all

/-- A tick of a level chain fires the nodes that are due in at most one tick, and takes one
from the times of the others. -/
theorem Holds.tickAll [Fintype Node] (holds : Holds c l) (level : Level c) :
    ∃ z r, l = z ++ r ∧ (∀ e ∈ z, e.2 ≤ 1) ∧ (∀ e ∈ r, 1 < e.2) ∧ c.tickAll.2 = z.map Prod.fst ∧
      Holds c.tickAll.1 (r.map fun e => (e.1, e.2 - 1)) := by
  obtain ⟨ticked, advances⟩ := holds.tick
  have bound : l.length ≤ Fintype.card Node := by
    simpa using holds.nodup.length_le_card
  unfold DeltaChain.tickAll
  by_cases first : (l.map Prod.snd).head? = some 0
  · have due := holds.level level first
    have follows : c.tick.2 = true := by
      cases l with
      | nil => cases first
      | cons e l => exact advances.mpr ⟨e.1, .inl ⟨l, by rw [← due e List.mem_cons_self]⟩⟩
    rw [if_pos first] at ticked
    rw [if_pos follows]
    obtain ⟨fired, left⟩ := Holds.advanceAll (z := l) (r := []) (by simpa using ticked) due (by simp) bound
    exact ⟨l, [], by simp, fun e inside => by rw [due e inside]; exact Nat.zero_le 1, by simp, fired, left⟩
  · rw [if_neg first] at ticked
    by_cases follows : c.tick.2 = true
    · rw [if_pos follows]
      obtain ⟨z', r', parts, due, later⟩ := Due.split ticked.due
      obtain ⟨z, r, rfl, rfl, rfl⟩ := List.map_eq_append_iff.mp parts
      rw [List.map_append] at ticked
      rw [List.length_append] at bound
      obtain ⟨fired, left⟩ := ticked.advanceAll due later
        (show _ ≤ Fintype.card Node by rw [List.length_map]; omega)
      refine ⟨z, r, rfl, fun e inside => ?_, fun e inside => ?_, ?_, left⟩
      · have zero := due _ (List.mem_map_of_mem inside)
        dsimp only at zero
        omega
      · have more := later _ (List.mem_map_of_mem inside)
        dsimp only at more
        omega
      · rw [fired, List.map_map]
        rfl
    · rw [if_neg follows]
      refine ⟨[], l, rfl, by simp, ?_, rfl, ticked⟩
      cases l with
      | nil => simp
      | cons e l =>
          -- the front is due in more than one tick, and nothing is due before it
          have front : 1 < e.2 := by
            by_contra soon
            have least : e.2 = 0 ∨ e.2 = 1 := by omega
            rcases least with zero | one
            · exact first (congrArg some zero)
            · exact follows (advances.mpr ⟨e.1, .inr ⟨l, by rw [← one]⟩⟩)
          intro f inside
          rcases List.mem_cons.mp inside with rfl | inside
          · exact front
          · exact Nat.lt_of_lt_of_le front (holds.due.2.base_le f inside)

end Ticks

/-! ## Runs -/

section Runs

variable {Node : Type} [DecidableEq Node] [Fintype Node] {s s' : Timed Node} {a : Action Node}
  {n : Node} {d : ℕ} {l : List (Node × ℕ)}

theorem timedStep_formed (formed : Formed s.chain) (moved : timedStep s a = some s')
    (timely : Timely s a) : Formed s'.chain := by
  cases a with
  | insert m ticks =>
      simp only [timedStep] at moved
      split at moved <;> cases moved
      rename_i outside
      exact (formed.insert (Bool.eq_false_of_not_eq_true outside)).1
  | dequeue m =>
      simp only [timedStep] at moved
      split at moved <;> cases moved
      rename_i inside
      exact (formed.dequeue inside).1
  | tick =>
      cases moved
      obtain ⟨l, holds⟩ := formed
      obtain ⟨z, r, -, -, -, -, left⟩ := holds.tickAll timely
      exact ⟨_, left⟩

/-- The node waits in the chain and is due in `d` ticks. -/
def Waits (c : DeltaChain Node) (n : Node) (d : ℕ) : Prop := ∃ l, Holds c l ∧ (n, d) ∈ l

/-- What does not touch a waiting node leaves when it is due. -/
theorem Waits.step (waits : Waits s.chain n d) (moved : timedStep s a = some s')
    (other : ¬ a.Touches n) (quiet : a.isTick = false) : Waits s'.chain n d ∧ s'.log = s.log := by
  obtain ⟨l, holds, inside⟩ := waits
  cases a with
  | insert m ticks =>
      simp only [timedStep] at moved
      split at moved <;> cases moved
      rename_i outside
      have notIn : m ∉ l.map Prod.fst := fun member => outside (holds.isQueued.mpr member)
      obtain ⟨x, y, rfl, -, -, inserted⟩ := holds.insert ticks notIn
      refine ⟨⟨_, inserted, ?_⟩, rfl⟩
      exact List.perm_middle.mem_iff.mpr (List.mem_cons_of_mem _ inside)
  | dequeue m =>
      simp only [timedStep] at moved
      split at moved <;> cases moved
      rename_i queued
      obtain ⟨⟨m, k⟩, member, rfl⟩ := List.mem_map.mp (holds.isQueued.mp queued)
      obtain ⟨x, y, rfl⟩ := List.append_of_mem member
      refine ⟨⟨_, holds.dequeue, ?_⟩, rfl⟩
      refine (List.mem_cons.mp (List.perm_middle.mem_iff.mp inside)).resolve_left fun same => ?_
      exact other (congrArg Prod.fst same).symm
  | tick => cases quiet

/-- A tick fires the node if it is due in at most one tick. -/
theorem Waits.tick (waits : Waits s.chain n d) (level : Level s.chain) :
    if d ≤ 1 then s.chain.tickAll.2.count n = 1 ∧ s.chain.tickAll.1.isQueued n = false
    else s.chain.tickAll.2.count n = 0 ∧ Waits s.chain.tickAll.1 n (d - 1) := by
  obtain ⟨l, holds, inside⟩ := waits
  obtain ⟨z, r, rfl, due, later, fired, left⟩ := holds.tickAll level
  have nodup := holds.nodup
  rw [List.map_append] at nodup
  obtain ⟨nodupZ, -, apart⟩ := List.nodup_append.mp nodup
  rw [fired]
  rcases List.mem_append.mp inside with inZ | inR
  · have atZ : n ∈ z.map Prod.fst := List.mem_map_of_mem inZ
    rw [if_pos (due _ inZ)]
    refine ⟨List.count_eq_one_of_mem nodupZ atZ, ?_⟩
    rw [← Bool.not_eq_true, left.isQueued, List.map_map]
    intro member
    exact apart n atZ n member rfl
  · have atR : n ∈ r.map Prod.fst := List.mem_map_of_mem inR
    have more := later _ inR
    rw [if_neg (Nat.not_le_of_lt more)]
    refine ⟨List.count_eq_zero_of_not_mem fun atZ => apart n atZ n atR rfl, ?_⟩
    exact ⟨_, left, List.mem_map.mpr ⟨(n, d), inR, rfl⟩⟩

/-- The node is not in the chain. -/
def Idle (c : DeltaChain Node) (n : Node) : Prop := Formed c ∧ c.isQueued n = false

theorem Idle.step (idle : Idle s.chain n) (moved : timedStep s a = some s')
    (other : ¬ a.Touches n) (quiet : a.isTick = false) : Idle s'.chain n ∧ s'.log = s.log := by
  obtain ⟨formed, outside⟩ := idle
  rw [← Bool.not_eq_true] at outside
  cases a with
  | insert m ticks =>
      simp only [timedStep] at moved
      split at moved <;> cases moved
      rename_i loose
      have inserted : Formed (s.chain.insert m ticks) ∧ _ :=
        formed.insert (Bool.eq_false_of_not_eq_true loose)
      obtain ⟨next, queued⟩ := inserted
      refine ⟨⟨next, ?_⟩, rfl⟩
      rw [← Bool.not_eq_true, queued]
      rintro (rfl | inside)
      · exact other rfl
      · exact outside inside
  | dequeue m =>
      simp only [timedStep] at moved
      split at moved <;> cases moved
      rename_i here
      obtain ⟨next, queued⟩ := formed.dequeue here
      refine ⟨⟨next, ?_⟩, rfl⟩
      rw [← Bool.not_eq_true, queued]
      exact fun both => outside both.2
  | tick => cases quiet

theorem Idle.tick (idle : Idle s.chain n) (level : Level s.chain) :
    s.chain.tickAll.2.count n = 0 ∧ Idle s.chain.tickAll.1 n := by
  obtain ⟨⟨l, holds⟩, outside⟩ := idle
  rw [← Bool.not_eq_true, holds.isQueued] at outside
  obtain ⟨z, r, rfl, -, -, fired, left⟩ := holds.tickAll level
  rw [List.map_append, List.mem_append, not_or] at outside
  rw [fired]
  refine ⟨List.count_eq_zero_of_not_mem outside.1, ⟨_, left⟩, ?_⟩
  rw [← Bool.not_eq_true, left.isQueued, List.map_map]
  exact outside.2

/-- What a run has logged beyond `s`, tick by tick: how often each of them has fired the
node. -/
def Fires (s s' : Timed Node) (run : List (Action Node)) (n : Node) (times : ℕ → ℕ) : Prop :=
  ∃ fires, s'.log = s.log ++ fires ∧ fires.length = run.countP Action.isTick ∧
    ∀ i f, fires[i]? = some f → f.count n = times i

omit [Fintype Node] in
theorem Fires.quiet {t : Timed Node} {run : List (Action Node)} {times : ℕ → ℕ}
    (fires : Fires t s' run n times) (same : t.log = s.log) (quiet : a.isTick = false) :
    Fires s s' (a :: run) n times := by
  obtain ⟨fires, log, length, counts⟩ := fires
  refine ⟨fires, same ▸ log, ?_, counts⟩
  rw [List.countP_cons_of_neg (by simp [quiet])]
  exact length

omit [Fintype Node] in
theorem Fires.tick {t : Timed Node} {run : List (Action Node)} {times : ℕ → ℕ} {f : List Node}
    (fires : Fires t s' run n fun i => times (i + 1)) (logged : t.log = s.log ++ [f])
    (first : f.count n = times 0) : Fires s s' (.tick :: run) n times := by
  obtain ⟨fires, log, length, counts⟩ := fires
  refine ⟨f :: fires, ?_, ?_, ?_⟩
  · rw [log, logged, List.append_assoc]
    rfl
  · rw [List.length_cons, List.countP_cons_of_pos rfl, length]
  · intro i g found
    cases i with
    | zero =>
        cases found
        exact first
    | succ i => exact counts i g found

omit [DecidableEq Node] [Fintype Node] in
theorem Action.eq_tick (ticks : a.isTick = true) : a = .tick := by
  cases a with
  | tick => rfl
  | insert | dequeue => cases ticks

/-- A node that is not inserted again is not fired again. -/
theorem Idle.run {run : List (Action Node)} (idle : Idle s.chain n)
    (ran : exec timedStep s run = some s') (timely : Along Timely timedStep s run)
    (other : ∀ a ∈ run, ¬ a.Touches n) : Fires s s' run n fun _ => 0 := by
  induction run generalizing s with
  | nil =>
      cases ran
      exact ⟨[], by simp, rfl, by simp⟩
  | cons a run ih =>
      obtain ⟨t, moved, later⟩ := exec_cons ran
      have others : ∀ b ∈ run, ¬ b.Touches n := fun b inside => other b (List.mem_cons_of_mem a inside)
      cases ticks : a.isTick with
      | false =>
          obtain ⟨still, log⟩ := idle.step moved (other a List.mem_cons_self) ticks
          exact (ih still later (timely.2 t moved) others).quiet log ticks
      | true =>
          obtain rfl := Action.eq_tick ticks
          obtain ⟨count, still⟩ := idle.tick timely.1
          cases moved
          exact (ih still later (timely.2 _ rfl) others).tick rfl count

/-- A waiting node is fired once, by the tick that it is due in. -/
theorem Waits.run {run : List (Action Node)} (waits : Waits s.chain n d)
    (ran : exec timedStep s run = some s') (timely : Along Timely timedStep s run)
    (other : ∀ a ∈ run, ¬ a.Touches n) :
    Fires s s' run n fun i => if i + 1 = max d 1 then 1 else 0 := by
  induction run generalizing s d with
  | nil =>
      cases ran
      exact ⟨[], by simp, rfl, by simp⟩
  | cons a run ih =>
      obtain ⟨t, moved, later⟩ := exec_cons ran
      have others : ∀ b ∈ run, ¬ b.Touches n := fun b inside => other b (List.mem_cons_of_mem a inside)
      cases ticks : a.isTick with
      | false =>
          obtain ⟨still, log⟩ := waits.step moved (other a List.mem_cons_self) ticks
          exact (ih still later (timely.2 t moved) others).quiet log ticks
      | true =>
          obtain rfl := Action.eq_tick ticks
          have ticked := waits.tick timely.1
          cases moved
          by_cases due : d ≤ 1
          · rw [if_pos due] at ticked
            obtain ⟨l, holds, -⟩ := waits
            obtain ⟨z, r, -, -, -, -, left⟩ := holds.tickAll timely.1
            have idle : Idle s.chain.tickAll.1 n := ⟨⟨_, left⟩, ticked.2⟩
            have rest := idle.run later (timely.2 _ rfl) others
            have never : (fun _ : ℕ => 0) = fun i => if i + 1 + 1 = max d 1 then 1 else 0 := by
              funext i
              rw [if_neg (by omega)]
            rw [never] at rest
            refine rest.tick rfl ?_
            rw [if_pos (by omega)]
            exact ticked.1
          · rw [if_neg due] at ticked
            have rest := ih ticked.2 later (timely.2 _ rfl) others
            have shifted : (fun i => if i + 1 = max (d - 1) 1 then 1 else 0) =
                fun i => if i + 1 + 1 = max d 1 then 1 else 0 := by
              funext i
              congr 1
              rw [eq_iff_iff]
              omega
            rw [shifted] at rest
            refine rest.tick rfl ?_
            rw [if_neg (by omega)]
            exact ticked.1

/-- **Timeouts fire on the right tick.**  In every run of which all ticks are timely, a node
that is inserted with `t` ticks and then neither dequeued nor inserted again is passed to the
callback by tick `t` after its insertion, by the first one for 0, once, and by no other. -/
theorem timeouts_punctual {run : List (Action Node)} (ran : exec timedStep timedStart run = some s)
    (timely : Along Timely timedStep timedStart run) (first second : List (Action Node)) (t : ℕ)
    (split : run = first ++ .insert n t :: second) (untouched : ∀ a ∈ second, ¬ a.Touches n) :
    ∃ s₁, exec timedStep timedStart (first ++ [.insert n t]) = some s₁ ∧
      Fires s₁ s second n fun i => if i + 1 = max t 1 then 1 else 0 := by
  have parts : run = (first ++ [.insert n t]) ++ second := by simp [split]
  rw [parts] at ran timely
  obtain ⟨s₁, before, after⟩ := exec_split ran
  obtain ⟨timelyBefore, timelyAfter⟩ := timely.split before
  obtain ⟨s₀, start, inserted⟩ := exec_split before
  have formed : Formed s₀.chain :=
    exec_invariant_along (I := fun s => Formed s.chain)
      (fun _ _ _ ok here moved => timedStep_formed ok moved here) formed_empty
      (timelyBefore.split start).1 start
  obtain ⟨s₂, moved, last⟩ := exec_cons inserted
  cases last
  have waits : Waits s₁.chain n t := by
    simp only [timedStep] at moved
    split at moved <;> cases moved
    rename_i outside
    obtain ⟨l, holds⟩ := formed
    have notIn : n ∉ l.map Prod.fst := fun member => outside (holds.isQueued.mpr member)
    obtain ⟨x, y, -, -, -, chain⟩ := holds.insert t notIn
    exact ⟨_, chain, by simp⟩
  exact ⟨s₁, before, waits.run after timelyAfter untouched⟩

/-- A node inserted with 2 ticks behind one that is due in 1 fires on the second tick. -/
theorem timeouts_punctual_two : ∃ s s₁ : Timed Bool,
    exec timedStep timedStart [.insert true 1, .insert false 2, .tick, .tick] = some s ∧
    exec timedStep timedStart [.insert true 1, .insert false 2] = some s₁ ∧
    Fires s₁ s [.tick, .tick] false fun i => if i + 1 = max 2 1 then 1 else 0 := by
  have ran : ∃ s : Timed Bool,
      exec timedStep timedStart [.insert true 1, .insert false 2, .tick, .tick] = some s := ⟨_, rfl⟩
  obtain ⟨s, ran⟩ := ran
  obtain ⟨s₁, before, fires⟩ := timeouts_punctual ran (by decide) [.insert true 1] [.tick, .tick] 2 rfl
    (by simp [Action.Touches])
  exact ⟨s, s₁, ran, before, fires⟩

/-- A node inserted with 1 tick, and before the tick another one with 0: the tick fires the second
node only. -/
theorem late_behind_zero : ∃ s s₁ : Timed Bool,
    exec timedStep timedStart [.insert true 1, .insert false 0, .tick] = some s ∧
    exec timedStep timedStart [.insert true 1] = some s₁ ∧
    ¬ Fires s₁ s [.insert false 0, .tick] true fun i => if i + 1 = max 1 1 then 1 else 0 := by
  refine ⟨_, _, rfl, rfl, ?_⟩
  rintro ⟨fires, log, -, counts⟩
  have fired : fires = [[false]] := log.symm.trans (by decide)
  have first := counts 0 [false] (by rw [fired]; rfl)
  exact absurd first (by decide)

end Runs

end Twan.Lib.DeltaChain
