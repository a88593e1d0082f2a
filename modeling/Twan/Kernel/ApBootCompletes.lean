/-
# Twan.Kernel.ApBootCompletes -- a boot comes to rest

A processor that is waited for is on its way (`Comes`), and every step makes less of what is left to
do (`Sys.left`).  `ap_boot_completes_iff`: a boot that comes to rest has woken everyone exactly when
each enabled entry has a processor and is the first entry with its id.
-/
import Mathlib.Algebra.Order.BigOperators.Group.Finset
import Mathlib.Data.Fintype.Card
import Twan.Kernel.ApBootSafe

namespace Twan.Kernel.ApBoot

set_option autoImplicit false
set_option linter.unusedSectionVars false

open Twan.Base

section Proofs

variable {N : ℕ} {P : Type} [DecidableEq P] {cpus : PerCpuData N} {apicId : P → ℕ}
  {s t : Sys N P}

/-! ## A processor that is waited for comes -/

/-- What is under way will start the processor, or it has started. -/
def Started (inbox : List Ipi) (a : Ap N) : Prop :=
  ¬ a.Rests ∨ ∃ before after, inbox = before ++ .startup :: after ∧ (a = .waitSipi ∨ .init ∈ before)

/-- What is sent so far brings the processor to. -/
def Due (inbox : List Ipi) (a : Ap N) : Wake → Prop
  | .apRsp | .init => True
  | .deassert | .startup => .init ∈ inbox ∨ a = .waitSipi ∨ ¬ a.Rests
  | .again | .spin => Started inbox a

def Comes (cpus : PerCpuData N) (apicId : P → ℕ) (s : Sys N P) : Prop :=
  ∀ i w p, s.bsp = .wake i w → apicId p = cpus.lapicId i →
    s.active i = true ∨ Due (s.inbox p) (s.ap p) w

section Dues

variable {inbox rest : List Ipi} {ipi : Ipi} {a : Ap N}

theorem take_of_busy (busy : ¬ a.Rests) (other : ipi ≠ .init) : Sys.take ipi a = a := by
  cases ipi with
  | init => exact absurd rfl other
  | deassert => rfl
  | startup =>
      cases a with
      | waitSipi => exact absurd trivial busy
      | _ => rfl

theorem Started.take (ok : Inbox (ipi :: rest) a) (started : Started (ipi :: rest) a) :
    Started rest (Sys.take ipi a) := by
  obtain busy | ⟨before, after, split, way⟩ := started
  · have other : ipi ≠ .init := fun same => ok.busy busy (same ▸ List.mem_cons_self)
    rw [take_of_busy busy other]
    exact .inl busy
  · cases before with
    | nil =>
        cases split
        obtain rfl := way.resolve_right List.not_mem_nil
        exact .inl id
    | cons first before =>
        cases split
        cases ipi with
        | init => exact .inr ⟨before, after, rfl, .inl rfl⟩
        | deassert => exact .inr ⟨before, after, rfl, way.imp id fun inside => by simpa using inside⟩
        | startup =>
            obtain rfl | inside := way
            · exact .inl id
            · have inside : .init ∈ before := by simpa using inside
              cases a with
              | waitSipi => exact .inl id
              | _ => exact .inr ⟨before, after, rfl, .inr inside⟩

theorem Due.take {w : Wake} (ok : Inbox (ipi :: rest) a) (due : Due (ipi :: rest) a w) :
    Due rest (Sys.take ipi a) w := by
  cases w with
  | apRsp | init => trivial
  | again | spin => exact Started.take ok due
  | deassert | startup =>
      cases ipi with
      | init => exact .inr (.inl rfl)
      | deassert => exact due.imp (fun inside => by simpa using inside) id
      | startup =>
          obtain inside | rfl | busy := due
          · exact .inl (by simpa using inside)
          · exact .inr (.inr id)
          · have same : Sys.take .startup a = a := take_of_busy busy (by decide)
            rw [same]
            exact .inr (.inr busy)

theorem Started.send (started : Started inbox a) : Started (inbox ++ [ipi]) a := by
  obtain busy | ⟨before, after, rfl, way⟩ := started
  · exact .inl busy
  · exact .inr ⟨before, after ++ [ipi], by simp, way⟩

/-- The first startup IPI starts the processor, unless it runs. -/
theorem started_of_due (due : Due inbox a .startup) : Started (inbox ++ [.startup]) a := by
  obtain inside | waits | busy := due
  · exact .inr ⟨inbox, [], rfl, .inr inside⟩
  · exact .inr ⟨inbox, [], rfl, .inl waits⟩
  · exact .inl busy

theorem due_of_busy {w : Wake} (busy : ¬ a.Rests) : Due inbox a w := by
  cases w with
  | apRsp | init => trivial
  | deassert | startup => exact .inr (.inr busy)
  | again | spin => exact .inl busy

end Dues

theorem start_comes : Comes cpus apicId (start cpus : Sys N P) := nofun

theorem Comes.deliver (comes : Comes cpus apicId s) (inv : Inv cpus apicId s) {p : P}
    (moved : s.deliver p = some t) : Comes cpus apicId t := by
  unfold Sys.deliver at moved
  split at moved
  · cases moved
  · rename_i ipi rest box
    cases moved
    intro i w q bsp id
    refine (comes i w q bsp id).imp (fun set => set) fun due => ?_
    change Due (Function.update s.inbox p rest q) (Function.update s.ap p (Sys.take ipi (s.ap p)) q) w
    by_cases same : q = p
    · subst same
      rw [Function.update_self, Function.update_self]
      have ok := inv.inbox q
      rw [box] at due ok
      exact due.take ok
    · rwa [Function.update_of_ne same, Function.update_of_ne same]

/-- A processor goes on. -/
theorem Comes.go (comes : Comes cpus apicId s) (p : P) {a : Ap N} {active : Fin N → Bool}
    (kept : ∀ i, s.active i = true → active i = true)
    (next : ∀ i w, s.bsp = .wake i w → apicId p = cpus.lapicId i → active i = true ∨ ¬ a.Rests) :
    Comes cpus apicId { s.setAp p a with active := active } := by
  intro i w q bsp id
  change active i = true ∨ Due (s.inbox q) (Function.update s.ap p a q) w
  by_cases same : q = p
  · subst same
    rw [Function.update_self]
    exact (next i w bsp id).imp (fun set => set) due_of_busy
  · rw [Function.update_of_ne same]
    exact (comes i w q bsp id).imp (kept i) fun due => due

theorem Comes.apStep (comes : Comes cpus apicId s) (inv : Inv cpus apicId s)
    (listed : Listed cpus apicId) {p : P} (moved : s.apStep cpus apicId p = some t) :
    Comes cpus apicId t := by
  unfold Sys.apStep at moved
  have same : ∀ i, s.active i = true → s.active i = true := fun _ set => set
  cases ap : s.ap p with
  | wakeup =>
      rw [ap] at moved
      dsimp only at moved
      split at moved
      · cases moved
        exact comes.go p same fun _ _ _ _ => .inr id
      · cases moved
        exact comes.go p same fun _ _ _ _ => .inr id
  | stacked rsp =>
      rw [ap] at moved
      dsimp only at moved
      split at moved
      · cases moved
        exact comes.go p same fun _ _ _ _ => .inr id
      · cases moved
        exact comes.go p same fun _ _ _ _ => .inr id
  | entered rsp =>
      rw [ap] at moved
      dsimp only at moved
      split at moved
      · cases moved
        exact comes.go p same fun _ _ _ _ => .inr id
      · rename_i none
        cases moved
        exact comes.go p same fun i _ _ own => absurd none (find_of_mem own.symm)
  | setup rsp cpu =>
      rw [ap] at moved
      cases moved
      refine comes.go p (fun i set => ?_) fun i w bsp own => .inl ?_
      · by_cases eq : i = cpu
        · rw [eq, Function.update_self]
        · rwa [Function.update_of_ne eq]
      · -- the entry that it found is the one that woke it
        have found : cpus.find (apicId p) = some cpu := by
          apply inv.found p cpu
          rw [ap]
          rfl
        obtain ⟨id, first⟩ := find_some found
        have eq : i = cpu := by
          apply le_antisymm
          · exact le_of_not_gt fun lt => (listed i (inv.wakes i w bsp)).2 cpu lt (id.trans own)
          · exact le_of_not_gt fun lt => first i lt own.symm
        rw [eq, Function.update_self]
  | waitSipi | halted _ _ | lost => rw [ap] at moved; cases moved

/-- What the next IPI of `lapic_wakeup_ap` does for its processor. -/
theorem Comes.send (comes : Comes cpus apicId s) (single : Single cpus apicId) {i : Fin N}
    {w next : Wake} {ipi : Ipi} (bsp : s.bsp = .wake i w) (wakes : cpus.Wakes i)
    (due : ∀ p, apicId p = cpus.lapicId i → Due (s.inbox p) (s.ap p) w →
      Due (s.inbox p ++ [ipi]) (s.ap p) next) :
    Comes cpus apicId (s.sendIpi cpus apicId i ipi next) := by
  intro j w' p bsp' own
  have spared : reaches (cpus.lapicId i) (cpus.lapicId cpus.bsp) = false := by
    rw [Bool.eq_false_iff]
    intro hit
    exact single.bsp i wakes ((reaches_iff single wakes).mp hit).symm
  have here : Bsp.wake i next = .wake j w' := by
    rw [← bsp']
    simp [Sys.sendIpi, spared]
  cases here
  refine (comes i w p bsp own).imp (fun set => set) fun before => ?_
  have hit : reaches (cpus.lapicId i) (apicId p) = true := (reaches_iff single wakes).mpr own
  change Due (if reaches (cpus.lapicId i) (apicId p) then s.inbox p ++ [ipi] else s.inbox p) (s.ap p) next
  rw [if_pos hit]
  exact due p own before

theorem Comes.bspStep (comes : Comes cpus apicId s) (inv : Inv cpus apicId s)
    (single : Single cpus apicId) (moved : s.bspStep cpus apicId = some t) : Comes cpus apicId t := by
  unfold Sys.bspStep at moved
  cases bsp : s.bsp with
  | save | copy | multicore | restore =>
      rw [bsp] at moved
      cases moved
      exact nofun
  | loop i =>
      rw [bsp] at moved
      dsimp only at moved
      split at moved
      · split at moved
        · cases moved
          intro j w p at' _
          cases at'
          exact .inr trivial
        · cases moved
          exact nofun
      · cases moved
        exact nofun
  | wake i w =>
      have wakes := inv.wakes i w bsp
      rw [bsp] at moved
      cases w with
      | apRsp =>
          cases moved
          intro j w p at' _
          cases at'
          exact .inr trivial
      | init =>
          cases moved
          exact comes.send single bsp wakes fun p _ _ => .inl (by simp)
      | deassert =>
          cases moved
          exact comes.send single bsp wakes fun p _ due => due.imp (fun inside => by simp [inside]) id
      | startup =>
          cases moved
          exact comes.send single bsp wakes fun p _ due => started_of_due due
      | again =>
          cases moved
          exact comes.send single bsp wakes fun p _ due => Started.send due
      | spin =>
          obtain ⟨-, ⟨⟩⟩ := Option.ite_none_right_eq_some.mp moved
          exact nofun
  | done | reset => rw [bsp] at moved; cases moved

theorem comes_of_run (single : Single cpus apicId) (listed : Listed cpus apicId)
    {run : List (Action P)} (ran : exec (step cpus apicId) (start cpus) run = some s) :
    Inv cpus apicId s ∧ Comes cpus apicId s := by
  refine exec_invariant (I := fun s => Inv cpus apicId s ∧ Comes cpus apicId s) (fun s a t both moved => ?_)
    ⟨start_inv single, start_comes⟩ ran
  refine ⟨step_inv single s a t both.1 moved, ?_⟩
  cases a with
  | bsp => exact both.2.bspStep both.1 single moved
  | deliver p => exact both.2.deliver both.1 moved
  | ap p => exact both.2.apStep both.1 listed moved

/-! ## A boot comes to rest -/

/-- How many statements are left. -/
def Wake.left : Wake → ℕ
  | .apRsp => 7
  | .init => 6
  | .deassert => 5
  | .startup => 4
  | .again => 3
  | .spin => 2

def Bsp.left : Bsp N → ℕ
  | .save => 8 * N + 5
  | .copy => 8 * N + 4
  | .loop i => 8 * (N - i) + 3
  | .wake i w => 8 * (N - (i + 1)) + 2 + w.left
  | .multicore => 2
  | .restore => 1
  | .done | .reset => 0

def Ap.left : Ap N → ℕ
  | .wakeup => 4
  | .stacked _ => 3
  | .entered _ => 2
  | .setup _ _ => 1
  | .waitSipi | .halted _ _ | .lost => 0

/-- A startup IPI starts a processor once. -/
def Ipi.left : Ipi → ℕ
  | .startup => 5
  | _ => 1

def load (inbox : List Ipi) (a : Ap N) : ℕ := (inbox.map Ipi.left).sum + a.left

section Measure

variable [Fintype P]

def Sys.left (s : Sys N P) : ℕ :=
  s.bsp.left * (5 * Fintype.card P + 1) + ∑ p, load (s.inbox p) (s.ap p)

theorem load_take (ipi : Ipi) (rest : List Ipi) (a : Ap N) :
    load rest (Sys.take ipi a) < load (ipi :: rest) a := by
  cases ipi <;> cases a <;> simp [load, Sys.take, Ipi.left, Ap.left] <;> omega

theorem load_append (inbox : List Ipi) (ipi : Ipi) (a : Ap N) :
    load (inbox ++ [ipi]) a ≤ load inbox a + 5 := by
  cases ipi <;> simp [load, Ipi.left] <;> omega

/-- A step of one processor. -/
theorem left_of_processor (p : P) (bsp : t.bsp = s.bsp)
    (less : load (t.inbox p) (t.ap p) < load (s.inbox p) (s.ap p))
    (others : ∀ q, q ≠ p → load (t.inbox q) (t.ap q) = load (s.inbox q) (s.ap q)) :
    t.left < s.left := by
  rw [Sys.left, Sys.left, bsp]
  apply Nat.add_lt_add_left
  apply Finset.sum_lt_sum
  · intro q _
    by_cases same : q = p
    · rw [same]
      exact le_of_lt less
    · exact le_of_eq (others q same)
  · exact ⟨p, Finset.mem_univ p, less⟩

/-- A step of the processor that boots. -/
theorem left_of_bsp (less : t.bsp.left < s.bsp.left)
    (sent : ∀ p, load (t.inbox p) (t.ap p) ≤ load (s.inbox p) (s.ap p) + 5) : t.left < s.left := by
  have total : ∑ p, load (t.inbox p) (t.ap p) ≤
      ∑ p, load (s.inbox p) (s.ap p) + 5 * Fintype.card P := by
    calc ∑ p, load (t.inbox p) (t.ap p)
      _ ≤ ∑ p, (load (s.inbox p) (s.ap p) + 5) := Finset.sum_le_sum fun p _ => sent p
      _ = ∑ p, load (s.inbox p) (s.ap p) + 5 * Fintype.card P := by
          rw [Finset.sum_add_distrib, Finset.sum_const_nat fun _ _ => rfl, Finset.card_univ, Nat.mul_comm]
  have step : (t.bsp.left + 1) * (5 * Fintype.card P + 1) ≤ s.bsp.left * (5 * Fintype.card P + 1) :=
    Nat.mul_le_mul_right _ less
  rw [Nat.add_one_mul] at step
  rw [Sys.left, Sys.left]
  omega

theorem deliver_left {p : P} (moved : s.deliver p = some t) : t.left < s.left := by
  unfold Sys.deliver at moved
  split at moved
  · cases moved
  · rename_i ipi rest box
    cases moved
    refine left_of_processor p rfl ?_ fun q other => ?_
    · change load (Function.update s.inbox p rest p)
        (Function.update s.ap p (Sys.take ipi (s.ap p)) p) < _
      rw [Function.update_self, Function.update_self, box]
      exact load_take ipi rest (s.ap p)
    · change load (Function.update s.inbox p rest q)
        (Function.update s.ap p (Sys.take ipi (s.ap p)) q) = _
      rw [Function.update_of_ne other, Function.update_of_ne other]

/-- A processor goes on. -/
theorem setAp_left {p : P} {a : Ap N} {active : Fin N → Bool} (less : a.left < (s.ap p).left) :
    ({ s.setAp p a with active := active } : Sys N P).left < s.left := by
  refine left_of_processor p rfl ?_ fun q other => ?_
  · change load (s.inbox p) (Function.update s.ap p a p) < _
    rw [Function.update_self]
    exact Nat.add_lt_add_left less _
  · change load (s.inbox q) (Function.update s.ap p a q) = _
    rw [Function.update_of_ne other]

theorem apStep_left {p : P} (moved : s.apStep cpus apicId p = some t) : t.left < s.left := by
  unfold Sys.apStep at moved
  cases ap : s.ap p with
  | wakeup | stacked rsp | entered rsp =>
      rw [ap] at moved
      dsimp only at moved
      split at moved <;> cases moved <;> exact setAp_left (by simp [ap, Ap.left])
  | setup rsp cpu =>
      rw [ap] at moved
      cases moved
      exact setAp_left (by simp [ap, Ap.left])
  | waitSipi | halted _ _ | lost => rw [ap] at moved; cases moved

theorem sendIpi_left {i : Fin N} {w next : Wake} {ipi : Ipi} (bsp : s.bsp = .wake i w)
    (less : next.left < w.left) : (s.sendIpi cpus apicId i ipi next).left < s.left := by
  apply left_of_bsp
  · rw [bsp]
    dsimp only [Sys.sendIpi]
    split
    · simp only [Bsp.left]
      omega
    · exact Nat.add_lt_add_left less _
  · intro p
    dsimp only [Sys.sendIpi]
    split
    · exact load_append _ ipi _
    · exact Nat.le_add_right _ 5

theorem bspStep_left (moved : s.bspStep cpus apicId = some t) : t.left < s.left := by
  have same : ∀ p, load (s.inbox p) (s.ap p) ≤ load (s.inbox p) (s.ap p) + 5 :=
    fun p => Nat.le_add_right _ 5
  unfold Sys.bspStep at moved
  cases bsp : s.bsp with
  | save | copy | multicore | restore =>
      rw [bsp] at moved
      cases moved
      refine left_of_bsp ?_ same
      rw [bsp]
      simp only [Bsp.left]
      omega
  | loop i =>
      rw [bsp] at moved
      dsimp only at moved
      split at moved
      · rename_i inside
        split at moved
        · cases moved
          refine left_of_bsp ?_ same
          rw [bsp]
          simp only [Bsp.left, Wake.left]
          omega
        · cases moved
          refine left_of_bsp ?_ same
          rw [bsp]
          simp only [Bsp.left]
          omega
      · cases moved
        refine left_of_bsp ?_ same
        rw [bsp]
        simp only [Bsp.left]
        omega
  | wake i w =>
      rw [bsp] at moved
      cases w with
      | apRsp =>
          cases moved
          refine left_of_bsp ?_ same
          rw [bsp]
          simp only [Bsp.left, Wake.left]
          omega
      | init | deassert | startup | again =>
          cases moved
          exact sendIpi_left bsp (by decide)
      | spin =>
          obtain ⟨-, ⟨⟩⟩ := Option.ite_none_right_eq_some.mp moved
          refine left_of_bsp ?_ same
          rw [bsp]
          simp only [Bsp.left, Wake.left]
          omega
  | done | reset => rw [bsp] at moved; cases moved

theorem step_left (s : Sys N P) (a : Action P) (t : Sys N P)
    (moved : step cpus apicId s a = some t) : t.left < s.left := by
  cases a with
  | bsp => exact bspStep_left moved
  | deliver p => exact deliver_left moved
  | ap p => exact apStep_left moved

theorem start_left : (start cpus : Sys N P).left = (8 * N + 5) * (5 * Fintype.card P + 1) := by
  simp [Sys.left, start, Bsp.left, load, Ap.left]

end Measure

/-- At rest, the loop is at its end or waits. -/
theorem bsp_of_rest (rest : ∀ a, step cpus apicId s a = none) (alive : s.bsp ≠ .reset) :
    s.bsp = .done ∨ ∃ i, s.bsp = .wake i .spin ∧ s.active i = false := by
  have stuck : s.bspStep cpus apicId = none := rest .bsp
  unfold Sys.bspStep at stuck
  cases bsp : s.bsp with
  | save | copy | multicore | restore => rw [bsp] at stuck; cases stuck
  | loop i =>
      rw [bsp] at stuck
      dsimp only at stuck
      split at stuck
      · split at stuck <;> cases stuck
      · cases stuck
  | wake i w =>
      cases w with
      | spin =>
          rw [bsp] at stuck
          refine .inr ⟨i, rfl, Bool.eq_false_iff.mpr fun set => ?_⟩
          simp [set] at stuck
      | _ => rw [bsp] at stuck; cases stuck
  | done => exact .inl rfl
  | reset => exact absurd bsp alive

/-- At rest, every processor that is not lost rests, and nothing is under way to it. -/
theorem ap_of_rest (rest : ∀ a, step cpus apicId s a = none) {p : P} (intact : s.ap p ≠ .lost) :
    (s.ap p).Rests ∧ s.inbox p = [] := by
  have still : s.apStep cpus apicId p = none := rest (.ap p)
  have delivered : s.deliver p = none := rest (.deliver p)
  constructor
  · unfold Sys.apStep at still
    cases ap : s.ap p with
    | wakeup | stacked rsp | entered rsp =>
        rw [ap] at still
        dsimp only at still
        split at still <;> cases still
    | setup rsp cpu => rw [ap] at still; cases still
    | waitSipi | halted _ _ => trivial
    | lost => exact absurd ap intact
  · unfold Sys.deliver at delivered
    split at delivered
    · rename_i empty
      exact empty
    · cases delivered

/-- However the processors and the delivery of the IPIs are interleaved, the boot comes to rest.  It
has then woken everyone, or waits forever, as the entries are. -/
theorem ap_boot_completes_iff [Fintype P] (single : Single cpus apicId) {run : List (Action P)}
    (ran : exec (step cpus apicId) (start cpus) run = some s) :
    run.length ≤ (8 * N + 5) * (5 * Fintype.card P + 1) ∧
      ((∀ a, step cpus apicId s a = none) → (s.bsp = .done ↔ Listed cpus apicId)) := by
  constructor
  · have smaller : ∀ s a t, step cpus apicId s a = some t → t.left < s.left := step_left
    have bound := exec_length_le smaller ran
    rw [start_left] at bound
    omega
  · intro rest
    have inv := inv_of_run single ran
    constructor
    · intro done i wakes
      have set : s.active i = true := by
        refine inv.passed i wakes ?_
        rw [done]
        trivial
      obtain ⟨-, p, first, -⟩ := inv.active i wakes set
      obtain ⟨same, before⟩ := find_some first
      exact ⟨⟨p, same.symm⟩, fun j lt eq => before j lt (eq.trans same)⟩
    · intro listed
      obtain done | ⟨i, bsp, unset⟩ := bsp_of_rest rest inv.bsp
      · exact done
      · obtain ⟨p, own⟩ := (listed i (inv.wakes i _ bsp)).1
        obtain ⟨rests, empty⟩ := ap_of_rest rest (inv.intact p)
        obtain set | started := (comes_of_run single listed ran).2 i _ p bsp own
        · rw [unset] at set
          cases set
        · -- nothing is under way to it and it has not started
          rw [empty] at started
          obtain busy | ⟨before, after, split, -⟩ := started
          · exact absurd rests busy
          · simp at split

theorem sample_rests (a : Action (Fin 2)) : step sample sampleId sampleEnd a = none := by
  rw [← Option.isNone_iff_eq_none]
  cases a with
  | bsp => decide
  | deliver p | ap p => revert p; decide

theorem ap_boot_completes_iff_three : sampleEnd.bsp = .done ∧ Listed sample sampleId :=
  have done : sampleEnd.bsp = .done := by decide
  ⟨done, ((ap_boot_completes_iff sample_single sample_ran).2 sample_rests).mp done⟩

end Proofs

end Twan.Kernel.ApBoot
