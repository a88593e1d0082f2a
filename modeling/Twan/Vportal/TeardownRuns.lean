/-
# Twan.Vportal.TeardownRuns -- a partition is torn down once

The counting of `Twan.Vportal.Teardown` as items that the parties claim and pay in
(`Twan.Base.Latch`), next to what the lifecycle of the vcpus keeps.

* `teardown_once`: in every run that meets the three conditions, each vcpu is counted once and
  `vdo_finalize_teardown` is executed once, after all of them;
* `late_add`: a step that breaks the first condition has a second party finalize;
* `teardown_finalizes_twice`, `popped_vcpu_counted_twice`, `kicked_vcpu_counted_twice`: runs that
  break one of the conditions each.
-/
import Twan.Vportal.Teardown

namespace Twan.Vportal.Teardown

set_option autoImplicit false

open Twan.Base Twan.Lib.Dq Twan.Vsched

section Invariant

variable {T P Cpu W : Type} {N : Nat} {l : Layout P Cpu W N} {s t : Sys T P Cpu W N}

/-- The counting, as items claimed by the parties. -/
def Sys.latch (s : Sys T P Cpu W N) : Latch (Party T N) (Fin N) :=
  ⟨fun p => (s.pc p).mine, s.counted⟩

/-- How far a vcpu can be while it executes recovery code itself. -/
def Own (i : Fin N) (f : Lifecycle.VcpuFields) : Pc N → Prop
  | .idle => True
  | .get => f.state.isActive = true ∧ f.recovering = false
  | .loop j mine =>
      if j ≤ i.val then f.state.isActive = true ∧ f.recovering = false else i ∈ mine
  | .add mine => i ∈ mine
  | .finalize | .done => f.state = .terminated

/-- The counter and the finalization: at most one party is ever about to finalize. -/
inductive Phase (s : Sys T P Cpu W N) : Prop where
  | counting (short : s.numTerminated < N) (never : s.finalized = 0)
      (nobody : ∀ p, s.pc p ≠ .finalize)
  | last (p : Party T N) (full : s.numTerminated = N) (never : s.finalized = 0)
      (here : s.pc p = .finalize) (only : ∀ q, s.pc q = .finalize → q = p)
  | closed (full : s.numTerminated = N) (once : s.finalized = 1)
      (nobody : ∀ p, s.pc p ≠ .finalize)

/-- A vcpu of the partition, of which `f` are the fields: flagged only outside the queues, with
the two fields of a spinning vcpu in step. -/
structure Sound (f : Lifecycle.VcpuFields) : Prop where
  agrees : f.Agrees
  flagged : f.terminate = true → f.state.isQueued = false

structure Inv (l : Layout P Cpu W N) (s : Sys T P Cpu W N) : Prop where
  sound : s.fault = false
  life : Lifecycle.Orderly l.life s.life
  vcpus : ∀ i, Sound (s.life.fields (.inl i))
  total : s.numTerminated = s.counted.length
  ledger : s.latch.Ok fun i => s.state i = .terminated
  own : ∀ i, Own i (s.life.fields (.inl i)) (s.pc (.vcpu i))
  holder : ∀ p, s.lock = some p ↔ (s.pc p).inLoop = true
  phase : Phase s
  entry : s.life.slot l.target = .placed ↔ s.finalized = 0

theorem Own.of_queued {i : Fin N} {f g : Lifecycle.VcpuFields} {pc : Pc N} (own : Own i f pc)
    (queued : f.state.isQueued = true) (now : g.state = .terminated) : Own i g pc := by
  have idle : f.state.isActive = false := by
    cases here : f.state <;> simp_all [VcpuState.isQueued, VcpuState.isActive]
  cases pc with
  | idle => trivial
  | get => simp [Own, idle] at own
  | loop j mine =>
      simp only [Own, idle] at own ⊢
      split at own
      · simp at own
      · rename_i past
        rw [if_neg past]
        exact own
  | add mine => exact own
  | finalize => exact now
  | done => exact now

theorem Own.congr {i : Fin N} {f g : Lifecycle.VcpuFields} {pc : Pc N} (own : Own i f pc)
    (state : g.state = f.state) (recovering : g.recovering = f.recovering) : Own i g pc := by
  cases pc <;> simp only [Own, state, recovering] at own ⊢ <;> exact own

/-- All vcpus have been added once the counter is full. -/
theorem Inv.all_counted (inv : Inv l s) (full : s.numTerminated = N) (i : Fin N) :
    i ∈ s.counted := by
  apply inv.ledger.mem_of_full
  show s.counted.length = _
  rw [← inv.total, full, Fintype.card_fin]

theorem Inv.all_terminated (inv : Inv l s) (full : s.numTerminated = N) (i : Fin N) :
    s.state i = .terminated :=
  (inv.ledger.taken_iff i).mpr (.inl (inv.all_counted full i))

theorem Inv.short_of_mine (inv : Inv l s) {p : Party T N} {i : Fin N}
    (mine : i ∈ (s.pc p).mine) : s.numTerminated < N := by
  have short := inv.ledger.lt_of_held (w := p) mine
  rw [Fintype.card_fin] at short
  rw [inv.total]
  exact short

/-- While some vcpu is not terminated, nobody has finalized. -/
theorem Inv.never_of_alive (inv : Inv l s) {i : Fin N} (alive : s.state i ≠ .terminated) :
    s.finalized = 0 := by
  cases inv.phase with
  | counting short never nobody => exact never
  | last p full never here only => exact never
  | closed full once nobody => exact absurd (inv.all_terminated full i) alive

theorem inv_created [DecidableEq P] [DecidableEq Cpu] [DecidableEq W] (created : Created l s) :
    Inv l s where
  sound := created.fault
  life := created.reached.orderly
  vcpus := fun i =>
    { agrees := (created.reached.orderly.settled (.inl i)).1 (created.unflagged i)
      flagged := fun flag => by
        have clear : s.life.terminate (.inl i) = false := created.unflagged i
        rw [show s.life.terminate (.inl i) = true from flag] at clear
        cases clear }
  total := by rw [created.numTerminated, created.counted, List.length_nil]
  ledger :=
    { counted_nodup := by
        show s.counted.Nodup
        rw [created.counted]
        exact List.nodup_nil
      held_nodup := fun p => by
        show (s.pc p).mine.Nodup
        rw [created.pc p]
        exact List.nodup_nil
      fresh := by
        intro p i mine
        rw [show s.latch.held p = [] from congrArg Pc.mine (created.pc p)] at mine
        exact absurd mine List.not_mem_nil
      apart := by
        intro p q i mine
        rw [show s.latch.held p = [] from congrArg Pc.mine (created.pc p)] at mine
        exact absurd mine List.not_mem_nil
      taken_iff := by
        intro i
        simp [Sys.latch, created.counted, created.pc, Pc.mine, created.alive i] }
  own := fun i => by
    rw [created.pc]
    trivial
  holder := by
    intro p
    simp [created.lock, created.pc, Pc.inLoop]
  phase := .counting (created.numTerminated ▸ created.nonempty) created.finalized
    fun p => by simp [created.pc]
  entry := iff_of_true created.placed created.finalized

variable [DecidableEq T]

theorem latch_goto (s : Sys T P Cpu W N) (p : Party T N) (pc : Pc N) :
    (s.goto p pc).latch = ⟨Function.update s.latch.held p pc.mine, s.counted⟩ := by
  show Latch.mk _ _ = Latch.mk _ _
  congr 1
  funext q
  by_cases same : q = p
  · subst same
    simp [Sys.goto]
  · simp [Sys.goto, Sys.latch, same]

theorem latch_goto_same {p : Party T N} {pc : Pc N} (same : pc.mine = (s.pc p).mine) :
    (s.goto p pc).latch = s.latch := by
  rw [latch_goto, same]
  show Latch.mk (Function.update s.latch.held p (s.latch.held p)) _ = _
  rw [Function.update_eq_self]
  rfl

theorem Phase.goto (phase : Phase s) {p : Party T N} {pc : Pc N}
    (was : s.pc p ≠ .finalize) (now : pc ≠ .finalize) : Phase (s.goto p pc) := by
  have same : ∀ q, (s.goto p pc).pc q = .finalize ↔ s.pc q = .finalize := by
    intro q
    by_cases here : q = p
    · subst here
      simp [Sys.goto, was, now]
    · simp [Sys.goto, here]
  cases phase with
  | counting short never nobody =>
      exact .counting short never fun q at_end => nobody q ((same q).mp at_end)
  | last q full never here only =>
      exact .last q full never ((same q).mpr here) fun r at_end => only r ((same r).mp at_end)
  | closed full once nobody =>
      exact .closed full once fun q at_end => nobody q ((same q).mp at_end)

theorem own_goto {p : Party T N} {pc : Pc N} {fields : Fin N → Lifecycle.VcpuFields}
    (mine : ∀ i, p = .vcpu i → Own i (fields i) pc)
    (others : ∀ i, p ≠ .vcpu i → Own i (fields i) (s.pc (.vcpu i))) (i : Fin N) :
    Own i (fields i) (Function.update s.pc p pc (.vcpu i)) := by
  by_cases here : p = .vcpu i
  · rw [← here, Function.update_self]
    exact mine i here
  · rw [Function.update_of_ne (Ne.symm here)]
    exact others i here

/-- A step of `p` that neither adds to the counter nor finalizes. -/
theorem Inv.update (inv : Inv l s) {p : Party T N} {pc : Pc N}
    {life : Lifecycle.Sys P Cpu (Fin N ⊕ W)} {lock : Option (Party T N)}
    (was : s.pc p ≠ .finalize) (now : pc ≠ .finalize)
    (held : ∀ q, lock = some q ↔ (Function.update s.pc p pc q).inLoop = true)
    (orderly : Lifecycle.Orderly l.life life) (slot : life.slot = s.life.slot)
    (vcpus : ∀ i, Sound (life.fields (.inl i)))
    (ledger : (s.goto p pc).latch.Ok fun i => life.state (.inl i) = .terminated)
    (mine : ∀ i, p = .vcpu i → Own i (life.fields (.inl i)) pc)
    (others : ∀ i, p ≠ .vcpu i → Own i (life.fields (.inl i)) (s.pc (.vcpu i))) :
    Inv l ({ s with life := life, lock := lock }.goto p pc) where
  sound := inv.sound
  life := orderly
  vcpus := vcpus
  total := inv.total
  ledger := ledger
  own := own_goto mine others
  holder := held
  phase := by
    have moved := inv.phase.goto was now
    cases moved with
    | counting short never nobody => exact .counting short never nobody
    | last q full never here only => exact .last q full never here only
    | closed full once nobody => exact .closed full once nobody
  entry := by
    show life.slot l.target = .placed ↔ s.finalized = 0
    rw [slot]
    exact inv.entry

/-- The entry changes hands with nobody else inside the loop. -/
theorem held_goto (inv : Inv l s) {p : Party T N} {pc : Pc N}
    (same : pc.inLoop = (s.pc p).inLoop) (q : Party T N) :
    s.lock = some q ↔ (Function.update s.pc p pc q).inLoop = true := by
  rw [inv.holder q]
  by_cases here : q = p
  · subst here
    rw [Function.update_self, same]
  · rw [Function.update_of_ne here]

/-- A step of `p` that moves on in its code and touches nothing shared but the
entry of the table. -/
theorem Inv.goto (inv : Inv l s) {p : Party T N} {pc : Pc N} {lock : Option (Party T N)}
    (was : s.pc p ≠ .finalize) (now : pc ≠ .finalize)
    (held : ∀ q, lock = some q ↔ (Function.update s.pc p pc q).inLoop = true)
    (same : pc.mine = (s.pc p).mine)
    (mine : ∀ i, p = .vcpu i → Own i (s.life.fields (.inl i)) pc) :
    Inv l ({ s with lock := lock }.goto p pc) := by
  have ledger := inv.ledger
  rw [← latch_goto_same same] at ledger
  exact inv.update was now held inv.life rfl inv.vcpus ledger mine fun i _ => inv.own i

theorem Inv.start (inv : Inv l s) {c : T} (here : s.pc (.teardown c) = .idle) :
    Inv l (s.goto (.teardown c) .get) := by
  refine inv.goto (by simp [here]) (by simp) ?_ ?_ ?_
  · exact held_goto inv (by simp [here, Pc.inLoop])
  · simp [here, Pc.mine]
  · nofun

/-- A vcpu fails while it is on its CPU. -/
theorem Inv.fail (inv : Inv l s) {i : Fin N} (rest : (s.pc (.vcpu i)).atRest = true)
    (mine : s.state i = .transitioning ∨ s.state i = .running)
    (free : s.life.recovering (.inl i) = false) : Inv l (s.goto (.vcpu i) .get) := by
  have still : s.pc (.vcpu i) ≠ .finalize ∧ (s.pc (.vcpu i)).inLoop = false ∧
      (s.pc (.vcpu i)).mine = [] := by
    cases here : s.pc (.vcpu i) <;> simp_all [Pc.atRest, Pc.inLoop, Pc.mine]
  refine inv.goto still.1 (by simp) ?_ ?_ ?_
  · exact held_goto inv still.2.1.symm
  · exact still.2.2.symm
  · rintro j ⟨⟩
    refine ⟨?_, free⟩
    show (s.state i).isActive = true
    rcases mine with here | here <;> rw [here] <;> rfl

theorem Inv.get (inv : Inv l s) [DecidableEq P] {p : Party T N} (here : s.pc p = .get)
    (moved : s.get l p = some t) : Inv l t := by
  simp only [Sys.get] at moved
  split at moved
  · cases moved
  rename_i free
  have unlocked : s.lock = none := by simpa using free
  split at moved
  · cases moved
    refine inv.goto (by simp [here]) (by simp) ?_ ?_ ?_
    · intro q
      by_cases same : q = p
      · subst same
        simp [Pc.inLoop]
      · have outside := inv.holder q
        rw [unlocked] at outside
        simpa [same, Ne.symm same] using outside
    · simp [here, Pc.mine]
    · intro i e
      have busy := inv.own i
      rw [← e, here] at busy
      simpa [Own] using busy
  rename_i gone
  cases p with
  | teardown c =>
      cases moved
      refine inv.goto (by simp [here]) (by simp) ?_ ?_ ?_
      · exact held_goto inv (by simp [here, Pc.inLoop])
      · simp [here, Pc.mine]
      · nofun
  | vcpu i =>
      -- the entry is gone only after every vcpu was terminated, and this one is not
      have busy := inv.own i
      rw [here] at busy
      have alive : s.state i ≠ .terminated := by
        intro dead
        have active : (s.state i).isActive = true := busy.1
        simp [dead, VcpuState.isActive] at active
      exact absurd (inv.entry.mpr (inv.never_of_alive alive)) gone

theorem Inv.leave (inv : Inv l s) {p : Party T N} {i : Nat} {mine : List (Fin N)}
    (here : s.pc p = .loop i mine) (last : ¬ i < N) :
    Inv l ({ s with lock := none }.goto p (.add mine)) := by
  refine inv.goto (by simp [here]) (by simp) ?_ ?_ ?_
  · intro q
    have only := inv.holder q
    rw [(inv.holder p).mpr (by simp [here, Pc.inLoop])] at only
    by_cases same : q = p
    · subst same
      simp [Pc.inLoop]
    · simpa [same, Ne.symm same] using only
  · simp [here, Pc.mine]
  · intro j e
    have own := inv.own j
    rw [← e, here] at own
    have bound := j.isLt
    have past : ¬ i ≤ j.val := by omega
    simpa [Own, past] using own

omit [DecidableEq T] in
/-- Whoever adds a vcpu finds the counter short, and so does whoever adds nothing
early enough. -/
theorem Inv.counting_of_add (inv : Inv l s) {p : Party T N} {mine : List (Fin N)}
    (here : s.pc p = .add mine) (early : mine = [] → s.numTerminated ≠ N) :
    s.numTerminated < N ∧ s.finalized = 0 ∧ ∀ q, s.pc q ≠ .finalize := by
  have short : s.numTerminated ≠ N := by
    cases mine with
    | nil => exact early rfl
    | cons i rest =>
        have less := inv.short_of_mine (p := p) (i := i) (by simp [here, Pc.mine])
        omega
  cases inv.phase with
  | counting less never nobody => exact ⟨less, never, nobody⟩
  | last q full never at_end only => exact absurd full short
  | closed full once nobody => exact absurd full short

theorem ledger_add (inv : Inv l s) {p : Party T N} {pc : Pc N} {mine : List (Fin N)}
    (here : s.pc p = .add mine) (empty : pc.mine = []) :
    ({ s with counted := s.counted ++ mine }.goto p pc).latch.Ok
      fun i => s.state i = VcpuState.terminated := by
  have held : s.latch.held p = mine := by
    show (s.pc p).mine = mine
    rw [here]
    rfl
  have paid := inv.ledger.add p
  rw [Latch.add, held] at paid
  rw [latch_goto, empty]
  exact paid

/-- The addition, unless it is one of nothing to a counter that is already full. -/
theorem Inv.add (inv : Inv l s) {p : Party T N} {mine : List (Fin N)}
    (here : s.pc p = .add mine) (early : mine = [] → s.numTerminated ≠ N) :
    Inv l (s.add p mine) := by
  obtain ⟨short, never, nobody⟩ := inv.counting_of_add here early
  have terminated : ∀ i, p = .vcpu i → s.state i = .terminated := by
    intro i same
    have own := inv.own i
    rw [← same, here] at own
    refine inv.ledger.taken_of_held (w := p) ?_
    simpa [Sys.latch, here, Pc.mine, Own] using own
  have total : s.numTerminated + mine.length = (s.counted ++ mine).length := by
    rw [inv.total, List.length_append]
  rw [Sys.add]
  split
  · rename_i full
    refine ⟨inv.sound, inv.life, inv.vcpus, total, ledger_add inv here (by rfl),
      own_goto terminated fun i _ => inv.own i, held_goto inv (by simp [here, Pc.inLoop]), ?_,
      inv.entry⟩
    refine .last p full never (Function.update_self ..) ?_
    intro q at_end
    by_contra other
    exact nobody q (by simpa [Sys.goto, other] using at_end)
  · rename_i open_
    have bound : s.numTerminated + mine.length ≤ N := by
      have paid : ({ s with counted := s.counted ++ mine }.goto p .done).latch.Ok _ :=
        ledger_add inv here rfl
      have full := paid.length_le
      rw [Fintype.card_fin] at full
      rw [total]
      exact full
    refine ⟨inv.sound, inv.life, inv.vcpus, total, ledger_add inv here (by rfl),
      own_goto terminated fun i _ => inv.own i, held_goto inv (by simp [here, Pc.inLoop]), ?_,
      inv.entry⟩
    refine .counting (lt_of_le_of_ne bound open_) never ?_
    intro q at_end
    by_cases same : q = p
    · subst same
      simp [Sys.goto] at at_end
    · exact nobody q (by simpa [Sys.goto, same] using at_end)

/-! ## Steps of the lifecycle -/

section Live

variable [DecidableEq Cpu] [DecidableEq W]
  {a : Lifecycle.Action P Cpu (Fin N ⊕ W)} {life : Lifecycle.Sys P Cpu (Fin N ⊕ W)}

omit [DecidableEq T] [DecidableEq Cpu] [DecidableEq W] in
theorem Sound.next {v : Fin N ⊕ W} (sound : Sound (s.life.fields v))
    (effect : Lifecycle.Effect s.life life v a)
    (spares : a = .visit v → s.life.state v ≠ .pvSpinning) : Sound (life.fields v) :=
  ⟨effect.agrees spares sound.agrees, effect.flagged sound.agrees sound.flagged⟩

omit [DecidableEq Cpu] [DecidableEq W] in
/-- A vcpu that is not terminated yet is terminated by `p` and remembered by it. -/
theorem ledger_claim (inv : Inv l s) {p : Party T N} {pc : Pc N} {i : Fin N}
    (alive : s.state i ≠ .terminated) (more : pc.mine = (s.pc p).mine ++ [i])
    (now : ∀ j, life.state (.inl j) = .terminated ↔ j = i ∨ s.state j = .terminated) :
    (s.goto p pc).latch.Ok fun j => life.state (.inl j) = .terminated := by
  rw [latch_goto, more]
  exact inv.ledger.claim alive now

omit [DecidableEq T] [DecidableEq Cpu] [DecidableEq W] in
/-- A vcpu in its own recovery code is moved by nobody. -/
theorem busy_next {i : Fin N} (agrees : (s.life.fields (.inl i)).Agrees)
    (effect : Lifecycle.Effect s.life life (.inl i) a) (spared : a.ends ≠ some (.inl i))
    (elsewhere : a.onCpu ≠ some (.inl i))
    (busy : (s.life.fields (.inl i)).state.isActive = true ∧
      (s.life.fields (.inl i)).recovering = false) :
    (life.fields (.inl i)).state.isActive = true ∧ (life.fields (.inl i)).recovering = false := by
  cases effect with
  | stays _ now | remembers _ now =>
      rw [now]
      exact busy
  | popped here | unpaused here =>
      have active : (s.life.state (.inl i)).isActive = true := busy.1
      simp [here, VcpuState.isActive] at active
  | kicked paused =>
      have active := busy.1
      rw [agrees.1.mp paused] at active
      cases active
  | parks own => rcases own with rfl | rfl <;> exact absurd rfl elsewhere
  | notices own => exact absurd (Lifecycle.onCpu_of_looks own) elsewhere
  | visited => exact absurd rfl spared
  | spins | asserts | forgets | enters | exits | fails | recovers => exact absurd rfl elsewhere

omit [DecidableEq T] [DecidableEq Cpu] [DecidableEq W] in
/-- What the others do to a vcpu while it executes recovery code. -/
theorem Own.next {i : Fin N} {pc : Pc N} (own : Own i (s.life.fields (.inl i)) pc)
    (agrees : (s.life.fields (.inl i)).Agrees) (effect : Lifecycle.Effect s.life life (.inl i) a)
    (spared : a.ends ≠ some (.inl i)) (elsewhere : a.onCpu = some (.inl i) → pc.atRest = true) :
    Own i (life.fields (.inl i)) pc := by
  have ended : life.state (.inl i) = .terminated ↔ s.life.state (.inl i) = .terminated :=
    effect.terminated_iff agrees spared
  have still := busy_next agrees effect spared
  cases pc with
  | idle => trivial
  | add mine => exact own
  | get => exact still (fun on => Bool.false_ne_true (elsewhere on)) own
  | finalize => exact ended.mpr own
  | done => exact ended.mpr own
  | loop j mine =>
      simp only [Own] at own ⊢
      split
      · rename_i before
        rw [if_pos before] at own
        exact still (fun on => Bool.false_ne_true (elsewhere on)) own
      · rename_i past
        rw [if_neg past] at own
        exact own

theorem Own.advance {i j : Fin N} {f : Lifecycle.VcpuFields} {mine more : List (Fin N)}
    (own : Own j f (.loop i mine)) (apart : j ≠ i) (wider : mine ⊆ more) :
    Own j f (.loop (i + 1) more) := by
  have differ : i.val ≠ j.val := fun same => apart (Fin.ext same.symm)
  by_cases before : i.val ≤ j.val
  · have still : i.val + 1 ≤ j.val := by omega
    simpa [Own, before, still] using own
  · have past : ¬ i.val + 1 ≤ j.val := by omega
    simp only [Own, before, past, if_false] at own ⊢
    exact wider own

/-- A party terminates vcpu `i` and remembers it. -/
theorem Inv.terminates (inv : Inv l s) {p : Party T N} {pc : Pc N} {i : Fin N}
    (was : s.pc p ≠ .finalize) (now : pc ≠ .finalize) (loops : pc.inLoop = (s.pc p).inLoop)
    (more : pc.mine = (s.pc p).mine ++ [i]) (alive : s.state i ≠ .terminated)
    (dead : life.state (.inl i) = .terminated) (queues : Lifecycle.QueueStep l.life s.life life)
    (effect : ∀ v, Lifecycle.Effect s.life life v a) (ends : a.ends = some (.inl i))
    (only : ∀ j, a.onCpu = some (.inl j) → j = i)
    (spares : a = .visit (.inl i) → s.state i ≠ .pvSpinning) (slot : life.slot = s.life.slot)
    (mine : ∀ j, p = .vcpu j → Own j (life.fields (.inl j)) pc)
    (self : p ≠ .vcpu i → Own i (life.fields (.inl i)) (s.pc (.vcpu i))) :
    Inv l ((s.setLife life).goto p pc) := by
  have apart : ∀ j, j ≠ i → a.ends ≠ some (.inl j) := by
    intro j other
    rw [ends]
    exact fun same => other (Sum.inl.inj (Option.some.inj same)).symm
  refine inv.update was now (held_goto inv loops) (inv.life.next queues effect) slot ?_
    (ledger_claim inv alive more ?_) mine ?_
  · intro j
    refine (inv.vcpus j).next (effect _) ?_
    rintro rfl
    cases ends
    exact spares rfl
  · intro j
    by_cases same : j = i
    · subst same
      simp [dead]
    · rw [(effect (.inl j)).terminated_iff (inv.vcpus j).agrees (apart j same)]
      simp [same, Sys.state]
  · intro j other
    by_cases same : j = i
    · subst same
      exact self other
    · exact (inv.own j).next (inv.vcpus j).agrees (effect _) (apart j same)
        fun on => absurd (only j on) same

/-- A vcpu that fails terminates itself when its loop comes to it. -/
theorem Inv.visitCurrent (inv : Inv l s) {i : Fin N} {mine : List (Fin N)}
    (here : s.pc (.vcpu i) = .loop i mine) :
    Inv l ((s.setLife (s.life.visitCurrent (.inl i))).goto (.vcpu i)
      (.loop (i + 1) (mine ++ [i]))) := by
  have busy := inv.own i
  simp only [here, Own, le_refl, if_true] at busy
  have active : s.life.state (.inl i) = .transitioning ∨ s.life.state (.inl i) = .running := by
    have on : (s.life.state (.inl i)).isActive = true := busy.1
    cases state : s.life.state (.inl i) <;> simp_all [VcpuState.isActive]
  have queues : Lifecycle.QueueStep l.life s.life (s.life.visitCurrent (.inl i)) := by
    rcases active with on | on
    · exact Lifecycle.queues_terminated on rfl rfl
    · exact Lifecycle.queues_terminated on rfl rfl
  have alive : s.state i ≠ .terminated := by
    intro closed
    rcases active with on | on <;> cases closed.symm.trans on
  refine inv.terminates (a := .visitCurrent (.inl i)) (by simp [here]) (by simp)
    (by simp [here, Pc.inLoop]) (by simp [here, Pc.mine]) alive ?_ queues
    (fun v => Lifecycle.effect_visitCurrent active busy.2) rfl ?_ nofun rfl ?_
    fun other => absurd rfl other
  · simp [Lifecycle.Sys.visitCurrent, Lifecycle.Sys.state, Lifecycle.Sys.setState]
  · rintro j ⟨⟩
    rfl
  · rintro j ⟨⟩
    simp [Own]

/-- The visit of a party to a vcpu that is not its own. -/
theorem Inv.visitOther (inv : Inv l s) {p : Party T N} {i : Fin N} {mine : List (Fin N)}
    (here : s.pc p = .loop i mine) (other : p ≠ .vcpu i) (calm : s.state i ≠ .pvSpinning) :
    Inv l ((s.setLife (s.life.visit l.life (.inl i))).goto p
      (.loop (i + 1) (if (s.state i).isQueued then mine ++ [i] else mine))) := by
  have effect := fun v => Lifecycle.effect_visit (l := l.life) (s := s.life) (v := v) (w := .inl i)
  have fields := fun v => Lifecycle.visit_fields (l := l.life) (s := s.life) (v := v) (w := .inl i)
  have later : ∀ j, p = .vcpu j → ∀ more, mine ⊆ more →
      Own j ((s.life.visit l.life (.inl i)).fields (.inl j)) (.loop (i + 1) more) := by
    intro j e more wider
    have apart : j ≠ i := fun same => other (same ▸ e)
    have own := inv.own j
    rw [← e, here] at own
    rw [fields, if_neg (by simpa using apart)]
    exact own.advance apart wider
  split
  · rename_i queued
    have alive : s.state i ≠ .terminated := by
      intro closed
      rw [closed] at queued
      cases queued
    have dead : (s.life.visit l.life (.inl i)).state (.inl i) = .terminated := by
      have now := congrArg Lifecycle.VcpuFields.state (fields (.inl i))
      rw [if_pos rfl] at now
      exact now.trans (if_pos queued)
    refine inv.terminates (a := .visit (.inl i)) (by simp [here]) (by simp)
      (by simp [here, Pc.inLoop]) (by simp [here, Pc.mine]) alive dead Lifecycle.queues_visit effect
      rfl nofun (fun _ => calm) Lifecycle.slot_visit ?_ ?_
    · exact fun j e => later j e _ (List.subset_append_left mine [i])
    · exact fun _ => (inv.own i).of_queued queued dead
  · rename_i loose
    have same : ∀ j, ((s.life.visit l.life (.inl i)).fields (.inl j)).state =
          (s.life.fields (.inl j)).state ∧
        ((s.life.visit l.life (.inl i)).fields (.inl j)).recovering =
          (s.life.fields (.inl j)).recovering := by
      intro j
      rw [fields]
      split
      · rename_i e
        cases e
        exact ⟨if_neg loose, rfl⟩
      · exact ⟨rfl, rfl⟩
    refine inv.update (by simp [here]) (by simp) ?_
      (inv.life.next Lifecycle.queues_visit effect) Lifecycle.slot_visit ?_ ?_ ?_ ?_
    · exact held_goto inv (by simp [here, Pc.inLoop])
    · intro j
      refine (inv.vcpus j).next (effect _) ?_
      rintro ⟨⟩
      exact calm
    · rw [latch_goto_same (by simp [here, Pc.mine])]
      refine inv.ledger.congr fun j => ?_
      rw [show (s.life.visit l.life (.inl i)).state (.inl j) = s.state j from (same j).1]
    · exact fun j e => later j e mine (List.Subset.refl mine)
    · exact fun j _ => (inv.own j).congr (same j).1 (same j).2

theorem Inv.visit (inv : Inv l s) {p : Party T N} {i : Fin N} {mine : List (Fin N)}
    (here : s.pc p = .loop i mine) (calm : p ≠ .vcpu i → s.state i ≠ .pvSpinning) :
    Inv l (s.visit l p i mine) := by
  rw [Sys.visit]
  split
  · rename_i own
    subst own
    exact inv.visitCurrent here
  · rename_i other
    exact inv.visitOther here other (calm other)

variable [DecidableEq P]

theorem Inv.recover (inv : Inv l s) {i : Fin N} (rest : (s.pc (.vcpu i)).atRest = true)
    (moved : s.recover l i = some t) : Inv l t := by
  obtain ⟨life, recovered, rfl⟩ := Option.map_eq_some_iff.mp moved
  have effect := Lifecycle.step_effect inv.life.filed.filing recovered
  have queues := Lifecycle.step_queues inv.life (by trivial) recovered
  obtain ⟨busy, result⟩ := Option.ite_none_right_eq_some.mp recovered
  have dead : life.state (.inl i) = .terminated := by
    cases result
    simp [Lifecycle.Sys.state, Lifecycle.Sys.setState, Lifecycle.Sys.setRecovering]
  have alive : s.state i ≠ .terminated := by
    intro closed
    rcases (inv.vcpus i).agrees.2 busy with here | here <;> cases closed.symm.trans here
  have resting : s.pc (.vcpu i) ≠ .finalize ∧ (s.pc (.vcpu i)).inLoop = false ∧
      (s.pc (.vcpu i)).mine = [] := by
    cases here : s.pc (.vcpu i) <;> simp_all [Pc.atRest, Pc.inLoop, Pc.mine]
  refine inv.terminates resting.1 (by simp) resting.2.1.symm ?_ alive dead queues effect rfl ?_
    (fun visits => by cases visits) ?_ ?_ fun other => absurd rfl other
  · rw [resting.2.2]
    rfl
  · rintro j ⟨⟩
    rfl
  · cases result
    rfl
  · rintro j ⟨⟩
    simp [Own]

omit [DecidableEq T] in
/-- Whoever finalizes finds all vcpus terminated, which is what the end of a partition asks for. -/
theorem Inv.removes (inv : Inv l s) (full : s.numTerminated = N) (never : s.finalized = 0) :
    Lifecycle.step l.life s.life (.remove l.target) =
      some { s.life with slot := Function.update s.life.slot l.target .removed } := by
  refine if_pos ⟨inv.entry.mpr never, List.all_eq_true.mpr fun v member => ?_⟩
  obtain ⟨i, rfl⟩ := l.vcpus v member
  simpa [Sys.state] using inv.all_terminated full i

theorem Inv.finalize (inv : Inv l s) {p : Party T N} (here : s.pc p = .finalize)
    (moved : s.finalize l p = some t) : Inv l t := by
  simp only [Sys.finalize] at moved
  split at moved
  · cases moved
  cases moved
  have empty : Pc.done.mine = (s.pc p).mine := by simp [here, Pc.mine]
  have ledger := inv.ledger
  rw [← latch_goto_same empty] at ledger
  have terminated : ∀ i, p = .vcpu i → s.state i = .terminated := by
    intro i same
    have own := inv.own i
    rw [← same, here] at own
    exact own
  cases inv.phase with
  | counting short never nobody => exact absurd here (nobody p)
  | closed full once nobody => exact absurd here (nobody p)
  | last q full never at_end only =>
      have present : s.life.slot l.target = .placed := inv.entry.mpr never
      refine ⟨?_, Lifecycle.step_orderly inv.life (by trivial) (inv.removes full never), inv.vcpus,
        inv.total, ledger, own_goto terminated fun i _ => inv.own i,
        held_goto inv (by simp [here, Pc.inLoop]), ?_, ?_⟩
      · show (s.fault || decide (s.life.slot l.target ≠ Lifecycle.Slot.placed)) = false
        rw [inv.sound, present]
        rfl
      · refine .closed full ?_ ?_
        · show s.finalized + 1 = 1
          rw [never]
        · intro r again
          by_cases same : r = p
          · subst same
            simp [Sys.goto] at again
          · have there : s.pc r = .finalize := by simpa [Sys.goto, same] using again
            exact same ((only r there).trans (only p here).symm)
      · simp [Sys.goto]

/-! ## Steps of the scheduler -/

omit [DecidableEq T] [DecidableEq Cpu] [DecidableEq W] in
theorem spared_of_allows (allowed : s.allows l a = true) (i : Fin N) : a.ends ≠ some (.inl i) := by
  rintro ends
  cases a <;> cases ends <;> cases allowed

omit [DecidableEq T] [DecidableEq Cpu] [DecidableEq W] in
theorem rest_of_allows (allowed : s.allows l a = true) (i : Fin N) (own : a.onCpu = some (.inl i)) :
    (s.pc (.vcpu i)).atRest = true := by
  cases a <;> cases own <;> first | exact allowed | cases allowed

omit [DecidableEq T] in
/-- The scheduler leaves the entry of the partition alone. -/
theorem slot_of_allows (allowed : s.allows l a = true)
    (moved : Lifecycle.step l.life s.life a = some life) :
    life.slot l.target = s.life.slot l.target := by
  apply Lifecycle.step_slot moved
  · rintro rfl
    exact of_decide_eq_true allowed rfl
  · rintro rfl
    exact of_decide_eq_true allowed rfl

omit [DecidableEq T] in
theorem Inv.schedule (inv : Inv l s) (zero : Lifecycle.PopsZero s.life a)
    (allowed : s.allows l a = true) (moved : Lifecycle.step l.life s.life a = some life) :
    Inv l (s.setLife life) := by
  have effect := Lifecycle.step_effect inv.life.filed.filing moved
  have spared := spared_of_allows allowed
  have vcpus : ∀ i, Sound (life.fields (.inl i)) := by
    intro i
    refine (inv.vcpus i).next (effect _) ?_
    rintro rfl
    exact absurd rfl (spared i)
  have ledger : s.latch.Ok fun i => life.state (.inl i) = .terminated :=
    inv.ledger.congr fun i => (effect (.inl i)).terminated_iff (inv.vcpus i).agrees (spared i)
  refine ⟨inv.sound, Lifecycle.step_orderly inv.life zero moved, vcpus, inv.total, ledger,
    fun i => (inv.own i).next (inv.vcpus i).agrees (effect _) (spared i)
      (rest_of_allows allowed i), inv.holder, ?_, ?_⟩
  · cases inv.phase with
    | counting short never nobody => exact .counting short never nobody
    | last q full never at_end only => exact .last q full never at_end only
    | closed full once nobody => exact .closed full once nobody
  · show life.slot l.target = .placed ↔ s.finalized = 0
    rw [slot_of_allows allowed moved]
    exact inv.entry

/-! ## Runs -/

theorem runParty_inv {p : Party T N} (inv : Inv l s) (early : Early s (.run p))
    (spares : SparesSpinning s (.run p)) (moved : s.runParty l p = some t) : Inv l t := by
  cases here : s.pc p with
  | idle =>
      cases p with
      | teardown c =>
          simp only [Sys.runParty, here] at moved
          cases moved
          exact inv.start here
      | vcpu i =>
          simp only [Sys.runParty, here] at moved
          exact inv.recover (by rw [here]; rfl) moved
  | done =>
      cases p with
      | teardown c =>
          simp only [Sys.runParty, here] at moved
          cases moved
      | vcpu i =>
          simp only [Sys.runParty, here] at moved
          exact inv.recover (by rw [here]; rfl) moved
  | get =>
      simp only [Sys.runParty, here] at moved
      exact inv.get here moved
  | loop i mine =>
      simp only [Sys.runParty, here] at moved
      split at moved
      · rename_i bound
        cases moved
        exact inv.visit here (spares ⟨i, bound⟩ mine here)
      · rename_i last
        cases moved
        exact inv.leave here last
  | add mine =>
      simp only [Sys.runParty, here] at moved
      cases moved
      apply inv.add here
      intro none
      cases p with
      | teardown c => exact early (none ▸ here)
      | vcpu i =>
          -- a vcpu always counts itself
          have own := inv.own i
          rw [here, none] at own
          simp [Own] at own
  | finalize =>
      simp only [Sys.runParty, here] at moved
      exact inv.finalize here moved

theorem step_inv (s : Sys T P Cpu W N) (a : Action T P Cpu W N) (t : Sys T P Cpu W N)
    (inv : Inv l s) (careful : Careful s a) (moved : step l s a = some t) : Inv l t := by
  obtain ⟨early, spares, zero⟩ := careful
  cases a with
  | run p => exact runParty_inv inv early spares moved
  | schedule a =>
      obtain ⟨allowed, moved⟩ := Option.ite_none_right_eq_some.mp moved
      obtain ⟨life, taken, rfl⟩ := Option.map_eq_some_iff.mp moved
      exact inv.schedule zero allowed taken
  | fail i =>
      obtain ⟨⟨rest, mine, free⟩, moved⟩ := Option.ite_none_right_eq_some.mp moved
      cases moved
      exact inv.fail rest mine free

/-- The steps that carry a teardown on, as opposed to a new call of `vteardown`, a new failure
or whatever else is scheduled. -/
def CarriesOn (s : Sys T P Cpu W N) : Action T P Cpu W N → Prop
  | .run (.teardown c) => s.pc (.teardown c) ≠ .idle
  | .run (.vcpu _) => True
  | .schedule a => ∃ i, a.onCpu = some (.inl i) ∧ s.life.terminate (.inl i) = true
  | .fail _ => False

omit [DecidableEq T] [DecidableEq P] [DecidableEq Cpu] [DecidableEq W] in
theorem carriesOn_run {p : Party T N} (busy : s.pc p ≠ .idle) :
    CarriesOn s (.run p : Action T P Cpu W N) := by
  cases p with
  | teardown c => exact busy
  | vcpu i => trivial

/-- While somebody is in recovery code, somebody can move: the entry of the table is
only ever held by a party inside its loop. -/
theorem Inv.party_moves (inv : Inv l s) {p : Party T N} (busy : (s.pc p).atRest = false) :
    ∃ a, CarriesOn s a ∧ (step l s a).isSome = true := by
  have loops : ∀ q, (s.pc q).inLoop = true → (s.runParty l q).isSome = true := by
    intro q inside
    cases here : s.pc q with
    | loop i mine =>
        simp only [Sys.runParty, here]
        split <;> rfl
    | idle | get | add | finalize | done => simp [here, Pc.inLoop] at inside
  by_cases held : ∃ q, s.lock = some q
  · obtain ⟨q, locked⟩ := held
    have inside := (inv.holder q).mp locked
    refine ⟨.run q, carriesOn_run ?_, loops q inside⟩
    intro e
    simp [e, Pc.inLoop] at inside
  · have free : s.lock = none := by
      cases e : s.lock with
      | none => rfl
      | some q => exact absurd ⟨q, e⟩ held
    refine ⟨.run p, carriesOn_run fun e => by simp [e, Pc.atRest] at busy, ?_⟩
    show (s.runParty l p).isSome = true
    cases here : s.pc p with
    | idle | done => simp [here, Pc.atRest] at busy
    | loop i mine => exact loops p (by simp [here, Pc.inLoop])
    | add mine => simp [Sys.runParty, here]
    | finalize => simp [Sys.runParty, here, Sys.finalize, free]
    | get =>
        by_cases placed : s.life.slot l.target = .placed
        · cases p <;> simp [Sys.runParty, here, Sys.get, free, placed]
        · cases p <;> simp [Sys.runParty, here, Sys.get, free, placed]

/-- A flagged vcpu that is still in the hands of a CPU moves towards its recovery. -/
theorem Inv.vcpu_moves (inv : Inv l s) (never : s.finalized = 0) {i : Fin N}
    (flag : s.life.terminate (.inl i) = true) (busy : (s.state i).isBusy = true)
    (rest : (s.pc (.vcpu i)).atRest = true) :
    ∃ a, CarriesOn s a ∧ (step l s a).isSome = true := by
  cases noticed : s.life.recovering (.inl i) with
  | true =>
      refine ⟨.run (.vcpu i), trivial, ?_⟩
      have recovers : (s.recover l i).isSome = true := by
        rw [Sys.recover, Lifecycle.step, if_pos noticed]
        rfl
      cases here : s.pc (.vcpu i) <;> simp_all [step, Sys.runParty, Pc.atRest]
  | false =>
      have placed : s.life.slot (l.life.vid (.inl i)) = .placed := by
        rw [l.vid]
        exact inv.entry.mpr never
      cases state : s.life.state (.inl i) with
      | running =>
          refine ⟨.schedule (.exit (.inl i)), ⟨i, rfl, flag⟩, ?_⟩
          simp [step, Sys.allows, rest, Lifecycle.step, state]
      | transitioning =>
          refine ⟨.schedule (.notice (.inl i)), ⟨i, rfl, flag⟩, ?_⟩
          simp [step, Sys.allows, rest, Lifecycle.step, state, noticed, flag]
      | initializing =>
          refine ⟨.schedule (.put (.inl i)), ⟨i, rfl, flag⟩, ?_⟩
          simp [step, Sys.allows, rest, Lifecycle.step, state, noticed, placed]
      | ready | paused | pvSpinning | terminated =>
          rw [Sys.state, state] at busy
          cases busy

omit [DecidableEq T] [DecidableEq P] [DecidableEq Cpu] [DecidableEq W] in
/-- Nothing is left to do once every vcpu is flagged and nobody can move. -/
theorem Inv.complete (inv : Inv l s) (flags : ∀ i, s.life.terminate (.inl i) = true)
    (loose : ∀ i, (s.state i).isBusy = false) (rest : ∀ p, (s.pc p).atRest = true) :
    (∀ i, i ∈ s.counted) ∧ s.finalized = 1 := by
  have terminated : ∀ i, s.state i = .terminated := by
    intro i
    rcases VcpuState.busy_or_terminated ((inv.vcpus i).flagged (flags i)) with busy | closed
    · exact absurd ((loose i).symm.trans busy) Bool.false_ne_true
    · exact closed
  have full : s.numTerminated = N := by
    have nobody : ∀ p, s.latch.held p = [] := by
      intro p
      have still := rest p
      show (s.pc p).mine = []
      cases here : s.pc p <;> simp_all [Pc.atRest, Pc.mine]
    have all := inv.ledger.full_of_taken terminated nobody
    rw [Fintype.card_fin] at all
    exact inv.total.trans all
  refine ⟨inv.all_counted full, ?_⟩
  cases inv.phase with
  | counting short never nobody => omega
  | last p _ never here only =>
      have still := rest p
      rw [here] at still
      cases still
  | closed _ once nobody => exact once

/-- What the recovery code owes a partition, in one state of a run. -/
structure Once (l : Layout P Cpu W N) (s : Sys T P Cpu W N) : Prop where
  /-- Each vcpu adds at most 1 to the counter, and only when it is terminated. -/
  counted : s.counted.Nodup ∧ s.numTerminated = s.counted.length ∧
    ∀ i ∈ s.counted, s.state i = .terminated
  /-- The partition is finalized at most once, by one party, and no assertion fails. -/
  finalized : s.finalized ≤ 1 ∧ s.fault = false ∧
    (∀ p, s.pc p = .finalize → s.finalized = 0 ∧ ∀ q, s.pc q = .finalize → q = p)
  /-- It is finalized only after each vcpu was terminated and counted. -/
  afterAll : (s.finalized = 1 ∨ ∃ p, s.pc p = .finalize) →
    ∀ i, s.state i = .terminated ∧ i ∈ s.counted
  /-- Until it has been finalized, somebody can carry the teardown on. -/
  live : (∀ i, s.life.terminate (.inl i) = true) → s.finalized = 0 →
    ∃ a, CarriesOn s a ∧ (step l s a).isSome = true
  /-- When all are done, every vcpu was counted and the partition finalized. -/
  complete : (∀ i, s.life.terminate (.inl i) = true) → (∀ i, (s.state i).isBusy = false) →
    (∀ p, (s.pc p).atRest = true) → (∀ i, i ∈ s.counted) ∧ s.finalized = 1

theorem Inv.once (inv : Inv l s) : Once l s where
  counted := ⟨inv.ledger.counted_nodup, inv.total, fun i paid =>
    (inv.ledger.taken_iff i).mpr (.inl paid)⟩
  finalized := by
    cases inv.phase with
    | counting short never nobody =>
        exact ⟨by omega, inv.sound, fun p here => absurd here (nobody p)⟩
    | last r full never here only =>
        exact ⟨by omega, inv.sound, fun p atP => ⟨never, fun q atQ =>
          (only q atQ).trans (only p atP).symm⟩⟩
    | closed full once nobody =>
        exact ⟨by omega, inv.sound, fun p here => absurd here (nobody p)⟩
  afterAll := by
    intro ending i
    have full : s.numTerminated = N := by
      cases inv.phase with
      | counting short never nobody =>
          rcases ending with once | ⟨p, here⟩
          · omega
          · exact absurd here (nobody p)
      | last r full never here only => exact full
      | closed full once nobody => exact full
    exact ⟨inv.all_terminated full i, inv.all_counted full i⟩
  live := by
    intro flags never
    by_cases active : ∃ p, (s.pc p).atRest = false
    · obtain ⟨p, busy⟩ := active
      exact inv.party_moves busy
    · have rest : ∀ p, (s.pc p).atRest = true := by
        intro p
        by_contra busy
        exact active ⟨p, by simpa using busy⟩
      by_cases some_busy : ∃ i, (s.state i).isBusy = true
      · obtain ⟨i, busy⟩ := some_busy
        exact inv.vcpu_moves never (flags i) busy (rest _)
      · have loose : ∀ i, (s.state i).isBusy = false := by
          intro i
          simpa using fun busy => some_busy ⟨i, busy⟩
        have done := (inv.complete flags loose rest).2
        omega
  complete := inv.complete

/-- The first condition is sharp: a step that breaks it has a second party finalize. -/
theorem late_add {a : Action T P Cpu W N} (inv : Inv l s) (late : ¬ Early s a)
    (moved : step l s a = some t) : ¬ Once l t := by
  intro once
  cases a with
  | schedule a => exact late trivial
  | fail i => exact late trivial
  | run p =>
    cases p with
    | vcpu i => exact late trivial
    | teardown c =>
        obtain ⟨here, full⟩ : s.pc (.teardown c) = .add [] ∧ s.numTerminated = N := by
          simpa [Early] using late
        simp only [step, Sys.runParty, here, Option.some.injEq] at moved
        subst moved
        have ending : (s.add (.teardown c) []).pc (.teardown c) = .finalize := by
          simp [Sys.add, Sys.goto, full]
        obtain ⟨never, only⟩ := once.finalized.2.2 _ ending
        cases inv.phase with
        | counting short _ _ => omega
        | closed _ finalized _ => exact absurd (finalized.symm.trans never) (by decide)
        | last q _ _ at_end _ =>
            have apart : q ≠ .teardown c := by
              intro e
              rw [e, here] at at_end
              cases at_end
            exact apart (only q (by simpa [Sys.add, Sys.goto, apart] using at_end))

/-- **A partition is torn down once.**  Whatever its vcpus were doing, and however the
calls of `vteardown`, the failing vcpus, the vcpus that see their terminate flag and the scheduler
are interleaved: as long as no `vteardown` adds nothing to a full counter, no loop visits a vcpu
that waits for a kick and the vcpus that are popped have criticality 0, each vcpu
is counted once and `vdo_finalize_teardown` is executed once, after all of them. -/
theorem teardown_once {s₀ : Sys T P Cpu W N} (created : Created l s₀)
    {run : List (Action T P Cpu W N)} (careful : Along Careful (step l) s₀ run)
    (ran : exec (step l) s₀ run = some s) : Once l s :=
  (exec_invariant_along step_inv (inv_created created) careful ran).once

end Live

end Invariant

/-! ## Short runs -/

/-- One partition on one CPU. -/
def alone (N : Nat) : Layout Unit Unit Empty N where
  life := ⟨fun _ => (), fun _ => (), fun _ => (List.finRange N).map .inl, 1⟩
  target := ()
  vid := fun _ => rfl
  vcpus := by
    intro v member
    obtain ⟨i, -, rfl⟩ := List.mem_map.mp member
    exact ⟨i, rfl⟩

def new (N criticality : Nat) : Lifecycle.Sys Unit Unit (Fin N ⊕ Empty) :=
  ⟨⟨fun _ => ⟨.initializing, criticality⟩, Dqs.empty, fun _ => 0⟩, fun _ => .none, fun _ => false,
    fun _ => false, fun _ => .unplaced, fun _ _ => false, false⟩

theorem initial_new {N criticality : Nat} (bound : criticality ≤ 1) :
    Lifecycle.Initial (alone N).life (new N criticality) where
  queues := ⟨rfl, fun _ => rfl, fun _ => bound, fun _ => Nat.zero_le 1⟩
  state := fun _ => .inl rfl
  pvSpin := fun _ => rfl
  terminate := fun _ => rfl
  recovering := fun _ => rfl
  failed := rfl

theorem popsZero_get {N : Nat} {life : Lifecycle.Sys Unit Unit (Fin N ⊕ Empty)}
    (zero : ∀ i, (life.queues.vcpu (.inl i)).criticality = 0) :
    Lifecycle.PopsZero life (.get ()) := by
  rintro level ⟨i | ⟨⟨⟩⟩, _⟩ _ _
  exact zero i

def start {T : Type} {N : Nat} (life : Lifecycle.Sys Unit Unit (Fin N ⊕ Empty)) :
    Sys T Unit Unit Empty N :=
  ⟨life, fun _ => .idle, none, 0, [], 0, false⟩

theorem created_start {T : Type} {N : Nat} {life : Lifecycle.Sys Unit Unit (Fin N ⊕ Empty)}
    (nonempty : 0 < N) (reached : Lifecycle.Reached (alone N).life life)
    (placed : life.slot () = .placed) (alive : ∀ i, life.state (.inl i) ≠ .terminated)
    (unflagged : ∀ i, life.terminate (.inl i) = false) :
    Created (alone N) (start life : Sys T Unit Unit Empty N) :=
  ⟨nonempty, reached, placed, alive, unflagged, fun _ => rfl, rfl, rfl, rfl, rfl, rfl⟩

/-- Both vcpus are put and the first one runs. -/
def firstRuns : List (Lifecycle.Action Unit Unit (Fin 2 ⊕ Empty)) :=
  [.place (), .put (.inl 0), .put (.inl 1), .get (), .enter (.inl 0)]

/-- A call finds one vcpu ready and the other running; the latter leaves its guest,
sees its flag, and is the last to be counted. -/
def handover : List (Action Unit Unit Unit Empty 2) :=
  List.replicate 6 (.run (.teardown ())) ++
    [.schedule (.exit (.inl 0)), .schedule (.notice (.inl 0))] ++
    List.replicate 3 (.run (.vcpu 0))

theorem teardown_once_handover : ∃ s₀ s : Sys Unit Unit Unit Empty 2,
    exec (step (alone 2)) s₀ handover = some s ∧ s.finalized = 1 ∧ Once (alone 2) s := by
  have set : ∃ life, exec (Lifecycle.step (alone 2).life) (new 2 0) firstRuns = some life ∧
      life.slot () = .placed ∧ (∀ i, life.state (.inl i) ≠ .terminated) ∧
      (∀ i, life.terminate (.inl i) = false) ∧
      Along Careful (step (alone 2)) (start life : Sys Unit Unit Unit Empty 2) handover ∧
      ∃ s, exec (step (alone 2)) (start life : Sys Unit Unit Unit Empty 2) handover = some s ∧
        s.finalized = 1 := by
    refine ⟨_, rfl, rfl, by decide +kernel, by decide +kernel, ?_, _, rfl, rfl⟩
    have calm : ∀ {s : Sys Unit Unit Unit Empty 2} {p}, (∀ i, s.state i ≠ .pvSpinning) →
        (p = .teardown () → s.pc p ≠ .add []) → Careful s (.run p) := by
      intro s p awake early
      refine ⟨?_, fun i _ _ _ => awake i, trivial⟩
      cases p with
      | teardown _ => exact fun e => absurd e (early rfl)
      | vcpu i => trivial
    iterate 6 refine .cons (calm (by decide +kernel) fun _ e => by cases e) rfl ?_
    iterate 2 refine .cons ⟨trivial, trivial, trivial⟩ rfl ?_
    iterate 3 refine .cons (calm (by decide +kernel) nofun) rfl ?_
    trivial
  obtain ⟨life, made, placed, alive, unflagged, careful, s, ran, once⟩ := set
  have zero : Along Lifecycle.PopsZero (Lifecycle.step (alone 2).life) (new 2 0) firstRuns := by
    iterate 3 refine .cons trivial rfl ?_
    exact .cons (popsZero_get (by decide +kernel)) rfl (.cons trivial rfl trivial)
  have reached : Lifecycle.Reached (alone 2).life life :=
    ⟨new 2 0, firstRuns, initial_new (by decide), zero, made⟩
  exact ⟨_, s, ran, once,
    teardown_once (created_start (by decide) reached placed alive unflagged) careful ran⟩

/-- The first call terminates the only vcpu, the second finds nothing to terminate;
the first adds 1 and goes on to finalize, the second adds 0 and does so too. -/
def overlapping : List (Action Bool Unit Unit Empty 1) :=
  List.replicate 4 (.run (.teardown true)) ++ List.replicate 4 (.run (.teardown false)) ++
    [.run (.teardown true), .run (.teardown false), .run (.teardown true), .run (.teardown false)]

theorem teardown_finalizes_twice : ∃ s₀ s : Sys Bool Unit Unit Empty 1,
    Created (alone 1) s₀ ∧ exec (step (alone 1)) s₀ overlapping = some s ∧ s.finalized = 2 ∧
      s.fault = true ∧ ¬ Once (alone 1) s := by
  have set : ∃ life, exec (Lifecycle.step (alone 1).life) (new 1 0)
        [.place (), .putPaused (.inl 0) false] = some life ∧
      life.slot () = .placed ∧ (∀ i, life.state (.inl i) ≠ .terminated) ∧
      (∀ i, life.terminate (.inl i) = false) ∧
      ∃ s, exec (step (alone 1)) (start life : Sys Bool Unit Unit Empty 1) overlapping = some s ∧
        s.finalized = 2 ∧ s.fault = true := by
    refine ⟨_, rfl, rfl, by decide +kernel, by decide +kernel, _, rfl, rfl, rfl⟩
  obtain ⟨life, made, placed, alive, unflagged, s, ran, twice, broken⟩ := set
  have zero : Along Lifecycle.PopsZero (Lifecycle.step (alone 1).life) (new 1 0)
      [.place (), .putPaused (.inl 0) false] := .cons trivial rfl (.cons trivial rfl trivial)
  have reached : Lifecycle.Reached (alone 1).life life :=
    ⟨new 1 0, _, initial_new (by decide), zero, made⟩
  refine ⟨_, s, created_start (by decide) reached placed alive unflagged, ran, twice, broken, ?_⟩
  intro once
  have most := once.finalized.1
  omega

/-- A vcpu of criticality 1 is popped and terminated while it runs, still linked in the other
bucket.  It counts itself, a change of the level has it popped from there, and it counts itself
again. -/
def poppedAgain : List (Action Unit Unit Unit Empty 2) :=
  [.schedule (.get ()), .schedule (.enter (.inl 0))] ++ List.replicate 5 (.run (.teardown ())) ++
    [.schedule (.exit (.inl 0)), .schedule (.notice (.inl 0)), .run (.vcpu 0), .run (.vcpu 0),
      .schedule (.writeLevel () 1), .schedule (.get ()), .schedule (.notice (.inl 0))] ++
    List.replicate 3 (.run (.vcpu 0))

/-- The partition is finalized while its other vcpu is still to be put. -/
theorem popped_vcpu_counted_twice : ∃ s₀ s : Sys Unit Unit Unit Empty 2, Created (alone 2) s₀ ∧
    exec (step (alone 2)) s₀ poppedAgain = some s ∧
      s.counted = [0, 0] ∧ s.finalized = 1 ∧ s.state 1 = .initializing := by
  have set : ∃ life, exec (Lifecycle.step (alone 2).life) (new 2 1) [.place (), .put (.inl 0)] =
        some life ∧
      life.slot () = .placed ∧ (∀ i, life.state (.inl i) ≠ .terminated) ∧
      (∀ i, life.terminate (.inl i) = false) ∧
      ∃ s, exec (step (alone 2)) (start life : Sys Unit Unit Unit Empty 2) poppedAgain = some s ∧
        s.counted = [0, 0] ∧ s.finalized = 1 ∧ s.state 1 = .initializing := by
    refine ⟨_, rfl, rfl, by decide +kernel, by decide +kernel, _, rfl, rfl, rfl, rfl⟩
  obtain ⟨life, made, placed, alive, unflagged, s, ran, ends⟩ := set
  have zero : Along Lifecycle.PopsZero (Lifecycle.step (alone 2).life) (new 2 1)
      [.place (), .put (.inl 0)] := .cons trivial rfl (.cons trivial rfl trivial)
  have reached : Lifecycle.Reached (alone 2).life life :=
    ⟨new 2 1, _, initial_new (by decide), zero, made⟩
  exact ⟨_, s, created_start (by decide) reached placed alive unflagged, ran, ends⟩

/-- The first vcpu waits for a kick and the second one runs. -/
def firstSpins : List (Lifecycle.Action Unit Unit (Fin 2 ⊕ Empty)) :=
  firstRuns ++ [.exit (.inl 0), .putPaused (.inl 0) true, .get (), .enter (.inl 1)]

/-- The call terminates the vcpu that waits; the other one kicks it and counts itself, and the kicked
one is popped and counts itself again. -/
def kickedAgain : List (Action Unit Unit Unit Empty 2) :=
  List.replicate 6 (.run (.teardown ())) ++
    [.schedule (.exit (.inl 1)), .schedule (.kick () (.inl 0)), .schedule (.notice (.inl 1))] ++
    List.replicate 3 (.run (.vcpu 1)) ++ [.schedule (.get ()), .schedule (.notice (.inl 0))] ++
    List.replicate 2 (.run (.vcpu 0))

theorem kicked_vcpu_counted_twice : ∃ s₀ s : Sys Unit Unit Unit Empty 2, Created (alone 2) s₀ ∧
    exec (step (alone 2)) s₀ kickedAgain = some s ∧
      s.counted = [0, 1, 0] ∧ s.numTerminated = 3 ∧ s.finalized = 1 := by
  have set : ∃ life, exec (Lifecycle.step (alone 2).life) (new 2 0) firstSpins = some life ∧
      life.slot () = .placed ∧ (∀ i, life.state (.inl i) ≠ .terminated) ∧
      (∀ i, life.terminate (.inl i) = false) ∧
      ∃ s, exec (step (alone 2)) (start life : Sys Unit Unit Unit Empty 2) kickedAgain = some s ∧
        s.counted = [0, 1, 0] ∧ s.numTerminated = 3 ∧ s.finalized = 1 := by
    refine ⟨_, rfl, rfl, by decide +kernel, by decide +kernel, _, rfl, rfl, rfl, rfl⟩
  obtain ⟨life, made, placed, alive, unflagged, s, ran, ends⟩ := set
  have zero : Along Lifecycle.PopsZero (Lifecycle.step (alone 2).life) (new 2 0) firstSpins := by
    iterate 3 refine .cons trivial rfl ?_
    refine .cons (popsZero_get (by decide +kernel)) rfl ?_
    iterate 3 refine .cons trivial rfl ?_
    exact .cons (popsZero_get (by decide +kernel)) rfl (.cons trivial rfl trivial)
  have reached : Lifecycle.Reached (alone 2).life life :=
    ⟨new 2 0, _, initial_new (by decide), zero, made⟩
  exact ⟨_, s, created_start (by decide) reached placed alive unflagged, ran, ends⟩

end Twan.Vportal.Teardown
