/-
# Twan.Vemulate.TlbInvalidateRuns -- what a TLB shootdown leaves behind

The steps of `Twan.Vemulate.TlbInvalidate` keep its invariant.  A vcpu is `VRUNNING`
exactly while it is on its way in or out of the guest; that holds as long as the run queues are
in order, and so in every run whose pops take vcpus of criticality 0 (`step_inv`).

* `tlb_invalidate_runs`: in every state of such a run, a call that has returned 0 has left no vcpu
  of its target `within`; those `outside` still have their flag set;
* `kicked_vcpu_in_guest`: a vcpu of criticality 1 that was popped twice, and is `VREADY` in its guest
  when the call returns.
-/
import Twan.Vemulate.TlbInvalidate

namespace Twan.Vemulate.TlbInvalidate

set_option autoImplicit false

open Twan.Base Twan.Lib.Dq Twan.Vsched

section Invariant

variable {P Cpu V C : Type} [DecidableEq Cpu] [DecidableEq V] {l : Layout P Cpu V C}
  {s t : Sys P Cpu V C} {v : V} {life : Lifecycle.Sys P Cpu V}

/-! ## Steps of the lifecycle -/

section Live

variable [DecidableEq P] {a : Lifecycle.Action P Cpu V}

theorem Inv.effect (inv : Inv l s) (moved : Lifecycle.step l.life s.life a = some life) (v : V) :
    Lifecycle.Effect s.life life v a :=
  Lifecycle.step_effect inv.life.filed.filing moved v

/-- Only its own CPU takes a vcpu into the guest or out of it. -/
theorem Inv.running (inv : Inv l s) (moved : Lifecycle.step l.life s.life a = some life)
    (elsewhere : a.onCpu ≠ some v) : life.state v = .running ↔ s.state v = .running :=
  (inv.effect moved v).running (inv.life.settled v) elsewhere

/-- A step of the scheduler that takes nobody into the guest or out of it. -/
theorem Inv.live_step (inv : Inv l s) (zero : Lifecycle.PopsZero s.life a)
    (moved : Lifecycle.step l.life s.life a = some life)
    (own : ∀ w, a.onCpu = some w → s.state w ≠ .running ∧ a ≠ .enter w) :
    Inv l { s with life := life } := by
  apply inv.live (Lifecycle.step_orderly inv.life zero moved)
  intro w
  by_cases here : a.onCpu = some w
  · obtain ⟨calm, out⟩ := own w here
    exact iff_of_false ((inv.effect moved w).not_running calm out) calm
  · exact inv.running moved here

end Live

/-! ## In and out of the guest -/

omit [DecidableEq Cpu] in
theorem Seats.place {mode : Mode} (seats : Seats l s)
    (others : ∀ w, w ≠ v → (life.state w = .running ↔ s.state w = .running))
    (agree : life.state v = .running ↔ mode.isRunning = true)
    (here : mode ≠ .host → s.current (l.home v) = some v) :
    Seats l (Sys.setMode { s with life := life } v mode) where
  running := fun w => by
    by_cases same : w = v
    · subst same
      simpa [Sys.setMode, Sys.state] using agree
    · simpa [Sys.setMode, Sys.state, same] using (others w same).trans (seats.running w)
  seated := fun w away => by
    by_cases same : w = v
    · subst same
      exact here (by simpa [Sys.setMode] using away)
    · exact seats.seated w (by simpa [Sys.setMode, same] using away)

omit [DecidableEq Cpu] in
theorem Seats.setMode {mode : Mode} (seats : Seats l s)
    (agree : (s.mode v).isRunning = mode.isRunning)
    (here : mode ≠ .host → s.current (l.home v) = some v) : Seats l (s.setMode v mode) := by
  apply seats.place (fun _ _ => Iff.rfl) _ here
  rw [← agree]
  exact seats.running v

omit [DecidableEq Cpu] in
theorem Marks.setMode {mode : Mode} (marks : Marks l s)
    (same : (s.mode v).inside = mode.inside) : Marks l (s.setMode v mode) := by
  have inside : ∀ w, ((s.setMode v mode).mode w).inside = (s.mode w).inside := by
    intro w
    by_cases here : w = v
    · subst here
      simp [Sys.setMode, same]
    · simp [Sys.setMode, here]
  refine ⟨fun c w => ?_, fun c w => ?_, fun w => ?_⟩
  · rw [inside]
    exact marks.within c w
  · rw [inside]
    exact marks.outside c w
  · rw [inside]
    exact marks.sent w

/-- The vcpu of a CPU goes from one stage of its way to the next. -/
theorem Inv.place {mode : Mode} (inv : Inv l s) (orderly : Lifecycle.Orderly l.life life)
    (others : ∀ w, w ≠ v → (life.state w = .running ↔ s.state w = .running))
    (agree : life.state v = .running ↔ mode.isRunning = true)
    (here : mode ≠ .host → s.current (l.home v) = some v)
    (inside : (s.mode v).inside = mode.inside) :
    Inv l (Sys.setMode { s with life := life } v mode) := by
  refine ⟨orderly, inv.seats.place others agree here, ?_, inv.calls.frame rfl rfl rfl rfl rfl rfl⟩
  have moved : Marks l (s.setMode v mode) := inv.marks.setMode inside
  exact moved.frame rfl rfl (fun _ => id) rfl

omit [DecidableEq Cpu] [DecidableEq V] in
/-- Two vcpus that a CPU has for its current one are one. -/
theorem Seats.unique {w : V} (seats : Seats l s) (mine : s.current (l.home v) = some v)
    (away : s.mode w ≠ .host) (same : l.home w = l.home v) : w = v := by
  have here := seats.seated w away
  rw [same, mine] at here
  exact (Option.some.inj here).symm

theorem Mode.isRunning_of_inside {m : Mode} (inside : m.inside = true) : m.isRunning = true := by
  cases m <;> simp_all [Mode.inside, Mode.isRunning]

theorem Mode.ne_host_of_inside {m : Mode} (inside : m.inside = true) : m ≠ .host := by
  rintro rfl
  cases inside

/-- The histories of `v` move on, and no call comes to wait for it. -/
theorem Calls.remark {f : Mark → Mark} (calls : Calls l s)
    (within : ∀ m, f m = .within → m = .within) (unset : ∀ m, f m = .unset → m = .unset) :
    Calls l (s.remark v f) := by
  refine ⟨calls.filed, calls.owner, calls.one, calls.stopped, fun c w here => ?_,
    fun c w member left here => ?_⟩
  · apply calls.owes c w
    by_cases same : w = v
    · exact within _ (by simpa [Sys.remark, same] using here)
    · simpa [Sys.remark, same] using here
  · apply calls.flagged c w member left
    by_cases same : w = v
    · exact unset _ (by simpa [Sys.remark, same] using here)
    · simpa [Sys.remark, same] using here

theorem Mark.enter_within {pending : Bool} {m : Mark} : m.enter pending = .within ↔ m = .within := by
  cases m <;> cases pending <;> simp [Mark.enter]

theorem Mark.enter_outside {pending : Bool} {m : Mark} :
    m.enter pending = .outside ↔ m = .outside ∧ pending = false := by
  cases m <;> cases pending <;> simp [Mark.enter]

theorem Mark.enter_unset {pending : Bool} {m : Mark} : m.enter pending = .unset ↔ m = .unset := by
  cases m <;> cases pending <;> simp [Mark.enter]

theorem Mark.leave_within {m : Mark} : m.leave ≠ .within := by
  cases m <;> simp [Mark.leave]

theorem Mark.leave_outside {m : Mark} : m.leave = .outside ↔ m = .within ∨ m = .outside := by
  cases m <;> simp [Mark.leave]

theorem Mark.leave_unset {m : Mark} : m.leave = .unset ↔ m = .unset := by
  cases m <;> simp [Mark.leave]

/-- A vcpu that leaves the guest takes its marks outside. -/
theorem Inv.leave (inv : Inv l s) (inside : (s.mode v).inside = true) : Inv l (s.leave v) := by
  have running := Mode.isRunning_of_inside inside
  have away := Mode.ne_host_of_inside inside
  refine ⟨inv.life, ?_, ⟨fun c w => ?_, fun c w => ?_, fun w => ?_⟩, ?_⟩
  · have moved : Seats l (s.setMode v .exited) :=
      inv.seats.setMode running fun _ => inv.seats.seated v away
    exact ⟨moved.running, moved.seated⟩
  · by_cases same : w = v
    · subst same
      simp [Sys.leave, Sys.remark, Sys.setMode, Mark.leave_within]
    · simpa [Sys.leave, Sys.remark, Sys.setMode, same] using inv.marks.within c w
  · by_cases same : w = v
    · subst same
      simp only [Sys.leave, Sys.remark, Sys.setMode, if_pos, Mark.leave_outside, Function.update_self]
      rintro (within | outside)
      · exact ⟨rfl, (inv.marks.within c w within).2⟩
      · exact ⟨rfl, (inv.marks.outside c w outside).2⟩
    · simpa [Sys.leave, Sys.remark, Sys.setMode, same] using inv.marks.outside c w
  · by_cases same : w = v
    · subst same
      simp [Sys.leave, Sys.remark, Sys.setMode, Mode.inside]
    · simpa [Sys.leave, Sys.remark, Sys.setMode, same] using inv.marks.sent w
  · have kept := inv.calls.remark (v := v) (f := Mark.leave)
      (fun m within => absurd within Mark.leave_within) (fun m => Mark.leave_unset.mp)
    exact kept.frame rfl rfl rfl rfl rfl rfl

/-- A vcpu that is `entering` is in the guest next. -/
theorem Inv.launch (inv : Inv l s) (entering : s.mode v = .entering) : Inv l (s.setMode v .guest) := by
  have here := inv.seats.seated v (by simp [entering])
  exact ⟨inv.life, inv.seats.setMode (by simp [entering, Mode.isRunning]) fun _ => here,
    inv.marks.setMode (by simp [entering, Mode.inside]),
    inv.calls.frame rfl rfl rfl rfl rfl rfl⟩

/-- The queue of the CPU is cleared when no call waits for a vcpu there. -/
theorem Inv.ack [Fintype Cpu] [Fintype V] (inv : Inv l s) (acking : s.mode v = .acking) :
    Inv l { s.setMode v .host with dqs := s.dqs.clear (l.home v) } := by
  have here : s.current (l.home v) = some v := inv.seats.seated v (by simp [acking])
  obtain ⟨filed, queued⟩ := inv.calls.filed.clear (l.home v)
  refine ⟨inv.life, ?_, ?_, filed, inv.calls.owner, inv.calls.one, inv.calls.stopped, fun c w within => ?_,
    inv.calls.flagged⟩
  · have moved : Seats l (s.setMode v .host) :=
      inv.seats.setMode (by simp [acking, Mode.isRunning]) fun away => absurd rfl away
    exact ⟨moved.running, moved.seated⟩
  · have moved : Marks l (s.setMode v .host) := inv.marks.setMode (by simp [acking, Mode.inside])
    exact moved.frame rfl rfl (fun _ => id) rfl
  · have inside := (inv.marks.within c w within).1
    have apart : l.home w ≠ l.home v := by
      intro e
      obtain rfl := inv.seats.unique here (Mode.ne_host_of_inside inside) e
      simp [acking, Mode.inside] at inside
    exact (inv.calls.owes c w within).mono fun _ awaits =>
      ⟨awaits.1, (queued _ _).mpr ⟨awaits.2, apart⟩⟩

/-! ## Vcpus that are terminated -/

/-- The node of a vcpu that is being terminated leaves a queue: it is in no call. -/
theorem Inv.ackDequeue {cpu : Cpu} {rest : List Cpu} (inv : Inv l s)
    (left : s.dequeuing v = some (cpu :: rest)) (queued : Queued s.dqs cpu v) :
    Inv l { s with
      dequeuing := Function.update s.dequeuing v (some rest)
      dqs := s.dqs.dequeue cpu (v, cpu) } := by
  obtain ⟨filed, still⟩ := inv.calls.filed.dequeue queued
  have stopped : s.cur v = none := inv.calls.stopped v (by simp [left])
  refine ⟨inv.life, ⟨inv.seats.running, inv.seats.seated⟩, inv.marks.frame rfl rfl (fun _ => id) rfl, filed,
    inv.calls.owner, inv.calls.one, fun w busy => ?_, fun c w within => ?_, inv.calls.flagged⟩
  · by_cases same : w = v
    · subst same
      exact stopped
    · exact inv.calls.stopped w (by simpa [same] using busy)
  · refine (inv.calls.owes c w within).mono fun active awaits =>
      awaits.mono (fun _ _ => id) fun cpu' before => (still _ _).mpr ⟨before, ?_⟩
    rintro ⟨-, mine⟩
    have busy := inv.calls.one c active
    rw [mine, stopped] at busy
    cases busy

theorem Inv.dequeued {rest : Option (List Cpu)} (inv : Inv l s) (busy : s.dequeuing v ≠ none) :
    Inv l { s with dequeuing := Function.update s.dequeuing v rest } := by
  refine ⟨inv.life, ⟨inv.seats.running, inv.seats.seated⟩, inv.marks.frame rfl rfl (fun _ => id) rfl,
    inv.calls.filed, inv.calls.owner, inv.calls.one, fun w left => ?_, inv.calls.owes,
    inv.calls.flagged⟩
  by_cases same : w = v
  · subst same
    exact inv.calls.stopped w busy
  · exact inv.calls.stopped w (by simpa [same] using left)

variable [DecidableEq C]

theorem Calls.drop (calls : Calls l s) (v : V) : Calls l (s.drop v) := by
  have phase : ∀ c, (s.drop v).call c = .dropped ∧ s.cur v = some c ∨
      (s.drop v).call c = s.call c ∧ s.cur v ≠ some c := by
    intro c
    simp only [Sys.drop]
    cases here : s.cur v with
    | none => exact .inr ⟨rfl, by simp⟩
    | some d =>
        by_cases same : c = d
        · subst same
          exact .inl ⟨by simp, rfl⟩
        · exact .inr ⟨by simp [same], fun e => same (Option.some.inj e).symm⟩
  refine ⟨calls.filed, fun u c here => ?_, fun c busy => ?_, fun w busy => ?_, fun c w here => ?_,
    fun c w member left => ?_⟩
  · by_cases same : u = v
    · subst same
      simp [Sys.drop] at here
    · exact calls.owner u c (by simpa [Sys.drop, same] using here)
  · rcases phase c with ⟨gone, -⟩ | ⟨kept, other⟩
    · simp [gone, Phase.isActive] at busy
    · replace busy : (s.call c).isActive = true := kept ▸ busy
      have mine := calls.one c busy
      have apart : l.caller c ≠ v := fun e => other (e ▸ mine)
      simpa [Sys.drop, apart] using mine
  · by_cases same : w = v
    · subst same
      simp [Sys.drop]
    · simpa [Sys.drop, same] using calls.stopped w busy
  · rcases phase c with ⟨gone, -⟩ | ⟨kept, -⟩
    · rw [gone]
      trivial
    · rw [kept]
      exact calls.owes c w here
  · rcases phase c with ⟨gone, -⟩ | ⟨kept, -⟩
    · rw [gone] at left
      exact absurd member left
    · rw [kept] at left
      exact calls.flagged c w member left

theorem Calls.recover (calls : Calls l s) (v : V) : Calls l (s.recover l v) := by
  have dropped := calls.drop v
  refine ⟨dropped.filed, dropped.owner, dropped.one, fun w busy => ?_, dropped.owes, dropped.flagged⟩
  by_cases same : w = v
  · subst same
    simp [Sys.recover, Sys.drop]
  · exact dropped.stopped w (by simpa [Sys.recover, Sys.drop, same] using busy)

theorem Inv.recover (inv : Inv l s) (v : V) : Inv l (s.recover l v) :=
  ⟨inv.life, ⟨inv.seats.running, inv.seats.seated⟩, inv.marks.frame rfl rfl (fun _ => id) rfl,
    inv.calls.recover v⟩

/-! ## Steps of the scheduler -/

section Scheduler

variable [DecidableEq P] {a : Lifecycle.Action P Cpu V}

omit [DecidableEq C] [DecidableEq P] in
/-- A vcpu in the hypervisor is not `VRUNNING`. -/
theorem Inv.host_calm (inv : Inv l s) (host : s.mode v = .host) : s.state v ≠ .running := by
  rw [Ne, inv.seats.running v, host]
  decide

omit [DecidableEq P] in
/-- The vcpu recovers, goes on, or leaves its CPU. -/
theorem Inv.settle (inv : Inv l s) (host : s.mode v = .host) (here : s.current (l.home v) = some v) :
    Inv l (s.settle l v) := by
  rw [Sys.settle]
  split
  · exact inv.recover v
  split
  · exact inv
  · exact inv.vacate host here

/-- A vcpu on its CPU is put, paused, or found flagged. -/
theorem Inv.yield (inv : Inv l s) (on : s.onCpu l v) (moved : s.live l a = some t)
    (own : a.onCpu = some v) (out : a ≠ .enter v) (zero : Lifecycle.PopsZero s.life a) :
    Inv l (t.settle l v) := by
  obtain ⟨here, host, -, -⟩ := on
  obtain ⟨life, lives, rfl⟩ := Option.map_eq_some_iff.mp moved
  have lived : Inv l { s with life := life } := by
    apply inv.live_step zero lives
    rintro w mine
    obtain rfl : v = w := Option.some.inj (own.symm.trans mine)
    exact ⟨inv.host_calm host, out⟩
  exact lived.settle host here

theorem Inv.create {paused : Bool} (inv : Inv l s) (new : s.state v = .initializing)
    (moved : s.live l (if paused then .putPaused v false else .put v) = some t) :
    Inv l (if t.life.recovering v then t.recover l v else t) := by
  obtain ⟨life, lives, rfl⟩ := Option.map_eq_some_iff.mp moved
  have lived : Inv l { s with life := life } := by
    refine inv.live_step ?_ lives ?_
    · cases paused <;> trivial
    · intro w mine
      obtain rfl : v = w := by cases paused <;> exact Option.some.inj mine
      refine ⟨by simp [new], ?_⟩
      cases paused <;> simp
  split
  · exact lived.recover v
  · exact lived

omit [DecidableEq C] in
/-- A CPU takes what `__vsched_pop` answers. -/
theorem Inv.get {cpu : Cpu} (inv : Inv l s) (free : s.current cpu = none)
    (zero : Lifecycle.PopsZero s.life (.get cpu)) (moved : s.live l (.get cpu) = some t) :
    Inv l (t.setCurrent cpu (s.life.queues.pop cpu).1) := by
  obtain ⟨life, lives, rfl⟩ := Option.map_eq_some_iff.mp moved
  have lived : Inv l { s with life := life } := inv.live_step zero lives nofun
  exact lived.seat free

omit [DecidableEq C] in
/-- What other CPUs do to the vcpus. -/
theorem Inv.remote (inv : Inv l s) (remote : a.isRemote = true) (moved : s.live l a = some t) :
    Inv l t := by
  obtain ⟨life, lives, rfl⟩ := Option.map_eq_some_iff.mp moved
  apply inv.live_step (Lifecycle.careful_of_remote remote).1 lives
  intro w mine
  rw [Lifecycle.onCpu_of_remote remote] at mine
  cases mine

omit [DecidableEq C] [DecidableEq P] in
theorem Inv.vipiAsync {cpu this : Cpu} (inv : Inv l s) : Inv l (s.vipiAsync cpu this) := by
  rw [Sys.vipiAsync]
  split
  · exact inv
  · refine ⟨inv.life, ⟨inv.seats.running, inv.seats.seated⟩,
      inv.marks.frame rfl rfl (fun other sent => ?_) rfl, inv.calls.frame rfl rfl rfl rfl rfl rfl⟩
    by_cases same : other = cpu
    · simp [same]
    · simpa [same] using sent

theorem Inv.visit {this : Cpu} (inv : Inv l s) (moved : s.visit l this v = some t) : Inv l t := by
  obtain ⟨u, visited, rfl⟩ := Option.map_eq_some_iff.mp moved
  obtain ⟨life, lives, rfl⟩ := Option.map_eq_some_iff.mp visited
  have lived : Inv l { s with life := life } := inv.live_step (a := .visit v) trivial lives nofun
  split
  · exact lived.vipiAsync
  · exact lived.recover v
  · exact lived

omit [DecidableEq C] in
/-- A vcpu fails in the hypervisor, or on its way out of the guest. -/
theorem Inv.fail (inv : Inv l s) (here : s.current (l.home v) = some v)
    (out : (s.mode v).inside = false) (moved : s.live l (.visitCurrent v) = some t) :
    Inv l ((t.setMode v .host).setCurrent (l.home v) none) := by
  obtain ⟨life, lives, rfl⟩ := Option.map_eq_some_iff.mp moved
  have dead : life.state v = .terminated := by
    cases inv.effect lives v with
    | stays elsewhere => exact absurd rfl elsewhere
    | parks own => rcases own with own | own <;> cases own
    | notices own => cases own
    | fails _ _ now => exact congrArg Lifecycle.VcpuFields.state now
  have placed : Inv l (Sys.setMode { s with life := life } v .host) := by
    refine inv.place (Lifecycle.step_orderly (a := .visitCurrent v) inv.life trivial lives)
      (fun w other => ?_) ?_ (fun away => absurd rfl away) out
    · exact inv.running lives fun mine => other (Option.some.inj mine).symm
    · simp [dead, Mode.isRunning]
  exact placed.vacate (by simp [Sys.setMode]) here

omit [DecidableEq C] in
/-- The recovery of a vcpu ends. -/
theorem Inv.recovered (inv : Inv l s) (host : s.mode v = .host) (busy : s.dequeuing v ≠ none)
    (moved : s.live l (.recover v) = some t) :
    Inv l { t with dequeuing := Function.update t.dequeuing v none } := by
  obtain ⟨life, lives, rfl⟩ := Option.map_eq_some_iff.mp moved
  have lived : Inv l { s with life := life } := by
    apply inv.live_step (a := .recover v) trivial lives
    rintro w mine
    obtain rfl : v = w := Option.some.inj mine
    exact ⟨inv.host_calm host, nofun⟩
  exact lived.dequeued busy

omit [DecidableEq C] in
/-- The vcpu has left the guest for good. -/
theorem Inv.transition (inv : Inv l s) (out : s.mode v = .exited) (moved : s.live l (.exit v) = some t) :
    Inv l (t.setMode v .acking) := by
  obtain ⟨life, lives, rfl⟩ := Option.map_eq_some_iff.mp moved
  have here : s.current (l.home v) = some v := inv.seats.seated v (by simp [out])
  have gone : life.state v = .transitioning := by
    cases inv.effect lives v with
    | stays elsewhere => exact absurd rfl elsewhere
    | parks own => rcases own with own | own <;> cases own
    | notices own => cases own
    | exits _ now => exact congrArg Lifecycle.VcpuFields.state now
  refine inv.place (Lifecycle.step_orderly (a := .exit v) inv.life trivial lives)
    (fun w other => ?_) ?_ (fun _ => here) (by simp [out, Mode.inside])
  · exact inv.running lives fun mine => other (Option.some.inj mine).symm
  · simp [gone, Mode.isRunning]

/-- The flag is consumed before the guest runs. -/
theorem Inv.venter (inv : Inv l s) (on : s.onCpu l v) (moved : s.live l (.enter v) = some t) :
    Inv l (t.venter l v) := by
  obtain ⟨life, lives, rfl⟩ := Option.map_eq_some_iff.mp moved
  obtain ⟨here, host, -, -⟩ := on
  have orderly := Lifecycle.step_orderly (a := .enter v) inv.life trivial lives
  have others : ∀ w, w ≠ v → (life.state w = .running ↔ s.state w = .running) := fun w other =>
    inv.running lives fun mine => other (Option.some.inj mine).symm
  rw [Sys.venter]
  split
  · rename_i flagged
    have same : life.state v = s.state v := by
      cases inv.effect lives v with
      | stays elsewhere => exact absurd rfl elsewhere
      | parks own => rcases own with own | own <;> cases own
      | notices _ _ _ _ now => exact congrArg Lifecycle.VcpuFields.state now
      | enters _ free _ now =>
          have still : life.recovering v = false :=
            (congrArg Lifecycle.VcpuFields.recovering now).trans free
          simp [still] at flagged
    apply Inv.recover
    apply inv.live orderly
    intro w
    by_cases mine : w = v
    · rw [mine, same]
    · exact others w mine
  rename_i unflagged
  have runs : life.state v = .running := by
    cases inv.effect lives v with
    | stays elsewhere => exact absurd rfl elsewhere
    | parks own => rcases own with own | own <;> cases own
    | enters _ _ _ now => exact congrArg Lifecycle.VcpuFields.state now
    | notices _ _ _ _ now => exact absurd (congrArg Lifecycle.VcpuFields.recovering now) unflagged
  have notWithin : ∀ c, s.mark c v ≠ .within := by
    intro c within
    have inside := (inv.marks.within c v within).1
    simp [host, Mode.inside] at inside
  refine ⟨orderly, ?_, ⟨fun c w => ?_, fun c w => ?_, fun w => ?_⟩, ?_⟩
  · have placed : Seats l (Sys.setMode { s with life := life } v .entering) :=
      inv.seats.place others (by simp [runs, Mode.isRunning]) fun _ => here
    exact ⟨placed.running, placed.seated⟩
  · by_cases same : w = v
    · subst same
      simp [Sys.remark, Sys.setMode, Mark.enter_within, notWithin]
    · simpa [Sys.remark, Sys.setMode, same] using inv.marks.within c w
  · by_cases same : w = v
    · subst same
      simp only [Sys.remark, Sys.setMode, if_pos, Mark.enter_outside]
      rintro ⟨outside, unflagged⟩
      rw [(inv.marks.outside c w outside).2] at unflagged
      cases unflagged
    · simpa [Sys.remark, Sys.setMode, same] using inv.marks.outside c w
  · by_cases same : w = v
    · subst same
      simp
    · intro inside pending
      have inside' : (s.mode w).inside = true := by
        simpa [Sys.remark, Sys.setMode, same] using inside
      have apart : l.home w ≠ l.home v := fun e =>
        same (inv.seats.unique here (Mode.ne_host_of_inside inside') e)
      simp only [Function.update_of_ne same, Function.update_of_ne apart] at pending ⊢
      exact inv.marks.sent w inside' pending
  · have kept := inv.calls.remark (v := v) (f := Mark.enter (s.tlbFlushPending v))
      (fun m => Mark.enter_within.mp) (fun m => Mark.enter_unset.mp)
    exact kept.frame rfl rfl rfl rfl rfl rfl

end Scheduler

/-! ## The calls -/

variable {c : C}

/-- A call moves on from one phase to the next, or ends. -/
theorem Calls.setCall {phase : Phase Cpu V} (calls : Calls l s)
    (active : phase.isActive = true → s.cur (l.caller c) = some c)
    (owes : ∀ v, s.mark c v = .within → Owes l s c v phase)
    (flagged : ∀ v ∈ l.vcpus c, v ∉ phase.todo l c → s.mark c v ≠ .unset) :
    Calls l (s.setCall c phase) := by
  refine ⟨calls.filed, calls.owner, fun d busy => ?_, calls.stopped, fun d v within => ?_,
    fun d v member left => ?_⟩
  · by_cases same : d = c
    · subst same
      exact active (by simpa [Sys.setCall] using busy)
    · exact calls.one d (by simpa [Sys.setCall, same] using busy)
  · by_cases same : d = c
    · subst same
      simp only [Sys.setCall, Function.update_self]
      exact (owes v within).mono fun _ awaits => awaits
    · simp only [Sys.setCall, Function.update_of_ne same]
      exact Owes.mono (calls.owes d v within) fun _ awaits => awaits
  · by_cases same : d = c
    · subst same
      exact flagged v member (by simpa [Sys.setCall] using left)
    · exact calls.flagged d v member (by simpa [Sys.setCall, same] using left)

theorem Inv.setCall {phase : Phase Cpu V} (inv : Inv l s)
    (active : phase.isActive = true → s.cur (l.caller c) = some c)
    (owes : ∀ v, s.mark c v = .within → Owes l s c v phase)
    (flagged : ∀ v ∈ l.vcpus c, v ∉ phase.todo l c → s.mark c v ≠ .unset) :
    Inv l (s.setCall c phase) :=
  ⟨inv.life, ⟨inv.seats.running, inv.seats.seated⟩, inv.marks.frame rfl rfl (fun _ => id) rfl,
    inv.calls.setCall active owes flagged⟩

/-- A call that the routes do not allow. -/
theorem Inv.refuse (inv : Inv l s) (idle : s.call c = .idle) : Inv l (s.setCall c .refused) := by
  refine inv.setCall (fun busy => ?_) (fun v within => ?_) fun v member left => ?_
  · cases busy
  · exact absurd within (inv.idle idle v)
  · exact absurd member left

theorem Inv.start (inv : Inv l s) (on : s.onCpu l (l.caller c)) (free : s.cur (l.caller c) = none)
    (idle : s.call c = .idle) : Inv l { s.setCall c (.passing (l.vcpus c)) with
      cur := Function.update s.cur (l.caller c) (some c)
      waitForMap := Function.update s.waitForMap (l.caller c) fun _ => false } := by
  obtain ⟨-, -, -, here⟩ := on
  -- an active call of another sender keeps its part of the map
  have other : ∀ d, (s.call d).isActive = true → l.caller d ≠ l.caller c := by
    intro d active same
    have busy := inv.calls.one d active
    rw [same, free] at busy
    cases busy
  refine ⟨inv.life, ⟨inv.seats.running, inv.seats.seated⟩, inv.marks.frame rfl rfl (fun _ => id) rfl,
    inv.calls.filed, fun u d mine => ?_, fun d busy => ?_, fun v left => ?_, fun d v within => ?_,
    fun d v member left => ?_⟩
  · by_cases same : u = l.caller c
    · subst same
      simp at mine
      rw [mine]
    · exact inv.calls.owner u d (by simpa [same] using mine)
  · by_cases same : d = c
    · subst same
      simp
    · have active : (s.call d).isActive = true := by simpa [Sys.setCall, same] using busy
      simpa [other d active] using inv.calls.one d active
  · have apart : v ≠ l.caller c := fun e => left (e ▸ here)
    simpa [apart] using inv.calls.stopped v left
  · have apart : d ≠ c := by
      rintro rfl
      exact inv.idle idle v within
    have owed : Owes l s d v (s.call d) := inv.calls.owes d v within
    simp only [Sys.setCall, Function.update_of_ne apart]
    refine owed.mono fun active awaits => ⟨?_, awaits.2⟩
    simpa [other d active] using awaits.1
  · by_cases same : d = c
    · subst same
      simp [Sys.setCall, Phase.todo, member] at left
    · exact inv.calls.flagged d v member (by simpa [Sys.setCall, same] using left)

omit [DecidableEq C] in
/-- A vcpu that runs is on another CPU than a vcpu that executes hypervisor code. -/
theorem Inv.apart {u : V} (inv : Inv l s) (on : s.onCpu l u) (running : s.state v = .running) :
    l.home u ≠ l.home v := by
  have mode := (inv.seats.running v).mp running
  have away : s.mode v ≠ .host := by
    intro host
    simp [host, Mode.isRunning] at mode
  intro same
  obtain rfl : v = u := inv.seats.unique on.1 away same.symm
  exact away on.2.1

omit [DecidableEq C] in
theorem vipiQueueAck_spec {cpu : Cpu} {u : V} (filed : Filed s.dqs) (apart : l.home u ≠ cpu) :
    ∃ dqs, s.vipiQueueAck l cpu u = { s with dqs := dqs } ∧ Filed dqs ∧
      (∀ cpu' u', Queued s.dqs cpu' u' → Queued dqs cpu' u') ∧ Queued dqs cpu u := by
  rw [Sys.vipiQueueAck, if_neg apart]
  split
  · rename_i queued
    exact ⟨s.dqs, rfl, filed, fun _ _ => id, queued⟩
  · rename_i free
    obtain ⟨filed', queued⟩ := filed.pushback free
    exact ⟨_, rfl, filed', fun cpu' u' before => (queued _ _).mpr (.inl before),
      (queued _ _).mpr (.inr ⟨rfl, rfl⟩)⟩

/-- What the first pass does to a vcpu, besides the flag and its mark: a running vcpu is
waited for, and has an IPI on its way if its flag was not set before. -/
theorem Inv.firstPass_spec (inv : Inv l s) (on : s.onCpu l (l.caller c)) (v : V) :
    ∃ dqs map ipi, s.firstPass l c v = { s with
        tlbFlushPending := Function.update s.tlbFlushPending v true
        mark := Function.update s.mark c (Function.update (s.mark c) v
          (if (s.mode v).inside then .within else .outside))
        dqs := dqs, waitForMap := map, ipi := ipi } ∧
      Filed dqs ∧ (∀ cpu u, Queued s.dqs cpu u → Queued dqs cpu u) ∧
      (∀ u cpu, s.waitForMap u cpu = true → map u cpu = true) ∧
      (∀ cpu, s.ipi cpu = true → ipi cpu = true) ∧
      (s.state v = .running → Queued dqs (l.home v) (l.caller c) ∧
        map (l.caller c) (l.home v) = true ∧
        (s.tlbFlushPending v = false → ipi (l.home v) = true)) := by
  simp only [Sys.firstPass]
  split
  · rename_i running
    have apart := inv.apart on running
    obtain ⟨dqs, result, filed, kept, queued⟩ := vipiQueueAck_spec
      (s := { s with
        tlbFlushPending := Function.update s.tlbFlushPending v true
        mark := Function.update s.mark c (Function.update (s.mark c) v
          (if (s.mode v).inside then .within else .outside)) }) inv.calls.filed apart
    rw [result]
    have map : ∀ u cpu, s.waitForMap u cpu = true → Function.update s.waitForMap (l.caller c)
        (Function.update (s.waitForMap (l.caller c)) (l.home v) true) u cpu = true := by
      intro u cpu set
      by_cases mine : u = l.caller c
      · subst mine
        by_cases here : cpu = l.home v
        · simp [here]
        · simpa [here] using set
      · simpa [mine] using set
    cases pending : s.tlbFlushPending v with
    | true =>
        exact ⟨dqs, _, s.ipi, rfl, filed, kept, map, fun _ => id, fun _ => ⟨queued, by simp, by simp⟩⟩
    | false =>
        refine ⟨dqs, _, Function.update s.ipi (l.home v) true, ?_, filed, kept, map, fun cpu sent => ?_,
          fun _ => ⟨queued, by simp, by simp⟩⟩
        · simp [Sys.vipiAsync, apart]
        · by_cases here : cpu = l.home v
          · simp [here]
          · simpa [here] using sent
  · rename_i still
    exact ⟨s.dqs, s.waitForMap, s.ipi, rfl, inv.calls.filed, fun _ _ => id, fun _ _ => id,
      fun _ => id, fun running => absurd running still⟩

omit [DecidableEq Cpu] in
theorem update_update {A : Type} {f : C → V → A} {a : A} (d : C) (w : V) :
    Function.update f c (Function.update (f c) v a) d w = if d = c ∧ w = v then a else f d w := by
  by_cases same : d = c
  · subst same
    by_cases here : w = v
    · simp [here]
    · simp [here]
  · simp [same]

/-- One iteration of the first pass. -/
theorem Inv.firstPass {todo : List V} (inv : Inv l s) (on : s.onCpu l (l.caller c))
    (passing : s.call c = .passing (v :: todo)) :
    Inv l ((s.firstPass l c v).setCall c (.passing todo)) := by
  obtain ⟨dqs, map, ipi, result, filed, kept, marked, sent, waits⟩ := inv.firstPass_spec on v
  have active : s.cur (l.caller c) = some c := inv.calls.one c (by simp [passing, Phase.isActive])
  have running : (s.mode v).inside = true → s.state v = .running := fun inside =>
    (inv.seats.running v).mpr (Mode.isRunning_of_inside inside)
  have pending : ∀ w, s.tlbFlushPending w = true →
      Function.update s.tlbFlushPending v true w = true := by
    intro w set
    by_cases same : w = v
    · simp [same]
    · simpa [same] using set
  rw [result]
  refine ⟨inv.life, ⟨inv.seats.running, inv.seats.seated⟩, ⟨fun d w => ?_, fun d w => ?_, fun w => ?_⟩, ?_⟩
  · simp only [Sys.setCall, update_update]
    split
    · rename_i here
      obtain ⟨-, rfl⟩ := here
      split
      · rename_i inside
        exact fun _ => ⟨inside, by simp⟩
      · simp
    · intro within
      exact ⟨(inv.marks.within d w within).1, pending w (inv.marks.within d w within).2⟩
  · simp only [Sys.setCall, update_update]
    split
    · rename_i here
      obtain ⟨-, rfl⟩ := here
      split
      · simp
      · rename_i out
        exact fun _ => ⟨by simpa using out, by simp⟩
    · intro outside
      exact ⟨(inv.marks.outside d w outside).1, pending w (inv.marks.outside d w outside).2⟩
  · intro inside set
    by_cases before : s.tlbFlushPending w = true
    · exact sent _ (inv.marks.sent w inside before)
    · obtain rfl : w = v := by
        by_contra other
        exact before (by simpa [Sys.setCall, other] using set)
      exact (waits (running inside)).2.2 (by simpa using before)
  · refine ⟨filed, inv.calls.owner, fun d busy => ?_, inv.calls.stopped, fun d w => ?_,
      fun d w member left => ?_⟩
    · by_cases same : d = c
      · subst same
        exact active
      · exact inv.calls.one d (by simpa [Sys.setCall, same] using busy)
    · simp only [Sys.setCall, update_update]
      intro within
      by_cases here : d = c ∧ w = v
      · obtain ⟨rfl, rfl⟩ := here
        have inside : (s.mode w).inside = true := by
          by_contra out
          simp [out] at within
        obtain ⟨queued, map, -⟩ := waits (running inside)
        simp only [Function.update_self]
        exact ⟨map, queued⟩
      · rw [if_neg here] at within
        have owed : Owes l s d w (s.call d) := inv.calls.owes d w within
        by_cases mine : d = c
        · subst mine
          rw [passing] at owed
          simp only [Function.update_self]
          exact Awaits.mono owed marked fun cpu => kept cpu _
        · simp only [Function.update_of_ne mine]
          exact owed.mono fun _ awaits => awaits.mono marked fun cpu => kept cpu _
    · simp only [Sys.setCall, update_update]
      split
      · split <;> simp
      · rename_i other
        apply inv.calls.flagged d w member
        by_cases mine : d = c
        · subst mine
          have still : w ∉ todo := by simpa [Sys.setCall, Phase.todo] using left
          have apart : w ≠ v := fun e => other ⟨rfl, e⟩
          simp [passing, Phase.todo, still, apart]
        · simpa [Sys.setCall, mine] using left

/-- The second pass begins with all CPUs. -/
theorem Inv.passed (inv : Inv l s) (passing : s.call c = .passing []) :
    Inv l (s.setCall c (.waiting l.cpus)) := by
  have mine : s.cur (l.caller c) = some c := inv.calls.one c (by simp [passing, Phase.isActive])
  refine inv.setCall (fun _ => mine) (fun v within => ?_) fun v member _ => ?_
  · have owed := inv.calls.owes c v within
    rw [passing] at owed
    exact ⟨owed, l.mem_cpus _⟩
  · exact inv.calls.flagged c v member (by simp [passing, Phase.todo])

/-- One iteration of the second pass: a CPU that is passed over is waited for by nobody. -/
theorem Inv.secondPass {cpu : Cpu} {todo : List Cpu} (inv : Inv l s)
    (waiting : s.call c = .waiting (cpu :: todo))
    (done : s.waitForMap (l.caller c) cpu = false ∨ s.vipiCheckAck l cpu (l.caller c) = true) :
    Inv l (s.setCall c (.waiting todo)) := by
  have active : s.cur (l.caller c) = some c := inv.calls.one c (by simp [waiting, Phase.isActive])
  refine inv.setCall (fun _ => active) (fun w within => ?_) fun w member _ => ?_
  · have owed := inv.calls.owes c w within
    rw [waiting] at owed
    obtain ⟨awaits, listed⟩ := owed
    refine ⟨awaits, (List.mem_cons.mp listed).resolve_left fun here => ?_⟩
    rcases done with unmarked | acked
    · rw [← here, awaits.1] at unmarked
      cases unmarked
    · have queued : s.dqs.isQueued cpu (l.caller c, cpu) = true := here ▸ awaits.2
      simp [Sys.vipiCheckAck, queued] at acked
  · exact inv.calls.flagged c w member (by simp [waiting, Phase.todo])

/-- The call returns when no CPU is left: it waits for nobody. -/
theorem Inv.finish (inv : Inv l s) (waiting : s.call c = .waiting []) :
    Inv l { s.setCall c .returned with cur := Function.update s.cur (l.caller c) none } := by
  have mine : s.cur (l.caller c) = some c := inv.calls.one c (by simp [waiting, Phase.isActive])
  have returned : Inv l (s.setCall c .returned) := by
    refine inv.setCall (fun busy => ?_) (fun w within => ?_) fun w member _ => ?_
    · cases busy
    · have owed := inv.calls.owes c w within
      rw [waiting] at owed
      exact absurd owed.2 List.not_mem_nil
    · exact inv.calls.flagged c w member (by simp [waiting, Phase.todo])
  refine ⟨returned.life, ⟨returned.seats.running, returned.seats.seated⟩, returned.marks.frame rfl rfl (fun _ => id) rfl,
    returned.calls.filed, fun u d here => ?_, fun d busy => ?_, fun w left => ?_, returned.calls.owes,
    returned.calls.flagged⟩
  · by_cases same : u = l.caller c
    · simp [same] at here
    · exact inv.calls.owner u d (by simpa [same] using here)
  · have other : d ≠ c := by
      rintro rfl
      simp [Sys.setCall, Phase.isActive] at busy
    have held : s.cur (l.caller d) = some d := returned.calls.one d busy
    have apart : l.caller d ≠ l.caller c := by
      intro e
      rw [e, mine] at held
      exact other (Option.some.inj held).symm
    simpa [apart] using held
  · by_cases same : w = l.caller c
    · simp [same]
    · simpa [same] using inv.calls.stopped w left

/-! ## Steps and runs -/

variable [DecidableEq P] [Fintype Cpu] [Fintype V]

theorem step_inv (s : Sys P Cpu V C) (a : Action P Cpu V C) (t : Sys P Cpu V C) (inv : Inv l s)
    (zero : PopsZero s a) (moved : step l s a = some t) : Inv l t := by
  cases a with
  | create v paused =>
      obtain ⟨new, moved⟩ := Option.ite_none_right_eq_some.mp moved
      obtain ⟨u, lives, rfl⟩ := Option.map_eq_some_iff.mp moved
      exact inv.create new.1 lives
  | get cpu =>
      obtain ⟨free, moved⟩ := Option.ite_none_right_eq_some.mp moved
      obtain ⟨u, lives, rfl⟩ := Option.map_eq_some_iff.mp moved
      exact inv.get free zero lives
  | put v =>
      obtain ⟨on, moved⟩ := Option.ite_none_right_eq_some.mp moved
      obtain ⟨u, lives, rfl⟩ := Option.map_eq_some_iff.mp moved
      exact inv.yield on lives rfl nofun trivial
  | pause v pvSpin =>
      obtain ⟨⟨on, -⟩, moved⟩ := Option.ite_none_right_eq_some.mp moved
      obtain ⟨u, lives, rfl⟩ := Option.map_eq_some_iff.mp moved
      exact inv.yield on lives rfl nofun trivial
  | notice v =>
      obtain ⟨on, moved⟩ := Option.ite_none_right_eq_some.mp moved
      obtain ⟨u, lives, rfl⟩ := Option.map_eq_some_iff.mp moved
      exact inv.yield on lives rfl nofun trivial
  | remote a =>
      obtain ⟨remote, lives⟩ := Option.ite_none_right_eq_some.mp moved
      exact inv.remote remote lives
  | visit this v => exact inv.visit moved
  | fail v =>
      obtain ⟨⟨here, failing⟩, moved⟩ := Option.ite_none_right_eq_some.mp moved
      obtain ⟨u, lives, rfl⟩ := Option.map_eq_some_iff.mp moved
      refine inv.fail here ?_ lives
      rcases failing with out | ⟨on, -⟩
      · simp [out, Mode.inside]
      · simp [on.2.1, Mode.inside]
  | ackDequeue v =>
      simp only [step] at moved
      split at moved
      · rename_i cpu rest left
        split at moved
        · rename_i queued
          cases moved
          exact inv.ackDequeue left queued
        · cases moved
          exact inv.dequeued (by simp [left])
      · cases moved
  | recovered v =>
      obtain ⟨⟨left, host⟩, moved⟩ := Option.ite_none_right_eq_some.mp moved
      obtain ⟨u, lives, rfl⟩ := Option.map_eq_some_iff.mp moved
      have ended := inv.recovered host (by simp [left]) lives
      obtain ⟨life, -, rfl⟩ := Option.map_eq_some_iff.mp lives
      dsimp only
      split
      · rename_i here
        exact ended.vacate host here
      · exact ended
  | venter v =>
      obtain ⟨⟨on, -⟩, moved⟩ := Option.ite_none_right_eq_some.mp moved
      obtain ⟨u, lives, rfl⟩ := Option.map_eq_some_iff.mp moved
      exact inv.venter on lives
  | launch v =>
      obtain ⟨entering, moved⟩ := Option.ite_none_right_eq_some.mp moved
      cases moved
      exact inv.launch entering
  | vmexit v | entryFailure v =>
      obtain ⟨mode, moved⟩ := Option.ite_none_right_eq_some.mp moved
      cases moved
      exact inv.leave (by simp [mode, Mode.inside])
  | transition v =>
      obtain ⟨out, moved⟩ := Option.ite_none_right_eq_some.mp moved
      obtain ⟨u, lives, rfl⟩ := Option.map_eq_some_iff.mp moved
      exact inv.transition out lives
  | ack v =>
      obtain ⟨acking, moved⟩ := Option.ite_none_right_eq_some.mp moved
      cases moved
      exact inv.ack acking
  | start c allowed =>
      obtain ⟨⟨on, free, idle⟩, moved⟩ := Option.ite_none_right_eq_some.mp moved
      split at moved <;> cases moved
      · exact inv.start on free idle
      · exact inv.refuse idle
  | firstPass c =>
      obtain ⟨on, moved⟩ := Option.ite_none_right_eq_some.mp moved
      split at moved
      · rename_i passing
        cases moved
        exact inv.firstPass on passing
      · rename_i passing
        cases moved
        exact inv.passed passing
      · cases moved
  | secondPass c =>
      obtain ⟨-, moved⟩ := Option.ite_none_right_eq_some.mp moved
      split at moved
      · rename_i waiting
        split at moved
        · rename_i done
          cases moved
          exact inv.secondPass waiting done
        · cases moved
          exact inv
      · rename_i waiting
        cases moved
        exact inv.finish waiting
      · cases moved

/-- **TLB shootdowns are complete.**  In every state of every run whose pops take vcpus of
criticality 0, when a call has returned 0 each vcpu of its target has been out of guest mode
since the call set its flag.  Either a later `__venter` has read the flag set and consumed it,
or none has taken place, the vcpu is not in the guest nor past that point of `__venter`, and the
flag is still set.  A vcpu that a call still waits for has an IPI on its way, whoever found its
flag set. -/
theorem tlb_invalidate_runs {s t : Sys P Cpu V C} {run : List (Action P Cpu V C)}
    (initial : Initial l s) (zero : Along PopsZero (step l) s run)
    (ran : exec (step l) s run = some t) :
    (∀ c, t.call c = .returned → ∀ v ∈ l.vcpus c, t.mark c v = .flushed ∨
      t.mark c v = .outside ∧ (t.mode v).inside = false ∧ t.tlbFlushPending v = true) ∧
    ∀ c v, t.mark c v = .within → (t.mode v).inside = true ∧ t.ipi (l.home v) = true := by
  have inv : Inv l t := exec_invariant_along step_inv (Inv.initial initial) zero ran
  refine ⟨fun c returned v member => ?_, fun c v within => ?_⟩
  · have set : t.mark c v ≠ .unset := inv.calls.flagged c v member (by simp [returned, Phase.todo])
    have out : t.mark c v ≠ .within := by
      intro within
      have owed := inv.calls.owes c v within
      rw [returned] at owed
      exact owed
    cases mark : t.mark c v with
    | unset => exact absurd mark set
    | within => exact absurd mark out
    | outside => exact .inr ⟨rfl, inv.marks.outside c v mark⟩
    | flushed => exact .inl rfl
  · obtain ⟨inside, pending⟩ := inv.marks.within c v within
    exact ⟨inside, inv.marks.sent v inside pending⟩

end Invariant

/-! ## Short runs -/

/-- Two CPUs with one vcpu each, of one partition; `false` shoots down the TLBs of both. -/
def pair : Layout Unit Bool Bool Unit where
  life := ⟨id, fun _ => (), fun _ => [true, false], 1⟩
  cpus := [false, true]
  mem_cpus := by decide
  caller := fun _ => false
  target := fun _ => ()

/-- The sender is in its guest, the other vcpu is to be created, with some criticality. -/
def oneInGuest (criticality : Nat) : Sys Unit Bool Bool Unit where
  life :=
    { queues := ⟨fun v => ⟨if v then .initializing else .running, criticality⟩, Dqs.empty, fun _ => 1⟩
      pvSpin := fun _ => .none
      terminate := fun _ => false
      recovering := fun _ => false
      slot := fun _ => .unplaced
      pvSpinKickSenders := fun _ _ => false
      failed := false }
  mode := fun v => if v then .host else .guest
  current := fun cpu => if cpu then none else some false
  tlbFlushPending := fun _ => false
  dequeuing := fun _ => none
  dqs := Dqs.empty
  waitForMap := fun _ _ => false
  call := fun _ => .idle
  cur := fun _ => none
  ipi := fun _ => false
  mark := fun _ _ => .unset

theorem initial_oneInGuest {criticality : Nat} (bound : criticality ≤ 1) :
    Initial pair (oneInGuest criticality) where
  life := by
    refine ⟨⟨rfl, ?_, fun _ => bound, fun _ => Nat.le_refl 1⟩, ?_, fun _ => rfl, fun _ => rfl,
      fun _ => rfl, rfl⟩
    · intro v
      cases v <;> rfl
    · intro v
      cases v
      · exact .inr rfl
      · exact .inl rfl
  fresh := fun v => by
    cases v
    · exact .inr ⟨rfl, rfl, rfl, rfl⟩
    · exact .inl ⟨rfl, rfl⟩
  dequeuing := fun _ => rfl
  dqs := rfl
  call := fun _ => rfl
  cur := fun _ => rfl
  mark := fun _ _ => rfl

/-- The vcpu is created, popped and enters its guest. -/
def created : List (Action Unit Bool Bool Unit) :=
  [.remote (.place ()), .create true false, .get true, .venter true, .launch true]

/-- The sender leaves its guest and makes its call, which goes over both vcpus. -/
def shootdown : List (Action Unit Bool Bool Unit) :=
  [.vmexit false, .transition false, .ack false, .start () true, .firstPass (), .firstPass (),
    .firstPass (), .secondPass ()]

/-- The other vcpu leaves its guest, and enters it again after the call has returned. -/
def acknowledged : List (Action Unit Bool Bool Unit) :=
  [.secondPass (), .vmexit true, .transition true, .ack true, .secondPass (), .secondPass (),
    .venter true]

/-- The sender finds the other vcpu in its guest, waits for it in vain, and returns after
it has left and acknowledged. -/
theorem tlb_invalidate_runs_pair : ∃ u t,
    exec (step pair) (oneInGuest 0) (created ++ shootdown) = some u ∧
      (u.mark () true = .within ∧ u.ipi true = true) ∧
      exec (step pair) u acknowledged = some t ∧
      t.call () = .returned ∧ t.mode true = .entering ∧ t.mark () true = .flushed := by
  have first : ∃ u, exec (step pair) (oneInGuest 0) (created ++ shootdown) = some u ∧
      u.mark () true = .within ∧ ∃ t, exec (step pair) u acknowledged = some t ∧
        t.call () = .returned ∧ t.mode true = .entering := ⟨_, rfl, rfl, _, rfl, rfl, rfl⟩
  obtain ⟨u, ran, within, t, later, returned, entering⟩ := first
  have zero : Along PopsZero (step pair) (oneInGuest 0) (created ++ shootdown) := by
    iterate 2 refine .cons trivial rfl ?_
    refine .cons (fun _ n _ _ => ?_) rfl ?_
    · cases n.1 <;> rfl
    iterate 10 refine .cons trivial rfl ?_
    trivial
  have rest : Along PopsZero (step pair) u acknowledged := by
    apply Along.of_forall
    intro a inside s
    simp only [acknowledged, List.mem_cons, List.not_mem_nil, or_false] at inside
    rcases inside with rfl | rfl | rfl | rfl | rfl | rfl | rfl <;> trivial
  have waits := (tlb_invalidate_runs (initial_oneInGuest (by decide)) zero ran).2 () true within
  have ends := (tlb_invalidate_runs (initial_oneInGuest (by decide)) (zero.append ran rest)
    (exec_append ran later)).1 () returned true (by decide)
  refine ⟨u, t, ran, ⟨within, waits.2⟩, later, returned, entering, ends.resolve_right fun still => ?_⟩
  simp [entering, Mode.inside] at still

/-- The vcpu waits for a kick and is popped again, from another bucket. -/
def poppedTwice : List (Action Unit Bool Bool Unit) :=
  [.vmexit true, .transition true, .ack true, .pause true true, .get true, .venter true, .launch true]

/-- Its sibling kicks it. -/
def kicked : List (Action Unit Bool Bool Unit) :=
  [.vmexit false, .transition false, .ack false, .remote (.kick () true), .venter false, .launch false]

/-- A vcpu of criticality 1 is popped from `queues[1]` and stays linked in `queues[0]`.  It waits for
a kick, is popped again and enters its guest with `VSPIN_PAUSED`; the kick of its sibling makes it
`VREADY` there, and the shootdown that follows returns while it is still in its guest. -/
theorem kicked_vcpu_in_guest : ∃ t, Initial pair (oneInGuest 1) ∧
    exec (step pair) (oneInGuest 1) (created ++ poppedTwice ++ kicked ++ shootdown ++
      [.secondPass (), .secondPass ()]) = some t ∧
      t.call () = .returned ∧ true ∈ pair.vcpus () ∧ t.mode true = .guest ∧
      t.mark () true = .within ∧ t.ipi true = false :=
  ⟨_, initial_oneInGuest (by decide), rfl, rfl, by decide, rfl, rfl, rfl⟩

end Twan.Vemulate.TlbInvalidate
