/-
# Twan.Vportal.Ownership -- whose VMCS an exit touches

Any number of vcpus share a CPU.  Each has what is left of the program of its exit, its
interrupt flag, its preemption count and the flag `preempted`; the CPU has the vcpu it runs and
the VMCS that is loaded.  A step is one operation of the current vcpu, or one of the points at
which the CPU changes hands: a timer interrupt while interrupts are on and preemption is
enabled, a yield request that is answered when preemption is enabled again, a yield or a pause,
a vcpu that never comes back, an idle CPU that finds work.  Whoever loses the CPU is marked
preempted; nothing is reloaded until it enters again.

What a program may do is already known (`discipline`): it touches the VMCS while it is held.  The
invariant ties `held` to the CPU: a vcpu that holds is the current one, its VMCS is the loaded
one, and it cannot lose the CPU before it lets go.  The one access outside is that of a move from
RSP to a control register, which reads RSP from the VMCS after preemption has been enabled.

* `vmcs_ownership`: unless an exit moves RSP, every access is to the VMCS of the vcpu that makes it;
* `rsp_read_from_other`: such a move reads the RSP of another vcpu.
-/
import Twan.Base.Run
import Twan.Vportal.Exits

namespace Twan.Vportal.Ownership

set_option autoImplicit false
set_option linter.unusedSectionVars false

open Twan.Base Twan.Base.Prog Twan.Lib Twan.Vemulate

/-! ## The CPU -/

/-- A vcpu on its CPU.  Its program is absent before it has started, and has returned while the
guest runs. -/
structure Thread where
  prog : Option (Handler Unit)
  irq : Bool
  count : ℕ
  preempted : Bool
  yieldRequest : Bool

/-- The vcpu has not gone for good. -/
def Thread.live (t : Thread) : Bool :=
  match t.prog with
  | some .halt => false
  | _ => true

/-- A CPU with its vcpus; without a current one the idle vcpu runs. -/
structure Cpu (V : Type) where
  thread : V → Thread
  current : Option V
  loaded : Option V

/-- What can happen next.  The answer to an operation comes from outside, except where the CPU
knows it; `heir` is who gets the CPU if it changes hands. -/
inductive Act (V : Type) where
  | perform (oracle : (e : Op) → e.Answer) (heir : Option (Option V))
  | preempt (heir : Option V)
  | request
  | exit (site : Site) (vregs : Vregs)
  | start (loads : Bool)
  | recover (heir : Option V)
  | wake (heir : V)

variable {V : Type} [DecidableEq V]

namespace Cpu

def setThread (s : Cpu V) (v : V) (t : Thread) : Cpu V :=
  { s with thread := Function.update s.thread v t }

/-- The operation that the current vcpu performs next. -/
def nextOp (s : Cpu V) : Option Op :=
  s.current.bind fun v =>
    match (s.thread v).prog with
    | some (.op e _) => some e
    | _ => none

/-- Who may be given the CPU. -/
def schedulable (s : Cpu V) : Option V → Bool
  | some v => (s.thread v).live
  | none => true

/-- `__vsched_put` and `__vsched_get`: the vcpu is put back preempted, and another one runs. -/
def switch (s : Cpu V) (v : V) (heir : Option V) : Cpu V :=
  { s.setThread v { s.thread v with preempted := true, yieldRequest := false } with current := heir }

end Cpu

/-- The answer to an operation. -/
def Thread.reply (t : Thread) (oracle : (e : Op) → e.Answer) : (e : Op) → e.Answer
  | .preempted => t.preempted
  | .preemptionEnabled => t.count == 0
  | e => oracle e

/-- What an operation does to the vcpu's own flags. -/
def Thread.after (t : Thread) : Op → Thread
  | .clearPreempted => { t with preempted := false }
  | .disableInterrupts => { t with irq := false }
  | .enableInterrupts => { t with irq := true }
  | .disablePreemption => { t with count := t.count + 1 }
  | .enablePreemption => { t with count := t.count - 1 }
  | _ => t

/-- The VMCS that is loaded after an operation of `v`. -/
def loadedAfter (v : V) (loaded : Option V) : (e : Op) → e.Answer → Option V
  | .vmptrld, true => some v
  | _, _ => loaded

/-- The CPU may change hands with this operation, the vcpu's flags being those after it. -/
def Thread.yields (t : Thread) : Op → Bool
  | .enablePreemption => t.count == 0 && t.yieldRequest
  | .vschedYield | .vschedPause _ => true
  | _ => false

/-- The timer interrupt may take the CPU from the vcpu. -/
def Thread.interruptible (t : Thread) : Bool := (t.prog.isNone || t.irq) && t.count == 0

/-- One operation of the current vcpu `v`. -/
def Cpu.advance (s : Cpu V) (v : V) (oracle : (e : Op) → e.Answer) (e : Op)
    (next : e.Answer → Handler Unit) : Cpu V :=
  let r := (s.thread v).reply oracle e
  { s.setThread v { (s.thread v).after e with prog := some (next r) } with
    loaded := loadedAfter v s.loaded e r }

/-- `vcpu_entry`: with interrupts off the vcpu loads its own VMCS, or has failed, and enters. -/
def Cpu.enterFirst (s : Cpu V) (v : V) (loads : Bool) : Cpu V :=
  { s.setThread v { s.thread v with
      prog := some (if loads then venter else .halt), irq := false, preempted := false } with
    loaded := if loads then some v else s.loaded }

def step (s : Cpu V) (a : Act V) : Option (Cpu V) :=
  match a, s.current with
  | .perform oracle heir, some v =>
      match (s.thread v).prog with
      | some (.op e next) =>
          let t := s.advance v oracle e next
          match heir with
          | none => some t
          | some u =>
              if (t.thread v).yields e && t.schedulable u then some (t.switch v u) else none
      | _ => none
  | .preempt heir, some v =>
      if (s.thread v).interruptible && s.schedulable heir then some (s.switch v heir) else none
  | .request, some v =>
      if 0 < (s.thread v).count then
        some (s.setThread v { s.thread v with yieldRequest := true })
      else none
  | .exit site vregs, some v =>
      match (s.thread v).prog with
      | some (.ret _) =>
          some (s.setThread v { s.thread v with prog := some (vexitDispatcher site vregs) })
      | _ => none
  | .start loads, some v =>
      match (s.thread v).prog with
      | none => some (s.enterFirst v loads)
      | _ => none
  | .recover heir, some v =>
      match (s.thread v).prog with
      | some .halt => if s.schedulable heir then some { s with current := heir } else none
      | _ => none
  | .wake heir, none => if s.schedulable (some heir) then some { s with current := some heir } else none
  | _, _ => none

/-- A vcpu that has not started: `vsched_put` has marked it preempted. -/
def Thread.fresh : Thread where
  prog := none
  irq := false
  count := 0
  preempted := true
  yieldRequest := false

/-- The CPU as it comes up: the root vcpu is in its guest. -/
def boot (root : V) : Cpu V where
  thread := Function.update (fun _ => .fresh) root
    { Thread.fresh with prog := some (.ret ()), preempted := false }
  current := some root
  loaded := some root

/-- The operation is an access to the VMCS. -/
def touches : Op → Bool
  | .vmread _ | .vmwrite _ _ => true
  | _ => false

/-- The next operation is an access to the VMCS. -/
def Cpu.touching (s : Cpu V) : Bool := s.nextOp.any touches

/-- No exit is a move from RSP: the register of the exit qualification is another one. -/
def noRspMove (s : Cpu V) : Act V → Prop
  | .perform oracle _ => s.nextOp = some (.vmread .roExitQualification) →
      gprOf ((oracle (.vmread .roExitQualification)).setWidth 32) ≠ 4
  | _ => True

/-! ## The discipline without a move from RSP -/

/-- The discipline of the exit path, as far as the VMCS is concerned, when the exit
qualification does not name RSP. -/
def owned : Monitor Op Op.Answer Phase where
  ok p e := match e with
    | .vmread _ | .vmwrite _ _ | .clearPreempted => p.held = true
    | _ => True
  may _ e := match e with
    | .vmread .roExitQualification => fun (qual : BitVec 64) => gprOf (qual.setWidth 32) ≠ 4
    | _ => fun _ => True
  next := (discipline (fun _ => True) True).next
  halts _ := True

theorem owned_of_discipline {α : Type} {prog : Handler α} {p : Phase} {post : α → Phase → Prop}
    (obeys : Obeys (discipline (fun _ => True) True) prog p post) (rsp : p.rsp = false) :
    Obeys owned prog p post := by
  have follows : ∀ p q e, (p = q ∧ p.rsp = false) → (discipline (fun _ => True) True).ok p e →
      owned.ok q e ∧ ∀ r, owned.may q e r → (discipline (fun _ => True) True).may p e r ∧
        ((discipline (fun _ => True) True).next p e r = owned.next q e r ∧
          ((discipline (fun _ => True) True).next p e r).rsp = false) := by
    rintro p _ e ⟨rfl, rsp⟩ allowed
    cases e <;> try exact ⟨trivial, fun r may => ⟨trivial, rfl, rsp⟩⟩
    case vmread field =>
        refine ⟨?_, fun r may => ⟨trivial, rfl, ?_⟩⟩
        · rcases allowed.2 with held | ⟨_, moves⟩
          · exact held
          · rw [rsp] at moves
            cases moves
        · cases field <;> first | exact rsp | exact decide_eq_false may
    case vmwrite field val => exact ⟨allowed.2, fun r may => ⟨trivial, rfl, rsp⟩⟩
    case clearPreempted => exact ⟨allowed.2, fun r may => ⟨trivial, rfl, rsp⟩⟩
  refine (obeys.sim follows (fun _ _ _ halted => halted) ⟨rfl, rsp⟩).mono fun a q reached => ?_
  obtain ⟨p, ⟨rfl, _⟩, holds⟩ := reached
  exact holds

/-- How a program leaves the vcpu when it returns to the guest. -/
def ready (_ : Unit) (q : Phase) : Prop := q.held = true ∧ q.irq = false ∧ q.count = 0

theorem dispatcher_owned (site : Site) (vregs : Vregs) :
    Obeys owned (vexitDispatcher site vregs) Phase.exit ready :=
  owned_of_discipline (vexitDispatcher_obeys site vregs rfl rfl) rfl

theorem venter_owned : Obeys owned venter Phase.exit ready :=
  owned_of_discipline (venter_obeys Phase.exit) rfl

/-! ## The invariant -/

/-- The phase of a program is that of its vcpu: one that holds its VMCS has the CPU, with that
VMCS loaded, and keeps it. -/
structure Follows (s : Cpu V) (v : V) (p : Phase) : Prop where
  count : p.count = (s.thread v).count
  irq : p.irq = (s.thread v).irq
  current : p.held = true → s.current = some v
  loaded : p.held = true → s.loaded = some v
  firm : p.held = true → p.irq = false ∨ 0 < p.count

/-- What is left of the vcpu's program keeps the discipline from where the vcpu is. -/
def Runs (s : Cpu V) (v : V) (p : Phase) : Prop :=
  Follows s v p ∧ ∀ prog, (s.thread v).prog = some prog → Obeys owned prog p ready

structure Inv (s : Cpu V) : Prop where
  away : ∀ v, s.current ≠ some v → (s.thread v).live = true → (s.thread v).preempted = true
  own : ∀ v, s.current = some v → (s.thread v).live = true → (s.thread v).preempted = false →
    s.loaded = some v
  runs : ∀ v, ∃ p, Runs s v p
  fresh : ∀ v, (s.thread v).prog = none → (s.thread v).count = 0

variable {s t : Cpu V} {v u : V} {p : Phase}

@[simp] theorem setThread_self (s : Cpu V) (v : V) (x : Thread) : (s.setThread v x).thread v = x :=
  Function.update_self ..

theorem setThread_of_ne (x : Thread) (other : u ≠ v) : (s.setThread v x).thread u = s.thread u :=
  Function.update_of_ne other ..

/-- Who holds nothing promises nothing about the CPU. -/
theorem Follows.of_free (free : p.held = false) (count : p.count = (s.thread v).count)
    (irq : p.irq = (s.thread v).irq) : Follows s v p := by
  have nothing : ∀ {P : Prop}, p.held = true → P := by
    intro P held
    rw [free] at held
    cases held
  exact ⟨count, irq, nothing, nothing, nothing⟩

/-- The two vcpus are at the same point, whatever their flags for the scheduler. -/
structure Thread.Same (x y : Thread) : Prop where
  prog : y.prog = x.prog
  irq : y.irq = x.irq
  count : y.count = x.count

/-- Who holds nothing is not concerned by what becomes of the CPU. -/
theorem Runs.frame (runs : Runs s u p) (free : p.held = false)
    (same : Thread.Same (s.thread u) (t.thread u)) : Runs t u p := by
  refine ⟨.of_free free ?_ ?_, fun prog left => ?_⟩
  · rw [same.count, runs.1.count]
  · rw [same.irq, runs.1.irq]
  · exact runs.2 prog (by rw [← same.prog, left])

theorem Runs.free (runs : Runs s u p) (other : s.current ≠ some u) : p.held = false :=
  Bool.eq_false_iff.mpr fun held => other (runs.1.current held)

/-- A vcpu that is not the current one goes on as it is. -/
theorem Inv.others (inv : Inv s) (current : s.current = some v) (other : u ≠ v)
    (same : t.thread u = s.thread u) : ∃ p, Runs t u p := by
  obtain ⟨p, runs⟩ := inv.runs u
  refine ⟨p, runs.frame (runs.free ?_) ⟨by rw [same], by rw [same], by rw [same]⟩⟩
  rw [current]
  exact fun e => other (Option.some.inj e).symm

theorem Inv.boot (root : V) : Inv (boot root) := by
  have fresh : ∀ v, v ≠ root → (Ownership.boot root).thread v = .fresh :=
    fun v other => by simp [Ownership.boot, other]
  have first : (Ownership.boot root).thread root =
    { Thread.fresh with prog := some (.ret ()), preempted := false } := by simp [Ownership.boot]
  refine ⟨fun v away _ => ?_, fun v here _ _ => here, fun v => ?_, fun v none => ?_⟩
  · have other : v ≠ root := fun e => away (congrArg some e.symm)
    rw [fresh v other]
    rfl
  · by_cases same : v = root
    · subst same
      refine ⟨Phase.exit, ⟨?_, ?_, fun _ => rfl, fun _ => rfl, fun _ => .inl rfl⟩, fun prog left => ?_⟩
      · rw [first]; rfl
      · rw [first]; rfl
      · rw [first] at left
        cases left
        exact ⟨rfl, rfl, rfl⟩
    · refine ⟨{ Phase.exit with held := false }, .of_free rfl ?_ ?_, fun prog left => ?_⟩
      · rw [fresh v same]; rfl
      · rw [fresh v same]; rfl
      · rw [fresh v same] at left
        cases left
  · by_cases same : v = root
    · subst same
      rw [first]
      rfl
    · rw [fresh v same]
      rfl

/-- An access is to the VMCS of the vcpu that makes it. -/
theorem Inv.touching (inv : Inv s) (next : s.touching = true) : s.loaded = s.current := by
  unfold Cpu.touching Cpu.nextOp at next
  cases current : s.current with
  | none => simp [current] at next
  | some v =>
      obtain ⟨p, runs⟩ := inv.runs v
      cases left : (s.thread v).prog with
      | none => simp [current, left] at next
      | some prog =>
          cases prog with
          | ret a => simp [current, left] at next
          | halt => simp [current, left] at next
          | op e rest =>
              have obeys := (runs.2 _ left).1
              simp only [current, left, Option.bind_some, Option.any_some] at next
              have held : p.held = true := by
                cases e <;> first | exact obeys | cases next
              exact runs.1.loaded held

/-- The vcpu that lets the CPU go holds nothing. -/
theorem Inv.switch (inv : Inv s) (current : s.current = some v) (heir : Option V)
    (runs : Runs s v p) (free : p.held = false) : Inv (s.switch v heir) := by
  have apart : ∀ u, u ≠ v → s.current ≠ some u := by
    intro u other
    rw [current]
    exact fun e => other (Option.some.inj e).symm
  have marked : ((s.switch v heir).thread v).preempted = true := by simp [Cpu.switch]
  have rest : ∀ u, u ≠ v → (s.switch v heir).thread u = s.thread u :=
    fun u other => setThread_of_ne _ other
  refine ⟨fun u _ live => ?_, fun u here live stays => ?_, fun u => ?_, fun u none => ?_⟩
  · by_cases same : u = v
    · rw [same]; exact marked
    · rw [rest u same] at live ⊢
      exact inv.away u (apart u same) live
  · by_cases same : u = v
    · rw [same, marked] at stays
      cases stays
    · rw [rest u same] at live stays
      rw [inv.away u (apart u same) live] at stays
      cases stays
  · by_cases same : u = v
    · subst same
      refine ⟨p, runs.frame free ?_⟩
      constructor <;> simp [Cpu.switch]
    · exact inv.others current same (rest u same)
  · by_cases same : u = v
    · subst same
      have fresh := inv.fresh u
      simp only [Cpu.switch, setThread_self] at none ⊢
      exact fresh none
    · rw [rest u same] at none ⊢
      exact inv.fresh u none

/-- The current vcpu changes, and may load its VMCS. -/
theorem Inv.update (inv : Inv s) (current : s.current = some v) {x : Thread} {loaded : Option V}
    (own : x.preempted = false → x.live = true → loaded = some v)
    (runs : Runs { s.setThread v x with loaded := loaded } v p)
    (fresh : x.prog = none → x.count = 0) : Inv { s.setThread v x with loaded := loaded } := by
  have rest : ∀ u, u ≠ v → (s.setThread v x).thread u = s.thread u :=
    fun u other => setThread_of_ne _ other
  have self := setThread_self s v x
  refine ⟨fun u away live => ?_, fun u here live stays => ?_, fun u => ?_, fun u none => ?_⟩
  · have other : u ≠ v := fun same => away (same ▸ current)
    rw [rest u other] at live ⊢
    exact inv.away u away live
  · have same : u = v := Option.some.inj (here.symm.trans current)
    subst same
    rw [self] at stays live
    exact own stays live
  · by_cases same : u = v
    · subst same
      exact ⟨p, runs⟩
    · exact inv.others current same (rest u same)
  · by_cases same : u = v
    · subst same
      rw [self] at none ⊢
      exact fresh none
    · rw [rest u same] at none ⊢
      exact inv.fresh u none

/-! ## One operation -/

section Advance

variable {oracle : (e : Op) → e.Answer} {e : Op} {next : e.Answer → Handler Unit}

theorem advance_thread : (s.advance v oracle e next).thread v =
    { (s.thread v).after e with prog := some (next ((s.thread v).reply oracle e)) } := by
  simp [Cpu.advance, Cpu.setThread]

/-- An operation that is none of the CPU's concern. -/
theorem Follows.plain (follows : Follows s v p) (current : s.current = some v) {q : Phase}
    (same : p.Same q) (thread : (s.thread v).after e = s.thread v)
    (loaded : loadedAfter v s.loaded e ((s.thread v).reply oracle e) = s.loaded) :
    Follows (s.advance v oracle e next) v q := by
  refine ⟨?_, ?_, fun _ => current, fun held => ?_, fun held => ?_⟩
  · rw [advance_thread, thread, same.count, follows.count]
  · rw [advance_thread, thread, same.irq, follows.irq]
  · exact loaded.trans (follows.loaded (same.held ▸ held))
  · rw [same.irq, same.count]
    exact follows.firm (same.held ▸ held)

/-- The phase after an operation is that of the vcpu after it. -/
theorem Follows.advance (follows : Follows s v p) (current : s.current = some v)
    (own : (s.thread v).preempted = false → s.loaded = some v) :
    Follows (s.advance v oracle e next) v (owned.next p e ((s.thread v).reply oracle e)) := by
  have plain : ∀ q, p.Same q → (s.thread v).after e = s.thread v →
      loadedAfter v s.loaded e ((s.thread v).reply oracle e) = s.loaded →
      Follows (s.advance v oracle e next) v q :=
    fun q same thread unchanged => follows.plain current same thread unchanged
  obtain ⟨count, irq, _, loaded, firm⟩ := follows
  cases e <;> try exact plain _ .rfl rfl rfl
  case vmread field => exact plain _ (by cases field <;> exact ⟨rfl, rfl, rfl⟩) rfl rfl
  case root => exact plain _ ⟨rfl, rfl, rfl⟩ rfl rfl
  all_goals
    refine ⟨by simp [advance_thread, Thread.after, owned, discipline, count],
      by simp [advance_thread, Thread.after, owned, discipline, irq], fun _ => current,
      fun held => ?_, fun held => ?_⟩
    all_goals simp only [owned, discipline, Thread.reply, Bool.and_eq_true, Bool.not_eq_true',
      decide_eq_true_eq, Bool.false_eq_true] at held
  case vmptrld.refine_1 =>
      simp [Cpu.advance, loadedAfter, Thread.reply, held.1]
  case vmptrld.refine_2 => exact .inl held.2
  case preempted.refine_1 => exact own held.1
  case preempted.refine_2 => exact .inl held.2
  case clearPreempted.refine_1 => exact loaded held
  case clearPreempted.refine_2 => exact firm held
  case disableInterrupts.refine_1 => exact loaded held
  case disableInterrupts.refine_2 => exact .inl rfl
  case enableInterrupts.refine_1 => exact loaded held.1
  case enableInterrupts.refine_2 => exact .inr held.2
  case disablePreemption.refine_1 => exact loaded held
  case disablePreemption.refine_2 => exact .inr (Nat.succ_pos _)
  case enablePreemption.refine_1 => exact loaded held.1
  case enablePreemption.refine_2 => exact .inr (Nat.sub_pos_of_lt held.2)

/-- The CPU changes hands only where the vcpu holds nothing. -/
theorem yields_free (follows : Follows s v p)
    (yields : ((s.advance v oracle e next).thread v).yields e = true) :
    (owned.next p e ((s.thread v).reply oracle e)).held = false := by
  cases e <;> try (cases yields; done)
  case enablePreemption =>
      rw [advance_thread] at yields
      simp only [Thread.yields, Thread.after, Bool.and_eq_true, beq_iff_eq] at yields
      have last : ¬1 < p.count := by
        rw [follows.count]
        omega
      simp [owned, discipline, last]
  case vschedYield => rfl
  case vschedPause => rfl

theorem loadedAfter_own (loaded : s.loaded = some v) (r : e.Answer) :
    loadedAfter v s.loaded e r = some v := by
  unfold loadedAfter
  split
  · rfl
  · exact loaded

/-- One operation of the current vcpu. -/
theorem Inv.advance (inv : Inv s) (current : s.current = some v)
    (left : (s.thread v).prog = some (.op e next)) (runs : Runs s v p)
    (expected : owned.may p e ((s.thread v).reply oracle e)) :
    Inv (s.advance v oracle e next) ∧
      Runs (s.advance v oracle e next) v (owned.next p e ((s.thread v).reply oracle e)) := by
  have live : (s.thread v).live = true := by simp [Thread.live, left]
  have obeys := runs.2 _ left
  have runsOn : Runs (s.advance v oracle e next) v
      (owned.next p e ((s.thread v).reply oracle e)) := by
    refine ⟨runs.1.advance current (inv.own v current live), fun prog here => ?_⟩
    rw [advance_thread] at here
    cases here
    exact obeys.2 _ expected
  have ownOn : ((s.advance v oracle e next).thread v).preempted = false →
      (s.advance v oracle e next).loaded = some v := by
    intro stays
    refine loadedAfter_own ?_ _
    rw [advance_thread] at stays
    cases e <;> try exact inv.own v current live stays
    case clearPreempted => exact runs.1.loaded obeys.1
  refine ⟨inv.update current (fun stays _ => ownOn ?_) runsOn (fun none => ?_), runsOn⟩
  · rw [advance_thread]
    exact stays
  · cases none

end Advance

/-! ## The other steps -/

/-- An exit starts where the guest has been entered. -/
theorem Inv.exit (inv : Inv s) (current : s.current = some v)
    (left : (s.thread v).prog = some (.ret ())) (site : Site) (vregs : Vregs) :
    Inv (s.setThread v { s.thread v with prog := some (vexitDispatcher site vregs) }) := by
  obtain ⟨p, follows, obeys⟩ := inv.runs v
  obtain ⟨held, irq, count⟩ := obeys _ left
  have loaded := follows.loaded held
  refine inv.update (p := Phase.exit) current (fun _ _ => loaded) ⟨?_, fun prog here => ?_⟩ nofun
  · refine ⟨?_, ?_, fun _ => current, fun _ => loaded, fun _ => .inl rfl⟩
    · rw [setThread_self]
      exact count.symm.trans follows.count
    · rw [setThread_self]
      exact irq.symm.trans follows.irq
  · rw [setThread_self] at here
    cases here
    exact dispatcher_owned site vregs

/-- A vcpu starts by loading its own VMCS. -/
theorem Inv.start (inv : Inv s) (current : s.current = some v) (left : (s.thread v).prog = none)
    (loads : Bool) : Inv (s.enterFirst v loads) := by
  have count := inv.fresh v left
  cases loads with
  | true =>
      refine inv.update (p := Phase.exit) current (fun _ _ => rfl) ⟨?_, fun prog here => ?_⟩ nofun
      · refine ⟨?_, ?_, fun _ => current, fun _ => rfl, fun _ => .inl rfl⟩
        · rw [setThread_self]
          exact count.symm
        · rw [setThread_self]
          rfl
      · rw [setThread_self] at here
        cases here
        exact venter_owned
  | false =>
      have dead : (if false = true then venter else .halt) = (.halt : Handler Unit) := rfl
      refine inv.update (p := { Phase.exit with held := false }) current (fun _ live => ?_)
        ⟨.of_free rfl ?_ ?_, fun prog here => ?_⟩ nofun
      · rw [dead] at live
        cases live
      · rw [setThread_self]
        exact count.symm
      · rw [setThread_self]
        rfl
      · rw [setThread_self] at here
        cases here
        exact trivial

/-- The CPU goes from a vcpu that never comes back to another one. -/
theorem Inv.recover (inv : Inv s) (current : s.current = some v)
    (left : (s.thread v).prog = some .halt) (heir : Option V) : Inv { s with current := heir } := by
  have gone : (s.thread v).live = false := by simp [Thread.live, left]
  have apart : ∀ u, (s.thread u).live = true → s.current ≠ some u := by
    intro u live here
    have same : u = v := Option.some.inj (here.symm.trans current)
    rw [same, gone] at live
    cases live
  refine ⟨fun u _ live => ?_, fun u _ live stays => ?_, fun u => ?_, inv.fresh⟩
  · exact inv.away u (apart u live) live
  · rw [inv.away u (apart u live) live] at stays
    cases stays
  · by_cases same : u = v
    · subst same
      refine ⟨⟨false, false, false, (s.thread u).irq, (s.thread u).count⟩, .of_free rfl rfl rfl,
        fun prog here => ?_⟩
      rw [show ({ s with current := heir } : Cpu V).thread u = s.thread u from rfl, left] at here
      cases here
      exact trivial
    · exact inv.others current same rfl

/-- An idle CPU takes a vcpu. -/
theorem Inv.wake (inv : Inv s) (idle : s.current = none) (heir : Option V) :
    Inv { s with current := heir } := by
  have apart : ∀ u, s.current ≠ some u := by
    intro u here
    rw [idle] at here
    cases here
  refine ⟨fun u _ live => ?_, fun u _ live stays => ?_, fun u => ?_, inv.fresh⟩
  · exact inv.away u (apart u) live
  · rw [inv.away u (apart u) live] at stays
    cases stays
  · obtain ⟨p, runs⟩ := inv.runs u
    exact ⟨p, runs.frame (runs.free (apart u)) ⟨rfl, rfl, rfl⟩⟩

/-- A yield request waits until preemption is enabled. -/
theorem Inv.request (inv : Inv s) (current : s.current = some v) :
    Inv (s.setThread v { s.thread v with yieldRequest := true }) := by
  obtain ⟨p, follows, obeys⟩ := inv.runs v
  refine inv.update current (fun stays live => inv.own v current live stays)
    ⟨⟨?_, ?_, follows.current, follows.loaded, follows.firm⟩, fun prog here => ?_⟩ (inv.fresh v)
  · rw [setThread_self]
    exact follows.count
  · rw [setThread_self]
    exact follows.irq
  · rw [setThread_self] at here
    exact obeys prog here

/-- A vcpu that may be interrupted holds nothing. -/
theorem Inv.interruptible (inv : Inv s) (may : (s.thread v).interruptible = true) :
    ∃ p, Runs s v p ∧ p.held = false := by
  obtain ⟨on, enabled⟩ := Bool.and_eq_true_iff.mp may
  cases left : (s.thread v).prog with
  | none =>
      refine ⟨⟨false, false, false, (s.thread v).irq, (s.thread v).count⟩,
        ⟨.of_free rfl rfl rfl, fun prog here => ?_⟩, rfl⟩
      rw [left] at here
      cases here
  | some prog =>
      obtain ⟨p, runs⟩ := inv.runs v
      refine ⟨p, runs, Bool.eq_false_iff.mpr fun held => ?_⟩
      rw [left, Option.isNone_some, Bool.false_or] at on
      rcases runs.1.firm held with off | disabled
      · rw [runs.1.irq, on] at off
        cases off
      · rw [runs.1.count, beq_iff_eq.mp enabled] at disabled
        exact absurd disabled (lt_irrefl 0)

/-- The answer to the next operation is one that the discipline expects. -/
theorem expected_of_noRspMove {oracle : (e : Op) → e.Answer} {heir : Option (Option V)} {e : Op}
    {next : e.Answer → Handler Unit} (current : s.current = some v)
    (left : (s.thread v).prog = some (.op e next)) (ok : noRspMove s (.perform oracle heir))
    (p : Phase) : owned.may p e ((s.thread v).reply oracle e) := by
  have here : s.nextOp = some e := by simp [Cpu.nextOp, current, left]
  cases e <;> try trivial
  case vmread field =>
      cases field <;> try trivial
      case roExitQualification => exact ok here

theorem Inv.perform (inv : Inv s) (current : s.current = some v) {oracle : (e : Op) → e.Answer}
    {heir : Option (Option V)} (ok : noRspMove s (.perform oracle heir))
    (moved : step s (.perform oracle heir) = some t) : Inv t := by
  obtain ⟨p, runs⟩ := inv.runs v
  simp only [step, current] at moved
  split at moved
  case h_2 => cases moved
  case h_1 e next left =>
      have expected := expected_of_noRspMove current left ok p
      obtain ⟨kept, runsOn⟩ := inv.advance current left runs expected
      split at moved
      · cases moved
        exact kept
      · simp only [Option.ite_none_right_eq_some, Option.some.injEq, Bool.and_eq_true] at moved
        obtain ⟨⟨yields, _⟩, rfl⟩ := moved
        exact kept.switch current _ runsOn (yields_free runs.1 yields)

theorem Inv.step {a : Act V} (inv : Inv s) (ok : noRspMove s a)
    (moved : Ownership.step s a = some t) : Inv t := by
  cases current : s.current with
  | none =>
      cases a with
      | wake heir =>
          simp only [Ownership.step, current, Option.ite_none_right_eq_some, Option.some.injEq] at moved
          obtain ⟨_, rfl⟩ := moved
          exact inv.wake current (some heir)
      | _ => simp [Ownership.step, current] at moved
  | some v =>
      cases a with
      | wake heir => simp [Ownership.step, current] at moved
      | perform oracle heir => exact inv.perform current ok moved
      | preempt heir =>
          simp only [Ownership.step, current, Option.ite_none_right_eq_some, Option.some.injEq,
            Bool.and_eq_true] at moved
          obtain ⟨⟨may, _⟩, rfl⟩ := moved
          obtain ⟨p, runs, free⟩ := inv.interruptible may
          exact inv.switch current heir runs free
      | request =>
          simp only [Ownership.step, current, Option.ite_none_right_eq_some, Option.some.injEq] at moved
          obtain ⟨_, rfl⟩ := moved
          exact inv.request current
      | exit site vregs =>
          simp only [Ownership.step, current] at moved
          split at moved
          · cases moved
            exact inv.exit current (by assumption) site vregs
          · cases moved
      | start loads =>
          simp only [Ownership.step, current] at moved
          split at moved
          · cases moved
            exact inv.start current (by assumption) loads
          · cases moved
      | recover heir =>
          simp only [Ownership.step, current] at moved
          split at moved
          · split at moved
            · cases moved
              exact inv.recover current (by assumption) heir
            · cases moved
          · cases moved

/-- **VMCS ownership** -- on a CPU with any vcpus, after every run in which no exit is a move from
RSP, an access to the VMCS is to the one of the vcpu that makes it. -/
theorem vmcs_ownership (root : V) (run : List (Act V)) (s : Cpu V)
    (allowed : Along noRspMove step (boot root) run) (ran : exec step (boot root) run = some s)
    (next : s.touching = true) : s.loaded = s.current :=
  Inv.touching (exec_invariant_along (fun _ _ _ inv ok moved => inv.step ok moved) (.boot root)
    allowed ran) next

/-! ## A move from RSP -/

/-- A move to CR0 from this register. -/
def crExit (gpr : BitVec 64) : Exit := sampleExit (fun
  | .roExitReason => 28
  | .roExitQualification => gpr <<< 8
  | _ => 0) fun _ => 1

/-- What the exit answers, to a vcpu that is to terminate or not. -/
def sampleOracle (x : Exit) (terminate : Bool) (e : Op) : e.Answer :=
  (answer { x.world with entry := ⟨terminate, false, false⟩ } e
    { x.ctx with queue := { emptyQueue with vmwriteCr0 := true } }).1

/-- The vcpu `false` moves to CR0 and is preempted as soon as preemption is enabled; `true` starts,
is told to terminate, and the CPU goes back. -/
def movePreempted (gpr : BitVec 64) : List (Act Bool) :=
  .exit sampleSite ⟨fun _ => 1⟩ ::
    List.replicate 9 (.perform (sampleOracle (crExit gpr) false) none) ++
    [.preempt (some true), .start true] ++
    List.replicate 4 (.perform (sampleOracle (crExit gpr) true) none) ++
    [.recover (some false)]

/-- A move from RSP is about to read RSP while the VMCS of the other vcpu is loaded. -/
theorem rsp_read_from_other :
    (exec step (boot false) (movePreempted 4)).map
      (fun s => (s.touching, s.current, s.loaded)) = some (true, some false, some true) := by
  rfl

/-- A move from RAX that goes on until it writes CR0. -/
def moveResumed : List (Act Bool) :=
  movePreempted 0 ++ List.replicate 12 (.perform (sampleOracle (crExit 0) false) none)

/-- The same with RAX in the place of RSP: the VMCS is loaded again before it is written. -/
theorem vmcs_ownership_resumed : ∃ s, Along noRspMove step (boot false) moveResumed ∧
    exec step (boot false) moveResumed = some s ∧ s.touching = true ∧ s.loaded = s.current := by
  have rax : ∀ terminate heir s, noRspMove s
      (.perform (sampleOracle (crExit 0) terminate) heir : Act Bool) :=
    fun terminate heir s _ => by cases terminate <;> decide
  have allowed : Along noRspMove step (boot false) moveResumed := by
    refine .of_forall fun a inside s => ?_
    simp [moveResumed, movePreempted] at inside
    rcases inside with rfl | rfl | rfl | rfl | rfl | rfl | rfl <;>
      first | exact rax _ _ s | exact trivial
  have ends : (exec step (boot false) moveResumed).isSome = true := rfl
  have ran : exec step (boot false) moveResumed =
    some ((exec step (boot false) moveResumed).get ends) := (Option.some_get ends).symm
  have next : ((exec step (boot false) moveResumed).get ends).touching = true := rfl
  exact ⟨_, allowed, ran, next, vmcs_ownership false moveResumed _ allowed ran next⟩

end Twan.Vportal.Ownership
