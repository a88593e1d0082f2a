/-
# Twan.Kernel.Ipi -- calls on other processors

`__ipi_run_func` of `src/kernel/kapi.c` with `ipi_handler` and the signal of an `ipi_data` in
`src/kernel/isr/isr_dispatcher.c`.  There is a slot for each target and sender; a step is one access
to a slot, the sending of the interrupt, or the begin or the end of the function that is called.

An interrupt that is sent is pending until the target takes it, at a moment of its own, and those
that come in between are one.  So the handler may come for nothing, or find slots that were filled
while it was running: `onItsWay` says that a slot which is filled is looked at once more.

A slot with what its two sides are at is a mailbox of `Twan.Base.Mailbox`.
-/
import Twan.Base.Mailbox
import Twan.Base.Run
import Mathlib.Data.Nat.Notation

namespace Twan.Kernel.Ipi

set_option autoImplicit false
set_option linter.dupNamespace false

open Twan.Base Twan.Base.Mailbox

/-- `num_cpus()` and `NUM_CPUS`. -/
structure Config where
  numCpus : ℕ
  maxCpus : ℕ
  le : numCpus ≤ maxCpus

inductive Signal where
  | unlocked
  | locked
  deriving DecidableEq

structure Request (F : Type) where
  func : F
  arg : BitVec 64
  wait : Bool

/-- `struct ipi_data`. -/
structure IpiData (F : Type) where
  func : F
  arg : BitVec 64
  wait : Bool
  signal : Signal

/-- Where a processor is in `__ipi_run_func`. -/
inductive Caller (F : Type) where
  | idle
  /-- `__ipi_wait`, the three stores, `__ipi_assert`. -/
  | wait (t : ℕ) (req : Request F)
  | setFunc (t : ℕ) (req : Request F)
  | setArg (t : ℕ) (req : Request F)
  | setWait (t : ℕ) (req : Request F)
  | assert (t : ℕ) (req : Request F)
  | send (t : ℕ) (req : Request F)
  /-- `__ipi_wait` again. -/
  | waitDone (t : ℕ) (req : Request F)

/-- Where a processor is in `ipi_handler`. -/
inductive Handler (F : Type) where
  | idle
  | scan (i : ℕ)
  | readFunc (i : ℕ)
  | readArg (i : ℕ) (func : F)
  | readWait (i : ℕ) (func : F) (arg : BitVec 64)
  | call (i : ℕ) (req : Request F)
  | running (i : ℕ) (req : Request F)
  | ack (i : ℕ) (req : Request F)

/-- `ipi_table[target][sender]`, the interrupts that are pending, and for each target and sender the
requests that were accepted, started and finished. -/
structure Sys (F : Type) where
  table : ℕ → ℕ → IpiData F
  pending : ℕ → Bool
  caller : ℕ → Caller F
  handler : ℕ → Handler F
  accepted : ℕ → ℕ → List (Request F)
  started : ℕ → ℕ → List (Request F)
  finished : ℕ → ℕ → List (Request F)

/-- A call with whether the target is active when that is read, a step of a call, the interrupt, and
a step of the handler. -/
inductive Action (F : Type) where
  | call (c processorId : ℕ) (active : Bool) (req : Request F)
  | caller (c : ℕ)
  | deliver (t : ℕ)
  | handler (t : ℕ)

def update₂ {α : Type} (f : ℕ → ℕ → α) (t c : ℕ) (x : α) : ℕ → ℕ → α :=
  Function.update f t (Function.update (f t) c x)

section Model

variable {F : Type}

/-- The signals are set when the processors are counted, what else is in the table is not. -/
def Sys.init (data : ℕ → ℕ → Request F) : Sys F where
  table t c := ⟨(data t c).func, (data t c).arg, (data t c).wait, .unlocked⟩
  pending _ := false
  caller _ := .idle
  handler _ := .idle
  accepted _ _ := []
  started _ _ := []
  finished _ _ := []

def Sys.callAt (s : Sys F) (c : ℕ) (pc : Caller F) : Sys F :=
  { s with caller := Function.update s.caller c pc }

def Sys.handleAt (s : Sys F) (t : ℕ) (pc : Handler F) : Sys F :=
  { s with handler := Function.update s.handler t pc }

def Sys.setData (s : Sys F) (t c : ℕ) (data : IpiData F) : Sys F :=
  { s with table := update₂ s.table t c data }

/-- The checks of `__ipi_run_func`; it returns `-EINVAL` otherwise. -/
def Config.accepts (k : Config) (c processorId : ℕ) (active : Bool) : Bool :=
  processorId < k.numCpus && processorId != c && active

def stepCaller (s : Sys F) (c : ℕ) : Option (Sys F) :=
  match s.caller c with
  | .idle => none
  | .wait t req =>
      if (s.table t c).signal = .unlocked then some (s.callAt c (.setFunc t req)) else none
  | .setFunc t req =>
      some ((s.setData t c { s.table t c with func := req.func }).callAt c (.setArg t req))
  | .setArg t req =>
      some ((s.setData t c { s.table t c with arg := req.arg }).callAt c (.setWait t req))
  | .setWait t req =>
      some ((s.setData t c { s.table t c with wait := req.wait }).callAt c (.assert t req))
  | .assert t req =>
      some ((s.setData t c { s.table t c with signal := .locked }).callAt c (.send t req))
  | .send t req =>
      some ({ s with pending := Function.update s.pending t true }.callAt c
        (if req.wait then .waitDone t req else .idle))
  | .waitDone t _ =>
      if (s.table t c).signal = .unlocked then some (s.callAt c .idle) else none

def stepHandler (k : Config) (s : Sys F) (t : ℕ) : Option (Sys F) :=
  match s.handler t with
  | .idle => none
  | .scan i =>
      some (s.handleAt t
        (if i < k.maxCpus then
          if i = t ∨ (s.table t i).signal = .unlocked then .scan (i + 1) else .readFunc i
        else .idle))
  | .readFunc i => some (s.handleAt t (.readArg i (s.table t i).func))
  | .readArg i func => some (s.handleAt t (.readWait i func (s.table t i).arg))
  | .readWait i func arg =>
      some (s.handleAt t
        (if (s.table t i).wait then .call i ⟨func, arg, true⟩ else .ack i ⟨func, arg, false⟩))
  | .call i req =>
      some ({ s with started := update₂ s.started t i (s.started t i ++ [req]) }.handleAt t
        (.running i req))
  | .running i req =>
      some ({ s with finished := update₂ s.finished t i (s.finished t i ++ [req]) }.handleAt t
        (if req.wait then .ack i req else .scan (i + 1)))
  | .ack i req =>
      some ((s.setData t i { s.table t i with signal := .unlocked }).handleAt t
        (if req.wait then .scan (i + 1) else .call i req))

def step (k : Config) (s : Sys F) : Action F → Option (Sys F)
  | .call c processorId active req =>
      match s.caller c with
      | .idle =>
          if c < k.numCpus then
            if k.accepts c processorId active then
              some ({ s with
                accepted := update₂ s.accepted processorId c (s.accepted processorId c ++ [req])
                }.callAt c (.wait processorId req))
            else some s
          else none
      | _ => none
  | .caller c => stepCaller s c
  | .deliver t =>
      match s.handler t with
      | .idle =>
          if s.pending t then
            some ({ s with pending := Function.update s.pending t false }.handleAt t (.scan 0))
          else none
      | _ => none
  | .handler t => stepHandler k s t

end Model

/-! ## A slot as a mailbox -/

section View

variable {F : Type}

def IpiData.request (data : IpiData F) : Request F := ⟨data.func, data.arg, data.wait⟩

def IpiData.slot (data : IpiData F) : Option (Request F) :=
  match data.signal with
  | .locked => some data.request
  | .unlocked => none

/-- What the caller is at for this target. -/
def Caller.post (t : ℕ) : Caller F → Post (Request F)
  | .idle => .away
  | .wait u req | .setFunc u req | .setArg u req | .setWait u req | .assert u req =>
      if u = t then .calling req else .away
  | .send u req => if u = t ∧ req.wait = true then .waiting req else .away
  | .waitDone u req => if u = t then .waiting req else .away

/-- What the handler is at for this sender, whose slot has this. -/
def Handler.take (c : ℕ) (data : IpiData F) : Handler F → Take (Request F)
  | .idle | .scan _ => .away
  | .readFunc i | .readArg i _ | .readWait i _ _ => if i = c then .taking data.request else .away
  | .call i req => if i = c then if req.wait then .taking req else .ready req else .away
  | .running i req => if i = c then .running req else .away
  | .ack i req => if i = c then if req.wait then .done req else .taking req else .away

def view (s : Sys F) (t c : ℕ) : State (Request F) where
  slot := (s.table t c).slot
  post := (s.caller c).post t
  take := (s.handler t).take c (s.table t c)
  accepted := s.accepted t c
  started := s.started t c
  finished := s.finished t c

/-- What the caller has stored so far; no one else stores while it does. -/
def Caller.Writes (slots : ℕ → IpiData F) : Caller F → Prop
  | .setFunc t _ => (slots t).signal = .unlocked
  | .setArg t req => (slots t).signal = .unlocked ∧ (slots t).func = req.func
  | .setWait t req =>
      (slots t).signal = .unlocked ∧ (slots t).func = req.func ∧ (slots t).arg = req.arg
  | .assert t req => (slots t).signal = .unlocked ∧ (slots t).request = req
  | _ => True

/-- What the handler has read so far is in the slot. -/
def Handler.Reads (slots : ℕ → IpiData F) : Handler F → Prop
  | .readArg i func => func = (slots i).func
  | .readWait i func arg => func = (slots i).func ∧ arg = (slots i).arg
  | _ => True

/-- The handler is going to look at the slot of `c`, or to empty it. -/
def Handler.Reaches (c : ℕ) : Handler F → Prop
  | .idle => False
  | .scan i | .readFunc i | .readArg i _ | .readWait i _ _ | .ack i _ => i ≤ c
  | .call i req | .running i req => i < c ∨ i = c ∧ req.wait = true

def Caller.target : Caller F → Option ℕ
  | .idle => none
  | .wait t _ | .setFunc t _ | .setArg t _ | .setWait t _ | .assert t _ | .send t _
  | .waitDone t _ => some t

structure Inv (k : Config) (s : Sys F) : Prop where
  channel : ∀ t c, Ok Request.wait (view s t c)
  writes : ∀ c, (s.caller c).Writes fun t => s.table t c
  reads : ∀ t, (s.handler t).Reads (s.table t)
  targets : ∀ c t, (s.caller c).target = some t → t ≠ c ∧ c < k.maxCpus
  slots : ∀ t c, (s.table t c).signal = .locked → t ≠ c ∧ c < k.maxCpus
  onItsWay : ∀ t c, (s.table t c).signal = .locked →
    s.pending t = true ∨ (∃ req, s.caller c = .send t req) ∨ (s.handler t).Reaches c

def Handler.index : Handler F → Option ℕ
  | .idle | .scan _ => none
  | .readFunc i | .readArg i _ | .readWait i _ _ | .call i _ | .running i _ | .ack i _ => some i

theorem Caller.post_of_ne {pc : Caller F} {t : ℕ} (other : pc.target ≠ some t) :
    pc.post t = .away := by
  cases pc with
  | idle => rfl
  | send u req =>
      rw [Caller.post, if_neg]
      rintro ⟨same, -⟩
      exact other (congrArg some same)
  | _ => exact if_neg fun same => other (congrArg some same)

theorem Handler.take_of_ne {pc : Handler F} {c : ℕ} (other : pc.index ≠ some c) (data : IpiData F) :
    pc.take c data = .away := by
  cases pc with
  | idle => rfl
  | scan i => rfl
  | _ => exact if_neg fun same => other (congrArg some same)

section Update

variable {α : Type} {f : ℕ → ℕ → α} {t c t' c' : ℕ} {x : α}

@[simp] theorem update₂_self : update₂ f t c x t c = x := by simp [update₂]

theorem update₂_of_ne (other : t' ≠ t ∨ c' ≠ c) : update₂ f t c x t' c' = f t' c' := by
  by_cases same : t' = t
  · subst same
    simp only [update₂, Function.update_self]
    exact Function.update_of_ne (other.resolve_left fun apart => apart rfl) _ _
  · simp only [update₂, Function.update_of_ne same]

end Update

end View

end Twan.Kernel.Ipi
