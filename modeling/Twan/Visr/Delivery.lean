/-
# Twan.Visr.Delivery -- from a pending interrupt to the guest and back

What becomes of a vcpu's pending interrupts.  Other CPUs make one pending at any time
(`__vemu_inject_external_interrupt`, which decides from what it sees under the lock whether to
send an IPI); the vcpu's own CPU does so, and ends one or changes the level, only while it is in
the hypervisor; an entry injects at most one and opens a window for what it has to leave.

The state is one vcpu.  Its phases are the hypervisor, the entry between `VRUNNING` and the
section under `visr_pending.lock`, and the guest (up to `VTRANSITIONING`).  Two ghosts go along:
`ipi`, whether an IPI has been sent since the section, and `service`, the levels of the external
interrupts that the guest has been given and has not ended, the last one first.

* `no_stuck_interrupt`: in the guest, what could be delivered has a window or an IPI, and each
  entry injects one event at most, the right one, and clears exactly what it injects;
* `in_service_levels`: `in_intl` is the set of levels in service all along a run exactly when no
  exit of the run cuts the delivery of an external interrupt short;
* `cut_short_in_service`: an interrupt that is cut short stays in service, and blocks itself.
-/
import Twan.Base.Run
import Twan.Vportal.Exits

namespace Twan.Visr.Delivery

set_option autoImplicit false

open Twan.Base Twan.Base.Prog Twan.Lib Twan.Vemulate Twan.Vportal

/-! ## Levels -/

theorem servicedIntl_none {p : VisrPending} (none : p.servicedIntl = none) (k : ℕ) :
    p.inIntl.getLsbD k = false := by
  by_cases zero : p.inIntl.toNat = 0
  · have empty : p.inIntl = 0#16 := BitVec.eq_of_toNat_eq zero
    rw [empty, BitVec.getLsbD_zero]
  · have bound : p.inIntl.toNat < 2 ^ 32 := by have := p.inIntl.isLt; omega
    obtain ⟨k, found, _⟩ := fls32_spec bound zero
    rw [VisrPending.servicedIntl, found] at none
    cases none

/-- `fls32` finds the highest level in service. -/
theorem servicedIntl_some {p : VisrPending} {k : ℕ} (found : p.servicedIntl = some k) :
    p.inIntl.getLsbD k = true ∧ ∀ j, k < j → p.inIntl.getLsbD j = false := by
  by_cases zero : p.inIntl.toNat = 0
  · rw [VisrPending.servicedIntl, zero] at found
    cases found
  · have bound : p.inIntl.toNat < 2 ^ 32 := by have := p.inIntl.isLt; omega
    obtain ⟨k', found', highest⟩ := fls32_spec bound zero
    rw [VisrPending.servicedIntl, found'] at found
    cases found
    exact highest.testBit

/-- The vector may be delivered: its level is above every level in service and at least `intl`. -/
def Deliverable (p : VisrPending) (vector : Fin 256) : Prop :=
  (∀ k, p.inIntl.getLsbD k = true → k < vectorToIntl vector) ∧ p.intl.toNat ≤ vectorToIntl vector

theorem deliverable_iff (p : VisrPending) (vector : Fin 256) :
    p.deliverable vector = true ↔ Deliverable p vector := by
  unfold VisrPending.deliverable Deliverable
  rw [Bool.and_eq_true, decide_eq_true_eq]
  refine and_congr_left fun _ => ?_
  cases found : p.servicedIntl with
  | none =>
      refine iff_of_true rfl fun k here => ?_
      rw [servicedIntl_none found k] at here
      cases here
  | some serviced =>
      obtain ⟨here, above⟩ := servicedIntl_some found
      simp only [decide_eq_true_eq]
      refine ⟨fun lower k set => ?_, fun all => all serviced here⟩
      have le : ¬serviced < k := by
        intro higher
        rw [above k higher] at set
        cases set
      omega

/-- What may be delivered at a level may be delivered above it. -/
theorem Deliverable.mono {p : VisrPending} {u v : Fin 256} (may : Deliverable p u) (le : u ≤ v) :
    Deliverable p v := by
  have level : vectorToIntl u ≤ vectorToIntl v := Nat.div_le_div_right le
  exact ⟨fun k here => lt_of_lt_of_le (may.1 k here) level, le_trans may.2 level⟩

theorem pendingVector_none {data : VisrPending} (none : pendingVector data = none)
    (vector : Fin 256) : data.pendingExternalInterrupts.test vector = false := by
  have spec := Bmp256.fls_spec data.pendingExternalInterrupts
  rw [pendingVector, Option.map_eq_none_iff] at none
  rw [none] at spec
  exact spec vector

/-- `bmp256_fls` finds the highest pending vector. -/
theorem pendingVector_some {data : VisrPending} {vector : Fin 256}
    (found : pendingVector data = some vector) :
    data.pendingExternalInterrupts.test vector = true ∧
      ∀ other, vector < other → data.pendingExternalInterrupts.test other = false := by
  have spec := Bmp256.fls_spec data.pendingExternalInterrupts
  rw [pendingVector, Option.map_eq_some_iff] at found
  obtain ⟨k, here, rfl⟩ := found
  rw [here] at spec
  obtain ⟨lt, set, above⟩ := spec
  have same : Fin.ofNat 256 k = ⟨k, lt⟩ := Fin.ext (Nat.mod_eq_of_lt lt)
  rw [same]
  exact ⟨set, fun other higher => above other higher⟩

/-! ## What the section leaves -/

section Inject

variable (queue : VoperationQueue) (data : VisrPending) (vmcs : VmcsField → BitVec 64)

/-- The second stage never opens the interrupt window. -/
theorem nmiStage_cases :
    (nmiStage vmcs data (exceptionStage queue) = .injectNone ∧ data.nmiPending = false) ∨
      (nmiStage vmcs data (exceptionStage queue) = .injectedException ∧ data.nmiPending = false) ∨
      (nmiStage vmcs data (exceptionStage queue) = .injectedNmi ∧ data.nmiPending = true) ∨
      (nmiStage vmcs data (exceptionStage queue) = .nmiWindowExiting ∧ data.nmiPending = true) := by
  unfold nmiStage exceptionStage
  cases data.nmiPending <;> cases queue.idtVectoring <;> cases nmisBlocked vmcs <;> simp

/-- Once the NMI window is to be opened it stays so. -/
theorem externalStage_window : (externalStage vmcs data .nmiWindowExiting).1 = .nmiWindowExiting := by
  unfold externalStage
  split
  · rfl
  · split_ifs <;> simp_all

/-- An NMI that stays pending has the NMI window. -/
theorem delivery_nmi (pending : ((inject queue data vmcs).delivery data).nmiPending = true) :
    (inject queue data vmcs).nmiWindow = true := by
  simp only [Injection.delivery, venterDelivery, inject, Injection.ofStages, Bool.and_eq_true,
    Bool.not_eq_true', decide_eq_false_iff_not] at pending
  obtain ⟨was, stays⟩ := pending
  rcases nmiStage_cases queue data vmcs with ⟨_, not⟩ | ⟨_, not⟩ | ⟨injected, _⟩ | ⟨window, _⟩
  · rw [was] at not; cases not
  · rw [was] at not; cases not
  · exact absurd injected stays
  · simp only [inject, Injection.ofStages, window, externalStage_window, decide_true]

/-- The third stage opens a window for the highest vector, unless it injects it. -/
theorem externalStage_covers {state : VenterInjectState} (possible : state ≠ .intWindowExiting)
    {vector : Fin 256} (pending : pendingVector data = some vector)
    (may : data.deliverable vector = true) :
    (externalStage vmcs data state).2 = some vector ∨
      (externalStage vmcs data state).1 = .nmiWindowExiting ∨
      (externalStage vmcs data state).1 = .intWindowExiting := by
  unfold externalStage
  simp only [pending, may, Bool.not_true, Bool.false_eq_true, if_false]
  split_ifs with window blocked free
  · exact .inr (.inl rfl)
  · exact .inr (.inr rfl)
  · exact .inl rfl
  · cases state <;> simp_all

theorem inject_covers {vector : Fin 256} (pending : pendingVector data = some vector)
    (may : data.deliverable vector = true) :
    (inject queue data vmcs).external = some vector ∨ (inject queue data vmcs).nmiWindow = true ∨
      (inject queue data vmcs).intWindow = true := by
  have possible : nmiStage vmcs data (exceptionStage queue) ≠ .intWindowExiting := by
    rcases nmiStage_cases queue data vmcs with ⟨stage, _⟩ | ⟨stage, _⟩ | ⟨stage, _⟩ | ⟨stage, _⟩ <;>
      rw [stage] <;> decide
  rcases externalStage_covers data vmcs possible pending may with injected | window | window
  · exact .inl injected
  · exact .inr (.inl (decide_eq_true window))
  · exact .inr (.inr (decide_eq_true window))

/-- A vector that is injected is the highest one, may be delivered, and nothing is blocked. -/
theorem inject_external {vector : Fin 256}
    (injects : (inject queue data vmcs).external = some vector) :
    pendingVector data = some vector ∧ Deliverable data vector ∧ inNmi vmcs = false ∧
      externalInterruptsBlocked vmcs = false := by
  obtain ⟨_, highest, may, outside, unblocked⟩ := externalStage_injects injects
  exact ⟨highest, (deliverable_iff data vector).mp may, outside, unblocked⟩

theorem level_lt (vector : Fin 256) : vectorToIntl vector < 16 := by
  unfold vectorToIntl
  omega

/-- A level that is taken into service. -/
theorem getLsbD_serve (inIntl : BitVec 16) (vector : Fin 256) (k : ℕ) :
    (inIntl ||| (1#16 <<< vectorToIntl vector)).getLsbD k =
      (inIntl.getLsbD k || decide (k = vectorToIntl vector)) := by
  rw [BitVec.getLsbD_or, getLsbD_oneBit]
  congr 1
  have lt := level_lt vector
  exact decide_eq_decide.mpr ⟨fun both => both.2.symm, fun same => ⟨lt, same.symm⟩⟩

/-- A vector that stays pending and may be delivered has one of the windows. -/
theorem delivery_external {vector : Fin 256}
    (pending : ((inject queue data vmcs).delivery data).pendingExternalInterrupts.test vector = true)
    (may : Deliverable ((inject queue data vmcs).delivery data) vector) :
    (inject queue data vmcs).nmiWindow = true ∨ (inject queue data vmcs).intWindow = true := by
  have below : ∀ top, pendingVector data = some top →
      data.pendingExternalInterrupts.test vector = true → vector ≤ top := by
    intro top highest set
    by_contra higher
    rw [(pendingVector_some highest).2 vector (Fin.not_le.mp higher)] at set
    cases set
  cases external : (inject queue data vmcs).external with
  | none =>
      simp only [Injection.delivery, venterDelivery, external] at pending
      have before : Deliverable data vector := by
        simpa only [Injection.delivery, venterDelivery, external, Deliverable] using may
      cases highest : pendingVector data with
      | none =>
          rw [pendingVector_none highest vector] at pending
          cases pending
      | some top =>
          have mayTop := before.mono (below top highest pending)
          rcases inject_covers queue data vmcs highest ((deliverable_iff data top).mpr mayTop) with
            injected | window
          · rw [external] at injected
            cases injected
          · exact window
  | some top =>
      have highest := (inject_external queue data vmcs external).1
      simp only [Injection.delivery, venterDelivery, external, Bmp256.test_unset] at pending
      -- the level of the injected vector is in service now, and `vector` is not above it
      have inService : ((inject queue data vmcs).delivery data).inIntl =
          data.inIntl ||| (1#16 <<< vectorToIntl top) := by
        simp only [Injection.delivery, venterDelivery, external]
      have served := may.1 (vectorToIntl top) (by
        rw [inService, getLsbD_serve, decide_eq_true rfl, Bool.or_true])
      have set : data.pendingExternalInterrupts.test vector = true :=
        (Bool.and_eq_true_iff.mp pending).2
      have level : vectorToIntl vector ≤ vectorToIntl top :=
        Nat.div_le_div_right (below top highest set)
      omega

end Inject

/-! ## The vcpu -/

/-- `__vemu_inject_external_interrupt`, both locks held: what is pending then, and whether an IPI
is sent to the CPU of the vcpu. -/
def vemuInjectExternalInterrupt (running : Bool) (data : VisrPending) (vector : Fin 256)
    (nmi : Bool) : VisrPending × Bool :=
  (data.setInterruptPending vector nmi, running &&
    if nmi then !data.nmiPending && !data.nmiWindowExit
    else !data.intWindowExit && data.deliverable vector)

/-- The entry from the queued operations on: they are cleared, then comes the section. -/
def venterDeliver : Handler (Option (Fin 256)) := do
  let queue ← Op.perform .voperationQueue
  Op.perform (.setVoperationQueue queue.clearPending)
  venterInject queue

/-- In the hypervisor, on the way into the guest (`VRUNNING`, before the section), or in it. -/
inductive Place where
  | host
  | entering
  | guest
  deriving DecidableEq, Repr

/-- What the CPU of the vcpu does to its pending interrupts and queued event in the hypervisor. -/
inductive Own where
  | setPending (vector : Fin 256) (nmi : Bool)
  | queue (info : VectoredEventsInfo)
  | setIntl (intl : BitVec 4)
  | eoi

def Own.prog : Own → Handler Unit
  | .setPending vector nmi => vemuSetInterruptPending vector nmi
  | .queue info => vqueueIdtVectoringInfo info
  | .setIntl intl => vsetIntl intl
  | .eoi => do let _ ← veoi

inductive Action where
  | own (o : Own)
  | requeue
  | elsewhere (new : Ctx)
  | inject (vector : Fin 256) (nmi : Bool)
  | enter
  | deliver
  | exit (info : VectoredEventsInfo) (new : Ctx)

/-- One vcpu; `vectoring` is the event whose delivery the last exit interrupted, until it is
queued again, and `given` the external vector of the last entry. -/
structure State where
  place : Place
  ctx : Ctx
  vectoring : Option VectoredEventsInfo
  ipi : Bool
  given : Option (Fin 256)
  service : List ℕ

/-- What else is written: all but the pending interrupts, the window controls (only the section
writes them) and the queued event. -/
def elsewhere (old new : Ctx) : Ctx :=
  { new with
    visr := old.visr
    vmcs := Function.update new.vmcs .ctrlProcbasedCtls (old.vmcs .ctrlProcbasedCtls)
    queue := { new.queue with
      idtVectoring := old.queue.idtVectoring
      idtVectoringInfo := old.queue.idtVectoringInfo } }

/-- The external vector of an interruption-information word. -/
def externalOf (word : BitVec 64) : Option (Fin 256) :=
  if word.extractLsb' 8 3 = 0#3 then some (word.extractLsb' 0 8).toFin else none

/-- The exit has interrupted the delivery of the external interrupt of this entry. -/
def cutsShort (given : Option (Fin 256)) (info : VectoredEventsInfo) : Bool :=
  info.valid && (info.vectoredEventType = .external && given = some info.vector)

section System

variable (w : World)

def State.own (s : State) (o : Own) : State :=
  { s with
    ctx := (run (answer w) o.prog s.ctx).2
    service := match o with
      | .eoi => s.service.tail
      | _ => s.service }

/-- The words that the entry writes. -/
def State.words (s : State) : List (BitVec 64) :=
  writes w .ctrlVmentryInterruptInfo venterDeliver s.ctx

def State.deliver (s : State) : State :=
  { s with
    place := .guest
    ctx := (run (answer w) venterDeliver s.ctx).2
    ipi := false
    given := (s.words w).findSome? externalOf
    service := match (s.words w).findSome? externalOf with
      | some vector => vectorToIntl vector :: s.service
      | none => s.service }

def State.inject (s : State) (vector : Fin 256) (nmi : Bool) : State :=
  let (visr, ipi) := vemuInjectExternalInterrupt (s.place ≠ .host) s.ctx.visr vector nmi
  { s with ctx := { s.ctx with visr := visr }, ipi := s.ipi || ipi }

def State.exit (s : State) (info : VectoredEventsInfo) (new : Ctx) : State :=
  { s with
    place := .host
    ctx := Delivery.elsewhere s.ctx new
    vectoring := if info.valid then some info else none
    given := none
    service := if cutsShort s.given info then s.service.tail else s.service }

/-- The interrupted event is queued again when the handler is done, before the entry. -/
def step (s : State) : Action → Option State
  | .own o => if s.place = .host then some (s.own w o) else none
  | .requeue =>
      match s.vectoring with
      | some info =>
          if s.place = .host then some { s.own w (.queue info) with vectoring := none } else none
      | none => none
  | .elsewhere new =>
      if s.place = .guest then none else some { s with ctx := Delivery.elsewhere s.ctx new }
  | .inject vector nmi => some (s.inject vector nmi)
  | .enter =>
      if s.place = .host ∧ s.vectoring.isNone then some { s with place := .entering } else none
  | .deliver => if s.place = .entering then some (s.deliver w) else none
  | .exit info new => if s.place = .guest then some (s.exit info new) else none

end System

/-- A vcpu before its first entry, or the root's at its launch: its level is the guest's TPR, and
nothing is pending, queued or in service. -/
structure Boot (s : State) : Prop where
  place : s.place ≠ .entering
  inIntl : s.ctx.visr.inIntl = 0#16
  nmiPending : s.ctx.visr.nmiPending = false
  intWindowExit : s.ctx.visr.intWindowExit = false
  nmiWindowExit : s.ctx.visr.nmiWindowExit = false
  pending : s.ctx.visr.pendingExternalInterrupts = .empty
  queue : s.ctx.queue.idtVectoring = false
  vectoring : s.vectoring = none
  given : s.given = none
  service : s.service = []

/-! ## What each operation does -/

section Operations

variable {w : World}

theorem setInterruptPending_flags (p : VisrPending) (vector : Fin 256) (nmi : Bool) :
    (p.setInterruptPending vector nmi).inIntl = p.inIntl ∧
      (p.setInterruptPending vector nmi).intl = p.intl ∧
      (p.setInterruptPending vector nmi).intWindowExit = p.intWindowExit ∧
      (p.setInterruptPending vector nmi).nmiWindowExit = p.nmiWindowExit := by
  cases nmi <;> exact ⟨rfl, rfl, rfl, rfl⟩

/-- The flags, the controls and the queue of `t` are those of `s`, but for an event of a type
that is queued. -/
structure Calm (s t : Ctx) : Prop where
  controls : t.vmcs .ctrlProcbasedCtls = s.vmcs .ctrlProcbasedCtls
  intWindowExit : t.visr.intWindowExit = s.visr.intWindowExit
  nmiWindowExit : t.visr.nmiWindowExit = s.visr.nmiWindowExit
  queue : t.queue.idtVectoring = true →
    (s.queue.idtVectoring = true ∧ t.queue.idtVectoringInfo = s.queue.idtVectoringInfo) ∨
      queues t.queue.idtVectoringInfo.vectoredEventType = true

theorem Calm.of_queue {s t : Ctx} (vmcs : t.vmcs = s.vmcs)
    (int : t.visr.intWindowExit = s.visr.intWindowExit)
    (nmi : t.visr.nmiWindowExit = s.visr.nmiWindowExit) (queue : t.queue = s.queue) : Calm s t := by
  refine ⟨by rw [vmcs], int, nmi, fun set => .inl ?_⟩
  rw [queue] at set
  exact ⟨set, by rw [queue]⟩

theorem calm_elsewhere (old new : Ctx) : Calm old (elsewhere old new) where
  controls := Function.update_self (f := new.vmcs) VmcsField.ctrlProcbasedCtls _
  intWindowExit := rfl
  nmiWindowExit := rfl
  queue set := .inl ⟨set, rfl⟩

theorem run_vemuSetInterruptPending (vector : Fin 256) (nmi : Bool) (s : Ctx) :
    (run (answer w) (vemuSetInterruptPending vector nmi) s).2 = s ∨
      (run (answer w) (vemuSetInterruptPending vector nmi) s).2 =
        { s with visr := s.visr.setInterruptPending vector nmi } := by
  unfold vemuSetInterruptPending
  split_ifs with refused
  · exact .inl rfl
  · exact .inr rfl

theorem calm_setPending (vector : Fin 256) (nmi : Bool) (s : Ctx) :
    Calm s (run (answer w) (vemuSetInterruptPending vector nmi) s).2 ∧
      (run (answer w) (vemuSetInterruptPending vector nmi) s).2.visr.inIntl = s.visr.inIntl := by
  obtain ⟨inIntl, _, int, window⟩ := setInterruptPending_flags s.visr vector nmi
  rcases run_vemuSetInterruptPending (w := w) vector nmi s with same | sets
  · rw [same]
    exact ⟨.of_queue rfl rfl rfl rfl, rfl⟩
  · rw [sets]
    exact ⟨.of_queue rfl int window rfl, inIntl⟩

theorem calm_queue (info : VectoredEventsInfo) (s : Ctx) :
    Calm s (run (answer w) (vqueueIdtVectoringInfo info) s).2 ∧
      (run (answer w) (vqueueIdtVectoringInfo info) s).2.visr.inIntl = s.visr.inIntl := by
  unfold vqueueIdtVectoringInfo
  cases kind : info.vectoredEventType with
  | external => exact calm_setPending _ _ s
  | nmi => exact calm_setPending _ _ s
  | reserved => exact ⟨.of_queue rfl rfl rfl rfl, rfl⟩
  | hardwareException | softwareInt | privSoftwareException | softwareException | otherEvent =>
      refine ⟨⟨rfl, rfl, rfl, fun _ => .inr ?_⟩, rfl⟩
      exact (congrArg queues kind).trans rfl

theorem eoi_flags (p : VisrPending) : p.eoi.intWindowExit = p.intWindowExit ∧
    p.eoi.nmiWindowExit = p.nmiWindowExit := by
  unfold VisrPending.eoi
  split <;> exact ⟨rfl, rfl⟩

theorem calm_own (o : Own) (s : Ctx) : Calm s (run (answer w) o.prog s).2 := by
  cases o with
  | setPending vector nmi => exact (calm_setPending vector nmi s).1
  | queue info => exact (calm_queue info s).1
  | setIntl intl => exact .of_queue rfl rfl rfl rfl
  | eoi =>
      obtain ⟨int, window⟩ := eoi_flags s.visr
      exact .of_queue rfl int window rfl

/-- Only an end of interrupt takes a level out of service. -/
theorem own_inIntl (o : Own) (s : Ctx) : (run (answer w) o.prog s).2.visr.inIntl =
    match o with
    | .eoi => s.visr.eoi.inIntl
    | _ => s.visr.inIntl := by
  cases o with
  | setPending vector nmi => exact (calm_setPending vector nmi s).2
  | queue info => exact (calm_queue info s).2
  | setIntl intl => rfl
  | eoi => rfl

/-- The entry from the queued operations on is the section with the event that was queued. -/
theorem venterDeliver_spec (s : Ctx) :
    (run (answer w) venterDeliver s).2.visr = (inject s.queue s.visr s.vmcs).delivery s.visr ∧
      (run (answer w) venterDeliver s).2.vmcs .ctrlProcbasedCtls =
        (inject s.queue s.visr s.vmcs).controls s.visr (s.vmcs .ctrlProcbasedCtls) ∧
      (run (answer w) venterDeliver s).2.queue = s.queue.clearPending ∧
      writes w .ctrlVmentryInterruptInfo venterDeliver s =
        (inject s.queue s.visr s.vmcs).words s.queue := by
  let cleared : Ctx := { s with queue := s.queue.clearPending }
  obtain ⟨t, ran, words, _, controls, rest⟩ := venterInject_spec (w := w) s.queue cleared
  have same : run (answer w) venterDeliver s = run (answer w) (venterInject s.queue) cleared := rfl
  rw [same, ran]
  refine ⟨by rw [rest], controls, by rw [rest], words⟩

theorem windowControls_bits (controls : BitVec 64) (nmiWindow intWindow : Bool) :
    (windowControls controls nmiWindow intWindow).getLsbD 22 = nmiWindow ∧
      (windowControls controls nmiWindow intWindow).getLsbD 2 = intWindow := by
  unfold windowControls setField
  cases nmiWindow <;> cases intWindow <;> simp

end Operations

/-! ## The words -/

/-- The vector and the type of an interruption-information word. -/
theorem vmentryInterruptInfo_bits (vector : Fin 256) (type : InterruptType) (errcode : Bool) {i : ℕ}
    (lt : i < 11) : (vmentryInterruptInfo vector type errcode).getLsbD i =
      ((vector : ℕ).testBit i || (!decide (i < 8) && (InterruptType.toBits type).getLsbD (i - 8))) := by
  have deliver : (if errcode then 1#64 <<< 11 else 0).getLsbD i = false := by
    split_ifs
    · rw [getLsbD_oneBit]
      exact decide_eq_false (by omega)
    · exact BitVec.getLsbD_zero
  have valid : (1#64 <<< 31).getLsbD i = false := by
    rw [getLsbD_oneBit]
    exact decide_eq_false (by omega)
  have inside : i < 64 := by omega
  unfold vmentryInterruptInfo
  rw [BitVec.getLsbD_or, BitVec.getLsbD_or, BitVec.getLsbD_or, deliver, valid, BitVec.getLsbD_ofNat,
    BitVec.getLsbD_shiftLeft]
  simp [inside]

theorem vmentryInterruptInfo_type (vector : Fin 256) (type : InterruptType) (errcode : Bool) :
    (vmentryInterruptInfo vector type errcode).extractLsb' 8 3 =
      (InterruptType.toBits type).extractLsb' 0 3 := by
  refine BitVec.eq_of_getLsbD_eq fun i lt => ?_
  have small : (vector : ℕ).testBit (8 + i) = false := by
    have le : 2 ^ 8 ≤ 2 ^ (8 + i) := Nat.pow_le_pow_right (by omega) (by omega)
    exact Nat.testBit_lt_two_pow (lt_of_lt_of_le vector.isLt le)
  have high : ¬8 + i < 8 := by omega
  rw [BitVec.getLsbD_extractLsb', BitVec.getLsbD_extractLsb',
    vmentryInterruptInfo_bits _ _ _ (by omega)]
  simp [small, high]

theorem vmentryInterruptInfo_vector (vector : Fin 256) (type : InterruptType) (errcode : Bool) :
    ((vmentryInterruptInfo vector type errcode).extractLsb' 0 8).toFin = vector := by
  have word : (vmentryInterruptInfo vector type errcode).extractLsb' 0 8 = BitVec.ofFin vector := by
    refine BitVec.eq_of_getLsbD_eq fun i lt => ?_
    rw [BitVec.getLsbD_extractLsb', vmentryInterruptInfo_bits _ _ _ (by omega)]
    simp [lt]
  rw [word]

theorem externalOf_externalWord (vector : Fin 256) :
    externalOf (externalWord vector) = some vector := by
  have type : (externalWord vector).extractLsb' 8 3 = 0#3 := vmentryInterruptInfo_type _ _ _
  rw [externalOf, if_pos type, externalWord, vmentryInterruptInfo_vector]

/-- A queued event is told from an interrupt and from an NMI by its type. -/
theorem exceptionWord_type {queue : VoperationQueue}
    (kind : queues queue.idtVectoringInfo.vectoredEventType = true) :
    externalOf (exceptionWord queue) = none ∧ exceptionWord queue ≠ nmiWord := by
  have type := vmentryInterruptInfo_type queue.idtVectoringInfo.vector
    queue.idtVectoringInfo.vectoredEventType
    (queue.idtVectoringInfo.errcodeDelivered || queue.useSynthErrcode)
  have apart : (exceptionWord queue).extractLsb' 8 3 ≠ 0#3 ∧
      (exceptionWord queue).extractLsb' 8 3 ≠ nmiWord.extractLsb' 8 3 := by
    rw [exceptionWord, type]
    revert kind
    cases queue.idtVectoringInfo.vectoredEventType <;> decide
  exact ⟨if_neg apart.1, fun same => apart.2 (by rw [same])⟩

section Words

variable {queue : VoperationQueue}
  (kind : queue.idtVectoring = true → queues queue.idtVectoringInfo.vectoredEventType = true)
  (i : Injection)

include kind

theorem findSome_words : (i.words queue).findSome? externalOf = i.external := by
  have nmi : externalOf nmiWord = none := rfl
  have queued : (if queue.idtVectoring then [exceptionWord queue] else []).findSome? externalOf =
      none := by
    split_ifs with event
    · simp [(exceptionWord_type (kind event)).1]
    · rfl
  have second : (if i.nmi then [nmiWord] else []).findSome? externalOf = none := by
    split_ifs
    · simp [nmi]
    · rfl
  have third : (i.external.map externalWord).toList.findSome? externalOf = i.external := by
    cases i.external with
    | none => rfl
    | some vector => simp [externalOf_externalWord]
  rw [Injection.words, List.findSome?_append, List.findSome?_append, queued, second, third]
  rfl

theorem mem_words_nmi : nmiWord ∈ i.words queue ↔ i.nmi = true := by
  have queued : nmiWord ∉ (if queue.idtVectoring then [exceptionWord queue] else []) := by
    split_ifs with event
    · simpa using (exceptionWord_type (kind event)).2.symm
    · simp
  have external : nmiWord ∉ (i.external.map externalWord).toList := by
    cases i.external with
    | none => simp
    | some vector =>
        intro inside
        have same : nmiWord = externalWord vector := by simpa using inside
        have decoded := externalOf_externalWord vector
        rw [← same] at decoded
        cases decoded
  unfold Injection.words
  simp only [List.mem_append, queued, external, false_or, or_false]
  split_ifs with injects <;> simp [injects]

/-- At most one word is written, so the decoded vector is the one that is written. -/
theorem mem_words_external (one : (i.words queue).length ≤ 1) (vector : Fin 256) :
    externalWord vector ∈ i.words queue ↔ i.external = some vector := by
  constructor
  · intro inside
    obtain ⟨front, back, split⟩ := List.append_of_mem inside
    rw [split, List.length_append, List.length_cons] at one
    have noFront : front = [] := List.eq_nil_of_length_eq_zero (by omega)
    rw [← findSome_words kind i, split, noFront]
    simp [externalOf_externalWord]
  · intro injects
    simp [Injection.words, injects]

end Words

/-! ## No stuck interrupt -/

section Covered

variable {w : World} {s : State}

/-- The two window controls in the VMCS. -/
def State.nmiWindow (s : State) : Bool := (s.ctx.vmcs .ctrlProcbasedCtls).getLsbD 22

def State.intWindow (s : State) : Bool := (s.ctx.vmcs .ctrlProcbasedCtls).getLsbD 2

/-- The flags follow the controls, an event is queued with a type that is queued, and what
could be delivered to a guest that runs has a window or an IPI. -/
structure Covered (s : State) : Prop where
  nmiWindow : s.ctx.visr.nmiWindowExit = true → s.nmiWindow = true
  intWindow : s.ctx.visr.intWindowExit = true → s.intWindow = true
  queue : s.ctx.queue.idtVectoring = true →
    queues s.ctx.queue.idtVectoringInfo.vectoredEventType = true
  nmi : s.place = .guest → s.ctx.visr.nmiPending = true →
    s.ctx.visr.nmiWindowExit = true ∨ s.ipi = true
  external : s.place = .guest → ∀ vector,
    s.ctx.visr.pendingExternalInterrupts.test vector = true → Deliverable s.ctx.visr vector →
      s.ctx.visr.nmiWindowExit = true ∨ s.ctx.visr.intWindowExit = true ∨ s.ipi = true

theorem Boot.covered (boot : Boot s) : Covered s where
  nmiWindow set := by rw [boot.nmiWindowExit] at set; cases set
  intWindow set := by rw [boot.intWindowExit] at set; cases set
  queue set := by rw [boot.queue] at set; cases set
  nmi _ set := by rw [boot.nmiPending] at set; cases set
  external _ vector set := by
    rw [boot.pending, Bmp256.test_empty] at set
    cases set

/-- In the hypervisor only the flags, the controls and the queue matter. -/
theorem Covered.calm (covered : Covered s) {t : State} (away : t.place ≠ .guest)
    (calm : Calm s.ctx t.ctx) : Covered t where
  nmiWindow set := by
    rw [calm.nmiWindowExit] at set
    rw [State.nmiWindow, calm.controls]
    exact covered.nmiWindow set
  intWindow set := by
    rw [calm.intWindowExit] at set
    rw [State.intWindow, calm.controls]
    exact covered.intWindow set
  queue set := by
    rcases calm.queue set with ⟨was, same⟩ | kind
    · rw [same]
      exact covered.queue was
    · exact kind
  nmi here := absurd here away
  external here := absurd here away

/-- What another CPU makes pending in a guest that runs has a window, or it sends an IPI. -/
theorem inject_nmi_covers {data : VisrPending} {vector : Fin 256} {nmi : Bool}
    (set : (data.setInterruptPending vector nmi).nmiPending = true) :
    data.nmiPending = true ∨ data.nmiWindowExit = true ∨
      (vemuInjectExternalInterrupt true data vector nmi).2 = true := by
  cases nmi with
  | false => exact .inl set
  | true =>
      cases was : data.nmiPending with
      | true => exact .inl rfl
      | false =>
          cases window : data.nmiWindowExit with
          | true => exact .inr (.inl rfl)
          | false => simp [vemuInjectExternalInterrupt, was, window]

theorem inject_external_covers {data : VisrPending} {vector other : Fin 256} {nmi : Bool}
    (set : (data.setInterruptPending vector nmi).pendingExternalInterrupts.test other = true)
    (may : Deliverable data other) :
    data.pendingExternalInterrupts.test other = true ∨ data.intWindowExit = true ∨
      (vemuInjectExternalInterrupt true data vector nmi).2 = true := by
  cases nmi with
  | true => exact .inl set
  | false =>
      simp only [VisrPending.setInterruptPending, Bool.false_eq_true, if_false, Bmp256.test_set,
        Bool.or_eq_true, decide_eq_true_eq] at set
      rcases set with same | was
      · subst same
        cases window : data.intWindowExit with
        | true => exact .inr (.inl rfl)
        | false => simp [vemuInjectExternalInterrupt, window, (deliverable_iff data _).mpr may]
      · exact .inl was

theorem Covered.inject (covered : Covered s) (vector : Fin 256) (nmi : Bool) :
    Covered (s.inject vector nmi) := by
  obtain ⟨inIntl, intl, int, window⟩ := setInterruptPending_flags s.ctx.visr vector nmi
  have same : s.place = .guest → (s.inject vector nmi).ipi = (s.ipi ||
      (vemuInjectExternalInterrupt true s.ctx.visr vector nmi).2) := by
    intro here
    simp [State.inject, vemuInjectExternalInterrupt, here]
  refine ⟨fun set => covered.nmiWindow (window.symm.trans set),
    fun set => covered.intWindow (int.symm.trans set), covered.queue, fun here set => ?_,
    fun here other set may => ?_⟩
  · rw [same here, Bool.or_eq_true]
    have kept : (s.inject vector nmi).ctx.visr.nmiWindowExit = s.ctx.visr.nmiWindowExit := window
    rw [kept]
    rcases inject_nmi_covers set with was | opened | sent
    · exact (covered.nmi here was).imp_right .inl
    · exact .inl opened
    · exact .inr (.inr sent)
  · have before : Deliverable s.ctx.visr other := by
      have levels : Deliverable (s.ctx.visr.setInterruptPending vector nmi) other := may
      rw [Deliverable, inIntl, intl] at levels
      exact levels
    rw [same here, Bool.or_eq_true]
    have keptNmi : (s.inject vector nmi).ctx.visr.nmiWindowExit = s.ctx.visr.nmiWindowExit := window
    have keptInt : (s.inject vector nmi).ctx.visr.intWindowExit = s.ctx.visr.intWindowExit := int
    rw [keptNmi, keptInt]
    rcases inject_external_covers set before with was | opened | sent
    · exact (covered.external here other was before).imp_right (Or.imp_right .inl)
    · exact .inr (.inl opened)
    · exact .inr (.inr (.inr sent))

/-- The controls say what the flags say after the section. -/
theorem controls_bits (i : Injection) (data : VisrPending) (controls : BitVec 64)
    (nmi : data.nmiWindowExit = true → controls.getLsbD 22 = true)
    (int : data.intWindowExit = true → controls.getLsbD 2 = true) :
    (i.nmiWindow = true → (i.controls data controls).getLsbD 22 = true) ∧
      (i.intWindow = true → (i.controls data controls).getLsbD 2 = true) := by
  obtain ⟨nmiBit, intBit⟩ := windowControls_bits controls i.nmiWindow i.intWindow
  unfold Injection.controls
  split_ifs with changes
  · rw [nmiBit, intBit]
    exact ⟨id, id⟩
  · simp only [Bool.or_eq_true, bne_iff_ne, ne_eq, not_or, not_not] at changes
    rw [changes.1, changes.2]
    exact ⟨nmi, int⟩

theorem Covered.deliver (covered : Covered s) : Covered (s.deliver w) := by
  obtain ⟨visr, controls, queue, _⟩ := venterDeliver_spec (w := w) s.ctx
  obtain ⟨nmi, int⟩ := controls_bits (Vportal.inject s.ctx.queue s.ctx.visr s.ctx.vmcs) s.ctx.visr _
    covered.nmiWindow covered.intWindow
  have visr' : (s.deliver w).ctx.visr =
    (Vportal.inject s.ctx.queue s.ctx.visr s.ctx.vmcs).delivery s.ctx.visr := visr
  have queue' : (s.deliver w).ctx.queue = s.ctx.queue.clearPending := queue
  refine ⟨fun set => ?_, fun set => ?_, fun set => ?_, fun _ set => ?_, fun _ vector set may => ?_⟩
  · rw [visr'] at set
    exact (congrArg (BitVec.getLsbD · 22) controls).trans (nmi set)
  · rw [visr'] at set
    exact (congrArg (BitVec.getLsbD · 2) controls).trans (int set)
  · rw [queue'] at set
    cases set
  · rw [visr'] at set ⊢
    exact .inl (delivery_nmi _ _ _ set)
  · rw [visr'] at set may ⊢
    rcases delivery_external _ _ _ set may with window | window
    · exact .inl window
    · exact .inr (.inl window)

theorem Covered.step {t : State} {a : Action} (covered : Covered s)
    (moved : Delivery.step w s a = some t) : Covered t := by
  cases a with
  | own o =>
      obtain ⟨here, ⟨⟩⟩ := Option.ite_none_right_eq_some.mp moved
      exact covered.calm (fun guest => by cases here.symm.trans guest) (calm_own o s.ctx)
  | requeue =>
      simp only [Delivery.step] at moved
      split at moved
      · obtain ⟨here, ⟨⟩⟩ := Option.ite_none_right_eq_some.mp moved
        exact covered.calm (fun guest => by cases here.symm.trans guest) (calm_own _ s.ctx)
      · cases moved
  | elsewhere new =>
      obtain ⟨away, ⟨⟩⟩ := Option.ite_none_left_eq_some.mp moved
      exact covered.calm away (calm_elsewhere s.ctx new)
  | inject vector nmi =>
      cases moved
      exact covered.inject vector nmi
  | enter =>
      obtain ⟨_, ⟨⟩⟩ := Option.ite_none_right_eq_some.mp moved
      exact covered.calm Place.noConfusion (.of_queue rfl rfl rfl rfl)
  | deliver =>
      obtain ⟨_, ⟨⟩⟩ := Option.ite_none_right_eq_some.mp moved
      exact covered.deliver
  | exit info new =>
      obtain ⟨_, ⟨⟩⟩ := Option.ite_none_right_eq_some.mp moved
      exact covered.calm Place.noConfusion (calm_elsewhere s.ctx new)

/-- What one entry gives to the guest: one event at most, and what is no longer pending is what
has been injected. -/
structure Delivers (words : List (BitVec 64)) (s t : Ctx) : Prop where
  one : words.length ≤ 1
  external : ∀ vector, externalWord vector ∈ words →
    s.visr.pendingExternalInterrupts.test vector = true ∧
      (∀ other, vector < other → s.visr.pendingExternalInterrupts.test other = false) ∧
      Deliverable s.visr vector ∧ inNmi s.vmcs = false ∧ externalInterruptsBlocked s.vmcs = false
  cleared : ∀ vector, externalWord vector ∈ words ↔
    s.visr.pendingExternalInterrupts.test vector = true ∧
      t.visr.pendingExternalInterrupts.test vector = false
  nmiCleared : nmiWord ∈ words ↔ s.visr.nmiPending = true ∧ t.visr.nmiPending = false

theorem inject_nmi_pending {queue : VoperationQueue} {data : VisrPending}
    {vmcs : VmcsField → BitVec 64} (injects : (Vportal.inject queue data vmcs).nmi = true) :
    data.nmiPending = true := by
  have stage : nmiStage vmcs data (exceptionStage queue) = .injectedNmi := of_decide_eq_true injects
  rcases nmiStage_cases queue data vmcs with ⟨same, _⟩ | ⟨same, _⟩ | ⟨_, pending⟩ | ⟨same, _⟩
  · rw [same] at stage; cases stage
  · rw [same] at stage; cases stage
  · exact pending
  · rw [same] at stage; cases stage

theorem Covered.delivers (covered : Covered s) :
    Delivers (s.words w) s.ctx (s.deliver w).ctx := by
  obtain ⟨visr, _, _, words⟩ := venterDeliver_spec (w := w) s.ctx
  have visr' : (s.deliver w).ctx.visr =
    (Vportal.inject s.ctx.queue s.ctx.visr s.ctx.vmcs).delivery s.ctx.visr := visr
  have words' : s.words w =
    (Vportal.inject s.ctx.queue s.ctx.visr s.ctx.vmcs).words s.ctx.queue := words
  generalize injection : Vportal.inject s.ctx.queue s.ctx.visr s.ctx.vmcs = i at visr' words'
  have one : (i.words s.ctx.queue).length ≤ 1 := by
    rw [← injection]
    exact words_length _ _ _
  have isExternal := mem_words_external covered.queue i one
  have highest : ∀ vector, i.external = some vector →
      pendingVector s.ctx.visr = some vector ∧ Deliverable s.ctx.visr vector ∧
        inNmi s.ctx.vmcs = false ∧ externalInterruptsBlocked s.ctx.vmcs = false := by
    intro vector injects
    rw [← injection] at injects
    exact inject_external _ _ _ injects
  rw [words']
  refine ⟨one, fun vector inside => ?_, fun vector => ?_, ?_⟩
  · obtain ⟨top, may, outside, unblocked⟩ := highest vector ((isExternal vector).mp inside)
    obtain ⟨pending, above⟩ := pendingVector_some top
    exact ⟨pending, above, may, outside, unblocked⟩
  · rw [isExternal, visr']
    simp only [Injection.delivery, venterDelivery]
    cases external : i.external with
    | none => simp
    | some top =>
        obtain ⟨pending, _⟩ := pendingVector_some (highest top external).1
        simp only [Option.some.injEq, Bmp256.test_unset, Bool.and_eq_false_iff]
        refine ⟨fun same => ?_, fun ⟨was, gone⟩ => ?_⟩
        · subst same
          exact ⟨pending, .inl (by simp)⟩
        · rcases gone with same | not
          · rw [Bool.not_eq_false', decide_eq_true_eq] at same
            exact same.symm
          · rw [was] at not
            cases not
  · rw [mem_words_nmi covered.queue, visr']
    simp only [Injection.delivery, venterDelivery, Bool.and_eq_false_iff, Bool.not_eq_false']
    refine ⟨fun injects => ⟨?_, .inr injects⟩, fun ⟨was, gone⟩ => ?_⟩
    · rw [← injection] at injects
      exact inject_nmi_pending injects
    · rcases gone with not | injects
      · rw [was] at not
        cases not
      · exact injects

/-- **No stuck interrupt** -- after any run, an NMI or a deliverable vector that is pending in a
guest that runs has a window or an IPI that was sent since the entry, and an entry injects one
event at most, the highest vector that nothing blocks, and clears exactly what it injects. -/
theorem no_stuck_interrupt (w : World) {s t : State} {run : List Action} (boot : Boot s)
    (ran : exec (Delivery.step w) s run = some t) :
    (t.place = .guest →
      (t.ctx.visr.nmiPending = true → t.nmiWindow = true ∨ t.ipi = true) ∧
      ∀ vector, t.ctx.visr.pendingExternalInterrupts.test vector = true →
        Deliverable t.ctx.visr vector →
          t.intWindow = true ∨ t.nmiWindow = true ∨ t.ipi = true) ∧
    ∀ u, Delivery.step w t .deliver = some u → Delivers (t.words w) t.ctx u.ctx := by
  have covered : Covered t :=
    exec_invariant (fun _ _ _ before moved => before.step moved) boot.covered ran
  refine ⟨fun here => ⟨fun pending => ?_, fun vector pending may => ?_⟩, fun u entered => ?_⟩
  · exact (covered.nmi here pending).imp_left covered.nmiWindow
  · rcases covered.external here vector pending may with nmi | int | sent
    · exact .inr (.inl (covered.nmiWindow nmi))
    · exact .inl (covered.intWindow int)
    · exact .inr (.inr sent)
  · obtain ⟨_, ⟨⟩⟩ := Option.ite_none_right_eq_some.mp entered
    exact covered.delivers

end Covered

/-! ## In service -/

section Served

variable {w : World} {s : State}

/-- `in_intl` is the set of the levels in service. -/
def InService (s : State) : Prop := ∀ k, s.ctx.visr.inIntl.getLsbD k = true ↔ k ∈ s.service

/-- The interrupts in service are nested, each above the ones it has interrupted, and the one of
this entry is the last. -/
structure Served (s : State) : Prop where
  inService : InService s
  nested : s.service.Pairwise (· > ·)
  given : ∀ vector, s.given = some vector →
    s.place = .guest ∧ s.service.head? = some (vectorToIntl vector)

theorem Boot.served (boot : Boot s) : Served s where
  inService k := by simp [boot.inIntl, boot.service]
  nested := by simp [boot.service]
  given vector found := by rw [boot.given] at found; cases found

/-- `veoi` ends the last interrupt of a nest. -/
theorem eoi_tail {p : VisrPending} {service : List ℕ}
    (inService : ∀ k, p.inIntl.getLsbD k = true ↔ k ∈ service)
    (nested : service.Pairwise (· > ·)) (k : ℕ) :
    p.eoi.inIntl.getLsbD k = true ↔ k ∈ service.tail := by
  unfold VisrPending.eoi
  cases found : p.servicedIntl with
  | none =>
      have empty : ∀ j, j ∉ service := by
        intro j inside
        have set := (inService j).mpr inside
        rw [servicedIntl_none found] at set
        cases set
      rw [List.eq_nil_iff_forall_not_mem.mpr empty] at inService ⊢
      exact inService k
  | some top =>
      obtain ⟨here, above⟩ := servicedIntl_some found
      cases service with
      | nil => exact absurd ((inService top).mp here) List.not_mem_nil
      | cons head rest =>
          obtain ⟨lower, _⟩ := List.pairwise_cons.mp nested
          -- the highest level is the head: nothing above it is set, and the rest is below the head
          have same : top = head := by
            rcases List.mem_cons.mp ((inService top).mp here) with same | inside
            · exact same
            · have set := (inService head).mpr List.mem_cons_self
              rw [above head (lower top inside)] at set
              cases set
          rw [getLsbD_clearBit, List.tail_cons, Bool.and_eq_true, decide_eq_true_eq, inService k,
            List.mem_cons, same]
          refine ⟨fun ⟨inside, other⟩ => inside.resolve_left (Ne.symm other), fun inside => ?_⟩
          exact ⟨.inr inside, (lower k inside).ne'⟩

theorem Served.own (served : Served s) (here : s.place = .host) (o : Own) : Served (s.own w o) := by
  have none : ∀ vector, s.given ≠ some vector := by
    intro vector found
    cases here.symm.trans (served.given vector found).1
  have inIntl := own_inIntl (w := w) o s.ctx
  refine ⟨fun k => ?_, ?_, fun vector found => absurd found (none vector)⟩
  · have ctx : (s.own w o).ctx.visr.inIntl = (run (answer w) o.prog s.ctx).2.visr.inIntl := rfl
    rw [ctx, inIntl]
    cases o with
    | setPending vector nmi => exact served.inService k
    | queue info => exact served.inService k
    | setIntl intl => exact served.inService k
    | eoi => exact eoi_tail served.inService served.nested k
  · cases o with
    | setPending vector nmi => exact served.nested
    | queue info => exact served.nested
    | setIntl intl => exact served.nested
    | eoi => exact served.nested.sublist (List.tail_sublist _)

theorem Served.deliver (served : Served s) (covered : Covered s) : Served (s.deliver w) := by
  obtain ⟨visr, _, _, words⟩ := venterDeliver_spec (w := w) s.ctx
  have found : (s.words w).findSome? externalOf =
      (Vportal.inject s.ctx.queue s.ctx.visr s.ctx.vmcs).external :=
    (congrArg (List.findSome? externalOf) words).trans (findSome_words covered.queue _)
  have inIntl : (s.deliver w).ctx.visr.inIntl =
      ((Vportal.inject s.ctx.queue s.ctx.visr s.ctx.vmcs).delivery s.ctx.visr).inIntl :=
    congrArg VisrPending.inIntl visr
  cases external : (Vportal.inject s.ctx.queue s.ctx.visr s.ctx.vmcs).external with
  | none =>
      rw [external] at found
      have service : (s.deliver w).service = s.service := by simp only [State.deliver, found]
      have same : (s.deliver w).ctx.visr.inIntl = s.ctx.visr.inIntl := by
        rw [inIntl]
        simp only [Injection.delivery, venterDelivery, external]
      refine ⟨fun k => ?_, ?_, fun vector given => ?_⟩
      · rw [same, service]
        exact served.inService k
      · rw [service]
        exact served.nested
      · cases found.symm.trans given
  | some top =>
      rw [external] at found
      have service : (s.deliver w).service = vectorToIntl top :: s.service := by
        simp only [State.deliver, found]
      have serves : (s.deliver w).ctx.visr.inIntl =
          s.ctx.visr.inIntl ||| (1#16 <<< vectorToIntl top) := by
        rw [inIntl]
        simp only [Injection.delivery, venterDelivery, external]
      have may := (inject_external _ _ _ external).2.1
      refine ⟨fun k => ?_, ?_, fun vector given => ?_⟩
      · rw [serves, service, getLsbD_serve, Bool.or_eq_true, decide_eq_true_eq, List.mem_cons,
          served.inService k, or_comm]
      · rw [service]
        refine List.pairwise_cons.mpr ⟨fun k inside => ?_, served.nested⟩
        exact may.1 k ((served.inService k).mpr inside)
      · cases found.symm.trans given
        exact ⟨rfl, by rw [service]; rfl⟩

/-- The exits of the run leave the delivery of the external interrupt of their entry alone. -/
def uncut (s : State) : Action → Prop
  | .exit info _ => cutsShort s.given info = false
  | _ => True

theorem Served.step {t : State} {a : Action} (served : Served s) (covered : Covered s)
    (whole : uncut s a) (moved : Delivery.step w s a = some t) : Served t := by
  have kept : ∀ t : State, t.ctx.visr.inIntl = s.ctx.visr.inIntl → t.service = s.service →
      (t.given = none ∨ (t.given = s.given ∧ (t.place = s.place ∨ s.place = .host))) →
      Served t := by
    intro t inIntl service given
    refine ⟨fun k => ?_, ?_, fun vector found => ?_⟩
    · rw [inIntl, service]
      exact served.inService k
    · rw [service]
      exact served.nested
    · rcases given with none | ⟨same, place⟩
      · rw [none] at found
        cases found
      · obtain ⟨guest, head⟩ := served.given vector (same ▸ found)
        rcases place with place | place
        · exact ⟨place.trans guest, by rw [service]; exact head⟩
        · cases place.symm.trans guest
  cases a with
  | own o =>
      obtain ⟨here, ⟨⟩⟩ := Option.ite_none_right_eq_some.mp moved
      exact served.own here o
  | requeue =>
      simp only [Delivery.step] at moved
      split at moved
      · obtain ⟨here, ⟨⟩⟩ := Option.ite_none_right_eq_some.mp moved
        obtain ⟨inService, nested, given⟩ := served.own (w := w) here (.queue _)
        exact ⟨inService, nested, given⟩
      · cases moved
  | elsewhere new =>
      obtain ⟨_, ⟨⟩⟩ := Option.ite_none_left_eq_some.mp moved
      exact kept _ rfl rfl (.inr ⟨rfl, .inl rfl⟩)
  | inject vector nmi =>
      cases moved
      exact kept _ (setInterruptPending_flags _ _ _).1 rfl (.inr ⟨rfl, .inl rfl⟩)
  | enter =>
      obtain ⟨⟨here, _⟩, ⟨⟩⟩ := Option.ite_none_right_eq_some.mp moved
      exact kept _ rfl rfl (.inr ⟨rfl, .inr here⟩)
  | deliver =>
      obtain ⟨_, ⟨⟩⟩ := Option.ite_none_right_eq_some.mp moved
      exact served.deliver covered
  | exit info new =>
      obtain ⟨_, ⟨⟩⟩ := Option.ite_none_right_eq_some.mp moved
      have whole' : cutsShort s.given info = false := whole
      have service : (s.exit info new).service = s.service := by simp [State.exit, whole']
      exact kept _ rfl service (.inl rfl)

/-- An interrupt that is cut short stays in service. -/
theorem Served.cut (served : Served s) {info : VectoredEventsInfo} {new : Ctx}
    (cut : cutsShort s.given info = true) : ¬InService (s.exit info new) := by
  intro inService
  obtain ⟨_, _, given⟩ : info.valid = true ∧ info.vectoredEventType = .external ∧
      s.given = some info.vector := by
    simpa [cutsShort] using cut
  obtain ⟨rest, service⟩ : ∃ rest, s.service = vectorToIntl info.vector :: rest := by
    have head := (served.given info.vector given).2
    cases list : s.service with
    | nil => rw [list] at head; cases head
    | cons first rest =>
        rw [list] at head
        cases head
        exact ⟨rest, rfl⟩
  have set : s.ctx.visr.inIntl.getLsbD (vectorToIntl info.vector) = true := by
    rw [served.inService, service]
    exact List.mem_cons_self
  have inside := (inService (vectorToIntl info.vector)).mp set
  have left : (s.exit info new).service = rest := by simp [State.exit, cut, service]
  rw [left] at inside
  have nested := served.nested
  rw [service] at nested
  exact lt_irrefl _ ((List.pairwise_cons.mp nested).1 _ inside)

/-- If the levels are right after every part of the run, no exit of it has cut a delivery short. -/
theorem uncut_of_inService {t : State} {run : List Action} (served : Served s) (covered : Covered s)
    (ran : exec (Delivery.step w) s run = some t)
    (right : ∀ first last u, run = first ++ last → exec (Delivery.step w) s first = some u →
      InService u) : Along uncut (Delivery.step w) s run := by
  induction run generalizing s with
  | nil => trivial
  | cons a run ih =>
      obtain ⟨u, moved, rest⟩ := exec_cons ran
      have one : exec (Delivery.step w) s [a] = some u := by rw [exec, moved]; rfl
      have whole : uncut s a := by
        cases a with
        | exit info new =>
            obtain ⟨_, ⟨⟩⟩ := Option.ite_none_right_eq_some.mp moved
            cases cut : cutsShort s.given info with
            | false => exact cut
            | true => exact absurd (right [.exit info new] run _ rfl one) (served.cut cut)
        | _ => trivial
      refine .cons whole moved (ih (served.step covered whole moved) (covered.step moved) rest ?_)
      intro first last v split ranOn
      refine right (a :: first) last v (by rw [split]; rfl) ?_
      rw [exec, moved]
      exact ranOn

/-- **In-service levels** -- after every part of a run `in_intl` holds the levels of the external
interrupts that the guest has been given and has not ended, exactly when no exit of the run cuts
the delivery of the external interrupt of its entry short. -/
theorem in_service_levels (w : World) {s t : State} {run : List Action} (boot : Boot s)
    (ran : exec (Delivery.step w) s run = some t) :
    (∀ first last u, run = first ++ last → exec (Delivery.step w) s first = some u →
      InService u) ↔ Along uncut (Delivery.step w) s run := by
  refine ⟨uncut_of_inService boot.served boot.covered ran, fun whole first last u split ranFirst => ?_⟩
  rw [split] at whole
  obtain ⟨front, _⟩ := whole.split ranFirst
  have both : Served u ∧ Covered u := by
    refine exec_invariant_along (I := fun s => Served s ∧ Covered s)
      (fun _ _ _ before allowed moved => ?_) ⟨boot.served, boot.covered⟩ front ranFirst
    exact ⟨before.1.step before.2 allowed moved, before.2.step moved⟩
  exact both.1.inService

end Served

/-! ## Runs of one vcpu -/

/-- A vcpu with nothing pending, whose guest has interrupts enabled. -/
def sampleVcpu : State where
  place := .host
  ctx := (sampleExit (sampleVmcs 0 0 0) fun _ => 0).ctx
  vectoring := none
  ipi := false
  given := none
  service := []

def sampleWorld : World := (sampleExit (sampleVmcs 0 0 0) fun _ => 0).world

theorem boot_sampleVcpu : Boot sampleVcpu where
  place := Place.noConfusion
  inIntl := rfl
  nmiPending := rfl
  intWindowExit := rfl
  nmiWindowExit := rfl
  pending := rfl
  queue := rfl
  vectoring := rfl
  given := rfl
  service := rfl

/-- Another CPU injects vector 0x40 into a guest that runs: the IPI is sent. -/
def remoteRun : List Action := [.enter, .deliver, .inject 0x40 false]

theorem no_stuck_interrupt_remote : Boot sampleVcpu ∧
    ∃ t, exec (step sampleWorld) sampleVcpu remoteRun = some t ∧ t.place = .guest ∧
      t.ctx.visr.pendingExternalInterrupts.test 0x40 = true ∧ Deliverable t.ctx.visr 0x40 ∧
      (t.intWindow = true ∨ t.nmiWindow = true ∨ t.ipi = true) := by
  have ran : ∃ t, exec (step sampleWorld) sampleVcpu remoteRun = some t ∧ t.place = .guest ∧
      t.ctx.visr.pendingExternalInterrupts.test 0x40 = true ∧
      t.ctx.visr.deliverable 0x40 = true := ⟨_, rfl, rfl, rfl, rfl⟩
  obtain ⟨t, ran, here, pending, may⟩ := ran
  have may' := (deliverable_iff _ _).mp may
  have covers := no_stuck_interrupt sampleWorld boot_sampleVcpu ran
  exact ⟨boot_sampleVcpu, t, ran, here, pending, may', (covers.1 here).2 0x40 pending may'⟩

/-- The event information of vector 0x40. -/
def interrupted : VectoredEventsInfo := .ofVal 0x80000040

/-- Vector 0x40 is injected and ended. -/
def servedRun : List Action := [.own (.setPending 0x40 false), .enter, .deliver,
  .exit (.ofVal 0) sampleVcpu.ctx, .own .eoi]

theorem in_service_levels_served : Boot sampleVcpu ∧
    ∃ t, exec (step sampleWorld) sampleVcpu servedRun = some t ∧
      Along uncut (step sampleWorld) sampleVcpu servedRun ∧
      ∀ first last u, servedRun = first ++ last →
        exec (step sampleWorld) sampleVcpu first = some u → InService u := by
  have ran : ∃ t, exec (step sampleWorld) sampleVcpu servedRun = some t := ⟨_, rfl⟩
  obtain ⟨t, ran⟩ := ran
  have whole : Along uncut (step sampleWorld) sampleVcpu servedRun := by
    refine Along.of_forall fun a inside s => ?_
    simp only [servedRun, List.mem_cons, List.not_mem_nil, or_false] at inside
    rcases inside with rfl | rfl | rfl | rfl | rfl <;> trivial
  exact ⟨boot_sampleVcpu, t, ran, whole, (in_service_levels sampleWorld boot_sampleVcpu ran).mpr whole⟩

/-- Vector 0x40 is injected, the exit interrupts its delivery, and it is made pending again. -/
def cutShortRun : List Action := [.own (.setPending 0x40 false), .enter, .deliver,
  .exit interrupted sampleVcpu.ctx, .requeue]

/-- An interrupt that is cut short stays in service, and blocks itself at the next entry. -/
theorem cut_short_in_service : Boot sampleVcpu ∧
    ∃ t, exec (step sampleWorld) sampleVcpu cutShortRun = some t ∧ t.service = [] ∧
      t.ctx.visr.inIntl.getLsbD (vectorToIntl 0x40) = true ∧ ¬InService t ∧
      t.ctx.visr.pendingExternalInterrupts.test 0x40 = true ∧
      t.ctx.visr.intl = sampleVcpu.ctx.visr.intl ∧ t.ctx.vmcs .guestRflags = 0x202 ∧
      ¬Deliverable t.ctx.visr 0x40 ∧ t.words sampleWorld = [] := by
  have ran : ∃ t, exec (step sampleWorld) sampleVcpu cutShortRun = some t ∧ t.service = [] ∧
      t.ctx.visr.inIntl.getLsbD (vectorToIntl 0x40) = true ∧
      t.ctx.visr.pendingExternalInterrupts.test 0x40 = true ∧
      t.ctx.visr.intl = sampleVcpu.ctx.visr.intl ∧ t.ctx.vmcs .guestRflags = 0x202 ∧
      t.ctx.visr.deliverable 0x40 = false ∧ t.words sampleWorld = [] :=
    ⟨_, rfl, rfl, rfl, rfl, rfl, rfl, rfl, rfl⟩
  obtain ⟨t, ran, service, set, pending, intl, flags, blocked, words⟩ := ran
  refine ⟨boot_sampleVcpu, t, ran, service, set, fun right => ?_, pending, intl, flags, ?_, words⟩
  · have inside := (right _).mp set
    rw [service] at inside
    cases inside
  · rw [← deliverable_iff, blocked]
    exact Bool.false_ne_true

end Twan.Visr.Delivery
