/-
# Twan.Vportal.Faults -- the events and the advance that an exit queues

What each exit handler leaves in the operation queue, as a function of what the exit finds:
`raises` is the event a handler queues and `advances` whether it queues an advance of the
instruction pointer.  `body_yields` is the specification of all handlers against these two.
-/
import Twan.Base.Run
import Twan.Vportal.Vexit

namespace Twan.Vportal

set_option autoImplicit false

open Twan.Base Twan.Base.Prog Twan.Lib Twan.Vemulate

/-! ## What an exit finds -/

/-- `vis_guest_cpl0` on the contents of the VMCS. -/
def guestCpl0 (vmcs : VmcsField → BitVec 64) : Option VopMode :=
  let rights := (vmcs .guestCsAccessRights).setWidth 32
  if !(vmcs .guestCr0).getLsbD 0 then some .op16Bit
  else if rights.extractLsb' 5 2 ≠ 0#2 then none
  else if (vmcs .guestIa32Efer).getLsbD 10 then
    some (if rights.getLsbD 13 then .op64Bit
      else if rights.getLsbD 14 then .op32Bit else .op16Bit)
  else if (vmcs .guestRflags).getLsbD 17 then none
  else some (if rights.getLsbD 14 then .op32Bit else .op16Bit)

/-- The types of event that `vqueue_idt_vectoring_info` puts in the operation queue. -/
def queues : InterruptType → Bool
  | .external | .reserved | .nmi => false
  | _ => true

/-- `vgpr_val` on the contents of the VMCS. -/
def operand (vmcs : VmcsField → BitVec 64) (vregs : Vregs) (gpr : Fin 16) : BitVec 64 :=
  if gpr = 4 then vmcs .guestRsp else vregs.gpr gpr

/-- The value may be moved to the control register. -/
def crValid (site : Site) (val : BitVec 64) (cr : ℕ) : Bool :=
  if cr = 0 then cr0Valid val
  else if cr = 4 then cr4Valid site.features (withVmxe val)
  else if cr = 8 then cr8Valid val
  else true

/-- The same, for the move that the exit qualification describes. -/
def crAccepted (site : Site) (vregs : Vregs) (vmcs : VmcsField → BitVec 64) : Bool :=
  let qual := (vmcs .roExitQualification).setWidth 32
  crValid site (operand vmcs vregs (gprOf qual)) (crOf qual)

/-- The MSR may be read: it is one of the virtual ones that are there, or root reads one that
is not blocked and that the processor has. -/
def rdmsrAccepted (site : Site) (vregs : Vregs) (w : World) : Bool :=
  let msr := arg32 vregs.rcx
  if msr = ia32ArchCapabilities then true
  else match virtualMsr site msr with
    | some (there, _) => there
    | none => w.root && !visMsrBlocked msr && (w.rdmsrShielded msr).isSome

/-- The MSR may be written with EDX:EAX. -/
def wrmsrAccepted (site : Site) (vregs : Vregs) (w : World) : Bool :=
  let msr := arg32 vregs.rcx
  let eax := arg32 vregs.rax
  let edx := arg32 vregs.rdx
  match virtualMsrWrite site msr eax edx with
  | some taken => taken
  | none => w.root && !visMsrBlocked msr &&
      !w.wrmsrShielded msr ((edx.setWidth 64 <<< 32) ||| eax.setWidth 64)

/-- The event of an exception exit: a debug exception under the type it came with, or an
alignment check. -/
def exceptionRaises (vmcs : VmcsField → BitVec 64) : Option VectoredEventsInfo :=
  let info := VectoredEventsInfo.ofVal ((vmcs .roVmexitInterruptInfo).setWidth 32)
  if info.vector = debugException then
    if queues info.vectoredEventType then
      some (syntheticInfo debugException info.vectoredEventType)
    else none
  else if info.vector = alignmentCheck then
    some (syntheticInfo alignmentCheck .hardwareException)
  else none

/-- #GP(0) and #UD as they are queued. -/
def gp0 : VectoredEventsInfo := syntheticInfo generalProtectionFault .hardwareException
def ud : VectoredEventsInfo := syntheticInfo invalidOpcode .hardwareException

/-- #GP(0), unless the guest may do what it tried. -/
def gp0Unless (ok : Bool) : Option VectoredEventsInfo := if ok then none else some gp0

/-- The event that a handler queues. -/
def raises (site : Site) (vregs : Vregs) (w : World) (vmcs : VmcsField → BitVec 64) :
    VexitFunc → Option VectoredEventsInfo
  | .vexitException => exceptionRaises vmcs
  | .vexitGp0 => some gp0
  | .vexitUd => some ud
  | .vexitVmcall => gp0Unless (guestCpl0 vmcs).isSome
  | .vexitCrAccess => gp0Unless (crAccepted site vregs vmcs)
  | .vexitRdmsr => gp0Unless (rdmsrAccepted site vregs w)
  | .vexitWrmsr => gp0Unless (wrmsrAccepted site vregs w)
  | _ => none

/-- The handler queues an advance.  `VMCALL` does in every case. -/
def advances (site : Site) (vregs : Vregs) (w : World) (vmcs : VmcsField → BitVec 64) :
    VexitFunc → Bool
  | .vexitNopAdvance | .vexitCpuid | .vexitVmcall => true
  | .vexitCrAccess => crAccepted site vregs vmcs
  | .vexitRdmsr => rdmsrAccepted site vregs w
  | .vexitWrmsr => wrmsrAccepted site vregs w
  | _ => false

/-! ## What the handlers leave -/

/-- From `s` to `t` exactly `event` has been queued, and an advance if `advance` says so; the
assertion that no event was queued before has failed if one was. -/
structure Queues (event : Option VectoredEventsInfo) (advance : Bool) (s t : Ctx) : Prop where
  vectoring : t.queue.idtVectoring = (s.queue.idtVectoring || event.isSome)
  info : ∀ i, event = some i → t.queue.idtVectoringInfo = i
  advance : t.queue.shouldAdvance = (s.queue.shouldAdvance || advance)
  failed : .eventQueued ∈ t.failed ↔
    .eventQueued ∈ s.failed ∨ (s.queue.idtVectoring = true ∧ event.isSome = true)

variable {w : World} {site : Site} {vregs : Vregs} {s t u : Ctx}

/-- From `s` to `t` no event and no advance is queued. -/
structure Quiet (s t : Ctx) : Prop where
  vectoring : t.queue.idtVectoring = s.queue.idtVectoring
  advance : t.queue.shouldAdvance = s.queue.shouldAdvance
  failed : .eventQueued ∈ t.failed ↔ .eventQueued ∈ s.failed

theorem Quiet.rfl : Quiet s s := ⟨.refl _, .refl _, Iff.rfl⟩

theorem Quiet.queues (quiet : Quiet s t) : Queues none false s t where
  vectoring := by simpa using quiet.vectoring
  info := by simp
  advance := by simpa using quiet.advance
  failed := by simpa using quiet.failed

theorem Quiet.before {event : Option VectoredEventsInfo} {advance : Bool} (quiet : Quiet s t)
    (rest : Queues event advance t u) : Queues event advance s u where
  vectoring := by rw [rest.vectoring, quiet.vectoring]
  info := rest.info
  advance := by rw [rest.advance, quiet.advance]
  failed := by rw [rest.failed, quiet.failed, quiet.vectoring]

/-- An advance is queued after what was queued on the way from `s` to `t`. -/
theorem Queues.advanceAfter {event : Option VectoredEventsInfo} {advance : Bool}
    (first : Queues event advance s t) :
    Queues event true s { t with queue := { t.queue with shouldAdvance := true } } where
  vectoring := first.vectoring
  info := first.info
  advance := by simp
  failed := first.failed

/-- The program returns and queues exactly this. -/
def Yields (w : World) (p : Handler Unit) (s : Ctx) (event : Option VectoredEventsInfo)
    (advance : Bool) : Prop :=
  ∃ t, run (answer w) p s = (some (), t) ∧ Queues event advance s t

theorem yields_advance : Yields w vqueueAdvanceGuest s none true :=
  ⟨_, rfl, Quiet.rfl.queues.advanceAfter⟩

/-- An event that goes into the queue. -/
theorem yields_event {info : VectoredEventsInfo} (type : queues info.vectoredEventType = true) :
    Yields w (vqueueIdtVectoringInfo info) s (some info) false := by
  have ran : run (answer w) (vqueueIdtVectoringInfo info) s =
      (some (), { s with
        failed := if !s.queue.idtVectoring then s.failed else .eventQueued :: s.failed
        queue := { s.queue with idtVectoring := true, idtVectoringInfo := info } }) := by
    unfold vqueueIdtVectoringInfo
    cases kind : info.vectoredEventType <;> rw [kind] at type <;>
      first | rfl | simp [queues] at type
  refine ⟨_, ran, ?_⟩
  cases here : s.queue.idtVectoring <;> constructor <;> simp [here]

theorem yields_setPending (vector : Fin 256) (nmi : Bool) :
    Yields w (vemuSetInterruptPending vector nmi) s none false := by
  unfold vemuSetInterruptPending
  split
  · exact ⟨_, rfl, Quiet.queues ⟨rfl, rfl, Iff.rfl⟩⟩
  · exact ⟨_, rfl, Quiet.queues ⟨rfl, rfl, Iff.rfl⟩⟩

/-- An event that is made pending instead, or that the source asserts away. -/
theorem yields_pending {info : VectoredEventsInfo} (type : queues info.vectoredEventType = false) :
    Yields w (vqueueIdtVectoringInfo info) s none false := by
  unfold vqueueIdtVectoringInfo
  cases kind : info.vectoredEventType <;> rw [kind] at type <;> try (simp [queues] at type; done)
  case external => exact yields_setPending _ _
  case nmi => exact yields_setPending _ _
  case reserved => exact ⟨_, rfl, Quiet.queues ⟨rfl, rfl, by simp [answer]⟩⟩

/-- The synthetic error code is no event of its own. -/
theorem Yields.errcode {p : Handler Unit} {event : Option VectoredEventsInfo}
    (first : Yields w p s event false) :
    Yields w (p >>= fun _ => vqueueSyntheticErrcode 0) s event false := by
  obtain ⟨t, ran, queued⟩ := first
  refine ⟨_, by rw [run_bind, ran]; rfl, ?_⟩
  exact { vectoring := queued.vectoring, info := queued.info, advance := queued.advance
          failed := queued.failed }

theorem yields_gp0 : Yields w vqueueInjectGp0 s (some gp0) false := (yields_event rfl).errcode

theorem yields_ud : Yields w vqueueInjectUd s (some ud) false := yields_event rfl

theorem yields_ac0 :
    Yields w vqueueInjectAc0 s (some (syntheticInfo alignmentCheck .hardwareException)) false :=
  (yields_event rfl).errcode

theorem yields_db (type : InterruptType) : Yields w (vqueueInjectDb type) s
    (if queues type then some (syntheticInfo debugException type) else none) false := by
  by_cases kind : queues type = true
  · rw [if_pos kind]
    exact yields_event kind
  · rw [if_neg kind]
    exact yields_pending (Bool.eq_false_iff.mpr kind)

/-- A first part that queues nothing. -/
theorem Yields.after {α : Type} {p : Handler α} {f : α → Handler Unit} {a : α}
    {event : Option VectoredEventsInfo} {advance : Bool} (ran : run (answer w) p s = (some a, t))
    (quiet : Quiet s t) (rest : Yields w (f a) t event advance) :
    Yields w (p >>= f) s event advance := by
  obtain ⟨u, after, queued⟩ := rest
  refine ⟨u, ?_, quiet.before queued⟩
  rw [run_bind, ran]
  exact after

/-- A last part that queues nothing. -/
theorem Yields.andThen {p q : Handler Unit} {event : Option VectoredEventsInfo} {advance : Bool}
    (first : Yields w p s event advance)
    (rest : ∀ t, ∃ u, run (answer w) q t = (some (), u) ∧ u.queue = t.queue ∧
      u.failed = t.failed) :
    Yields w (p >>= fun _ => q) s event advance := by
  obtain ⟨t, ran, queued⟩ := first
  obtain ⟨u, after, queue, failed⟩ := rest t
  refine ⟨u, by rw [run_bind, ran]; exact after, ?_⟩
  exact { vectoring := by rw [queue]; exact queued.vectoring
          info := by rw [queue]; exact queued.info
          advance := by rw [queue]; exact queued.advance
          failed := by rw [failed]; exact queued.failed }

/-- An assertion of another kind is no concern of the queue. -/
theorem Yields.assert {which : Assertion} {cond : Bool} {f : Unit → Handler Unit}
    {event : Option VectoredEventsInfo} {advance : Bool} (other : which ≠ .eventQueued)
    (rest : ∀ failed, Yields w (f ()) { s with failed := failed } event advance) :
    Yields w (Vemulate.assert which cond >>= f) s event advance := by
  have ran : run (answer w) (Vemulate.assert which cond) s =
      (some (), { s with failed := if cond then s.failed else which :: s.failed }) := rfl
  refine .after ran ⟨rfl, rfl, ?_⟩ (rest _)
  cases cond <;> simp [other.symm]

theorem run_vmread32 (field : VmcsField) (s : Ctx) :
    run (answer w) (vmread32 field) s = (some ((s.vmcs field).setWidth 32), s) := rfl

theorem run_enable (s : Ctx) : run (answer w) enablePreemption s =
    (some (), { s with preemptionCount := s.preemptionCount - 1 }) := rfl

theorem yields_nop : Yields w enablePreemption s none false := ⟨_, rfl, Quiet.queues ⟨rfl, rfl, Iff.rfl⟩⟩

theorem run_visGuestCpl0 (s : Ctx) :
    run (answer w) visGuestCpl0 s = (some (guestCpl0 s.vmcs), s) := by
  simp only [visGuestCpl0, guestCpl0, vmread, vmread32, Op.perform, run_bind, run_perform, answer,
    run_ite, pure_eq, run_ret]
  split_ifs <;> rfl

theorem run_nmiUnblocking (info : VectoredEventsInfo) (s : Ctx) :
    ∃ t, run (answer w) (nmiUnblocking info) s = (some (), t) ∧ Quiet s t := by
  unfold nmiUnblocking onlyIf
  split
  · exact ⟨_, rfl, rfl, rfl, Iff.rfl⟩
  · exact ⟨_, rfl, .rfl⟩

/-! ## The handlers -/

theorem yields_exception (s : Ctx) :
    Yields w vexitException s (exceptionRaises s.vmcs) false := by
  have enables : ∀ t : Ctx, ∃ u, run (answer w) enablePreemption t = (some (), u) ∧
      u.queue = t.queue ∧ u.failed = t.failed := fun t => ⟨_, rfl, rfl, rfl⟩
  unfold vexitException exceptionRaises
  refine .after (run_vmread32 _ _) ⟨rfl, rfl, Iff.rfl⟩ ?_
  dsimp only
  generalize VectoredEventsInfo.ofVal ((s.vmcs .roVmexitInterruptInfo).setWidth 32) = info
  refine .assert (by decide) fun failed => ?_
  obtain ⟨t, ran, quiet⟩ := run_nmiUnblocking (w := w) info { s with failed := failed }
  refine .after ran quiet ?_
  split
  · exact (yields_db info.vectoredEventType).andThen enables
  · split
    · refine .assert (by decide) fun failed => .after rfl ⟨rfl, rfl, Iff.rfl⟩ ?_
      exact .assert (by decide) fun failed => yields_ac0.andThen enables
    · exact .assert (by decide) fun failed => yields_nop

theorem yields_extIntr (s : Ctx) : Yields w vexitExtIntr s none false := by
  unfold vexitExtIntr
  refine .after (run_vmread32 _ _) ⟨rfl, rfl, Iff.rfl⟩ ?_
  dsimp only
  generalize VectoredEventsInfo.ofVal ((s.vmcs .roVmexitInterruptInfo).setWidth 32) = info
  refine .assert (by decide) fun failed => .assert (by decide) fun failed => ?_
  obtain ⟨t, ran, quiet⟩ := run_nmiUnblocking (w := w) info { s with failed := failed }
  exact .after ran quiet (.after rfl ⟨rfl, rfl, Iff.rfl⟩ yields_nop)

theorem yields_cpuid (s : Ctx) : Yields w (vexitCpuid site vregs) s none true := by
  unfold vexitCpuid
  refine .after rfl ⟨rfl, rfl, Iff.rfl⟩ ?_
  dsimp only
  split
  · exact .after rfl ⟨rfl, rfl, Iff.rfl⟩ yields_advance
  · exact .after rfl ⟨rfl, rfl, Iff.rfl⟩ (.after rfl ⟨rfl, rfl, Iff.rfl⟩ yields_advance)

/-- A check that ends in an advance or in #GP(0). -/
theorem yields_checked {taken : Handler Unit} (ok : Bool) (advance : Yields w taken s none true) :
    Yields w (if ok then taken else vqueueInjectGp0) s (gp0Unless ok) ok := by
  cases ok with
  | false => exact yields_gp0
  | true => exact advance

theorem run_vgprVal (gpr : Fin 16) (s : Ctx) :
    run (answer w) (vgprVal vregs gpr) s = (some (operand s.vmcs vregs gpr), s) := by
  unfold vgprVal operand
  split <;> rfl

theorem yields_crMove (val : BitVec 64) (cr : ℕ) : Yields w (crMove site val cr) s
    (gp0Unless (crValid site val cr)) (crValid site val cr) := by
  unfold crMove crValid
  by_cases cr0 : cr = 0
  · simp only [cr0, if_true]
    exact yields_checked _ (.after rfl ⟨rfl, rfl, Iff.rfl⟩ yields_advance)
  simp only [cr0, if_false]
  by_cases cr4 : cr = 4
  · simp only [cr4, if_true]
    exact yields_checked _ (.after rfl ⟨rfl, rfl, Iff.rfl⟩ yields_advance)
  simp only [cr4, if_false]
  by_cases cr8 : cr = 8
  · simp only [cr8, if_true]
    refine yields_checked _ (.after rfl ⟨rfl, rfl, Iff.rfl⟩ ?_)
    exact .after rfl ⟨rfl, rfl, Iff.rfl⟩ yields_advance
  · simp only [cr8, if_false]
    exact .assert (by decide) fun failed => yields_advance

theorem yields_crAccess (s : Ctx) : Yields w (vexitCrAccess site vregs) s
    (gp0Unless (crAccepted site vregs s.vmcs)) (crAccepted site vregs s.vmcs) := by
  unfold vexitCrAccess crAccepted
  refine .after (run_vmread32 _ _) .rfl (.after (run_enable _) ⟨rfl, rfl, Iff.rfl⟩ ?_)
  exact .after (run_vgprVal _ _) .rfl (yields_crMove _ _)

theorem yields_rdmsr (s : Ctx) : Yields w (vexitRdmsr site vregs) s
    (gp0Unless (rdmsrAccepted site vregs w)) (rdmsrAccepted site vregs w) := by
  unfold vexitRdmsr rdmsrSwitch rdmsrAccepted
  refine .after (run_enable _) ⟨rfl, rfl, Iff.rfl⟩ (.after rfl ⟨rfl, rfl, Iff.rfl⟩ ?_)
  dsimp only [answer]
  generalize arg32 vregs.rcx = msr
  by_cases arch : msr = ia32ArchCapabilities
  · simp only [arch, if_true]
    exact .after rfl .rfl (.after rfl ⟨rfl, rfl, Iff.rfl⟩ yields_advance)
  simp only [arch, if_false]
  cases virtualMsr site msr with
  | some entry =>
      obtain ⟨there, val⟩ := entry
      cases there with
      | false => exact yields_gp0
      | true => exact .after rfl ⟨rfl, rfl, Iff.rfl⟩ yields_advance
  | none =>
      cases w.root <;> cases visMsrBlocked msr <;> try exact yields_gp0
      refine .after rfl .rfl ?_
      dsimp only [answer]
      cases w.rdmsrShielded msr with
      | none => exact yields_gp0
      | some val => exact .after rfl ⟨rfl, rfl, Iff.rfl⟩ yields_advance

theorem yields_wrmsr (s : Ctx) : Yields w (vexitWrmsr site vregs) s
    (gp0Unless (wrmsrAccepted site vregs w)) (wrmsrAccepted site vregs w) := by
  unfold vexitWrmsr wrmsrSwitch wrmsrAccepted
  refine .after (run_enable _) ⟨rfl, rfl, Iff.rfl⟩ (.after rfl ⟨rfl, rfl, Iff.rfl⟩ ?_)
  dsimp only [answer]
  cases virtualMsrWrite site (arg32 vregs.rcx) (arg32 vregs.rax) (arg32 vregs.rdx) with
  | some taken =>
      cases taken with
      | false => exact yields_gp0
      | true => exact yields_advance
  | none =>
      cases w.root <;> cases visMsrBlocked (arg32 vregs.rcx) <;> try exact yields_gp0
      refine .after rfl .rfl ?_
      dsimp only [answer]
      cases w.wrmsrShielded (arg32 vregs.rcx) _ with
      | false => exact yields_advance
      | true => exact yields_gp0

theorem answer_offQueue {e : Op} (off : offQueue e) (x : Ctx) :
    (answer w e x).2.queue = x.queue ∧ (answer w e x).2.failed = x.failed := by
  cases e <;> first | exact ⟨rfl, rfl⟩ | exact off.elim

/-- A vcall returns and queues nothing. -/
theorem run_vcallById (site : Site) (vregs : Vregs) (s : Ctx) :
    ∃ ret t, run (answer w) (vcallById site vregs) s = (some ret, t) ∧ Quiet s t := by
  unfold vcallById
  cases vcallTable[vregs.rax.toNat]? with
  | none => exact ⟨_, _, rfl, rfl, rfl, Iff.rfl⟩
  | some vcall =>
      have obeys := vcall_obeys site vregs vcall (p := .handler) rfl rfl
      obtain ⟨ret, t, ran⟩ := obeys.returns (x := s) (fun _ stops => stops)
        (fun e x p => trivial)
      refine ⟨ret, t, ran, ?_⟩
      have kept := obeys.run (I := Quiet s) (x := s) (fun e x p => trivial)
        (fun e x p allowed quiet => by
          obtain ⟨queue, failed⟩ := answer_offQueue (w := w) allowed.1.1 x
          exact ⟨by rw [queue, quiet.vectoring], by rw [queue, quiet.advance],
            by rw [failed, quiet.failed]⟩) .rfl
      rw [ran] at kept
      exact kept

theorem yields_vcallDispatcher (site : Site) (vregs : Vregs) (s : Ctx) :
    Yields w (vcallDispatcher site vregs) s (gp0Unless (guestCpl0 s.vmcs).isSome) false := by
  unfold vcallDispatcher
  refine .after (run_visGuestCpl0 s) .rfl ?_
  cases guestCpl0 s.vmcs with
  | none => exact .after (run_enable s) ⟨rfl, rfl, Iff.rfl⟩ yields_gp0
  | some mode =>
      obtain ⟨ret, t, ran, quiet⟩ := run_vcallById (w := w) site vregs s
      exact .after ran quiet ⟨_, rfl, Quiet.queues ⟨rfl, rfl, Iff.rfl⟩⟩

/-- `VMCALL` queues an advance on both paths. -/
theorem yields_vmcall (s : Ctx) :
    Yields w (vexitVmcall site vregs) s (gp0Unless (guestCpl0 s.vmcs).isSome) true := by
  obtain ⟨t, ran, queued⟩ := yields_vcallDispatcher (w := w) site vregs s
  refine ⟨{ t with queue := { t.queue with shouldAdvance := true } }, ?_, queued.advanceAfter⟩
  rw [vexitVmcall, run_bind, ran]
  rfl

theorem run_reloadPreemptionTimer (chain : List (ℕ × BitVec 64)) (s : Ctx) :
    ∃ t, run (answer w) (reloadPreemptionTimer chain) s = (some (), t) ∧ Quiet s t := by
  cases chain with
  | nil => exact ⟨_, rfl, rfl, rfl, Iff.rfl⟩
  | cons front rest => exact ⟨_, rfl, rfl, rfl, Iff.rfl⟩

theorem yields_vmxPreempt {n : ℕ} {delta : BitVec 64} {rest : List (ℕ × BitVec 64)}
    (chain : s.timers.chain = (n, delta) :: rest) : Yields w vexitVmxPreempt s none false := by
  have read : run (answer w) (Op.perform .timers) s = (some s.timers, s) := rfl
  unfold vexitVmxPreempt
  refine .after read .rfl ?_
  rw [chain]
  refine .after rfl ⟨rfl, rfl, Iff.rfl⟩ ?_
  obtain ⟨t, ran, quiet⟩ := run_reloadPreemptionTimer (w := w) _ _
  exact .after ran quiet (.after (run_enable t) ⟨rfl, rfl, Iff.rfl⟩ (yields_setPending _ _))

/-- The handler returns, or queues nothing and never comes back. -/
theorem body_yields (site : Site) (vregs : Vregs) (func : VexitFunc) (s : Ctx) :
    Yields w (func.body site vregs) s (raises site vregs w s.vmcs func)
        (advances site vregs w s.vmcs func) ∨
      (raises site vregs w s.vmcs func = none ∧ advances site vregs w s.vmcs func = false ∧
        ∃ t, run (answer w) (func.body site vregs) s = (none, t) ∧ Quiet s t) := by
  cases func with
  | vexitException => exact .inl (yields_exception s)
  | vexitExtIntr => exact .inl (yields_extIntr s)
  | vexitFailureRecover => exact .inr ⟨rfl, rfl, _, rfl, rfl, rfl, Iff.rfl⟩
  | vexitNop => exact .inl yields_nop
  | vexitGp0 => exact .inl (.after (run_enable s) ⟨rfl, rfl, Iff.rfl⟩ yields_gp0)
  | vexitCpuid => exact .inl (yields_cpuid s)
  | vexitUd => exact .inl (.after (run_enable s) ⟨rfl, rfl, Iff.rfl⟩ yields_ud)
  | vexitNopAdvance => exact .inl (.after (run_enable s) ⟨rfl, rfl, Iff.rfl⟩ yields_advance)
  | vexitVmcall => exact .inl (yields_vmcall s)
  | vexitCrAccess => exact .inl (yields_crAccess s)
  | vexitRdmsr => exact .inl (yields_rdmsr s)
  | vexitWrmsr => exact .inl (yields_wrmsr s)
  | vexitMceDuringEntry => exact .inl yields_nop
  | vexitVmxPreempt =>
      cases chain : s.timers.chain with
      | cons front rest => exact .inl (yields_vmxPreempt chain)
      | nil =>
          refine .inr ⟨rfl, rfl, s, ?_, .rfl⟩
          have read : run (answer w) (Op.perform .timers) s = (some s.timers, s) := rfl
          simp only [VexitFunc.body, vexitVmxPreempt, run_bind, read, chain, run_halt]

end Twan.Vportal
