/-
# Twan.Vportal.Inject -- what `__venter` does

The specification of `__venter` on one vcpu.  `inject` computes from the operation queue, the
pending interrupts and the guest's blocking state what the section under `visr_pending.lock`
decides; `venterInject_spec` says that the section does this and writes these words to the
interruption-information field of the entry.  `venter_spec` is the whole entry: it comes back
exactly when the VMCS loads and the vcpu is not to terminate, and then the queue is clear and
the instruction pointer has been written once if an advance was queued, and not otherwise.
-/
import Twan.Vportal.Venter

namespace Twan.Vportal

set_option autoImplicit false

open Twan.Base Twan.Base.Prog Twan.Lib Twan.Vemulate

/-! ## The writes to one field -/

/-- The word that an operation writes to the field. -/
def written (field : VmcsField) : (e : Op) × e.Answer → Option (BitVec 64)
  | ⟨.vmwrite f val, _⟩ => if f = field then some val else none
  | _ => none

variable {α β : Type} {w : World}

/-- The words that an execution writes to the field, in order. -/
def writes (w : World) (field : VmcsField) (p : Handler α) (s : Ctx) : List (BitVec 64) :=
  (events (answer w) p s).filterMap (written field)

theorem writes_bind (field : VmcsField) (p : Handler α) (f : α → Handler β) (s : Ctx) :
    writes w field (p >>= f) s = writes w field p s ++
      match run (answer w) p s with
      | (some a, t) => writes w field (f a) t
      | (none, _) => [] := by
  unfold writes
  rw [events_bind, List.filterMap_append]
  congr 1
  cases run (answer w) p s with
  | mk result t => cases result <;> rfl

/-- The operations that leave the field alone. -/
def offField (field : VmcsField) : Op → Prop
  | .vmwrite f _ => f ≠ field
  | _ => True

theorem writes_nil {field : VmcsField} {P : Op → Prop} {stops : Prop} {p : Handler α} {phase : Phase}
    {post : α → Phase → Prop} (off : ∀ e, P e → offField field e)
    (obeys : Obeys (discipline P stops) p phase post) (s : Ctx) : writes w field p s = [] := by
  refine List.filterMap_eq_nil_iff.mpr fun event inside => ?_
  obtain ⟨_, _, allowed, _⟩ := obeys.events (x := s) (fun _ _ _ => trivial) event inside
  have apart := off event.1 allowed.1
  obtain ⟨e, r⟩ := event
  cases e <;> first | rfl | exact if_neg apart

/-! ## The section under the lock -/

/-- `vis_nmis_blocked`, `vis_in_nmi` and `vis_external_interrupts_blocked` on the contents of
the VMCS. -/
def nmisBlocked (vmcs : VmcsField → BitVec 64) : Bool :=
  (vmcs .guestInterruptibilityState).getLsbD 1 || (vmcs .guestInterruptibilityState).getLsbD 3

def inNmi (vmcs : VmcsField → BitVec 64) : Bool := (vmcs .guestInterruptibilityState).getLsbD 3

def externalInterruptsBlocked (vmcs : VmcsField → BitVec 64) : Bool :=
  !(vmcs .guestRflags).getLsbD 9 || (vmcs .guestInterruptibilityState).getLsbD 0 ||
    (vmcs .guestInterruptibilityState).getLsbD 1

/-- The state after each of the three stages. -/
def exceptionStage (queue : VoperationQueue) : VenterInjectState :=
  if queue.idtVectoring then .injectedException else .injectNone

def nmiStage (vmcs : VmcsField → BitVec 64) (data : VisrPending) (state : VenterInjectState) :
    VenterInjectState :=
  if !data.nmiPending then state
  else if nmisBlocked vmcs || state = .injectedException then .nmiWindowExiting
  else .injectedNmi

def externalStage (vmcs : VmcsField → BitVec 64) (data : VisrPending) (state : VenterInjectState) :
    VenterInjectState × Option (Fin 256) :=
  match pendingVector data with
  | none => (state, none)
  | some vector =>
      if !data.deliverable vector then (state, none)
      else if inNmi vmcs || state = .injectedNmi || state = .nmiWindowExiting then
        (.nmiWindowExiting, none)
      else if externalInterruptsBlocked vmcs || state = .injectedException then
        (.intWindowExiting, none)
      else if state = .injectNone then (state, some vector)
      else (state, none)

/-- What the section decides. -/
structure Injection where
  nmi : Bool
  external : Option (Fin 256)
  nmiWindow : Bool
  intWindow : Bool
  deriving DecidableEq

/-- What the three stages decide together. -/
def Injection.ofStages (nmi : VenterInjectState) (last : VenterInjectState × Option (Fin 256)) :
    Injection where
  nmi := nmi = .injectedNmi
  external := last.2
  nmiWindow := last.1 = .nmiWindowExiting
  intWindow := last.1 = .intWindowExiting

def inject (queue : VoperationQueue) (data : VisrPending) (vmcs : VmcsField → BitVec 64) :
    Injection :=
  .ofStages (nmiStage vmcs data (exceptionStage queue))
    (externalStage vmcs data (nmiStage vmcs data (exceptionStage queue)))

/-- `visr_pending` as the section leaves it. -/
def Injection.delivery (i : Injection) (data : VisrPending) : VisrPending :=
  venterDelivery data i.nmi i.external i.nmiWindow i.intWindow

/-- The vector the vcpu is put back on the dispatch list of. -/
def Injection.vector (i : Injection) : Option (Fin 256) :=
  if i.nmi then some nmiVector else i.external

/-- The word with which a queued event is injected. -/
def exceptionWord (queue : VoperationQueue) : BitVec 64 :=
  vmentryInterruptInfo queue.idtVectoringInfo.vector queue.idtVectoringInfo.vectoredEventType
    (queue.idtVectoringInfo.errcodeDelivered || queue.useSynthErrcode)

def nmiWord : BitVec 64 := vmentryInterruptInfo nmiVector .nmi false

def externalWord (vector : Fin 256) : BitVec 64 := vmentryInterruptInfo vector .external false

/-- The events that are injected. -/
def Injection.words (i : Injection) (queue : VoperationQueue) : List (BitVec 64) :=
  (if queue.idtVectoring then [exceptionWord queue] else []) ++
    ((if i.nmi then [nmiWord] else []) ++ (i.external.map externalWord).toList)

/-- The fields that describe the event of the entry. -/
def entryField : VmcsField → Bool
  | .ctrlVmentryInterruptInfo | .ctrlVmentryInterruptErrorCode | .ctrlVmentryInstructionLength =>
      true
  | _ => false

/-- From `s` to `t` only the event of the entry has been written. -/
structure EntryOnly (s t : Ctx) : Prop where
  vmcs : ∀ field, entryField field = false → t.vmcs field = s.vmcs field
  rest : t = { s with vmcs := t.vmcs }

variable {s t u : Ctx}

theorem EntryOnly.refl : EntryOnly s s := ⟨fun _ _ => rfl, rfl⟩

theorem EntryOnly.trans (first : EntryOnly s t) (second : EntryOnly t u) : EntryOnly s u := by
  refine ⟨fun field other => (second.vmcs field other).trans (first.vmcs field other), ?_⟩
  have there := second.rest
  rw [first.rest] at there
  exact there

theorem EntryOnly.write {field : VmcsField} (val : BitVec 64) (entry : entryField field = true) :
    EntryOnly s { s with vmcs := Function.update s.vmcs field val } := by
  refine ⟨fun other outside => Function.update_of_ne ?_ _ _, rfl⟩
  rintro rfl
  rw [entry] at outside
  cases outside

theorem EntryOnly.visr (same : EntryOnly s t) : t.visr = s.visr := by rw [same.rest]

/-- The program returns `a`, writes these events and nothing else. -/
def Injects (w : World) (p : Handler α) (s : Ctx) (a : α) (words : List (BitVec 64)) : Prop :=
  ∃ t, run (answer w) p s = (some a, t) ∧ writes w .ctrlVmentryInterruptInfo p s = words ∧
    EntryOnly s t

theorem Injects.bind {p : Handler α} {f : α → Handler β} {a : α} {b : β}
    {first second : List (BitVec 64)} (left : Injects w p s a first)
    (right : ∀ t, EntryOnly s t → Injects w (f a) t b second) :
    Injects w (p >>= f) s b (first ++ second) := by
  obtain ⟨t, ran, words, same⟩ := left
  obtain ⟨u, ranOn, wordsOn, sameOn⟩ := right t same
  refine ⟨u, ?_, ?_, same.trans sameOn⟩
  · rw [run_bind, ran]
    exact ranOn
  · rw [writes_bind, words, ran]
    exact congrArg (first ++ ·) wordsOn

/-- A first part that only reads. -/
theorem Injects.after {p : Handler α} {f : α → Handler β} {a : α} {b : β} {words : List (BitVec 64)}
    (left : Injects w p s a []) (right : ∀ t, EntryOnly s t → Injects w (f a) t b words) :
    Injects w (p >>= f) s b words :=
  left.bind right

/-- A last part that only reads. -/
theorem Injects.andThen {p : Handler α} {f : α → Handler β} {a : α} {b : β}
    {words : List (BitVec 64)} (left : Injects w p s a words)
    (right : ∀ t, EntryOnly s t → Injects w (f a) t b []) : Injects w (p >>= f) s b words := by
  have both := left.bind right
  rwa [List.append_nil] at both

theorem injects_ret (a : α) : Injects w (pure a : Handler α) s a [] := ⟨s, rfl, rfl, .refl⟩

theorem injects_vmread (field : VmcsField) : Injects w (vmread field) s (s.vmcs field) [] :=
  ⟨s, rfl, rfl, .refl⟩

/-- A field of the entry other than the interruption information. -/
theorem injects_vmwrite {field : VmcsField} (val : BitVec 64) (entry : entryField field = true)
    (other : field ≠ .ctrlVmentryInterruptInfo) : Injects w (vmwrite field val) s () [] := by
  refine ⟨_, rfl, ?_, .write val entry⟩
  simp [writes, vmwrite, Op.perform, written, other]

theorem injects_vinjectInterrupt (vector : Fin 256) (type : InterruptType)
    (errcode length : Option (BitVec 64)) :
    Injects w (vinjectInterrupt vector type errcode length) s ()
      [vmentryInterruptInfo vector type errcode.isSome] := by
  have info : Injects w (vmwrite .ctrlVmentryInterruptInfo
      (vmentryInterruptInfo vector type errcode.isSome)) s ()
      [vmentryInterruptInfo vector type errcode.isSome] := ⟨_, rfl, rfl, .write _ rfl⟩
  have code : ∀ t, Injects w (onlyIf errcode.isSome
      (vmwrite .ctrlVmentryInterruptErrorCode (errcode.getD 0))) t () [] := by
    intro t
    cases errcode with
    | none => exact injects_ret ()
    | some val => exact injects_vmwrite _ rfl (by decide)
  have len : ∀ t, Injects w (onlyIf length.isSome
      (vmwrite .ctrlVmentryInstructionLength (length.getD 0))) t () [] := by
    intro t
    cases length with
    | none => exact injects_ret ()
    | some val => exact injects_vmwrite _ rfl (by decide)
  exact info.andThen fun t _ => (code t).after fun u _ => len u

theorem injects_venterErrcode (queue : VoperationQueue) :
    ∃ errcode, Injects w (venterErrcode queue) s errcode [] ∧
      errcode.isSome = (queue.idtVectoringInfo.errcodeDelivered || queue.useSynthErrcode) := by
  unfold venterErrcode
  cases queue.idtVectoringInfo.errcodeDelivered with
  | true => exact ⟨_, (injects_vmread _).after fun t _ => injects_ret _, rfl⟩
  | false =>
      refine ⟨_, injects_ret _, ?_⟩
      cases queue.useSynthErrcode <;> rfl

theorem injects_venterLength (queue : VoperationQueue) :
    ∃ length, Injects w (venterLength queue) s length [] := by
  unfold venterLength
  cases lenValid queue.idtVectoringInfo.vectoredEventType with
  | true => exact ⟨_, s, rfl, rfl, .refl⟩
  | false => exact ⟨_, injects_ret _⟩

theorem injects_venterInjectException (queue : VoperationQueue) :
    Injects w (venterInjectException queue) s (exceptionStage queue)
      (if queue.idtVectoring then [exceptionWord queue] else []) := by
  unfold venterInjectException exceptionStage exceptionWord
  cases queue.idtVectoring with
  | false => exact injects_ret _
  | true =>
      obtain ⟨errcode, read, isSome⟩ := injects_venterErrcode (w := w) (s := s) queue
      rw [← isSome]
      refine Injects.after read fun t _ => ?_
      obtain ⟨length, readLength⟩ := injects_venterLength (w := w) (s := t) queue
      refine Injects.after readLength fun u _ => ?_
      exact (injects_vinjectInterrupt _ _ _ _).andThen fun v _ => injects_ret _

theorem EntryOnly.nmiStage (same : EntryOnly s t) (data : VisrPending) (state : VenterInjectState) :
    Vportal.nmiStage t.vmcs data state = Vportal.nmiStage s.vmcs data state := by
  unfold Vportal.nmiStage nmisBlocked
  rw [same.vmcs .guestInterruptibilityState rfl]

theorem EntryOnly.externalStage (same : EntryOnly s t) (data : VisrPending)
    (state : VenterInjectState) :
    Vportal.externalStage t.vmcs data state = Vportal.externalStage s.vmcs data state := by
  unfold Vportal.externalStage inNmi externalInterruptsBlocked
  rw [same.vmcs .guestInterruptibilityState rfl, same.vmcs .guestRflags rfl]

theorem injects_venterInjectNmi (data : VisrPending) {state : VenterInjectState}
    (fresh : state ≠ .injectedNmi) :
    Injects w (venterInjectNmi data state) s (nmiStage s.vmcs data state)
      (if nmiStage s.vmcs data state = .injectedNmi then [nmiWord] else []) := by
  have blocked : Injects w visNmisBlocked s (nmisBlocked s.vmcs) [] := ⟨s, rfl, rfl, .refl⟩
  unfold venterInjectNmi nmiStage
  cases data.nmiPending with
  | false =>
      simp only [Bool.not_false, if_true, fresh, if_false]
      exact injects_ret _
  | true =>
      refine Injects.after blocked fun t _ => ?_
      by_cases window : nmisBlocked s.vmcs || state = .injectedException
      · simp only [Bool.not_true, Bool.false_eq_true, if_false, window, if_true, reduceCtorEq]
        exact injects_ret _
      · simp only [Bool.not_true, Bool.false_eq_true, if_false, window, if_true]
        exact (injects_vinjectInterrupt _ _ _ _).andThen fun u _ => injects_ret _

theorem injects_visExternalInterruptsBlocked :
    Injects w visExternalInterruptsBlocked s (externalInterruptsBlocked s.vmcs) [] := by
  unfold visExternalInterruptsBlocked externalInterruptsBlocked
  refine (injects_vmread _).after fun t same => ?_
  rw [← same.vmcs .guestInterruptibilityState rfl]
  cases (s.vmcs .guestRflags).getLsbD 9 with
  | false => exact injects_ret true
  | true => exact (injects_vmread _).after fun u _ => injects_ret _

theorem injects_vinjectInterruptExternal (vector : Fin 256) :
    Injects w (vinjectInterruptExternal vector false) s () [externalWord vector] := by
  have type : (if vector = nmiVector ∧ false then InterruptType.nmi else .external) = .external :=
    if_neg (by simp)
  unfold vinjectInterruptExternal
  rw [type]
  exact injects_vinjectInterrupt _ _ _ _

theorem injects_venterInjectExternal (data : VisrPending) (state : VenterInjectState) :
    Injects w (venterInjectExternal data state) s (externalStage s.vmcs data state)
      ((externalStage s.vmcs data state).2.map externalWord).toList := by
  have nmi : Injects w visInNmi s (inNmi s.vmcs) [] := ⟨s, rfl, rfl, .refl⟩
  unfold venterInjectExternal externalStage
  cases pendingVector data with
  | none => exact injects_ret _
  | some vector =>
      dsimp only
      by_cases waits : (!data.deliverable vector) = true
      · simp only [waits, if_true]
        exact injects_ret _
      simp only [waits, Bool.false_eq_true, if_false]
      refine nmi.after fun t sameT => ?_
      by_cases window : (inNmi s.vmcs || state = .injectedNmi || state = .nmiWindowExiting) = true
      · simp only [window, if_true]
        exact injects_ret _
      simp only [window, Bool.false_eq_true, if_false]
      refine Injects.after injects_visExternalInterruptsBlocked fun u sameU => ?_
      have unblocked : externalInterruptsBlocked t.vmcs = externalInterruptsBlocked s.vmcs := by
        unfold externalInterruptsBlocked
        rw [sameT.vmcs .guestInterruptibilityState rfl, sameT.vmcs .guestRflags rfl]
      rw [unblocked]
      by_cases blocked : (externalInterruptsBlocked s.vmcs || state = .injectedException) = true
      · simp only [blocked, if_true]
        exact injects_ret _
      simp only [blocked, Bool.false_eq_true, if_false]
      by_cases free : state = .injectNone
      · simp only [free, if_true]
        exact (injects_vinjectInterruptExternal vector).andThen fun v _ => injects_ret _
      · simp only [free, if_false]
        exact injects_ret _

/-- The fields that the section may write. -/
def sectionField (field : VmcsField) : Bool := entryField field || field = .ctrlProcbasedCtls

/-- The window controls with these two bits. -/
def windowControls (controls : BitVec 64) (nmiWindow intWindow : Bool) : BitVec 64 :=
  (setField (setField (controls.setWidth 32) 22 nmiWindow) 2 intWindow).setWidth 64

/-- The controls after the section: they are written when a window opens or closes. -/
def Injection.controls (i : Injection) (data : VisrPending) (controls : BitVec 64) : BitVec 64 :=
  if i.nmiWindow != data.nmiWindowExit || i.intWindow != data.intWindowExit then
    windowControls controls i.nmiWindow i.intWindow
  else controls

theorem run_venterWindows (data : VisrPending) (i : Injection) :
    run (answer w) (venterWindows data i.nmiWindow i.intWindow) s = (some (), { s with
      vmcs := Function.update s.vmcs .ctrlProcbasedCtls
        (i.controls data (s.vmcs .ctrlProcbasedCtls)) }) ∧
    writes w .ctrlVmentryInterruptInfo (venterWindows data i.nmiWindow i.intWindow) s = [] := by
  unfold venterWindows Injection.controls onlyIf
  by_cases changes : (i.nmiWindow != data.nmiWindowExit || i.intWindow != data.intWindowExit) = true
  · simp only [changes, if_true]
    exact ⟨rfl, rfl⟩
  · simp only [changes, Bool.false_eq_true, if_false, Function.update_eq_self]
    exact ⟨rfl, rfl⟩

/-- The section after its three stages. -/
def venterEnd (data : VisrPending) (i : Injection) : Handler (Option (Fin 256)) := do
  venterWindows data i.nmiWindow i.intWindow
  Op.perform (.unlockVisr (i.delivery data))
  return i.vector

theorem venterInject_eq (queue : VoperationQueue) : venterInject queue = (do
    let data ← Op.perform .lockVisr
    let exception ← venterInjectException queue
    let nmi ← venterInjectNmi data exception
    let last ← venterInjectExternal data nmi
    venterEnd data (.ofStages nmi last)) := rfl

theorem run_venterEnd (data : VisrPending) (i : Injection) :
    run (answer w) (venterEnd data i) s = (some i.vector, { s with
      vmcs := Function.update s.vmcs .ctrlProcbasedCtls
        (i.controls data (s.vmcs .ctrlProcbasedCtls))
      visr := i.delivery data }) ∧
    writes w .ctrlVmentryInterruptInfo (venterEnd data i) s = [] := by
  obtain ⟨ran, words⟩ := run_venterWindows (w := w) (s := s) data i
  unfold venterEnd
  rw [run_bind, writes_bind, ran, words]
  exact ⟨rfl, rfl⟩

/-- **The section under the lock** decides what `inject` says: these events are written, the
pending interrupts and the controls are left so, and nothing else changes. -/
theorem venterInject_spec (queue : VoperationQueue) (s : Ctx) :
    ∃ t, run (answer w) (venterInject queue) s =
        (some (inject queue s.visr s.vmcs).vector, t) ∧
      writes w .ctrlVmentryInterruptInfo (venterInject queue) s =
        (inject queue s.visr s.vmcs).words queue ∧
      (∀ field, sectionField field = false → t.vmcs field = s.vmcs field) ∧
      t.vmcs .ctrlProcbasedCtls =
        (inject queue s.visr s.vmcs).controls s.visr (s.vmcs .ctrlProcbasedCtls) ∧
      t = { s with vmcs := t.vmcs, visr := (inject queue s.visr s.vmcs).delivery s.visr } := by
  have fresh : exceptionStage queue ≠ .injectedNmi := by
    unfold exceptionStage
    split <;> decide
  have lock : run (answer w) (Op.perform .lockVisr) s = (some s.visr, s) := rfl
  have noWord : writes w .ctrlVmentryInterruptInfo (Op.perform .lockVisr) s = [] := rfl
  obtain ⟨t, ran, words, same⟩ := injects_venterInjectException (w := w) (s := s) queue
  obtain ⟨u, ranNmi, wordsNmi, sameNmi⟩ := injects_venterInjectNmi (w := w) (s := t) s.visr fresh
  rw [same.nmiStage] at ranNmi wordsNmi
  obtain ⟨v, ranExt, wordsExt, sameExt⟩ := injects_venterInjectExternal (w := w) (s := u) s.visr
    (nmiStage s.vmcs s.visr (exceptionStage queue))
  rw [(same.trans sameNmi).externalStage] at ranExt wordsExt
  have kept := (same.trans sameNmi).trans sameExt
  obtain ⟨ranEnd, wordsEnd⟩ := run_venterEnd (w := w) (s := v) s.visr (inject queue s.visr s.vmcs)
  refine ⟨{ v with
    vmcs := Function.update v.vmcs .ctrlProcbasedCtls
      ((inject queue s.visr s.vmcs).controls s.visr (v.vmcs .ctrlProcbasedCtls))
    visr := (inject queue s.visr s.vmcs).delivery s.visr }, ?_, ?_, ?_, ?_, ?_⟩
  · simp only [venterInject_eq, run_bind, lock, ran, ranNmi, ranExt]
    exact ranEnd
  · simp only [venterInject_eq, writes_bind, lock, noWord, ran, words, ranNmi, wordsNmi, ranExt,
      wordsExt]
    have folded : Injection.ofStages (nmiStage s.vmcs s.visr (exceptionStage queue))
        (externalStage s.vmcs s.visr (nmiStage s.vmcs s.visr (exceptionStage queue))) =
      inject queue s.visr s.vmcs := rfl
    rw [folded, wordsEnd, List.append_nil, List.nil_append]
    simp only [Injection.words, inject, Injection.ofStages, decide_eq_true_eq]
  · intro field other
    obtain ⟨apart, controls⟩ := Bool.or_eq_false_iff.mp other
    rw [← kept.vmcs field apart]
    exact Function.update_of_ne (of_decide_eq_false controls) _ _
  · rw [← kept.vmcs .ctrlProcbasedCtls rfl]
    exact Function.update_self (f := v.vmcs) VmcsField.ctrlProcbasedCtls _
  · rw [kept.rest]

/-! ## The whole entry -/

/-- From `s` to `t` only these fields of the VMCS have been written. -/
structure Carried (s t : Ctx) : Prop where
  vmcs : ∀ field, field ≠ .guestCr0 → field ≠ .guestCr4 → field ≠ .guestRip →
    field ≠ .guestInterruptibilityState → t.vmcs field = s.vmcs field
  rest : t = { s with vmcs := t.vmcs }

theorem answer_carried {e : Op} (known : carried e) {x : Ctx} (before : Carried s x) :
    Carried s (answer w e x).2 := by
  cases e <;> try exact known.elim
  case vmread => exact before
  case call => exact before
  case vmwrite field val =>
      refine ⟨fun other cr0 cr4 rip state => ?_, by rw [before.rest]; rfl⟩
      have apart : other ≠ field := by
        rintro rfl
        simp [carried, cr0, cr4, rip, state] at known
      exact (Function.update_of_ne apart _ _).trans (before.vmcs other cr0 cr4 rip state)

/-- The queued operations are carried out without a stop. -/
theorem run_carried {p : Handler α} (keeps : Keeps carried False p) (s : Ctx) :
    ∃ a t, run (answer w) p s = (some a, t) ∧ Carried s t := by
  have obeys := keeps .handler rfl
  obtain ⟨a, t, ran⟩ := obeys.returns (x := s) (fun _ stops => stops) (fun _ _ _ => trivial)
  have step : ∀ e x phase, (discipline carried False).ok phase e → Carried s x →
      Carried s (answer w e x).2 := fun e x _ allowed before => answer_carried allowed.1 before
  have kept := obeys.run (fun _ _ _ => trivial) step ⟨fun _ _ _ _ _ => rfl, rfl⟩
  rw [ran] at kept
  exact ⟨a, t, ran, kept⟩

theorem writes_vadvanceGuestRip (s : Ctx) :
    (writes w .guestRip vadvanceGuestRip s).length = 1 := by
  have reads : Keeps (fun e => ∃ field, e = .vmread field) False vgetGuestMode :=
    keeps_vgetGuestMode fun field => ⟨field, rfl⟩
  have quiet : writes w .guestRip vgetGuestMode s = [] :=
    writes_nil (by rintro _ ⟨_, rfl⟩; trivial) (reads .handler rfl) s
  have known : Keeps carried False vgetGuestMode := keeps_vgetGuestMode fun _ => trivial
  obtain ⟨mode, t, ran, _⟩ := run_carried (w := w) known s
  unfold vadvanceGuestRip
  rw [writes_bind, quiet, ran]
  simp only [writes, vmread, vmwrite, Op.perform, answer, events_bind, events_perform, run_perform,
    List.filterMap_append, events_ite]
  split <;> rfl

/-- From `s` to `t` the program returns without a write to the field. -/
def Silent (w : World) (field : VmcsField) (p : Handler α) (s : Ctx) (a : α) (t : Ctx) : Prop :=
  run (answer w) p s = (some a, t) ∧ writes w field p s = []

theorem Silent.writes {field : VmcsField} {p : Handler α} {f : α → Handler β} {a : α}
    (first : Silent w field p s a t) :
    Vportal.writes w field (p >>= f) s = Vportal.writes w field (f a) t := by
  rw [writes_bind, first.1, first.2, List.nil_append]

theorem silent_onlyIf {field : VmcsField} {p : Handler Unit} {c : Bool}
    (silent : ∀ s, ∃ t, Silent w field p s () t) (s : Ctx) :
    ∃ t, Silent w field (onlyIf c p) s () t := by
  cases c with
  | false => exact ⟨s, rfl, rfl⟩
  | true => exact silent s

theorem writes_venterCarryOut (entry : VschedEntry) (queue : VoperationQueue) (s : Ctx) :
    (writes w .guestRip (venterCarryOut entry queue) s).length = queue.shouldAdvance.toNat := by
  have calls : ∀ c s, ∃ t, Silent w .guestRip (do let _ ← call c) s () t := fun c s => ⟨s, rfl, rfl⟩
  have cr0 : ∀ s, ∃ t, Silent w .guestRip (vmwrite .guestCr0 queue.cr0) s () t :=
    fun s => ⟨_, rfl, rfl⟩
  have cr4 : ∀ s, ∃ t, Silent w .guestRip (vmwrite .guestCr4 queue.cr4) s () t :=
    fun s => ⟨_, rfl, rfl⟩
  unfold venterCarryOut
  obtain ⟨t, flushed⟩ := silent_onlyIf (c := entry.invvpid) (calls _) s
  rw [flushed.writes]
  obtain ⟨t, armed⟩ := silent_onlyIf (c := entry.rearm) (calls _) t
  rw [armed.writes]
  obtain ⟨t, wroteCr0⟩ := silent_onlyIf (c := queue.vmwriteCr0) cr0 t
  rw [wroteCr0.writes]
  obtain ⟨t, wroteCr4⟩ := silent_onlyIf (c := queue.vmwriteCr4) cr4 t
  rw [wroteCr4.writes]
  cases queue.shouldAdvance with
  | false => rfl
  | true => exact writes_vadvanceGuestRip t

/-- The vcpu comes into the guest: its VMCS loads if it has to, and it is not to terminate. -/
def enters (w : World) (s : Ctx) : Bool := (!s.preempted || w.loads) && !w.entry.terminate

theorem writes_venterBegin (field : VmcsField) (s : Ctx) : writes w field venterBegin s = [] :=
  writes_nil (fun e off => by cases e <;> trivial)
    (venterBegin_obeys .handler) s

theorem run_venterBegin (goes : enters w s = true) :
    run (answer w) venterBegin s = (some w.entry, { s with preempted := false }) := by
  obtain ⟨loads, live⟩ := Bool.and_eq_true_iff.mp goes
  simp only [Bool.not_eq_true'] at live
  cases was : s.preempted with
  | false =>
      have same : { s with preempted := false } = s := by rw [← was]
      rw [same]
      simp [venterBegin, onlyIf, Op.perform, answer, live, was]
  | true =>
      simp only [was, Bool.not_true, Bool.false_or] at loads
      simp [venterBegin, onlyIf, Op.perform, answer, live, was, loads]

theorem run_venterBegin_stops (stays : enters w s = false) :
    ∃ t, run (answer w) venterBegin s = (none, t) ∧ t.queue = s.queue ∧ t.failed = s.failed := by
  cases was : s.preempted <;> cases loads : w.loads <;> cases live : w.entry.terminate <;>
    simp [enters, was, loads, live] at stays <;>
    simp [venterBegin, onlyIf, Op.perform, answer, live, was, loads, vfailureRecover,
      vtransitioningRecover, call]

/-- A vector is injected only if nothing else is, it is the highest one pending, its level may
be delivered, and the guest blocks nothing. -/
theorem externalStage_injects {vmcs : VmcsField → BitVec 64} {data : VisrPending}
    {state : VenterInjectState} {vector : Fin 256}
    (injects : (externalStage vmcs data state).2 = some vector) :
    state = .injectNone ∧ pendingVector data = some vector ∧ data.deliverable vector = true ∧
      inNmi vmcs = false ∧ externalInterruptsBlocked vmcs = false := by
  unfold externalStage at injects
  cases pending : pendingVector data with
  | none => simp [pending] at injects
  | some highest =>
      simp only [pending] at injects
      split_ifs at injects with waits window blocked free
      cases injects
      simp only [Bool.or_eq_true, decide_eq_true_eq, not_or, Bool.not_eq_true] at window blocked waits
      exact ⟨free, rfl, by simpa using waits, window.1.1, blocked.1⟩

theorem nmiStage_queued (vmcs : VmcsField → BitVec 64) (data : VisrPending) :
    nmiStage vmcs data .injectedException ≠ .injectedNmi ∧
      nmiStage vmcs data .injectedException ≠ .injectNone := by
  unfold nmiStage
  cases data.nmiPending <;> simp

/-- A queued event is the one that is injected. -/
theorem inject_queued {queue : VoperationQueue} (queued : queue.idtVectoring = true)
    (data : VisrPending) (vmcs : VmcsField → BitVec 64) :
    (inject queue data vmcs).nmi = false ∧ (inject queue data vmcs).external = none := by
  have stage : exceptionStage queue = .injectedException := if_pos queued
  obtain ⟨noNmi, busy⟩ := nmiStage_queued vmcs data
  unfold inject Injection.ofStages
  rw [stage]
  refine ⟨decide_eq_false noNmi, ?_⟩
  refine Option.eq_none_iff_forall_ne_some.mpr fun vector injects => busy ?_
  exact (externalStage_injects injects).1

/-- An NMI that is injected is the only event. -/
theorem inject_nmi {queue : VoperationQueue} {data : VisrPending} {vmcs : VmcsField → BitVec 64}
    (injects : (inject queue data vmcs).nmi = true) :
    queue.idtVectoring = false ∧ (inject queue data vmcs).external = none := by
  constructor
  · cases queued : queue.idtVectoring with
    | false => rfl
    | true =>
        rw [(inject_queued queued data vmcs).1] at injects
        cases injects
  · refine Option.eq_none_iff_forall_ne_some.mpr fun vector external => ?_
    have free := (externalStage_injects external).1
    rw [of_decide_eq_true injects] at free
    cases free

theorem words_queued {queue : VoperationQueue} (queued : queue.idtVectoring = true)
    (data : VisrPending) (vmcs : VmcsField → BitVec 64) :
    (inject queue data vmcs).words queue = [exceptionWord queue] := by
  obtain ⟨nmi, external⟩ := inject_queued queued data vmcs
  simp [Injection.words, nmi, external, queued]

/-- At most one event is injected. -/
theorem words_length (queue : VoperationQueue) (data : VisrPending) (vmcs : VmcsField → BitVec 64) :
    ((inject queue data vmcs).words queue).length ≤ 1 := by
  cases queued : queue.idtVectoring with
  | true => rw [words_queued queued]; exact le_refl 1
  | false =>
      cases nmi : (inject queue data vmcs).nmi with
      | true => simp [Injection.words, nmi, (inject_nmi nmi).2, queued]
      | false =>
          simp only [Injection.words, nmi, queued]
          cases (inject queue data vmcs).external <;> simp

/-- What an entry leaves. -/
structure Entered (w : World) (s t : Ctx) : Prop where
  queue : t.queue = s.queue.clearPending
  failed : t.failed = s.failed
  advanced : (writes w .guestRip venter s).length = s.queue.shouldAdvance.toNat
  injected : s.queue.idtVectoring = true →
    writes w .ctrlVmentryInterruptInfo venter s = [exceptionWord s.queue]

theorem silent_venterRequeue (external : Option (Fin 256)) (field : VmcsField) (s : Ctx) :
    Silent w field (venterRequeue external) s () s := by
  cases external with
  | none => exact ⟨rfl, rfl⟩
  | some vector => exact ⟨rfl, rfl⟩

/-- The section writes nothing but the event of the entry and the controls. -/
theorem writes_venterInject_rip (queue : VoperationQueue) (s : Ctx) :
    writes w .guestRip (venterInject queue) s = [] := by
  refine writes_nil (fun e off => ?_) (keeps_venterInject queue .handler rfl) s
  cases e <;> try trivial
  case vmwrite field val =>
      rintro rfl
      exact off

/-- The parts of an entry that write to the VMCS, and where they leave it. -/
theorem run_venter (goes : enters w s = true)
    (carry : run (answer w) (venterCarryOut w.entry s.queue) { s with preempted := false } =
      (some (), t))
    {external : Option (Fin 256)} (injected : run (answer w) (venterInject s.queue)
      { t with queue := s.queue.clearPending } = (some external, u)) :
    run (answer w) venter s = (some (), u) ∧ ∀ field, writes w field venter s =
      writes w field (venterCarryOut w.entry s.queue) { s with preempted := false } ++
        writes w field (venterInject s.queue) { t with queue := s.queue.clearPending } := by
  have begun := run_venterBegin goes
  have read : ∀ field, Silent w field (Op.perform .voperationQueue) { s with preempted := false }
    s.queue { s with preempted := false } := fun field => ⟨rfl, rfl⟩
  have clear : ∀ field, Silent w field (Op.perform (.setVoperationQueue s.queue.clearPending)) t ()
    { t with queue := s.queue.clearPending } := fun field => ⟨rfl, rfl⟩
  have requeue := fun field => silent_venterRequeue (w := w) external field u
  constructor
  · simp only [venter, run_bind, begun, (read .guestRip).1, carry, (clear .guestRip).1, injected,
      (requeue .guestRip).1]
  · intro field
    unfold venter
    rw [Silent.writes ⟨begun, writes_venterBegin field s⟩, (read field).writes, writes_bind, carry]
    dsimp only
    rw [(clear field).writes, writes_bind, injected]
    dsimp only
    rw [(requeue field).2, List.append_nil]

theorem writes_carried {p : Handler α} (keeps : Keeps carried False p) (s : Ctx) :
    writes w .ctrlVmentryInterruptInfo p s = [] := by
  refine writes_nil (fun e known => ?_) (keeps .handler rfl) s
  cases e <;> try trivial
  case vmwrite field val =>
      rintro rfl
      simp [carried] at known

theorem venter_enters (goes : enters w s = true) :
    ∃ t, run (answer w) venter s = (some (), t) ∧ Entered w s t := by
  have keeps := keeps_venterCarryOut w.entry s.queue
  obtain ⟨_, t, carry, carriedOut⟩ := run_carried (w := w) keeps { s with preempted := false }
  obtain ⟨u, injected, words, _, _, same⟩ := venterInject_spec (w := w) s.queue
    { t with queue := s.queue.clearPending }
  obtain ⟨ran, wrote⟩ := run_venter goes carry injected
  refine ⟨u, ran, ?_, ?_, ?_, ?_⟩
  · rw [same]
  · rw [same, carriedOut.rest]
  · rw [wrote, writes_venterInject_rip, List.append_nil]
    exact writes_venterCarryOut w.entry s.queue { s with preempted := false }
  · intro queued
    rw [wrote, writes_carried keeps, List.nil_append, words]
    exact words_queued queued _ _

theorem venter_stops (stays : enters w s = false) :
    ∃ t, run (answer w) venter s = (none, t) ∧ t.queue = s.queue ∧ t.failed = s.failed ∧
      ∀ field, writes w field venter s = [] := by
  obtain ⟨t, ran, queue, failed⟩ := run_venterBegin_stops stays
  refine ⟨t, ?_, queue, failed, fun field => ?_⟩
  · rw [venter, run_bind, ran]
  · rw [venter, writes_bind, writes_venterBegin, ran, List.nil_append]

end Twan.Vportal
