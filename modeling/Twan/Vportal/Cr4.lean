/-
# Twan.Vportal.Cr4 -- moves to CR4

A move to CR4 exits to `vexit_cr_access`, which queues the value or #GP, and `__venter` carries
out what is queued.  `Cr4Allowed` says which values the guest may have there, from the bits of
`cr4_t`: some never, some with the feature of the processor only.

`cr4_move_iff`: a move is emulated so for the values that fail one of the other checks and for
those whose PKE bit is the feature flag, because the check on PKE reads the flag in place of
the value.
-/
import Twan.Vportal.Exits

namespace Twan.Vportal

set_option autoImplicit false

open Twan.Base Twan.Base.Prog Twan.Vemulate

/-! ## The values that CR4 may have -/

/-- The bits that a guest never has set, PKE apart: `mce`, `smxe`, `osxsave`, `uintr`, `fred`, and the
reserved ones. -/
def cr4Never : List ℕ := [6, 14, 18, 25, 32, 15, 26] ++ List.range' 29 3 ++ List.range' 33 31

/-- `pke`. -/
def cr4Pke : ℕ := 22

/-- The bits that depend on a feature, with its flag. -/
def cr4Featured (features : VperCpuFeatureFlags) : List (ℕ × Bool) :=
  [(11, features.umip), (12, features.la57), (16, features.fsgsbase), (17, features.pcid),
    (19, features.kl), (20, features.smep), (21, features.smap), (23, features.cet),
    (24, features.pks), (27, features.lass), (28, features.lam)]

/-- No bit is set that is never set, or whose feature is lacking; PKE is left open. -/
structure Cr4Otherwise (features : VperCpuFeatureFlags) (val : BitVec 64) : Prop where
  never : ∀ bit ∈ cr4Never, val.getLsbD bit = false
  featured : ∀ bit ∈ cr4Featured features, bit.2 = false → val.getLsbD bit.1 = false

/-- The value may be moved to CR4. -/
structure Cr4Allowed (features : VperCpuFeatureFlags) (val : BitVec 64) : Prop
    extends Cr4Otherwise features val where
  pke : val.getLsbD cr4Pke = false

theorem extractLsb'_eq_zero_iff (val : BitVec 64) (start len : ℕ) :
    val.extractLsb' start len = 0 ↔ ∀ bit ∈ List.range' start len, val.getLsbD bit = false := by
  constructor
  · intro clear bit inside
    obtain ⟨i, small, rfl⟩ := List.mem_range'.mp inside
    have here := congrArg (fun v => v.getLsbD i) clear
    simpa [BitVec.getLsbD_extractLsb', small] using here
  · intro clear
    apply BitVec.eq_of_getLsbD_eq
    intro i small
    have here := clear (start + i) (List.mem_range'.mpr ⟨i, small, by omega⟩)
    simp [small, here]

theorem withVmxe_getLsbD (val : BitVec 64) {bit : ℕ} (other : bit ≠ 13) :
    (withVmxe val).getLsbD bit = val.getLsbD bit := by
  have clear : (1#64 <<< 13).getLsbD bit = false := by
    simp only [BitVec.getLsbD_shiftLeft, BitVec.getLsbD_one]
    grind
  rw [withVmxe, BitVec.getLsbD_or, clear, Bool.or_false]

theorem withVmxe_field (val : BitVec 64) {start len : ℕ} (above : 13 < start) :
    (withVmxe val).extractLsb' start len = val.extractLsb' start len := by
  apply BitVec.eq_of_getLsbD_eq
  intro i small
  rw [BitVec.getLsbD_extractLsb', BitVec.getLsbD_extractLsb', withVmxe_getLsbD val (by omega)]

/-- What the source checks: PKE is refused where the processor has it, whatever the value. -/
theorem cr4Valid_iff (features : VperCpuFeatureFlags) (val : BitVec 64) :
    cr4Valid features (withVmxe val) = true ↔ Cr4Otherwise features val ∧ features.pke = false := by
  have never : (∀ bit ∈ cr4Never, val.getLsbD bit = false) ↔
      (∀ bit ∈ [6, 14, 18, 25, 32, 15, 26], val.getLsbD bit = false) ∧
        val.extractLsb' 29 3 = 0 ∧ val.extractLsb' 33 31 = 0 := by
    simp only [cr4Never, List.mem_append, or_imp, forall_and, extractLsb'_eq_zero_iff, and_assoc]
  have parts : Cr4Otherwise features val ↔ (∀ bit ∈ cr4Never, val.getLsbD bit = false) ∧
      ∀ bit ∈ cr4Featured features, bit.2 = false → val.getLsbD bit.1 = false :=
    ⟨fun ⟨never, featured⟩ => ⟨never, featured⟩, fun ⟨never, featured⟩ => ⟨never, featured⟩⟩
  have lacking : ∀ has bit : Bool, (has || !bit) = true ↔ (has = false → bit = false) := by decide
  rw [parts, never]
  unfold cr4Valid
  simp (disch := decide) only [withVmxe_getLsbD, withVmxe_field]
  simp only [cr4Featured, List.mem_cons, List.not_mem_nil, or_false, forall_eq_or_imp, forall_eq,
    Bool.and_eq_true, Bool.not_eq_true', beq_iff_eq, lacking]
  tauto

/-! ## The entry -/

variable {w : World} {site : Site} {vregs : Vregs} {s t : Ctx}

/-- `vget_guest_mode` on the contents of the VMCS. -/
def guestMode (vmcs : VmcsField → BitVec 64) : VopMode :=
  let rights := (vmcs .guestCsAccessRights).setWidth 32
  if !(vmcs .guestCr0).getLsbD 0 then .op16Bit
  else if (vmcs .guestIa32Efer).getLsbD 10 then
    if rights.getLsbD 13 then .op64Bit else if rights.getLsbD 14 then .op32Bit else .op16Bit
  else if (vmcs .guestRflags).getLsbD 17 then .op16Bit
  else if rights.getLsbD 14 then .op32Bit else .op16Bit

/-- The instruction pointer after the instruction that has exited. -/
def nextRip (vmcs : VmcsField → BitVec 64) : BitVec 64 :=
  (vmcs .guestRip + vmcs .roVmexitInstructionLength) &&& (guestMode vmcs).mask

theorem run_vgetGuestMode (s : Ctx) :
    run (answer w) vgetGuestMode s = (some (guestMode s.vmcs), s) := by
  unfold vgetGuestMode guestMode
  simp only [vmread, vmread32, Op.perform, run_bind, run_perform, run_ite, answer, pure_eq, run_ret]
  split_ifs <;> rfl

theorem run_vadvanceGuestRip (s : Ctx) : ∃ t, run (answer w) vadvanceGuestRip s = (some (), t) ∧
    t.vmcs .guestRip = nextRip s.vmcs ∧ t.vmcs .guestCr4 = s.vmcs .guestCr4 := by
  unfold vadvanceGuestRip
  rw [run_bind, run_vgetGuestMode]
  simp only [vmread, vmwrite, Op.perform, run_bind, run_perform, run_ite, answer, pure_eq, run_ret]
  split_ifs
  · exact ⟨_, rfl, by simp [nextRip], by simp⟩
  · exact ⟨_, rfl, by simp [nextRip], by simp⟩

theorem run_venterCarryOut (entry : VschedEntry) {queue : VoperationQueue}
    (cr0 : queue.vmwriteCr0 = false) (s : Ctx) :
    ∃ t, run (answer w) (venterCarryOut entry queue) s = (some (), t) ∧
      t.vmcs .guestCr4 = (if queue.vmwriteCr4 then queue.cr4 else s.vmcs .guestCr4) ∧
      t.vmcs .guestRip = if queue.shouldAdvance then nextRip s.vmcs else s.vmcs .guestRip := by
  have calls : ∀ (c : Call) (b : Bool) s,
      run (answer w) (onlyIf b (do let _ ← call c)) s = (some (), s) := by
    intro c b s
    cases b <;> rfl
  have skipped : ∀ s, run (answer w) (onlyIf false (vmwrite .guestCr0 queue.cr0)) s =
    (some (), s) := fun s => rfl
  obtain ⟨u, wrote, cr4, rest⟩ : ∃ u, run (answer w) (onlyIf queue.vmwriteCr4
      (vmwrite .guestCr4 queue.cr4)) s = (some (), u) ∧
      u.vmcs .guestCr4 = (if queue.vmwriteCr4 then queue.cr4 else s.vmcs .guestCr4) ∧
      ∀ field, field ≠ .guestCr4 → u.vmcs field = s.vmcs field := by
    cases queue.vmwriteCr4 with
    | false => exact ⟨s, rfl, rfl, fun _ _ => rfl⟩
    | true =>
        refine ⟨{ s with vmcs := Function.update s.vmcs .guestCr4 queue.cr4 }, rfl, ?_, ?_⟩
        · exact Function.update_self (f := s.vmcs) VmcsField.guestCr4 _
        · exact fun _ other => Function.update_of_ne other _ _
  have next : nextRip u.vmcs = nextRip s.vmcs := by simp [nextRip, guestMode, rest]
  simp only [venterCarryOut, run_bind, calls, cr0, skipped, wrote]
  cases queue.shouldAdvance with
  | false => exact ⟨u, rfl, cr4, rest _ (by decide)⟩
  | true =>
      obtain ⟨t, ran, rip, kept⟩ := run_vadvanceGuestRip (w := w) u
      exact ⟨t, ran, kept.trans cr4, rip.trans next⟩

/-- An entry that comes back, and where CR4 and the instruction pointer are then. -/
theorem venter_cr4 (cr0 : s.queue.vmwriteCr0 = false) (ran : run (answer w) venter s = (some (), t)) :
    t.vmcs .guestCr4 = (if s.queue.vmwriteCr4 then s.queue.cr4 else s.vmcs .guestCr4) ∧
      t.vmcs .guestRip = if s.queue.shouldAdvance then nextRip s.vmcs else s.vmcs .guestRip := by
  have goes : enters w s = true := by
    cases goes : enters w s with
    | true => rfl
    | false =>
        obtain ⟨u, stopped, _⟩ := venter_stops goes
        rw [ran] at stopped
        cases stopped
  obtain ⟨u, carry, cr4, rip⟩ := run_venterCarryOut (w := w) w.entry cr0 { s with preempted := false }
  obtain ⟨v, injected, _, outside, _⟩ := venterInject_spec (w := w) s.queue
    { u with queue := s.queue.clearPending }
  obtain ⟨whole, _⟩ := run_venter goes carry injected
  rw [ran] at whole
  cases whole
  exact ⟨(outside .guestCr4 rfl).trans cr4, (outside .guestRip rfl).trans rip⟩

/-! ## The handler -/

/-- Nothing is pending for the entry. -/
structure VoperationQueue.Idle (queue : VoperationQueue) : Prop
    extends VoperationQueue.Clear queue where
  vmwriteCr0 : queue.vmwriteCr0 = false
  vmwriteCr4 : queue.vmwriteCr4 = false

theorem exit_idle {queue after : VoperationQueue} {x : Exit} (moved : exitStep queue x = some after) :
    VoperationQueue.Idle after := by
  obtain ⟨filled, rfl⟩ := exit_queue moved
  exact ⟨⟨rfl, rfl⟩, rfl, rfl⟩

theorem exits_idle {boot after : VoperationQueue} {run : List Exit} (idle : VoperationQueue.Idle boot)
    (ran : exec exitStep boot run = some after) : VoperationQueue.Idle after :=
  exec_invariant (fun _ _ _ _ moved => exit_idle moved) idle ran

/-- The queue with #GP for the entry. -/
def withGp0 (queue : VoperationQueue) : VoperationQueue :=
  { queue with
    idtVectoring := true, idtVectoringInfo := gp0, useSynthErrcode := true, synthErrcode := 0 }

theorem run_vqueueInjectGp0 (empty : s.queue.idtVectoring = false) :
    run (answer w) vqueueInjectGp0 s = (some (), { s with queue := withGp0 s.queue }) := by
  have ran : run (answer w) vqueueInjectGp0 s = (some (), { s with
      failed := if !s.queue.idtVectoring then s.failed else .eventQueued :: s.failed
      queue := withGp0 s.queue }) := rfl
  rw [ran, empty]
  rfl

/-- What the handler leaves in the queue. -/
def cr4Queued (site : Site) (val : BitVec 64) (queue : VoperationQueue) : VoperationQueue :=
  if cr4Valid site.features (withVmxe val) then
    { queue with vmwriteCr4 := true, cr4 := withVmxe val, shouldAdvance := true }
  else withGp0 queue

theorem run_crAccess_cr4 (cr4 : crOf ((s.vmcs .roExitQualification).setWidth 32) = 4)
    (empty : s.queue.idtVectoring = false) :
    run (answer w) (vexitCrAccess site vregs) s = (some (), { s with
      preemptionCount := s.preemptionCount - 1
      queue := cr4Queued site (operand s.vmcs vregs
        (gprOf ((s.vmcs .roExitQualification).setWidth 32))) s.queue }) := by
  simp only [vexitCrAccess, run_bind, run_vmread32, run_enable, run_vgprVal, cr4]
  generalize operand s.vmcs vregs (gprOf ((s.vmcs .roExitQualification).setWidth 32)) = val
  have moves : crMove site val 4 = if cr4Valid site.features (withVmxe val) then do
      vqueueVmwriteCr4 (withVmxe val)
      vqueueAdvanceGuest
    else vqueueInjectGp0 := rfl
  rw [moves]
  cases valid : cr4Valid site.features (withVmxe val) with
  | true =>
      simp only [cr4Queued, valid]
      rfl
  | false =>
      simp only [cr4Queued, valid, Bool.false_eq_true, if_false]
      exact run_vqueueInjectGp0 (s := { s with preemptionCount := s.preemptionCount - 1 }) empty

namespace Exit

variable (x : Exit) (queue : VoperationQueue)

def qualification : BitVec 32 := (x.ctx.vmcs .roExitQualification).setWidth 32

/-- The value that is moved. -/
def moved : BitVec 64 := operand x.ctx.vmcs x.vregs (gprOf x.qualification)

/-- `vexit_cr_access` followed by `__venter`. -/
def moveCr : Handler Unit := do
  vexitCrAccess x.site x.vregs
  venter

/-- CR4 has the value with VMXE on, and the instruction is passed. -/
structure Installs (t : Ctx) : Prop where
  cr4 : t.vmcs .guestCr4 = withVmxe x.moved
  rip : t.vmcs .guestRip = nextRip x.ctx.vmcs
  once : (Vportal.writes x.world .guestRip x.moveCr (x.begun queue)).length = 1

/-- #GP is injected, and CR4 and the instruction pointer stay. -/
structure Refuses (t : Ctx) : Prop where
  event : Vportal.writes x.world .ctrlVmentryInterruptInfo x.moveCr (x.begun queue) =
    [vmentryInterruptInfo generalProtectionFault .hardwareException true]
  cr4 : t.vmcs .guestCr4 = x.ctx.vmcs .guestCr4
  rip : t.vmcs .guestRip = x.ctx.vmcs .guestRip
  never : Vportal.writes x.world .guestRip x.moveCr (x.begun queue) = []

/-- The move is emulated as the value asks for. -/
structure EmulatesCr4 (t : Ctx) : Prop where
  installs : Cr4Allowed x.site.features x.moved → x.Installs queue t
  refuses : ¬Cr4Allowed x.site.features x.moved → x.Refuses queue t

/-- The vcpu between the two. -/
def atEntry : Ctx :=
  { x.ctx with
    failed := []
    preemptionCount := x.ctx.preemptionCount + 1 - 1
    queue := cr4Queued x.site x.moved queue }

variable {x queue}

/-- The two outcomes, by what the source checks. -/
theorem moveCr_cases (idle : VoperationQueue.Idle queue) (cr4 : crOf x.qualification = 4)
    (returns : run (answer x.world) x.moveCr (x.begun queue) = (some (), t)) :
    if cr4Valid x.site.features (withVmxe x.moved) then x.Installs queue t
    else x.Refuses queue t := by
  have handled : run (answer x.world) (vexitCrAccess x.site x.vregs) (x.begun queue) =
      (some (), x.atEntry queue) :=
    run_crAccess_cr4 (s := x.begun queue) cr4 idle.idtVectoring
  have silent : ∀ field, field = .guestRip ∨ field = .ctrlVmentryInterruptInfo →
      Vportal.writes x.world field (vexitCrAccess x.site x.vregs) (x.begun queue) = [] :=
    fun field entry => writes_nil (offField_of_offEntry entry)
      (body_obeys .vexitCrAccess .handler rfl rfl) _
  have words : ∀ field, field = .guestRip ∨ field = .ctrlVmentryInterruptInfo →
      Vportal.writes x.world field x.moveCr (x.begun queue) =
        Vportal.writes x.world field venter (x.atEntry queue) :=
    fun field known => Silent.writes ⟨handled, silent field known⟩
  rw [moveCr, run_bind, handled] at returns
  have entered := venter_returns returns
  cases valid : cr4Valid x.site.features (withVmxe x.moved) with
  | true =>
      have queued : (x.atEntry queue).queue =
        { queue with vmwriteCr4 := true, cr4 := withVmxe x.moved, shouldAdvance := true } :=
        if_pos valid
      obtain ⟨newCr4, newRip⟩ := venter_cr4 (by rw [queued]; exact idle.vmwriteCr0) returns
      rw [queued] at newCr4 newRip
      refine ⟨newCr4, newRip, ?_⟩
      rw [words _ (.inl rfl), entered.advanced, queued]
      rfl
  | false =>
      have queued : (x.atEntry queue).queue = withGp0 queue := if_neg (by simp [valid])
      have cr4Stays : (withGp0 queue).vmwriteCr4 = false := idle.vmwriteCr4
      have ripStays : (withGp0 queue).shouldAdvance = false := idle.shouldAdvance
      obtain ⟨newCr4, newRip⟩ := venter_cr4 (by rw [queued]; exact idle.vmwriteCr0) returns
      simp only [queued, cr4Stays, ripStays, Bool.false_eq_true, if_false] at newCr4 newRip
      refine ⟨?_, newCr4, newRip, ?_⟩
      · rw [words _ (.inr rfl), entered.injected (by rw [queued]; rfl), queued]
        rfl
      · refine List.length_eq_zero_iff.mp ?_
        rw [words _ (.inl rfl), entered.advanced, queued, ripStays]
        rfl

/-- The instruction pointer tells the two apart. -/
theorem Installs.not_refuses (installs : x.Installs queue t) : ¬x.Refuses queue t := by
  intro refuses
  have once := installs.once
  rw [refuses.never] at once
  cases once

theorem Installs.emulates_iff (installs : x.Installs queue t) :
    x.EmulatesCr4 queue t ↔ Cr4Allowed x.site.features x.moved := by
  refine ⟨fun emulates => ?_, fun allowed => ⟨fun _ => installs, fun not => absurd allowed not⟩⟩
  by_contra refused
  exact installs.not_refuses (emulates.refuses refused)

theorem Refuses.emulates_iff (refuses : x.Refuses queue t) :
    x.EmulatesCr4 queue t ↔ ¬Cr4Allowed x.site.features x.moved := by
  refine ⟨fun emulates allowed => ?_, fun not => ⟨fun allowed => absurd allowed not, fun _ => refuses⟩⟩
  exact (emulates.installs allowed).not_refuses refuses

end Exit

/-- **CR4 emulation** -- after any exits of the vcpu, for every value that is moved to CR4 and every
set of features, exactly when another check refuses the value or its PKE bit is the feature's flag. -/
theorem cr4_move_iff (boot : VoperationQueue) (idle : VoperationQueue.Idle boot) (run : List Exit)
    (queue : VoperationQueue) (ran : exec exitStep boot run = some queue) (x : Exit)
    (cr4 : crOf x.qualification = 4) (t : Ctx)
    (returns : Prog.run (answer x.world) x.moveCr (x.begun queue) = (some (), t)) :
    x.EmulatesCr4 queue t ↔
      (Cr4Otherwise x.site.features x.moved → x.moved.getLsbD cr4Pke = x.site.features.pke) := by
  have outcome := Exit.moveCr_cases (exits_idle idle ran) cr4 returns
  have checked := cr4Valid_iff x.site.features x.moved
  have allowed : Cr4Allowed x.site.features x.moved ↔
      Cr4Otherwise x.site.features x.moved ∧ x.moved.getLsbD cr4Pke = false :=
    ⟨fun allowed => ⟨allowed.toCr4Otherwise, allowed.pke⟩, fun both => ⟨both.1, both.2⟩⟩
  by_cases valid : cr4Valid x.site.features (withVmxe x.moved) = true
  · obtain ⟨otherwise, pke⟩ := checked.mp valid
    rw [if_pos valid] at outcome
    rw [outcome.emulates_iff, allowed, pke]
    exact ⟨fun both _ => both.2, fun same => ⟨otherwise, same otherwise⟩⟩
  · rw [if_neg valid] at outcome
    rw [outcome.emulates_iff, allowed, not_and]
    refine forall_congr' fun otherwise => ?_
    have pke : x.site.features.pke = true := by
      by_contra off
      exact valid (checked.mpr ⟨otherwise, by simpa using off⟩)
    rw [pke, Bool.not_eq_false]

/-- A 64-bit guest moves this value from RAX to CR4, on a processor with or without PKE. -/
def moveCr4Exit (pke : Bool) (val : BitVec 64) : Exit :=
  let exit := sampleExit (Function.update (sampleVmcs 28 0xa09b 0) .roExitQualification 4) fun _ => val
  { exit with site := { exit.site with features := { exit.site.features with pke := pke } } }

/-- PAE, on a processor without PKE. -/
theorem cr4_move_pae : VoperationQueue.Idle emptyQueue ∧
    exec exitStep emptyQueue [cpuidExit] = some emptyQueue ∧
    crOf (moveCr4Exit false 0x20).qualification = 4 ∧
    ∃ t, run (answer (moveCr4Exit false 0x20).world) (moveCr4Exit false 0x20).moveCr
        ((moveCr4Exit false 0x20).begun emptyQueue) = (some (), t) ∧
      (moveCr4Exit false 0x20).EmulatesCr4 emptyQueue t := by
  have idle : VoperationQueue.Idle emptyQueue := ⟨⟨rfl, rfl⟩, rfl, rfl⟩
  have ran : exec exitStep emptyQueue [cpuidExit] = some emptyQueue := rfl
  have cr4 : crOf (moveCr4Exit false 0x20).qualification = 4 := by decide
  refine ⟨idle, ran, cr4, _, rfl, ?_⟩
  exact (cr4_move_iff emptyQueue idle [cpuidExit] _ ran _ cr4 _ rfl).mpr fun _ => by decide

/-- On a processor with PKE the same value is refused with #GP; on one without, PKE is installed. -/
theorem cr4_move_checks_the_flag :
    VoperationQueue.Idle emptyQueue ∧ exec exitStep emptyQueue [] = some emptyQueue ∧
    (∃ t, run (answer (moveCr4Exit true 0x20).world) (moveCr4Exit true 0x20).moveCr
        ((moveCr4Exit true 0x20).begun emptyQueue) = (some (), t) ∧
      Cr4Allowed (moveCr4Exit true 0x20).site.features (moveCr4Exit true 0x20).moved ∧
      ¬(moveCr4Exit true 0x20).EmulatesCr4 emptyQueue t) ∧
    ∃ t, run (answer (moveCr4Exit false 0x400000).world) (moveCr4Exit false 0x400000).moveCr
        ((moveCr4Exit false 0x400000).begun emptyQueue) = (some (), t) ∧
      ¬Cr4Allowed (moveCr4Exit false 0x400000).site.features (moveCr4Exit false 0x400000).moved ∧
      t.vmcs .guestCr4 = 0x402000 ∧ ¬(moveCr4Exit false 0x400000).EmulatesCr4 emptyQueue t := by
  have allowed : Cr4Allowed (moveCr4Exit true 0x20).site.features (moveCr4Exit true 0x20).moved :=
    ⟨⟨by decide, by decide⟩, by decide⟩
  have refused : ¬Cr4Allowed (moveCr4Exit false 0x400000).site.features
      (moveCr4Exit false 0x400000).moved := fun allowed => absurd allowed.pke (by decide)
  refine ⟨⟨⟨rfl, rfl⟩, rfl, rfl⟩, rfl, ⟨_, rfl, allowed, fun emulates => ?_⟩, _, rfl, refused,
    by decide, fun emulates => ?_⟩
  · exact absurd (emulates.installs allowed).once (by decide)
  · exact absurd (emulates.refuses refused).never (by decide)

end Twan.Vportal
