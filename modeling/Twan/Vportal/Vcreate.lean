/-
# Twan.Vportal.Vcreate -- what a partition is checked for, and what it is set up with

`vcpu_precheck`, `vpartition_precheck`, `vcpu_setup` and `vpartition_setup` of
`vportal/vcreate.c`: a partition is a structure that its creator has filled in, of which
every field is checked, written, or taken as it is.  The checks stand in the order of the
source.  Timers, list nodes, locks and the saved context, which `vcpu_setup` also clears,
are not part of the records here.

The second half is the VPID of a vcpu.  `vpid_t` packs the identifier into 15 bits and the
`enabled` flag into the 16th.  `vcpu_entry` programs the whole word into the VMCS, and the
hardware tags the vcpu's translations with it; `__venter` invalidates the identifier
alone.  With the flag set the two are never equal (`vpid_disagrees`).
-/
import Twan.Base.Run
import Twan.Vsched.Vcpu
import Twan.Vportal.Routes

namespace Twan.Vportal.Vcreate

set_option autoImplicit false

open Twan.Base Twan.Lib Twan.Vsched

inductive Errno where
  | einval
  | eopnotsupp
  deriving DecidableEq, Repr

/-- `vpid_t`. -/
structure VpidT where
  val : BitVec 16
  deriving DecidableEq, Repr

/-- `fields.vpid`, as the 64-bit argument of `invvpid_single`. -/
def VpidT.vpid (p : VpidT) : BitVec 64 := (p.val.extractLsb' 0 15).setWidth 64

/-- `fields.enabled`. -/
def VpidT.enabled (p : VpidT) : Bool := p.val.getLsbD 15

/-- The physical addresses and counts of `struct vcpu_regions_arch`. -/
structure VcpuRegionsArch where
  ioBitmapAPhys : BitVec 64
  ioBitmapBPhys : BitVec 64
  msrBitmapPhys : BitVec 64
  vmcsPhys : BitVec 64
  veInfoAreaPhys : BitVec 64
  vexitMsrLoadAreaPhys : BitVec 64
  msrLoadSaveAreaPhys : BitVec 64
  vexitLoadCount : BitVec 32
  msrLoadSaveCount : BitVec 32

/-- The fields of `struct vcpu` that are checked, written or used by the vcalls. -/
structure Vcpu where
  arch : VcpuRegionsArch
  root : Bool
  state : VcpuState
  tlbFlushPending : Bool
  criticality : BitVec 8
  timeSliceTicks : BitVec 32
  currentTimeSliceTicks : BitVec 32
  rearm : Bool
  terminate : Bool
  pvSpinState : PvSpinState
  preemptionCount : BitVec 32
  flags : BitVec 8
  processorId : Nat
  vpid : VpidT
  vid : Fin 256
  vpartitionNumCpus : Nat
  vqueueId : Nat
  allowedExternalVectors : Bmp256
  subscribedVectors : Bmp256
  delivery : BitVec 32
  pendingExternalInterrupts : Bmp256
  voperationsPending : BitVec 8
  vlaunchRip : BitVec 64
  vbootState : VbootState
  eptVe : Bool

/-- `ept_caching_policy_t`, with its guard and what lies above it. -/
inductive EptCachingPolicy where
  | uc
  | wc
  | reserved0
  | reserved1
  | wt
  | wp
  | wb
  | guard
  deriving DecidableEq, Repr

/-- `vcriticality_perm_t`. -/
structure VcriticalityPerm where
  read : Bool
  write : Bool
  minCriticalityWriteable : BitVec 8
  maxCriticalityWriteable : BitVec 8

/-- The fields of `struct vpartition`, the route maps as in `Twan.Vportal.Routes`. -/
structure Vpartition where
  eptEnabled : Bool
  eptCachingPolicy : EptCachingPolicy
  routes : Routes.Vpartition
  criticalityPerms : List VcriticalityPerm
  root : Bool
  vcpus : List Vcpu
  numTerminated : Nat
  notifyProcessorId : Nat
  notifyVector : BitVec 8
  notifyNmi : Bool
  vid : Fin 256

/-- What a CPU supports, and its vectors. -/
structure VperCpu where
  unrestrictedGuest : Bool
  ept : Bool
  vpid : Bool
  invvpidSingle : Bool
  eptVe : Bool
  msrAreaMax : BitVec 32
  availableVectors : Bmp256

/-- `struct vtwan_kernel`, with `VSCHED_MAX_CRITICALITY` and whether
`CONFIG_TWANVISOR_VSCHED_STRICT` is on. -/
structure VtwanKernel where
  perCpuData : Nat → VperCpu
  numEnabledCpus : Nat
  rootVid : Fin 256
  rootNumVcpus : Nat
  maxCriticality : Nat
  strict : Bool

/-- `NMI`. -/
def nmi : BitVec 8 := 2#8

/-- `vis_vboot_state_valid(state)`. -/
def visVbootStateValid (strict : Bool) : VbootState → Bool
  | .ready => true
  | .paused => !strict
  | .none => false

/-- `if (cond) return -errno`. -/
def refuse (errno : Errno) (cond : Bool) : Except Errno Unit :=
  if cond then .error errno else .ok ()

/-- The address is not page aligned. -/
def offPage (phys : BitVec 64) : Bool := phys &&& 0xfff#64 != 0#64

/-- The MSR area is used, and is not aligned or too long. -/
def badMsrArea (count : BitVec 32) (phys : BitVec 64) (max : BitVec 32) : Bool :=
  count != 0#32 && (phys &&& 0xf#64 != 0#64 || decide (max < count))

/-- `vcpu_precheck(vcpu)`. -/
def vcpuPrecheck (k : VtwanKernel) (v : Vcpu) : Except Errno Unit := do
  refuse .einval (k.numEnabledCpus ≤ v.vqueueId)
  let cpu := k.perCpuData v.vqueueId
  refuse .eopnotsupp (!cpu.unrestrictedGuest || !cpu.ept)
  if v.vpid.enabled then
    refuse .eopnotsupp (!cpu.vpid || !cpu.invvpidSingle)
    refuse .einval (v.vpid.vpid == 0#64)
  refuse .eopnotsupp (v.eptVe && !cpu.eptVe)
  refuse .einval (v.vlaunchRip >>> 16 != 0#64)
  refuse .einval v.terminate
  refuse .einval (k.maxCriticality < v.criticality.toNat)
  refuse .einval (v.preemptionCount != 0#32)
  refuse .einval (!visVbootStateValid k.strict v.vbootState)
  refuse .einval (offPage v.arch.ioBitmapAPhys)
  refuse .einval (offPage v.arch.ioBitmapBPhys)
  refuse .einval (offPage v.arch.msrBitmapPhys)
  refuse .einval (offPage v.arch.vmcsPhys)
  refuse .einval (offPage v.arch.veInfoAreaPhys)
  refuse .einval (badMsrArea v.arch.vexitLoadCount v.arch.vexitMsrLoadAreaPhys cpu.msrAreaMax)
  refuse .einval (badMsrArea v.arch.msrLoadSaveCount v.arch.msrLoadSaveAreaPhys cpu.msrAreaMax)
  refuse .einval v.subscribedVectors.ffs.isSome
  refuse .einval ((List.finRange 4).any fun w =>
    ~~~(cpu.availableVectors w) &&& v.allowedExternalVectors w != 0#64)

/-- `vpartition_precheck(vpartition)`, of a pointer that is not NULL. -/
def vpartitionPrecheck (k : VtwanKernel) (p : Vpartition) : Except Errno Unit := do
  refuse .eopnotsupp (!p.eptEnabled)
  refuse .einval p.root
  refuse .einval (p.eptCachingPolicy == .reserved0 || p.eptCachingPolicy == .reserved1 ||
    p.eptCachingPolicy == .guard)
  refuse .einval (p.numTerminated != 0)
  refuse .einval (k.rootNumVcpus ≤ p.notifyProcessorId)
  refuse .einval (p.notifyNmi && p.notifyVector != nmi)
  refuse .einval (p.criticalityPerms.any fun perm =>
    perm.write && decide (k.maxCriticality < perm.maxCriticalityWriteable.toNat))
  refuse .einval p.vcpus.isEmpty
  p.vcpus.forM (vcpuPrecheck k)
  refuse .einval (!p.routes.precheck)

/-- `vcpu_setup(vpartition, vcpu, processor_id)`. -/
def vcpuSetup (p : Vpartition) (v : Vcpu) (processorId : Nat) : Vcpu :=
  { v with
    tlbFlushPending := false
    currentTimeSliceTicks := 0#32
    rearm := false
    state := .initializing
    pvSpinState := .none
    flags := 0#8
    processorId := processorId
    vid := p.vid
    vpartitionNumCpus := p.vcpus.length
    delivery := 0#32
    pendingExternalInterrupts := Bmp256.empty
    voperationsPending := 0#8 }

/-- `vpartition_setup(vpartition, vid)`. -/
def vpartitionSetup (k : VtwanKernel) (p : Vpartition) (vid : Fin 256) : Vpartition :=
  let p := { p with vid := vid, routes := p.routes.setup k.rootVid }
  { p with vcpus := p.vcpus.mapIdx fun i v => vcpuSetup p v i }

/-! ## What the checks leave -/

theorem refuse_ok {errno : Errno} {cond : Bool} (ok : refuse errno cond = .ok ()) : cond = false := by
  cases cond with
  | false => rfl
  | true => cases ok

theorem bind_ok {check : Except Errno Unit} {rest : Unit → Except Errno Unit}
    (ok : check >>= rest = .ok ()) : check = .ok () ∧ rest () = .ok () := by
  cases check with
  | error errno => cases ok
  | ok value => exact ⟨rfl, ok⟩

/-- An accepted vcpu with VPID enabled has an identifier that `invvpid` takes. -/
theorem vcpuPrecheck_vpid {k : VtwanKernel} {v : Vcpu} (accepted : vcpuPrecheck k v = .ok ())
    (enabled : v.vpid.enabled = true) : v.vpid.vpid ≠ 0#64 := by
  obtain ⟨-, rest⟩ := bind_ok accepted
  obtain ⟨-, rest⟩ := bind_ok rest
  simp only [enabled, if_true] at rest
  obtain ⟨-, rest⟩ := bind_ok rest
  obtain ⟨checked, -⟩ := bind_ok rest
  have nonzero := refuse_ok checked
  simpa using nonzero

/-! ## The VPID -/

/-- The TLB of a CPU as one vcpu uses it: which pages have a translation under which VPID.
`vmcsVpid` is the field `VMCS_CTRL_VPID` of the vcpu's VMCS. -/
structure Tlb where
  vmcsVpid : BitVec 16
  cached : BitVec 16 → Nat → Bool
  tlbFlushPending : Bool
  launched : Bool
  inGuest : Bool

/-- Before `vcpu_entry`; the TLB may hold anything. -/
def Tlb.fresh (cached : BitVec 16 → Nat → Bool) : Tlb := ⟨0#16, cached, false, false, false⟩

/-- `invvpid_single(vpid)`.  The instruction fails for VPID 0 and for reserved bits. -/
def Tlb.invvpidSingle (t : Tlb) (vpid : BitVec 64) : Tlb :=
  if vpid >>> 16 = 0#64 ∧ vpid ≠ 0#64 then
    { t with cached := Function.update t.cached (vpid.setWidth 16) fun _ => false }
  else t

/-- The part of `__venter` that flushes; then the guest runs. -/
def Tlb.venter (t : Tlb) (vpid : VpidT) : Tlb :=
  let invvpid := t.tlbFlushPending && vpid.enabled
  let t := { t with tlbFlushPending := false, inGuest := true }
  if invvpid then t.invvpidSingle vpid.vpid else t

/-- The part of `vcpu_entry` that programs the VPID, up to its `__venter`. -/
def Tlb.vcpuEntry (t : Tlb) (vpid : VpidT) : Tlb :=
  let t := { t with launched := true }
  if vpid.enabled then { t with vmcsVpid := vpid.val }.invvpidSingle (vpid.val.setWidth 64) else t

/-- Entries and exits of the vcpu, accesses of its guest, evictions, and flush requests. -/
inductive Event where
  | vcpuEntry
  | venter
  | vmexit
  | access (page : Nat)
  | evict (vpid : BitVec 16) (page : Nat)
  | flush

/-- `vcpu_entry` is what the vcpu starts with; it ends in `__venter`. -/
def Tlb.step (vpid : VpidT) (t : Tlb) : Event → Option Tlb
  | .vcpuEntry => if t.launched then none else some ((t.vcpuEntry vpid).venter vpid)
  | .venter => if t.launched && !t.inGuest then some (t.venter vpid) else none
  | .vmexit => if t.inGuest then some { t with inGuest := false } else none
  | .access page =>
      if t.inGuest then
        some { t with
          cached := Function.update t.cached t.vmcsVpid
            (Function.update (t.cached t.vmcsVpid) page true) }
      else none
  | .evict id page =>
      some { t with
        cached := Function.update t.cached id (Function.update (t.cached id) page false) }
  | .flush => some { t with tlbFlushPending := true }

/-- The identifier that `vcpu_entry` programs is the one that `__venter` invalidates. -/
def VpidAgrees (vpid : VpidT) : Prop := vpid.val.setWidth 64 = vpid.vpid

/-- In no run does an entry that consumes a flush leave a translation of the vcpu. -/
def FlushesAll (vpid : VpidT) : Prop :=
  ∀ cached run t u, exec (Tlb.step vpid) (Tlb.fresh cached) run = some t →
    t.tlbFlushPending = true → t.step vpid .venter = some u →
      ∀ page, u.cached u.vmcsVpid page = false

theorem val_ne_vpid {vpid : VpidT} (enabled : vpid.enabled = true) :
    vpid.val ≠ vpid.vpid.setWidth 16 := by
  intro same
  have bit : vpid.val.getLsbD 15 = (vpid.vpid.setWidth 16).getLsbD 15 := by rw [← same]
  rw [show vpid.val.getLsbD 15 = true from enabled] at bit
  simp [VpidT.vpid] at bit

theorem not_vpidAgrees {vpid : VpidT} (enabled : vpid.enabled = true) : ¬ VpidAgrees vpid := by
  intro agrees
  apply val_ne_vpid enabled
  rw [← show vpid.val.setWidth 64 = vpid.vpid from agrees]
  simp

/-- The flush of `__venter` is for another tag than that of the vcpu. -/
theorem venter_cached {vpid : VpidT} (enabled : vpid.enabled = true) (t : Tlb) :
    (t.venter vpid).cached vpid.val = t.cached vpid.val := by
  rw [Tlb.venter]
  simp only [Tlb.invvpidSingle]
  split
  · split
    · simp [val_ne_vpid enabled]
    · rfl
  · rfl

theorem venter_vmcsVpid {vpid : VpidT} (t : Tlb) :
    (t.venter vpid).vmcsVpid = t.vmcsVpid ∧ (t.venter vpid).launched = t.launched := by
  rw [Tlb.venter]
  simp only [Tlb.invvpidSingle]
  split
  · split <;> exact ⟨rfl, rfl⟩
  · exact ⟨rfl, rfl⟩

theorem vcpuEntry_vmcsVpid {vpid : VpidT} (enabled : vpid.enabled = true) (t : Tlb) :
    (t.vcpuEntry vpid).vmcsVpid = vpid.val := by
  simp only [Tlb.vcpuEntry, enabled, if_true, Tlb.invvpidSingle]
  split <;> rfl

/-- Once the vcpu has started, its translations are tagged with the whole word. -/
theorem step_vmcsVpid {vpid : VpidT} (enabled : vpid.enabled = true) (s : Tlb) (e : Event) (t : Tlb)
    (tagged : s.launched = true → s.vmcsVpid = vpid.val) (moved : s.step vpid e = some t) :
    t.launched = true → t.vmcsVpid = vpid.val := by
  cases e with
  | vcpuEntry =>
      simp only [Tlb.step] at moved
      split at moved <;> cases moved
      intro _
      rw [(venter_vmcsVpid _).1, vcpuEntry_vmcsVpid enabled]
  | venter =>
      simp only [Tlb.step] at moved
      split at moved <;> cases moved
      rw [(venter_vmcsVpid s).1, (venter_vmcsVpid s).2]
      exact tagged
  | vmexit | access page =>
      simp only [Tlb.step] at moved
      split at moved <;> cases moved
      exact tagged
  | evict id page | flush =>
      cases moved
      exact tagged

/-- The vcpu starts, touches a page, exits, and is asked to flush. -/
def touchThenFlush : List Event := [.vcpuEntry, .access 0, .vmexit, .flush]

theorem touchThenFlush_cached {vpid : VpidT} (enabled : vpid.enabled = true)
    (cached : BitVec 16 → Nat → Bool) :
    ∃ t, exec (Tlb.step vpid) (Tlb.fresh cached) touchThenFlush = some t ∧
      t.tlbFlushPending = true ∧ t.launched = true ∧ t.inGuest = false ∧
      t.cached t.vmcsVpid 0 = true := by
  obtain ⟨s, first, guest, launched⟩ : ∃ s, (Tlb.fresh cached).step vpid .vcpuEntry = some s ∧
      s.inGuest = true ∧ s.launched = true := by
    refine ⟨((Tlb.fresh cached).vcpuEntry vpid).venter vpid, rfl, ?_⟩
    simp only [Tlb.venter, Tlb.vcpuEntry, Tlb.invvpidSingle, enabled, if_true]
    constructor <;> (repeat' split) <;> rfl
  refine ⟨{ s with
    cached := Function.update s.cached s.vmcsVpid (Function.update (s.cached s.vmcsVpid) 0 true)
    inGuest := false
    tlbFlushPending := true }, ?_, rfl, launched, rfl, by simp⟩
  rw [touchThenFlush, exec, first]
  simp [exec, Tlb.step, guest]

/-- **The VPID that is programmed is never the one that is flushed.**  For every vcpu that
passes `vcpu_precheck` with VPID enabled the two identifiers differ; in every run, an entry
leaves every translation of the vcpu as it was, whether it consumes a flush or not; and
there is a run where it consumes one and a translation stays. -/
theorem vpid_disagrees {k : VtwanKernel} {v : Vcpu} (accepted : vcpuPrecheck k v = .ok ())
    (enabled : v.vpid.enabled = true) :
    v.vpid.vpid ≠ 0#64 ∧ ¬ VpidAgrees v.vpid ∧ ¬ FlushesAll v.vpid ∧
      ∀ cached run t u, exec (Tlb.step v.vpid) (Tlb.fresh cached) run = some t →
        t.step v.vpid .venter = some u → u.cached u.vmcsVpid = t.cached t.vmcsVpid := by
  have keeps : ∀ cached run t u, exec (Tlb.step v.vpid) (Tlb.fresh cached) run = some t →
      t.step v.vpid .venter = some u → u.cached u.vmcsVpid = t.cached t.vmcsVpid := by
    intro cached run t u ran entered
    have tagged : t.launched = true → t.vmcsVpid = v.vpid.val :=
      exec_invariant (step_vmcsVpid enabled) (fun launched => by cases launched) ran
    simp only [Tlb.step] at entered
    split at entered
    · rename_i ready
      cases entered
      rw [(venter_vmcsVpid t).1, tagged (by simp_all), venter_cached enabled]
    · cases entered
  refine ⟨vcpuPrecheck_vpid accepted enabled, not_vpidAgrees enabled, fun clean => ?_, keeps⟩
  obtain ⟨t, ran, pending, launched, out, touched⟩ :=
    touchThenFlush_cached enabled fun _ _ => false
  have entered : t.step v.vpid .venter = some (t.venter v.vpid) := by
    simp [Tlb.step, launched, out]
  have gone := clean _ _ _ _ ran pending entered 0
  rw [keeps _ _ _ _ ran entered, touched] at gone
  cases gone

/-- A CPU that supports everything, and a vcpu of criticality 0 with VPID 1. -/
def plainKernel : VtwanKernel :=
  ⟨fun _ => ⟨true, true, true, true, true, 0#32, Bmp256.full⟩, 1, 0, 1, 0, false⟩

def plainVcpu (root : Bool) : Vcpu where
  arch := ⟨0#64, 0#64, 0#64, 0#64, 0#64, 0#64, 0#64, 0#32, 0#32⟩
  root := root
  state := .initializing
  tlbFlushPending := false
  criticality := 0#8
  timeSliceTicks := 0#32
  currentTimeSliceTicks := 0#32
  rearm := false
  terminate := false
  pvSpinState := .none
  preemptionCount := 0#32
  flags := 0#8
  processorId := 0
  vpid := ⟨0x8001#16⟩
  vid := 0
  vpartitionNumCpus := 1
  vqueueId := 0
  allowedExternalVectors := Bmp256.empty
  subscribedVectors := Bmp256.empty
  delivery := 0#32
  pendingExternalInterrupts := Bmp256.empty
  voperationsPending := 0#8
  vlaunchRip := 0x1000#64
  vbootState := .ready
  eptVe := false

theorem plainVcpu_accepted (root : Bool) : vcpuPrecheck plainKernel (plainVcpu root) = .ok () := by
  cases root <;> decide +kernel

theorem vpid_disagrees_one : ¬ FlushesAll ⟨0x8001#16⟩ :=
  (vpid_disagrees (plainVcpu_accepted false) (by decide)).2.2.1

/-- VPID 1 is programmed as `0x8001` and flushed as `1`: the translation of a page the
guest has touched is there after the flush. -/
theorem flushed_translation_stays : vcpuPrecheck plainKernel (plainVcpu false) = .ok () ∧
    (plainVcpu false).vpid.enabled = true ∧ ¬ VpidAgrees (plainVcpu false).vpid ∧
    ∃ t u, exec (Tlb.step (plainVcpu false).vpid) (Tlb.fresh fun _ _ => false) touchThenFlush =
        some t ∧ t.tlbFlushPending = true ∧
      t.step (plainVcpu false).vpid .venter = some u ∧ u.tlbFlushPending = false ∧
      u.cached u.vmcsVpid 0 = true :=
  ⟨plainVcpu_accepted false, by decide, not_vpidAgrees (by decide), _, _, rfl, rfl, rfl,
    by decide +kernel, by decide +kernel⟩

end Twan.Vportal.Vcreate
