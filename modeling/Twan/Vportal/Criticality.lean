/-
# Twan.Vportal.Criticality -- who bounds a criticality

The vcalls that write a vcpu's criticality, a partition's permissions or a CPU's criticality level,
with `vcreate_partition`: `vportal/vcalls.c`, `vemulate/vemulate_utils.c` and `vsched_mcs.c`.  The
queues of a scheduler and the nodes of a vcpu are arrays of `VSCHED_NUM_CRITICALITIES`, indexed by
these numbers.

Creation checks the vcpus, a permission is checked when it is set, a level when it is written.
`vemu_alter_vcpu` takes any criticality (`altered_out_of_range`); `criticality_in_range` is that the
root's arguments to it are the only way out of the range, and `queues_in_range` what this means for
the run queues.
-/
import Twan.Base.Run
import Twan.Vsched.RunQueue
import Twan.Vportal.Vcreate

namespace Twan.Vportal.Criticality

set_option autoImplicit false

open Twan.Base Twan.Lib Twan.Vsched Twan.Vportal.Vcreate

inductive Error where
  | einval
  | eperm
  | eopnotsupp
  | enospc
  deriving DecidableEq, Repr

def Error.ofErrno : Errno → Error
  | .einval => .einval
  | .eopnotsupp => .eopnotsupp

/-- The partition table, the identifiers that are free, and the `vcriticality_level` of each CPU. -/
structure Sys where
  partition : Fin 256 → Option Vpartition
  vids : Bmp256
  level : ℕ → BitVec 8

/-- A vcpu that makes a call. -/
structure Caller where
  vid : Fin 256
  processorId : ℕ
  deriving DecidableEq

/-! ## The calls -/

/-- What an entry of the table points to. -/
def Sys.place (s : Sys) (vid : Fin 256) (p : Option Vpartition) : Sys :=
  { s with partition := Function.update s.partition vid p }

def Sys.setVcpu (s : Sys) (vid : Fin 256) (p : Vpartition) (processorId : ℕ) (v : Vcpu) : Sys :=
  s.place vid (some { p with vcpus := p.vcpus.set processorId v })

/-- `vcurrent_vcpu()`. -/
def Sys.vcurrentVcpu (s : Sys) (caller : Caller) : Option Vcpu :=
  (s.partition caller.vid).bind fun p => p.vcpus[caller.processorId]?

/-- `if (alter_ticks)` of `vemu_alter_vcpu`. -/
def alterTicks (v : Vcpu) (isCurrent : Bool) (ticks : BitVec 32) : Vcpu :=
  let v := { v with timeSliceTicks := ticks }
  if v.currentTimeSliceTicks = 0#32 ∧ ticks ≠ 0#32 then
    { v with
      currentTimeSliceTicks := ticks
      rearm := v.rearm || v.state == .running || isCurrent }
  else v

/-- The arguments of `vemu_alter_vcpu` that say what to alter. -/
inductive Alter where
  | ticks (ticks : BitVec 32)
  | criticality (criticality : BitVec 8)

/-- `vemu_alter_vcpu(vid, processor_id, ..)`. -/
def vemuAlterVcpu (s : Sys) (caller : Caller) (vid : Fin 256) (processorId : BitVec 32)
    (alter : Alter) : Except Error Sys :=
  match s.partition vid with
  | none => .error .einval
  | some p =>
      match p.vcpus[processorId.toNat]? with
      | none => .error .einval
      | some v =>
          .ok (s.setVcpu vid p processorId.toNat (match alter with
            | .ticks ticks => alterTicks v (decide (caller = ⟨vid, processorId.toNat⟩)) ticks
            | .criticality criticality => { v with criticality := criticality }))

/-- `vemu_set_criticality_perm(vid, physical_processor_id, perm)`. -/
def vemuSetCriticalityPerm (k : VtwanKernel) (s : Sys) (vid : Fin 256) (processorId : BitVec 32)
    (perm : VcriticalityPerm) : Except Error Sys :=
  if k.numEnabledCpus ≤ processorId.toNat then .error .einval
  else if perm.write ∧ (perm.minCriticalityWriteable > perm.maxCriticalityWriteable ∨
      k.maxCriticality < perm.maxCriticalityWriteable.toNat) then .error .einval
  else
    match s.partition vid with
    | none => .error .einval
    | some p =>
        .ok (s.place vid
          (some { p with criticalityPerms := p.criticalityPerms.set processorId.toNat perm }))

/-- `vsched_mcs_write_criticality_level(vprocessor_id, criticality)`. -/
def vschedMcsWriteCriticalityLevel (k : VtwanKernel) (s : Sys) (cpu : ℕ) (criticality : BitVec 8) :
    Except Error Sys :=
  if k.maxCriticality < criticality.toNat then .error .einval
  else .ok { s with level := Function.update s.level cpu criticality }

/-- `vemu_write_criticality_level(requester_vid, physical_processor_id, criticality_level)`. -/
def vemuWriteCriticalityLevel (k : VtwanKernel) (s : Sys) (vid : Fin 256) (processorId : BitVec 32)
    (level : BitVec 8) : Except Error Sys :=
  if k.numEnabledCpus ≤ processorId.toNat ∨ k.maxCriticality < level.toNat then .error .einval
  else
    match s.partition vid with
    | none => .error .einval
    | some p =>
        match p.criticalityPerms[processorId.toNat]? with
        | none => .error .einval
        | some perm =>
            if perm.write ∧ perm.minCriticalityWriteable ≤ level ∧
                level ≤ perm.maxCriticalityWriteable then
              vschedMcsWriteCriticalityLevel k s processorId.toNat level
            else .error .einval

/-- `vpartition_id_alloc()`, with the identifiers that are left. -/
def vpartitionIdAlloc (vids : Bmp256) : Option (Fin 256 × Bmp256) :=
  vids.ffs.map fun vid => (Fin.ofNat 256 vid, vids.unset (Fin.ofNat 256 vid))

inductive Vcall where
  | alterVcpuTimeslice (vid : Fin 256) (processorId ticks : BitVec 32)
  | alterVcpuCriticality (vid : Fin 256) (processorId : BitVec 32) (criticality : BitVec 8)
  | setCriticalityPerm (vid : Fin 256) (processorId : BitVec 32) (perm : VcriticalityPerm)
  | writeCriticalityLevel (processorId : BitVec 32) (level : BitVec 8)
  | createPartition (p : Vpartition)

/-- A negative processor is the CPU of the caller. -/
def physProcessorId (current : Vcpu) (processorId : BitVec 32) : BitVec 32 :=
  if processorId.toInt < 0 then BitVec.ofNat 32 current.vqueueId else processorId

def valterVcpuTimeslice (s : Sys) (caller : Caller) (current : Vcpu) (vid : Fin 256)
    (processorId ticks : BitVec 32) : Except Error Sys :=
  if !current.root then .error .eperm else vemuAlterVcpu s caller vid processorId (.ticks ticks)

def valterVcpuCriticality (s : Sys) (caller : Caller) (current : Vcpu) (vid : Fin 256)
    (processorId : BitVec 32) (criticality : BitVec 8) : Except Error Sys :=
  if !current.root then .error .eperm
  else vemuAlterVcpu s caller vid processorId (.criticality criticality)

def vsetCriticalityPerm (k : VtwanKernel) (s : Sys) (current : Vcpu) (vid : Fin 256)
    (processorId : BitVec 32) (perm : VcriticalityPerm) : Except Error Sys :=
  if !current.root then .error .eperm
  else if vid = current.vid then .error .einval
  else vemuSetCriticalityPerm k s vid processorId perm

def vwriteCriticalityLevel (k : VtwanKernel) (s : Sys) (current : Vcpu) (processorId : BitVec 32)
    (level : BitVec 8) : Except Error Sys :=
  vemuWriteCriticalityLevel k s current.vid (physProcessorId current processorId) level

def vcreatePartition (k : VtwanKernel) (s : Sys) (current : Vcpu) (p : Vpartition) :
    Except Error Sys :=
  if !current.root then .error .eperm
  else
    match vpartitionPrecheck k p with
    | .error errno => .error (.ofErrno errno)
    | .ok () =>
        match vpartitionIdAlloc s.vids with
        | none => .error .enospc
        | some (vid, vids) =>
            .ok { s.place vid (some (vpartitionSetup k p vid)) with vids := vids }

def vcall (k : VtwanKernel) (s : Sys) (caller : Caller) (current : Vcpu) : Vcall → Except Error Sys
  | .alterVcpuTimeslice vid processorId ticks =>
      valterVcpuTimeslice s caller current vid processorId ticks
  | .alterVcpuCriticality vid processorId criticality =>
      valterVcpuCriticality s caller current vid processorId criticality
  | .setCriticalityPerm vid processorId perm => vsetCriticalityPerm k s current vid processorId perm
  | .writeCriticalityLevel processorId level =>
      vwriteCriticalityLevel k s current processorId level
  | .createPartition p => vcreatePartition k s current p

/-- A vcall of any vcpu; the scheduler and the other vcalls, which move vcpus to other states and
count their ticks; and the end of a teardown. -/
inductive Action where
  | vcall (caller : Caller) (call : Vcall)
  | schedule (vid : Fin 256) (processorId : ℕ) (state : VcpuState) (ticks : BitVec 32)
  | finalizeTeardown (vid : Fin 256)

def step (k : VtwanKernel) (s : Sys) : Action → Option Sys
  | .vcall caller call =>
      (s.vcurrentVcpu caller).map fun current => (vcall k s caller current call).toOption.getD s
  | .schedule vid processorId state ticks =>
      (s.partition vid).bind fun p => p.vcpus[processorId]?.map fun v =>
        s.setVcpu vid p processorId { v with state := state, currentTimeSliceTicks := ticks }
  | .finalizeTeardown vid =>
      (s.partition vid).bind fun p =>
        if p.vcpus.all fun v => v.state == .terminated then
          some { s.place vid none with vids := s.vids.set vid }
        else none

/-- The root partition alone, with the permissions and the criticality that `root_partition_init`
and `root_vcpu_init` give it; every level is `VSCHED_MIN_CRITICALITY`. -/
structure Initial (k : VtwanKernel) (s : Sys) : Prop where
  root : ∃ p, s.partition k.rootVid = some p ∧ (∀ v ∈ p.vcpus, v.criticality.toNat = k.maxCriticality) ∧
    ∀ perm ∈ p.criticalityPerms, perm.read ∧ perm.write ∧ perm.minCriticalityWriteable = 0#8 ∧
      perm.maxCriticalityWriteable.toNat = k.maxCriticality
  alone : ∀ vid, vid ≠ k.rootVid → s.partition vid = none
  level : ∀ cpu, s.level cpu = 0#8

/-! ## Indices -/

/-- The indices into `queues` and `vsched_nodes` of the loops of `__vsched_push` and
`__vsched_dequeue`. -/
def loopIndices (criticality : ℕ) : List ℕ := List.range (criticality + 1)

/-- The indices into `queues` of `__vsched_get_bucket`. -/
def bucketIndices (level : ℕ) : List ℕ := [level, 0]

section Indices

/-- A loop over the indices below `n` is a fold over the list of them. -/
theorem loop_eq_foldl {A : Type} {turn : A → ℕ → A} (loop : ℕ → A)
    (next : ∀ n, loop (n + 1) = turn (loop n) n) (n : ℕ) :
    loop n = (List.range n).foldl turn (loop 0) := by
  induction n with
  | zero => rfl
  | succ n ih =>
      rw [List.range_succ, List.foldl_append, ← ih]
      exact next n

variable {Cpu V : Type} [DecidableEq Cpu] [DecidableEq V] (home : V → Cpu)
  (s : RunQueue.Sys Cpu V) (v : V)

theorem push_indices : (s.push home v).dqs = (loopIndices (s.vcpu v).criticality).foldl
    (fun dqs i => dqs.pushback (.queues (home v) i) (v, i)) s.dqs :=
  loop_eq_foldl (s.pushLoop home v) (fun _ => rfl) _

theorem dequeue_indices : (s.dequeue home v).dqs = (loopIndices (s.vcpu v).criticality).foldl
    (fun dqs i => if dqs.isQueued (.queues (home v) i) (v, i) then
      dqs.dequeue (.queues (home v) i) (v, i) else dqs) s.dqs :=
  loop_eq_foldl (s.dequeueLoop home v) (fun _ => rfl) _

/-- A queue that no turn of a loop is about stays as it is. -/
theorem foldl_dq {Q Node : Type} {turn : Dq.Dqs Q Node → ℕ → Dq.Dqs Q Node} {q : Q} {l : List ℕ}
    (others : ∀ i ∈ l, ∀ dqs : Dq.Dqs Q Node, (turn dqs i).dq q = dqs.dq q) (dqs : Dq.Dqs Q Node) :
    (l.foldl turn dqs).dq q = dqs.dq q := by
  induction l generalizing dqs with
  | nil => rfl
  | cons i l ih =>
      rw [List.foldl_cons, ih fun j inside => others j (List.mem_cons_of_mem i inside)]
      exact others i List.mem_cons_self dqs

section Beyond

variable {Q Node : Type} [DecidableEq Q] [DecidableEq Node] (dqs : Dq.Dqs Q Node) {q r : Q}

theorem pushback_dq (other : r ≠ q) (n : Node) : (dqs.pushback q n).dq r = dqs.dq r := by
  unfold Dq.Dqs.pushback
  dsimp only
  split <;> simp [Dq.Dqs.setNode, Dq.Dqs.setDq, other]

theorem dequeue_dq (other : r ≠ q) (n : Node) : (dqs.dequeue q n).dq r = dqs.dq r := by
  unfold Dq.Dqs.dequeue Dq.Dqs.unlinkPrev Dq.Dqs.unlinkNext
  split <;> split <;> simp [Dq.Dqs.setNode, Dq.Dqs.setDq, other]

end Beyond

variable {maxCriticality : ℕ}

/-- With a criticality in range `__vsched_push` and `__vsched_dequeue` stay within `queues`. -/
theorem loops_within (small : (s.vcpu v).criticality ≤ maxCriticality) (cpu : Cpu) {i : ℕ}
    (beyond : maxCriticality < i) :
    (s.push home v).dqs.dq (.queues cpu i) = s.dqs.dq (.queues cpu i) ∧
      (s.dequeue home v).dqs.dq (.queues cpu i) = s.dqs.dq (.queues cpu i) := by
  have apart : ∀ j ∈ loopIndices (s.vcpu v).criticality,
      RunQueue.Queue.queues cpu i ≠ .queues (home v) j := by
    rintro j index ⟨⟩
    have below := List.mem_range.mp index
    omega
  rw [push_indices, dequeue_indices]
  refine ⟨foldl_dq (fun j index dqs => pushback_dq dqs (apart j index) _) _,
    foldl_dq (fun j index dqs => ?_) _⟩
  split
  · exact dequeue_dq dqs (apart j index) _
  · rfl

omit [DecidableEq Cpu] [DecidableEq V] in
theorem getBucket_index {cpu : Cpu} {i : ℕ} (found : s.getBucket cpu = some i) :
    i ∈ bucketIndices (s.level cpu) := by
  unfold RunQueue.Sys.getBucket at found
  unfold bucketIndices
  split_ifs at found <;> cases found <;> simp

end Indices

/-- Every criticality is in range, and so is every index. -/
structure InRange (k : VtwanKernel) (s : Sys) : Prop where
  vcpus : ∀ vid p, s.partition vid = some p → ∀ v ∈ p.vcpus, v.criticality.toNat ≤ k.maxCriticality
  levels : ∀ cpu, (s.level cpu).toNat ≤ k.maxCriticality
  loops : ∀ vid p, s.partition vid = some p → ∀ v ∈ p.vcpus,
    ∀ i ∈ loopIndices v.criticality.toNat, i < k.maxCriticality + 1
  buckets : ∀ cpu, ∀ i ∈ bucketIndices (s.level cpu).toNat, i < k.maxCriticality + 1

/-! ## Steps -/

variable {k : VtwanKernel} {s t : Sys}

theorem inRange_of (vcpus : ∀ vid p, s.partition vid = some p → ∀ v ∈ p.vcpus,
    v.criticality.toNat ≤ k.maxCriticality) (levels : ∀ cpu, (s.level cpu).toNat ≤ k.maxCriticality) :
    InRange k s where
  vcpus := vcpus
  levels := levels
  loops := by
    intro vid p found v mem i index
    have bound := vcpus vid p found v mem
    have small := List.mem_range.mp index
    omega
  buckets := by
    intro cpu i index
    have bound := levels cpu
    simp only [bucketIndices, List.mem_cons, List.not_mem_nil, or_false] at index
    omega

theorem Initial.inRange (initial : Initial k s) : InRange k s := by
  refine inRange_of (fun vid p found v mem => ?_) fun cpu => ?_
  · obtain ⟨root, placed, criticality, -⟩ := initial.root
    by_cases here : vid = k.rootVid
    · rw [here, placed] at found
      cases found
      exact (criticality v mem).le
    · rw [initial.alone vid here] at found
      cases found
  · rw [initial.level cpu]
    exact Nat.zero_le _

/-- A partition is placed whose vcpus are in range, or one is removed. -/
theorem InRange.place (range : InRange k s) {vid : Fin 256} {p : Option Vpartition}
    (small : ∀ q, p = some q → ∀ v ∈ q.vcpus, v.criticality.toNat ≤ k.maxCriticality) :
    InRange k (s.place vid p) := by
  refine inRange_of (fun vid' q found v mem => ?_) range.levels
  change Function.update s.partition vid p vid' = some q at found
  by_cases here : vid' = vid
  · rw [here, Function.update_self] at found
    exact small q found v mem
  · rw [Function.update_of_ne here] at found
    exact range.vcpus vid' q found v mem

theorem InRange.vids (range : InRange k s) (vids : Bmp256) : InRange k { s with vids := vids } :=
  ⟨range.vcpus, range.levels, range.loops, range.buckets⟩

theorem InRange.setVcpu (range : InRange k s) {vid : Fin 256} {p : Vpartition} {v : Vcpu} {i : ℕ}
    (found : s.partition vid = some p) (small : v.criticality.toNat ≤ k.maxCriticality) :
    InRange k (s.setVcpu vid p i v) := by
  refine range.place fun q equal w mem => ?_
  cases equal
  obtain old | rfl := List.mem_or_eq_of_mem_set mem
  · exact range.vcpus vid p found w old
  · exact small

theorem alterTicks_criticality (v : Vcpu) (isCurrent : Bool) (ticks : BitVec 32) :
    (alterTicks v isCurrent ticks).criticality = v.criticality := by
  unfold alterTicks
  simp only
  split <;> rfl

theorem forM_ok {α : Type} {check : α → Except Errno Unit} {l : List α}
    (ok : l.forM check = .ok ()) : ∀ a ∈ l, check a = .ok () := by
  induction l with
  | nil => simp
  | cons a l ih =>
      rw [List.forM_eq_forM, List.forM_cons] at ok
      obtain ⟨first, rest⟩ := bind_ok ok
      exact List.forall_mem_cons.mpr ⟨first, ih rest⟩

theorem vcpuPrecheck_criticality {v : Vcpu} (accepted : vcpuPrecheck k v = .ok ()) :
    v.criticality.toNat ≤ k.maxCriticality := by
  obtain ⟨-, rest⟩ := bind_ok accepted
  obtain ⟨-, rest⟩ := bind_ok rest
  have checked : ∀ {later : Except Errno Unit}, (do
      refuse .eopnotsupp (v.eptVe && !(k.perCpuData v.vqueueId).eptVe)
      refuse .einval (v.vlaunchRip >>> 16 != 0#64)
      refuse .einval v.terminate
      refuse .einval (k.maxCriticality < v.criticality.toNat)
      later) = .ok () → v.criticality.toNat ≤ k.maxCriticality := by
    intro later rest
    obtain ⟨-, rest⟩ := bind_ok rest
    obtain ⟨-, rest⟩ := bind_ok rest
    obtain ⟨-, rest⟩ := bind_ok rest
    obtain ⟨bounded, -⟩ := bind_ok rest
    exact Nat.le_of_not_lt (of_decide_eq_false (refuse_ok bounded))
  -- A vcpu with VPID enabled has two checks more in front of these.
  by_cases enabled : v.vpid.enabled = true
  · simp only [enabled, if_true] at rest
    obtain ⟨-, rest⟩ := bind_ok rest
    obtain ⟨-, rest⟩ := bind_ok rest
    exact checked rest
  · simp only [enabled] at rest
    exact checked rest

theorem vpartitionPrecheck_vcpus {p : Vpartition} (accepted : vpartitionPrecheck k p = .ok ()) :
    ∀ v ∈ p.vcpus, vcpuPrecheck k v = .ok () := by
  obtain ⟨-, rest⟩ := bind_ok accepted
  obtain ⟨-, rest⟩ := bind_ok rest
  obtain ⟨-, rest⟩ := bind_ok rest
  obtain ⟨-, rest⟩ := bind_ok rest
  obtain ⟨-, rest⟩ := bind_ok rest
  obtain ⟨-, rest⟩ := bind_ok rest
  obtain ⟨-, rest⟩ := bind_ok rest
  obtain ⟨-, rest⟩ := bind_ok rest
  obtain ⟨vcpus, -⟩ := bind_ok rest
  exact forM_ok vcpus

theorem vpartitionSetup_criticality {p : Vpartition} {vid : Fin 256}
    (small : ∀ v ∈ p.vcpus, v.criticality.toNat ≤ k.maxCriticality) :
    ∀ v ∈ (vpartitionSetup k p vid).vcpus, v.criticality.toNat ≤ k.maxCriticality := by
  intro v mem
  obtain ⟨i, bound, rfl⟩ := List.mem_mapIdx.mp mem
  exact small (p.vcpus[i]) (List.getElem_mem bound)

/-- The argument of an accepted `VALTER_VCPU_CRITICALITY` is in range. -/
def AltersInRange (k : VtwanKernel) (s : Sys) : Action → Prop
  | .vcall caller (.alterVcpuCriticality vid processorId criticality) =>
      ∀ current p, s.vcurrentVcpu caller = some current → current.root →
        s.partition vid = some p → processorId.toNat < p.vcpus.length →
          criticality.toNat ≤ k.maxCriticality
  | _ => True

theorem vemuAlterVcpu_ok {caller : Caller} {vid : Fin 256} {processorId : BitVec 32} {alter : Alter}
    (ok : vemuAlterVcpu s caller vid processorId alter = .ok t) :
    ∃ p v w, s.partition vid = some p ∧ p.vcpus[processorId.toNat]? = some v ∧
      t = s.setVcpu vid p processorId.toNat w ∧
      w.criticality = (match alter with
        | .ticks _ => v.criticality
        | .criticality criticality => criticality) := by
  unfold vemuAlterVcpu at ok
  split at ok
  · cases ok
  · rename_i p found
    split at ok
    · cases ok
    · rename_i v there
      cases ok
      refine ⟨p, v, _, found, there, rfl, ?_⟩
      cases alter with
      | ticks ticks => exact alterTicks_criticality v _ ticks
      | criticality criticality => rfl

theorem InRange.alterTicks (range : InRange k s) {caller : Caller} {vid : Fin 256}
    {processorId ticks : BitVec 32}
    (ok : vemuAlterVcpu s caller vid processorId (.ticks ticks) = .ok t) : InRange k t := by
  obtain ⟨p, v, w, found, there, rfl, same⟩ := vemuAlterVcpu_ok ok
  refine range.setVcpu found ?_
  rw [same]
  exact range.vcpus vid p found v (List.mem_of_getElem? there)

theorem InRange.setPerm (range : InRange k s) {vid : Fin 256} {processorId : BitVec 32}
    {perm : VcriticalityPerm} (ok : vemuSetCriticalityPerm k s vid processorId perm = .ok t) :
    InRange k t := by
  unfold vemuSetCriticalityPerm at ok
  split_ifs at ok
  split at ok
  · cases ok
  · rename_i p found
    cases ok
    refine range.place fun q equal => ?_
    cases equal
    exact range.vcpus vid p found

theorem InRange.writeLevel (range : InRange k s) {vid : Fin 256} {processorId : BitVec 32}
    {level : BitVec 8} (ok : vemuWriteCriticalityLevel k s vid processorId level = .ok t) :
    InRange k t := by
  unfold vemuWriteCriticalityLevel at ok
  split_ifs at ok with refused
  have small : level.toNat ≤ k.maxCriticality := Nat.le_of_not_lt fun large => refused (.inr large)
  split at ok
  · cases ok
  · split at ok
    · cases ok
    · split_ifs at ok
      unfold vschedMcsWriteCriticalityLevel at ok
      split_ifs at ok
      cases ok
      refine inRange_of range.vcpus fun cpu => ?_
      by_cases here : cpu = processorId.toNat
      · simp only [here, Function.update_self]
        exact small
      · simp only [Function.update_of_ne here]
        exact range.levels cpu

theorem InRange.create (range : InRange k s) {current : Vcpu} {p : Vpartition}
    (ok : vcreatePartition k s current p = .ok t) : InRange k t := by
  unfold vcreatePartition at ok
  split_ifs at ok
  split at ok
  · cases ok
  · rename_i accepted
    split at ok
    · cases ok
    · cases ok
      refine (range.place fun q equal => ?_).vids _
      cases equal
      apply vpartitionSetup_criticality
      exact fun v mem => vcpuPrecheck_criticality (vpartitionPrecheck_vcpus accepted v mem)

/-- The call that takes any criticality. -/
theorem alterCriticality_inRange_iff (range : InRange k s) {caller : Caller} {current : Vcpu}
    (here : s.vcurrentVcpu caller = some current) {vid : Fin 256} {processorId : BitVec 32}
    {criticality : BitVec 8} :
    InRange k ((valterVcpuCriticality s caller current vid processorId criticality).toOption.getD s) ↔
      AltersInRange k s (.vcall caller (.alterVcpuCriticality vid processorId criticality)) := by
  cases result : valterVcpuCriticality s caller current vid processorId criticality with
  | error errno =>
      refine iff_of_true range fun current' p here' root found inside => ?_
      rw [here] at here'
      cases here'
      -- The call of a root vcpu on a vcpu that exists is not refused.
      unfold valterVcpuCriticality vemuAlterVcpu at result
      simp [root, found, List.getElem?_eq_getElem inside] at result
  | ok t =>
      unfold valterVcpuCriticality at result
      split_ifs at result with root
      obtain ⟨p, v, w, found, there, rfl, altered⟩ := vemuAlterVcpu_ok result
      constructor
      · intro after current' p' _ _ found' inside
        rw [found] at found'
        cases found'
        have kept : w ∈ p.vcpus.set processorId.toNat w := List.mem_set inside w
        have bound := after.vcpus vid _ (Function.update_self vid _ s.partition) w kept
        rwa [altered] at bound
      · intro small
        refine range.setVcpu found ?_
        rw [altered]
        exact small current p here (by simpa using root) found (List.getElem?_eq_some_iff.mp there).1

/-- What a step does to the range: only the arguments of one vcall matter. -/
theorem step_inRange_iff (a : Action) (range : InRange k s) (moved : step k s a = some t) :
    InRange k t ↔ AltersInRange k s a := by
  cases a with
  | schedule vid processorId state ticks =>
      obtain ⟨p, found, moved⟩ := Option.bind_eq_some_iff.mp moved
      obtain ⟨v, there, rfl⟩ := Option.map_eq_some_iff.mp moved
      refine iff_of_true (range.setVcpu found ?_) trivial
      exact range.vcpus vid p found v (List.mem_of_getElem? there)
  | finalizeTeardown vid =>
      obtain ⟨p, found, moved⟩ := Option.bind_eq_some_iff.mp moved
      split_ifs at moved
      cases moved
      exact iff_of_true ((range.place (by simp)).vids _) trivial
  | vcall caller call =>
      obtain ⟨current, here, rfl⟩ := Option.map_eq_some_iff.mp moved
      have refused : ∀ {result : Except Error Sys}, (∀ t, result = .ok t → InRange k t) →
          InRange k (result.toOption.getD s) := by
        intro result kept
        cases result with
        | error errno => exact range
        | ok t => exact kept t rfl
      cases call with
      | alterVcpuTimeslice vid processorId ticks =>
          refine iff_of_true (refused fun t ok => ?_) trivial
          change valterVcpuTimeslice s caller current vid processorId ticks = .ok t at ok
          unfold valterVcpuTimeslice at ok
          split_ifs at ok
          exact range.alterTicks ok
      | alterVcpuCriticality vid processorId criticality => exact alterCriticality_inRange_iff range here
      | setCriticalityPerm vid processorId perm =>
          refine iff_of_true (refused fun t ok => ?_) trivial
          change vsetCriticalityPerm k s current vid processorId perm = .ok t at ok
          unfold vsetCriticalityPerm at ok
          split_ifs at ok
          exact range.setPerm ok
      | writeCriticalityLevel processorId level =>
          exact iff_of_true (refused fun t ok => range.writeLevel ok) trivial
      | createPartition p => exact iff_of_true (refused fun t ok => range.create ok) trivial

/-- **Only `VALTER_VCPU_CRITICALITY` can leave the range.**  All criticalities, levels and indices
are in range throughout a run if and only if every accepted call of it asks for a criticality of at
most `VSCHED_MAX_CRITICALITY`. -/
theorem criticality_in_range {run : List Action} (initial : Initial k s)
    (ran : exec (step k) s run = some t) :
    (∀ first second u, run = first ++ second → exec (step k) s first = some u → InRange k u) ↔
      Along (AltersInRange k) (step k) s run :=
  exec_throughout_iff (fun _ a _ range moved => step_inRange_iff a range moved) initial.inRange ran

/-- **The scheduler stays within its arrays.**  In such a run, whatever the run queues hold, a vcpu is
pushed into and dequeued from queues of a criticality of at most `VSCHED_MAX_CRITICALITY` only, and
popped from no other. -/
theorem queues_in_range {run : List Action} (initial : Initial k s)
    (alters : Along (AltersInRange k) (step k) s run) (ran : exec (step k) s run = some t)
    {Cpu V : Type} [DecidableEq Cpu] [DecidableEq V] (home : V → Cpu) (queues : RunQueue.Sys Cpu V) :
    (∀ vid p, t.partition vid = some p → ∀ v ∈ p.vcpus, ∀ w,
      (queues.vcpu w).criticality = v.criticality.toNat → ∀ cpu i, k.maxCriticality < i →
        (queues.push home w).dqs.dq (.queues cpu i) = queues.dqs.dq (.queues cpu i) ∧
          (queues.dequeue home w).dqs.dq (.queues cpu i) = queues.dqs.dq (.queues cpu i)) ∧
    ∀ c cpu, queues.level cpu = (t.level c).toNat → ∀ i, queues.getBucket cpu = some i →
      i ≤ k.maxCriticality := by
  have range : InRange k t :=
    exec_invariant_along (fun _ a _ range small moved => (step_inRange_iff a range moved).mpr small)
      initial.inRange alters ran
  refine ⟨fun vid p found v mem w same cpu i beyond => ?_, fun c cpu same i found => ?_⟩
  · apply loops_within home queues w _ cpu beyond
    rw [same]
    exact range.vcpus vid p found v mem
  · have index := getBucket_index queues found
    rw [same] at index
    exact Nat.lt_succ_iff.mp (range.buckets c i index)

/-- The root partition with one vcpu, where there is one criticality. -/
def rootPartition : Vpartition where
  eptEnabled := true
  eptCachingPolicy := .wb
  routes := Routes.Vpartition.blank
  criticalityPerms := [⟨true, true, 0#8, 0#8⟩]
  root := true
  vcpus := [plainVcpu true]
  numTerminated := 0
  notifyProcessorId := 0
  notifyVector := 0#8
  notifyNmi := false
  vid := 0

def rootOnly : Sys where
  partition vid := if vid = 0 then some rootPartition else none
  vids := Bmp256.full.unset 0
  level _ := 0#8

theorem rootOnly_initial : Initial plainKernel rootOnly where
  root := ⟨rootPartition, rfl, by decide +kernel, by decide +kernel⟩
  alone _ apart := if_neg apart
  level _ := rfl

/-- The root asks for the criticality that there is, and writes the level. -/
def altered : List Action :=
  [.vcall ⟨0, 0⟩ (.alterVcpuCriticality 0 0#32 0#8), .vcall ⟨0, 0⟩ (.writeCriticalityLevel 0#32 0#8)]

theorem criticality_in_range_altered :
    (exec (step plainKernel) rootOnly altered).isSome ∧
      ∀ first second u, altered = first ++ second →
        exec (step plainKernel) rootOnly first = some u → InRange plainKernel u :=
  ⟨rfl, (criticality_in_range rootOnly_initial
    (show exec (step plainKernel) rootOnly altered = some _ from rfl)).mpr
      ⟨fun _ _ _ _ _ _ => by decide, fun _ _ => ⟨trivial, fun _ _ => trivial⟩⟩⟩

/-- The root sets the criticality of its own vcpu to 1, where the only queue is `queues[0]`. -/
theorem altered_out_of_range : ¬ ∀ (k : VtwanKernel) (s t : Sys) (run : List Action), Initial k s →
    exec (step k) s run = some t → InRange k t := by
  intro sound
  have range := sound plainKernel rootOnly _ [.vcall ⟨0, 0⟩ (.alterVcpuCriticality 0 0#32 1#8)]
    rootOnly_initial rfl
  have bound := range.vcpus 0 { rootPartition with vcpus := [{ plainVcpu true with criticality := 1#8 }] }
    rfl { plainVcpu true with criticality := 1#8 } List.mem_cons_self
  exact absurd bound (by decide +kernel)

end Twan.Vportal.Criticality
