/-
# Twan.Vportal.Root -- who may act as root

The authority of root is the flag `root` of `struct vcpu`.  `vpartition_precheck` refuses a
partition whose own flag `root` is set; the flag of a vcpu, which is the one that the vcalls and
the MSR handlers look at, is neither checked by `vcpu_precheck` nor written by `vcpu_setup`, and
nothing writes it later.

* `root_authority_iff`: the vcpus of an accepted partition act as root in no later run exactly when
  the structures they were created from do not have the flag;
* `created_as_root`: a partition that is accepted and whose vcpu prints for debugging.
-/
import Twan.Vportal.Vcreate
import Twan.Vportal.Exits

namespace Twan.Vportal.Root

set_option autoImplicit false

open Twan.Base Twan.Base.Prog Twan.Lib Twan.Vemulate Twan.Vportal.Vcreate

/-! ## The later runs of a partition -/

/-- The exit, of a vcpu with this flag. -/
def asVcpu (x : Exit) (root : Bool) : Exit := { x with world := { x.world with root := root } }

/-- What the exit does. -/
def exitEvents (x : Exit) : List ((e : Op) × e.Answer) :=
  events (answer x.world) (vexitDispatcher x.site x.vregs) x.ctx

/-- The check for root is passed by a vcall, what is reserved to root is done, or one of the MSR
handlers takes its branch for root. -/
def rootAuthority (x : Exit) : (e : Op) × e.Answer → Prop
  | ⟨.root, found⟩ => x.func = some .vexitVmcall ∧ found = true
  | ⟨.call c, _⟩ => Call.rootOnly c = true
  | ⟨.rdmsrShielded _, _⟩ | ⟨.wrmsrShielded _ _, _⟩ => True
  | _ => False

/-- An exit of a vcpu of the partition, or a write to one: every field may be written but `root`,
which is written only for the vcpus of the root partition when the hypervisor comes up. -/
inductive Act where
  | exit (i : ℕ) (x : Exit)
  | write (i : ℕ) (v : Vcpu)

def step (p : Vpartition) : Act → Option Vpartition
  | .exit i _ => if i < p.vcpus.length then some p else none
  | .write i v =>
      match p.vcpus[i]? with
      | some old => if v.root = old.root then some { p with vcpus := p.vcpus.set i v } else none
      | none => none

/-- In no later run does an exit of one of its vcpus use the authority of root. -/
def NeverRoot (p : Vpartition) : Prop :=
  ∀ run q, exec step p run = some q → ∀ v ∈ q.vcpus, ∀ x,
    ∀ event ∈ exitEvents (asVcpu x v.root), ¬rootAuthority x event

/-! ## Without the flag -/

/-- The discipline of the exit path for a vcpu that is not root. -/
def unprivileged : Monitor Op Op.Answer Phase where
  ok _ e := match e with
    | .call c => Call.rootOnly c = false
    | .rdmsrShielded _ | .wrmsrShielded _ _ => False
    | _ => True
  may _ e := match e with
    | .root => fun (found : Bool) => found = false
    | _ => fun _ => True
  next := (discipline (fun _ => True) True).next
  halts _ := True

theorem unprivileged_of_discipline {α : Type} {prog : Handler α} {p : Phase}
    {post : α → Phase → Prop} (obeys : Obeys (discipline (fun _ => True) True) prog p post)
    (root : p.root = false) : Obeys unprivileged prog p post := by
  have follows : ∀ p q e, (p = q ∧ p.root = false) → (discipline (fun _ => True) True).ok p e →
      unprivileged.ok q e ∧ ∀ r, unprivileged.may q e r →
        (discipline (fun _ => True) True).may p e r ∧
          ((discipline (fun _ => True) True).next p e r = unprivileged.next q e r ∧
            ((discipline (fun _ => True) True).next p e r).root = false) := by
    rintro p _ e ⟨rfl, root⟩ allowed
    have never : p.root ≠ true := by rw [root]; decide
    cases e <;> try exact ⟨trivial, fun r may => ⟨trivial, rfl, root⟩⟩
    case vmread field =>
        refine ⟨trivial, fun r may => ⟨trivial, rfl, ?_⟩⟩
        cases field <;> exact root
    case root => exact ⟨trivial, fun r may => ⟨trivial, rfl, may⟩⟩
    case rdmsrShielded msr => exact absurd allowed.2 never
    case wrmsrShielded msr val => exact absurd allowed.2 never
    case call c =>
        refine ⟨?_, fun r may => ⟨trivial, rfl, root⟩⟩
        exact Bool.eq_false_iff.mpr fun only => never (allowed.2 only)
  refine (obeys.sim follows (fun _ _ _ halted => halted) ⟨rfl, root⟩).mono fun a q reached => ?_
  obtain ⟨p, ⟨rfl, _⟩, holds⟩ := reached
  exact holds

/-- A vcpu without the flag does nothing that is reserved to root. -/
theorem not_rootAuthority {x : Exit} (plain : x.world.root = false) :
    ∀ event ∈ exitEvents x, ∀ y, ¬rootAuthority y event := by
  have obeys := unprivileged_of_discipline
    (vexitDispatcher_obeys x.site x.vregs (p := { Phase.handler with count := 0 }) rfl rfl) rfl
  have expected : ∀ e s p, unprivileged.may p e (answer x.world e s).1 := by
    intro e s p
    cases e <;> first | exact plain | trivial
  intro event inside y
  obtain ⟨phase, s, allowed, answered⟩ := obeys.events expected event inside
  obtain ⟨e, r⟩ := event
  cases e <;> try exact id
  case root =>
      intro passes
      have found : r = x.world.root := answered
      rw [plain] at found
      exact absurd passes.2 (by rw [found]; decide)
  case call c =>
      intro only
      rw [rootAuthority, show Call.rootOnly c = false from allowed] at only
      cases only
  case rdmsrShielded msr => exact fun _ => allowed
  case wrmsrShielded msr val => exact fun _ => allowed

/-! ## The flag of a created vcpu -/

/-- The flags of the vcpus, which no later step changes. -/
def flags (p : Vpartition) : List Bool := p.vcpus.map (·.root)

theorem flags_step {p q : Vpartition} {a : Act} (moved : step p a = some q) : flags q = flags p := by
  cases a with
  | exit i x =>
      simp only [step, Option.ite_none_right_eq_some, Option.some.injEq] at moved
      rw [moved.2]
  | write i v =>
      simp only [step] at moved
      split at moved
      · rename_i old here
        simp only [Option.ite_none_right_eq_some, Option.some.injEq] at moved
        obtain ⟨same, rfl⟩ := moved
        refine List.ext_getElem? fun j => ?_
        simp only [flags, List.getElem?_map, List.getElem?_set]
        split
        · rename_i at_i
          subst at_i
          obtain ⟨inside, rfl⟩ := List.getElem?_eq_some_iff.mp here
          simp [inside, same]
        · rfl
      · cases moved

theorem flags_setup (k : VtwanKernel) (p : Vpartition) (vid : Fin 256) :
    flags (vpartitionSetup k p vid) = flags p := by
  refine List.ext_getElem? fun i => ?_
  simp only [flags, vpartitionSetup, List.getElem?_map, List.getElem?_mapIdx]
  cases p.vcpus[i]? <;> rfl

theorem flags_run {p q : Vpartition} {run : List Act} (ran : exec step p run = some q) :
    flags q = flags p :=
  exec_invariant (I := fun q => flags q = flags p)
    (fun _ _ _ same moved => (flags_step moved).trans same) rfl ran

/-! ## With the flag -/

/-- A read of the time-stamp counter, which is not blocked. -/
def rdmsrExit : Exit := sampleExit (sampleVmcs 31 0xa09b 0) fun _ => 0x10

/-- A vcpu with the flag has the MSR read for it. -/
theorem rdmsr_as_root : ∃ event ∈ exitEvents (asVcpu rdmsrExit true), rootAuthority rdmsrExit event := by
  have tenth : (exitEvents (asVcpu rdmsrExit true))[9]? = some ⟨.rdmsrShielded 0x10, none⟩ := rfl
  exact ⟨_, List.mem_of_getElem? tenth, trivial⟩

/-- **Root-only authority** -- the vcpus of a partition that is accepted and set up act as root in no
later run, whatever else the structures contain, if and only if none of the vcpus that were passed
in has the flag `root`. -/
theorem root_authority_iff (k : VtwanKernel) (p : Vpartition) (vid : Fin 256)
    (_accepted : vpartitionPrecheck k p = .ok ()) :
    NeverRoot (vpartitionSetup k p vid) ↔ ∀ v ∈ p.vcpus, v.root = false := by
  constructor
  · intro never v inside
    refine Bool.eq_false_iff.mpr fun root => ?_
    have flagged : true ∈ flags (vpartitionSetup k p vid) := by
      rw [flags_setup, ← root]
      exact List.mem_map_of_mem inside
    obtain ⟨created, there, rooted⟩ := List.mem_map.mp flagged
    obtain ⟨event, occurs, acts⟩ := rdmsr_as_root
    exact never [] _ rfl created there rdmsrExit event (rooted ▸ occurs) acts
  · intro plain run q ran v inside x event occurs
    refine not_rootAuthority ?_ event occurs x
    have kept : v.root ∈ flags p := by
      rw [← flags_setup k p vid, ← flags_run ran]
      exact List.mem_map_of_mem inside
    obtain ⟨passed, there, same⟩ := List.mem_map.mp kept
    exact same ▸ plain passed there

/-! ## A partition that is accepted -/

/-- A partition of one vcpu. -/
def plainPartition (root : Bool) : Vpartition where
  eptEnabled := true
  eptCachingPolicy := .wb
  routes := .blank
  criticalityPerms := []
  root := false
  vcpus := [plainVcpu root]
  numTerminated := 0
  notifyProcessorId := 0
  notifyVector := 0
  notifyNmi := false
  vid := 0

theorem plainPartition_accepted (root : Bool) :
    vpartitionPrecheck plainKernel (plainPartition root) = .ok () := by
  cases root <;> decide +kernel

/-- Without the flag. -/
theorem root_authority_plain : NeverRoot (vpartitionSetup plainKernel (plainPartition false) 1) := by
  refine (root_authority_iff plainKernel (plainPartition false) 1
    (plainPartition_accepted false)).mpr fun v inside => ?_
  rw [List.mem_singleton.mp inside]
  rfl

/-- `VMCALL` for `vkdbg`, with a string. -/
def kdbgExit : Exit := sampleExit (sampleVmcs 18 0xa09b 0) fun _ => 24

/-- With the flag: the partition passes its check, and its vcpu prints as root would. -/
theorem created_as_root :
    vpartitionPrecheck plainKernel (plainPartition true) = .ok () ∧
      flags (vpartitionSetup plainKernel (plainPartition true) 1) = [true] ∧
      ⟨.root, true⟩ ∈ exitEvents (asVcpu kdbgExit true) ∧
      ⟨.call (.vdbgf 24), 0⟩ ∈ exitEvents (asVcpu kdbgExit true) ∧
      ¬NeverRoot (vpartitionSetup plainKernel (plainPartition true) 1) := by
  have passes : (exitEvents (asVcpu kdbgExit true))[12]? = some ⟨.root, true⟩ := rfl
  have prints : (exitEvents (asVcpu kdbgExit true))[13]? = some ⟨.call (.vdbgf 24), 0⟩ := rfl
  refine ⟨plainPartition_accepted true, rfl, List.mem_of_getElem? passes,
    List.mem_of_getElem? prints, fun never => ?_⟩
  exact never [] _ rfl _ List.mem_cons_self kdbgExit _ (List.mem_of_getElem? passes) ⟨rfl, rfl⟩

end Twan.Vportal.Root
