/-
# Twan.Kernel.ApBoot -- how the other processors are woken

`__start_twan` and `__setup_ap` of `src/kernel/kmain.c`, `lapic_wakeup_ap` of
`src/kernel/apic/apic.c` and the blob of `src/boot/wakeup.S`.  The processor that boots copies the
blob to `WAKEUP_ADDR`, and for each enabled entry of `per_cpu_data` writes `ap_rsp` into the copy,
sends INIT and two startup IPIs to the id of the entry, and waits for its `active` flag.  At the end
it puts back what the firmware had at `WAKEUP_ADDR`.

The processors answer to the ids of their LAPICs.  IPIs are under way until they are delivered, a
startup IPI starts only a processor that waits for one, and nothing but the flag tells how far a
processor is.  The `x2apic` flag is never set (`lapic_sync` does not ask CPUID), so an id is 8 bits
and 255 reaches everyone.
-/
import Mathlib.Data.List.FinRange
import Twan.Base.Run

namespace Twan.Kernel.ApBoot

set_option autoImplicit false
set_option linter.unusedSectionVars false

open Twan.Base

/-- What `lapic_wakeup_ap` sends. -/
inductive Ipi where
  | init
  | deassert
  | startup
  deriving DecidableEq

/-- `per_cpu_data` as `parse_madt` leaves it; `bsp` is the entry with the id of the processor that
boots. -/
structure PerCpuData (N : ℕ) where
  lapicId : Fin N → ℕ
  enabled : Fin N → Bool
  bsp : Fin N

/-- The memory at `WAKEUP_ADDR`.  `ap_rsp` of the blob is 0 or the top of the `wakeup_stack` of an
entry. -/
inductive Area (N : ℕ) where
  | firmware
  | blob (apRsp : Option (Fin N))
  deriving DecidableEq

/-- `*ap_rsp_reloc = ...`. -/
def Area.setRsp {N : ℕ} (i : Fin N) : Area N → Area N
  | .firmware => .firmware
  | .blob _ => .blob (some i)

/-- Where the loop is with the entry that it wakes. -/
inductive Wake where
  | apRsp
  | init
  | deassert
  | startup
  | again
  | spin
  deriving DecidableEq

/-- The processor that boots. -/
inductive Bsp (N : ℕ) where
  | save
  | copy
  | loop (i : ℕ)
  | wake (i : Fin N) (w : Wake)
  | multicore
  | restore
  | done
  /-- It sent INIT to itself. -/
  | reset
  deriving DecidableEq

/-- Another processor: it waits for a startup IPI, executes the blob before and after it has loaded
the stack pointer, is in `__trampoline` and `__start_twan`, in `__setup_ap` with its entry, or in
`halt_loop`.  It is `lost` when it executes what is not the blob. -/
inductive Ap (N : ℕ) where
  | waitSipi
  | wakeup
  | stacked (rsp : Option (Fin N))
  | entered (rsp : Option (Fin N))
  | setup (rsp : Option (Fin N)) (cpu : Fin N)
  | halted (rsp : Option (Fin N)) (cpu : Option (Fin N))
  | lost
  deriving DecidableEq

structure Sys (N : ℕ) (P : Type) where
  area : Area N
  saved : Option (Area N)
  bsp : Bsp N
  inbox : P → List Ipi
  ap : P → Ap N
  active : Fin N → Bool
  multicoreInitialized : Bool

inductive Action (P : Type) where
  | bsp
  | deliver (p : P)
  | ap (p : P)
  deriving DecidableEq

section Model

variable {N : ℕ} {P : Type} [DecidableEq P] (cpus : PerCpuData N) (apicId : P → ℕ)

namespace PerCpuData

/-- The entries that the loop wakes. -/
def Wakes (i : Fin N) : Prop := i ≠ cpus.bsp ∧ cpus.enabled i = true

instance decidableWakes (i : Fin N) : Decidable (cpus.Wakes i) :=
  inferInstanceAs (Decidable (i ≠ cpus.bsp ∧ cpus.enabled i = true))

/-- The loop of `__setup_ap`. -/
def find (id : ℕ) : Option (Fin N) := (List.finRange N).find? fun i => cpus.lapicId i = id

end PerCpuData

/-- The LAPICs that an IPI to `dest` in physical destination mode reaches. -/
def reaches (dest id : ℕ) : Bool := dest = 255 || id = dest

def start : Sys N P where
  area := .firmware
  saved := none
  bsp := .save
  inbox _ := []
  ap _ := .waitSipi
  active i := cpus.lapicId i = cpus.lapicId cpus.bsp
  multicoreInitialized := false

namespace Sys

variable {cpus} (s : Sys N P)

def sendIpi (cpus : PerCpuData N) (apicId : P → ℕ) (i : Fin N) (ipi : Ipi) (next : Wake) : Sys N P :=
  { s with
    inbox := fun p =>
      if reaches (cpus.lapicId i) (apicId p) then s.inbox p ++ [ipi] else s.inbox p
    bsp :=
      if ipi = .init ∧ reaches (cpus.lapicId i) (cpus.lapicId cpus.bsp) then .reset
      else .wake i next }

def bspStep (cpus : PerCpuData N) (apicId : P → ℕ) : Option (Sys N P) :=
  match s.bsp with
  | .save => some { s with saved := some s.area, bsp := .copy }
  | .copy => some { s with area := .blob none, bsp := .loop 0 }
  | .loop i =>
      if inside : i < N then
        if cpus.Wakes ⟨i, inside⟩ then some { s with bsp := .wake ⟨i, inside⟩ .apRsp }
        else some { s with bsp := .loop (i + 1) }
      else some { s with bsp := .multicore }
  | .wake i .apRsp => some { s with area := s.area.setRsp i, bsp := .wake i .init }
  | .wake i .init => some (s.sendIpi cpus apicId i .init .deassert)
  | .wake i .deassert => some (s.sendIpi cpus apicId i .deassert .startup)
  | .wake i .startup => some (s.sendIpi cpus apicId i .startup .again)
  | .wake i .again => some (s.sendIpi cpus apicId i .startup .spin)
  | .wake i .spin => if s.active i then some { s with bsp := .loop (i + 1) } else none
  | .multicore => some { s with multicoreInitialized := true, bsp := .restore }
  | .restore => some { s with area := s.saved.getD s.area, bsp := .done }
  | .done | .reset => none

def setAp (p : P) (a : Ap N) : Sys N P := { s with ap := Function.update s.ap p a }

/-- What a processor does with an IPI. -/
def take : Ipi → Ap N → Ap N
  | .init, _ => .waitSipi
  | .deassert, a => a
  | .startup, .waitSipi => .wakeup
  | .startup, a => a

def deliver (p : P) : Option (Sys N P) :=
  match s.inbox p with
  | [] => none
  | ipi :: rest =>
      some { s.setAp p (take ipi (s.ap p)) with inbox := Function.update s.inbox p rest }

def apStep (cpus : PerCpuData N) (apicId : P → ℕ) (p : P) : Option (Sys N P) :=
  match s.ap p with
  | .wakeup =>
      match s.area with
      | .blob rsp => some (s.setAp p (.stacked rsp))
      | .firmware => some (s.setAp p .lost)
  | .stacked rsp =>
      match s.area with
      | .blob _ => some (s.setAp p (.entered rsp))
      | .firmware => some (s.setAp p .lost)
  | .entered rsp =>
      match cpus.find (apicId p) with
      | some cpu => some (s.setAp p (.setup rsp cpu))
      | none => some (s.setAp p (.halted rsp none))
  | .setup rsp cpu =>
      some { s.setAp p (.halted rsp (some cpu)) with active := Function.update s.active cpu true }
  | .waitSipi | .halted _ _ | .lost => none

end Sys

def step (s : Sys N P) : Action P → Option (Sys N P)
  | .bsp => s.bspStep cpus apicId
  | .deliver p => s.deliver p
  | .ap p => s.apStep cpus apicId p

/-! ## What is shown -/

namespace Bsp

/-- INIT was sent for the entry. -/
def Woke : Bsp N → Fin N → Prop
  | .save, _ | .copy, _ => False
  | .loop i, j => j < i
  | .wake i w, j => j < i ∨ j = i ∧ w ≠ .apRsp ∧ w ≠ .init
  | .multicore, _ | .restore, _ | .done, _ | .reset, _ => True

/-- The loop waits, or is about to, for the entry to which it has sent INIT. -/
def Waits : Bsp N → Fin N → Prop
  | .wake i w, j => j = i ∧ w ≠ .apRsp ∧ w ≠ .init
  | _, _ => False

/-- The loop is done with the entry. -/
def Passed : Bsp N → Fin N → Prop
  | .save, _ | .copy, _ => False
  | .loop i, j => j < i
  | .wake i _, j => j < i
  | .multicore, _ | .restore, _ | .done, _ | .reset, _ => True

end Bsp

namespace Ap

/-- The stack pointer that was loaded. -/
def stack : Ap N → Option (Option (Fin N))
  | .waitSipi | .wakeup | .lost => none
  | .stacked rsp | .entered rsp | .setup rsp _ | .halted rsp _ => some rsp

def InBlob : Ap N → Prop
  | .wakeup | .stacked _ => True
  | _ => False

/-- The processor executes nothing, or `halt_loop`. -/
def Rests : Ap N → Prop
  | .waitSipi | .halted _ _ => True
  | _ => False

def IsHalted : Ap N → Prop
  | .halted _ _ => True
  | _ => False

/-- The entry that `__setup_ap` found. -/
def found : Ap N → Option (Fin N)
  | .setup _ cpu => some cpu
  | .halted _ cpu => cpu
  | _ => none

end Ap

/-- No id that is woken reaches the processor that boots, or two others. -/
structure Single : Prop where
  broadcast : ∀ i, cpus.Wakes i → cpus.lapicId i ≠ 255
  bsp : ∀ i, cpus.Wakes i → cpus.lapicId i ≠ cpus.lapicId cpus.bsp
  unique : ∀ i p q, cpus.Wakes i → apicId p = cpus.lapicId i → apicId q = cpus.lapicId i → p = q

/-- Each entry that is woken has a processor, and no entry before it has the same id. -/
def Listed : Prop :=
  ∀ i, cpus.Wakes i → (∃ p, apicId p = cpus.lapicId i) ∧ ∀ j < i, cpus.lapicId j ≠ cpus.lapicId i

structure Safe (s : Sys N P) : Prop where
  /-- Whoever is in the blob executes the blob, with the stack of an entry of its id. -/
  blob : ∀ p, (s.ap p).InBlob →
    ∃ i, s.area = .blob (some i) ∧ cpus.Wakes i ∧ apicId p = cpus.lapicId i
  intact : ∀ p, s.ap p ≠ .lost
  stack : ∀ p rsp, (s.ap p).stack = some rsp →
    ∃ i, rsp = some i ∧ cpus.Wakes i ∧ apicId p = cpus.lapicId i
  apart : ∀ p q rsp, (s.ap p).stack = some rsp → (s.ap q).stack = some rsp → p = q
  /-- What a processor executes until it halts, it executes alone, while the loop is at its entry. -/
  alone : ∀ p q, ¬ (s.ap p).Rests → ¬ (s.ap q).Rests → p = q
  waited : ∀ p, ¬ (s.ap p).Rests → ∃ i w, s.bsp = .wake i w ∧ apicId p = cpus.lapicId i
  bsp : s.bsp ≠ .reset
  multicore : s.multicoreInitialized = true → ∀ i, cpus.Wakes i → s.active i = true
  /-- The blob is gone only when no IPI can start it again. -/
  done : s.bsp = .done →
    s.area = .firmware ∧ ∀ p, (s.ap p).Rests ∧ .init ∉ s.inbox p ∧
      (s.ap p = .waitSipi → .startup ∉ s.inbox p)

end Model

end Twan.Kernel.ApBoot
