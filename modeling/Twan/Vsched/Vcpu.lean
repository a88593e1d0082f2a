/-
# Twan.Vsched.Vcpu -- the enumerations of a vcpu

`include/subsys/twanvisor/vsched/vcpu.h`: the scheduling state, the boot state and
the paravirtual spin state that the scheduler, the recovery code and the
paravirtual lock share.
-/
import Mathlib.Logic.Basic

namespace Twan.Vsched

set_option autoImplicit false

/-- `vcpu_state_t`. -/
inductive VcpuState where
  | ready
  | running
  | paused
  | pvSpinning
  | transitioning
  | terminated
  | initializing
  deriving DecidableEq, Repr

/-- `vcpu_vboot_state_t`. -/
inductive VbootState where
  | none
  | ready
  | paused
  deriving DecidableEq, Repr

/-- `vcpu_pv_spin_state_t`. -/
inductive PvSpinState where
  | none
  | paused
  | kicked
  deriving DecidableEq, Repr

/-- `tv_vis_vcpu_active`: the state a guest takes for "on a CPU". -/
def VcpuState.isActive : VcpuState → Bool
  | .running | .transitioning => true
  | _ => false

/-- The vcpu is parked in a queue of its scheduler. -/
def VcpuState.isQueued : VcpuState → Bool
  | .ready | .paused | .pvSpinning => true
  | _ => false

/-- The vcpu is in the hands of its own CPU, or of the CPU that creates it. -/
def VcpuState.isBusy : VcpuState → Bool
  | .running | .transitioning | .initializing => true
  | _ => false

theorem VcpuState.busy_or_terminated {st : VcpuState} (loose : st.isQueued = false) :
    st.isBusy = true ∨ st = .terminated := by
  cases st <;> simp_all [isQueued, isBusy]

end Twan.Vsched
