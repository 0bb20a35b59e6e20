import Mathlib.Tactic.ByContra
import Mathlib.Tactic.Tauto
import NanoKvm.Linux.Control

/-!
# Drivers that wait for an active firmware

The framebuffer driver and the Wi-Fi power driver each re-implement the test for an
active firmware of one generation. Both copy the status line twice and demand, beyond
what `validateActive` demands, that no status flag at all is set.
-/

namespace NanoKvm.Linux

open Contract

/-- The test that both drivers write out, on two copies of the status line. -/
def checkActiveStatus (contract : ResolvedContract) (generation : UInt32) (status again : Status) :
    Except Errno Unit :=
  if status ≠ again then .error .again
  else if status.generation ≠ generation then .error .stale
  else if status.magic ≠ shmemMagic
      ∨ status.abiMajor ≠ abiMajor
      ∨ status.abiMinor ≠ abiMinor
      ∨ status.structSize ≠ statusSize
      ∨ status.state ≠ stateRunning
      ∨ status.activationState ≠ activationStateActive
      ∨ status.capabilities ≠ contract.profile.expectedCapabilities
      ∨ status.flags ≠ 0 then .error .io
  else .ok ()

/-- `check_generation` of the framebuffer driver. -/
def checkGeneration (contract : ResolvedContract) (generation : UInt32) (status again : Status) :
    Except Errno Unit :=
  checkActiveStatus contract generation status again

/-- `generation_valid` of the Wi-Fi power driver. -/
def generationValid (contract : ResolvedContract) (generation : UInt32) (first second : Status) :
    Except Errno Unit :=
  checkActiveStatus contract generation first second

/-- Both drivers refuse a status with any flag set. -/
theorem check_active_status_flags {contract : ResolvedContract} {generation : UInt32}
    {status : Status}
    (h : checkActiveStatus contract generation status status = .ok ()) : status.flags = 0 := by
  unfold checkActiveStatus at h
  by_contra hflags
  split at h
  · cases h
  · split at h
    · cases h
    · rw [if_pos (by tauto)] at h
      cases h

end NanoKvm.Linux
