import NanoKvm.Linux.Control

/-!
# The Linux remoteproc driver

The contract check that `sg2002-c906l-remoteproc.c` makes before it attaches RPMsg. It
takes the same four copies as the control driver, with the same tests, and then demands
that the activation fields of the status fit the activation state it shows.
-/

namespace NanoKvm.Linux.Remoteproc

open Contract

/-- The activation fields contradict the activation state, or the state is a transient one. -/
def ActivationMismatch (contract : ResolvedContract) (status : Status) : Prop :=
  if status.activationState = activationStateActive then
    status.activationError ≠ activationResultSuccess.toUInt8
      ∨ (if contract.profile.activationRequired then
          status.activationAttempts = 0 ∨ status.activationRequestId = 0
        else status.activationAttempts ≠ 0 ∨ status.activationRequestId ≠ 0)
      ∨ (if contract.profile.activationRequired then
          status.flags &&& flagActivationFailed ≠ 0
        else status.flags &&& (flagActivationRejected ||| flagActivationFailed) ≠ 0)
      ∨ status.capabilities ≠ contract.profile.expectedCapabilities
  else if status.activationState = activationStateDormant then
    ¬ contract.profile.activationRequired
      ∨ status.activationError ≠ activationResultSuccess.toUInt8
      ∨ status.activationAttempts ≠ 0
      ∨ status.activationRequestId ≠ 0
      ∨ contract.profile.manifestFlags &&& Profile.manifestFlagAckRequired = 0
      ∨ contract.profile.manifestFlags &&& Profile.manifestFlagRpmsgWhileDormant = 0
      ∨ status.flags &&& (flagActivationRejected ||| flagActivationFailed) ≠ 0
      ∨ status.capabilities ≠ contract.profile.dormantCapabilities
  else if status.activationState = activationStateRejected then
    ¬ contract.profile.activationRequired
      ∨ status.activationAttempts = 0
      ∨ status.activationError < activationResultInvalidEnvelope.toUInt8
      ∨ status.activationError > activationResultLeaseMaskMismatch.toUInt8
      ∨ (status.activationRequestId = 0
          ∧ status.activationError ≠ activationResultInvalidEnvelope.toUInt8)
      ∨ contract.profile.manifestFlags &&& Profile.manifestFlagRpmsgWhileDormant = 0
      ∨ status.flags &&& flagActivationRejected = 0
      ∨ status.flags &&& flagActivationFailed ≠ 0
      ∨ status.capabilities ≠ contract.profile.dormantCapabilities
  else if status.activationState = activationStateLeaseFault then
    ¬ contract.profile.activationRequired
      ∨ status.activationAttempts = 0
      ∨ status.activationRequestId = 0
      ∨ status.activationError < activationResultPreconditionFailed.toUInt8
      ∨ status.activationError > activationResultInternalFailure.toUInt8
      ∨ contract.profile.manifestFlags &&& Profile.manifestFlagRpmsgWhileDormant = 0
      ∨ status.flags &&& flagActivationFailed = 0
      ∨ status.capabilities ≠ contract.profile.dormantCapabilities
  else True

instance (contract : ResolvedContract) (status : Status) :
    Decidable (ActivationMismatch contract status) :=
  inferInstanceAs (Decidable (ite _ _ _))

/-- `sg2002_read_contract_snapshot` of the remoteproc driver. Up to the manifest check it is the
function of the control driver. -/
def readContractSnapshot (contract : ResolvedContract) (before : Status) (first second : Manifest)
    (status : Status) : Except Errno ContractSnapshot :=
  match Linux.readContractSnapshot contract before first second status with
  | .error error => .error error
  | .ok snapshot =>
      if ActivationMismatch contract status then .error .again
      else if status.capabilities &&& capRpmsg = 0 then .error .again
      else .ok snapshot

end NanoKvm.Linux.Remoteproc
