import NanoKvm.Contract.Records

/-!
# The Linux control driver

The checks of `sg2002-c906l-control.c` on the records that the firmware publishes, and
the request record the driver writes. A function that copies shared memory takes the
copies as arguments, in the order in which the driver makes them, so that a caller can
let them come from different moments.
-/

namespace NanoKvm.Linux

open Contract

/-- The error codes the C906L drivers return. `mailbox` stands for the errors that the mailbox
framework reports for a send; the framework has no remote I/O error among them. -/
inductive Errno where
  | again | inProgress | io | mailbox | proto | remoteIo | stale | timedOut
  deriving DecidableEq, Repr

/-- The manifest is the committed one of this contract, whatever its generation. -/
def ManifestMatches (contract : ResolvedContract) (manifest : Manifest) : Prop :=
  manifest.magic = manifestMagic
    ∧ manifest.formatMajor = manifestFormatMajor
    ∧ manifest.formatMinor = manifestFormatMinor
    ∧ manifest.structSize = manifestSize
    ∧ manifest.contractEpoch = contractEpoch
    ∧ manifest.profileId = contract.profile.profileId
    ∧ manifest.abiMajor = abiMajor
    ∧ manifest.abiMinor = abiMinor
    ∧ manifest.capabilityWidth = capabilityWireWidth
    ∧ manifest.leaseWidth = leaseWireWidth
    ∧ manifest.finalCapabilities = contract.profile.expectedCapabilities
    ∧ manifest.dormantCapabilities = contract.profile.dormantCapabilities
    ∧ manifest.leaseMask = contract.profile.leaseMask
    ∧ manifest.flags = contract.profile.manifestFlags
    ∧ manifest.reserved0 = 0
    ∧ manifest.contractSha256 = contract.contractSha256
    ∧ manifest.reserved1 = Vector.replicate 28 0
    ∧ manifest.commit = manifestCommit

instance (contract : ResolvedContract) (manifest : Manifest) :
    Decidable (ManifestMatches contract manifest) :=
  inferInstanceAs (Decidable (_ ∧ _))

/-- The manifest that the firmware commits passes every check. -/
theorem expected_manifest_matches (contract : ResolvedContract) (generation : UInt32) :
    ManifestMatches contract (expectedManifest contract generation manifestCommit) := by
  simp [ManifestMatches, expectedManifest]

/-- A manifest that passes every check is the one of its generation. -/
theorem manifest_matches_expected {contract : ResolvedContract} {manifest : Manifest}
    (h : ManifestMatches contract manifest) :
    manifest = expectedManifest contract manifest.generation manifestCommit := by
  cases manifest
  simp_all [ManifestMatches, expectedManifest]

/-- `sg2002_validate_manifest` -/
def validateManifest (contract : ResolvedContract) (manifest : Manifest) : Except Errno Unit :=
  if ManifestMatches contract manifest then .ok () else .error .proto

/-- `struct sg2002_contract_snapshot` -/
structure ContractSnapshot where
  status : Status
  manifest : Manifest
  deriving DecidableEq, Repr

/-- `sg2002_read_contract_snapshot` on its four copies: the status before, the manifest twice
and the status after. -/
def readContractSnapshot (contract : ResolvedContract) (before : Status) (first second : Manifest)
    (status : Status) : Except Errno ContractSnapshot :=
  if first ≠ second ∨ before ≠ status then .error .again
  else if first.generation ≠ status.generation then .error .again
  else if status.magic ≠ shmemMagic then .error .again
  else if status.abiMajor ≠ abiMajor ∨ status.abiMinor ≠ abiMinor
      ∨ status.structSize ≠ statusSize then .error .again
  else if status.state = stateBooting then .error .again
  else if status.state ≠ stateRunning then .error .remoteIo
  else
    match validateManifest contract first with
    | .error error => .error error
    | .ok () => .ok { status := status, manifest := first }

/-- What the driver has checked when it returns a snapshot. -/
theorem read_contract_snapshot_ok {contract : ResolvedContract} {before status : Status}
    {first second : Manifest} {snapshot : ContractSnapshot}
    (h : readContractSnapshot contract before first second status = .ok snapshot) :
    first = second ∧ before = status ∧ first.generation = status.generation ∧
      status.magic = shmemMagic ∧ status.abiMajor = abiMajor ∧ status.abiMinor = abiMinor ∧
      status.structSize = statusSize ∧ status.state = stateRunning ∧
      ManifestMatches contract first ∧ snapshot = { status := status, manifest := first } := by
  unfold readContractSnapshot validateManifest at h
  repeat' split at h
  all_goals cases h
  simp_all

/-- A running status of this ABI passes beside the manifest of its generation. -/
theorem read_contract_snapshot_expected {contract : ResolvedContract} {status : Status}
    (hmagic : status.magic = shmemMagic) (hmajor : status.abiMajor = abiMajor)
    (hminor : status.abiMinor = abiMinor) (hsize : status.structSize = statusSize)
    (hstate : status.state = stateRunning) :
    readContractSnapshot contract status
        (expectedManifest contract status.generation manifestCommit)
        (expectedManifest contract status.generation manifestCommit) status =
      .ok { status := status,
            manifest := expectedManifest contract status.generation manifestCommit } := by
  have hbooting : stateRunning ≠ stateBooting := by decide
  have hmatches := expected_manifest_matches contract status.generation
  have hgeneration : (expectedManifest contract status.generation manifestCommit).generation =
      status.generation := rfl
  simp [readContractSnapshot, hmagic, hmajor, hminor, hsize, hstate, hbooting,
    validateManifest, hmatches, hgeneration]

/-- `sg2002_validate_activation_source`: dormant, or rejected by an earlier validation. -/
def validateActivationSource (contract : ResolvedContract) (snapshot : ContractSnapshot) :
    Except Errno Unit :=
  let status := snapshot.status
  if ¬ contract.profile.activationRequired
      ∨ status.capabilities ≠ contract.profile.dormantCapabilities
      ∨ contract.profile.manifestFlags &&& Profile.manifestFlagAckRequired = 0 then
    .error .again
  else if status.activationState = activationStateDormant then
    if status.activationError ≠ activationResultSuccess.toUInt8
        ∨ status.activationAttempts ≠ 0
        ∨ status.activationRequestId ≠ 0
        ∨ status.flags &&& (flagActivationRejected ||| flagActivationFailed) ≠ 0 then
      .error .again
    else .ok ()
  else if status.activationState ≠ activationStateRejected
      ∨ status.activationAttempts = 0
      ∨ status.activationError < activationResultInvalidEnvelope.toUInt8
      ∨ status.activationError > activationResultLeaseMaskMismatch.toUInt8
      ∨ (status.activationRequestId = 0
          ∧ status.activationError ≠ activationResultInvalidEnvelope.toUInt8)
      ∨ status.flags &&& flagActivationRejected = 0
      ∨ status.flags &&& flagActivationFailed ≠ 0 then
    .error .again
  else .ok ()

/-- `sg2002_validate_active` -/
def validateActive (contract : ResolvedContract) (snapshot : ContractSnapshot) :
    Except Errno Unit :=
  let status := snapshot.status
  if status.activationState ≠ activationStateActive
      ∨ status.activationError ≠ activationResultSuccess.toUInt8
      ∨ (if contract.profile.activationRequired then
          status.activationAttempts = 0 ∨ status.activationRequestId = 0
        else status.activationAttempts ≠ 0 ∨ status.activationRequestId ≠ 0)
      ∨ (if contract.profile.activationRequired then
          status.flags &&& flagActivationFailed ≠ 0
        else status.flags &&& (flagActivationRejected ||| flagActivationFailed) ≠ 0)
      ∨ status.capabilities ≠ contract.profile.expectedCapabilities then
    .error .again
  else .ok ()

/-- The record that `sg2002_write_activation_request` commits. -/
def activationRequest (contract : ResolvedContract) (generation requestId : UInt32) :
    ActivationRequest where
  magic := activationRequestMagic
  formatMajor := activationRequestFormatMajor
  formatMinor := activationRequestFormatMinor
  structSize := activationRequestSize
  generation := generation
  requestId := requestId
  contractEpoch := contractEpoch
  profileId := contract.profile.profileId
  abiVersion := abiVersion
  finalCapabilities := contract.profile.expectedCapabilities
  leaseMask := contract.profile.leaseMask
  contractSha256 := contract.contractSha256
  reserved := Vector.replicate 44 0
  commit := activationRequestCommit

/-- The envelope that `sg2002_activate_leases` sends for a request. -/
def activationEnvelope (requestId : UInt32) : Message where
  service := serviceControl
  opcode := opActivateLeases
  sequence := requestId.toUInt16
  value := requestId

/-- `enum sg2002_activation_outcome`, as far as a run of the activation sets it. -/
inductive ActivationOutcome where
  | completed | recovered
  deriving DecidableEq, Repr

/-- `sg2002_activation_terminal` on the snapshot it read. -/
def activationTerminal (contract : ResolvedContract) (snapshot : Except Errno ContractSnapshot)
    (requestId : UInt32) (gotResponse : Bool) (responseResult : UInt32)
    (allowStatusRecovery : Bool) : Except Errno ActivationOutcome :=
  match snapshot with
  | .error error => .error error
  | .ok snapshot =>
      if gotResponse ∧ responseResult ≠ activationResultSuccess then .error .remoteIo
      else if snapshot.status.activationState = activationStateActive
          ∧ snapshot.status.activationRequestId = requestId then
        match validateActive contract snapshot with
        | .error error => .error error
        | .ok () =>
            if ¬ gotResponse ∧ ¬ allowStatusRecovery then .error .inProgress
            else .ok (if gotResponse then .completed else .recovered)
      else if snapshot.status.activationState = activationStateRejected
          ∨ snapshot.status.activationState = activationStateLeaseFault then
        .error .remoteIo
      else .error .inProgress

end NanoKvm.Linux
