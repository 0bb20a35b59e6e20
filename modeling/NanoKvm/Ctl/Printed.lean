import NanoKvm.Ctl.Grammar
import NanoKvm.Linux.Probe

/-!
# What the kernel prints and the CLI reads

The texts of the driver's attributes under the CLI's parsers, for every outcome of the probe
that leaves the attributes registered. `printed_agrees` says when the two sides agree: the
parser has no name for the outcome of a failed activation.
-/

namespace NanoKvm.Ctl

open Contract Linux Text

/-- The contract that the kernel prints. -/
def identityOf (contract : ResolvedContract) : ContractIdentity where
  profile := contract.profile.profileName
  profileId := contract.profile.profileId
  sha256 := contract.contractSha256
  epoch := contractEpoch
  abi := ⟨abiMajor, abiMinor⟩
  finalCapabilities := contract.profile.expectedCapabilities
  dormantCapabilities := contract.profile.dormantCapabilities
  leaseMask := contract.profile.leaseMask
  manifestFlags := contract.profile.manifestFlags
  activationRequired := contract.profile.activationRequired

/-- The CLI reads what the kernel has printed. -/
structure Agrees (contract : ResolvedContract) (outcome : DriverOutcome)
    (snapshot : ContractSnapshot) :
    Prop where
  contract : parseContractAttribute (String.ofList (contractShow contract)) =
    .ok (identityOf contract)
  activation : ∃ status,
    parseActivationAttribute (String.ofList (activationShow outcome (.ok snapshot))) = .ok status ∧
      status.driverOutcome.display = outcome.name ∧
      status.state = snapshot.status.activationState ∧
      status.error = snapshot.status.activationError ∧
      status.attempts = snapshot.status.activationAttempts ∧
      status.requestId = snapshot.status.activationRequestId

theorem profile_name_slug (profile : Profile) : Slug profile.profileName.toList := by
  rw [← is_slug_iff]
  cases profile with
  | picoclawLcd => decide
  | timers timer4 timer5 timer6 timer7 =>
      cases timer4 <;> cases timer5 <;> cases timer6 <;> cases timer7 <;> decide

theorem contract_sha256_text_eq (contract : ResolvedContract) :
    contractSha256Text contract = formatDigest contract.contractSha256 := rfl

/-- The kernel's contract is the CLI's text for it. -/
theorem contract_show_eq (contract : ResolvedContract) :
    contractShow contract = (identityOf contract).display ++ ['\n'] := by
  have hflag : printUnsigned (if contract.profile.activationRequired then 1 else 0 : UInt32) =
      if contract.profile.activationRequired then ['1'] else ['0'] := by
    cases contract.profile.activationRequired <;> rfl
  unfold contractShow ContractIdentity.display
  rw [hflag, contract_sha256_text_eq]
  rfl

/-- The outcomes that the CLI knows. -/
def outcomeOf : DriverOutcome → Option Ctl.ActivationOutcome
  | .notRequired => some .notRequired
  | .alreadyActive => some .alreadyActive
  | .completed => some .completed
  | .recovered => some .recoveredLostResponse
  | .failedRetained => none

theorem outcome_of_some_iff {outcome : DriverOutcome} {found : Ctl.ActivationOutcome} :
    found.display = outcome.name ↔ outcomeOf outcome = some found := by
  cases outcome <;> cases found <;> decide

/-- The kernel's status is the CLI's text for it, if the CLI knows the outcome. -/
theorem activation_show_eq {outcome : DriverOutcome} {found : Ctl.ActivationOutcome}
    (hfound : found.display = outcome.name) (snapshot : ContractSnapshot) :
    activationShow outcome (.ok snapshot) = ActivationStatus.display
      ⟨found, snapshot.status.activationState, snapshot.status.activationError,
        snapshot.status.activationAttempts, snapshot.status.activationRequestId⟩ ++ ['\n'] := by
  unfold activationShow ActivationStatus.display
  rw [hfound]
  rfl

/-- The two sides agree exactly on the outcomes that the CLI knows. -/
theorem agrees_iff {contract : ResolvedContract} {outcome : DriverOutcome}
    {snapshot : ContractSnapshot} :
    Agrees contract outcome snapshot ↔ outcome ≠ .failedRetained := by
  constructor
  · rintro ⟨_, status, _, hname, _⟩ rfl
    have hnone := outcome_of_some_iff.1 hname
    cases hnone
  · intro hknown
    obtain ⟨found, hfound⟩ : ∃ found, outcomeOf outcome = some found := by
      cases outcome with
      | notRequired => exact ⟨.notRequired, rfl⟩
      | alreadyActive => exact ⟨.alreadyActive, rfl⟩
      | completed => exact ⟨.completed, rfl⟩
      | recovered => exact ⟨.recoveredLostResponse, rfl⟩
      | failedRetained => exact absurd rfl hknown
    have hname := outcome_of_some_iff.2 hfound
    refine ⟨?_, ⟨found, snapshot.status.activationState, snapshot.status.activationError,
      snapshot.status.activationAttempts, snapshot.status.activationRequestId⟩, ?_, hname,
      rfl, rfl, rfl, rfl⟩
    · rw [contract_exact, String.toList_ofList, contract_show_eq]
      exact ⟨profile_name_slug contract.profile, any_order_self _⟩
    · rw [activation_exact, String.toList_ofList, activation_show_eq hname]
      exact any_order_self _

/-! ## The probe -/

theorem register_outcome {calls : ProbeCalls} {prepared : Bool} {outcome : DriverOutcome}
    {probed : Probed} (h : calls.register prepared outcome = some probed) :
    probed.outcome = outcome := by
  unfold ProbeCalls.register at h
  split at h
  · split at h
    · cases h
      rfl
    · cases h
  · split at h
    · split at h
      · cases h
        rfl
      · cases h
    · cases h
      rfl

/-- The outcome of a failed activation comes from a failed activation only. -/
theorem probe_failed_iff {contract : ResolvedContract} {calls : ProbeCalls} {probed : Probed}
    (h : calls.probe contract = some probed) :
    probed.outcome = .failedRetained ↔ calls.ActivationFailed contract := by
  unfold ProbeCalls.probe at h
  unfold ProbeCalls.ActivationFailed
  split at h
  · cases h
  · cases hsnapshot : calls.snapshot with
    | error error => simp [hsnapshot] at h
    | ok snapshot =>
        simp only [hsnapshot] at h
        split at h
        · cases h
        · split at h
          · cases h
          · split at h
            · rename_i hrequired
              cases hactive : validateActive contract snapshot with
              | ok value =>
                  simp only [hactive] at h
                  simp [register_outcome h, hactive]
              | error error =>
                  simp only [hactive] at h
                  cases hactivate : calls.activate with
                  | ok outcome =>
                      cases outcome with
                      | completed | recovered =>
                          simp only [hactivate] at h
                          simp [register_outcome h]
                  | error error =>
                      simp only [hactivate] at h
                      split at h
                      · cases h
                        simp [hrequired, hactive]
                      · cases h
            · rename_i hrequired
              cases hactive : validateActive contract snapshot with
              | error error => simp [hactive] at h
              | ok value =>
                  simp only [hactive] at h
                  simp [register_outcome h, hrequired]

/-- After every probe that returns zero, with its attributes registered or not, and for every
status that the driver reads: the CLI reads what the driver prints if and only if the activation
has not failed. -/
theorem printed_agrees_iff {contract : ResolvedContract} {calls : ProbeCalls} {probed : Probed}
    (hprobe : calls.probe contract = some probed) (snapshot : ContractSnapshot) :
    Agrees contract probed.outcome snapshot ↔ ¬ calls.ActivationFailed contract := by
  rw [agrees_iff, ne_eq, probe_failed_iff hprobe]

/-- A status of the LCD profile before its activation. -/
def dormantStatus : Status where
  magic := shmemMagic
  abiMajor := abiMajor
  abiMinor := abiMinor
  structSize := statusSize
  state := stateRunning
  generation := 5
  flags := 0
  heartbeat := 9
  capabilities := Profile.picoclawLcd.dormantCapabilities
  lastRequest := 0
  lastResponse := 0
  activationState := activationStateDormant
  activationError := 0
  activationAttempts := 0
  activationRequestId := 0

def dormantSnapshot : ContractSnapshot where
  status := dormantStatus
  manifest := expectedManifest picoclawContract 5 manifestCommit

/-- A probe whose activation returns this. -/
def picoclawCalls (activate : Except Errno Linux.ActivationOutcome) : ProbeCalls where
  identity := true
  memory := true
  snapshot := .ok dormantSnapshot
  channel := true
  prepare := some true
  activate := activate
  miscRegister := true
  sysfsCreate := true

theorem dormant_snapshot_read :
    readContractSnapshot picoclawContract dormantStatus dormantSnapshot.manifest
      dormantSnapshot.manifest dormantStatus = .ok dormantSnapshot :=
  read_contract_snapshot_expected rfl rfl rfl rfl rfl

/-- An activation that completes. -/
theorem printed_agrees_completed :
    Agrees picoclawContract .completed dormantSnapshot := by
  have hprobe : (picoclawCalls (.ok .completed)).probe picoclawContract =
      some ⟨.completed, true, true⟩ := by decide
  refine (printed_agrees_iff hprobe dormantSnapshot).2 ?_
  rintro ⟨_, _, hnone⟩
  exact hnone .completed rfl

/-- An activation that runs out of time: the attribute is there and the CLI refuses it. -/
theorem printed_failed_activation :
    readContractSnapshot picoclawContract dormantStatus dormantSnapshot.manifest
        dormantSnapshot.manifest dormantStatus = .ok dormantSnapshot ∧
      (picoclawCalls (.error .timedOut)).probe picoclawContract =
        some ⟨.failedRetained, true, false⟩ ∧
      parseActivationAttribute
          (String.ofList (activationShow .failedRetained (.ok dormantSnapshot))) =
        .error (.malformedSysfs "activation"
          (.unknownOutcome "failed-resources-retained".toList)) ∧
      ¬ Agrees picoclawContract .failedRetained dormantSnapshot := by
  refine ⟨dormant_snapshot_read, by decide, by decide, ?_⟩
  rw [agrees_iff]
  exact fun hne => hne rfl

end NanoKvm.Ctl
