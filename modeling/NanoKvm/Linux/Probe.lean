import NanoKvm.Linux.Control
import NanoKvm.Text.Numerals

/-!
# The probe of the control driver and its attributes

`sg2002_c906l_probe` as a function of what the calls in it return, and the texts of the
`contract` and `activation` attributes. The error codes of a probe that fails are left out.
-/

namespace NanoKvm.Linux

open Contract Text

/-- `enum sg2002_activation_outcome` -/
inductive DriverOutcome where
  | notRequired | alreadyActive | completed | recovered | failedRetained
  deriving DecidableEq, Repr

/-- `sg2002_activation_outcome_name` -/
def DriverOutcome.name : DriverOutcome → List Char
  | .notRequired => "not-required".toList
  | .alreadyActive => "already-active".toList
  | .completed => "completed".toList
  | .recovered => "recovered-lost-response".toList
  | .failedRetained => "failed-resources-retained".toList

/-! ## The probe -/

/-- What the calls of the probe return: `sg2002_validate_dt_identity`, the lookups and the mapping
of the shared memory, `sg2002_read_contract_snapshot`, `mbox_request_channel_byname`,
`sg2002_picoclaw_lcd_prepare` with the `prepared` flag, `sg2002_activate_leases`, `misc_register`
and `sysfs_create_group`. -/
structure ProbeCalls where
  identity : Bool
  memory : Bool
  snapshot : Except Errno ContractSnapshot
  channel : Bool
  prepare : Option Bool
  activate : Except Errno ActivationOutcome
  miscRegister : Bool
  sysfsCreate : Bool

/-- The driver's state after a probe that returns zero. -/
structure Probed where
  outcome : DriverOutcome
  sysfsRegistered : Bool
  miscRegistered : Bool
  deriving DecidableEq, Repr

namespace ProbeCalls

/-- The end of the probe: the device node and the attributes. -/
def register (calls : ProbeCalls) (prepared : Bool) (outcome : DriverOutcome) : Option Probed :=
  if ¬ calls.miscRegister then
    if prepared then some ⟨outcome, calls.sysfsCreate, false⟩ else none
  else if ¬ calls.sysfsCreate then
    if prepared then some ⟨outcome, false, true⟩ else none
  else some ⟨outcome, true, true⟩

/-- `sg2002_c906l_probe` -/
def probe (contract : ResolvedContract) (calls : ProbeCalls) : Option Probed :=
  if ¬ calls.identity ∨ ¬ calls.memory then none
  else match calls.snapshot with
    | .error _ => none
    | .ok snapshot =>
        if ¬ calls.channel then none
        else match calls.prepare with
          | none => none
          | some prepared =>
              if contract.profile.activationRequired then
                match validateActive contract snapshot with
                | .ok () => calls.register prepared .alreadyActive
                | .error _ =>
                    match calls.activate with
                    | .ok .completed => calls.register prepared .completed
                    | .ok .recovered => calls.register prepared .recovered
                    | .error _ =>
                        -- the diagnostics-only endpoint
                        if prepared then some ⟨.failedRetained, calls.sysfsCreate, false⟩ else none
              else
                match validateActive contract snapshot with
                | .error _ => none
                | .ok () => calls.register prepared .notRequired

/-- The activation was needed and has failed. -/
def ActivationFailed (contract : ResolvedContract) (calls : ProbeCalls) : Prop :=
  contract.profile.activationRequired = true ∧
    (∀ snapshot, calls.snapshot = .ok snapshot → validateActive contract snapshot ≠ .ok ()) ∧
    ∀ outcome, calls.activate ≠ .ok outcome

end ProbeCalls

/-! ## The attributes -/

/-- The number of an error. The mailbox framework has several; one of them stands for all. -/
def Errno.code : Errno → UInt32
  | .again => 11
  | .inProgress => 115
  | .io => 5
  | .mailbox => 62
  | .proto => 71
  | .remoteIo => 121
  | .stale => 116
  | .timedOut => 110

/-- `%u` -/
def printUnsigned {T : Type} [Unsigned T] (value : T) : List Char :=
  Nat.toDigits 10 (Unsigned.toNat value)

/-- `SG2002_C906L_CONTRACT_SHA256` -/
def contractSha256Text (contract : ResolvedContract) : List Char :=
  contract.contractSha256.toList.flatMap fun byte => paddedHex 2 byte.toNat

/-- `contract_show` -/
def contractShow (contract : ResolvedContract) : List Char :=
  "profile=".toList ++ contract.profile.profileName.toList ++
    " profile_id=".toList ++ printUnsigned contract.profile.profileId ++
    " sha256=".toList ++ contractSha256Text contract ++
    " epoch=".toList ++ printUnsigned contractEpoch ++
    " abi=".toList ++ (printUnsigned abiMajor ++ ['.'] ++ printUnsigned abiMinor) ++
    " final_capabilities=0x".toList ++ paddedHex 16 contract.profile.expectedCapabilities.toNat ++
    " dormant_capabilities=0x".toList ++
    paddedHex 16 contract.profile.dormantCapabilities.toNat ++
    " lease_mask=0x".toList ++ paddedHex 16 contract.profile.leaseMask.toNat ++
    " manifest_flags=0x".toList ++ paddedHex 8 contract.profile.manifestFlags.toNat ++
    " activation_required=".toList ++
    printUnsigned (if contract.profile.activationRequired then 1 else 0 : UInt32) ++ ['\n']

/-- `activation_show` on the result of its read. -/
def activationShow (outcome : DriverOutcome) (read : Except Errno ContractSnapshot) : List Char :=
  match read with
  | .error error => "unavailable error=-".toList ++ printUnsigned error.code ++ ['\n']
  | .ok snapshot =>
      "driver_outcome=".toList ++ outcome.name ++
        " state=".toList ++ printUnsigned snapshot.status.activationState ++
        " error=".toList ++ printUnsigned snapshot.status.activationError ++
        " attempts=".toList ++ printUnsigned snapshot.status.activationAttempts ++
        " request_id=".toList ++ printUnsigned snapshot.status.activationRequestId ++ ['\n']

end NanoKvm.Linux
