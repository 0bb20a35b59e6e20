import NanoKvm.Text.Fields
import NanoKvm.Text.Numerals

/-!
# The sysfs attributes in the CLI

The parsers of `sg2002-c906l-ctl` for the `contract` and `activation` attributes and the texts
that it prints for them. An error carries what the source quotes in its message; the quotation
itself is left out. `parse_fields_ok_iff` says what the field splitter accepts.
-/

namespace NanoKvm.Ctl

open Text

/-! ## Values -/

/-- `AbiVersion` -/
structure AbiVersion where
  major : UInt16
  minor : UInt16
  deriving DecidableEq, Repr

/-- `ActivationOutcome` -/
inductive ActivationOutcome where
  | notRequired | alreadyActive | completed | recoveredLostResponse
  deriving DecidableEq, Repr

/-- `ContractIdentity` -/
structure ContractIdentity where
  profile : String
  profileId : UInt32
  sha256 : Vector UInt8 32
  epoch : UInt32
  abi : AbiVersion
  finalCapabilities : UInt64
  dormantCapabilities : UInt64
  leaseMask : UInt64
  manifestFlags : UInt32
  activationRequired : Bool
  deriving DecidableEq, Repr

/-- `ActivationStatus` -/
structure ActivationStatus where
  driverOutcome : ActivationOutcome
  state : UInt8
  error : UInt8
  attempts : UInt16
  requestId : UInt32
  deriving DecidableEq, Repr

/-- What is wrong with an attribute. -/
inductive Detail where
  | notTerminated
  | extraLines
  | separators
  | noEquals (entry : List Char)
  | invalidField (entry : List Char)
  | unknownField (name : List Char)
  | duplicateField (name : List Char)
  | missingField (name : List Char)
  | notDecimal (field : String)
  | outOfRange (field : String)
  | notCanonical (field : String)
  | noHexMark (field : String)
  | notFixedHex (field : String) (digits : Nat)
  | noAbiSeparator
  | manyAbiSeparators
  | notDigest
  | badDigest
  | notSlug
  | notFlag
  | unknownOutcome (name : List Char)
  deriving DecidableEq, Repr

/-- `Error::MalformedSysfs`, or the panic of an `expect`. -/
inductive Error where
  | malformedSysfs (source : String) (detail : Detail)
  | panicked
  deriving DecidableEq, Repr

/-- `malformed` -/
def malformed {α : Type} (source : String) (detail : Detail) : Except Error α :=
  .error (.malformedSysfs source detail)

/-! ## Parsers -/

/-- One entry of the loop of `parse_fields`. -/
def parseEntry (source : String) (expected : List (List Char))
    (fields : List (List Char × List Char)) (entry : List Char) :
    Except Error (List (List Char × List Char)) :=
  if entry = [] then malformed source .separators
  else match splitOnce '=' entry with
    | none => malformed source (.noEquals entry)
    | some (name, value) =>
        if name = [] ∨ value = [] ∨ '=' ∈ value then malformed source (.invalidField entry)
        else if name ∉ expected then malformed source (.unknownField name)
        else if name ∈ fields.map Prod.fst then malformed source (.duplicateField name)
        else .ok (fields ++ [(name, value)])

/-- `parse_fields` -/
def parseFields (source : String) (input : List Char) (expected : List (List Char)) :
    Except Error (List (List Char × List Char)) :=
  if input.getLast? ≠ some '\n' then malformed source .notTerminated
  else
    let line := input.dropLast
    if line = [] ∨ '\n' ∈ line ∨ '\r' ∈ line then malformed source .extraLines
    else do
      let fields ← (line.splitOn ' ').foldlM (parseEntry source expected) []
      match expected.find? fun name => decide (name ∉ fields.map Prod.fst) with
      | some name => malformed source (.missingField name)
      | none => .ok fields

/-- `parse_decimal` -/
def parseDecimal (T : Type) [Unsigned T] (source field : String) (text : List Char) :
    Except Error T :=
  if text = [] ∨ (utf8Bytes text).all isAsciiDigit = false then
    malformed source (.notDecimal field)
  else match Unsigned.fromStrRadix T 10 text with
    | none => malformed source (.outOfRange field)
    | some value =>
        if decimal value ≠ text then malformed source (.notCanonical field) else .ok value

/-- `parse_fixed_hex` -/
def parseFixedHex (source field : String) (text : List Char) (digits : Nat) :
    Except Error UInt64 :=
  match text with
  | '0' :: 'x' :: hex =>
      if (utf8Bytes hex).length ≠ digits ∨ (utf8Bytes hex).all isLowerHex = false then
        malformed source (.notFixedHex field digits)
      else match Unsigned.fromStrRadix UInt64 16 hex with
        | none => malformed source (.outOfRange field)
        | some value => .ok value
  | _ => malformed source (.noHexMark field)

/-- `parse_abi` -/
def parseAbi (source : String) (text : List Char) : Except Error AbiVersion :=
  match splitOnce '.' text with
  | none => malformed source .noAbiSeparator
  | some (major, minor) =>
      if '.' ∈ minor then malformed source .manyAbiSeparators
      else do
        let major ← parseDecimal UInt16 source "abi major" major
        let minor ← parseDecimal UInt16 source "abi minor" minor
        return ⟨major, minor⟩

/-- The bytes of a digest; the text is ASCII here, so that its bytes are its characters. -/
def digestBytes (source : String) (text : List Char) : Nat → Except Error (List UInt8)
  | 0 => .ok []
  | count + 1 => do
      match Unsigned.fromStrRadix UInt8 16 (text.take 2) with
      | none => malformed source .badDigest
      | some byte => return byte :: (← digestBytes source (text.drop 2) count)

/-- `parse_digest` -/
def parseDigest (source : String) (text : List Char) : Except Error (Vector UInt8 32) :=
  if (utf8Bytes text).length ≠ 64 ∨ (utf8Bytes text).all isLowerHex = false then
    malformed source .notDigest
  else do
    let bytes ← digestBytes source text 32
    return .ofFn fun index => bytes.getD index 0

/-- A canonical slug: `index` counts the bytes before. -/
def isSlug (profile : List Char) : Bool :=
  profile ≠ [] && (utf8Bytes profile).zipIdx.all fun (byte, index) =>
    isAsciiLowercase byte || isAsciiDigit byte && index > 0 || byte == 0x2d && index > 0

/-- The fields of `parse_contract_attribute`. -/
def contractFields : List (List Char) :=
  ["profile".toList, "profile_id".toList, "sha256".toList, "epoch".toList, "abi".toList,
    "final_capabilities".toList, "dormant_capabilities".toList, "lease_mask".toList,
    "manifest_flags".toList, "activation_required".toList]

/-- The flag `activation_required`. -/
def parseFlag (text : List Char) : Except Error Bool :=
  if text = "0".toList then .ok false
  else if text = "1".toList then .ok true
  else malformed "contract" .notFlag

/-- `u32::try_from` with an `expect`. -/
def expectU32 (value : UInt64) : Except Error UInt32 :=
  if value.toNat < 2 ^ 32 then .ok value.toUInt32 else .error .panicked

/-- `parse_contract_attribute` -/
def parseContractAttribute (input : String) : Except Error ContractIdentity := do
  let fields ← parseFields "contract" input.toList contractFields
  let profile := valueOf fields "profile".toList
  if isSlug profile = false then malformed "contract" .notSlug
  else
    let activationRequired ← parseFlag (valueOf fields "activation_required".toList)
    let profileId ← parseDecimal UInt32 "contract" "profile_id" (valueOf fields "profile_id".toList)
    let sha256 ← parseDigest "contract" (valueOf fields "sha256".toList)
    let epoch ← parseDecimal UInt32 "contract" "epoch" (valueOf fields "epoch".toList)
    let abi ← parseAbi "contract" (valueOf fields "abi".toList)
    let finalCapabilities ← parseFixedHex "contract" "final_capabilities"
      (valueOf fields "final_capabilities".toList) 16
    let dormantCapabilities ← parseFixedHex "contract" "dormant_capabilities"
      (valueOf fields "dormant_capabilities".toList) 16
    let leaseMask ← parseFixedHex "contract" "lease_mask" (valueOf fields "lease_mask".toList) 16
    let flags ← parseFixedHex "contract" "manifest_flags"
      (valueOf fields "manifest_flags".toList) 8
    let manifestFlags ← expectU32 flags
    return {
      profile := String.ofList profile
      profileId, sha256, epoch, abi, finalCapabilities, dormantCapabilities, leaseMask
      manifestFlags, activationRequired }

/-- The fields of `parse_activation_attribute`. -/
def activationFields : List (List Char) :=
  ["driver_outcome".toList, "state".toList, "error".toList, "attempts".toList,
    "request_id".toList]

/-- The names of `driver_outcome`. -/
def parseOutcome (text : List Char) : Except Error ActivationOutcome :=
  if text = "not-required".toList then .ok .notRequired
  else if text = "already-active".toList then .ok .alreadyActive
  else if text = "completed".toList then .ok .completed
  else if text = "recovered-lost-response".toList then .ok .recoveredLostResponse
  else malformed "activation" (.unknownOutcome text)

/-- `parse_activation_attribute` -/
def parseActivationAttribute (input : String) : Except Error ActivationStatus := do
  let fields ← parseFields "activation" input.toList activationFields
  let driverOutcome ← parseOutcome (valueOf fields "driver_outcome".toList)
  let state ← parseDecimal UInt8 "activation" "state" (valueOf fields "state".toList)
  let error ← parseDecimal UInt8 "activation" "error" (valueOf fields "error".toList)
  let attempts ← parseDecimal UInt16 "activation" "attempts" (valueOf fields "attempts".toList)
  let requestId ← parseDecimal UInt32 "activation" "request_id"
    (valueOf fields "request_id".toList)
  return { driverOutcome, state, error, attempts, requestId }

/-! ## Texts -/

/-- `Display for AbiVersion` -/
def AbiVersion.display (abi : AbiVersion) : List Char :=
  decimal abi.major ++ ['.'] ++ decimal abi.minor

/-- `Display for ActivationOutcome` -/
def ActivationOutcome.display : ActivationOutcome → List Char
  | .notRequired => "not-required".toList
  | .alreadyActive => "already-active".toList
  | .completed => "completed".toList
  | .recoveredLostResponse => "recovered-lost-response".toList

/-- `format_digest` -/
def formatDigest (digest : Vector UInt8 32) : List Char :=
  digest.toList.flatMap fun byte => paddedHex 2 byte.toNat

/-- `Display for ContractIdentity` -/
def ContractIdentity.display (x : ContractIdentity) : List Char :=
  "profile=".toList ++ x.profile.toList ++ " profile_id=".toList ++ decimal x.profileId ++
    " sha256=".toList ++ formatDigest x.sha256 ++ " epoch=".toList ++ decimal x.epoch ++
    " abi=".toList ++ x.abi.display ++
    " final_capabilities=0x".toList ++ paddedHex 16 x.finalCapabilities.toNat ++
    " dormant_capabilities=0x".toList ++ paddedHex 16 x.dormantCapabilities.toNat ++
    " lease_mask=0x".toList ++ paddedHex 16 x.leaseMask.toNat ++
    " manifest_flags=0x".toList ++ paddedHex 8 x.manifestFlags.toNat ++
    " activation_required=".toList ++ (if x.activationRequired then ['1'] else ['0'])

/-- `Display for ActivationStatus` -/
def ActivationStatus.display (x : ActivationStatus) : List Char :=
  "driver_outcome=".toList ++ x.driverOutcome.display ++ " state=".toList ++ decimal x.state ++
    " error=".toList ++ decimal x.error ++ " attempts=".toList ++ decimal x.attempts ++
    " request_id=".toList ++ decimal x.requestId

end NanoKvm.Ctl
