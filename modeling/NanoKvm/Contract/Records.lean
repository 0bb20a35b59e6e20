import NanoKvm.Contract.Profile

/-!
# Wire records of the C906L ABI

The records of `contract.json` that both processors share: the mailbox `Message`, the
hot `Status` line, the immutable `Manifest` and the Linux-owned `ActivationRequest`.
Every integer field keeps its wire width. Enumerations stay bytes or words, because a
reader takes whatever the other side left in memory.
-/

namespace NanoKvm.Contract

/-- One eight-byte mailbox word of the control protocol. -/
structure Message where
  service : UInt8
  opcode : UInt8
  sequence : UInt16
  value : UInt32
  deriving DecidableEq, Repr

/-- The 64-byte status line that the firmware publishes. -/
structure Status where
  magic : UInt32
  abiMajor : UInt16
  abiMinor : UInt16
  structSize : UInt32
  state : UInt32
  generation : UInt32
  flags : UInt32
  heartbeat : UInt64
  capabilities : UInt64
  lastRequest : UInt64
  lastResponse : UInt64
  activationState : UInt8
  activationError : UInt8
  activationAttempts : UInt16
  activationRequestId : UInt32
  deriving DecidableEq, Repr

/-- The firmware manifest, committed once in each boot. -/
structure Manifest where
  magic : UInt32
  formatMajor : UInt16
  formatMinor : UInt16
  structSize : UInt32
  generation : UInt32
  contractEpoch : UInt32
  profileId : UInt32
  abiMajor : UInt16
  abiMinor : UInt16
  capabilityWidth : UInt16
  leaseWidth : UInt16
  finalCapabilities : UInt64
  dormantCapabilities : UInt64
  leaseMask : UInt64
  flags : UInt32
  reserved0 : UInt32
  contractSha256 : Vector UInt8 32
  reserved1 : Vector UInt8 28
  commit : UInt32
  deriving DecidableEq, Repr

/-- The activation request that only Linux writes. -/
structure ActivationRequest where
  magic : UInt32
  formatMajor : UInt16
  formatMinor : UInt16
  structSize : UInt32
  generation : UInt32
  requestId : UInt32
  contractEpoch : UInt32
  profileId : UInt32
  abiVersion : UInt32
  finalCapabilities : UInt64
  leaseMask : UInt64
  contractSha256 : Vector UInt8 32
  reserved : Vector UInt8 44
  commit : UInt32
  deriving DecidableEq, Repr

/-! ## Constants -/

def abiMajor : UInt16 := 1
def abiMinor : UInt16 := 1
def shmemMagic : UInt32 := 0x4d564b4e
def statusSize : UInt32 := 64
def contractEpoch : UInt32 := 2

/-- `ABI_VERSION`, the major version over the minor one. -/
def abiVersion : UInt32 := (abiMajor.toUInt32 <<< 16) ||| abiMinor.toUInt32

def stateBooting : UInt32 := 1
def stateRunning : UInt32 := 2
def stateFault : UInt32 := 3

def serviceControl : UInt8 := 1
def opPing : UInt8 := 0x01
def opGetAbi : UInt8 := 0x02
def opGetCapabilities : UInt8 := 0x03
def opActivateLeases : UInt8 := 0x04
def opResponse : UInt8 := 0x80
def opError : UInt8 := 0xff

/-- `CAP_RPMSG` -/
def capRpmsg : UInt64 := 0x8

def flagResponseTimeout : UInt32 := 0x001
def flagRequestDropped : UInt32 := 0x002
def flagTimer4SelfTestFailed : UInt32 := 0x004
def flagActivationRejected : UInt32 := 0x008
def flagActivationFailed : UInt32 := 0x010
def flagManifestFault : UInt32 := 0x020
def flagMailboxLockFailure : UInt32 := 0x040
def flagUnexpectedMailboxChannel : UInt32 := 0x080
def flagTimer5SelfTestFailed : UInt32 := 0x100
def flagTimer6SelfTestFailed : UInt32 := 0x200
def flagTimer7SelfTestFailed : UInt32 := 0x400
def flagPicoclawLcdFailed : UInt32 := 0x800

def manifestMagic : UInt32 := 0x31434b4e
def manifestFormatMajor : UInt16 := 1
def manifestFormatMinor : UInt16 := 0
def manifestSize : UInt32 := 128
def manifestCommit : UInt32 := 0x54494d43
def capabilityWireWidth : UInt16 := 64
def leaseWireWidth : UInt16 := 32

def activationRequestMagic : UInt32 := 0x31414b4e
def activationRequestFormatMajor : UInt16 := 1
def activationRequestFormatMinor : UInt16 := 0
def activationRequestSize : UInt32 := 128
def activationRequestCommit : UInt32 := 0x314b4341

/-! The values of `activation.states`. -/

def activationStateInitializing : UInt8 := 0
def activationStateDormant : UInt8 := 1
def activationStateValidating : UInt8 := 2
def activationStateActivating : UInt8 := 3
def activationStateActive : UInt8 := 4
def activationStateRejected : UInt8 := 5
def activationStateLeaseFault : UInt8 := 6

/-! The values of `activation.results`. -/

def activationResultSuccess : UInt32 := 0
def activationResultInvalidEnvelope : UInt32 := 1
def activationResultMalformedRecord : UInt32 := 2
def activationResultStaleGeneration : UInt32 := 3
def activationResultAbiMismatch : UInt32 := 4
def activationResultEpochMismatch : UInt32 := 5
def activationResultProfileMismatch : UInt32 := 6
def activationResultDigestMismatch : UInt32 := 7
def activationResultCapabilitiesMismatch : UInt32 := 8
def activationResultLeaseMaskMismatch : UInt32 := 9
def activationResultInvalidState : UInt32 := 10
def activationResultPreconditionFailed : UInt32 := 11
def activationResultIrqInstallFailed : UInt32 := 12
def activationResultSelfTestTimeout : UInt32 := 13
def activationResultSelfTestFailed : UInt32 := 14
def activationResultInternalFailure : UInt32 := 15

/-- `expected_manifest`: the manifest of this contract for one boot. -/
def expectedManifest (contract : ResolvedContract) (generation commit : UInt32) : Manifest where
  magic := manifestMagic
  formatMajor := manifestFormatMajor
  formatMinor := manifestFormatMinor
  structSize := manifestSize
  generation := generation
  contractEpoch := contractEpoch
  profileId := contract.profile.profileId
  abiMajor := abiMajor
  abiMinor := abiMinor
  capabilityWidth := capabilityWireWidth
  leaseWidth := leaseWireWidth
  finalCapabilities := contract.profile.expectedCapabilities
  dormantCapabilities := contract.profile.dormantCapabilities
  leaseMask := contract.profile.leaseMask
  flags := contract.profile.manifestFlags
  reserved0 := 0
  contractSha256 := contract.contractSha256
  reserved1 := Vector.replicate 28 0
  commit := commit

namespace Message

/-- `Message::decode` splits a mailbox word into its fields. -/
def decode (word : UInt64) : Message where
  service := word.toUInt8
  opcode := (word >>> 8).toUInt8
  sequence := (word >>> 16).toUInt16
  value := (word >>> 32).toUInt32

/-- `Message::encode` -/
def encode (message : Message) : UInt64 :=
  message.service.toUInt64 ||| (message.opcode.toUInt64 <<< 8) |||
    (message.sequence.toUInt64 <<< 16) ||| (message.value.toUInt64 <<< 32)

/-- `Message::ordinary_response`: the answer to every opcode but activation. -/
def ordinaryResponse (message : Message) (capabilities : UInt64) : Message :=
  let error : Message := { message with opcode := opError, value := 0 }
  if message.service ≠ serviceControl then error
  else if message.opcode = opPing then
    { message with opcode := message.opcode ||| opResponse }
  else if message.opcode = opGetAbi then
    { message with opcode := message.opcode ||| opResponse, value := abiVersion }
  else if message.opcode = opGetCapabilities then
    { message with opcode := message.opcode ||| opResponse, value := capabilities.toUInt32 }
  else error

/-- `Message::activation_response` -/
def activationResponse (message : Message) (result : UInt32) : Message :=
  { message with opcode := opActivateLeases ||| opResponse, value := result }

end Message

end NanoKvm.Contract
