import Mathlib.Algebra.Group.Int.Defs
import Mathlib.Algebra.Group.Nat.Defs
import Mathlib.Data.List.GetD
import Mathlib.Tactic.Common
import NanoKvm.Contract.Words
import NanoKvm.Exec.LittleEndian
import NanoKvm.Text.Fallible

/-!
# The snapshots of the USB boot host

The host reads the status line and the manifest of the C906L through U-Boot, as words that
`decode_c906l_snapshot` takes apart by hand, and accepts a pair of snapshots of one live firmware.
The layout of the records is that of `contract.json`. `snapshots_agree` connects the two.
-/

namespace NanoKvm.UsbBoot

open Exec Contract

/-! ## The layout of the contract -/

/-- `abi.status.fields`: the offset of each field, and its bytes in its width. -/
def statusFields (status : Status) : List (Nat × List UInt8) := [
  (0, leBytes 4 status.magic.toNat),
  (4, leBytes 2 status.abiMajor.toNat),
  (6, leBytes 2 status.abiMinor.toNat),
  (8, leBytes 4 status.structSize.toNat),
  (12, leBytes 4 status.state.toNat),
  (16, leBytes 4 status.generation.toNat),
  (20, leBytes 4 status.flags.toNat),
  (24, leBytes 8 status.heartbeat.toNat),
  (32, leBytes 8 status.capabilities.toNat),
  (40, leBytes 8 status.lastRequest.toNat),
  (48, leBytes 8 status.lastResponse.toNat),
  (56, leBytes 1 status.activationState.toNat),
  (57, leBytes 1 status.activationError.toNat),
  (58, leBytes 2 status.activationAttempts.toNat),
  (60, leBytes 4 status.activationRequestId.toNat)]

/-- `activation.manifest.fields` -/
def manifestFields (manifest : Manifest) : List (Nat × List UInt8) := [
  (0, leBytes 4 manifest.magic.toNat),
  (4, leBytes 2 manifest.formatMajor.toNat),
  (6, leBytes 2 manifest.formatMinor.toNat),
  (8, leBytes 4 manifest.structSize.toNat),
  (12, leBytes 4 manifest.generation.toNat),
  (16, leBytes 4 manifest.contractEpoch.toNat),
  (20, leBytes 4 manifest.profileId.toNat),
  (24, leBytes 2 manifest.abiMajor.toNat),
  (26, leBytes 2 manifest.abiMinor.toNat),
  (28, leBytes 2 manifest.capabilityWidth.toNat),
  (30, leBytes 2 manifest.leaseWidth.toNat),
  (32, leBytes 8 manifest.finalCapabilities.toNat),
  (40, leBytes 8 manifest.dormantCapabilities.toNat),
  (48, leBytes 8 manifest.leaseMask.toNat),
  (56, leBytes 4 manifest.flags.toNat),
  (60, leBytes 4 manifest.reserved0.toNat),
  (64, manifest.contractSha256.toList),
  (96, manifest.reserved1.toList),
  (124, leBytes 4 manifest.commit.toNat)]

/-- The words of the two records, which lie one behind the other. -/
def snapshotWords (status : Status) (manifest : Manifest) : List UInt32 :=
  leWords (layOut statusSize.toNat (statusFields status)
    ++ layOut manifestSize.toNat (manifestFields manifest))

/-! ## The host -/

/-- `C906LStatus`, with the integers of Python. -/
structure C906LStatus where
  magic : Nat
  abiMajor : Nat
  abiMinor : Nat
  structSize : Nat
  state : Nat
  generation : Nat
  flags : Nat
  heartbeat : Nat
  capabilities : Nat
  lastRequest : Nat
  lastResponse : Nat
  activationState : Nat
  activationError : Nat
  activationAttempts : Nat
  activationRequestId : Nat
  deriving DecidableEq, Repr

/-- `C906LManifest` -/
structure C906LManifest where
  magic : Nat
  formatMajor : Nat
  formatMinor : Nat
  structSize : Nat
  generation : Nat
  contractEpoch : Nat
  profileId : Nat
  abiMajor : Nat
  abiMinor : Nat
  capabilityWidth : Nat
  leaseWidth : Nat
  finalCapabilities : Nat
  dormantCapabilities : Nat
  leaseMask : Nat
  flags : Nat
  reserved0 : Nat
  contractSha256 : List UInt8
  reserved1 : List UInt8
  commit : Nat
  deriving DecidableEq, Repr

/-- `C906LSnapshot` -/
structure C906LSnapshot where
  status : C906LStatus
  manifest : C906LManifest
  deriving DecidableEq, Repr

/-- `words[index]` -/
def wordAt (words : List UInt32) (index : Nat) : Nat := (words.getD index 0).toNat

/-- `struct.pack("<nI", *words)` -/
def structPack (words : List UInt32) : List UInt8 := words.flatMap fun word => leBytes 4 word.toNat

/-- `decode_c906l_status`. The error is the text of the `C906LBringupError`. -/
def decodeC906lStatus (words : List UInt32) : Except String C906LStatus :=
  if words.length ≠ statusSize.toNat / 4 then
    .error "C906L status dump is not exactly 64 bytes"
  else .ok {
    magic := wordAt words 0
    abiMajor := wordAt words 1 &&& 0xffff
    abiMinor := wordAt words 1 >>> 16
    structSize := wordAt words 2
    state := wordAt words 3
    generation := wordAt words 4
    flags := wordAt words 5
    heartbeat := wordAt words 6 ||| wordAt words 7 <<< 32
    capabilities := wordAt words 8 ||| wordAt words 9 <<< 32
    lastRequest := wordAt words 10 ||| wordAt words 11 <<< 32
    lastResponse := wordAt words 12 ||| wordAt words 13 <<< 32
    activationState := wordAt words 14 &&& 0xff
    activationError := (wordAt words 14 >>> 8) &&& 0xff
    activationAttempts := wordAt words 14 >>> 16
    activationRequestId := wordAt words 15 }

/-- `decode_c906l_manifest` -/
def decodeC906lManifest (words : List UInt32) : Except String C906LManifest :=
  if words.length ≠ manifestSize.toNat / 4 then
    .error "C906L manifest dump is not exactly 128 bytes"
  else .ok {
    magic := wordAt words 0
    formatMajor := wordAt words 1 &&& 0xffff
    formatMinor := wordAt words 1 >>> 16
    structSize := wordAt words 2
    generation := wordAt words 3
    contractEpoch := wordAt words 4
    profileId := wordAt words 5
    abiMajor := wordAt words 6 &&& 0xffff
    abiMinor := wordAt words 6 >>> 16
    capabilityWidth := wordAt words 7 &&& 0xffff
    leaseWidth := wordAt words 7 >>> 16
    finalCapabilities := wordAt words 8 ||| wordAt words 9 <<< 32
    dormantCapabilities := wordAt words 10 ||| wordAt words 11 <<< 32
    leaseMask := wordAt words 12 ||| wordAt words 13 <<< 32
    flags := wordAt words 14
    reserved0 := wordAt words 15
    contractSha256 := structPack ((words.take 24).drop 16)
    reserved1 := structPack ((words.take 31).drop 24)
    commit := wordAt words 31 }

/-- `decode_c906l_snapshot` -/
def decodeC906lSnapshot (words : List UInt32) : Except String C906LSnapshot := do
  if words.length ≠ (statusSize.toNat + manifestSize.toNat) / 4 then
    .error "C906L snapshot has the wrong size"
  else
    let statusWords := statusSize.toNat / 4
    let status ← decodeC906lStatus (words.take statusWords)
    let manifest ← decodeC906lManifest (words.drop statusWords)
    return { status := status, manifest := manifest }

/-- `0x{value:x}` -/
def hex (value : Nat) : String := "0x" ++ String.ofList (Nat.toDigits 16 value)

/-- `bytes.hex()` -/
def hexBytes (bytes : List UInt8) : String :=
  String.ofList (bytes.flatMap fun byte =>
    [Nat.digitChar (byte.toNat / 16), Nat.digitChar (byte.toNat % 16)])

/-- `_require_exact`, with how a value of the type is shown. -/
def requireExact {α : Type} [DecidableEq α] (shown : α → String) (name : String)
    (actual expected : α) : Except String Unit :=
  if actual ≠ expected then
    .error ("C906L " ++ name ++ " is " ++ shown actual ++ ", expected " ++ shown expected)
  else .ok ()

/-- `validate_c906l_snapshot`, with the constants of the contract that the host was built for. -/
def validateC906lSnapshot (contract : ResolvedContract) (snapshot : C906LSnapshot) :
    Except String Unit := do
  let status := snapshot.status
  let manifest := snapshot.manifest
  requireExact hex "status magic" status.magic shmemMagic.toNat
  requireExact hex "status ABI major" status.abiMajor abiMajor.toNat
  requireExact hex "status ABI minor" status.abiMinor abiMinor.toNat
  requireExact hex "status size" status.structSize statusSize.toNat
  requireExact hex "status state" status.state stateRunning.toNat
  (if status.generation = 0 then .error "C906L status generation is zero" else .ok ())
  requireExact hex "status flags" status.flags 0
  let expectedCapabilities :=
    if contract.profile.activationRequired then contract.profile.dormantCapabilities.toNat
    else contract.profile.expectedCapabilities.toNat
  let expectedActivationState :=
    if contract.profile.activationRequired then activationStateDormant.toNat
    else activationStateActive.toNat
  requireExact hex "status capabilities" status.capabilities expectedCapabilities
  requireExact hex "activation state" status.activationState expectedActivationState
  requireExact hex "activation error" status.activationError activationResultSuccess.toNat
  requireExact hex "activation attempts" status.activationAttempts 0
  requireExact hex "activation request ID" status.activationRequestId 0
  requireExact hex "manifest magic" manifest.magic manifestMagic.toNat
  requireExact hex "manifest format major" manifest.formatMajor manifestFormatMajor.toNat
  requireExact hex "manifest format minor" manifest.formatMinor manifestFormatMinor.toNat
  requireExact hex "manifest size" manifest.structSize manifestSize.toNat
  requireExact hex "manifest generation" manifest.generation status.generation
  requireExact hex "contract epoch" manifest.contractEpoch contractEpoch.toNat
  requireExact hex "profile ID" manifest.profileId contract.profile.profileId.toNat
  requireExact hex "manifest ABI major" manifest.abiMajor abiMajor.toNat
  requireExact hex "manifest ABI minor" manifest.abiMinor abiMinor.toNat
  requireExact hex "capability wire width" manifest.capabilityWidth capabilityWireWidth.toNat
  requireExact hex "lease wire width" manifest.leaseWidth leaseWireWidth.toNat
  requireExact hex "final capabilities" manifest.finalCapabilities
    contract.profile.expectedCapabilities.toNat
  requireExact hex "dormant capabilities" manifest.dormantCapabilities
    contract.profile.dormantCapabilities.toNat
  requireExact hex "lease mask" manifest.leaseMask contract.profile.leaseMask.toNat
  requireExact hex "manifest flags" manifest.flags contract.profile.manifestFlags.toNat
  requireExact hex "manifest reserved0" manifest.reserved0 0
  requireExact hexBytes "contract SHA-256" manifest.contractSha256
    contract.contractSha256.toList
  requireExact hexBytes "manifest reserved1" manifest.reserved1 (List.replicate 28 0)
  requireExact hex "manifest commit" manifest.commit manifestCommit.toNat

/-- `_stable_status_fields` -/
def stableStatusFields (status : C906LStatus) : List Nat := [
  status.magic,
  status.abiMajor,
  status.abiMinor,
  status.structSize,
  status.state,
  status.generation,
  status.flags,
  status.capabilities,
  status.lastRequest,
  status.lastResponse,
  status.activationState,
  status.activationError,
  status.activationAttempts,
  status.activationRequestId]

/-- `validate_c906l_snapshot_pair`. The difference of two integers may be negative; `&` takes it
modulo the power of two. -/
def validateC906lSnapshotPair (contract : ResolvedContract) (first second : C906LSnapshot) :
    Except String C906LSnapshot := do
  validateC906lSnapshot contract first
  validateC906lSnapshot contract second
  if first.manifest ≠ second.manifest then
    .error "C906L manifest changed between snapshots"
  else if stableStatusFields first.status ≠ stableStatusFields second.status then
    .error "C906L hot status changed outside the heartbeat between snapshots"
  else
    let heartbeatDelta :=
      ((second.status.heartbeat : Int) - (first.status.heartbeat : Int)) % 2 ^ 64
    if heartbeatDelta = 0 then .error "C906L heartbeat did not advance"
    else if heartbeatDelta ≥ 2 ^ 63 then .error "C906L heartbeat moved backwards"
    else return second

/-! ## The words of the layout -/

section

variable (rest : List UInt8)

theorem word_four (value : UInt32) :
    leWords (leBytes 4 value.toNat ++ rest) = value :: leWords rest := by
  rw [le_words_block (le_bytes_length 4 _), of_le_bytes_le_bytes]
  have hsmall : value.toNat % 256 ^ 4 = value.toNat := Nat.mod_eq_of_lt value.toNat_lt
  rw [hsmall, UInt32.ofNat_toNat]

theorem word_halves (low high : UInt16) :
    leWords (leBytes 2 low.toNat ++ (leBytes 2 high.toNat ++ rest))
      = joinHalves low high :: leWords rest := by
  have hlow : low.toNat % 256 ^ 2 = low.toNat := Nat.mod_eq_of_lt low.toNat_lt
  have hhigh : high.toNat % 256 ^ 2 = high.toNat := Nat.mod_eq_of_lt high.toNat_lt
  rw [← List.append_assoc, le_words_block (by simp), of_le_bytes_append, of_le_bytes_le_bytes,
    of_le_bytes_le_bytes, le_bytes_length, hlow, hhigh]
  rfl

theorem word_double (value : UInt64) :
    leWords (leBytes 8 value.toNat ++ rest) = lowWord value :: highWord value :: leWords rest := by
  have hlow : UInt32.ofNat (value.toNat % 256 ^ 4) = lowWord value := by
    apply UInt32.toNat_inj.mp
    rw [lowWord, UInt32.toNat_ofNat', UInt32.toNat_ofNat']
    omega
  have hhigh : UInt32.ofNat (value.toNat / 256 ^ 4 % 256 ^ 4) = highWord value := by
    apply UInt32.toNat_inj.mp
    rw [highWord, UInt32.toNat_ofNat', UInt32.toNat_ofNat']
    omega
  rw [show leBytes 8 value.toNat = _ from le_bytes_add 4 4 value.toNat, List.append_assoc,
    le_words_block (le_bytes_length 4 _), le_words_block (le_bytes_length 4 _),
    of_le_bytes_le_bytes, of_le_bytes_le_bytes, hlow, hhigh]

/-- The word of the activation fields. -/
theorem word_activation (state error : UInt8) (attempts : UInt16) :
    leWords (leBytes 1 state.toNat ++ (leBytes 1 error.toNat ++ (leBytes 2 attempts.toNat ++ rest)))
      = joinHalves (.ofNat (state.toNat + 256 * error.toNat)) attempts :: leWords rest := by
  have hstate : state.toNat % 256 ^ 1 = state.toNat := Nat.mod_eq_of_lt state.toNat_lt
  have herror : error.toNat % 256 ^ 1 = error.toNat := Nat.mod_eq_of_lt error.toNat_lt
  have hattempts : attempts.toNat % 256 ^ 2 = attempts.toNat := Nat.mod_eq_of_lt attempts.toNat_lt
  rw [← List.append_assoc, ← List.append_assoc, le_words_block (by simp), of_le_bytes_append,
    of_le_bytes_append, of_le_bytes_le_bytes, of_le_bytes_le_bytes, of_le_bytes_le_bytes, hstate,
    herror, hattempts]
  rw [joinHalves, UInt16.toNat_ofNat_of_lt' (by simp [UInt16.size]; omega)]
  simp

end

theorem status_contiguous (status : Status) : Contiguous 0 (statusFields status) := by
  simp [Contiguous, statusFields]

theorem manifest_contiguous (manifest : Manifest) : Contiguous 0 (manifestFields manifest) := by
  simp [Contiguous, manifestFields]

/-- The layout of a status has the words that the processors share. -/
theorem status_words (status : Status) :
    leWords (layOut statusSize.toNat (statusFields status)) = List.ofFn status.toWords := by
  rw [lay_out_contiguous (status_contiguous status) (by simp [statusFields]; rfl)]
  simp only [statusFields, List.map_cons, List.map_nil, List.flatten_cons, List.flatten_nil,
    word_four, word_halves, word_double, word_activation]
  rfl

/-- The layout of a manifest has the words of its header, its digest and its reserve, and the
commit word. -/
theorem manifest_words (manifest : Manifest) :
    leWords (layOut manifestSize.toNat (manifestFields manifest))
      = List.ofFn manifest.headerWords ++ (leWords manifest.contractSha256.toList
        ++ (leWords manifest.reserved1.toList ++ [manifest.commit])) := by
  have hcommit : leWords (leBytes 4 manifest.commit.toNat ++ []) = [manifest.commit] :=
    word_four [] manifest.commit
  rw [lay_out_contiguous (manifest_contiguous manifest) (by simp [manifestFields]; rfl)]
  simp only [manifestFields, List.map_cons, List.map_nil, List.flatten_cons, List.flatten_nil,
    word_four, word_halves, word_double]
  rw [le_words_append (by simp), le_words_append (by simp), hcommit]
  rfl

/-! ## Decoding -/

theorem and_low_half (low high : UInt16) : (joinHalves low high).toNat &&& 0xffff = low.toNat := by
  have hlow := low.toNat_lt
  have hhigh := high.toNat_lt
  rw [show (0xffff : Nat) = 2 ^ 16 - 1 from rfl, Nat.and_two_pow_sub_one_eq_mod, joinHalves,
    UInt32.toNat_ofNat']
  omega

theorem shift_high_half (low high : UInt16) : (joinHalves low high).toNat >>> 16 = high.toNat := by
  have hlow := low.toNat_lt
  have hhigh := high.toNat_lt
  rw [Nat.shiftRight_eq_div_pow, joinHalves, UInt32.toNat_ofNat']
  omega

/-- `words[index] | words[index + 1] << 32` -/
theorem or_double (value : UInt64) :
    (lowWord value).toNat ||| (highWord value).toNat <<< 32 = value.toNat := by
  have hvalue := value.toNat_lt
  have hlow := (lowWord value).toNat_lt
  rw [Nat.or_comm, ← Nat.shiftLeft_add_eq_or_of_lt hlow, Nat.shiftLeft_eq, lowWord, highWord,
    UInt32.toNat_ofNat', UInt32.toNat_ofNat']
  omega

/-- The two bytes of the activation word. -/
theorem activation_bytes (state error : UInt8) (attempts : UInt16) :
    (joinHalves (.ofNat (state.toNat + 256 * error.toNat)) attempts).toNat &&& 0xff
        = state.toNat ∧
      ((joinHalves (.ofNat (state.toNat + 256 * error.toNat)) attempts).toNat >>> 8) &&& 0xff
        = error.toNat := by
  have hstate := state.toNat_lt
  have herror := error.toNat_lt
  have hattempts := attempts.toNat_lt
  rw [show (0xff : Nat) = 2 ^ 8 - 1 from rfl, Nat.and_two_pow_sub_one_eq_mod,
    Nat.and_two_pow_sub_one_eq_mod, Nat.shiftRight_eq_div_pow, joinHalves, UInt32.toNat_ofNat',
    UInt16.toNat_ofNat']
  omega

/-- The status as the host holds it. -/
def C906LStatus.of (status : Status) : C906LStatus where
  magic := status.magic.toNat
  abiMajor := status.abiMajor.toNat
  abiMinor := status.abiMinor.toNat
  structSize := status.structSize.toNat
  state := status.state.toNat
  generation := status.generation.toNat
  flags := status.flags.toNat
  heartbeat := status.heartbeat.toNat
  capabilities := status.capabilities.toNat
  lastRequest := status.lastRequest.toNat
  lastResponse := status.lastResponse.toNat
  activationState := status.activationState.toNat
  activationError := status.activationError.toNat
  activationAttempts := status.activationAttempts.toNat
  activationRequestId := status.activationRequestId.toNat

/-- The manifest as the host holds it. -/
def C906LManifest.of (manifest : Manifest) : C906LManifest where
  magic := manifest.magic.toNat
  formatMajor := manifest.formatMajor.toNat
  formatMinor := manifest.formatMinor.toNat
  structSize := manifest.structSize.toNat
  generation := manifest.generation.toNat
  contractEpoch := manifest.contractEpoch.toNat
  profileId := manifest.profileId.toNat
  abiMajor := manifest.abiMajor.toNat
  abiMinor := manifest.abiMinor.toNat
  capabilityWidth := manifest.capabilityWidth.toNat
  leaseWidth := manifest.leaseWidth.toNat
  finalCapabilities := manifest.finalCapabilities.toNat
  dormantCapabilities := manifest.dormantCapabilities.toNat
  leaseMask := manifest.leaseMask.toNat
  flags := manifest.flags.toNat
  reserved0 := manifest.reserved0.toNat
  contractSha256 := manifest.contractSha256.toList
  reserved1 := manifest.reserved1.toList
  commit := manifest.commit.toNat

/-- The host takes the words of a status apart as they were put together. -/
theorem decode_status_words (status : Status) :
    decodeC906lStatus (List.ofFn status.toWords) = .ok (.of status) := by
  have hactivation := activation_bytes status.activationState status.activationError
    status.activationAttempts
  unfold decodeC906lStatus
  rw [if_neg (by simp; decide)]
  refine congrArg Except.ok (C906LStatus.mk.injEq .. |>.mpr ?_)
  exact ⟨rfl, and_low_half _ _, shift_high_half _ _, rfl, rfl, rfl, rfl, or_double _, or_double _,
    or_double _, or_double _, hactivation.1, hactivation.2, shift_high_half _ _, rfl⟩

/-- So it does with those of a manifest. -/
theorem decode_manifest_words (manifest : Manifest) :
    decodeC906lManifest (leWords (layOut manifestSize.toNat (manifestFields manifest)))
      = .ok (.of manifest) := by
  have hheader : (List.ofFn manifest.headerWords).length = 16 := List.length_ofFn
  have hdigest : (leWords manifest.contractSha256.toList).length = 8 := by
    rw [le_words_length, Vector.length_toList]
  have hreserved : (leWords manifest.reserved1.toList).length = 7 := by
    rw [le_words_length, Vector.length_toList]
  rw [manifest_words]
  unfold decodeC906lManifest
  rw [if_neg (by simp [hdigest, hreserved]; decide)]
  have hword : ∀ index < 16, wordAt (List.ofFn manifest.headerWords
      ++ (leWords manifest.contractSha256.toList
        ++ (leWords manifest.reserved1.toList ++ [manifest.commit]))) index
      = wordAt (List.ofFn manifest.headerWords) index := by
    intro index hlt
    rw [wordAt, wordAt, List.getD_append _ _ _ _ (by omega)]
  have hcommit : wordAt (List.ofFn manifest.headerWords
      ++ (leWords manifest.contractSha256.toList
        ++ (leWords manifest.reserved1.toList ++ [manifest.commit]))) 31
      = manifest.commit.toNat := by
    rw [wordAt, List.getD_append_right _ _ _ _ (by omega),
      List.getD_append_right _ _ _ _ (by omega), List.getD_append_right _ _ _ _ (by omega),
      hheader, hdigest, hreserved]
    rfl
  have hsha : structPack (((List.ofFn manifest.headerWords
      ++ (leWords manifest.contractSha256.toList
        ++ (leWords manifest.reserved1.toList ++ [manifest.commit]))).take 24).drop 16)
      = manifest.contractSha256.toList := by
    rw [← List.append_assoc, List.take_left' (by rw [List.length_append, hheader, hdigest]),
      List.drop_left' hheader]
    exact bytes_of_le_words (by simp)
  have hpad : structPack (((List.ofFn manifest.headerWords
      ++ (leWords manifest.contractSha256.toList
        ++ (leWords manifest.reserved1.toList ++ [manifest.commit]))).take 31).drop 24)
      = manifest.reserved1.toList := by
    rw [← List.append_assoc, ← List.append_assoc,
      List.take_left' (by rw [List.length_append, List.length_append, hheader, hdigest, hreserved]),
      List.drop_left' (by rw [List.length_append, hheader, hdigest])]
    exact bytes_of_le_words (by simp)
  rw [hsha, hpad, hcommit, hword 0 (by decide), hword 1 (by decide), hword 2 (by decide),
    hword 3 (by decide), hword 4 (by decide), hword 5 (by decide), hword 6 (by decide),
    hword 7 (by decide), hword 8 (by decide), hword 9 (by decide), hword 10 (by decide),
    hword 11 (by decide), hword 12 (by decide), hword 13 (by decide), hword 14 (by decide),
    hword 15 (by decide)]
  refine congrArg Except.ok (C906LManifest.mk.injEq .. |>.mpr ?_)
  exact ⟨rfl, and_low_half _ _, shift_high_half _ _, rfl, rfl, rfl, rfl, and_low_half _ _,
    shift_high_half _ _, and_low_half _ _, shift_high_half _ _, or_double _, or_double _,
    or_double _, rfl, rfl, rfl, rfl, rfl⟩

/-- The host finds both records in the words of their layout. -/
theorem decode_snapshot_words (status : Status) (manifest : Manifest) :
    decodeC906lSnapshot (snapshotWords status manifest) = .ok ⟨.of status, .of manifest⟩ := by
  have hstatus : (List.ofFn status.toWords).length = 16 := List.length_ofFn
  have hbytes : 4 ∣ (layOut statusSize.toNat (statusFields status)).length := by
    rw [lay_out_contiguous (status_contiguous status) (by simp [statusFields]; rfl)]
    simp [statusFields]
  have hwords : snapshotWords status manifest = List.ofFn status.toWords
      ++ leWords (layOut manifestSize.toNat (manifestFields manifest)) := by
    rw [snapshotWords, le_words_append hbytes, status_words]
  have hmanifest : (leWords (layOut manifestSize.toNat (manifestFields manifest))).length = 32 := by
    rw [manifest_words]
    simp [le_words_length]
  unfold decodeC906lSnapshot
  rw [hwords, if_neg (by rw [List.length_append, hstatus, hmanifest]; decide)]
  have hcount : statusSize.toNat / 4 = 16 := by decide
  simp only [hcount]
  rw [List.take_left' hstatus, List.drop_left' hstatus, decode_status_words, decode_manifest_words]
  rfl

/-! ## The identity of a firmware -/

/-- The status of a firmware of this contract that runs and was not activated yet; the fields that
the host leaves open are zero. -/
def expectedStatus (contract : ResolvedContract) : C906LStatus where
  magic := shmemMagic.toNat
  abiMajor := abiMajor.toNat
  abiMinor := abiMinor.toNat
  structSize := statusSize.toNat
  state := stateRunning.toNat
  generation := 0
  flags := 0
  heartbeat := 0
  capabilities :=
    if contract.profile.activationRequired then contract.profile.dormantCapabilities.toNat
    else contract.profile.expectedCapabilities.toNat
  lastRequest := 0
  lastResponse := 0
  activationState :=
    if contract.profile.activationRequired then activationStateDormant.toNat
    else activationStateActive.toNat
  activationError := activationResultSuccess.toNat
  activationAttempts := 0
  activationRequestId := 0

/-- The snapshot is one of this contract: a boot with a generation, the expected status but for
what changes while the firmware runs, and the manifest that the firmware commits in that boot. -/
structure Identity (contract : ResolvedContract) (snapshot : C906LSnapshot) : Prop where
  generation : snapshot.status.generation ≠ 0
  status : snapshot.status = { expectedStatus contract with
    generation := snapshot.status.generation
    heartbeat := snapshot.status.heartbeat
    lastRequest := snapshot.status.lastRequest
    lastResponse := snapshot.status.lastResponse }
  manifest : snapshot.manifest = {
    C906LManifest.of (expectedManifest contract 0 manifestCommit) with
    generation := snapshot.status.generation }

theorem require_exact_ok {α : Type} [DecidableEq α] (shown : α → String) (name : String)
    (actual expected : α) (done : Unit) :
    requireExact shown name actual expected = .ok done ↔ actual = expected := by
  unfold requireExact
  by_cases h : actual = expected
  · simp [h]
  · simp [h]

theorem generation_ok (generation : Nat) (text : String) (done : Unit) :
    (if generation = 0 then .error text else .ok () : Except String Unit) = .ok done
      ↔ generation ≠ 0 := by
  by_cases h : generation = 0
  · simp [h]
  · simp [h]

theorem validate_snapshot_iff (contract : ResolvedContract) (snapshot : C906LSnapshot)
    (done : Unit) :
    validateC906lSnapshot contract snapshot = .ok done ↔ Identity contract snapshot := by
  obtain ⟨status, manifest⟩ := snapshot
  have hidentity : Identity contract ⟨status, manifest⟩ ↔ status.generation ≠ 0 ∧
      status = { expectedStatus contract with
        generation := status.generation
        heartbeat := status.heartbeat
        lastRequest := status.lastRequest
        lastResponse := status.lastResponse } ∧
      manifest = { C906LManifest.of (expectedManifest contract 0 manifestCommit) with
        generation := status.generation } :=
    ⟨fun h => ⟨h.generation, h.status, h.manifest⟩, fun h => ⟨h.1, h.2.1, h.2.2⟩⟩
  rw [hidentity]
  obtain ⟨magic, major, minor, size, state, generation, flags, heartbeat, capabilities, request,
    response, activation, error, attempts, identity⟩ := status
  obtain ⟨magic', formatMajor, formatMinor, size', generation', epoch, profile, major', minor',
    width, lease, final, dormant, mask, flags', reserved, digest, reserved1, commit⟩ := manifest
  simp only [validateC906lSnapshot, Text.bind_ok_iff, require_exact_ok, generation_ok,
    exists_const, C906LStatus.mk.injEq, C906LManifest.mk.injEq, expectedStatus, C906LManifest.of,
    expectedManifest]
  clear hidentity
  have hpad : (Vector.replicate 28 (0 : UInt8)).toList = List.replicate 28 0 := rfl
  have hnone : UInt32.toNat 0 = 0 := rfl
  rw [hpad, hnone]
  tauto

/-! ## Pairs -/

/-- The listed fields are all but the heartbeat. -/
theorem stable_fields_iff (first second : C906LStatus) :
    stableStatusFields first = stableStatusFields second
      ↔ second = { first with heartbeat := second.heartbeat } := by
  refine Iff.trans ?_ eq_comm
  obtain ⟨magic, major, minor, size, state, generation, flags, heartbeat, capabilities, request,
    response, activation, error, attempts, identity⟩ := second
  simp only [stableStatusFields, List.cons.injEq, C906LStatus.mk.injEq, and_true, true_and]

/-- The heartbeat went forward, modulo the width of its counter. -/
def Advanced (first second : Nat) : Prop :=
  ∃ steps, 0 < steps ∧ steps < 2 ^ 63 ∧ (first + steps) % 2 ^ 64 = second % 2 ^ 64

theorem advanced_iff (first second : Nat) :
    Advanced first second ↔ ((second : Int) - (first : Int)) % 2 ^ 64 ≠ 0
      ∧ ¬ ((second : Int) - (first : Int)) % 2 ^ 64 ≥ 2 ^ 63 := by
  constructor
  · intro h
    obtain ⟨steps, hpos, hlt, hsame⟩ := h
    have hdelta : ((second : Int) - (first : Int)) % 2 ^ 64 = steps := by omega
    rw [hdelta]
    omega
  · intro h
    refine ⟨(((second : Int) - (first : Int)) % 2 ^ 64).toNat, ?_, ?_, ?_⟩
    · omega
    · omega
    · omega

/-- What is accepted is the second snapshot. -/
theorem validate_pair_ok (contract : ResolvedContract) (first second accepted : C906LSnapshot) :
    validateC906lSnapshotPair contract first second = .ok accepted ↔ accepted = second ∧
      Identity contract first ∧ Identity contract second ∧ first.manifest = second.manifest ∧
      second.status = { first.status with heartbeat := second.status.heartbeat } ∧
      Advanced first.status.heartbeat second.status.heartbeat := by
  rw [← stable_fields_iff, advanced_iff]
  simp only [validateC906lSnapshotPair, Text.bind_ok_iff, validate_snapshot_iff, exists_const]
  by_cases hmanifest : first.manifest = second.manifest
  · rw [if_neg (not_not_intro hmanifest)]
    by_cases hstatus : stableStatusFields first.status = stableStatusFields second.status
    · rw [if_neg (not_not_intro hstatus)]
      simp only [hmanifest, hstatus, true_and]
      split
      · rename_i hstopped
        simp only [reduceCtorEq, and_false, false_iff]
        exact fun h => h.2.2.2.1 hstopped
      · rename_i hmoved
        split
        · rename_i hback
          simp only [reduceCtorEq, and_false, false_iff]
          exact fun h => h.2.2.2.2 hback
        · rename_i hforward
          simp only [hmoved, hforward, not_false_eq_true, ne_eq, and_true, pure, Except.pure,
            Except.ok.injEq]
          constructor
          · intro h
            exact ⟨h.2.2.symm, h.1, h.2.1⟩
          · intro h
            exact ⟨h.2.1, h.2.2, h.1.symm⟩
    · rw [if_pos hstatus]
      simp [hstatus]
  · rw [if_pos hmanifest]
    simp [hmanifest]

/-- For every status and manifest the host decodes the words of their layout to the same values,
and it accepts a pair of snapshots exactly when both are of its contract and the second is the
first one later in the same boot. -/
theorem snapshots_agree (contract : ResolvedContract) :
    (∀ status manifest, decodeC906lSnapshot (snapshotWords status manifest)
      = .ok ⟨.of status, .of manifest⟩) ∧
    ∀ first second, (∃ accepted,
        validateC906lSnapshotPair contract first second = .ok accepted) ↔
      Identity contract first ∧ Identity contract second ∧ first.manifest = second.manifest ∧
      second.status = { first.status with heartbeat := second.status.heartbeat } ∧
      Advanced first.status.heartbeat second.status.heartbeat := by
  refine ⟨decode_snapshot_words, fun first second => ?_⟩
  simp only [validate_pair_ok, exists_eq_left]

end NanoKvm.UsbBoot
