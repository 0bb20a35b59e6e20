import NanoKvm.Contract.Records
import NanoKvm.Exec.Indices

/-!
# The shared records as words

The status line has sixteen little-endian words and the manifest thirty-two. A processor
stores and loads them one at a time, so a reader can see some words of a record and not yet
the others. `Status.ofWords` and `Manifest.ofWords` are what a reader makes of a copy.
-/

namespace NanoKvm.Contract

/-- The words of the status line. -/
abbrev StatusWords := Fin 16 → UInt32

/-- The words of the manifest. -/
abbrev ManifestWords := Fin 32 → UInt32

/-- The offset of `state` in the status line and of `commit` in the manifest, in words. -/
def stateIndex : Fin 16 := 3
def commitIndex : Fin 32 := 31

/-! ## Parts of a word -/

/-- Two halves of a word. -/
def joinHalves (low high : UInt16) : UInt32 := .ofNat (low.toNat + 65536 * high.toNat)

/-- Four bytes of a word. -/
def joinBytes (zero one two three : UInt8) : UInt32 :=
  .ofNat (zero.toNat + 256 * one.toNat + 65536 * two.toNat + 16777216 * three.toNat)

/-- Two words of a double word. -/
def joinWords (low high : UInt32) : UInt64 := .ofNat (low.toNat + 4294967296 * high.toNat)

def lowHalf (word : UInt32) : UInt16 := .ofNat word.toNat
def highHalf (word : UInt32) : UInt16 := .ofNat (word.toNat / 65536)
def lowWord (value : UInt64) : UInt32 := .ofNat value.toNat
def highWord (value : UInt64) : UInt32 := .ofNat (value.toNat / 4294967296)

/-- A byte of a word, the lowest one first. -/
def byteOf (word : UInt32) (part : Nat) : UInt8 := .ofNat (word.toNat / 256 ^ part)

@[simp] theorem low_half_join (low high : UInt16) : lowHalf (joinHalves low high) = low := by
  apply UInt16.toNat_inj.1
  have hlow := low.toNat_lt
  have hhigh := high.toNat_lt
  rw [lowHalf, joinHalves, UInt16.toNat_ofNat', UInt32.toNat_ofNat']
  omega

@[simp] theorem high_half_join (low high : UInt16) : highHalf (joinHalves low high) = high := by
  apply UInt16.toNat_inj.1
  have hlow := low.toNat_lt
  have hhigh := high.toNat_lt
  rw [highHalf, joinHalves, UInt16.toNat_ofNat', UInt32.toNat_ofNat']
  omega

@[simp] theorem join_low_high (value : UInt64) :
    joinWords (lowWord value) (highWord value) = value := by
  apply UInt64.toNat_inj.1
  have hvalue := value.toNat_lt
  rw [joinWords, lowWord, highWord, UInt64.toNat_ofNat', UInt32.toNat_ofNat',
    UInt32.toNat_ofNat']
  omega

theorem join_bytes_to_nat (zero one two three : UInt8) :
    (joinBytes zero one two three).toNat =
      zero.toNat + 256 * one.toNat + 65536 * two.toNat + 16777216 * three.toNat := by
  have hzero := zero.toNat_lt
  have hone := one.toNat_lt
  have htwo := two.toNat_lt
  have hthree := three.toNat_lt
  rw [joinBytes, UInt32.toNat_ofNat']
  omega

/-- The bytes of a word of four bytes. -/
theorem byte_of_join (bytes : Nat → UInt8) {part : Nat} (hpart : part < 4) :
    byteOf (joinBytes (bytes 0) (bytes 1) (bytes 2) (bytes 3)) part = bytes part := by
  apply UInt8.toNat_inj.1
  have hzero := (bytes 0).toNat_lt
  have hone := (bytes 1).toNat_lt
  have htwo := (bytes 2).toNat_lt
  have hthree := (bytes 3).toNat_lt
  rw [byteOf, UInt8.toNat_ofNat', join_bytes_to_nat]
  match part, hpart with
  | 0, _ =>
      rw [Nat.pow_zero]
      omega
  | 1, _ =>
      rw [Nat.pow_one]
      omega
  | 2, _ =>
      rw [show 256 ^ 2 = 65536 from rfl]
      omega
  | 3, _ =>
      rw [show 256 ^ 3 = 16777216 from rfl]
      omega

/-! ## Records -/

/-- The status that the words hold. -/
def Status.ofWords (words : StatusWords) : Status where
  magic := words 0
  abiMajor := lowHalf (words 1)
  abiMinor := highHalf (words 1)
  structSize := words 2
  state := words 3
  generation := words 4
  flags := words 5
  heartbeat := joinWords (words 6) (words 7)
  capabilities := joinWords (words 8) (words 9)
  lastRequest := joinWords (words 10) (words 11)
  lastResponse := joinWords (words 12) (words 13)
  activationState := byteOf (words 14) 0
  activationError := byteOf (words 14) 1
  activationAttempts := highHalf (words 14)
  activationRequestId := words 15

/-- The words of a status. -/
def Status.toWords (status : Status) : StatusWords :=
  Vector.get #v[status.magic, joinHalves status.abiMajor status.abiMinor, status.structSize,
    status.state, status.generation, status.flags,
    lowWord status.heartbeat, highWord status.heartbeat,
    lowWord status.capabilities, highWord status.capabilities,
    lowWord status.lastRequest, highWord status.lastRequest,
    lowWord status.lastResponse, highWord status.lastResponse,
    joinHalves (.ofNat (status.activationState.toNat + 256 * status.activationError.toNat))
      status.activationAttempts,
    status.activationRequestId]

/-- The bytes from an offset on that fill words. -/
def packBytes {size : Nat} (bytes : Vector UInt8 size) (index : Nat) : UInt32 :=
  joinBytes (bytes.toList.getD (4 * index) 0) (bytes.toList.getD (4 * index + 1) 0)
    (bytes.toList.getD (4 * index + 2) 0) (bytes.toList.getD (4 * index + 3) 0)

/-- The bytes of the words from a given one on. -/
def unpackBytes (size : Nat) (words : Nat → UInt32) : Vector UInt8 size :=
  Vector.ofFn fun index : Fin size => byteOf (words (index / 4)) (index % 4)

/-- The word at an offset, zero behind the end. -/
def wordAt (words : ManifestWords) (offset : Nat) : UInt32 :=
  if h : offset < 32 then words ⟨offset, h⟩ else 0

/-- The manifest that the words hold. -/
def Manifest.ofWords (words : ManifestWords) : Manifest where
  magic := words 0
  formatMajor := lowHalf (words 1)
  formatMinor := highHalf (words 1)
  structSize := words 2
  generation := words 3
  contractEpoch := words 4
  profileId := words 5
  abiMajor := lowHalf (words 6)
  abiMinor := highHalf (words 6)
  capabilityWidth := lowHalf (words 7)
  leaseWidth := highHalf (words 7)
  finalCapabilities := joinWords (words 8) (words 9)
  dormantCapabilities := joinWords (words 10) (words 11)
  leaseMask := joinWords (words 12) (words 13)
  flags := words 14
  reserved0 := words 15
  contractSha256 := unpackBytes 32 fun index => wordAt words (16 + index)
  reserved1 := unpackBytes 28 fun index => wordAt words (24 + index)
  commit := words 31

/-- The words of a manifest before its digest. -/
def Manifest.headerWords (manifest : Manifest) : Fin 16 → UInt32 :=
  Vector.get #v[manifest.magic, joinHalves manifest.formatMajor manifest.formatMinor,
    manifest.structSize, manifest.generation, manifest.contractEpoch, manifest.profileId,
    joinHalves manifest.abiMajor manifest.abiMinor,
    joinHalves manifest.capabilityWidth manifest.leaseWidth,
    lowWord manifest.finalCapabilities, highWord manifest.finalCapabilities,
    lowWord manifest.dormantCapabilities, highWord manifest.dormantCapabilities,
    lowWord manifest.leaseMask, highWord manifest.leaseMask, manifest.flags,
    manifest.reserved0]

/-- The words of a manifest. -/
def Manifest.toWords (manifest : Manifest) : ManifestWords := fun index =>
  if h : index.val < 16 then manifest.headerWords ⟨index, h⟩
  else if index.val < 24 then packBytes manifest.contractSha256 (index - 16)
  else if index.val < 31 then packBytes manifest.reserved1 (index - 24)
  else manifest.commit

/-- Packed bytes come back. -/
theorem unpack_pack {size : Nat} (bytes : Vector UInt8 size) (words : Nat → UInt32)
    (h : ∀ index, 4 * index < size → words index = packBytes bytes index) :
    unpackBytes size words = bytes := by
  apply Vector.ext
  intro index hindex
  rw [unpackBytes, Vector.getElem_ofFn, h (index / 4) (by omega)]
  have hpart := byte_of_join (fun part => bytes.toList.getD (4 * (index / 4) + part) 0)
    (show index % 4 < 4 by omega)
  have hoffset : 4 * (index / 4) + index % 4 = index := by omega
  rw [hoffset] at hpart
  have hlength : index < bytes.toList.length := by
    rw [Vector.length_toList]
    exact hindex
  have hbyte : bytes.toList.getD index 0 = bytes[index] := by
    rw [List.getD_eq_getElem?_getD, List.getElem?_eq_getElem hlength, Option.getD_some,
      Vector.getElem_toList]
  exact hpart.trans hbyte

/-- The words of a status hold it. -/
theorem status_of_words (status : Status) : Status.ofWords status.toWords = status := by
  have hstate : byteOf (status.toWords 14) 0 = status.activationState := by
    have hpair := status.activationState.toNat_lt
    have herror := status.activationError.toNat_lt
    have hattempts := status.activationAttempts.toNat_lt
    apply UInt8.toNat_inj.1
    show (byteOf (joinHalves (.ofNat _) _) 0).toNat = _
    rw [byteOf, joinHalves, UInt8.toNat_ofNat', UInt32.toNat_ofNat', UInt16.toNat_ofNat']
    omega
  have herror : byteOf (status.toWords 14) 1 = status.activationError := by
    have hpair := status.activationState.toNat_lt
    have herror := status.activationError.toNat_lt
    have hattempts := status.activationAttempts.toNat_lt
    apply UInt8.toNat_inj.1
    show (byteOf (joinHalves (.ofNat _) _) 1).toNat = _
    rw [byteOf, joinHalves, UInt8.toNat_ofNat', UInt32.toNat_ofNat', UInt16.toNat_ofNat']
    omega
  rw [Status.ofWords, hstate, herror]
  obtain ⟨magic, major, minor, size, state, generation, flags, heartbeat, capabilities, request,
    response, activation, error, attempts, identity⟩ := status
  rw [Status.mk.injEq]
  exact ⟨rfl, low_half_join _ _, high_half_join _ _, rfl, rfl, rfl, rfl, join_low_high _,
    join_low_high _, join_low_high _, join_low_high _, rfl, rfl, high_half_join _ _, rfl⟩

/-- The words of a manifest hold it. -/
theorem manifest_of_words (manifest : Manifest) :
    Manifest.ofWords manifest.toWords = manifest := by
  have hdigest : unpackBytes 32 (fun index => wordAt manifest.toWords (16 + index)) =
      manifest.contractSha256 := by
    apply unpack_pack
    intro index hindex
    have hbound : 16 + index < 32 := by omega
    rw [wordAt, dif_pos hbound, Manifest.toWords, dif_neg (by show ¬ 16 + index < 16; omega),
      if_pos (by show 16 + index < 24; omega)]
    show packBytes _ (16 + index - 16) = _
    rw [Nat.add_sub_cancel_left]
  have hreserved : unpackBytes 28 (fun index => wordAt manifest.toWords (24 + index)) =
      manifest.reserved1 := by
    apply unpack_pack
    intro index hindex
    have hbound : 24 + index < 32 := by omega
    rw [wordAt, dif_pos hbound, Manifest.toWords, dif_neg (by show ¬ 24 + index < 16; omega),
      if_neg (by show ¬ 24 + index < 24; omega), if_pos (by show 24 + index < 31; omega)]
    show packBytes _ (24 + index - 24) = _
    rw [Nat.add_sub_cancel_left]
  rw [Manifest.ofWords, hdigest, hreserved]
  obtain ⟨magic, formatMajor, formatMinor, size, generation, epoch, profile, major, minor, width,
    lease, final, dormant, mask, flags, reserved, digest, reserved1, commit⟩ := manifest
  rw [Manifest.mk.injEq]
  exact ⟨rfl, low_half_join _ _, high_half_join _ _, rfl, rfl, rfl, rfl, low_half_join _ _,
    high_half_join _ _, low_half_join _ _, high_half_join _ _, join_low_high _, join_low_high _,
    join_low_high _, rfl, rfl, rfl, rfl, rfl⟩

end NanoKvm.Contract
