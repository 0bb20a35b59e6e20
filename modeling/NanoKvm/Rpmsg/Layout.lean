import NanoKvm.Exec.LittleEndian
import Mathlib.Tactic.Tauto

/-!
# The RPMsg memory layout

The constants, descriptors and message headers of the virtio-RPMsg transport. Linux is
the driver of both rings: it writes descriptors and available entries, and the C906L
writes used entries. Every buffer is one 512-byte slot of a fixed pool.
-/

namespace NanoKvm.Rpmsg

open Exec

/-! ## Regions -/

def resourceTableBase : Nat := 0x8ff01000
def vring0Base : Nat := 0x8ff02000
def vring1Base : Nat := 0x8ff06000
def bufferBase : Nat := 0x8ff10000
def bufferSize : Nat := 0x40000

/-- The two rings: ring 0 carries messages to Linux, ring 1 messages from Linux. -/
inductive Ring where
  | rx | tx
  deriving DecidableEq, Repr

/-- Where a ring starts. -/
def Ring.base : Ring → Nat
  | .rx => vring0Base
  | .tx => vring1Base

/-- `RING_NUM` -/
def ringNum : Nat := 256

/-- The size of a descriptor in the ring. -/
def descriptorSize : Nat := 16

/-- `RING_DRIVER_BYTES`: the part of a ring that Linux writes. -/
def ringDriverBytes : Nat := 0x2000

/-- `RING_USED_OFFSET`: where the part of a ring starts that the C906L writes. -/
def ringUsedOffset : Nat := 0x2000

/-- `RPMSG_BUFFER_BYTES` -/
def bufferBytes : Nat := 512

/-- `RPMSG_HEADER_BYTES` -/
def headerBytes : Nat := 16

/-- `RPMSG_PAYLOAD_BYTES` -/
def payloadBytes : Nat := 496

/-- The offset of `rpmsg.vdev.status` in the resource table. -/
def vdevStatusAddress : Nat := resourceTableBase + 44

/-- The offset of `rpmsg.vdev.guest_features` in the resource table. -/
def vdevFeaturesAddress : Nat := resourceTableBase + 36

def driverOk : UInt8 := 4
def rpmsgFeatures : UInt32 := 1
def descFlagNext : UInt16 := 1
def descFlagWrite : UInt16 := 2
def descFlagIndirect : UInt16 := 4

def nsAddress : UInt32 := 53
def nsCreate : UInt32 := 0
def echoAddress : UInt32 := 1024
def lcdServiceAddress : UInt32 := 1025

/-- `RPMSG_SERVICE_NAME`, the bytes of `rpmsg_chrdev`, which is also the name of the LCD
service. -/
def serviceName : List UInt8 :=
  [0x72, 0x70, 0x6d, 0x73, 0x67, 0x5f, 0x63, 0x68, 0x72, 0x64, 0x65, 0x76]

/-- The magic `LCQ1` of a request for the LCD status. -/
def lcdRequestMagic : List UInt8 := [0x4c, 0x43, 0x51, 0x31]

/-- The magic `LCS1` of the LCD status reply. -/
def lcdReplyMagic : List UInt8 := [0x4c, 0x43, 0x53, 0x31]

/-! ## Descriptors -/

/-- `struct Descriptor` -/
structure Descriptor where
  address : UInt64
  length : UInt32
  flags : UInt16
  next : UInt16
  deriving DecidableEq, Repr

/-- `descriptor_buffer`: the buffer of a descriptor that is neither chained nor indirect, has the
right direction, is long enough and starts at a slot of the pool. -/
def descriptorBuffer (descriptor : Descriptor) (write : Bool) (minimum : Nat) : Option Nat :=
  if descriptor.flags &&& (descFlagNext ||| descFlagIndirect) ≠ 0
      ∨ decide (descriptor.flags &&& descFlagWrite ≠ 0) ≠ write
      ∨ descriptor.length.toNat < minimum % 2 ^ 32
      ∨ bufferBytes < descriptor.length.toNat then none
  else
    let address := descriptor.address.toNat
    let finish := address + descriptor.length.toNat
    -- `checked_add` on a 64-bit address
    if 2 ^ 64 ≤ finish then none
    else if address < bufferBase ∨ bufferBase + bufferSize < finish
        ∨ (address - bufferBase) % bufferBytes ≠ 0 then none
    else some address

/-- The address is a byte of the descriptor's buffer, and the buffer is one slot of the pool. -/
structure InBuffer (descriptor : Descriptor) (buffer address : Nat) : Prop where
  slot : ∃ slot, slot < bufferSize / bufferBytes ∧ buffer = bufferBase + slot * bufferBytes
  lower : buffer ≤ address
  length : address < buffer + descriptor.length.toNat
  bytes : descriptor.length.toNat ≤ bufferBytes

/-- What an accepted descriptor guarantees. -/
theorem descriptor_buffer_some {descriptor : Descriptor} {write : Bool} {minimum buffer : Nat}
    (h : descriptorBuffer descriptor write minimum = some buffer) :
    buffer = descriptor.address.toNat ∧ minimum % 2 ^ 32 ≤ descriptor.length.toNat ∧
      descriptor.length.toNat ≤ bufferBytes ∧ bufferBase ≤ buffer ∧
      buffer + descriptor.length.toNat ≤ bufferBase + bufferSize ∧
      (buffer - bufferBase) % bufferBytes = 0 := by
  unfold descriptorBuffer at h
  dsimp only at h
  split at h
  · cases h
  · split at h
    · cases h
    · split at h
      · cases h
      · rename_i hfields hend hpool
        cases h
        refine ⟨rfl, ?_⟩
        simp only [not_or, Nat.not_lt, not_not] at hfields hpool
        exact ⟨hfields.2.2.1, hfields.2.2.2, hpool.1, hpool.2.1, hpool.2.2⟩

/-- Every byte below an accepted length is in the buffer. -/
theorem descriptor_buffer_in_buffer {descriptor : Descriptor} {write : Bool}
    {minimum buffer address : Nat}
    (h : descriptorBuffer descriptor write minimum = some buffer) (hlower : buffer ≤ address)
    (hlength : address < buffer + descriptor.length.toNat) :
    InBuffer descriptor buffer address := by
  obtain ⟨-, -, hbytes, hbase, hend, hslot⟩ := descriptor_buffer_some h
  refine ⟨⟨(buffer - bufferBase) / bufferBytes, ?_, ?_⟩, hlower, hlength, hbytes⟩
  · unfold bufferBase bufferSize bufferBytes at *
    omega
  · unfold bufferBase bufferBytes at *
    omega

/-! ## Message headers -/

/-- `struct RpmsgHeader` -/
structure RpmsgHeader where
  source : UInt32
  destination : UInt32
  reserved : UInt32
  length : UInt16
  flags : UInt16
  deriving DecidableEq, Repr

/-- `encode_header` -/
def encodeHeader (header : RpmsgHeader) : List UInt8 :=
  leBytes 4 header.source.toNat ++ leBytes 4 header.destination.toNat ++
    leBytes 4 header.reserved.toNat ++ leBytes 2 header.length.toNat ++
    leBytes 2 header.flags.toNat

/-- `decode_header` -/
def decodeHeader (input : List UInt8) : RpmsgHeader where
  source := .ofNat (ofLeBytes (input.take 4))
  destination := .ofNat (ofLeBytes ((input.drop 4).take 4))
  reserved := .ofNat (ofLeBytes ((input.drop 8).take 4))
  length := .ofNat (ofLeBytes ((input.drop 12).take 2))
  flags := .ofNat (ofLeBytes ((input.drop 14).take 2))

@[simp] theorem encode_header_length (header : RpmsgHeader) :
    (encodeHeader header).length = headerBytes := by
  simp [encodeHeader, headerBytes]

/-- A header survives the wire. -/
theorem decode_header_encode_header (header : RpmsgHeader) :
    decodeHeader (encodeHeader header) = header := by
  have htake : ∀ (count value : Nat) (rest : List UInt8),
      (leBytes count value ++ rest).take count = leBytes count value :=
    fun count value rest => by simp
  have hdrop : ∀ (count value extra : Nat) (rest : List UInt8),
      (leBytes count value ++ rest).drop (count + extra) = rest.drop extra :=
    fun count value extra rest => by simp [List.drop_append]
  have hword : ∀ value : UInt32, UInt32.ofNat (value.toNat % 256 ^ 4) = value := by
    intro value
    have hbound : value.toNat < 256 ^ 4 := by
      have hsize := value.toNat_lt
      omega
    rw [Nat.mod_eq_of_lt hbound, UInt32.ofNat_toNat]
  have hhalf : ∀ value : UInt16, UInt16.ofNat (value.toNat % 256 ^ 2) = value := by
    intro value
    have hbound : value.toNat < 256 ^ 2 := by
      have hsize := value.toNat_lt
      omega
    rw [Nat.mod_eq_of_lt hbound, UInt16.ofNat_toNat]
  have hlast : ∀ value : Nat, (leBytes 2 value).take 2 = leBytes 2 value :=
    fun value => List.take_of_length_le (by simp)
  simp only [decodeHeader, encodeHeader, List.append_assoc, htake, hdrop 4 _ 0, hdrop 4 _ 4,
    hdrop 4 _ 8, hdrop 4 _ 10, hdrop 4 _ 6, hdrop 4 _ 2, hdrop 2 _ 0, List.drop_zero, of_le_bytes_le_bytes,
    hword, hhalf, hlast]

end NanoKvm.Rpmsg
