import Mathlib.Data.List.Nodup
import NanoKvm.Exec.Bytes
import NanoKvm.Rpmsg.Transport

/-!
# The transport against a driver that follows the ring rules

The transport and the virtio driver of Linux on one memory. The driver posts a buffer by
advancing the available index over an entry that names a complete descriptor; until the
descriptor is returned it leaves the entry, the descriptor and the buffer alone. Apart
from that it may write what it likes. The logs hold what was posted on each ring, and what
the driver finds when the used index moves.
-/

namespace NanoKvm.Rpmsg

open Exec

/-! ## Integers in memory -/

def u16 (memory : Memory) (address : Nat) : UInt16 := .ofNat (ofLeBytes (memory.read address 2))
def u32 (memory : Memory) (address : Nat) : UInt32 := .ofNat (ofLeBytes (memory.read address 4))
def u64 (memory : Memory) (address : Nat) : UInt64 := .ofNat (ofLeBytes (memory.read address 8))

/-- The descriptor at an index of a table. -/
def descriptorAt (memory : Memory) (base : Nat) (index : UInt16) : Descriptor where
  address := u64 memory (base + index.toNat * descriptorSize)
  length := u32 memory (base + index.toNat * descriptorSize + 8)
  flags := u16 memory (base + index.toNat * descriptorSize + 12)
  next := u16 memory (base + index.toNat * descriptorSize + 14)

/-! ## Messages -/

/-- A message between two addresses. -/
structure Message where
  source : UInt32
  destination : UInt32
  payload : List UInt8
  deriving DecidableEq

/-- A buffer that the driver has posted, with its contents. -/
structure Posting where
  id : UInt16
  descriptor : Descriptor
  bytes : List UInt8

def Posting.address (posting : Posting) : Nat := posting.descriptor.address.toNat
def Posting.length (posting : Posting) : Nat := posting.descriptor.length.toNat

/-- The header at the start of a buffer. -/
def headerOf (bytes : List UInt8) : RpmsgHeader := decodeHeader (bytes.take headerBytes)

/-- The payload behind the header. -/
def payloadOf (bytes : List UInt8) : List UInt8 :=
  (bytes.drop headerBytes).take (headerOf bytes).length.toNat

/-- The header is that of a message that fits the buffer and the limit of the payload. -/
def Posting.WellFormed (posting : Posting) : Prop :=
  (headerOf posting.bytes).reserved = 0 ∧ (headerOf posting.bytes).flags = 0 ∧
    (headerOf posting.bytes).length.toNat ≤ payloadBytes ∧
    headerBytes + (headerOf posting.bytes).length.toNat ≤ posting.length

instance (posting : Posting) : Decidable posting.WellFormed :=
  inferInstanceAs (Decidable (_ ∧ _ ∧ _ ∧ _))

/-- What the echo service owes for a posted message: the payload, with the addresses exchanged. -/
def Posting.echo (posting : Posting) : Option Message :=
  let header := headerOf posting.bytes
  if posting.WellFormed ∧ header.destination = echoAddress then
    some ⟨header.destination, header.source, payloadOf posting.bytes⟩
  else none

/-- A returned descriptor and the bytes that the driver finds in its buffer. -/
structure Return where
  id : UInt32
  length : UInt32
  bytes : List UInt8

/-- The message in a returned buffer if it comes from the echo address. -/
def Return.echo (returned : Return) : Option Message :=
  let header := headerOf returned.bytes
  if header.source = echoAddress then
    some ⟨header.source, header.destination, payloadOf returned.bytes⟩
  else none

/-! ## The machine -/

/-- The memory, the transport's own fields, and the logs. -/
structure Rings where
  memory : Memory
  transport : Transport
  posted : Ring → List Posting
  returned : Ring → List Return

/-- The used entry at a cursor. -/
def usedEntry (memory : Memory) (ring : Ring) (cursor : UInt16) : Return :=
  let id := u32 memory (usedEntryAddress ring.base cursor)
  let length := u32 memory (usedEntryAddress ring.base cursor + 4)
  let found := descriptorAt memory ring.base id.toUInt16
  { id := id, length := length, bytes := memory.read found.address.toNat length.toNat }

/-- The used index is written: the driver finds the entries up to it. -/
def Rings.publish (s : Rings) (ring : Ring) (index : UInt16) : Rings :=
  let old := u16 s.memory (usedIndexAddress ring.base)
  let fresh := (List.range (index - old).toNat).map fun offset =>
    usedEntry s.memory ring (old + .ofNat offset)
  { s with
    memory := s.memory.write (usedIndexAddress ring.base) (leBytes 2 index.toNat)
    returned := Function.update s.returned ring (s.returned ring ++ fresh) }

/-- The same rings with other memory. -/
def Rings.write (s : Rings) (address : Nat) (bytes : List UInt8) : Rings :=
  { s with memory := s.memory.write address bytes }

/-- What an operation of the transport does. -/
def Rings.Performs (s : Rings) : (operation : Op) → operation.Ret → Rings → Prop
  | .readU8 address, value, next => value = s.memory.byte address ∧ next = s
  | .readU16 address, value, next => value = u16 s.memory address ∧ next = s
  | .readU32 address, value, next => value = u32 s.memory address ∧ next = s
  | .readU64 address, value, next => value = u64 s.memory address ∧ next = s
  | .writeU8 address value, _, next => next = s.write address [value]
  | .writeU32 address value, _, next => next = s.write address (leBytes 4 value.toNat)
  | .writeU16 address value, _, next =>
      next = if address = usedIndexAddress Ring.rx.base then s.publish .rx value
        else if address = usedIndexAddress Ring.tx.base then s.publish .tx value
        else s.write address (leBytes 2 value.toNat)
  | .load, transport, next => transport = s.transport ∧ next = s
  | .store transport, _, next => next = { s with transport := transport }
  | _, _, next => next = s

/-! ## The driver -/

/-- The direction of a ring's buffers. -/
def Ring.writable : Ring → Bool
  | .rx => true
  | .tx => false

/-- The least length of a ring's buffers: a buffer for the C906L to fill is a whole slot. -/
def Ring.minimum : Ring → Nat
  | .rx => bufferBytes
  | .tx => headerBytes

/-- The descriptor is a single buffer in a slot of the pool. -/
structure Posting.Valid (posting : Posting) (ring : Ring) : Prop where
  id : posting.id.toNat < ringNum
  buffer : descriptorBuffer posting.descriptor ring.writable ring.minimum = some posting.address

instance (posting : Posting) (ring : Ring) : Decidable (posting.Valid ring) :=
  decidable_of_iff (_ ∧ _) ⟨fun h => ⟨h.1, h.2⟩, fun h => ⟨h.id, h.buffer⟩⟩

/-- The available entry at an index and its descriptor are in memory. -/
structure Offers (memory : Memory) (ring : Ring) (index : Nat) (posting : Posting) : Prop where
  entry : u16 memory (availEntryAddress ring.base (.ofNat index)) = posting.id
  descriptor : descriptorAt memory ring.base posting.id = posting.descriptor

/-- The address is one of a range. -/
def Within (start length address : Nat) : Prop := start ≤ address ∧ address < start + length

/-- The driver has told the device to start. -/
def Started (memory : Memory) : Prop := memory.byte vdevStatusAddress &&& driverOk ≠ 0

/-- What belongs to a posted descriptor: its available entry, the descriptor and the buffer. -/
def Posting.Uses (posting : Posting) (ring : Ring) (index address : Nat) : Prop :=
  Within (availEntryAddress ring.base (.ofNat index)) 2 address ∨
    Within (ring.base + posting.id.toNat * descriptorSize) descriptorSize address ∨
    Within posting.address posting.length address

/-- The descriptor at the index has been posted and not returned. -/
def Rings.Outstanding (s : Rings) (ring : Ring) (index : Nat) (posting : Posting) : Prop :=
  (s.returned ring).length ≤ index ∧ (s.posted ring)[index]? = some posting

/-- What the driver leaves alone: the used areas and what belongs to outstanding descriptors. -/
inductive Rings.Kept (s : Rings) (address : Nat) : Prop where
  | used (ring : Ring) (h : Within (ring.base + ringUsedOffset) (4 + ringNum * 8) address)
  | outstanding (ring : Ring) (index : Nat) (posting : Posting)
      (houtstanding : s.Outstanding ring index posting) (h : posting.Uses ring index address)

/-- A posted buffer: the available index moves over its entry. -/
def Rings.post (s : Rings) (ring : Ring) (posting : Posting) : Rings :=
  let index := leBytes 2 ((s.posted ring).length + 1)
  { s with
    memory := s.memory.write (availIndexAddress ring.base) index
    posted := Function.update s.posted ring (s.posted ring ++ [posting]) }

/-- The steps of the driver. The available indices move only to post a buffer. -/
inductive HostStep : Rings → Rings → Prop where
  | write {s : Rings} {memory : Memory}
      (hkept : ∀ address, s.Kept address → memory.byte address = s.memory.byte address)
      (havail : ∀ (ring : Ring) (address : Nat), Within (availIndexAddress ring.base) 2 address →
        memory.byte address = s.memory.byte address) :
      HostStep s { s with memory := memory }
  | post {s : Rings} {ring : Ring} {posting : Posting}
      (hoffers : Offers s.memory ring (s.posted ring).length posting)
      (hbytes : s.memory.read posting.address posting.length = posting.bytes)
      (hid : ∀ index other, s.Outstanding ring index other → other.id ≠ posting.id)
      (haddress : ∀ ring index other, s.Outstanding ring index other →
        other.address ≠ posting.address) :
      HostStep s (s.post ring posting)

/-- What is asked of the driver beyond the rules of the rings: the descriptors that it posts are
valid, and it starts the device once, leaving status and features alone from then on. -/
structure Proper (s next : Rings) : Prop where
  valid : ∀ ring, ∀ posting ∈ next.posted ring, posting.Valid ring
  attached : Started s.memory → ∀ address,
    Within vdevStatusAddress 1 address ∨ Within vdevFeaturesAddress 4 address →
    next.memory.byte address = s.memory.byte address

/-- The transport beside such a driver. -/
def driven : Machine Op Op.Ret Rings where
  perform := Rings.Performs
  interfere s next := HostStep s next ∧ Proper s next

end NanoKvm.Rpmsg
