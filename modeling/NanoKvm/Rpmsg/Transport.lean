import NanoKvm.Exec.Program
import NanoKvm.Rpmsg.Layout

/-!
# The RPMsg transport of the firmware

`rpmsg.rs` as programs over the operations it performs: volatile reads and writes of
shared memory, cache maintenance, the doorbell and the LCD snapshot. The fields of
`Transport` are the task's own memory, which `load` and `store` access. A slice or an
index out of range performs `panic`, from which nothing continues.
-/

namespace NanoKvm.Rpmsg

open Exec

/-- `struct Transport` -/
structure Transport where
  lcdAnnounced : Bool
  online : Bool
  announced : Bool
  rxAvailable : UInt16
  rxUsed : UInt16
  txAvailable : UInt16
  txUsed : UInt16
  pendingNotifications : UInt8
  nextNotification : UInt32
  deriving DecidableEq, Repr

/-- `Transport::new` -/
def Transport.new : Transport where
  lcdAnnounced := false
  online := false
  announced := false
  rxAvailable := 0
  rxUsed := 0
  txAvailable := 0
  txUsed := 0
  pendingNotifications := 0
  nextNotification := 0

/-- `Transport::reset_for_attach` writes every field. -/
def Transport.resetForAttach (_ : Transport) : Transport := { Transport.new with online := true }

/-- What `lcd_service::reply` reads of the scanout task. -/
structure LcdSnapshot where
  generation : UInt32
  state : UInt32
  frames : UInt32
  completed0 : UInt32
  completed1 : UInt32
  faulted : Bool
  deriving DecidableEq, Repr

/-- The operations of the transport. -/
inductive Op where
  | readU8 (address : Nat)
  | readU16 (address : Nat)
  | readU32 (address : Nat)
  | readU64 (address : Nat)
  | writeU8 (address : Nat) (value : UInt8)
  | writeU16 (address : Nat) (value : UInt16)
  | writeU32 (address : Nat) (value : UInt32)
  | clean (address length : Nat)
  | invalidate (address length : Nat)
  | notify (vqid : UInt32)
  | lcdSnapshot
  | load
  | store (transport : Transport)
  | panic
  deriving DecidableEq

/-- What an operation returns; `notify` says whether the doorbell was taken. -/
abbrev Op.Ret : Op → Type
  | .readU8 _ => UInt8
  | .readU16 _ => UInt16
  | .readU32 _ => UInt32
  | .readU64 _ => UInt64
  | .writeU8 _ _ | .writeU16 _ _ | .writeU32 _ _ => Unit
  | .clean _ _ | .invalidate _ _ => Unit
  | .notify _ => Bool
  | .lcdSnapshot => LcdSnapshot
  | .load => Transport
  | .store _ => Unit
  | .panic => Empty

/-- A part of the firmware's transport task. -/
abbrev Firmware := Prog Op Op.Ret

/-- Perform one operation. -/
abbrev perform (operation : Op) : Firmware operation.Ret := Prog.perform operation

/-- A panic, at any type. -/
def panic (α : Type) : Firmware α := .op .panic fun result => nomatch result

/-- `bytes[start..finish]` -/
def slice (bytes : List UInt8) (start finish : Nat) : Firmware (List UInt8) :=
  if start ≤ finish ∧ finish ≤ bytes.length then pure ((bytes.take finish).drop start)
  else panic _

/-- `bytes[start..finish].copy_from_slice(source)` -/
def copyFromSlice (bytes : List UInt8) (start finish : Nat) (source : List UInt8) :
    Firmware (List UInt8) :=
  if start ≤ finish ∧ finish ≤ bytes.length ∧ source.length = finish - start then
    pure (bytes.take start ++ source ++ bytes.drop finish)
  else panic _

/-- `write_bytes` -/
def writeBytes (address : Nat) : List UInt8 → Firmware Unit
  | [] => pure ()
  | byte :: rest => do
      perform (.writeU8 address byte)
      writeBytes (address + 1) rest

/-- `read_bytes` into a slice of the given length. -/
def readBytes (address : Nat) : Nat → Firmware (List UInt8)
  | 0 => pure []
  | count + 1 => do
      let byte ← perform (.readU8 address)
      let rest ← readBytes (address + 1) count
      pure (byte :: rest)

/-! ## Rings -/

/-- `vdev_online` -/
def vdevOnline : Firmware Bool := do
  perform (.invalidate resourceTableBase 64)
  let status ← perform (.readU8 vdevStatusAddress)
  let negotiated ← perform (.readU32 vdevFeaturesAddress)
  pure (decide (status &&& driverOk ≠ 0 ∧ negotiated &&& ~~~rpmsgFeatures = 0))

/-- `descriptor` -/
def descriptor (ring : Nat) (index : UInt16) : Firmware Descriptor := do
  let base := ring + index.toNat * descriptorSize
  let address ← perform (.readU64 base)
  let length ← perform (.readU32 (base + 8))
  let flags ← perform (.readU16 (base + 12))
  let next ← perform (.readU16 (base + 14))
  pure { address := address, length := length, flags := flags, next := next }

/-- `avail_index_address` -/
def availIndexAddress (ring : Nat) : Nat := ring + ringNum * descriptorSize + 2

/-- `avail_entry_address` -/
def availEntryAddress (ring : Nat) (cursor : UInt16) : Nat :=
  ring + ringNum * descriptorSize + 4 + cursor.toNat % ringNum * 2

/-- The address of the used index of a ring. -/
def usedIndexAddress (ring : Nat) : Nat := ring + ringUsedOffset + 2

/-- The address of the used entry at a cursor. -/
def usedEntryAddress (ring : Nat) (cursor : UInt16) : Nat :=
  ring + ringUsedOffset + 4 + cursor.toNat % ringNum * 8

/-- `publish_used` -/
def publishUsed (ring : Nat) (cursor descriptorId : UInt16) (length : UInt32) :
    Firmware Unit := do
  perform (.writeU32 (usedEntryAddress ring cursor) descriptorId.toUInt32)
  perform (.writeU32 (usedEntryAddress ring cursor + 4) length)
  perform (.clean (usedEntryAddress ring cursor) 8)
  perform (.writeU16 (usedIndexAddress ring) (cursor + 1))
  perform (.clean (ring + ringUsedOffset) 64)

/-! ## Sending -/

/-- The end of `send`, once a buffer is accepted. -/
def fill (source destination : UInt32) (payload : List UInt8) (descriptorId : UInt16)
    (buffer : Nat) : Firmware Unit := do
  let header : RpmsgHeader :=
    { source := source, destination := destination, reserved := 0,
      length := .ofNat payload.length, flags := 0 }
  writeBytes buffer (encodeHeader header)
  writeBytes (buffer + headerBytes) payload
  let messageSize := headerBytes + payload.length
  perform (.clean buffer messageSize)
  let transport ← perform .load
  publishUsed vring0Base transport.rxUsed descriptorId (.ofNat messageSize)
  let transport ← perform .load
  perform (.store { transport with
    rxAvailable := transport.rxAvailable + 1
    rxUsed := transport.rxUsed + 1 })

/-- `Transport::send` -/
def send (source destination : UInt32) (payload : List UInt8) : Firmware Bool :=
  if payloadBytes < payload.length then pure false
  else do
    perform (.invalidate vring0Base ringDriverBytes)
    let available ← perform (.readU16 (availIndexAddress vring0Base))
    let transport ← perform .load
    if transport.rxAvailable = available then pure false
    else do
      let descriptorId ← perform (.readU16 (availEntryAddress vring0Base transport.rxAvailable))
      if ringNum ≤ descriptorId.toNat then pure false
      else do
        let found ← descriptor vring0Base descriptorId
        match descriptorBuffer found true (headerBytes + payload.length) with
        | none => pure false
        | some buffer => do
            fill source destination payload descriptorId buffer
            pure true

/-- The announcement of a service at an address. -/
def announcement (address : UInt32) : Firmware (List UInt8) := do
  let bytes := List.replicate 40 0
  let bytes ← copyFromSlice bytes 0 serviceName.length serviceName
  let bytes ← copyFromSlice bytes 32 36 (leBytes 4 address.toNat)
  copyFromSlice bytes 36 40 (leBytes 4 nsCreate.toNat)

/-- `Transport::announce`, and the announcement of the LCD service in `service`. -/
def announce (address : UInt32) : Firmware Bool := do
  let bytes ← announcement address
  send nsAddress nsAddress bytes

/-! ## Messages from Linux -/

/-- The test that `lcd_service::reply` makes of a request. -/
def validQuery (request : List UInt8) (generation : UInt32) : Firmware Bool :=
  if request.length = 8 then do
    let magic ← slice request 0 4
    if magic = lcdRequestMagic then do
      let claimed ← slice request 4 8
      pure (decide (ofLeBytes claimed = generation.toNat))
    else pure false
  else pure false

/-- `lcd_service::reply` -/
def reply (request : List UInt8) : Firmware (List UInt8) := do
  let snapshot ← perform .lcdSnapshot
  let valid ← validQuery request snapshot.generation
  pure (lcdReplyMagic ++ leBytes 4 snapshot.generation.toNat ++
    leBytes 4 snapshot.state.toNat ++ leBytes 4 snapshot.frames.toNat ++
    leBytes 4 snapshot.completed0.toNat ++ leBytes 4 snapshot.completed1.toNat ++
    leBytes 4 snapshot.faulted.toNat ++ leBytes 4 (!valid).toNat)

/-- The payload that `drain_host_messages` copies out of the buffer. -/
def readPayload (buffer length : Nat) : Firmware (List UInt8) := do
  let payload := List.replicate payloadBytes 0
  let window ← slice payload 0 length
  let bytes ← readBytes (buffer + headerBytes) window.length
  slice (bytes ++ payload.drop bytes.length) 0 length

/-- The test that `drain_host_messages` makes of a header. -/
def validMessage (header : RpmsgHeader) (descriptor : Descriptor) : Bool :=
  header.reserved == 0
    && header.flags == 0
    && decide (header.length.toNat ≤ payloadBytes)
    && decide (headerBytes + header.length.toNat ≤ descriptor.length.toNat)

/-- Echo a message to the echo address: `none` when it has to wait for a buffer, otherwise whether
it was sent. -/
def answerEcho (valid : Bool) (header : RpmsgHeader) (buffer : Nat) :
    Firmware (Option Bool) :=
  if valid ∧ header.destination = echoAddress then do
    let payload ← readPayload buffer header.length.toNat
    let sent ← send echoAddress header.source payload
    pure (if sent then some true else none)
  else pure (some false)

/-- The same for a query of the LCD service. -/
def answerLcd (lcd valid : Bool) (header : RpmsgHeader) (buffer : Nat) :
    Firmware (Option Bool) :=
  if lcd ∧ valid ∧ header.destination = lcdServiceAddress then do
    let payload ← readPayload buffer header.length.toNat
    let response ← reply payload
    let sent ← send lcdServiceAddress header.source response
    pure (if sent then some true else none)
  else pure (some false)

/-- Both tests of `drain_host_messages` in order: whether something was sent, and whether the
message is finished rather than waiting for a buffer. -/
def answer (lcd valid : Bool) (header : RpmsgHeader) (buffer : Nat) : Firmware (Bool × Bool) := do
  let echoed ← answerEcho valid header buffer
  match echoed with
  | none => pure (false, false)
  | some echoed => do
      let answered ← answerLcd lcd valid header buffer
      match answered with
      | none => pure (echoed, false)
      | some answered => pure (echoed || answered, true)

/-- Return a descriptor of ring 1 and move both cursors. -/
def completeHostMessage (descriptorId : UInt16) : Firmware Unit := do
  let transport ← perform .load
  publishUsed vring1Base transport.txUsed descriptorId 0
  let transport ← perform .load
  perform (.store { transport with
    txAvailable := transport.txAvailable + 1
    txUsed := transport.txUsed + 1 })

/-- `Transport::drain_host_messages` for the given number of loop turns. -/
def drainHostMessages (lcd : Bool) : Nat → Bool → Bool → Firmware (Bool × Bool)
  | 0, sent, completed => pure (sent, completed)
  | turns + 1, sent, completed => do
      perform (.invalidate vring1Base ringDriverBytes)
      let available ← perform (.readU16 (availIndexAddress vring1Base))
      let transport ← perform .load
      if transport.txAvailable = available then pure (sent, completed)
      else do
        let descriptorId ←
          perform (.readU16 (availEntryAddress vring1Base transport.txAvailable))
        if ringNum ≤ descriptorId.toNat then pure (sent, completed)
        else do
          let found ← descriptor vring1Base descriptorId
          match descriptorBuffer found false headerBytes with
          | none => do
              completeHostMessage descriptorId
              drainHostMessages lcd turns sent true
          | some buffer => do
              perform (.invalidate buffer found.length.toNat)
              let encoded ← readBytes buffer headerBytes
              let header := decodeHeader encoded
              let answered ← answer lcd (validMessage header found) header buffer
              if answered.2 then do
                completeHostMessage descriptorId
                drainHostMessages lcd turns (sent || answered.1) true
              else pure (sent || answered.1, completed)

/-! ## Notifications -/

/-- The pending bit of a queue. -/
def queueBit (vqid : UInt32) : UInt8 := 1 <<< vqid.toUInt8

/-- `Transport::queue_notification` -/
def queueNotification (vqid : UInt32) : Firmware Unit := do
  let transport ← perform .load
  perform (.store { transport with
    pendingNotifications := transport.pendingNotifications ||| queueBit vqid })

/-- Queue a notification under a condition. -/
def queueIf (condition : Bool) (vqid : UInt32) : Firmware Unit :=
  if condition then queueNotification vqid else pure ()

/-- The loop of `flush_notification` over the given offsets. -/
def flushOffsets : List UInt32 → Firmware Unit
  | [] => pure ()
  | offset :: rest => do
      let transport ← perform .load
      let vqid := (transport.nextNotification + offset) % 2
      if transport.pendingNotifications &&& queueBit vqid = 0 then flushOffsets rest
      else do
        let taken ← perform (.notify vqid)
        if taken then
          perform (.store { transport with
            pendingNotifications := transport.pendingNotifications &&& ~~~queueBit vqid
            nextNotification := (vqid + 1) % 2 })
        else pure ()

/-- `Transport::flush_notification` -/
def flushNotification : Firmware Unit := flushOffsets [0, 1]

/-! ## The service loop -/

/-- Announce the echo service if it is not announced yet; says whether ring 0 changed. -/
def announceEcho : Firmware Bool := do
  let transport ← perform .load
  if transport.announced then pure false
  else do
    let sent ← announce echoAddress
    if sent then do
      let transport ← perform .load
      perform (.store { transport with announced := true })
      pure true
    else pure false

/-- Announce the LCD service once the echo service is announced. -/
def announceLcd (lcd : Bool) : Firmware Bool := do
  let transport ← perform .load
  if lcd ∧ transport.announced ∧ ¬ transport.lcdAnnounced then do
    let sent ← announce lcdServiceAddress
    if sent then do
      let transport ← perform .load
      perform (.store { transport with lcdAnnounced := true })
      pure true
    else pure false
  else pure false

/-- `Transport::service` once the device is known to be online. -/
def serviceOnline (lcd : Bool) : Firmware Unit := do
  let echoAnnounced ← announceEcho
  let lcdAnnounced ← announceLcd lcd
  let drained ← drainHostMessages lcd ringNum false false
  queueIf (echoAnnounced || lcdAnnounced || drained.1) 0
  queueIf drained.2 1
  flushNotification

/-- Reset the transport when the device was offline at the last call. -/
def attach (transport : Transport) : Firmware Unit :=
  if transport.online then pure () else perform (.store transport.resetForAttach)

/-- `Transport::service` -/
def service (lcd : Bool) : Firmware Unit := do
  let online ← vdevOnline
  let transport ← perform .load
  if online then do
    attach transport
    serviceOnline lcd
  else perform (.store { transport with online := false })

/-! ## Passive parts

Most of a service call neither polls the status nor publishes a used entry nor rings the
doorbell nor touches the transport's own memory. -/

/-- Neither the status byte, nor the used index, nor the doorbell, nor the fields of the
transport. -/
def Op.Passive : Op → Prop
  | .readU8 address => address ≠ vdevStatusAddress
  | .writeU16 _ _ | .notify _ | .load | .store _ => False
  | _ => True

theorem panic_passive (α : Type) : (panic α).Only Op.Passive :=
  ⟨trivial, fun result => nomatch result⟩

theorem slice_passive (bytes : List UInt8) (start finish : Nat) :
    (slice bytes start finish).Only Op.Passive := by
  unfold slice
  split
  · trivial
  · exact panic_passive _

theorem copy_from_slice_passive (bytes : List UInt8) (start finish : Nat) (source : List UInt8) :
    (copyFromSlice bytes start finish source).Only Op.Passive := by
  unfold copyFromSlice
  split
  · trivial
  · exact panic_passive _

theorem write_bytes_passive (address : Nat) (bytes : List UInt8) :
    (writeBytes address bytes).Only Op.Passive := by
  induction bytes generalizing address with
  | nil => trivial
  | cons byte rest ih => exact ⟨trivial, fun _ => ih (address + 1)⟩

theorem read_bytes_passive {address : Nat} (haddress : bufferBase ≤ address) (count : Nat) :
    (readBytes address count).Only Op.Passive := by
  induction count generalizing address with
  | zero => trivial
  | succ count ih =>
      have hstatus : address ≠ vdevStatusAddress := by
        unfold vdevStatusAddress resourceTableBase
        unfold bufferBase at haddress
        omega
      exact Prog.Only.perform hstatus fun _ =>
        Prog.Only.bind (ih (Nat.le_succ_of_le haddress)) fun _ => trivial

theorem descriptor_passive (ring : Nat) (index : UInt16) :
    (descriptor ring index).Only Op.Passive :=
  ⟨trivial, fun _ => ⟨trivial, fun _ => ⟨trivial, fun _ => ⟨trivial, fun _ => trivial⟩⟩⟩⟩

theorem announcement_passive (address : UInt32) : (announcement address).Only Op.Passive :=
  Prog.Only.bind (copy_from_slice_passive ..) fun _ =>
    Prog.Only.bind (copy_from_slice_passive ..) fun _ => copy_from_slice_passive ..

theorem valid_query_passive (request : List UInt8) (generation : UInt32) :
    (validQuery request generation).Only Op.Passive := by
  unfold validQuery
  split
  · refine Prog.Only.bind (slice_passive ..) fun magic => ?_
    split
    · exact Prog.Only.bind (slice_passive ..) fun _ => trivial
    · trivial
  · trivial

theorem reply_passive (request : List UInt8) : (reply request).Only Op.Passive :=
  Prog.Only.perform trivial fun _ => Prog.Only.bind (valid_query_passive ..) fun _ => trivial

theorem read_payload_passive {buffer : Nat} (hbuffer : bufferBase ≤ buffer) (length : Nat) :
    (readPayload buffer length).Only Op.Passive :=
  Prog.Only.bind (slice_passive ..) fun _ =>
    Prog.Only.bind (read_bytes_passive (Nat.le_add_right_of_le hbuffer) _) fun _ =>
      slice_passive ..

end NanoKvm.Rpmsg
