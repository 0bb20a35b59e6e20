import Mathlib.Logic.Function.Basic
import NanoKvm.Rpmsg.Transport

/-!
# Confinement of the transport

The transport against a host that can make every read return anything, at any time. The
machine keeps no memory: it only records, for each ring, the fields of the descriptor
that were last read from its table. Against that record every access is judged. A byte
is written only inside the buffer of the descriptor of ring 0 that `descriptor_buffer`
accepted, a byte is read only inside that of ring 1 (or is the status byte), wider
writes stay in the used areas, and nothing panics.
-/

namespace NanoKvm.Rpmsg

open Exec

/-- The transport's own state and the descriptor last read from each ring. -/
structure Observed where
  transport : Transport
  seen : Ring → Descriptor

/-- The address is in the descriptor table of the ring. -/
def InTable (ring : Ring) (address : Nat) : Prop :=
  ring.base ≤ address ∧ address < ring.base + ringNum * descriptorSize

instance (ring : Ring) (address : Nat) : Decidable (InTable ring address) :=
  inferInstanceAs (Decidable (_ ∧ _))

/-- A read from a descriptor table updates the record of that ring. The update is told the
offset inside the descriptor. -/
def Observed.see (address : Nat) (update : Nat → Descriptor → Descriptor) (s : Observed) :
    Observed :=
  { s with seen := fun ring =>
      if InTable ring address then
        update ((address - ring.base) % descriptorSize) (s.seen ring)
      else s.seen ring }

/-- The operations against a hostile host: reads return anything. -/
def Observed.Performs (s : Observed) : (operation : Op) → operation.Ret → Observed → Prop
  | .readU64 address, value, next =>
      next = s.see address fun _ found => { found with address := value }
  | .readU32 address, value, next =>
      next = s.see address fun _ found => { found with length := value }
  | .readU16 address, value, next =>
      next = s.see address fun offset found =>
        if offset = 12 then { found with flags := value } else { found with next := value }
  | .load, transport, next => transport = s.transport ∧ next = s
  | .store transport, _, next => next = { s with transport := transport }
  | _, _, next => next = s

/-- The machine of the hostile host. -/
def hostile : Machine Op Op.Ret Observed where
  perform := Observed.Performs
  interfere _ _ := False

/-- The bytes are in the used area of a ring. -/
def UsedArea (address length : Nat) : Prop :=
  ∃ ring : Ring, ring.base + ringUsedOffset ≤ address ∧
    address + length ≤ ring.base + ringUsedOffset + 4 + ringNum * 8

/-- The bytes are in the area of a ring that Linux writes. -/
def DriverArea (address length : Nat) : Prop :=
  ∃ ring : Ring, ring.base ≤ address ∧ address + length ≤ ring.base + ringDriverBytes

/-- The byte is in the one pool slot of a descriptor that `descriptor_buffer` accepted, below the
descriptor's length. -/
def InAccepted (descriptor : Descriptor) (write : Bool) (address : Nat) : Prop :=
  ∃ minimum buffer, descriptorBuffer descriptor write minimum = some buffer ∧
    InBuffer descriptor buffer address

/-- What an operation may touch. -/
def Confined (s : Observed) : Op → Prop
  | .writeU8 address _ => InAccepted (s.seen .rx) true address
  | .writeU16 address _ => UsedArea address 2
  | .writeU32 address _ => UsedArea address 4
  | .readU8 address => address = vdevStatusAddress ∨ InAccepted (s.seen .tx) false address
  | .readU16 address => DriverArea address 2
  | .readU32 address => address = vdevFeaturesAddress ∨ DriverArea address 4
  | .readU64 address => DriverArea address 8
  | .panic => False
  | _ => True

/-! ## Addresses -/

/-- The available entries are in the driver's area. -/
theorem avail_entry_driver_area (ring : Ring) (cursor : UInt16) :
    DriverArea (availEntryAddress ring.base cursor) 2 := by
  refine ⟨ring, ?_, ?_⟩
  · unfold availEntryAddress
    omega
  · unfold availEntryAddress ringNum descriptorSize ringDriverBytes
    omega

/-- So is the available index. -/
theorem avail_index_driver_area (ring : Ring) : DriverArea (availIndexAddress ring.base) 2 := by
  refine ⟨ring, ?_, ?_⟩
  · unfold availIndexAddress
    omega
  · unfold availIndexAddress ringNum descriptorSize ringDriverBytes
    omega

/-- The two halves of a used entry are in the used area. -/
theorem used_entry_used_area (ring : Ring) (offset : Nat) (hoffset : offset ≤ 4)
    (cursor : UInt16) : UsedArea (usedEntryAddress ring.base cursor + offset) 4 := by
  refine ⟨ring, ?_, ?_⟩
  · unfold usedEntryAddress
    omega
  · unfold usedEntryAddress ringNum
    omega

/-- So is the used index. -/
theorem used_index_used_area (ring : Ring) : UsedArea (usedIndexAddress ring.base) 2 := by
  refine ⟨ring, ?_, ?_⟩
  · unfold usedIndexAddress
    omega
  · unfold usedIndexAddress ringNum
    omega

/-- A field of a descriptor is in the driver's area. -/
theorem descriptor_driver_area (ring : Ring) {index : UInt16} (hindex : index.toNat < ringNum)
    (offset length : Nat) (hlength : offset + length ≤ descriptorSize) :
    DriverArea (ring.base + index.toNat * descriptorSize + offset) length := by
  refine ⟨ring, by omega, ?_⟩
  unfold ringNum at hindex
  unfold descriptorSize at *
  unfold ringDriverBytes
  omega

/-- The two descriptor tables do not overlap. -/
theorem in_table_descriptor (ring other : Ring) {index : UInt16} (hindex : index.toNat < ringNum)
    {offset : Nat} (hoffset : offset < descriptorSize) :
    InTable other (ring.base + index.toNat * descriptorSize + offset) ↔ other = ring := by
  unfold ringNum at hindex
  unfold descriptorSize at *
  unfold InTable ringNum descriptorSize
  cases ring <;> cases other <;> simp only [Ring.base, vring0Base, vring1Base, reduceCtorEq,
    iff_false, iff_true] <;> omega

/-- The record of a ring once a field of one of its descriptors is read. -/
theorem see_descriptor (s : Observed) (ring : Ring) {index : UInt16}
    (hindex : index.toNat < ringNum) (offset : Nat) (hoffset : offset < descriptorSize)
    (update : Nat → Descriptor → Descriptor) :
    s.see (ring.base + index.toNat * descriptorSize + offset) update =
      { s with seen := Function.update s.seen ring (update offset (s.seen ring)) } := by
  unfold Observed.see
  congr 1
  funext other
  by_cases hother : other = ring
  · subst hother
    rw [if_pos ((in_table_descriptor other other hindex hoffset).mpr rfl), Function.update_self]
    congr 1
    unfold descriptorSize at *
    omega
  · rw [if_neg (mt (in_table_descriptor ring other hindex hoffset).mp hother),
      Function.update_of_ne hother]

/-- A read outside the tables leaves the record alone. -/
theorem see_outside (s : Observed) {address : Nat} (h : ∀ ring, ¬ InTable ring address)
    (update : Nat → Descriptor → Descriptor) : s.see address update = s := by
  unfold Observed.see
  simp only [h, if_false]

/-- The available index is outside the tables. -/
theorem not_in_table_avail_index (ring other : Ring) :
    ¬ InTable other (availIndexAddress ring.base) := by
  unfold InTable availIndexAddress ringNum descriptorSize
  cases ring <;> cases other <;> simp only [Ring.base, vring0Base, vring1Base] <;> omega

/-- The available entries are outside the tables. -/
theorem not_in_table_avail_entry (ring other : Ring) (cursor : UInt16) :
    ¬ InTable other (availEntryAddress ring.base cursor) := by
  unfold InTable availEntryAddress ringNum descriptorSize
  cases ring <;> cases other <;> simp only [Ring.base, vring0Base, vring1Base] <;> omega

/-! ## One lemma for each function -/

section

variable {α : Type} {s : Observed}

/-- There is no interference. -/
theorem hostile_quiet (before after : Observed) : ¬ hostile.interfere before after := id

/-- An allowed slice is what it says. -/
theorem slice_confined {bytes : List UInt8} {start finish : Nat}
    {post : List UInt8 → Observed → Prop} (hrange : start ≤ finish ∧ finish ≤ bytes.length)
    (h : post ((bytes.take finish).drop start) s) :
    hostile.wp Confined (slice bytes start finish) post s := by
  unfold slice
  rw [if_pos hrange]
  exact Machine.wp_pure_quiet hostile_quiet h

/-- An allowed copy is what it says. -/
theorem copy_from_slice_confined {bytes source : List UInt8} {start finish : Nat}
    {post : List UInt8 → Observed → Prop}
    (hrange : start ≤ finish ∧ finish ≤ bytes.length ∧ source.length = finish - start)
    (h : post (bytes.take start ++ source ++ bytes.drop finish) s) :
    hostile.wp Confined (copyFromSlice bytes start finish source) post s := by
  unfold copyFromSlice
  rw [if_pos hrange]
  exact Machine.wp_pure_quiet hostile_quiet h

/-- Bytes are written where the buffer allows all of them. -/
theorem write_bytes_confined {address : Nat} {bytes : List UInt8}
    (h : ∀ offset < bytes.length, InAccepted (s.seen .rx) true (address + offset)) :
    hostile.wp Confined (writeBytes address bytes) (fun _ after => after = s) s := by
  induction bytes generalizing address with
  | nil => exact Machine.wp_pure_quiet hostile_quiet rfl
  | cons byte rest ih =>
      refine Machine.wp_perform_quiet hostile_quiet (h 0 (by simp)) ?_
      rintro result next rfl
      refine ih fun offset hoffset => ?_
      have hnext := h (offset + 1) (by simpa using hoffset)
      rwa [show address + (offset + 1) = address + 1 + offset by omega] at hnext

/-- Bytes are read where the buffer allows all of them. -/
theorem read_bytes_confined {address count : Nat}
    (h : ∀ offset < count, InAccepted (s.seen .tx) false (address + offset)) :
    hostile.wp Confined (readBytes address count)
      (fun bytes after => bytes.length = count ∧ after = s) s := by
  induction count generalizing address with
  | zero => exact Machine.wp_pure_quiet hostile_quiet ⟨rfl, rfl⟩
  | succ count ih =>
      refine Machine.wp_perform_quiet hostile_quiet (.inr (h 0 (by omega))) ?_
      rintro byte next rfl
      refine Machine.wp_bind (Machine.wp_mono (ih fun offset hoffset => ?_) ?_)
      · have hnext := h (offset + 1) (by omega)
        rwa [show address + (offset + 1) = address + 1 + offset by omega] at hnext
      · rintro bytes after ⟨hlength, rfl⟩
        exact Machine.wp_pure_quiet hostile_quiet ⟨by simp [hlength], rfl⟩

/-- A used entry is published inside the used area. -/
theorem publish_used_confined (ring : Ring) (cursor descriptorId : UInt16) (length : UInt32) :
    hostile.wp Confined (publishUsed ring.base cursor descriptorId length)
      (fun _ after => after = s) s := by
  refine Machine.wp_perform_quiet hostile_quiet
    (used_entry_used_area ring 0 (Nat.zero_le 4) cursor) ?_
  rintro result next rfl
  refine Machine.wp_perform_quiet hostile_quiet
    (used_entry_used_area ring 4 (Nat.le_refl 4) cursor) ?_
  rintro result next rfl
  refine Machine.wp_perform_quiet hostile_quiet trivial ?_
  rintro result next rfl
  refine Machine.wp_perform_quiet hostile_quiet (used_index_used_area ring) ?_
  rintro result next rfl
  refine Machine.wp_perform_last_quiet hostile_quiet trivial ?_
  rintro result next rfl
  rfl

/-- The record of the ring is the descriptor that `descriptor` returns. -/
theorem descriptor_confined (ring : Ring) {index : UInt16} (hindex : index.toNat < ringNum) :
    hostile.wp Confined (descriptor ring.base index)
      (fun found after => after = { s with seen := Function.update s.seen ring found }) s := by
  have harea := descriptor_driver_area ring hindex
  refine Machine.wp_perform_quiet hostile_quiet (harea 0 8 (by decide)) ?_
  intro address next hnext
  obtain rfl := hnext.trans (see_descriptor s ring hindex 0 (by decide) _)
  refine Machine.wp_perform_quiet hostile_quiet (.inr (harea 8 4 (by decide))) ?_
  intro length next hnext
  obtain rfl := hnext.trans (see_descriptor _ ring hindex 8 (by decide) _)
  refine Machine.wp_perform_quiet hostile_quiet (harea 12 2 (by decide)) ?_
  intro flags next hnext
  obtain rfl := hnext.trans (see_descriptor _ ring hindex 12 (by decide) _)
  refine Machine.wp_perform_quiet hostile_quiet (harea 14 2 (by decide)) ?_
  intro chain next hnext
  obtain rfl := hnext.trans (see_descriptor _ ring hindex 14 (by decide) _)
  exact Machine.wp_pure_quiet hostile_quiet (by simp)

/-- Only the transport's own state changes; the records of the descriptors stay. -/
abbrev SameSeen (s after : Observed) : Prop := after.seen = s.seen

/-- A message fits the buffer that was accepted for it. -/
theorem fill_confined {source destination : UInt32} {payload : List UInt8}
    {descriptorId : UInt16} {buffer : Nat} (hpayload : payload.length ≤ payloadBytes)
    (hbuffer : descriptorBuffer (s.seen .rx) true (headerBytes + payload.length) = some buffer) :
    hostile.wp Confined (fill source destination payload descriptorId buffer)
      (fun _ after => SameSeen s after) s := by
  have hfits : headerBytes + payload.length ≤ (s.seen .rx).length.toNat := by
    have hminimum := (descriptor_buffer_some hbuffer).2.1
    unfold payloadBytes at hpayload
    unfold headerBytes at *
    omega
  have hbytes : ∀ offset < headerBytes + payload.length,
      InAccepted (s.seen .rx) true (buffer + offset) := fun offset hoffset =>
    ⟨_, buffer, hbuffer, descriptor_buffer_in_buffer hbuffer (by omega) (by omega)⟩
  unfold fill
  refine Machine.wp_bind (Machine.wp_mono (write_bytes_confined ?_) ?_)
  · intro offset hoffset
    rw [encode_header_length] at hoffset
    exact hbytes offset (by omega)
  · rintro _ after rfl
    refine Machine.wp_bind (Machine.wp_mono (write_bytes_confined ?_) ?_)
    · intro offset hoffset
      rw [Nat.add_assoc]
      exact hbytes _ (by omega)
    · rintro _ after rfl
      refine Machine.wp_perform_quiet hostile_quiet trivial ?_
      rintro _ _ rfl
      refine Machine.wp_perform_quiet hostile_quiet trivial ?_
      rintro _ _ ⟨rfl, rfl⟩
      refine Machine.wp_bind (Machine.wp_mono (publish_used_confined .rx _ _ _) ?_)
      rintro _ _ rfl
      refine Machine.wp_perform_quiet hostile_quiet trivial ?_
      rintro _ _ ⟨rfl, rfl⟩
      refine Machine.wp_perform_last_quiet hostile_quiet trivial ?_
      rintro _ _ rfl
      rfl

/-- `send` leaves the record of ring 1 alone. -/
theorem send_confined {source destination : UInt32} {payload : List UInt8} :
    hostile.wp Confined (send source destination payload)
      (fun _ after => after.seen .tx = s.seen .tx) s := by
  unfold send
  split
  · exact Machine.wp_pure_quiet hostile_quiet rfl
  · rename_i hpayload
    refine Machine.wp_perform_quiet hostile_quiet trivial ?_
    rintro _ _ rfl
    refine Machine.wp_perform_quiet hostile_quiet (avail_index_driver_area .rx) ?_
    intro available next hnext
    obtain rfl := hnext.trans (see_outside _ (not_in_table_avail_index .rx) _)
    refine Machine.wp_perform_quiet hostile_quiet trivial ?_
    rintro _ _ ⟨rfl, rfl⟩
    split
    · exact Machine.wp_pure_quiet hostile_quiet rfl
    · refine Machine.wp_perform_quiet hostile_quiet (avail_entry_driver_area .rx _) ?_
      intro descriptorId next hnext
      obtain rfl := hnext.trans (see_outside _ (not_in_table_avail_entry .rx · _) _)
      split
      · exact Machine.wp_pure_quiet hostile_quiet rfl
      · rename_i hindex
        refine Machine.wp_bind (Machine.wp_mono
          (descriptor_confined .rx (Nat.lt_of_not_le hindex)) ?_)
        rintro found _ rfl
        split
        · exact Machine.wp_pure_quiet hostile_quiet (by simp)
        · rename_i buffer hbuffer
          refine Machine.wp_bind (Machine.wp_mono
            (fill_confined (Nat.le_of_not_lt hpayload) (by simpa using hbuffer)) ?_)
          intro _ after hsame
          refine Machine.wp_pure_quiet hostile_quiet ?_
          rw [show after.seen = _ from hsame]
          simp

/-- The announcement is built inside its forty bytes. -/
theorem announcement_confined (address : UInt32) :
    hostile.wp Confined (announcement address) (fun _ after => after = s) s := by
  have hname : serviceName.length = 12 := by decide
  unfold announcement
  refine Machine.wp_bind (copy_from_slice_confined (by simp [hname]) ?_)
  refine Machine.wp_bind (copy_from_slice_confined (by simp [hname]) ?_)
  exact copy_from_slice_confined (by simp [hname]) rfl

/-- An announcement leaves the record of ring 1 alone. -/
theorem announce_confined (address : UInt32) :
    hostile.wp Confined (announce address) (fun _ after => after.seen .tx = s.seen .tx) s := by
  refine Machine.wp_bind (Machine.wp_mono (announcement_confined address) ?_)
  rintro _ _ rfl
  exact send_confined

/-- A query is sliced only when it has eight bytes. -/
theorem valid_query_confined (request : List UInt8) (generation : UInt32) :
    hostile.wp Confined (validQuery request generation) (fun _ after => after = s) s := by
  unfold validQuery
  split
  · rename_i hlength
    refine Machine.wp_bind (slice_confined (by omega) ?_)
    split
    · refine Machine.wp_bind (slice_confined (by omega) ?_)
      exact Machine.wp_pure_quiet hostile_quiet rfl
    · exact Machine.wp_pure_quiet hostile_quiet rfl
  · exact Machine.wp_pure_quiet hostile_quiet rfl

/-- So `reply` does not panic. -/
theorem reply_confined (request : List UInt8) :
    hostile.wp Confined (reply request) (fun _ after => after = s) s := by
  refine Machine.wp_perform_quiet hostile_quiet trivial ?_
  rintro snapshot s rfl
  refine Machine.wp_bind (Machine.wp_mono (valid_query_confined request _) ?_)
  rintro valid _ rfl
  exact Machine.wp_pure_quiet hostile_quiet rfl

/-- The payload of a valid message is inside the buffer it came in. -/
theorem read_payload_confined {buffer length : Nat} (hlength : length ≤ payloadBytes)
    (hbuffer : descriptorBuffer (s.seen .tx) false headerBytes = some buffer)
    (hfits : headerBytes + length ≤ (s.seen .tx).length.toNat) :
    hostile.wp Confined (readPayload buffer length) (fun _ after => after = s) s := by
  unfold readPayload
  refine Machine.wp_bind (slice_confined (by simpa using hlength) ?_)
  refine Machine.wp_bind (Machine.wp_mono (read_bytes_confined ?_) ?_)
  · intro offset hoffset
    have hwindow : offset < length := by
      simp only [List.drop_zero, List.length_take, List.length_replicate] at hoffset
      omega
    exact ⟨_, buffer, hbuffer, descriptor_buffer_in_buffer hbuffer (by omega) (by omega)⟩
  · rintro bytes _ ⟨hbytes, rfl⟩
    refine slice_confined ⟨Nat.zero_le _, ?_⟩ rfl
    simp only [List.drop_zero, List.length_take, List.length_replicate] at hbytes
    simp only [List.length_append, List.length_drop, List.length_replicate]
    omega

/-- The payload of a message that passed the test can be read. -/
theorem valid_payload_confined {header : RpmsgHeader} {buffer : Nat} {found : Descriptor}
    (hseen : s.seen .tx = found)
    (hbuffer : descriptorBuffer found false headerBytes = some buffer)
    (hvalid : validMessage header found = true) :
    hostile.wp Confined (readPayload buffer header.length.toNat) (fun _ after => after = s) s := by
  simp only [validMessage, Bool.and_eq_true, decide_eq_true_eq] at hvalid
  subst hseen
  exact read_payload_confined hvalid.1.2 hbuffer hvalid.2

/-- An echo reads the message inside its buffer. -/
theorem answer_echo_confined {header : RpmsgHeader} {buffer : Nat} {found : Descriptor}
    (hseen : s.seen .tx = found)
    (hbuffer : descriptorBuffer found false headerBytes = some buffer) :
    hostile.wp Confined (answerEcho (validMessage header found) header buffer)
      (fun _ after => after.seen .tx = found) s := by
  unfold answerEcho
  split
  · rename_i hecho
    refine Machine.wp_bind (Machine.wp_mono (valid_payload_confined hseen hbuffer hecho.1) ?_)
    rintro payload _ rfl
    refine Machine.wp_bind (Machine.wp_mono send_confined ?_)
    intro sent after hsame
    exact Machine.wp_pure_quiet hostile_quiet (hsame.trans hseen)
  · exact Machine.wp_pure_quiet hostile_quiet hseen

/-- So does the answer to a query of the LCD service. -/
theorem answer_lcd_confined {lcd : Bool} {header : RpmsgHeader} {buffer : Nat}
    {found : Descriptor} (hseen : s.seen .tx = found)
    (hbuffer : descriptorBuffer found false headerBytes = some buffer) :
    hostile.wp Confined (answerLcd lcd (validMessage header found) header buffer)
      (fun _ _ => True) s := by
  unfold answerLcd
  split
  · rename_i hlcd
    refine Machine.wp_bind (Machine.wp_mono (valid_payload_confined hseen hbuffer hlcd.2.1) ?_)
    rintro payload _ rfl
    refine Machine.wp_bind (Machine.wp_mono (reply_confined payload) ?_)
    rintro response _ rfl
    refine Machine.wp_bind (Machine.wp_mono send_confined ?_)
    intro sent after _
    exact Machine.wp_pure_quiet hostile_quiet trivial
  · exact Machine.wp_pure_quiet hostile_quiet trivial

/-- The answer to a message is confined. -/
theorem answer_confined {lcd : Bool} {header : RpmsgHeader} {buffer : Nat} {found : Descriptor}
    (hseen : s.seen .tx = found)
    (hbuffer : descriptorBuffer found false headerBytes = some buffer) :
    hostile.wp Confined (answer lcd (validMessage header found) header buffer)
      (fun _ _ => True) s := by
  refine Machine.wp_bind (Machine.wp_mono (answer_echo_confined hseen hbuffer) ?_)
  intro echoed after hsame
  cases echoed with
  | none => exact Machine.wp_pure_quiet hostile_quiet trivial
  | some echoed =>
      refine Machine.wp_bind (Machine.wp_mono (answer_lcd_confined hsame hbuffer) ?_)
      intro answered _ _
      cases answered with
      | none => exact Machine.wp_pure_quiet hostile_quiet trivial
      | some answered => exact Machine.wp_pure_quiet hostile_quiet trivial

/-- Returning a descriptor of ring 1 stays in its used area. -/
theorem complete_host_message_confined (descriptorId : UInt16) :
    hostile.wp Confined (completeHostMessage descriptorId) (fun _ _ => True) s := by
  refine Machine.wp_perform_quiet hostile_quiet trivial ?_
  rintro _ _ ⟨rfl, rfl⟩
  refine Machine.wp_bind (Machine.wp_mono (publish_used_confined .tx _ _ _) ?_)
  rintro _ _ rfl
  refine Machine.wp_perform_quiet hostile_quiet trivial ?_
  rintro _ _ ⟨rfl, rfl⟩
  exact Machine.wp_perform_last_quiet hostile_quiet trivial fun _ _ _ => trivial

/-- The loop over the messages from Linux is confined, by induction on its turns. -/
theorem drain_host_messages_confined (lcd : Bool) (turns : Nat) (sent completed : Bool) :
    hostile.wp Confined (drainHostMessages lcd turns sent completed) (fun _ _ => True) s := by
  induction turns generalizing s sent completed with
  | zero => exact Machine.wp_pure_quiet hostile_quiet trivial
  | succ turns ih =>
      unfold drainHostMessages
      refine Machine.wp_perform_quiet hostile_quiet trivial ?_
      rintro _ _ rfl
      refine Machine.wp_perform_quiet hostile_quiet (avail_index_driver_area .tx) ?_
      intro available next hnext
      obtain rfl := hnext.trans (see_outside _ (not_in_table_avail_index .tx) _)
      refine Machine.wp_perform_quiet hostile_quiet trivial ?_
      rintro _ _ ⟨rfl, rfl⟩
      split
      · exact Machine.wp_pure_quiet hostile_quiet trivial
      · refine Machine.wp_perform_quiet hostile_quiet (avail_entry_driver_area .tx _) ?_
        intro descriptorId next hnext
        obtain rfl := hnext.trans (see_outside _ (not_in_table_avail_entry .tx · _) _)
        split
        · exact Machine.wp_pure_quiet hostile_quiet trivial
        · rename_i hindex
          refine Machine.wp_bind (Machine.wp_mono
            (descriptor_confined .tx (Nat.lt_of_not_le hindex)) ?_)
          rintro found _ rfl
          split
          · refine Machine.wp_bind (Machine.wp_mono
              (complete_host_message_confined descriptorId) ?_)
            exact fun _ _ _ => ih _ _
          · rename_i buffer hbuffer
            refine Machine.wp_perform_quiet hostile_quiet trivial ?_
            rintro _ s rfl
            refine Machine.wp_bind (Machine.wp_mono (read_bytes_confined ?_) ?_)
            · intro offset hoffset
              have hminimum := (descriptor_buffer_some hbuffer).2.1
              have hheader : headerBytes % 2 ^ 32 = headerBytes := by decide
              simp only [Function.update_self]
              exact ⟨_, buffer, hbuffer,
                descriptor_buffer_in_buffer hbuffer (by omega) (by omega)⟩
            · rintro encoded _ ⟨-, rfl⟩
              refine Machine.wp_bind (Machine.wp_mono
                (answer_confined (by simp) hbuffer) ?_)
              intro answered after _
              split
              · refine Machine.wp_bind (Machine.wp_mono
                  (complete_host_message_confined descriptorId) ?_)
                exact fun _ _ _ => ih _ _
              · exact Machine.wp_pure_quiet hostile_quiet trivial

/-! ## The service loop -/

/-- The test of the status touches only the resource table. -/
theorem vdev_online_confined : hostile.wp Confined vdevOnline (fun _ _ => True) s := by
  refine Machine.wp_perform_quiet hostile_quiet trivial ?_
  rintro _ _ rfl
  refine Machine.wp_perform_quiet hostile_quiet (.inl rfl) ?_
  rintro status _ rfl
  refine Machine.wp_perform_quiet hostile_quiet (.inl rfl) ?_
  intro negotiated _ _
  exact Machine.wp_pure_quiet hostile_quiet trivial

/-- A pending bit is the transport's own memory. -/
theorem queue_notification_confined (vqid : UInt32) :
    hostile.wp Confined (queueNotification vqid) (fun _ _ => True) s := by
  refine Machine.wp_perform_quiet hostile_quiet trivial ?_
  rintro transport _ ⟨rfl, rfl⟩
  exact Machine.wp_perform_last_quiet hostile_quiet trivial fun _ _ _ => trivial

/-- The same under a condition. -/
theorem queue_if_confined {condition : Bool} (vqid : UInt32) :
    hostile.wp Confined (queueIf condition vqid) (fun _ _ => True) s := by
  unfold queueIf
  split
  · exact queue_notification_confined vqid
  · exact Machine.wp_pure_quiet hostile_quiet trivial

/-- So is the choice of the next notification. -/
theorem flush_offsets_confined (offsets : List UInt32) :
    hostile.wp Confined (flushOffsets offsets) (fun _ _ => True) s := by
  induction offsets generalizing s with
  | nil => exact Machine.wp_pure_quiet hostile_quiet trivial
  | cons offset rest ih =>
      refine Machine.wp_perform_quiet hostile_quiet trivial ?_
      rintro transport _ ⟨rfl, rfl⟩
      dsimp only
      split
      · exact ih
      · refine Machine.wp_perform_quiet hostile_quiet trivial ?_
        intro taken _ _
        split
        · exact Machine.wp_perform_last_quiet hostile_quiet trivial fun _ _ _ => trivial
        · exact Machine.wp_pure_quiet hostile_quiet trivial

/-- An announcement that was sent is remembered in the transport's own memory. -/
theorem announced_confined {address : UInt32} (mark : Transport → Transport) :
    hostile.wp Confined (do
      let sent ← announce address
      if sent then do
        let transport ← perform .load
        perform (.store (mark transport))
        pure true
      else pure false) (fun _ _ => True) s := by
  refine Machine.wp_bind (Machine.wp_mono (announce_confined address) ?_)
  intro sent after _
  split
  · refine Machine.wp_perform_quiet hostile_quiet trivial ?_
    rintro transport _ ⟨rfl, rfl⟩
    refine Machine.wp_perform_quiet hostile_quiet trivial ?_
    intro _ _ _
    exact Machine.wp_pure_quiet hostile_quiet trivial
  · exact Machine.wp_pure_quiet hostile_quiet trivial

/-- The echo service is announced inside the accepted buffer. -/
theorem announce_echo_confined : hostile.wp Confined announceEcho (fun _ _ => True) s := by
  refine Machine.wp_perform_quiet hostile_quiet trivial ?_
  rintro transport _ ⟨rfl, rfl⟩
  split
  · exact Machine.wp_pure_quiet hostile_quiet trivial
  · exact announced_confined fun transport => { transport with announced := true }

/-- So is the LCD service. -/
theorem announce_lcd_confined (lcd : Bool) :
    hostile.wp Confined (announceLcd lcd) (fun _ _ => True) s := by
  refine Machine.wp_perform_quiet hostile_quiet trivial ?_
  rintro transport _ ⟨rfl, rfl⟩
  split
  · exact announced_confined fun transport => { transport with lcdAnnounced := true }
  · exact Machine.wp_pure_quiet hostile_quiet trivial

/-- The part of `service` behind the test of the status. -/
theorem service_online_confined (lcd : Bool) :
    hostile.wp Confined (serviceOnline lcd) (fun _ _ => True) s := by
  refine Machine.wp_bind (Machine.wp_mono announce_echo_confined ?_)
  intro echoAnnounced _ _
  refine Machine.wp_bind (Machine.wp_mono (announce_lcd_confined lcd) ?_)
  intro lcdAnnounced _ _
  refine Machine.wp_bind (Machine.wp_mono (drain_host_messages_confined lcd _ _ _) ?_)
  intro result _ _
  refine Machine.wp_bind (Machine.wp_mono (queue_if_confined 0) ?_)
  intro _ _ _
  refine Machine.wp_bind (Machine.wp_mono (queue_if_confined 1) ?_)
  intro _ _ _
  exact flush_offsets_confined _

/-- The reset on attach is the transport's own memory. -/
theorem attach_confined (transport : Transport) :
    hostile.wp Confined (attach transport) (fun _ _ => True) s := by
  unfold attach
  split
  · exact Machine.wp_pure_quiet hostile_quiet trivial
  · exact Machine.wp_perform_last_quiet hostile_quiet trivial fun _ _ _ => trivial

/-- One call of `service` is confined, from every state. -/
theorem service_confined (lcd : Bool) : hostile.wp Confined (service lcd) (fun _ _ => True) s := by
  refine Machine.wp_bind (Machine.wp_mono vdev_online_confined ?_)
  intro online _ _
  refine Machine.wp_perform_quiet hostile_quiet trivial ?_
  rintro transport _ ⟨rfl, rfl⟩
  split
  · refine Machine.wp_bind (Machine.wp_mono (attach_confined _) ?_)
    intro _ _ _
    exact service_online_confined lcd
  · exact Machine.wp_perform_last_quiet hostile_quiet trivial fun _ _ _ => trivial

end

/-- Whatever the host puts into shared memory between any two accesses, in every run of any number
of calls of `service` the next operation is confined: bytes are written only into the buffer of
the accepted descriptor of ring 0, bytes are read only out of that of ring 1, all other writes
are in the used areas, and no slice or index is out of range. -/
theorem service_runs_confined (lcd : Bool) (count : Nat) (start s : Observed) (operation : Op)
    (rest : operation.Ret → Firmware Unit)
    (hrun : Relation.ReflTransGen hostile.Step ((service lcd).iterate count, start)
      (.op operation rest, s)) :
    Confined s operation := by
  have hservice : hostile.wp Confined ((service lcd).iterate count) (fun _ _ => True) start :=
    Machine.wp_iterate (Machine.stable_of_quiet hostile_quiet _)
      (fun _ _ => service_confined lcd) trivial count
  exact Machine.wp_guard (Machine.wp_run hservice hrun)

/-- A buffer at the start of the pool. -/
def poolStart : Descriptor :=
  { address := 0x8ff10000, length := 512, flags := 2, next := 0 }

/-- The host is online and offers one buffer: the first byte of the announcement goes into it. -/
theorem announcement_reaches_buffer :
    ∃ (s : Observed) (rest : Unit → Firmware Unit),
      Relation.ReflTransGen hostile.Step
        ((service true).iterate 1, ⟨Transport.new, fun _ => poolStart⟩)
        (.op (.writeU8 bufferBase 53) rest, s) := by
  refine ⟨?_, ?_, ?_⟩
  rotate_left 2
  refine Machine.run_perform () rfl ?_
  refine Machine.run_perform (4 : UInt8) rfl ?_
  refine Machine.run_perform (0 : UInt32) rfl ?_
  refine Machine.run_perform Transport.new ⟨rfl, rfl⟩ ?_
  refine Machine.run_perform () rfl ?_
  refine Machine.run_perform _ ⟨rfl, rfl⟩ ?_
  refine Machine.run_perform () rfl ?_
  refine Machine.run_perform (1 : UInt16) rfl ?_
  refine Machine.run_perform _ ⟨rfl, rfl⟩ ?_
  refine Machine.run_perform (0 : UInt16) rfl ?_
  refine Machine.run_perform poolStart.address rfl ?_
  refine Machine.run_perform poolStart.length rfl ?_
  refine Machine.run_perform poolStart.flags rfl ?_
  refine Machine.run_perform poolStart.next rfl ?_
  exact .refl

/-- That byte is confined. -/
theorem service_runs_confined_announcement :
    ∃ (s : Observed) (rest : Unit → Firmware Unit),
      Relation.ReflTransGen hostile.Step
        ((service true).iterate 1, ⟨Transport.new, fun _ => poolStart⟩)
        (.op (.writeU8 bufferBase 53) rest, s) ∧
      Confined s (.writeU8 bufferBase 53) := by
  obtain ⟨s, rest, hrun⟩ := announcement_reaches_buffer
  exact ⟨s, rest, hrun, service_runs_confined true 1 _ s _ rest hrun⟩

end NanoKvm.Rpmsg
