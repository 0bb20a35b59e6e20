import NanoKvm.Rpmsg.Transport

/-!
# Notifications of the transport

A monitor counts, for each ring, the used entries published so far and how many of them
had been published at the last doorbell that was taken. Reads return anything and a
doorbell may or may not be taken, so a run of the monitored machine is any run of
`service`.

The pending bits are set from two flags that `drain_host_messages` returns after all its
branches. The relation `Publishes` says that the flags are exact: a flag is set if and
only if the count of its ring grew. From it follow that every entry not yet notified is
covered by a pending bit, and that two quiet calls clear both bits.
-/

namespace NanoKvm.Rpmsg

open Exec

/-- The queue number of a ring. -/
def Ring.vqid : Ring → UInt32
  | .rx => 0
  | .tx => 1

/-- The notification of the ring is pending. -/
def Transport.Pending (transport : Transport) (ring : Ring) : Prop :=
  transport.pendingNotifications &&& queueBit ring.vqid ≠ 0

instance (transport : Transport) (ring : Ring) : Decidable (transport.Pending ring) :=
  inferInstanceAs (Decidable (_ ≠ _))

/-- The transport with what was published and notified so far. -/
structure Monitor where
  transport : Transport
  published : Ring → Nat
  notified : Ring → Nat
  failures : Nat
  detached : Nat

/-- A write to a used index publishes the entry before it. -/
def Monitor.publish (s : Monitor) (address : Nat) : Monitor :=
  { s with published := fun ring =>
      if address = usedIndexAddress ring.base then s.published ring + 1 else s.published ring }

@[simp] theorem Monitor.publish_transport (s : Monitor) (address : Nat) :
    (s.publish address).transport = s.transport := by
  simp only [Monitor.publish]

@[simp] theorem Monitor.publish_notified (s : Monitor) (address : Nat) :
    (s.publish address).notified = s.notified := by
  simp only [Monitor.publish]

@[simp] theorem Monitor.publish_failures (s : Monitor) (address : Nat) :
    (s.publish address).failures = s.failures := by
  simp only [Monitor.publish]

@[simp] theorem Monitor.publish_detached (s : Monitor) (address : Nat) :
    (s.publish address).detached = s.detached := by
  simp only [Monitor.publish]

/-- A doorbell that is taken covers all entries of its ring published before it. -/
def Monitor.ring (s : Monitor) (vqid : UInt32) (taken : Bool) : Monitor :=
  if taken then
    { s with notified := fun ring =>
        if ring.vqid = vqid then s.published ring else s.notified ring }
  else { s with failures := s.failures + 1 }

/-- When the transport goes online or offline, entries of the session before count no more. -/
def Monitor.store (s : Monitor) (transport : Transport) : Monitor :=
  if transport.online = s.transport.online then { s with transport := transport }
  else
    { s with
      transport := transport
      notified := s.published
      detached := s.detached + s.transport.online.toNat }

/-- The operations under the monitor. -/
def Monitor.Performs (s : Monitor) : (operation : Op) → operation.Ret → Monitor → Prop
  | .writeU16 address _, _, next => next = s.publish address
  | .notify vqid, taken, next => next = s.ring vqid taken
  | .load, transport, next => transport = s.transport ∧ next = s
  | .store transport, _, next => next = s.store transport
  | _, _, next => next = s

/-- The monitored machine. -/
def monitored : Machine Op Op.Ret Monitor where
  perform := Monitor.Performs
  interfere _ _ := False

/-- Every entry that no taken doorbell covers has its pending bit. -/
def Monitor.Covered (s : Monitor) : Prop :=
  ∀ ring, s.notified ring < s.published ring → s.transport.Pending ring

/-- A monitor before anything was published. -/
def Monitor.fresh (transport : Transport) : Monitor :=
  { transport := transport, published := fun _ => 0, notified := fun _ => 0, failures := 0,
    detached := 0 }

/-! ## Pending bits -/

/-- Masking distributes over setting bits. -/
theorem or_mask (a b mask : UInt8) : (a ||| b) &&& mask = (a &&& mask) ||| (b &&& mask) := by
  apply UInt8.toBitVec_inj.1
  exact BitVec.and_or_distrib_right

section

variable {before after : Transport} {ring : Ring}

/-- Setting the bit of a ring makes it pending. -/
theorem pending_set_self
    (h : after.pendingNotifications = before.pendingNotifications ||| queueBit ring.vqid) :
    after.Pending ring := by
  have hbit : queueBit ring.vqid &&& queueBit ring.vqid ≠ 0 := by
    cases ring <;> decide
  rw [Transport.Pending, h, or_mask]
  intro hzero
  exact hbit (UInt8.or_eq_zero_iff.1 hzero).2

/-- Setting bits keeps what is pending. -/
theorem pending_set {bits : UInt8}
    (h : after.pendingNotifications = before.pendingNotifications ||| bits)
    (hpending : before.Pending ring) : after.Pending ring := by
  rw [Transport.Pending, h, or_mask]
  intro hzero
  exact hpending (UInt8.or_eq_zero_iff.1 hzero).1

/-- Clearing the bit of a ring clears that bit and no other. -/
theorem pending_clear
    (h : after.pendingNotifications = before.pendingNotifications &&& ~~~queueBit ring.vqid)
    (other : Ring) : after.Pending other ↔ ring ≠ other ∧ before.Pending other := by
  rw [Transport.Pending, h, UInt8.and_assoc, Transport.Pending]
  by_cases hring : ring = other
  · have hmask : ~~~queueBit ring.vqid &&& queueBit other.vqid = 0 := by
      subst hring
      cases ring <;> decide
    rw [hmask, UInt8.and_zero]
    simp [hring]
  · have hmask : ~~~queueBit ring.vqid &&& queueBit other.vqid = queueBit other.vqid := by
      revert hring
      cases ring <;> cases other <;> decide
    simp [hmask, hring]

end

/-- The number of pending notifications. -/
def Transport.pendingCount (transport : Transport) : Nat :=
  (decide (transport.Pending .rx)).toNat + (decide (transport.Pending .tx)).toNat

/-- The number depends only on the bits. -/
theorem pending_count_congr {before after : Transport}
    (h : after.pendingNotifications = before.pendingNotifications) :
    after.pendingCount = before.pendingCount := by
  have hpending : ∀ ring, after.Pending ring ↔ before.Pending ring := by
    intro ring
    rw [Transport.Pending, Transport.Pending, h]
  simp only [Transport.pendingCount, hpending]

/-- No pending notification is left when the number is zero. -/
theorem not_pending_of_count {transport : Transport} (h : transport.pendingCount = 0)
    (ring : Ring) : ¬ transport.Pending ring := by
  unfold Transport.pendingCount at h
  cases ring with
  | rx => simpa using Nat.eq_zero_of_add_eq_zero_right h
  | tx => simpa using Nat.eq_zero_of_add_eq_zero_left h

/-- There are two queues. -/
theorem pending_count_le (transport : Transport) : transport.pendingCount ≤ 2 := by
  unfold Transport.pendingCount
  have hrx := Bool.toNat_le (decide (transport.Pending .rx))
  have htx := Bool.toNat_le (decide (transport.Pending .tx))
  omega

/-- Clearing a pending bit leaves one fewer. -/
theorem pending_count_clear {before after : Transport} {ring : Ring}
    (h : after.pendingNotifications = before.pendingNotifications &&& ~~~queueBit ring.vqid)
    (hpending : before.Pending ring) : after.pendingCount = before.pendingCount - 1 := by
  unfold Transport.pendingCount
  cases ring with
  | rx =>
      simp [pending_clear h, hpending]
  | tx =>
      simp [pending_clear h, hpending]

/-- The two offsets of `flush_notification` reach both rings, whatever the round-robin counter. -/
theorem next_rings (next : UInt32) :
    ∃ first second : Ring, first ≠ second ∧ (next + 0) % 2 = first.vqid ∧
      (next + 1) % 2 = second.vqid := by
  have hparity : (next % 2 = 0 ∧ (next + 1) % 2 = 1) ∨ (next % 2 = 1 ∧ (next + 1) % 2 = 0) := by
    grind
  rw [UInt32.add_zero]
  obtain ⟨hfirst, hsecond⟩ | ⟨hfirst, hsecond⟩ := hparity
  · exact ⟨.rx, .tx, by decide, hfirst, hsecond⟩
  · exact ⟨.tx, .rx, by decide, hfirst, hsecond⟩

/-! ## The flags are exact -/

/-- A counter that grew exactly if the flag is set. -/
def Grew (before after : Nat) (flag : Bool) : Prop :=
  before ≤ after ∧ (before < after ↔ flag = true)

theorem Grew.refl (count : Nat) : Grew count count false := by
  simp [Grew]

theorem Grew.trans {first second third : Nat} {f g : Bool} (hfirst : Grew first second f)
    (hsecond : Grew second third g) : Grew first third (f || g) := by
  obtain ⟨hle, hiff⟩ := hfirst
  obtain ⟨hle', hiff'⟩ := hsecond
  refine ⟨Nat.le_trans hle hle', ?_⟩
  rw [Bool.or_eq_true, ← hiff, ← hiff']
  omega

/-- A part of a call that publishes on ring 0 exactly if `rx` is set and on ring 1 exactly if `tx`
is, and touches no notification. -/
structure Publishes (s after : Monitor) (rx tx : Bool) : Prop where
  grew_rx : Grew (s.published .rx) (after.published .rx) rx
  grew_tx : Grew (s.published .tx) (after.published .tx) tx
  notified : after.notified = s.notified
  failures : after.failures = s.failures
  detached : after.detached = s.detached
  online : after.transport.online = s.transport.online
  pending : after.transport.pendingNotifications = s.transport.pendingNotifications

theorem Publishes.refl (s : Monitor) : Publishes s s false false :=
  ⟨Grew.refl _, Grew.refl _, rfl, rfl, rfl, rfl, rfl⟩

theorem Publishes.trans {s middle after : Monitor} {rx tx rx' tx' : Bool}
    (hfirst : Publishes s middle rx tx) (hsecond : Publishes middle after rx' tx') :
    Publishes s after (rx || rx') (tx || tx') where
  grew_rx := hfirst.grew_rx.trans hsecond.grew_rx
  grew_tx := hfirst.grew_tx.trans hsecond.grew_tx
  notified := hsecond.notified.trans hfirst.notified
  failures := hsecond.failures.trans hfirst.failures
  detached := hsecond.detached.trans hfirst.detached
  online := hsecond.online.trans hfirst.online
  pending := hsecond.pending.trans hfirst.pending

/-- A store that keeps the notification fields. -/
theorem publishes_store (s : Monitor) {transport : Transport}
    (honline : transport.online = s.transport.online)
    (hpending : transport.pendingNotifications = s.transport.pendingNotifications) :
    Publishes s (s.store transport) false false := by
  rw [Monitor.store, if_pos honline]
  exact ⟨Grew.refl _, Grew.refl _, rfl, rfl, rfl, honline, hpending⟩

/-- The used indices of the two rings are apart. -/
theorem used_index_inj (ring other : Ring) :
    usedIndexAddress ring.base = usedIndexAddress other.base ↔ ring = other := by
  constructor
  · intro haddress
    unfold usedIndexAddress at haddress
    cases ring <;> cases other <;>
      first | rfl | (simp only [Ring.base, vring0Base, vring1Base] at haddress; omega)
  · intro hring
    rw [hring]

/-- The write of a used index. -/
theorem publishes_publish (s : Monitor) (ring : Ring) :
    Publishes s (s.publish (usedIndexAddress ring.base)) (ring == .rx) (ring == .tx) := by
  have hgrew : ∀ other, Grew (s.published other)
      ((s.publish (usedIndexAddress ring.base)).published other) (ring == other) := by
    intro other
    simp only [Monitor.publish, used_index_inj]
    by_cases hring : ring = other
    · simp [Grew, hring]
    · simp [Grew, hring]
  exact ⟨hgrew .rx, hgrew .tx, by simp, by simp, by simp, by simp, by simp⟩

section

variable {s : Monitor}

/-- The calls of the monitored machine. -/
abbrev Guarantees {α : Type} (program : Firmware α) (post : α → Monitor → Prop) (s : Monitor) :
    Prop :=
  monitored.wp (fun _ _ => True) program post s

theorem monitored_quiet (state after : Monitor) : ¬ monitored.interfere state after := id

/-- A passive part leaves the monitor alone. -/
theorem passive_guarantees {α : Type} {program : Firmware α} (h : program.Only Op.Passive) :
    Guarantees program (fun _ after => after = s) s := by
  refine Machine.wp_only (Machine.stable_of_quiet monitored_quiet (· = s))
    (fun _ _ _ _ => trivial) ?_ h rfl
  intro state operation result next hstate hpassive hnext
  rw [← hstate]
  cases operation <;> first | exact hnext | exact hpassive.elim

/-- A passive operation leaves the monitor alone. -/
theorem passive_then {α : Type} {operation : Op} {rest : operation.Ret → Firmware α}
    {post : α → Monitor → Prop} (h : operation.Passive)
    (hrest : ∀ result, Guarantees (rest result) post s) :
    Guarantees (perform operation >>= rest) post s := by
  refine Machine.wp_bind (Machine.wp_mono (passive_guarantees ⟨h, fun _ => trivial⟩) ?_)
  intro result after hafter
  rw [hafter]
  exact hrest result

/-- The transport's own memory is read. -/
theorem load_then {α : Type} {rest : Transport → Firmware α} {post : α → Monitor → Prop}
    (hrest : Guarantees (rest s.transport) post s) :
    Guarantees (perform .load >>= rest) post s := by
  refine Machine.wp_perform_quiet monitored_quiet trivial ?_
  intro transport next hnext
  obtain ⟨htransport, hstate⟩ := hnext
  rw [htransport, hstate]
  exact hrest

/-- The transport's own memory is written. -/
theorem store_last {transport : Transport} {post : Unit → Monitor → Prop}
    (hpost : post () (s.store transport)) : Guarantees (perform (.store transport)) post s := by
  refine Machine.wp_perform_last_quiet monitored_quiet trivial ?_
  intro _ next hnext
  rw [show next = s.store transport from hnext]
  exact hpost

/-- A value is returned. -/
theorem pure_last {α : Type} {value : α} {post : α → Monitor → Prop} (h : post value s) :
    Guarantees (pure value) post s :=
  Machine.wp_pure_quiet monitored_quiet h

/-- `publish_used` publishes on its ring. -/
theorem publish_used_publishes (ring : Ring) (cursor descriptorId : UInt16) (length : UInt32) :
    Guarantees (publishUsed ring.base cursor descriptorId length)
      (fun _ after => Publishes s after (ring == .rx) (ring == .tx) ∧
        after.transport = s.transport) s := by
  refine passive_then trivial fun _ => ?_
  refine passive_then trivial fun _ => ?_
  refine passive_then trivial fun _ => ?_
  refine Machine.wp_perform_quiet monitored_quiet trivial ?_
  intro _ next hnext
  rw [show next = s.publish (usedIndexAddress ring.base) from hnext]
  refine Machine.wp_mono (passive_guarantees ⟨trivial, fun _ => trivial⟩) ?_
  intro _ after hafter
  rw [hafter]
  exact ⟨publishes_publish s ring, by simp⟩

/-- A used entry is published and the cursors of its ring move. -/
theorem publish_and_advance (ring : Ring) (descriptorId : UInt16) (length : UInt32)
    (cursor : Transport → UInt16) (advance : Transport → Transport)
    (honline : ∀ transport, (advance transport).online = transport.online)
    (hpending : ∀ transport,
      (advance transport).pendingNotifications = transport.pendingNotifications) :
    Guarantees (do
      let transport ← perform .load
      publishUsed ring.base (cursor transport) descriptorId length
      let transport ← perform .load
      perform (.store (advance transport)))
      (fun _ after => Publishes s after (ring == .rx) (ring == .tx)) s := by
  refine load_then ?_
  refine Machine.wp_bind (Machine.wp_mono (publish_used_publishes ring _ _ _) ?_)
  intro _ after hafter
  refine load_then (store_last ?_)
  have hstored := publishes_store after (honline after.transport) (hpending after.transport)
  simpa using hafter.1.trans hstored

/-- `fill` publishes on ring 0. -/
theorem fill_publishes (source destination : UInt32) (payload : List UInt8)
    (descriptorId : UInt16) (buffer : Nat) :
    Guarantees (fill source destination payload descriptorId buffer)
      (fun _ after => Publishes s after true false) s := by
  refine Machine.wp_bind (Machine.wp_mono (passive_guarantees (write_bytes_passive ..)) ?_)
  intro _ after hafter
  rw [hafter]
  refine Machine.wp_bind (Machine.wp_mono (passive_guarantees (write_bytes_passive ..)) ?_)
  intro _ after hafter
  rw [hafter]
  refine passive_then trivial fun _ => ?_
  exact publish_and_advance .rx _ _ _ _ (fun _ => rfl) fun _ => rfl

/-- `send` says whether it published on ring 0. -/
theorem send_publishes (source destination : UInt32) (payload : List UInt8) :
    Guarantees (send source destination payload)
      (fun sent after => Publishes s after sent false) s := by
  unfold send
  split
  · exact pure_last (Publishes.refl s)
  · refine passive_then trivial fun _ => ?_
    refine passive_then trivial fun _ => ?_
    refine load_then ?_
    split
    · exact pure_last (Publishes.refl s)
    · refine passive_then trivial fun _ => ?_
      split
      · exact pure_last (Publishes.refl s)
      · refine Machine.wp_bind (Machine.wp_mono (passive_guarantees (descriptor_passive ..)) ?_)
        intro found after hafter
        rw [hafter]
        split
        · exact pure_last (Publishes.refl s)
        · refine Machine.wp_bind (Machine.wp_mono (fill_publishes _ _ _ _ _) ?_)
          intro _ after hafter
          exact pure_last hafter

/-- So does `announce`. -/
theorem announce_publishes (address : UInt32) :
    Guarantees (announce address) (fun sent after => Publishes s after sent false) s := by
  refine Machine.wp_bind (Machine.wp_mono (passive_guarantees (announcement_passive _)) ?_)
  intro _ after hafter
  rw [hafter]
  exact send_publishes _ _ _

/-- Returning a descriptor of ring 1 publishes there. -/
theorem complete_host_message_publishes (descriptorId : UInt16) :
    Guarantees (completeHostMessage descriptorId)
      (fun _ after => Publishes s after false true) s :=
  publish_and_advance .tx descriptorId 0 _ _ (fun _ => rfl) fun _ => rfl

/-- A send decides an answer. -/
theorem answer_sent {source destination : UInt32} {payload : List UInt8} :
    Guarantees (do
      let sent ← send source destination payload
      pure (if sent then some true else none))
      (fun result after => Publishes s after (result.getD false) false) s := by
  refine Machine.wp_bind (Machine.wp_mono (send_publishes _ _ _) ?_)
  intro sent after hafter
  cases sent with
  | true => exact pure_last hafter
  | false => exact pure_last hafter

/-- An echo says whether it published. -/
theorem answer_echo_publishes (valid : Bool) (header : RpmsgHeader) {buffer : Nat}
    (hbuffer : bufferBase ≤ buffer) :
    Guarantees (answerEcho valid header buffer)
      (fun result after => Publishes s after (result.getD false) false) s := by
  unfold answerEcho
  split
  · refine Machine.wp_bind (Machine.wp_mono
      (passive_guarantees (read_payload_passive hbuffer _)) ?_)
    intro payload after hafter
    rw [hafter]
    exact answer_sent
  · exact pure_last (Publishes.refl s)

/-- So does the answer to a query of the LCD service. -/
theorem answer_lcd_publishes (lcd valid : Bool) (header : RpmsgHeader) {buffer : Nat}
    (hbuffer : bufferBase ≤ buffer) :
    Guarantees (answerLcd lcd valid header buffer)
      (fun result after => Publishes s after (result.getD false) false) s := by
  unfold answerLcd
  split
  · refine Machine.wp_bind (Machine.wp_mono
      (passive_guarantees (read_payload_passive hbuffer _)) ?_)
    intro payload after hafter
    rw [hafter]
    refine Machine.wp_bind (Machine.wp_mono (passive_guarantees (reply_passive payload)) ?_)
    intro response after hafter
    rw [hafter]
    exact answer_sent
  · exact pure_last (Publishes.refl s)

/-- The first flag of an answer is exact. -/
theorem answer_publishes (lcd valid : Bool) (header : RpmsgHeader) {buffer : Nat}
    (hbuffer : bufferBase ≤ buffer) :
    Guarantees (answer lcd valid header buffer)
      (fun result after => Publishes s after result.1 false) s := by
  refine Machine.wp_bind (Machine.wp_mono (answer_echo_publishes valid header hbuffer) ?_)
  intro echoed middle hmiddle
  cases echoed with
  | none => exact pure_last hmiddle
  | some echoed =>
      refine Machine.wp_bind (Machine.wp_mono (answer_lcd_publishes lcd valid header hbuffer) ?_)
      intro answered after hafter
      have hboth := hmiddle.trans hafter
      cases answered with
      | none =>
          refine pure_last ?_
          simpa using hboth
      | some answered => exact pure_last hboth

/-- The flags that the loop adds to `sent` and `completed` are exact. -/
theorem drain_host_messages_publishes (lcd : Bool) (turns : Nat) (sent completed : Bool) :
    Guarantees (drainHostMessages lcd turns sent completed)
      (fun result after => ∃ rx tx, Publishes s after rx tx ∧
        result = (sent || rx, completed || tx)) s := by
  induction turns generalizing s sent completed with
  | zero => exact pure_last ⟨false, false, Publishes.refl s, by simp⟩
  | succ turns ih =>
      have hnothing : Guarantees (pure (sent, completed))
          (fun result after => ∃ rx tx, Publishes s after rx tx ∧
            result = (sent || rx, completed || tx)) s :=
        pure_last ⟨false, false, Publishes.refl s, by simp⟩
      -- After an answer, returning the descriptor and the rest of the loop.
      have hreturn : ∀ {middle : Monitor} {descriptorId : UInt16} {replied : Bool},
          Publishes s middle replied false →
          Guarantees (do
            completeHostMessage descriptorId
            drainHostMessages lcd turns (sent || replied) true)
            (fun result after => ∃ rx tx, Publishes s after rx tx ∧
              result = (sent || rx, completed || tx)) middle := by
        intro middle descriptorId replied hmiddle
        refine Machine.wp_bind (Machine.wp_mono (complete_host_message_publishes _) ?_)
        intro _ returned hreturned
        refine Machine.wp_mono (ih _ _) ?_
        intro result after hafter
        obtain ⟨rx, tx, hrest, hresult⟩ := hafter
        refine ⟨_, _, (hmiddle.trans hreturned).trans hrest, ?_⟩
        simp [hresult, Bool.or_assoc]
      unfold drainHostMessages
      refine passive_then trivial fun _ => ?_
      refine passive_then trivial fun available => ?_
      refine load_then ?_
      split
      · exact hnothing
      · refine passive_then trivial fun descriptorId => ?_
        split
        · exact hnothing
        · refine Machine.wp_bind (Machine.wp_mono
            (passive_guarantees (descriptor_passive _ _)) ?_)
          intro found after hafter
          rw [hafter]
          split
          · simpa using hreturn (Publishes.refl s)
          · rename_i buffer haccepted
            have hbuffer := (descriptor_buffer_some haccepted).2.2.2.1
            refine passive_then trivial fun _ => ?_
            refine Machine.wp_bind (Machine.wp_mono
              (passive_guarantees (read_bytes_passive hbuffer _)) ?_)
            intro encoded after hafter
            rw [hafter]
            refine Machine.wp_bind (Machine.wp_mono (answer_publishes _ _ _ hbuffer) ?_)
            intro answered middle hmiddle
            split
            · exact hreturn hmiddle
            · exact pure_last ⟨answered.1, false, hmiddle, by simp⟩

/-- An announcement that was sent is remembered. -/
theorem announced_publishes (address : UInt32) (mark : Transport → Transport)
    (honline : ∀ transport, (mark transport).online = transport.online)
    (hpending : ∀ transport,
      (mark transport).pendingNotifications = transport.pendingNotifications) :
    Guarantees (do
      let sent ← announce address
      if sent then do
        let transport ← perform .load
        perform (.store (mark transport))
        pure true
      else pure false) (fun sent after => Publishes s after sent false) s := by
  refine Machine.wp_bind (Machine.wp_mono (announce_publishes address) ?_)
  intro sent middle hmiddle
  cases sent with
  | false => exact pure_last hmiddle
  | true =>
      refine load_then ?_
      refine Machine.wp_bind (store_last (pure_last ?_))
      exact hmiddle.trans (publishes_store middle (honline _) (hpending _))

/-- The announcement of the echo service. -/
theorem announce_echo_publishes :
    Guarantees announceEcho (fun sent after => Publishes s after sent false) s := by
  refine load_then ?_
  split
  · exact pure_last (Publishes.refl s)
  · exact announced_publishes _ _ (fun _ => rfl) fun _ => rfl

/-- The announcement of the LCD service. -/
theorem announce_lcd_publishes (lcd : Bool) :
    Guarantees (announceLcd lcd) (fun sent after => Publishes s after sent false) s := by
  refine load_then ?_
  split
  · exact announced_publishes _ _ (fun _ => rfl) fun _ => rfl
  · exact pure_last (Publishes.refl s)

/-! ## Queueing and flushing -/

/-- The bit of the ring is set if the condition holds. -/
def Monitor.queue (s : Monitor) (ring : Ring) (condition : Bool) : Monitor :=
  if condition then
    { s with transport :=
        { s.transport with
          pendingNotifications := s.transport.pendingNotifications ||| queueBit ring.vqid } }
  else s

/-- What `queueIf` does. -/
theorem queue_if_queues (ring : Ring) (condition : Bool) :
    Guarantees (queueIf condition ring.vqid) (fun _ after => after = s.queue ring condition) s := by
  cases condition with
  | false => exact pure_last rfl
  | true =>
      refine load_then (store_last ?_)
      simp [Monitor.store, Monitor.queue]

/-- Queueing sets bits and changes nothing else. -/
theorem queue_frame (s : Monitor) (ring : Ring) (condition : Bool) :
    (s.queue ring condition).published = s.published ∧
      (s.queue ring condition).notified = s.notified ∧
      (s.queue ring condition).failures = s.failures ∧
      (s.queue ring condition).detached = s.detached ∧
      (s.queue ring condition).transport.online = s.transport.online := by
  cases condition <;> simp [Monitor.queue]

/-- What is pending stays pending, and the ring is pending under the condition. -/
theorem queue_pending {ring other : Ring} {condition : Bool}
    (h : s.transport.Pending other ∨ (condition = true ∧ ring = other)) :
    (s.queue ring condition).transport.Pending other := by
  cases condition with
  | false =>
      have hpending : s.transport.Pending other := by simpa using h
      exact hpending
  | true =>
      obtain hpending | ⟨-, hring⟩ := h
      · exact pending_set rfl hpending
      · subst hring
        exact @pending_set_self s.transport _ _ rfl

/-- Queueing what was published keeps every entry covered. -/
theorem covered_queue {middle : Monitor} {rx tx : Bool} (h : Publishes s middle rx tx)
    (hcovered : s.Covered) : ((middle.queue .rx rx).queue .tx tx).Covered := by
  obtain ⟨hpublished, hnotified, -⟩ := queue_frame (middle.queue .rx rx) .tx tx
  obtain ⟨hpublished', hnotified', -⟩ := queue_frame middle .rx rx
  intro ring hring
  rw [hpublished, hpublished', hnotified, hnotified', h.notified] at hring
  have hkept : s.notified ring < s.published ring → middle.transport.Pending ring := by
    intro hbefore
    have hpending := hcovered ring hbefore
    rw [Transport.Pending] at hpending ⊢
    rwa [h.pending]
  -- Either the entry was there before the call, or the flag of its ring is set.
  cases ring with
  | rx =>
      refine queue_pending (.inl (queue_pending ?_))
      by_cases hgrew : s.published .rx < middle.published .rx
      · exact .inr ⟨h.grew_rx.2.1 hgrew, rfl⟩
      · exact .inl (hkept (by omega))
  | tx =>
      refine queue_pending ?_
      by_cases hgrew : s.published .tx < middle.published .tx
      · exact .inr ⟨h.grew_tx.2.1 hgrew, rfl⟩
      · exact .inl (queue_pending (.inl (hkept (by omega))))

/-- What a flush does. -/
structure Flushed (s after : Monitor) : Prop where
  published : after.published = s.published
  detached : after.detached = s.detached
  online : after.transport.online = s.transport.online
  failures_le : s.failures ≤ after.failures
  covered : s.Covered → after.Covered
  count : after.failures = s.failures →
    after.transport.pendingCount ≤ s.transport.pendingCount - 1

/-- The doorbell of a pending ring. -/
theorem doorbell_flushes {ring : Ring} {vqid next : UInt32} (hvqid : vqid = ring.vqid)
    (hpending : s.transport.Pending ring) :
    Guarantees (do
      let taken ← perform (.notify vqid)
      if taken then
        perform (.store { s.transport with
          pendingNotifications := s.transport.pendingNotifications &&& ~~~queueBit vqid
          nextNotification := next })
      else pure ()) (fun _ after => Flushed s after) s := by
  subst hvqid
  refine Machine.wp_perform_quiet monitored_quiet trivial ?_
  intro taken state hstate
  obtain rfl : state = s.ring ring.vqid taken := hstate
  cases taken with
  | false => exact pure_last ⟨rfl, rfl, rfl, Nat.le_succ _, id, fun h => by simp [Monitor.ring] at h⟩
  | true =>
      refine store_last ?_
      simp only [Monitor.ring, Monitor.store, if_true]
      refine ⟨rfl, rfl, rfl, Nat.le_refl _, ?_, fun _ => ?_⟩
      · intro hcovered other hother
        by_cases hring : ring = other
        · simp [hring] at hother
        · have hvqid : ¬ other.vqid = ring.vqid := by
            revert hring
            cases ring <;> cases other <;> decide
          simp only [hvqid, if_false] at hother
          exact (pending_clear rfl other).2 ⟨hring, hcovered other hother⟩
      · exact Nat.le_of_eq (pending_count_clear rfl hpending)

/-- `flush_notification` rings for one pending ring, if there is one. -/
theorem flush_notification_flushes :
    Guarantees flushNotification (fun _ after => Flushed s after) s := by
  obtain ⟨first, second, hne, hfirst, hsecond⟩ := next_rings s.transport.nextNotification
  refine load_then ?_
  dsimp only
  split
  · rename_i hclear
    refine load_then ?_
    dsimp only
    split
    · rename_i hclear'
      refine pure_last ⟨rfl, rfl, rfl, Nat.le_refl _, id, fun _ => ?_⟩
      rw [hfirst] at hclear
      rw [hsecond] at hclear'
      have hnone : s.transport.pendingCount = 0 := by
        unfold Transport.pendingCount Transport.Pending
        cases first <;> cases second <;> simp_all
      omega
    · rename_i hpending
      rw [hsecond] at hpending
      exact doorbell_flushes hsecond hpending
  · rename_i hpending
    rw [hfirst] at hpending
    exact doorbell_flushes hfirst hpending

/-! ## A whole call -/

/-- What a call of `service` does. -/
structure Served (s after : Monitor) : Prop where
  published_le : ∀ ring, s.published ring ≤ after.published ring
  failures_le : s.failures ≤ after.failures
  detached_le : s.detached ≤ after.detached
  covered : s.Covered → after.Covered
  progress : after.transport.online = true → after.detached = s.detached →
    after.failures = s.failures → after.published = s.published →
    after.transport.pendingCount = 0 ∨
      (s.transport.online = true ∧
        after.transport.pendingCount ≤ s.transport.pendingCount - 1)

/-- Publications, their queueing and a flush make a call. -/
theorem served_of_flushed {middle after : Monitor} {rx tx : Bool}
    (hpublishes : Publishes s middle rx tx)
    (hflushed : Flushed ((middle.queue .rx rx).queue .tx tx) after) : Served s after := by
  obtain ⟨hpublished, -, hfailures, hdetached, honline⟩ := queue_frame (middle.queue .rx rx) .tx tx
  obtain ⟨hpublished', -, hfailures', hdetached', honline'⟩ := queue_frame middle .rx rx
  have hafter : after.published = middle.published :=
    hflushed.published.trans (hpublished.trans hpublished')
  have hqueued : ((middle.queue .rx rx).queue .tx tx).failures = s.failures :=
    hfailures.trans (hfailures'.trans hpublishes.failures)
  refine ⟨?_, hqueued ▸ hflushed.failures_le, ?_, ?_, ?_⟩
  · intro ring
    rw [hafter]
    cases ring with
    | rx => exact hpublishes.grew_rx.1
    | tx => exact hpublishes.grew_tx.1
  · exact Nat.le_of_eq (by rw [hflushed.detached, hdetached, hdetached', hpublishes.detached])
  · exact fun hcovered => hflushed.covered (covered_queue hpublishes hcovered)
  · intro hlast _ hnone hsame
    rw [hafter] at hsame
    -- Nothing was published, so no bit was queued.
    have hrx : rx = false := by
      have hgrew := hpublishes.grew_rx.2
      rw [hsame] at hgrew
      simpa using hgrew
    have htx : tx = false := by
      have hgrew := hpublishes.grew_tx.2
      rw [hsame] at hgrew
      simpa using hgrew
    have hcount := hflushed.count (hnone.trans hqueued.symm)
    rw [hrx, htx] at hcount
    refine .inr ⟨?_, pending_count_congr hpublishes.pending ▸ hcount⟩
    rw [← hlast, hflushed.online, honline, honline', hpublishes.online]

/-- The part of a call behind the test of the status. -/
theorem service_online_serves (lcd : Bool) :
    Guarantees (serviceOnline lcd) (fun _ after => Served s after) s := by
  refine Machine.wp_bind (Machine.wp_mono announce_echo_publishes ?_)
  intro echoAnnounced first hfirst
  refine Machine.wp_bind (Machine.wp_mono (announce_lcd_publishes lcd) ?_)
  intro lcdAnnounced second hsecond
  refine Machine.wp_bind (Machine.wp_mono (drain_host_messages_publishes lcd _ _ _) ?_)
  intro drained third hthird
  obtain ⟨rx, tx, hdrained, hresult⟩ := hthird
  have hpublishes := (hfirst.trans hsecond).trans hdrained
  subst hresult
  refine Machine.wp_bind (Machine.wp_mono (queue_if_queues .rx _) ?_)
  intro _ fourth hfourth
  refine Machine.wp_bind (Machine.wp_mono (queue_if_queues .tx _) ?_)
  intro _ fifth hfifth
  refine Machine.wp_mono flush_notification_flushes ?_
  intro _ after hafter
  rw [hfifth, hfourth] at hafter
  exact served_of_flushed hpublishes (by simpa using hafter)

/-- The test of the status is not the monitor's. -/
theorem vdev_online_guarantees : Guarantees vdevOnline (fun _ after => after = s) s := by
  refine passive_then trivial fun _ => ?_
  refine Machine.wp_perform_quiet monitored_quiet trivial ?_
  intro status next hnext
  obtain rfl : next = s := hnext
  refine passive_then trivial fun negotiated => ?_
  exact pure_last rfl

/-- Going online or offline begins a session in which nothing was published. -/
theorem store_covered {transport : Transport} (h : transport.online ≠ s.transport.online) :
    (s.store transport).Covered := by
  intro ring hring
  simp [Monitor.store, h] at hring

/-- A call of `service`. -/
theorem service_serves (lcd : Bool) :
    Guarantees (service lcd) (fun _ after => Served s after) s := by
  refine Machine.wp_bind (Machine.wp_mono vdev_online_guarantees ?_)
  intro online state hstate
  rw [hstate]
  refine load_then ?_
  cases online with
  | false =>
      refine store_last ?_
      cases honline : s.transport.online with
      | false =>
          have hsame : s.store { s.transport with online := false } = s := by
            rw [Monitor.store, if_pos honline.symm, ← honline]
          rw [hsame]
          exact ⟨fun _ => Nat.le_refl _, Nat.le_refl _, Nat.le_refl _, id,
            fun hlast => by simp [honline] at hlast⟩
      | true =>
          have hcovered := @store_covered s { s.transport with online := false } (by simp [honline])
          refine ⟨?_, ?_, ?_, fun _ => hcovered, ?_⟩ <;> simp [Monitor.store, honline]
  | true =>
      refine Machine.wp_bind ?_
      unfold attach
      cases honline : s.transport.online with
      | true => exact pure_last (service_online_serves lcd)
      | false =>
          refine store_last (Machine.wp_mono (service_online_serves lcd) ?_)
          intro _ after hafter
          have hchanged : (Transport.resetForAttach s.transport).online ≠ s.transport.online := by
            simp [Transport.resetForAttach, honline]
          have hstored : s.store s.transport.resetForAttach =
              { s with transport := s.transport.resetForAttach, notified := s.published } := by
            simp [Monitor.store, honline, Transport.resetForAttach]
          have hcovered := hafter.covered (store_covered hchanged)
          rw [hstored] at hafter
          refine ⟨hafter.published_le, hafter.failures_le, hafter.detached_le, fun _ => hcovered,
            ?_⟩
          intro hlast hdetached hfailures hpublished
          have hreset : (Transport.resetForAttach s.transport).pendingCount = 0 := by
            simp [Transport.pendingCount, Transport.Pending, Transport.resetForAttach,
              Transport.new]
          obtain hzero | ⟨-, hcount⟩ := hafter.progress hlast hdetached hfailures hpublished
          · exact .inl hzero
          · refine .inl ?_
            rw [hreset] at hcount
            omega

end

/-- Notifications are not lost. After any number of calls, with any doorbells taken, a used entry
that no taken doorbell covers has its pending bit; and two calls that publish nothing, lose no
session and whose doorbells are all taken leave no bit pending. -/
theorem notifications_not_lost (lcd : Bool) :
    (∀ (count : Nat) (transport : Transport) (after : Monitor),
      Relation.ReflTransGen monitored.Step
        ((service lcd).iterate count, Monitor.fresh transport) (.pure (), after) →
      ∀ ring, after.notified ring < after.published ring → after.transport.Pending ring) ∧
    (∀ start after : Monitor,
      Relation.ReflTransGen monitored.Step ((service lcd).iterate 2, start) (.pure (), after) →
      after.transport.online = true → after.detached = start.detached →
      after.failures = start.failures → after.published = start.published →
      ∀ ring, ¬ after.transport.Pending ring) := by
  constructor
  · intro count transport after hrun
    have hfresh : (Monitor.fresh transport).Covered := by
      intro ring hring
      simp [Monitor.fresh] at hring
    have hservice : Guarantees ((service lcd).iterate count)
        (fun _ => Monitor.Covered) (Monitor.fresh transport) :=
      Machine.wp_iterate (Machine.stable_of_quiet monitored_quiet _)
        (fun s hcovered => Machine.wp_mono (service_serves lcd) fun _ _ hserved =>
          hserved.covered hcovered) hfresh count
    exact Machine.wp_result (Machine.wp_run hservice hrun)
  · intro start after hrun honline hdetached hfailures hpublished
    have hservice : Guarantees ((service lcd).iterate 2)
        (fun _ after => ∃ middle, Served start middle ∧ Served middle after) start := by
      refine Machine.wp_bind (Machine.wp_mono (service_serves lcd) ?_)
      intro _ middle hmiddle
      refine Machine.wp_bind (Machine.wp_mono (service_serves lcd) ?_)
      intro _ last hlast
      exact pure_last ⟨middle, hmiddle, hlast⟩
    obtain ⟨middle, hfirst, hsecond⟩ := Machine.wp_result (Machine.wp_run hservice hrun)
    -- No counter moved over both calls, so none moved in either.
    have hdetached' : middle.detached = start.detached :=
      Nat.le_antisymm (hdetached ▸ hsecond.detached_le) hfirst.detached_le
    have hfailures' : middle.failures = start.failures :=
      Nat.le_antisymm (hfailures ▸ hsecond.failures_le) hfirst.failures_le
    have hpublished' : middle.published = start.published := by
      funext ring
      exact Nat.le_antisymm (hpublished ▸ hsecond.published_le ring) (hfirst.published_le ring)
    have htwo := pending_count_le start.transport
    have hlast := hsecond.progress honline (hdetached.trans hdetached'.symm)
      (hfailures.trans hfailures'.symm) (hpublished.trans hpublished'.symm)
    refine not_pending_of_count ?_
    obtain hzero | ⟨hmiddle, hcount⟩ := hlast
    · exact hzero
    · have hstart := hfirst.progress hmiddle hdetached' hfailures' hpublished'
      omega

/-- A transport that is online and announced, with both notifications pending. -/
def bothPending : Transport :=
  { Transport.new with online := true, announced := true, pendingNotifications := 3 }

/-- One call that finds one bad descriptor on ring 1 and whose doorbell is not taken. -/
theorem run_refused :
    ∃ after, Relation.ReflTransGen monitored.Step
        ((service false).iterate 1, Monitor.fresh { bothPending with pendingNotifications := 0 })
        (.pure (), after) ∧
      after.notified .tx < after.published .tx := by
  refine ⟨?_, ?_, ?_⟩
  rotate_left
  · refine Machine.run_perform () rfl ?_
    refine Machine.run_perform (4 : UInt8) rfl ?_
    refine Machine.run_perform (0 : UInt32) rfl ?_
    refine Machine.run_perform _ ⟨rfl, rfl⟩ ?_
    refine Machine.run_perform _ ⟨rfl, rfl⟩ ?_
    refine Machine.run_perform _ ⟨rfl, rfl⟩ ?_
    -- One descriptor is available; its length is too short for a header.
    refine Machine.run_perform () rfl ?_
    refine Machine.run_perform (1 : UInt16) rfl ?_
    refine Machine.run_perform _ ⟨rfl, rfl⟩ ?_
    refine Machine.run_perform (0 : UInt16) rfl ?_
    refine Machine.run_perform (0 : UInt64) rfl ?_
    refine Machine.run_perform (0 : UInt32) rfl ?_
    refine Machine.run_perform (0 : UInt16) rfl ?_
    refine Machine.run_perform (0 : UInt16) rfl ?_
    refine Machine.run_perform _ ⟨rfl, rfl⟩ ?_
    refine Machine.run_perform () rfl ?_
    refine Machine.run_perform () rfl ?_
    refine Machine.run_perform () rfl ?_
    refine Machine.run_perform () rfl ?_
    refine Machine.run_perform () rfl ?_
    refine Machine.run_perform _ ⟨rfl, rfl⟩ ?_
    refine Machine.run_perform () rfl ?_
    refine Machine.run_perform () rfl ?_
    refine Machine.run_perform (1 : UInt16) rfl ?_
    refine Machine.run_perform _ ⟨rfl, rfl⟩ ?_
    -- The pending bit is set and the doorbell refused.
    refine Machine.run_perform _ ⟨rfl, rfl⟩ ?_
    refine Machine.run_perform () rfl ?_
    refine Machine.run_perform _ ⟨rfl, rfl⟩ ?_
    refine Machine.run_perform _ ⟨rfl, rfl⟩ ?_
    refine Machine.run_perform false rfl ?_
    exact .refl
  · decide

/-- Two calls that find nothing and whose doorbells are taken. -/
theorem run_two_taken :
    ∃ after, Relation.ReflTransGen monitored.Step
        ((service false).iterate 2, Monitor.fresh bothPending) (.pure (), after) ∧
      after.transport.online = true ∧ after.detached = 0 ∧ after.failures = 0 ∧
      after.published = fun _ => 0 := by
  refine ⟨?_, ?_, ?_⟩
  rotate_left
  · refine Machine.run_perform () rfl ?_
    refine Machine.run_perform (4 : UInt8) rfl ?_
    refine Machine.run_perform (0 : UInt32) rfl ?_
    refine Machine.run_perform _ ⟨rfl, rfl⟩ ?_
    refine Machine.run_perform _ ⟨rfl, rfl⟩ ?_
    refine Machine.run_perform _ ⟨rfl, rfl⟩ ?_
    refine Machine.run_perform () rfl ?_
    refine Machine.run_perform (0 : UInt16) rfl ?_
    refine Machine.run_perform _ ⟨rfl, rfl⟩ ?_
    refine Machine.run_perform _ ⟨rfl, rfl⟩ ?_
    refine Machine.run_perform true rfl ?_
    refine Machine.run_perform () rfl ?_
    -- The second call.
    refine Machine.run_perform () rfl ?_
    refine Machine.run_perform (4 : UInt8) rfl ?_
    refine Machine.run_perform (0 : UInt32) rfl ?_
    refine Machine.run_perform _ ⟨rfl, rfl⟩ ?_
    refine Machine.run_perform _ ⟨rfl, rfl⟩ ?_
    refine Machine.run_perform _ ⟨rfl, rfl⟩ ?_
    refine Machine.run_perform () rfl ?_
    refine Machine.run_perform (0 : UInt16) rfl ?_
    refine Machine.run_perform _ ⟨rfl, rfl⟩ ?_
    refine Machine.run_perform _ ⟨rfl, rfl⟩ ?_
    refine Machine.run_perform true rfl ?_
    refine Machine.run_perform () rfl ?_
    exact .refl
  · exact ⟨rfl, rfl, rfl, rfl⟩

/-- The refused doorbell leaves its bit pending, and the two taken ones leave none. -/
theorem notifications_not_lost_runs :
    (∃ after : Monitor, after.notified .tx < after.published .tx ∧ after.transport.Pending .tx) ∧
      bothPending.Pending .rx ∧ bothPending.Pending .tx ∧
      ∃ after, Relation.ReflTransGen monitored.Step
          ((service false).iterate 2, Monitor.fresh bothPending) (.pure (), after) ∧
        ∀ ring, ¬ after.transport.Pending ring := by
  refine ⟨?_, by decide, by decide, ?_⟩
  · obtain ⟨after, hrun, hunnotified⟩ := run_refused
    exact ⟨after, hunnotified, (notifications_not_lost false).1 1 _ after hrun .tx hunnotified⟩
  · obtain ⟨after, hrun, honline, hdetached, hfailures, hpublished⟩ := run_two_taken
    exact ⟨after, hrun, (notifications_not_lost false).2 _ after hrun honline hdetached hfailures
      hpublished⟩

end NanoKvm.Rpmsg
