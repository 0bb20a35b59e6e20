import NanoKvm.Rpmsg.Transport

/-!
# Detaching and attaching again

Linux ends a session by clearing `DRIVER_OK`, resets the rings and sets `DRIVER_OK` for the
next session, at any time relative to the polls of the firmware. The firmware learns of
this only by reading the status byte at the start of `service`, so its cursors are sure
to be reset only when it reads the byte while it is clear.

The machine here is the status byte, a flag that the rings have been reset and not been
touched since, and a ghost flag that the firmware has seen the byte clear since it was
last cleared. Host steps interfere before every operation. Which resets of the rings may
happen is a parameter, so that the property can be proved for hosts that wait for the
firmware and refuted for those that do not.
-/

namespace NanoKvm.Rpmsg

open Exec

/-- `DRIVER_OK` is set in the status byte. -/
def DriverReady (status : UInt8) : Prop := status &&& driverOk ≠ 0

instance (status : UInt8) : Decidable (DriverReady status) :=
  inferInstanceAs (Decidable (_ ≠ _))

/-- The shared status and the transport. -/
structure Link where
  transport : Transport
  status : UInt8
  /-- The firmware has read the status clear since `DRIVER_OK` was last cleared. -/
  aware : Bool
  /-- The rings were reset and the firmware has not touched them since. -/
  fresh : Bool

/-- Before Linux attaches for the first time. The firmware itself wrote the clear status. -/
def Link.initial : Link :=
  { transport := Transport.new, status := 0, aware := true, fresh := false }

/-- The address is in one of the two rings. -/
def inRing (address : Nat) : Bool :=
  decide (vring0Base ≤ address ∧ address < vring0Base + 0x4000) ||
    decide (vring1Base ≤ address ∧ address < vring1Base + 0x4000)

/-- The operation reads or writes a ring. -/
def Op.accessesRing : Op → Bool
  | .readU16 address | .readU32 address | .readU64 address => inRing address
  | .writeU16 address _ | .writeU32 address _ => inRing address
  | _ => false

/-- The operations of the firmware. What it reads from the rings is arbitrary. -/
def Link.Performs (s : Link) : (operation : Op) → operation.Ret → Link → Prop
  | .readU8 address, value, next =>
      if address = vdevStatusAddress then
        value = s.status ∧ next = { s with aware := s.aware || !decide (DriverReady s.status) }
      else next = s
  | .load, transport, next => transport = s.transport ∧ next = s
  | .store transport, _, next => next = { s with transport := transport }
  | operation, _, next => next = { s with fresh := s.fresh && !operation.accessesRing }

/-- The steps of Linux: it writes the status, or resets the rings while `DRIVER_OK` is clear. -/
inductive Link.Host (mayReset : Link → Prop) : Link → Link → Prop
  | writeStatus (s : Link) (status : UInt8) :
      Host mayReset s { s with
        status := status
        aware := s.aware && !decide (DriverReady s.status ∧ ¬ DriverReady status) }
  | resetRings (s : Link) (hclear : ¬ DriverReady s.status) (hreset : mayReset s) :
      Host mayReset s { s with fresh := true }

/-- The firmware with a host that resets the rings when it may. -/
def attaching (mayReset : Link → Prop) : Machine Op Op.Ret Link where
  perform := Link.Performs
  interfere := Link.Host mayReset

/-- The cursors and the announcements of a transport that starts a session. -/
structure Transport.Zeroed (transport : Transport) : Prop where
  rx_available : transport.rxAvailable = 0
  rx_used : transport.rxUsed = 0
  tx_available : transport.txAvailable = 0
  tx_used : transport.txUsed = 0
  announced : transport.announced = false
  lcd_announced : transport.lcdAnnounced = false

/-- The first access to the rings of a session finds the transport reset. -/
def FirstAccessReset (s : Link) (operation : Op) : Prop :=
  operation.accessesRing = true → s.fresh = true → s.transport.Zeroed

/-- A host that resets the rings only after the firmware has seen the status clear. -/
abbrev waiting : Machine Op Op.Ret Link := attaching (fun s => s.aware = true)

/-! ## Assertions

Between two calls the firmware either knows that it is offline or has a transport that
belongs to the rings as they are. Inside a call that found `DRIVER_OK` set, the rings
cannot be reset before the next read of the status. -/

/-- What holds between two calls of `service`. -/
structure Link.Idle (s : Link) : Prop where
  reset : s.fresh = true → s.transport.online = true → s.transport.Zeroed
  offline : s.aware = true → ¬ DriverReady s.status → s.transport.online = false

/-- What holds inside a call that found `DRIVER_OK` set. With `touched`, a ring has been
accessed. -/
structure Link.Serving (touched : Bool) (s : Link) : Prop where
  unaware : ¬ DriverReady s.status → s.aware = false
  reset : s.fresh = true → s.transport.Zeroed
  touched : touched = true → s.fresh = false

/-- What holds after the status was read with `DRIVER_OK` set. -/
structure Link.Polled (s : Link) : Prop where
  idle : s.Idle
  unaware : ¬ DriverReady s.status → s.aware = false

theorem idle_stable : waiting.Stable Link.Idle := by
  intro s after hidle hhost
  cases hhost with
  | writeStatus status =>
      refine ⟨hidle.reset, fun haware hclear => ?_⟩
      have hboth : s.aware = true ∧ ¬ DriverReady s.status := by
        simpa [hclear] using haware
      exact hidle.offline hboth.1 hboth.2
  | resetRings hclear haware =>
      refine ⟨fun _ honline => ?_, hidle.offline⟩
      rw [hidle.offline haware hclear] at honline
      exact absurd honline (by decide)

theorem serving_stable (touched : Bool) : waiting.Stable (Link.Serving touched) := by
  intro s after hserving hhost
  cases hhost with
  | writeStatus status =>
      refine ⟨fun hclear => ?_, hserving.reset, hserving.touched⟩
      by_cases hready : DriverReady s.status
      · simp [hready, hclear]
      · simp [hserving.unaware hready]
  | resetRings hclear haware =>
      rw [hserving.unaware hclear] at haware
      exact absurd haware (by decide)

theorem polled_stable : waiting.Stable Link.Polled := by
  intro s after hpolled hhost
  refine ⟨idle_stable s after hpolled.idle hhost, fun hclear => ?_⟩
  cases hhost with
  | writeStatus status =>
      by_cases hready : DriverReady s.status
      · simp [hready, hclear]
      · simp [hpolled.unaware hready]
  | resetRings _ _ => exact hpolled.unaware hclear

/-- The transport is the firmware's own: the host never writes it. -/
theorem transport_stable (mayReset : Link → Prop) (transport : Transport) :
    (attaching mayReset).Stable (fun s => s.transport = transport) := by
  intro s after hsame hhost
  cases hhost with
  | writeStatus status => exact hsame
  | resetRings hclear hreset => exact hsame

theorem Link.Serving.guard {touched : Bool} {s : Link} (h : s.Serving touched)
    (operation : Op) : FirstAccessReset s operation :=
  fun _ hfresh => h.reset hfresh

/-- A call in progress may become idle at any time. -/
theorem Link.Serving.idle {touched : Bool} {s : Link} (h : s.Serving touched) : s.Idle where
  reset hfresh _ := h.reset hfresh
  offline haware hclear := by
    rw [h.unaware hclear] at haware
    exact absurd haware (by decide)

theorem Link.Serving.untouched {touched : Bool} {s : Link} (h : s.Serving touched) :
    s.Serving false :=
  ⟨h.unaware, h.reset, fun hfalse => absurd hfalse (by decide)⟩

theorem tracked_stable (touched : Bool) (transport : Transport) :
    waiting.Stable (fun s => s.Serving touched ∧ s.transport = transport) :=
  fun s after h hhost =>
    ⟨serving_stable touched s after h.1 hhost, transport_stable _ transport s after h.2 hhost⟩

/-! ## The parts of a call -/

section

variable {s : Link} {touched : Bool}

/-- The calls of the machine, with the guard on the first access. -/
abbrev Keeps {α : Type} (program : Firmware α) (post : α → Link → Prop) (s : Link) : Prop :=
  waiting.wp FirstAccessReset program post s

/-- A passive operation keeps the assertion. -/
theorem serving_passive {operation : Op} {result : operation.Ret} {next : Link}
    (h : s.Serving touched) (hpassive : operation.Passive)
    (hnext : s.Performs operation result next) : next.Serving touched := by
  have haccess : ∀ access : Bool, Link.Serving touched { s with fresh := s.fresh && !access } := by
    intro access
    refine ⟨h.unaware, fun hfresh => h.reset ?_, fun htouched => ?_⟩
    · exact (Bool.and_eq_true_iff.1 hfresh).1
    · simp [h.touched htouched]
  cases operation with
  | readU8 address =>
      have hother : address ≠ vdevStatusAddress := hpassive
      have hsame : next = s := by
        simpa [Link.Performs, hother] using hnext
      rw [hsame]
      exact h
  | writeU16 | notify | load | store => exact hpassive.elim
  | panic => exact nomatch result
  | _ =>
      rw [show next = _ from hnext]
      exact haccess _

/-- A passive part of a call. -/
theorem passive_keeps {α : Type} {program : Firmware α} (honly : program.Only Op.Passive)
    (h : s.Serving touched) : Keeps program (fun _ => Link.Serving touched) s := by
  refine Machine.wp_only (serving_stable touched) ?_ ?_ honly h
  · exact fun state operation hstate _ => hstate.guard operation
  · exact fun state operation result next hstate hpassive hnext =>
      serving_passive hstate hpassive hnext

/-- A passive operation and what follows. -/
theorem passive_before {α : Type} {operation : Op} {rest : operation.Ret → Firmware α}
    {post : α → Link → Prop} (h : s.Serving touched) (hpassive : operation.Passive)
    (hrest : ∀ result next, next.Serving touched → Keeps (rest result) post next) :
    Keeps (perform operation >>= rest) post s :=
  Machine.wp_bind (Machine.wp_mono (passive_keeps ⟨hpassive, fun _ => trivial⟩ h)
    fun result next hnext => hrest result next hnext)

/-- The transport is read. -/
theorem load_before {α : Type} {rest : Transport → Firmware α} {post : α → Link → Prop}
    (h : s.Serving touched)
    (hrest : ∀ next, next.Serving touched → Keeps (rest next.transport) post next) :
    Keeps (perform .load >>= rest) post s := by
  refine Machine.wp_perform (serving_stable touched) h (fun before hbefore => hbefore.guard _) ?_
  intro before transport next hbefore hnext
  obtain ⟨htransport, hstate⟩ := hnext
  rw [htransport, hstate]
  exact hrest before hbefore

/-- The transport is written: after an access to a ring with anything, otherwise with a transport
that is as much reset as the one before. -/
theorem store_before {α : Type} {transport : Transport} {rest : Unit → Firmware α}
    {post : α → Link → Prop} (h : s.Serving touched)
    (hzeroed : touched = true ∨ (s.transport.Zeroed → transport.Zeroed))
    (hrest : ∀ next, next.Serving touched → Keeps (rest ()) post next) :
    Keeps (perform (.store transport) >>= rest) post s := by
  refine Machine.wp_perform (tracked_stable touched s.transport) ⟨h, rfl⟩
    (fun before hbefore => hbefore.1.guard _) ?_
  intro before _ next hbefore hnext
  obtain ⟨hserving, hsame⟩ := hbefore
  refine hrest next ?_
  rw [show next = { before with transport := transport } from hnext]
  refine ⟨hserving.unaware, fun hfresh => ?_, hserving.touched⟩
  obtain htouched | hkeeps := hzeroed
  · have hstale : before.fresh = false := hserving.touched htouched
    exact absurd (hfresh.symm.trans hstale) (by decide)
  · exact hkeeps (hsame ▸ hserving.reset hfresh)

/-- A value is returned. -/
theorem pure_keeps {α : Type} {value : α} {post : α → Link → Prop}
    (hstable : waiting.Stable (post value)) (h : post value s) : Keeps (pure value) post s :=
  Machine.wp_pure hstable h

/-- A last store. -/
theorem store_keeps {transport : Transport} (h : s.Serving touched)
    (hzeroed : touched = true ∨ (s.transport.Zeroed → transport.Zeroed)) :
    Keeps (perform (.store transport)) (fun _ => Link.Serving touched) s :=
  store_before h hzeroed fun _ hnext => pure_keeps (serving_stable touched) hnext

/-- The used areas are in the rings. -/
theorem used_index_in_ring (ring : Ring) : inRing (usedIndexAddress ring.base) = true := by
  cases ring with
  | rx => decide
  | tx => decide

/-- `publish_used` touches its ring. -/
theorem publish_used_touches (ring : Ring) (cursor descriptorId : UInt16) (length : UInt32)
    (h : s.Serving touched) :
    Keeps (publishUsed ring.base cursor descriptorId length) (fun _ => Link.Serving true) s := by
  refine passive_before h trivial fun _ s h => ?_
  refine passive_before h trivial fun _ s h => ?_
  refine passive_before h trivial fun _ s h => ?_
  refine Machine.wp_perform (serving_stable touched) h (fun before hbefore => hbefore.guard _) ?_
  intro before _ next hbefore hnext
  have hnext : next = { before with
      fresh := before.fresh && !inRing (usedIndexAddress ring.base) } := hnext
  have hserving : next.Serving true := by
    rw [hnext, used_index_in_ring]
    exact ⟨hbefore.unaware, fun hfresh => by simp at hfresh, fun _ => by simp⟩
  exact passive_keeps ⟨trivial, fun _ => trivial⟩ hserving

/-- A used entry is published and the cursors of its ring move. -/
theorem publish_and_advance_touches (ring : Ring) (descriptorId : UInt16) (length : UInt32)
    (cursor : Transport → UInt16) (advance : Transport → Transport) (h : s.Serving touched) :
    Keeps (do
      let transport ← perform .load
      publishUsed ring.base (cursor transport) descriptorId length
      let transport ← perform .load
      perform (.store (advance transport))) (fun _ => Link.Serving true) s := by
  refine load_before h fun s h => ?_
  refine Machine.wp_bind (Machine.wp_mono (publish_used_touches ring _ _ _ h) ?_)
  intro _ s h
  exact load_before h fun s h => store_keeps h (.inl rfl)

/-- `fill` touches ring 0. -/
theorem fill_touches (source destination : UInt32) (payload : List UInt8)
    (descriptorId : UInt16) (buffer : Nat) (h : s.Serving touched) :
    Keeps (fill source destination payload descriptorId buffer)
      (fun _ => Link.Serving true) s := by
  refine Machine.wp_bind (Machine.wp_mono (passive_keeps (write_bytes_passive ..) h) ?_)
  intro _ s h
  refine Machine.wp_bind (Machine.wp_mono (passive_keeps (write_bytes_passive ..) h) ?_)
  intro _ s h
  refine passive_before h trivial fun _ s h => ?_
  exact publish_and_advance_touches .rx _ _ _ _ h

/-- `send` says whether it touched ring 0. -/
theorem send_touches (source destination : UInt32) (payload : List UInt8)
    (h : s.Serving touched) :
    Keeps (send source destination payload) (fun sent => Link.Serving sent) s := by
  unfold send
  split
  · exact pure_keeps (serving_stable false) h.untouched
  · refine passive_before h trivial fun _ s h => ?_
    refine passive_before h trivial fun available s h => ?_
    refine load_before h fun s h => ?_
    split
    · exact pure_keeps (serving_stable false) h.untouched
    · refine passive_before h trivial fun descriptorId s h => ?_
      split
      · exact pure_keeps (serving_stable false) h.untouched
      · refine Machine.wp_bind (Machine.wp_mono (passive_keeps (descriptor_passive ..) h) ?_)
        intro found s h
        split
        · exact pure_keeps (serving_stable false) h.untouched
        · refine Machine.wp_bind (Machine.wp_mono (fill_touches _ _ _ _ _ h) ?_)
          intro _ s h
          exact pure_keeps (serving_stable true) h

/-- So does `announce`. -/
theorem announce_touches (address : UInt32) (h : s.Serving touched) :
    Keeps (announce address) (fun sent => Link.Serving sent) s := by
  refine Machine.wp_bind (Machine.wp_mono (passive_keeps (announcement_passive _) h) ?_)
  intro _ s h
  exact send_touches _ _ _ h

/-- Returning a descriptor touches ring 1. -/
theorem complete_host_message_touches (descriptorId : UInt16) (h : s.Serving touched) :
    Keeps (completeHostMessage descriptorId) (fun _ => Link.Serving true) s :=
  publish_and_advance_touches .tx descriptorId 0 _ _ h

/-- The answer to a message keeps the assertion. -/
theorem answer_keeps (lcd valid : Bool) (header : RpmsgHeader) {buffer : Nat}
    (hbuffer : bufferBase ≤ buffer) (h : s.Serving false) :
    Keeps (answer lcd valid header buffer) (fun _ => Link.Serving false) s := by
  -- Both services end with a send, whose result only decides what is returned.
  have hsend : ∀ {source destination : UInt32} {payload : List UInt8} {s : Link},
      s.Serving false → Keeps (do
        let sent ← send source destination payload
        pure (if sent then some true else none)) (fun _ => Link.Serving false) s := by
    intro source destination payload s h
    refine Machine.wp_bind (Machine.wp_mono (send_touches _ _ _ h) ?_)
    intro sent s h
    exact pure_keeps (serving_stable false) h.untouched
  have hecho : Keeps (answerEcho valid header buffer) (fun _ => Link.Serving false) s := by
    unfold answerEcho
    split
    · refine Machine.wp_bind (Machine.wp_mono
        (passive_keeps (read_payload_passive hbuffer _) h) ?_)
      intro payload s h
      exact hsend h
    · exact pure_keeps (serving_stable false) h
  have hlcd : ∀ {s : Link}, s.Serving false →
      Keeps (answerLcd lcd valid header buffer) (fun _ => Link.Serving false) s := by
    intro s h
    unfold answerLcd
    split
    · refine Machine.wp_bind (Machine.wp_mono
        (passive_keeps (read_payload_passive hbuffer _) h) ?_)
      intro payload s h
      refine Machine.wp_bind (Machine.wp_mono (passive_keeps (reply_passive payload) h) ?_)
      intro response s h
      exact hsend h
    · exact pure_keeps (serving_stable false) h
  refine Machine.wp_bind (Machine.wp_mono hecho ?_)
  intro echoed s h
  cases echoed with
  | none => exact pure_keeps (serving_stable false) h
  | some echoed =>
      refine Machine.wp_bind (Machine.wp_mono (hlcd h) ?_)
      intro answered s h
      cases answered with
      | none => exact pure_keeps (serving_stable false) h
      | some answered => exact pure_keeps (serving_stable false) h

/-- The loop over the messages from Linux, by induction on its turns. -/
theorem drain_host_messages_keeps (lcd : Bool) (turns : Nat) (sent completed : Bool)
    (h : s.Serving false) :
    Keeps (drainHostMessages lcd turns sent completed) (fun _ => Link.Serving false) s := by
  induction turns generalizing s sent completed with
  | zero => exact pure_keeps (serving_stable false) h
  | succ turns ih =>
      unfold drainHostMessages
      refine passive_before h trivial fun _ s h => ?_
      refine passive_before h trivial fun available s h => ?_
      refine load_before h fun s h => ?_
      split
      · exact pure_keeps (serving_stable false) h
      · refine passive_before h trivial fun descriptorId s h => ?_
        split
        · exact pure_keeps (serving_stable false) h
        · refine Machine.wp_bind (Machine.wp_mono (passive_keeps (descriptor_passive ..) h) ?_)
          intro found s h
          split
          · refine Machine.wp_bind (Machine.wp_mono (complete_host_message_touches _ h) ?_)
            intro _ s h
            exact ih _ _ h.untouched
          · rename_i buffer haccepted
            have hbuffer := (descriptor_buffer_some haccepted).2.2.2.1
            refine passive_before h trivial fun _ s h => ?_
            refine Machine.wp_bind (Machine.wp_mono
              (passive_keeps (read_bytes_passive hbuffer _) h) ?_)
            intro encoded s h
            refine Machine.wp_bind (Machine.wp_mono (answer_keeps _ _ _ hbuffer h) ?_)
            intro answered s h
            split
            · refine Machine.wp_bind (Machine.wp_mono (complete_host_message_touches _ h) ?_)
              intro _ s h
              exact ih _ _ h.untouched
            · exact pure_keeps (serving_stable false) h

/-- An announcement is remembered only after it touched ring 0. -/
theorem announced_keeps (address : UInt32) (mark : Transport → Transport) (h : s.Serving false) :
    Keeps (do
      let sent ← announce address
      if sent then do
        let transport ← perform .load
        perform (.store (mark transport))
        pure true
      else pure false) (fun _ => Link.Serving false) s := by
  refine Machine.wp_bind (Machine.wp_mono (announce_touches address h) ?_)
  intro sent s h
  cases sent with
  | false => exact pure_keeps (serving_stable false) h
  | true =>
      refine load_before h fun s h => ?_
      refine store_before h (.inl rfl) fun s h => ?_
      exact pure_keeps (serving_stable false) h.untouched

theorem announce_echo_keeps (h : s.Serving false) :
    Keeps announceEcho (fun _ => Link.Serving false) s := by
  refine load_before h fun s h => ?_
  split
  · exact pure_keeps (serving_stable false) h
  · exact announced_keeps _ _ h

theorem announce_lcd_keeps (lcd : Bool) (h : s.Serving false) :
    Keeps (announceLcd lcd) (fun _ => Link.Serving false) s := by
  refine load_before h fun s h => ?_
  split
  · exact announced_keeps _ _ h
  · exact pure_keeps (serving_stable false) h

/-- Pending bits are no cursors. -/
theorem queue_if_keeps (condition : Bool) (vqid : UInt32) (h : s.Serving false) :
    Keeps (queueIf condition vqid) (fun _ => Link.Serving false) s := by
  unfold queueIf
  split
  · refine load_before h fun s h => store_keeps h (.inr fun hzeroed => ?_)
    exact ⟨hzeroed.1, hzeroed.2, hzeroed.3, hzeroed.4, hzeroed.5, hzeroed.6⟩
  · exact pure_keeps (serving_stable false) h

/-- Neither is the round robin. -/
theorem flush_offsets_keeps (offsets : List UInt32) (h : s.Serving false) :
    Keeps (flushOffsets offsets) (fun _ => Link.Serving false) s := by
  induction offsets generalizing s with
  | nil => exact pure_keeps (serving_stable false) h
  | cons offset rest ih =>
      refine load_before h fun s h => ?_
      dsimp only
      split
      · exact ih h
      · refine Machine.wp_perform (tracked_stable false s.transport) ⟨h, rfl⟩
          (fun before hbefore => hbefore.1.guard _) ?_
        intro before taken next hbefore hnext
        have hsame : next = before := by
          simpa [Link.Performs, Op.accessesRing, waiting, attaching] using hnext
        obtain ⟨hserving, htransport⟩ := hbefore
        rw [hsame]
        split
        · refine store_keeps hserving (.inr fun hzeroed => ?_)
          rw [htransport] at hzeroed
          exact ⟨hzeroed.1, hzeroed.2, hzeroed.3, hzeroed.4, hzeroed.5, hzeroed.6⟩
        · exact pure_keeps (serving_stable false) hserving

/-- The part of a call behind the test of the status. -/
theorem service_online_keeps (lcd : Bool) (h : s.Serving false) :
    Keeps (serviceOnline lcd) (fun _ => Link.Serving false) s := by
  refine Machine.wp_bind (Machine.wp_mono (announce_echo_keeps h) ?_)
  intro echoAnnounced s h
  refine Machine.wp_bind (Machine.wp_mono (announce_lcd_keeps lcd h) ?_)
  intro lcdAnnounced s h
  refine Machine.wp_bind (Machine.wp_mono (drain_host_messages_keeps lcd _ _ _ h) ?_)
  intro drained s h
  refine Machine.wp_bind (Machine.wp_mono (queue_if_keeps _ 0 h) ?_)
  intro _ s h
  refine Machine.wp_bind (Machine.wp_mono (queue_if_keeps _ 1 h) ?_)
  intro _ s h
  exact flush_offsets_keeps _ h

/-! ## A whole call -/

/-- The test of the status succeeds only after the byte was read with `DRIVER_OK` set. -/
theorem vdev_online_polls (h : s.Idle) :
    Keeps vdevOnline (fun online after => online = true → after.Polled) s := by
  refine Machine.wp_perform idle_stable h (fun _ _ haccess => by cases haccess) ?_
  intro s _ next h hnext
  have hinvalidated : next = s := by
    simpa [waiting, attaching, Link.Performs, Op.accessesRing] using hnext
  rw [hinvalidated]
  refine Machine.wp_perform idle_stable h (fun _ _ haccess => by cases haccess) ?_
  intro s status next h hnext
  have hread : status = s.status ∧
      next = { s with aware := s.aware || !decide (DriverReady s.status) } := by
    simpa [waiting, attaching, Link.Performs] using hnext
  obtain ⟨hstatus, hstate⟩ := hread
  have hpolled : DriverReady status → next.Polled := by
    intro hready
    rw [hstatus] at hready
    have hsame : next = s := by simpa [hready] using hstate
    rw [hsame]
    exact ⟨h, fun hclear => absurd hready hclear⟩
  have hstable : waiting.Stable (fun s => DriverReady status → s.Polled) :=
    fun s after hs hhost hready => polled_stable s after (hs hready) hhost
  have hfeatures : (Op.readU32 vdevFeaturesAddress).accessesRing = false := by decide
  refine Machine.wp_perform hstable hpolled (fun _ _ haccess => ?_) ?_
  · exact absurd (haccess.symm.trans hfeatures) (by decide)
  · intro s negotiated next h hnext
    have hsame : next = s := by
      simpa [waiting, attaching, Link.Performs, hfeatures] using hnext
    rw [hsame]
    refine Machine.wp_pure ?_ ?_
    · intro s after hs hhost honline
      exact polled_stable s after (hs honline) hhost
    · intro honline
      exact h (of_decide_eq_true honline).1

/-- Attaching leaves the transport reset for rings that are fresh. -/
theorem attach_serves (h : s.Polled) :
    Keeps (attach s.transport) (fun _ => Link.Serving false) s := by
  unfold attach
  split
  · rename_i honline
    exact pure_keeps (serving_stable false)
      ⟨h.unaware, fun hfresh => h.idle.reset hfresh honline, fun hfalse => by cases hfalse⟩
  · refine Machine.wp_perform polled_stable h (fun _ _ haccess => by cases haccess) ?_
    intro before _ next hbefore hnext
    have hstored : next = { before with transport := s.transport.resetForAttach } := hnext
    refine pure_keeps (serving_stable false) ?_
    rw [hstored]
    exact ⟨hbefore.unaware, fun _ => ⟨rfl, rfl, rfl, rfl, rfl, rfl⟩, fun hfalse => by cases hfalse⟩

/-- A call of `service` keeps the transport and the rings together. -/
theorem service_keeps (lcd : Bool) (h : s.Idle) :
    Keeps (service lcd) (fun _ => Link.Idle) s := by
  refine Machine.wp_bind (Machine.wp_mono (vdev_online_polls h) ?_)
  intro online s h
  have hstable : waiting.Stable (fun s => online = true → s.Polled) :=
    fun s after hs hhost honline => polled_stable s after (hs honline) hhost
  refine Machine.wp_perform hstable h (fun _ _ haccess => by cases haccess) ?_
  intro s transport next h hnext
  obtain ⟨htransport, hstate⟩ := hnext
  rw [htransport, hstate]
  cases online with
  | true =>
      refine Machine.wp_bind (Machine.wp_mono (attach_serves (h rfl)) ?_)
      intro _ s h
      exact Machine.wp_mono (service_online_keeps lcd h) fun _ _ hserving => hserving.idle
  | false =>
      have hanything : waiting.Stable (fun _ => True) := fun _ _ _ _ => trivial
      refine Machine.wp_perform hanything trivial (fun _ _ haccess => by cases haccess) ?_
      intro before _ next _ hnext
      have hstored : next = { before with transport := { s.transport with online := false } } :=
        hnext
      refine Machine.wp_pure idle_stable ?_
      rw [hstored]
      exact ⟨fun _ honline => (by cases honline), fun _ _ => rfl⟩

end

/-- With a host that resets the rings only after the firmware has seen `DRIVER_OK` clear, in every
run of any number of calls the first access to the rings of each session finds all cursors zero
and nothing announced. -/
theorem first_access_reset (lcd : Bool) (count : Nat) (s : Link) (operation : Op)
    (rest : operation.Ret → Firmware Unit)
    (hrun : Relation.ReflTransGen waiting.Step ((service lcd).iterate count, Link.initial)
      (.op operation rest, s))
    (haccess : operation.accessesRing = true) (hfresh : s.fresh = true) :
    s.transport.Zeroed := by
  have hinitial : Link.initial.Idle :=
    ⟨fun hfalse => (by cases hfalse), fun _ _ => rfl⟩
  have hservice : Keeps ((service lcd).iterate count) (fun _ => Link.Idle) Link.initial :=
    Machine.wp_iterate idle_stable (fun s h => service_keeps lcd h) hinitial count
  exact Machine.wp_guard (Machine.wp_run hservice hrun) haccess hfresh

/-! ## Two sessions -/

/-- Linux writes the status. -/
def Link.writeStatus (s : Link) (status : UInt8) : Link :=
  { s with
    status := status
    aware := s.aware && !decide (DriverReady s.status ∧ ¬ DriverReady status) }

/-- Linux resets the rings. -/
def Link.resetRings (s : Link) : Link := { s with fresh := true }

/-- Linux attaches. -/
def Link.attach (s : Link) : Link := s.resetRings.writeStatus 4

/-- The header of a message of eight bytes to an address that no service has. -/
def strayHeader : List UInt8 := [1, 0, 0, 0, 7, 0, 0, 0, 0, 0, 0, 0, 8, 0, 0, 0]

/-- One answer to every operation: Linux has sent the message, and there is no buffer for the
firmware. -/
def Link.answer (s : Link) : (operation : Op) → Option (operation.Ret × Link)
  | .readU8 address =>
      if address = vdevStatusAddress then
        some (s.status, { s with aware := s.aware || !decide (DriverReady s.status) })
      else some (strayHeader.getD (address - bufferBase) 0, s)
  | .readU16 address =>
      some (if address = availIndexAddress vring1Base then 1 else 0,
        { s with fresh := s.fresh && !inRing address })
  | .readU32 address =>
      some (if inRing address then 24 else 0, { s with fresh := s.fresh && !inRing address })
  | .readU64 address => some (.ofNat bufferBase, { s with fresh := s.fresh && !inRing address })
  | .writeU16 address _ | .writeU32 address _ =>
      some ((), { s with fresh := s.fresh && !inRing address })
  | .writeU8 _ _ | .clean _ _ | .invalidate _ _ => some ((), s)
  | .notify _ => some (true, s)
  | .load => some (s.transport, s)
  | .store transport => some ((), { s with transport := transport })
  | .lcdSnapshot | .panic => none

theorem link_performs_answer (s : Link) (operation : Op) (result : operation.Ret) (next : Link)
    (h : s.answer operation = some (result, next)) : s.Performs operation result next := by
  have hkept : { s with fresh := s.fresh && !false } = s := by simp
  cases operation with
  | readU8 address =>
      by_cases hstatus : address = vdevStatusAddress
      · obtain ⟨rfl, rfl⟩ := Prod.mk.inj (Option.some.inj ((if_pos hstatus).symm.trans h))
        exact (if_pos hstatus).mpr ⟨rfl, rfl⟩
      · obtain ⟨rfl, rfl⟩ := Prod.mk.inj (Option.some.inj ((if_neg hstatus).symm.trans h))
        exact (if_neg hstatus).mpr rfl
  | load =>
      obtain ⟨rfl, rfl⟩ := Prod.mk.inj (Option.some.inj h)
      exact ⟨rfl, rfl⟩
  | readU16 | readU32 | readU64 | writeU16 | writeU32 | store =>
      obtain ⟨rfl, rfl⟩ := Prod.mk.inj (Option.some.inj h)
      rfl
  | writeU8 | clean | invalidate | notify =>
      obtain ⟨rfl, rfl⟩ := Prod.mk.inj (Option.some.inj h)
      exact hkept.symm
  | lcdSnapshot | panic => cases h

/-- The first call, which returns the message, before a number of others. -/
def firstCall (calls : Nat) : Firmware Unit × Link :=
  ((service false).iterate (calls + 1)).drive Link.answer 52 Link.initial.attach

/-- It runs with any host that may reset the rings before the first session. -/
theorem first_call_run {mayReset : Link → Prop} (hreset : mayReset Link.initial) (calls : Nat) :
    Relation.ReflTransGen (attaching mayReset).Step
      ((service false).iterate (calls + 1), Link.initial) (firstCall calls) :=
  Machine.run_interfere (.resetRings _ (by decide) hreset)
    (Machine.run_interfere (.writeStatus _ 4) (Machine.run_drive link_performs_answer 52 _ _))

/-- Linux detaches, and the next call reads the status. -/
def secondCall : Firmware Unit × Link :=
  (firstCall 2).1.drive Link.answer 5 ((firstCall 2).2.writeStatus 0)

/-- Linux attaches again, and the third call comes to its first access to a ring. -/
def thirdCall : Firmware Unit × Link :=
  secondCall.1.drive Link.answer 7 secondCall.2.attach

/-- The second session finds the cursors reset that the first one moved. -/
theorem first_access_reset_reattach :
    (firstCall 2).2.transport.txAvailable = 1 ∧ (firstCall 2).2.transport.txUsed = 1 ∧
    ∃ rest : UInt16 → Firmware Unit,
      Relation.ReflTransGen waiting.Step ((service false).iterate 3, Link.initial)
        (.op (.readU16 (availIndexAddress vring0Base)) rest, thirdCall.2) ∧
      thirdCall.2.fresh = true ∧ thirdCall.2.transport.Zeroed := by
  have hsecond : Relation.ReflTransGen waiting.Step (firstCall 2) secondCall :=
    Machine.run_interfere (.writeStatus _ 0) (Machine.run_drive link_performs_answer 5 _ _)
  have hthird : Relation.ReflTransGen waiting.Step secondCall thirdCall :=
    Machine.run_interfere (.resetRings _ (by decide +kernel) (by decide +kernel))
      (Machine.run_interfere (.writeStatus _ 4) (Machine.run_drive link_performs_answer 7 _ _))
  have hfirst : Relation.ReflTransGen waiting.Step ((service false).iterate 3, Link.initial)
      (firstCall 2) :=
    @first_call_run (fun s => s.aware = true) rfl 2
  have hrun := (hfirst.trans hsecond).trans hthird
  obtain ⟨rest, hrest⟩ := Prog.operation_eq_some.1 (show thirdCall.1.operation =
    some (.readU16 (availIndexAddress vring0Base)) by decide +kernel)
  rw [show thirdCall = (.op _ rest, thirdCall.2) from Prod.ext hrest rfl] at hrun
  have hfresh : thirdCall.2.fresh = true := by decide +kernel
  exact ⟨by decide +kernel, by decide +kernel, rest, hrun, hfresh,
    first_access_reset false 3 thirdCall.2 (.readU16 (availIndexAddress vring0Base)) rest hrun
      (by decide) hfresh⟩

/-! ## A host that does not wait -/

/-- A host that does not wait for the firmware. -/
abbrev hasty : Machine Op Op.Ret Link := attaching (fun _ => True)

/-- Linux detaches and attaches again before the second call, which comes to its first access to a
ring. -/
def hastyCall : Firmware Unit × Link :=
  (firstCall 1).1.drive Link.answer 6 ((firstCall 1).2.writeStatus 0).attach

/-- Linux detaches and attaches again between two polls: the second call finds `DRIVER_OK` set,
keeps the cursors of the first session and reads the new ring with them. -/
theorem hasty_reattach_keeps_cursors :
    ∃ (s : Link) (rest : UInt16 → Firmware Unit),
      Relation.ReflTransGen hasty.Step ((service false).iterate 2, Link.initial)
        (.op (.readU16 (availIndexAddress vring0Base)) rest, s) ∧
      (Op.readU16 (availIndexAddress vring0Base)).accessesRing = true ∧ s.fresh = true ∧
      s.transport.txAvailable = 1 ∧ ¬ s.transport.Zeroed := by
  have hagain : Relation.ReflTransGen hasty.Step (firstCall 1) hastyCall :=
    Machine.run_interfere (.writeStatus _ 0)
      (Machine.run_interfere (.resetRings _ (by decide +kernel) trivial)
        (Machine.run_interfere (.writeStatus _ 4) (Machine.run_drive link_performs_answer 6 _ _)))
  have hfirst : Relation.ReflTransGen hasty.Step ((service false).iterate 2, Link.initial)
      (firstCall 1) :=
    @first_call_run (fun _ => True) trivial 1
  have hrun := hfirst.trans hagain
  obtain ⟨rest, hrest⟩ := Prog.operation_eq_some.1 (show hastyCall.1.operation =
    some (.readU16 (availIndexAddress vring0Base)) by decide +kernel)
  rw [show hastyCall = (.op _ rest, hastyCall.2) from Prod.ext hrest rfl] at hrun
  have hcursor : hastyCall.2.transport.txAvailable = 1 := by decide +kernel
  refine ⟨hastyCall.2, rest, hrun, by decide, by decide +kernel, hcursor, fun hzeroed => ?_⟩
  exact absurd (hzeroed.tx_available.symm.trans hcursor) (by decide)

end NanoKvm.Rpmsg
