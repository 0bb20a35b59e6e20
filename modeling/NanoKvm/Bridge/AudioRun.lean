import NanoKvm.Bridge.AudioRing
import NanoKvm.Exec.Reachability
import NanoKvm.Rtp.Reassembly

/-!
# Draining the audio ring

The capture thread and the main thread of `sg2002-h264-bridge.c` on one audio source: the capture
thread enqueues at any point between the critical sections of `audio_drain`, and the connection is
made and lost between drains. `audio_accounted` says what holds of the counters, the order of the
packets and the timestamps and markers on the wire.
-/

namespace NanoKvm.Bridge

/-- The audio track as `rtsp_init` leaves it. -/
def audioTrack : Rtp.Track where
  channel := 2
  payloadType := 8
  sequence := 0
  ssrc := 0x53324733
  unmarked := by decide

/-- Where the main thread is in `audio_drain`. -/
inductive DrainPoint where
  | idle
  | draining (budget : Nat)
  | sending (budget : Nat) (packet : AudioPacket)
  | counting (budget : Nat)
  | closing
  | stopped
  deriving DecidableEq

/-- A packet that was sent: the connection it went to, whether that one began a new epoch, the
packet as popped, and the bytes written. -/
structure SentPacket where
  connection : Nat
  begins : Bool
  packet : AudioPacket
  wire : List UInt8

/-- The source, the audio part of the sink, where the main thread is, and what has happened. -/
structure AudioState where
  source : AudioSource
  connected : Bool
  audioEpoch : UInt32
  audioEpochTimestamp : UInt64
  sink : Rtp.Sink
  point : DrainPoint
  enqueued : List AudioPacket
  popped : List AudioPacket
  sent : List SentPacket
  connections : Nat
  begins : Bool

namespace AudioState

/-- `audio_open` and `rtsp_init` -/
def opened : AudioState where
  source := .opened
  connected := false
  audioEpoch := 0
  audioEpochTimestamp := 0
  sink := ⟨audioTrack, []⟩
  point := .idle
  enqueued := []
  popped := []
  sent := []
  connections := 0
  begins := true

/-- The capture thread has a packet full. -/
def capture (data : Vector UInt8 160) (state : AudioState) : AudioState :=
  { state with
    source := state.source.capture data
    enqueued := state.enqueued ++ [⟨data, state.source.packetSequenceNext⟩] }

/-- `audio_fail` -/
def fail (state : AudioState) : AudioState :=
  { state with source := { state.source with failed := true } }

/-- `rtsp_connect` succeeds. It begins a new epoch unless its number has come round to the one
that was seen last. -/
def connect (now : UInt64) (state : AudioState) : AudioState :=
  { state with
    connected := true
    audioEpochTimestamp := now
    audioEpoch := state.audioEpoch + 1
    connections := state.connections + 1
    begins := decide (state.audioEpoch + 1 ≠ state.source.seenEpoch) }

/-- Where `audio_drain` returns to. -/
def returned (state : AudioState) : DrainPoint :=
  if state.source.failed then .stopped else .idle

/-- The connection is closed, and what is in the ring is discarded. -/
def discard (firstPacket : UInt64) (state : AudioState) : AudioState :=
  { state with
    connected := false
    source := state.source.discardDisconnected firstPacket
    point := state.returned }

/-- One turn of the loop of `audio_drain` up to its packet. -/
def pop (budget : Nat) (state : AudioState) : AudioState :=
  match state.source.pop with
  | (none, source) => { state with source, point := state.returned }
  | (some packet, source) =>
      { state with source, point := .sending budget packet, popped := state.popped ++ [packet] }

/-- The packet's epoch, timestamp and sending. -/
def send (link : Nat → Bool) (budget : Nat) (packet : AudioPacket) (state : AudioState) :
    AudioState :=
  let source := state.source.resetEpoch state.audioEpoch state.audioEpochTimestamp packet.sequence
  match Rtp.rtspSendRtp link packet.data.toList (source.timestampOf packet).toUInt32
      source.markerNext state.sink with
  | (false, sink) => { state with source, sink, point := .closing }
  | (true, sink) =>
      { state with
        source, sink
        point := .counting budget
        sent := state.sent ++
          [⟨state.connections, state.begins, packet, sink.written.getLastD []⟩] }

/-- The sent packet is counted. -/
def count (budget : Nat) (state : AudioState) : AudioState :=
  { state with source := state.source.countSent, point := .draining (budget + 1) }

end AudioState

/-- One critical section, or what the main thread does between two of them. -/
inductive AudioStep : AudioState → AudioState → Prop
  | capture (state : AudioState) (data : Vector UInt8 160) : AudioStep state (state.capture data)
  | fail (state : AudioState) : AudioStep state state.fail
  | connect {state : AudioState} (now : UInt64) (hidle : state.point = .idle)
      (hclosed : state.connected = false) : AudioStep state (state.connect now)
  | close {state : AudioState} (hidle : state.point = .idle) :
      AudioStep state { state with connected := false }
  | stale {state : AudioState} (hidle : state.point = .idle) (hclosed : state.connected = false) :
      AudioStep state (state.discard 0)
  | drain {state : AudioState} (hidle : state.point = .idle) (hopen : state.connected = true) :
      AudioStep state { state with point := .draining 0 }
  | pop {state : AudioState} {budget : Nat} (hpoint : state.point = .draining budget)
      (hbudget : budget < audioDrainBudget) : AudioStep state (state.pop budget)
  | spent {state : AudioState} {budget : Nat} (hpoint : state.point = .draining budget)
      (hbudget : ¬ budget < audioDrainBudget) : AudioStep state { state with point := .idle }
  | send {state : AudioState} {budget : Nat} {packet : AudioPacket} (link : Nat → Bool)
      (hpoint : state.point = .sending budget packet) :
      AudioStep state (state.send link budget packet)
  | count {state : AudioState} {budget : Nat} (hpoint : state.point = .counting budget) :
      AudioStep state (state.count budget)
  | unsent {state : AudioState} (hpoint : state.point = .closing) :
      AudioStep state (state.discard 1)

/-- The states of a run. -/
def AudioReachable (state : AudioState) : Prop := Relation.ReflTransGen AudioStep .opened state

/-- A popped packet that no counter has yet. -/
def AudioState.inHand (state : AudioState) : UInt64 :=
  match state.point with
  | .sending _ _ | .counting _ | .closing => 1
  | _ => 0

/-- The packets that the main thread has tried to send, in so far as it has. -/
def AudioState.tried (state : AudioState) : List AudioPacket :=
  match state.point with
  | .sending _ _ => state.popped.dropLast
  | _ => state.popped

/-! ## What the steps do -/

section

variable {state : AudioState} {queue : List AudioPacket}

theorem AudioState.tried_popped
    (h : ∀ budget packet, state.point ≠ .sending budget packet) : state.tried = state.popped := by
  unfold AudioState.tried
  split
  · rename_i hpoint
    exact absurd hpoint (h _ _)
  · rfl

theorem AudioState.pop_cases (h : Holds state.source queue) (budget : Nat) :
    (queue = [] ∧ state.pop budget = { state with point := state.returned }) ∨
    ∃ packet rest, queue = packet :: rest ∧ state.pop budget =
      { state with
        source := state.source.pop.2
        point := .sending budget packet
        popped := state.popped ++ [packet] } := by
  unfold AudioState.pop
  cases queue with
  | nil =>
      left
      rw [h.pop_nil]
      exact ⟨rfl, rfl⟩
  | cons packet rest =>
      right
      refine ⟨packet, rest, rfl, ?_⟩
      rw [show state.source.pop = (some packet, state.source.pop.2) from
        Prod.ext h.pop_cons.1 rfl]

/-- The source as it is when a packet is sent. -/
def AudioState.epochSource (packet : AudioPacket) (state : AudioState) : AudioSource :=
  state.source.resetEpoch state.audioEpoch state.audioEpochTimestamp packet.sequence

/-- The packet on the wire. -/
def AudioState.wireOf (packet : AudioPacket) (state : AudioState) : List UInt8 :=
  Rtp.rtpHeader state.sink.track ((state.epochSource packet).timestampOf packet).toUInt32
    (state.epochSource packet).markerNext ++ packet.data.toList

theorem AudioState.send_cases (link : Nat → Bool) (budget : Nat) (packet : AudioPacket)
    (state : AudioState) :
    (∃ sink, state.send link budget packet =
      { state with source := state.epochSource packet, sink, point := .closing }) ∨
    ∃ sink, state.send link budget packet =
      { state with
        source := state.epochSource packet
        sink
        point := .counting budget
        sent := state.sent ++
          [⟨state.connections, state.begins, packet, state.wireOf packet⟩] } := by
  unfold AudioState.send
  dsimp only
  split
  · left
    exact ⟨_, rfl⟩
  · rename_i sink hsent
    right
    have hafter := @Rtp.Build.send_true .pcma _ _ _ _ _ _ hsent
    refine ⟨sink, ?_⟩
    rw [hafter]
    simp [Rtp.Sink.after, AudioState.wireOf, AudioState.epochSource]

theorem AudioSource.reset_epoch_seen {audioEpoch : UInt32} {timestamp sequence : UInt64}
    {source : AudioSource} (h : source.seenEpoch = audioEpoch) :
    source.resetEpoch audioEpoch timestamp sequence = source :=
  if_pos h

theorem AudioSource.reset_epoch_new {audioEpoch : UInt32} {timestamp sequence : UInt64}
    {source : AudioSource} (h : source.seenEpoch ≠ audioEpoch) :
    source.resetEpoch audioEpoch timestamp sequence =
      { source with
        markerNext := true
        seenEpoch := audioEpoch
        nextTimestamp := timestamp
        epochPacketSequence := sequence } :=
  if_neg h

end

/-! ## The order of the packets -/

/-- The packets are those that left the ring and then those in it; they are numbered. -/
structure Ordered (state : AudioState) : Prop where
  split : ∃ gone queue, Holds state.source queue ∧ state.enqueued = gone ++ queue ∧
    state.popped.Sublist gone
  numbered : state.enqueued.map AudioPacket.sequence =
    (List.range state.enqueued.length).map UInt64.ofNat
  next : state.source.packetSequenceNext = .ofNat state.enqueued.length

theorem push_bounded_split (queue : List AudioPacket) (packet : AudioPacket) :
    ∃ lost, queue ++ [packet] = lost ++ pushBounded queue packet := by
  unfold pushBounded
  split
  · refine ⟨queue.take 1, ?_⟩
    rw [← List.append_assoc, ← List.drop_one, List.take_append_drop]
  · exact ⟨[], rfl⟩

namespace Ordered

variable {state : AudioState}

theorem capture (h : Ordered state) (data : Vector UInt8 160) : Ordered (state.capture data) where
  split := by
    obtain ⟨gone, queue, hholds, hsplit, hpopped⟩ := h.split
    obtain ⟨lost, hlost⟩ := push_bounded_split queue ⟨data, state.source.packetSequenceNext⟩
    refine ⟨gone ++ lost, _, (hholds.enqueue _).congr rfl rfl rfl rfl, ?_,
      hpopped.trans (List.sublist_append_left _ _)⟩
    show state.enqueued ++ _ = _
    rw [hsplit, List.append_assoc, hlost, List.append_assoc]
  numbered := by
    show (state.enqueued ++ [_]).map AudioPacket.sequence =
      (List.range (state.enqueued ++ [_]).length).map UInt64.ofNat
    rw [List.map_append, h.numbered, List.length_append, List.length_singleton, List.range_succ,
      List.map_append, List.map_singleton, List.map_singleton, h.next]
  next := by
    show state.source.packetSequenceNext + 1 = .ofNat (state.enqueued ++ [_]).length
    rw [h.next, List.length_append, UInt64.ofNat_add]
    rfl

theorem discard (h : Ordered state) (firstPacket : UInt64) :
    Ordered (state.discard firstPacket) where
  split := by
    obtain ⟨gone, queue, hholds, hsplit, hpopped⟩ := h.split
    refine ⟨state.enqueued, [], hholds.discard firstPacket, (List.append_nil _).symm, ?_⟩
    rw [hsplit]
    exact hpopped.trans (List.sublist_append_left _ _)
  numbered := h.numbered
  next := h.next

theorem pop (h : Ordered state) (budget : Nat) : Ordered (state.pop budget) := by
  obtain ⟨gone, queue, hholds, hsplit, hpopped⟩ := h.split
  obtain ⟨hnil, heq⟩ | ⟨packet, rest, rfl, heq⟩ := AudioState.pop_cases hholds budget
  · rw [heq]
    exact ⟨⟨gone, queue, hholds, hsplit, hpopped⟩, h.numbered, h.next⟩
  · rw [heq]
    refine ⟨⟨gone ++ [packet], rest, hholds.pop_cons.2, ?_, hpopped.append_right [packet]⟩,
      h.numbered, ?_⟩
    · rw [hsplit, List.append_assoc]
      rfl
    · show state.source.pop.2.packetSequenceNext = _
      rw [← h.next]
      unfold AudioSource.pop
      split <;> rfl

theorem epoch (h : Ordered state) (packet : AudioPacket) :
    Ordered { state with source := state.epochSource packet } := by
  unfold AudioState.epochSource
  by_cases hseen : state.source.seenEpoch = state.audioEpoch
  · rw [AudioSource.reset_epoch_seen hseen]
    exact h
  · rw [AudioSource.reset_epoch_new hseen]
    obtain ⟨gone, queue, hholds, hrest⟩ := h.split
    exact ⟨⟨gone, queue, hholds.congr rfl rfl rfl rfl, hrest⟩, h.numbered, h.next⟩

theorem step {next : AudioState} (h : Ordered state) (hstep : AudioStep state next) :
    Ordered next := by
  obtain ⟨gone, queue, hholds, hrest⟩ := h.split
  cases hstep with
  | capture data => exact h.capture data
  | fail => exact ⟨⟨gone, queue, hholds.congr rfl rfl rfl rfl, hrest⟩, h.numbered, h.next⟩
  | connect now hidle hclosed => exact ⟨h.split, h.numbered, h.next⟩
  | close hidle => exact ⟨h.split, h.numbered, h.next⟩
  | stale hidle hclosed => exact h.discard 0
  | drain hidle hopen => exact ⟨h.split, h.numbered, h.next⟩
  | pop hpoint hbudget => exact h.pop _
  | spent hpoint hbudget => exact ⟨h.split, h.numbered, h.next⟩
  | send link hpoint =>
      rename_i budget packet
      have hepoch := h.epoch packet
      obtain ⟨sink, heq⟩ | ⟨sink, heq⟩ := AudioState.send_cases link budget packet state
      · rw [heq]
        exact ⟨hepoch.split, hepoch.numbered, hepoch.next⟩
      · rw [heq]
        exact ⟨hepoch.split, hepoch.numbered, hepoch.next⟩
  | count hpoint => exact ⟨⟨gone, queue, hholds.congr rfl rfl rfl rfl, hrest⟩, h.numbered, h.next⟩
  | unsent hpoint => exact h.discard 1

end Ordered

/-! ## The counters -/

/-- Every packet that was enqueued is counted once. -/
structure Counted (state : AudioState) : Prop where
  total : state.source.packetCount = state.source.sentCount + state.source.ringDrops +
    state.source.disconnectDrops + .ofNat state.source.ringCount + state.inHand
  enqueued : state.source.packetCount = .ofNat state.enqueued.length

namespace Counted

variable {state : AudioState}

theorem capture (h : Counted state) (data : Vector UInt8 160) : Counted (state.capture data) where
  total := by
    have htotal := h.total
    have hhand : (state.capture data).inHand = state.inHand := rfl
    rw [hhand]
    unfold AudioState.capture AudioSource.capture AudioSource.enqueue AudioSource.put
      AudioSource.dropOldest
    dsimp only
    split
    · rename_i hfull
      rw [hfull] at htotal
      -- the oldest packet goes from the ring to the dropped ones, and the new one is in
      have hfull' : (UInt64.ofNat audioRingPackets) = 128 := rfl
      have hkept : (UInt64.ofNat (audioRingPackets - 1 + 1)) = 128 := rfl
      rw [hfull, hkept, htotal, hfull']
      grind
    · rw [htotal, UInt64.ofNat_add]
      grind
  enqueued := by
    have hcount : (state.capture data).source.packetCount = state.source.packetCount + 1 := by
      unfold AudioState.capture AudioSource.capture AudioSource.enqueue AudioSource.put
        AudioSource.dropOldest
      dsimp only
      split <;> rfl
    rw [hcount, h.enqueued]
    show _ = UInt64.ofNat (state.enqueued ++ [_]).length
    rw [List.length_append, UInt64.ofNat_add]
    rfl

theorem discard (h : Counted state) {firstPacket : UInt64} (hhand : state.inHand = firstPacket) :
    Counted (state.discard firstPacket) where
  total := by
    have hdone : (state.discard firstPacket).inHand = 0 := by
      unfold AudioState.discard AudioState.returned AudioState.inHand
      dsimp only
      split <;> rename_i heq <;> split at heq <;> simp at heq ⊢
    have htotal := h.total
    rw [hdone]
    show state.source.packetCount = state.source.sentCount + state.source.ringDrops +
      (state.source.disconnectDrops + (.ofNat state.source.ringCount + firstPacket)) +
      .ofNat 0 + 0
    rw [htotal, hhand]
    have hzero : UInt64.ofNat 0 = 0 := rfl
    grind
  enqueued := h.enqueued

theorem pop (h : Counted state) {queue : List AudioPacket} (hholds : Holds state.source queue)
    {budget : Nat} (hpoint : state.point = .draining budget) : Counted (state.pop budget) := by
  have htotal := h.total
  have hhand : state.inHand = 0 := by
    unfold AudioState.inHand
    rw [hpoint]
  obtain ⟨hnil, heq⟩ | ⟨packet, rest, rfl, heq⟩ := AudioState.pop_cases hholds budget
  · rw [heq]
    refine ⟨?_, h.enqueued⟩
    have hdone : ({ state with point := state.returned } : AudioState).inHand = 0 := by
      unfold AudioState.returned AudioState.inHand
      dsimp only
      split <;> rename_i heq <;> split at heq <;> simp at heq ⊢
    rw [hdone, ← hhand]
    exact htotal
  · have hcount : state.source.ringCount = rest.length + 1 := hholds.count
    have hsource : state.source.pop.2 =
        { state.source with
          ringTail := (state.source.ringTail + 1) % audioRingPackets
          ringCount := state.source.ringCount - 1 } := by
      unfold AudioSource.pop
      rw [if_pos (by rw [hcount]; exact Nat.succ_ne_zero _)]
    rw [heq, hsource]
    refine ⟨?_, h.enqueued⟩
    show state.source.packetCount = state.source.sentCount + state.source.ringDrops +
      state.source.disconnectDrops + .ofNat (state.source.ringCount - 1) + 1
    rw [htotal, hhand, hcount, Nat.add_sub_cancel, UInt64.ofNat_add]
    have hone : UInt64.ofNat 1 = 1 := rfl
    grind

theorem epoch (h : Counted state) (packet : AudioPacket) :
    Counted { state with source := state.epochSource packet } := by
  unfold AudioState.epochSource
  by_cases hseen : state.source.seenEpoch = state.audioEpoch
  · rw [AudioSource.reset_epoch_seen hseen]
    exact h
  · rw [AudioSource.reset_epoch_new hseen]
    exact ⟨h.total, h.enqueued⟩

/-- Only the hand changes. -/
theorem point (h : Counted state) {point : DrainPoint}
    (hhand : ({ state with point } : AudioState).inHand = state.inHand) :
    Counted { state with point } where
  total := by
    rw [hhand]
    exact h.total
  enqueued := h.enqueued

theorem step {next : AudioState} (h : Counted state) (hordered : Ordered state)
    (hstep : AudioStep state next) : Counted next := by
  obtain ⟨gone, queue, hholds, hrest⟩ := hordered.split
  cases hstep with
  | capture data => exact h.capture data
  | fail => exact ⟨h.total, h.enqueued⟩
  | connect now hidle hclosed => exact ⟨h.total, h.enqueued⟩
  | close hidle => exact ⟨h.total, h.enqueued⟩
  | stale hidle hclosed =>
      refine h.discard ?_
      unfold AudioState.inHand
      rw [hidle]
  | drain hidle hopen =>
      refine h.point ?_
      unfold AudioState.inHand
      rw [hidle]
  | pop hpoint hbudget => exact h.pop hholds hpoint
  | spent hpoint hbudget =>
      refine h.point ?_
      unfold AudioState.inHand
      rw [hpoint]
  | send link hpoint =>
      rename_i budget packet
      have hepoch := h.epoch packet
      have hhand : state.inHand = 1 := by
        unfold AudioState.inHand
        rw [hpoint]
      have htotal := hepoch.total
      rw [show ({ state with source := state.epochSource packet } : AudioState).inHand = 1 from
        hhand] at htotal
      obtain ⟨sink, heq⟩ | ⟨sink, heq⟩ := AudioState.send_cases link budget packet state
      · rw [heq]
        exact ⟨htotal, hepoch.enqueued⟩
      · rw [heq]
        exact ⟨htotal, hepoch.enqueued⟩
  | count hpoint =>
      have htotal := h.total
      have hhand : state.inHand = 1 := by
        unfold AudioState.inHand
        rw [hpoint]
      refine ⟨?_, h.enqueued⟩
      show state.source.packetCount = state.source.sentCount + 1 + state.source.ringDrops +
        state.source.disconnectDrops + .ofNat state.source.ringCount + 0
      rw [htotal, hhand]
      grind
  | unsent hpoint =>
      refine h.discard ?_
      unfold AudioState.inHand
      rw [hpoint]

end Counted

/-! ## What was sent -/

/-- A packet is sent after it was popped, with its own bytes. -/
structure Delivered (state : AudioState) : Prop where
  order : (state.sent.map SentPacket.packet).Sublist state.tried
  hand : ∀ budget packet, state.point = .sending budget packet → ∃ before,
    state.popped = before ++ [packet]
  payload : ∀ sent ∈ state.sent, Rtp.payloadOf sent.wire = sent.packet.data.toList

namespace Delivered

variable {state : AudioState}

/-- Between sends nothing is in hand. -/
theorem point (h : Delivered state) {point : DrainPoint}
    (hold : ∀ budget packet, state.point ≠ .sending budget packet)
    (hnew : ∀ budget packet, point ≠ .sending budget packet) :
    Delivered { state with point } where
  order := by
    have horder := h.order
    rw [AudioState.tried_popped hold] at horder
    rw [AudioState.tried_popped hnew]
    exact horder
  hand budget packet hpoint := absurd hpoint (hnew budget packet)
  payload := h.payload

theorem returned_not_sending (state : AudioState) (budget : Nat) (packet : AudioPacket) :
    state.returned ≠ .sending budget packet := by
  unfold AudioState.returned
  split <;> simp

theorem pop (h : Delivered state) {queue : List AudioPacket} (hholds : Holds state.source queue)
    {budget : Nat} (hpoint : state.point = .draining budget) : Delivered (state.pop budget) := by
  obtain ⟨hnil, heq⟩ | ⟨packet, rest, rfl, heq⟩ := AudioState.pop_cases hholds budget
  · rw [heq]
    exact h.point (by simp [hpoint]) (returned_not_sending state)
  · rw [heq]
    have horder := h.order
    unfold AudioState.tried at horder
    rw [hpoint] at horder
    refine ⟨?_, ?_, h.payload⟩
    · show (state.sent.map SentPacket.packet).Sublist (state.popped ++ [packet]).dropLast
      rw [List.dropLast_concat]
      exact horder
    · intro budget' packet' heq
      obtain ⟨-, rfl⟩ := DrainPoint.sending.inj heq
      exact ⟨state.popped, rfl⟩

theorem send (h : Delivered state) (link : Nat → Bool) {budget : Nat} {packet : AudioPacket}
    (hpoint : state.point = .sending budget packet) : Delivered (state.send link budget packet) := by
  obtain ⟨before, hpopped⟩ := h.hand budget packet hpoint
  have horder := h.order
  unfold AudioState.tried at horder
  rw [hpoint, hpopped] at horder
  rw [List.dropLast_concat] at horder
  obtain ⟨sink, heq⟩ | ⟨sink, heq⟩ := AudioState.send_cases link budget packet state
  · rw [heq]
    refine ⟨?_, fun _ _ hclosing => (DrainPoint.noConfusion hclosing), h.payload⟩
    show (state.sent.map SentPacket.packet).Sublist state.popped
    rw [hpopped]
    exact horder.trans (List.sublist_append_left _ _)
  · rw [heq]
    refine ⟨?_, fun _ _ hcounting => (DrainPoint.noConfusion hcounting), ?_⟩
    · show ((state.sent ++ [_]).map SentPacket.packet).Sublist state.popped
      rw [hpopped, List.map_append]
      exact horder.append_right _
    · intro sent hsent
      obtain hearlier | hnew := List.mem_append.mp hsent
      · exact h.payload sent hearlier
      · rw [List.mem_singleton.mp hnew]
        rfl

theorem step {next : AudioState} (h : Delivered state) (hordered : Ordered state)
    (hstep : AudioStep state next) : Delivered next := by
  obtain ⟨gone, queue, hholds, hrest⟩ := hordered.split
  cases hstep with
  | capture data => exact ⟨h.order, h.hand, h.payload⟩
  | fail => exact ⟨h.order, h.hand, h.payload⟩
  | connect now hidle hclosed => exact ⟨h.order, h.hand, h.payload⟩
  | close hidle => exact ⟨h.order, h.hand, h.payload⟩
  | stale hidle hclosed =>
      have hdone := h.point (by simp [hidle]) (returned_not_sending state)
      exact ⟨hdone.order, hdone.hand, hdone.payload⟩
  | drain hidle hopen => exact h.point (by simp [hidle]) (by simp)
  | pop hpoint hbudget => exact h.pop hholds hpoint
  | spent hpoint hbudget => exact h.point (by simp [hpoint]) (by simp)
  | send link hpoint => exact h.send link hpoint
  | count hpoint =>
      rename_i budget
      have hdone : Delivered { state with point := .draining (budget + 1) } :=
        h.point (by simp [hpoint]) (by simp)
      exact ⟨hdone.order, hdone.hand, hdone.payload⟩
  | unsent hpoint =>
      have hdone := h.point (by simp [hpoint]) (returned_not_sending state)
      exact ⟨hdone.order, hdone.hand, hdone.payload⟩

end Delivered

/-! ## Epochs -/

/-- Two packets of one connection, in the order sent: their timestamps are as far apart as their
numbers, and the later one has no marker. -/
def Follows (earlier later : SentPacket) : Prop :=
  earlier.connection = later.connection →
    Rtp.timestampIn later.wire - Rtp.timestampIn earlier.wire =
      160 * (later.packet.sequence - earlier.packet.sequence).toUInt32 ∧
    Rtp.markerOf later.wire = false

/-- The source's epoch is the one of the packets sent on the connection, if there are any. -/
structure Epochs (state : AudioState) : Prop where
  connections : ∀ sent ∈ state.sent, sent.connection ≤ state.connections
  current : ∀ sent ∈ state.sent, sent.connection = state.connections →
    state.source.seenEpoch = state.audioEpoch ∧
    Rtp.timestampIn sent.wire = (state.source.timestampOf sent.packet).toUInt32 ∧
    (state.source.markerNext = false ∨ ∃ budget, state.point = .counting budget)
  counting : ∀ budget, state.point = .counting budget →
    ∃ sent ∈ state.sent, sent.connection = state.connections
  fresh : (∀ sent ∈ state.sent, sent.connection ≠ state.connections) → 0 < state.connections →
    state.begins = true → state.source.seenEpoch ≠ state.audioEpoch ∨ state.source.markerNext = true
  live : state.connected = true → 0 < state.connections
  inside : state.point ≠ .idle → state.point ≠ .stopped → 0 < state.connections
  stamped : state.sent.Pairwise Follows
  marked : ∀ before sent, before ++ [sent] <+: state.sent → sent.begins = true →
    (∀ other ∈ before, other.connection ≠ sent.connection) → Rtp.markerOf sent.wire = true

theorem stamp_difference (next first later earlier : UInt64) :
    (next + (later - first) * 160).toUInt32 - (next + (earlier - first) * 160).toUInt32 =
      160 * (later - earlier).toUInt32 := by
  have hsamples : UInt64.toUInt32 160 = 160 := rfl
  simp only [UInt64.toUInt32_add, UInt64.toUInt32_mul, UInt64.toUInt32_sub, hsamples]
  grind

theorem wire_timestamp (packet : AudioPacket) (state : AudioState) :
    Rtp.timestampIn (state.wireOf packet) =
      ((state.epochSource packet).timestampOf packet).toUInt32 :=
  Exec.long_bytes _

theorem wire_marker (packet : AudioPacket) (state : AudioState) :
    Rtp.markerOf (state.wireOf packet) = (state.epochSource packet).markerNext :=
  Rtp.marker_byte _ _ state.sink.track.unmarked

namespace Epochs

variable {state : AudioState}

/-- What the ring and the counters are does not matter. -/
theorem congr (h : Epochs state) {next : AudioState} (hsent : next.sent = state.sent)
    (hconnections : next.connections = state.connections) (hbegins : next.begins = state.begins)
    (hepoch : next.audioEpoch = state.audioEpoch)
    (hseen : next.source.seenEpoch = state.source.seenEpoch)
    (htime : next.source.nextTimestamp = state.source.nextTimestamp)
    (hfirst : next.source.epochPacketSequence = state.source.epochPacketSequence)
    (hmarker : next.source.markerNext = state.source.markerNext)
    (hcounting : ∀ budget, next.point = .counting budget ↔ state.point = .counting budget)
    (hlive : next.connected = true → 0 < state.connections)
    (hinside : next.point ≠ .idle → next.point ≠ .stopped → 0 < state.connections) :
    Epochs next where
  connections := by
    rw [hsent, hconnections]
    exact h.connections
  current := by
    unfold AudioSource.timestampOf
    rw [hsent, hconnections, hseen, hepoch, hmarker, htime, hfirst]
    simp only [hcounting]
    exact h.current
  counting := by
    rw [hsent, hconnections]
    exact fun budget hpoint => h.counting budget ((hcounting budget).mp hpoint)
  fresh := by
    rw [hsent, hconnections, hseen, hepoch, hmarker, hbegins]
    exact h.fresh
  live := by
    rw [hconnections]
    exact hlive
  inside := by
    rw [hconnections]
    exact hinside
  stamped := by
    rw [hsent]
    exact h.stamped
  marked := by
    rw [hsent]
    exact h.marked

theorem connect (h : Epochs state) (hidle : state.point = .idle) (now : UInt64) :
    Epochs (state.connect now) where
  connections sent hsent := Nat.le_succ_of_le (h.connections sent hsent)
  current sent hsent hlast := by
    have hearlier := h.connections sent hsent
    have hlast' : sent.connection = state.connections + 1 := hlast
    omega
  counting budget hpoint := by
    have hpoint' : state.point = .counting budget := hpoint
    rw [hidle] at hpoint'
    cases hpoint'
  fresh hnone hpos hbegins := by
    left
    have hnew : state.audioEpoch + 1 ≠ state.source.seenEpoch := of_decide_eq_true hbegins
    exact hnew.symm
  live _ := Nat.succ_pos _
  inside _ _ := Nat.succ_pos _
  stamped := h.stamped
  marked := h.marked

/-- The first packet of an epoch has the marker set for it, a later one not. -/
theorem marker_next (h : Epochs state) {budget : Nat} {packet : AudioPacket}
    (hpoint : state.point = .sending budget packet) :
    (∀ sent ∈ state.sent, sent.connection = state.connections →
      state.epochSource packet = state.source ∧ state.source.markerNext = false) ∧
    ((∀ sent ∈ state.sent, sent.connection ≠ state.connections) → state.begins = true →
      (state.epochSource packet).markerNext = true) := by
  constructor
  · intro sent hsent hlast
    obtain ⟨hseen, -, hmarker⟩ := h.current sent hsent hlast
    refine ⟨AudioSource.reset_epoch_seen hseen, hmarker.resolve_right ?_⟩
    rintro ⟨budget', hcounting⟩
    rw [hpoint] at hcounting
    cases hcounting
  · intro hnone hbegins
    have hpos : 0 < state.connections := h.inside (by simp [hpoint]) (by simp [hpoint])
    unfold AudioState.epochSource
    by_cases hseen : state.source.seenEpoch = state.audioEpoch
    · rw [AudioSource.reset_epoch_seen hseen]
      exact (h.fresh hnone hpos hbegins).resolve_left (not_not_intro hseen)
    · rw [AudioSource.reset_epoch_new hseen]

theorem epoch_source_seen (packet : AudioPacket) (state : AudioState) :
    (state.epochSource packet).seenEpoch = state.audioEpoch := by
  unfold AudioState.epochSource
  by_cases hseen : state.source.seenEpoch = state.audioEpoch
  · rw [AudioSource.reset_epoch_seen hseen, hseen]
  · rw [AudioSource.reset_epoch_new hseen]

/-- A packet joins those sent. -/
theorem sent (h : Epochs state) {budget : Nat} {packet : AudioPacket}
    (hpoint : state.point = .sending budget packet) (sink : Rtp.Sink) :
    Epochs { state with
      source := state.epochSource packet
      sink
      point := .counting budget
      sent := state.sent ++ [⟨state.connections, state.begins, packet, state.wireOf packet⟩] } where
  connections sent hsent := by
    obtain hearlier | hnew := List.mem_append.mp hsent
    · exact h.connections sent hearlier
    · obtain rfl := List.mem_singleton.mp hnew
      exact Nat.le_refl _
  current sent hsent hlast := by
    refine ⟨epoch_source_seen packet state, ?_, .inr ⟨budget, rfl⟩⟩
    obtain hearlier | hnew := List.mem_append.mp hsent
    · show _ = ((state.epochSource packet).timestampOf sent.packet).toUInt32
      rw [((h.marker_next hpoint).1 sent hearlier hlast).1]
      exact (h.current sent hearlier hlast).2.1
    · rw [List.mem_singleton.mp hnew]
      exact wire_timestamp packet state
  counting _ _ := ⟨_, List.mem_append_right _ List.mem_cons_self, rfl⟩
  fresh hnone _ _ := absurd rfl (hnone _ (List.mem_append_right _ List.mem_cons_self))
  live := h.live
  inside _ _ := h.inside (by simp [hpoint]) (by simp [hpoint])
  stamped := by
    refine List.pairwise_append.mpr ⟨h.stamped, List.pairwise_singleton _ _, ?_⟩
    intro earlier hearlier later hlater heq
    rw [List.mem_singleton.mp hlater] at heq ⊢
    obtain ⟨hsource, hmarker⟩ := (h.marker_next hpoint).1 earlier hearlier heq
    refine ⟨?_, ?_⟩
    · rw [wire_timestamp, (h.current earlier hearlier heq).2.1, hsource]
      exact stamp_difference _ _ _ _
    · rw [wire_marker, hsource]
      exact hmarker
  marked before sent hbefore hbegins hother := by
    obtain heq | hearlier := List.prefix_concat_iff.mp hbefore
    · obtain ⟨hbefore', hsent⟩ := List.append_inj' heq rfl
      rw [List.singleton_inj] at hsent
      subst hbefore' hsent
      rw [wire_marker]
      exact (h.marker_next hpoint).2 hother hbegins
    · exact h.marked before sent hearlier hbegins hother

/-- A packet that could not be sent leaves its epoch begun. -/
theorem unsent (h : Epochs state) {budget : Nat} {packet : AudioPacket}
    (hpoint : state.point = .sending budget packet) (sink : Rtp.Sink) :
    Epochs { state with source := state.epochSource packet, sink, point := .closing } where
  connections := h.connections
  current sent hsent hlast := by
    obtain ⟨hsource, hmarker⟩ := (h.marker_next hpoint).1 sent hsent hlast
    refine ⟨epoch_source_seen packet state, ?_, .inl ?_⟩
    · show _ = ((state.epochSource packet).timestampOf sent.packet).toUInt32
      rw [hsource]
      exact (h.current sent hsent hlast).2.1
    · show (state.epochSource packet).markerNext = false
      rw [hsource]
      exact hmarker
  counting _ hcounting := by cases hcounting
  fresh hnone _ hbegins := .inr ((h.marker_next hpoint).2 hnone hbegins)
  live := h.live
  inside _ _ := h.inside (by simp [hpoint]) (by simp [hpoint])
  stamped := h.stamped
  marked := h.marked

theorem count (h : Epochs state) {budget : Nat} (hpoint : state.point = .counting budget) :
    Epochs (state.count budget) where
  connections := h.connections
  current sent hsent hlast := by
    obtain ⟨hseen, htime, -⟩ := h.current sent hsent hlast
    exact ⟨hseen, htime, .inl rfl⟩
  counting _ hcounting := by cases hcounting
  fresh hnone _ _ := by
    obtain ⟨sent, hsent, hlast⟩ := h.counting budget hpoint
    exact absurd hlast (hnone sent hsent)
  live := h.live
  inside _ _ := h.inside (by simp [hpoint]) (by simp [hpoint])
  stamped := h.stamped
  marked := h.marked

theorem returned_not_counting (state : AudioState) (budget : Nat) :
    state.returned ≠ .counting budget := by
  unfold AudioState.returned
  split <;> simp

theorem returned_outside (state : AudioState) :
    state.returned = .idle ∨ state.returned = .stopped := by
  unfold AudioState.returned
  split
  · exact .inr rfl
  · exact .inl rfl

theorem discard (h : Epochs state) (hpoint : ∀ budget, state.point ≠ .counting budget)
    (firstPacket : UInt64) : Epochs (state.discard firstPacket) := by
  refine h.congr rfl rfl rfl rfl rfl rfl rfl rfl ?_ ?_ ?_
  · exact fun budget => iff_of_false (returned_not_counting state budget) (hpoint budget)
  · exact fun hopen => (Bool.false_ne_true hopen).elim
  · intro hidle hstopped
    exact ((returned_outside state).elim hidle hstopped).elim

theorem pop (h : Epochs state) {queue : List AudioPacket} (hholds : Holds state.source queue)
    {budget : Nat} (hpoint : state.point = .draining budget) : Epochs (state.pop budget) := by
  have hpos : 0 < state.connections := h.inside (by simp [hpoint]) (by simp [hpoint])
  obtain ⟨-, heq⟩ | ⟨packet, rest, -, heq⟩ := AudioState.pop_cases hholds budget
  · rw [heq]
    refine h.congr rfl rfl rfl rfl rfl rfl rfl rfl ?_ h.live fun _ _ => hpos
    exact fun budget' => iff_of_false (returned_not_counting state budget') (by simp [hpoint])
  · rw [heq]
    have hsame : state.source.pop.2.seenEpoch = state.source.seenEpoch ∧
        state.source.pop.2.nextTimestamp = state.source.nextTimestamp ∧
        state.source.pop.2.epochPacketSequence = state.source.epochPacketSequence ∧
        state.source.pop.2.markerNext = state.source.markerNext := by
      unfold AudioSource.pop
      split <;> exact ⟨rfl, rfl, rfl, rfl⟩
    obtain ⟨hseen, htime, hfirst, hmarker⟩ := hsame
    refine h.congr rfl rfl rfl rfl hseen htime hfirst hmarker ?_ h.live fun _ _ => hpos
    exact fun budget' => iff_of_false (by simp) (by simp [hpoint])

theorem step {next : AudioState} (h : Epochs state) (hordered : Ordered state)
    (hstep : AudioStep state next) : Epochs next := by
  obtain ⟨gone, queue, hholds, hrest⟩ := hordered.split
  cases hstep with
  | capture data =>
      have hsame : ∀ source : AudioSource, source.dropOldest.seenEpoch = source.seenEpoch ∧
          source.dropOldest.nextTimestamp = source.nextTimestamp ∧
          source.dropOldest.epochPacketSequence = source.epochPacketSequence ∧
          source.dropOldest.markerNext = source.markerNext := by
        intro source
        unfold AudioSource.dropOldest
        split <;> exact ⟨rfl, rfl, rfl, rfl⟩
      obtain ⟨hseen, htime, hfirst, hmarker⟩ := hsame state.source
      exact h.congr rfl rfl rfl rfl hseen htime hfirst hmarker (fun _ => Iff.rfl) h.live h.inside
  | fail => exact h.congr rfl rfl rfl rfl rfl rfl rfl rfl (fun _ => Iff.rfl) h.live h.inside
  | connect now hidle hclosed => exact h.connect hidle now
  | close hidle =>
      exact h.congr rfl rfl rfl rfl rfl rfl rfl rfl (fun _ => Iff.rfl)
        (fun hopen => (Bool.false_ne_true hopen).elim) h.inside
  | stale hidle hclosed => exact h.discard (by simp [hidle]) 0
  | drain hidle hopen =>
      exact h.congr rfl rfl rfl rfl rfl rfl rfl rfl
        (fun _ => iff_of_false (by simp) (by simp [hidle])) h.live fun _ _ => h.live hopen
  | pop hpoint hbudget => exact h.pop hholds hpoint
  | spent hpoint hbudget =>
      exact h.congr rfl rfl rfl rfl rfl rfl rfl rfl
        (fun _ => iff_of_false (by simp) (by simp [hpoint])) h.live
        fun _ _ => h.inside (by simp [hpoint]) (by simp [hpoint])
  | send link hpoint =>
      rename_i budget packet
      obtain ⟨sink, heq⟩ | ⟨sink, heq⟩ := AudioState.send_cases link budget packet state
      · rw [heq]
        exact h.unsent hpoint sink
      · rw [heq]
        exact h.sent hpoint sink
  | count hpoint => exact h.count hpoint
  | unsent hpoint => exact h.discard (by simp [hpoint]) 1

end Epochs

/-- The number of the epoch counts the connections, up to its width; before it comes round every
connection begins a new epoch. -/
structure EpochNumbers (state : AudioState) : Prop where
  epoch : state.audioEpoch = .ofNat state.connections
  seen : ∃ connection ≤ state.connections, state.source.seenEpoch = .ofNat connection
  begun : state.connections < 2 ^ 32 →
    (0 < state.connections → state.begins = true) ∧ ∀ sent ∈ state.sent, sent.begins = true

namespace EpochNumbers

variable {state : AudioState}

theorem connect (h : EpochNumbers state) (now : UInt64) : EpochNumbers (state.connect now) where
  epoch := by
    show state.audioEpoch + 1 = .ofNat (state.connections + 1)
    rw [h.epoch, UInt32.ofNat_add]
    rfl
  seen := by
    obtain ⟨connection, hle, hseen⟩ := h.seen
    exact ⟨connection, Nat.le_succ_of_le hle, hseen⟩
  begun hwidth := by
    have hwidth' : state.connections + 1 < 2 ^ 32 := hwidth
    refine ⟨fun _ => ?_, (h.begun (by omega)).2⟩
    obtain ⟨connection, hle, hseen⟩ := h.seen
    refine decide_eq_true ?_
    rw [h.epoch, hseen]
    intro heq
    have heq' := congrArg UInt32.toNat heq
    rw [UInt32.toNat_add, UInt32.toNat_ofNat', UInt32.toNat_ofNat'] at heq'
    have hone : UInt32.toNat 1 = 1 := rfl
    rw [hone] at heq'
    omega

theorem send (h : EpochNumbers state) (hepochs : Epochs state) (link : Nat → Bool) {budget : Nat}
    {packet : AudioPacket} (hpoint : state.point = .sending budget packet) :
    EpochNumbers (state.send link budget packet) := by
  have hpos : 0 < state.connections := hepochs.inside (by simp [hpoint]) (by simp [hpoint])
  have hseen : ∃ connection ≤ state.connections,
      (state.epochSource packet).seenEpoch = .ofNat connection :=
    ⟨state.connections, Nat.le_refl _, (Epochs.epoch_source_seen packet state).trans h.epoch⟩
  obtain ⟨sink, heq⟩ | ⟨sink, heq⟩ := AudioState.send_cases link budget packet state
  · rw [heq]
    exact ⟨h.epoch, hseen, h.begun⟩
  · rw [heq]
    refine ⟨h.epoch, hseen, fun hwidth => ⟨(h.begun hwidth).1, fun sent hsent => ?_⟩⟩
    obtain hearlier | hnew := List.mem_append.mp hsent
    · exact (h.begun hwidth).2 sent hearlier
    · rw [List.mem_singleton.mp hnew]
      exact (h.begun hwidth).1 hpos

theorem step {next : AudioState} (h : EpochNumbers state) (hordered : Ordered state)
    (hepochs : Epochs state) (hstep : AudioStep state next) : EpochNumbers next := by
  obtain ⟨gone, queue, hholds, hrest⟩ := hordered.split
  cases hstep with
  | capture data =>
      refine ⟨h.epoch, ?_, h.begun⟩
      show ∃ connection ≤ state.connections, state.source.dropOldest.seenEpoch = .ofNat connection
      unfold AudioSource.dropOldest
      split <;> exact h.seen
  | fail => exact ⟨h.epoch, h.seen, h.begun⟩
  | connect now hidle hclosed => exact h.connect now
  | close hidle => exact ⟨h.epoch, h.seen, h.begun⟩
  | stale hidle hclosed => exact ⟨h.epoch, h.seen, h.begun⟩
  | drain hidle hopen => exact ⟨h.epoch, h.seen, h.begun⟩
  | pop hpoint hbudget =>
      rename_i budget
      obtain ⟨-, heq⟩ | ⟨packet, rest, -, heq⟩ := AudioState.pop_cases hholds budget
      · rw [heq]
        exact ⟨h.epoch, h.seen, h.begun⟩
      · rw [heq]
        refine ⟨h.epoch, ?_, h.begun⟩
        show ∃ connection ≤ state.connections, state.source.pop.2.seenEpoch = .ofNat connection
        unfold AudioSource.pop
        split <;> exact h.seen
  | spent hpoint hbudget => exact ⟨h.epoch, h.seen, h.begun⟩
  | send link hpoint => exact h.send hepochs link hpoint
  | count hpoint => exact ⟨h.epoch, h.seen, h.begun⟩
  | unsent hpoint => exact ⟨h.epoch, h.seen, h.begun⟩

end EpochNumbers

/-! ## Runs -/

/-- What holds between two steps: the order of the packets, the counters, what was sent, and the
epochs. -/
structure AudioInvariant (state : AudioState) : Prop where
  ordered : Ordered state
  counted : Counted state
  delivered : Delivered state
  epochs : Epochs state
  numbers : EpochNumbers state

theorem AudioInvariant.opened : AudioInvariant .opened where
  ordered := ⟨⟨[], [], holds_opened, rfl, List.Sublist.refl _⟩, rfl, rfl⟩
  counted := ⟨by decide, by decide⟩
  delivered := ⟨List.Sublist.refl _, fun _ _ h => (DrainPoint.noConfusion h), by simp [AudioState.opened]⟩
  epochs := by
    refine ⟨by simp [AudioState.opened], by simp [AudioState.opened], ?_, ?_, ?_, ?_,
      List.Pairwise.nil, ?_⟩
    · exact fun _ h => (DrainPoint.noConfusion h)
    · exact fun _ h => (Nat.lt_irrefl 0 h).elim
    · exact fun h => (Bool.false_ne_true h).elim
    · exact fun h => (h rfl).elim
    · intro before sent hbefore
      have hlength := hbefore.length_le
      simp [AudioState.opened] at hlength
  numbers := ⟨rfl, ⟨0, Nat.le_refl _, rfl⟩, fun _ => ⟨fun h => (Nat.lt_irrefl 0 h).elim, by
    simp [AudioState.opened]⟩⟩

theorem audio_invariant_preserved : Exec.Preserved AudioStep AudioInvariant := by
  intro state next h hstep
  exact ⟨h.ordered.step hstep, h.counted.step h.ordered hstep, h.delivered.step h.ordered hstep,
    h.epochs.step h.ordered hstep, h.numbers.step h.ordered h.epochs hstep⟩

theorem AudioReachable.invariant {state : AudioState} (h : AudioReachable state) :
    AudioInvariant state :=
  audio_invariant_preserved.reachable .opened h

/-- What is asked of the ring, the counters and the packets on the wire. -/
structure Accounted (state : AudioState) : Prop where
  bounded : state.source.ringCount ≤ audioRingPackets
  between : state.source.ringHead =
    (state.source.ringTail + state.source.ringCount) % audioRingPackets
  ordered : ∃ gone, state.enqueued = gone ++ state.source.queue ∧ state.popped.Sublist gone
  oldest : ∀ packet, (state.source.enqueue packet).queue = pushBounded state.source.queue packet
  first : state.source.pop.1 = state.source.queue.head? ∧
    state.source.pop.2.queue = state.source.queue.tail
  counted : state.source.packetCount = state.source.sentCount + state.source.ringDrops +
    state.source.disconnectDrops + .ofNat state.source.ringCount + state.inHand
  enqueued : state.source.packetCount = .ofNat state.enqueued.length
  numbered : state.enqueued.map AudioPacket.sequence =
    (List.range state.enqueued.length).map UInt64.ofNat
  delivered : (state.sent.map SentPacket.packet).Sublist state.popped
  payload : ∀ sent ∈ state.sent, Rtp.payloadOf sent.wire = sent.packet.data.toList
  stamped : state.sent.Pairwise Follows
  marked : ∀ before sent, before ++ [sent] <+: state.sent → sent.begins = true →
    (∀ other ∈ before, other.connection ≠ sent.connection) → Rtp.markerOf sent.wire = true
  begun : state.connections < 2 ^ 32 → ∀ sent ∈ state.sent, sent.begins = true

theorem audio_accounted {state : AudioState} (h : AudioReachable state) : Accounted state := by
  obtain ⟨gone, queue, hholds, hsplit, hpopped⟩ := h.invariant.ordered.split
  have hqueue := hholds.queue_eq
  have hinvariant := h.invariant
  exact {
    bounded := hholds.count ▸ hholds.bounded
    between := by
      rw [hholds.head, hholds.count]
    ordered := ⟨gone, hqueue ▸ hsplit, hpopped⟩
    oldest := fun packet => by
      rw [hqueue]
      exact (hholds.enqueue packet).queue_eq
    first := by
      rw [hqueue]
      cases queue with
      | nil =>
          rw [hholds.pop_nil]
          exact ⟨rfl, hqueue⟩
      | cons packet rest => exact ⟨hholds.pop_cons.1, hholds.pop_cons.2.queue_eq⟩
    counted := hinvariant.counted.total
    enqueued := hinvariant.counted.enqueued
    numbered := hinvariant.ordered.numbered
    delivered := by
      refine hinvariant.delivered.order.trans ?_
      unfold AudioState.tried
      split
      · exact List.dropLast_sublist _
      · exact List.Sublist.refl _
    payload := hinvariant.delivered.payload
    stamped := hinvariant.epochs.stamped
    marked := hinvariant.epochs.marked
    begun := fun hwidth => (hinvariant.numbers.begun hwidth).2 }

/-- Three packets are captured while the first connection is up. -/
def captured : AudioState :=
  (((AudioState.opened.connect 1000).capture (.replicate 160 1)).capture (.replicate 160 2)).capture
    (.replicate 160 3)

/-- The first packet is sent and the second one is not, which closes the connection. -/
def interrupted : AudioState :=
  ((((({ captured with point := .draining 0 }.pop 0).send (fun _ => true) 0
    ⟨.replicate 160 1, 0⟩).count 0).pop 1).send (fun _ => false) 1
      ⟨.replicate 160 2, 1⟩).discard 1

/-- The next packet is sent over a second connection. -/
def reconnected : AudioState :=
  (({ (interrupted.capture (.replicate 160 4)).connect 5000 with point := .draining 0 }.pop 0).send
    (fun _ => true) 0 ⟨.replicate 160 4, 3⟩).count 0

/-- Of four packets two are sent, each over its connection, and two are discarded. -/
theorem audio_accounted_reconnected :
    reconnected.enqueued.length = 4 ∧
    (reconnected.sent.map fun sent => (sent.connection, sent.packet.sequence)) = [(1, 0), (2, 3)] ∧
    Accounted reconnected := by
  have hcaptured : AudioReachable captured :=
    ((Relation.ReflTransGen.single (AudioStep.connect 1000 rfl rfl)).tail (.capture _ _)).tail
      (.capture _ _) |>.tail (.capture _ _)
  have hinterrupted : AudioReachable interrupted := by
    refine .tail ?_ (AudioStep.unsent (by decide +kernel))
    refine .tail ?_ (AudioStep.send _ (by decide +kernel))
    refine .tail ?_ (AudioStep.pop (by decide +kernel) (by decide))
    refine .tail ?_ (AudioStep.count (by decide +kernel))
    refine .tail ?_ (AudioStep.send _ (by decide +kernel))
    refine .tail ?_ (AudioStep.pop (by decide +kernel) (by decide))
    exact hcaptured.tail (AudioStep.drain rfl rfl)
  have hreconnected : AudioReachable reconnected := by
    refine .tail ?_ (AudioStep.count (by decide +kernel))
    refine .tail ?_ (AudioStep.send _ (by decide +kernel))
    refine .tail ?_ (AudioStep.pop (by decide +kernel) (by decide))
    refine .tail ?_ (AudioStep.drain (by decide +kernel) (by decide +kernel))
    exact (hinterrupted.tail (.capture _ _)).tail
      (AudioStep.connect 5000 (by decide +kernel) (by decide +kernel))
  exact ⟨by decide +kernel, by decide +kernel, audio_accounted hreconnected⟩

end NanoKvm.Bridge
