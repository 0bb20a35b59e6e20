import NanoKvm.Rtp.Packetizer

/-!
# The audio ring

`struct audio_source` of `sg2002-h264-bridge.c` with the operations that the capture thread and
the main thread make under its lock. `Holds` relates the ring to the queue it stands for: the
packets between tail and head in order. Each operation is one on that queue.
-/

namespace NanoKvm.Bridge

/-- `AUDIO_RING_PACKETS` -/
def audioRingPackets : Nat := 128

/-- `AUDIO_DRAIN_BUDGET` -/
def audioDrainBudget : Nat := 16

/-- `struct audio_packet`: twenty milliseconds of sound and the packet's number. -/
structure AudioPacket where
  data : Vector UInt8 160
  sequence : UInt64
  deriving DecidableEq

/-- `struct audio_source`, as far as packets go. The ring's slots are indexed by number. -/
structure AudioSource where
  ring : Nat → AudioPacket
  ringHead : Nat
  ringTail : Nat
  ringCount : Nat
  ringHighwater : Nat
  markerNext : Bool
  seenEpoch : UInt32
  nextTimestamp : UInt64
  epochPacketSequence : UInt64
  packetSequenceNext : UInt64
  packetCount : UInt64
  sentCount : UInt64
  ringDrops : UInt64
  disconnectDrops : UInt64
  failed : Bool

/-- The source as `audio_open` leaves it: all zero. -/
def AudioSource.opened : AudioSource where
  ring _ := ⟨Vector.replicate 160 0, 0⟩
  ringHead := 0
  ringTail := 0
  ringCount := 0
  ringHighwater := 0
  markerNext := false
  seenEpoch := 0
  nextTimestamp := 0
  epochPacketSequence := 0
  packetSequenceNext := 0
  packetCount := 0
  sentCount := 0
  ringDrops := 0
  disconnectDrops := 0
  failed := false

namespace AudioSource

/-- Make room in a full ring: the oldest packet goes. -/
def dropOldest (source : AudioSource) : AudioSource :=
  if source.ringCount = audioRingPackets then
    { source with
      ringTail := (source.ringTail + 1) % audioRingPackets
      ringCount := source.ringCount - 1
      ringDrops := source.ringDrops + 1 }
  else source

/-- Put a packet at the head. -/
def put (packet : AudioPacket) (source : AudioSource) : AudioSource :=
  { source with
    ring := fun slot => if slot = source.ringHead then packet else source.ring slot
    ringHead := (source.ringHead + 1) % audioRingPackets
    ringCount := source.ringCount + 1
    ringHighwater := max source.ringHighwater (source.ringCount + 1)
    packetCount := source.packetCount + 1 }

/-- `audio_enqueue` -/
def enqueue (packet : AudioPacket) (source : AudioSource) : AudioSource :=
  source.dropOldest.put packet

/-- A full packet of the capture thread: it gets the next number. -/
def capture (data : Vector UInt8 160) (source : AudioSource) : AudioSource :=
  { source.enqueue ⟨data, source.packetSequenceNext⟩ with
    packetSequenceNext := source.packetSequenceNext + 1 }

/-- `audio_pop` -/
def pop (source : AudioSource) : Option AudioPacket × AudioSource :=
  if source.ringCount ≠ 0 then
    (some (source.ring source.ringTail), { source with
      ringTail := (source.ringTail + 1) % audioRingPackets
      ringCount := source.ringCount - 1 })
  else (none, source)

/-- `audio_reset_epoch` -/
def resetEpoch (audioEpoch : UInt32) (audioEpochTimestamp packetSequence : UInt64)
    (source : AudioSource) : AudioSource :=
  if source.seenEpoch = audioEpoch then source
  else
    { source with
      markerNext := true
      seenEpoch := audioEpoch
      nextTimestamp := audioEpochTimestamp
      epochPacketSequence := packetSequence }

/-- `audio_discard_disconnected` -/
def discardDisconnected (firstPacket : UInt64) (source : AudioSource) : AudioSource :=
  { source with
    ringTail := source.ringHead
    ringCount := 0
    disconnectDrops := source.disconnectDrops + (.ofNat source.ringCount + firstPacket) }

/-- The packets between tail and head. -/
def queue (source : AudioSource) : List AudioPacket :=
  (List.range source.ringCount).map fun k =>
    source.ring ((source.ringTail + k) % audioRingPackets)

/-- The timestamp of a packet. -/
def timestampOf (packet : AudioPacket) (source : AudioSource) : UInt64 :=
  source.nextTimestamp + (packet.sequence - source.epochPacketSequence) * 160

/-- A packet was sent. -/
def countSent (source : AudioSource) : AudioSource :=
  { source with sentCount := source.sentCount + 1, markerNext := false }

end AudioSource

/-! ## The queue -/

/-- The ring holds the packets of the queue from its tail on, and its head is behind them. -/
structure Holds (source : AudioSource) (queue : List AudioPacket) : Prop where
  count : source.ringCount = queue.length
  bounded : queue.length ≤ audioRingPackets
  tail : source.ringTail < audioRingPackets
  head : source.ringHead = (source.ringTail + queue.length) % audioRingPackets
  slots : ∀ k (h : k < queue.length),
    source.ring ((source.ringTail + k) % audioRingPackets) = queue[k]

/-- The queue after a packet; a full one loses its first. -/
def pushBounded (queue : List AudioPacket) (packet : AudioPacket) : List AudioPacket :=
  (if queue.length = audioRingPackets then queue.tail else queue) ++ [packet]

section

variable {source : AudioSource} {queue : List AudioPacket}

theorem holds_opened : Holds .opened [] where
  count := rfl
  bounded := Nat.zero_le _
  tail := by decide
  head := rfl
  slots k h := by cases h

/-- Without the first packet. -/
theorem Holds.advance {packet : AudioPacket} (h : Holds source (packet :: queue))
    {moved : AudioSource} (hring : moved.ring = source.ring) (hhead : moved.ringHead = source.ringHead)
    (htail : moved.ringTail = (source.ringTail + 1) % audioRingPackets)
    (hcount : moved.ringCount = source.ringCount - 1) : Holds moved queue where
  count := by
    rw [hcount, h.count]
    rfl
  bounded := Nat.le_of_succ_le h.bounded
  tail := by
    rw [htail]
    exact Nat.mod_lt _ (by decide)
  head := by
    rw [hhead, h.head, htail, Nat.mod_add_mod, List.length_cons]
    congr 1
    omega
  slots k hk := by
    have hslot := h.slots (k + 1) (Nat.succ_lt_succ hk)
    rw [hring, htail, Nat.mod_add_mod, Nat.add_assoc, Nat.add_comm 1 k]
    exact hslot

theorem Holds.put (h : Holds source queue) (hroom : queue.length < audioRingPackets)
    (packet : AudioPacket) : Holds (source.put packet) (queue ++ [packet]) where
  count := by
    rw [List.length_append, List.length_singleton, ← h.count]
    rfl
  bounded := by
    rw [List.length_append]
    exact hroom
  tail := h.tail
  head := by
    show (source.ringHead + 1) % audioRingPackets = _
    rw [h.head, Nat.mod_add_mod, List.length_append, ← Nat.add_assoc]
    rfl
  slots k hk := by
    show (if (source.ringTail + k) % audioRingPackets = source.ringHead then packet
      else source.ring ((source.ringTail + k) % audioRingPackets)) = _
    rw [h.head]
    rw [List.length_append, List.length_singleton] at hk
    obtain hlast | hearlier := Nat.eq_or_lt_of_le (Nat.le_of_lt_succ hk)
    · subst hlast
      rw [if_pos rfl, List.getElem_concat_length rfl]
    · -- two slots fewer than a whole ring apart are different
      have hother : (source.ringTail + k) % audioRingPackets ≠
          (source.ringTail + queue.length) % audioRingPackets := by
        have htail := h.tail
        unfold audioRingPackets at *
        omega
      rw [if_neg hother, List.getElem_append_left hearlier]
      exact h.slots k hearlier

theorem Holds.drop_oldest (h : Holds source queue) :
    Holds source.dropOldest (if queue.length = audioRingPackets then queue.tail else queue) := by
  unfold AudioSource.dropOldest
  by_cases hfull : queue.length = audioRingPackets
  · rw [if_pos (h.count.trans hfull), if_pos hfull]
    cases queue with
    | nil => cases hfull
    | cons oldest rest => exact h.advance rfl rfl rfl rfl
  · rw [if_neg (fun heq => hfull (h.count.symm.trans heq)), if_neg hfull]
    exact h

theorem Holds.enqueue (h : Holds source queue) (packet : AudioPacket) :
    Holds (source.enqueue packet) (pushBounded queue packet) := by
  refine h.drop_oldest.put ?_ packet
  have hbounded := h.bounded
  split
  · rename_i hfull
    rw [List.length_tail, hfull]
    decide
  · rename_i hroom
    exact Nat.lt_of_le_of_ne hbounded hroom

theorem Holds.pop_nil (h : Holds source []) : source.pop = (none, source) := by
  unfold AudioSource.pop
  exact if_neg (not_not_intro h.count)

theorem Holds.pop_cons {packet : AudioPacket} (h : Holds source (packet :: queue)) :
    source.pop.1 = some packet ∧ Holds source.pop.2 queue := by
  have hne : source.ringCount ≠ 0 := by
    rw [h.count]
    exact Nat.succ_ne_zero _
  have hslot := h.slots 0 (Nat.succ_pos _)
  rw [Nat.add_zero, Nat.mod_eq_of_lt h.tail] at hslot
  unfold AudioSource.pop
  rw [if_pos hne]
  exact ⟨congrArg some hslot, h.advance rfl rfl rfl rfl⟩

theorem Holds.discard (h : Holds source queue) (firstPacket : UInt64) :
    Holds (source.discardDisconnected firstPacket) [] where
  count := rfl
  bounded := Nat.zero_le _
  tail := by
    show source.ringHead < audioRingPackets
    rw [h.head]
    exact Nat.mod_lt _ (by decide)
  head := by
    show source.ringHead = (source.ringHead + 0) % audioRingPackets
    rw [h.head, Nat.add_zero, Nat.mod_mod]
  slots k hk := by cases hk

/-- What the other fields are does not matter. -/
theorem Holds.congr {other : AudioSource} (h : Holds source queue) (hring : other.ring = source.ring)
    (hhead : other.ringHead = source.ringHead) (htail : other.ringTail = source.ringTail)
    (hcount : other.ringCount = source.ringCount) : Holds other queue where
  count := hcount.trans h.count
  bounded := h.bounded
  tail := htail ▸ h.tail
  head := by
    rw [hhead, htail]
    exact h.head
  slots k hk := by
    rw [hring, htail]
    exact h.slots k hk

/-- The ring determines the queue. -/
theorem Holds.queue_eq (h : Holds source queue) : source.queue = queue := by
  unfold AudioSource.queue
  refine List.ext_getElem ?_ fun k hk hk' => ?_
  · rw [List.length_map, List.length_range, h.count]
  · rw [List.getElem_map, List.getElem_range]
    exact h.slots k hk'

end

end NanoKvm.Bridge
