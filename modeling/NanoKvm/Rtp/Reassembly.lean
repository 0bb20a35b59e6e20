import Mathlib.Data.List.Basic
import NanoKvm.Exec.Bytes
import NanoKvm.Rtp.Packetizer

/-!
# What a receiver makes of the packets

`reassemble` is the receiving side of RTP for H.264: a packet of one NAL unit is taken as it is,
FU-A fragments are joined. `send_au_delivers` shows that it gives back the NAL units of the
access unit in either build, with the sequence, timestamp, marker and lengths as they should be,
unless a unit that fits a packet has the type FU-A uses: `type_28_unit_lost` is that case.
-/

namespace NanoKvm.Rtp

/-! ## The receiver -/

/-- The bytes after the RTP header. -/
def payloadOf (packet : List UInt8) : List UInt8 := packet.drop 12

/-- The sequence number of a packet. -/
def sequenceOf (packet : List UInt8) : UInt16 :=
  ((packet.getD 2 0).toUInt16 <<< 8) ||| (packet.getD 3 0).toUInt16

/-- The timestamp in a packet. -/
def timestampIn (packet : List UInt8) : UInt32 :=
  ((packet.getD 4 0).toUInt32 <<< 24) ||| ((packet.getD 5 0).toUInt32 <<< 16) |||
    ((packet.getD 6 0).toUInt32 <<< 8) ||| (packet.getD 7 0).toUInt32

/-- The marker of a packet. -/
def markerOf (packet : List UInt8) : Bool := packet.getD 1 0 &&& 0x80 != 0

/-- The length field of the four bytes before a packet. -/
def lengthField (frame : List UInt8) : Nat :=
  256 * (frame.getD 2 0).toNat + (frame.getD 3 0).toNat

/-- The type of a NAL unit, or of a payload. -/
def nalType (nal : List UInt8) : UInt8 := nal.headD 0 &&& 0x1f

/-- The NAL units of the payloads, given the one begun by earlier fragments. -/
def reassemble : Option (List UInt8) → List (List UInt8) → List (List UInt8)
  | _, [] => []
  | begun, (indicator :: fuHeader :: piece) :: rest =>
      if indicator &&& 0x1f = 28 then
        match if fuHeader &&& 0x80 ≠ 0 then some [indicator &&& 0xe0 ||| fuHeader &&& 0x1f]
          else begun with
        | none => reassemble none rest
        | some nal =>
            if fuHeader &&& 0x40 ≠ 0 then (nal ++ piece) :: reassemble none rest
            else reassemble (some (nal ++ piece)) rest
      else (indicator :: fuHeader :: piece) :: reassemble none rest
  | _, payload :: rest => payload :: reassemble none rest

/-- The writes two by two: the bytes before a packet, and the packet. -/
def pairs : List (List UInt8) → List (List UInt8 × List UInt8)
  | frame :: packet :: rest => (frame, packet) :: pairs rest
  | _ => []

/-- What was written to the connection between two states of the sink. -/
def framesSince (sink sink' : Sink) : List (List UInt8 × List UInt8) :=
  pairs (sink'.written.drop sink.written.length)

/-- The NAL units the receiver gets from what was written between the two. -/
def received (sink sink' : Sink) : List (List UInt8) :=
  reassemble none ((framesSince sink sink').map fun frame => payloadOf frame.2)

/-! ## Sending packets -/

/-- A payload and its marker. -/
structure Packet where
  payload : List UInt8
  marker : Bool
  deriving DecidableEq, Repr

/-- The sink after a packet. -/
def Sink.after (timestamp : UInt32) (sink : Sink) (packet : Packet) : Sink where
  track := { sink.track with sequence := sink.track.sequence + 1 }
  written := sink.written ++ [interleaved sink.track packet.payload.length,
    rtpHeader sink.track timestamp packet.marker ++ packet.payload]

/-- The sink after some packets. -/
def Sink.afterAll (timestamp : UInt32) (sink : Sink) (packets : List Packet) : Sink :=
  packets.foldl (Sink.after timestamp) sink

theorem Sink.after_all_append (timestamp : UInt32) (sink : Sink) (first second : List Packet) :
    sink.afterAll timestamp (first ++ second) =
      (sink.afterAll timestamp first).afterAll timestamp second :=
  List.foldl_append

theorem write_all_true {link : Nat → Bool} {bytes : List UInt8} {sink t : Sink}
    (h : writeAll link bytes sink = (true, t)) :
    t = { sink with written := sink.written ++ [bytes] } := by
  unfold writeAll at h
  split at h
  · exact (Prod.mk.inj h).2.symm
  · simp at h

theorem send_packet_true {link : Nat → Bool} {payload : List UInt8} {timestamp : UInt32}
    {marker : Bool} {sink t : Sink} (h : sendPacket link payload timestamp marker sink = (true, t)) :
    t = sink.after timestamp ⟨payload, marker⟩ := by
  unfold sendPacket at h
  split at h
  · simp at h
  · rename_i framed hframe
    split at h
    · simp at h
    · rename_i sent hpacket
      have hframed := write_all_true hframe
      have hsent := write_all_true hpacket
      subst hframed
      subst hsent
      rw [← (Prod.mk.inj h).2]
      simp [Sink.after]

/-- A build that sent a payload wrote it as one packet. -/
theorem Build.send_true {build : Build} {link : Nat → Bool} {payload : List UInt8}
    {timestamp : UInt32} {marker : Bool} {sink t : Sink}
    (h : build.send link payload timestamp marker sink = (true, t)) :
    t = sink.after timestamp ⟨payload, marker⟩ := by
  cases build with
  | pcma =>
      simp only [Build.send, rtspSendRtp] at h
      split at h
      · simp at h
      · exact send_packet_true h
  | plain =>
      exact send_packet_true h

/-! ## Bytes of the headers -/

/-- A property of every byte is one of 256 cases. -/
theorem byte_cases {P : UInt8 → Prop} (h : ∀ n : Fin 256, P (.ofFin n)) (byte : UInt8) : P byte :=
  h byte.toFin

theorem marker_byte (payloadType : UInt8) (marker : Bool) (h : payloadType &&& 0x80 = 0) :
    ((payloadType ||| if marker then 0x80 else 0) &&& 0x80 != 0) = marker := by
  revert marker
  revert h
  induction payloadType using byte_cases with
  | h n =>
      revert n
      decide +kernel

theorem length_bytes (track : Track) (length : Nat) (h : 12 + length < 2 ^ 16) :
    lengthField (interleaved track length) = 12 + length := by
  simp [lengthField, interleaved, Nat.shiftRight_eq_div_pow]
  omega

/-- The first byte of a fragment gives back its type and the upper bits of the unit's first. -/
theorem fu_indicator (head : UInt8) :
    (head &&& 0xe0 ||| 28) &&& 0x1f = 28 ∧ (head &&& 0xe0 ||| 28) &&& 0xe0 = head &&& 0xe0 := by
  induction head using byte_cases with
  | h n =>
      revert n
      decide +kernel

/-- The second byte gives back whether the fragment is the first or the last, and the type. -/
theorem fu_header (head : UInt8) (first last : Prop) [Decidable first] [Decidable last] :
    let fuHeader : UInt8 :=
      (if first then 0x80 else 0) ||| (if last then 0x40 else 0) ||| head &&& 0x1f
    (fuHeader &&& 0x80 ≠ 0 ↔ first) ∧ (fuHeader &&& 0x40 ≠ 0 ↔ last) ∧
      head &&& 0xe0 ||| fuHeader &&& 0x1f = head := by
  by_cases hfirst : first <;> by_cases hlast : last <;>
    simp only [hfirst, hlast, if_true, if_false, iff_true, iff_false] <;>
    clear hfirst hlast <;>
    induction head using byte_cases with
    | h n =>
        revert n
        decide +kernel

/-! ## What is written for a list of packets -/

/-- The writes for the packets, from the track before the first of them. -/
def frames (timestamp : UInt32) (track : Track) : List Packet → List (List UInt8 × List UInt8)
  | [] => []
  | packet :: rest =>
      (interleaved track packet.payload.length,
        rtpHeader track timestamp packet.marker ++ packet.payload) ::
        frames timestamp { track with sequence := track.sequence + 1 } rest

section Frames

variable (timestamp : UInt32) (packets : List Packet)

theorem after_all_written (sink : Sink) :
    (sink.afterAll timestamp packets).written =
      sink.written ++ (frames timestamp sink.track packets).flatMap fun frame =>
        [frame.1, frame.2] := by
  induction packets generalizing sink with
  | nil => simp [Sink.afterAll, frames]
  | cons packet rest ih =>
      rw [Sink.afterAll, List.foldl_cons, ← Sink.afterAll, ih]
      simp [Sink.after, frames]

theorem after_all_track (sink : Sink) :
    (sink.afterAll timestamp packets).track =
      { sink.track with sequence := sink.track.sequence + .ofNat packets.length } := by
  induction packets generalizing sink with
  | nil => simp [Sink.afterAll]
  | cons packet rest ih =>
      rw [Sink.afterAll, List.foldl_cons, ← Sink.afterAll, ih]
      simp [Sink.after, UInt16.ofNat_add, UInt16.add_comm, UInt16.add_assoc]

theorem pairs_flat_map (list : List (List UInt8 × List UInt8)) :
    pairs (list.flatMap fun frame => [frame.1, frame.2]) = list := by
  induction list with
  | nil => rfl
  | cons frame rest ih => simpa [pairs] using ih

theorem frames_since_after_all (sink : Sink) :
    framesSince sink (sink.afterAll timestamp packets) = frames timestamp sink.track packets := by
  rw [framesSince, after_all_written, List.drop_left, pairs_flat_map]

variable (track : Track)

theorem frames_length : (frames timestamp track packets).length = packets.length := by
  induction packets generalizing track with
  | nil => rfl
  | cons packet rest ih => simp [frames, ih]

theorem frames_payloads :
    ((frames timestamp track packets).map fun frame => payloadOf frame.2) =
      packets.map Packet.payload := by
  induction packets generalizing track with
  | nil => rfl
  | cons packet rest ih =>
      simp only [frames, List.map_cons, ih]
      rfl

theorem frames_sequences :
    ((frames timestamp track packets).map fun frame => sequenceOf frame.2) =
      (List.range packets.length).map fun i => track.sequence + .ofNat i := by
  induction packets generalizing track with
  | nil => rfl
  | cons packet rest ih =>
      simp only [frames, List.map_cons, ih, List.length_cons, List.range_succ_eq_map, List.map_map]
      congr 1
      · simpa [sequenceOf, rtpHeader] using Exec.word_bytes track.sequence
      · apply List.map_congr_left
        intro i hi
        simp [UInt16.ofNat_add, UInt16.add_comm, UInt16.add_assoc]

theorem frames_markers :
    ((frames timestamp track packets).map fun frame => markerOf frame.2) =
      packets.map Packet.marker := by
  induction packets generalizing track with
  | nil => rfl
  | cons packet rest ih =>
      simp only [frames, List.map_cons, ih]
      congr 1
      exact marker_byte track.payloadType packet.marker track.unmarked

theorem frames_timestamps {frame : List UInt8 × List UInt8}
    (h : frame ∈ frames timestamp track packets) : timestampIn frame.2 = timestamp := by
  induction packets generalizing track with
  | nil => simp [frames] at h
  | cons packet rest ih =>
      rcases List.mem_cons.1 h with heq | hmem
      · rw [heq]
        exact Exec.long_bytes timestamp
      · exact ih _ hmem

theorem frames_lengths (hsmall : ∀ packet ∈ packets, packet.payload.length ≤ rtpMtu + 2)
    {frame : List UInt8 × List UInt8} (h : frame ∈ frames timestamp track packets) :
    lengthField frame.1 = frame.2.length := by
  induction packets generalizing track with
  | nil => simp [frames] at h
  | cons packet rest ih =>
      rcases List.mem_cons.1 h with heq | hmem
      · have hpacket := hsmall packet List.mem_cons_self
        rw [heq]
        dsimp only
        rw [length_bytes _ _ (by unfold rtpMtu at hpacket; omega), List.length_append]
        rfl
      · exact ih _ (fun other hother => hsmall other (List.mem_cons_of_mem _ hother)) hmem

end Frames

/-! ## Every NAL unit arrives -/

/-- The packets give the NAL units to a receiver in such a state, whatever follows them, and only
the last may carry the marker. -/
structure Carries (packets : List Packet) (ready : Option (List UInt8) → Prop)
    (nals : List (List UInt8)) (marker : Bool) : Prop where
  joined : ∀ begun, ready begun → ∀ rest,
    reassemble begun (packets.map Packet.payload ++ rest) = nals ++ reassemble none rest
  small : ∀ packet ∈ packets, packet.payload.length ≤ rtpMtu + 2
  marked : ∃ front last, packets = front ++ [last] ∧ (∀ packet ∈ front, packet.marker = false) ∧
    last.marker = marker

/-- The receiver has the unit up to the offset, or is about to see its first fragment. -/
def Joining (nal : List UInt8) (offset : Nat) (begun : Option (List UInt8)) : Prop :=
  offset = 1 ∨ begun = some (nal.take offset)

theorem reassemble_fragment {nal : List UInt8} {offset chunk : Nat} {begun : Option (List UInt8)}
    (hoffset : offset < nal.length) (hbegun : Joining nal offset begun) (rest : List (List UInt8)) :
    reassemble begun (fragment nal offset chunk :: rest) =
      if offset + chunk ≥ nal.length then nal.take (offset + chunk) :: reassemble none rest
      else reassemble (some (nal.take (offset + chunk))) rest := by
  obtain ⟨htype, hupper⟩ := fu_indicator (nal.headD 0)
  obtain ⟨hfirst, hlast, hhead⟩ :=
    fu_header (nal.headD 0) (offset = 1) (offset + chunk ≥ nal.length)
  have hstart : (if offset = 1 then some [nal.headD 0] else begun) = some (nal.take offset) := by
    split
    · rename_i hone
      cases nal with
      | nil => simp at hoffset
      | cons head tail => simp [hone]
    · rename_i hother
      exact hbegun.resolve_left hother
  simp only [fragment, reassemble, htype, if_true, hfirst, hlast, hupper, hhead, hstart]
  rw [List.take_add]

/-- The loop over the fragments, from an offset on. -/
theorem send_fragments_true {build : Build} {link : Nat → Bool} {timestamp : UInt32}
    {nal : List UInt8} {lastNal : Bool} {offset : Nat} {sink t : Sink} (hpos : 0 < offset)
    (hoffset : offset < nal.length)
    (h : sendFragments build link timestamp nal lastNal offset sink = (true, t)) :
    ∃ packets, t = sink.afterAll timestamp packets ∧
      Carries packets (Joining nal offset) [nal] lastNal := by
  have hlimit : build.chunkLimit ≤ rtpMtu := by cases build <;> decide
  have hchunk := build.chunk_limit_pos
  fun_induction sendFragments build link timestamp nal lastNal offset sink with
  | case1 offset sink hin chunk sink' hsend => simp at h
  | case2 offset sink hin chunk sink' hsend ih =>
      have hafter := Build.send_true hsend
      have hle : chunk ≤ build.chunkLimit := Nat.min_le_right _ _
      have hlength : (fragment nal offset chunk).length ≤ rtpMtu + 2 := by
        simp [fragment]
        omega
      by_cases hend : offset + chunk ≥ nal.length
      · -- the last fragment: the loop ends after it
        rw [sendFragments, if_neg (by omega)] at h
        refine ⟨[⟨fragment nal offset chunk, lastNal && decide (offset + chunk ≥ nal.length)⟩],
          ?_, ?_, ?_, [], _, rfl, by simp, ?_⟩
        · rw [← (Prod.mk.inj h).2, hafter]
          rfl
        · intro begun hbegun rest
          simp only [List.map_cons, List.map_nil, List.singleton_append]
          rw [reassemble_fragment hoffset hbegun, if_pos hend, List.take_of_length_le hend]
        · intro packet hmem
          rw [List.mem_singleton.1 hmem]
          exact hlength
        · simp [hend]
      · obtain ⟨packets, ht, hcarries⟩ := ih (by omega) (by omega) h
        obtain ⟨front, last, hpackets, hfront, hlast⟩ := hcarries.marked
        refine ⟨⟨fragment nal offset chunk, lastNal && decide (offset + chunk ≥ nal.length)⟩ ::
          packets, ?_, ?_, ?_, _ :: front, last, by rw [hpackets]; rfl, ?_, hlast⟩
        · rw [ht, hafter]
          rfl
        · intro begun hbegun rest
          rw [List.map_cons, List.cons_append, reassemble_fragment hoffset hbegun, if_neg hend]
          exact hcarries.joined _ (.inr rfl) rest
        · intro packet hmem
          rcases List.mem_cons.1 hmem with heq | hmem
          · rw [heq]
            exact hlength
          · exact hcarries.small packet hmem
        · intro packet hmem
          rcases List.mem_cons.1 hmem with heq | hmem
          · simp [heq, hend]
          · exact hfront packet hmem
  | case3 offset sink hout => omega

/-- A unit that fits a packet and that a receiver takes for a fragment. -/
def LooksFragmented (nal : List UInt8) : Prop :=
  2 ≤ nal.length ∧ nal.length ≤ rtpMtu ∧ nalType nal = 28

theorem reassemble_single {nal : List UInt8} (hsmall : nal.length ≤ rtpMtu)
    (hplain : ¬ LooksFragmented nal) (begun : Option (List UInt8)) (rest : List (List UInt8)) :
    reassemble begun (nal :: rest) = nal :: reassemble none rest := by
  match nal with
  | [] => simp [reassemble]
  | [head] => simp [reassemble]
  | head :: second :: tail =>
      have htype : ¬ head &&& 0x1f = 28 := fun htype =>
        hplain ⟨by simp, hsmall, htype⟩
      rw [reassemble, if_neg htype]

theorem send_nal_true {build : Build} {link : Nat → Bool} {timestamp : UInt32} {nal : List UInt8}
    {lastNal : Bool} {sink t : Sink} (hplain : ¬ LooksFragmented nal)
    (h : sendNal build link timestamp nal lastNal sink = (true, t)) :
    ∃ packets, t = sink.afterAll timestamp packets ∧
      Carries packets (fun _ => True) [nal] lastNal := by
  unfold sendNal at h
  split at h
  · rename_i hsmall
    refine ⟨[⟨nal, lastNal⟩], Build.send_true h, ?_, ?_, [], _, rfl, by simp, rfl⟩
    · intro begun _ rest
      exact reassemble_single hsmall hplain begun rest
    · intro packet hmem
      rw [List.mem_singleton.1 hmem]
      exact Nat.le_add_right_of_le hsmall
  · rename_i hlarge
    have hlength : 1 < nal.length := by
      unfold rtpMtu at hlarge
      omega
    obtain ⟨packets, ht, hcarries⟩ := send_fragments_true Nat.one_pos hlength h
    exact ⟨packets, ht, fun begun _ => hcarries.joined begun (.inl rfl), hcarries.small,
      hcarries.marked⟩

/-- The loop over the NAL units: the marker goes to the last packet of the last unit. -/
theorem send_nals_true {build : Build} {link : Nat → Bool} {timestamp : UInt32}
    {nals : List (List UInt8)} {sink t : Sink} (hsome : nals ≠ [])
    (hplain : ∀ nal ∈ nals, ¬ LooksFragmented nal)
    (h : sendNals build link timestamp nals sink = (true, t)) :
    ∃ packets, t = sink.afterAll timestamp packets ∧ Carries packets (fun _ => True) nals true := by
  induction nals generalizing sink with
  | nil => exact absurd rfl hsome
  | cons nal rest ih =>
      rw [sendNals] at h
      split at h
      · simp at h
      · rename_i middle hnal
        obtain ⟨packets, hmiddle, hcarries⟩ := send_nal_true (hplain nal List.mem_cons_self) hnal
        cases rest with
        | nil =>
            rw [sendNals] at h
            exact ⟨packets, by rw [← (Prod.mk.inj h).2, hmiddle], hcarries⟩
        | cons next rest =>
            obtain ⟨others, ht, hothers⟩ := ih (List.cons_ne_nil _ _)
              (fun nal hmem => hplain nal (List.mem_cons_of_mem _ hmem)) h
            obtain ⟨front, last, hpackets, hfront, hlast⟩ := hcarries.marked
            obtain ⟨front', last', hothers', hfront', hlast'⟩ := hothers.marked
            refine ⟨packets ++ others, by rw [ht, hmiddle, Sink.after_all_append], ?_, ?_,
              packets ++ front', last', by rw [hothers', List.append_assoc], ?_, hlast'⟩
            · intro begun _ after
              rw [List.map_append, List.append_assoc, hcarries.joined begun trivial,
                hothers.joined none trivial]
              rfl
            · intro packet hmem
              rcases List.mem_append.1 hmem with hmem | hmem
              · exact hcarries.small packet hmem
              · exact hothers.small packet hmem
            · intro packet hmem
              rcases List.mem_append.1 hmem with hmem | hmem
              · rw [hpackets] at hmem
                rcases List.mem_append.1 hmem with hmem | hmem
                · exact hfront packet hmem
                · rw [List.mem_singleton.1 hmem, hlast]
                  rfl
              · exact hfront' packet hmem

/-! ## The access unit -/

/-- What was written between the two states of the sink is the access unit. -/
structure Delivers (nals : List (List UInt8)) (timestamp : UInt32) (sink t : Sink) : Prop where
  nothingElse : t.written = sink.written ++
    (framesSince sink t).flatMap fun frame => [frame.1, frame.2]
  units : received sink t = nals
  sequences : (framesSince sink t).map (fun frame => sequenceOf frame.2) =
    (List.range (framesSince sink t).length).map fun i => sink.track.sequence + .ofNat i
  continued : t.track.sequence = sink.track.sequence + .ofNat (framesSince sink t).length
  timestamps : ∀ frame ∈ framesSince sink t, timestampIn frame.2 = timestamp
  marker : ∀ front last, framesSince sink t = front ++ [last] →
    markerOf last.2 = true ∧ ∀ frame ∈ front, markerOf frame.2 = false
  lengths : ∀ frame ∈ framesSince sink t, lengthField frame.1 = frame.2.length

/-- The packets that carry the units, with the marker on the last, deliver them. -/
theorem Carries.delivers {packets : List Packet} {nals : List (List UInt8)}
    (h : Carries packets (fun _ => True) nals true) (timestamp : UInt32) (sink : Sink) :
    Delivers nals timestamp sink (sink.afterAll timestamp packets) where
  nothingElse := by
    rw [frames_since_after_all]
    exact after_all_written timestamp packets sink
  units := by
    rw [received, frames_since_after_all, frames_payloads]
    simpa [reassemble] using h.joined none trivial []
  sequences := by
    rw [frames_since_after_all, frames_length]
    exact frames_sequences timestamp packets sink.track
  continued := by
    rw [frames_since_after_all, frames_length, after_all_track]
  timestamps frame hframe := by
    rw [frames_since_after_all] at hframe
    exact frames_timestamps timestamp packets sink.track hframe
  marker front last hframes := by
    obtain ⟨front', last', hpackets, hfront, hlast⟩ := h.marked
    have hmarkers := frames_markers timestamp packets sink.track
    rw [← frames_since_after_all, hframes, hpackets, List.map_append, List.map_append] at hmarkers
    obtain ⟨hinit, hend⟩ := List.append_inj' hmarkers rfl
    refine ⟨(List.cons.inj hend).1.trans hlast, ?_⟩
    intro frame hframe
    have hmem : markerOf frame.2 ∈ front'.map Packet.marker := by
      rw [← hinit]
      exact List.mem_map_of_mem hframe
    obtain ⟨packet, hpacket, heq⟩ := List.mem_map.1 hmem
    rw [← heq]
    exact hfront packet hpacket
  lengths frame hframe := by
    rw [frames_since_after_all] at hframe
    exact frames_lengths timestamp packets sink.track h.small hframe

/-- A sink to which nothing was sent has delivered no unit. -/
theorem delivers_nothing (timestamp : UInt32) (sink : Sink) : Delivers [] timestamp sink sink := by
  have hframes : framesSince sink sink = [] := by simp [framesSince, pairs]
  constructor <;> simp [received, hframes, reassemble]

theorem Delivers.last_marker {nals : List (List UInt8)} {timestamp : UInt32} {sink t : Sink}
    (h : Delivers nals timestamp sink t) (hsome : nals ≠ []) :
    (framesSince sink t).getLast?.map (fun frame => markerOf frame.2) = some true := by
  rcases List.eq_nil_or_concat (framesSince sink t) with hnil | ⟨front, last, hlast⟩
  · have hunits := h.units
    rw [received, hnil] at hunits
    exact absurd hunits.symm hsome
  · rw [List.concat_eq_append] at hlast
    rw [hlast, List.getLast?_concat]
    exact congrArg some (h.marker front last hlast).1

section AccessUnit

variable {buf : List UInt8} {ptsMs : UInt64} {build : Build} {link : Nat → Bool} {sink t : Sink}

theorem send_au_empty (hnals : annexbSplit buf 32 = [])
    (h : rtspSendAu build link buf ptsMs sink = (true, t)) : t = sink := by
  rw [rtspSendAu, hnals, sendNals] at h
  exact (Prod.mk.inj h).2.symm

theorem send_au_true (hplain : ∀ nal ∈ annexbSplit buf 32, ¬ LooksFragmented nal)
    (h : rtspSendAu build link buf ptsMs sink = (true, t)) :
    Delivers (annexbSplit buf 32) (timestampOf ptsMs) sink t := by
  by_cases hnals : annexbSplit buf 32 = []
  · rw [send_au_empty hnals h, hnals]
    exact delivers_nothing _ _
  · obtain ⟨packets, ht, hcarries⟩ := send_nals_true hnals hplain h
    rw [ht]
    exact hcarries.delivers _ _

theorem send_au_last_marker (hplain : ∀ nal ∈ annexbSplit buf 32, ¬ LooksFragmented nal)
    (h : rtspSendAu build link buf ptsMs sink = (true, t)) :
    (framesSince sink t).getLast?.map (fun frame => markerOf frame.2) =
      if annexbSplit buf 32 = [] then none else some true := by
  split
  · rename_i hnals
    rw [send_au_empty hnals h]
    simp [framesSince, pairs]
  · rename_i hnals
    exact (send_au_true hplain h).last_marker hnals

end AccessUnit

/-- A call that succeeds delivers the access unit, in either build, and a receiver gets the same
from the two builds. -/
theorem send_au_delivers (buf : List UInt8) (ptsMs : UInt64)
    (hplain : ∀ nal ∈ annexbSplit buf 32, ¬ LooksFragmented nal) :
    (∀ build link sink t, rtspSendAu build link buf ptsMs sink = (true, t) →
      Delivers (annexbSplit buf 32) (timestampOf ptsMs) sink t) ∧
    ∀ link link' sink sink' t t', rtspSendAu .pcma link buf ptsMs sink = (true, t) →
      rtspSendAu .plain link' buf ptsMs sink' = (true, t') →
      received sink t = received sink' t' ∧
      (∀ frame ∈ framesSince sink t, ∀ frame' ∈ framesSince sink' t',
        timestampIn frame.2 = timestampIn frame'.2) ∧
      (framesSince sink t).getLast?.map (fun frame => markerOf frame.2) =
        (framesSince sink' t').getLast?.map fun frame => markerOf frame.2 := by
  refine ⟨fun build link sink t h => send_au_true hplain h, ?_⟩
  intro link link' sink sink' t t' hpcma hplainBuild
  have hfirst := send_au_true hplain hpcma
  have hsecond := send_au_true hplain hplainBuild
  refine ⟨hfirst.units.trans hsecond.units.symm, ?_, ?_⟩
  · intro frame hframe frame' hframe'
    rw [hfirst.timestamps frame hframe, hsecond.timestamps frame' hframe']
  · rw [send_au_last_marker hplain hpcma, send_au_last_marker hplain hplainBuild]

/-- An access unit of two NAL units to a connection that takes everything. -/
theorem send_au_delivers_two_units :
    let sent := rtspSendAu .pcma (fun _ => true)
      [0, 0, 0, 1, 0x67, 0x42, 0, 0, 1, 0x68, 0xce] 40 ⟨videoTrack, []⟩
    sent.1 = true ∧ Delivers [[0x67, 0x42], [0x68, 0xce]] 3600 ⟨videoTrack, []⟩ sent.2 := by
  have hsent : (rtspSendAu .pcma (fun _ => true)
      [0, 0, 0, 1, 0x67, 0x42, 0, 0, 1, 0x68, 0xce] 40 ⟨videoTrack, []⟩).1 = true := by decide
  have hsplit : annexbSplit [0, 0, 0, 1, 0x67, 0x42, 0, 0, 1, 0x68, 0xce] 32 =
      [[0x67, 0x42], [0x68, 0xce]] := by decide
  have hplain : ∀ nal ∈ annexbSplit [0, 0, 0, 1, 0x67, 0x42, 0, 0, 1, 0x68, 0xce] 32,
      ¬ LooksFragmented nal := by
    rw [hsplit]
    simp only [LooksFragmented, nalType]
    decide
  exact ⟨hsent, hsplit ▸ (send_au_delivers _ 40 hplain).1 _ _ _ _ (Prod.ext hsent rfl)⟩

/-- A unit of the type of FU-A that fits a packet is sent as it is, and a receiver loses it. -/
theorem type_28_unit_lost :
    ¬ ∀ build link buf ptsMs sink t, rtspSendAu build link buf ptsMs sink = (true, t) →
      Delivers (annexbSplit buf 32) (timestampOf ptsMs) sink t := by
  intro h
  have hunits := (h .plain (fun _ => true) [0, 0, 0, 1, 0x1c, 0x05] 0 ⟨videoTrack, []⟩ _ rfl).units
  revert hunits
  decide

end NanoKvm.Rtp
