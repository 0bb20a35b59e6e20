import NanoKvm.Rtp.AnnexB
import NanoKvm.Rtp.Reassembly

/-!
# The fragments of a NAL unit

A unit that does not fit a packet is sent as FU-A packets. `pieces` are their payloads;
`send_nal_payloads` says that the connection gets them, or a first part of them if it fails.
`fragments_well_formed_iff` says when the bits of the packets are those of a fragmented unit: the
build without audio cuts a unit of one byte more than a packet into a single fragment, since the
header byte is not part of it.
-/

namespace NanoKvm.Rtp

/-! ## Bits -/

/-- The start bit and the end bit of a fragment. -/
def bits (payload : List UInt8) : Bool × Bool :=
  (payload.getD 1 0 &&& 0x80 != 0, payload.getD 1 0 &&& 0x40 != 0)

/-- Two fragments or more: the first starts, the last ends, and the others do neither. -/
structure WellFragmented (payloads : List (List UInt8)) : Prop where
  typed : ∀ payload ∈ payloads, nalType payload = 28
  bits : ∃ between, payloads.map bits =
    (true, false) :: List.replicate between (false, false) ++ [(false, true)]

theorem fragment_bits (nal : List UInt8) (offset chunk : Nat) :
    bits (fragment nal offset chunk) = (decide (offset = 1), decide (offset + chunk ≥ nal.length)) := by
  obtain ⟨hfirst, hlast, _⟩ := fu_header (nal.headD 0) (offset = 1) (offset + chunk ≥ nal.length)
  unfold bits
  rw [Prod.mk.injEq]
  constructor
  · rw [Bool.eq_iff_iff, bne_iff_ne, decide_eq_true_eq]
    exact hfirst
  · rw [Bool.eq_iff_iff, bne_iff_ne, decide_eq_true_eq]
    exact hlast

theorem fragment_type (nal : List UInt8) (offset chunk : Nat) :
    nalType (fragment nal offset chunk) = 28 :=
  (fu_indicator (nal.headD 0)).1

/-! ## Pieces -/

/-- The payloads of the fragments from an offset on. -/
def pieces (build : Build) (nal : List UInt8) (offset : Nat) : List (List UInt8) :=
  if offset < nal.length then
    let chunk := min (nal.length - offset) build.chunkLimit
    fragment nal offset chunk :: pieces build nal (offset + chunk)
  else []
termination_by nal.length - offset
decreasing_by
  have hpos := build.chunk_limit_pos
  omega

section Pieces

variable {build : Build} {nal : List UInt8} {offset : Nat}

theorem pieces_type {payload : List UInt8} (h : payload ∈ pieces build nal offset) :
    nalType payload = 28 := by
  fun_induction pieces build nal offset with
  | case1 offset hin chunk ih =>
      obtain rfl | hlater := List.mem_cons.mp h
      · exact fragment_type nal offset _
      · exact ih hlater
  | case2 offset hout => cases h

theorem pieces_bits_later (hlater : 1 < offset) (hin : offset < nal.length) :
    ∃ between, (pieces build nal offset).map bits =
      List.replicate between (false, false) ++ [(false, true)] := by
  have hpos := build.chunk_limit_pos
  fun_induction pieces build nal offset with
  | case1 offset _ chunk ih =>
      rw [List.map_cons, fragment_bits]
      by_cases hend : offset + chunk ≥ nal.length
      · refine ⟨0, ?_⟩
        rw [pieces, if_neg (by omega)]
        simp [hend, show offset ≠ 1 by omega]
      · obtain ⟨between, hbits⟩ := ih (by omega) (by omega)
        refine ⟨between + 1, ?_⟩
        rw [hbits, List.replicate_succ]
        simp [hend, show offset ≠ 1 by omega]
  | case2 offset hout => exact absurd hin hout

/-- The bits of all fragments of a unit. -/
theorem pieces_bits (build : Build) (hlarge : 1 < nal.length) :
    if nal.length ≤ 1 + build.chunkLimit then (pieces build nal 1).map bits = [(true, true)]
    else ∃ between, (pieces build nal 1).map bits =
      (true, false) :: List.replicate between (false, false) ++ [(false, true)] := by
  rw [pieces, if_pos hlarge]
  simp only [List.map_cons, fragment_bits]
  split
  · rename_i hfits
    have hend : 1 + min (nal.length - 1) build.chunkLimit ≥ nal.length := by omega
    rw [pieces, if_neg (by omega)]
    simp [hend]
  · rename_i hrest
    have hend : ¬ 1 + min (nal.length - 1) build.chunkLimit ≥ nal.length := by omega
    have hpos := build.chunk_limit_pos
    have hlater : 1 < 1 + min (nal.length - 1) build.chunkLimit := by omega
    obtain ⟨between, hbits⟩ := pieces_bits_later hlater (Nat.lt_of_not_ge hend)
    exact ⟨between, by rw [hbits]; simp [hend]⟩

end Pieces

/-! ## What the connection gets -/

/-- The payloads written between two states of the sink. -/
def payloadsSince (sink sink' : Sink) : List (List UInt8) :=
  (framesSince sink sink').map fun frame => payloadOf frame.2

/-- The connection got the first packets, and perhaps the frame of one more. -/
structure Wrote (timestamp : UInt32) (sink t : Sink) (packets : List Packet) : Prop where
  written : ∃ tail, tail.length ≤ 1 ∧ t.written = (sink.afterAll timestamp packets).written ++ tail

section

variable {build : Build} {link : Nat → Bool} {timestamp : UInt32} {nal : List UInt8}
  {lastNal : Bool} {sink t : Sink}

theorem pairs_append (list : List (List UInt8 × List UInt8)) {tail : List (List UInt8)}
    (h : tail.length ≤ 1) : pairs (list.flatMap (fun frame => [frame.1, frame.2]) ++ tail) = list := by
  induction list with
  | nil =>
      match tail with
      | [] => rfl
      | [_] => rfl
  | cons frame rest ih => simpa [pairs] using ih

theorem Wrote.payloads {packets : List Packet} (h : Wrote timestamp sink t packets) :
    payloadsSince sink t = packets.map Packet.payload := by
  obtain ⟨tail, htail, hwritten⟩ := h.written
  rw [payloadsSince, framesSince, hwritten, after_all_written, List.append_assoc, List.drop_left,
    pairs_append _ htail, frames_payloads]

theorem Wrote.nothing (timestamp : UInt32) (sink : Sink) : Wrote timestamp sink sink [] :=
  ⟨[], by simp, by simp [Sink.afterAll]⟩

theorem Wrote.cons {packet : Packet} {packets : List Packet}
    (h : Wrote timestamp (sink.after timestamp packet) t packets) :
    Wrote timestamp sink t (packet :: packets) := by
  obtain ⟨tail, htail, hwritten⟩ := h.written
  exact ⟨tail, htail, by rw [hwritten]; rfl⟩

theorem send_packet_false {payload : List UInt8} {marker : Bool}
    (h : sendPacket link payload timestamp marker sink = (false, t)) :
    Wrote timestamp sink t [] := by
  unfold sendPacket at h
  split at h
  · rename_i failed hframe
    cases h
    unfold writeAll at hframe
    split at hframe
    · cases hframe
    · cases hframe
      exact .nothing timestamp sink
  · rename_i framed hframe
    have hframed := write_all_true hframe
    split at h
    · rename_i failed hpacket
      cases h
      unfold writeAll at hpacket
      split at hpacket
      · cases hpacket
      · cases hpacket
        rw [hframed]
        exact ⟨[interleaved sink.track payload.length], by simp, rfl⟩
    · cases h

theorem Build.send_false {payload : List UInt8} {marker : Bool}
    (h : build.send link payload timestamp marker sink = (false, t)) :
    Wrote timestamp sink t [] := by
  cases build with
  | pcma =>
      simp only [Build.send, rtspSendRtp] at h
      split at h
      · cases h
        exact .nothing timestamp sink
      · exact send_packet_false h
  | plain => exact send_packet_false h

/-- The connection got the payloads, or the first of them before it failed. -/
structure Emits (timestamp : UInt32) (sink : Sink) (result : Bool × Sink)
    (payloads : List (List UInt8)) : Prop where
  packets : ∃ packets, Wrote timestamp sink result.2 packets ∧
    packets.map Packet.payload <+: payloads ∧
      (result.1 = true → packets.map Packet.payload = payloads)

theorem Emits.since {result : Bool × Sink} {payloads : List (List UInt8)}
    (h : Emits timestamp sink result payloads) :
    payloadsSince sink result.2 <+: payloads ∧
      (result.1 = true → payloadsSince sink result.2 = payloads) := by
  obtain ⟨packets, hwrote, hfirst, hall⟩ := h.packets
  rw [hwrote.payloads]
  exact ⟨hfirst, hall⟩

/-- The loop writes the pieces. -/
theorem send_fragments_emits (offset : Nat) :
    Emits timestamp sink (sendFragments build link timestamp nal lastNal offset sink)
      (pieces build nal offset) := by
  fun_induction sendFragments build link timestamp nal lastNal offset sink with
  | case1 offset sink hin chunk sink' hsend =>
      exact ⟨[], Build.send_false hsend, List.nil_prefix, by simp⟩
  | case2 offset sink hin chunk sink' hsend ih =>
      obtain ⟨packets, hwrote, hfirst, hall⟩ := ih.packets
      refine ⟨_ :: packets, Wrote.cons (by rw [← Build.send_true hsend]; exact hwrote), ?_, ?_⟩
      · rw [pieces, if_pos hin]
        exact List.cons_prefix_cons.mpr ⟨rfl, hfirst⟩
      · intro hok
        rw [pieces, if_pos hin, List.map_cons, hall hok]
  | case3 offset sink hout =>
      rw [pieces, if_neg hout]
      exact ⟨[], .nothing timestamp sink, List.nil_prefix, by simp⟩

theorem send_nal_emits (hlarge : rtpMtu < nal.length) :
    Emits timestamp sink (sendNal build link timestamp nal lastNal sink) (pieces build nal 1) := by
  rw [sendNal, if_neg (Nat.not_le_of_gt hlarge)]
  exact send_fragments_emits 1

end

/-- A connection that takes everything takes a payload. -/
theorem Build.send_open {build : Build} {payload : List UInt8} (timestamp : UInt32) (marker : Bool)
    (sink : Sink) (h : build = .plain ∨ payload.length ≤ rtpMtu) :
    (build.send (fun _ => true) payload timestamp marker sink).1 = true := by
  cases build with
  | pcma =>
      have hfits : ¬ payload.length > rtpMtu := Nat.not_lt.mpr (h.resolve_left (by simp))
      rw [Build.send, rtspSendRtp, if_neg hfits]
      rfl
  | plain => rfl

theorem send_fragments_open (build : Build) (timestamp : UInt32) (nal : List UInt8) (lastNal : Bool)
    (offset : Nat) (sink : Sink) :
    (sendFragments build (fun _ => true) timestamp nal lastNal offset sink).1 = true := by
  fun_induction sendFragments build (fun _ => true) timestamp nal lastNal offset sink with
  | case1 offset sink hin chunk sink' hsend =>
      have hfits : build = .plain ∨ (fragment nal offset chunk).length ≤ rtpMtu := by
        cases build with
        | pcma =>
            have hchunk : chunk ≤ rtpMtu - 2 := Nat.min_le_right _ _
            right
            simp only [fragment, List.length_cons, List.length_take, List.length_drop]
            unfold rtpMtu at hchunk ⊢
            omega
        | plain => exact .inl rfl
      have hopen := Build.send_open timestamp (lastNal && decide (offset + chunk ≥ nal.length))
        sink hfits
      rw [hsend] at hopen
      cases hopen
  | case2 offset sink hin chunk sink' hsend ih => exact ih
  | case3 offset sink hout => rfl

/-- The fragments of a unit that does not fit a packet. -/
theorem pieces_large (build : Build) {nal : List UInt8} (hlarge : rtpMtu < nal.length) :
    if build = .pcma ∨ nal.length ≠ rtpMtu + 1 then WellFragmented (pieces build nal 1)
    else (pieces build nal 1).map bits = [(true, true)] := by
  have hbits := pieces_bits build (Nat.lt_of_lt_of_le (by decide) hlarge : 1 < nal.length)
  have hfits : nal.length ≤ 1 + build.chunkLimit ↔ ¬ (build = .pcma ∨ nal.length ≠ rtpMtu + 1) := by
    cases build with
    | pcma =>
        have hlimit : Build.chunkLimit .pcma + 2 = rtpMtu := rfl
        simp only [true_or, not_true_eq_false, iff_false]
        omega
    | plain =>
        have hlimit : Build.chunkLimit .plain = rtpMtu := rfl
        simp only [reduceCtorEq, false_or, ne_eq, not_not]
        omega
  simp only [hfits] at hbits
  split
  · rename_i hshort
    rw [if_neg (not_not_intro hshort)] at hbits
    exact ⟨fun payload hmem => pieces_type hmem, hbits⟩
  · rename_i hshort
    rwa [if_pos hshort] at hbits

/-- The packets of a unit that does not fit a packet have the bits of a fragmented unit, unless
the build has no audio and the unit is one byte too long. -/
theorem fragments_well_formed_iff (build : Build) {nal : List UInt8}
    (hlarge : rtpMtu < nal.length) :
    (∀ link timestamp lastNal sink,
      ((sendNal build link timestamp nal lastNal sink).1 = true →
        WellFragmented (payloadsSince sink (sendNal build link timestamp nal lastNal sink).2)) ∧
      ∀ payload ∈ payloadsSince sink (sendNal build link timestamp nal lastNal sink).2,
        bits payload ≠ (true, true)) ↔
    build = .pcma ∨ nal.length ≠ rtpMtu + 1 := by
  have hlarge' := pieces_large build hlarge
  constructor
  · intro h
    by_contra hshort
    rw [if_neg hshort] at hlarge'
    obtain ⟨hbits, _⟩ := h (fun _ => true) 0 true ⟨videoTrack, []⟩
    have hok : (sendNal build (fun _ => true) 0 nal true ⟨videoTrack, []⟩).1 = true := by
      rw [sendNal, if_neg (Nat.not_le_of_gt hlarge)]
      exact send_fragments_open _ _ _ _ _ _
    have hwell := hbits hok
    rw [(send_nal_emits hlarge).since.2 hok] at hwell
    obtain ⟨between, hbetween⟩ := hwell.bits
    rw [hlarge'] at hbetween
    cases hbetween
  · intro hshort link timestamp lastNal sink
    rw [if_pos hshort] at hlarge'
    have hemits : Emits timestamp sink (sendNal build link timestamp nal lastNal sink)
        (pieces build nal 1) := send_nal_emits hlarge
    obtain ⟨hfirst, hall⟩ := hemits.since
    refine ⟨fun hok => (hall hok).symm ▸ hlarge', ?_⟩
    intro payload hpayload hboth
    obtain ⟨between, hbetween⟩ := hlarge'.bits
    have hmem : (true, true) ∈ (pieces build nal 1).map bits :=
      hboth ▸ List.mem_map_of_mem (hfirst.subset hpayload)
    rw [hbetween] at hmem
    simp at hmem

/-- A unit of 1402 bytes in a build without audio. -/
theorem fragments_well_formed_two :
    (∀ link timestamp lastNal sink,
      ((sendNal .plain link timestamp (List.replicate 1402 0x65) lastNal sink).1 = true →
        WellFragmented (payloadsSince sink
          (sendNal .plain link timestamp (List.replicate 1402 0x65) lastNal sink).2)) ∧
      ∀ payload ∈ payloadsSince sink
          (sendNal .plain link timestamp (List.replicate 1402 0x65) lastNal sink).2,
        bits payload ≠ (true, true)) ↔
    Build.plain = .pcma ∨ (List.replicate 1402 (0x65 : UInt8)).length ≠ rtpMtu + 1 :=
  fragments_well_formed_iff .plain (by rw [List.length_replicate]; decide)

/-- A build without audio sends a unit of one byte more than a packet as one fragment. -/
theorem plain_one_fragment {nal : List UInt8} (hunit : NalUnit nal)
    (hlength : nal.length = rtpMtu + 1) :
    (rtspSendAu .plain (fun _ => true) (joined [(true, nal)]) 0 ⟨videoTrack, []⟩).1 = true ∧
    (payloadsSince ⟨videoTrack, []⟩ (rtspSendAu .plain (fun _ => true) (joined [(true, nal)]) 0
      ⟨videoTrack, []⟩).2).map bits = [(true, true)] := by
  have hlarge : rtpMtu < nal.length := by omega
  have hunits : ∀ part ∈ [(true, nal)], NalUnit part.2 := List.forall_mem_singleton.mpr hunit
  have hsplit : annexbSplit (joined [(true, nal)]) 32 = [nal] :=
    split_joined_from hunits (by decide : 1 ≤ 32) rfl
  have hok : (sendNal .plain (fun _ => true) (timestampOf 0) nal true ⟨videoTrack, []⟩).1 = true := by
    rw [sendNal, if_neg (Nat.not_le_of_gt hlarge)]
    exact send_fragments_open _ _ _ _ _ _
  have hsent : rtspSendAu .plain (fun _ => true) (joined [(true, nal)]) 0 ⟨videoTrack, []⟩ =
      sendNal .plain (fun _ => true) (timestampOf 0) nal true ⟨videoTrack, []⟩ := by
    rw [rtspSendAu, hsplit, sendNals, List.isEmpty_nil]
    generalize sendNal .plain (fun _ => true) (timestampOf 0) nal true ⟨videoTrack, []⟩ = result
      at hok
    obtain ⟨ok, sink⟩ := result
    cases hok
    rfl
  have hbits := pieces_large .plain hlarge
  rw [if_neg (by simp [hlength])] at hbits
  rw [hsent, (send_nal_emits hlarge).since.2 hok]
  exact ⟨hok, hbits⟩

/-- The only fragment of such a unit starts and ends it. -/
theorem one_fragment_sent :
    (rtspSendAu .plain (fun _ => true) (joined [(true, List.replicate (rtpMtu + 1) 0x65)]) 0
      ⟨videoTrack, []⟩).1 = true ∧
    (payloadsSince ⟨videoTrack, []⟩ (rtspSendAu .plain (fun _ => true)
      (joined [(true, List.replicate (rtpMtu + 1) 0x65)]) 0 ⟨videoTrack, []⟩).2).map bits =
        [(true, true)] := by
  have hzero : (0 : UInt8) ∉ List.replicate (rtpMtu + 1) 0x65 := by
    intro hmem
    exact absurd (List.eq_of_mem_replicate hmem) (by decide)
  refine plain_one_fragment ⟨?_, ?_, ?_, ?_⟩ List.length_replicate
  · simp
  · exact fun hlast => hzero (List.mem_of_getLast? hlast)
  · exact fun hwithin => hzero (hwithin.subset List.mem_cons_self)
  · exact fun hwithin => hzero (hwithin.subset List.mem_cons_self)

end NanoKvm.Rtp
