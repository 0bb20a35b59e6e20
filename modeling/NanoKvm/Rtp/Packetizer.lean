import Mathlib.Algebra.Group.Nat.Defs

/-!
# RTP packetization of H.264 access units

`sg2002-h264-bridge.c` from the scan for Annex-B start codes to the bytes it writes to the
RTSP connection. The build with audio sends through `rtsp_send_rtp`, the other writes the
same header in line; they differ in the largest fragment. `Build` names the two.

What the socket does is an argument: `link` says of each `write_all`, counted from the
first, whether it succeeds.
-/

namespace NanoKvm.Rtp

/-- `RTP_MTU` -/
def rtpMtu : Nat := 1400

/-- `RTP_PT`, the payload type of the video. -/
def rtpPt : UInt8 := 96

/-! ## Annex-B -/

/-- A start code of three or four bytes that is followed by a byte, as the outer scan asks. -/
def startCodeAt (buf : List UInt8) (i : Nat) : Bool :=
  buf.getD i 0 == 0 && buf.getD (i + 1) 0 == 0 &&
    ((decide (i + 3 < buf.length) && buf.getD (i + 2) 0 == 1) ||
      (decide (i + 4 ≤ buf.length) && buf.getD (i + 2) 0 == 0 && buf.getD (i + 3) 0 == 1))

/-- A start code that ends a NAL unit. -/
def endsAt (buf : List UInt8) (next : Nat) : Bool :=
  buf.getD next 0 == 0 && buf.getD (next + 1) 0 == 0 &&
    (buf.getD (next + 2) 0 == 1 ||
      (decide (next + 3 < buf.length) && buf.getD (next + 2) 0 == 0 && buf.getD (next + 3) 0 == 1))

/-- The first index from `first` on, with three bytes left, at which the test holds. -/
def scan (buf : List UInt8) (test : List UInt8 → Nat → Bool) (first : Nat) : Option Nat :=
  (List.range' first (buf.length - 2 - first)).find? (test buf)

/-- `annexb_split` from a position on, for at most so many NAL units. -/
def annexbSplitFrom (buf : List UInt8) : Nat → Nat → List (List UInt8)
  | 0, _ => []
  | maxNals + 1, pos =>
      if pos + 4 ≤ buf.length then
        match scan buf startCodeAt pos with
        | none => []
        | some sc =>
            let start := sc + if buf.getD (sc + 2) 0 = 1 then 3 else 4
            let next := (scan buf endsAt start).getD buf.length
            if start ≥ next then []
            else (buf.drop start).take (next - start) :: annexbSplitFrom buf maxNals next
      else []

/-- `annexb_split` -/
def annexbSplit (buf : List UInt8) (maxNals : Nat) : List (List UInt8) :=
  annexbSplitFrom buf maxNals 0

/-! ## Packets -/

/-- `struct rtp_track`; the build without audio keeps the sequence and the source in the sink and
writes the other two as constants. The payload type leaves the marker's bit free. -/
structure Track where
  channel : UInt8
  payloadType : UInt8
  sequence : UInt16
  ssrc : UInt32
  unmarked : payloadType &&& 0x80 = 0
  deriving DecidableEq, Repr

/-- The video track as `rtsp_init` leaves it. -/
def videoTrack : Track where
  channel := 0
  payloadType := rtpPt
  sequence := 0
  ssrc := 0x53324732
  unmarked := by decide

/-- The video track of a sink and everything written to its connection, one item a write. -/
structure Sink where
  track : Track
  written : List (List UInt8)
  deriving DecidableEq, Repr

/-- The twelve bytes of an RTP header. -/
def rtpHeader (track : Track) (timestamp : UInt32) (marker : Bool) : List UInt8 :=
  [0x80,
    track.payloadType ||| (if marker then 0x80 else 0),
    (track.sequence >>> 8).toUInt8, track.sequence.toUInt8,
    (timestamp >>> 24).toUInt8, (timestamp >>> 16).toUInt8, (timestamp >>> 8).toUInt8,
    timestamp.toUInt8,
    (track.ssrc >>> 24).toUInt8, (track.ssrc >>> 16).toUInt8, (track.ssrc >>> 8).toUInt8,
    track.ssrc.toUInt8]

/-- The four bytes before a packet on an interleaved connection. -/
def interleaved (track : Track) (payloadLength : Nat) : List UInt8 :=
  let total : UInt32 := 12 + .ofNat payloadLength
  [0x24, track.channel, (total >>> 8).toUInt8, total.toUInt8]

/-- `write_all` -/
def writeAll (link : Nat → Bool) (bytes : List UInt8) (sink : Sink) : Bool × Sink :=
  if link sink.written.length then (true, { sink with written := sink.written ++ [bytes] })
  else (false, sink)

/-- Write a packet and count it: what both builds do with a payload. -/
def sendPacket (link : Nat → Bool) (payload : List UInt8) (timestamp : UInt32) (marker : Bool)
    (sink : Sink) : Bool × Sink :=
  match writeAll link (interleaved sink.track payload.length) sink with
  | (false, sink) => (false, sink)
  | (true, sink) =>
      match writeAll link (rtpHeader sink.track timestamp marker ++ payload) sink with
      | (false, sink) => (false, sink)
      | (true, sink) =>
          (true, { sink with track := { sink.track with sequence := sink.track.sequence + 1 } })

/-- `rtsp_send_rtp` -/
def rtspSendRtp (link : Nat → Bool) (payload : List UInt8) (timestamp : UInt32) (marker : Bool)
    (sink : Sink) : Bool × Sink :=
  if payload.length > rtpMtu then (false, sink) else sendPacket link payload timestamp marker sink

/-- The two builds: with the audio track or without. -/
inductive Build where
  | pcma | plain
  deriving DecidableEq, Repr

namespace Build

/-- The largest piece of a NAL unit in one fragment. -/
def chunkLimit : Build → Nat
  | .pcma => rtpMtu - 2
  | .plain => rtpMtu

theorem chunk_limit_pos (build : Build) : 0 < build.chunkLimit := by
  cases build <;> decide

/-- How the build sends a payload. -/
def send : Build → (Nat → Bool) → List UInt8 → UInt32 → Bool → Sink → Bool × Sink
  | .pcma => rtspSendRtp
  | .plain => sendPacket

end Build

/-- The FU-A payload for the piece of a NAL unit from an offset on. -/
def fragment (nal : List UInt8) (offset chunk : Nat) : List UInt8 :=
  let fuHeader := nal.headD 0 &&& 0xe0
  let nalType := nal.headD 0 &&& 0x1f
  (fuHeader ||| 28) ::
    ((if offset = 1 then 0x80 else 0) ||| (if offset + chunk ≥ nal.length then 0x40 else 0) |||
      nalType) :: (nal.drop offset).take chunk

/-- The loop over the fragments of a NAL unit. -/
def sendFragments (build : Build) (link : Nat → Bool) (timestamp : UInt32) (nal : List UInt8)
    (lastNal : Bool) (offset : Nat) (sink : Sink) : Bool × Sink :=
  if offset < nal.length then
    let chunk := min (nal.length - offset) build.chunkLimit
    match build.send link (fragment nal offset chunk) timestamp
        (lastNal && decide (offset + chunk ≥ nal.length)) sink with
    | (false, sink) => (false, sink)
    | (true, sink) => sendFragments build link timestamp nal lastNal (offset + chunk) sink
  else (true, sink)
termination_by nal.length - offset
decreasing_by
  have hpos := build.chunk_limit_pos
  omega

/-- One NAL unit: a packet of its own, or fragments. -/
def sendNal (build : Build) (link : Nat → Bool) (timestamp : UInt32) (nal : List UInt8)
    (lastNal : Bool) (sink : Sink) : Bool × Sink :=
  if nal.length ≤ rtpMtu then build.send link nal timestamp lastNal sink
  else sendFragments build link timestamp nal lastNal 1 sink

/-- The loop over the NAL units. -/
def sendNals (build : Build) (link : Nat → Bool) (timestamp : UInt32) :
    List (List UInt8) → Sink → Bool × Sink
  | [], sink => (true, sink)
  | nal :: rest, sink =>
      match sendNal build link timestamp nal rest.isEmpty sink with
      | (false, sink) => (false, sink)
      | (true, sink) => sendNals build link timestamp rest sink

/-- The timestamp of an access unit on the 90 kHz clock. -/
def timestampOf (ptsMs : UInt64) : UInt32 := (ptsMs * 90).toUInt32

/-- `rtsp_send_au` -/
def rtspSendAu (build : Build) (link : Nat → Bool) (buf : List UInt8) (ptsMs : UInt64)
    (sink : Sink) : Bool × Sink :=
  sendNals build link (timestampOf ptsMs) (annexbSplit buf 32) sink

end NanoKvm.Rtp
