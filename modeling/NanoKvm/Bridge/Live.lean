import NanoKvm.Bridge.Cadence
import NanoKvm.Bridge.SetUp

/-!
# The live bridge

The loop of `live_bridge_vpss` of `sg2002-h264-bridge.c` as a flow between the heads of its loops,
the RTSP connection that it keeps, and what it does at `out`. `LiveRun` is a run of the function
from its start to its return.
-/

namespace NanoKvm.Bridge

open Exec

/-! ## The RTSP connection -/

/-- `RTSP_RECONNECT_MS` -/
def rtspReconnectMs : UInt64 := 2000

/-- A change of the sink. -/
def changeSink (change : RtspSink → RtspSink) : Bridging Unit :=
  Attempt.modify fun live => { live with rtsp := change live.rtsp }

/-- The socket is closed if there is one. -/
def closeSocket : Option Nat → Bridging Unit
  | some fd => call (.close fd)
  | none => pure ()

/-- `rtsp_close` -/
def rtspClose : Bridging Unit := do
  let live ← Attempt.get
  closeSocket live.rtsp.fd
  let now ← call .nowMs
  changeSink fun sink => { sink with fd := none, nextRetryMs := now + rtspReconnectMs }

/-- The loop of `rtsp_connect` over the addresses. -/
def connectAddress : Nat → Bridging Unit
  | 0 => pure ()
  | addresses + 1 => do
      match ← call .socket with
      | none => connectAddress addresses
      | some fd =>
          changeSink fun sink => { sink with fd := some fd }
          if ← call (.connect fd) then pure ()
          else
            call (.close fd)
            changeSink fun sink => { sink with fd := none }
            connectAddress addresses

/-- The requests of `rtsp_connect`, as long as they go through. -/
def rtspRequests : List String → Bridging Bool
  | [] => pure true
  | method :: rest => do
      if ← call (.rtspRequest method) then rtspRequests rest else pure false

/-- The requests that publish the stream; with audio the description may not fit first. -/
def publishing (opts : BridgeOptions) : List String :=
  match opts.build with
  | .pcma =>
      if opts.audioDevice.isSome then
        ["rtsp_make_sdp", "ANNOUNCE", "SETUP trackID=0", "SETUP trackID=1", "RECORD"]
      else ["rtsp_make_sdp", "ANNOUNCE", "SETUP trackID=0", "RECORD"]
  | .plain => ["ANNOUNCE", "SETUP track1", "RECORD"]

/-- `rtsp_connect` -/
def rtspConnect (opts : BridgeOptions) : Bridging Bool := do
  let live ← Attempt.get
  if ¬ live.rtsp.haveParams then pure false
  else
    match ← call .getaddrinfo with
    | none => pure false
    | some addresses =>
        connectAddress addresses
        let live ← Attempt.get
        if live.rtsp.fd.isNone then pure false
        else if ← rtspRequests (publishing opts) then pure true
        else
          rtspClose
          pure false

/-- The parameter sets of an access unit. -/
def learn (payload : List UInt8) (sink : RtspSink) : RtspSink :=
  let sink := (Rtp.annexbSplit payload 32).foldl (fun sink nal =>
    let type := nal.headD 0 &&& 0x1f
    if type = 7 ∧ nal.length ≤ 256 then { sink with sps := nal }
    else if type = 8 ∧ nal.length ≤ 256 then { sink with pps := nal }
    else sink) sink
  { sink with haveParams := sink.sps ≠ [] ∧ sink.pps ≠ [] }

/-- `rtsp_send_au`, and the connection is closed if that fails. -/
def sendAu (payload : List UInt8) (ptsMs : UInt64) : Bridging Unit := do
  if ← call (.rtspSendAu payload ptsMs) then pure () else rtspClose

/-- `rtsp_offer_buffer` -/
def rtspOfferBuffer (opts : BridgeOptions) (payload : List UInt8) (ptsMs : UInt64) :
    Bridging Unit := do
  changeSink fun sink => if sink.haveParams then sink else learn payload sink
  let live ← Attempt.get
  if live.rtsp.fd.isSome then sendAu payload ptsMs
  else if ¬ live.rtsp.haveParams then pure ()
  else
    let now ← call .nowMs
    if now < live.rtsp.nextRetryMs then pure ()
    else if ← rtspConnect opts then sendAu payload ptsMs
    else
      let now ← call .nowMs
      changeSink fun sink => { sink with nextRetryMs := now + rtspReconnectMs }

/-- `rtsp_offer` -/
def rtspOffer (opts : BridgeOptions) (payload : List UInt8) (ptsMs : UInt64) : Bridging Unit := do
  if ← call (.malloc payload.length) then rtspOfferBuffer opts payload ptsMs
  else rtspClose

/-- `audio_drain`, when a card is open; the packets are not followed here. -/
def audioDrain : Bridging Unit := do
  let live ← Attempt.get
  if live.audioPcm then
    if live.rtsp.fd.isNone then
      if ← call .audioDiscard then gotoOut else pure ()
    else
      match ← call .audioDrain with
      | .done => pure ()
      | .failed => gotoOut
      | .unsent =>
          rtspClose
          if ← call .audioDiscard then gotoOut else pure ()
  else pure ()

/-! ### What the connection leaves alone -/

/-- The calls of the connection. -/
def Connecting : Call → Prop
  | .getaddrinfo | .socket | .connect _ | .close _ | .rtspRequest _ | .rtspSendAu _ _ | .nowMs => True
  | _ => False

/-- The view does not show whether there is a connection. -/
def Blind {V : Type} (view : Live → V) : Prop :=
  ∀ live fd nextRetryMs, view { live with rtsp := { live.rtsp with fd, nextRetryMs } } = view live

section

variable {V : Type} {view : Live → V} {opts : BridgeOptions}

theorem steady_close_socket {fd : Option Nat} : (closeSocket fd).Steady view Connecting := by
  cases fd with
  | none => exact Attempt.steady_pure
  | some fd => exact Attempt.steady_perform trivial

theorem steady_rtsp_close (hview : Blind view) : rtspClose.Steady view Connecting := by
  refine Attempt.steady_bind Attempt.steady_get fun live => ?_
  refine Attempt.steady_bind steady_close_socket fun _ => ?_
  exact Attempt.steady_bind (Attempt.steady_perform trivial) fun _ =>
    Attempt.steady_modify fun live => hview live _ _

theorem steady_connect_address (hview : Blind view) (addresses : Nat) :
    (connectAddress addresses).Steady view Connecting := by
  induction addresses with
  | zero => exact Attempt.steady_pure
  | succ addresses ih =>
      refine Attempt.steady_bind (Attempt.steady_perform trivial) fun socket => ?_
      cases socket with
      | none => exact ih
      | some fd =>
          refine Attempt.steady_bind (Attempt.steady_modify fun live => hview live _ _) fun _ => ?_
          refine Attempt.steady_bind (Attempt.steady_perform trivial) fun done => ?_
          split
          · exact Attempt.steady_pure
          · refine Attempt.steady_bind (Attempt.steady_perform trivial) fun _ => ?_
            exact Attempt.steady_bind (Attempt.steady_modify fun live => hview live _ _) fun _ => ih

theorem steady_rtsp_requests (methods : List String) :
    (rtspRequests methods).Steady view Connecting := by
  induction methods with
  | nil => exact Attempt.steady_pure
  | cons method rest ih =>
      refine Attempt.steady_bind (Attempt.steady_perform trivial) fun accepted => ?_
      split
      · exact ih
      · exact Attempt.steady_pure

theorem steady_rtsp_connect (hview : Blind view) : (rtspConnect opts).Steady view Connecting := by
  refine Attempt.steady_bind Attempt.steady_get fun live => ?_
  split
  · exact Attempt.steady_pure
  refine Attempt.steady_bind (Attempt.steady_perform trivial) fun found => ?_
  cases found with
  | none => exact Attempt.steady_pure
  | some addresses =>
      refine Attempt.steady_bind (steady_connect_address hview addresses) fun _ => ?_
      refine Attempt.steady_bind Attempt.steady_get fun live => ?_
      split
      · exact Attempt.steady_pure
      · refine Attempt.steady_bind (steady_rtsp_requests _) fun published => ?_
        split
        · exact Attempt.steady_pure
        · exact Attempt.steady_bind (steady_rtsp_close hview) fun _ => Attempt.steady_pure

theorem steady_send_au (hview : Blind view) {payload : List UInt8} {ptsMs : UInt64} :
    (sendAu payload ptsMs).Steady view Connecting := by
  refine Attempt.steady_bind (Attempt.steady_perform trivial) fun sent => ?_
  split
  · exact Attempt.steady_pure
  · exact steady_rtsp_close hview

/-- The offer of an access unit, to a view that does not show the parameter sets. -/
theorem steady_offer_buffer (hview : Blind view) {payload : List UInt8} {ptsMs : UInt64}
    (hlearn : ∀ live, view { live with
      rtsp := if live.rtsp.haveParams then live.rtsp else learn payload live.rtsp } = view live) :
    (rtspOfferBuffer opts payload ptsMs).Steady view Connecting := by
  refine Attempt.steady_bind (Attempt.steady_modify hlearn) fun _ => ?_
  refine Attempt.steady_bind Attempt.steady_get fun live => ?_
  split
  · exact steady_send_au hview
  split
  · exact Attempt.steady_pure
  refine Attempt.steady_bind (Attempt.steady_perform trivial) fun now => ?_
  split
  · exact Attempt.steady_pure
  refine Attempt.steady_bind (steady_rtsp_connect hview) fun connected => ?_
  split
  · exact steady_send_au hview
  · exact Attempt.steady_bind (Attempt.steady_perform trivial) fun _ =>
      Attempt.steady_modify fun live => hview live _ _

end

/-! ## The loop -/

/-- The heads of the loops. The flag is `progress`. -/
inductive LivePoint where
  | top
  | encoded (progress : Bool)
  | encoderOutput (progress : Bool)
  | scalerCapture (progress : Bool)
  | scalerOutput (progress : Bool)
  | feed (progress : Bool)
  | stopped
deriving DecidableEq

/-- `stop_requested`, which a signal can set at any time. -/
def stopRequested : Bridging Bool := do
  let live ← Attempt.get
  if live.stopRequested then pure true else call .stopRequested

/-- `live_encoded_frames` -/
def liveEncodedFrames (encodedFrames : UInt64) : UInt64 :=
  if encodedFrames = 0 then 0 else encodedFrames - 1

/-- `live_frame_limit_reached` -/
def liveFrameLimitReached (limit : UInt32) (encodedFrames : UInt64) : Bool :=
  limit ≠ 0 ∧ limit.toUInt64 ≤ liveEncodedFrames encodedFrames

/-- `report_live_frames` -/
def reportLiveFrames (limit : UInt32) (encodedFrames : UInt64) : Int :=
  if limit ≠ 0 ∧ ¬ liveFrameLimitReached limit encodedFrames then -1 else 0

section

variable (opts : BridgeOptions) (formats : Formats)

/-- The head of the main loop. -/
def loopTop : Bridging LivePoint := do
  if ← stopRequested then pure .stopped
  else
    audioDrain
    pure (.encoded false)

/-- Where the loop over the encoded pictures goes on. -/
def afterEncoded (progress : Bool) : Bridging LivePoint := do
  if ← stopRequested then pure .stopped else pure (.encoderOutput progress)

/-- The time of a picture, or of its arrival. -/
def ptsOf (buffer : Buffer) : Bridging UInt64 :=
  let ptsMs := buffer.tvSec * 1000 + buffer.tvUsec / 1000
  if ptsMs = 0 then call .nowMs else pure ptsMs

/-- The picture goes to the output. -/
def writeOutput (payload : List UInt8) : Bridging Unit := do
  let live ← Attempt.get
  match live.outputFd with
  | none => pure ()
  | some fd => needTrue importStep (← call (.write fd payload))

/-- The picture goes to the RTSP server. -/
def offer (payload : List UInt8) (ptsMs : UInt64) : Bridging Unit :=
  if opts.rtspUrl.isSome then rtspOffer opts payload ptsMs else pure ()

/-- The picture is counted, and its buffer is queued again unless it was the last one. -/
def countFrame (index : UInt32) : Bridging LivePoint := do
  Attempt.modify fun live => { live with encodedFrames := live.encodedFrames + 1 }
  let live ← Attempt.get
  if liveFrameLimitReached opts.frameLimit live.encodedFrames then
    Attempt.modify fun live => { live with stopRequested := true }
    afterEncoded true
  else
    needTrue importStep (← queueBuffer .encoder .capture index 0)
    pure (.encoded true)

/-- An encoded picture goes to the sinks. -/
def forward (buffer : Buffer) : Bridging LivePoint := do
  let live ← Attempt.get
  if live.encoderCap.count ≤ buffer.index ∨
      (live.encoderCap.entry buffer.index).length < buffer.bytesused.toNat ∨
      buffer.flagError ∨ buffer.bytesused = 0 then
    reportOut "encoder returned an invalid capture buffer"
  else
    let ptsMs ← ptsOf buffer
    writeOutput buffer.payload
    offer opts buffer.payload ptsMs
    countFrame opts buffer.index

/-- The loop over the encoded pictures. -/
def drainEncoded (progress : Bool) : Bridging LivePoint := do
  match ← call (.dqbuf .encoder .capture .mmap) with
  | .again => afterEncoded progress
  | .error => gotoOutErrno importStep
  | .buffer buffer => forward opts buffer

/-- The state of a middle buffer, which is within the array. -/
def Live.midStateAt (live : Live) (index : UInt32) : MidState :=
  (live.midState[index.toNat]?).getD .free

/-- The state of a middle buffer is stored. -/
def Live.setMid (index : UInt32) (state : MidState) (live : Live) : Live :=
  { live with midState := live.midState.set index.toNat state }

/-- The encoder is done with a middle buffer. -/
def drainEncoderOutput (progress : Bool) : Bridging LivePoint := do
  match ← call (.dqbuf .encoder .output .dmabuf) with
  | .again => pure (.scalerCapture progress)
  | .error => gotoOutErrno importStep
  | .buffer buffer => do
      let live ← Attempt.get
      if live.mid.count ≤ buffer.index ∨ live.midStateAt buffer.index ≠ .atEncoder then
        reportOut "encoder returned an unexpected output buffer"
      else
        Attempt.modify (Live.setMid buffer.index .free)
        Attempt.modify fun live => { live with freeMid := live.freeMid + 1 }
        pure (.encoderOutput true)

/-- The scaler has filled a middle buffer. -/
def drainScalerCapture (progress : Bool) : Bridging LivePoint := do
  match ← call (.dqbuf .scaler .capture .dmabuf) with
  | .again => pure (.scalerOutput progress)
  | .error => gotoOutErrno importStep
  | .buffer buffer => do
      let live ← Attempt.get
      if live.mid.count ≤ buffer.index ∨ live.midStateAt buffer.index ≠ .atVpss then
        reportOut "scaler returned an unexpected capture buffer"
      else
        needTrue importStep (← queueDmabuf .encoder .output buffer.index
          (live.mid.entry buffer.index).dmabufFd formats.encoderOut.sizeimage)
        Attempt.modify (Live.setMid buffer.index .atEncoder)
        pure (.scalerCapture true)

/-- The scaler is done with a capture buffer. -/
def drainScalerOutput (progress : Bool) : Bridging LivePoint := do
  match ← call (.dqbuf .scaler .output .dmabuf) with
  | .again => pure (.feed progress)
  | .error => gotoOutErrno importStep
  | .buffer buffer => do
      let live ← Attempt.get
      if live.captureQueue.count ≤ buffer.index then
        reportOut "scaler returned an invalid output buffer"
      else
        needTrue importStep (← queueBuffer .capture .capture buffer.index 0)
        pure (.scalerOutput true)

/-- A captured frame is held, unless one is already. -/
def hold : Bridging Unit := do
  let live ← Attempt.get
  if live.heldCapture = uint32Max then
    match ← call (.dqbuf .capture .capture .mmap) with
    | .again => pure ()
    | .error => gotoOutErrno importStep
    | .buffer buffer => Attempt.modify fun live => { live with heldCapture := buffer.index }
  else pure ()

/-- `frame_interval_ns` -/
def frameIntervalNs : UInt64 :=
  if opts.maxFps = 0 then 0 else 1000000000 / opts.maxFps.toUInt64

/-- Whether the held frame is due. -/
def due : Bridging Bool := do
  if frameIntervalNs opts = 0 then pure true
  else
    let now ← call .nowNs
    let live ← Attempt.get
    let (due, next) := frameDue now (frameIntervalNs opts) live.nextFrameNs
    Attempt.modify fun live => { live with nextFrameNs := next }
    pure due

/-- The held frame goes back to the capture queue. -/
def skip (held : UInt32) : Bridging LivePoint := do
  needTrue importStep (← queueBuffer .capture .capture held 0)
  Attempt.modify fun live =>
    { live with heldCapture := uint32Max, skippedFrames := live.skippedFrames + 1 }
  pure .top

/-- The held frame goes to the scaler with a free middle buffer. -/
def scale (held : UInt32) : Bridging Unit := do
  let live ← Attempt.get
  let midIndex := live.midState.idxOf .free
  if midIndex = live.mid.count.toNat then reportOut "no usable free middle buffer"
  else
    needTrue importStep (← queueDmabuf .scaler .output held
      ((live.capFds.getD [])[held.toNat]?) formats.capture.sizeimage)
    needTrue importStep (← queueDmabuf .scaler .capture (.ofNat midIndex)
      (live.mid.entry (.ofNat midIndex)).dmabufFd 0)
    Attempt.modify (Live.setMid (.ofNat midIndex) .atVpss)
    Attempt.modify fun live =>
      { live with freeMid := live.freeMid - 1, heldCapture := uint32Max }

/-- The end of a turn: it waits if nothing happened. -/
def endTurn (progress : Bool) : Bridging LivePoint := do
  if progress then pure .top
  else
    needTrue importStep (← call .poll)
    pure .top

/-- The rest of a turn of the main loop. -/
def feed (progress : Bool) : Bridging LivePoint := do
  hold
  let live ← Attempt.get
  if live.heldCapture ≠ uint32Max ∧ live.freeMid ≠ 0 then
    if ← due opts then
      scale formats live.heldCapture
      endTurn true
    else skip live.heldCapture
  else endTurn progress

/-- The loop. -/
def liveLoop : Flow LivePoint Live Call Call.Ret
  | .top => loopTop
  | .encoded progress => drainEncoded opts progress
  | .encoderOutput progress => drainEncoderOutput progress
  | .scalerCapture progress => drainScalerCapture formats progress
  | .scalerOutput progress => drainScalerOutput progress
  | .feed progress => feed opts formats progress
  | .stopped => gotoOut

end

/-! ## The end -/

/-- A part of the end. -/
abbrev Ending (α : Type) : Type := Prog Call Call.Ret α

/-- A stream that is on is turned off. -/
def streamOff (on : Bool) (device : Device) (type : BufType) : Ending Unit :=
  if on then do
    let _ ← Prog.perform (.stream device type false)
    pure ()
  else pure ()

/-- A descriptor that is open is closed. -/
def closeFd : Option Nat → Ending Unit
  | none => pure ()
  | some fd => Prog.perform (Call.close fd)

/-- A mapping that there is is unmapped. -/
def unmap (buf : MappedBuf) : Ending Unit :=
  match buf.addr with
  | some address =>
      if buf.length = 0 then pure () else Prog.perform (Call.munmap address buf.length)
  | none => pure ()

/-- One entry of `unmap_queue`. -/
def unmapBuffer (buf : MappedBuf) : Ending Unit := do
  unmap buf
  closeFd buf.dmabufFd

/-- The program for every entry, in order. -/
def forAll {α : Type} (body : α → Ending Unit) : List α → Ending Unit
  | [] => pure ()
  | entry :: rest => do
      body entry
      forAll body rest

/-- `unmap_queue`, with the queue after it. -/
def unmapQueue (queue : MappedQueue) : Ending MappedQueue :=
  match queue.bufs with
  | none => pure queue
  | some bufs => do
      forAll unmapBuffer (bufs.take queue.count.toNat)
      pure .zero

/-- The exported capture buffers, as many as the queue has now. -/
def closeExported (capFds : Option (List Nat)) (captureQueue : MappedQueue) : Ending Unit :=
  match capFds with
  | none => pure ()
  | some capFds =>
      forAll (fun fd => closeFd (if 0 < fd then some fd else none))
        (capFds.take captureQueue.count.toNat)

/-- The streams that are on are turned off. -/
def streamsOff (live : Live) : Ending Unit := do
  streamOff live.scalerOutOn .scaler .output
  streamOff live.scalerCapOn .scaler .capture
  streamOff live.captureOn .capture .capture
  streamOff live.encoderOutOn .encoder .output
  streamOff live.encoderCapOn .encoder .capture

/-- The queues are unmapped and their descriptors closed. -/
def releaseQueues (live : Live) : Ending Unit := do
  let _ ← unmapQueue live.encoderCap
  let _ ← unmapQueue live.mid
  let captureQueue ← unmapQueue live.captureQueue
  closeExported live.capFds captureQueue

/-- The connection, the heap, the nodes and the output are closed. -/
def closeAll (live : Live) : Ending Unit := do
  Prog.perform Call.audioClose
  closeFd live.rtsp.fd
  let _ ← Prog.perform .nowMs
  closeFd live.heapFd
  closeFd live.scalerFd
  closeFd live.encoderFd
  closeFd live.captureFd
  closeFd (live.outputFd.filter (· ≠ stdoutFileno))

/-- `out` -/
def out (live : Live) : Ending Unit := do
  streamsOff live
  releaseQueues live
  closeAll live

/-- What the function returns when it leaves the loop. -/
def finish (opts : BridgeOptions) : Bridging Int := do
  let live ← Attempt.get
  let ret := reportLiveFrames opts.frameLimit live.encodedFrames
  if ret = 0 then pure ret
  else
    call (.dieStep "bounded capture completion")
    pure ret

/-- The function is on its way to `out`, with what it will return. -/
inductive Leaving (opts : BridgeOptions) : List (Event Call Call.Ret) → Int → Live → Prop where
  | setUp {events : List (Event Call Call.Ret)} {live : Live}
      (h : (setUp opts .start).Trace events (none, live)) : Leaving opts events (-1) live
  | streaming {first second third : List (Event Call Call.Ret)} {formats : Formats}
      {ready live last : Live} {point : LivePoint}
      (hready : (Bridge.setUp opts .start).Trace first (some formats, ready))
      (hreach : (liveLoop opts formats).Reaches .top ready second point live)
      (hpoint : point ≠ .stopped)
      (hleave : (liveLoop opts formats point live).Trace third (none, last)) :
      Leaving opts (first ++ second ++ third) (-1) last
  | stopped {first second third : List (Event Call Call.Ret)} {formats : Formats}
      {ready live last : Live} {ret : Int}
      (hready : (Bridge.setUp opts .start).Trace first (some formats, ready))
      (hreach : (liveLoop opts formats).Reaches .top ready second .stopped live)
      (hfinish : (finish opts live).Trace third (some ret, last)) :
      Leaving opts (first ++ second ++ third) ret last

/-- `live_bridge_vpss`: a run and what it returns. -/
inductive LiveRun (opts : BridgeOptions) : List (Event Call Call.Ret) → Int → Prop where
  | badUrl {url : String} (hurl : opts.rtspUrl = some url) :
      LiveRun opts [⟨.parseUrl url, false⟩] (-1)
  | left {start events last : List (Event Call Call.Ret)} {ret : Int} {live : Live}
      (hstart : start = opts.rtspUrl.toList.map fun url => ⟨.parseUrl url, true⟩)
      (hleave : Leaving opts events ret live) (hout : (out live).Trace last ()) :
      LiveRun opts (start ++ events ++ last) ret

end NanoKvm.Bridge
