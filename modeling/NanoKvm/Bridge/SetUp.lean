import NanoKvm.Bridge.Calls

/-!
# Setting the live bridge up

`live_bridge_vpss` of `sg2002-h264-bridge.c` up to its loop, in the order of the source.
-/

namespace NanoKvm.Bridge

open Exec

/-- `STDOUT_FILENO` -/
def stdoutFileno : Nat := 1

/-- `DMA_HEAP_CMA` -/
def dmaHeapCma : String := "/dev/dma_heap/default_cma_region"

/-- `DMA_HEAP_RESERVED` -/
def dmaHeapReserved : String := "/dev/dma_heap/reserved"

/-- `ENCODER_CAP_BUFFERS` -/
def encoderCapBuffers : UInt32 := 3

/-! ## The device nodes -/

/-- One of the three device nodes. -/
def openNode (path : String) (store : Nat → Live → Live) : Bridging Unit := do
  match ← call (.openDevice path) with
  | some fd => Attempt.modify (store fd)
  | none => reportOut path

/-- The output file, or standard output. -/
def openOutput (outputPath : Option String) : Bridging Unit :=
  match outputPath with
  | none => pure ()
  | some path => do
      if path = "-" then
        Attempt.modify fun live => { live with outputFd := some stdoutFileno }
      else
        match ← call (.openOutput path) with
        | some fd => Attempt.modify fun live => { live with outputFd := some fd }
        | none => reportOut path

/-- The descriptors of the nodes and of the output. -/
def openAll (opts : BridgeOptions) : Bridging Unit := do
  openNode opts.capturePath fun fd live => { live with captureFd := some fd }
  openNode opts.encoderPath fun fd live => { live with encoderFd := some fd }
  openNode opts.scalerPath fun fd live => { live with scalerFd := some fd }
  openOutput opts.outputPath

/-! ## The formats -/

/-- `set_video_format` -/
def setVideoFormat (device : Device) (type : BufType) (pixelFormat width height : UInt32)
    (color : Option PixFormat) : Bridging (Option PixFormat) :=
  let colors := color.getD {}
  call (.setFormat device type
    { width
      height
      pixelformat := pixelFormat
      field := fieldNone
      priv := privMagic
      colorspace := colors.colorspace
      xferFunc := colors.xferFunc
      ycbcrEnc := colors.ycbcrEnc
      quantization := colors.quantization
      sizeimage := if pixelFormat = fmtH264 then 1024 * 1024 else 0 })

/-- `set_encoder_controls` -/
def setEncoderControls (bitrate gop : UInt32) : Bridging Bool :=
  if bitrate = 0 ∧ gop = 0 then pure true else call (.setControls bitrate gop)

/-- The formats that the later steps use. -/
structure Formats where
  capture : PixFormat
  encoderOut : PixFormat

/-- The capture format, as NV21 from the ISP if that is asked for. -/
def captureFormat (opts : BridgeOptions) : Bridging PixFormat := do
  let format ← need "capture G_FMT" (← call (.getFormat .capture .capture))
  if opts.useIsp then
    let format ← need "capture ISP NV21 S_FMT"
      (← setVideoFormat .capture .capture fmtNv21 format.width format.height none)
    if format.pixelformat ≠ fmtNv21 then
      reportOut "capture driver did not accept hardware ISP NV21"
    else pure format
  else pure format

/-- The capture format is one that the scaler takes, with a valid stride. -/
def validCapture (format : PixFormat) : Bool :=
  (format.pixelformat = fmtUyvy ∨ format.pixelformat = fmtNv21 ∨ format.pixelformat = fmtNv12) ∧
    4 ≤ format.width ∧ 2 ≤ format.height ∧
    format.width * (if format.pixelformat = fmtUyvy then 2 else 1) ≤ format.bytesperline

/-- How much smaller the visible image is than the captured one. -/
def scaleOf (opts : BridgeOptions) : UInt32 :=
  if opts.halfScale then 2 else if opts.useIsp then 4 else 1

/-- The encoder's formats for a visible image: its padded output format is the one of the middle
buffers. -/
def encoderFormat (opts : BridgeOptions) (capture : PixFormat) (width height : UInt32) :
    Bridging PixFormat := do
  let codedHeight := (height + 15) &&& ~~~15
  let _ ← need "encoder OUTPUT S_FMT"
    (← setVideoFormat .encoder .output fmtNv12 width codedHeight (some capture))
  needTrue "encoder OUTPUT crop" (← call (.setCrop .encoder .output width height))
  let encoderOut ← need "encoder OUTPUT G_FMT" (← call (.getFormat .encoder .output))
  let encoderCap ← need "encoder CAPTURE S_FMT"
    (← setVideoFormat .encoder .capture fmtH264 width height (some capture))
  if encoderCap.pixelformat ≠ fmtH264 then gotoOut
  else
    -- the firmware's defaults do as well
    let _ ← setEncoderControls opts.bitrate opts.gop
    pure encoderOut

/-- The scaler's formats: the capture frame in, the encoder's surface out. -/
def scalerFormats (capture encoderOut : PixFormat) (width height : UInt32) : Bridging Unit := do
  let scalerIn ← need "scaler OUTPUT S_FMT"
    (← setVideoFormat .scaler .output capture.pixelformat capture.width capture.height
      (some capture))
  if scalerIn.bytesperline ≠ capture.bytesperline then
    reportOut "capture stride unsupported by scaler"
  else
    let scalerOut ← need "scaler CAPTURE S_FMT"
      (← setVideoFormat .scaler .capture fmtNv12 encoderOut.width encoderOut.height
        (some capture))
    if scalerOut.bytesperline ≠ encoderOut.bytesperline ∨
        encoderOut.sizeimage < scalerOut.sizeimage then
      reportOut "scaler/encoder surface mismatch"
    else
      needTrue "scaler CAPTURE crop" (← call (.setCrop .scaler .capture width height))

/-- All formats. -/
def negotiate (opts : BridgeOptions) : Bridging Formats := do
  let capture ← captureFormat opts
  if ¬ validCapture capture then
    reportOut "capture must provide UYVY/NV12/NV21 with a valid stride"
  else
    let scale := scaleOf opts
    if capture.width % (scale * 2) ≠ 0 ∨ capture.height % (scale * 2) ≠ 0 then
      reportOut "capture geometry cannot produce aligned YUV420"
    else
      let width := capture.width / scale
      let height := capture.height / scale
      let encoderOut ← encoderFormat opts capture width height
      scalerFormats capture encoderOut width height
      pure ⟨capture, encoderOut⟩

/-! ## The buffers -/

/-- The queues of the function. -/
inductive QueueOf where
  | captureQueue
  | mid
  | encoderCap
deriving DecidableEq

/-- The queue. -/
def Live.queue (live : Live) : QueueOf → MappedQueue
  | .captureQueue => live.captureQueue
  | .mid => live.mid
  | .encoderCap => live.encoderCap

/-- A change of the queue. -/
def Live.onQueue (queue : QueueOf) (change : MappedQueue → MappedQueue) (live : Live) : Live :=
  match queue with
  | .captureQueue => { live with captureQueue := change live.captureQueue }
  | .mid => { live with mid := change live.mid }
  | .encoderCap => { live with encoderCap := change live.encoderCap }

/-- A change of a queue. -/
def changeQueue (queue : QueueOf) (change : MappedQueue → MappedQueue) : Bridging Unit :=
  Attempt.modify (Live.onQueue queue change)

/-- `queue_buffer` -/
def queueBuffer (device : Device) (type : BufType) (index bytesused : UInt32) : Bridging Bool :=
  call (.qbuf device type .mmap index bytesused none)

/-- `queue_dmabuf` -/
def queueDmabuf (device : Device) (type : BufType) (index : UInt32) (fd : Option Nat)
    (bytesused : UInt32) : Bridging Bool :=
  call (.qbuf device type .dmabuf index bytesused fd)

/-- An entry gets its length and descriptor, and then its mapping. -/
def storeEntry (initStep : String) (queue : QueueOf) (i length : Nat) (dmabufFd : Option Nat)
    (what : MapOf) : Bridging Unit := do
  changeQueue queue (.put i ⟨none, length, dmabufFd⟩)
  let address ← need initStep (← call (.mmap what length))
  changeQueue queue (.put i ⟨some address, length, dmabufFd⟩)

/-- One turn of the loop of `map_queue`. -/
def mapBuffer (initStep : String) (device : Device) (type : BufType) (queue : QueueOf)
    (i : Nat) : Bridging Unit := do
  let (length, offset) ← need initStep (← call (.querybuf device type (.ofNat i)))
  storeEntry initStep queue i length.toNat none (.device device offset)

/-- `map_queue`, whose callers all leave when it fails. -/
def mapQueue (initStep : String) (device : Device) (type : BufType) (requested : UInt32)
    (queue : QueueOf) : Bridging Unit := do
  let count ← need initStep (← call (.reqbufs device type .mmap requested))
  if count < 1 then gotoOutErrno initStep
  else
    needTrue initStep (← call (.calloc .mappedBufs count))
    changeQueue queue fun _ => ⟨some (.replicate count.toNat .cleared), count⟩
    Attempt.forEach (mapBuffer initStep device type queue) count.toNat

/-- The heap, or the reserved one if the default one cannot be opened. -/
def openHeap (reserved : Bool) : Bridging Unit := do
  let path := if reserved then dmaHeapReserved else dmaHeapCma
  match ← call (.openHeap path) with
  | some fd => Attempt.modify fun live => { live with heapFd := some fd }
  | none =>
      if reserved then gotoOutErrno ("open " ++ path)
      else
        let fd ← need ("open " ++ dmaHeapReserved) (← call (.openHeap dmaHeapReserved))
        Attempt.modify fun live => { live with heapFd := some fd }

/-- One turn of the loop over the middle buffers. -/
def allocateBuffer (sizeimage : UInt32) (i : Nat) : Bridging Unit := do
  let fd ← need "middle buffer allocation" (← call (.heapAlloc sizeimage))
  storeEntry "middle buffer allocation" .mid i sizeimage.toNat (some fd) (.dmabuf fd)

/-- The middle buffers, for the scaler's `CAPTURE` queue and the encoder's `OUTPUT` queue. -/
def allocateMiddle (midBuffers sizeimage : UInt32) : Bridging Unit := do
  let count ← need "middle buffer allocation"
    (← call (.reqbufs .scaler .capture .dmabuf midBuffers))
  if count = 0 then gotoOutErrno "middle buffer allocation"
  else
    changeQueue .mid fun queue => { queue with count }
    let granted ← need "middle buffer allocation"
      (← call (.reqbufs .encoder .output .dmabuf count))
    if granted < count then gotoOutErrno "middle buffer allocation"
    else
      needTrue "middle buffer allocation" (← call (.calloc .mappedBufs count))
      changeQueue .mid fun queue =>
        { queue with bufs := some (.replicate count.toNat .cleared) }
      Attempt.forEach (allocateBuffer sizeimage) count.toNat
      needTrue "middle buffer allocation" (← call (.calloc .midState count))
      Attempt.modify fun live => { live with midState := .replicate count.toNat .free }

/-- All buffers of an MMAP queue are queued. -/
def queueAll (initStep : String) (device : Device) (count : UInt32) : Bridging Unit :=
  Attempt.forEach (fun i => do
    needTrue initStep (← queueBuffer device .capture (.ofNat i) 0)) count.toNat

/-- The encoder's `CAPTURE` queue. -/
def encoderBuffers : Bridging Unit := do
  mapQueue "encoder CAPTURE buffers" .encoder .capture encoderCapBuffers .encoderCap
  let live ← Attempt.get
  queueAll "encoder CAPTURE buffers" .encoder live.encoderCap.count

/-- The first middle buffer goes to the encoder as a grey picture. -/
def prime (encoderOut : PixFormat) : Bridging Unit := do
  let live ← Attempt.get
  let first := live.mid.entry 0
  let lumaSize := encoderOut.bytesperline.toUInt64 * encoderOut.height.toUInt64
  let frameSize := lumaSize * 3 / 2
  if uint32Max.toUInt64 < frameSize ∨ first.length < frameSize.toNat then gotoOut
  else
    needTrue "encoder priming" (← call (.sync first.dmabufFd))
    needTrue "encoder priming"
      (← queueDmabuf .encoder .output 0 first.dmabufFd frameSize.toUInt32)
    Attempt.modify fun live =>
      { live with
        midState := live.midState.set 0 .atEncoder
        freeMid := live.mid.count - 1 }

/-- The encoder starts. -/
def startEncoder : Bridging Unit := do
  needTrue "encoder STREAMON" (← call (.stream .encoder .capture true))
  Attempt.modify fun live => { live with encoderCapOn := true }
  needTrue "encoder STREAMON" (← call (.stream .encoder .output true))
  Attempt.modify fun live => { live with encoderOutOn := true }

/-- What the step is called from the first exported buffer on. -/
def exportStep : String := "capture EXPBUF (scaler must not be pool-bound)"

/-- One turn of the loop that exports the capture buffers. -/
def exportBuffer (i : Nat) : Bridging Unit := do
  let fd ← need exportStep (← call (.expbuf (.ofNat i)))
  Attempt.modify fun live => { live with capFds := live.capFds.map (·.set i fd) }

/-- The capture buffers, exported for the scaler's `OUTPUT` queue. -/
def captureBuffers (requested : UInt32) : Bridging Unit := do
  mapQueue "capture buffers" .capture .capture requested .captureQueue
  let live ← Attempt.get
  let count := live.captureQueue.count
  needTrue "capture buffers" (← call (.calloc .capFds count))
  Attempt.modify fun live => { live with capFds := some (.replicate count.toNat 0) }
  Attempt.forEach exportBuffer count.toNat
  queueAll exportStep .capture count

/-- The capture device starts. -/
def startCapture : Bridging Unit := do
  needTrue "capture STREAMON" (← call (.stream .capture .capture true))
  Attempt.modify fun live => { live with captureOn := true }

/-- The audio source, if there is one. -/
def startAudio (audioDevice : Option String) : Bridging Unit :=
  match audioDevice with
  | none => pure ()
  | some device => do
      if ← call (.audioOpen device) then
        Attempt.modify fun live => { live with audioPcm := true }
      else gotoOut

/-- The scaler's `OUTPUT` queue imports the capture buffers by their index. -/
def importCapture : Bridging Unit := do
  let live ← Attempt.get
  match ← call (.reqbufs .scaler .output .dmabuf live.captureQueue.count) with
  | none => reportOut "scaler OUTPUT queue too shallow"
  | some count =>
      if count < live.captureQueue.count then reportOut "scaler OUTPUT queue too shallow"
      else pure ()

/-- What the step is called from the import of the capture buffers on. -/
def importStep : String := "scaler OUTPUT REQBUFS"

/-- The scaler starts. -/
def startScaler : Bridging Unit := do
  needTrue importStep (← call (.stream .scaler .output true))
  Attempt.modify fun live => { live with scalerOutOn := true }
  needTrue importStep (← call (.stream .scaler .capture true))
  Attempt.modify fun live => { live with scalerCapOn := true }

/-- Everything up to the loop. -/
def setUp (opts : BridgeOptions) : Bridging Formats := do
  openAll opts
  let formats ← negotiate opts
  openHeap opts.midHeapReserved
  allocateMiddle opts.midBuffers formats.encoderOut.sizeimage
  encoderBuffers
  prime formats.encoderOut
  startEncoder
  captureBuffers opts.captureBuffers
  startCapture
  startAudio opts.audioDevice
  importCapture
  startScaler
  pure formats

/-! ## Giving up, and the negotiation -/

section

variable {α V : Type} {view : Live → V} {allowed : Call → Prop} {initStep : String}

theorem steady_report_out {message : String} (h : allowed (.report message)) :
    (reportOut message : Bridging α).Steady view allowed :=
  Attempt.steady_bind (Attempt.steady_perform h) fun _ => Attempt.steady_fail

theorem steady_goto_out_errno (h : allowed (.dieStep initStep)) :
    (gotoOutErrno initStep : Bridging α).Steady view allowed :=
  Attempt.steady_bind (Attempt.steady_perform h) fun _ => Attempt.steady_fail

theorem steady_need {result : Option α} (h : allowed (.dieStep initStep)) :
    (need initStep result).Steady view allowed := by
  cases result with
  | none => exact steady_goto_out_errno h
  | some value => exact Attempt.steady_pure

theorem steady_need_true {success : Bool} (h : allowed (.dieStep initStep)) :
    (needTrue initStep success).Steady view allowed := by
  cases success with
  | false => exact steady_goto_out_errno h
  | true => exact Attempt.steady_pure

end

/-- The messages of the negotiation. -/
def formatMessages : List String :=
  ["capture driver did not accept hardware ISP NV21",
    "capture must provide UYVY/NV12/NV21 with a valid stride",
    "capture geometry cannot produce aligned YUV420",
    "capture stride unsupported by scaler", "scaler/encoder surface mismatch"]

/-- The calls of the negotiation. -/
def Negotiating : Call → Prop
  | .getFormat _ _ | .setFormat _ _ _ | .setCrop _ _ _ _ | .setControls _ _ | .dieStep _ => True
  | .report message => message ∈ formatMessages
  | _ => False

section

variable {opts : BridgeOptions} {capture encoderOut : PixFormat} {width height : UInt32}

theorem still_set_video_format {device : Device} {type : BufType}
    {pixelFormat width height : UInt32} {color : Option PixFormat} :
    (setVideoFormat device type pixelFormat width height color).Still Negotiating :=
  Attempt.steady_perform trivial

theorem still_capture_format : (captureFormat opts).Still Negotiating := by
  refine Attempt.steady_bind (Attempt.steady_perform trivial) fun _ => ?_
  refine Attempt.steady_bind (steady_need trivial) fun format => ?_
  split
  · refine Attempt.steady_bind still_set_video_format fun _ => ?_
    refine Attempt.steady_bind (steady_need trivial) fun actual => ?_
    split
    · exact steady_report_out (by simp [Negotiating, formatMessages])
    · exact Attempt.steady_pure
  · exact Attempt.steady_pure

theorem still_set_encoder_controls {bitrate gop : UInt32} :
    (setEncoderControls bitrate gop).Still Negotiating := by
  unfold setEncoderControls
  split
  · exact Attempt.steady_pure
  · exact Attempt.steady_perform trivial

theorem still_encoder_format : (encoderFormat opts capture width height).Still Negotiating := by
  refine Attempt.steady_bind still_set_video_format fun _ => ?_
  refine Attempt.steady_bind (steady_need trivial) fun _ => ?_
  refine Attempt.steady_bind (Attempt.steady_perform trivial) fun _ => ?_
  refine Attempt.steady_bind (steady_need_true trivial) fun _ => ?_
  refine Attempt.steady_bind (Attempt.steady_perform trivial) fun _ => ?_
  refine Attempt.steady_bind (steady_need trivial) fun encoderOut => ?_
  refine Attempt.steady_bind still_set_video_format fun _ => ?_
  refine Attempt.steady_bind (steady_need trivial) fun encoderCap => ?_
  split
  · exact Attempt.steady_fail
  · exact Attempt.steady_bind still_set_encoder_controls fun _ => Attempt.steady_pure

theorem still_scaler_formats : (scalerFormats capture encoderOut width height).Still Negotiating := by
  refine Attempt.steady_bind still_set_video_format fun _ => ?_
  refine Attempt.steady_bind (steady_need trivial) fun scalerIn => ?_
  split
  · exact steady_report_out (by simp [Negotiating, formatMessages])
  · refine Attempt.steady_bind still_set_video_format fun _ => ?_
    refine Attempt.steady_bind (steady_need trivial) fun scalerOut => ?_
    split
    · exact steady_report_out (by simp [Negotiating, formatMessages])
    · exact Attempt.steady_bind (Attempt.steady_perform trivial) fun _ => steady_need_true trivial

/-- The negotiation leaves the variables alone and only asks about formats. -/
theorem still_negotiate : (negotiate opts).Still Negotiating := by
  refine Attempt.steady_bind still_capture_format fun capture => ?_
  split
  · exact steady_report_out (by simp [Negotiating, formatMessages])
  · dsimp only
    split
    · exact steady_report_out (by simp [Negotiating, formatMessages])
    · refine Attempt.steady_bind still_encoder_format fun encoderOut => ?_
      exact Attempt.steady_bind still_scaler_formats fun _ => Attempt.steady_pure

end

/-! ## A set-up to which nothing is refused -/

/-- Options as the command line gives them. -/
def plainOptions : BridgeOptions where
  build := .plain
  capturePath := "capture"
  encoderPath := "encoder"
  scalerPath := "scaler"
  outputPath := some "out.h264"
  rtspUrl := none
  audioPcmaDevice := none
  bitrate := 0
  gop := 0
  maxFps := 0
  midBuffers := 2
  captureBuffers := 2
  frameLimit := 0
  halfScale := false
  useIsp := false
  midHeapReserved := false

/-- A surface that all three devices take. -/
def surface : PixFormat :=
  { width := 16, height := 16, pixelformat := fmtNv12, bytesperline := 16, sizeimage := 384 }

/-- Where a buffer is mapped. -/
def addressOf : MapOf → Nat
  | .device .capture offset => 0x100000 + offset.toNat
  | .device _ offset => 0x200000 + offset.toNat
  | .dmabuf fd => 0x300000 + fd * 4096

theorem address_of_pos (what : MapOf) : 0 < addressOf what := by
  unfold addressOf
  split <;> omega

/-- Every call succeeds, the scaler grants one middle buffer, and a signal stops the loop. -/
def willing : (request : Call) → request.Ret
  | .openDevice path => some (if path = "capture" then 3 else if path = "encoder" then 4 else 5)
  | .openOutput _ => some 6
  | .openHeap _ => some 7
  | .getFormat _ _ => some surface
  | .setFormat _ _ format => some { surface with pixelformat := format.pixelformat }
  | .reqbufs .scaler .capture _ _ => some 1
  | .reqbufs _ _ _ count => some count
  | .querybuf _ _ index => some (4096, index * 4096)
  | .heapAlloc _ => some 8
  | .mmap what length => if h : 0 < length then some ⟨addressOf what, address_of_pos what, h⟩ else none
  | .expbuf index => some (9 + index.toNat)
  | .socket | .getaddrinfo => none
  | .dqbuf _ _ _ => .again
  | .audioDrain => .done
  | .nowMs | .nowNs => 0
  | .audioClose | .report _ | .dieStep _ | .close _ | .munmap _ _ => ()
  | .parseUrl _ | .setCrop _ _ _ _ | .setControls _ _ | .calloc _ _ | .sync _ | .qbuf _ _ _ _ _ _
  | .stream _ _ _ | .audioOpen _ | .audioDiscard | .stopRequested | .write _ _ | .malloc _
  | .connect _ | .rtspRequest _ | .rtspSendAu _ _ | .poll => true

/-- What the set-up comes to. -/
def willingSetUp : List (Event Call Call.Ret) × Option Formats × Live :=
  (setUp plainOptions .start).runWith willing

end NanoKvm.Bridge
