import NanoKvm.Exec.Attempts
import NanoKvm.Rtp.Packetizer

/-!
# The calls of the live bridge

What `live_bridge_vpss` of `sg2002-h264-bridge.c` asks of the kernel and of the libraries, and what
it keeps between the calls. A call is not tied to what it returns: the kernel may refuse anything.
A descriptor that is −1 in the source is `none`, and so is an address that is `NULL`.
-/

namespace NanoKvm.Bridge

open Exec

/-- The three V4L2 devices. -/
inductive Device where
  | capture
  | encoder
  | scaler
deriving DecidableEq

/-- `enum v4l2_buf_type` -/
inductive BufType where
  | capture
  | output
deriving DecidableEq

/-- `enum v4l2_memory` -/
inductive BufMemory where
  | mmap
  | dmabuf
deriving DecidableEq

/-- `struct v4l2_pix_format` -/
structure PixFormat where
  width : UInt32 := 0
  height : UInt32 := 0
  pixelformat : UInt32 := 0
  field : UInt32 := 0
  bytesperline : UInt32 := 0
  sizeimage : UInt32 := 0
  colorspace : UInt32 := 0
  priv : UInt32 := 0
  ycbcrEnc : UInt32 := 0
  quantization : UInt32 := 0
  xferFunc : UInt32 := 0

/-- `V4L2_PIX_FMT_UYVY` -/
def fmtUyvy : UInt32 := 0x59565955

/-- `V4L2_PIX_FMT_NV12` -/
def fmtNv12 : UInt32 := 0x3231564e

/-- `V4L2_PIX_FMT_NV21` -/
def fmtNv21 : UInt32 := 0x3132564e

/-- `V4L2_PIX_FMT_H264` -/
def fmtH264 : UInt32 := 0x34363248

/-- `V4L2_FIELD_NONE` -/
def fieldNone : UInt32 := 1

/-- `V4L2_PIX_FMT_PRIV_MAGIC` -/
def privMagic : UInt32 := 0xfeedcafe

/-- `struct v4l2_buffer` as `VIDIOC_DQBUF` fills it in, and the bytes that are used. -/
structure Buffer where
  index : UInt32
  bytesused : UInt32
  flagError : Bool
  tvSec : UInt64
  tvUsec : UInt64
  payload : List UInt8

/-- What `VIDIOC_DQBUF` comes to. -/
inductive Dequeued where
  | again
  | error
  | buffer (buffer : Buffer)

/-- What the loop of `audio_drain` comes to. -/
inductive Drained where
  | done
  | failed
  | unsent

/-- What `calloc` is asked for. -/
inductive CallocFor where
  | mappedBufs
  | capFds
  | midState
deriving DecidableEq

/-- The buffer that is mapped: one of the driver's, at an offset of the device, or a dma-buf. -/
inductive MapOf where
  | device (device : Device) (offset : UInt32)
  | dmabuf (fd : Nat)

/-- A call. -/
inductive Call where
  | parseUrl (url : String)
  | openDevice (path : String)
  | openOutput (path : String)
  | openHeap (path : String)
  | getFormat (device : Device) (type : BufType)
  | setFormat (device : Device) (type : BufType) (format : PixFormat)
  | setCrop (device : Device) (type : BufType) (width height : UInt32)
  | setControls (bitrate gop : UInt32)
  | reqbufs (device : Device) (type : BufType) (memory : BufMemory) (count : UInt32)
  | calloc (what : CallocFor) (count : UInt32)
  | querybuf (device : Device) (type : BufType) (index : UInt32)
  | heapAlloc (len : UInt32)
  | mmap (what : MapOf) (length : Nat)
  | sync (fd : Option Nat)
  | qbuf (device : Device) (type : BufType) (memory : BufMemory) (index bytesused : UInt32)
      (fd : Option Nat)
  | dqbuf (device : Device) (type : BufType) (memory : BufMemory)
  | expbuf (index : UInt32)
  | stream (device : Device) (type : BufType) (on : Bool)
  | audioOpen (device : String)
  | audioDrain
  | audioDiscard
  | audioClose
  | stopRequested
  | nowMs
  | nowNs
  | write (fd : Nat) (payload : List UInt8)
  | malloc (size : Nat)
  | getaddrinfo
  | socket
  | connect (fd : Nat)
  | rtspRequest (method : String)
  | rtspSendAu (payload : List UInt8) (ptsMs : UInt64)
  | poll
  | report (message : String)
  | dieStep (initStep : String)
  | close (fd : Nat)
  | munmap (address length : Nat)

/-- What a call returns: a descriptor, a format, a count, or whether it succeeded. A mapping is
neither at address 0 nor empty. -/
abbrev Call.Ret : Call → Type
  | .openDevice _ | .openOutput _ | .openHeap _ | .heapAlloc _ | .expbuf _ | .socket => Option Nat
  | .getFormat _ _ | .setFormat _ _ _ => Option PixFormat
  | .reqbufs _ _ _ _ => Option UInt32
  | .querybuf _ _ _ => Option (UInt32 × UInt32)
  | .mmap _ length => Option { address : Nat // 0 < address ∧ 0 < length }
  | .dqbuf _ _ _ => Dequeued
  | .audioDrain => Drained
  | .nowMs | .nowNs => UInt64
  | .getaddrinfo => Option Nat
  | .audioClose | .report _ | .dieStep _ | .close _ | .munmap _ _ => Unit
  | _ => Bool

/-- `struct bridge_options`, and the build. -/
structure BridgeOptions where
  build : Rtp.Build
  capturePath : String
  encoderPath : String
  scalerPath : String
  outputPath : Option String
  rtspUrl : Option String
  audioPcmaDevice : Option String
  bitrate : UInt32
  gop : UInt32
  maxFps : UInt32
  midBuffers : UInt32
  captureBuffers : UInt32
  frameLimit : UInt32
  halfScale : Bool
  useIsp : Bool
  midHeapReserved : Bool

/-- The audio device, which only one of the builds has. -/
def BridgeOptions.audioDevice (opts : BridgeOptions) : Option String :=
  match opts.build with
  | .pcma => opts.audioPcmaDevice
  | .plain => none

/-! ## What is kept between the calls -/

/-- `struct mapped_buf` -/
structure MappedBuf where
  addr : Option Nat
  length : Nat
  dmabufFd : Option Nat

/-- An entry that `calloc` cleared: its descriptor is 0. -/
def MappedBuf.cleared : MappedBuf := ⟨none, 0, some 0⟩

/-- `struct mapped_queue` -/
structure MappedQueue where
  bufs : Option (List MappedBuf)
  count : UInt32

/-- A queue that is initialised to zero. -/
def MappedQueue.zero : MappedQueue := ⟨none, 0⟩

/-- The entry is stored. -/
def MappedQueue.put (index : Nat) (buf : MappedBuf) (queue : MappedQueue) : MappedQueue :=
  { queue with bufs := queue.bufs.map (·.set index buf) }

/-- The entry, which is within the array. -/
def MappedQueue.entry (queue : MappedQueue) (index : UInt32) : MappedBuf :=
  ((queue.bufs.getD [])[index.toNat]?).getD .cleared

/-- `enum mid_state` -/
inductive MidState where
  | free
  | atVpss
  | atEncoder
deriving DecidableEq

/-- `struct rtsp_sink`: what the connection depends on. -/
structure RtspSink where
  fd : Option Nat
  haveParams : Bool
  sps : List UInt8
  pps : List UInt8
  nextRetryMs : UInt64

/-- The local variables of `live_bridge_vpss`. -/
structure Live where
  captureFd : Option Nat
  encoderFd : Option Nat
  scalerFd : Option Nat
  heapFd : Option Nat
  outputFd : Option Nat
  captureQueue : MappedQueue
  mid : MappedQueue
  encoderCap : MappedQueue
  capFds : Option (List Nat)
  midState : List MidState
  freeMid : UInt32
  heldCapture : UInt32
  captureOn : Bool
  encoderOutOn : Bool
  encoderCapOn : Bool
  scalerOutOn : Bool
  scalerCapOn : Bool
  audioPcm : Bool
  rtsp : RtspSink
  encodedFrames : UInt64
  skippedFrames : UInt64
  nextFrameNs : UInt64
  stopRequested : Bool

/-- `UINT32_MAX`: no capture buffer is held. -/
def uint32Max : UInt32 := 0xffffffff

/-- The local variables at the start. -/
def Live.start : Live where
  captureFd := none
  encoderFd := none
  scalerFd := none
  heapFd := none
  outputFd := none
  captureQueue := .zero
  mid := .zero
  encoderCap := .zero
  capFds := none
  midState := []
  freeMid := 0
  heldCapture := uint32Max
  captureOn := false
  encoderOutOn := false
  encoderCapOn := false
  scalerOutOn := false
  scalerCapOn := false
  audioPcm := false
  rtsp := ⟨none, false, [], [], 0⟩
  encodedFrames := 0
  skippedFrames := 0
  nextFrameNs := 0
  stopRequested := false

/-- A part of `live_bridge_vpss`; giving up is a jump to `out`. -/
abbrev Bridging (α : Type) : Type := Attempt Live Call Call.Ret α

/-- One call. -/
abbrev call (request : Call) : Bridging request.Ret := Attempt.perform request

/-- `goto out` -/
abbrev gotoOut {α : Type} : Bridging α := Attempt.fail

/-- `goto out` after a message. -/
def reportOut {α : Type} (message : String) : Bridging α := do
  call (.report message)
  gotoOut

/-- `goto out_errno`, which names the step. -/
def gotoOutErrno {α : Type} (initStep : String) : Bridging α := do
  call (.dieStep initStep)
  gotoOut

/-- A result that the step needs. -/
def need {α : Type} (initStep : String) : Option α → Bridging α
  | some value => pure value
  | none => gotoOutErrno initStep

/-- A success that the step needs. -/
def needTrue (initStep : String) : Bool → Bridging Unit
  | true => pure ()
  | false => gotoOutErrno initStep

end NanoKvm.Bridge
