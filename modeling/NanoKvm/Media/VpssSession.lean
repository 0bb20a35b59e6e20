import Mathlib.Data.Finset.Card
import Mathlib.Logic.Function.Basic
import NanoKvm.Exec.Assumptions
import NanoKvm.Media.Vpss

/-!
# Sessions of the VPSS driver

The driver of the scaler is called from any number of open files, by videobuf2, by the mem2mem core,
by runtime PM and by the interrupt. `Step` is the driver: what each call does, whoever makes it and
whenever it comes. `Surroundings` is what the driver relies on, with one definition for each of its
partners; none of them is modelled beyond that.
-/

namespace NanoKvm.VpssSession

open Exec Vpss

/-! ## Coefficients -/

/-- A row of a coefficient table. -/
structure Taps where
  tap0 : Int
  tap1 : Int
  tap2 : Int
  tap3 : Int
  deriving DecidableEq, Repr

/-- `vpss_bicubic_coef` -/
def bicubicCoef : List Taps :=
  [⟨-2, 1024, 2, 0⟩, ⟨-6, 1024, 6, 0⟩, ⟨-10, 1023, 11, 0⟩, ⟨-13, 1022, 15, 0⟩, ⟨-17, 1022, 20, -1⟩,
   ⟨-20, 1019, 26, -1⟩, ⟨-23, 1017, 31, -1⟩, ⟨-27, 1016, 37, -2⟩, ⟨-30, 1013, 43, -2⟩,
   ⟨-33, 1011, 49, -3⟩, ⟨-35, 1007, 55, -3⟩, ⟨-38, 1005, 61, -4⟩, ⟨-41, 1001, 68, -4⟩,
   ⟨-43, 997, 75, -5⟩, ⟨-46, 994, 82, -6⟩, ⟨-48, 990, 89, -7⟩, ⟨-50, 984, 97, -7⟩,
   ⟨-52, 980, 104, -8⟩, ⟨-54, 975, 112, -9⟩, ⟨-56, 970, 120, -10⟩, ⟨-58, 965, 128, -11⟩,
   ⟨-60, 959, 137, -12⟩, ⟨-61, 953, 145, -13⟩, ⟨-63, 947, 154, -14⟩, ⟨-64, 941, 162, -15⟩,
   ⟨-65, 934, 171, -16⟩, ⟨-67, 928, 180, -17⟩, ⟨-68, 922, 189, -19⟩, ⟨-69, 914, 199, -20⟩,
   ⟨-70, 907, 208, -21⟩, ⟨-71, 899, 218, -22⟩, ⟨-72, 892, 227, -23⟩, ⟨-72, 884, 237, -25⟩,
   ⟨-73, 876, 247, -26⟩, ⟨-74, 868, 257, -27⟩, ⟨-74, 859, 267, -28⟩, ⟨-75, 852, 277, -30⟩,
   ⟨-75, 843, 287, -31⟩, ⟨-75, 834, 297, -32⟩, ⟨-76, 826, 308, -34⟩, ⟨-76, 817, 318, -35⟩,
   ⟨-76, 807, 329, -36⟩, ⟨-76, 798, 340, -38⟩, ⟨-76, 789, 350, -39⟩, ⟨-76, 779, 361, -40⟩,
   ⟨-76, 770, 372, -42⟩, ⟨-75, 759, 383, -43⟩, ⟨-75, 749, 394, -44⟩, ⟨-75, 741, 404, -46⟩,
   ⟨-74, 730, 415, -47⟩, ⟨-74, 720, 426, -48⟩, ⟨-74, 711, 437, -50⟩, ⟨-73, 699, 449, -51⟩,
   ⟨-72, 688, 460, -52⟩, ⟨-72, 678, 471, -53⟩, ⟨-71, 668, 482, -55⟩, ⟨-71, 658, 493, -56⟩,
   ⟨-70, 647, 504, -57⟩, ⟨-69, 636, 515, -58⟩, ⟨-68, 625, 526, -59⟩, ⟨-67, 614, 537, -60⟩,
   ⟨-66, 603, 548, -61⟩, ⟨-65, 592, 559, -62⟩, ⟨-64, 581, 570, -63⟩, ⟨-63, 570, 581, -64⟩,
   ⟨-62, 559, 592, -65⟩, ⟨-61, 548, 603, -66⟩, ⟨-60, 537, 614, -67⟩, ⟨-59, 526, 625, -68⟩,
   ⟨-58, 515, 636, -69⟩, ⟨-57, 504, 647, -70⟩, ⟨-56, 494, 657, -71⟩, ⟨-55, 482, 668, -71⟩,
   ⟨-53, 471, 678, -72⟩, ⟨-52, 459, 689, -72⟩, ⟨-51, 449, 699, -73⟩, ⟨-50, 438, 710, -74⟩,
   ⟨-48, 426, 720, -74⟩, ⟨-47, 415, 730, -74⟩, ⟨-46, 405, 740, -75⟩, ⟨-44, 393, 750, -75⟩,
   ⟨-43, 382, 760, -75⟩, ⟨-42, 372, 770, -76⟩, ⟨-40, 361, 779, -76⟩, ⟨-39, 350, 789, -76⟩,
   ⟨-38, 340, 798, -76⟩, ⟨-36, 329, 807, -76⟩, ⟨-35, 319, 816, -76⟩, ⟨-34, 309, 825, -76⟩,
   ⟨-32, 297, 834, -75⟩, ⟨-31, 287, 843, -75⟩, ⟨-30, 278, 851, -75⟩, ⟨-28, 266, 860, -74⟩,
   ⟨-27, 257, 868, -74⟩, ⟨-26, 247, 876, -73⟩, ⟨-25, 237, 884, -72⟩, ⟨-23, 227, 892, -72⟩,
   ⟨-22, 218, 899, -71⟩, ⟨-21, 208, 907, -70⟩, ⟨-20, 199, 914, -69⟩, ⟨-19, 190, 921, -68⟩,
   ⟨-17, 180, 928, -67⟩, ⟨-16, 170, 935, -65⟩, ⟨-15, 162, 941, -64⟩, ⟨-14, 154, 947, -63⟩,
   ⟨-13, 145, 953, -61⟩, ⟨-12, 137, 959, -60⟩, ⟨-11, 128, 965, -58⟩, ⟨-10, 120, 970, -56⟩,
   ⟨-9, 112, 975, -54⟩, ⟨-8, 104, 980, -52⟩, ⟨-7, 96, 985, -50⟩, ⟨-7, 90, 989, -48⟩,
   ⟨-6, 83, 993, -46⟩, ⟨-5, 75, 997, -43⟩, ⟨-4, 68, 1001, -41⟩, ⟨-4, 62, 1004, -38⟩,
   ⟨-3, 54, 1008, -35⟩, ⟨-3, 49, 1011, -33⟩, ⟨-2, 43, 1013, -30⟩, ⟨-2, 37, 1016, -27⟩,
   ⟨-1, 30, 1018, -23⟩, ⟨-1, 26, 1019, -20⟩, ⟨-1, 21, 1021, -17⟩, ⟨0, 15, 1022, -13⟩,
   ⟨0, 11, 1023, -10⟩, ⟨0, 6, 1024, -6⟩, ⟨0, 2, 1024, -2⟩]

/-- `vpss_identity_coef` -/
def identityCoef : List Taps := List.replicate 128 ⟨0, 1024, 0, 0⟩

/-- The table of `vpss_load_coef`. -/
def coefTable (identity : Bool) : List Taps := if identity then identityCoef else bicubicCoef

def scCoef0 : Nat := 0x5118
def scCoef1 : Nat := 0x511c
def scCoef2 : Nat := 0x5120

/-- The port of the coefficient RAM: two data registers, and the entries that were committed. -/
structure CoefPort where
  coef1 : Word
  coef2 : Word
  ram : Nat → Word × Word

/-- A write to one of its registers. `0x5 << 8` with an index is the strobe of that entry. -/
def CoefPort.write (port : CoefPort) (reg : Nat) (val : Word) : CoefPort :=
  if reg = scCoef1 then { port with coef1 := val }
  else if reg = scCoef2 then { port with coef2 := val }
  else if reg = scCoef0 ∧ val >>> 8 = 5 then
    { port with ram := Function.update port.ram (val &&& 0xff).toNat (port.coef1, port.coef2) }
  else port

/-- Two taps in a register. -/
def tapWord (high low : Int) : Word :=
  BitVec.ofInt 32 high <<< 16 ||| BitVec.ofInt 32 low &&& 0x0fff

/-- The registers of a row. -/
def Taps.words (taps : Taps) : Word × Word :=
  (tapWord taps.tap1 taps.tap0, tapWord taps.tap3 taps.tap2)

/-- The body of the loop of `vpss_load_coef`. -/
def loadRow (table : List Taps) (port : CoefPort) (i : Nat) : CoefPort :=
  let row := table.getD i ⟨0, 0, 0, 0⟩
  let port := port.write scCoef1 (tapWord row.tap1 row.tap0)
  let port := port.write scCoef2 (tapWord row.tap3 row.tap2)
  port.write scCoef0 (.ofNat 32 (0x5 <<< 8 ||| i))

/-- `vpss_load_coef`, with the flag `coef_is_identity` before it. -/
def loadCoef (coefIsIdentity identity : Bool) (port : CoefPort) : CoefPort :=
  if coefIsIdentity = identity then port
  else (List.range 128).foldl (loadRow (coefTable identity)) port

/-! ## State -/

/-- `VB2_BUF_STATE_DONE` and `VB2_BUF_STATE_ERROR` -/
inductive BufState where
  | done | error
  deriving DecidableEq, Repr

/-- A buffer of a file. -/
structure Buffer (ι : Type) where
  ctx : ι
  queue : Queue
  index : Nat
  deriving DecidableEq

/-- The job in the hardware: `curr`, `curr_src` and `curr_dst`. -/
structure Job (ι : Type) where
  ctx : ι
  src : Nat
  dst : Nat

/-- Its source and its destination. -/
def Job.source {ι : Type} (job : Job ι) : Buffer ι := ⟨job.ctx, .output, job.src⟩
def Job.destination {ι : Type} (job : Job ι) : Buffer ι := ⟨job.ctx, .capture, job.dst⟩

/-- What the driver does with a buffer: `v4l2_m2m_src_buf_remove` or `v4l2_m2m_dst_buf_remove` takes
it from the core, `v4l2_m2m_buf_done` gives it back. -/
inductive Custody (ι : Type) where
  | remove (buffer : Buffer ι)
  | done (buffer : Buffer ι) (state : BufState)

/-- Where a callback of runtime PM is: `vpss_runtime_resume` before `clocked` and before
`vpss_hw_init`, `vpss_runtime_suspend` in `synchronize_irq` and before the clocks. -/
inductive PmPc where
  | idle | unmasking | initialising | synchronizing | gating
  deriving DecidableEq, Repr

/-- The thread in `vpss_device_run`, before the step that is named. From `scaler` on it carries what
`vpss_job_hw` has read of the context. -/
inductive RunPc (ι : Type) where
  | check (ctx : ι)
  | take (ctx : ι)
  | input (job : Job ι)
  | scaler (geometry : Ctx) (job : Job ι)
  | output (geometry : Ctx) (job : Job ι)
  | start (geometry : Ctx) (job : Job ι)

/-- `vpss_isr`: whether the handler runs, and how the job ends that it finishes. -/
inductive IrqPc where
  | idle
  | entered
  | finishing (state : BufState)

/-- The fabric clocks, `clk_axi` and `clk_cfg_reg`. -/
inductive Fabric where
  | axi | cfgReg
  deriving DecidableEq, Repr

/-- `struct vpss_dev`, the contexts and the registers, and which calls the driver has had. -/
structure State (ι : Type) where
  curr : Option (Job ι)
  coefIsIdentity : Bool
  streaming : Nat
  clocked : Bool
  regs : RegisterFile
  coef : CoefPort
  geometry : ι → Ctx
  /-- The enables of each clock less its disables, by this driver, and what the probe has left. -/
  fabric : Fabric → Int
  bulk : Int
  atProbe : Fabric → Int
  /-- The references on runtime PM that the driver holds, those that `vpss_stop_streaming` is about
  to give back, and whether the device was resumed last. -/
  refs : Nat
  puts : Nat
  active : Bool
  isOpen : ι → Bool
  /-- The queues that `vpss_start_streaming` has started and `vpss_stop_streaming` not stopped. -/
  streams : Queue → Finset ι
  /-- `vb2_is_busy`, and the plane sizes that `vpss_buf_prepare` has accepted. -/
  busy : ι → Queue → Bool
  prepared : ι → Queue → Nat → Option Nat
  /-- The context that `vpss_device_run` was called for, until `v4l2_m2m_job_finish`. -/
  running : Option ι
  /-- The context whose OUTPUT queue waits for runtime PM in `vpss_start_streaming`. -/
  starting : Option ι
  pm : PmPc
  runner : Option (RunPc ι)
  irq : IrqPc
  custody : List (Custody ι)

/-- After `vpss_probe`, which enables and disables the clocks once without a look at the results of
the fabric clocks. -/
def State.probed (ι : Type) (regs : RegisterFile) (coef : CoefPort) (fabric : Fabric → Bool) :
    State ι where
  curr := none
  coefIsIdentity := false
  streaming := 0
  clocked := false
  regs := regs
  coef := coef
  geometry := fun _ => vpssOpen
  fabric := fun clock => (if fabric clock then 1 else 0) - 1
  bulk := 0
  atProbe := fun clock => (if fabric clock then 1 else 0) - 1
  refs := 0
  puts := 0
  active := false
  isOpen := fun _ => false
  streams := fun _ => ∅
  busy := fun _ _ => false
  prepared := fun _ _ _ => none
  running := none
  starting := none
  pm := .idle
  runner := none
  irq := .idle
  custody := []

/-- `vpss_get_q_data(ctx, type)->sizeimage` -/
def sizeimage (geometry : Ctx) : Queue → Nat
  | .output => geometry.output.sizeimage
  | .capture => geometry.capture.sizeimage

/-- The flag `scale` of `vpss_job_hw`. -/
def scales (geometry : Ctx) : Bool :=
  decide (geometry.output.width ≠ geometry.crop.width ∨
    geometry.output.height ≠ geometry.crop.height)

/-- How `vpss_isr` ends the job for a status: `INTR_PROG_TOO_LATE`, else `INTR_SCL1_FRAME_END`. -/
def finishes (raw : Word) : Option BufState :=
  if raw &&& 0x400 ≠ 0 then some .error
  else if raw &&& 0x80 ≠ 0 then some .done
  else none

def topIntrMask : Nat := 0x030
def topIntrEnable : Nat := 0x038
def imgShd : Nat := 0x2014
def scShd : Nat := 0x5004

section

variable {ι : Type} [DecidableEq ι]

/-! ## The driver -/

/-- A queue of the context streams from now on, or does not. -/
def State.start (s : State ι) (ctx : ι) (queue : Queue) : State ι :=
  { s with streams := Function.update s.streams queue (insert ctx (s.streams queue)) }
def State.stop (s : State ι) (ctx : ι) (queue : Queue) : State ι :=
  { s with streams := Function.update s.streams queue ((s.streams queue).erase ctx) }

/-- `v4l2_m2m_job_finish` -/
def State.jobFinish (s : State ι) (ctx : ι) : State ι :=
  { s with running := if s.running = some ctx then none else s.running }

/-- `vpss_job_finish`, which does nothing but warn without a job. -/
def State.vpssJobFinish (s : State ι) (state : BufState) : State ι :=
  match s.curr with
  | none => s
  | some job =>
      State.jobFinish
        { s with
          curr := none
          custody := s.custody ++ [.done job.source state, .done job.destination state] } job.ctx

/-- `vpss_device_run` gives its buffers back unprocessed. -/
def State.giveUp (s : State ι) (job : Job ι) : State ι :=
  State.jobFinish
    { s with
      custody := s.custody ++ [.remove job.source, .remove job.destination,
        .done job.source .error, .done job.destination .error]
      runner := none } job.ctx

/-- `vpss_device_run` as far as its decision. `bufs` are the next buffers of the two queues. -/
def State.checkJob (s : State ι) (ctx : ι) (bufs : Option (Nat × Nat)) : State ι :=
  match bufs with
  | none => { s with runner := none }
  | some (src, dst) =>
      if Rejects (s.geometry ctx) then s.giveUp ⟨ctx, src, dst⟩
      else if s.streaming = 0 then s.giveUp ⟨ctx, src, dst⟩
      else { s with runner := some (.take ctx) }

/-- `vpss_start_streaming`, as far as `pm_runtime_resume_and_get`. -/
def State.startStreaming (s : State ι) (ctx : ι) : Queue → State ι
  | .capture => s.start ctx .capture
  | .output =>
      if s.streaming ≠ 0 then { s.start ctx .output with streaming := s.streaming + 1 }
      else { s with streaming := s.streaming + 1, refs := s.refs + 1, starting := some ctx }

/-- The loop of `vpss_stop_streaming`: each buffer is taken and given back. -/
def drained (ctx : ι) (queue : Queue) (ready : List Nat) : List (Custody ι) :=
  ready.flatMap fun b => [.remove ⟨ctx, queue, b⟩, .done ⟨ctx, queue, b⟩ .error]

/-- `vpss_stop_streaming`. The last OUTPUT queue has the reference to give back. -/
def State.stopStreaming (s : State ι) (ctx : ι) (queue : Queue) (ready : List Nat) : State ι :=
  let s := { s.stop ctx queue with custody := s.custody ++ drained ctx queue ready }
  if queue = .output ∧ s.streaming ≠ 0 then
    { s with
      streaming := s.streaming - 1
      puts := if s.streaming - 1 = 0 then s.puts + 1 else s.puts }
  else s

/-- `vpss_buf_prepare`, for a buffer with a plane of this size. -/
def State.bufPrepare (s : State ι) (ctx : ι) (queue : Queue) (b size : Nat) : State ι :=
  if size < sizeimage (s.geometry ctx) queue then s
  else
    { s with
      prepared := fun other side index =>
        if other = ctx ∧ side = queue ∧ index = b then some size else s.prepared other side index }

omit [DecidableEq ι] in
/-- `vpss_hw_init`: the coefficients are loaded whatever the flag was. -/
def State.hwInit (s : State ι) : State ι :=
  let regs := put imgShd 0x4 s.regs
  let regs := put scShd 0x2 regs
  let regs := put topShd 0x200 regs
  let regs := put topIntrEnable 0xffffffff regs
  let regs := put topIntrMask 0x4a0 regs
  { s with regs := regs, coef := loadCoef true false s.coef, coefIsIdentity := false }

/-! ## Steps -/

/-- What happens next: a call of the driver, or a step in one. -/
inductive Action (ι : Type) where
  | opens (ctx : ι)
  | release (ctx : ι)
  | sFmt (ctx : ι) (queue : Queue) (pix : PixFormat)
  | sSelection (ctx : ι) (queue : Queue) (target : Target) (r : Rect)
  | allocate (ctx : ι) (queue : Queue)
  | freeBufs (ctx : ι) (queue : Queue)
  | bufPrepare (ctx : ι) (queue : Queue) (b size : Nat)
  | startStreaming (ctx : ι) (queue : Queue)
  | started
  | startFailed
  | stopStreaming (ctx : ι) (queue : Queue) (ready : List Nat)
  | put
  | resume (fabric : Fabric → Bool) (bulk : Bool)
  | unmask
  | hwInit
  | suspend
  | synchronized
  | gateClocks (coef : CoefPort)
  | deviceRun (ctx : ι)
  | checkJob (bufs : Option (Nat × Nat))
  | takeJob (src dst : Nat)
  | jobInput
  | jobScaler
  | jobOutput
  | jobStart
  | irqEnter
  | irqRead (raw : Word)
  | irqFinish

/-- The calls of the files, the job threads, the callbacks of runtime PM and the handler. `addr` is
where the buffers lie. -/
inductive Step (maps : ColourMaps) (addr : ι → Queue → Nat → Nat) :
    State ι → Action ι → State ι → Prop where
  /-- `vpss_open` -/
  | opens {s : State ι} {ctx : ι} :
      Step maps addr s (.opens ctx)
        { s with
          isOpen := Function.update s.isOpen ctx true
          geometry := Function.update s.geometry ctx vpssOpen }
  /-- The end of `vpss_release`. -/
  | release {s : State ι} {ctx : ι} :
      Step maps addr s (.release ctx) { s with isOpen := Function.update s.isOpen ctx false }
  | sFmt {s : State ι} {ctx : ι} {queue : Queue} {pix : PixFormat} :
      Step maps addr s (.sFmt ctx queue pix)
        { s with
          geometry := Function.update s.geometry ctx
            (Vpss.sFmt maps (s.geometry ctx) queue (s.busy ctx) pix).2 }
  | sSelection {s : State ι} {ctx : ι} {queue : Queue} {target : Target} {r : Rect} :
      Step maps addr s (.sSelection ctx queue target r)
        { s with
          geometry := Function.update s.geometry ctx
            (Vpss.sSelection (s.geometry ctx) queue target r).2 }
  /-- videobuf2 allocates buffers, and frees them. -/
  | allocate {s : State ι} {ctx : ι} {queue : Queue} :
      Step maps addr s (.allocate ctx queue)
        { s with
          busy := fun other side => if other = ctx ∧ side = queue then true else s.busy other side }
  | freeBufs {s : State ι} {ctx : ι} {queue : Queue} :
      Step maps addr s (.freeBufs ctx queue)
        { s with
          busy := fun other side => if other = ctx ∧ side = queue then false else s.busy other side
          prepared := fun other side =>
            if other = ctx ∧ side = queue then fun _ => none else s.prepared other side }
  | bufPrepare {s : State ι} {ctx : ι} {queue : Queue} {b size : Nat} :
      Step maps addr s (.bufPrepare ctx queue b size) (s.bufPrepare ctx queue b size)
  | startStreaming {s : State ι} {ctx : ι} {queue : Queue} :
      Step maps addr s (.startStreaming ctx queue) (s.startStreaming ctx queue)
  /-- `pm_runtime_resume_and_get` succeeds. -/
  | started {s : State ι} {ctx : ι} (hstarting : s.starting = some ctx) :
      Step maps addr s .started { s.start ctx .output with starting := none }
  /-- It fails, and leaves no reference. -/
  | startFailed {s : State ι} {ctx : ι} (hstarting : s.starting = some ctx) :
      Step maps addr s .startFailed
        { s with streaming := s.streaming - 1, refs := s.refs - 1, starting := none }
  | stopStreaming {s : State ι} {ctx : ι} {queue : Queue} {ready : List Nat} :
      Step maps addr s (.stopStreaming ctx queue ready) (s.stopStreaming ctx queue ready)
  /-- `pm_runtime_put_sync` -/
  | put {s : State ι} (hputs : 0 < s.puts) :
      Step maps addr s .put { s with refs := s.refs - 1, puts := s.puts - 1 }
  /-- The clocks in `vpss_runtime_resume`, which does not look at the results of the fabric clocks.
  `clk_bulk_prepare_enable` leaves none of its clocks on when it fails. -/
  | resume {s : State ι} {fabric : Fabric → Bool} {bulk : Bool} :
      Step maps addr s (.resume fabric bulk)
        { s with
          fabric := fun clock => s.fabric clock + if fabric clock then 1 else 0
          bulk := s.bulk + if bulk then 1 else 0
          pm := if bulk then .unmasking else s.pm }
  | unmask {s : State ι} (hpm : s.pm = .unmasking) :
      Step maps addr s .unmask { s with clocked := true, pm := .initialising }
  | hwInit {s : State ι} (hpm : s.pm = .initialising) :
      Step maps addr s .hwInit { s.hwInit with active := true, pm := .idle }
  /-- `vpss_runtime_suspend` -/
  | suspend {s : State ι} :
      Step maps addr s .suspend { s with clocked := false, pm := .synchronizing }
  /-- `synchronize_irq` -/
  | synchronized {s : State ι} (hpm : s.pm = .synchronizing) (hirq : s.irq = .idle) :
      Step maps addr s .synchronized { s with pm := .gating }
  /-- Without its clocks the coefficient RAM may lose what it held. -/
  | gateClocks {s : State ι} {coef : CoefPort} (hpm : s.pm = .gating) :
      Step maps addr s (.gateClocks coef)
        { s with
          bulk := s.bulk - 1
          fabric := fun clock => s.fabric clock - 1
          coef := coef
          active := false
          pm := .idle }
  | deviceRun {s : State ι} {ctx : ι} :
      Step maps addr s (.deviceRun ctx) { s with running := some ctx, runner := some (.check ctx) }
  | checkJob {s : State ι} {ctx : ι} {bufs : Option (Nat × Nat)}
      (hrunner : s.runner = some (.check ctx)) :
      Step maps addr s (.checkJob bufs) (s.checkJob ctx bufs)
  | takeJob {s : State ι} {ctx : ι} {src dst : Nat} (hrunner : s.runner = some (.take ctx)) :
      Step maps addr s (.takeJob src dst)
        { s with
          custody := s.custody ++ [.remove ⟨ctx, .output, src⟩, .remove ⟨ctx, .capture, dst⟩]
          curr := some ⟨ctx, src, dst⟩
          runner := some (.input ⟨ctx, src, dst⟩) }
  | jobInput {s : State ι} {job : Job ι} (hrunner : s.runner = some (.input job)) :
      Step maps addr s .jobInput
        { s with
          regs := Vpss.jobInput (s.geometry job.ctx) (addr job.ctx .output job.src) s.regs
          runner := some (.scaler (s.geometry job.ctx) job) }
  | jobScaler {s : State ι} {geometry : Ctx} {job : Job ι}
      (hrunner : s.runner = some (.scaler geometry job)) :
      Step maps addr s .jobScaler
        { s with
          regs := Vpss.jobScaler geometry s.regs
          coef := loadCoef s.coefIsIdentity (!scales geometry) s.coef
          coefIsIdentity := !scales geometry
          runner := some (.output geometry job) }
  | jobOutput {s : State ι} {geometry : Ctx} {job : Job ι}
      (hrunner : s.runner = some (.output geometry job)) :
      Step maps addr s .jobOutput
        { s with
          regs := Vpss.jobOutput geometry (addr job.ctx .capture job.dst) s.regs
          runner := some (.start geometry job) }
  | jobStart {s : State ι} {geometry : Ctx} {job : Job ι}
      (hrunner : s.runner = some (.start geometry job)) :
      Step maps addr s .jobStart { s with regs := Vpss.jobStart s.regs, runner := none }
  /-- The handler goes on only while `clocked` is set. -/
  | irqEnter {s : State ι} (hidle : s.irq = .idle) (hclocked : s.clocked = true) :
      Step maps addr s .irqEnter { s with irq := .entered }
  /-- Any status is read. -/
  | irqRead {s : State ι} {raw : Word} (hentered : s.irq = .entered) :
      Step maps addr s (.irqRead raw)
        { s with
          irq := match finishes raw with
            | none => .idle
            | some state => .finishing state }
  | irqFinish {s : State ι} {state : BufState} (hfinish : s.irq = .finishing state) :
      Step maps addr s .irqFinish { s.vpssJobFinish state with irq := .idle }

/-- The driver, from its probe on. -/
def driver (maps : ColourMaps) (addr : ι → Queue → Nat → Nat) : Labelled (State ι) (Action ι) where
  initial := { s | ∃ regs coef fabric, s = .probed ι regs coef fabric }
  step := Step maps addr

/-! ## The partners -/

/-- The context that the thread in `vpss_device_run` works for, and its job once it is taken. -/
def RunPc.ctx : RunPc ι → ι
  | .check ctx | .take ctx => ctx
  | .input job | .scaler _ job | .output _ job | .start _ job => job.ctx
def RunPc.job : RunPc ι → Option (Job ι)
  | .check _ | .take _ => none
  | .input job | .scaler _ job | .output _ job | .start _ job => some job

/-- videobuf2 starts a queue that has buffers and does not stream, stops a queue that it has
started, and neither frees the buffers of a queue that streams nor leaves any to a closed file. The
ioctls of all files take turns, under the lock of the device. `vpss_open` and `vpss_release` do not
take it, so what they do may come at any time, but for a file that is not in an ioctl. -/
def Videobuf2 (s : State ι) : Action ι → Prop
  | .opens ctx => s.isOpen ctx = false
  | .release ctx =>
      s.starting ≠ some ctx ∧ ∀ queue, ctx ∉ s.streams queue ∧ s.busy ctx queue = false
  | .sFmt ctx .. | .sSelection ctx .. | .allocate ctx _ =>
      s.starting = none ∧ s.isOpen ctx = true
  | .freeBufs ctx queue => s.starting ≠ some ctx ∧ ctx ∉ s.streams queue
  | .bufPrepare ctx queue .. => s.starting = none ∧ s.busy ctx queue = true
  | .startStreaming ctx queue =>
      s.starting = none ∧ s.busy ctx queue = true ∧ ctx ∉ s.streams queue
  | .stopStreaming ctx queue _ => ctx ∈ s.streams queue
  | _ => True

/-- The mem2mem core runs a job only when none runs, for a context of which both queues stream, with
buffers of it that are prepared, and waits for it before a queue of the context is stopped. -/
def Mem2mem (s : State ι) : Action ι → Prop
  | .deviceRun ctx => s.running = none ∧ ∀ queue, ctx ∈ s.streams queue
  | .takeJob src dst => ∀ pc, s.runner = some pc →
      (s.prepared pc.ctx .output src).isSome ∧ (s.prepared pc.ctx .capture dst).isSome
  | .stopStreaming ctx .. => s.running ≠ some ctx
  | _ => True

/-- Runtime PM makes one callback at a time, suspends a device only when it is active and the driver
holds no reference, and grants a reference when the device is active. -/
def RuntimePm (s : State ι) : Action ι → Prop
  | .resume .. => s.pm = .idle ∧ s.active = false
  | .suspend => s.pm = .idle ∧ s.active = true ∧ s.refs = 0
  | .started => s.pm = .idle ∧ s.active = true
  | _ => True

/-- No status of the block ends a job that is still being programmed. -/
def Block (s : State ι) : Action ι → Prop
  | .irqFinish => ∀ pc, s.runner = some pc → pc.job = none
  | _ => True

/-- What the driver relies on. -/
structure Surroundings (s : State ι) (action : Action ι) : Prop where
  videobuf2 : Videobuf2 s action
  mem2mem : Mem2mem s action
  runtimePm : RuntimePm s action
  block : Block s action

/-- The context whose geometry has been checked and not been read yet. -/
def RunPc.checked : RunPc ι → Option ι
  | .take ctx => some ctx
  | .input job => some job.ctx
  | _ => none

/-- VIDIOC_S_SELECTION does not come between the check of a job and the reading of its geometry,
which the driver does not prevent. -/
def Settled (s : State ι) : Action ι → Prop
  | .sSelection ctx .. => ∀ pc, s.runner = some pc → pc.checked ≠ some ctx
  | _ => True

/-- What the driver relies on, without a selection at that point. -/
def SettledSurroundings (s : State ι) (action : Action ι) : Prop :=
  Surroundings s action ∧ Settled s action

end

end NanoKvm.VpssSession
