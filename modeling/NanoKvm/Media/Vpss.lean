import Mathlib.Algebra.Order.Ring.Nat
import Mathlib.Tactic.Common
import NanoKvm.Exec.Registers

/-!
# The VPSS scaler

The mem2mem driver of the SG2002 scaler keeps the formats of its two queues and a crop of the
CAPTURE surface, and programs the output engine from them. `plane_layout_iff` says for which of
the reachable contexts a job writes the crop where the CAPTURE format puts it.
-/

namespace NanoKvm.Vpss

open Exec

/-! ## Formats -/

/-- `VPSS_MIN_DIM`, `VPSS_MAX_DIM` and `VPSS_MAX_RATIO` -/
def minDim : Nat := 64
def maxDim : Nat := 2880
def maxRatio : Nat := 4

/-- `V4L2_PIX_FMT_NV12` and the other pixel formats of the driver. -/
def pixFmtNv12 : Nat := 0x3231564e
def pixFmtNv21 : Nat := 0x3132564e
def pixFmtYuyv : Nat := 0x56595559
def pixFmtUyvy : Nat := 0x59565955

/-- `struct vpss_fmt` -/
structure Fmt where
  fourcc : Nat
  hwFmt : Nat
  yDepth : Nat
  is420sp : Bool
  deriving DecidableEq, Repr

/-- `vpss_cap_fmts` -/
def capFmts : List Fmt := [⟨pixFmtNv12, 8, 8, true⟩, ⟨pixFmtNv21, 9, 8, true⟩]

/-- `vpss_out_fmts` -/
def outFmts : List Fmt := [⟨pixFmtUyvy, 15, 16, false⟩, ⟨pixFmtYuyv, 13, 16, false⟩,
  ⟨pixFmtNv12, 8, 8, true⟩, ⟨pixFmtNv21, 9, 8, true⟩]

/-- The queues, from the view of V4L2: OUTPUT takes the source image. -/
inductive Queue where
  | output | capture
  deriving DecidableEq, Repr

/-- `vpss_find_fmt` -/
def findFmt (fourcc : Nat) : Queue → Fmt
  | .output => (outFmts.find? (·.fourcc = fourcc)).getD ⟨pixFmtUyvy, 15, 16, false⟩
  | .capture => (capFmts.find? (·.fourcc = fourcc)).getD ⟨pixFmtNv12, 8, 8, true⟩

/-- The colour tuple. -/
structure Colour where
  colorspace : Nat
  xferFunc : Nat
  ycbcrEnc : Nat
  quantization : Nat
  deriving DecidableEq, Repr

/-- `V4L2_COLORSPACE_REC709` and what belongs to it. -/
def rec709 : Colour := ⟨3, 1, 2, 2⟩

/-- The `V4L2_MAP_*_DEFAULT` macros of the kernel. -/
structure ColourMaps where
  xferFunc : Nat → Nat
  ycbcrEnc : Nat → Nat
  quantization : Nat → Nat → Nat

/-- `struct v4l2_pix_format`. Requested dimensions are any numbers; what is kept of them is small
enough for every product to fit in 32 bits. -/
structure PixFormat where
  width : Nat
  height : Nat
  pixelformat : Nat
  field : Nat
  bytesperline : Nat
  sizeimage : Nat
  colour : Colour
  deriving DecidableEq, Repr

/-- `struct vpss_q_data` -/
structure QData where
  fmt : Fmt
  width : Nat
  height : Nat
  bytesperline : Nat
  sizeimage : Nat
  deriving DecidableEq, Repr

/-- `struct v4l2_rect` -/
structure Rect where
  left : Int
  top : Int
  width : Nat
  height : Nat
  deriving DecidableEq, Repr

/-- `struct vpss_ctx`, as far as the ioctls change it. -/
structure Ctx where
  capture : QData
  output : QData
  colour : Colour
  crop : Rect
  deriving DecidableEq, Repr

/-- `vpss_open`: 1080p UYVY to NV12, 1:1. -/
def vpssOpen : Ctx where
  capture := ⟨findFmt pixFmtNv12 .capture, 1920, 1080, 1920, 1920 * 1080 * 3 / 2⟩
  output := ⟨findFmt pixFmtUyvy .output, 1920, 1080, 1920 * 2, 1920 * 2 * 1080⟩
  colour := rec709
  crop := ⟨0, 0, 1920, 1080⟩

/-- `clamp_t(u32, ...)` -/
def clamp (value low high : Nat) : Nat := min (max value low) high

/-- `round_down(value, 2)` -/
def roundDown (value : Nat) : Nat := value - value % 2

/-- The colour tuple that OUTPUT resolves; zero is the default of each part. -/
def resolveColour (maps : ColourMaps) (colour : Colour) : Colour :=
  let colorspace := if colour.colorspace = 0 then rec709.colorspace else colour.colorspace
  let xferFunc := if colour.xferFunc = 0 then maps.xferFunc colorspace else colour.xferFunc
  let ycbcrEnc := if colour.ycbcrEnc = 0 then maps.ycbcrEnc colorspace else colour.ycbcrEnc
  let quantization :=
    if colour.quantization = 0 then maps.quantization colorspace ycbcrEnc else colour.quantization
  ⟨colorspace, xferFunc, ycbcrEnc, quantization⟩

/-- `vpss_try_fmt` -/
def tryFmt (maps : ColourMaps) (ctx : Ctx) (queue : Queue) (pix : PixFormat) : PixFormat :=
  let fmt := findFmt pix.pixelformat queue
  let width := roundDown (clamp pix.width minDim maxDim)
  let height := roundDown (clamp pix.height minDim maxDim)
  let bytesperline := width * fmt.yDepth / 8
  let sizeimage := bytesperline * height
  { pixelformat := fmt.fourcc
    width := width
    height := height
    field := 1
    bytesperline := bytesperline
    sizeimage := if fmt.is420sp then sizeimage + width * height / 2 else sizeimage
    colour := match queue with
      | .output => resolveColour maps pix.colour
      | .capture => ctx.colour }

/-- The errors of the ioctls. -/
inductive Errno where
  | inval | busy
  deriving DecidableEq, Repr

/-- What `vpss_s_fmt` keeps of an accepted format. -/
def Ctx.keep (ctx : Ctx) (queue : Queue) (pix : PixFormat) : Ctx :=
  let qData : QData :=
    ⟨findFmt pix.pixelformat queue, pix.width, pix.height, pix.bytesperline, pix.sizeimage⟩
  match queue with
  | .output => { ctx with output := qData, colour := pix.colour }
  | .capture => { ctx with capture := qData, crop := ⟨0, 0, qData.width, qData.height⟩ }

/-- `vpss_s_fmt`. `busy` says which queues have buffers. -/
def sFmt (maps : ColourMaps) (ctx : Ctx) (queue : Queue) (busy : Queue → Bool) (pix : PixFormat) :
    Except Errno PixFormat × Ctx :=
  if busy queue then (.error .busy, ctx)
  else
    let pix := tryFmt maps ctx queue pix
    if queue = .output ∧ busy .capture ∧ ctx.colour ≠ pix.colour then (.error .busy, ctx)
    else (.ok pix, ctx.keep queue pix)

/-- The selection targets, the crop apart. -/
inductive Target where
  | crop | other
  deriving DecidableEq, Repr

/-- `vpss_s_selection` -/
def sSelection (ctx : Ctx) (queue : Queue) (target : Target) (r : Rect) : Except Errno Rect × Ctx :=
  if queue ≠ .capture ∨ target ≠ .crop then (.error .inval, ctx)
  else
    -- the visible image always starts at the surface origin
    let r : Rect := {
      left := 0
      top := 0
      width := clamp (roundDown r.width) minDim ctx.capture.width
      height := clamp (roundDown r.height) minDim ctx.capture.height }
    (.ok r, { ctx with crop := r })

/-- The contexts that calls of any kind lead to. -/
inductive Reached (maps : ColourMaps) : Ctx → Prop where
  | opened : Reached maps vpssOpen
  | sFmt {ctx : Ctx} (h : Reached maps ctx) (queue : Queue) (busy : Queue → Bool)
      (pix : PixFormat) : Reached maps (Vpss.sFmt maps ctx queue busy pix).2
  | sSelection {ctx : Ctx} (h : Reached maps ctx) (queue : Queue) (target : Target) (r : Rect) :
      Reached maps (Vpss.sSelection ctx queue target r).2

/-! ## Jobs -/

/-- The registers of the blocks, by offset. -/
def topCfg0 : Nat := 0x000
def topCfg1 : Nat := 0x004
def topShd : Nat := 0x010
def topImgCtrl : Nat := 0x040
def imgCfg : Nat := 0x2000
def imgOffset : Nat := 0x2004
def imgSize : Nat := 0x2008
def imgPitchY : Nat := 0x200c
def imgPitchC : Nat := 0x2010
def imgAddr0 : Nat := 0x2024
def imgAddr1 : Nat := 0x202c
def imgAddr2 : Nat := 0x2034
def imgFifoThr : Nat := 0x2060
def imgOutstanding : Nat := 0x2064
def imgDbg : Nat := 0x2068
def scCfgBypass : Nat := 0x5000
def scSrcSize : Nat := 0x500c
def scCropOffset : Nat := 0x5010
def scCropSize : Nat := 0x5014
def scScCfg : Nat := 0x5134
def scHCfg : Nat := 0x5138
def scVCfg : Nat := 0x513c
def scOutSize : Nat := 0x5140
def scIniPh : Nat := 0x5148
def odmaCfg : Nat := 0x5c00
def odmaAddr0 : Nat := 0x5c04
def odmaAddr1 : Nat := 0x5c0c
def odmaAddr2 : Nat := 0x5c14
def odmaPitchY : Nat := 0x5c1c
def odmaPitchC : Nat := 0x5c20
def odmaOffsetX : Nat := 0x5c24
def odmaOffsetY : Nat := 0x5c28
def odmaWidth : Nat := 0x5c2c
def odmaHeight : Nat := 0x5c30
def cscEn : Nat := 0x5d00
def cscCoef0 : Nat := 0x5d04
def cscCoef4 : Nat := 0x5d14
def cscOffset : Nat := 0x5d18

/-- `vpss_write` -/
def put (reg val : Nat) (regs : RegisterFile) : RegisterFile := regs.write reg (.ofNat 32 val)

/-- `vpss_write_mask` -/
def putMask (reg mask val : Nat) (regs : RegisterFile) : RegisterFile :=
  regs.write reg (regs reg &&& ~~~.ofNat 32 mask ||| .ofNat 32 val &&& .ofNat 32 mask)

/-- `vpss_set_addr`: the low half, then the high half. -/
def setAddr (reg addr : Nat) (regs : RegisterFile) : RegisterFile :=
  put (reg + 4) (addr / 2 ^ 32) (put reg addr regs)

/-- `DIV_ROUND_CLOSEST((from - 1) << 13, to - 1)` -/
def ratio (source crop : Nat) : Nat := (((source - 1) <<< 13) + (crop - 1) / 2) / (crop - 1)

/-- The input side of `vpss_job_hw`. -/
def jobInput (ctx : Ctx) (src : Nat) (regs : RegisterFile) : RegisterFile :=
  let qIn := ctx.output
  let sw := qIn.width
  let sh := qIn.height
  let regs := put imgFifoThr ((if qIn.fmt.is420sp then 0x40 <<< 16 else 0x80 <<< 16) ||| 0x80) regs
  let regs := put imgOutstanding 0xf regs
  let regs := put imgCfg ((7 <<< 8) ||| (qIn.fmt.hwFmt <<< 4) ||| 2) regs
  let regs := put imgOffset 0 regs
  let regs := put imgSize (((sh - 1) <<< 16) ||| (sw - 1)) regs
  let regs := put imgPitchY qIn.bytesperline regs
  let regs := put imgPitchC (if qIn.fmt.is420sp then sw else qIn.bytesperline) regs
  let regs := setAddr imgAddr0 src regs
  let regs := setAddr imgAddr1 (if qIn.fmt.is420sp then src + qIn.bytesperline * sh else 0) regs
  let regs := setAddr imgAddr2 0 regs
  putMask topImgCtrl 0x2200 0 regs

/-- The scaler, without the upload of its coefficients. -/
def jobScaler (ctx : Ctx) (regs : RegisterFile) : RegisterFile :=
  let sw := ctx.output.width
  let sh := ctx.output.height
  let dw := ctx.crop.width
  let dh := ctx.crop.height
  let regs := put scSrcSize (((sh - 1) <<< 12) ||| (sw - 1)) regs
  let regs := put scCropOffset 0 regs
  let regs := put scCropSize (((sh - 1) <<< 16) ||| (sw - 1)) regs
  let regs := put scOutSize (((dh - 1) <<< 16) ||| (dw - 1)) regs
  let regs := putMask scHCfg 0x03ffff00 (ratio sw dw <<< 8) regs
  let regs := putMask scVCfg 0x03ffff00 (ratio sh dh <<< 8) regs
  let regs := put scScCfg 0x03 regs
  let regs := put scIniPh 0 regs
  let regs := put scCfgBypass 0x24 regs
  -- the output matrix passes the components through
  let regs := put cscCoef0 1024 regs
  let regs := put (cscCoef0 + 4) 0 regs
  let regs := put (cscCoef0 + 8) 1024 regs
  let regs := put (cscCoef0 + 12) 0 regs
  let regs := put cscCoef4 1024 regs
  let regs := put cscOffset 0 regs
  put cscEn 0x101 regs

/-- The output engine. -/
def jobOutput (ctx : Ctx) (dst : Nat) (regs : RegisterFile) : RegisterFile :=
  let qOut := ctx.capture
  let dw := ctx.crop.width
  let dh := ctx.crop.height
  let regs := put odmaCfg ((qOut.fmt.hwFmt <<< 8) ||| 7) regs
  let regs := put odmaOffsetX 0 regs
  let regs := put odmaOffsetY 0 regs
  let regs := put odmaWidth (dw - 1) regs
  let regs := put odmaHeight (dh - 1) regs
  let regs := put odmaPitchY qOut.bytesperline regs
  let regs := put odmaPitchC dw regs
  let regs := setAddr odmaAddr0 dst regs
  let regs := setAddr odmaAddr1 (dst + qOut.bytesperline * qOut.height) regs
  setAddr odmaAddr2 0 regs

/-- The shadow banks are committed and the job is started. -/
def jobStart (regs : RegisterFile) : RegisterFile :=
  let regs := put topCfg1 0xff1002 regs
  let regs := putMask topCfg0 1 1 regs
  let regs := putMask topShd 0xff 0xff regs
  let regs := putMask imgDbg 0x40000 0x40000 regs
  putMask topImgCtrl 0x3 0x2 regs

/-- `vpss_job_hw` -/
def jobHw (ctx : Ctx) (src dst : Nat) (regs : RegisterFile) : RegisterFile :=
  jobStart (jobOutput ctx dst (jobScaler ctx (jobInput ctx src regs)))

/-- The conversion that `vpss_device_run` rejects. -/
def Rejects (ctx : Ctx) : Prop :=
  ctx.crop.width = 0 ∨ ctx.crop.height = 0 ∨
  ctx.crop.width > ctx.output.width ∨ ctx.crop.height > ctx.output.height ∨
  ctx.crop.width * maxRatio < ctx.output.width ∨ ctx.crop.height * maxRatio < ctx.output.height ∨
  ctx.crop.width > ctx.capture.width ∨ ctx.crop.height > ctx.capture.height

instance (ctx : Ctx) : Decidable (Rejects ctx) := inferInstanceAs (Decidable (_ ∨ _))

/-- `vpss_device_run` on a pair of buffers: `none` when they are given back with an error. -/
def deviceRun (ctx : Ctx) (streaming : Nat) (src dst : Nat) (regs : RegisterFile) :
    Option RegisterFile :=
  if Rejects ctx then none
  else if streaming = 0 then none
  else some (jobHw ctx src dst regs)

/-! ## The output engine -/

/-- What the output engine reads from its registers. -/
structure Odma where
  addr0 : Nat
  addr1 : Nat
  pitchY : Nat
  pitchC : Nat
  width : Nat
  height : Nat
  deriving DecidableEq, Repr

/-- An address in its two registers. -/
def address (reg : Nat) (regs : RegisterFile) : Nat :=
  (regs reg).toNat + 2 ^ 32 * (regs (reg + 4)).toNat

def odmaOf (regs : RegisterFile) : Odma where
  addr0 := address odmaAddr0 regs
  addr1 := address odmaAddr1 regs
  pitchY := (regs odmaPitchY).toNat
  pitchC := (regs odmaPitchC).toNat
  width := (regs odmaWidth).toNat + 1
  height := (regs odmaHeight).toNat + 1

/-- Where the engine writes the bytes of its luma and of its chroma rows. -/
def Odma.luma (odma : Odma) (row col : Nat) : Nat := odma.addr0 + row * odma.pitchY + col
def Odma.chroma (odma : Odma) (row col : Nat) : Nat := odma.addr1 + row * odma.pitchC + col

/-- The engine writes this byte. -/
def Odma.Writes (odma : Odma) (byte : Nat) : Prop :=
  (∃ row < odma.height, ∃ col < odma.width, byte = odma.luma row col) ∨
  ∃ row < odma.height / 2, ∃ col < odma.width, byte = odma.chroma row col

/-- Where the CAPTURE format of a buffer puts them: the chroma plane follows all luma rows of the
format, and both have its stride. -/
def QData.luma (qOut : QData) (dst row col : Nat) : Nat := dst + row * qOut.bytesperline + col
def QData.chroma (qOut : QData) (dst row col : Nat) : Nat :=
  dst + (qOut.bytesperline * qOut.height + row * qOut.bytesperline) + col

/-- The byte belongs to a sample of the crop. -/
def Ctx.InCrop (ctx : Ctx) (dst byte : Nat) : Prop :=
  (∃ row < ctx.crop.height, ∃ col < ctx.crop.width, byte = ctx.capture.luma dst row col) ∨
  ∃ row < ctx.crop.height / 2, ∃ col < ctx.crop.width, byte = ctx.capture.chroma dst row col

/-- An even dimension of the hardware. -/
def EvenDim (dim : Nat) : Prop := dim % 2 = 0 ∧ minDim ≤ dim

instance (dim : Nat) : Decidable (EvenDim dim) := inferInstanceAs (Decidable (_ ∧ _))

/-- The crop is a rectangle of the CAPTURE surface that the scaler can produce. -/
structure Geometry (ctx : Ctx) : Prop where
  width : EvenDim ctx.crop.width
  height : EvenDim ctx.crop.height
  inside : ctx.crop.width ≤ ctx.capture.width ∧ ctx.crop.height ≤ ctx.capture.height
  down : ctx.crop.width ≤ ctx.output.width ∧ ctx.crop.height ≤ ctx.output.height
  ratio : ctx.output.width ≤ 4 * ctx.crop.width ∧ ctx.output.height ≤ 4 * ctx.crop.height

/-- What a job and the ioctls before it promise about the planes of the surface. -/
structure PlaneLayout (maps : ColourMaps) (ctx : Ctx) (odma : Odma) (dst : Nat) : Prop where
  geometry : Geometry ctx
  luma : ∀ row < ctx.crop.height, ∀ col < ctx.crop.width,
    row < odma.height ∧ col < odma.width ∧ odma.luma row col = ctx.capture.luma dst row col
  chroma : ∀ row < ctx.crop.height / 2, ∀ col < ctx.crop.width,
    row < odma.height / 2 ∧ col < odma.width ∧
      odma.chroma row col = ctx.capture.chroma dst row col
  inside : ∀ byte, odma.Writes byte → dst ≤ byte ∧ byte < dst + ctx.capture.sizeimage
  cropOnly : ∀ byte, odma.Writes byte → ctx.InCrop dst byte
  refused : ∀ queue busy pix error,
    (sFmt maps ctx queue busy pix).1 = .error error → (sFmt maps ctx queue busy pix).2 = ctx

/-! ## Reachable contexts -/

/-- A dimension of a format. -/
def FormatDim (dim : Nat) : Prop := EvenDim dim ∧ dim ≤ maxDim

instance (dim : Nat) : Decidable (FormatDim dim) := inferInstanceAs (Decidable (_ ∧ _))

/-- What every call keeps. -/
structure Inv (ctx : Ctx) : Prop where
  captureWidth : FormatDim ctx.capture.width
  captureHeight : FormatDim ctx.capture.height
  outputWidth : FormatDim ctx.output.width
  outputHeight : FormatDim ctx.output.height
  stride : ctx.capture.bytesperline = ctx.capture.width
  size : ctx.capture.sizeimage
    = ctx.capture.width * ctx.capture.height + ctx.capture.width * ctx.capture.height / 2
  cropWidth : EvenDim ctx.crop.width ∧ ctx.crop.width ≤ ctx.capture.width
  cropHeight : EvenDim ctx.crop.height ∧ ctx.crop.height ≤ ctx.capture.height

/-- `vpss_try_fmt` keeps dimensions in range. -/
theorem format_dim (requested : Nat) : FormatDim (roundDown (clamp requested minDim maxDim)) := by
  unfold FormatDim EvenDim roundDown clamp minDim maxDim
  omega

/-- `vpss_s_selection` keeps the crop inside the surface. -/
theorem crop_dim {surface : Nat} (h : FormatDim surface) (requested : Nat) :
    EvenDim (clamp (roundDown requested) minDim surface)
      ∧ clamp (roundDown requested) minDim surface ≤ surface := by
  obtain ⟨⟨heven, hmin⟩, _⟩ := h
  unfold EvenDim roundDown clamp minDim at *
  omega

/-- Both CAPTURE formats are semiplanar with a byte for a luma sample. -/
theorem capture_fmt (fourcc : Nat) :
    (findFmt fourcc .capture).yDepth = 8 ∧ (findFmt fourcc .capture).is420sp = true := by
  unfold findFmt capFmts
  by_cases hnv12 : pixFmtNv12 = fourcc
  · simp [hnv12]
  · by_cases hnv21 : pixFmtNv21 = fourcc
    · simp [hnv12, hnv21]
    · simp [hnv12, hnv21]

theorem inv_open : Inv vpssOpen where
  captureWidth := by decide
  captureHeight := by decide
  outputWidth := by decide
  outputHeight := by decide
  stride := rfl
  size := rfl
  cropWidth := by decide
  cropHeight := by decide

section

variable {maps : ColourMaps} {ctx : Ctx}

/-- A refused format leaves the context alone. -/
theorem s_fmt_refused {queue : Queue} {busy : Queue → Bool} {pix : PixFormat} {error : Errno}
    (h : (sFmt maps ctx queue busy pix).1 = .error error) :
    (sFmt maps ctx queue busy pix).2 = ctx := by
  unfold sFmt at h ⊢
  split
  · rfl
  · rename_i hfree
    rw [if_neg hfree] at h
    dsimp only at h ⊢
    split
    · rfl
    · rename_i hsame
      rw [if_neg hsame] at h
      cases h

theorem inv_keep (h : Inv ctx) (queue : Queue) (pix : PixFormat) :
    Inv (ctx.keep queue (tryFmt maps ctx queue pix)) := by
  cases queue with
  | output =>
      exact { h with
        outputWidth := format_dim pix.width
        outputHeight := format_dim pix.height }
  | capture =>
      obtain ⟨hdepth, hplanes⟩ := capture_fmt pix.pixelformat
      have hwidth := format_dim pix.width
      have hheight := format_dim pix.height
      have hstride : (tryFmt maps ctx .capture pix).bytesperline
          = (tryFmt maps ctx .capture pix).width := by
        simp only [tryFmt, hdepth]
        exact Nat.mul_div_cancel _ (by decide)
      refine ⟨hwidth, hheight, h.outputWidth, h.outputHeight, hstride, ?_, ⟨hwidth.1, Nat.le_refl _⟩,
        ⟨hheight.1, Nat.le_refl _⟩⟩
      show (tryFmt maps ctx .capture pix).sizeimage = (tryFmt maps ctx .capture pix).width
        * (tryFmt maps ctx .capture pix).height + (tryFmt maps ctx .capture pix).width
        * (tryFmt maps ctx .capture pix).height / 2
      rw [← hstride]
      simp only [tryFmt, hplanes, hdepth, if_true]
      rw [Nat.mul_div_cancel _ (by decide : 0 < 8)]

theorem inv_s_fmt (h : Inv ctx) (queue : Queue) (busy : Queue → Bool) (pix : PixFormat) :
    Inv (sFmt maps ctx queue busy pix).2 := by
  unfold sFmt
  split
  · exact h
  · dsimp only
    split
    · exact h
    · exact inv_keep h queue pix

theorem inv_s_selection (h : Inv ctx) (queue : Queue) (target : Target) (r : Rect) :
    Inv (sSelection ctx queue target r).2 := by
  unfold sSelection
  split
  · exact h
  · exact { h with
      cropWidth := crop_dim h.captureWidth r.width
      cropHeight := crop_dim h.captureHeight r.height }

theorem reached_inv (h : Reached maps ctx) : Inv ctx := by
  induction h with
  | opened => exact inv_open
  | sFmt h queue busy pix ih => exact inv_s_fmt ih queue busy pix
  | sSelection h queue target r ih => exact inv_s_selection ih queue target r

/-- A job that is not rejected has a crop that the scaler can produce. -/
theorem geometry_of_run (h : Inv ctx) (hrun : ¬ Rejects ctx) : Geometry ctx := by
  unfold Rejects maxRatio at hrun
  simp only [not_or, Nat.not_lt] at hrun
  obtain ⟨_, _, hwidth, hheight, hratio, hratio', _, _⟩ := hrun
  exact ⟨h.cropWidth.1, h.cropHeight.1, ⟨h.cropWidth.2, h.cropHeight.2⟩, ⟨hwidth, hheight⟩,
    ⟨by omega, by omega⟩⟩

/-! ## The registers of a job -/

theorem address_set {addr : Nat} (reg : Nat) (regs : RegisterFile) (h : addr < 2 ^ 64) :
    address reg (setAddr reg addr regs) = addr := by
  have hlow : (setAddr reg addr regs) reg = .ofNat 32 addr := by
    unfold setAddr put
    rw [RegisterFile.write_other _ _ (by omega), RegisterFile.write_self]
  have hhigh : (setAddr reg addr regs) (reg + 4) = .ofNat 32 (addr / 2 ^ 32) :=
    RegisterFile.write_self ..
  rw [address, hlow, hhigh, BitVec.toNat_ofNat, BitVec.toNat_ofNat]
  omega

/-- What the output engine is told. -/
theorem odma_job (ctx : Ctx) (src : Nat) {dst : Nat} (regs : RegisterFile)
    (hdst : dst + ctx.capture.bytesperline * ctx.capture.height < 2 ^ 64)
    (hwidth : ctx.crop.width < 2 ^ 32) (hheight : ctx.crop.height < 2 ^ 32)
    (hpitch : ctx.capture.bytesperline < 2 ^ 32) (hsome : 0 < ctx.crop.width)
    (hsome' : 0 < ctx.crop.height) :
    odmaOf (jobHw ctx src dst regs) = {
      addr0 := dst
      addr1 := dst + ctx.capture.bytesperline * ctx.capture.height
      pitchY := ctx.capture.bytesperline
      pitchC := ctx.crop.width
      width := ctx.crop.width
      height := ctx.crop.height } := by
  unfold jobHw
  generalize jobScaler ctx (jobInput ctx src regs) = before
  have hquiet : ∀ reg (after : RegisterFile), odmaCfg ≤ reg → jobStart after reg = after reg := by
    intro reg after hle
    have hne : ∀ other, other < odmaCfg → reg ≠ other := by
      intro other hlt heq
      omega
    unfold jobStart put putMask
    simp only [RegisterFile.write_other _ _ (hne topImgCtrl (by decide)),
      RegisterFile.write_other _ _ (hne imgDbg (by decide)),
      RegisterFile.write_other _ _ (hne topShd (by decide)),
      RegisterFile.write_other _ _ (hne topCfg0 (by decide)),
      RegisterFile.write_other _ _ (hne topCfg1 (by decide))]
  have hpitchY : jobOutput ctx dst before odmaPitchY = .ofNat 32 ctx.capture.bytesperline := by
    simp [jobOutput, setAddr, put, RegisterFile.write, odmaAddr0, odmaAddr1, odmaAddr2, odmaPitchY,
      odmaPitchC]
  have hpitchC : jobOutput ctx dst before odmaPitchC = .ofNat 32 ctx.crop.width := by
    simp [jobOutput, setAddr, put, RegisterFile.write, odmaAddr0, odmaAddr1, odmaAddr2, odmaPitchC]
  have hw : jobOutput ctx dst before odmaWidth = .ofNat 32 (ctx.crop.width - 1) := by
    simp [jobOutput, setAddr, put, RegisterFile.write, odmaAddr0, odmaAddr1, odmaAddr2, odmaPitchY,
      odmaPitchC, odmaWidth, odmaHeight]
  have hh : jobOutput ctx dst before odmaHeight = .ofNat 32 (ctx.crop.height - 1) := by
    simp [jobOutput, setAddr, put, RegisterFile.write, odmaAddr0, odmaAddr1, odmaAddr2, odmaPitchY,
      odmaPitchC, odmaHeight]
  have haddr0 : address odmaAddr0 (jobOutput ctx dst before) = dst := by
    refine Eq.trans ?_ (address_set odmaAddr0 before (by omega : dst < 2 ^ 64))
    simp [address, jobOutput, setAddr, put, RegisterFile.write, odmaAddr0, odmaAddr1, odmaAddr2]
  have haddr1 : address odmaAddr1 (jobOutput ctx dst before)
      = dst + ctx.capture.bytesperline * ctx.capture.height := by
    refine Eq.trans ?_ (address_set odmaAddr1 before hdst)
    simp [address, jobOutput, setAddr, put, RegisterFile.write, odmaAddr1, odmaAddr2]
  unfold odmaOf address at *
  simp only [hquiet _ _ (by decide : odmaCfg ≤ odmaAddr0),
    hquiet _ _ (by decide : odmaCfg ≤ odmaAddr0 + 4), hquiet _ _ (by decide : odmaCfg ≤ odmaAddr1),
    hquiet _ _ (by decide : odmaCfg ≤ odmaAddr1 + 4), hquiet _ _ (by decide : odmaCfg ≤ odmaPitchY),
    hquiet _ _ (by decide : odmaCfg ≤ odmaPitchC), hquiet _ _ (by decide : odmaCfg ≤ odmaWidth),
    hquiet _ _ (by decide : odmaCfg ≤ odmaHeight), haddr0, haddr1, hpitchY, hpitchC, hw, hh,
    BitVec.toNat_ofNat, Odma.mk.injEq, true_and]
  omega

/-! ## The planes -/

/-- A byte of a row lies inside the rows. -/
theorem row_inside {row col rows width stride : Nat} (hrow : row < rows) (hcol : col < width)
    (hwidth : width ≤ stride) : row * stride + col < rows * stride := by
  have hnext : (row + 1) * stride ≤ rows * stride := Nat.mul_le_mul_right stride hrow
  rw [Nat.add_mul, Nat.one_mul] at hnext
  omega

/-- Half the rows of a crop fit in half the samples of its surface. -/
theorem half_rows {rows height width : Nat} (h : rows ≤ height) :
    rows / 2 * width ≤ width * height / 2 := by
  have hrows : rows / 2 * 2 ≤ height := Nat.le_trans (Nat.div_mul_le_self ..) h
  rw [Nat.le_div_iff_mul_le (by decide), Nat.mul_right_comm, Nat.mul_comm width]
  exact Nat.mul_le_mul_right width hrows

/-- What the registers of a job are, in a reachable context. -/
theorem odma_run {streaming src dst : Nat} {regs after : RegisterFile} (h : Inv ctx)
    (hjob : deviceRun ctx streaming src dst regs = some after)
    (hdst : dst + ctx.capture.sizeimage ≤ 2 ^ 64) :
    ¬ Rejects ctx ∧ odmaOf after = {
      addr0 := dst
      addr1 := dst + ctx.capture.width * ctx.capture.height
      pitchY := ctx.capture.width
      pitchC := ctx.crop.width
      width := ctx.crop.width
      height := ctx.crop.height } := by
  unfold deviceRun at hjob
  split at hjob
  · cases hjob
  · rename_i hrun
    split at hjob
    · cases hjob
    · obtain rfl := Option.some.inj hjob
      obtain ⟨⟨_, hmin⟩, hmax⟩ := h.captureWidth
      obtain ⟨⟨_, hmin'⟩, hmax'⟩ := h.captureHeight
      obtain ⟨⟨_, hcrop⟩, hle⟩ := h.cropWidth
      obtain ⟨⟨_, hcrop'⟩, hle'⟩ := h.cropHeight
      unfold minDim maxDim at *
      have hplane : 2 ≤ ctx.capture.width * ctx.capture.height := by
        have := Nat.mul_le_mul hmin hmin'
        omega
      have hsize := h.size
      have hplanes : dst + ctx.capture.bytesperline * ctx.capture.height < 2 ^ 64 := by
        rw [h.stride]
        omega
      have hjobRegs := odma_job ctx src regs hplanes (by omega) (by omega) (by rw [h.stride]; omega)
        (by omega) (by omega)
      rw [h.stride] at hjobRegs
      exact ⟨hrun, hjobRegs⟩

/-- A crop as wide as the surface is laid out as the format says. -/
theorem layout_of_width {dst : Nat} {odma : Odma} (h : Inv ctx) (hgeometry : Geometry ctx)
    (hodma : odma = {
      addr0 := dst
      addr1 := dst + ctx.capture.width * ctx.capture.height
      pitchY := ctx.capture.width
      pitchC := ctx.crop.width
      width := ctx.crop.width
      height := ctx.crop.height }) (hwidth : ctx.crop.width = ctx.capture.width) :
    PlaneLayout maps ctx odma dst := by
  subst hodma
  have hluma : ∀ row col, Odma.luma ⟨dst, dst + ctx.capture.width * ctx.capture.height,
      ctx.capture.width, ctx.crop.width, ctx.crop.width, ctx.crop.height⟩ row col
      = ctx.capture.luma dst row col := by
    intro row col
    rw [Odma.luma, QData.luma, h.stride]
  have hchroma : ∀ row col, Odma.chroma ⟨dst, dst + ctx.capture.width * ctx.capture.height,
      ctx.capture.width, ctx.crop.width, ctx.crop.width, ctx.crop.height⟩ row col
      = ctx.capture.chroma dst row col := by
    intro row col
    rw [Odma.chroma, QData.chroma, h.stride, hwidth]
    exact congrArg (· + col) (Nat.add_assoc ..)
  refine ⟨hgeometry, fun row hrow col hcol => ⟨hrow, hcol, hluma row col⟩,
    fun row hrow col hcol => ⟨hrow, hcol, hchroma row col⟩, ?_, ?_,
    fun queue busy pix error => s_fmt_refused⟩
  · intro byte hwrites
    rw [h.size]
    rcases hwrites with ⟨row, hrow, col, hcol, rfl⟩ | ⟨row, hrow, col, hcol, rfl⟩
    · have := row_inside (Nat.lt_of_lt_of_le hrow h.cropHeight.2) hcol h.cropWidth.2
      rw [hluma, QData.luma, h.stride]
      rw [Nat.mul_comm ctx.capture.height] at this
      omega
    · have := row_inside hrow hcol h.cropWidth.2
      have hrows : ctx.crop.height / 2 * ctx.capture.width
          ≤ ctx.capture.width * ctx.capture.height / 2 := half_rows h.cropHeight.2
      rw [hchroma, QData.chroma, h.stride]
      dsimp only at this
      omega
  · intro byte hwrites
    rcases hwrites with ⟨row, hrow, col, hcol, rfl⟩ | ⟨row, hrow, col, hcol, rfl⟩
    · exact .inl ⟨row, hrow, col, hcol, hluma row col⟩
    · exact .inr ⟨row, hrow, col, hcol, hchroma row col⟩

/-- In a layout the second chroma row starts a stride behind the first. -/
theorem width_of_layout {dst : Nat} {odma : Odma} (h : Inv ctx)
    (hodma : odma = {
      addr0 := dst
      addr1 := dst + ctx.capture.width * ctx.capture.height
      pitchY := ctx.capture.width
      pitchC := ctx.crop.width
      width := ctx.crop.width
      height := ctx.crop.height }) (hlayout : PlaneLayout maps ctx odma dst) :
    ctx.crop.width = ctx.capture.width := by
  obtain ⟨⟨_, hmin⟩, _⟩ := h.cropWidth
  obtain ⟨⟨_, hmin'⟩, _⟩ := h.cropHeight
  unfold minDim at hmin hmin'
  obtain ⟨_, _, hplaced⟩ := hlayout.chroma 1 (by omega) 0 (by omega)
  subst hodma
  rw [Odma.chroma, QData.chroma, h.stride] at hplaced
  dsimp only at hplaced
  omega

/-- The planes of a job are laid out as the CAPTURE format says exactly when the crop is as wide as
the surface. -/
theorem plane_layout_iff (h : Reached maps ctx) {streaming src dst : Nat}
    {regs after : RegisterFile} (hjob : deviceRun ctx streaming src dst regs = some after)
    (hdst : dst + ctx.capture.sizeimage ≤ 2 ^ 64) :
    PlaneLayout maps ctx (odmaOf after) dst ↔ ctx.crop.width = ctx.capture.width := by
  have hinv := reached_inv h
  obtain ⟨hrun, hodma⟩ := odma_run hinv hjob hdst
  constructor
  · exact width_of_layout hinv hodma
  · exact layout_of_width hinv (geometry_of_run hinv hrun) hodma

end

/-- The default maps of the first colour spaces. -/
def someMaps : ColourMaps := ⟨fun _ => 1, fun _ => 2, fun _ _ => 2⟩

/-- A YUYV picture scaled down to 720 lines of a surface that is padded to 736 lines. -/
def padded : Ctx :=
  let ctx := (sFmt someMaps vpssOpen .output (fun _ => false)
    ⟨1920, 1080, pixFmtYuyv, 1, 0, 0, rec709⟩).2
  let ctx := (sFmt someMaps ctx .capture (· = .output)
    ⟨1281, 736, pixFmtNv21, 1, 0, 0, rec709⟩).2
  (sSelection ctx .capture .crop ⟨8, 8, 1280, 720⟩).2

theorem plane_layout_padded :
    padded.capture = ⟨findFmt pixFmtNv21 .capture, 1280, 736, 1280, 1413120⟩ ∧
    padded.crop = ⟨0, 0, 1280, 720⟩ ∧
    PlaneLayout someMaps padded
      (odmaOf (jobHw padded 0x80000000 0x90000000 fun _ => 0)) 0x90000000 := by
  have hreached : Reached someMaps padded := .sSelection (.sFmt (.sFmt .opened ..) ..) ..
  have hjob : deviceRun padded 1 0x80000000 0x90000000 (fun _ => 0)
      = some (jobHw padded 0x80000000 0x90000000 fun _ => 0) := rfl
  exact ⟨rfl, rfl, (plane_layout_iff hreached hjob (by decide)).mpr rfl⟩

/-- A crop narrower than its surface. -/
def cropped : Ctx := (sSelection vpssOpen .capture .crop ⟨0, 0, 1280, 720⟩).2

/-- Its chroma rows are not where the format has them. -/
theorem cropped_layout :
    ¬ ∀ (maps : ColourMaps) (ctx : Ctx) (streaming src dst : Nat) (regs after : RegisterFile),
      Reached maps ctx → deviceRun ctx streaming src dst regs = some after →
      dst + ctx.capture.sizeimage ≤ 2 ^ 64 → PlaneLayout maps ctx (odmaOf after) dst := by
  intro h
  have hreached : Reached someMaps cropped := .sSelection .opened ..
  have hjob : deviceRun cropped 1 0x80000000 0x90000000 (fun _ => 0)
      = some (jobHw cropped 0x80000000 0x90000000 fun _ => 0) := rfl
  have hdst : 0x90000000 + cropped.capture.sizeimage ≤ 2 ^ 64 := by decide
  have hlayout := h _ _ _ _ _ _ _ hreached hjob hdst
  have hwidth := width_of_layout (reached_inv hreached)
    (odma_run (reached_inv hreached) hjob hdst).2 hlayout
  exact absurd hwidth (by decide)

end NanoKvm.Vpss
