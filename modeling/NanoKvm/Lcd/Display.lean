import NanoKvm.Exec.Reachability
import NanoKvm.Lcd.Drawing
import NanoKvm.Lcd.DriverSide
import NanoKvm.Lcd.ServiceSide

/-!
# From the framebuffer to the panel

`lcd_scanout` and `Service::step` again, now with the bytes of the pixels and the engine: the
driver's packed copy of the damaged rectangle, its request, the job the service makes of it and
the drawing. A call up to its commit and a step of the service are one action each here; the
single accesses are in `Lcd.Driver` and `Lcd.Service`. `panel_shows_scanouts` says that after
any run the panel shows the scanouts that succeeded, one after another.
-/

namespace NanoKvm.Lcd

open Panel

/-! ## The client -/

/-- The client's buffer: its bytes and the bytes of a row. -/
structure Framebuffer where
  data : Nat → UInt8
  pitch : Nat

/-- A pixel of the client, DRM_FORMAT_RGB565. -/
def Framebuffer.pixel (framebuffer : Framebuffer) (column row : Nat) : UInt16 :=
  slotPixel framebuffer.data (row * framebuffer.pitch + column * 2)

/-- `struct drm_rect` of a damage: not empty, and on the panel. -/
structure Clip where
  x1 : Nat
  y1 : Nat
  x2 : Nat
  y2 : Nat
  wide : x1 < x2
  high : y1 < y2
  right : x2 ≤ 240
  bottom : y2 ≤ 240

namespace Clip

/-- `drm_rect_width` -/
def width (clip : Clip) : Nat := clip.x2 - clip.x1

/-- `drm_rect_height` -/
def height (clip : Clip) : Nat := clip.y2 - clip.y1

/-- The whole panel. -/
def whole : Clip := ⟨0, 0, 240, 240, by decide, by decide, by decide, by decide⟩

end Clip

/-- A call of `lcd_scanout`: with a plane and its damage, or without. -/
inductive Scanout where
  | update (framebuffer : Framebuffer) (clip : Clip)
  | blank

namespace Scanout

def clip : Scanout → Clip
  | update _ clip => clip
  | blank => .whole

/-- What the client wants at a place of the panel. -/
def image : Scanout → Nat → Nat → UInt16
  | update framebuffer _, column, row => framebuffer.pixel column row
  | blank, _, _ => 0

/-- The controller's memory with exactly the rectangle replaced; the panel starts at row 80. -/
def shownOver (scanout : Scanout) (memory : Nat → Nat → UInt16) : Nat → Nat → UInt16 :=
  paint scanout.clip.x1 (scanout.clip.y1 + 80) scanout.clip.width scanout.clip.height
    (fun column row => scanout.image column (row - 80)) memory

end Scanout

/-! ## The copy -/

/-- `memcpy_toio` of some bytes. -/
def copyBytes (memory : Nat → UInt8) (target : Nat) (source : Nat → UInt8) (first count : Nat) :
    Nat → UInt8 :=
  fun address =>
    if target ≤ address ∧ address < target + count then source (first + (address - target))
    else memory address

/-- `drm_fb_memcpy` of so many rows of a rectangle, to rows of the given pitch. -/
def drmFbMemcpy (memory : Nat → UInt8) (address pitch : Nat) (framebuffer : Framebuffer)
    (clip : Clip) : Nat → Nat → UInt8
  | 0 => memory
  | rows + 1 =>
      copyBytes (drmFbMemcpy memory address pitch framebuffer clip rows) (address + rows * pitch)
        framebuffer.data ((clip.y1 + rows) * framebuffer.pitch + clip.x1 * 2) (clip.width * 2)

/-- The pixels of a scanout in the slot. -/
def writePixels (memory : Nat → UInt8) (slot : Slot) : Scanout → Nat → UInt8
  | .update framebuffer clip =>
      drmFbMemcpy memory (slotAddress slot) (clip.width * 2) framebuffer clip clip.height
  | .blank => copyBytes memory (slotAddress slot) (fun _ => 0) 0 frameBytes

/-- The rectangle of a scanout with the pixels that are in the slot. -/
def scanoutFrame (memory : Nat → UInt8) (slot : Slot) (scanout : Scanout) : Frame where
  x := .ofNat scanout.clip.x1
  y := .ofNat scanout.clip.y1
  width := .ofNat scanout.clip.width
  height := .ofNat scanout.clip.height
  pixels index := slotPixel memory (slotAddress slot + index * 2)

/-! ## The system -/

/-- The driver, the service, the shared memory and the panel. `pending` is a call that waits for
its completion, and `shown` are the calls that returned zero. -/
structure Display where
  fb : LcdFrames
  request : Slot → Line
  completion : Slot → Line
  board : Board
  engine : Panel.Engine
  completed : Slot → UInt32
  active : Option (Slot × UInt32 × UInt32)
  jobSequence : UInt32
  nextSlot : Slot
  faulted : Bool
  pending : Option Scanout
  shown : List Scanout

namespace Display

/-- `lcd_scanout` from the free slot to the commit. -/
def publish (generation : UInt32) (scanout : Scanout) (d : Display) : Display :=
  let slot := d.fb.nextSlot
  let sequence := nextSequence (d.fb.sequence slot)
  let memory := writePixels d.board.memory slot scanout
  let record :=
    { frameRecord generation sequence (scanoutFrame memory slot scanout) with commit := sequence }
  { d with
    board := { d.board with memory := memory }
    request := Function.update d.request slot record.toLine
    fb := { d.fb with
      sequence := Function.update d.fb.sequence slot sequence
      nextSlot := slot + 1 }
    pending := some scanout }

/-- A turn of `wait_slot` for the published slot. -/
def poll (generation : UInt32) (scanout : Scanout) (d : Display) : Display :=
  let slot := d.fb.nextSlot + 1
  match frameCompleted generation (d.fb.sequence slot) (d.completion slot) (d.completion slot) with
  | .pending => d
  | .failed error => { d with fb := { d.fb with fault := some error }, pending := none }
  | .done =>
      { d with
        fb := { d.fb with
          completed := Function.update d.fb.completed slot (d.fb.sequence slot) }
        pending := none
        shown := d.shown ++ [scanout] }

/-- `complete` -/
def complete (generation : UInt32) (slot : Slot) (sequence error : UInt32) (d : Display) :
    Display :=
  let record := { completionRecord generation sequence error with commit := sequence }
  { d with
    completion := Function.update d.completion slot record.toLine
    completed := Function.update d.completed slot sequence }

/-- The end of an active job. -/
def finish (generation : UInt32) (d : Display) : Display :=
  match d.active with
  | none => d
  | some (slot, sequence, job) =>
      if d.engine.status.state = .fault ∨ d.engine.status.completedSequence = job then
        let error : UInt32 := if d.engine.status.state = .fault then 1 else 0
        { complete generation slot sequence error d with active := none, nextSlot := slot + 1 }
      else d

/-- The job of a request. -/
def accept (generation : UInt32) (slot : Slot) (record : Record) (d : Display) : Display :=
  let sequence := nextJob d.jobSequence
  let job := Job.frame (.ofNat slot) record.x record.y record.width record.height
  match d.engine.submit sequence job with
  | .error _ =>
      { complete generation slot record.sequence 1 d with jobSequence := sequence, faulted := true }
  | .ok engine =>
      { d with
        engine := engine
        jobSequence := sequence
        active := some (slot, record.sequence, sequence) }

/-- The loop over the slots. -/
def acceptSlots (generation : UInt32) : List Slot → Display → Display
  | [], d => d
  | slot :: rest, d =>
      let record := Record.ofLine (d.request slot)
      if validRequest record generation (d.completed slot) then accept generation slot record d
      else acceptSlots generation rest d

/-- `Service::step` -/
def service (generation : UInt32) (link : Nat → Option (SpiError × Nat)) (now : UInt32)
    (d : Display) : Display :=
  if d.faulted then d
  else
    let (engine, board) := d.engine.step (Board.hardware link) now d.board
    let d := finish generation { d with engine := engine, board := board }
    if engine.status.state = .fault then { d with faulted := true }
    else if d.active.isSome ∨ engine.status.state ≠ .ready then d
    else acceptSlots generation [d.nextSlot, d.nextSlot + 1] d

end Display

/-- The driver starts a call when the slot's last frame has completed, polls or runs out of time;
the service takes a step. -/
inductive DisplayStep (generation : UInt32) (link : Nat → Option (SpiError × Nat)) :
    Display → Display → Prop where
  | publish {d : Display} (scanout : Scanout) (hfault : d.fb.fault = none)
      (hpending : d.pending = none)
      (hslot : d.fb.sequence d.fb.nextSlot = 0 ∨
        d.fb.completed d.fb.nextSlot = d.fb.sequence d.fb.nextSlot) :
      DisplayStep generation link d (d.publish generation scanout)
  | poll {d : Display} {scanout : Scanout} (hpending : d.pending = some scanout) :
      DisplayStep generation link d (d.poll generation scanout)
  | timeout {d : Display} (hpending : d.pending ≠ none) :
      DisplayStep generation link d
        { d with fb := { d.fb with fault := some .timedOut }, pending := none }
  | service {d : Display} (now : UInt32) :
      DisplayStep generation link d (d.service generation link now)

end NanoKvm.Lcd
