import Mathlib.Data.Fintype.Pi
import NanoKvm.Exec.Program
import NanoKvm.Lcd.Shared

/-!
# The framebuffer driver of Linux

`lcd_scanout` and what it calls, as a program over single accesses to the shared memory.
Between two barriers words become visible in any order, which the operation `arrange`
picks; a completion line is read as one snapshot. How long a wait may last, what the status
record says about the generation and whether the client's buffer is accessible come from
outside.
-/

namespace NanoKvm.Lcd

open Exec

/-- A frame of the client: the rectangle that changed and its pixels, row after row. -/
structure Frame where
  x : UInt16
  y : UInt16
  width : UInt16
  height : UInt16
  pixels : Nat → UInt16

/-- The errors of `lcd_scanout`. -/
inductive Errno where
  | timedOut | stale | io | proto | access
  deriving DecidableEq, Repr

/-- What `check_generation` returns: zero, `-EAGAIN` or an error. -/
inductive GenerationCheck where
  | current | again | failed (error : Errno)

/-- A word of the request line or a pixel of the slot. -/
inductive Cell where
  | word (index : Fin 16)
  | pixel (index : Nat)

/-- The operations of the driver. `returned` is the end of a call of `lcd_scanout`. -/
inductive LinuxOp where
  | nextFrame
  | lock
  | turns
  | checkGeneration
  | beginCpuAccess
  | readCompletion (slot : Slot)
  | arrange (cells : List Cell)
  | writeRequest (slot : Slot) (index : Fin 16) (word : UInt32)
  | writePixel (slot : Slot) (index : Nat) (pixel : UInt16)
  | commit (request : Request)
  | returned (frame : Frame) (error : Option Errno)

/-- What an operation of the driver returns. -/
abbrev LinuxOp.Ret : LinuxOp → Type
  | .nextFrame => Frame
  | .lock => Bool
  | .turns => Nat
  | .checkGeneration => GenerationCheck
  | .beginCpuAccess => Option Errno
  | .readCompletion _ => Line
  | .arrange _ => List Cell
  | _ => Unit

abbrev LinuxCode := Prog LinuxOp LinuxOp.Ret

/-- Perform an operation of the driver. -/
abbrev linuxDo (operation : LinuxOp) : LinuxCode operation.Ret := Prog.perform operation

/-- What an operation of the driver does. -/
def Shared.LinuxPerforms (s : Shared) :
    (operation : LinuxOp) → operation.Ret → Shared → Prop
  | .readCompletion slot, line, next => line = s.completion slot ∧ next = s
  | .arrange cells, order, next => order.Perm cells ∧ next = s
  | .writeRequest slot index word, _, next => next = s.writeRequest slot index word
  | .writePixel slot index pixel, _, next => next = s.writePixel slot index pixel
  | .commit request, _, next => next = s.commit request
  | .nextFrame, _, next | .lock, _, next | .turns, _, next | .checkGeneration, _, next
  | .beginCpuAccess, _, next | .returned _ _, _, next => next = s

/-- The part of `struct lcd_frames` that the handoff uses. -/
structure LcdFrames where
  fault : Option Errno
  sequence : Slot → UInt32
  completed : Slot → UInt32
  nextSlot : Slot

/-- What `frame_completed` makes of its two snapshots. -/
inductive Poll where
  | pending | done | failed (error : Errno)
  deriving DecidableEq, Repr

/-- `frame_completed` behind its snapshots -/
def frameCompleted (generation sequence : UInt32) (first second : Line) : Poll :=
  let record := Record.ofLine first
  if first ≠ second then .pending
  else if record.magic ≠ completionMagic ∨ record.generation ≠ generation ∨
      record.sequence ≠ sequence ∨ record.commit ≠ sequence then .pending
  else if record.x ≠ 0 ∨ record.y ≠ 0 ∨ record.width ≠ 0 ∨ record.height ≠ 0 ∨
      record.reserved ≠ Vector.replicate 9 0 then .failed .proto
  else if record.result ≠ 0 then .failed .io
  else .done

/-- `wait_slot`, which runs out of time after some turns -/
def waitSlot (generation : UInt32) (fb : LcdFrames) (slot : Slot) :
    Nat → LinuxCode (LcdFrames × Option Errno)
  | 0 => pure (fb, some .timedOut)
  | turns + 1 => do
      let check ← linuxDo .checkGeneration
      match check with
      | .failed error => pure (fb, some error)
      | .again => waitSlot generation fb slot turns
      | .current =>
          if fb.sequence slot = 0 ∨ fb.completed slot = fb.sequence slot then pure (fb, none)
          else do
            let first ← linuxDo (.readCompletion slot)
            let second ← linuxDo (.readCompletion slot)
            match frameCompleted generation (fb.sequence slot) first second with
            | .pending => waitSlot generation fb slot turns
            | .failed error => pure (fb, some error)
            | .done =>
                pure ({ fb with
                  completed := Function.update fb.completed slot (fb.sequence slot) }, none)

/-- The sequence of the next request of a slot, which skips zero. -/
def nextSequence (sequence : UInt32) : UInt32 := if sequence + 1 = 0 then 1 else sequence + 1

/-- The record of a frame before its commit. -/
def frameRecord (generation sequence : UInt32) (frame : Frame) : Record where
  magic := requestMagic
  generation := generation
  sequence := sequence
  result := frame.width.toUInt32 * frame.height.toUInt32 * 2
  x := frame.x
  y := frame.y
  width := frame.width
  height := frame.height
  reserved := Vector.replicate 9 0
  commit := 0

/-- The pixels of a frame in the order of the slot. -/
def Frame.packed (frame : Frame) : List UInt16 :=
  (List.range (area frame.width frame.height)).map frame.pixels

/-- The request that hands a frame over. -/
def frameRequest (generation sequence : UInt32) (slot : Slot) (frame : Frame) : Request where
  slot := slot
  record := { frameRecord generation sequence frame with commit := sequence }
  pixels := frame.packed

/-- The cells written between the revoked and the new commit. -/
def frameCells (frame : Frame) : List Cell :=
  (List.finRange 16).map .word ++ (List.range (area frame.width frame.height)).map .pixel

/-- Write cells of a slot in the given order. -/
def writeCells (slot : Slot) (line : Line) (pixels : Nat → UInt16) :
    List Cell → LinuxCode Unit
  | [] => pure ()
  | .word index :: rest => do
      linuxDo (.writeRequest slot index (line index))
      writeCells slot line pixels rest
  | .pixel index :: rest => do
      linuxDo (.writePixel slot index (pixels index))
      writeCells slot line pixels rest

/-- The part of `lcd_scanout` that hands the slot over: revoke, fill, commit. -/
def publishRequest (generation : UInt32) (fb : LcdFrames) (frame : Frame) :
    LinuxCode LcdFrames := do
  let slot := fb.nextSlot
  let sequence := nextSequence (fb.sequence slot)
  linuxDo (.writeRequest slot commitIndex 0)
  let order ← linuxDo (.arrange (frameCells frame))
  writeCells slot (frameRecord generation sequence frame).toLine frame.pixels order
  linuxDo (.commit (frameRequest generation sequence slot frame))
  pure { fb with
    sequence := Function.update fb.sequence slot sequence
    nextSlot := slot + 1 }

/-- The end of `lcd_scanout` with the lock held: an error is latched. -/
def finishScanout (fb : LcdFrames) (frame : Frame) (error : Option Errno) :
    LinuxCode LcdFrames := do
  linuxDo (.returned frame error)
  match error with
  | none => pure fb
  | some error => pure { fb with fault := some error }

/-- `lcd_scanout` with the lock held and no fault latched -/
def scanoutLocked (generation : UInt32) (fb : LcdFrames) (frame : Frame) :
    LinuxCode LcdFrames := do
  let turns ← linuxDo .turns
  let (fb, error) ← waitSlot generation fb fb.nextSlot turns
  match error with
  | some error => finishScanout fb frame (some error)
  | none => do
      let access ← linuxDo .beginCpuAccess
      match access with
      | some error => finishScanout fb frame (some error)
      | none => do
          let slot := fb.nextSlot
          let fb ← publishRequest generation fb frame
          let turns ← linuxDo .turns
          let (fb, error) ← waitSlot generation fb slot turns
          finishScanout fb frame error

/-- `lcd_scanout` -/
def lcdScanout (generation : UInt32) (fb : LcdFrames) (frame : Frame) :
    LinuxCode LcdFrames :=
  match fb.fault with
  | some error => do
      linuxDo (.returned frame (some error))
      pure fb
  | none => do
      let locked ← linuxDo .lock
      if locked then scanoutLocked generation fb frame
      else do
        linuxDo (.returned frame (some .timedOut))
        pure fb

/-- The frames of the client, one after another. -/
def linuxMain (generation : UInt32) : LcdFrames → Nat → LinuxCode Unit
  | _, 0 => pure ()
  | fb, count + 1 => do
      let frame ← linuxDo .nextFrame
      let fb ← lcdScanout generation fb frame
      linuxMain generation fb count

end NanoKvm.Lcd
