import Mathlib.Data.Fintype.Pi
import Mathlib.Logic.Function.Basic
import NanoKvm.Lcd.Record

/-!
# The memory shared by the framebuffer driver and the scanout service

Each slot has its pixels, a request line that Linux writes and a completion line that the
C906L writes. The logs record what each side did with them: the requests that Linux has
committed, those that the service has accepted, what was streamed to the panel and the
completions published.
-/

namespace NanoKvm.Lcd

/-- The number of pixels of a rectangle. -/
def area (width height : UInt16) : Nat := width.toNat * height.toNat

/-- A request in a slot, with the pixels that belong to it. -/
structure Request where
  slot : Slot
  record : Record
  pixels : List UInt16

/-- What was streamed to the panel. -/
structure Image where
  slot : Slot
  x : UInt16
  y : UInt16
  width : UInt16
  height : UInt16
  pixels : List UInt16

/-- The image that a request asks for. -/
def Request.image (request : Request) : Image where
  slot := request.slot
  x := request.record.x
  y := request.record.y
  width := request.record.width
  height := request.record.height
  pixels := request.pixels

/-- A published completion. -/
structure Completion where
  slot : Slot
  sequence : UInt32
  result : UInt32

/-- The ownership lines and the pixels of both slots, and the logs. -/
structure Shared where
  request : Slot → Line
  completion : Slot → Line
  pixels : Slot → Nat → UInt16
  committed : List Request
  accepted : List Request
  scanned : List Image
  published : List Completion

/-- The first pixels of a slot. -/
def Shared.readPixels (s : Shared) (slot : Slot) (count : Nat) : List UInt16 :=
  (List.range count).map (s.pixels slot)

/-- A line with one word replaced. -/
def Line.set (line : Line) (index : Fin 16) (word : UInt32) : Line :=
  Function.update line index word

/-- A committed request: the commit word of its line is written. -/
def Shared.commit (s : Shared) (request : Request) : Shared :=
  let line := (s.request request.slot).set commitIndex request.record.commit
  { s with
    request := Function.update s.request request.slot line
    committed := s.committed ++ [request] }

/-- A written word of a request line. -/
def Shared.writeRequest (s : Shared) (slot : Slot) (index : Fin 16) (word : UInt32) : Shared :=
  let line := (s.request slot).set index word
  { s with request := Function.update s.request slot line }

/-- A written pixel. -/
def Shared.writePixel (s : Shared) (slot : Slot) (index : Nat) (pixel : UInt16) : Shared :=
  let pixels := Function.update (s.pixels slot) index pixel
  { s with pixels := Function.update s.pixels slot pixels }

/-- A written word of a completion line. -/
def Shared.writeCompletion (s : Shared) (slot : Slot) (index : Fin 16) (word : UInt32) :
    Shared :=
  let line := (s.completion slot).set index word
  { s with completion := Function.update s.completion slot line }

/-- A published completion: the commit word of its line is written. -/
def Shared.publish (s : Shared) (completion : Completion) : Shared :=
  let line := (s.completion completion.slot).set commitIndex completion.sequence
  { s with
    completion := Function.update s.completion completion.slot line
    published := s.published ++ [completion] }

/-- The service accepts the request in a slot, with the pixels that are there. -/
def Shared.accept (s : Shared) (slot : Slot) (record : Record) : Shared :=
  let pixels := s.readPixels slot (area record.width record.height)
  { s with accepted := s.accepted ++ [⟨slot, record, pixels⟩] }

/-- A rectangle of a slot is streamed to the panel. -/
def Shared.stream (s : Shared) (slot : Slot) (x y width height : UInt16) : Shared :=
  let pixels := s.readPixels slot (area width height)
  { s with scanned := s.scanned ++ [⟨slot, x, y, width, height, pixels⟩] }

end NanoKvm.Lcd
