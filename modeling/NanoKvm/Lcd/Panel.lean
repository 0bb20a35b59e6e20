import NanoKvm.Lcd.Service

/-!
# The drawing engine and the panel

`lcd.rs`: the engine with all its phases over an `Io`, the `Hardware` that implements it, and
the ST7789 behind it. The controller is a memory of pixels with a window that the column
and row address commands set; the data of a memory write fill the window row by row. An
operation of the hardware fails when `link` says so, after part of its data went out.
-/

namespace NanoKvm.Lcd.Panel

/-! ## Jobs and phases -/

def width : UInt16 := 240
def height : UInt16 := 240
def yOffset : UInt16 := 80
def maxChunks : Nat := 32
def frameBytes : Nat := width.toNat * height.toNat * 2

/-- `spi::Error` -/
inductive SpiError where
  | unconfigured | tooLong | timeout | fifoNotEmpty | fifoFull | hardware (bits : UInt32)
  deriving DecidableEq, Repr

inductive Error where
  | config | busy | notReady | invalidSequence | bounds | gpio | spi (error : SpiError)
  deriving DecidableEq, Repr

inductive Job where
  | clear (color : UInt16)
  | fillRect (x y width height color : UInt16)
  | demo (seed : UInt32)
  | frame (slot : UInt8) (x y width height : UInt16)
  deriving DecidableEq, Repr

structure Status where
  state : PanelState
  acceptedSequence : UInt32
  completedSequence : UInt32
  error : Option Error
  deriving DecidableEq, Repr

inductive AfterDelay where
  | resetLow | resetHigh | sleepOut | init | ready
  deriving DecidableEq, Repr

inductive Pixels where
  | solid (color : UInt16)
  | demo (seed : UInt32)
  | frame (slot : UInt8)
  deriving DecidableEq, Repr

structure Render where
  x : UInt16
  y : UInt16
  width : UInt16
  height : UInt16
  source : Pixels
  stage : UInt8
  pixel : UInt32
  deriving DecidableEq, Repr

inductive Phase where
  | delay (deadline : Option UInt32) (ticks : UInt32) (next : AfterDelay)
  | init (index offset : Nat)
  | ready
  | draw (render : Render)
  | fault
  deriving DecidableEq, Repr

structure Engine where
  phase : Phase
  status : Status
  lastJob : Option Job
  deriving DecidableEq, Repr

/-- `INIT`: commands and their data. -/
def initCommands : List (UInt8 × List UInt8) :=
  [(0xb2, [0x1f, 0x1f, 0, 0x33, 0x33]), (0x36, [0xc0]), (0x3a, [0x05]), (0xb7, [0]),
    (0xbb, [0x36]), (0xc0, [0x2c]), (0xc2, [1]), (0xc3, [0x13]), (0xc4, [0x20]), (0xc6, [0x13]),
    (0xd6, [0xa1]), (0xd0, [0xa4, 0xa1]),
    (0xe0, [0xf0, 0x08, 0x0e, 0x09, 0x08, 0x04, 0x2f, 0x33, 0x45, 0x36, 0x13, 0x12, 0x2a, 0x2d]),
    (0xe1, [0xf0, 0x0e, 0x12, 0x0c, 0x0a, 0x15, 0x2e, 0x32, 0x44, 0x39, 0x17, 0x18, 0x2b, 0x2f]),
    (0xe4, [0x1d, 0, 0]), (0x21, []), (0x11, []), (0x29, [])]

/-- `Render::new` -/
def Render.new (job : Job) : Except Error Render :=
  let render : Option Render := match job with
    | .clear color => some ⟨0, 0, Panel.width, Panel.height, .solid color, 0, 0⟩
    | .fillRect x y width height color => some ⟨x, y, width, height, .solid color, 0, 0⟩
    | .demo seed => some ⟨0, 0, Panel.width, Panel.height, .demo seed, 0, 0⟩
    | .frame slot x y width height =>
        if slot < 2 then some ⟨x, y, width, height, .frame slot, 0, 0⟩ else none
  match render with
  | none => .error .bounds
  | some render =>
      if render.width = 0 ∨ render.height = 0 ∨
          render.x.toUInt32 + render.width.toUInt32 > Panel.width.toUInt32 ∨
          render.y.toUInt32 + render.height.toUInt32 > Panel.height.toUInt32 then
        .error .bounds
      else .ok render

/-- The glyphs of `demo_pixel`. -/
def glyphs : List (List UInt8) :=
  [[14, 17, 16, 16, 16, 17, 14], [14, 17, 17, 15, 1, 1, 14], [14, 17, 19, 21, 25, 17, 14],
    [6, 8, 16, 30, 17, 17, 14], [16, 16, 16, 16, 16, 16, 31]]

/-- `demo_pixel` -/
def demoPixel (x y : UInt16) (seed : UInt32) : UInt16 :=
  let bars : UInt16 := if x / 80 = 0 then 0xf800 else if x / 80 = 1 then 0x07e0 else 0x001f
  let board : UInt16 :=
    if y ≥ 192 then
      if (((x / 12).toUInt32 + (y / 12).toUInt32) ^^^ seed) &&& 1 = 0 then 0xffff else 0
    else bars
  let frame : UInt16 :=
    if 20 ≤ x ∧ x < 220 ∧ 64 ≤ y ∧ y < 160 then
      if x = 20 ∨ x = 219 ∨ y = 64 ∨ y = 159 then 0xffff else 0
    else board
  if 60 ≤ x ∧ x < 180 ∧ 96 ≤ y ∧ y < 124 then
    let cell := ((x - 60) / 24).toNat
    let column := (x - 60) % 24 / 4
    let row := (glyphs.getD cell []).getD ((y - 96) / 4).toNat 0
    if column < 5 ∧ row &&& (1 <<< (4 - column).toUInt8) ≠ 0 then 0xffff else frame
  else frame

/-! ## The engine -/

/-- `Io`: what the engine does to the outside, each operation with its result. -/
structure Io (State : Type) where
  dc : Bool → State → Except Error Unit × State
  reset : Bool → State → Except Error Unit × State
  write : List UInt8 → State → Except Error Unit × State
  frameStream : UInt8 → UInt32 → UInt32 → State → Except Error Unit × State

/-- `?` between two operations. -/
def andThen {State α : Type} (result : Except Error Unit × State)
    (next : State → Except Error α × State) : Except Error α × State :=
  match result with
  | (.ok _, state) => next state
  | (.error error, state) => (.error error, state)

/-- `to_be_bytes` of two words. -/
def windowBytes (first last : UInt16) : List UInt8 :=
  [(first >>> 8).toUInt8, first.toUInt8, (last >>> 8).toUInt8, last.toUInt8]

namespace Engine

/-- `Engine::delay` -/
def delay (ticks : UInt32) (next : AfterDelay) : Phase := .delay none ticks next

/-- `Engine::new` -/
def new : Engine where
  phase := delay 10 .resetLow
  status := ⟨.initializing, 0, 0, none⟩
  lastJob := none

/-- `Engine::submit` -/
def submit (engine : Engine) (sequence : UInt32) (job : Job) : Except Error Engine :=
  if engine.status.state = .fault then .error (engine.status.error.getD .notReady)
  else if sequence = 0 then .error .invalidSequence
  else if sequence = engine.status.acceptedSequence then
    if engine.lastJob = some job then .ok engine else .error .invalidSequence
  else if engine.status.state = .initializing then .error .notReady
  else if engine.status.state = .busy then .error .busy
  else (Render.new job).map fun render =>
    { phase := .draw render
      lastJob := some job
      status := { engine.status with state := .busy, acceptedSequence := sequence } }

/-- `Engine::complete` -/
def complete (engine : Engine) : Engine :=
  { engine with
    phase := .ready
    status := { engine.status with
      state := .ready, completedSequence := engine.status.acceptedSequence } }

variable {State : Type} (io : Io State)

/-- `Engine::write` -/
def write (data : Bool) (bytes : List UInt8) (state : State) : Except Error Unit × State :=
  andThen (io.dc data state) (io.write bytes)

/-- The end of a delay. -/
def delayed (engine : Engine) (next : AfterDelay) (state : State) :
    Except Error Engine × State :=
  match next with
  | .resetLow => andThen (io.reset false state) fun state =>
      (.ok { engine with phase := delay 10 .resetHigh }, state)
  | .resetHigh => andThen (io.reset true state) fun state =>
      (.ok { engine with phase := delay 24 .sleepOut }, state)
  | .sleepOut => andThen (write io false [0x11] state) fun state =>
      (.ok { engine with phase := delay 24 .init }, state)
  | .init => (.ok { engine with phase := .init 0 0 }, state)
  | .ready =>
      (.ok { engine with phase := .ready, status := { engine.status with state := .ready } }, state)

/-- One command of `INIT`, or up to eight bytes of its data. -/
def initCommand (engine : Engine) (index offset : Nat) (state : State) :
    Except Error Engine × State :=
  let (command, data) := initCommands.getD index (0, [])
  if offset = 0 then
    andThen (write io false [command] state) fun state =>
      (.ok { engine with phase := if data = [] then .init (index + 1) 0 else .init index 1 }, state)
  else
    let begin := offset - 1
    let stop := min (begin + 8) data.length
    andThen (write io true ((data.drop begin).take (stop - begin)) state) fun state =>
      (.ok { engine with
        phase := if stop = data.length then .init (index + 1) 0 else .init index (stop + 1) }, state)

/-- The color of a pixel of a solid or demo job. -/
def colorOf (source : Pixels) (position : UInt32) : UInt16 :=
  match source with
  | .demo seed => demoPixel (position % Panel.width.toUInt32).toUInt16
      (position / Panel.width.toUInt32).toUInt16 seed
  | .solid color => color
  | .frame _ => 0

/-- The pixels of a draw: a frame in one burst, other sources four at a time. The flag says that
the job is finished. -/
def drawPixels (engine : Engine) (render : Render) (state : State) :
    Except Error (Bool × Engine) × State :=
  let remaining := render.width.toUInt32 * render.height.toUInt32 - render.pixel
  match render.source with
  | .frame slot =>
      andThen (io.dc true state) fun state =>
        andThen (io.frameStream slot render.pixel remaining state) fun state =>
          (.ok (true, engine.complete), state)
  | source =>
      let pixels := min remaining 4
      let bytes := (List.range pixels.toNat).flatMap fun index =>
        let color := colorOf source (render.pixel + .ofNat index)
        [(color >>> 8).toUInt8, color.toUInt8]
      andThen (write io true bytes state) fun state =>
        if pixels = remaining then (.ok (true, engine.complete), state)
        else (.ok (false, { engine with
          phase := .draw { render with pixel := render.pixel + pixels, stage := 5 } }), state)

/-- One stage of a draw. -/
def draw (engine : Engine) (render : Render) (state : State) :
    Except Error (Bool × Engine) × State :=
  let go (result : Except Error Unit × State) : Except Error (Bool × Engine) × State :=
    andThen result fun state =>
      (.ok (false, { engine with phase := .draw { render with stage := render.stage + 1 } }), state)
  match render.stage with
  | 0 => go (write io false [0x2a] state)
  | 1 => go (write io true (windowBytes render.x (render.x + render.width - 1)) state)
  | 2 => go (write io false [0x2b] state)
  | 3 => go (write io true (windowBytes (render.y + yOffset)
      (render.y + yOffset + render.height - 1)) state)
  | 4 => go (write io false [0x2c] state)
  | _ => drawPixels io engine render state

/-- One turn of the loop of `Engine::advance`; the flag says that it returns. -/
def chunk (now : UInt32) (engine : Engine) (state : State) :
    Except Error (Bool × Engine) × State :=
  let leave (result : Except Error Engine × State) : Except Error (Bool × Engine) × State :=
    (result.1.map fun engine => (true, engine), result.2)
  match engine.phase with
  | .ready | .fault => (.ok (true, engine), state)
  | .delay none ticks next =>
      (.ok (true, { engine with phase := .delay (some (now + ticks)) ticks next }), state)
  | .delay (some deadline) _ next =>
      if (now - deadline).toInt32 < 0 then (.ok (true, engine), state)
      else leave (delayed io engine next state)
  | .init index offset =>
      if index = initCommands.length then
        (.ok (true, { engine with phase := delay 20 .ready }), state)
      else
        let (result, state) := initCommand io engine index offset state
        (result.map fun engine => (false, engine), state)
  | .draw render => draw io engine render state

/-- `Engine::advance` for so many turns, with the error it returns. -/
def advance (now : UInt32) : Nat → Engine → State → (Option Error × Engine) × State
  | 0, engine, state => ((none, engine), state)
  | turns + 1, engine, state =>
      match chunk io now engine state with
      | (.error error, state) => ((some error, engine), state)
      | (.ok (true, engine), state) => ((none, engine), state)
      | (.ok (false, engine), state) => advance now turns engine state

/-- `Engine::step` -/
def step (now : UInt32) (engine : Engine) (state : State) : Engine × State :=
  match advance io now maxChunks engine state with
  | ((none, engine), state) => (engine, state)
  | ((some error, engine), state) =>
      ({ engine with
        phase := .fault, status := { engine.status with state := .fault, error := some error } },
        state)

end Engine

/-! ## The controller -/

/-- The ST7789: the command it is in, its data so far, the window and the memory. -/
structure St7789 where
  command : UInt8
  parameters : List UInt8
  columns : Nat × Nat
  rows : Nat × Nat
  written : Nat
  memory : Nat → Nat → UInt16

namespace St7789

/-- A big-endian word. -/
def word (high low : UInt8) : Nat := 256 * high.toNat + low.toNat

/-- The next pixel of a memory write; the window is filled again after its end. -/
def pixel (panel : St7789) (color : UInt16) : St7789 :=
  let across := panel.columns.2 + 1 - panel.columns.1
  let down := panel.rows.2 + 1 - panel.rows.1
  let position := panel.written % (across * down)
  let column := panel.columns.1 + position % across
  let row := panel.rows.1 + position / across
  { panel with
    written := panel.written + 1
    memory := fun c r => if c = column ∧ r = row then color else panel.memory c r }

/-- A byte with D/C low. -/
def receiveCommand (panel : St7789) (byte : UInt8) : St7789 :=
  { panel with command := byte, parameters := [], written := 0 }

/-- A byte with D/C high. -/
def receiveData (panel : St7789) (byte : UInt8) : St7789 :=
  if panel.command = 0x2a then
    match panel.parameters ++ [byte] with
    | [a, b, c, d] => { panel with columns := (word a b, word c d), parameters := [] }
    | parameters => { panel with parameters := parameters }
  else if panel.command = 0x2b then
    match panel.parameters ++ [byte] with
    | [a, b, c, d] => { panel with rows := (word a b, word c d), parameters := [] }
    | parameters => { panel with parameters := parameters }
  else if panel.command = 0x2c then
    match panel.parameters with
    | [] => { panel with parameters := [byte] }
    | high :: _ => pixel { panel with parameters := [] } (high.toUInt16 <<< 8 ||| byte.toUInt16)
  else panel

/-- Bytes on the bus. -/
def receive (dc : Bool) (bytes : List UInt8) (panel : St7789) : St7789 :=
  bytes.foldl (if dc then receiveData else receiveCommand) panel

end St7789

/-! ## The hardware -/

/-- The D/C line, the controller, the shared memory and the number of operations so far. -/
structure Board where
  dc : Bool
  panel : St7789
  memory : Nat → UInt8
  operations : Nat

/-- `PICOCLAW_LCD_FRAME_SLOT0_ADDRESS` -/
def frameSlot0Address : Nat := 0x8ff51000

/-- `PICOCLAW_LCD_FRAME_SLOT_STRIDE` -/
def frameSlotStride : Nat := 0x1d000

/-- The address of a slot. -/
def slotAddress (slot : Nat) : Nat := frameSlot0Address + slot * frameSlotStride

/-- `slot_pixel` -/
def slotPixel (memory : Nat → UInt8) (address : Nat) : UInt16 :=
  (memory address).toUInt16 ||| ((memory (address + 1)).toUInt16 <<< 8)

/-- The words of a stream as the bytes on the bus, most significant first. -/
def streamBytes (words : List UInt16) : List UInt8 :=
  words.flatMap fun (word : UInt16) => [(word >>> 8).toUInt8, word.toUInt8]

namespace Board

/-- An operation of the hardware: all of its bytes go out, or some and it fails. -/
def transfer (link : Nat → Option (SpiError × Nat)) (bytes : List UInt8) (board : Board) :
    Except Error Unit × Board :=
  match link board.operations with
  | none => (.ok (), { board with
      panel := board.panel.receive board.dc bytes, operations := board.operations + 1 })
  | some (error, sent) => (.error (.spi error), { board with
      panel := board.panel.receive board.dc (bytes.take sent), operations := board.operations + 1 })

/-- `Hardware::line` for the D/C line or the reset line, which the model does not keep. -/
def line (link : Nat → Option (SpiError × Nat)) (set : Board → Board) (board : Board) :
    Except Error Unit × Board :=
  match link board.operations with
  | none => (.ok (), set { board with operations := board.operations + 1 })
  | some _ => (.error .gpio, { board with operations := board.operations + 1 })

/-- `Hardware` as the engine's `Io`. -/
def hardware (link : Nat → Option (SpiError × Nat)) : Io Board where
  dc high := line link fun board => { board with dc := high }
  reset _ := line link id
  write bytes board :=
    if bytes.length > 8 then (.error (.spi .tooLong), board) else transfer link bytes board
  frameStream slot first count board :=
    let pixels : UInt32 := .ofNat (frameBytes / 2)
    if slot > 1 ∨ first > pixels ∨ count > pixels - first then (.error .bounds, board)
    else
      let base := slotAddress slot.toNat
      transfer link (streamBytes ((List.range' first.toNat count.toNat).map fun pixel =>
        slotPixel board.memory (base + pixel * 2))) board

end Board

end NanoKvm.Lcd.Panel
