import NanoKvm.Exec.Traces

/-!
# The SPI master driver

`Driver` of `spi.rs`: byte transactions of at most eight bytes and streams of 16-bit words, polled.
The words of a stream come from an iterator that need not end, so the bursts are counted by fuel:
a stream without a result is one that has not come to its end.
-/

namespace NanoKvm.Spi

open Exec

/-- An even divider of the controller clock. -/
structure Divider where
  value : UInt16
  even : 2 ≤ value ∧ value &&& 1 = 0

/-- The polarity and the phase of `Mode`. -/
structure Mode where
  idleHigh : Bool
  captureOnSecondTransition : Bool

inductive Error where
  | unconfigured
  | tooLong
  | timeout
  | fifoNotEmpty
  | fifoFull
  | hardware (errors : UInt32)
  deriving DecidableEq, Repr

/-- `FIFO_DEPTH` -/
def fifoDepth : Nat := 8

/-- `CONTROL_8BIT_DUPLEX` -/
def control8BitDuplex : UInt32 := 7

/-- `CONTROL_16BIT_TX_ONLY` -/
def control16BitTxOnly : UInt32 := 0xf ||| 0x100

/-- The operations of `Io`, and `io_fence`. -/
inductive Op where
  | enable (value : UInt32)
  | select (value : UInt32)
  | control (value : UInt32)
  | baud (value : UInt32)
  | mask (value : UInt32)
  | dma (value : UInt32)
  | clear
  | status
  | errors
  | write (byte : UInt8)
  | read
  | txLevel
  | writeWord (word : UInt16)
  | fence
  deriving DecidableEq

/-- What they return. -/
def Op.Ret : Op → Type
  | .status | .errors | .txLevel => UInt32
  | .read => UInt8
  | _ => Unit

/-- A program of the driver. -/
abbrev Io (α : Type) : Type := Prog Op Op.Ret α

/-- An operation of the driver, with what it returned. -/
abbrev IoEvent : Type := Event Op Op.Ret

def io (operation : Op) : Io operation.Ret := Prog.perform operation

/-- The fields of the driver. -/
structure Driver where
  configured : Bool
  modeBits : UInt32
  deriving DecidableEq, Repr

/-- The driver of `from_base`. -/
def Driver.fresh : Driver := ⟨false, 0⟩

def Mode.bits (mode : Mode) : UInt32 :=
  (if mode.idleHigh then 0x80 else 0) ||| if mode.captureOnSecondTransition then 0x40 else 0

def configure (divider : Divider) (mode : Mode) : Io Driver := do
  io (.enable 0)
  io (.select 0)
  io (.mask 0)
  io (.dma 0)
  io (.baud divider.value.toUInt32)
  io (.control (control8BitDuplex ||| mode.bits))
  io .clear
  pure ⟨true, mode.bits⟩

/-! ## Streams -/

/-- The loop for room in the FIFO. -/
def waitRoom : Nat → Io (Except Error Nat)
  | 0 => pure (.error .timeout)
  | polls + 1 => do
      let level : UInt32 ← io .txLevel
      if fifoDepth - level.toNat ≠ 0 then pure (.ok (fifoDepth - level.toNat)) else waitRoom polls

/-- A burst from the iterator's position on: the position after it, and whether it used its room. -/
def burst (words : Nat → Option UInt16) : Nat → Nat → Io (Nat × Bool)
  | 0, position => pure (position, true)
  | room + 1, position =>
      match words position with
      | none => pure (position, false)
      | some word => do
          io (.writeWord word)
          burst words room (position + 1)

/-- The outer loop of `pump`, for so many bursts. -/
def fill (words : Nat → Option UInt16) (polls : UInt32) :
    Nat → Bool → Nat → Io (Option (Except Error Unit))
  | 0, _, _ => pure none
  | fuel + 1, selected, position => do
      match ← waitRoom polls.toNat with
      | .error error => pure (some (.error error))
      | .ok room => do
          let (position, used) ← burst words room position
          io .fence
          if !selected then io (.select 1)
          if used then fill words polls fuel true position else pure (some (.ok ()))

/-- The last loop of `pump`. -/
def drain : Nat → Io (Except Error Unit)
  | 0 => pure (.error .timeout)
  | polls + 1 => do
      let errors : UInt32 ← io .errors
      if errors ≠ 0 then pure (.error (.hardware errors))
      else do
        let status : UInt32 ← io .status
        if status &&& 5 = 4 then pure (.ok ()) else drain polls

def pump (words : Nat → Option UInt16) (polls : UInt32) (fuel : Nat) :
    Io (Option (Except Error Unit)) := do
  match ← fill words polls fuel false 0 with
  | none => pure none
  | some (.error error) => pure (some (.error error))
  | some (.ok ()) => do
      let result ← drain polls.toNat
      pure (some result)

def stream (driver : Driver) (words : Nat → Option UInt16) (polls : UInt32) (fuel : Nat) :
    Io (Option (Except Error Unit)) :=
  if !driver.configured then pure (some (.error .unconfigured))
  else if polls = 0 then pure (some (.error .timeout))
  else do
    io (.control (control16BitTxOnly ||| driver.modeBits))
    io .clear
    io (.enable 1)
    match ← pump words polls fuel with
    | none => pure none
    | some result => do
        io (.enable 0)
        io (.select 0)
        io (.control (control8BitDuplex ||| driver.modeBits))
        io .clear
        pure (some result)

/-! ## Byte transactions -/

/-- The loop that preloads the bytes. -/
def preload : List UInt8 → Io (Except Error Unit)
  | [] => pure (.ok ())
  | byte :: rest => do
      let status : UInt32 ← io .status
      if status &&& 2 = 0 then pure (.error .fifoFull)
      else do
        io (.write byte)
        preload rest

/-- A received byte, if there is one and a place for it: the slice is what was received and the
rest of it. -/
def takeByte (status : UInt32) (received : List UInt8) : List UInt8 → Io (List UInt8 × List UInt8)
  | [] => pure (received, [])
  | byte :: rest =>
      if status &&& 8 ≠ 0 then do
        let taken : UInt8 ← io .read
        pure (received ++ [taken], rest)
      else pure (received, byte :: rest)

/-- The loop that receives. -/
def receive : Nat → List UInt8 → List UInt8 → Io (Except Error Unit × List UInt8)
  | 0, received, rest => pure (.error .timeout, received ++ rest)
  | polls + 1, received, rest => do
      let errors : UInt32 ← io .errors
      if errors ≠ 0 then pure (.error (.hardware errors), received ++ rest)
      else do
        let status : UInt32 ← io .status
        let (received, rest) ← takeByte status received rest
        if rest.isEmpty && status &&& 5 == 4 then pure (.ok (), received ++ rest)
        else receive polls received rest

/-- `exchange`; with the result, the slice. -/
def exchange (bytes : List UInt8) (polls : UInt32) : Io (Except Error Unit × List UInt8) := do
  let status : UInt32 ← io .status
  if status &&& 0x0d ≠ 4 then pure (.error .fifoNotEmpty, bytes)
  else do
    match ← preload bytes with
    | .error error => pure (.error error, bytes)
    | .ok () => do
        io (.select 1)
        receive polls.toNat [] bytes

def transfer (driver : Driver) (bytes : List UInt8) (polls : UInt32) :
    Io (Except Error Unit × List UInt8) :=
  if !driver.configured then pure (.error .unconfigured, bytes)
  else if bytes.length > 8 then pure (.error .tooLong, bytes)
  else if bytes.isEmpty then pure (.ok (), bytes)
  else if polls = 0 then pure (.error .timeout, bytes)
  else do
    io (.enable 1)
    let result ← exchange bytes polls
    io (.enable 0)
    io (.select 0)
    io .clear
    pure result

/-! ## The transmit FIFO -/

/-- A FIFO with a level that it reports, that every write raises and that falls by itself. -/
def fifo : Machine Op Op.Ret Nat where
  perform level operation result after :=
    match operation, result with
    | .txLevel, result => UInt32.toNat result = level ∧ after = level
    | .write _, _ | .writeWord _, _ => after = level + 1
    | .enable value, _ => after = if value = 0 then 0 else level
    | _, _ => after = level
  interfere level after := after ≤ level

end NanoKvm.Spi
