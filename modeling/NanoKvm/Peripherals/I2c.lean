import NanoKvm.Exec.Traces

/-!
# The I2C master driver

`Driver` of `i2c.rs`: standard-speed transfers to a seven-bit address, polled. A program performs
the operations of its `Io`; a budget that is used up is a timeout before the next sample.
-/

namespace NanoKvm.I2c

open Exec

/-- An ordinary seven-bit slave address. -/
structure Address where
  value : UInt8
  ordinary : 8 ≤ value ∧ value ≤ 0x77

/-- `Timing`; its two counts are not zero. -/
structure Timing where
  high : UInt16
  low : UInt16
  hold : UInt16
  counts : high ≠ 0 ∧ low ≠ 0

inductive Error where
  | unconfigured
  | tooLong
  | timeout
  | disableTimeout
  | notIdle
  | abort (source : UInt32)
  | fifo (interrupt : UInt32)
  deriving DecidableEq, Repr

/-- The operations of `Io`. -/
inductive Op where
  | enable (value : UInt32)
  | enabled
  | configure (timing : Timing)
  | target (address : Address)
  | clear
  | interrupt
  | abortSource
  | status
  | command (value : UInt32)
  | read

/-- What they return. -/
def Op.Ret : Op → Type
  | .enabled => Bool
  | .interrupt | .abortSource | .status => UInt32
  | .read => UInt8
  | _ => Unit

/-- A program of the driver. -/
abbrev Io (α : Type) : Type := Prog Op Op.Ret α

/-- An operation of the driver, with what it returned. -/
abbrev IoEvent : Type := Event Op Op.Ret

def io (operation : Op) : Io operation.Ret := Prog.perform operation

/-! ## Disabling and configuring -/

/-- The polls of `disable`. -/
def waitDisabled : Nat → Io (Except Error Unit)
  | 0 => pure (.error .disableTimeout)
  | polls + 1 => do
      let enabled : Bool ← io .enabled
      if enabled then waitDisabled polls else pure (.ok ())

def disable (polls : UInt32) : Io (Except Error Unit) := do
  io (.enable 0)
  waitDisabled polls.toNat

/-- `configure`; with the result, whether the driver is configured after it. -/
def configure (timing : Timing) (polls : UInt32) : Io (Except Error Unit × Bool) :=
  if polls = 0 then pure (.error .timeout, false)
  else do
    match ← disable polls with
    | .error error => pure (.error error, false)
    | .ok () => do
        let status : UInt32 ← io .status
        if status &&& 1 ≠ 0 then pure (.error .notIdle, false)
        else do
          io (.configure timing)
          io .clear
          pure (.ok (), true)

/-! ## Exchanging bytes -/

/-- `sample`: the status and the interrupts. -/
def sample : Io (Except Error (UInt32 × UInt32)) := do
  let interrupt : UInt32 ← io .interrupt
  if interrupt &&& 0x40 ≠ 0 then do
    let source : UInt32 ← io .abortSource
    pure (.error (.abort source))
  else if interrupt &&& 0x0b ≠ 0 then pure (.error (.fifo (interrupt &&& 0x0b)))
  else do
    let status : UInt32 ← io .status
    pure (.ok (status, interrupt))

/-- `wait_status`, with the budget that is left. -/
def waitStatus (mask : UInt32) : Nat → Io (Except Error Nat)
  | 0 => pure (.error .timeout)
  | budget + 1 => do
      match ← sample with
      | .error error => pure (.error error)
      | .ok (status, _) =>
          if status &&& mask = mask then pure (.ok budget) else waitStatus mask budget

/-- The first loop of `exchange`. -/
def waitEnabled : Nat → Io (Except Error Nat)
  | 0 => pure (.error .timeout)
  | budget + 1 => do
      let enabled : Bool ← io .enabled
      if enabled then pure (.ok budget) else waitEnabled budget

/-- The command for a byte to write. -/
def writeCommand (byte : UInt8) (last : Bool) : UInt32 :=
  byte.toUInt32 ||| if last then 0x200 else 0

/-- The loop over the bytes to write. -/
def writeBytes (readEmpty : Bool) : List UInt8 → Nat → Io (Except Error Nat)
  | [], budget => pure (.ok budget)
  | byte :: rest, budget => do
      match ← waitStatus 2 budget with
      | .error error => pure (.error error)
      | .ok budget => do
          io (.command (writeCommand byte (rest.isEmpty && readEmpty)))
          writeBytes readEmpty rest budget

/-- The command for a byte to read. -/
def readCommand (restart last : Bool) : UInt32 :=
  0x100 ||| (if restart then 0x400 else 0) ||| if last then 0x200 else 0

/-- The loop over the bytes to read, from an index on. -/
def readBytes (writeEmpty : Bool) : Nat → List UInt8 → Nat → Io (Except Error Nat × List UInt8)
  | _, [], budget => pure (.ok budget, [])
  | index, byte :: rest, budget => do
      match ← waitStatus 2 budget with
      | .error error => pure (.error error, byte :: rest)
      | .ok budget => do
          io (.command (readCommand (index == 0 && !writeEmpty) rest.isEmpty))
          match ← waitStatus 8 budget with
          | .error error => pure (.error error, byte :: rest)
          | .ok budget => do
              let received : UInt8 ← io .read
              let (result, filled) ← readBytes writeEmpty (index + 1) rest budget
              pure (result, received :: filled)

/-- The last loop of `exchange`. -/
def waitStop : Nat → Io (Except Error Unit)
  | 0 => pure (.error .timeout)
  | budget + 1 => do
      match ← sample with
      | .error error => pure (.error error)
      | .ok (status, interrupt) =>
          if interrupt &&& 0x200 ≠ 0 ∧ status &&& 5 = 4 then pure (.ok ())
          else waitStop budget

/-- `exchange`; with the result, the bytes of the read slice. -/
def exchange (write read : List UInt8) (budget : UInt32) :
    Io (Except Error Unit × List UInt8) := do
  match ← waitEnabled budget.toNat with
  | .error error => pure (.error error, read)
  | .ok budget => do
      match ← writeBytes read.isEmpty write budget with
      | .error error => pure (.error error, read)
      | .ok budget => do
          match ← readBytes write.isEmpty 0 read budget with
          | (.error error, read) => pure (.error error, read)
          | (.ok budget, read) => do
              let result ← waitStop budget
              pure (result, read)

/-- What a transfer leaves: its result, the read slice, whether the driver is configured. -/
structure Transferred where
  result : Except Error Unit
  read : List UInt8
  configured : Bool

/-- The controller is enabled or busy. -/
def busy : Io Bool := do
  let enabled : Bool ← io .enabled
  if enabled then pure true
  else do
    let status : UInt32 ← io .status
    pure (decide (status &&& 9 ≠ 0))

def transfer (configured : Bool) (address : Address) (write read : List UInt8) (polls : UInt32) :
    Io Transferred :=
  if !configured then pure ⟨.error .unconfigured, read, configured⟩
  else if write.length > 256 ∨ read.length > 256 then pure ⟨.error .tooLong, read, configured⟩
  else if write.isEmpty && read.isEmpty then pure ⟨.ok (), read, configured⟩
  else if polls = 0 then pure ⟨.error .timeout, read, configured⟩
  else do
    if ← busy then pure ⟨.error .notIdle, read, false⟩
    else do
      io .clear
      io (.target address)
      io (.enable 1)
      let (result, read) ← exchange write read polls
      match ← disable polls with
      | .error error => pure ⟨.error error, read, false⟩
      | .ok () => do
          io .clear
          pure ⟨result, read, result.isOk⟩

end NanoKvm.I2c
