import Mathlib.Data.UInt
import NanoKvm.WifiPower.Record

/-!
# The regulator driver and the power service

`set_power_locked` and `power_probe` of Linux and `step` of the C906L, as programs over
single accesses to the two shared lines. Linux copies a request in ascending aligned stores
of at most eight bytes; the words of a completion become visible in any order between two
cleans of their line. Both sides load a record word by word. How long a wait may last, what
the status record says about the generation and whether the GPIO takes the value come from
outside.

The logs say what happened: the requests that the driver has composed and committed, those
that the C906L has applied, each with the result of its readback, how many completions have
been published, and the fault that the driver has recorded.
-/

namespace NanoKvm.WifiPower

open Exec

/-- The errors of the driver. -/
inductive Errno where
  | again | stale | io | overflow | proto | timedOut | busy | probeDefer
  deriving DecidableEq, Repr

/-- The two lines and the logs. `copied` counts the bytes of the last composed request that have
been stored. -/
structure Shared where
  request : Line
  completion : Words
  begun : List Record
  copied : Nat
  committed : List Record
  applied : List (Record × Bool)
  published : Nat
  fault : Option Errno

/-- The driver has composed a request. -/
def Shared.compose (s : Shared) (record : Record) : Shared :=
  { s with begun := s.begun ++ [record], copied := 0 }

/-- A store of some bytes of a line. -/
def Shared.store (s : Shared) (line : Line) (offset width : Nat) : Shared :=
  { s with
    request := fun index =>
      if offset ≤ index.val ∧ index.val < offset + width then line index else s.request index
    copied := offset + width }

/-- The commit word of a request is written. -/
def Shared.writeCommit (s : Shared) (record : Record) : Shared :=
  { s with
    request := fun index => if index.val < 60 then s.request index else record.line index
    committed := s.committed ++ [record] }

/-- The C906L has set the power line, or failed to. -/
def Shared.apply (s : Shared) (record : Record) (succeeded : Bool) : Shared :=
  { s with applied := s.applied ++ [(record, succeeded)] }

/-- A written word of the completion line. -/
def Shared.writeCompletion (s : Shared) (index : Fin 16) (word : UInt32) : Shared :=
  { s with completion := Function.update s.completion index word }

/-- The commit word of a completion is written. -/
def Shared.publish (s : Shared) (sequence : UInt32) : Shared :=
  { s with
    completion := Function.update s.completion commitIndex sequence
    published := s.published + 1 }

/-! ## The driver -/

/-- The operations of the driver. `returned` is the end of a call of `set_power_locked`. -/
inductive LinuxOp where
  | nextCall
  | turns
  | generationValid
  | loadRequest (index : Fin 16)
  | loadCompletion (index : Fin 16)
  | newDriver
  | compose (record : Record)
  | split
  | store (line : Line) (offset width : Nat)
  | writeCommit (record : Record)
  | recordFault (error : Errno)
  | returned (sequence : UInt32) (enabled : Bool) (error : Option Errno)

/-- What an operation of the driver returns. -/
abbrev LinuxOp.Ret : LinuxOp → Type
  | .nextCall => Bool
  | .turns => Nat
  | .generationValid => Option Errno
  | .loadRequest _ | .loadCompletion _ => UInt32
  | .split => List Nat
  | _ => Unit

abbrev LinuxCode := Prog LinuxOp LinuxOp.Ret

/-- Perform an operation of the driver. -/
abbrev linuxDo (operation : LinuxOp) : LinuxCode operation.Ret := Prog.perform operation

/-- The widths of aligned stores that copy the rest of a line. -/
def AlignedStores : Nat → List Nat → Prop
  | offset, [] => offset = 64
  | offset, width :: rest =>
      width ∈ [1, 2, 4, 8] ∧ width ∣ offset ∧ AlignedStores (offset + width) rest

/-- What an operation of the driver does. -/
def Shared.LinuxPerforms (s : Shared) :
    (operation : LinuxOp) → operation.Ret → Shared → Prop
  | .loadRequest index, word, next => word = s.request.word index ∧ next = s
  | .loadCompletion index, word, next => word = s.completion index ∧ next = s
  | .newDriver, _, next => next = { s with fault := none }
  | .compose record, _, next => next = s.compose record
  | .split, widths, next => AlignedStores 0 widths ∧ next = s
  | .store line offset width, _, next => next = s.store line offset width
  | .writeCommit record, _, next => next = s.writeCommit record
  | .recordFault error, _, next => next = { s with fault := some error }
  | .nextCall, _, next | .turns, _, next | .generationValid, _, next
  | .returned _ _ _, _, next => next = s

/-- The part of `struct c906l_power` that changes. -/
structure Power where
  sequence : UInt32
  enabled : Bool
  fault : Option Errno

/-- The zeroed `struct c906l_power` -/
def Power.new : Power where
  sequence := 0
  enabled := false
  fault := none

/-- `memcpy_fromio` of the request line -/
def copyRequest : LinuxCode Words :=
  Prog.collect (fun index => linuxDo (.loadRequest index)) (List.finRange 16) 0

/-- `memcpy_fromio` of the completion line -/
def copyCompletion : LinuxCode Words :=
  Prog.collect (fun index => linuxDo (.loadCompletion index)) (List.finRange 16) 0

/-- The wait of `set_power_locked` before it publishes -/
def awaitGeneration : Nat → LinuxCode (Option Errno)
  | 0 => pure (some .again)
  | turns + 1 => do
      let error ← linuxDo .generationValid
      if error ≠ some .again then pure error else awaitGeneration turns

/-- The loop of `set_power_locked` after it has published -/
def awaitCompletion (generation sequence : UInt32) (enabled : Bool) :
    Nat → LinuxCode (Option Errno)
  | 0 => pure (some .timedOut)
  | turns + 1 => do
      let error ← linuxDo .generationValid
      match error with
      | some .again => awaitCompletion generation sequence enabled turns
      | some error => pure (some error)
      | none => do
          let first ← copyCompletion
          let second ← copyCompletion
          match acknowledged first second generation sequence enabled with
          | .pending => awaitCompletion generation sequence enabled turns
          | .proto => pure (some .proto)
          | .io => pure (some .io)
          | .complete => pure none

/-- `memcpy_toio` from an offset on -/
def copyToLine (line : Line) : Nat → List Nat → LinuxCode Unit
  | _, [] => pure ()
  | offset, width :: rest => do
      linuxDo (.store line offset width)
      copyToLine line (offset + width) rest

/-- The request of `set_power_locked`: the copy and then the commit. -/
def publishRequest (generation sequence : UInt32) (enabled : Bool) : LinuxCode Unit := do
  let request := requestRecord generation sequence enabled
  linuxDo (.compose request.committed)
  let widths ← linuxDo .split
  copyToLine request.line 0 widths
  linuxDo (.writeCommit request.committed)

/-- The label `fault` of `set_power_locked` -/
def failPower (power : Power) (enabled : Bool) (error : Errno) :
    LinuxCode (Power × Option Errno) := do
  linuxDo (.recordFault error)
  linuxDo (.returned power.sequence enabled (some error))
  pure ({ power with fault := some error }, some error)

/-- `set_power_locked` -/
def setPowerLocked (generation : UInt32) (power : Power) (enabled : Bool) :
    LinuxCode (Power × Option Errno) :=
  match power.fault with
  | some error => do
      linuxDo (.returned power.sequence enabled (some error))
      pure (power, some error)
  | none =>
      if power.sequence = maxWord then failPower power enabled .overflow
      else do
        let turns ← linuxDo .turns
        let error ← awaitGeneration (turns + 1)
        match error with
        | some error => failPower power enabled error
        | none => do
            let sequence := power.sequence + 1
            publishRequest generation sequence enabled
            let turns ← linuxDo .turns
            let error ← awaitCompletion generation sequence enabled (turns + 1)
            match error with
            | some error => failPower { power with sequence := sequence } enabled error
            | none => do
                linuxDo (.returned sequence enabled none)
                pure ({ power with sequence := sequence, enabled := enabled }, none)

/-- `power_probe` from the generation check on -/
def powerProbe (generation : UInt32) : LinuxCode (Except Errno Power) := do
  let error ← linuxDo .generationValid
  match error with
  | some _ => pure (.error .probeDefer)
  | none => do
      let words ← copyRequest
      let old := Record.ofWords words
      if old.magic = requestMagic ∧ old.generation = generation ∧ old.sequence ≠ 0 then
        pure (.error .busy)
      else do
        linuxDo .newDriver
        let (power, error) ← setPowerLocked generation .new false
        match error with
        | some error => pure (.error error)
        | none => pure (.ok power)

/-- The calls of the regulator's consumers, one after another. -/
def powerCalls (generation : UInt32) : Power → Nat → LinuxCode Unit
  | _, 0 => pure ()
  | power, calls + 1 => do
      let enabled ← linuxDo .nextCall
      let (power, _) ← setPowerLocked generation power enabled
      powerCalls generation power calls

/-- A probe that fails can be tried again; the calls follow one that succeeds. -/
def linuxMain (generation : UInt32) (calls : Nat) : Nat → LinuxCode Unit
  | 0 => pure ()
  | probes + 1 => do
      let probed ← powerProbe generation
      match probed with
      | .error _ => linuxMain generation calls probes
      | .ok power => powerCalls generation power calls

/-! ## The power service -/

/-- The operations of the power service. -/
inductive FirmwareOp where
  | loadRequest (index : Fin 16)
  | apply (record : Record)
  | arrange (words : List (Fin 16))
  | writeCompletion (index : Fin 16) (word : UInt32)
  | publish (sequence : UInt32)

/-- What an operation of the power service returns. -/
abbrev FirmwareOp.Ret : FirmwareOp → Type
  | .loadRequest _ => UInt32
  | .apply _ => Bool
  | .arrange _ => List (Fin 16)
  | _ => Unit

abbrev FirmwareCode := Prog FirmwareOp FirmwareOp.Ret

/-- Perform an operation of the power service. -/
abbrev firmwareDo (operation : FirmwareOp) : FirmwareCode operation.Ret :=
  Prog.perform operation

/-- What an operation of the power service does. -/
def Shared.FirmwarePerforms (s : Shared) :
    (operation : FirmwareOp) → operation.Ret → Shared → Prop
  | .loadRequest index, word, next => word = s.request.word index ∧ next = s
  | .apply record, succeeded, next => next = s.apply record succeeded
  | .arrange words, order, next => order.Perm words ∧ next = s
  | .writeCompletion index word, _, next => next = s.writeCompletion index word
  | .publish sequence, _, next => next = s.publish sequence

/-- `read_volatile` of the request line -/
def readRequest : FirmwareCode Words :=
  Prog.collect (fun index => firmwareDo (.loadRequest index)) (List.finRange 16) 0

/-- The answer to an applied request, before its commit. -/
def completionRecord (generation sequence enabled : UInt32) : Record where
  magic := completionMagic
  generation := generation
  sequence := sequence
  enabled := enabled
  reserved := Vector.replicate 11 0
  commit := 0

/-- `process`: the completed sequence and the answer -/
def process (request : Record) (generation completed : UInt32) :
    FirmwareCode (UInt32 × Option Record) :=
  if rejected request generation completed then pure (completed, none)
  else do
    let succeeded ← firmwareDo (.apply request)
    let enabled := if succeeded then request.enabled else maxWord
    pure (request.sequence, some (completionRecord generation request.sequence enabled))

/-- Write words of the completion line in the given order. -/
def writeWords (words : Words) : List (Fin 16) → FirmwareCode Unit
  | [] => pure ()
  | index :: rest => do
      firmwareDo (.writeCompletion index (words index))
      writeWords words rest

/-- The end of `step`: the record, and after it the commit. -/
def publishCompletion (response : Record) : FirmwareCode Unit := do
  let order ← firmwareDo (.arrange (List.finRange 16))
  writeWords response.toWords order
  firmwareDo (.publish response.sequence)

/-- `step` -/
def step (generation completed : UInt32) : FirmwareCode UInt32 := do
  let first ← readRequest
  let second ← readRequest
  if Record.ofWords first ≠ Record.ofWords second then pure completed
  else do
    let (completed, response) ← process (Record.ofWords first) generation completed
    match response with
    | none => pure completed
    | some response => do
        publishCompletion response
        pure completed

/-- The power service for a number of steps. -/
def firmwareMain (generation : UInt32) : UInt32 → Nat → FirmwareCode Unit
  | _, 0 => pure ()
  | completed, steps + 1 => do
      let completed ← step generation completed
      firmwareMain generation completed steps

end NanoKvm.WifiPower
