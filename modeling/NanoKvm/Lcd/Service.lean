import Mathlib.Data.Fintype.Pi
import NanoKvm.Exec.Program
import NanoKvm.Lcd.Shared

/-!
# The scanout service of the C906L

`Service::step` and what it calls, as a program over single accesses to the shared memory.
The words of a completion become visible in any order between two cleans of their line,
and a request line is read as one snapshot. Of the drawing engine the service sees the
status; what a step of the engine does to the panel comes from outside.
-/

namespace NanoKvm.Lcd

open Exec

/-! ## The engine's status -/

/-- `State` of the engine. -/
inductive PanelState where
  | initializing | ready | busy | fault
  deriving DecidableEq, Repr

/-- `Job::Frame` -/
structure FrameJob where
  slot : Slot
  x : UInt16
  y : UInt16
  width : UInt16
  height : UInt16
  deriving DecidableEq

/-- `Status` of the engine and its last job. -/
structure Engine where
  state : PanelState
  acceptedSequence : UInt32
  completedSequence : UInt32
  lastJob : Option FrameJob

/-- `Engine::new` -/
def Engine.new : Engine where
  state := .initializing
  acceptedSequence := 0
  completedSequence := 0
  lastJob := none

/-- The bounds that `Render::new` checks. -/
def FrameJob.inBounds (job : FrameJob) : Bool :=
  job.width != 0 && job.height != 0
    && decide (job.x.toUInt32 + job.width.toUInt32 ≤ lcdWidth)
    && decide (job.y.toUInt32 + job.height.toUInt32 ≤ lcdHeight)

/-- `Engine::submit` -/
def Engine.submit (engine : Engine) (sequence : UInt32) (job : FrameJob) : Option Engine :=
  if engine.state = .fault then none
  else if sequence = 0 then none
  else if sequence = engine.acceptedSequence then
    if engine.lastJob = some job then some engine else none
  else if engine.state = .initializing then none
  else if engine.state = .busy then none
  else if job.inBounds then
    some { engine with lastJob := some job, state := .busy, acceptedSequence := sequence }
  else none

/-- `Engine::complete` -/
def Engine.complete (engine : Engine) : Engine :=
  { engine with state := .ready, completedSequence := engine.acceptedSequence }

/-- What a step of the engine came to: it goes on, its phase is finished, or it failed. -/
inductive Outcome where
  | going | finished | failed

/-! ## The service -/

/-- The operations of the service. -/
inductive ServiceOp where
  | authorized
  | newPanel
  | advance
  | readRequest (slot : Slot)
  | arrange (words : List (Fin 16))
  | writeCompletion (slot : Slot) (index : Fin 16) (word : UInt32)
  | publish (completion : Completion)
  | accept (slot : Slot) (record : Record)
  | stream (job : FrameJob)

/-- What an operation of the service returns. -/
abbrev ServiceOp.Ret : ServiceOp → Type
  | .authorized | .newPanel => Bool
  | .advance => Outcome
  | .readRequest _ => Line
  | .arrange _ => List (Fin 16)
  | _ => Unit

abbrev ServiceCode := Prog ServiceOp ServiceOp.Ret

/-- Perform an operation of the service. -/
abbrev serviceDo (operation : ServiceOp) : ServiceCode operation.Ret := Prog.perform operation

/-- What an operation of the service does. -/
def Shared.ServicePerforms (s : Shared) :
    (operation : ServiceOp) → operation.Ret → Shared → Prop
  | .readRequest slot, line, next => line = s.request slot ∧ next = s
  | .arrange words, order, next => order.Perm words ∧ next = s
  | .writeCompletion slot index word, _, next => next = s.writeCompletion slot index word
  | .publish completion, _, next => next = s.publish completion
  | .accept slot record, _, next => next = s.accept slot record
  | .stream job, _, next => next = s.stream job.slot job.x job.y job.width job.height
  | .authorized, _, next | .newPanel, _, next | .advance, _, next => next = s

/-- `struct Service` with the fault latch. -/
structure Service where
  panel : Option Engine
  initialized : Bool
  completed : Slot → UInt32
  active : Option (Slot × UInt32 × UInt32)
  jobSequence : UInt32
  nextSlot : Slot
  frames : UInt32
  faulted : Bool

/-- `Service::new` -/
def Service.new : Service where
  panel := none
  initialized := false
  completed _ := 0
  active := none
  jobSequence := 0
  nextSlot := 0
  frames := 0
  faulted := false

/-- `request` -/
def request (slot : Slot) (generation completed : UInt32) : ServiceCode (Option Record) := do
  let first ← serviceDo (.readRequest slot)
  let second ← serviceDo (.readRequest slot)
  if Record.ofLine first = Record.ofLine second ∧
      validRequest (Record.ofLine first) generation completed = true then
    pure (some (Record.ofLine first))
  else pure none

/-- The record of a completion before its commit. -/
def completionRecord (generation sequence error : UInt32) : Record where
  magic := completionMagic
  generation := generation
  sequence := sequence
  result := error
  x := 0
  y := 0
  width := 0
  height := 0
  reserved := Vector.replicate 9 0
  commit := 0

/-- Write words of a completion line in the given order. -/
def writeWords (slot : Slot) (line : Line) : List (Fin 16) → ServiceCode Unit
  | [] => pure ()
  | index :: rest => do
      serviceDo (.writeCompletion slot index (line index))
      writeWords slot line rest

/-- `complete` -/
def complete (slot : Slot) (generation sequence error : UInt32) : ServiceCode Unit := do
  let order ← serviceDo (.arrange (List.finRange 16))
  writeWords slot (completionRecord generation sequence error).toLine order
  serviceDo (.publish ⟨slot, sequence, error⟩)

/-- The constructor call of `Service::step` -/
def initializePanel (service : Service) : ServiceCode Service :=
  if service.initialized then pure service
  else do
    let created ← serviceDo .newPanel
    if created then pure { service with initialized := true, panel := some .new }
    else pure { service with initialized := true, faulted := true }

/-- `Panel::step`: a finished frame has streamed its slot. -/
def panelStep (engine : Engine) : ServiceCode Engine := do
  let outcome ← serviceDo .advance
  match engine.state, outcome with
  | .initializing, .finished => pure { engine with state := .ready }
  | .busy, .finished =>
      match engine.lastJob with
      | none => pure engine.complete
      | some job => do
          serviceDo (.stream job)
          pure engine.complete
  | .initializing, .failed | .busy, .failed => pure { engine with state := .fault }
  | _, _ => pure engine

/-- The service after a completion. -/
def Service.finish (service : Service) (slot : Slot) (sequence error : UInt32) : Service :=
  { service with
    completed := Function.update service.completed slot sequence
    active := none
    nextSlot := slot + 1
    frames := if error = 0 then service.frames + 1 else service.frames }

/-- The part of `Service::step` that completes the active request. -/
def finishActive (generation : UInt32) (engine : Engine) (service : Service) :
    ServiceCode Service :=
  match service.active with
  | none => pure service
  | some (slot, sequence, jobSequence) =>
      if engine.state = .fault ∨ engine.completedSequence = jobSequence then do
        let error : UInt32 := if engine.state = .fault then 1 else 0
        complete slot generation sequence error
        pure (service.finish slot sequence error)
      else pure service

/-- `job_sequence.wrapping_add(1).max(1)` -/
def nextJob (sequence : UInt32) : UInt32 := if sequence + 1 ≤ 1 then 1 else sequence + 1

/-- The job of an accepted request. -/
def frameJob (slot : Slot) (record : Record) : FrameJob where
  slot := slot
  x := record.x
  y := record.y
  width := record.width
  height := record.height

/-- The part of `Service::step` that submits an accepted request. -/
def submitRequest (generation : UInt32) (engine : Engine) (service : Service) (slot : Slot)
    (record : Record) : ServiceCode Service := do
  serviceDo (.accept slot record)
  let job := nextJob service.jobSequence
  match engine.submit job (frameJob slot record) with
  | none => do
      complete slot generation record.sequence 1
      pure { service with
        jobSequence := job
        completed := Function.update service.completed slot record.sequence
        faulted := true }
  | some engine =>
      pure { service with
        panel := some engine
        jobSequence := job
        active := some (slot, record.sequence, job) }

/-- The loop of `Service::step` over the slots -/
def admitRequest (generation : UInt32) (engine : Engine) (service : Service) :
    List Slot → ServiceCode Service
  | [] => pure service
  | slot :: rest => do
      let found ← request slot generation (service.completed slot)
      match found with
      | none => admitRequest generation engine service rest
      | some record => submitRequest generation engine service slot record

/-- The end of `Service::step`: the expected slot comes first. -/
def admitReady (generation : UInt32) (engine : Engine) (service : Service) :
    ServiceCode Service :=
  if engine.state = .fault then pure { service with faulted := true }
  else if service.active.isSome = true ∨ engine.state ≠ .ready then pure service
  else admitRequest generation engine service [service.nextSlot, service.nextSlot + 1]

/-- `Service::step` once the panel exists -/
def stepPanel (generation : UInt32) (service : Service) (engine : Engine) :
    ServiceCode Service := do
  let engine ← panelStep engine
  let service ← finishActive generation engine { service with panel := some engine }
  admitReady generation engine service

/-- `Service::step` -/
def serviceStep (generation : UInt32) (service : Service) : ServiceCode Service :=
  if service.faulted then pure service
  else do
    let authorized ← serviceDo .authorized
    if authorized then do
      let service ← initializePanel service
      match service.panel with
      | none => pure service
      | some engine => stepPanel generation service engine
    else pure service

/-- The scanout task for a number of steps. -/
def serviceMain (generation : UInt32) : Service → Nat → ServiceCode Unit
  | _, 0 => pure ()
  | service, count + 1 => do
      let service ← serviceStep generation service
      serviceMain generation service count

end NanoKvm.Lcd
