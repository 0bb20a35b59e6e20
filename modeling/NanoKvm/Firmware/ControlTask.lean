import NanoKvm.Firmware.Activation

/-!
# Boot and the control task

`lib.rs` from the first status of a boot to the endless loop of the control task.
`initialStatus` derives the boot generation from the status line the last boot left
behind, `controlStart` is the status the control task begins with, and
`controlIteration` is one turn of its loop: at most one mailbox request, its response,
the heartbeat and the diagnostic flags, and a publication. `panicStatus` is the record
that the panic handler leaves.
-/

namespace NanoKvm.Firmware

open Contract

/-- The generation that `initial_status` reads from the line of the previous boot, or zero when
that line is not a record of this ABI. -/
def previousGeneration (previous : Status) : UInt32 :=
  if previous.magic = shmemMagic ∧ previous.abiMajor = abiMajor
      ∧ previous.structSize = statusSize then
    previous.generation
  else 0

/-- `wrapping_add(1)` followed by the replacement of zero. -/
def nextGeneration (generation : UInt32) : UInt32 :=
  if generation + 1 = 0 then 1 else generation + 1

/-- `initial_status`: the first status of a boot over the line of the previous one. -/
def initialStatus (contract : ResolvedContract) (previous : Status) : Status where
  magic := shmemMagic
  abiMajor := abiMajor
  abiMinor := abiMinor
  structSize := statusSize
  state := stateBooting
  generation := nextGeneration (previousGeneration previous)
  flags := 0
  heartbeat := 0
  capabilities := contract.profile.dormantCapabilities
  lastRequest := 0
  lastResponse := 0
  activationState := activationStateInitializing
  activationError := 0
  activationAttempts := 0
  activationRequestId := 0

/-- `zero_status` -/
def zeroStatus : Status where
  magic := 0
  abiMajor := 0
  abiMinor := 0
  structSize := 0
  state := 0
  generation := 0
  flags := 0
  heartbeat := 0
  capabilities := 0
  lastRequest := 0
  lastResponse := 0
  activationState := activationStateInitializing
  activationError := 0
  activationAttempts := 0
  activationRequestId := 0

/-- The record that `panic` publishes. It is built from `zero_status`, not from the status of
the boot that panicked. -/
def panicStatus : Status :=
  { zeroStatus with
    magic := shmemMagic
    abiMajor := abiMajor
    abiMinor := abiMinor
    structSize := statusSize
    state := stateFault
    activationError := activationResultInternalFailure.toUInt8 }

/-- `mailbox_diagnostic_flags` -/
def mailboxDiagnosticFlags (requestDrops lockFailures unexpectedEvents : UInt32) : UInt32 :=
  (if requestDrops ≠ 0 then flagRequestDropped else 0) |||
    (if lockFailures ≠ 0 then flagMailboxLockFailure else 0) |||
    (if unexpectedEvents ≠ 0 then flagUnexpectedMailboxChannel else 0)

/-- The status with which the control task enters its loop, from the line it loads. -/
def controlStart (contract : ResolvedContract) (loaded : Status) : Status :=
  if contract.profile.activationRequired then
    { loaded with state := stateRunning, activationState := activationStateDormant }
  else
    { loaded with
      state := stateRunning
      capabilities := contract.profile.expectedCapabilities
      activationState := activationStateActive }

/-- The control task before its first loop turn: the starting status is published. -/
def controlBegin (contract : ResolvedContract) (loaded : Status) : Handler :=
  Handler.publish
    { status := controlStart contract loaded, acceptedRequest := none, published := [],
      activations := 0 }

/-- What one turn of the loop receives from its surroundings: the request word if one arrived,
what `handle` would read and what the leases would answer, whether the response could be sent,
whether the heartbeat is due, the mailbox counters and the LCD fault flag. -/
structure Iteration where
  request : Option UInt64
  pair : ActivationRequest × ActivationRequest
  lease : Except LeaseFailure Unit
  responseSent : Bool
  heartbeatDue : Bool
  requestDrops : UInt32
  lockFailures : UInt32
  unexpectedEvents : UInt32
  lcdFaulted : Bool

/-- The response word to a received request, and the handler after it. -/
def respond (contract : ResolvedContract) (iteration : Iteration) (request : Message)
    (handler : Handler) : Message × Handler :=
  if request.service = serviceControl ∧ request.opcode = opActivateLeases then
    let (result, handler) := handler.handle contract request iteration.pair iteration.lease
    (request.activationResponse result, handler)
  else (request.ordinaryResponse handler.status.capabilities, handler)

/-- The word of a received request is recorded before anything looks at it. -/
def Handler.receive (word : UInt64) (handler : Handler) : Handler :=
  { handler with status := { handler.status with lastRequest := word } }

/-- Receive at most one request, answer it and record the outcome of the response. -/
def serveRequest (contract : ResolvedContract) (iteration : Iteration) (handler : Handler) :
    Handler :=
  match iteration.request with
  | none => handler
  | some word =>
      let (response, handler) :=
        respond contract iteration (Message.decode word) (handler.receive word)
      if iteration.responseSent then
        { handler with status := { handler.status with lastResponse := response.encode } }
      else
        { handler with status := { handler.status with
          flags := handler.status.flags ||| flagResponseTimeout } }

/-- The heartbeat and the diagnostic flags at the end of a turn. -/
def housekeeping (contract : ResolvedContract) (iteration : Iteration) (status : Status) : Status :=
  { status with
    heartbeat := if iteration.heartbeatDue then status.heartbeat + 1 else status.heartbeat
    flags := status.flags ||| mailboxDiagnosticFlags iteration.requestDrops
        iteration.lockFailures iteration.unexpectedEvents |||
      (if contract.profile = .picoclawLcd ∧ iteration.lcdFaulted then flagPicoclawLcdFailed
        else 0) }

/-- One turn of the loop of `control_task`. -/
def controlIteration (contract : ResolvedContract) (iteration : Iteration) (handler : Handler) :
    Handler :=
  let handler := serveRequest contract iteration handler
  Handler.publish { handler with status := housekeeping contract iteration handler.status }

/-- The control task after a sequence of loop turns. -/
def controlRun (contract : ResolvedContract) (iterations : List Iteration) (handler : Handler) :
    Handler :=
  iterations.foldl (fun handler iteration => controlIteration contract iteration handler) handler

@[simp] theorem control_run_nil (contract : ResolvedContract) (handler : Handler) :
    controlRun contract [] handler = handler := rfl

@[simp] theorem control_run_cons (contract : ResolvedContract) (iteration : Iteration)
    (iterations : List Iteration) (handler : Handler) :
    controlRun contract (iteration :: iterations) handler =
      controlRun contract iterations (controlIteration contract iteration handler) := rfl

/-! ## Rules for runs -/

/-- The fields a loop turn updates on its own account, outside the activation handler. -/
def Handler.bookkeep (lastRequest lastResponse heartbeat : UInt64) (flags : UInt32)
    (handler : Handler) : Handler :=
  { handler with status := { handler.status with
    lastRequest := lastRequest
    lastResponse := lastResponse
    heartbeat := heartbeat
    flags := flags } }

/-- The two status flags that only the activation handler sets. -/
def activationFlags : UInt32 := flagActivationRejected ||| flagActivationFailed

/-- A mask distributes over the flags it is applied to. -/
theorem flags_or_and (flags added mask : UInt32) :
    (flags ||| added) &&& mask = (flags &&& mask) ||| (added &&& mask) := by
  apply UInt32.toBitVec_inj.mp
  ext i
  simp [Bool.and_or_distrib_right]

/-- Adding other flags leaves the activation flags alone. -/
theorem activation_flags_or (flags : UInt32) {added : UInt32} (h : added &&& activationFlags = 0) :
    (flags ||| added) &&& activationFlags = flags &&& activationFlags := by
  rw [flags_or_and, h, UInt32.or_zero]

/-- The mailbox counters set no activation flag. -/
theorem mailbox_diagnostic_flags_and (requestDrops lockFailures unexpectedEvents : UInt32) :
    mailboxDiagnosticFlags requestDrops lockFailures unexpectedEvents &&& activationFlags = 0 := by
  unfold mailboxDiagnosticFlags
  split <;> split <;> split <;> decide

/-- The end of a turn sets no activation flag. -/
theorem housekeeping_flags (contract : ResolvedContract) (iteration : Iteration) (status : Status) :
    (housekeeping contract iteration status).flags &&& activationFlags =
      status.flags &&& activationFlags := by
  dsimp only [housekeeping]
  rw [activation_flags_or, activation_flags_or]
  · exact mailbox_diagnostic_flags_and _ _ _
  · split <;> decide

section

variable {contract : ResolvedContract} (P : Handler → Prop)

/-- A loop turn keeps what bookkeeping, its own activation envelope and publications keep.
Bookkeeping never touches the activation flags. -/
theorem control_iteration_rule (iteration : Iteration)
    (hbookkeep : ∀ handler lastRequest lastResponse heartbeat flags,
      flags &&& activationFlags = handler.status.flags &&& activationFlags → P handler →
      P (handler.bookkeep lastRequest lastResponse heartbeat flags))
    (hhandle : ∀ handler envelope, P handler →
      P (handler.handle contract envelope iteration.pair iteration.lease).2)
    (hpublish : ∀ handler, P handler → P handler.publish)
    {handler : Handler} (h : P handler) :
    P (controlIteration contract iteration handler) := by
  have hserve : P (serveRequest contract iteration handler) := by
    unfold serveRequest
    cases iteration.request with
    | none => exact h
    | some word =>
        have hword : P (handler.receive word) := hbookkeep handler _ _ _ _ rfl h
        have hrespond : P (respond contract iteration (Message.decode word)
            (handler.receive word)).2 := by
          unfold respond
          split
          · exact hhandle _ _ hword
          · exact hword
        dsimp only
        split
        · exact hbookkeep _ _ _ _ _ rfl hrespond
        · exact hbookkeep _ _ _ _ _ (activation_flags_or _ (by decide)) hrespond
  exact hpublish _ (hbookkeep _ _ _ _ _ (housekeeping_flags contract iteration _) hserve)

/-- A run keeps what each of its loop turns keeps. -/
theorem control_run_rule {iterations : List Iteration}
    (hiteration : ∀ handler, ∀ iteration ∈ iterations, P handler →
      P (controlIteration contract iteration handler))
    {handler : Handler} (h : P handler) :
    P (controlRun contract iterations handler) := by
  induction iterations generalizing handler with
  | nil => exact h
  | cons iteration rest ih =>
      apply ih fun handler later hlater => hiteration handler later (List.mem_cons_of_mem _ hlater)
      exact hiteration handler iteration List.mem_cons_self h

end

/-! ## The header of a boot -/

/-- The fields of a status that identify the boot it belongs to. -/
structure Header where
  magic : UInt32
  abiMajor : UInt16
  abiMinor : UInt16
  structSize : UInt32
  state : UInt32
  generation : UInt32
  deriving DecidableEq, Repr

/-- The header of a status. -/
def header (status : Status) : Header where
  magic := status.magic
  abiMajor := status.abiMajor
  abiMinor := status.abiMinor
  structSize := status.structSize
  state := status.state
  generation := status.generation

/-- The header of a running firmware in a given generation. -/
def runningHeader (generation : UInt32) : Header where
  magic := shmemMagic
  abiMajor := abiMajor
  abiMinor := abiMinor
  structSize := statusSize
  state := stateRunning
  generation := generation

/-- The control task stays in the boot it started in, and so do all its publications. -/
structure KeepsHeader (expected : Header) (handler : Handler) : Prop where
  current : header handler.status = expected
  published : ∀ status ∈ handler.published, header status = expected

namespace KeepsHeader

variable {expected : Header} {handler : Handler}

/-- The header survives a change of any other field. -/
theorem with_status (h : KeepsHeader expected handler) {after : Handler}
    (hstatus : header after.status = header handler.status)
    (hpublished : after.published = handler.published) : KeepsHeader expected after := by
  refine ⟨hstatus.trans h.current, ?_⟩
  rw [hpublished]
  exact h.published

/-- Publishing keeps the header. -/
theorem publish (h : KeepsHeader expected handler) : KeepsHeader expected handler.publish := by
  refine ⟨h.current, ?_⟩
  intro status hstatus
  simp only [Handler.publish, List.mem_append, List.mem_singleton] at hstatus
  rcases hstatus with hstatus | rfl
  · exact h.published status hstatus
  · exact h.current

/-- Counting and validating an attempt keep the header. -/
theorem validating (h : KeepsHeader expected handler) (envelope : Message) :
    KeepsHeader expected (handler.validating envelope) := by
  have hattempted : KeepsHeader expected (handler.attempted envelope) := h.with_status rfl rfl
  exact publish (hattempted.with_status rfl rfl)

/-- A refusal keeps the header. -/
theorem reject (h : KeepsHeader expected handler) (contract : ResolvedContract) (result : UInt32) :
    KeepsHeader expected (handler.reject contract result).2 :=
  publish (h.with_status rfl rfl)

/-- The call of the leases keeps the header. -/
theorem activate_leases (h : KeepsHeader expected handler) (contract : ResolvedContract)
    (request : ActivationRequest) (lease : Except LeaseFailure Unit) :
    KeepsHeader expected (handler.activateLeases contract request lease).2 := by
  cases lease with
  | ok _ => exact publish (h.with_status rfl rfl)
  | error failure => exact publish (h.with_status rfl rfl)

/-- One envelope keeps the header. -/
theorem handle (h : KeepsHeader expected handler) (contract : ResolvedContract) (envelope : Message)
    (pair : ActivationRequest × ActivationRequest) (lease : Except LeaseFailure Unit) :
    KeepsHeader expected (handler.handle contract envelope pair lease).2 := by
  by_cases hstart : handler.Startable
  · by_cases hauth : Authorized contract envelope pair handler.status.generation
    · rw [Handler.handle_authorized hstart hauth]
      have hactivating : KeepsHeader expected (handler.activating envelope) :=
        publish ((h.validating envelope).with_status rfl rfl)
      exact hactivating.activate_leases contract _ lease
    · obtain ⟨result, _, hreject | hreject⟩ := Handler.handle_refused hstart hauth
      · rw [hreject]
        have hattempted : KeepsHeader expected (handler.attempted envelope) :=
          h.with_status rfl rfl
        exact hattempted.reject contract result
      · rw [hreject]
        exact (h.validating envelope).reject contract result
  · rwa [Handler.handle_ignored hstart]

/-- Every run keeps the header. -/
theorem run (h : KeepsHeader expected handler) (contract : ResolvedContract)
    (iterations : List Iteration) :
    KeepsHeader expected (controlRun contract iterations handler) :=
  control_run_rule _ (fun _ iteration _ hkeeps => control_iteration_rule _ iteration
    (fun _ _ _ _ _ _ hbefore => hbefore.with_status rfl rfl)
    (fun _ envelope hbefore => hbefore.handle contract envelope _ _)
    (fun _ hbefore => hbefore.publish) hkeeps) h

end KeepsHeader

/-- The control task of a boot runs in the generation that `initial_status` chose. -/
theorem control_begin_header (contract : ResolvedContract) (previous : Status) :
    KeepsHeader (runningHeader (nextGeneration (previousGeneration previous)))
      (controlBegin contract (initialStatus contract previous)) := by
  have hstart : header (controlStart contract (initialStatus contract previous)) =
      runningHeader (nextGeneration (previousGeneration previous)) := by
    unfold controlStart
    split <;> rfl
  refine KeepsHeader.publish ⟨hstart, ?_⟩
  intro status hstatus
  cases hstatus

end NanoKvm.Firmware
