import NanoKvm.Firmware.ControlTask
import NanoKvm.Linux.Control

/-!
# The activation handshake

One run of `sg2002_activate_leases` against the control task of the firmware, as a step
relation on the shared memory, the two mailbox words in flight and the two programs.

The driver revokes, describes and commits its record, sends the envelope and polls. A
poll copies the status line, later copies it again and decides. The firmware receives
the envelope, reads the record twice and answers. What it publishes on the way becomes
visible one status at a time, in order, before it goes on; the driver can run between
any two of these steps. Whether a send succeeds, a deadline has passed or a response is
lost is left open.
-/

namespace NanoKvm.Activation

open Contract Firmware Linux

/-! ## The two halves of `handle` -/

/-- `handle` up to the call of `read_pair`. -/
def enter (contract : ResolvedContract) (envelope : Message) (handler : Handler) :
    Except (UInt32 × Handler) Handler :=
  if handler.Startable then handler.beginAttempt contract envelope else .ok handler

/-- `handle` from the pair on. -/
def finish (contract : ResolvedContract) (envelope : Message)
    (pair : ActivationRequest × ActivationRequest) (lease : Except LeaseFailure Unit)
    (handler : Handler) : UInt32 × Handler :=
  if handler.status.activationState = activationStateValidating then
    handler.checkRecord contract envelope pair lease
  else handler.handle contract envelope pair lease

/-- Between two turns of the control task the halves are `handle`. -/
theorem handle_eq_enter_finish {contract : ResolvedContract} {envelope : Message}
    {pair : ActivationRequest × ActivationRequest} {lease : Except LeaseFailure Unit}
    {handler : Handler}
    (h : handler.status.activationState ≠ activationStateValidating) :
    handler.handle contract envelope pair lease =
      match enter contract envelope handler with
      | .error answer => answer
      | .ok after => finish contract envelope pair lease after := by
  unfold enter
  by_cases hstart : handler.Startable
  · rw [if_pos hstart, Handler.handle_startable hstart]
    by_cases henvelope : EnvelopeValid envelope
    · rw [Handler.begin_attempt_valid henvelope]
      rfl
    · rw [Handler.begin_attempt_invalid henvelope]
  · rw [if_neg hstart]
    simp only [finish]
    rw [if_neg h]

/-! ## The state -/

/-- Where the control task stands. -/
inductive TaskPc where
  | idle
  | reading (envelope : Message) (first : Option ActivationRequest)
  | answering (response : Message)
  | closing

/-- The control task with the publications that are computed but not yet visible, and the
envelope it has handled with its result. -/
structure Task where
  handler : Handler
  pending : List Status
  pc : TaskPc
  handled : Option (Message × UInt32)

/-- Where `sg2002_activate_leases` stands. The two `terminal` states are the calls of
`sg2002_activation_terminal`, which may recover from a lost response in the last call only. -/
inductive DriverPc where
  | validated
  | revoked
  | described
  | committed
  | polling
  | terminal (allowRecovery : Bool)
  | copied (allowRecovery : Bool) (before : Status)
  | returned (result : Except Errno ActivationOutcome)

/-- The driver: the request it chose, the response that the mailbox callback left and the
result that the poll loop picked up. -/
structure Driver where
  pc : DriverPc
  generation : UInt32
  requestId : UInt32
  requestPending : Bool
  response : Option Message
  result : Option UInt32

/-- The two programs and what is between them. -/
structure System where
  task : Task
  driver : Driver
  line : Status
  record : ActivationRequest
  manifest : Manifest
  envelope : Option Message
  response : Option Message

/-! ## Actions of the firmware -/

/-- Take over a computed handler: what it published since is pending. -/
def Task.adopt (after : Handler) (pc : TaskPc) (task : Task) : Task :=
  { task with
    handler := after
    pending := after.published.drop task.handler.published.length
    pc := pc }

/-- `handle` returns: the response is built and the result recorded. -/
def Task.answer (envelope : Message) (answer : UInt32 × Handler) (task : Task) : Task :=
  { task.adopt answer.2 (.answering (envelope.activationResponse answer.1)) with
    handled := some (envelope, answer.1) }

/-- A request is received. -/
def Task.receive (contract : ResolvedContract) (envelope : Message) (task : Task) : Task :=
  let handler := task.handler.receive envelope.encode
  if envelope.service = serviceControl ∧ envelope.opcode = opActivateLeases then
    match enter contract envelope handler with
    | .error answer => task.answer envelope answer
    | .ok after => task.adopt after (.reading envelope none)
  else
    task.adopt handler (.answering (envelope.ordinaryResponse handler.status.capabilities))

/-- The response is sent, or its loss is flagged. -/
def Task.respond (response : Message) (sent : Bool) (task : Task) : Task :=
  let status := task.handler.status
  { task with
    handler := { task.handler with status :=
      if sent then { status with lastResponse := response.encode }
      else { status with flags := status.flags ||| flagResponseTimeout } }
    pc := .closing }

/-- The end of a loop turn. -/
def Task.close (contract : ResolvedContract) (iteration : Iteration) (task : Task) : Task :=
  task.adopt (Handler.publish { task.handler with
    status := housekeeping contract iteration task.handler.status }) .idle

/-! ## Actions of the driver -/

/-- `sg2002_c906l_receive`: keep a response that answers the pending request. -/
def Driver.receive (message : Message) (driver : Driver) : Driver :=
  if ¬ driver.requestPending then driver
  else if message.service ≠ serviceControl
      ∨ message.sequence ≠ driver.requestId.toUInt16
      ∨ message.opcode ≠ opActivateLeases ||| opResponse then driver
  else { driver with response := some message, requestPending := false }

/-- The top of the poll loop: pick up a response that is ready. -/
def Driver.pickUp (driver : Driver) : Driver :=
  match driver.response with
  | none => { driver with pc := .terminal false }
  | some message =>
      { driver with response := none, result := some message.value, pc := .terminal false }

/-- The verdict of `sg2002_activation_terminal` on two copies of the status. -/
def Driver.verdict (contract : ResolvedContract) (manifest : Manifest) (allowRecovery : Bool)
    (before status : Status) (driver : Driver) : Except Errno ActivationOutcome :=
  activationTerminal contract (readContractSnapshot contract before manifest manifest status)
    driver.requestId driver.result.isSome (driver.result.getD activationResultSuccess)
    allowRecovery

/-- The poll loop goes on for these two verdicts. -/
def Unfinished (verdict : Except Errno ActivationOutcome) : Prop :=
  verdict = .error .inProgress ∨ verdict = .error .again

/-! ## Steps -/

/-- One step of either program, or of the mailbox between them. -/
inductive Step (contract : ResolvedContract) : System → System → Prop where
  | revoke (s : System) (requestId : UInt32) (hpc : s.driver.pc = .validated)
      (hid : requestId ≠ 0) :
      Step contract s { s with
        record := { s.record with commit := 0 }
        driver := { s.driver with requestId := requestId, pc := .revoked } }
  | describe (s : System) (hpc : s.driver.pc = .revoked) :
      Step contract s { s with
        record :=
          { activationRequest contract s.driver.generation s.driver.requestId with
            commit := s.record.commit }
        driver := { s.driver with pc := .described } }
  | commit (s : System) (hpc : s.driver.pc = .described) :
      Step contract s { s with
        record := { s.record with commit := activationRequestCommit }
        driver := { s.driver with pc := .committed } }
  | send (s : System) (hpc : s.driver.pc = .committed) :
      Step contract s { s with
        envelope := some (activationEnvelope s.driver.requestId)
        driver := { s.driver with requestPending := true, pc := .polling } }
  | sendFailed (s : System) (hpc : s.driver.pc = .committed) :
      Step contract s { s with driver := { s.driver with pc := .returned (.error .mailbox) } }
  | pickUp (s : System) (hpc : s.driver.pc = .polling) :
      Step contract s { s with driver := s.driver.pickUp }
  | transmitFailed (s : System) (hpc : s.driver.pc = .polling) :
      Step contract s { s with driver := { s.driver with pc := .returned (.error .mailbox) } }
  | copy (s : System) (allowRecovery : Bool) (hpc : s.driver.pc = .terminal allowRecovery) :
      Step contract s { s with driver := { s.driver with pc := .copied allowRecovery s.line } }
  | decided (s : System) (allowRecovery : Bool) (before : Status)
      (hpc : s.driver.pc = .copied allowRecovery before)
      (hdone : ¬ Unfinished (s.driver.verdict contract s.manifest allowRecovery before s.line)) :
      Step contract s { s with driver := { s.driver with
        pc := .returned (s.driver.verdict contract s.manifest allowRecovery before s.line) } }
  | wait (s : System) (before : Status) (expired : Bool)
      (hpc : s.driver.pc = .copied false before)
      (hmore : Unfinished (s.driver.verdict contract s.manifest false before s.line)) :
      Step contract s { s with driver := { s.driver with
        pc := if expired then .terminal true else .polling } }
  | timedOut (s : System) (before : Status) (hpc : s.driver.pc = .copied true before)
      (hmore : Unfinished (s.driver.verdict contract s.manifest true before s.line)) :
      Step contract s { s with driver := { s.driver with pc := .returned (.error .timedOut) } }
  | deliver (s : System) (message : Message) (hresponse : s.response = some message) :
      Step contract s { s with response := none, driver := s.driver.receive message }
  | lose (s : System) (message : Message) (hresponse : s.response = some message) :
      Step contract s { s with response := none }
  | receive (s : System) (envelope : Message) (hpc : s.task.pc = .idle)
      (hpending : s.task.pending = []) (henvelope : s.envelope = some envelope) :
      Step contract s { s with envelope := none, task := s.task.receive contract envelope }
  | publish (s : System) (status : Status) (rest : List Status)
      (hpending : s.task.pending = status :: rest) :
      Step contract s { s with line := status, task := { s.task with pending := rest } }
  | readFirst (s : System) (envelope : Message) (hpc : s.task.pc = .reading envelope none)
      (hpending : s.task.pending = []) :
      Step contract s { s with
        task := { s.task with pc := .reading envelope (some s.record) } }
  | readSecond (s : System) (envelope : Message) (first : ActivationRequest)
      (lease : Except LeaseFailure Unit) (hpc : s.task.pc = .reading envelope (some first))
      (hpending : s.task.pending = []) :
      Step contract s { s with
        task := s.task.answer envelope
          (finish contract envelope (first, s.record) lease s.task.handler) }
  | respond (s : System) (response : Message) (sent : Bool)
      (hpc : s.task.pc = .answering response) (hpending : s.task.pending = []) :
      Step contract s { s with
        response := if sent then some response else s.response
        task := s.task.respond response sent }
  | close (s : System) (iteration : Iteration) (hpc : s.task.pc = .closing) :
      Step contract s { s with task := s.task.close contract iteration }
  | turn (s : System) (iteration : Iteration) (hpc : s.task.pc = .idle)
      (hpending : s.task.pending = []) :
      Step contract s { s with task := s.task.close contract iteration }

/-- The driver starts from a status that it validated as a source: the control task is between
two turns with that status visible, and nothing of an earlier run is in flight: no envelope is on
its way or waits for the task, and no response waits for the driver. Publications are recorded from
here on. -/
structure Start (contract : ResolvedContract) (s : System) : Prop where
  source : ∃ snapshot, readContractSnapshot contract s.line s.manifest s.manifest s.line =
    .ok snapshot ∧ validateActivationSource contract snapshot = .ok ()
  visible : s.task.handler.status = s.line
  published : s.task.handler.published = []
  idle : s.task.pc = .idle
  pending : s.task.pending = []
  handled : s.task.handled = none
  accepted : s.task.handler.acceptedRequest = none
  validated : s.driver.pc = .validated
  generation : s.driver.generation = s.line.generation
  requestPending : s.driver.requestPending = false
  ready : s.driver.response = none
  result : s.driver.result = none
  envelope : s.envelope = none
  response : s.response = none

end NanoKvm.Activation
