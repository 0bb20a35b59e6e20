import NanoKvm.Contract.Records
import NanoKvm.Firmware.ControlTask

/-!
# The control character device

The state that `sg2002-c906l-control.c` keeps for its character device, and what its callbacks
and file operations do to it under `state_lock`. `World` adds what happens around it: the
life of the open file, the call that holds `io_lock`, and the requests that the mailbox has
taken and whose answers have not been delivered. A request can be answered at any later time,
also after the session that sent it was closed.

A step is one critical section. A call that fails a check leaves the state alone and is not a
step; how long a blocking read or a close waits does not matter, since anything can happen in
between.
-/

namespace NanoKvm.Sessions

open Contract

/-! ## Requests and answers -/

/-- A request that was written to the device: the session and the number of the write. -/
structure Request where
  session : Nat
  number : Nat
  message : Message
  deriving DecidableEq

/-- The answers of the firmware to a request word. -/
def Answers (request response : Message) : Prop :=
  if request.service = serviceControl ∧ request.opcode = opActivateLeases then
    ∃ result, response = request.activationResponse result
  else ∃ capabilities, response = request.ordinaryResponse capabilities

/-- The control task answers in this way. -/
theorem respond_answers (contract : ResolvedContract) (iteration : Firmware.Iteration)
    (request : Message) (handler : Firmware.Handler) :
    Answers request (Firmware.respond contract iteration request handler).1 := by
  unfold Answers Firmware.respond
  split
  · exact ⟨_, rfl⟩
  · exact ⟨_, rfl⟩

/-- The client of the command line, which numbers its requests. -/
structure Client where
  nextSequence : UInt16

/-- `Client::new` -/
def Client.new : Client := ⟨1⟩

/-- The request of `Client::request` -/
def Client.request (client : Client) (opcode : UInt8) (value : UInt32) : Message × Client :=
  (⟨serviceControl, opcode, client.nextSequence, value⟩, ⟨client.nextSequence + 1⟩)

/-! ## The device -/

/-- The part of `struct sg2002_c906l` that the character device uses. -/
structure Control where
  response : UInt64
  txWord : UInt64
  txStatus : Int
  expectedSequence : UInt16
  expectedService : UInt8
  expectedOpcode : UInt8
  activationWaiting : Bool
  requestPending : Bool
  responseReady : Bool
  txPending : Bool

/-- `-EINPROGRESS` -/
def inProgress : Int := -115

/-- The response is the one the device waits for. -/
def Control.expects (control : Control) (response : Message) : Bool :=
  response.service == control.expectedService
    && response.sequence == control.expectedSequence
    && (response.opcode == control.expectedOpcode
      || !control.activationWaiting && response.opcode == opError)

/-- `sg2002_c906l_receive` -/
def Control.receive (control : Control) (word : UInt64) : Control :=
  if control.requestPending && control.expects (Message.decode word) then
    { control with response := word, requestPending := false, responseReady := true }
  else control

/-- `sg2002_c906l_txdone` for the message of the device -/
def Control.txDone (control : Control) (result : Int) : Control :=
  if control.txPending then
    { control with
      txPending := false
      txStatus := result
      requestPending := if result < 0 then false else control.requestPending }
  else control

/-- The reset of `sg2002_c906l_open` -/
def Control.openReset (control : Control) : Control :=
  { control with
    requestPending := false
    responseReady := false
    activationWaiting := false
    txStatus := 0 }

/-- The reset of `sg2002_c906l_release` -/
def Control.releaseReset (control : Control) : Control :=
  { control with requestPending := false, responseReady := false }

/-- The first critical section of `sg2002_c906l_write`, unless the call fails with `-EPERM` or
`-EBUSY`. -/
def Control.beginWrite (control : Control) (word : UInt64) : Option Control :=
  let message := Message.decode word
  if message.opcode = opActivateLeases then none
  else if control.requestPending || control.responseReady || control.txPending then none
  else
    some { control with
      txWord := word
      txStatus := inProgress
      txPending := true
      requestPending := true
      activationWaiting := false
      expectedService := message.service
      expectedOpcode := message.opcode ||| opResponse
      expectedSequence := message.sequence }

/-- The second critical section of `sg2002_c906l_write`, when the mailbox has refused the word. -/
def Control.refuseWrite (control : Control) (result : Int) : Control :=
  { control with txPending := false, txStatus := result, requestPending := false }

/-- The end of a successful `sg2002_c906l_read`. -/
def Control.endRead (control : Control) : Control := { control with responseReady := false }

/-! ## Sessions -/

/-- The life of the one open file: `open` has claimed it, it is open, `release` is waiting, or
`release` has reset the flags and not yet given the file up. -/
inductive FilePhase where
  | closed | claimed | active | closing | released
  deriving DecidableEq

/-- The call that holds `io_lock`: a write that has prepared its word and not heard from the mailbox,
or a read that is copying the response to the user. -/
inductive IoPhase where
  | free | sending | copying (response : UInt64)
  deriving DecidableEq

/-- A successful read: its session, the word, the write whose answer it took for it, the request that
the firmware answered with the word, and the latest accepted write of the session. -/
structure Read where
  session : Nat
  word : UInt64
  write : Nat
  answered : Option Request
  latest : Option Request

/-- The device, the file, and what has happened. `current` is the request of the last write that has
passed the checks, `accepted` the last one of the session that the mailbox has taken, and
`answered` the request that `response` answers. -/
structure World where
  control : Control
  file : FilePhase
  io : IoPhase
  session : Nat
  writes : Nat
  current : Option Request
  accepted : Option Request
  outstanding : List Request
  answered : Option Request
  reads : List Read

/-- What happens to the device. -/
inductive Event where
  | openClaim
  | openReset
  | beginWrite (word : UInt64)
  | sendTaken (request : Request)
  | sendRefused (result : Int)
  | txDone (result : Int)
  | receive (request : Request) (word : UInt64)
  | beginRead
  | failRead
  | endRead
  | releaseWait
  | releaseReset
  | releaseDone

/-- The request of the next write. -/
def World.nextRequest (w : World) (word : UInt64) : Request where
  session := w.session
  number := w.writes + 1
  message := Message.decode word

/-- The world after a delivered answer. -/
def World.receive (w : World) (request : Request) (word : UInt64) : World :=
  { w with
    control := w.control.receive word
    outstanding := w.outstanding.erase request
    answered := if w.control.requestPending && w.control.expects (Message.decode word) then
      some request else w.answered }

/-- The world after a successful read. -/
def World.endRead (w : World) (response : UInt64) : World :=
  { w with
    control := w.control.endRead
    io := .free
    reads := w.reads ++ [⟨w.session, response, w.writes, w.answered, w.accepted⟩] }

/-- One critical section. -/
inductive Step : World → Event → World → Prop where
  | openClaim {w : World} (hfile : w.file = .closed) :
      Step w .openClaim { w with file := .claimed }
  | openReset {w : World} (hfile : w.file = .claimed) :
      Step w .openReset { w with
        control := w.control.openReset
        file := .active
        session := w.session + 1
        accepted := none }
  | beginWrite {w : World} {word : UInt64} {control : Control} (hfile : w.file = .active)
      (hio : w.io = .free) (hcontrol : w.control.beginWrite word = some control) :
      Step w (.beginWrite word) { w with
        control := control
        io := .sending
        writes := w.writes + 1
        current := some (w.nextRequest word) }
  | sendTaken {w : World} {request : Request} (hio : w.io = .sending)
      (hcurrent : w.current = some request) :
      Step w (.sendTaken request) { w with
        io := .free
        accepted := some request
        outstanding := w.outstanding ++ [request] }
  | sendRefused {w : World} {result : Int} (hio : w.io = .sending) (hresult : result < 0) :
      Step w (.sendRefused result) { w with
        control := w.control.refuseWrite result
        io := .free }
  | txDone {w : World} {result : Int} :
      Step w (.txDone result) { w with control := w.control.txDone result }
  | receive {w : World} {request : Request} {word : UInt64}
      (houtstanding : request ∈ w.outstanding)
      (hanswers : Answers request.message (Message.decode word)) :
      Step w (.receive request word) (w.receive request word)
  | beginRead {w : World} (hfile : w.file = .active) (hio : w.io = .free)
      (hready : w.control.responseReady = true) :
      Step w .beginRead { w with io := .copying w.control.response }
  | failRead {w : World} {response : UInt64} (hio : w.io = .copying response) :
      Step w .failRead { w with io := .free }
  | endRead {w : World} {response : UInt64} (hio : w.io = .copying response) :
      Step w .endRead (w.endRead response)
  | releaseWait {w : World} (hfile : w.file = .active) (hio : w.io = .free) :
      Step w .releaseWait { w with file := .closing }
  | releaseReset {w : World} (hfile : w.file = .closing) :
      Step w .releaseReset { w with control := w.control.releaseReset, file := .released }
  | releaseDone {w : World} (hfile : w.file = .released) :
      Step w .releaseDone { w with file := .closed }

/-- The device after its probe: no session has been opened. The mailbox may still owe an answer to
the activation. -/
structure Probed (w : World) : Prop where
  requestPending : w.control.requestPending = false
  responseReady : w.control.responseReady = false
  file : w.file = .closed
  io : w.io = .free
  reads : w.reads = []

end NanoKvm.Sessions
