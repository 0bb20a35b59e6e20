import Mathlib.Tactic.ByContra
import Mathlib.Tactic.Tauto
import NanoKvm.Activation.Handshake
import NanoKvm.Exec.Reachability

/-!
# The verdict of the activation handshake

When `sg2002_activate_leases` returns success the firmware has accepted this request, and
when it returns a remote refusal the firmware has refused this request, provided that the
run starts from a dormant firmware. From a firmware that rejected an earlier request the
second half fails: the driver takes the old verdict on the status line for its own.

The invariant has three phases: the request is not handled yet, it is accepted, or it is
refused. In each of them only some activation states can be on the status line or on
their way to it.
-/

namespace NanoKvm.Activation

open Contract Firmware Linux

/-- The status of the control task, the visible one and the pending ones. -/
def System.statuses (s : System) : List Status :=
  s.task.handler.status :: s.line :: s.task.pending

/-- The driver has not handed its envelope to the mailbox. -/
def DriverPc.BeforeSend (pc : DriverPc) : Prop :=
  pc = .validated ∨ pc = .revoked ∨ pc = .described ∨ pc = .committed

/-- The firmware accepted the driver's request. -/
structure Accepted (s : System) : Prop where
  handled : s.task.handled =
    some (activationEnvelope s.driver.requestId, activationResultSuccess)
  accepted : ∃ request, s.task.handler.acceptedRequest = some request ∧
    request.requestId = s.driver.requestId
  active : s.task.handler.status.activationState = activationStateActive
  requestId : s.task.handler.status.activationRequestId = s.driver.requestId

/-- The firmware refused the driver's request: by its result, and by moving to `REJECTED` or
`LEASE_FAULT`. -/
structure Refused (s : System) : Prop where
  handled : ∃ result, s.task.handled = some (activationEnvelope s.driver.requestId, result)
  accepted : s.task.handler.acceptedRequest = none
  state : s.task.handler.status.activationState = activationStateRejected ∨
    s.task.handler.status.activationState = activationStateLeaseFault

/-- Agreement of the two sides: success is returned only for an accepted request, a remote
refusal only for a refused one. -/
def Agreement (s : System) : Prop :=
  (∀ outcome, s.driver.pc = .returned (.ok outcome) → Accepted s) ∧
    (s.driver.pc = .returned (.error .remoteIo) → Refused s)

/-! ## The invariant -/

/-- Before the request is handled the firmware is dormant or validating, and nothing has come
back to the driver. -/
structure Waiting (s : System) : Prop where
  handled : s.task.handled = none
  accepted : s.task.handler.acceptedRequest = none
  states : ∀ status ∈ s.statuses, status.activationState = activationStateDormant ∨
    status.activationState = activationStateValidating
  pc : (s.task.pc = .idle ∧
      s.task.handler.status.activationState = activationStateDormant) ∨
    (∃ first, s.task.pc = .reading (activationEnvelope s.driver.requestId) first ∧
      s.task.handler.status.activationState = activationStateValidating ∧
      s.envelope = none ∧ ¬ s.driver.pc.BeforeSend)
  envelope : ∀ envelope ∈ s.envelope,
    envelope = activationEnvelope s.driver.requestId ∧ ¬ s.driver.pc.BeforeSend
  response : s.response = none
  ready : s.driver.response = none
  result : s.driver.result = none
  unreturned : ∀ result, s.driver.pc = .returned result →
    (∀ outcome, result ≠ .ok outcome) ∧ result ≠ .error .remoteIo

/-- The envelope is used up and the task is past reading records. -/
structure Settled (s : System) : Prop where
  envelope : s.envelope = none
  pc : ∀ envelope first, s.task.pc ≠ .reading envelope first
  sent : ¬ s.driver.pc.BeforeSend

/-- An accepted request: no refusal is on the line, and every answer on its way is success. -/
structure Accepting (s : System) : Prop where
  accepted : Accepted s
  settled : Settled s
  states : ∀ status ∈ s.statuses, status.activationState ≠ activationStateRejected ∧
    status.activationState ≠ activationStateLeaseFault
  answering : ∀ message, s.task.pc = .answering message →
    message.value = activationResultSuccess
  response : ∀ message ∈ s.response, message.value = activationResultSuccess
  ready : ∀ message ∈ s.driver.response, message.value = activationResultSuccess
  result : ∀ value ∈ s.driver.result, value = activationResultSuccess
  unreturned : s.driver.pc ≠ .returned (.error .remoteIo)

/-- A refused request: no active status is on the line. -/
structure Refusing (s : System) : Prop where
  refused : Refused s
  settled : Settled s
  states : ∀ status ∈ s.statuses, status.activationState ≠ activationStateActive
  unreturned : ∀ outcome, s.driver.pc ≠ .returned (.ok outcome)

/-- One of the three phases. -/
def Phase (s : System) : Prop := Waiting s ∨ Accepting s ∨ Refusing s

/-- All statuses are those of one running boot. -/
structure Headers (generation : UInt32) (s : System) : Prop where
  handler : KeepsHeader (runningHeader generation) s.task.handler
  line : header s.line = runningHeader generation
  pending : ∀ status ∈ s.task.pending, header status = runningHeader generation

/-- In every phase the two sides agree. -/
theorem Phase.agreement {s : System} (h : Phase s) : Agreement s := by
  rcases h with hwaiting | haccepting | hrefusing
  · exact ⟨fun outcome hpc => absurd rfl ((hwaiting.unreturned _ hpc).1 outcome),
      fun hpc => absurd rfl (hwaiting.unreturned _ hpc).2⟩
  · exact ⟨fun _ _ => haccepting.accepted, fun hpc => absurd hpc haccepting.unreturned⟩
  · exact ⟨fun outcome hpc => absurd hpc (hrefusing.unreturned outcome),
      fun _ => hrefusing.refused⟩

/-! ## The verdict on two copies -/

/-- A snapshot is the second copy of the status. -/
theorem read_contract_snapshot_status {contract : ResolvedContract} {before status : Status}
    {first second : Manifest} {snapshot : ContractSnapshot}
    (h : readContractSnapshot contract before first second status = .ok snapshot) :
    snapshot.status = status := by
  obtain ⟨_, _, _, _, _, _, _, _, _, hsnapshot⟩ := read_contract_snapshot_ok h
  rw [hsnapshot]

/-- The snapshot of a running firmware fails with a retry or a protocol error only. -/
theorem read_contract_snapshot_running {contract : ResolvedContract} {before status : Status}
    {first second : Manifest} (hstate : status.state = stateRunning) :
    readContractSnapshot contract before first second status ≠ .error .remoteIo := by
  intro h
  have hmanifest : validateManifest contract first ≠ .error .remoteIo := by
    unfold validateManifest
    split <;> simp
  unfold readContractSnapshot at h
  repeat' split at h
  all_goals first
    | exact absurd hstate ‹_›
    | cases h
  exact hmanifest ‹_›

/-- Success is reported for an active status of this request. -/
theorem verdict_ok {contract : ResolvedContract} {manifest : Manifest} {allowRecovery : Bool}
    {before status : Status} {driver : Driver} {outcome : ActivationOutcome}
    (h : driver.verdict contract manifest allowRecovery before status = .ok outcome) :
    status.activationState = activationStateActive := by
  unfold Driver.verdict activationTerminal at h
  cases hread : readContractSnapshot contract before manifest manifest status with
  | error error =>
      rw [hread] at h
      cases h
  | ok snapshot =>
      rw [hread] at h
      have hstatus := read_contract_snapshot_status hread
      dsimp only at h
      rw [hstatus] at h
      split at h
      · cases h
      · split at h
        · rename_i hactive
          exact hactive.1
        · split at h <;> cases h

/-- A running firmware is reported as a remote refusal for a non-zero response or for a refusal
on the line. -/
theorem verdict_remote_io {contract : ResolvedContract} {manifest : Manifest} {allowRecovery : Bool}
    {before status : Status} {driver : Driver} (hstate : status.state = stateRunning)
    (h : driver.verdict contract manifest allowRecovery before status = .error .remoteIo) :
    (∃ value ∈ driver.result, value ≠ activationResultSuccess) ∨
      status.activationState = activationStateRejected ∨
      status.activationState = activationStateLeaseFault := by
  unfold Driver.verdict activationTerminal at h
  cases hread : readContractSnapshot contract before manifest manifest status with
  | error error =>
      rw [hread] at h
      cases h
      exact absurd hread (read_contract_snapshot_running hstate)
  | ok snapshot =>
      rw [hread] at h
      have hstatus := read_contract_snapshot_status hread
      dsimp only at h
      rw [hstatus] at h
      split at h
      · rename_i hvalue
        obtain ⟨value, hsome⟩ := Option.isSome_iff_exists.mp hvalue.1
        rw [hsome] at hvalue
        exact .inl ⟨value, hsome, hvalue.2⟩
      · split at h
        · have hactive : validateActive contract snapshot ≠ .error .remoteIo := by
            intro hremote
            simp only [validateActive] at hremote
            split at hremote <;> split at hremote <;> cases hremote
          split at h
          · cases h
            exact absurd ‹_› hactive
          · split at h <;> cases h
        · split at h
          · rename_i hrefused
            exact .inr hrefused
          · cases h

/-! ## Steps of the task -/

/-- What holds of the three places a status can be in. -/
theorem forall_statuses {s : System} {P : Status → Prop} :
    (∀ status ∈ s.statuses, P status) ↔
      P s.task.handler.status ∧ P s.line ∧ ∀ status ∈ s.task.pending, P status := by
  simp [System.statuses]

/-- The publications since are what is pending. -/
theorem adopt_pending {task : Task} {after : Handler} {pc : TaskPc} {fresh : List Status}
    (h : after.published = task.handler.published ++ fresh) :
    (task.adopt after pc).pending = fresh := by
  simp [Task.adopt, h]

/-- So are those of a returning `handle`. -/
theorem answer_pending {task : Task} {envelope : Message} {answer : UInt32 × Handler}
    {fresh : List Status} (h : answer.2.published = task.handler.published ++ fresh) :
    (task.answer envelope answer).pending = fresh :=
  @adopt_pending task answer.2 .idle fresh h

section

variable {contract : ResolvedContract} {s : System}

/-- The task of an unhandled request is dormant while it is idle. -/
theorem Waiting.dormant (h : Waiting s) (hpc : s.task.pc = .idle) :
    s.task.handler.status.activationState = activationStateDormant := by
  rcases h.pc with hidle | ⟨first, hreading, -⟩
  · exact hidle.2
  · rw [hpc] at hreading
    cases hreading

/-- No active status is visible while the request is not handled. -/
theorem Waiting.line_ne_active (h : Waiting s) :
    s.line.activationState ≠ activationStateActive := by
  rcases (forall_statuses.mp h.states).2.1 with hline | hline <;> rw [hline] <;> decide

/-- The driver has not returned success for an unhandled request. -/
theorem Waiting.not_ok (h : Waiting s) (outcome : ActivationOutcome) :
    s.driver.pc ≠ .returned (.ok outcome) :=
  fun hreturned => (h.unreturned _ hreturned).1 outcome rfl

/-- The envelope of an unhandled request starts validation or is refused at once. -/
theorem Waiting.receive (h : Waiting s) {envelope : Message} (hpc : s.task.pc = .idle)
    (henvelope : s.envelope = some envelope) :
    Waiting { s with envelope := none, task := s.task.receive contract envelope } ∨
      Refusing { s with envelope := none, task := s.task.receive contract envelope } := by
  obtain ⟨rfl, hsent⟩ := h.envelope envelope henvelope
  generalize henv : activationEnvelope s.driver.requestId = envelope
  let received := s.task.handler.receive envelope.encode
  have hstart : received.Startable := .inl (h.dormant hpc)
  have hactivate : envelope.service = serviceControl ∧ envelope.opcode = opActivateLeases := by
    rw [← henv]
    exact ⟨rfl, rfl⟩
  have hrefused : ∀ answer, received.beginAttempt contract envelope = .error answer →
      s.task.receive contract envelope = s.task.answer envelope answer := by
    intro answer hattempt
    simp only [received] at hstart hattempt
    simp only [Task.receive, enter, if_pos hactivate, if_pos hstart, hattempt]
  have hbegun : ∀ after, received.beginAttempt contract envelope = .ok after →
      s.task.receive contract envelope = s.task.adopt after (.reading envelope none) := by
    intro after hattempt
    simp only [received] at hstart hattempt
    simp only [Task.receive, enter, if_pos hactivate, if_pos hstart, hattempt]
  by_cases hvalid : EnvelopeValid envelope
  · left
    have hpending : (s.task.adopt (received.validating envelope) (.reading envelope none)).pending =
        [(received.validating envelope).status] := adopt_pending rfl
    rw [hbegun _ (Handler.begin_attempt_valid hvalid)]
    refine ⟨h.handled, h.accepted, forall_statuses.mpr ⟨.inr rfl, ?_, ?_⟩,
      .inr ⟨none, congrArg (TaskPc.reading · none) henv.symm, rfl, rfl, hsent⟩,
      fun _ hnone => absurd hnone (by simp), h.response, h.ready, h.result, h.unreturned⟩
    · exact (forall_statuses.mp h.states).2.1
    · intro status hstatus
      rw [hpending, List.mem_singleton] at hstatus
      rw [hstatus]
      exact .inr rfl
  · right
    let refusal := received.attempted envelope |>.reject contract activationResultInvalidEnvelope
    have hpending : (s.task.answer envelope refusal).pending = [refusal.2.status] :=
      answer_pending rfl
    have hne : activationStateRejected ≠ activationStateActive := by decide
    rw [hrefused _ (Handler.begin_attempt_invalid hvalid)]
    refine ⟨⟨⟨_, congrArg (fun m => some (m, _)) henv.symm⟩, h.accepted, .inl rfl⟩,
      ⟨rfl, fun _ _ hreading => (by cases hreading), hsent⟩,
      forall_statuses.mpr ⟨hne, h.line_ne_active, ?_⟩, h.not_ok⟩
    intro status hstatus
    rw [hpending, List.mem_singleton] at hstatus
    rw [hstatus]
    exact hne

/-- The record check of an unhandled request accepts or refuses it. -/
theorem Waiting.read_second (h : Waiting s) {envelope : Message} {first : ActivationRequest}
    (lease : Except LeaseFailure Unit) (hpc : s.task.pc = .reading envelope (some first)) :
    let task := s.task.answer envelope
      (finish contract envelope (first, s.record) lease s.task.handler)
    Accepting { s with task := task } ∨ Refusing { s with task := task } := by
  have hreading : envelope = activationEnvelope s.driver.requestId ∧
      s.task.handler.status.activationState = activationStateValidating ∧ s.envelope = none ∧
      ¬ s.driver.pc.BeforeSend := by
    rcases h.pc with hidle | ⟨first', hreading, hrest⟩
    · rw [hpc] at hidle
      cases hidle.1
    · rw [hpc] at hreading
      cases hreading
      exact ⟨rfl, hrest⟩
  obtain ⟨rfl, hstate, hnone, hsent⟩ := hreading
  obtain ⟨-, hline, -⟩ := forall_statuses.mp h.states
  have hfinish : finish contract (activationEnvelope s.driver.requestId) (first, s.record) lease
      s.task.handler = s.task.handler.checkRecord contract
        (activationEnvelope s.driver.requestId) (first, s.record) lease := if_pos hstate
  simp only [hfinish]
  have hsettled : ∀ answer, Settled { s with
      task := s.task.answer (activationEnvelope s.driver.requestId) answer } :=
    fun answer => ⟨hnone, fun _ _ hreading => (nomatch hreading), hsent⟩
  by_cases hrecord : first = s.record ∧ validateRecord contract first
      s.task.handler.status.generation = .ok () ∧
      first.requestId = (activationEnvelope s.driver.requestId).value
  · rw [Handler.check_record_accepted hrecord.1 hrecord.2.1 hrecord.2.2]
    generalize hactivating : Handler.publish { s.task.handler with
      status := { s.task.handler.status with
        activationRequestId := (activationEnvelope s.driver.requestId).value
        activationState := activationStateActivating } } = activating
    have hpublished : activating.published = s.task.handler.published ++ [activating.status] := by
      rw [← hactivating]
      rfl
    have hstate' : activating.status.activationState = activationStateActivating := by
      rw [← hactivating]
      rfl
    cases lease with
    | ok _ =>
        left
        let answer := activating.activateLeases contract first (.ok ())
        have hpending : (s.task.answer (activationEnvelope s.driver.requestId) answer).pending =
            [activating.status, answer.2.status] := answer_pending (by
          show activating.published ++ [answer.2.status] = _
          rw [hpublished]
          simp)
        have hids : answer.2.status.activationRequestId = s.driver.requestId := by
          show activating.status.activationRequestId = s.driver.requestId
          rw [← hactivating]
          rfl
        have hne : activationStateActive ≠ activationStateRejected ∧
          activationStateActive ≠ activationStateLeaseFault := by decide
        refine ⟨⟨rfl, ⟨first, rfl, hrecord.2.2⟩, rfl, hids⟩, hsettled answer,
          forall_statuses.mpr ⟨hne, ?_, ?_⟩, ?_, ?_, ?_, ?_, ?_⟩
        · rcases hline with hline | hline <;> rw [hline] <;> decide
        · intro status hstatus
          rw [hpending, List.mem_cons, List.mem_singleton] at hstatus
          rcases hstatus with rfl | rfl
          · rw [hstate']
            decide
          · exact hne
        · rintro message ⟨⟩
          rfl
        · rw [h.response]
          exact fun _ hmem => nomatch hmem
        · rw [h.ready]
          exact fun _ hmem => nomatch hmem
        · rw [h.result]
          exact fun _ hmem => nomatch hmem
        · exact fun hreturned => (h.unreturned _ hreturned).2 rfl
    | error failure =>
        right
        let answer := activating.activateLeases contract first (.error failure)
        have hpending : (s.task.answer (activationEnvelope s.driver.requestId) answer).pending =
            [activating.status, answer.2.status] := answer_pending (by
          show activating.published ++ [answer.2.status] = _
          rw [hpublished]
          simp)
        have hne : activationStateLeaseFault ≠ activationStateActive := by decide
        have haccepted : answer.2.acceptedRequest = none := by
          show activating.acceptedRequest = none
          rw [← hactivating]
          exact h.accepted
        refine ⟨⟨⟨_, rfl⟩, haccepted, .inr rfl⟩, hsettled answer,
          forall_statuses.mpr ⟨hne, h.line_ne_active, ?_⟩, h.not_ok⟩
        intro status hstatus
        rw [hpending, List.mem_cons, List.mem_singleton] at hstatus
        rcases hstatus with rfl | rfl
        · rw [hstate']
          decide
        · exact hne
  · right
    obtain ⟨result, _, hreject⟩ := @Handler.check_record_refused contract
      (activationEnvelope s.driver.requestId) (first, s.record) lease s.task.handler hrecord
    rw [hreject]
    let answer := s.task.handler.reject contract result
    have hpending : (s.task.answer (activationEnvelope s.driver.requestId) answer).pending =
        [answer.2.status] := answer_pending rfl
    have hne : activationStateRejected ≠ activationStateActive := by decide
    refine ⟨⟨⟨_, rfl⟩, h.accepted, .inl rfl⟩, hsettled answer,
      forall_statuses.mpr ⟨hne, h.line_ne_active, ?_⟩, h.not_ok⟩
    intro status hstatus
    rw [hpending, List.mem_singleton] at hstatus
    rw [hstatus]
    exact hne

/-- A publication only moves a status. -/
theorem forall_statuses_publish {P : Status → Prop} {status : Status} {rest : List Status}
    (hpending : s.task.pending = status :: rest) (h : ∀ status ∈ s.statuses, P status) :
    ∀ other ∈ System.statuses
      { s with line := status, task := { s.task with pending := rest } }, P other := by
  rw [forall_statuses] at h ⊢
  rw [hpending] at h
  exact ⟨h.1, h.2.2 status List.mem_cons_self,
    fun other hother => h.2.2 other (List.mem_cons_of_mem _ hother)⟩

/-- A publication keeps the phase. -/
theorem Phase.publish (h : Phase s) {status : Status} {rest : List Status}
    (hpending : s.task.pending = status :: rest) :
    Phase { s with line := status, task := { s.task with pending := rest } } := by
  rcases h with h | h | h
  · exact .inl { h with states := forall_statuses_publish hpending h.states }
  · exact .inr (.inl
      { h with
        accepted := { h.accepted with }
        settled := { h.settled with }
        states := forall_statuses_publish hpending h.states })
  · exact .inr (.inr
      { h with
        refused := { h.refused with }
        settled := { h.settled with }
        states := forall_statuses_publish hpending h.states })

/-- A returned result that a phase allows. -/
def Fits (s : System) (result : Except Errno ActivationOutcome) : Prop :=
  (Waiting s → (∀ outcome, result ≠ .ok outcome) ∧ result ≠ .error .remoteIo) ∧
    (Accepting s → result ≠ .error .remoteIo) ∧
    (Refusing s → ∀ outcome, result ≠ .ok outcome)

/-- An error other than a remote refusal fits every phase. -/
theorem fits_error {error : Errno} (h : error ≠ .remoteIo) : Fits s (.error error) := by
  have hne : (.error error : Except Errno ActivationOutcome) ≠ .error .remoteIo :=
    fun heq => h (Except.error.inj heq)
  exact ⟨fun _ => ⟨fun _ heq => (nomatch heq), hne⟩, fun _ => hne, fun _ _ heq => (nomatch heq)⟩

/-- A step of the driver or the mailbox keeps the phase: it invents no response, keeps the
request id once the envelope is sent and returns only what fits. -/
theorem Phase.with_driver (h : Phase s) {driver : Driver} {record : ActivationRequest}
    {response : Option Message}
    (hid : s.driver.pc.BeforeSend ∨
      driver.requestId = s.driver.requestId ∧ ¬ driver.pc.BeforeSend)
    (hresponse : ∀ message ∈ response, message ∈ s.response)
    (hready : ∀ message ∈ driver.response, message ∈ s.driver.response ∨ message ∈ s.response)
    (hresult : ∀ value ∈ driver.result,
      value ∈ s.driver.result ∨ ∃ message ∈ s.driver.response, message.value = value)
    (hreturn : ∀ result, driver.pc = .returned result →
      s.driver.pc = .returned result ∨ Fits s result) :
    Phase { s with driver := driver, record := record, response := response } := by
  rcases h with h | h | h
  · have hnone : response = none := by
      rw [h.response] at hresponse
      exact Option.eq_none_iff_forall_not_mem.mpr fun message hmem => nomatch hresponse message hmem
    have hunready : driver.response = none := by
      rw [h.response, h.ready] at hready
      refine Option.eq_none_iff_forall_not_mem.mpr fun message hmem => ?_
      rcases hready message hmem with hready | hready <;> cases hready
    have hunanswered : driver.result = none := by
      rw [h.ready, h.result] at hresult
      refine Option.eq_none_iff_forall_not_mem.mpr fun value hmem => ?_
      rcases hresult value hmem with hvalue | ⟨_, hvalue, _⟩ <;> cases hvalue
    refine .inl ⟨h.handled, h.accepted, h.states, ?_, ?_, hnone, hunready, hunanswered, ?_⟩
    · rcases h.pc with hidle | ⟨first, hreading, hstate, henvelope, hsent⟩
      · exact .inl hidle
      · obtain ⟨hsame, hafter⟩ := hid.resolve_left hsent
        exact .inr ⟨first, by rw [hsame]; exact hreading, hstate, henvelope, hafter⟩
    · intro envelope hmem
      obtain ⟨henvelope, hsent⟩ := h.envelope envelope hmem
      obtain ⟨hsame, hafter⟩ := hid.resolve_left hsent
      exact ⟨by rw [hsame]; exact henvelope, hafter⟩
    · intro result hpc
      rcases hreturn result hpc with hbefore | hfits
      · exact h.unreturned result hbefore
      · exact hfits.1 h
  · obtain ⟨hsame, hafter⟩ := hid.resolve_left h.settled.sent
    obtain ⟨⟨hhandled, haccepted, hactive, hrequest⟩, ⟨henvelope, hpc, -⟩, -⟩ := id h
    refine .inr (.inl ⟨⟨?_, ?_, hactive, ?_⟩, ⟨henvelope, hpc, hafter⟩, h.states, h.answering,
      fun message hmem => h.response message (hresponse message hmem), ?_, ?_, ?_⟩)
    · rw [hsame]
      exact hhandled
    · rw [hsame]
      exact haccepted
    · rw [hsame]
      exact hrequest
    · intro message hmem
      rcases hready message hmem with hmem | hmem
      · exact h.ready message hmem
      · exact h.response message hmem
    · intro value hmem
      rcases hresult value hmem with hbefore | ⟨message, hmessage, rfl⟩
      · exact h.result value hbefore
      · exact h.ready message hmessage
    · intro hremote
      rcases hreturn _ hremote with hbefore | hfits
      · exact h.unreturned hbefore
      · exact hfits.2.1 h rfl
  · obtain ⟨hsame, hafter⟩ := hid.resolve_left h.settled.sent
    refine .inr (.inr ⟨⟨?_, h.refused.accepted, h.refused.state⟩,
      ⟨h.settled.envelope, h.settled.pc, hafter⟩, h.states, ?_⟩)
    · rw [hsame]
      exact h.refused.handled
    · intro outcome hok
      rcases hreturn _ hok with hbefore | hfits
      · exact h.unreturned outcome hbefore
      · exact hfits.2.2 h outcome rfl

/-- Sending the envelope keeps the phase. -/
theorem Phase.send (h : Phase s) (hpc : s.driver.pc = .committed) :
    Phase { s with
      envelope := some (activationEnvelope s.driver.requestId)
      driver := { s.driver with requestPending := true, pc := .polling } } := by
  have hbefore : s.driver.pc.BeforeSend := .inr (.inr (.inr hpc))
  have hafter : ¬ DriverPc.BeforeSend .polling := by
    rintro (hpolling | hpolling | hpolling | hpolling) <;> cases hpolling
  rcases h with h | h | h
  · refine .inl ⟨h.handled, h.accepted, h.states, ?_, ?_, h.response, h.ready, h.result, ?_⟩
    · rcases h.pc with hidle | ⟨_, _, _, _, hsent⟩
      · exact .inl hidle
      · exact absurd hbefore hsent
    · rintro envelope ⟨⟩
      exact ⟨rfl, hafter⟩
    · rintro result ⟨⟩
  · exact absurd hbefore h.settled.sent
  · exact absurd hbefore h.settled.sent

/-- The end of a turn publishes a status with the same activation fields. -/
theorem Phase.close (h : Phase s) (iteration : Iteration)
    (hpc : s.task.pc = .idle ∨ s.task.pc = .closing) :
    Phase { s with task := s.task.close contract iteration } := by
  have hpending : (s.task.close contract iteration).pending =
      [housekeeping contract iteration s.task.handler.status] := adopt_pending rfl
  have hstates : ∀ {P : UInt8 → Prop}, (∀ status ∈ s.statuses, P status.activationState) →
      ∀ status ∈ System.statuses { s with task := s.task.close contract iteration },
        P status.activationState := by
    intro P hall
    rw [forall_statuses] at hall ⊢
    refine ⟨hall.1, hall.2.1, ?_⟩
    intro status hstatus
    rw [hpending, List.mem_singleton] at hstatus
    rw [hstatus]
    exact hall.1
  rcases h with h | h | h
  · have hidle : s.task.pc = .idle := by
      rcases h.pc with hidle | ⟨first, hreading, -⟩
      · exact hidle.1
      · rw [hreading] at hpc
        rcases hpc with hpc | hpc <;> cases hpc
    exact .inl ⟨h.handled, h.accepted,
      hstates (P := fun state => state = activationStateDormant ∨
        state = activationStateValidating) h.states,
      .inl ⟨rfl, h.dormant hidle⟩, h.envelope, h.response, h.ready, h.result, h.unreturned⟩
  · exact .inr (.inl ⟨⟨h.accepted.handled, h.accepted.accepted, h.accepted.active,
      h.accepted.requestId⟩, ⟨h.settled.envelope, fun _ _ hreading => (nomatch hreading),
      h.settled.sent⟩,
      hstates (P := fun state => state ≠ activationStateRejected ∧
        state ≠ activationStateLeaseFault) h.states,
      fun _ hanswering => (nomatch hanswering), h.response, h.ready, h.result, h.unreturned⟩)
  · exact .inr (.inr ⟨⟨h.refused.handled, h.refused.accepted, h.refused.state⟩,
      ⟨h.settled.envelope, fun _ _ hreading => (nomatch hreading), h.settled.sent⟩,
      hstates (P := fun state => state ≠ activationStateActive) h.states, h.unreturned⟩)

/-- Sending the response keeps the phase. -/
theorem Phase.respond (h : Phase s) {response : Message} (sent : Bool)
    (hpc : s.task.pc = .answering response) :
    Phase { s with
      response := if sent then some response else s.response
      task := s.task.respond response sent } := by
  have hstate : (s.task.respond response sent).handler.status.activationState =
      s.task.handler.status.activationState := by
    cases sent <;> rfl
  have hstates : ∀ {P : UInt8 → Prop}, (∀ status ∈ s.statuses, P status.activationState) →
      ∀ status ∈ System.statuses { s with
        response := if sent then some response else s.response
        task := s.task.respond response sent }, P status.activationState := by
    intro P hall
    rw [forall_statuses] at hall ⊢
    refine ⟨?_, hall.2⟩
    rw [hstate]
    exact hall.1
  rcases h with h | h | h
  · rcases h.pc with ⟨hidle, -⟩ | ⟨_, hreading, -⟩
    · rw [hpc] at hidle
      cases hidle
    · rw [hpc] at hreading
      cases hreading
  · have hid : (s.task.respond response sent).handler.status.activationRequestId =
        s.task.handler.status.activationRequestId := by
      cases sent <;> rfl
    refine .inr (.inl ⟨⟨h.accepted.handled, h.accepted.accepted, hstate.trans h.accepted.active,
      hid.trans h.accepted.requestId⟩, ⟨h.settled.envelope,
      fun _ _ hreading => (nomatch hreading), h.settled.sent⟩,
      hstates (P := fun state => state ≠ activationStateRejected ∧
        state ≠ activationStateLeaseFault) h.states,
      fun _ hanswering => (nomatch hanswering), ?_, h.ready, h.result, h.unreturned⟩)
    intro message hmem
    cases sent with
    | true =>
        cases hmem
        exact h.answering response hpc
    | false => exact h.response message hmem
  · have hrefused : (s.task.respond response sent).handler.status.activationState =
          activationStateRejected ∨
        (s.task.respond response sent).handler.status.activationState =
          activationStateLeaseFault := by
      rw [hstate]
      exact h.refused.state
    exact .inr (.inr ⟨⟨h.refused.handled, h.refused.accepted, hrefused⟩,
      ⟨h.settled.envelope, fun _ _ hreading => (nomatch hreading), h.settled.sent⟩,
      hstates (P := fun state => state ≠ activationStateActive) h.states, h.unreturned⟩)

/-- The verdict on the visible status fits the phase. -/
theorem verdict_fits {generation : UInt32} (hline : header s.line = runningHeader generation)
    (allowRecovery : Bool) (before : Status) :
    Fits s (s.driver.verdict contract s.manifest allowRecovery before s.line) := by
  have hrunning : s.line.state = stateRunning := congrArg Header.state hline
  refine ⟨fun h => ⟨fun outcome hok => h.line_ne_active (verdict_ok hok), ?_⟩, ?_, ?_⟩
  · intro hremote
    obtain ⟨-, hstate, -⟩ := forall_statuses.mp h.states
    rcases verdict_remote_io hrunning hremote with ⟨value, hvalue, _⟩ | hrefused
    · rw [h.result] at hvalue
      cases hvalue
    · rcases hstate with hstate | hstate <;> rw [hstate] at hrefused <;>
        exact absurd hrefused (by decide)
  · intro h hremote
    obtain ⟨-, hstate, -⟩ := forall_statuses.mp h.states
    rcases verdict_remote_io hrunning hremote with ⟨value, hvalue, hne⟩ | hrejected | hfault
    · exact hne (h.result value hvalue)
    · exact hstate.1 hrejected
    · exact hstate.2 hfault
  · intro h outcome hok
    exact (forall_statuses.mp h.states).2.1 (verdict_ok hok)

end

/-! ## Whole runs -/

section

variable {contract : ResolvedContract} {generation : UInt32} {s next : System}

/-- An adopted handler that keeps the header publishes only statuses with it. -/
theorem keeps_header_adopt {after : Handler} {expected : Header} (task : Task) (pc : TaskPc)
    (hafter : KeepsHeader expected after) :
    KeepsHeader expected (task.adopt after pc).handler ∧
      ∀ status ∈ (task.adopt after pc).pending, header status = expected :=
  ⟨hafter, fun status hstatus => hafter.published status (List.mem_of_mem_drop hstatus)⟩

/-- Both halves of `handle` keep the header. -/
theorem KeepsHeader.finish {handler : Handler} {expected : Header}
    (h : KeepsHeader expected handler) (contract : ResolvedContract) (envelope : Message)
    (pair : ActivationRequest × ActivationRequest) (lease : Except LeaseFailure Unit) :
    KeepsHeader expected (finish contract envelope pair lease handler).2 := by
  unfold Activation.finish
  split
  · by_cases hrecord : pair.1 = pair.2 ∧
        validateRecord contract pair.1 handler.status.generation = .ok () ∧
        pair.1.requestId = envelope.value
    · rw [Handler.check_record_accepted hrecord.1 hrecord.2.1 hrecord.2.2]
      have hactivating : KeepsHeader expected (Handler.publish { handler with
          status := { handler.status with
            activationRequestId := envelope.value
            activationState := activationStateActivating } }) :=
        Firmware.KeepsHeader.publish (h.with_status rfl rfl)
      exact hactivating.activate_leases contract _ lease
    · obtain ⟨result, _, hreject⟩ := @Handler.check_record_refused _ _ _ lease _ hrecord
      rw [hreject]
      exact h.reject contract result
  · exact h.handle contract envelope pair lease

/-- Receiving a request keeps the headers. -/
theorem Headers.receive (h : Headers generation s) (contract : ResolvedContract)
    (envelope : Message) :
    KeepsHeader (runningHeader generation) (s.task.receive contract envelope).handler ∧
      ∀ status ∈ (s.task.receive contract envelope).pending,
        header status = runningHeader generation := by
  have hreceived : KeepsHeader (runningHeader generation)
      (s.task.handler.receive envelope.encode) := h.handler.with_status rfl rfl
  unfold Task.receive enter
  dsimp only
  split
  · by_cases hstart : (s.task.handler.receive envelope.encode).Startable
    · rw [if_pos hstart]
      by_cases hvalid : EnvelopeValid envelope
      · rw [Handler.begin_attempt_valid hvalid]
        exact keeps_header_adopt s.task _ (hreceived.validating envelope)
      · rw [Handler.begin_attempt_invalid hvalid]
        have hattempted : KeepsHeader (runningHeader generation)
            ((s.task.handler.receive envelope.encode).attempted envelope) :=
          hreceived.with_status rfl rfl
        exact keeps_header_adopt s.task .idle (hattempted.reject contract _)
    · rw [if_neg hstart]
      exact keeps_header_adopt s.task _ hreceived
  · exact keeps_header_adopt s.task _ hreceived

/-- Every step keeps the headers of the boot. -/
theorem Headers.step (h : Headers generation s) (hstep : Step contract s next) :
    Headers generation next := by
  cases hstep with
  | receive envelope =>
      have hreceive := h.receive contract envelope
      exact ⟨hreceive.1, h.line, hreceive.2⟩
  | publish status rest hpending =>
      have hall := h.pending
      rw [hpending] at hall
      exact ⟨h.handler, hall status List.mem_cons_self,
        fun other hother => hall other (List.mem_cons_of_mem _ hother)⟩
  | readSecond envelope first lease =>
      have hadopt := keeps_header_adopt s.task .idle
        (KeepsHeader.finish h.handler contract envelope (first, s.record) lease)
      exact ⟨hadopt.1, h.line, hadopt.2⟩
  | respond response sent =>
      refine ⟨h.handler.with_status ?_ rfl, h.line, h.pending⟩
      cases sent <;> rfl
  | close iteration =>
      have hclose : KeepsHeader (runningHeader generation) (Handler.publish { s.task.handler with
          status := housekeeping contract iteration s.task.handler.status }) :=
        Firmware.KeepsHeader.publish (h.handler.with_status rfl rfl)
      have hadopt := keeps_header_adopt s.task .idle hclose
      exact ⟨hadopt.1, h.line, hadopt.2⟩
  | turn iteration =>
      have hclose : KeepsHeader (runningHeader generation) (Handler.publish { s.task.handler with
          status := housekeeping contract iteration s.task.handler.status }) :=
        Firmware.KeepsHeader.publish (h.handler.with_status rfl rfl)
      have hadopt := keeps_header_adopt s.task .idle hclose
      exact ⟨hadopt.1, h.line, hadopt.2⟩
  | _ => exact ⟨h.handler, h.line, h.pending⟩

/-- The steps that only move the driver keep the phase. -/
theorem Phase.with_pc (h : Phase s) {pc : DriverPc} (record : ActivationRequest)
    (hsent : s.driver.pc.BeforeSend ∨ ¬ pc.BeforeSend)
    (hfits : ∀ result, pc = .returned result → Fits s result) :
    Phase { s with driver := { s.driver with pc := pc }, record := record } :=
  h.with_driver (hsent.imp id fun hafter => ⟨rfl, hafter⟩) (fun _ hmem => hmem)
    (fun _ hmem => .inl hmem) (fun _ hmem => .inl hmem) fun _ hpc => .inr (hfits _ hpc)

/-- Picking up a response keeps the phase. -/
theorem Phase.pick_up (h : Phase s) : Phase { s with driver := s.driver.pickUp } := by
  have hafter : ¬ DriverPc.BeforeSend (.terminal false) := by
    rintro (hpc | hpc | hpc | hpc) <;> cases hpc
  cases hresponse : s.driver.response with
  | none =>
      have hpick : s.driver.pickUp = { s.driver with pc := .terminal false } := by
        simp only [Driver.pickUp, hresponse]
      rw [hpick]
      exact h.with_pc s.record (.inr hafter) fun _ hpc => nomatch hpc
  | some message =>
      have hpick : s.driver.pickUp = { s.driver with
          response := none
          result := some message.value
          pc := .terminal false } := by
        simp only [Driver.pickUp, hresponse]
      rw [hpick]
      refine h.with_driver (.inr ⟨rfl, hafter⟩) (fun _ hmem => hmem) (fun _ hmem => nomatch hmem)
        ?_ fun _ hpc => nomatch hpc
      rintro value ⟨⟩
      exact .inr ⟨message, hresponse, rfl⟩

/-- Delivering a response keeps the phase. -/
theorem Phase.deliver (h : Phase s) {message : Message} (hresponse : s.response = some message) :
    Phase { s with response := none, driver := s.driver.receive message } := by
  have hid : s.driver.pc.BeforeSend ∨
      (s.driver.receive message).requestId = s.driver.requestId ∧
        ¬ (s.driver.receive message).pc.BeforeSend := by
    by_cases hbefore : s.driver.pc.BeforeSend
    · exact .inl hbefore
    · right
      unfold Driver.receive
      split
      · exact ⟨rfl, hbefore⟩
      · split <;> exact ⟨rfl, hbefore⟩
  refine h.with_driver hid (fun _ hmem => nomatch hmem) ?_ ?_ ?_
  all_goals unfold Driver.receive
  · intro other hother
    split at hother
    · exact .inl hother
    · split at hother
      · exact .inl hother
      · cases hother
        exact .inr hresponse
  · intro value hvalue
    repeat' split at hvalue
    all_goals exact .inl hvalue
  · intro result hpc
    repeat' split at hpc
    all_goals exact .inl hpc

/-- Every step keeps the phase. -/
theorem Phase.step (h : Phase s) (hheaders : Headers generation s)
    (hstep : Step contract s next) : Phase next := by
  have hsent : ∀ pc : DriverPc, (∃ allow, pc = .terminal allow) ∨
      (∃ allow before, pc = .copied allow before) ∨ pc = .polling ∨
      (∃ result, pc = .returned result) → ¬ pc.BeforeSend := by
    rintro pc (⟨_, rfl⟩ | ⟨_, _, rfl⟩ | rfl | ⟨_, rfl⟩) (hpc | hpc | hpc | hpc) <;> cases hpc
  cases hstep with
  | revoke requestId hpc hid =>
      exact h.with_driver (.inl (.inl hpc)) (fun _ hmem => hmem) (fun _ hmem => .inl hmem)
        (fun _ hmem => .inl hmem) fun _ hreturned => nomatch hreturned
  | describe hpc =>
      exact h.with_pc _ (.inl (.inr (.inl hpc))) fun _ hreturned => nomatch hreturned
  | commit hpc =>
      exact h.with_pc _ (.inl (.inr (.inr (.inl hpc)))) fun _ hreturned => nomatch hreturned
  | send hpc => exact h.send hpc
  | sendFailed hpc =>
      refine h.with_pc s.record (.inl (.inr (.inr (.inr hpc)))) ?_
      rintro result ⟨⟩
      exact fits_error (by decide)
  | pickUp hpc => exact h.pick_up
  | transmitFailed hpc =>
      refine h.with_pc s.record (.inr (hsent _ (.inr (.inr (.inr ⟨_, rfl⟩))))) ?_
      rintro result ⟨⟩
      exact fits_error (by decide)
  | copy allowRecovery hpc =>
      exact h.with_pc s.record (.inr (hsent _ (.inr (.inl ⟨_, _, rfl⟩))))
        fun _ hreturned => nomatch hreturned
  | decided allowRecovery before hpc hdone =>
      refine h.with_pc s.record (.inr (hsent _ (.inr (.inr (.inr ⟨_, rfl⟩))))) ?_
      rintro result ⟨⟩
      exact verdict_fits hheaders.line allowRecovery before
  | wait before expired hpc hmore =>
      cases expired with
      | true =>
          exact h.with_pc s.record (.inr (hsent _ (.inl ⟨_, rfl⟩)))
            fun _ hreturned => nomatch hreturned
      | false =>
          exact h.with_pc s.record (.inr (hsent _ (.inr (.inr (.inl rfl)))))
            fun _ hreturned => nomatch hreturned
  | timedOut before hpc hmore =>
      refine h.with_pc s.record (.inr (hsent _ (.inr (.inr (.inr ⟨_, rfl⟩))))) ?_
      rintro result ⟨⟩
      exact fits_error (by decide)
  | deliver message hresponse => exact h.deliver hresponse
  | lose message hresponse =>
      refine h.with_driver ?_ (fun _ hmem => nomatch hmem) (fun _ hmem => .inl hmem)
        (fun _ hmem => .inl hmem) fun _ hpc => .inl hpc
      by_cases hbefore : s.driver.pc.BeforeSend
      · exact .inl hbefore
      · exact .inr ⟨rfl, hbefore⟩
  | receive envelope hpc hpending henvelope =>
      rcases h with h | h | h
      · exact (h.receive hpc henvelope).imp id .inr
      · rw [h.settled.envelope] at henvelope
        cases henvelope
      · rw [h.settled.envelope] at henvelope
        cases henvelope
  | publish status rest hpending => exact h.publish hpending
  | readFirst envelope hpc hpending =>
      rcases h with h | h | h
      · rcases h.pc with ⟨hidle, -⟩ | ⟨first, hreading, hrest⟩
        · rw [hpc] at hidle
          cases hidle
        · rw [hpc] at hreading
          cases hreading
          exact .inl { h with pc := .inr ⟨_, rfl, hrest⟩ }
      · exact absurd hpc (h.settled.pc _ _)
      · exact absurd hpc (h.settled.pc _ _)
  | readSecond envelope first lease hpc hpending =>
      rcases h with h | h | h
      · exact .inr (h.read_second lease hpc)
      · exact absurd hpc (h.settled.pc _ _)
      · exact absurd hpc (h.settled.pc _ _)
  | respond response sent hpc hpending => exact h.respond sent hpc
  | close iteration hpc => exact h.close iteration (.inr hpc)
  | turn iteration hpc hpending => exact h.close iteration (.inl hpc)

end

/-- A snapshot is taken of a running firmware of this ABI. -/
theorem read_contract_snapshot_header {contract : ResolvedContract} {before status : Status}
    {first second : Manifest} {snapshot : ContractSnapshot}
    (h : readContractSnapshot contract before first second status = .ok snapshot) :
    header status = runningHeader status.generation := by
  obtain ⟨_, _, _, hmagic, hmajor, hminor, hsize, hstate, _, _⟩ := read_contract_snapshot_ok h
  rw [header, runningHeader, hmagic, hmajor, hminor, hsize, hstate]

/-- A source of an activation is dormant or rejected. -/
theorem activation_source_state {contract : ResolvedContract} {snapshot : ContractSnapshot}
    (h : validateActivationSource contract snapshot = .ok ()) :
    snapshot.status.activationState = activationStateDormant ∨
      snapshot.status.activationState = activationStateRejected := by
  by_contra hstate
  unfold validateActivationSource at h
  dsimp only at h
  split at h
  · cases h
  · rw [if_neg (by tauto), if_pos (by tauto)] at h
    cases h

section

variable {contract : ResolvedContract} {start : System}

/-- A start from a dormant firmware is in the first phase. -/
theorem Start.waiting (h : Start contract start)
    (hdormant : start.line.activationState = activationStateDormant) : Waiting start := by
  refine ⟨h.handled, h.accepted, forall_statuses.mpr ⟨?_, .inl hdormant, ?_⟩,
    .inl ⟨h.idle, by rw [h.visible]; exact hdormant⟩, ?_, h.response, h.ready, h.result, ?_⟩
  · rw [h.visible]
    exact .inl hdormant
  · rw [h.pending]
    exact fun _ hmem => nomatch hmem
  · rw [h.envelope]
    exact fun _ hmem => nomatch hmem
  · rw [h.validated]
    exact fun _ hpc => nomatch hpc

/-- A start has the headers of the running boot. -/
theorem Start.headers (h : Start contract start) : Headers start.line.generation start := by
  obtain ⟨snapshot, hread, -⟩ := h.source
  have hline := read_contract_snapshot_header hread
  refine ⟨⟨by rw [h.visible]; exact hline, ?_⟩, hline, ?_⟩
  · rw [h.published]
    exact fun _ hmem => nomatch hmem
  · rw [h.pending]
    exact fun _ hmem => nomatch hmem

/-- From a rejected firmware the driver can return a remote refusal before the firmware has
looked at its envelope: the poll finds the old verdict on the line. -/
theorem Start.stale_refusal (h : Start contract start)
    (hrejected : start.line.activationState = activationStateRejected) :
    ∃ s, Relation.ReflTransGen (Step contract) start s ∧
      s.driver.pc = .returned (.error .remoteIo) ∧ s.task = start.task ∧
      s.envelope = some (activationEnvelope s.driver.requestId) := by
  obtain ⟨snapshot, hread, -⟩ := h.source
  have hstatus := read_contract_snapshot_status hread
  have hnone := h.result
  have hne : ¬ activationStateRejected = activationStateActive := by decide
  let sent : System := { start with
    record := activationRequest contract start.driver.generation 1
    envelope := some (activationEnvelope 1)
    driver := { start.driver with requestId := 1, requestPending := true, pc := .polling } }
  have hsent : Relation.ReflTransGen (Step contract) start sent :=
    Relation.ReflTransGen.refl.tail (.revoke start 1 h.validated (by decide))
      |>.tail (.describe _ rfl) |>.tail (.commit _ rfl) |>.tail (.send _ rfl)
  have hpick : sent.driver.pickUp = { sent.driver with pc := .terminal false } := by
    simp only [Driver.pickUp, sent, h.ready]
  let copied : System := { sent with
    driver := { sent.driver with pc := .copied false start.line } }
  have hcopied : Relation.ReflTransGen (Step contract) start copied := by
    refine (hsent.tail (.pickUp sent rfl)).tail ?_
    rw [hpick]
    exact .copy _ false rfl
  have hverdict : copied.driver.verdict contract copied.manifest false start.line copied.line =
      .error .remoteIo := by
    show activationTerminal contract
      (readContractSnapshot contract start.line start.manifest start.manifest start.line) 1
      start.driver.result.isSome (start.driver.result.getD activationResultSuccess) false = _
    rw [hread, hnone]
    simp [activationTerminal, hstatus, hrejected, hne]
  have hdone : ¬ Unfinished
      (copied.driver.verdict contract copied.manifest false start.line copied.line) := by
    rw [hverdict]
    rintro (hverdict | hverdict) <;> cases hverdict
  refine ⟨_, hcopied.tail (.decided copied false start.line rfl hdone), ?_, rfl, rfl⟩
  show DriverPc.returned _ = _
  rw [hverdict]

end

/-- The verdicts of `sg2002_activate_leases` over every interleaving with the firmware, from any
status that the driver accepts as a source: the two sides agree in every reachable state exactly
when the firmware was dormant at the start. -/
theorem activation_agreement_iff (contract : ResolvedContract) (start : System)
    (hstart : Start contract start) :
    (∀ s, Relation.ReflTransGen (Step contract) start s → Agreement s) ↔
      start.line.activationState = activationStateDormant := by
  constructor
  · intro hagree
    obtain ⟨snapshot, hread, hsource⟩ := hstart.source
    have hstate := activation_source_state hsource
    rw [read_contract_snapshot_status hread] at hstate
    rcases hstate with hdormant | hrejected
    · exact hdormant
    · obtain ⟨s, hreach, hpc, htask, -⟩ := hstart.stale_refusal hrejected
      obtain ⟨result, hhandled⟩ := ((hagree s hreach).2 hpc).handled
      rw [htask, hstart.handled] at hhandled
      cases hhandled
  · intro hdormant s hreach
    have hpreserved : Exec.Preserved (Step contract)
        (fun s => Headers start.line.generation s ∧ Phase s) :=
      fun _ _ hinv hstep => ⟨hinv.1.step hstep, hinv.2.step hinv.1 hstep⟩
    have hinv := hpreserved.reachable ⟨hstart.headers, .inl (hstart.waiting hdormant)⟩ hreach
    exact hinv.2.agreement

/-- The two programs at rest over a given status line of the LCD profile. -/
def restingSystem (status : Status) : System where
  task :=
    { handler := { status := status, acceptedRequest := none, published := [], activations := 0 }
      pending := []
      pc := .idle
      handled := none }
  driver :=
    { pc := .validated
      generation := status.generation
      requestId := 0
      requestPending := false
      response := none
      result := none }
  line := status
  record := activationRequest picoclawContract 0 0
  manifest := expectedManifest picoclawContract status.generation manifestCommit
  envelope := none
  response := none

/-- The status of a first boot that waits for an activation. -/
def dormantStatus : Status := controlStart picoclawContract (initialStatus picoclawContract zeroStatus)

/-- The same status after a request with a stale generation was refused. -/
def rejectedStatus : Status :=
  { dormantStatus with
    activationState := activationStateRejected
    activationError := activationResultStaleGeneration.toUInt8
    activationAttempts := 1
    activationRequestId := 7
    flags := flagActivationRejected }

/-- A validated source at rest is a start. -/
theorem resting_system_start {status : Status}
    (hheader : header status = runningHeader status.generation)
    (hsource : validateActivationSource picoclawContract
      { status := status,
        manifest := expectedManifest picoclawContract status.generation manifestCommit } =
      .ok ()) : Start picoclawContract (restingSystem status) := by
  have hread : readContractSnapshot picoclawContract status
      (expectedManifest picoclawContract status.generation manifestCommit)
      (expectedManifest picoclawContract status.generation manifestCommit) status =
      .ok { status := status,
            manifest := expectedManifest picoclawContract status.generation manifestCommit } := by
    simp only [header, runningHeader, Header.mk.injEq] at hheader
    obtain ⟨hmagic, hmajor, hminor, hsize, hstate, -⟩ := hheader
    exact read_contract_snapshot_expected hmagic hmajor hminor hsize hstate
  exact ⟨⟨_, hread, hsource⟩, rfl, rfl, rfl, rfl, rfl, rfl, rfl, rfl, rfl, rfl, rfl, rfl, rfl⟩

/-- From the first boot every verdict of the driver agrees with the firmware. -/
theorem activation_agreement_dormant :
    Start picoclawContract (restingSystem dormantStatus) ∧
      ∀ s, Relation.ReflTransGen (Step picoclawContract) (restingSystem dormantStatus) s →
        Agreement s :=
  ⟨resting_system_start rfl rfl,
    (activation_agreement_iff picoclawContract (restingSystem dormantStatus)
      (resting_system_start rfl rfl)).mpr rfl⟩

/-- After a refused request the driver reports its next request as refused while the envelope is
still in flight. -/
theorem activation_disagreement_rejected :
    ∃ s, Start picoclawContract (restingSystem rejectedStatus) ∧
      Relation.ReflTransGen (Step picoclawContract) (restingSystem rejectedStatus) s ∧
      s.driver.pc = .returned (.error .remoteIo) ∧ s.task.handled = none ∧
      s.envelope = some (activationEnvelope s.driver.requestId) ∧ ¬ Agreement s := by
  have hstart : Start picoclawContract (restingSystem rejectedStatus) :=
    resting_system_start rfl rfl
  obtain ⟨s, hreach, hpc, htask, henvelope⟩ := hstart.stale_refusal rfl
  have hhandled : s.task.handled = none := by
    rw [htask]
    rfl
  refine ⟨s, hstart, hreach, hpc, hhandled, henvelope, fun hagree => ?_⟩
  obtain ⟨result, hsome⟩ := (hagree.2 hpc).handled
  rw [hhandled] at hsome
  cases hsome

end NanoKvm.Activation
