import Mathlib.Tactic.Tauto
import NanoKvm.Contract.Records

/-!
# Lease activation in the firmware

The handler of `activation.rs`. It reads two snapshots of the Linux-owned request,
accepts only a stable record that matches this boot and this contract, and only then
activates the leases. `handle` takes what the outside returns to it as arguments: the
pair that `RequestSource::read_pair` yields and the outcome of `LeaseActivator::activate`.
What it does to the outside is state: every published status and the number of lease
activations are recorded in `Handler`.
-/

namespace NanoKvm.Firmware

open Contract

/-- A lease that failed after authorization: the result to report and its status flag. -/
structure LeaseFailure where
  result : UInt32
  flag : UInt32
  deriving DecidableEq, Repr

/-- The state `handle` works on, with the statuses published and the leases activated so far. -/
structure Handler where
  status : Status
  acceptedRequest : Option ActivationRequest
  published : List Status
  activations : Nat
  deriving DecidableEq, Repr

/-- `request_equal` compares every field. -/
def requestEqual (left right : ActivationRequest) : Bool :=
  left.magic == right.magic
    && left.formatMajor == right.formatMajor
    && left.formatMinor == right.formatMinor
    && left.structSize == right.structSize
    && left.generation == right.generation
    && left.requestId == right.requestId
    && left.contractEpoch == right.contractEpoch
    && left.profileId == right.profileId
    && left.abiVersion == right.abiVersion
    && left.finalCapabilities == right.finalCapabilities
    && left.leaseMask == right.leaseMask
    && left.contractSha256 == right.contractSha256
    && left.reserved == right.reserved
    && left.commit == right.commit

/-- No field is left out of the comparison. -/
@[simp] theorem request_equal_eq (left right : ActivationRequest) :
    requestEqual left right = decide (left = right) := by
  rw [Bool.eq_iff_iff]
  cases left
  cases right
  simp [requestEqual, and_assoc]

/-- `validate_record`: the first check that fails names the result. -/
def validateRecord (contract : ResolvedContract) (request : ActivationRequest)
    (generation : UInt32) :
    Except UInt32 Unit :=
  if request.magic ≠ activationRequestMagic
      ∨ request.formatMajor ≠ activationRequestFormatMajor
      ∨ request.formatMinor ≠ activationRequestFormatMinor
      ∨ request.structSize ≠ activationRequestSize
      ∨ request.requestId = 0
      ∨ request.reserved ≠ Vector.replicate 44 0
      ∨ request.commit ≠ activationRequestCommit then
    .error activationResultMalformedRecord
  else if request.generation ≠ generation then .error activationResultStaleGeneration
  else if request.abiVersion ≠ abiVersion then .error activationResultAbiMismatch
  else if request.contractEpoch ≠ contractEpoch then .error activationResultEpochMismatch
  else if request.profileId ≠ contract.profile.profileId then
    .error activationResultProfileMismatch
  else if request.contractSha256 ≠ contract.contractSha256 then
    .error activationResultDigestMismatch
  else if request.finalCapabilities ≠ contract.profile.expectedCapabilities then
    .error activationResultCapabilitiesMismatch
  else if request.leaseMask ≠ contract.profile.leaseMask then
    .error activationResultLeaseMaskMismatch
  else .ok ()

/-- `saturating_add(1)` on the attempt counter. -/
def saturatingIncrement (attempts : UInt16) : UInt16 :=
  if attempts = 0xffff then attempts else attempts + 1

/-- A counted attempt shows a non-zero counter, saturated or not. -/
theorem saturating_increment_ne_zero (attempts : UInt16) : saturatingIncrement attempts ≠ 0 := by
  unfold saturatingIncrement
  split
  · rename_i hfull
    rw [hfull]
    decide
  · grind

namespace Handler

/-- `StatusPublisher::publish` -/
def publish (handler : Handler) : Handler :=
  { handler with published := handler.published ++ [handler.status] }

/-- `reject`: record a refusal and return to a state that accepts a corrected request. -/
def reject (contract : ResolvedContract) (result : UInt32) (handler : Handler) : UInt32 × Handler :=
  (result, publish { handler with status := { handler.status with
    activationState := activationStateRejected
    activationError := result.toUInt8
    capabilities := contract.profile.dormantCapabilities
    flags := handler.status.flags ||| flagActivationRejected } })

/-- The call of `leases.activate()` and the two ways it ends. -/
def activateLeases (contract : ResolvedContract) (request : ActivationRequest)
    (lease : Except LeaseFailure Unit) (handler : Handler) : UInt32 × Handler :=
  let handler := { handler with activations := handler.activations + 1 }
  match lease with
  | .ok () =>
      (activationResultSuccess, publish { handler with
        acceptedRequest := some request
        status := { handler.status with
          capabilities := contract.profile.expectedCapabilities
          activationState := activationStateActive
          activationError := activationResultSuccess.toUInt8 } })
  | .error failure =>
      (failure.result, publish { handler with
        status := { handler.status with
          capabilities := contract.profile.dormantCapabilities
          activationState := activationStateLeaseFault
          activationError := failure.result.toUInt8
          flags := handler.status.flags ||| (flagActivationFailed ||| failure.flag) } })

/-- The part of `handle` that follows `read_pair` in a state that may be activated. -/
def checkRecord (contract : ResolvedContract) (envelope : Message)
    (pair : ActivationRequest × ActivationRequest) (lease : Except LeaseFailure Unit)
    (handler : Handler) : UInt32 × Handler :=
  let (first, second) := pair
  if !requestEqual first second then reject contract activationResultMalformedRecord handler
  else
    match validateRecord contract first handler.status.generation with
    | .error result => reject contract result handler
    | .ok () =>
        if first.requestId ≠ envelope.value then
          reject contract activationResultInvalidEnvelope handler
        else
          activateLeases contract first lease <| publish { handler with
            status := { handler.status with
              activationRequestId := first.requestId
              activationState := activationStateActivating } }

/-- The entry of an attempt: count it, check the envelope and publish `VALIDATING`. -/
def beginAttempt (contract : ResolvedContract) (envelope : Message) (handler : Handler) :
    Except (UInt32 × Handler) Handler :=
  let handler := { handler with status := { handler.status with
    activationAttempts := saturatingIncrement handler.status.activationAttempts
    activationRequestId := envelope.value } }
  if envelope.value = 0 ∨ envelope.sequence ≠ envelope.value.toUInt16 then
    .error (reject contract activationResultInvalidEnvelope handler)
  else
    .ok (publish { handler with status := { handler.status with
      activationState := activationStateValidating
      activationError := activationResultSuccess.toUInt8 } })

/-- The answer to an envelope in state `ACTIVE`: only an exact duplicate succeeds. -/
def duplicateResult (envelope : Message) (pair : ActivationRequest × ActivationRequest)
    (acceptedRequest : Option ActivationRequest) : UInt32 :=
  match acceptedRequest with
  | none => activationResultInvalidState
  | some accepted =>
      if envelope.value = 0 ∨ envelope.sequence ≠ envelope.value.toUInt16 then
        activationResultInvalidState
      else if !requestEqual pair.1 pair.2 || !requestEqual pair.1 accepted
          || pair.1.requestId != envelope.value then
        activationResultInvalidState
      else activationResultSuccess

/-- `handle`: one activation envelope, from the state check to the returned result. -/
def handle (contract : ResolvedContract) (envelope : Message)
    (pair : ActivationRequest × ActivationRequest) (lease : Except LeaseFailure Unit)
    (handler : Handler) : UInt32 × Handler :=
  if handler.status.activationState = activationStateLeaseFault then
    (activationResultInvalidState, handler)
  else if handler.status.activationState = activationStateActive then
    (duplicateResult envelope pair handler.acceptedRequest, handler)
  else if handler.status.activationState ≠ activationStateDormant
      ∧ handler.status.activationState ≠ activationStateRejected then
    (activationResultInvalidState, handler)
  else
    match beginAttempt contract envelope handler with
    | .error refused => refused
    | .ok handler => checkRecord contract envelope pair lease handler

/-! ## What one call can do -/

/-- The state in which an envelope starts an attempt. -/
def Startable (handler : Handler) : Prop :=
  handler.status.activationState = activationStateDormant
    ∨ handler.status.activationState = activationStateRejected

instance (handler : Handler) : Decidable handler.Startable :=
  inferInstanceAs (Decidable (_ ∨ _))

/-- The handler once an attempt is counted. -/
def attempted (envelope : Message) (handler : Handler) : Handler :=
  { handler with status := { handler.status with
    activationAttempts := saturatingIncrement handler.status.activationAttempts
    activationRequestId := envelope.value } }

/-- The handler once the envelope passed and `VALIDATING` is published. -/
def validating (envelope : Message) (handler : Handler) : Handler :=
  publish { attempted envelope handler with status := { (attempted envelope handler).status with
    activationState := activationStateValidating
    activationError := activationResultSuccess.toUInt8 } }

/-- The handler once the record passed and `ACTIVATING` is published. -/
def activating (envelope : Message) (handler : Handler) : Handler :=
  publish { validating envelope handler with
    status := { (validating envelope handler).status with
      activationRequestId := envelope.value
      activationState := activationStateActivating } }

section

variable (contract : ResolvedContract) (request : ActivationRequest) (envelope : Message)
  (handler : Handler)

@[simp] theorem publish_status : handler.publish.status = handler.status := rfl

@[simp] theorem attempted_flags :
    (handler.attempted envelope).status.flags = handler.status.flags := rfl

@[simp] theorem validating_flags :
    (handler.validating envelope).status.flags = handler.status.flags := rfl

@[simp] theorem activating_flags :
    (handler.activating envelope).status.flags = handler.status.flags := rfl

@[simp] theorem reject_flags (result : UInt32) :
    (handler.reject contract result).2.status.flags =
      handler.status.flags ||| flagActivationRejected := rfl

@[simp] theorem reject_state (result : UInt32) :
    (handler.reject contract result).2.status.activationState = activationStateRejected := rfl

@[simp] theorem activate_leases_ok_flags :
    (handler.activateLeases contract request (.ok ())).2.status.flags =
      handler.status.flags := rfl

@[simp] theorem activate_leases_ok_state :
    (handler.activateLeases contract request (.ok ())).2.status.activationState =
      activationStateActive := rfl

@[simp] theorem activate_leases_error_flags (failure : LeaseFailure) :
    (handler.activateLeases contract request (.error failure)).2.status.flags =
      handler.status.flags ||| (flagActivationFailed ||| failure.flag) := rfl

@[simp] theorem activate_leases_error_state (failure : LeaseFailure) :
    (handler.activateLeases contract request (.error failure)).2.status.activationState =
      activationStateLeaseFault := rfl

end

end Handler

/-- The envelope names a non-zero request and carries its low half as the sequence. -/
def EnvelopeValid (envelope : Message) : Prop :=
  envelope.value ≠ 0 ∧ envelope.sequence = envelope.value.toUInt16

/-- The envelope and both snapshots name one request of this boot and this contract. -/
structure Authorized (contract : ResolvedContract) (envelope : Message)
    (pair : ActivationRequest × ActivationRequest) (generation : UInt32) : Prop where
  envelopeValid : EnvelopeValid envelope
  stable : pair.1 = pair.2
  record : validateRecord contract pair.1 generation = .ok ()
  requestId : pair.1.requestId = envelope.value

/-- The results with which the firmware refuses an envelope or a record. -/
def IsRefusal (result : UInt32) : Prop :=
  activationResultInvalidEnvelope ≤ result ∧ result ≤ activationResultLeaseMaskMismatch

/-- Every error of `validate_record` is a refusal. -/
theorem validate_record_error {contract : ResolvedContract} {request : ActivationRequest}
    {generation result : UInt32}
    (h : validateRecord contract request generation = .error result) : IsRefusal result := by
  unfold validateRecord at h
  repeat' split at h
  all_goals cases h
  all_goals exact ⟨by decide, by decide⟩

namespace Handler

variable {contract : ResolvedContract} {envelope : Message}
  {pair : ActivationRequest × ActivationRequest} {lease : Except LeaseFailure Unit}
  {handler : Handler}

/-- The two final states start no attempt. -/
theorem not_startable (h : handler.status.activationState = activationStateActive ∨
    handler.status.activationState = activationStateLeaseFault) : ¬ handler.Startable := by
  rintro (hstart | hstart) <;> rw [hstart] at h <;> exact absurd h (by decide)

/-- Outside `DORMANT` and `REJECTED` an envelope changes nothing. -/
theorem handle_ignored (h : ¬ handler.Startable) :
    (handler.handle contract envelope pair lease).2 = handler := by
  unfold Startable at h
  unfold handle
  split
  · rfl
  · split
    · rfl
    · rw [if_pos (by tauto)]

/-- A startable handler is in neither final state. -/
theorem Startable.not_final (h : handler.Startable) :
    ¬ handler.status.activationState = activationStateLeaseFault ∧
      ¬ handler.status.activationState = activationStateActive := by
  rcases h with h | h <;> rw [h] <;> decide

/-- In a startable state `handle` is the entry of an attempt and then the record check. -/
theorem handle_startable (h : handler.Startable) :
    handler.handle contract envelope pair lease =
      match beginAttempt contract envelope handler with
      | .error refused => refused
      | .ok handler => checkRecord contract envelope pair lease handler := by
  unfold handle
  rw [if_neg h.not_final.1, if_neg h.not_final.2, if_neg (by unfold Startable at h; tauto)]

/-- A valid envelope is counted and published as `VALIDATING`. -/
theorem begin_attempt_valid (h : EnvelopeValid envelope) :
    beginAttempt contract envelope handler = .ok (validating envelope handler) := by
  simp [beginAttempt, h.1, h.2, validating, attempted]

/-- An invalid envelope is counted and refused. -/
theorem begin_attempt_invalid (h : ¬ EnvelopeValid envelope) :
    beginAttempt contract envelope handler =
      .error (reject contract activationResultInvalidEnvelope (attempted envelope handler)) := by
  have hbad : envelope.value = 0 ∨ envelope.sequence ≠ envelope.value.toUInt16 := by
    unfold EnvelopeValid at h
    tauto
  simp [beginAttempt, hbad, attempted]

/-- The record check publishes `ACTIVATING` and calls the leases for a stable valid record of
the envelope's request. -/
theorem check_record_accepted (hstable : pair.1 = pair.2)
    (hrecord : validateRecord contract pair.1 handler.status.generation = .ok ())
    (hid : pair.1.requestId = envelope.value) :
    checkRecord contract envelope pair lease handler =
      activateLeases contract pair.1 lease (publish { handler with
        status := { handler.status with
          activationRequestId := envelope.value
          activationState := activationStateActivating } }) := by
  obtain ⟨first, second⟩ := pair
  simp only at hstable hrecord hid
  subst hstable
  simp [checkRecord, hrecord, hid]

/-- Every other record is refused. -/
theorem check_record_refused
    (h : ¬ (pair.1 = pair.2 ∧
      validateRecord contract pair.1 handler.status.generation = .ok () ∧
      pair.1.requestId = envelope.value)) :
    ∃ result, IsRefusal result ∧
      checkRecord contract envelope pair lease handler = reject contract result handler := by
  obtain ⟨first, second⟩ := pair
  simp only at h
  by_cases hstable : first = second
  · subst hstable
    cases hrecord : validateRecord contract first handler.status.generation with
    | error result =>
        exact ⟨result, validate_record_error hrecord, by simp [checkRecord, hrecord]⟩
    | ok _ =>
        have hid : first.requestId ≠ envelope.value := fun hid => h ⟨rfl, hrecord, hid⟩
        exact ⟨activationResultInvalidEnvelope, ⟨by decide, by decide⟩,
          by simp [checkRecord, hrecord, hid]⟩
  · exact ⟨activationResultMalformedRecord, ⟨by decide, by decide⟩,
      by simp [checkRecord, hstable]⟩

/-- An authorized attempt reaches the leases. -/
theorem handle_authorized (h : handler.Startable)
    (hauth : Authorized contract envelope pair handler.status.generation) :
    handler.handle contract envelope pair lease =
      activateLeases contract pair.1 lease (activating envelope handler) := by
  have hrecord : validateRecord contract pair.1
      (validating envelope handler).status.generation = .ok () := hauth.record
  rw [handle_startable h, begin_attempt_valid hauth.envelopeValid]
  exact check_record_accepted hauth.stable hrecord hauth.requestId

/-- An attempt that is not authorized ends in `reject`: at once for a bad envelope, after
`VALIDATING` for a bad record. -/
theorem handle_refused (h : handler.Startable)
    (hauth : ¬ Authorized contract envelope pair handler.status.generation) :
    ∃ result, IsRefusal result ∧
      (handler.handle contract envelope pair lease =
          reject contract result (attempted envelope handler) ∨
        handler.handle contract envelope pair lease =
          reject contract result (validating envelope handler)) := by
  rw [handle_startable h]
  by_cases henvelope : EnvelopeValid envelope
  · rw [begin_attempt_valid henvelope]
    obtain ⟨result, hrefusal, hreject⟩ := @check_record_refused contract envelope pair lease
      (validating envelope handler) fun hrecord =>
        hauth ⟨henvelope, hrecord.1, hrecord.2.1, hrecord.2.2⟩
    exact ⟨result, hrefusal, .inr hreject⟩
  · rw [begin_attempt_invalid henvelope]
    exact ⟨activationResultInvalidEnvelope, ⟨by decide, by decide⟩, .inl rfl⟩

end Handler

end NanoKvm.Firmware
