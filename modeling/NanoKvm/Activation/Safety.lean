import Mathlib.Tactic.ByContra
import NanoKvm.Firmware.ControlTask
import NanoKvm.Linux.Control

/-!
# Activation safety

The leases are activated at most once in a boot, only for an authorized request, and
the capabilities a status advertises follow its activation state. `HandlerInv` is the
invariant of the control task; `handler_inv_run` carries it over every sequence of loop
turns, whatever envelopes arrive, whatever the two snapshots of the request show and
whatever the leases answer.
-/

namespace NanoKvm.Firmware

open Contract

/-- The capabilities are the full set in state `ACTIVE` and the dormant set in every other. -/
def CapabilityRule (contract : ResolvedContract) (status : Status) : Prop :=
  status.capabilities =
    if status.activationState = activationStateActive then
      contract.profile.expectedCapabilities
    else contract.profile.dormantCapabilities

/-- What holds of the control task between two loop turns. -/
structure HandlerInv (contract : ResolvedContract) (handler : Handler) : Prop where
  current : CapabilityRule contract handler.status
  published : ∀ status ∈ handler.published, CapabilityRule contract status
  unused : handler.Startable → handler.activations = 0
  once : handler.activations ≤ 1

/-- The control task enters its loop dormant: no request accepted, no lease touched. -/
structure DormantStart (contract : ResolvedContract) (handler : Handler) : Prop where
  dormant : handler.status.activationState = activationStateDormant
  capabilities : handler.status.capabilities = contract.profile.dormantCapabilities
  accepted : handler.acceptedRequest = none
  published : ∀ status ∈ handler.published, status = handler.status
  activations : handler.activations = 0

/-- In a profile with leases every boot starts dormant. -/
theorem control_begin_dormant {contract : ResolvedContract}
    (hlease : contract.profile.activationRequired = true) (previous : Status) :
    DormantStart contract (controlBegin contract (initialStatus contract previous)) := by
  constructor <;> simp [controlBegin, controlStart, hlease, initialStatus, Handler.publish]

section

variable {contract : ResolvedContract} {handler : Handler}

/-- A dormant start satisfies the invariant. -/
theorem DormantStart.inv (h : DormantStart contract handler) : HandlerInv contract handler := by
  have hrule : CapabilityRule contract handler.status := by
    unfold CapabilityRule
    rw [h.dormant, h.capabilities]
    rfl
  refine ⟨hrule, ?_, fun _ => h.activations, by rw [h.activations]; omega⟩
  intro status hstatus
  rwa [h.published status hstatus]

namespace HandlerInv

/-- The rule survives a change that keeps the capabilities and the activation state. -/
theorem with_status (h : HandlerInv contract handler) {status : Status}
    (hcapabilities : status.capabilities = handler.status.capabilities)
    (hstate : status.activationState = handler.status.activationState) :
    HandlerInv contract { handler with status := status } := by
  refine ⟨?_, h.published, ?_, h.once⟩
  · unfold CapabilityRule
    rw [hcapabilities, hstate]
    exact h.current
  · intro hstart
    apply h.unused
    unfold Handler.Startable at hstart ⊢
    rwa [hstate] at hstart

/-- Publishing keeps the invariant, since the current status obeys the rule. -/
theorem publish (h : HandlerInv contract handler) : HandlerInv contract handler.publish := by
  refine ⟨h.current, ?_, h.unused, h.once⟩
  intro status hstatus
  simp only [Handler.publish, List.mem_append, List.mem_singleton] at hstatus
  rcases hstatus with hstatus | rfl
  · exact h.published status hstatus
  · exact h.current

/-- A refusal restores the dormant capabilities. -/
theorem reject (h : HandlerInv contract handler) (hzero : handler.activations = 0)
    (result : UInt32) : HandlerInv contract (handler.reject contract result).2 := by
  refine publish ⟨?_, h.published, fun _ => hzero, h.once⟩
  simp [CapabilityRule, activationStateRejected, activationStateActive]

/-- Counting an attempt keeps the invariant. -/
theorem attempted (h : HandlerInv contract handler) (envelope : Message) :
    HandlerInv contract (handler.attempted envelope) :=
  h.with_status rfl rfl

/-- A startable handler is not active, so its status shows the dormant capabilities. -/
theorem dormant (h : HandlerInv contract handler) (hstart : handler.Startable) :
    handler.status.capabilities = contract.profile.dormantCapabilities := by
  have hstate : ¬ handler.status.activationState = activationStateActive := by
    rcases hstart with hstart | hstart <;> rw [hstart] <;> decide
  have hrule := h.current
  unfold CapabilityRule at hrule
  rwa [if_neg hstate] at hrule

/-- The publication of `VALIDATING` shows the dormant capabilities. -/
theorem validating (h : HandlerInv contract handler) (hstart : handler.Startable)
    (envelope : Message) : HandlerInv contract (handler.validating envelope) := by
  refine publish ⟨?_, h.published, fun _ => h.unused hstart, h.once⟩
  simpa [CapabilityRule, Handler.attempted, activationStateValidating, activationStateActive]
    using h.dormant hstart

/-- So does the publication of `ACTIVATING`. -/
theorem activating (h : HandlerInv contract handler) (hstart : handler.Startable)
    (envelope : Message) : HandlerInv contract (handler.activating envelope) := by
  have hvalidating := h.validating hstart envelope
  refine publish ⟨?_, hvalidating.published, fun _ => h.unused hstart, hvalidating.once⟩
  simpa [CapabilityRule, Handler.validating, Handler.attempted, Handler.publish,
    activationStateActivating, activationStateActive] using h.dormant hstart

/-- Both outcomes of the leases leave a state that never starts another attempt. -/
theorem activate_leases (h : HandlerInv contract handler) (hzero : handler.activations = 0)
    (request : ActivationRequest) (lease : Except LeaseFailure Unit) :
    HandlerInv contract (handler.activateLeases contract request lease).2 := by
  cases lease with
  | ok _ =>
      refine publish ⟨?_, h.published, ?_, ?_⟩
      · simp [CapabilityRule]
      · exact fun hstart => absurd hstart (Handler.not_startable (.inl rfl))
      · simp [hzero]
  | error failure =>
      refine publish ⟨?_, h.published, ?_, ?_⟩
      · simp [CapabilityRule, activationStateLeaseFault, activationStateActive]
      · exact fun hstart => absurd hstart (Handler.not_startable (.inr rfl))
      · simp [hzero]

/-- One envelope keeps the invariant. -/
theorem handle (h : HandlerInv contract handler) (envelope : Message)
    (pair : ActivationRequest × ActivationRequest) (lease : Except LeaseFailure Unit) :
    HandlerInv contract (handler.handle contract envelope pair lease).2 := by
  by_cases hstart : handler.Startable
  · have hzero := h.unused hstart
    by_cases hauth : Authorized contract envelope pair handler.status.generation
    · rw [Handler.handle_authorized hstart hauth]
      exact (h.activating hstart envelope).activate_leases hzero _ _
    · obtain ⟨result, _, hreject | hreject⟩ := Handler.handle_refused hstart hauth
      · rw [hreject]
        exact (h.attempted envelope).reject hzero result
      · rw [hreject]
        exact (h.validating hstart envelope).reject hzero result
  · rwa [Handler.handle_ignored hstart]

/-- Every run of the control task keeps the invariant. -/
theorem run (h : HandlerInv contract handler) (iterations : List Iteration) :
    HandlerInv contract (controlRun contract iterations handler) :=
  control_run_rule _ (fun _ iteration _ hinv => control_iteration_rule _ iteration
    (fun _ _ _ _ _ _ hbefore => hbefore.with_status rfl rfl)
    (fun _ envelope hbefore => hbefore.handle envelope _ _)
    (fun _ hbefore => hbefore.publish) hinv) h

end HandlerInv

/-- `leases.activate()` is reached only through an authorized attempt. -/
theorem handle_activates {envelope : Message} {pair : ActivationRequest × ActivationRequest}
    {lease : Except LeaseFailure Unit}
    (h : (handler.handle contract envelope pair lease).2.activations ≠ handler.activations) :
    handler.Startable ∧ Authorized contract envelope pair handler.status.generation := by
  by_cases hstart : handler.Startable
  · refine ⟨hstart, ?_⟩
    by_contra hauth
    obtain ⟨result, _, hreject | hreject⟩ := Handler.handle_refused hstart hauth
    · exact h (by rw [hreject]; rfl)
    · exact h (by rw [hreject]; rfl)
  · exact absurd (congrArg Handler.activations (Handler.handle_ignored hstart)) h

end

/-- The activation state of a run stays where it is once no attempt can start. -/
theorem control_run_state (contract : ResolvedContract) {handler : Handler}
    (h : ¬ handler.Startable) (iterations : List Iteration) :
    (controlRun contract iterations handler).status.activationState =
      handler.status.activationState := by
  let Stays := fun after : Handler =>
    after.status.activationState = handler.status.activationState
  have hhandle : ∀ after : Handler, ∀ envelope pair lease, Stays after →
      Stays (after.handle contract envelope pair lease).2 := by
    intro after envelope pair lease hstate
    have hafter : ¬ after.Startable := by
      unfold Handler.Startable at h ⊢
      rwa [hstate]
    rw [Handler.handle_ignored hafter]
    exact hstate
  exact control_run_rule Stays (fun _ iteration _ hstate => control_iteration_rule Stays iteration
    (fun _ _ _ _ _ _ hbefore => hbefore) (fun after envelope => hhandle after envelope _ _)
    (fun _ hbefore => hbefore) hstate) rfl

/-- Activation safety over every run of the control task from a dormant start, at the call of
`handle` for the next request word: the leases are activated at most once and only by an
authorized attempt, every published status advertises the full capabilities exactly in state
`ACTIVE`, and `ACTIVE` and `LEASE_FAULT` are absorbing. -/
theorem activation_safety (contract : ResolvedContract)
    (hlease : contract.profile.activationRequired = true) (start : Handler)
    (hstart : DormantStart contract start) (iterations : List Iteration) :
    let handler := controlRun contract iterations start
    handler.activations ≤ 1 ∧
      (∀ word envelope pair lease,
        let called := handler.receive word
        let after := (called.handle contract envelope pair lease).2
        after.activations ≠ called.activations →
          called.activations = 0 ∧ after.activations = 1 ∧ pair.1 = pair.2 ∧
          validateRecord contract pair.1 called.status.generation = .ok () ∧
          pair.1.requestId = envelope.value ∧ envelope.value ≠ 0 ∧
          envelope.sequence = envelope.value.toUInt16) ∧
      (∀ word envelope pair lease,
        ∀ status ∈ ((handler.receive word).handle contract envelope pair lease).2.published,
          (status.capabilities = contract.profile.expectedCapabilities ↔
            status.activationState = activationStateActive) ∧
          (status.activationState ≠ activationStateActive →
            status.capabilities = contract.profile.dormantCapabilities)) ∧
      (handler.status.activationState = activationStateActive ∨
          handler.status.activationState = activationStateLeaseFault →
        ∀ later word envelope pair lease,
          let called := (controlRun contract later handler).receive word
          called.status.activationState = handler.status.activationState ∧
            (called.handle contract envelope pair lease).2 = called) := by
  intro handler
  have hinv : HandlerInv contract handler := hstart.inv.run iterations
  have hcalled : ∀ word, HandlerInv contract (handler.receive word) :=
    fun word => hinv.with_status rfl rfl
  refine ⟨hinv.once, ?_, ?_, ?_⟩
  · intro word envelope pair lease called after h
    obtain ⟨hstartable, hauth⟩ := handle_activates h
    have hzero : called.activations = 0 := (hcalled word).unused hstartable
    have hone : after.activations ≤ 1 := ((hcalled word).handle envelope pair lease).once
    exact ⟨hzero, by omega, hauth.stable, hauth.record, hauth.requestId,
      hauth.envelopeValid.1, hauth.envelopeValid.2⟩
  · intro word envelope pair lease status hstatus
    have hrule := ((hcalled word).handle envelope pair lease).published status hstatus
    unfold CapabilityRule at hrule
    have hne := Profile.expected_ne_dormant hlease
    constructor
    · constructor
      · intro hfull
        by_contra hstate
        rw [if_neg hstate, hfull] at hrule
        exact hne hrule
      · intro hstate
        rwa [if_pos hstate] at hrule
    · intro hstate
      rwa [if_neg hstate] at hrule
  · intro hstate later word envelope pair lease called
    have hterminal : ¬ handler.Startable := Handler.not_startable hstate
    have hafter := control_run_state contract hterminal later
    have hsame : called.status.activationState = handler.status.activationState := hafter
    refine ⟨hsame, Handler.handle_ignored ?_⟩
    unfold Handler.Startable at hterminal ⊢
    rwa [hsame]

/-- The record that the Linux driver writes passes `validate_record` of the same boot. -/
theorem activation_request_valid (contract : ResolvedContract) (generation : UInt32)
    {requestId : UInt32}
    (h : requestId ≠ 0) :
    validateRecord contract (Linux.activationRequest contract generation requestId) generation =
      .ok () := by
  simp [validateRecord, Linux.activationRequest, h]

/-- A loop turn in which nothing arrives and no counter moves. -/
def quietTurn : Iteration where
  request := none
  pair :=
    (Linux.activationRequest picoclawContract 1 7, Linux.activationRequest picoclawContract 1 7)
  lease := .ok ()
  responseSent := true
  heartbeatDue := false
  requestDrops := 0
  lockFailures := 0
  unexpectedEvents := 0
  lcdFaulted := false

/-- A loop turn that receives the envelope of request 7, whose record is in place. -/
def activationTurn : Iteration :=
  { quietTurn with request := some (Linux.activationEnvelope 7).encode }

/-- The lease of the LCD after a first boot that is asked for it once: one activation. -/
theorem activation_safety_lcd :
    let start := controlBegin picoclawContract (initialStatus picoclawContract zeroStatus)
    let handler := controlRun picoclawContract [activationTurn, quietTurn] start
    handler.status.activationState = activationStateActive ∧ handler.activations = 1 ∧
      handler.activations ≤ 1 := by
  intro start handler
  have hstart : DormantStart picoclawContract start := control_begin_dormant rfl zeroStatus
  have hsafe := activation_safety picoclawContract rfl start hstart [activationTurn, quietTurn]
  exact ⟨by decide, by decide, hsafe.1⟩

end NanoKvm.Firmware
