import NanoKvm.Firmware.ControlTask
import NanoKvm.Firmware.Leases
import NanoKvm.Linux.Remoteproc

/-!
# The readers of the status

The remoteproc driver and the two classifications of the control driver each demand an
exact combination of activation fields. `Settled` lists the combinations in which the
control task rests between two envelopes, `settled_run` shows that a run never leaves
them, and each reader is then checked once for every combination.
-/

namespace NanoKvm.Firmware

open Contract

/-- The activation fields in which the firmware rests, one combination for each state. -/
inductive Settled (contract : ResolvedContract) (status : Status) : Prop where
  | dormant
      (state : status.activationState = activationStateDormant)
      (required : contract.profile.activationRequired = true)
      (error : status.activationError = 0)
      (attempts : status.activationAttempts = 0)
      (requestId : status.activationRequestId = 0)
      (flags : status.flags &&& activationFlags = 0)
      (capabilities : status.capabilities = contract.profile.dormantCapabilities)
  | rejected (result : UInt32)
      (state : status.activationState = activationStateRejected)
      (required : contract.profile.activationRequired = true)
      (error : status.activationError = result.toUInt8)
      (refusal : IsRefusal result)
      (attempts : status.activationAttempts ≠ 0)
      (requestId : status.activationRequestId = 0 → result = activationResultInvalidEnvelope)
      (flags : status.flags &&& activationFlags = flagActivationRejected)
      (capabilities : status.capabilities = contract.profile.dormantCapabilities)
  | active
      (state : status.activationState = activationStateActive)
      (required : contract.profile.activationRequired = true)
      (error : status.activationError = 0)
      (attempts : status.activationAttempts ≠ 0)
      (requestId : status.activationRequestId ≠ 0)
      (flags : status.flags &&& flagActivationFailed = 0)
      (capabilities : status.capabilities = contract.profile.expectedCapabilities)
  | base
      (state : status.activationState = activationStateActive)
      (required : contract.profile.activationRequired = false)
      (error : status.activationError = 0)
      (attempts : status.activationAttempts = 0)
      (requestId : status.activationRequestId = 0)
      (flags : status.flags &&& activationFlags = 0)
      (capabilities : status.capabilities = contract.profile.expectedCapabilities)
  | leaseFault (result : UInt32)
      (state : status.activationState = activationStateLeaseFault)
      (required : contract.profile.activationRequired = true)
      (error : status.activationError = result.toUInt8)
      (fault : IsLeaseFault result)
      (attempts : status.activationAttempts ≠ 0)
      (requestId : status.activationRequestId ≠ 0)
      (flags : status.flags &&& flagActivationFailed ≠ 0)
      (capabilities : status.capabilities = contract.profile.dormantCapabilities)

/-! ## Flags and results -/

/-- The activation flags decide whether a rejection is shown. -/
theorem flags_and_rejected (flags : UInt32) :
    flags &&& flagActivationRejected = flags &&& activationFlags &&& flagActivationRejected := by
  rw [UInt32.and_assoc]
  rfl

/-- They decide whether a failure is shown. -/
theorem flags_and_failed (flags : UInt32) :
    flags &&& flagActivationFailed = flags &&& activationFlags &&& flagActivationFailed := by
  rw [UInt32.and_assoc]
  rfl

/-- Without a failure, adding the rejection leaves exactly the rejection. -/
theorem flags_or_rejected {flags : UInt32} (h : flags &&& flagActivationFailed = 0) :
    (flags ||| flagActivationRejected) &&& activationFlags = flagActivationRejected := by
  have hboth : flags &&& activationFlags = flags &&& flagActivationRejected := by
    rw [activationFlags, UInt32.and_comm, flags_or_and, UInt32.and_comm flagActivationFailed, h,
      UInt32.or_zero, UInt32.and_comm]
  have habsorb : flagActivationRejected &&& activationFlags = flagActivationRejected := rfl
  rw [flags_or_and, hboth, habsorb]
  apply UInt32.toBitVec_inj.mp
  ext i
  simp

/-- A failed lease sets the failure flag, whatever other flag it sets. -/
theorem flags_or_failed (flags flag : UInt32) :
    (flags ||| (flagActivationFailed ||| flag)) &&& flagActivationFailed ≠ 0 := by
  intro h
  have hbit : ((flags ||| (flagActivationFailed ||| flag)) &&& flagActivationFailed).toBitVec[4] =
      true := by
    simp [flagActivationFailed]
  rw [h] at hbit
  exact absurd hbit (by decide)

/-- A result between two small bounds keeps its place in a byte. -/
theorem result_to_uint8 {lower result upper : UInt32} (hlower : lower ≤ result)
    (hupper : result ≤ upper) (hsmall : upper < 256) :
    ¬ result.toUInt8 < lower.toUInt8 ∧ ¬ result.toUInt8 > upper.toUInt8 := by
  simp only [UInt32.le_iff_toNat_le, UInt32.lt_iff_toNat_lt, gt_iff_lt, UInt8.lt_iff_toNat_lt,
    UInt32.toNat_toUInt8] at *
  have hbound : (256 : UInt32).toNat = 256 := rfl
  omega

/-! ## A run stays settled -/

namespace Settled

variable {contract : ResolvedContract} {status : Status} {handler : Handler}

/-- Only the activation fields matter. -/
theorem congr (h : Settled contract status) {after : Status}
    (hstate : after.activationState = status.activationState)
    (herror : after.activationError = status.activationError)
    (hattempts : after.activationAttempts = status.activationAttempts)
    (hid : after.activationRequestId = status.activationRequestId)
    (hflags : after.flags &&& activationFlags = status.flags &&& activationFlags)
    (hcapabilities : after.capabilities = status.capabilities) : Settled contract after := by
  have hfailed : after.flags &&& flagActivationFailed = status.flags &&& flagActivationFailed := by
    rw [flags_and_failed, hflags, ← flags_and_failed]
  cases h with
  | dormant state required error attempts requestId flags capabilities =>
      exact .dormant (hstate.trans state) required (herror.trans error) (hattempts.trans attempts)
        (hid.trans requestId) (hflags.trans flags) (hcapabilities.trans capabilities)
  | rejected result state required error refusal attempts requestId flags capabilities =>
      exact .rejected result (hstate.trans state) required (herror.trans error) refusal
        (hattempts ▸ attempts) (hid ▸ requestId) (hflags.trans flags)
        (hcapabilities.trans capabilities)
  | active state required error attempts requestId flags capabilities =>
      exact .active (hstate.trans state) required (herror.trans error) (hattempts ▸ attempts)
        (hid ▸ requestId) (hfailed.trans flags) (hcapabilities.trans capabilities)
  | base state required error attempts requestId flags capabilities =>
      exact .base (hstate.trans state) required (herror.trans error) (hattempts.trans attempts)
        (hid.trans requestId) (hflags.trans flags) (hcapabilities.trans capabilities)
  | leaseFault result state required error fault attempts requestId flags capabilities =>
      exact .leaseFault result (hstate.trans state) required (herror.trans error) fault
        (hattempts ▸ attempts) (hid ▸ requestId) (hfailed ▸ flags)
        (hcapabilities.trans capabilities)

/-- A startable status belongs to a profile with leases and shows no failure. -/
theorem startable (h : Settled contract handler.status) (hstart : handler.Startable) :
    contract.profile.activationRequired = true ∧
      handler.status.flags &&& flagActivationFailed = 0 := by
  have hfinal := hstart.not_final
  cases h with
  | dormant state required error attempts requestId flags capabilities =>
      exact ⟨required, by rw [flags_and_failed, flags]; rfl⟩
  | rejected result state required error refusal attempts requestId flags capabilities =>
      exact ⟨required, by rw [flags_and_failed, flags]; rfl⟩
  | active state => exact absurd state hfinal.2
  | base state => exact absurd state hfinal.2
  | leaseFault result state => exact absurd state hfinal.1

/-- A refusal of a counted attempt settles in `REJECTED`. -/
theorem reject {result : UInt32} (hrequired : contract.profile.activationRequired = true)
    (hflags : handler.status.flags &&& flagActivationFailed = 0)
    (hattempts : handler.status.activationAttempts ≠ 0) (hrefusal : IsRefusal result)
    (hid : handler.status.activationRequestId = 0 → result = activationResultInvalidEnvelope) :
    Settled contract (handler.reject contract result).2.status :=
  .rejected result rfl hrequired rfl hrefusal hattempts hid (flags_or_rejected hflags) rfl

/-- An authorized attempt settles in `ACTIVE` or, with a result of the hardware, in
`LEASE_FAULT`. -/
theorem activate_leases {envelope : Message} {request : ActivationRequest}
    {lease : Except LeaseFailure Unit} (h : Settled contract handler.status)
    (hstart : handler.Startable) (henvelope : EnvelopeValid envelope)
    (hlease : HardwareOutcome contract.profile lease) :
    Settled contract
      ((handler.activating envelope).activateLeases contract request lease).2.status := by
  obtain ⟨hrequired, hflags⟩ := h.startable hstart
  have hattempts := saturating_increment_ne_zero handler.status.activationAttempts
  cases lease with
  | ok _ => exact .active rfl hrequired rfl hattempts henvelope.1 hflags rfl
  | error failure =>
      exact .leaseFault failure.result rfl hrequired rfl (hardware_failure hlease) hattempts
        henvelope.1 (flags_or_failed _ _) rfl

/-- One envelope leaves a settled status. -/
theorem handle (h : Settled contract handler.status) (envelope : Message)
    (pair : ActivationRequest × ActivationRequest) {lease : Except LeaseFailure Unit}
    (hlease : HardwareOutcome contract.profile lease) :
    Settled contract (handler.handle contract envelope pair lease).2.status := by
  by_cases hstart : handler.Startable
  · obtain ⟨hrequired, hflags⟩ := h.startable hstart
    have hattempts := saturating_increment_ne_zero handler.status.activationAttempts
    by_cases hauth : Authorized contract envelope pair handler.status.generation
    · rw [Handler.handle_authorized hstart hauth]
      exact h.activate_leases hstart hauth.envelopeValid hlease
    · rw [Handler.handle_startable hstart]
      by_cases henvelope : EnvelopeValid envelope
      · rw [Handler.begin_attempt_valid henvelope]
        obtain ⟨result, hrefusal, hreject⟩ := @Handler.check_record_refused contract envelope pair
          lease (handler.validating envelope) fun hrecord =>
            hauth ⟨henvelope, hrecord.1, hrecord.2.1, hrecord.2.2⟩
        dsimp only
        rw [hreject]
        exact reject hrequired hflags hattempts hrefusal fun hzero => absurd hzero henvelope.1
      · rw [Handler.begin_attempt_invalid henvelope]
        exact reject hrequired hflags hattempts ⟨by decide, by decide⟩ fun _ => rfl
  · rwa [Handler.handle_ignored hstart]

/-- Every run of the control task over hardware leases leaves a settled status. -/
theorem run {iterations : List Iteration} (h : Settled contract handler.status)
    (hlease : ∀ iteration ∈ iterations, HardwareOutcome contract.profile iteration.lease) :
    Settled contract (controlRun contract iterations handler).status := by
  let Rests := fun handler : Handler => Settled contract handler.status
  have hbookkeep : ∀ handler lastRequest lastResponse heartbeat flags,
      flags &&& activationFlags = handler.status.flags &&& activationFlags → Rests handler →
      Rests (handler.bookkeep lastRequest lastResponse heartbeat flags) := by
    intro handler lastRequest lastResponse heartbeat flags hflags hrests
    exact hrests.congr rfl rfl rfl rfl hflags rfl
  exact control_run_rule Rests (fun _ iteration hmem hrests =>
    control_iteration_rule Rests iteration hbookkeep
      (fun _ envelope hbefore => hbefore.handle envelope _ (hlease iteration hmem))
      (fun _ hbefore => hbefore) hrests) h

end Settled

/-- The control task begins settled: dormant, or active in the base profile. -/
theorem control_begin_settled (contract : ResolvedContract) (previous : Status) :
    Settled contract (controlBegin contract (initialStatus contract previous)).status := by
  cases hrequired : contract.profile.activationRequired with
  | true =>
      have hstart : (controlBegin contract (initialStatus contract previous)).status =
          { initialStatus contract previous with
            state := stateRunning, activationState := activationStateDormant } := by
        simp [controlBegin, controlStart, hrequired]
      rw [hstart]
      exact .dormant rfl hrequired rfl rfl rfl UInt32.zero_and rfl
  | false =>
      have hstart : (controlBegin contract (initialStatus contract previous)).status =
          { initialStatus contract previous with
            state := stateRunning
            capabilities := contract.profile.expectedCapabilities
            activationState := activationStateActive } := by
        simp [controlBegin, controlStart, hrequired]
      rw [hstart]
      exact .base rfl hrequired rfl rfl rfl UInt32.zero_and rfl

/-! ## What the readers make of a settled status -/

/-- What the three readers make of a status beside the committed manifest of its generation: the
remoteproc driver accepts it, and the control driver classifies it by its activation state. -/
structure Readable (contract : ResolvedContract) (status : Status) : Prop where
  remoteproc :
    let manifest := expectedManifest contract status.generation manifestCommit
    Linux.Remoteproc.readContractSnapshot contract status manifest manifest status =
      .ok { status := status, manifest := manifest }
  active : status.activationState = activationStateActive →
    Linux.validateActive contract
      { status := status
        manifest := expectedManifest contract status.generation manifestCommit } = .ok ()
  source : status.activationState = activationStateDormant ∨
      status.activationState = activationStateRejected →
    Linux.validateActivationSource contract
      { status := status
        manifest := expectedManifest contract status.generation manifestCommit } = .ok ()

section

variable {contract : ResolvedContract} {status : Status}

/-- Every profile serves RPMsg while dormant. -/
theorem manifest_flags_rpmsg (profile : Profile) :
    profile.manifestFlags &&& Profile.manifestFlagRpmsgWhileDormant ≠ 0 := by
  unfold Profile.manifestFlags
  split <;> decide

/-- A profile with leases asks for the acknowledgement. -/
theorem manifest_flags_ack {profile : Profile} (h : profile.activationRequired = true) :
    profile.manifestFlags &&& Profile.manifestFlagAckRequired ≠ 0 := by
  rw [Profile.manifestFlags, h]
  decide

/-- RPMsg is among the final capabilities of every profile. -/
theorem expected_capabilities_rpmsg (profile : Profile) :
    profile.expectedCapabilities &&& capRpmsg ≠ 0 := by
  cases profile with
  | picoclawLcd => decide
  | timers timer4 timer5 timer6 timer7 =>
      cases timer4 <;> cases timer5 <;> cases timer6 <;> cases timer7 <;> decide

/-- It is among the dormant ones. -/
theorem dormant_capabilities_rpmsg (profile : Profile) :
    profile.dormantCapabilities &&& capRpmsg ≠ 0 := by
  show UInt64.ofNat (Profile.capabilityMask Profile.baseCapabilities) &&& capRpmsg ≠ 0
  decide

namespace Settled

/-- The activation fields of a settled status fit its state. -/
theorem no_mismatch (h : Settled contract status) :
    ¬ Linux.Remoteproc.ActivationMismatch contract status := by
  have hrpmsg := manifest_flags_rpmsg contract.profile
  unfold Linux.Remoteproc.ActivationMismatch
  cases h with
  | dormant state required error attempts requestId flags capabilities =>
      have hack := manifest_flags_ack required
      have hflags : status.flags &&& (flagActivationRejected ||| flagActivationFailed) = 0 := flags
      rw [state, if_neg (by decide), if_pos rfl]
      simp [required, error, attempts, requestId, hack, hrpmsg, hflags, capabilities,
        activationResultSuccess]
  | rejected result state required error refusal attempts requestId flags capabilities =>
      obtain ⟨hlower, hupper⟩ := result_to_uint8 refusal.1 refusal.2 (by decide)
      have hrejected : status.flags &&& flagActivationRejected ≠ 0 := by
        rw [flags_and_rejected, flags]
        decide
      have hfailed : status.flags &&& flagActivationFailed = 0 := by
        rw [flags_and_failed, flags]
        rfl
      rw [state, if_neg (by decide), if_neg (by decide), if_pos rfl, error]
      simp only [required, attempts, hlower, hupper, hrpmsg, hrejected, hfailed, capabilities,
        not_true_eq_false, ne_eq, false_or, or_false, not_and, not_not]
      intro hzero
      rw [requestId hzero]
  | active state required error attempts requestId flags capabilities =>
      rw [state, if_pos rfl]
      simp [required, error, attempts, requestId, flags, capabilities, activationResultSuccess]
  | base state required error attempts requestId flags capabilities =>
      have hflags : status.flags &&& (flagActivationRejected ||| flagActivationFailed) = 0 := flags
      rw [state, if_pos rfl]
      simp [required, error, attempts, requestId, hflags, capabilities, activationResultSuccess]
  | leaseFault result state required error fault attempts requestId flags capabilities =>
      obtain ⟨hlower, hupper⟩ := result_to_uint8 fault.1 fault.2 (by decide)
      rw [state, if_neg (by decide), if_neg (by decide), if_neg (by decide), if_pos rfl, error]
      simp only [required, attempts, requestId, hlower, hupper, hrpmsg, flags, capabilities,
        not_true_eq_false, ne_eq, or_false, not_false_eq_true]

/-- A settled status always offers RPMsg. -/
theorem offers_rpmsg (h : Settled contract status) : status.capabilities &&& capRpmsg ≠ 0 := by
  have hdormant := dormant_capabilities_rpmsg contract.profile
  have hexpected := expected_capabilities_rpmsg contract.profile
  cases h with
  | dormant _ _ _ _ _ _ capabilities => rwa [capabilities]
  | rejected _ _ _ _ _ _ _ _ capabilities => rwa [capabilities]
  | active _ _ _ _ _ _ capabilities => rwa [capabilities]
  | base _ _ _ _ _ _ capabilities => rwa [capabilities]
  | leaseFault _ _ _ _ _ _ _ _ capabilities => rwa [capabilities]

/-- `ACTIVE` passes `sg2002_validate_active`. -/
theorem validate_active (h : Settled contract status)
    (hstate : status.activationState = activationStateActive) (manifest : Manifest) :
    Linux.validateActive contract { status := status, manifest := manifest } = .ok () := by
  unfold Linux.validateActive
  cases h with
  | active state required error attempts requestId flags capabilities =>
      simp [state, required, error, attempts, requestId, flags, capabilities,
        activationResultSuccess]
  | base state required error attempts requestId flags capabilities =>
      have hflags : status.flags &&& (flagActivationRejected ||| flagActivationFailed) = 0 := flags
      simp [state, required, error, attempts, requestId, hflags, capabilities,
        activationResultSuccess]
  | dormant state => exact absurd (state.symm.trans hstate) (by decide)
  | rejected result state => exact absurd (state.symm.trans hstate) (by decide)
  | leaseFault result state => exact absurd (state.symm.trans hstate) (by decide)

/-- `DORMANT` and `REJECTED` pass `sg2002_validate_activation_source`. -/
theorem validate_activation_source (h : Settled contract status)
    (hstate : status.activationState = activationStateDormant ∨
      status.activationState = activationStateRejected) (manifest : Manifest) :
    Linux.validateActivationSource contract { status := status, manifest := manifest } =
      .ok () := by
  have hmatch := h.no_mismatch
  unfold Linux.Remoteproc.ActivationMismatch at hmatch
  unfold Linux.validateActivationSource
  cases h with
  | dormant state required error attempts requestId flags capabilities =>
      have hack := manifest_flags_ack required
      have hflags : status.flags &&& (flagActivationRejected ||| flagActivationFailed) = 0 := flags
      simp [state, required, error, attempts, requestId, hflags, hack, capabilities,
        activationResultSuccess]
  | rejected result state required error refusal attempts requestId flags capabilities =>
      -- The remoteproc driver tests a rejection by the same conditions.
      have hack := manifest_flags_ack required
      rw [state, if_neg (by decide), if_neg (by decide), if_pos rfl] at hmatch
      dsimp only
      rw [state, if_neg (by simp [required, capabilities, hack]), if_neg (by decide),
        if_neg (by tauto)]
  | active state => rw [state] at hstate; exact absurd hstate (by decide)
  | base state => rw [state] at hstate; exact absurd hstate (by decide)
  | leaseFault result state => rw [state] at hstate; exact absurd hstate (by decide)

/-- A settled status of a running firmware is readable. -/
theorem readable (h : Settled contract status)
    (hheader : header status = runningHeader status.generation) : Readable contract status := by
  refine ⟨?_, fun hstate => h.validate_active hstate _,
    fun hstate => h.validate_activation_source hstate _⟩
  have hcontrol : Linux.readContractSnapshot contract status
      (expectedManifest contract status.generation manifestCommit)
      (expectedManifest contract status.generation manifestCommit) status =
        .ok { status := status,
              manifest := expectedManifest contract status.generation manifestCommit } := by
    simp only [header, runningHeader, Header.mk.injEq] at hheader
    obtain ⟨hmagic, hmajor, hminor, hsize, hstate, _⟩ := hheader
    exact Linux.read_contract_snapshot_expected hmagic hmajor hminor hsize hstate
  dsimp only
  rw [Linux.Remoteproc.readContractSnapshot, hcontrol]
  dsimp only
  rw [if_neg h.no_mismatch, if_neg h.offers_rpmsg]

end Settled

end

/-- Over every run of the control task, whatever envelopes arrive, whatever the snapshots of the
request show and whatever the hardware leases answer, the status after each return of `handle` is
in state `RUNNING` and readable, and so is the status with which the call began. -/
theorem readers_compatible (contract : ResolvedContract) (previous : Status)
    (iterations : List Iteration)
    (hleases : ∀ iteration ∈ iterations, HardwareOutcome contract.profile iteration.lease)
    (word : UInt64) (envelope : Message) (pair : ActivationRequest × ActivationRequest)
    (lease : Except LeaseFailure Unit) (hlease : HardwareOutcome contract.profile lease) :
    let called := (controlRun contract iterations
      (controlBegin contract (initialStatus contract previous))).receive word
    let after := (called.handle contract envelope pair lease).2
    (called.status.state = stateRunning ∧ Readable contract called.status) ∧
      after.status.state = stateRunning ∧ Readable contract after.status := by
  intro called after
  have hheader : KeepsHeader (runningHeader (nextGeneration (previousGeneration previous)))
      called :=
    ((control_begin_header contract previous).run contract iterations).with_status rfl rfl
  have hsettled : Settled contract called.status :=
    ((control_begin_settled contract previous).run hleases).congr rfl rfl rfl rfl rfl rfl
  have hafterHeader := hheader.handle contract envelope pair lease
  have hafterSettled := hsettled.handle envelope pair hlease
  -- The header of a run names its own generation.
  have hown : ∀ status : Status, header status =
      runningHeader (nextGeneration (previousGeneration previous)) →
      header status = runningHeader status.generation := by
    intro status hstatus
    have hgeneration := congrArg Header.generation hstatus
    rw [hstatus]
    exact congrArg runningHeader hgeneration.symm
  exact ⟨⟨congrArg Header.state hheader.current, hsettled.readable (hown _ hheader.current)⟩,
    congrArg Header.state hafterHeader.current,
    hafterSettled.readable (hown _ hafterHeader.current)⟩

/-- A first attempt with a bad envelope is rejected and a second one finds the LCD refused: the
status is then in `LEASE_FAULT`, still readable for the remoteproc driver. -/
theorem readers_compatible_lease_fault :
    let request := Linux.activationRequest picoclawContract 1 7
    let turn : Iteration :=
      { request := some 0x0000000000000401, pair := (request, request), lease := .ok ()
        responseSent := true, heartbeatDue := false, requestDrops := 0, lockFailures := 0
        unexpectedEvents := 0, lcdFaulted := false }
    let lease := hardwareActivate .picoclawLcd (.error ()) fun _ => .ok ()
    let called := (controlRun picoclawContract [turn]
      (controlBegin picoclawContract (initialStatus picoclawContract zeroStatus))).receive 0
    let after := (called.handle picoclawContract (Linux.activationEnvelope 7)
      (request, request) lease).2
    called.status.activationState = activationStateRejected ∧
      after.status.activationState = activationStateLeaseFault ∧
      Readable picoclawContract after.status := by
  intro request turn lease called after
  have hturn : ∀ iteration ∈ [turn], HardwareOutcome picoclawContract.profile iteration.lease := by
    intro iteration hmem
    rw [List.mem_singleton.1 hmem]
    exact ⟨.ok (), fun _ => .ok (), rfl⟩
  have hreadable := readers_compatible picoclawContract zeroStatus [turn] hturn 0
    (Linux.activationEnvelope 7) (request, request) lease ⟨.error (), fun _ => .ok (), rfl⟩
  exact ⟨by decide, by decide, hreadable.2.2⟩

end NanoKvm.Firmware
