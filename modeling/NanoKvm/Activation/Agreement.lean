import NanoKvm.Activation.Safety
import NanoKvm.Linux.Consumers

/-!
# What the consumers of an active firmware agree on

Three Linux drivers decide on their own whether the firmware is active. The control
driver looks at the activation fields and at the flag of a failed activation; the other
two demand a status without flags. The firmware never clears a flag, so the verdicts
part after a refused attempt.

A quiet run is one of activation attempts only. `quiet_flags_iff` follows its flags from
the dormant start: they stay clear exactly when the first attempt is authorized and no
response is lost.
-/

namespace NanoKvm.Firmware

open Contract

/-- A loop turn with at most an activation attempt and no diagnostic of another kind. -/
structure Quiet (iteration : Iteration) : Prop where
  attempt : ∀ word ∈ iteration.request, (Message.decode word).service = serviceControl ∧
    (Message.decode word).opcode = opActivateLeases
  requestDrops : iteration.requestDrops = 0
  lockFailures : iteration.lockFailures = 0
  unexpectedEvents : iteration.unexpectedEvents = 0
  lcdFaulted : iteration.lcdFaulted = false

/-- The first activation attempt of the run is authorized. -/
def FirstAttemptAuthorized (contract : ResolvedContract) (generation : UInt32) :
    List Iteration → Prop
  | [] => True
  | iteration :: rest =>
      match iteration.request with
      | none => FirstAttemptAuthorized contract generation rest
      | some word => Authorized contract (Message.decode word) iteration.pair generation

/-- The mailbox took the response to every request of the run. -/
def ResponsesSent (iterations : List Iteration) : Prop :=
  ∀ iteration ∈ iterations, iteration.request.isSome → iteration.responseSent = true

/-- The handler once the attempt of a quiet turn, if there is one, is over. -/
def served (contract : ResolvedContract) (iteration : Iteration) (handler : Handler) : Handler :=
  match iteration.request with
  | none => handler
  | some word =>
      ((handler.receive word).handle contract (Message.decode word) iteration.pair
        iteration.lease).2

/-- The flag that a lost response leaves. -/
def responseFlag (iteration : Iteration) : UInt32 :=
  if iteration.request.isSome ∧ iteration.responseSent = false then flagResponseTimeout else 0

section

variable {contract : ResolvedContract} {handler : Handler} {iteration : Iteration}

/-- A quiet turn is its attempt, the flag of a lost response, bookkeeping and a publication. -/
theorem control_iteration_quiet (contract : ResolvedContract) (handler : Handler)
    (hquiet : Quiet iteration) :
    ∃ lastRequest lastResponse heartbeat, controlIteration contract iteration handler =
      ((served contract iteration handler).bookkeep lastRequest lastResponse heartbeat
        ((served contract iteration handler).status.flags ||| responseFlag iteration)).publish := by
  obtain ⟨hattempt, hdrops, hlock, hevents, hlcd⟩ := hquiet
  have hkeep : ∀ status, housekeeping contract iteration status =
      { status with heartbeat :=
          if iteration.heartbeatDue then status.heartbeat + 1 else status.heartbeat } := by
    intro status
    simp [housekeeping, mailboxDiagnosticFlags, hdrops, hlock, hevents, hlcd]
  let after := controlIteration contract iteration handler
  refine ⟨after.status.lastRequest, after.status.lastResponse, after.status.heartbeat, ?_⟩
  cases hrequest : iteration.request with
  | none =>
      simp [after, controlIteration, hkeep, serveRequest, served, responseFlag, hrequest,
        Handler.bookkeep, Handler.publish]
  | some word =>
      have hword := hattempt word (by rw [hrequest]; rfl)
      cases hsent : iteration.responseSent with
      | true =>
          simp [after, controlIteration, hkeep, serveRequest, served, responseFlag, hrequest,
            respond, hword, hsent, Handler.bookkeep, Handler.publish]
      | false =>
          simp [after, controlIteration, hkeep, serveRequest, served, responseFlag, hrequest,
            respond, hword, hsent, Handler.bookkeep, Handler.publish]

/-! ## The flags of a quiet run -/

/-- A flag that is set stays set. -/
theorem or_ne_zero {flags : UInt32} (h : flags ≠ 0) (more : UInt32) : flags ||| more ≠ 0 := by
  rw [ne_eq, UInt32.or_eq_zero_iff]
  exact fun hzero => h hzero.1

/-- An attempt clears no flag. -/
theorem handle_flags_ne_zero {envelope : Message} {pair : ActivationRequest × ActivationRequest}
    {lease : Except LeaseFailure Unit} (h : handler.status.flags ≠ 0) :
    (handler.handle contract envelope pair lease).2.status.flags ≠ 0 := by
  by_cases hstart : handler.Startable
  · by_cases hauth : Authorized contract envelope pair handler.status.generation
    · rw [Handler.handle_authorized hstart hauth]
      cases lease with
      | ok _ =>
          rw [Handler.activate_leases_ok_flags, Handler.activating_flags]
          exact h
      | error failure =>
          rw [Handler.activate_leases_error_flags, Handler.activating_flags]
          exact or_ne_zero h _
    · obtain ⟨result, _, hreject | hreject⟩ := Handler.handle_refused hstart hauth
      · rw [hreject, Handler.reject_flags, Handler.attempted_flags]
        exact or_ne_zero h _
      · rw [hreject, Handler.reject_flags, Handler.validating_flags]
        exact or_ne_zero h _
  · rwa [Handler.handle_ignored hstart]

/-- A quiet turn clears no flag. -/
theorem quiet_flags_ne_zero (hquiet : Quiet iteration) (h : handler.status.flags ≠ 0) :
    (controlIteration contract iteration handler).status.flags ≠ 0 := by
  obtain ⟨_, _, _, heq⟩ := control_iteration_quiet contract handler hquiet
  rw [heq]
  refine or_ne_zero ?_ _
  unfold served
  cases iteration.request with
  | none => exact h
  | some word => exact handle_flags_ne_zero h

/-- A quiet run clears no flag. -/
theorem quiet_run_flags_ne_zero {iterations : List Iteration}
    (hquiet : ∀ iteration ∈ iterations, Quiet iteration) (h : handler.status.flags ≠ 0) :
    (controlRun contract iterations handler).status.flags ≠ 0 := by
  induction iterations generalizing handler with
  | nil => exact h
  | cons iteration rest ih =>
      rw [List.forall_mem_cons] at hquiet
      exact ih hquiet.2 (quiet_flags_ne_zero hquiet.1 h)

/-- An authorized first attempt sets no flag unless a lease fails. -/
theorem served_authorized {word : UInt64} (hrequest : iteration.request = some word)
    (hdormant : handler.status.activationState = activationStateDormant)
    (hauth : Authorized contract (Message.decode word) iteration.pair
      handler.status.generation) :
    (served contract iteration handler).status.activationState = activationStateLeaseFault ∨
      (served contract iteration handler).status.activationState = activationStateActive ∧
        (served contract iteration handler).status.flags = handler.status.flags := by
  have hstart : (handler.receive word).Startable := .inl hdormant
  have hreceived : Authorized contract (Message.decode word) iteration.pair
      (handler.receive word).status.generation := hauth
  simp only [served, hrequest]
  rw [Handler.handle_authorized hstart hreceived]
  cases iteration.lease with
  | ok _ =>
      right
      rw [Handler.activate_leases_ok_flags, Handler.activating_flags]
      exact ⟨rfl, rfl⟩
  | error failure => exact .inl (Handler.activate_leases_error_state ..)

/-- A refused first attempt leaves its flag. -/
theorem served_refused {word : UInt64} (hrequest : iteration.request = some word)
    (hdormant : handler.status.activationState = activationStateDormant)
    (hauth : ¬ Authorized contract (Message.decode word) iteration.pair
      handler.status.generation) :
    (served contract iteration handler).status.flags ≠ 0 := by
  have hstart : (handler.receive word).Startable := .inl hdormant
  have hflag : ∀ flags : UInt32, flags ||| flagActivationRejected ≠ 0 := by
    intro flags
    rw [UInt32.or_comm]
    exact or_ne_zero (by decide) flags
  simp only [served, hrequest]
  obtain ⟨result, _, hreject⟩ := @Handler.handle_refused _ _ _ iteration.lease _ hstart hauth
  rcases hreject with hreject | hreject
  · rw [hreject]
    exact hflag _
  · rw [hreject]
    exact hflag _

/-- A quiet turn leaves a final state and its flags alone, but for a lost response. -/
theorem quiet_final (contract : ResolvedContract) (hquiet : Quiet iteration)
    (hfinal : ¬ handler.Startable) :
    (controlIteration contract iteration handler).status.activationState =
        handler.status.activationState ∧
      (controlIteration contract iteration handler).status.flags =
        handler.status.flags ||| responseFlag iteration := by
  obtain ⟨_, _, _, heq⟩ := control_iteration_quiet contract handler hquiet
  rw [heq]
  unfold served
  cases iteration.request with
  | none => exact ⟨rfl, rfl⟩
  | some word =>
      have hreceived : ¬ (handler.receive word).Startable := hfinal
      dsimp only
      rw [Handler.handle_ignored hreceived]
      exact ⟨rfl, rfl⟩

/-- A response is lost exactly when its flag is not zero. -/
theorem response_flag_eq_zero_iff :
    responseFlag iteration = 0 ↔
      (iteration.request.isSome → iteration.responseSent = true) := by
  unfold responseFlag
  split
  · rename_i hlost
    constructor
    · intro hzero
      exact absurd hzero (by decide)
    · intro hsent
      rw [hsent hlost.1] at hlost
      exact absurd hlost.2 (by decide)
  · rename_i hkept
    simp only [true_iff]
    intro hrequest
    by_contra hsent
    exact hkept ⟨hrequest, by simpa using hsent⟩

/-- In a final state a quiet run sets flags exactly when it loses a response. -/
theorem quiet_final_run {iterations : List Iteration}
    (hquiet : ∀ iteration ∈ iterations, Quiet iteration) (hfinal : ¬ handler.Startable)
    (hclear : handler.status.flags = 0) :
    (controlRun contract iterations handler).status.flags = 0 ↔ ResponsesSent iterations := by
  induction iterations generalizing handler with
  | nil => simp [ResponsesSent, hclear]
  | cons iteration rest ih =>
      rw [List.forall_mem_cons] at hquiet
      obtain ⟨hstate, hflags⟩ := quiet_final contract hquiet.1 hfinal
      unfold ResponsesSent
      rw [List.forall_mem_cons, ← response_flag_eq_zero_iff, control_run_cons]
      by_cases hlost : responseFlag iteration = 0
      · have hnext : ¬ (controlIteration contract iteration handler).Startable := by
          unfold Handler.Startable at hfinal ⊢
          rwa [hstate]
        have hzero : (controlIteration contract iteration handler).status.flags = 0 := by
          rw [hflags, hclear, hlost]
          decide
        rw [ih hquiet.2 hnext hzero]
        exact ⟨fun h => ⟨hlost, h⟩, fun h => h.2⟩
      · have hset : (controlIteration contract iteration handler).status.flags ≠ 0 := by
          rw [hflags, UInt32.or_comm]
          exact or_ne_zero hlost _
        exact ⟨fun h => absurd h (quiet_run_flags_ne_zero hquiet.2 hset),
          fun h => absurd h.1 hlost⟩

/-- The flags of a quiet run that ends active are clear exactly when its first attempt is
authorized and no response is lost. -/
theorem quiet_flags_iff {iterations : List Iteration}
    (hquiet : ∀ iteration ∈ iterations, Quiet iteration)
    (hdormant : handler.status.activationState = activationStateDormant)
    (hclear : handler.status.flags = 0)
    (hactive : (controlRun contract iterations handler).status.activationState =
      activationStateActive) :
    (controlRun contract iterations handler).status.flags = 0 ↔
      FirstAttemptAuthorized contract handler.status.generation iterations ∧
        ResponsesSent iterations := by
  induction iterations generalizing handler with
  | nil =>
      rw [control_run_nil, hdormant] at hactive
      exact absurd hactive (by decide)
  | cons iteration rest ih =>
      rw [List.forall_mem_cons] at hquiet
      obtain ⟨_, _, _, heq⟩ := control_iteration_quiet contract handler hquiet.1
      have hstate : (controlIteration contract iteration handler).status.activationState =
          (served contract iteration handler).status.activationState := by
        rw [heq]
        rfl
      have hflags : (controlIteration contract iteration handler).status.flags =
          (served contract iteration handler).status.flags ||| responseFlag iteration := by
        rw [heq]
        rfl
      rw [control_run_cons] at hactive ⊢
      unfold ResponsesSent
      rw [List.forall_mem_cons, ← response_flag_eq_zero_iff]
      cases hrequest : iteration.request with
      | none =>
          have hserved : served contract iteration handler = handler := by
            simp only [served, hrequest]
          have hsilent : responseFlag iteration = 0 := by simp [responseFlag, hrequest]
          have hgeneration : (controlIteration contract iteration handler).status.generation =
              handler.status.generation := by
            rw [heq, hserved]
            rfl
          rw [hserved] at hstate hflags
          rw [hsilent, hclear] at hflags
          have hrest := ih hquiet.2 (hstate.trans hdormant) hflags hactive
          rw [hgeneration] at hrest
          simp only [FirstAttemptAuthorized, hrequest, hsilent, true_and]
          exact hrest
      | some word =>
          simp only [FirstAttemptAuthorized, hrequest]
          by_cases hlost : responseFlag iteration = 0
          · rw [hlost, UInt32.or_zero] at hflags
            by_cases hauth : Authorized contract (Message.decode word) iteration.pair
                handler.status.generation
            · rcases served_authorized hrequest hdormant hauth with hfault | ⟨hstate', hsame⟩
              · have hstuck : ¬ (controlIteration contract iteration handler).Startable :=
                  Handler.not_startable (.inr (hstate.trans hfault))
                rw [control_run_state contract hstuck, hstate, hfault] at hactive
                exact absurd hactive (by decide)
              · have hstuck : ¬ (controlIteration contract iteration handler).Startable :=
                  Handler.not_startable (.inl (hstate.trans hstate'))
                rw [hsame, hclear] at hflags
                rw [quiet_final_run hquiet.2 hstuck hflags]
                exact ⟨fun h => ⟨hauth, hlost, h⟩, fun h => h.2.2⟩
            · have hset := served_refused hrequest hdormant hauth
              rw [← hflags] at hset
              exact ⟨fun h => absurd h (quiet_run_flags_ne_zero hquiet.2 hset),
                fun h => absurd h.1 hauth⟩
          · have hset : (controlIteration contract iteration handler).status.flags ≠ 0 := by
              rw [hflags, UInt32.or_comm]
              exact or_ne_zero hlost _
            exact ⟨fun h => absurd h (quiet_run_flags_ne_zero hquiet.2 hset),
              fun h => absurd h.2.1 hlost⟩

end

/-! ## What the control driver sees -/

/-- A mask that misses both words misses their union. -/
theorem or_and_eq_zero {flags more mask : UInt32} (h : flags &&& mask = 0)
    (hmore : more &&& mask = 0) : (flags ||| more) &&& mask = 0 := by
  have hdistrib : (flags ||| more) &&& mask = (flags &&& mask) ||| (more &&& mask) := by
    apply UInt32.toBitVec_inj.mp
    simp only [UInt32.toBitVec_and, UInt32.toBitVec_or]
    exact BitVec.and_or_distrib_right
  rw [hdistrib, h, hmore]
  rfl

/-- The activation fields that the control driver checks, in a quiet run. -/
structure QuietInv (handler : Handler) : Prop where
  active : handler.status.activationState = activationStateActive →
    handler.status.activationError = activationResultSuccess.toUInt8 ∧
      handler.status.activationAttempts ≠ 0 ∧ handler.status.activationRequestId ≠ 0
  failed : handler.status.activationState = activationStateLeaseFault ∨
    handler.status.flags &&& flagActivationFailed = 0

namespace QuietInv

variable {contract : ResolvedContract} {handler : Handler} {iteration : Iteration}

/-- A startable handler has not failed an activation. -/
theorem not_failed (h : QuietInv handler) (hstart : handler.Startable) :
    handler.status.flags &&& flagActivationFailed = 0 := by
  rcases h.failed with hfault | hclear
  · exact absurd hstart (Handler.not_startable (.inr hfault))
  · exact hclear

/-- One envelope keeps the invariant. -/
theorem handle (h : QuietInv handler) (contract : ResolvedContract) (envelope : Message)
    (pair : ActivationRequest × ActivationRequest) (lease : Except LeaseFailure Unit) :
    QuietInv (handler.handle contract envelope pair lease).2 := by
  by_cases hstart : handler.Startable
  · have hclear := h.not_failed hstart
    by_cases hauth : Authorized contract envelope pair handler.status.generation
    · rw [Handler.handle_authorized hstart hauth]
      cases lease with
      | ok _ =>
          refine ⟨fun _ => ⟨rfl, saturating_increment_ne_zero _, hauth.envelopeValid.1⟩, .inr ?_⟩
          rw [Handler.activate_leases_ok_flags, Handler.activating_flags]
          exact hclear
      | error failure =>
          have hne : ¬ activationStateLeaseFault = activationStateActive := by decide
          exact ⟨fun hactive => absurd hactive hne, .inl rfl⟩
    · have hrejected : (handler.status.flags ||| flagActivationRejected) &&&
          flagActivationFailed = 0 := or_and_eq_zero hclear (by decide)
      have hne : ¬ activationStateRejected = activationStateActive := by decide
      obtain ⟨result, _, hreject | hreject⟩ := Handler.handle_refused hstart hauth
      · rw [hreject]
        exact ⟨fun hactive => absurd hactive hne, .inr hrejected⟩
      · rw [hreject]
        exact ⟨fun hactive => absurd hactive hne, .inr hrejected⟩
  · rwa [Handler.handle_ignored hstart]

/-- A quiet turn keeps the invariant. -/
theorem turn (h : QuietInv handler) (contract : ResolvedContract) (hquiet : Quiet iteration) :
    QuietInv (controlIteration contract iteration handler) := by
  have hserved : QuietInv (served contract iteration handler) := by
    unfold served
    cases iteration.request with
    | none => exact h
    | some word =>
        have hreceived : QuietInv (handler.receive word) := ⟨h.active, h.failed⟩
        exact hreceived.handle contract _ _ _
  obtain ⟨_, _, _, heq⟩ := control_iteration_quiet contract handler hquiet
  rw [heq]
  refine ⟨hserved.active, ?_⟩
  rcases hserved.failed with hfault | hclear
  · exact .inl hfault
  · right
    refine or_and_eq_zero hclear ?_
    unfold responseFlag
    split <;> decide

/-- A quiet run keeps the invariant. -/
theorem run (h : QuietInv handler) (contract : ResolvedContract) {iterations : List Iteration}
    (hquiet : ∀ iteration ∈ iterations, Quiet iteration) :
    QuietInv (controlRun contract iterations handler) := by
  induction iterations generalizing handler with
  | nil => exact h
  | cons iteration rest ih =>
      rw [List.forall_mem_cons] at hquiet
      exact ih (h.turn contract hquiet.1) hquiet.2

end QuietInv

open Linux in
/-- The control driver accepts every active status of a quiet run. -/
theorem quiet_validate_active {contract : ResolvedContract} {handler : Handler}
    {generation : UInt32}
    (hlease : contract.profile.activationRequired = true)
    (hheader : header handler.status = runningHeader generation)
    (hinv : HandlerInv contract handler) (hquiet : QuietInv handler)
    (hactive : handler.status.activationState = activationStateActive) :
    let manifest := expectedManifest contract generation manifestCommit
    ∃ snapshot, readContractSnapshot contract handler.status manifest manifest handler.status =
      .ok snapshot ∧ validateActive contract snapshot = .ok () := by
  intro manifest
  obtain ⟨herror, hattempts, hid⟩ := hquiet.active hactive
  have hfailed : handler.status.flags &&& flagActivationFailed = 0 := by
    rcases hquiet.failed with hfault | hclear
    · rw [hactive] at hfault
      exact absurd hfault (by decide)
    · exact hclear
  have hcapabilities : handler.status.capabilities = contract.profile.expectedCapabilities := by
    have hrule := hinv.current
    unfold CapabilityRule at hrule
    rwa [if_pos hactive] at hrule
  simp only [header, runningHeader, Header.mk.injEq] at hheader
  obtain ⟨hmagic, hmajor, hminor, hsize, hstate, hgeneration⟩ := hheader
  refine ⟨{ status := handler.status, manifest := manifest }, ?_, ?_⟩
  · have hread := @read_contract_snapshot_expected contract _ hmagic hmajor hminor hsize hstate
    rwa [hgeneration] at hread
  · simp [validateActive, hlease, hactive, herror, hattempts, hid, hfailed, hcapabilities]

/-- A boot starts without a flag. -/
theorem control_begin_flags (contract : ResolvedContract) (previous : Status) :
    (controlBegin contract (initialStatus contract previous)).status.flags = 0 := by
  simp only [controlBegin, controlStart, Handler.publish]
  split <;> rfl

/-- A boot of a lease profile starts with the invariant. -/
theorem QuietInv.of_begin {contract : ResolvedContract}
    (hlease : contract.profile.activationRequired = true) (previous : Status) :
    QuietInv (controlBegin contract (initialStatus contract previous)) := by
  have hne : ¬ activationStateDormant = activationStateActive := by decide
  refine ⟨fun hstate => ?_, .inr (by rw [control_begin_flags]; decide)⟩
  rw [(control_begin_dormant hlease previous).dormant] at hstate
  exact absurd hstate hne

open Linux in
/-- The other two drivers accept an active status exactly when it carries no flag. -/
theorem check_active_status_iff {contract : ResolvedContract} {handler : Handler}
    {generation : UInt32}
    (hheader : header handler.status = runningHeader generation)
    (hinv : HandlerInv contract handler)
    (hactive : handler.status.activationState = activationStateActive) :
    checkActiveStatus contract generation handler.status handler.status = .ok () ↔
      handler.status.flags = 0 := by
  have hcapabilities : handler.status.capabilities = contract.profile.expectedCapabilities := by
    have hrule := hinv.current
    unfold CapabilityRule at hrule
    rwa [if_pos hactive] at hrule
  simp only [header, runningHeader, Header.mk.injEq] at hheader
  obtain ⟨hmagic, hmajor, hminor, hsize, hstate, hgeneration⟩ := hheader
  constructor
  · exact check_active_status_flags
  · intro hflags
    simp [checkActiveStatus, hgeneration, hmagic, hmajor, hminor, hsize, hstate, hactive,
      hcapabilities, hflags]

open Linux in
/-- The consumers of an active firmware: after every quiet run from a dormant boot that ends
`ACTIVE`, all three accept the status exactly when the first attempt was authorized and no
response was lost. -/
theorem consumers_accept_iff (contract : ResolvedContract)
    (hlease : contract.profile.activationRequired = true) (previous : Status)
    (iterations : List Iteration) (hquiet : ∀ iteration ∈ iterations, Quiet iteration)
    (hactive : (controlRun contract iterations
        (controlBegin contract (initialStatus contract previous))).status.activationState =
      activationStateActive) :
    let generation := (initialStatus contract previous).generation
    let status := (controlRun contract iterations
      (controlBegin contract (initialStatus contract previous))).status
    let manifest := expectedManifest contract generation manifestCommit
    ((∃ snapshot, readContractSnapshot contract status manifest manifest status = .ok snapshot ∧
          validateActive contract snapshot = .ok ()) ∧
        checkGeneration contract generation status status = .ok () ∧
        generationValid contract generation status status = .ok ()) ↔
      FirstAttemptAuthorized contract generation iterations ∧ ResponsesSent iterations := by
  intro generation status manifest
  let start := controlBegin contract (initialStatus contract previous)
  have hstart : DormantStart contract start := control_begin_dormant hlease previous
  have hkeeps := (control_begin_header contract previous).run contract iterations
  have hinv : HandlerInv contract (controlRun contract iterations start) :=
    hstart.inv.run iterations
  have hclear : start.status.flags = 0 := control_begin_flags contract previous
  have hgeneration : start.status.generation = generation := by
    simp [start, generation, controlBegin, controlStart, hlease, Handler.publish]
  have hflags := quiet_flags_iff hquiet hstart.dormant hclear hactive
  rw [hgeneration] at hflags
  have hcontrol := quiet_validate_active hlease hkeeps.current hinv
    ((QuietInv.of_begin hlease previous).run contract hquiet) hactive
  have hothers := check_active_status_iff hkeeps.current hinv hactive
  rw [← hflags]
  constructor
  · rintro ⟨-, hframebuffer, -⟩
    exact hothers.mp hframebuffer
  · intro hzero
    exact ⟨hcontrol, hothers.mpr hzero, hothers.mpr hzero⟩

/-- A loop turn whose record is stamped with the wrong generation. -/
def staleTurn : Iteration :=
  { activationTurn with
    pair :=
      (Linux.activationRequest picoclawContract 2 7, Linux.activationRequest picoclawContract 2 7) }

/-- A quiet turn stays quiet whatever records its attempt reads. -/
theorem activation_turn_quiet (pair : ActivationRequest × ActivationRequest) :
    Quiet { activationTurn with pair := pair } := by
  refine ⟨?_, rfl, rfl, rfl, rfl⟩
  intro word hword
  cases hword
  decide

open Linux in
/-- After a first boot whose first attempt is authorized, all three drivers accept. -/
theorem consumers_accept_first_attempt :
    let generation := (initialStatus picoclawContract zeroStatus).generation
    let status := (controlRun picoclawContract [activationTurn]
      (controlBegin picoclawContract (initialStatus picoclawContract zeroStatus))).status
    checkGeneration picoclawContract generation status status = .ok () ∧
      generationValid picoclawContract generation status status = .ok () := by
  have hquiet : ∀ iteration ∈ [activationTurn], Quiet iteration := by
    intro iteration hmem
    rw [List.mem_singleton.mp hmem]
    exact activation_turn_quiet activationTurn.pair
  have hauth : Authorized picoclawContract (Message.decode (activationEnvelope 7).encode)
      activationTurn.pair 1 :=
    ⟨⟨by decide, by decide⟩, rfl, activation_request_valid _ 1 (by decide), rfl⟩
  have hsent : ResponsesSent [activationTurn] := by
    intro iteration hmem _
    rw [List.mem_singleton.mp hmem]
    rfl
  exact ((consumers_accept_iff picoclawContract rfl zeroStatus [activationTurn] hquiet
    (by decide)).mpr ⟨hauth, hsent⟩).2

open Linux in
/-- After a refused attempt and an authorized one the firmware is active, and the control driver
accepts what the framebuffer and Wi-Fi power drivers refuse. -/
theorem consumers_disagree_after_refusal :
    let generation := (initialStatus picoclawContract zeroStatus).generation
    let status := (controlRun picoclawContract [staleTurn, activationTurn]
      (controlBegin picoclawContract (initialStatus picoclawContract zeroStatus))).status
    let manifest := expectedManifest picoclawContract generation manifestCommit
    (∀ iteration ∈ [staleTurn, activationTurn], Quiet iteration) ∧
      status.activationState = activationStateActive ∧
      (∃ snapshot, readContractSnapshot picoclawContract status manifest manifest status =
        .ok snapshot ∧ validateActive picoclawContract snapshot = .ok ()) ∧
      checkGeneration picoclawContract generation status status ≠ .ok () ∧
      generationValid picoclawContract generation status status ≠ .ok () := by
  intro generation status manifest
  have hquiet : ∀ iteration ∈ [staleTurn, activationTurn], Quiet iteration := by
    intro iteration hmem
    rw [List.mem_cons, List.mem_singleton] at hmem
    rcases hmem with rfl | rfl
    · exact activation_turn_quiet staleTurn.pair
    · exact activation_turn_quiet activationTurn.pair
  have hactive : status.activationState = activationStateActive := by decide
  have hkeeps := (control_begin_header picoclawContract zeroStatus).run picoclawContract
    [staleTurn, activationTurn]
  have hstart : DormantStart picoclawContract
      (controlBegin picoclawContract (initialStatus picoclawContract zeroStatus)) :=
    control_begin_dormant rfl zeroStatus
  have hinv := hstart.inv.run [staleTurn, activationTurn]
  have hflags : status.flags ≠ 0 := by decide
  have hrefused := mt (check_active_status_iff hkeeps.current hinv hactive).mp hflags
  exact ⟨hquiet, hactive, quiet_validate_active rfl hkeeps.current hinv
    ((QuietInv.of_begin rfl zeroStatus).run picoclawContract hquiet) hactive,
    hrefused, hrefused⟩

end NanoKvm.Firmware
