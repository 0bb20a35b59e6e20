import NanoKvm.Lcd.Ownership

/-!
# The service keeps the protocol

The service accepts a request when it has published the completion of every earlier one.
Two equal snapshots of a committed line whose sequence is not the completed one show the
request that is outstanding; Linux cannot touch it before it has been streamed. While a
request is active the engine is busy with its job, so its completed sequence tells exactly
whether the slot has been streamed.
-/

namespace NanoKvm.Lcd

open Exec

/-- The header of a valid request. -/
theorem valid_request_committed {record : Record} {generation completed : UInt32}
    (h : validRequest record generation completed = true) :
    record.Committed generation ∧ record.sequence ≠ completed := by
  simp only [validRequest, Bool.and_eq_true, beq_iff_eq, bne_iff_ne] at h
  unfold Record.Committed
  tauto

theorem next_job_ne (sequence : UInt32) : nextJob sequence ≠ sequence := by
  intro heq
  have hlt := sequence.toNat_lt
  unfold nextJob at heq
  split at heq
  · rename_i hle
    rw [← heq] at hle
    exact absurd hle (by decide)
  · have hnat := congrArg UInt32.toNat heq
    rw [UInt32.toNat_add, UInt32.toNat_one] at hnat
    omega

theorem next_job_ne_zero (sequence : UInt32) : nextJob sequence ≠ 0 := by
  unfold nextJob
  split
  · decide
  · rename_i hgt
    intro hzero
    rw [hzero] at hgt
    exact hgt (by decide)

section

variable {generation : UInt32} {leftover : Slot → Line} {s : Shared}

/-- The precondition of a program of the service. -/
abbrev ServiceRuns (generation : UInt32) (leftover : Slot → Line) {α : Type}
    (program : ServiceCode α) (post : α → Shared → Prop) (s : Shared) : Prop :=
  (serviceMachine generation leftover).wp ServiceAllowed program post s

/-- What the service knows: its logs and the completion lines. -/
structure Knows (generation : UInt32) (leftover : Slot → Line) (accepted : List Request)
    (scanned : List Image) (published : List Completion) (completion : Slot → Line)
    (s : Shared) : Prop where
  valid : s.Valid generation leftover
  accepted : s.accepted = accepted
  scanned : s.scanned = scanned
  published : s.published = published
  completion : s.completion = completion

variable {accepted : List Request} {scanned : List Image} {published : List Completion}
variable {completion : Slot → Line}

theorem knows_stable : (serviceMachine generation leftover).Stable
    (Knows generation leftover accepted scanned published completion) := by
  intro s next h hrely
  exact ⟨hrely.valid h.valid, hrely.accepted.trans h.accepted, hrely.scanned.trans h.scanned,
    hrely.published.trans h.published, hrely.completion.trans h.completion⟩

/-! ## Completions -/

/-- The service holds the slot of its last request. -/
theorem knows_held (h : Knows generation leftover accepted scanned published completion s)
    (hlength : published.length < accepted.length) {request : Request}
    (hlast : accepted.getLast? = some request) : s.Held request.slot := by
  refine ⟨?_, request, ?_, rfl⟩
  · rw [h.published, h.accepted]
    exact hlength
  · rw [h.accepted]
    exact hlast

/-- The words of a completion are written, in whatever order. -/
theorem write_words_runs {request : Request} {line : Line}
    (hlength : published.length < accepted.length) (hlast : accepted.getLast? = some request)
    (hline : scanned.length = accepted.length ∨ line 3 ≠ 0 ∧ line commitIndex = 0)
    (words written : List (Fin 16))
    (h : Knows generation leftover accepted scanned published completion s)
    (hwritten : ∀ index ∈ written, completion request.slot index = line index) :
    ServiceRuns generation leftover (writeWords request.slot line words)
      (fun _ t => ∃ completion,
        Knows generation leftover accepted scanned published completion t ∧
          ∀ index ∈ written ++ words, completion request.slot index = line index) s := by
  induction words generalizing s completion written with
  | nil =>
      refine Machine.wp_pure ?_ ⟨completion, h, by rwa [List.append_nil]⟩
      rintro t next ⟨completion, ht, hwords⟩ hrely
      exact ⟨completion, knows_stable t next ht hrely, hwords⟩
  | cons index rest ih =>
      have hallowed : ∀ t, Knows generation leftover accepted scanned published completion t →
          ServiceAllowed t (.writeCompletion request.slot index (line index)) := by
        intro t ht
        refine ⟨knows_held ht hlength hlast, ?_⟩
        rw [ht.scanned, ht.accepted]
        rcases hline with hstreamed | ⟨hresult, hcommit⟩
        · exact .inl hstreamed
        · exact .inr ⟨fun heq => by rw [heq]; exact hresult, fun heq => by rw [heq]; exact hcommit⟩
      rw [List.append_cons]
      refine Machine.wp_perform knows_stable h hallowed ?_
      intro t _ next ht hnext
      rw [show next = _ from hnext]
      refine ih (written ++ [index]) ⟨valid_write_completion ht.valid (hallowed t ht), ht.accepted,
        ht.scanned, ht.published, rfl⟩ ?_
      intro other hother
      have hself : (t.writeCompletion request.slot index (line index)).completion request.slot =
          (completion request.slot).set index (line index) := by
        simp [Shared.writeCompletion, ht.completion]
      rw [hself]
      by_cases hindex : other = index
      · rw [hindex, line_set_self]
      · rw [line_set_other _ hindex]
        rcases List.mem_append.1 hother with hold | hnew
        · exact hwritten other hold
        · exact absurd (List.mem_singleton.1 hnew) hindex

/-- `complete` -/
theorem complete_runs {request : Request} {sequence error : UInt32}
    (hlength : published.length < accepted.length) (hlast : accepted.getLast? = some request)
    (hsequence : request.record.sequence = sequence)
    (herror : scanned.length = accepted.length ∨ error ≠ 0)
    (h : Knows generation leftover accepted scanned published completion s) :
    ServiceRuns generation leftover (complete request.slot generation sequence error)
      (fun _ t => ∃ completion, Knows generation leftover accepted scanned
        (published ++ [⟨request.slot, sequence, error⟩]) completion t) s := by
  have hline : scanned.length = accepted.length ∨
      (completionRecord generation sequence error).toLine 3 ≠ 0 ∧
        (completionRecord generation sequence error).toLine commitIndex = 0 :=
    herror.imp id fun hne => ⟨hne, rfl⟩
  refine Machine.wp_look knows_stable h (fun _ _ _ hnext => hnext.2) (fun _ _ => trivial) ?_
  intro t order ht horder
  refine Machine.wp_bind (Machine.wp_mono (write_words_runs hlength hlast hline order [] ht
    fun index hindex => absurd hindex List.not_mem_nil) ?_)
  rintro _ t ⟨completion, ht, hwords⟩
  have hallowed : ∀ t, Knows generation leftover accepted scanned published completion t →
      ServiceAllowed t (.publish ⟨request.slot, sequence, error⟩) := by
    intro t ht
    refine ⟨knows_held ht hlength hlast, ?_, ?_⟩
    · unfold lastSequence
      rw [ht.accepted, last_on_of_last hlast]
      exact hsequence
    · rw [ht.scanned, ht.accepted]
      rcases hline with hstreamed | ⟨hresult, _⟩
      · exact .inl hstreamed
      · have hmem : (3 : Fin 16) ∈ [] ++ order := by
          rw [List.nil_append, horder.1.mem_iff]
          exact List.mem_finRange 3
        refine .inr ?_
        rw [ht.completion]
        show completion request.slot 3 ≠ 0
        rw [hwords 3 hmem]
        exact hresult
  refine Machine.wp_tail (Machine.wp_perform knows_stable ht hallowed ?_)
  intro t _ next ht hnext
  rw [show next = _ from hnext]
  refine Machine.wp_pure ?_ ⟨_, valid_publish ht.valid (hallowed t ht), ht.accepted, ht.scanned,
    ?_, rfl⟩
  · rintro t next ⟨completion, ht⟩ hrely
    exact ⟨completion, knows_stable t next ht hrely⟩
  · show t.published ++ [_] = published ++ [_]
    rw [ht.published]

/-! ## Requests -/

/-- The slot has the request that is committed and not accepted. -/
structure Outstanding (generation : UInt32) (leftover : Slot → Line) (accepted : List Request)
    (scanned : List Image) (published : List Completion) (completion : Slot → Line) (slot : Slot)
    (record : Record) (s : Shared) : Prop where
  knows : Knows generation leftover accepted scanned published completion s
  committed : ∃ pixels, s.committed = accepted ++ [⟨slot, record, pixels⟩]

/-- The last request has not been streamed before it is accepted. -/
theorem outstanding_unscanned {slot : Slot} {record : Record}
    (h : Outstanding generation leftover accepted scanned published completion slot record s) :
    s.scanned.length < s.committed.length := by
  obtain ⟨pixels, hcommitted⟩ := h.committed
  have hscanned := h.knows.valid.scanned.length_le
  rw [List.length_map, h.knows.accepted] at hscanned
  rw [hcommitted, List.length_append, List.length_singleton]
  omega

theorem outstanding_stable {slot : Slot} {record : Record} :
    (serviceMachine generation leftover).Stable
      (Outstanding generation leftover accepted scanned published completion slot record) := by
  intro s next h hrely
  obtain ⟨pixels, hcommitted⟩ := h.committed
  refine ⟨knows_stable s next h.knows hrely, pixels, ?_⟩
  rw [hrely.committed (outstanding_unscanned h)]
  exact hcommitted

/-- A committed line whose sequence is not the completed one is the outstanding request. -/
theorem outstanding_of_line {slot : Slot}
    (h : Knows generation leftover accepted scanned published completion s)
    (hvalid : validRequest (Record.ofLine (s.request slot)) generation
      (lastSequence accepted slot) = true) :
    Outstanding generation leftover accepted scanned published completion slot
      (Record.ofLine (s.request slot)) s := by
  obtain ⟨hcommitted, hsequence⟩ := valid_request_committed hvalid
  obtain ⟨request, hlast, hrecord⟩ := h.valid.request slot hcommitted
  have hnew : lastOn accepted slot ≠ some request := by
    intro hold
    unfold lastSequence at hsequence
    rw [hold, hrecord] at hsequence
    exact hsequence rfl
  refine ⟨h, request.pixels, ?_⟩
  rcases committed_eq h.valid with hall | ⟨other, hother⟩
  · rw [hall, h.accepted] at hlast
    exact absurd hlast hnew
  · rw [h.accepted] at hother
    rw [hother, last_on_append] at hlast
    split at hlast
    · rename_i hslot
      rw [Option.some.inj hlast] at hslot
      rw [hother, Option.some.inj hlast, hrecord, ← hslot]
    · exact absurd hlast hnew

/-- `request` -/
theorem request_runs (slot : Slot)
    (h : Knows generation leftover accepted scanned published completion s) :
    ServiceRuns generation leftover
      (request slot generation (lastSequence accepted slot))
      (fun found t => match found with
        | none => Knows generation leftover accepted scanned published completion t
        | some record => Outstanding generation leftover accepted scanned published completion
            slot record t) s := by
  refine Machine.wp_look knows_stable h (fun _ _ _ hnext => hnext.2) (fun _ _ => trivial) ?_
  intro t first ht _
  refine Machine.wp_look knows_stable ht (fun _ _ _ hnext => hnext.2) (fun _ _ => trivial) ?_
  intro t second ht hread
  split
  · rename_i hfound
    obtain ⟨hsame, hvalid⟩ := hfound
    refine Machine.wp_pure outstanding_stable ?_
    have hline : second = t.request slot := hread.1
    rw [hsame, hline] at hvalid ⊢
    exact outstanding_of_line ht hvalid
  · exact Machine.wp_pure knows_stable ht

/-! ## The service and its engine -/

/-- The engine has finished the last job of the service. -/
structure EngineIdle (engine : Engine) (jobSequence : UInt32) : Prop where
  state : engine.state ≠ .busy
  accepted : engine.acceptedSequence = jobSequence
  completed : engine.completedSequence = jobSequence

/-- The engine is drawing the job. -/
structure EngineBusy (engine : Engine) (jobSequence : UInt32) (job : FrameJob) : Prop where
  state : engine.state = .busy
  accepted : engine.acceptedSequence = jobSequence
  completed : engine.completedSequence ≠ jobSequence
  lastJob : engine.lastJob = some job

/-- A submitted job has a new sequence, so it is drawn. -/
theorem submit_busy {engine submitted : Engine} {jobSequence : UInt32} {job : FrameJob}
    (h : EngineIdle engine jobSequence)
    (hsubmit : engine.submit (nextJob jobSequence) job = some submitted) :
    EngineBusy submitted (nextJob jobSequence) job := by
  have hnew : nextJob jobSequence ≠ engine.acceptedSequence := by
    rw [h.accepted]
    exact next_job_ne jobSequence
  unfold Engine.submit at hsubmit
  rw [if_neg hnew] at hsubmit
  repeat' split at hsubmit
  all_goals first
    | cases hsubmit
      refine ⟨rfl, rfl, ?_, rfl⟩
      show engine.completedSequence ≠ nextJob jobSequence
      rw [h.completed]
      exact Ne.symm (next_job_ne jobSequence)
    | exact nomatch hsubmit

/-- No request is active: every completion has been published. -/
structure Vacant (service : Service) (accepted : List Request) (published : List Completion) :
    Prop where
  active : service.active = none
  published : published.length = accepted.length
  completed : ∀ slot, service.completed slot = lastSequence accepted slot
  fresh : service.initialized = false → service.panel = none ∧ service.jobSequence = 0
  engine : ∀ engine, service.panel = some engine → EngineIdle engine service.jobSequence

/-- A request is active: it has been accepted and neither streamed nor completed. -/
structure Active (service : Service) (accepted : List Request) (scanned : List Image)
    (published : List Completion) (engine : Engine) (request : Request) : Prop where
  active : service.active =
    some (request.slot, request.record.sequence, service.jobSequence)
  initialized : service.initialized = true
  last : accepted.getLast? = some request
  published : published.length < accepted.length
  scanned : scanned.length < accepted.length
  completed : ∀ slot, slot ≠ request.slot →
    service.completed slot = lastSequence accepted slot
  panel : service.panel = some engine
  engine : EngineBusy engine service.jobSequence (frameJob request.slot request.record)

/-- The service between two steps. -/
inductive ServiceStage (service : Service) (accepted : List Request) (scanned : List Image)
    (published : List Completion) : Prop where
  | faulted (h : service.faulted = true)
  | vacant (h : Vacant service accepted published)
  | active (engine : Engine) (request : Request)
      (h : Active service accepted scanned published engine request)

/-- The service between two steps, and what it knows. -/
def ServiceIdle (generation : UInt32) (leftover : Slot → Line) (service : Service)
    (s : Shared) : Prop :=
  s.Valid generation leftover ∧ ServiceStage service s.accepted s.scanned s.published

theorem service_idle_stable (service : Service) : (serviceMachine generation leftover).Stable
    (ServiceIdle generation leftover service) := by
  intro s next h hrely
  refine ⟨hrely.valid h.1, ?_⟩
  rw [hrely.accepted, hrely.scanned, hrely.published]
  exact h.2

/-- The service stops here. -/
theorem service_settled {service : Service}
    (h : Knows generation leftover accepted scanned published completion s)
    (hstage : ServiceStage service accepted scanned published) :
    ServiceRuns generation leftover (pure service)
      (fun result => ServiceIdle generation leftover result) s := by
  refine Machine.wp_pure (service_idle_stable service) ⟨h.valid, ?_⟩
  rw [h.accepted, h.scanned, h.published]
  exact hstage

/-- A step of an engine that is not drawing leaves its sequences alone. -/
theorem panel_step_idle {engine : Engine} {jobSequence : UInt32}
    (hengine : EngineIdle engine jobSequence)
    (h : Knows generation leftover accepted scanned published completion s) :
    ServiceRuns generation leftover (panelStep engine)
      (fun result t => EngineIdle result jobSequence ∧
        Knows generation leftover accepted scanned published completion t) s := by
  have hpure : ∀ {t : Shared} (result : Engine), EngineIdle result jobSequence →
      Knows generation leftover accepted scanned published completion t →
      ServiceRuns generation leftover (pure result)
        (fun result t => EngineIdle result jobSequence ∧
          Knows generation leftover accepted scanned published completion t) t := by
    intro t result hresult ht
    refine Machine.wp_pure ?_ ⟨hresult, ht⟩
    exact fun t next ht hrely => ⟨ht.1, knows_stable t next ht.2 hrely⟩
  refine Machine.wp_look knows_stable h (fun _ _ _ hnext => hnext) (fun _ _ => trivial) ?_
  intro t outcome ht _
  obtain ⟨hstate, haccepted, hcompleted⟩ := hengine
  split
  · exact hpure _ ⟨by simp, haccepted, hcompleted⟩ ht
  · contradiction
  · exact hpure _ ⟨by simp, haccepted, hcompleted⟩ ht
  · contradiction
  · exact hpure _ ⟨hstate, haccepted, hcompleted⟩ ht

/-- What a step of a drawing engine comes to. -/
inductive Drawn (engine : Engine) (request : Request) (scanned : List Image) :
    Engine → List Image → Prop where
  | going : Drawn engine request scanned engine scanned
  | failed : Drawn engine request scanned { engine with state := .fault } scanned
  | finished : Drawn engine request scanned engine.complete (scanned ++ [request.image])

/-- A step of a drawing engine streams the slot of the request if it finishes. -/
theorem panel_step_busy {engine : Engine} {jobSequence : UInt32} {request : Request}
    (hengine : EngineBusy engine jobSequence (frameJob request.slot request.record))
    (hlast : accepted.getLast? = some request) (hscanned : scanned.length < accepted.length)
    (h : Knows generation leftover accepted scanned published completion s) :
    ServiceRuns generation leftover (panelStep engine)
      (fun result t => ∃ scanned', Drawn engine request scanned result scanned' ∧
        Knows generation leftover accepted scanned' published completion t) s := by
  have hpure : ∀ {t : Shared} {scanned' : List Image} (result : Engine),
      Drawn engine request scanned result scanned' →
      Knows generation leftover accepted scanned' published completion t →
      ServiceRuns generation leftover (pure result)
        (fun result t => ∃ scanned', Drawn engine request scanned result scanned' ∧
          Knows generation leftover accepted scanned' published completion t) t := by
    intro t scanned' result hdrawn ht
    refine Machine.wp_pure ?_ ⟨scanned', hdrawn, ht⟩
    rintro t next ⟨scanned', hdrawn, ht⟩ hrely
    exact ⟨scanned', hdrawn, knows_stable t next ht hrely⟩
  refine Machine.wp_look knows_stable h (fun _ _ _ hnext => hnext) (fun _ _ => trivial) ?_
  intro t outcome ht _
  rw [hengine.state]
  cases outcome with
  | going => exact hpure _ .going ht
  | failed => exact hpure _ .failed ht
  | finished =>
      rw [hengine.lastJob]
      -- The request is the last one committed, and its pixels are still in the slot.
      have hallowed : ∀ t, Knows generation leftover accepted scanned published completion t →
          ServiceAllowed t (.stream (frameJob request.slot request.record)) := by
        intro t ht
        have hlt : t.scanned.length < t.accepted.length := by
          rw [ht.scanned, ht.accepted]
          exact hscanned
        have hlast' : t.accepted.getLast? = some request := by
          rw [ht.accepted]
          exact hlast
        refine ⟨hlt, request, hlast', rfl, ?_⟩
        have hle := ht.valid.accepted.length_le
        have houtstanding := ht.valid.outstanding
        have hall : t.accepted = t.committed :=
          ht.valid.accepted.eq_of_length (by omega)
        exact ht.valid.shows (by omega) request (hall ▸ hlast')
      refine Machine.wp_perform knows_stable ht hallowed ?_
      intro t _ next ht hnext
      rw [show next = _ from hnext]
      refine hpure _ .finished ⟨valid_stream ht.valid (hallowed t ht), ht.accepted, ?_,
        ht.published, ht.completion⟩
      obtain ⟨_, request', hrequest', _, hshows⟩ := hallowed t ht
      rw [ht.accepted, hlast] at hrequest'
      cases hrequest'
      show t.scanned ++ [_] = scanned ++ [request.image]
      rw [ht.scanned, Request.image, ← hshows]
      rfl

/-! ## A whole step -/

/-- The books of the service after a completion. -/
theorem completed_update {completed : Slot → UInt32} {request : Request}
    (hlast : accepted.getLast? = some request)
    (hcompleted : ∀ slot, slot ≠ request.slot → completed slot = lastSequence accepted slot)
    (slot : Slot) :
    Function.update completed request.slot request.record.sequence slot =
      lastSequence accepted slot := by
  by_cases hslot : slot = request.slot
  · rw [hslot, Function.update_self]
    unfold lastSequence
    rw [last_on_of_last hlast]
  · rw [Function.update_of_ne hslot]
    exact hcompleted slot hslot

/-- An accepted request is submitted. -/
theorem submit_request_runs {service : Service} {engine : Engine} {slot : Slot}
    {record : Record} (hvacant : Vacant service accepted published)
    (hinitialized : service.initialized = true)
    (hengine : EngineIdle engine service.jobSequence)
    (h : Outstanding generation leftover accepted scanned published completion slot record s) :
    ServiceRuns generation leftover (submitRequest generation engine service slot record)
      (fun result => ServiceIdle generation leftover result) s := by
  -- The pixels that the service finds are those of the outstanding request.
  have hpixels : ∀ t pixels, Knows generation leftover accepted scanned published completion t →
      t.committed = accepted ++ [⟨slot, record, pixels⟩] →
      t.readPixels slot (area record.width record.height) = pixels := by
    intro t pixels ht hcommitted
    have hunscanned := outstanding_unscanned ⟨ht, pixels, hcommitted⟩
    exact ht.valid.shows hunscanned ⟨slot, record, pixels⟩
      (by rw [hcommitted, List.getLast?_concat])
  have hallowed : ∀ t, Outstanding generation leftover accepted scanned published completion slot
      record t → ServiceAllowed t (.accept slot record) := by
    intro t ht
    obtain ⟨pixels, hcommitted⟩ := ht.committed
    constructor
    · rw [ht.knows.published, ht.knows.accepted]
      exact hvacant.published
    · rw [hcommitted, ht.knows.accepted, hpixels t pixels ht.knows hcommitted]
  refine Machine.wp_perform outstanding_stable h hallowed ?_
  intro t _ next ht hnext
  rw [show next = _ from hnext]
  obtain ⟨pixels, hcommitted⟩ := ht.committed
  have hknows : Knows generation leftover (accepted ++ [⟨slot, record, pixels⟩]) scanned
      published completion (t.accept slot record) := by
    refine ⟨valid_accept ht.knows.valid (hallowed t ht), ?_, ht.knows.scanned,
      ht.knows.published, ht.knows.completion⟩
    show t.accepted ++ [_] = _
    rw [ht.knows.accepted, hpixels t pixels ht.knows hcommitted]
  have hscanned := ht.knows.valid.scanned.length_le
  rw [List.length_map, ht.knows.scanned, ht.knows.accepted] at hscanned
  have hpublished := hvacant.published
  have hgrown : (accepted ++ [(⟨slot, record, pixels⟩ : Request)]).length =
      accepted.length + 1 := by
    rw [List.length_append, List.length_singleton]
  have hone : (1 : UInt32) ≠ 0 := by decide
  dsimp only
  split
  · refine Machine.wp_bind (Machine.wp_mono (complete_runs (by omega) List.getLast?_concat rfl
      (.inr hone) hknows) ?_)
    rintro _ t ⟨completion, ht⟩
    exact service_settled ht (.faulted rfl)
  · rename_i submitted hsubmit
    refine service_settled hknows (.active submitted ⟨slot, record, pixels⟩ ?_)
    refine ⟨rfl, hinitialized, List.getLast?_concat, by omega, by omega, ?_, rfl,
      submit_busy hengine hsubmit⟩
    intro other hother
    rw [last_sequence_append, if_neg (Ne.symm hother)]
    exact hvacant.completed other

/-- The loop over the slots. -/
theorem admit_request_runs {service : Service} {engine : Engine}
    (hvacant : Vacant service accepted published) (hpanel : service.panel = some engine)
    (slots : List Slot)
    (h : Knows generation leftover accepted scanned published completion s) :
    ServiceRuns generation leftover (admitRequest generation engine service slots)
      (fun result => ServiceIdle generation leftover result) s := by
  have hinitialized : service.initialized = true := by
    by_contra hnot
    have hnone := (hvacant.fresh (Bool.eq_false_iff.2 hnot)).1
    rw [hpanel] at hnone
    exact nomatch hnone
  induction slots generalizing s with
  | nil => exact service_settled h (.vacant hvacant)
  | cons slot rest ih =>
      have hrequest := request_runs slot h
      rw [← hvacant.completed slot] at hrequest
      refine Machine.wp_bind (Machine.wp_mono hrequest ?_)
      intro found t ht
      cases found with
      | none => exact ih ht
      | some record =>
          exact submit_request_runs hvacant hinitialized (hvacant.engine engine hpanel) ht

/-- The end of a step without an active request. -/
theorem admit_ready_vacant {service : Service} {engine : Engine}
    (hvacant : Vacant service accepted published) (hpanel : service.panel = some engine)
    (h : Knows generation leftover accepted scanned published completion s) :
    ServiceRuns generation leftover (admitReady generation engine service)
      (fun result => ServiceIdle generation leftover result) s := by
  unfold admitReady
  split
  · exact service_settled h (.faulted rfl)
  · split
    · exact service_settled h (.vacant hvacant)
    · exact admit_request_runs hvacant hpanel _ h

/-- A step without an active request. -/
theorem step_panel_vacant {service : Service} {engine : Engine}
    (hvacant : Vacant service accepted published) (hpanel : service.panel = some engine)
    (h : Knows generation leftover accepted scanned published completion s) :
    ServiceRuns generation leftover (stepPanel generation service engine)
      (fun result => ServiceIdle generation leftover result) s := by
  refine Machine.wp_bind (Machine.wp_mono
    (panel_step_idle (hvacant.engine engine hpanel) h) ?_)
  rintro stepped t ⟨hengine, ht⟩
  have hnext : Vacant { service with panel := some stepped } accepted published := by
    refine ⟨hvacant.active, hvacant.published, hvacant.completed, ?_, ?_⟩
    · intro hfresh
      have hnone := (hvacant.fresh hfresh).1
      rw [hpanel] at hnone
      exact nomatch hnone
    · intro other hother
      rw [← Option.some.inj hother]
      exact hengine
  have hfinish : finishActive generation stepped { service with panel := some stepped } =
      pure { service with panel := some stepped } := by
    unfold finishActive
    dsimp only
    rw [hvacant.active]
  rw [hfinish]
  exact admit_ready_vacant hnext rfl ht

/-- What becomes of the active request. -/
theorem finish_active_eq {service : Service} {engine : Engine} {slot : Slot}
    {sequence jobSequence : UInt32}
    (hactive : service.active = some (slot, sequence, jobSequence)) :
    finishActive generation engine service =
      if engine.state = .fault ∨ engine.completedSequence = jobSequence then do
        complete slot generation sequence (if engine.state = .fault then 1 else 0)
        pure (service.finish slot sequence (if engine.state = .fault then 1 else 0))
      else pure service := by
  unfold finishActive
  rw [hactive]

/-- A step with an active request. -/
theorem step_panel_active {service : Service} {engine : Engine} {request : Request}
    (hactive : Active service accepted scanned published engine request)
    (h : Knows generation leftover accepted scanned published completion s) :
    ServiceRuns generation leftover (stepPanel generation service engine)
      (fun result => ServiceIdle generation leftover result) s := by
  refine Machine.wp_bind (Machine.wp_mono
    (panel_step_busy hactive.engine hactive.last hactive.scanned h) ?_)
  rintro stepped t ⟨scanned', hdrawn, ht⟩
  have hengine := hactive.engine
  have hone : (1 : UInt32) ≠ 0 := by decide
  rw [finish_active_eq (show Service.active { service with panel := some stepped } = _ from
    hactive.active)]
  cases hdrawn with
  | going =>
      have hnofault : engine.state ≠ .fault := by
        rw [hengine.state]
        decide
      have hsome : service.active.isSome = true := by
        rw [hactive.active]
        rfl
      rw [if_neg (not_or.2 ⟨hnofault, hengine.completed⟩)]
      have hready : admitReady generation engine { service with panel := some engine } =
          pure { service with panel := some engine } := by
        unfold admitReady
        rw [if_neg hnofault, if_pos (.inl hsome)]
      show ServiceRuns generation leftover
        (admitReady generation engine { service with panel := some engine }) _ t
      rw [hready]
      refine service_settled ht (.active engine request ?_)
      exact ⟨hactive.active, hactive.initialized, hactive.last, hactive.published,
        hactive.scanned, hactive.completed, rfl, hengine⟩
  | failed =>
      rw [if_pos (.inl rfl), if_pos rfl]
      refine Machine.wp_assoc (Machine.wp_bind (Machine.wp_mono (complete_runs hactive.published
        hactive.last rfl (.inr hone) ht) ?_))
      rintro _ t ⟨completion, ht⟩
      exact service_settled ht (.faulted rfl)
  | finished =>
      have hready : engine.complete.state ≠ .fault := by simp [Engine.complete]
      have hlength : (scanned ++ [request.image]).length = accepted.length := by
        have houtstanding := h.valid.outstanding
        have haccepted := h.valid.accepted.length_le
        have hscanned := hactive.scanned
        rw [h.scanned] at houtstanding
        rw [h.accepted] at haccepted
        rw [List.length_append, List.length_singleton]
        omega
      rw [if_pos (.inr hengine.accepted), if_neg hready]
      refine Machine.wp_assoc (Machine.wp_bind (Machine.wp_mono (complete_runs hactive.published
        hactive.last rfl (.inl hlength) ht) ?_))
      rintro _ t ⟨completion, ht⟩
      have hvacant : Vacant (Service.finish { service with panel := some engine.complete }
          request.slot request.record.sequence 0) accepted
          (published ++ [⟨request.slot, request.record.sequence, 0⟩]) := by
        refine ⟨rfl, ?_, completed_update hactive.last hactive.completed, ?_, ?_⟩
        · have hpublished := hactive.published
          have hunpublished := h.valid.unpublished
          rw [h.accepted, h.published] at hunpublished
          rw [List.length_append, List.length_singleton]
          omega
        · intro hfresh
          exact absurd (hactive.initialized.symm.trans hfresh) (by decide)
        · intro other hother
          rw [← Option.some.inj hother]
          exact ⟨by simp [Engine.complete], hengine.accepted, hengine.accepted⟩
      exact admit_ready_vacant hvacant rfl ht

/-- The panel is created at the first step; without one the service is faulted. -/
def Initialized (generation : UInt32) (leftover : Slot → Line) (service : Service)
    (s : Shared) : Prop :=
  ServiceIdle generation leftover service s ∧ (service.faulted = true → service.panel = none)

theorem initialize_panel_runs {service : Service} (hfaulted : ¬ service.faulted = true)
    (h : ServiceIdle generation leftover service s) :
    ServiceRuns generation leftover (initializePanel service)
      (fun result => Initialized generation leftover result) s := by
  have hpure : ∀ {t : Shared} (result : Service), Initialized generation leftover result t →
      ServiceRuns generation leftover (pure result)
        (fun result => Initialized generation leftover result) t := by
    intro t result ht
    refine Machine.wp_pure ?_ ht
    exact fun t next ht hrely => ⟨service_idle_stable result t next ht.1 hrely, ht.2⟩
  unfold initializePanel
  split
  · exact hpure service ⟨h, fun hfault => absurd hfault hfaulted⟩
  · rename_i hnot
    refine Machine.wp_look (service_idle_stable service) h (fun _ _ _ hnext => hnext)
      (fun _ _ => trivial) ?_
    intro t created ht _
    obtain ⟨hvalid, hstage⟩ := ht
    cases hstage with
    | faulted hfault => exact absurd hfault hfaulted
    | active engine request hactive => exact absurd hactive.initialized hnot
    | vacant hvacant =>
        obtain ⟨hnone, hjob⟩ := hvacant.fresh (Bool.eq_false_iff.2 hnot)
        cases created with
        | false => exact hpure _ ⟨⟨hvalid, .faulted rfl⟩, fun _ => hnone⟩
        | true =>
            refine hpure _ ⟨⟨hvalid, .vacant ?_⟩, fun hfault => absurd hfault hfaulted⟩
            refine ⟨hvacant.active, hvacant.published, hvacant.completed, ?_, ?_⟩
            · exact fun hfresh => nomatch hfresh
            · intro engine hengine
              rw [← Option.some.inj hengine]
              exact ⟨by simp [Engine.new], hjob.symm, hjob.symm⟩

/-- `Service::step` -/
theorem service_step_runs (service : Service) (h : ServiceIdle generation leftover service s) :
    ServiceRuns generation leftover (serviceStep generation service)
      (fun result => ServiceIdle generation leftover result) s := by
  have hstable := @service_idle_stable generation leftover service
  unfold serviceStep
  split
  · exact Machine.wp_pure hstable h
  · rename_i hfaulted
    refine Machine.wp_look hstable h (fun _ _ _ hnext => hnext) (fun _ _ => trivial) ?_
    intro t authorized ht _
    cases authorized with
    | false => exact Machine.wp_pure hstable ht
    | true =>
        refine Machine.wp_bind (Machine.wp_mono (initialize_panel_runs hfaulted ht) ?_)
        intro service t ht
        obtain ⟨hidle, hpanel⟩ := ht
        have hknows : Knows generation leftover t.accepted t.scanned t.published t.completion t :=
          ⟨hidle.1, rfl, rfl, rfl, rfl⟩
        split
        · exact Machine.wp_pure (service_idle_stable service) hidle
        · rename_i engine hengine
          cases hidle.2 with
          | faulted hfault =>
              rw [hpanel hfault] at hengine
              exact nomatch hengine
          | vacant hvacant => exact step_panel_vacant hvacant hengine hknows
          | active busy request hactive =>
              have hsame := hactive.panel
              rw [hengine] at hsame
              rw [Option.some.inj hsame]
              exact step_panel_active hactive hknows

/-- Any number of steps -/
theorem service_main_runs (count : Nat) (service : Service)
    (h : ServiceIdle generation leftover service s) :
    ServiceRuns generation leftover (serviceMain generation service count)
      (fun _ t => t.Valid generation leftover) s := by
  induction count generalizing service s with
  | zero => exact Machine.wp_pure (fun _ _ hvalid hrely => hrely.valid hvalid) h.1
  | succ count ih =>
      refine Machine.wp_bind (Machine.wp_mono (service_step_runs service h) ?_)
      exact fun after t ht => ih after ht

end

end NanoKvm.Lcd
