import NanoKvm.Lcd.Driver
import NanoKvm.Lcd.Service

/-!
# Slot ownership

`Valid` is the invariant of the shared memory and the logs. The requests are accepted,
streamed and completed in the order in which Linux commits them, and at most one of them
is not streamed yet. Linux writes a slot only when every request has been streamed and the
service does not hold the slot; the service writes only the completion line of the slot it
holds. The operations that are allowed in this sense keep the invariant, and they are
within what the other side relies on.

A completion line keeps the words of an earlier generation until the service writes them,
so the invariant has the lines found at the start as a parameter.
-/

namespace NanoKvm.Lcd

open Exec

/-! ## The last request of a slot -/

/-- The last request of a slot. -/
def lastOn (requests : List Request) (slot : Slot) : Option Request :=
  requests.foldl (fun last request => if request.slot = slot then some request else last) none

theorem last_on_append (requests : List Request) (request : Request) (slot : Slot) :
    lastOn (requests ++ [request]) slot =
      if request.slot = slot then some request else lastOn requests slot := by
  simp [lastOn]

/-- The sequence of the last request of a slot, zero without one. -/
def lastSequence (requests : List Request) (slot : Slot) : UInt32 :=
  match lastOn requests slot with
  | none => 0
  | some request => request.record.sequence

theorem last_sequence_append (requests : List Request) (request : Request) (slot : Slot) :
    lastSequence (requests ++ [request]) slot =
      if request.slot = slot then request.record.sequence else lastSequence requests slot := by
  unfold lastSequence
  rw [last_on_append]
  by_cases hslot : request.slot = slot
  · simp only [if_pos hslot]
  · simp only [if_neg hslot]

/-! ## The invariant -/

/-- The record is a commit of the generation. -/
def Record.Committed (record : Record) (generation : UInt32) : Prop :=
  record.generation = generation ∧ record.sequence ≠ 0 ∧ record.commit = record.sequence

/-- The service has accepted a request of the slot and not published its completion. -/
def Shared.Held (s : Shared) (slot : Slot) : Prop :=
  s.published.length < s.accepted.length ∧
    ∃ request, s.accepted.getLast? = some request ∧ request.slot = slot

/-- The slot is free for Linux: every request has been streamed and the service does not hold it. -/
def Shared.Idle (s : Shared) (slot : Slot) : Prop :=
  s.scanned.length = s.committed.length ∧ ¬ s.Held slot

/-- The completion line reports success for the request. -/
def Shared.Succeeds (s : Shared) (request : Request) : Prop :=
  s.completion request.slot commitIndex = request.record.sequence ∧
    s.completion request.slot 3 = 0

/-- The pixels of the request are in its slot. -/
def Shared.Shows (s : Shared) (request : Request) : Prop :=
  s.readPixels request.slot (area request.record.width request.record.height) = request.pixels

/-- The completion line of a slot that the service does not hold. -/
def Shared.Settled (s : Shared) (leftover : Slot → Line) (slot : Slot) : Prop :=
  match lastOn s.accepted slot with
  | none => s.completion slot = leftover slot
  | some request => s.completion slot commitIndex = request.record.sequence

/-- The invariant of the shared memory. -/
structure Shared.Valid (generation : UInt32) (leftover : Slot → Line) (s : Shared) : Prop where
  accepted : s.accepted <+: s.committed
  scanned : s.scanned <+: s.accepted.map Request.image
  outstanding : s.committed.length ≤ s.scanned.length + 1
  published : s.published.length ≤ s.accepted.length
  unpublished : s.accepted.length ≤ s.published.length + 1
  sequence : ∀ request ∈ s.committed, request.record.sequence ≠ 0
  request : ∀ slot, (Record.ofLine (s.request slot)).Committed generation →
    ∃ request, lastOn s.committed slot = some request ∧
      Record.ofLine (s.request slot) = request.record
  shows : s.scanned.length < s.committed.length →
    ∀ request, s.committed.getLast? = some request → s.Shows request
  unfinished : s.scanned.length < s.committed.length →
    ∀ request, s.committed.getLast? = some request → ¬ s.Succeeds request
  next : s.accepted.length < s.committed.length →
    ∀ request, s.committed.getLast? = some request → ¬ s.Held request.slot
  settled : ∀ slot, ¬ s.Held slot → s.Settled leftover slot

/-- The request hands over this frame. -/
def Request.Carries (request : Request) (frame : Frame) : Prop :=
  request.record.x = frame.x ∧ request.record.y = frame.y ∧
    request.record.width = frame.width ∧ request.record.height = frame.height ∧
    request.pixels = frame.packed

/-- What the driver may do. A call that succeeds has had its frame streamed. -/
def LinuxAllowed (s : Shared) : LinuxOp → Prop
  | .writeRequest slot index word =>
      s.Idle slot ∧ ((s.request slot).set index word) commitIndex = 0
  | .writePixel slot _ _ => s.Idle slot
  | .commit request => s.Idle request.slot ∧
      Record.ofLine ((s.request request.slot).set commitIndex request.record.commit) =
        request.record ∧
      s.Shows request ∧ request.record.sequence ≠ 0 ∧ ¬ s.Succeeds request
  | .returned frame none => ∃ request, s.committed.getLast? = some request ∧
      request.Carries frame ∧ s.scanned = s.committed.map Request.image
  | _ => True

/-- What the service may do. It accepts the one request that is committed and not accepted. -/
def ServiceAllowed (s : Shared) : ServiceOp → Prop
  | .writeCompletion slot index word => s.Held slot ∧
      (s.scanned.length = s.accepted.length ∨
        (index = 3 → word ≠ 0) ∧ (index = commitIndex → word = 0))
  | .publish completion => s.Held completion.slot ∧
      lastSequence s.accepted completion.slot = completion.sequence ∧
      (s.scanned.length = s.accepted.length ∨ s.completion completion.slot 3 ≠ 0)
  | .accept slot record => s.published.length = s.accepted.length ∧
      s.committed = s.accepted ++
        [⟨slot, record, s.readPixels slot (area record.width record.height)⟩]
  | .stream job => s.scanned.length < s.accepted.length ∧
      ∃ request, s.accepted.getLast? = some request ∧
        frameJob request.slot request.record = job ∧ s.Shows request
  | _ => True

/-- What the driver knows of the steps of the service. -/
structure LinuxRely (generation : UInt32) (leftover : Slot → Line) (s next : Shared) : Prop where
  request : next.request = s.request
  pixels : next.pixels = s.pixels
  committed : next.committed = s.committed
  scanned : s.scanned.length ≤ next.scanned.length
  valid : s.Valid generation leftover → next.Valid generation leftover

/-- What the service knows of the steps of the driver. -/
structure ServiceRely (generation : UInt32) (leftover : Slot → Line) (s next : Shared) :
    Prop where
  completion : next.completion = s.completion
  accepted : next.accepted = s.accepted
  scanned : next.scanned = s.scanned
  published : next.published = s.published
  committed : s.scanned.length < s.committed.length → next.committed = s.committed
  valid : s.Valid generation leftover → next.Valid generation leftover

/-- The machine of the driver. -/
def linuxMachine (generation : UInt32) (leftover : Slot → Line) :
    Machine LinuxOp LinuxOp.Ret Shared where
  perform := Shared.LinuxPerforms
  interfere := LinuxRely generation leftover

/-- The machine of the service. -/
def serviceMachine (generation : UInt32) (leftover : Slot → Line) :
    Machine ServiceOp ServiceOp.Ret Shared where
  perform := Shared.ServicePerforms
  interfere := ServiceRely generation leftover

/-! ## Allowed operations keep the invariant -/

section

variable {generation : UInt32} {leftover : Slot → Line} {s : Shared}

/-- The request that was accepted last is the last one on its slot. -/
theorem last_on_of_last {requests : List Request} {request : Request}
    (h : requests.getLast? = some request) : lastOn requests request.slot = some request := by
  obtain ⟨init, rfl⟩ := List.getLast?_eq_some_iff.1 h
  rw [last_on_append, if_pos rfl]

/-- All requests have been accepted, or all but the last. -/
theorem committed_eq (h : s.Valid generation leftover) :
    s.committed = s.accepted ∨ ∃ request, s.committed = s.accepted ++ [request] := by
  obtain ⟨rest, hrest⟩ := h.accepted
  have hlength : s.accepted.length + rest.length = s.committed.length := by
    rw [← hrest, List.length_append]
  have hscanned := h.scanned.length_le
  rw [List.length_map] at hscanned
  have houtstanding := h.outstanding
  match rest, hrest with
  | [], hrest => exact .inl (by rw [← hrest, List.append_nil])
  | [request], hrest => exact .inr ⟨request, hrest.symm⟩
  | _ :: _ :: _, _ =>
      simp only [List.length_cons] at hlength
      omega

/-- The service holds only the slot of the last accepted request. -/
theorem held_unique {slot other : Slot} (hslot : s.Held slot) (hother : s.Held other) :
    slot = other := by
  obtain ⟨_, request, hrequest, rfl⟩ := hslot
  obtain ⟨_, request', hrequest', rfl⟩ := hother
  rw [Option.some.inj (hrequest.symm.trans hrequest')]

/-- While the last request is not streamed, the service holds no slot but that of this request. -/
theorem held_last (h : s.Valid generation leftover) {slot : Slot} (hheld : s.Held slot)
    {request : Request} (hlast : s.committed.getLast? = some request)
    (hslot : request.slot = slot) : s.committed = s.accepted := by
  rcases committed_eq h with heq | ⟨other, heq⟩
  · exact heq
  · refine absurd (hslot ▸ hheld) (h.next ?_ request hlast)
    rw [heq, List.length_append, List.length_singleton]
    exact Nat.lt_succ_self _

theorem line_set_self (line : Line) (index : Fin 16) (word : UInt32) :
    line.set index word index = word := by
  simp [Line.set]

theorem line_set_other (line : Line) {index other : Fin 16} (h : other ≠ index)
    (word : UInt32) : line.set index word other = line other := by
  simp [Line.set, h]

/-- Linux writes a word of a line whose commit is revoked. -/
theorem valid_write_request (h : s.Valid generation leftover) {slot : Slot} {index : Fin 16}
    {word : UInt32} (hidle : s.Idle slot)
    (hcommit : ((s.request slot).set index word) commitIndex = 0) :
    (s.writeRequest slot index word).Valid generation leftover := by
  have hquiet : ¬ s.scanned.length < s.committed.length := by
    rw [hidle.1]
    exact Nat.lt_irrefl _
  refine { h with request := ?_, shows := fun hlt => absurd hlt hquiet }
  intro other hcommitted
  by_cases hother : other = slot
  · subst hother
    have hline : (s.writeRequest other index word).request other =
        (s.request other).set index word := by
      simp [Shared.writeRequest]
    rw [hline] at hcommitted
    obtain ⟨_, hsequence, hsame⟩ := hcommitted
    have hzero : (Record.ofLine ((s.request other).set index word)).commit = 0 := hcommit
    exact absurd (hsame.symm.trans hzero) hsequence
  · have hline : (s.writeRequest slot index word).request other = s.request other := by
      simp [Shared.writeRequest, hother]
    rw [hline] at hcommitted ⊢
    exact h.request other hcommitted

/-- Linux writes a pixel. -/
theorem valid_write_pixel (h : s.Valid generation leftover) {slot : Slot} {index : Nat}
    {pixel : UInt16} (hidle : s.Idle slot) :
    (s.writePixel slot index pixel).Valid generation leftover := by
  have hquiet : ¬ s.scanned.length < s.committed.length := by
    rw [hidle.1]
    exact Nat.lt_irrefl _
  exact { h with shows := fun hlt => absurd hlt hquiet }

/-- Linux commits a request. -/
theorem valid_commit (h : s.Valid generation leftover) {request : Request}
    (hallowed : LinuxAllowed s (.commit request)) :
    (s.commit request).Valid generation leftover := by
  obtain ⟨hidle, hrecord, hshows, hsequence, hfresh⟩ := hallowed
  have hlast : ∀ other, (s.commit request).committed.getLast? = some other → other = request := by
    intro other hother
    have hsome : (s.committed ++ [request]).getLast? = some other := hother
    rw [List.getLast?_concat] at hsome
    exact (Option.some.inj hsome).symm
  have hlength : (s.commit request).committed.length = s.committed.length + 1 := by
    simp [Shared.commit]
  refine { h with
    accepted := h.accepted.trans (List.prefix_append _ _)
    outstanding := ?_, sequence := ?_, request := ?_, shows := ?_, unfinished := ?_
    next := ?_ }
  · have hstreamed := hidle.1
    show (s.commit request).committed.length ≤ s.scanned.length + 1
    omega
  · intro other hother
    rcases List.mem_append.1 hother with hold | hnew
    · exact h.sequence other hold
    · rw [List.mem_singleton.1 hnew]
      exact hsequence
  · intro slot hcommitted
    show ∃ other, lastOn (s.committed ++ [request]) slot = some other ∧ _
    rw [last_on_append]
    by_cases hslot : request.slot = slot
    · subst hslot
      refine ⟨request, by rw [if_pos rfl], ?_⟩
      have hline : (s.commit request).request request.slot =
          (s.request request.slot).set commitIndex request.record.commit := by
        simp [Shared.commit]
      rw [hline]
      exact hrecord
    · have hline : (s.commit request).request slot = s.request slot := by
        simp [Shared.commit, Ne.symm hslot]
      rw [hline] at hcommitted ⊢
      rw [if_neg hslot]
      exact h.request slot hcommitted
  · intro _ other hother
    rw [hlast other hother]
    exact hshows
  · intro _ other hother
    rw [hlast other hother]
    exact hfresh
  · intro _ other hother
    rw [hlast other hother]
    exact hidle.2

/-- The service writes a word of the completion line of the slot it holds. -/
theorem valid_write_completion (h : s.Valid generation leftover) {slot : Slot} {index : Fin 16}
    {word : UInt32} (hallowed : ServiceAllowed s (.writeCompletion slot index word)) :
    (s.writeCompletion slot index word).Valid generation leftover := by
  obtain ⟨hheld, hword⟩ := hallowed
  have hself : (s.writeCompletion slot index word).completion slot =
      (s.completion slot).set index word := by
    simp [Shared.writeCompletion]
  have hother : ∀ {other}, other ≠ slot →
      (s.writeCompletion slot index word).completion other = s.completion other := by
    intro other hne
    simp [Shared.writeCompletion, hne]
  refine { h with unfinished := ?_, settled := ?_ }
  · rintro hlt request hlast ⟨hcommit, hresult⟩
    have hlt : s.scanned.length < s.committed.length := hlt
    have hlast : s.committed.getLast? = some request := hlast
    have hold := h.unfinished hlt request hlast
    by_cases hslot : request.slot = slot
    · -- The request is not streamed, so the word does not make it a success.
      have hall := held_last h hheld hlast hslot
      rw [hslot, hself] at hcommit hresult
      rcases hword with hstreamed | ⟨hthree, hfifteen⟩
      · rw [hall] at hlt
        omega
      · have hne : index ≠ commitIndex := by
          intro heq
          rw [heq, line_set_self, hfifteen heq] at hcommit
          exact h.sequence request (List.mem_of_getLast? hlast) hcommit.symm
        have hne' : index ≠ 3 := by
          intro heq
          rw [heq, line_set_self] at hresult
          exact hthree heq hresult
        rw [line_set_other _ (Ne.symm hne)] at hcommit
        rw [line_set_other _ (Ne.symm hne')] at hresult
        exact hold ⟨hslot ▸ hcommit, hslot ▸ hresult⟩
    · rw [hother hslot] at hcommit hresult
      exact hold ⟨hcommit, hresult⟩
  · intro other hfree
    have hne : other ≠ slot := fun heq => hfree (heq ▸ hheld)
    have hsettled := h.settled other hfree
    unfold Shared.Settled at hsettled ⊢
    rw [hother hne]
    exact hsettled

/-- The service publishes the completion of the slot it holds. -/
theorem valid_publish (h : s.Valid generation leftover) {completion : Completion}
    (hallowed : ServiceAllowed s (.publish completion)) :
    (s.publish completion).Valid generation leftover := by
  obtain ⟨hheld, hsequence, hresult⟩ := hallowed
  have hself : (s.publish completion).completion completion.slot =
      (s.completion completion.slot).set commitIndex completion.sequence := by
    simp [Shared.publish]
  have hother : ∀ {other}, other ≠ completion.slot →
      (s.publish completion).completion other = s.completion other := by
    intro other hne
    simp [Shared.publish, hne]
  have hlength : (s.publish completion).published.length = s.published.length + 1 := by
    simp [Shared.publish]
  have hunpublished := h.unpublished
  have hnone : ∀ slot, ¬ (s.publish completion).Held slot := by
    rintro slot ⟨hlt, _⟩
    have hlt : (s.publish completion).published.length < s.accepted.length := hlt
    omega
  refine { h with
    published := ?_, unpublished := ?_, unfinished := ?_
    next := fun _ request _ => hnone request.slot, settled := ?_ }
  · have hlt := hheld.1
    show (s.publish completion).published.length ≤ s.accepted.length
    omega
  · show s.accepted.length ≤ (s.publish completion).published.length + 1
    omega
  · rintro hlt request hlast ⟨hcommit, hzero⟩
    have hlt : s.scanned.length < s.committed.length := hlt
    have hlast : s.committed.getLast? = some request := hlast
    by_cases hslot : request.slot = completion.slot
    · have hall := held_last h hheld hlast hslot
      rw [hslot, hself, line_set_other _ (by decide)] at hzero
      rcases hresult with hstreamed | hne
      · rw [hall] at hlt
        omega
      · exact hne hzero
    · rw [hother hslot] at hcommit hzero
      exact h.unfinished hlt request hlast ⟨hcommit, hzero⟩
  · intro slot _
    show (s.publish completion).Settled leftover slot
    by_cases hslot : slot = completion.slot
    · subst hslot
      obtain ⟨_, request, hlast, hslot⟩ := hheld
      have hon : lastOn s.accepted completion.slot = some request := by
        rw [← hslot]
        exact last_on_of_last hlast
      have hnext : (s.publish completion).accepted = s.accepted := rfl
      unfold Shared.Settled
      unfold lastSequence at hsequence
      rw [hnext, hon, hself, line_set_self]
      rw [hon] at hsequence
      exact hsequence.symm
    · have hfree : ¬ s.Held slot := fun hslot' => hslot (held_unique hslot' hheld)
      have hsettled := h.settled slot hfree
      unfold Shared.Settled at hsettled ⊢
      rw [hother hslot]
      exact hsettled

/-- The service accepts the outstanding request. -/
theorem valid_accept (h : s.Valid generation leftover) {slot : Slot} {record : Record}
    (hallowed : ServiceAllowed s (.accept slot record)) :
    (s.accept slot record).Valid generation leftover := by
  obtain ⟨hpublished, hcommitted⟩ := hallowed
  have hall : (s.accept slot record).accepted = s.committed := hcommitted.symm
  have hlength : s.committed.length = s.accepted.length + 1 := by
    rw [hcommitted, List.length_append, List.length_singleton]
  refine { h with
    accepted := ?_, scanned := ?_, published := ?_, unpublished := ?_, next := ?_
    settled := ?_ }
  · rw [hall]
    exact List.prefix_rfl
  · show s.scanned <+: ((s.accept slot record).accepted.map Request.image)
    rw [hall]
    exact h.scanned.trans (h.accepted.map Request.image)
  · show s.published.length ≤ (s.accept slot record).accepted.length
    rw [hall]
    omega
  · show (s.accept slot record).accepted.length ≤ s.published.length + 1
    rw [hall]
    omega
  · intro hlt
    rw [hall] at hlt
    exact absurd hlt (Nat.lt_irrefl _)
  · intro other hfree
    have hne : slot ≠ other := by
      rintro rfl
      refine hfree ⟨?_, _, List.getLast?_concat, rfl⟩
      show s.published.length < (s.accept slot record).accepted.length
      rw [hall]
      omega
    have hbefore : ¬ s.Held other := fun hheld => by
      have hlt := hheld.1
      omega
    have hsettled := h.settled other hbefore
    unfold Shared.Settled at hsettled ⊢
    have hon : lastOn (s.accept slot record).accepted other = lastOn s.accepted other := by
      show lastOn (s.accepted ++ [_]) other = _
      rw [last_on_append, if_neg hne]
    rw [hon]
    exact hsettled

/-- The service has streamed the request it holds. -/
theorem valid_stream (h : s.Valid generation leftover) {job : FrameJob}
    (hallowed : ServiceAllowed s (.stream job)) :
    (s.stream job.slot job.x job.y job.width job.height).Valid generation leftover := by
  obtain ⟨hlt, request, hlast, hjob, hshows⟩ := hallowed
  have haccepted := h.accepted.length_le
  have houtstanding := h.outstanding
  have hnext : (s.stream job.slot job.x job.y job.width job.height).scanned =
      s.scanned ++ [request.image] := by
    subst hjob
    simp only [Shared.stream, frameJob, Request.image]
    rw [← hshows]
  have hlength : (s.stream job.slot job.x job.y job.width job.height).scanned.length =
      s.scanned.length + 1 := by
    rw [hnext, List.length_append, List.length_singleton]
  have hquiet : ¬ (s.stream job.slot job.x job.y job.width job.height).scanned.length <
      s.committed.length := by
    omega
  refine { h with
    scanned := ?_, outstanding := ?_
    shows := fun hlt => absurd hlt hquiet, unfinished := fun hlt => absurd hlt hquiet }
  · show (s.stream job.slot job.x job.y job.width job.height).scanned <+:
      s.accepted.map Request.image
    -- Everything but the last accepted request has been streamed before.
    obtain ⟨init, hinit⟩ := List.getLast?_eq_some_iff.1 hlast
    have hmap : s.accepted.map Request.image = init.map Request.image ++ [request.image] := by
      rw [hinit, List.map_append, List.map_singleton]
    have hprefix := h.scanned
    rw [hmap] at hprefix
    have hinitLength : (init.map Request.image).length + 1 = s.accepted.length := by
      rw [hinit, List.length_map, List.length_append, List.length_singleton]
    have hbefore : s.scanned <+: init.map Request.image :=
      List.prefix_of_prefix_length_le hprefix (List.prefix_append _ _) (by omega)
    have heq : s.scanned = init.map Request.image := hbefore.eq_of_length (by omega)
    rw [hnext, hmap, heq]
  · show s.committed.length ≤
      (s.stream job.slot job.x job.y job.width job.height).scanned.length + 1
    omega

/-- Allowed operations of the driver keep the invariant. -/
theorem valid_linux (h : s.Valid generation leftover) {operation : LinuxOp}
    (hallowed : LinuxAllowed s operation) {result : operation.Ret} {next : Shared}
    (hnext : s.LinuxPerforms operation result next) : next.Valid generation leftover := by
  cases operation with
  | writeRequest slot index word =>
      rw [show next = _ from hnext]
      exact valid_write_request h hallowed.1 hallowed.2
  | writePixel slot index pixel =>
      rw [show next = _ from hnext]
      exact valid_write_pixel h hallowed
  | commit request =>
      rw [show next = _ from hnext]
      exact valid_commit h hallowed
  | readCompletion | arrange =>
      rw [hnext.2]
      exact h
  | nextFrame | lock | turns | checkGeneration | beginCpuAccess | returned =>
      rw [show next = s from hnext]
      exact h

/-- Allowed operations of the service keep the invariant. -/
theorem valid_service (h : s.Valid generation leftover) {operation : ServiceOp}
    (hallowed : ServiceAllowed s operation) {result : operation.Ret} {next : Shared}
    (hnext : s.ServicePerforms operation result next) : next.Valid generation leftover := by
  cases operation with
  | writeCompletion slot index word =>
      rw [show next = _ from hnext]
      exact valid_write_completion h hallowed
  | publish completion =>
      rw [show next = _ from hnext]
      exact valid_publish h hallowed
  | accept slot record =>
      rw [show next = _ from hnext]
      exact valid_accept h hallowed
  | stream job =>
      rw [show next = _ from hnext]
      exact valid_stream h hallowed
  | readRequest | arrange =>
      rw [hnext.2]
      exact h
  | authorized | newPanel | advance =>
      rw [show next = s from hnext]
      exact h

/-- The service can rely on what the driver is allowed to do. -/
theorem linux_rely {operation : LinuxOp} (hallowed : LinuxAllowed s operation)
    {result : operation.Ret} {next : Shared} (hnext : s.LinuxPerforms operation result next) :
    ServiceRely generation leftover s next := by
  have hvalid : s.Valid generation leftover → next.Valid generation leftover :=
    fun h => valid_linux h hallowed hnext
  have hnothing : next = s → ServiceRely generation leftover s next := by
    intro heq
    exact ⟨by rw [heq], by rw [heq], by rw [heq], by rw [heq], fun _ => by rw [heq], hvalid⟩
  cases operation with
  | writeRequest slot index word =>
      cases (show next = _ from hnext)
      exact ⟨rfl, rfl, rfl, rfl, fun _ => rfl, hvalid⟩
  | writePixel slot index pixel =>
      cases (show next = _ from hnext)
      exact ⟨rfl, rfl, rfl, rfl, fun _ => rfl, hvalid⟩
  | commit request =>
      cases (show next = _ from hnext)
      refine ⟨rfl, rfl, rfl, rfl, fun hlt => ?_, hvalid⟩
      have hstreamed := hallowed.1.1
      omega
  | readCompletion | arrange => exact hnothing hnext.2
  | nextFrame | lock | turns | checkGeneration | beginCpuAccess | returned =>
      exact hnothing hnext

/-- The driver can rely on what the service is allowed to do. -/
theorem service_rely {operation : ServiceOp} (hallowed : ServiceAllowed s operation)
    {result : operation.Ret} {next : Shared} (hnext : s.ServicePerforms operation result next) :
    LinuxRely generation leftover s next := by
  have hvalid : s.Valid generation leftover → next.Valid generation leftover :=
    fun h => valid_service h hallowed hnext
  have hnothing : next = s → LinuxRely generation leftover s next := by
    intro heq
    exact ⟨by rw [heq], by rw [heq], by rw [heq], by rw [heq], hvalid⟩
  cases operation with
  | writeCompletion slot index word =>
      cases (show next = _ from hnext)
      exact ⟨rfl, rfl, rfl, Nat.le_refl _, hvalid⟩
  | publish completion =>
      cases (show next = _ from hnext)
      exact ⟨rfl, rfl, rfl, Nat.le_refl _, hvalid⟩
  | accept slot record =>
      cases (show next = _ from hnext)
      exact ⟨rfl, rfl, rfl, Nat.le_refl _, hvalid⟩
  | stream job =>
      cases (show next = _ from hnext)
      refine ⟨rfl, rfl, rfl, ?_, hvalid⟩
      simp [Shared.stream]
  | readRequest | arrange => exact hnothing hnext.2
  | authorized | newPanel | advance => exact hnothing hnext

end

end NanoKvm.Lcd
