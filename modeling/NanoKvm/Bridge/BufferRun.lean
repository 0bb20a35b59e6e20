import NanoKvm.Bridge.BufferStart

/-!
# The buffers of a running bridge

Every stretch of the loop of `live_bridge_vpss` keeps `Owned`, whatever the queues return of what
they were given, and the set-up ends with it. `live_buffers_owned` puts that together: at the top of
every turn the variables say where the buffers are, and the branches for a buffer that cannot be
there are not taken.
-/

namespace NanoKvm.Bridge

open Exec

/-- The messages of the branches for a buffer that cannot be there. -/
def unexpectedMessages : List String :=
  ["no usable free middle buffer", "encoder returned an unexpected output buffer",
    "scaler returned an unexpected capture buffer", "scaler returned an invalid output buffer"]

/-- One of those branches is taken. -/
def unexpected : Event Call Call.Ret → Bool
  | ⟨.report message, _⟩ => message ∈ unexpectedMessages
  | _ => false

/-! ## What the calls do to the queues -/

section

variable {history later : List (Event Call Call.Ret)} {event : Event Call Call.Ret}

theorem Returning.before (h : Returning (history ++ later)) : Returning history := by
  intro queue hnone
  apply h queue
  rw [Ledger.settle_append, hnone]
  rfl

theorem Returning.settled (h : Returning history) (queue : Waiting) :
    queue.ledger.settle history 0 = some (waiting history queue) := by
  obtain ⟨held, hheld⟩ := Option.ne_none_iff_exists'.mp (h queue)
  rw [waiting, hheld, Option.getD_some]

theorem waiting_quiet (h : ∀ queue : Waiting, queue.ledger.gains event = none ∧
    queue.ledger.returns event = none) : waiting (history ++ [event]) = waiting history := by
  funext queue
  rw [waiting, waiting, Ledger.settle_concat]
  cases queue.ledger.settle history 0 with
  | none => rfl
  | some held => rw [Option.bind_some, Ledger.enter_quiet (h queue).1 (h queue).2]

variable (queue : Waiting) {memory : BufMemory}

/-- The call of a queue returns one of its buffers. -/
theorem waiting_returned {buffer : Buffer}
    (h : Returning (history ++ [⟨.dqbuf queue.side.1 queue.side.2 memory, .buffer buffer⟩])) :
    buffer.index ∈ waiting history queue ∧
      waiting (history ++ [⟨.dqbuf queue.side.1 queue.side.2 memory, .buffer buffer⟩]) =
        Function.update (waiting history) queue ((waiting history queue).erase buffer.index) := by
  have henter : ∀ other : Waiting, waiting
      (history ++ [⟨.dqbuf queue.side.1 queue.side.2 memory, .buffer buffer⟩]) other =
        (other.ledger.enter ⟨.dqbuf queue.side.1 queue.side.2 memory, .buffer buffer⟩
          (waiting history other)).getD 0 := by
    intro other
    rw [waiting, Ledger.settle_concat, h.before.settled, Option.bind_some]
  have hself : queue.ledger.returns ⟨.dqbuf queue.side.1 queue.side.2 memory, .buffer buffer⟩ =
      some buffer.index := if_pos rfl
  have hmem : buffer.index ∈ waiting history queue := by
    have hsettled := h queue
    rw [Ledger.settle_concat, h.before.settled, Option.bind_some,
      Ledger.enter_returns rfl hself] at hsettled
    by_contra hout
    exact hsettled (if_neg hout)
  refine ⟨hmem, funext fun other => ?_⟩
  rw [henter other]
  by_cases heq : other = queue
  · subst heq
    rw [Function.update_self, Ledger.enter_returns rfl hself, if_pos hmem, Option.getD_some]
  · rw [Function.update_of_ne heq, Ledger.enter_quiet rfl (if_neg (side_other heq)),
      Option.getD_some]

/-- The queue is given a buffer. -/
theorem waiting_given {index bytesused : UInt32} {fd : Option Nat} (h : Returning history) :
    waiting (history ++ [⟨.qbuf queue.side.1 queue.side.2 memory index bytesused fd, true⟩]) =
      Function.update (waiting history) queue (waiting history queue + {index}) := by
  funext other
  rw [waiting, Ledger.settle_concat, h.settled, Option.bind_some]
  by_cases heq : other = queue
  · subst heq
    rw [Function.update_self, Ledger.enter_gains (if_pos rfl) rfl, Option.getD_some]
  · rw [Function.update_of_ne heq, Ledger.enter_quiet (if_neg (side_other heq)) rfl,
      Option.getD_some]

end

/-! ## What the loop keeps -/

/-- While the queues return only what they have, the variables say where the buffers are, and
nothing more has been reported. -/
def Kept (seen : List (Event Call Call.Ret)) (live : Live)
    (history : List (Event Call Call.Ret)) : Prop :=
  Returning history → Owned (waiting history) live ∧ history.filter unexpected = seen

/-- What holds where the loop is left. -/
def Quit (seen : List (Event Call Call.Ret)) (_ : Live)
    (history : List (Event Call Call.Ret)) : Prop :=
  Returning history → history.filter unexpected = seen

/-- The call moves none of the buffers and reports nothing. -/
def Unqueued (request : Call) : Prop :=
  ∀ result, (∀ queue : Waiting, queue.ledger.gains ⟨request, result⟩ = none ∧
    queue.ledger.returns ⟨request, result⟩ = none) ∧ unexpected ⟨request, result⟩ = false

/-- The program keeps the buffers in order. -/
def KeepsOwned {α : Type} (program : Bridging α) : Prop :=
  ∀ seen live history, Kept seen live history →
    program.wp (fun _ => Kept seen) (Quit seen) live history

section

variable {α β : Type} {seen history : List (Event Call Call.Ret)} {live : Live}

theorem Kept.quit (h : Kept seen live history) : Quit seen live history :=
  fun hreturning => (h hreturning).2

theorem Kept.unqueued (h : Kept seen live history) {event : Event Call Call.Ret}
    (hevent : Unqueued event.operation) : Kept seen live (history ++ [event]) := by
  intro hreturning
  obtain ⟨howned, hseen⟩ := h hreturning.before
  obtain ⟨hqueues, hexpected⟩ := hevent event.result
  refine ⟨by rwa [waiting_quiet hqueues], ?_⟩
  rw [List.filter_append, hseen, List.filter_cons_of_neg (by simpa using hexpected),
    List.filter_nil, List.append_nil]

theorem Kept.same {after : Live} (h : Kept seen live history)
    (hview : bufferView after = bufferView live) : Kept seen after history := by
  intro hreturning
  obtain ⟨howned, hseen⟩ := h hreturning
  simp only [bufferView, Prod.mk.injEq] at hview
  obtain ⟨hmid, hcapture, hstates, hfree, hheld⟩ := hview
  exact ⟨howned.same hmid hcapture hstates hfree hheld, hseen⟩

theorem owned_bind {program : Bridging α} {next : α → Bridging β} (h : KeepsOwned program)
    (hnext : ∀ value, KeepsOwned (next value)) : KeepsOwned (program >>= next) := by
  intro seen live history hkept
  refine Attempt.wp_bind.mpr (Attempt.wp_mono (h seen live history hkept) ?_
    fun _ _ hexit => hexit)
  exact fun value last events hlast => hnext value seen last events hlast

/-- The rule of a program that moves none of the buffers. -/
theorem owned_steady {program : Bridging α} (h : program.Steady bufferView Unqueued) :
    KeepsOwned program := by
  intro seen live history hkept
  have hkeep : ∀ history event, Unqueued event.operation → Kept seen live history →
      Kept seen live (history ++ [event]) := fun history event hevent h => h.unqueued hevent
  refine Attempt.wp_mono (Attempt.wp_steady hkeep h hkept) ?_ ?_
  · exact fun value last events hlast => hlast.2.same hlast.1
  · exact fun last events hlast => hlast.2.quit

end

/-! ### Programs that move none of the buffers -/

/-- The program moves none of the buffers and leaves their variables alone. -/
abbrev Aside {α : Type} (program : Bridging α) : Prop := program.Steady bufferView Unqueued

section

variable {α : Type} {opts : BridgeOptions} {progress : Bool}

theorem aside_call {request : Call} (h : Unqueued request) : Aside (call request) :=
  Attempt.steady_perform h

theorem unqueued_die_step {initStep : String} : Unqueued (.dieStep initStep) :=
  fun _ => ⟨fun _ => ⟨rfl, rfl⟩, rfl⟩

theorem aside_goto_out_errno {initStep : String} : Aside (gotoOutErrno initStep : Bridging α) :=
  steady_goto_out_errno unqueued_die_step

theorem aside_need_true {initStep : String} {success : Bool} :
    Aside (needTrue initStep success) :=
  steady_need_true unqueued_die_step

theorem unqueued_report {message : String} (h : message ∉ unexpectedMessages) :
    Unqueued (.report message) :=
  fun _ => ⟨fun _ => ⟨rfl, rfl⟩, by simpa [unexpected] using h⟩

theorem blind_buffer_view : Blind bufferView := fun _ _ _ => rfl

theorem connecting_unqueued (request : Call) (h : Connecting request) : Unqueued request := by
  cases request <;> first | exact fun _ => ⟨fun _ => ⟨rfl, rfl⟩, rfl⟩ | exact h.elim

/-- What the connection does. -/
theorem aside_connecting {program : Bridging α} (h : program.Steady bufferView Connecting) :
    Aside program :=
  Attempt.steady_mono h (fun _ _ hsame => hsame) connecting_unqueued

theorem aside_rtsp_close : Aside rtspClose :=
  aside_connecting (steady_rtsp_close blind_buffer_view)

theorem aside_rtsp_offer {payload : List UInt8} {ptsMs : UInt64} :
    Aside (rtspOffer opts payload ptsMs) := by
  refine Attempt.steady_bind (aside_call fun _ => ⟨fun _ => ⟨rfl, rfl⟩, rfl⟩) fun allocated => ?_
  split
  · exact aside_connecting (steady_offer_buffer blind_buffer_view fun _ => rfl)
  · exact aside_rtsp_close

theorem aside_audio_drain : Aside audioDrain := by
  have hdiscard : Aside (do if ← call .audioDiscard then gotoOut else pure () : Bridging Unit) := by
    refine Attempt.steady_bind (aside_call fun _ => ⟨fun _ => ⟨rfl, rfl⟩, rfl⟩) fun failed => ?_
    split
    · exact Attempt.steady_fail
    · exact Attempt.steady_pure
  refine Attempt.steady_bind Attempt.steady_get fun live => ?_
  split
  · split
    · exact hdiscard
    · refine Attempt.steady_bind (aside_call fun _ => ⟨fun _ => ⟨rfl, rfl⟩, rfl⟩) fun drained => ?_
      cases drained with
      | done => exact Attempt.steady_pure
      | failed => exact Attempt.steady_fail
      | unsent => exact Attempt.steady_bind aside_rtsp_close fun _ => hdiscard
  · exact Attempt.steady_pure

theorem aside_stop_requested : Aside stopRequested := by
  refine Attempt.steady_bind Attempt.steady_get fun live => ?_
  split
  · exact Attempt.steady_pure
  · exact aside_call fun _ => ⟨fun _ => ⟨rfl, rfl⟩, rfl⟩

theorem aside_loop_top : Aside loopTop := by
  refine Attempt.steady_bind aside_stop_requested fun stop => ?_
  split
  · exact Attempt.steady_pure
  · exact Attempt.steady_bind aside_audio_drain fun _ => Attempt.steady_pure

theorem aside_after_encoded : Aside (afterEncoded progress) := by
  refine Attempt.steady_bind aside_stop_requested fun stop => ?_
  split
  · exact Attempt.steady_pure
  · exact Attempt.steady_pure

/-- The encoder's own buffers are not among those that go round. -/
theorem aside_encoder_capture {index bytesused : UInt32} :
    Aside (queueBuffer .encoder .capture index bytesused) := by
  refine aside_call fun result => ⟨fun queue => ?_, rfl⟩
  cases result <;> cases queue <;> exact ⟨rfl, rfl⟩

theorem aside_count_frame {index : UInt32} : Aside (countFrame opts index) := by
  refine Attempt.steady_bind (Attempt.steady_modify fun _ => rfl) fun _ => ?_
  refine Attempt.steady_bind Attempt.steady_get fun live => ?_
  split
  · exact Attempt.steady_bind (Attempt.steady_modify fun _ => rfl) fun _ => aside_after_encoded
  · refine Attempt.steady_bind aside_encoder_capture fun queued => ?_
    exact Attempt.steady_bind aside_need_true fun _ => Attempt.steady_pure

theorem aside_forward {buffer : Buffer} : Aside (forward opts buffer) := by
  refine Attempt.steady_bind Attempt.steady_get fun live => ?_
  split
  · exact steady_report_out (unqueued_report (by decide))
  refine Attempt.steady_bind ?_ fun ptsMs => Attempt.steady_bind ?_ fun _ =>
    Attempt.steady_bind ?_ fun _ => aside_count_frame
  · unfold ptsOf
    dsimp only
    split
    · exact aside_call fun _ => ⟨fun _ => ⟨rfl, rfl⟩, rfl⟩
    · exact Attempt.steady_pure
  · refine Attempt.steady_bind Attempt.steady_get fun live => ?_
    split
    · exact Attempt.steady_pure
    · exact Attempt.steady_bind (aside_call fun _ => ⟨fun _ => ⟨rfl, rfl⟩, rfl⟩) fun _ =>
        aside_need_true
  · unfold offer
    split
    · exact aside_rtsp_offer
    · exact Attempt.steady_pure

theorem aside_drain_encoded : Aside (drainEncoded opts progress) := by
  refine Attempt.steady_bind (aside_call fun result => ⟨fun queue => ?_, rfl⟩) fun dequeued => ?_
  · cases result <;> cases queue <;> exact ⟨rfl, rfl⟩
  · cases dequeued with
    | again => exact aside_after_encoded
    | error => exact aside_goto_out_errno
    | buffer buffer => exact aside_forward

theorem aside_due : Aside (due opts) := by
  unfold due
  split
  · exact Attempt.steady_pure
  · refine Attempt.steady_bind (aside_call fun _ => ⟨fun _ => ⟨rfl, rfl⟩, rfl⟩) fun now => ?_
    refine Attempt.steady_bind Attempt.steady_get fun live => ?_
    exact Attempt.steady_bind (Attempt.steady_modify fun _ => rfl) fun _ => Attempt.steady_pure

theorem aside_end_turn : Aside (endTurn progress) := by
  unfold endTurn
  split
  · exact Attempt.steady_pure
  · refine Attempt.steady_bind (aside_call fun _ => ⟨fun _ => ⟨rfl, rfl⟩, rfl⟩) fun polled => ?_
    exact Attempt.steady_bind aside_need_true fun _ => Attempt.steady_pure

end

/-! ### Programs that move a buffer -/

section

variable {α : Type} {opts : BridgeOptions} {formats : Formats} {progress : Bool}
  {seen history : List (Event Call Call.Ret)} {live : Live} {event : Event Call Call.Ret}

/-- A call that reports nothing. -/
theorem seen_silent (h : history.filter unexpected = seen) (hevent : unexpected event = false) :
    (history ++ [event]).filter unexpected = seen := by
  rw [List.filter_append, h, List.filter_cons_of_neg (by simpa using hevent), List.filter_nil,
    List.append_nil]

/-- A queue has just been given a buffer. -/
def Enqueued (queue : Waiting) (index : UInt32) (history later : List (Event Call Call.Ret)) :
    Prop :=
  Returning later → Returning history ∧
    later.filter unexpected = history.filter unexpected ∧
    waiting later = Function.update (waiting history) queue (waiting history queue + {index})

/-- The rule of giving a queue a buffer. -/
theorem wp_enqueue (queue : Waiting) {memory : BufMemory} {index bytesused : UInt32}
    {fd : Option Nat} {initStep : String} {next : Unit → Bridging α}
    {post : α → Live → List (Event Call Call.Ret) → Prop} (h : Quit seen live history)
    (hnext : ∀ later, Enqueued queue index history later →
      (next ()).wp post (Quit seen) live later) :
    (call (.qbuf queue.side.1 queue.side.2 memory index bytesused fd) >>= fun success =>
      needTrue initStep success >>= next).wp post (Quit seen) live history := by
  refine Attempt.wp_bind.mpr (Attempt.wp_perform.mpr fun success => ?_)
  have hseen : Quit seen live (history ++
      [⟨.qbuf queue.side.1 queue.side.2 memory index bytesused fd, success⟩]) :=
    fun hreturning => seen_silent (h hreturning.before) rfl
  cases success with
  | false =>
      refine Attempt.wp_bind.mpr (Attempt.wp_bind.mpr (Attempt.wp_perform.mpr fun _ =>
        Attempt.wp_fail.mpr ?_))
      exact fun hreturning => seen_silent (hseen hreturning.before) rfl
  | true =>
      refine Attempt.wp_bind.mpr (Attempt.wp_pure.mpr (hnext _ fun hreturning => ?_))
      exact ⟨hreturning.before, seen_silent rfl rfl, waiting_given queue hreturning.before⟩

/-- A branch that is not taken. -/
theorem wp_report_unreached {message : String} {post : α → Live → List (Event Call Call.Ret) → Prop}
    (h : ¬ Returning history) :
    (reportOut message : Bridging α).wp post (Quit seen) live history :=
  Attempt.wp_bind.mpr (Attempt.wp_perform.mpr fun _ => Attempt.wp_fail.mpr
    fun hreturning => absurd hreturning.before h)

/-- A queue has returned this buffer, and the variables are as they were before that. -/
def InHand (seen : List (Event Call Call.Ret)) (queue : Waiting) (index : UInt32) (live : Live)
    (history : List (Event Call Call.Ret)) : Prop :=
  Returning history → history.filter unexpected = seen ∧ ∃ queues, Owned queues live ∧
    index ∈ queues queue ∧
    waiting history = Function.update queues queue ((queues queue).erase index)

theorem InHand.quit {queue : Waiting} {index : UInt32} (h : InHand seen queue index live history) :
    Quit seen live history :=
  fun hreturning => (h hreturning).1

/-- The rule of asking a queue for a buffer. -/
theorem wp_dequeue (queue : Waiting) {memory : BufMemory} {next : Dequeued → Bridging α}
    {post : α → Live → List (Event Call Call.Ret) → Prop} (h : Kept seen live history)
    (hnone : ∀ result history, (∀ buffer, result ≠ .buffer buffer) → Kept seen live history →
      (next result).wp post (Quit seen) live history)
    (hbuffer : ∀ buffer history, InHand seen queue buffer.index live history →
      (next (.buffer buffer)).wp post (Quit seen) live history) :
    (call (.dqbuf queue.side.1 queue.side.2 memory) >>= next).wp post (Quit seen) live history := by
  refine Attempt.wp_bind.mpr (Attempt.wp_perform.mpr fun result => ?_)
  cases hresult : result with
  | buffer buffer =>
      refine hbuffer buffer _ fun hreturning => ?_
      obtain ⟨howned, hseen⟩ := h hreturning.before
      obtain ⟨hmem, hwaiting⟩ := waiting_returned queue hreturning
      exact ⟨seen_silent hseen rfl, _, howned, hmem, hwaiting⟩
  | again =>
      refine hnone .again _ (fun buffer heq => by cases heq) fun hreturning => ?_
      obtain ⟨howned, hseen⟩ := h hreturning.before
      rw [waiting_quiet fun other => ⟨rfl, rfl⟩]
      exact ⟨howned, seen_silent hseen rfl⟩
  | error =>
      refine hnone .error _ (fun buffer heq => by cases heq) fun hreturning => ?_
      obtain ⟨howned, hseen⟩ := h hreturning.before
      rw [waiting_quiet fun other => ⟨rfl, rfl⟩]
      exact ⟨howned, seen_silent hseen rfl⟩

theorem keeps_owned_encoder_output : KeepsOwned (drainEncoderOutput progress) := by
  intro seen live history h
  refine wp_dequeue .encoderOutput h ?_ ?_
  · intro result history hnone hkept
    cases result with
    | again => exact Attempt.wp_pure.mpr hkept
    | error => exact owned_steady aside_goto_out_errno seen live history hkept
    | buffer buffer => exact absurd rfl (hnone buffer)
  · intro buffer history hhand
    refine Attempt.wp_bind.mpr (Attempt.wp_get.mpr ?_)
    split
    · -- the buffer was in the encoder's queue, and its state says so
      rename_i hodd
      refine wp_report_unreached fun hreturning => ?_
      obtain ⟨-, queues, howned, hmem, -⟩ := hhand hreturning
      obtain ⟨hindex, hstate⟩ := howned.at_encoder hmem
      rcases hodd with hout | hother
      · exact absurd hindex (UInt32.not_lt.mpr hout)
      · exact hother hstate
    · refine Attempt.wp_bind.mpr (Attempt.wp_modify.mpr (Attempt.wp_bind.mpr
        (Attempt.wp_modify.mpr (Attempt.wp_pure.mpr fun hreturning => ?_))))
      obtain ⟨hseen, queues, howned, hmem, hwaiting⟩ := hhand hreturning
      rw [hwaiting]
      exact ⟨howned.encoder_done hmem, hseen⟩

theorem keeps_owned_scaler_capture : KeepsOwned (drainScalerCapture formats progress) := by
  intro seen live history h
  refine wp_dequeue .scalerCapture h ?_ ?_
  · intro result history hnone hkept
    cases result with
    | again => exact Attempt.wp_pure.mpr hkept
    | error => exact owned_steady aside_goto_out_errno seen live history hkept
    | buffer buffer => exact absurd rfl (hnone buffer)
  · intro buffer history hhand
    refine Attempt.wp_bind.mpr (Attempt.wp_get.mpr ?_)
    split
    · -- the buffer was in the scaler's queue, and its state says so
      rename_i hodd
      refine wp_report_unreached fun hreturning => ?_
      obtain ⟨-, queues, howned, hmem, -⟩ := hhand hreturning
      obtain ⟨hindex, hstate⟩ := howned.at_vpss hmem
      rcases hodd with hout | hother
      · exact absurd hindex (UInt32.not_lt.mpr hout)
      · exact hother hstate
    · refine wp_enqueue .encoderOutput hhand.quit fun later hlater => ?_
      refine Attempt.wp_bind.mpr (Attempt.wp_modify.mpr (Attempt.wp_pure.mpr
        fun hreturning => ?_))
      obtain ⟨hbefore, hfilter, hgiven⟩ := hlater hreturning
      obtain ⟨hseen, queues, howned, hmem, hwaiting⟩ := hhand hbefore
      rw [hgiven, hwaiting]
      exact ⟨howned.scaler_filled hmem, hfilter.trans hseen⟩

theorem keeps_owned_scaler_output : KeepsOwned (drainScalerOutput progress) := by
  intro seen live history h
  refine wp_dequeue .scalerOutput h ?_ ?_
  · intro result history hnone hkept
    cases result with
    | again => exact Attempt.wp_pure.mpr hkept
    | error => exact owned_steady aside_goto_out_errno seen live history hkept
    | buffer buffer => exact absurd rfl (hnone buffer)
  · intro buffer history hhand
    refine Attempt.wp_bind.mpr (Attempt.wp_get.mpr ?_)
    split
    · rename_i hout
      refine wp_report_unreached fun hreturning => ?_
      obtain ⟨-, queues, howned, hmem, -⟩ := hhand hreturning
      exact absurd (howned.at_scaler hmem) (UInt32.not_lt.mpr hout)
    · refine wp_enqueue .captureQueue hhand.quit fun later hlater => ?_
      refine Attempt.wp_pure.mpr fun hreturning => ?_
      obtain ⟨hbefore, hfilter, hgiven⟩ := hlater hreturning
      obtain ⟨hseen, queues, howned, hmem, hwaiting⟩ := hhand hbefore
      rw [hgiven, hwaiting]
      exact ⟨howned.scaler_done hmem, hfilter.trans hseen⟩

theorem keeps_owned_hold : KeepsOwned hold := by
  intro seen live history h
  refine Attempt.wp_bind.mpr (Attempt.wp_get.mpr ?_)
  split
  · rename_i hheld
    refine wp_dequeue .captureQueue h ?_ ?_
    · intro result history hnone hkept
      cases result with
      | again => exact Attempt.wp_pure.mpr hkept
      | error => exact owned_steady aside_goto_out_errno seen live history hkept
      | buffer buffer => exact absurd rfl (hnone buffer)
    · intro buffer history hhand
      refine Attempt.wp_modify.mpr fun hreturning => ?_
      obtain ⟨hseen, queues, howned, hmem, hwaiting⟩ := hhand hreturning
      rw [hwaiting]
      exact ⟨howned.take hheld hmem, hseen⟩
  · exact Attempt.wp_pure.mpr h

theorem wp_skip (h : Kept seen live history) (hheld : live.heldCapture ≠ uint32Max) :
    (skip live.heldCapture).wp (fun _ => Kept seen) (Quit seen) live history := by
  refine wp_enqueue .captureQueue h.quit fun later hlater => ?_
  refine Attempt.wp_bind.mpr (Attempt.wp_modify.mpr (Attempt.wp_pure.mpr fun hreturning => ?_))
  obtain ⟨hbefore, hfilter, hgiven⟩ := hlater hreturning
  obtain ⟨howned, hseen⟩ := h hbefore
  rw [hgiven]
  exact ⟨(howned.give hheld .captureQueue (.inl rfl)).same rfl rfl rfl rfl rfl,
    hfilter.trans hseen⟩

theorem wp_scale (h : Kept seen live history) (hheld : live.heldCapture ≠ uint32Max)
    (hfree : live.freeMid ≠ 0) :
    (scale formats live.heldCapture).wp (fun _ => Kept seen) (Quit seen) live history := by
  refine Attempt.wp_bind.mpr (Attempt.wp_get.mpr ?_)
  dsimp only
  split
  · -- `free_mid` is not zero, so there is a free one
    rename_i hnone
    refine wp_report_unreached fun hreturning => ?_
    have hlt := (h hreturning).1.free_index hfree
    omega
  refine wp_enqueue .scalerOutput h.quit fun middle hmiddle => ?_
  have hquit : Quit seen live middle := fun hreturning =>
    (hmiddle hreturning).2.1.trans (h.quit (hmiddle hreturning).1)
  refine wp_enqueue .scalerCapture hquit fun later hlater => ?_
  refine Attempt.wp_bind.mpr (Attempt.wp_modify.mpr (Attempt.wp_modify.mpr fun hreturning => ?_))
  obtain ⟨hmiddle', hfilter, hgiven⟩ := hlater hreturning
  obtain ⟨hbefore, hfirst, hheldGiven⟩ := hmiddle hmiddle'
  obtain ⟨howned, hseen⟩ := h hbefore
  have hlt := howned.free_index hfree
  have hnat : (UInt32.ofNat (live.midState.idxOf .free)).toNat = live.midState.idxOf .free :=
    UInt32.toNat_ofNat_of_lt' (hlt.trans live.mid.count.toNat_lt)
  have hindex : UInt32.ofNat (live.midState.idxOf .free) < live.mid.count := by
    rw [UInt32.lt_iff_toNat_lt, hnat]
    exact hlt
  have hstate : live.midStateAt (.ofNat (live.midState.idxOf .free)) = .free := by
    rw [Live.midStateAt, hnat, List.getElem?_eq_getElem (by rw [howned.states]; exact hlt),
      Option.getD_some]
    exact List.getElem_idxOf _
  have hgave := howned.give hheld .scalerOutput (.inr rfl)
  rw [hgiven, hheldGiven]
  exact ⟨(hgave.scale hindex hstate).same rfl rfl rfl rfl rfl,
    hfilter.trans (hfirst.trans hseen)⟩

theorem keeps_owned_feed : KeepsOwned (feed opts formats progress) := by
  refine owned_bind keeps_owned_hold fun _ => ?_
  intro seen live history h
  refine Attempt.wp_bind.mpr (Attempt.wp_get.mpr ?_)
  split
  · rename_i hready
    have hkeep : ∀ history event, Unqueued event.operation → Kept seen live history →
        Kept seen live (history ++ [event]) := fun history event hevent h => h.unqueued hevent
    refine Attempt.wp_bind.mpr (Attempt.wp_mono (Attempt.wp_steady hkeep aside_due h) ?_ ?_)
    · rintro isDue last events ⟨hview, hkept⟩
      have hlast := hkept.same hview
      simp only [bufferView, Prod.mk.injEq] at hview
      obtain ⟨-, -, -, hfree, hheld⟩ := hview
      rw [← hheld] at hready ⊢
      rw [← hfree] at hready
      split
      · refine Attempt.wp_bind.mpr (Attempt.wp_mono (wp_scale hlast hready.1 hready.2) ?_
          fun _ _ hexit => hexit)
        exact fun _ after later hafter => owned_steady aside_end_turn seen after later hafter
      · exact wp_skip hlast hready.1
    · exact fun last events hlast => hlast.2.quit
  · exact owned_steady aside_end_turn seen live history h

/-- Every stretch of the loop. -/
theorem keeps_owned_loop (point : LivePoint) : KeepsOwned (liveLoop opts formats point) := by
  cases point with
  | top => exact owned_steady aside_loop_top
  | encoded progress => exact owned_steady aside_drain_encoded
  | encoderOutput progress => exact keeps_owned_encoder_output
  | scalerCapture progress => exact keeps_owned_scaler_capture
  | scalerOutput progress => exact keeps_owned_scaler_output
  | feed progress => exact keeps_owned_feed
  | stopped => exact owned_steady Attempt.steady_fail

/-- At every loop head the variables say where the buffers are, and up to the next one no branch
for a buffer that cannot be there is taken. -/
theorem live_buffers_owned {first second : List (Event Call Call.Ret)} {ready here : Live}
    {point : LivePoint} (hready : (setUp opts .start).Trace first (some formats, ready))
    (hreach : (liveLoop opts formats).Reaches .top ready second point here)
    (hreturning : Returning (first ++ second)) :
    Owned (waiting (first ++ second)) here ∧ (∀ event ∈ second, unexpected event = false) ∧
      ∀ third result last, (liveLoop opts formats point here).Trace third (result, last) →
        Returning (first ++ second ++ third) → ∀ event ∈ third, unexpected event = false := by
  have hstart := wp_set_up_owned first (some formats) ready hready
  have hkept : Kept (first.filter unexpected) here (first ++ second) :=
    Flow.reaches_keeps (fun _ => Kept (first.filter unexpected)) (Quit (first.filter unexpected))
      (fun point => keeps_owned_loop point _) (fun _ => ⟨hstart.2, rfl⟩) hreach
  obtain ⟨howned, hseen⟩ := hkept hreturning
  have hnone : ∀ events, (first ++ events).filter unexpected = first.filter unexpected →
      ∀ event ∈ events, unexpected event = false := by
    intro events hfilter event hmem
    rw [List.filter_append, List.append_right_eq_self, List.filter_eq_nil_iff] at hfilter
    simpa using hfilter event hmem
  refine ⟨howned, hnone second hseen, fun third result last hthird hafter event hmem => ?_⟩
  have hend := keeps_owned_loop point _ here _ hkept third result last hthird
  have hall : (first ++ second ++ third).filter unexpected = first.filter unexpected := by
    cases result with
    | none => exact hend hafter
    | some next => exact (hend hafter).2
  rw [List.append_assoc] at hall
  exact hnone _ hall event (List.mem_append_right _ hmem)

end

/-! ## A capture buffer goes round -/

/-- No buffer has arrived, and nothing stops the loop. -/
def quiet : (request : Call) → request.Ret
  | .stopRequested => false
  | request => willing request

/-- The first buffer of a queue has arrived. -/
def arriving : (request : Call) → request.Ret
  | .dqbuf _ _ _ => .buffer ⟨0, 0, false, 0, 0, []⟩
  | request => quiet request

/-- A turn in which the encoder returns its buffer and a captured frame goes to the scaler, and one in
which the scaler returns both of its buffers. -/
def turns : List ((request : Call) → request.Ret) :=
  [quiet, quiet, arriving, quiet, quiet, quiet, arriving] ++
    [quiet, quiet, quiet, arriving, quiet, arriving, quiet]

/-- What the loop comes to in them. -/
def turned : Option (List (Event Call Call.Ret) × LivePoint × Live) :=
  willingSetUp.2.1.bind fun formats =>
    (liveLoop plainOptions formats).stretches turns ([], .top, willingSetUp.2.2)

/-- After the two turns both capture buffers are in the capture queue again, and the middle buffer
is at the encoder. -/
theorem live_buffers_owned_returned :
    ∃ formats events here,
      (liveLoop plainOptions formats).Reaches .top willingSetUp.2.2 events (.feed true) here ∧
      waiting (willingSetUp.1 ++ events) .captureQueue = {0, 1} ∧
      here.midState = [.atEncoder] ∧ Owned (waiting (willingSetUp.1 ++ events)) here := by
  obtain ⟨formats, hformats⟩ := Option.isSome_iff_exists.mp
    (show willingSetUp.2.1.isSome = true by decide +kernel)
  obtain ⟨⟨events, point, here⟩, hturned⟩ := Option.isSome_iff_exists.mp
    (show turned.isSome = true by decide +kernel)
  have hend : turned.all (fun turn => turn.2.1 = .feed true ∧ turn.2.2.midState = [.atEncoder] ∧
      ∀ queue ∈ [Waiting.captureQueue, .scalerOutput, .scalerCapture, .encoderOutput],
        (queue.ledger.settle (willingSetUp.1 ++ turn.1) 0).isSome) := by
    decide +kernel
  have hqueued : turned.all
      (fun turn => waiting (willingSetUp.1 ++ turn.1) .captureQueue = {0, 1}) := by
    decide +kernel
  rw [hturned] at hend hqueued
  obtain ⟨rfl, hmid, hsettled⟩ := of_decide_eq_true hend
  have hready : (setUp plainOptions .start).Trace willingSetUp.1
      (some formats, willingSetUp.2.2) := by
    rw [← hformats]
    exact Prog.trace_run_with willing _
  have hreach : (liveLoop plainOptions formats).Reaches .top willingSetUp.2.2 events
      (.feed true) here := by
    rw [turned, hformats, Option.bind_some] at hturned
    exact Flow.reaches_stretches .start hturned
  have hreturning : Returning (willingSetUp.1 ++ events) := by
    intro queue
    refine Option.isSome_iff_ne_none.mp (hsettled queue ?_)
    cases queue <;> decide
  exact ⟨formats, events, here, hreach, of_decide_eq_true hqueued, hmid,
    (live_buffers_owned hready hreach hreturning).1⟩

end NanoKvm.Bridge
