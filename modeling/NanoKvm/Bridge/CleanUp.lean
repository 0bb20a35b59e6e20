import NanoKvm.Bridge.Holdings

/-!
# What the live bridge leaves behind

At `out` of `live_bridge_vpss` the count of the capture queue is zero by the time the exported
descriptors are gone through, so none of them is closed; and the entries of a buffer array that
were not reached hold descriptor 0, which is closed. `clean_up_iff` says when a run leaves nothing
and closes nothing else.
-/

namespace NanoKvm.Bridge

open Exec

/-- Every descriptor that was obtained is closed once and no other one is, and every mapping is
removed once. -/
def Tidy (events : List LiveEvent) : Prop :=
  descriptors.settle events 0 = some 0 ∧ mappings.settle events 0 = some 0

instance (events : List LiveEvent) : Decidable (Tidy events) :=
  inferInstanceAs (Decidable (_ ∧ _))

/-- Every entry of the allocated buffer arrays was filled in. -/
def AllFilled (events : List LiveEvent) : Prop :=
  (events.map entriesOf).sum = (events.map filledBy).sum

/-- The output file did not get the descriptor of standard output. -/
def OutputApart (events : List LiveEvent) : Prop :=
  ∀ path, (⟨.openOutput path, some stdoutFileno⟩ : LiveEvent) ∉ events

/-! ## The loop -/

/-- The program keeps what is held and what `out` closes the same. -/
def KeepsBalance {α : Type} (program : Bridging α) : Prop :=
  ∀ live history, Balanced 0 live history →
    program.wp (fun _ => Balanced 0) BalancedOut live history

section

variable {α β : Type}

theorem keeps_bind {program : Bridging α} {next : α → Bridging β} (h : KeepsBalance program)
    (hnext : ∀ value, KeepsBalance (next value)) : KeepsBalance (program >>= next) := by
  intro live history hbalanced
  refine Attempt.wp_bind.mpr (Attempt.wp_mono (h live history hbalanced) ?_ fun _ _ hexit => hexit)
  exact fun value last events hlast => hnext value last events hlast

theorem keeps_still {program : Bridging α} (h : program.Still Unmoving) :
    KeepsBalance program := by
  intro live history hbalanced
  refine Attempt.wp_mono (wp_unmoving h hbalanced) ?_ fun _ _ hexit => hexit
  rintro value last events ⟨rfl, hlast⟩
  exact hlast

theorem keeps_call {request : Call} (h : Unmoving request) : KeepsBalance (call request) :=
  keeps_still (still_call h)

theorem keeps_get {next : Live → Bridging α} (h : ∀ live, KeepsBalance (next live)) :
    KeepsBalance (Attempt.get >>= next) :=
  fun live history hbalanced => Attempt.wp_bind.mpr (Attempt.wp_get.mpr (h live live history
    hbalanced))

theorem keeps_modify {change : Live → Live} (hclosing : ∀ live, (change live).closing = live.closing)
    (hunmapping : ∀ live, (change live).unmapping = live.unmapping)
    (hcap : ∀ live, (change live).capFds = live.capFds)
    (hcapture : ∀ live, (change live).captureQueue = live.captureQueue) :
    KeepsBalance (Attempt.modify change) := by
  intro live history hbalanced
  refine Attempt.wp_modify.mpr (hbalanced.change (hclosing live) (hunmapping live) (hcap live) ?_)
  rw [hcapture]
  exact id

end

/-! ### The connection -/

section

variable {live after : Live} {history : List LiveEvent}

/-- A descriptor is closed that `out` would have closed. -/
theorem Balanced.lose {fd : Nat} (h : Balanced 0 live history)
    (hclosing : live.closing = after.closing + {fd}) (hunmapping : after.unmapping = live.unmapping)
    (hcap : after.capFds = live.capFds) (hcapture : after.captureQueue = live.captureQueue) :
    Balanced 0 after (history ++ [⟨.close fd, ()⟩]) where
  descriptors := by
    obtain ⟨held, hsettle, hheld⟩ := h.descriptors
    have hsplit : held = fd ::ₘ (after.closing + ↑(history.filterMap leaked)) := by
      rw [Multiset.replicate_zero, add_zero, hclosing] at hheld
      rw [hheld, ← Multiset.singleton_add]
      abel
    refine ⟨held.erase fd, ?_, ?_⟩
    · rw [Ledger.settle_concat, hsettle, Option.bind_some, Ledger.enter_returns rfl rfl,
        if_pos (by simp [hsplit])]
    · have hnone : [(⟨.close fd, ()⟩ : LiveEvent)].filterMap leaked = [] := rfl
      rw [List.filterMap_append, hsplit, hnone, List.append_nil, Multiset.erase_cons_head]
      exact add_zero _
  mappings := by
    rw [Ledger.settle_concat, h.mappings, Option.bind_some, Ledger.enter_quiet rfl rfl, hunmapping]
  entries := by
    simpa [entriesOf, filledBy] using h.entries
  unexported := by
    refine fun hnone => (h.unexported (hcap ▸ hnone)).concat fun index fd heq => ?_
    cases heq
  exporting := by
    rw [hcap, hcapture]
    exact h.exporting

theorem closing_sink (live : Live) (fd : Option Nat) (sink : RtspSink) :
    { live with rtsp := { sink with fd } }.closing + heldBy live.rtsp.fd =
      live.closing + heldBy fd := by
  simp only [Live.closing, Live.plain]
  abel

theorem keeps_rtsp_close : KeepsBalance rtspClose := by
  intro live history h
  refine Attempt.wp_bind.mpr (Attempt.wp_get.mpr ?_)
  cases hfd : live.rtsp.fd with
  | none =>
      refine Attempt.wp_bind.mpr (Attempt.wp_pure.mpr ?_)
      refine Attempt.wp_bind.mpr (Attempt.wp_perform.mpr fun now => Attempt.wp_modify.mpr ?_)
      refine (h.unmoved _ (by constructor <;> rfl)).change ?_ rfl rfl id
      simpa [hfd] using closing_sink live none { live.rtsp with nextRetryMs := now + rtspReconnectMs }
  | some fd =>
      refine Attempt.wp_bind.mpr (Attempt.wp_perform.mpr fun _ => ?_)
      refine Attempt.wp_bind.mpr (Attempt.wp_perform.mpr fun now => Attempt.wp_modify.mpr ?_)
      have hclosing := closing_sink live none
        { live.rtsp with nextRetryMs := now + rtspReconnectMs }
      rw [hfd, held_by_some, held_by_none, add_zero] at hclosing
      have hclosed := h.lose hclosing.symm rfl rfl rfl
      exact hclosed.unmoved ⟨.nowMs, now⟩ (by constructor <;> rfl)

theorem wp_connect_address (addresses : Nat) (h : Balanced 0 live history)
    (hnone : live.rtsp.fd = none) :
    (connectAddress addresses).wp (fun _ => Balanced 0) BalancedOut live history := by
  induction addresses generalizing live history with
  | zero => exact Attempt.wp_pure.mpr h
  | succ addresses ih =>
      refine Attempt.wp_bind.mpr (Attempt.wp_perform.mpr fun result => ?_)
      cases result with
      | none => exact ih (h.unmoved _ (by constructor <;> rfl)) hnone
      | some fd =>
          refine Attempt.wp_bind.mpr (Attempt.wp_modify.mpr ?_)
          have hopen : Balanced 0 { live with rtsp := { live.rtsp with fd := some fd } }
              (history ++ [⟨.socket, some fd⟩]) :=
            h.gain rfl rfl rfl rfl rfl rfl rfl
              (by simpa [hnone] using closing_sink live (some fd) live.rtsp) rfl rfl rfl
          refine Attempt.wp_bind.mpr (Attempt.wp_perform.mpr fun connected => ?_)
          have hasked := hopen.unmoved ⟨.connect fd, connected⟩ (by constructor <;> rfl)
          split
          · exact Attempt.wp_pure.mpr hasked
          · refine Attempt.wp_bind.mpr (Attempt.wp_perform.mpr fun _ => ?_)
            refine Attempt.wp_bind.mpr (Attempt.wp_modify.mpr (ih ?_ rfl))
            refine hasked.lose ?_ rfl rfl rfl
            simpa using (closing_sink { live with rtsp := { live.rtsp with fd := some fd } } none
              live.rtsp).symm

end

section

variable {α : Type} {opts : BridgeOptions} {formats : Formats}

theorem keeps_fail : KeepsBalance (gotoOut : Bridging α) := keeps_still Attempt.steady_fail

theorem keeps_pure {value : α} : KeepsBalance (pure value) := keeps_still Attempt.steady_pure

theorem keeps_change_sink {change : RtspSink → RtspSink} (h : ∀ sink, (change sink).fd = sink.fd) :
    KeepsBalance (changeSink change) :=
  keeps_modify (fun live => by simp only [Live.closing, Live.plain, h]) (fun _ => rfl)
    (fun _ => rfl) fun _ => rfl

theorem still_rtsp_requests (methods : List String) : (rtspRequests methods).Still Unmoving := by
  induction methods with
  | nil => exact Attempt.steady_pure
  | cons method rest ih =>
      refine Attempt.steady_bind (still_call fun _ => by constructor <;> rfl) fun accepted => ?_
      split
      · exact ih
      · exact Attempt.steady_pure

theorem wp_rtsp_connect {live : Live} {history : List LiveEvent} (h : Balanced 0 live history)
    (hnone : live.rtsp.fd = none) :
    (rtspConnect opts).wp (fun _ => Balanced 0) BalancedOut live history := by
  refine Attempt.wp_bind.mpr (Attempt.wp_get.mpr ?_)
  split
  · exact keeps_pure live history h
  refine Attempt.wp_bind.mpr (Attempt.wp_perform.mpr fun result => ?_)
  have hasked := h.unmoved ⟨.getaddrinfo, result⟩ (by constructor <;> rfl)
  cases result with
  | none => exact keeps_pure live _ hasked
  | some addresses =>
      refine Attempt.wp_bind.mpr (Attempt.wp_mono (wp_connect_address addresses hasked hnone) ?_
        fun _ _ hexit => hexit)
      intro _ last events hlast
      refine keeps_get (fun live => ?_) last events hlast
      split
      · exact keeps_pure
      · refine keeps_bind (keeps_still (still_rtsp_requests _)) fun published => ?_
        split
        · exact keeps_pure
        · exact keeps_bind keeps_rtsp_close fun _ => keeps_pure

theorem keeps_send_au {payload : List UInt8} {ptsMs : UInt64} :
    KeepsBalance (sendAu payload ptsMs) := by
  refine keeps_bind (keeps_call fun _ => by constructor <;> rfl) fun sent => ?_
  split
  · exact keeps_pure
  · exact keeps_rtsp_close

theorem learn_fd (payload : List UInt8) (sink : RtspSink) : (learn payload sink).fd = sink.fd := by
  unfold learn
  dsimp only
  generalize Rtp.annexbSplit payload 32 = nals
  induction nals generalizing sink with
  | nil => rfl
  | cons nal rest ih =>
      rw [List.foldl_cons, ih]
      split <;> [rfl; split <;> rfl]

theorem keeps_rtsp_offer_buffer {payload : List UInt8} {ptsMs : UInt64} :
    KeepsBalance (rtspOfferBuffer opts payload ptsMs) := by
  refine keeps_bind (keeps_change_sink fun sink => ?_) fun _ => ?_
  · split
    · rfl
    · exact learn_fd payload sink
  intro live history h
  refine Attempt.wp_bind.mpr (Attempt.wp_get.mpr ?_)
  split
  · exact keeps_send_au live history h
  rename_i hclosed
  split
  · exact keeps_pure live history h
  refine Attempt.wp_bind.mpr (Attempt.wp_perform.mpr fun now => ?_)
  have hnow := h.unmoved ⟨.nowMs, now⟩ (by constructor <;> rfl)
  split
  · exact keeps_pure live _ hnow
  refine Attempt.wp_bind.mpr (Attempt.wp_mono (wp_rtsp_connect hnow ?_) ?_ fun _ _ hexit => hexit)
  · simpa using hclosed
  · intro connected last events hlast
    cases connected with
    | true => exact keeps_send_au last events hlast
    | false =>
        refine keeps_bind (keeps_call fun _ => by constructor <;> rfl) (fun now => ?_) last events
          hlast
        exact keeps_change_sink fun _ => rfl

theorem keeps_rtsp_offer {payload : List UInt8} {ptsMs : UInt64} :
    KeepsBalance (rtspOffer opts payload ptsMs) := by
  refine keeps_bind (keeps_call fun _ => by constructor <;> rfl) fun allocated => ?_
  split
  · exact keeps_rtsp_offer_buffer
  · exact keeps_rtsp_close

theorem keeps_audio_discard : KeepsBalance (do
    if ← call .audioDiscard then gotoOut else pure () : Bridging Unit) := by
  refine keeps_bind (keeps_call fun _ => by constructor <;> rfl) fun failed => ?_
  split
  · exact keeps_fail
  · exact keeps_pure

theorem keeps_audio_drain : KeepsBalance audioDrain := by
  refine keeps_get fun live => ?_
  split
  · split
    · exact keeps_audio_discard
    · refine keeps_bind (keeps_call fun _ => by constructor <;> rfl) fun drained => ?_
      cases drained with
      | done => exact keeps_pure
      | failed => exact keeps_fail
      | unsent => exact keeps_bind keeps_rtsp_close fun _ => keeps_audio_discard
  · exact keeps_pure

end

/-! ### The heads of the loops -/

section

variable {α : Type} {opts : BridgeOptions} {formats : Formats} {progress : Bool}

theorem keeps_report_out {message : String} : KeepsBalance (reportOut message : Bridging α) :=
  keeps_still (steady_report_out unmoving_report)

theorem keeps_goto_out_errno {initStep : String} :
    KeepsBalance (gotoOutErrno initStep : Bridging α) :=
  keeps_still (steady_goto_out_errno unmoving_die_step)

theorem keeps_stop_requested {next : Bool → Bridging α} (h : ∀ stop, KeepsBalance (next stop)) :
    KeepsBalance (stopRequested >>= next) := by
  refine keeps_bind (keeps_get fun live => ?_) h
  split
  · exact keeps_pure
  · exact keeps_call fun _ => by constructor <;> rfl

theorem keeps_loop_top : KeepsBalance loopTop := by
  refine keeps_stop_requested fun stop => ?_
  split
  · exact keeps_pure
  · exact keeps_bind keeps_audio_drain fun _ => keeps_pure

theorem keeps_after_encoded : KeepsBalance (afterEncoded progress) := by
  refine keeps_stop_requested fun stop => ?_
  split
  · exact keeps_pure
  · exact keeps_pure

theorem keeps_count_frame {index : UInt32} : KeepsBalance (countFrame opts index) := by
  refine keeps_bind (keeps_modify (fun _ => rfl) (fun _ => rfl) (fun _ => rfl) fun _ => rfl)
    fun _ => keeps_get fun live => ?_
  split
  · refine keeps_bind (keeps_modify (fun _ => rfl) (fun _ => rfl) (fun _ => rfl) fun _ => rfl) ?_
    exact fun _ => keeps_after_encoded
  · refine keeps_bind (keeps_call fun _ => by constructor <;> rfl) fun queued => ?_
    exact keeps_bind (keeps_still (steady_need_true unmoving_die_step)) fun _ => keeps_pure

theorem keeps_forward {buffer : Buffer} : KeepsBalance (forward opts buffer) := by
  refine keeps_get fun live => ?_
  split
  · exact keeps_report_out
  refine keeps_bind ?_ fun ptsMs => keeps_bind ?_ fun _ => keeps_bind ?_ fun _ =>
    keeps_count_frame
  · unfold ptsOf
    dsimp only
    split
    · exact keeps_call fun _ => by constructor <;> rfl
    · exact keeps_pure
  · refine keeps_get fun live => ?_
    split
    · exact keeps_pure
    · refine keeps_bind (keeps_call fun _ => by constructor <;> rfl) fun written => ?_
      exact keeps_still (steady_need_true unmoving_die_step)
  · unfold offer
    split
    · exact keeps_rtsp_offer
    · exact keeps_pure

theorem keeps_drain_encoded : KeepsBalance (drainEncoded opts progress) := by
  refine keeps_bind (keeps_call fun _ => by constructor <;> rfl) fun dequeued => ?_
  cases dequeued with
  | again => exact keeps_after_encoded
  | error => exact keeps_goto_out_errno
  | buffer buffer => exact keeps_forward

theorem keeps_drain_encoder_output : KeepsBalance (drainEncoderOutput progress) := by
  refine keeps_bind (keeps_call fun _ => by constructor <;> rfl) fun dequeued => ?_
  cases dequeued with
  | again => exact keeps_pure
  | error => exact keeps_goto_out_errno
  | buffer buffer =>
      refine keeps_get fun live => ?_
      split
      · exact keeps_report_out
      · refine keeps_bind (keeps_modify (fun _ => rfl) (fun _ => rfl) (fun _ => rfl) fun _ => rfl)
          fun _ => keeps_bind ?_ fun _ => keeps_pure
        exact keeps_modify (fun _ => rfl) (fun _ => rfl) (fun _ => rfl) fun _ => rfl

theorem keeps_drain_scaler_capture : KeepsBalance (drainScalerCapture formats progress) := by
  refine keeps_bind (keeps_call fun _ => by constructor <;> rfl) fun dequeued => ?_
  cases dequeued with
  | again => exact keeps_pure
  | error => exact keeps_goto_out_errno
  | buffer buffer =>
      refine keeps_get fun live => ?_
      split
      · exact keeps_report_out
      · refine keeps_bind (keeps_call fun _ => by constructor <;> rfl) fun queued => ?_
        refine keeps_bind (keeps_still (steady_need_true unmoving_die_step)) fun _ => keeps_bind ?_ fun _ => keeps_pure
        exact keeps_modify (fun _ => rfl) (fun _ => rfl) (fun _ => rfl) fun _ => rfl

theorem keeps_drain_scaler_output : KeepsBalance (drainScalerOutput progress) := by
  refine keeps_bind (keeps_call fun _ => by constructor <;> rfl) fun dequeued => ?_
  cases dequeued with
  | again => exact keeps_pure
  | error => exact keeps_goto_out_errno
  | buffer buffer =>
      refine keeps_get fun live => ?_
      split
      · exact keeps_report_out
      · refine keeps_bind (keeps_call fun _ => by constructor <;> rfl) fun queued => ?_
        exact keeps_bind (keeps_still (steady_need_true unmoving_die_step)) fun _ => keeps_pure

theorem keeps_hold : KeepsBalance hold := by
  refine keeps_get fun live => ?_
  split
  · refine keeps_bind (keeps_call fun _ => by constructor <;> rfl) fun dequeued => ?_
    cases dequeued with
    | again => exact keeps_pure
    | error => exact keeps_goto_out_errno
    | buffer buffer => exact keeps_modify (fun _ => rfl) (fun _ => rfl) (fun _ => rfl) fun _ => rfl
  · exact keeps_pure

theorem keeps_due : KeepsBalance (due opts) := by
  unfold due
  split
  · exact keeps_pure
  · refine keeps_bind (keeps_call fun _ => by constructor <;> rfl) fun now =>
      keeps_get fun live => ?_
    exact keeps_bind (keeps_modify (fun _ => rfl) (fun _ => rfl) (fun _ => rfl) fun _ => rfl)
      fun _ => keeps_pure

theorem keeps_skip {held : UInt32} : KeepsBalance (skip held) := by
  refine keeps_bind (keeps_call fun _ => by constructor <;> rfl) fun queued => ?_
  refine keeps_bind (keeps_still (steady_need_true unmoving_die_step)) fun _ => keeps_bind ?_ fun _ => keeps_pure
  exact keeps_modify (fun _ => rfl) (fun _ => rfl) (fun _ => rfl) fun _ => rfl

theorem keeps_scale {held : UInt32} : KeepsBalance (scale formats held) := by
  refine keeps_get fun live => ?_
  dsimp only
  split
  · exact keeps_report_out
  refine keeps_bind (keeps_call fun _ => by constructor <;> rfl) fun queued => ?_
  refine keeps_bind (keeps_still (steady_need_true unmoving_die_step)) fun _ => ?_
  refine keeps_bind (keeps_call fun _ => by constructor <;> rfl) fun queued => ?_
  refine keeps_bind (keeps_still (steady_need_true unmoving_die_step)) fun _ => keeps_bind ?_ fun _ => ?_
  · exact keeps_modify (fun _ => rfl) (fun _ => rfl) (fun _ => rfl) fun _ => rfl
  · exact keeps_modify (fun _ => rfl) (fun _ => rfl) (fun _ => rfl) fun _ => rfl

theorem keeps_end_turn : KeepsBalance (endTurn progress) := by
  unfold endTurn
  split
  · exact keeps_pure
  · refine keeps_bind (keeps_call fun _ => by constructor <;> rfl) fun polled => ?_
    exact keeps_bind (keeps_still (steady_need_true unmoving_die_step)) fun _ => keeps_pure

theorem keeps_feed : KeepsBalance (feed opts formats progress) := by
  refine keeps_bind keeps_hold fun _ => keeps_get fun live => ?_
  split
  · refine keeps_bind keeps_due fun isDue => ?_
    split
    · exact keeps_bind keeps_scale fun _ => keeps_end_turn
    · exact keeps_skip
  · exact keeps_end_turn

/-- Every stretch of the loop. -/
theorem keeps_live_loop (point : LivePoint) : KeepsBalance (liveLoop opts formats point) := by
  cases point with
  | top => exact keeps_loop_top
  | encoded progress => exact keeps_drain_encoded
  | encoderOutput progress => exact keeps_drain_encoder_output
  | scalerCapture progress => exact keeps_drain_scaler_capture
  | scalerOutput progress => exact keeps_drain_scaler_output
  | feed progress => exact keeps_feed
  | stopped => exact keeps_fail

end

/-! ## The end -/

/-- An event that only gives back. -/
structure Giving (event : LiveEvent) : Prop where
  obtained : obtained event = none
  mapped : mapped event = none
  entriesOf : entriesOf event = 0
  filledBy : filledBy event = 0
  leaked : leaked event = none

/-- The program closes these descriptors and removes these mappings, and ends with such a value. -/
def Gives {α : Type} (program : Ending α) (fds : Multiset Nat) (maps : Multiset (Nat × Nat))
    (post : α → Prop) : Prop :=
  ∀ events value, program.Trace events value → (∀ event ∈ events, Giving event) ∧
    descriptors.returned events = fds ∧ mappings.returned events = maps ∧ post value

section

variable {α β : Type} {fds fds' : Multiset Nat} {maps maps' : Multiset (Nat × Nat)}

theorem gives_pure {value : α} {post : α → Prop} (h : post value) :
    Gives (pure value) 0 0 post := by
  intro events last htrace
  obtain ⟨rfl, rfl⟩ := Prog.trace_pure.mp htrace
  exact ⟨by simp, rfl, rfl, h⟩

theorem gives_bind {program : Ending α} {next : α → Ending β} {post : α → Prop} {post' : β → Prop}
    (h : Gives program fds maps post) (hnext : ∀ value, post value → Gives (next value) fds' maps'
      post') : Gives (program >>= next) (fds + fds') (maps + maps') post' := by
  intro events last htrace
  obtain ⟨first, second, value, rfl, hfirst, hsecond⟩ := Prog.trace_bind.mp htrace
  obtain ⟨hgiving, hfds, hmaps, hpost⟩ := h _ _ hfirst
  obtain ⟨hgiving', hfds', hmaps', hpost'⟩ := hnext value hpost _ _ hsecond
  refine ⟨fun event hevent => ?_, ?_, ?_, hpost'⟩
  · rcases List.mem_append.mp hevent with hmem | hmem
    · exact hgiving event hmem
    · exact hgiving' event hmem
  · rw [← hfds, ← hfds', Ledger.returned, List.filterMap_append, ← Multiset.coe_add]
    rfl
  · rw [← hmaps, ← hmaps', Ledger.returned, List.filterMap_append, ← Multiset.coe_add]
    rfl

theorem Gives.congr {program : Ending α} {post : α → Prop} (h : Gives program fds maps post)
    (hfds : fds = fds') (hmaps : maps = maps') : Gives program fds' maps' post := by
  rwa [← hfds, ← hmaps]

theorem gives_perform {request : Call} (fd : Option Nat) (mapping : Option (Nat × Nat))
    (hgiving : ∀ result, Giving ⟨request, result⟩)
    (hclosed : ∀ result, closed ⟨request, result⟩ = fd)
    (hunmapped : ∀ result, unmapped ⟨request, result⟩ = mapping) :
    Gives (Prog.perform request) (heldBy fd) ↑mapping.toList fun _ => True := by
  intro events value htrace
  have hevents := Prog.trace_perform_last.mp htrace
  subst hevents
  refine ⟨by simpa using hgiving value, ?_, ?_, trivial⟩
  · rw [← hclosed value, Ledger.returned, descriptors]
    cases hfd : closed ⟨request, value⟩ <;> simp [hfd]
  · rw [← hunmapped value, Ledger.returned, mappings]
    cases hmapping : unmapped ⟨request, value⟩ <;> simp [hmapping]

theorem gives_quiet (request : Call) (h : Unmoving request) :
    Gives (Prog.perform request) 0 0 fun _ => True :=
  gives_perform none none (fun result => ⟨(h result).obtained, (h result).mapped, (h result).entriesOf,
    (h result).filledBy, (h result).leaked⟩) (fun result => (h result).closed)
    fun result => (h result).unmapped

theorem gives_stream_off (on : Bool) (device : Device) (type : BufType) :
    Gives (streamOff on device type) 0 0 fun _ => True := by
  unfold streamOff
  split
  · exact gives_bind (gives_quiet _ fun _ => by constructor <;> rfl) fun _ _ => gives_pure trivial
  · exact gives_pure trivial

theorem gives_close_fd (fd : Option Nat) : Gives (closeFd fd) (heldBy fd) 0 fun _ => True := by
  cases fd with
  | none => exact gives_pure trivial
  | some fd =>
      exact gives_perform (some fd) none (fun _ => by constructor <;> rfl) (fun _ => rfl)
        fun _ => rfl

theorem gives_unmap (buf : MappedBuf) : Gives (unmap buf) 0 ↑buf.mapping.toList fun _ => True := by
  obtain ⟨addr, length, dmabufFd⟩ := buf
  unfold unmap MappedBuf.mapping
  cases addr with
  | none => exact gives_pure trivial
  | some address =>
      dsimp only [Option.bind_some]
      split
      · exact gives_pure trivial
      · exact gives_perform none (some (address, length))
          (fun _ => by constructor <;> rfl) (fun _ => rfl) fun _ => rfl

theorem gives_unmap_buffers (bufs : List MappedBuf) :
    Gives (forAll unmapBuffer bufs) ↑(bufs.filterMap MappedBuf.dmabufFd)
      ↑(bufs.filterMap MappedBuf.mapping) fun _ => True := by
  induction bufs with
  | nil => exact gives_pure trivial
  | cons buf rest ih =>
      rw [Ledger.coe_filter_map_cons, Ledger.coe_filter_map_cons]
      have hbuf : Gives (unmapBuffer buf) (0 + heldBy buf.dmabufFd) (↑buf.mapping.toList + 0)
          fun _ => True := gives_bind (gives_unmap buf) fun _ _ => gives_close_fd buf.dmabufFd
      rw [zero_add, add_zero] at hbuf
      exact gives_bind hbuf fun _ _ => ih

theorem gives_unmap_queue (queue : MappedQueue) :
    Gives (unmapQueue queue) queue.closing queue.unmapping
      fun after => queue.bufs ≠ none → after.count = 0 := by
  unfold unmapQueue MappedQueue.closing MappedQueue.unmapping
  cases hbufs : queue.bufs with
  | none =>
      rw [Option.getD_none, List.take_nil]
      exact gives_pure fun hsome => absurd rfl hsome
  | some bufs =>
      refine (gives_bind (gives_unmap_buffers (bufs.take queue.count.toNat)) fun _ _ =>
        gives_pure ?_).congr (add_zero _) (add_zero _)
      exact fun _ => rfl

/-- No exported descriptor is closed: the queue is empty by now. -/
theorem gives_close_exported {capFds : Option (List Nat)} (captureQueue : MappedQueue)
    (h : capFds ≠ none → captureQueue.count = 0) :
    Gives (closeExported capFds captureQueue) 0 0 fun _ => True := by
  unfold closeExported
  cases capFds with
  | none => exact gives_pure trivial
  | some fds =>
      dsimp only
      rw [h (Option.some_ne_none _)]
      exact gives_pure trivial

theorem gives_streams_off (live : Live) : Gives (streamsOff live) 0 0 fun _ => True := by
  refine (gives_bind (gives_stream_off live.scalerOutOn .scaler .output) fun _ _ =>
    gives_bind (gives_stream_off live.scalerCapOn .scaler .capture) fun _ _ =>
    gives_bind (gives_stream_off live.captureOn .capture .capture) fun _ _ =>
    gives_bind (gives_stream_off live.encoderOutOn .encoder .output) fun _ _ =>
    gives_stream_off live.encoderCapOn .encoder .capture).congr ?_ ?_
  · simp only [add_zero]
  · simp only [add_zero]

theorem gives_release_queues {live : Live}
    (h : live.capFds ≠ none → live.captureQueue.bufs ≠ none) :
    Gives (releaseQueues live)
      (live.encoderCap.closing + live.mid.closing + live.captureQueue.closing) live.unmapping
      fun _ => True := by
  refine (gives_bind (gives_unmap_queue live.encoderCap) fun _ _ =>
    gives_bind (gives_unmap_queue live.mid) fun _ _ =>
    gives_bind (gives_unmap_queue live.captureQueue) fun after hafter =>
    gives_close_exported after fun hsome => hafter (h hsome)).congr ?_ ?_
  · abel
  · rw [Live.unmapping]
    abel

theorem gives_close_all (live : Live) : Gives (closeAll live) live.plain 0 fun _ => True := by
  refine (gives_bind (gives_quiet .audioClose fun _ => by constructor <;> rfl)
    fun _ _ => gives_bind (gives_close_fd live.rtsp.fd) fun _ _ =>
    gives_bind (gives_quiet .nowMs fun _ => by constructor <;> rfl) fun _ _ =>
    gives_bind (gives_close_fd live.heapFd) fun _ _ =>
    gives_bind (gives_close_fd live.scalerFd) fun _ _ =>
    gives_bind (gives_close_fd live.encoderFd) fun _ _ =>
    gives_bind (gives_close_fd live.captureFd) fun _ _ =>
    gives_close_fd (live.outputFd.filter (· ≠ stdoutFileno))).congr ?_ ?_
  · rw [Live.plain]
    abel
  · simp only [add_zero]

theorem gives_out {live : Live} (h : live.capFds ≠ none → live.captureQueue.bufs ≠ none) :
    Gives (out live) live.closing live.unmapping fun _ => True := by
  refine (gives_bind (gives_streams_off live) fun _ _ =>
    gives_bind (gives_release_queues h) fun _ _ => gives_close_all live).congr ?_ ?_
  · rw [Live.closing, zero_add]
  · rw [zero_add, add_zero]

end

/-! ## Whole runs -/

section

variable {opts : BridgeOptions} {events last history : List LiveEvent} {live : Live} {ret : Int}

theorem Leaving.balanced (h : Leaving opts events ret live)
    (hstart : Balanced 0 .start history) : BalancedOut live (history ++ events) := by
  have hready := wp_set_up opts hstart
  cases h with
  | setUp htrace => exact hready _ _ _ htrace
  | streaming hsetUp hreach hpoint hleave =>
      have hlive := Flow.reaches_keeps (fun _ => Balanced 0) (BalancedOut)
        (fun point state history h => keeps_live_loop point state history h)
        (hready _ _ _ hsetUp) hreach
      have := keeps_live_loop _ _ _ hlive _ _ _ hleave
      simpa using this
  | stopped hsetUp hreach hfinish =>
      have hlive := Flow.reaches_keeps (fun _ => Balanced 0) (BalancedOut)
        (fun point state history h => keeps_live_loop point state history h)
        (hready _ _ _ hsetUp) hreach
      have hkeeps : KeepsBalance (finish opts) := by
        refine keeps_get fun live => ?_
        dsimp only
        split
        · exact keeps_pure
        · exact keeps_bind (keeps_call fun _ => unmoved_die_step _) fun _ => keeps_pure
      have := hkeeps _ _ hlive _ _ _ hfinish
      exact ⟨0, by simpa using this⟩

/-- What gives back leaves nothing exactly if it gives back what is held. -/
theorem settle_out_iff {α : Type} [DecidableEq α] {ledger : Ledger LiveEvent α} {held : Multiset α}
    (hgains : ∀ event ∈ last, ledger.gains event = none) :
    ledger.settle last held = some 0 ↔ held = ledger.returned last := by
  constructor
  · intro h
    have htotal := Ledger.settle_total h
    have hnone : ledger.gained last = 0 := by
      rw [Ledger.gained, List.filterMap_eq_nil_iff.mpr hgains]
      rfl
    simpa [hnone] using htotal.symm
  · intro h
    exact Ledger.settle_returns hgains (by rw [h, zero_add])

theorem leaked_none_iff : (events.filterMap leaked = [] ↔ NoneExported events ∧ OutputApart events) := by
  rw [List.filterMap_eq_nil_iff]
  constructor
  · intro h
    refine ⟨fun index fd hmem => ?_, fun path hmem => ?_⟩
    · have := h _ hmem
      cases this
    · have := h _ hmem
      cases this
  · rintro ⟨hexported, houtput⟩ ⟨request, result⟩ hmem
    cases request with
    | expbuf index =>
        cases result with
        | none => rfl
        | some fd => exact absurd hmem (hexported index fd)
    | openOutput path =>
        cases result with
        | none => rfl
        | some fd =>
            by_cases hfd : fd = stdoutFileno
            · subst hfd
              exact absurd hmem (houtput path)
            · simp [leaked, Option.filter, hfd]
    | _ => rfl

/-- A run that got to `out`, by what is unset and leaked there. -/
theorem tidy_iff_unset {unset : Nat} (h : Balanced unset live history)
    (hout : (out live).Trace last ()) :
    Tidy (history ++ last) ↔ .replicate unset 0 = (↑(history.filterMap leaked) : Multiset Nat) := by
  obtain ⟨hgiving, hclosing, hunmapping, -⟩ := gives_out (fun hsome => (h.exporting hsome).1) _ _ hout
  obtain ⟨held, hsettle, hheld⟩ := h.descriptors
  unfold Tidy
  rw [Ledger.settle_append, Ledger.settle_append, hsettle, h.mappings, Option.bind_some,
    Option.bind_some, settle_out_iff fun event hevent => (hgiving event hevent).obtained,
    settle_out_iff fun event hevent => (hgiving event hevent).mapped, hclosing, hunmapping]
  constructor
  · rintro ⟨rfl, -⟩
    exact add_left_cancel hheld
  · intro hsame
    rw [hsame] at hheld
    exact ⟨add_right_cancel hheld, rfl⟩

/-- Descriptor 0 is not leaked while there are entries that are not filled in. -/
theorem unset_iff {unset : Nat} (h : Balanced unset live history) :
    .replicate unset 0 = (↑(history.filterMap leaked) : Multiset Nat) ↔
      unset = 0 ∧ history.filterMap leaked = [] := by
  constructor
  · intro hsame
    by_cases hunset : unset = 0
    · rw [hunset, Multiset.replicate_zero] at hsame
      exact ⟨hunset, Multiset.coe_eq_zero _ |>.mp hsame.symm⟩
    · exfalso
      have hcap : live.capFds = none := by
        by_contra hsome
        exact hunset (h.exporting hsome).2
      have hmem : 0 ∈ history.filterMap leaked := by
        rw [← Multiset.mem_coe, ← hsame]
        exact Multiset.mem_replicate.mpr ⟨hunset, rfl⟩
      obtain ⟨⟨request, result⟩, hevent, hleaked⟩ := List.mem_filterMap.mp hmem
      cases request with
      | expbuf index =>
          cases result with
          | none => cases hleaked
          | some fd => exact h.unexported hcap index fd hevent
      | openOutput path =>
          obtain ⟨-, hfd⟩ := Option.filter_eq_some_iff.mp hleaked
          exact absurd hfd (by decide)
      | _ => cases hleaked
  · rintro ⟨rfl, hnone⟩
    rw [hnone]
    rfl

theorem all_filled_iff {unset : Nat} (h : Balanced unset live history)
    (hgiving : ∀ event ∈ last, Giving event) : AllFilled (history ++ last) ↔ unset = 0 := by
  have hentries : (last.map entriesOf).sum = 0 :=
    List.sum_eq_zero fun value hvalue => by
      obtain ⟨event, hevent, rfl⟩ := List.mem_map.mp hvalue
      exact (hgiving event hevent).entriesOf
  have hfilled : (last.map filledBy).sum = 0 :=
    List.sum_eq_zero fun value hvalue => by
      obtain ⟨event, hevent, rfl⟩ := List.mem_map.mp hvalue
      exact (hgiving event hevent).filledBy
  unfold AllFilled
  rw [List.map_append, List.map_append, List.sum_append, List.sum_append, hentries, hfilled,
    h.entries]
  omega

/-- A run leaves nothing behind and closes nothing else exactly if all buffer arrays that it
allocated were filled in, no capture buffer was exported, and the output file did not get the
descriptor of standard output. -/
theorem clean_up_iff (h : LiveRun opts events ret) :
    Tidy events ↔ AllFilled events ∧ NoneExported events ∧ OutputApart events := by
  cases h with
  | badUrl hurl =>
      refine ⟨fun _ => ⟨rfl, ?_, ?_⟩, fun _ => ⟨rfl, rfl⟩⟩
      · intro index fd hmem
        simp at hmem
      · intro path hmem
        simp at hmem
  | left hstart hleave hout =>
      rename_i start middle last live
      subst hstart
      have hurl : Balanced 0 .start (opts.rtspUrl.toList.map fun url => ⟨.parseUrl url, true⟩) := by
        cases opts.rtspUrl with
        | none => exact balanced_start
        | some url =>
            have hparsed := balanced_start.unmoved ⟨.parseUrl url, true⟩
            exact hparsed (by constructor <;> rfl)
      obtain ⟨unset, hbalanced⟩ := hleave.balanced hurl
      obtain ⟨hgiving, -⟩ := gives_out (fun hsome => (hbalanced.exporting hsome).1) _ _ hout
      have hlast : last.filterMap leaked = [] :=
        List.filterMap_eq_nil_iff.mpr fun event hevent => (hgiving event hevent).leaked
      generalize _ ++ middle = history at hbalanced ⊢
      rw [tidy_iff_unset hbalanced hout, unset_iff hbalanced, all_filled_iff hbalanced hgiving,
        ← leaked_none_iff, List.filterMap_append, hlast, List.append_nil]

end

/-! ## Two runs -/

/-- Every call succeeds but the export of a capture buffer. -/
def unexporting : (request : Call) → request.Ret
  | .expbuf _ => none
  | request => willing request

/-- What the set-up comes to. -/
def unexportingSetUp : List LiveEvent × Option Formats × Live :=
  (setUp plainOptions .start).runWith unexporting

/-- What `out` does then. -/
def unexportingOut : List LiveEvent × Unit :=
  (out unexportingSetUp.2.2).runWith unexporting

/-- The devices and files are open and all buffers are mapped when the first export fails; they are
all given back. -/
theorem clean_up_iff_unexported :
    descriptors.gained (unexportingSetUp.1 ++ unexportingOut.1) = {3, 4, 5, 6, 7, 8} ∧
    (mappings.gained (unexportingSetUp.1 ++ unexportingOut.1)).card = 6 ∧
    Tidy (unexportingSetUp.1 ++ unexportingOut.1) := by
  have hsetUp : (setUp plainOptions .start).Trace unexportingSetUp.1
      (none, unexportingSetUp.2.2) := by
    have hnone : unexportingSetUp.2.1 = none := Option.isNone_iff_eq_none.mp (by decide +kernel)
    rw [← hnone]
    exact Prog.trace_run_with unexporting _
  have hrun : LiveRun plainOptions (unexportingSetUp.1 ++ unexportingOut.1) (-1) :=
    .left rfl (.setUp hsetUp) (Prog.trace_run_with unexporting _)
  have hleaked : (unexportingSetUp.1 ++ unexportingOut.1).filterMap leaked = [] := by
    decide +kernel
  obtain ⟨hexported, hapart⟩ := leaked_none_iff.mp hleaked
  have hfilled : AllFilled (unexportingSetUp.1 ++ unexportingOut.1) := by
    unfold AllFilled
    decide +kernel
  exact ⟨by decide +kernel, by decide +kernel, (clean_up_iff hrun).mpr ⟨hfilled, hexported, hapart⟩⟩

/-- What the head of the loop comes to. -/
def willingStop : List LiveEvent × Option LivePoint × Live :=
  (loopTop willingSetUp.2.2).runWith willing

/-- What the function comes to after the loop. -/
def willingFinish : List LiveEvent × Option Int × Live :=
  (finish plainOptions willingStop.2.2).runWith willing

/-- A run that a signal stops leaves its exported buffers open. -/
theorem interrupted_not_tidy : ∃ events ret, LiveRun plainOptions events ret ∧ ¬ Tidy events := by
  have hsetUp : (setUp plainOptions .start).Trace willingSetUp.1 willingSetUp.2 :=
    Prog.trace_run_with willing _
  have hstop : (loopTop willingSetUp.2.2).Trace willingStop.1 willingStop.2 :=
    Prog.trace_run_with willing _
  have hfinish : (finish plainOptions willingStop.2.2).Trace willingFinish.1 willingFinish.2 :=
    Prog.trace_run_with willing _
  obtain ⟨formats, hformats⟩ := Option.isSome_iff_exists.mp
    (show willingSetUp.2.1.isSome = true by decide +kernel)
  obtain ⟨ret, hret⟩ := Option.isSome_iff_exists.mp
    (show willingFinish.2.1.isSome = true by decide +kernel)
  have hready : (setUp plainOptions .start).Trace willingSetUp.1
      (some formats, willingSetUp.2.2) := by rwa [← hformats]
  have hstopped : (loopTop willingSetUp.2.2).Trace willingStop.1
      (some .stopped, willingStop.2.2) := by
    rwa [show some LivePoint.stopped = willingStop.2.1 by decide +kernel]
  have hdone : (finish plainOptions willingStop.2.2).Trace willingFinish.1
      (some ret, willingFinish.2.2) := by rwa [← hret]
  have hreach : (liveLoop plainOptions formats).Reaches .top willingSetUp.2.2
      ([] ++ willingStop.1) .stopped willingStop.2.2 := .next .start hstopped
  refine ⟨_, ret, .left rfl (.stopped hready hreach hdone) (Prog.trace_run_with willing _), ?_⟩
  decide +kernel

end NanoKvm.Bridge
