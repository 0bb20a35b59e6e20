import NanoKvm.Bridge.Buffers

/-!
# The buffers before the loop

The set-up of `live_bridge_vpss` queues every capture buffer to the capture device and the first
middle buffer to the encoder: `wp_set_up_owned` says that `Owned` holds where it ends.
-/

namespace NanoKvm.Bridge

open Exec

/-- The call gives none of the queues a buffer and asks none of them for one. -/
def Idle (request : Call) : Prop :=
  ∀ result, ∀ queue : Waiting, queue.ledger.gains ⟨request, result⟩ = none ∧
    queue.ledger.returns ⟨request, result⟩ = none

/-- The variables that say where the buffers are. -/
def bufferView (live : Live) : UInt32 × UInt32 × List MidState × UInt32 × UInt32 :=
  (live.mid.count, live.captureQueue.count, live.midState, live.freeMid, live.heldCapture)

/-- The variables that say where the middle buffers are, and which frame is held. -/
def middleView (live : Live) : UInt32 × List MidState × UInt32 × UInt32 :=
  (live.mid.count, live.midState, live.freeMid, live.heldCapture)

/-- The buffers that each queue has. -/
def Staged (queues : Waiting → Multiset UInt32) (history : List (Event Call Call.Ret)) : Prop :=
  ∀ queue : Waiting, queue.ledger.settle history 0 = some (queues queue)

/-- The buffers below a count. -/
def firstBuffers (count : Nat) : Multiset UInt32 := ↑((List.range count).map UInt32.ofNat)

/-- The first middle buffer is at the encoder and the capture buffers below a count are in the
capture queue. -/
def primed (captured : Nat) : Waiting → Multiset UInt32
  | .captureQueue => firstBuffers captured
  | .encoderOutput => {0}
  | _ => 0

/-- The states of the middle buffers then. -/
def primedStates (count : UInt32) : List MidState :=
  (List.replicate count.toNat MidState.free).set 0 .atEncoder

section

variable {queues : Waiting → Multiset UInt32} {history : List (Event Call Call.Ret)}

theorem Staged.returning (h : Staged queues history) : Returning history := by
  intro queue hnone
  rw [h queue] at hnone
  cases hnone

theorem Staged.waiting_eq (h : Staged queues history) : waiting history = queues := by
  funext queue
  rw [waiting, h queue, Option.getD_some]

theorem Staged.idle (h : Staged queues history) {event : Event Call Call.Ret}
    (hevent : Idle event.operation) : Staged queues (history ++ [event]) := by
  intro queue
  obtain ⟨hgains, hreturns⟩ := hevent event.result queue
  rw [Ledger.settle_concat, h queue, Option.bind_some, Ledger.enter_quiet hgains hreturns]

theorem Staged.given (h : Staged queues history) (queue : Waiting) {memory : BufMemory}
    {index bytesused : UInt32} {fd : Option Nat} {later : Waiting → Multiset UInt32}
    (hself : later queue = queues queue + {index})
    (hothers : ∀ other, other ≠ queue → later other = queues other) :
    Staged later
      (history ++ [⟨.qbuf queue.side.1 queue.side.2 memory index bytesused fd, true⟩]) := by
  intro other
  rw [Ledger.settle_concat, h other, Option.bind_some]
  by_cases heq : other = queue
  · subst heq
    rw [hself, Ledger.enter_gains (if_pos rfl) rfl]
  · rw [hothers other heq]
    exact Ledger.enter_quiet (if_neg (side_other heq)) rfl _

theorem first_buffers_succ (count : Nat) :
    firstBuffers (count + 1) = firstBuffers count + {UInt32.ofNat count} := by
  simp [firstBuffers, List.range_succ, ← Multiset.coe_add]

theorem count_first_buffers (index : UInt32) {count : Nat} (h : count ≤ 2 ^ 32) :
    (firstBuffers count).count index = if index.toNat < count then 1 else 0 := by
  induction count with
  | zero => rfl
  | succ count ih =>
      have hlt : count < 2 ^ 32 := by omega
      have hnat : (UInt32.ofNat count).toNat = count := UInt32.toNat_ofNat_of_lt' hlt
      rw [first_buffers_succ, Multiset.count_add, ih (by omega), Multiset.count_singleton]
      by_cases heq : index = UInt32.ofNat count
      · rw [heq, hnat, if_neg (Nat.lt_irrefl count), if_pos rfl, if_pos (Nat.lt_succ_self count)]
      · have hne : index.toNat ≠ count := by
          intro hsame
          exact heq (UInt32.toNat_inj.mp (hsame.trans hnat.symm))
        rw [if_neg heq, Nat.add_zero]
        by_cases hless : index.toNat < count
        · rw [if_pos hless, if_pos (by omega)]
        · rw [if_neg hless, if_neg (by omega)]

/-- The middle buffers, one of them queued to the encoder. -/
theorem Owned.primed {live : Live} {count captured : UInt32} (hcount : count ≠ 0)
    (h : bufferView live = (count, captured, primedStates count, count - 1, uint32Max)) :
    Owned (primed captured.toNat) live := by
  simp only [bufferView, Prod.mk.injEq] at h
  obtain ⟨hmid, hcapture, hstates, hfree, hheld⟩ := h
  have hpos : 0 < count.toNat := Nat.pos_of_ne_zero fun hzero => hcount (UInt32.toNat_inj.mp hzero)
  have hstate : ∀ index < count, live.midStateAt index =
      if index = 0 then MidState.atEncoder else .free := by
    intro index hindex
    have hless := UInt32.lt_iff_toNat_lt.mp hindex
    rw [Live.midStateAt, hstates, primedStates, List.getElem?_set]
    by_cases hzero : index = 0
    · subst hzero
      simp [hpos]
    · have hne : ¬ 0 = index.toNat := fun heq => hzero (UInt32.toNat_inj.mp heq.symm)
      rw [if_neg hne, if_neg hzero, List.getElem?_replicate_of_lt hless, Option.getD_some]
  refine ⟨?_, ?_, fun index => ?_, fun index => ?_, fun index => ?_⟩
  · have hone : (1 : UInt32) ≤ count := UInt32.le_iff_toNat_le.mpr hpos
    rw [hfree, hstates, primedStates, List.count_set (by simpa using hpos),
      UInt32.toNat_sub_of_le _ _ hone]
    simp
  · simp [hstates, hmid, primedStates]
  · rw [hmid, if_neg]
    · rfl
    · rintro ⟨hindex, heq⟩
      rw [hstate index hindex] at heq
      split at heq <;> cases heq
  · show Multiset.count index {0} = _
    rw [Multiset.count_singleton, hmid]
    by_cases hzero : index = 0
    · subst hzero
      have hinside : 0 < count := UInt32.lt_iff_toNat_lt.mpr hpos
      rw [if_pos rfl, if_pos ⟨hinside, by rw [hstate 0 hinside, if_pos rfl]⟩]
    · rw [if_neg hzero, if_neg]
      rintro ⟨hindex, heq⟩
      rw [hstate index hindex, if_neg hzero] at heq
      cases heq
  · show Multiset.count index (firstBuffers captured.toNat) + 0 + _ = _
    rw [hheld, hcapture, if_neg (fun hboth => hboth.2 hboth.1.symm), Nat.add_zero,
      count_first_buffers index captured.toNat_lt.le]
    simp only [UInt32.lt_iff_toNat_lt]

end

/-! ## Stages that move no buffer -/

section

variable {α V : Type} {view : Live → V} {opts : BridgeOptions} {initStep : String}

theorem idle_call {request : Call} (h : Idle request) : (call request).Steady view Idle :=
  Attempt.steady_perform h

theorem idle_report_out {message : String} : (reportOut message : Bridging α).Steady view Idle :=
  steady_report_out fun _ _ => ⟨rfl, rfl⟩

theorem idle_goto_out_errno : (gotoOutErrno initStep : Bridging α).Steady view Idle :=
  steady_goto_out_errno fun _ _ => ⟨rfl, rfl⟩

theorem idle_need {result : Option α} : (need initStep result).Steady view Idle :=
  steady_need fun _ _ => ⟨rfl, rfl⟩

theorem idle_need_true {success : Bool} : (needTrue initStep success).Steady view Idle :=
  steady_need_true fun _ _ => ⟨rfl, rfl⟩

theorem idle_open_node {path : String} {store : Nat → Live → Live}
    (hstore : ∀ fd live, bufferView (store fd live) = bufferView live) :
    (openNode path store).Steady bufferView Idle := by
  refine Attempt.steady_bind (idle_call fun _ _ => ⟨rfl, rfl⟩) fun found => ?_
  cases found with
  | none => exact idle_report_out
  | some fd => exact Attempt.steady_modify (hstore fd)

theorem idle_open_output {path : Option String} : (openOutput path).Steady bufferView Idle := by
  cases path with
  | none => exact Attempt.steady_pure
  | some path =>
      unfold openOutput
      dsimp only
      split
      · exact Attempt.steady_modify fun _ => rfl
      · refine Attempt.steady_bind (idle_call fun _ _ => ⟨rfl, rfl⟩) fun found => ?_
        cases found with
        | none => exact idle_report_out
        | some fd => exact Attempt.steady_modify fun _ => rfl

theorem idle_open_all : (openAll opts).Steady bufferView Idle := by
  refine Attempt.steady_bind (idle_open_node fun _ _ => rfl) fun _ => ?_
  refine Attempt.steady_bind (idle_open_node fun _ _ => rfl) fun _ => ?_
  exact Attempt.steady_bind (idle_open_node fun _ _ => rfl) fun _ => idle_open_output

theorem idle_negotiate : (negotiate opts).Steady bufferView Idle := by
  refine Attempt.steady_mono still_negotiate ?_ fun request hrequest => ?_
  · exact fun live last hsame => congrArg bufferView hsame
  · cases request <;> first | exact fun _ _ => ⟨rfl, rfl⟩ | exact hrequest.elim

theorem idle_open_heap {reserved : Bool} : (openHeap reserved).Steady bufferView Idle := by
  refine Attempt.steady_bind (idle_call fun _ _ => ⟨rfl, rfl⟩) fun found => ?_
  cases found with
  | some fd => exact Attempt.steady_modify fun _ => rfl
  | none =>
      dsimp only
      split
      · exact idle_goto_out_errno
      · refine Attempt.steady_bind (idle_call fun _ _ => ⟨rfl, rfl⟩) fun found => ?_
        exact Attempt.steady_bind idle_need fun _ => Attempt.steady_modify fun _ => rfl

/-- An entry is stored beside the states. -/
theorem idle_store_entry {queue : QueueOf} {i length : Nat} {fd : Option Nat} {what : MapOf} :
    (storeEntry initStep queue i length fd what).Steady bufferView Idle := by
  have hput : ∀ buf live, bufferView (Live.onQueue queue (.put i buf) live) = bufferView live := by
    intro buf live
    cases queue <;> rfl
  refine Attempt.steady_bind (Attempt.steady_modify (hput _)) fun _ => ?_
  refine Attempt.steady_bind (idle_call fun _ _ => ⟨rfl, rfl⟩) fun found => ?_
  exact Attempt.steady_bind idle_need fun _ => Attempt.steady_modify (hput _)

theorem idle_map_queue {device : Device} {type : BufType} {requested : UInt32} {queue : QueueOf}
    (hcoarse : ∀ live last, bufferView last = bufferView live → view last = view live)
    (hfresh : ∀ fresh live, view (Live.onQueue queue (fun _ => fresh) live) = view live) :
    (mapQueue initStep device type requested queue).Steady view Idle := by
  refine Attempt.steady_bind (idle_call fun _ _ => ⟨rfl, rfl⟩) fun granted => ?_
  refine Attempt.steady_bind idle_need fun count => ?_
  split
  · exact idle_goto_out_errno
  · refine Attempt.steady_bind (idle_call fun _ _ => ⟨rfl, rfl⟩) fun allocated => ?_
    refine Attempt.steady_bind idle_need_true fun _ => ?_
    refine Attempt.steady_bind (Attempt.steady_modify (hfresh _)) fun _ => ?_
    refine Attempt.steady_for_each (fun i => ?_) _
    refine Attempt.steady_bind (idle_call fun _ _ => ⟨rfl, rfl⟩) fun found => ?_
    refine Attempt.steady_bind idle_need fun entry => ?_
    exact Attempt.steady_mono idle_store_entry hcoarse fun _ h => h

theorem idle_encoder_buffers : encoderBuffers.Steady bufferView Idle := by
  refine Attempt.steady_bind (idle_map_queue (fun _ _ h => h) fun _ _ => rfl) fun _ => ?_
  refine Attempt.steady_bind Attempt.steady_get fun live => ?_
  refine Attempt.steady_for_each (fun i => ?_) _
  refine Attempt.steady_bind (idle_call fun success queue => ?_) fun _ => idle_need_true
  cases success <;> cases queue <;> exact ⟨rfl, rfl⟩

theorem idle_start_encoder : startEncoder.Steady bufferView Idle := by
  refine Attempt.steady_bind (idle_call fun _ _ => ⟨rfl, rfl⟩) fun _ => ?_
  refine Attempt.steady_bind idle_need_true fun _ => ?_
  refine Attempt.steady_bind (Attempt.steady_modify fun _ => rfl) fun _ => ?_
  refine Attempt.steady_bind (idle_call fun _ _ => ⟨rfl, rfl⟩) fun _ => ?_
  exact Attempt.steady_bind idle_need_true fun _ => Attempt.steady_modify fun _ => rfl

theorem idle_start_capture : startCapture.Steady bufferView Idle := by
  refine Attempt.steady_bind (idle_call fun _ _ => ⟨rfl, rfl⟩) fun _ => ?_
  exact Attempt.steady_bind idle_need_true fun _ => Attempt.steady_modify fun _ => rfl

theorem idle_start_audio {device : Option String} : (startAudio device).Steady bufferView Idle := by
  cases device with
  | none => exact Attempt.steady_pure
  | some device =>
      refine Attempt.steady_bind (idle_call fun _ _ => ⟨rfl, rfl⟩) fun opened => ?_
      split
      · exact Attempt.steady_modify fun _ => rfl
      · exact Attempt.steady_fail

theorem idle_import_capture : importCapture.Steady bufferView Idle := by
  refine Attempt.steady_bind Attempt.steady_get fun live => ?_
  refine Attempt.steady_bind (idle_call fun _ _ => ⟨rfl, rfl⟩) fun granted => ?_
  cases granted with
  | none => exact idle_report_out
  | some count =>
      dsimp only
      split
      · exact idle_report_out
      · exact Attempt.steady_pure

theorem idle_start_scaler : startScaler.Steady bufferView Idle := by
  refine Attempt.steady_bind (idle_call fun _ _ => ⟨rfl, rfl⟩) fun _ => ?_
  refine Attempt.steady_bind idle_need_true fun _ => ?_
  refine Attempt.steady_bind (Attempt.steady_modify fun _ => rfl) fun _ => ?_
  refine Attempt.steady_bind (idle_call fun _ _ => ⟨rfl, rfl⟩) fun _ => ?_
  exact Attempt.steady_bind idle_need_true fun _ => Attempt.steady_modify fun _ => rfl

end

/-! ## Stages that fill the queues -/

/-- What the variables are and what the queues have. -/
def At (values : UInt32 × UInt32 × List MidState × UInt32 × UInt32)
    (queues : Waiting → Multiset UInt32) (live : Live)
    (history : List (Event Call Call.Ret)) : Prop :=
  bufferView live = values ∧ Staged queues history

/-- Nothing is asked of a set-up that fails. -/
def anyway (_ : Live) (_ : List (Event Call Call.Ret)) : Prop := True

section

variable {α β : Type} {values : UInt32 × UInt32 × List MidState × UInt32 × UInt32}
  {queues : Waiting → Multiset UInt32} {live : Live} {history : List (Event Call Call.Ret)}
  {post : β → Live → List (Event Call Call.Ret) → Prop}

/-- The rule of a stage that moves no buffer. -/
theorem wp_idle {program : Bridging α} {next : α → Bridging β}
    (hprogram : program.Steady bufferView Idle) (h : At values queues live history)
    (hnext : ∀ value live history, At values queues live history →
      (next value).wp post anyway live history) :
    (program >>= next).wp post anyway live history := by
  have hkeep : ∀ history event, Idle event.operation → Staged queues history →
      Staged queues (history ++ [event]) := fun _ _ hevent hstaged => hstaged.idle hevent
  refine Attempt.wp_bind.mpr (Attempt.wp_mono (Attempt.wp_steady hkeep hprogram h.2) ?_
    fun _ _ _ => trivial)
  exact fun value last later hlast => hnext value last later ⟨hlast.1.trans h.1, hlast.2⟩

theorem wp_leave {initStep : String} :
    (gotoOutErrno initStep : Bridging β).wp post anyway live history :=
  Attempt.wp_bind.mpr (Attempt.wp_perform.mpr fun _ => Attempt.wp_fail.mpr trivial)

/-- The rule of a success that is needed. -/
theorem wp_need_go {success : Bool} {initStep : String} {next : Unit → Bridging β}
    (hnext : success = true → (next ()).wp post anyway live history) :
    (needTrue initStep success >>= next).wp post anyway live history := by
  refine Attempt.wp_bind.mpr ?_
  cases success with
  | true => exact Attempt.wp_pure.mpr (hnext rfl)
  | false => exact wp_leave

/-- The rule of giving a queue a buffer. -/
theorem wp_first_queued (queue : Waiting) (later : Waiting → Multiset UInt32)
    {index bytesused : UInt32} {memory : BufMemory} {fd : Option Nat}
    {next : Bool → Bridging β} (h : At values queues live history)
    (hself : later queue = queues queue + {index})
    (hothers : ∀ other, other ≠ queue → later other = queues other)
    (hrefused : ∀ history, (next false).wp post anyway live history)
    (hnext : ∀ history, At values later live history →
      (next true).wp post anyway live history) :
    (call (.qbuf queue.side.1 queue.side.2 memory index bytesused fd) >>= next).wp post anyway
      live history := by
  refine Attempt.wp_bind.mpr (Attempt.wp_perform.mpr fun success => ?_)
  cases success with
  | false => exact hrefused _
  | true => exact hnext _ ⟨h.1, h.2.given queue hself hothers⟩

/-- The middle buffers are all free. -/
theorem wp_middle_free {midBuffers sizeimage captured : UInt32} {next : Unit → Bridging β}
    (h : At (0, captured, [], 0, uint32Max) queues live history)
    (hnext : ∀ count live history, count ≠ 0 →
      At (count, captured, .replicate count.toNat .free, 0, uint32Max) queues live history →
      (next ()).wp post anyway live history) :
    (allocateMiddle midBuffers sizeimage >>= next).wp post anyway live history := by
  refine Attempt.wp_bind.mpr ?_
  refine wp_idle (idle_call fun _ _ => ⟨rfl, rfl⟩) h fun granted live history h => ?_
  refine wp_idle idle_need h fun count live history h => ?_
  split
  · exact wp_leave
  rename_i hcount
  have hcounted : At (count, captured, [], 0, uint32Max) queues
      (Live.onQueue .mid (fun queue => { queue with count }) live) history := by
    obtain ⟨hview, hstaged⟩ := h
    simp only [bufferView, Prod.mk.injEq] at hview
    exact ⟨by simp only [bufferView, Live.onQueue, hview.2], hstaged⟩
  refine Attempt.wp_bind.mpr (Attempt.wp_modify.mpr ?_)
  refine wp_idle (idle_call fun _ _ => ⟨rfl, rfl⟩) hcounted fun granted live history h => ?_
  refine wp_idle idle_need h fun granted live history h => ?_
  split
  · exact wp_leave
  refine wp_idle (idle_call fun _ _ => ⟨rfl, rfl⟩) h fun allocated live history h => ?_
  refine wp_need_go fun _ => ?_
  refine wp_idle (Attempt.steady_modify fun _ => rfl) h fun _ live history h => ?_
  refine wp_idle (Attempt.steady_for_each (fun i => ?_) _) h fun _ live history h => ?_
  · refine Attempt.steady_bind (idle_call fun _ _ => ⟨rfl, rfl⟩) fun found => ?_
    exact Attempt.steady_bind idle_need fun fd => idle_store_entry
  refine wp_idle (idle_call fun _ _ => ⟨rfl, rfl⟩) h fun allocated live history h => ?_
  refine wp_need_go fun _ => Attempt.wp_modify.mpr (hnext count _ _ hcount ⟨?_, h.2⟩)
  obtain ⟨hview, -⟩ := h
  simp only [bufferView, Prod.mk.injEq] at hview ⊢
  exact ⟨hview.1, hview.2.1, trivial, hview.2.2.2⟩

/-- The first middle buffer goes to the encoder. -/
theorem wp_first_primed {encoderOut : PixFormat} {count captured : UInt32} {next : Unit → Bridging β}
    (h : At (count, captured, .replicate count.toNat .free, 0, uint32Max) (fun _ => 0) live history)
    (hnext : ∀ live history,
      At (count, captured, primedStates count, count - 1, uint32Max) (primed 0) live history →
      (next ()).wp post anyway live history) :
    (prime encoderOut >>= next).wp post anyway live history := by
  refine Attempt.wp_bind.mpr ?_
  refine Attempt.wp_bind.mpr (Attempt.wp_get.mpr ?_)
  dsimp only
  split
  · exact Attempt.wp_fail.mpr trivial
  refine wp_idle (idle_call fun _ _ => ⟨rfl, rfl⟩) h fun synced live history h => ?_
  refine wp_need_go fun _ => ?_
  refine wp_first_queued .encoderOutput (primed 0) h rfl ?_
    (fun _ => Attempt.wp_bind.mpr wp_leave) fun history h => ?_
  · intro other hother
    cases other <;> first | rfl | exact absurd rfl hother
  · refine Attempt.wp_bind.mpr (Attempt.wp_pure.mpr (Attempt.wp_modify.mpr
      (hnext _ _ ⟨?_, h.2⟩)))
    obtain ⟨hview, hstaged⟩ := h
    simp only [bufferView, Prod.mk.injEq] at hview ⊢
    obtain ⟨hmid, hcapture, hstates, hfree, hheld⟩ := hview
    exact ⟨hmid, hcapture, by rw [hstates, primedStates], by rw [hmid], hheld⟩

/-- All capture buffers go to the capture device. -/
theorem wp_captures_queued {requested : UInt32} {count free : UInt32} {states : List MidState}
    {next : Unit → Bridging β}
    (h : At (count, 0, states, free, uint32Max) (primed 0) live history)
    (hnext : ∀ captured live history,
      At (count, captured, states, free, uint32Max) (primed captured.toNat) live history →
      (next ()).wp post anyway live history) :
    (captureBuffers requested >>= next).wp post anyway live history := by
  refine Attempt.wp_bind.mpr ?_
  have hkeep : ∀ history event, Idle event.operation → Staged (primed 0) history →
      Staged (primed 0) (history ++ [event]) := fun _ _ hevent hstaged => hstaged.idle hevent
  have hmap : (mapQueue "capture buffers" .capture .capture requested .captureQueue).Steady
      middleView Idle := by
    refine idle_map_queue (fun live last hsame => ?_) fun _ _ => rfl
    simp only [bufferView, Prod.mk.injEq] at hsame
    simp only [middleView, hsame]
  refine Attempt.wp_bind.mpr (Attempt.wp_mono (Attempt.wp_steady hkeep hmap h.2) ?_
    fun _ _ _ => trivial)
  rintro - mapped later ⟨hmiddle, hstaged⟩
  refine Attempt.wp_bind.mpr (Attempt.wp_get.mpr ?_)
  have hview : At (count, mapped.captureQueue.count, states, free, uint32Max) (primed 0) mapped
      later := by
    have hbefore := h.1
    simp only [middleView, Prod.mk.injEq] at hmiddle
    simp only [bufferView, Prod.mk.injEq] at hbefore
    simp only [At, bufferView, hmiddle, hbefore, hstaged, and_self]
  generalize mapped.captureQueue.count = captured at hview ⊢
  refine wp_idle (idle_call fun _ _ => ⟨rfl, rfl⟩) hview fun allocated live history h => ?_
  refine wp_need_go fun _ => ?_
  refine wp_idle (Attempt.steady_modify fun _ => rfl) h fun _ live history h => ?_
  refine wp_idle (Attempt.steady_for_each (fun i => ?_) _) h fun _ live history h => ?_
  · refine Attempt.steady_bind (idle_call fun _ _ => ⟨rfl, rfl⟩) fun found => ?_
    exact Attempt.steady_bind idle_need fun fd => Attempt.steady_modify fun _ => rfl
  have hqueued : (queueAll exportStep .capture captured).wp
      (fun _ => At (count, captured, states, free, uint32Max) (primed captured.toNat)) anyway live
      history := by
    refine Attempt.wp_for_each (fun index =>
      At (count, captured, states, free, uint32Max) (primed index)) (fun index _ live history h => ?_) h
    refine wp_first_queued .captureQueue (primed (index + 1)) h (first_buffers_succ index) ?_
      (fun _ => wp_leave) fun history h => Attempt.wp_pure.mpr h
    intro other hother
    cases other <;> first | rfl | exact absurd rfl hother
  exact Attempt.wp_mono hqueued (fun _ live history h => hnext captured live history h)
    fun _ _ _ => trivial

end

/-- Where the set-up ends, the variables say where the buffers are. -/
theorem wp_set_up_owned {opts : BridgeOptions} :
    (setUp opts).wp (fun _ live history => Returning history ∧ Owned (waiting history) live) anyway
      .start [] := by
  have hstart : At (0, 0, [], 0, uint32Max) (fun _ => 0) .start [] := ⟨rfl, fun _ => rfl⟩
  refine wp_idle idle_open_all hstart fun _ live history h => ?_
  refine wp_idle idle_negotiate h fun formats live history h => ?_
  refine wp_idle idle_open_heap h fun _ live history h => ?_
  refine wp_middle_free h fun count live history hcount h => ?_
  refine wp_idle idle_encoder_buffers h fun _ live history h => ?_
  refine wp_first_primed h fun live history h => ?_
  refine wp_idle idle_start_encoder h fun _ live history h => ?_
  refine wp_captures_queued h fun captured live history h => ?_
  refine wp_idle idle_start_capture h fun _ live history h => ?_
  refine wp_idle idle_start_audio h fun _ live history h => ?_
  refine wp_idle idle_import_capture h fun _ live history h => ?_
  refine wp_idle idle_start_scaler h fun _ live history h => Attempt.wp_pure.mpr ?_
  rw [h.2.waiting_eq]
  exact ⟨h.2.returning, .primed hcount h.1⟩

end NanoKvm.Bridge
