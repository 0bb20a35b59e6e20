import NanoKvm.Exec.Reachability
import NanoKvm.Sessions.Device

/-!
# Which answer a read returns

In every run a request is never pending together with a response, and a write leads to at
most one successful read. That a read returns the answer to the latest write of its own
session needs more: the device tells answers apart only by service, sequence and opcode, and
a closed session leaves its request with the mailbox. It holds in every run in which no write
resembles a request that is still to be answered (`Distinct`).
-/

namespace NanoKvm.Sessions

open Contract Exec

/-! ## Flags and reads -/

/-- The flags exclude each other, and each read belongs to a write of its own. -/
structure World.Exclusive (w : World) : Prop where
  flags : w.control.requestPending = true → w.control.responseReady = false
  inactive : w.file ≠ .active → w.io = .free
  copying : ∀ response, w.io = .copying response →
    w.control.responseReady = true ∧ w.control.response = response
  written : ∀ read ∈ w.reads, read.write ≤ w.writes
  unread : w.control.requestPending = true ∨ w.control.responseReady = true →
    ∀ read ∈ w.reads, read.write < w.writes
  once : w.reads.Pairwise fun first second => first.write < second.write

theorem probed_exclusive {w : World} (h : Probed w) : w.Exclusive where
  flags hpending := by
    rw [h.requestPending] at hpending
    cases hpending
  inactive _ := h.io
  copying response hcopying := by
    rw [h.io] at hcopying
    cases hcopying
  written read hread := by
    rw [h.reads] at hread
    cases hread
  unread _ read hread := by
    rw [h.reads] at hread
    cases hread
  once := by
    rw [h.reads]
    exact List.Pairwise.nil

/-- What a write that passes the checks has found and leaves. -/
theorem begin_write_cases {control next : Control} {word : UInt64}
    (h : control.beginWrite word = some next) :
    control.requestPending = false ∧ control.responseReady = false ∧
      next.requestPending = true ∧ next.responseReady = false ∧
      next.activationWaiting = false ∧
      next.expectedService = (Message.decode word).service ∧
      next.expectedOpcode = (Message.decode word).opcode ||| opResponse ∧
      next.expectedSequence = (Message.decode word).sequence := by
  unfold Control.beginWrite at h
  dsimp only at h
  split at h
  · cases h
  · split at h
    · cases h
    · rename_i hfree
      simp only [Bool.or_eq_true, not_or, Bool.not_eq_true] at hfree
      cases h
      exact ⟨hfree.1.1, hfree.1.2, rfl, hfree.1.2, rfl, rfl, rfl, rfl⟩

/-- What a delivered word does to the flags: it is taken for the pending request, or nothing. -/
theorem receive_cases (control : Control) (word : UInt64) :
    control.requestPending = true ∧ control.expects (Message.decode word) = true ∧
      control.receive word =
        { control with response := word, requestPending := false, responseReady := true } ∨
    (control.requestPending && control.expects (Message.decode word)) = false ∧
      control.receive word = control := by
  unfold Control.receive
  split
  · rename_i htaken
    rw [Bool.and_eq_true] at htaken
    exact .inl ⟨htaken.1, htaken.2, rfl⟩
  · rename_i hother
    exact .inr ⟨by simpa using hother, rfl⟩

/-- What a transmission report can do: it leaves the response alone, and a pending request was
pending before. -/
theorem tx_done_cases (control : Control) (result : Int) :
    ((control.txDone result).requestPending = true → control.requestPending = true) ∧
      (control.txDone result).responseReady = control.responseReady ∧
      (control.txDone result).response = control.response ∧
      (control.txDone result).activationWaiting = control.activationWaiting ∧
      (control.txDone result).expectedService = control.expectedService ∧
      (control.txDone result).expectedOpcode = control.expectedOpcode ∧
      (control.txDone result).expectedSequence = control.expectedSequence := by
  unfold Control.txDone
  split
  · refine ⟨fun hpending => ?_, rfl, rfl, rfl, rfl, rfl, rfl⟩
    dsimp only at hpending
    split at hpending
    · cases hpending
    · exact hpending
  · exact ⟨id, rfl, rfl, rfl, rfl, rfl, rfl⟩

/-- The flags are cleared and the file changes hands. -/
theorem exclusive_cleared {w next : World} (h : w.Exclusive)
    (hpending : next.control.requestPending = false)
    (hready : next.control.responseReady = false) (hio : next.io = .free)
    (hwrites : next.writes = w.writes) (hreads : next.reads = w.reads) : next.Exclusive where
  flags _ := hready
  inactive _ := hio
  copying response hcopying := by
    rw [hio] at hcopying
    cases hcopying
  written := by
    rw [hreads, hwrites]
    exact h.written
  unread hflags := by
    rw [hpending, hready] at hflags
    simp at hflags
  once := by
    rw [hreads]
    exact h.once

/-- Every step keeps the flags exclusive and the reads apart. -/
theorem step_exclusive {w next : World} {event : Event} (h : w.Exclusive)
    (hstep : Step w event next) : next.Exclusive := by
  cases hstep with
  | openClaim hfile =>
      exact { h with inactive := fun _ => h.inactive (by rw [hfile]; decide) }
  | openReset hfile =>
      exact exclusive_cleared h rfl rfl (h.inactive (by rw [hfile]; decide)) rfl rfl
  | @beginWrite word control hfile hio hcontrol =>
      obtain ⟨_, _, _, hready, _⟩ := begin_write_cases hcontrol
      refine ⟨fun _ => hready, fun hother => absurd hfile hother,
        fun response hcopying => (nomatch hcopying), ?_, ?_, h.once⟩
      · intro read hread
        exact Nat.le_succ_of_le (h.written read hread)
      · intro _ read hread
        exact Nat.lt_succ_of_le (h.written read hread)
  | sendTaken hio hcurrent =>
      exact { h with
        inactive := fun _ => rfl
        copying := fun response hcopying => nomatch hcopying }
  | sendRefused hio hresult =>
      refine { h with
        flags := fun hpending => nomatch hpending
        inactive := fun _ => rfl
        copying := fun response hcopying => nomatch hcopying
        unread := ?_ }
      intro hflags
      exact h.unread (.inr (hflags.resolve_left fun hpending => nomatch hpending))
  | @txDone result =>
      obtain ⟨hpending, hready, hresponse, _⟩ := tx_done_cases w.control result
      refine { h with flags := ?_, copying := ?_, unread := ?_ }
      · intro hnow
        rw [hready]
        exact h.flags (hpending hnow)
      · intro response hcopying
        rw [hready, hresponse]
        exact h.copying response hcopying
      · intro hflags
        rw [hready] at hflags
        exact h.unread (hflags.imp hpending id)
  | @receive request word houtstanding hanswers =>
      obtain ⟨hpending, _, htaken⟩ | ⟨_, hsame⟩ := receive_cases w.control word
      · have hcontrol : (w.receive request word).control = _ := htaken
        refine { h with flags := ?_, copying := ?_, unread := ?_ }
        · intro hnow
          rw [hcontrol] at hnow
          cases hnow
        · intro response hcopying
          -- A read holds a response, so nothing was pending.
          obtain ⟨hready, _⟩ := h.copying response hcopying
          rw [h.flags hpending] at hready
          cases hready
        · intro _
          exact h.unread (.inl hpending)
      · have hcontrol : (w.receive request word).control = w.control := hsame
        refine { h with flags := ?_, copying := ?_, unread := ?_ }
        · rw [hcontrol]
          exact h.flags
        · rw [hcontrol]
          exact h.copying
        · rw [hcontrol]
          exact h.unread
  | beginRead hfile hio hready =>
      refine { h with inactive := fun hother => absurd hfile hother, copying := ?_ }
      intro response hcopying
      cases hcopying
      exact ⟨hready, rfl⟩
  | failRead hio =>
      exact { h with
        inactive := fun _ => rfl
        copying := fun response hcopying => nomatch hcopying }
  | @endRead response hio =>
      obtain ⟨hready, _⟩ := h.copying response hio
      have hidle : w.control.requestPending = false := by
        cases hpending : w.control.requestPending with
        | false => rfl
        | true =>
            rw [h.flags hpending] at hready
            cases hready
      have hunread := h.unread (.inr hready)
      refine ⟨fun _ => rfl, fun _ => rfl, fun other hcopying => (nomatch hcopying), ?_, ?_, ?_⟩
      · intro read hread
        rcases List.mem_append.1 hread with hold | hnew
        · exact h.written read hold
        · rw [List.mem_singleton.1 hnew]
          exact Nat.le_refl _
      · intro hflags
        rcases hflags with hpending | hready
        · have hpending : w.control.requestPending = true := hpending
          rw [hidle] at hpending
          cases hpending
        · cases hready
      · refine List.pairwise_append.2 ⟨h.once, List.pairwise_singleton _ _, ?_⟩
        intro first hfirst second hsecond
        rw [List.mem_singleton.1 hsecond]
        exact hunread first hfirst
  | releaseWait hfile hio => exact { h with inactive := fun _ => hio }
  | releaseReset hfile =>
      exact exclusive_cleared h rfl rfl (h.inactive (by rw [hfile]; decide)) rfl rfl
  | releaseDone hfile =>
      exact { h with inactive := fun _ => h.inactive (by rw [hfile]; decide) }

/-! ## Answers -/

/-- The firmware could answer the earlier request with a word that the device would take for the
answer to the other one. -/
def Confusable (earlier request : Message) : Prop :=
  ∃ response, Answers earlier response ∧ response.service = request.service ∧
    response.sequence = request.sequence ∧
    (response.opcode = request.opcode ||| opResponse ∨ response.opcode = opError)

/-- A write does not resemble a request that is still to be answered. -/
def Distinct (w : World) : Event → Prop
  | .beginWrite word =>
      ∀ request ∈ w.outstanding, ¬ Confusable request.message (Message.decode word)
  | _ => True

/-- The request is the last one of its session that the mailbox has taken, and the word answers it. -/
def Answered (session : Nat) (latest answered : Option Request) (word : UInt64) : Prop :=
  ∃ request, latest = some request ∧ answered = some request ∧ request.session = session ∧
    Answers request.message (Message.decode word)

/-- The device waits for the answer to the request. -/
structure World.Awaits (w : World) (request : Request) : Prop where
  current : w.current = some request
  session : request.session = w.session
  service : w.control.expectedService = request.message.service
  sequence : w.control.expectedSequence = request.message.sequence
  opcode : w.control.expectedOpcode = request.message.opcode ||| opResponse
  alone : ∀ other ∈ w.outstanding, Confusable other.message request.message →
    other = request ∧ w.accepted = some request

/-- A pending request is told from all others, and a response answers it. -/
structure World.Paired (w : World) : Prop where
  pending : w.control.requestPending = true → ∃ request, w.Awaits request
  ready : w.control.responseReady = true → w.current = w.accepted ∧
    Answered w.session w.accepted w.answered w.control.response
  reads : ∀ read ∈ w.reads, Answered read.session read.latest read.answered read.word

theorem probed_paired {w : World} (h : Probed w) : w.Paired where
  pending hpending := by
    rw [h.requestPending] at hpending
    cases hpending
  ready hready := by
    rw [h.responseReady] at hready
    cases hready
  reads read hread := by
    rw [h.reads] at hread
    cases hread

/-- An expected answer makes the request that it answers confusable with the awaited one. -/
theorem confusable_of_expected {w : World} {request other : Request} {response : Message}
    (h : w.Awaits request) (hanswers : Answers other.message response)
    (hexpected : w.control.expects response = true) :
    Confusable other.message request.message := by
  simp only [Control.expects, Bool.and_eq_true, Bool.or_eq_true, beq_iff_eq] at hexpected
  obtain ⟨⟨hservice, hsequence⟩, hopcode⟩ := hexpected
  refine ⟨response, hanswers, hservice.trans h.service, hsequence.trans h.sequence, ?_⟩
  rw [h.opcode] at hopcode
  exact hopcode.imp id fun herror => herror.2

/-- The flags are cleared, and the reads stay. -/
theorem paired_cleared {w next : World} (h : w.Paired)
    (hpending : next.control.requestPending = false)
    (hready : next.control.responseReady = false) (hreads : next.reads = w.reads) :
    next.Paired where
  pending hnow := by
    rw [hpending] at hnow
    cases hnow
  ready hnow := by
    rw [hready] at hnow
    cases hnow
  reads := by
    rw [hreads]
    exact h.reads

/-- What happens to the file alone does not matter. -/
theorem paired_file {w : World} (h : w.Paired) (file : FilePhase) (io : IoPhase) :
    { w with file := file, io := io }.Paired where
  pending hnow := by
    obtain ⟨request, hawaits⟩ := h.pending hnow
    exact ⟨request, { hawaits with }⟩
  ready := h.ready
  reads := h.reads

/-- A delivered answer goes to the request it was sent for. -/
theorem receive_paired {w : World} (h : w.Paired) {request : Request} {word : UInt64} (houtstanding : request ∈ w.outstanding)
    (hanswers : Answers request.message (Message.decode word)) :
    (w.receive request word).Paired := by
  obtain ⟨hpending, hexpected, htaken⟩ | ⟨hother, hsame⟩ := receive_cases w.control word
  · have hcontrol : (w.receive request word).control = _ := htaken
    obtain ⟨awaited, hawaits⟩ := h.pending hpending
    obtain ⟨hrequest, haccepted⟩ := hawaits.alone request houtstanding
      (confusable_of_expected hawaits hanswers hexpected)
    refine ⟨?_, fun _ => ⟨?_, ?_⟩, h.reads⟩
    · intro hnow
      rw [hcontrol] at hnow
      cases hnow
    · show w.current = w.accepted
      rw [hawaits.current, haccepted]
    · rw [hcontrol]
      refine ⟨request, ?_, ?_, ?_, hanswers⟩
      · show w.accepted = some request
        rw [haccepted, hrequest]
      · show (if w.control.requestPending && w.control.expects (Message.decode word) then
          some request else w.answered) = some request
        rw [hpending, hexpected]
        rfl
      · rw [hrequest]
        exact hawaits.session
  · have hcontrol : (w.receive request word).control = w.control := hsame
    have hanswered : (w.receive request word).answered = w.answered := by
      show (if w.control.requestPending && w.control.expects (Message.decode word) then
        some request else w.answered) = w.answered
      rw [hother]
      rfl
    refine ⟨?_, ?_, h.reads⟩
    · intro hnow
      rw [hcontrol] at hnow
      obtain ⟨awaited, hawaits⟩ := h.pending hnow
      refine ⟨awaited, hawaits.current, hawaits.session, ?_, ?_, ?_, ?_⟩
      · rw [hcontrol]
        exact hawaits.service
      · rw [hcontrol]
        exact hawaits.sequence
      · rw [hcontrol]
        exact hawaits.opcode
      · intro other hmem
        exact hawaits.alone other (List.mem_of_mem_erase hmem)
    · intro hnow
      rw [hcontrol] at hnow ⊢
      rw [hanswered]
      exact h.ready hnow

/-- Every step with a distinct request keeps the answers paired with their requests. -/
theorem step_paired {w next : World} {event : Event} (h : w.Paired) (hexclusive : w.Exclusive)
    (hdistinct : Distinct w event) (hstep : Step w event next) : next.Paired := by
  cases hstep with
  | openClaim hfile => exact paired_file h .claimed w.io
  | openReset hfile => exact paired_cleared h rfl rfl rfl
  | @beginWrite word control hfile hio hcontrol =>
      obtain ⟨_, _, _, hready, _, hservice, hopcode, hsequence⟩ := begin_write_cases hcontrol
      refine ⟨fun _ => ⟨w.nextRequest word, rfl, rfl, hservice, hsequence, hopcode, ?_⟩, ?_,
        h.reads⟩
      · intro other hmem hconfusable
        exact absurd hconfusable (hdistinct other hmem)
      · intro hnow
        have hnow : control.responseReady = true := hnow
        rw [hready] at hnow
        cases hnow
  | @sendTaken request hio hcurrent =>
      refine ⟨?_, ?_, h.reads⟩
      · intro hnow
        obtain ⟨awaited, hawaits⟩ := h.pending hnow
        have hsame : awaited = request := Option.some.inj (hawaits.current.symm.trans hcurrent)
        subst hsame
        refine ⟨awaited, { hawaits with alone := ?_ }⟩
        intro other hmem hconfusable
        rcases List.mem_append.1 hmem with hold | hnew
        · exact ⟨(hawaits.alone other hold hconfusable).1, rfl⟩
        · exact ⟨List.mem_singleton.1 hnew, rfl⟩
      · -- A response answers the current request, which has been taken before.
        intro hnow
        obtain ⟨hlatest, hanswered⟩ := h.ready hnow
        refine ⟨hcurrent, ?_⟩
        show Answered w.session (some request) w.answered w.control.response
        rw [← hcurrent, hlatest]
        exact hanswered
  | sendRefused hio hresult =>
      exact ⟨fun hnow => (nomatch hnow), h.ready, h.reads⟩
  | @txDone result =>
      obtain ⟨hpending, hready, hresponse, _, hservice, hopcode, hsequence⟩ :=
        tx_done_cases w.control result
      refine ⟨?_, ?_, h.reads⟩
      · intro hnow
        obtain ⟨awaited, hawaits⟩ := h.pending (hpending hnow)
        exact ⟨awaited, hawaits.current, hawaits.session, hservice.trans hawaits.service,
          hsequence.trans hawaits.sequence, hopcode.trans hawaits.opcode, hawaits.alone⟩
      · intro hnow
        rw [hready] at hnow
        rw [hresponse]
        exact h.ready hnow
  | @receive request word houtstanding hanswers =>
      exact receive_paired h houtstanding hanswers
  | beginRead hfile hio hready => exact paired_file h w.file (.copying w.control.response)
  | failRead hio => exact paired_file h w.file .free
  | @endRead response hio =>
      obtain ⟨hready, hresponse⟩ := hexclusive.copying response hio
      obtain ⟨_, hanswered⟩ := h.ready hready
      refine ⟨?_, fun hnow => (nomatch hnow), ?_⟩
      · intro hnow
        have hnow : w.control.requestPending = true := hnow
        rw [hexclusive.flags hnow] at hready
        cases hready
      · intro read hread
        rcases List.mem_append.1 hread with hold | hnew
        · exact h.reads read hold
        · rw [List.mem_singleton.1 hnew, ← hresponse]
          exact hanswered
  | releaseWait hfile hio => exact paired_file h .closing w.io
  | releaseReset hfile => exact paired_cleared h rfl rfl rfl
  | releaseDone hfile => exact paired_file h .closed w.io

/-! ## Runs -/

/-- Some step. -/
def AnyStep (w next : World) : Prop := ∃ event, Step w event next

/-- Some step that meets the condition. -/
def DistinctStep (w next : World) : Prop := ∃ event, Step w event next ∧ Distinct w event

theorem any_step_preserves : Preserved AnyStep World.Exclusive :=
  fun _ _ h hstep => hstep.elim fun _ hstep => step_exclusive h hstep

theorem distinct_step_preserves :
    Preserved DistinctStep fun w => w.Exclusive ∧ w.Paired := by
  rintro w next ⟨hexclusive, hpaired⟩ ⟨event, hstep, hdistinct⟩
  exact ⟨step_exclusive hexclusive hstep, step_paired hpaired hexclusive hdistinct hstep⟩

/-- In every run of sessions, a request is never pending together with a response, and the reads
belong to different writes. In every run in which no write resembles a request that is still to be
answered, a read returns a word that the firmware has sent in answer to the latest accepted write
of its own session. -/
theorem session_answers {start : World} (hstart : Probed start) :
    (∀ w, Relation.ReflTransGen AnyStep start w →
      ¬ (w.control.requestPending = true ∧ w.control.responseReady = true) ∧
      w.reads.Pairwise fun first second => first.write ≠ second.write) ∧
    (∀ w, Relation.ReflTransGen DistinctStep start w →
      ∀ read ∈ w.reads, ∃ request, read.latest = some request ∧
        read.answered = some request ∧ request.session = read.session ∧
        Answers request.message (Message.decode read.word)) := by
  refine ⟨?_, ?_⟩
  · intro w hrun
    have hexclusive := any_step_preserves.reachable (probed_exclusive hstart) hrun
    refine ⟨?_, hexclusive.once.imp fun hlt => Nat.ne_of_lt hlt⟩
    rintro ⟨hpending, hready⟩
    rw [hexclusive.flags hpending] at hready
    cases hready
  · intro w hrun
    have hinvariant := distinct_step_preserves.reachable
      ⟨probed_exclusive hstart, probed_paired hstart⟩ hrun
    exact hinvariant.2.reads

/-- The device after a probe that needed no activation. -/
def idleDevice : World where
  control :=
    { response := 0, txWord := 0, txStatus := 0, expectedSequence := 0, expectedService := 0
      expectedOpcode := 0, activationWaiting := false, requestPending := false
      responseReady := false, txPending := false }
  file := .closed
  io := .free
  session := 0
  writes := 0
  current := none
  accepted := none
  outstanding := []
  answered := none
  reads := []

theorem idle_device_probed : Probed idleDevice := ⟨rfl, rfl, rfl, rfl, rfl⟩

/-- The first request of a client: a ping. -/
def firstPing (value : UInt32) : UInt64 := (Client.new.request opPing value).1.encode

/-- The answer of the firmware to it. -/
def pingAnswer (value : UInt32) : UInt64 :=
  ((Client.new.request opPing value).1.ordinaryResponse 0).encode

/-- The ping that a session has written. -/
def pingRequest (session number : Nat) (value : UInt32) : Request where
  session := session
  number := number
  message := Message.decode (firstPing value)

theorem ping_answered (session number : Nat) :
    Answers (pingRequest session number 7).message (Message.decode (pingAnswer 7)) := by
  have hother : ¬ ((pingRequest session number 7).message.service = serviceControl ∧
      (pingRequest session number 7).message.opcode = opActivateLeases) := by
    show ¬ ((Message.decode (firstPing 7)).service = serviceControl ∧
      (Message.decode (firstPing 7)).opcode = opActivateLeases)
    decide
  have hresponse : Message.decode (pingAnswer 7) =
      (Message.decode (firstPing 7)).ordinaryResponse 0 := by
    decide
  unfold Answers
  rw [if_neg hother]
  exact ⟨0, hresponse⟩

/-- A session that pings once reads the answer to its ping. -/
theorem session_answers_ping :
    Probed idleDevice ∧ ∃ w read, Relation.ReflTransGen DistinctStep idleDevice w ∧
      w.reads = [read] ∧ read.word = pingAnswer 7 ∧
      ∃ request, read.latest = some request ∧ read.answered = some request := by
  have hrun : ∃ w read, Relation.ReflTransGen DistinctStep idleDevice w ∧
      w.reads = [read] ∧ read.word = pingAnswer 7 := by
    refine ⟨?world, ?read, ?run, ?reads, ?word⟩
    case run =>
      refine .head ⟨_, .openClaim rfl, trivial⟩ ?_
      refine .head ⟨_, .openReset rfl, trivial⟩ ?_
      refine .head ⟨_, @Step.beginWrite _ (firstPing 7) _ rfl rfl rfl, ?_⟩ ?_
      · exact fun request hrequest => nomatch hrequest
      refine .head ⟨_, @Step.sendTaken _ (pingRequest 1 1 7) rfl rfl, trivial⟩ ?_
      refine .head ⟨_, @Step.txDone _ 0, trivial⟩ ?_
      refine .head ⟨_, @Step.receive _ (pingRequest 1 1 7) (pingAnswer 7)
        (List.mem_singleton_self _) (ping_answered 1 1), trivial⟩ ?_
      refine .head ⟨_, .beginRead rfl rfl rfl, trivial⟩ ?_
      refine .head ⟨_, .endRead rfl, trivial⟩ ?_
      exact .refl
    case reads => rfl
    case word => rfl
  obtain ⟨w, read, hrun, hreads, hword⟩ := hrun
  obtain ⟨request, hlatest, hanswered, _⟩ := (session_answers idle_device_probed).2 w hrun read
    (by rw [hreads]; exact List.mem_singleton_self read)
  exact ⟨idle_device_probed, w, read, hrun, hreads, hword, request, hlatest, hanswered⟩

/-- A client pings with the value 7 and closes the device before the answer arrives. The next client
pings with the value 9, under the same sequence, and reads the answer to the first ping. -/
theorem late_answer_read :
    Probed idleDevice ∧ ∃ w read, Relation.ReflTransGen AnyStep idleDevice w ∧
      w.reads = [read] ∧ read.session = 2 ∧ read.latest = some (pingRequest 2 2 9) ∧
      read.answered = some (pingRequest 1 1 7) ∧ (Message.decode read.word).value = 7 := by
  refine ⟨idle_device_probed, ?world, ?read, ?run, ?reads, ?session, ?latest, ?answered, ?value⟩
  case run =>
    -- The first session, which gives up waiting.
    refine .head ⟨_, .openClaim rfl⟩ ?_
    refine .head ⟨_, .openReset rfl⟩ ?_
    refine .head ⟨_, @Step.beginWrite _ (firstPing 7) _ rfl rfl rfl⟩ ?_
    refine .head ⟨_, @Step.sendTaken _ (pingRequest 1 1 7) rfl rfl⟩ ?_
    refine .head ⟨_, @Step.txDone _ 0⟩ ?_
    refine .head ⟨_, .releaseWait rfl rfl⟩ ?_
    refine .head ⟨_, .releaseReset rfl⟩ ?_
    refine .head ⟨_, .releaseDone rfl⟩ ?_
    -- The second session, which reads the late answer.
    refine .head ⟨_, .openClaim rfl⟩ ?_
    refine .head ⟨_, .openReset rfl⟩ ?_
    refine .head ⟨_, @Step.beginWrite _ (firstPing 9) _ rfl rfl rfl⟩ ?_
    refine .head ⟨_, @Step.sendTaken _ (pingRequest 2 2 9) rfl rfl⟩ ?_
    refine .head ⟨_, @Step.receive _ (pingRequest 1 1 7) (pingAnswer 7)
      List.mem_cons_self (ping_answered 1 1)⟩ ?_
    refine .head ⟨_, .beginRead rfl rfl rfl⟩ ?_
    refine .head ⟨_, .endRead rfl⟩ ?_
    exact .refl
  case reads => rfl
  case session => rfl
  case latest => rfl
  case answered => rfl
  case value => rfl

end NanoKvm.Sessions
