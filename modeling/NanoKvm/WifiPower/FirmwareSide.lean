import NanoKvm.WifiPower.Ownership

/-!
# The power service keeps the protocol

The service loads the request line twice, word by word, while Linux may be copying the next
request. Every byte of the line changes at most once during both copies, apart from the
commit, so two equal copies are the line as it was when the first one ended
(`captured_line`). A line that is not rejected then is the request that Linux has committed
and that has not been applied.
-/

namespace NanoKvm.WifiPower

open Exec

section

variable {generation : UInt32} {leftover : Line} {answer : Words} {s m t : Shared}

/-- The precondition of a program of the power service. -/
abbrev FirmwareRuns (generation : UInt32) (leftover : Line) (answer : Words) {α : Type}
    (program : FirmwareCode α) (post : α → Shared → Prop) (s : Shared) : Prop :=
  (firmwareMachine generation leftover answer).wp FirmwareAllowed program post s

/-! ## The request line during two copies -/

theorem firmware_rely_refl : FirmwareRely generation leftover answer s s :=
  ⟨rfl, rfl, rfl, List.prefix_rfl, List.prefix_rfl, fun _ => Nat.le_refl _, id⟩

theorem firmware_rely_trans (hfirst : FirmwareRely generation leftover answer s m)
    (hsecond : FirmwareRely generation leftover answer m t) :
    FirmwareRely generation leftover answer s t where
  completion := hsecond.completion.trans hfirst.completion
  applied := hsecond.applied.trans hfirst.applied
  published := hsecond.published.trans hfirst.published
  begun := hfirst.begun.trans hsecond.begun
  committed := hfirst.committed.trans hsecond.committed
  copied := by
    intro hlength
    have hleft := hfirst.begun.length_le
    have hright := hsecond.begun.length_le
    exact (hfirst.copied (by omega)).trans (hsecond.copied (by omega))
  valid := hsecond.valid ∘ hfirst.valid

/-- Any number of steps of the driver is within the reliance. -/
theorem firmware_interferes
    (h : (firmwareMachine generation leftover answer).Interferes s t) :
    FirmwareRely generation leftover answer s t := by
  induction h with
  | refl => exact firmware_rely_refl
  | tail _ hstep ih => exact firmware_rely_trans ih hstep

/-- A line to which nothing is being copied is the same before, or is the same afterwards. -/
theorem idle_between (hs : s.Valid generation leftover answer)
    (hfirst : FirmwareRely generation leftover answer s m)
    (hsecond : FirmwareRely generation leftover answer m t) (hidle : m.begun = m.committed) :
    m.request = s.request ∨ m.request = t.request := by
  have hm := hfirst.valid hs
  have ht := hsecond.valid hm
  have hgrown := hfirst.committed.length_le
  by_cases hlength : m.committed.length = s.committed.length
  · -- Nothing was composed in between.
    left
    have hcommitted : s.committed = m.committed := hfirst.committed.eq_of_length hlength.symm
    have hbegun : s.begun = s.committed := by
      have hup := hfirst.begun.length_le
      rw [hidle, hlength] at hup
      exact (hs.committed.eq_of_length (Nat.le_antisymm hs.committed.length_le hup)).symm
    rw [hm.idle hidle, hs.idle hbegun, hcommitted]
  · -- The request is not applied yet, so no other one can follow.
    right
    have happlied : t.applied.length = s.applied.length := by
      rw [hsecond.applied, hfirst.applied]
    have houtstanding := ht.outstanding
    have hlow := (valid_lengths hs).1
    have hup := hsecond.committed.length_le
    have hle := ht.committed.length_le
    have hcommitted : m.committed = t.committed := hsecond.committed.eq_of_length (by omega)
    have hbegun : t.begun = t.committed := (ht.committed.eq_of_length (by omega)).symm
    rw [hm.idle hidle, ht.idle hbegun, hcommitted]

/-- While a request is copied, a byte is as it was before, or as it is afterwards. -/
theorem copying_between (hs : s.Valid generation leftover answer)
    (hfirst : FirmwareRely generation leftover answer s m)
    (hsecond : FirmwareRely generation leftover answer m t)
    (hlength : m.applied.length = m.committed.length) {enabled : Bool}
    (hbegun : m.begun = m.committed ++ [command generation (m.committed.length + 1) enabled])
    {index : Fin 64} (hindex : index.val < 60) :
    m.request index = s.request index ∨ m.request index = t.request index := by
  have hm := hfirst.valid hs
  have ht := hsecond.valid hm
  have happlied : s.applied.length = m.applied.length := by rw [hfirst.applied]
  have hbegunLength : m.begun.length = m.committed.length + 1 := by
    rw [hbegun, List.length_append, List.length_singleton]
  have hrequest := hm.copying enabled hbegun
  by_cases hcopied : index.val < m.copied
  · -- The byte has been stored, and stays so.
    right
    have hvalue : m.request index =
        (requestRecord generation (.ofNat (m.committed.length + 1)) enabled).line index := by
      rw [hrequest, Line.splice, if_pos hcopied]
    have htapplied : t.applied.length = m.applied.length := by rw [hsecond.applied]
    have houtstanding := ht.outstanding
    have hgrown := hsecond.begun.length_le
    have hsame : m.begun = t.begun := hsecond.begun.eq_of_length (by omega)
    have hprogress := hsecond.copied (by rw [hsame])
    obtain hidle | ⟨htlength, other, htbegun, _⟩ := begun_cases ht
    · have hline := ht.idle hidle
      rw [← hidle, ← hsame, hbegun, previous_line_append] at hline
      rw [hvalue, hline, ← request_committed]
      exact (committed_line _ hindex).symm
    · have hcommitted : m.committed = t.committed :=
        hsecond.committed.eq_of_length (by omega)
      rw [← hsame, ← hcommitted] at htbegun
      have hline := ht.copying enabled (by rw [← hsame, ← hcommitted, hbegun])
      rw [hvalue, hline, Line.splice, if_pos (by omega), hcommitted]
  · -- The byte has not been stored, so neither was it before.
    left
    have hvalue : m.request index = previousLine leftover m.committed index := by
      rw [hrequest, Line.splice, if_neg hcopied]
    have hlow := (valid_lengths hs).1
    have hup := hfirst.committed.length_le
    have hcommitted : s.committed = m.committed := hfirst.committed.eq_of_length (by omega)
    obtain hidle | ⟨hslength, other, hsbegun, _⟩ := begun_cases hs
    · rw [hvalue, hs.idle hidle, hcommitted]
    · have hlengths : s.begun.length = m.begun.length := by
        rw [hsbegun, List.length_append, List.length_singleton, hcommitted, hbegunLength]
      have hprogress := hfirst.copied hlengths
      rw [hvalue, hs.copying other hsbegun, Line.splice, if_neg (by omega), hcommitted]

/-- A word other than the commit that is the same before and afterwards is the same in between. -/
theorem word_between (hs : s.Valid generation leftover answer)
    (hfirst : FirmwareRely generation leftover answer s m)
    (hsecond : FirmwareRely generation leftover answer m t) {index : Fin 16}
    (hindex : index ≠ commitIndex) (hsame : s.request.word index = t.request.word index) :
    m.request.word index = s.request.word index := by
  have hbytes : ∀ part, m.request (byteAt index part) = s.request (byteAt index part) ∨
      m.request (byteAt index part) = t.request (byteAt index part) := by
    intro part
    obtain hidle | ⟨hlength, enabled, hbegun, _⟩ := begun_cases (hfirst.valid hs)
    · obtain heq | heq := idle_between hs hfirst hsecond hidle
      · exact .inl (congrFun heq _)
      · exact .inr (congrFun heq _)
    · refine copying_between hs hfirst hsecond hlength hbegun ?_
      have hne : index.val ≠ 15 := fun heq => hindex (Fin.ext heq)
      show 4 * index.val + part.val < 60
      omega
  apply word_congr
  intro part
  rcases hbytes part with heq | heq
  · exact heq
  · rw [heq]
    exact (byte_eq_of_word hsame part).symm

/-! ## Accepted records -/

/-- A record that `process` looks at has a commit above the completed sequence. -/
theorem accepted_commit {record : Record} {completed : UInt32}
    (h : ¬ rejected record generation completed = true) :
    completed.toNat < record.sequence.toNat ∧ record.commit = record.sequence := by
  simp only [rejected, Bool.or_eq_true, not_or, bne_iff_ne, ne_eq, not_not, decide_eq_true_eq,
    UInt32.le_iff_toNat_le] at h
  obtain ⟨⟨⟨⟨_, hsequence⟩, hcommit⟩, _⟩, _⟩ := h
  exact ⟨Nat.lt_of_not_le hsequence, hcommit⟩

/-- A line that is not rejected holds the request that is committed and not applied. -/
theorem accepted_committed (hleftover : Harmless generation leftover)
    (h : s.Valid generation leftover answer) {completed : UInt32}
    (hcompleted : completed.toNat = s.applied.length)
    (haccepted : ¬ rejected (Record.ofWords s.request.word) generation completed = true) :
    s.committed = s.applied.map Prod.fst ++ [Record.ofWords s.request.word] := by
  obtain ⟨hsequence, hcommit⟩ := accepted_commit haccepted
  have hword : s.request.word commitIndex = (Record.ofWords s.request.word).commit := rfl
  have hnone : s.committed = [] → completed = 0 := by
    intro hnil
    have hle := (valid_lengths h).1
    rw [hnil, List.length_nil] at hle
    apply UInt32.toNat_inj.1
    rw [hcompleted]
    show s.applied.length = 0
    omega
  obtain hidle | ⟨hlength, enabled, hbegun, hfirst⟩ := begun_cases h
  · have hrequest := h.idle hidle
    match hlast : s.committed.getLast? with
    | none =>
        -- The leftover line is rejected as it is.
        have hnil := List.getLast?_eq_none_iff.1 hlast
        rw [hnil, previous_line_nil] at hrequest
        have hharmless := hleftover 0
        rw [splice_zero] at hharmless
        rw [hrequest, hnone hnil] at haccepted
        exact absurd hharmless haccepted
    | some record =>
        obtain ⟨init, hinit⟩ := List.getLast?_eq_some_iff.1 hlast
        rw [hinit, previous_line_append] at hrequest
        have hrecord : Record.ofWords s.request.word = record := by
          rw [hrequest, of_words_line]
        have hnumber := (last_sequence h hlast).1
        rw [hrecord] at hsequence ⊢
        -- Its sequence is above the completed one, so it has not been applied.
        have hcommittedLength : s.committed.length = init.length + 1 := by
          rw [hinit, List.length_append, List.length_singleton]
        have houtstanding := h.outstanding
        rw [hidle] at houtstanding
        have hprefix := h.applied
        rw [hinit] at hprefix ⊢
        have hinitPrefix : s.applied.map Prod.fst <+: init := by
          apply List.prefix_of_prefix_length_le hprefix (List.prefix_append _ _)
          rw [List.length_map]
          omega
        rw [hinitPrefix.eq_of_length (by rw [List.length_map]; omega)]
  · have hrequest := h.copying enabled hbegun
    match hlast : s.committed.getLast? with
    | none =>
        -- The first request is being copied over the leftover line.
        have hnil := List.getLast?_eq_none_iff.1 hlast
        rw [hnil, previous_line_nil, hfirst hnil] at hrequest
        have hharmless := hleftover s.copied
        rw [hnone hnil, hrequest] at haccepted
        exact absurd hharmless haccepted
    | some record =>
        -- The commit is at most that of the request before, which is completed.
        obtain ⟨init, hinit⟩ := List.getLast?_eq_some_iff.1 hlast
        have hprevious : previousLine leftover s.committed = record.line := by
          rw [hinit, previous_line_append]
        have hgrown := splice_commit_le (previousLine leftover s.committed)
          (show (requestRecord generation (.ofNat (s.committed.length + 1)) enabled).commit = 0
            from rfl) s.copied
        obtain ⟨other, hrecord, _⟩ := last_command h hlast
        have hold : (record.line.word commitIndex).toNat = s.committed.length := by
          have hcommitWord : record.line.word commitIndex = record.sequence := by
            show (Record.ofWords record.line.word).commit = _
            rw [of_words_line, hrecord]
            rfl
          rw [hcommitWord]
          exact (last_sequence h hlast).1
        rw [← hrequest, hprevious, hold, hword, hcommit] at hgrown
        omega

/-! ## The steps of the service -/

/-- The service between two steps. -/
structure FirmwareIdle (generation : UInt32) (leftover : Line) (answer : Words)
    (completed : UInt32) (s : Shared) : Prop where
  valid : s.Valid generation leftover answer
  published : s.published = s.applied.length
  completed : completed.toNat = s.applied.length

theorem firmware_idle_stable (completed : UInt32) :
    (firmwareMachine generation leftover answer).Stable
      (FirmwareIdle generation leftover answer completed) := by
  intro s next h hrely
  refine ⟨hrely.valid h.valid, ?_, ?_⟩
  · rw [hrely.published, hrely.applied, h.published]
  · rw [hrely.applied, h.completed]

/-- One copy of the request line. -/
theorem read_request_runs : FirmwareRuns generation leftover answer readRequest
    ((firmwareMachine generation leftover answer).Captured (fun s index => s.request.word index)
      recordIndices commitIndex s) s := by
  rw [readRequest, commit_loaded_last]
  apply Machine.wp_captured
  · intro index before
    refine @Machine.wp_load _ FirmwareOp.Ret _ _ FirmwareAllowed (.loadRequest index)
      (fun t : Shared => t.request.word index) _ (fun _ => trivial) ?_
    intro t word next hnext
    exact hnext
  · decide

/-- Two equal copies are the line as it was at the end of the first one. -/
theorem captured_line {first second : Words} (hs : s.Valid generation leftover answer)
    (hfirst : (firmwareMachine generation leftover answer).Captured
      (fun s index => s.request.word index) recordIndices commitIndex s first m)
    (hsecond : (firmwareMachine generation leftover answer).Captured
      (fun s index => s.request.word index) recordIndices commitIndex m second t)
    (hsame : first = second) :
    ∃ moment, FirmwareRely generation leftover answer s moment ∧
      FirmwareRely generation leftover answer moment t ∧ first = moment.request.word := by
  obtain ⟨moment, hmoment, hmiddle, hcommit, hwords⟩ := hfirst
  obtain ⟨_, hlast, hend, _, hagain⟩ := hsecond
  refine ⟨moment, firmware_interferes hmoment,
    firmware_interferes (hmiddle.trans (hlast.trans hend)), ?_⟩
  funext index
  by_cases hindex : index = commitIndex
  · rw [hindex]
    exact hcommit
  · obtain ⟨before, hbefore, hearly, hvalue⟩ := hwords index (mem_record_indices hindex)
    obtain ⟨after, hlate, _, hother⟩ := hagain index (mem_record_indices hindex)
    have hvalid := (firmware_interferes hbefore).valid hs
    have hvalue : first index = before.request.word index := hvalue
    have hother : second index = after.request.word index := hother
    have hbetween := word_between hvalid (firmware_interferes hearly)
      (firmware_interferes (hmiddle.trans hlate)) hindex
      (by rw [← hvalue, ← hother, hsame])
    rw [hbetween]
    exact hvalue

/-- The answer that is being written. -/
structure Answering (generation : UInt32) (leftover : Line) (answer : Words)
    (log : List (Record × Bool)) (words : Words) (s : Shared) : Prop where
  valid : s.Valid generation leftover answer
  applied : s.applied = log
  published : s.published + 1 = log.length
  completion : s.completion = words

theorem answering_stable (applied : List (Record × Bool)) (completion : Words) :
    (firmwareMachine generation leftover answer).Stable
      (Answering generation leftover answer applied completion) := by
  intro s next h hrely
  exact ⟨hrely.valid h.valid, hrely.applied.trans h.applied, by rw [hrely.published, h.published],
    hrely.completion.trans h.completion⟩

/-- The answer says what the last request came to. -/
def Answers (response : Record) (applied : List (Record × Bool)) : Prop :=
  response.commit = 0 ∧ response.sequence.toNat = applied.length ∧
    ∃ record succeeded, applied.getLast? = some (record, succeeded) ∧
      response.enabled = if succeeded = true then record.enabled else maxWord

/-- The words of an answer are written one after another. -/
theorem write_words_runs {response : Record} {applied : List (Record × Bool)}
    (hresponse : Answers response applied) (order : List (Fin 16)) (written : List (Fin 16))
    {completion : Words} (h : Answering generation leftover answer applied completion s)
    (hwritten : ∀ index ∈ written, completion index = response.toWords index) :
    FirmwareRuns generation leftover answer (writeWords response.toWords order)
      (fun _ t => ∃ completion, Answering generation leftover answer applied completion t ∧
        ∀ index ∈ written ++ order, completion index = response.toWords index) s := by
  induction order generalizing s written completion with
  | nil =>
      refine Machine.wp_pure ?_ ⟨completion, h, ?_⟩
      · rintro t next ⟨words, ht, hwords⟩ hrely
        exact ⟨words, answering_stable applied words t next ht hrely, hwords⟩
      · rw [List.append_nil]
        exact hwritten
  | cons index rest ih =>
      obtain ⟨hrevoked, _, record, succeeded, hlast, henabled⟩ := hresponse
      have hallowed : ∀ t, Answering generation leftover answer applied completion t →
          FirmwareAllowed t (.writeCompletion index (response.toWords index)) := by
        intro t ht
        have hpublished := ht.published
        refine ⟨by rw [ht.applied]; omega, ?_, ?_⟩
        · intro hindex
          have hword : response.toWords index = response.enabled := by
            rw [hindex]
            rfl
          rw [hword, henabled, ht.applied]
          cases succeeded with
          | true => exact .inr ⟨record, hlast⟩
          | false => exact .inl rfl
        · intro hindex
          rw [hindex]
          exact hrevoked
      rw [List.append_cons]
      refine Machine.wp_perform (answering_stable applied completion) h hallowed ?_
      intro t _ next ht hnext
      rw [show next = _ from hnext]
      refine ih (written ++ [index])
        ⟨valid_write_completion ht.valid (hallowed t ht), ht.applied, ht.published, rfl⟩ ?_
      intro other hother
      show Function.update t.completion index (response.toWords index) other = _
      by_cases hindex : other = index
      · rw [hindex, Function.update_self]
      · rw [Function.update_of_ne hindex, ht.completion]
        rcases List.mem_append.1 hother with hold | hnew
        · exact hwritten other hold
        · exact absurd (List.mem_singleton.1 hnew) hindex

/-- `publishCompletion` answers the last request. -/
theorem publish_completion_runs {response : Record} {applied : List (Record × Bool)}
    (hresponse : Answers response applied) {completion : Words}
    (h : Answering generation leftover answer applied completion s) :
    FirmwareRuns generation leftover answer (publishCompletion response)
      (fun _ => FirmwareIdle generation leftover answer response.sequence) s := by
  refine Machine.wp_look (answering_stable applied completion) h (fun _ _ _ hnext => hnext.2)
    (fun _ _ => trivial) ?_
  intro t order ht horder
  refine Machine.wp_bind (Machine.wp_mono (write_words_runs hresponse order [] ht
    fun index hindex => absurd hindex List.not_mem_nil) ?_)
  rintro _ t ⟨words, ht, hwords⟩
  obtain ⟨_, hsequence, record, succeeded, hlast, henabled⟩ := hresponse
  have hallowed : ∀ t, Answering generation leftover answer applied words t →
      FirmwareAllowed t (.publish response.sequence) := by
    intro t ht
    have hpublished := ht.published
    refine ⟨by rw [ht.applied]; omega, by rw [ht.applied, hsequence], ?_⟩
    intro other hother
    rw [ht.applied, hlast] at hother
    cases hother
    have hmem : enabledIndex ∈ [] ++ order := by
      rw [List.nil_append, horder.1.mem_iff]
      exact List.mem_finRange enabledIndex
    rw [ht.completion, hwords enabledIndex hmem]
    exact henabled
  refine Machine.wp_tail (Machine.wp_perform (answering_stable applied words) ht hallowed ?_)
  intro t _ next ht hnext
  rw [show next = _ from hnext]
  refine Machine.wp_pure (firmware_idle_stable response.sequence)
    ⟨valid_publish ht.valid (hallowed t ht), ?_, ?_⟩
  · show t.published + 1 = t.applied.length
    rw [ht.published, ht.applied]
  · show response.sequence.toNat = t.applied.length
    rw [ht.applied, hsequence]

/-- The outstanding request stays outstanding until the service applies it. -/
theorem outstanding_stable (completed : UInt32) (record : Record) :
    (firmwareMachine generation leftover answer).Stable (fun t =>
      FirmwareIdle generation leftover answer completed t ∧
        t.committed = t.applied.map Prod.fst ++ [record]) := by
  rintro t next ⟨hidle, hcommitted⟩ hrely
  have hnext := firmware_idle_stable completed t next hidle hrely
  refine ⟨hnext, ?_⟩
  have houtstanding := hnext.valid.outstanding
  have hle := (valid_lengths hnext.valid).2
  have hlength : t.committed.length = t.applied.length + 1 := by
    rw [hcommitted, List.length_append, List.length_map, List.length_singleton]
  have hgrown := hrely.committed.length_le
  have happlied := congrArg List.length hrely.applied
  rw [← hrely.committed.eq_of_length (by omega), hcommitted, hrely.applied]

/-- `process` of the outstanding request -/
theorem process_runs {completed : UInt32} {record : Record}
    (haccepted : ¬ rejected record generation completed = true)
    (h : FirmwareIdle generation leftover answer completed s ∧
      s.committed = s.applied.map Prod.fst ++ [record]) :
    FirmwareRuns generation leftover answer (process record generation completed)
      (fun result t => ∃ response applied completion, result = (record.sequence, some response) ∧
        response.sequence = record.sequence ∧ Answers response applied ∧
        Answering generation leftover answer applied completion t) s := by
  unfold process
  rw [if_neg haccepted]
  refine Machine.wp_perform (outstanding_stable completed record) h ?_ ?_
  · intro t ht
    exact ⟨ht.1.published, ht.2⟩
  · rintro t succeeded next ⟨hidle, hcommitted⟩ hnext
    rw [show next = _ from hnext]
    have hlast : t.committed.getLast? = some record := by
      rw [hcommitted, List.getLast?_concat]
    have hlength : t.committed.length = t.applied.length + 1 := by
      rw [hcommitted, List.length_append, List.length_map, List.length_singleton]
    have hsequence := (last_sequence hidle.valid hlast).1
    have hallowed : FirmwareAllowed t (.apply record) := ⟨hidle.published, hcommitted⟩
    have hvalid := valid_apply hidle.valid hallowed succeeded
    refine Machine.wp_pure ?_ ⟨_, t.applied ++ [(record, succeeded)], t.completion, rfl, rfl,
      ⟨rfl, ?_, record, succeeded, List.getLast?_concat, ?_⟩, hvalid, rfl, ?_, rfl⟩
    · rintro t next ⟨response, applied, completion, hresult, hsame, hresponse, ht⟩ hrely
      exact ⟨response, applied, completion, hresult, hsame, hresponse,
        answering_stable applied completion t next ht hrely⟩
    · rw [List.length_append, List.length_singleton, ← hlength]
      exact hsequence
    · cases succeeded <;> rfl
    · rw [List.length_append, List.length_singleton, ← hidle.published]
      rfl

/-- `step` -/
theorem step_runs (hleftover : Harmless generation leftover) {completed : UInt32}
    (h : FirmwareIdle generation leftover answer completed s) :
    FirmwareRuns generation leftover answer (step generation completed)
      (fun result => FirmwareIdle generation leftover answer result) s := by
  refine Machine.wp_bind (Machine.wp_mono read_request_runs ?_)
  intro first m hfirst
  refine Machine.wp_bind (Machine.wp_mono read_request_runs ?_)
  intro second t hsecond
  have hidle : FirmwareIdle generation leftover answer completed t := by
    obtain ⟨_, hone, htwo, _⟩ := hfirst
    obtain ⟨_, hthree, hfour, _⟩ := hsecond
    exact (firmware_idle_stable completed).reachable h
      (((hone.trans htwo).trans hthree).trans hfour)
  split
  · exact Machine.wp_pure (firmware_idle_stable completed) hidle
  · rename_i hsame
    rw [ne_eq, not_not] at hsame
    by_cases haccepted : rejected (Record.ofWords first) generation completed = true
    · have hprocess : process (Record.ofWords first) generation completed =
          pure (completed, none) := by
        rw [process, if_pos haccepted]
      rw [hprocess]
      exact Machine.wp_pure (firmware_idle_stable completed) hidle
    · -- The line was outstanding when the first copy ended, and it still is.
      obtain ⟨moment, hmoment, hlater, hline⟩ :=
        captured_line h.valid hfirst hsecond (of_words_inj hsame)
      have hthen := firmware_idle_stable completed s moment h hmoment
      rw [hline] at haccepted ⊢
      have hcommitted := accepted_committed hleftover hthen.valid hthen.completed haccepted
      have houtstanding := outstanding_stable completed _ moment t ⟨hthen, hcommitted⟩ hlater
      refine Machine.wp_bind (Machine.wp_mono (process_runs haccepted houtstanding) ?_)
      rintro _ u ⟨response, applied, completion, rfl, hsequence, hresponse, hu⟩
      refine Machine.wp_bind (Machine.wp_mono (publish_completion_runs hresponse hu) ?_)
      intro _ u hu
      rw [hsequence] at hu
      exact Machine.wp_pure (firmware_idle_stable _) hu

/-- Any number of steps. -/
theorem firmware_main_runs (hleftover : Harmless generation leftover) (steps : Nat)
    {completed : UInt32} (h : FirmwareIdle generation leftover answer completed s) :
    FirmwareRuns generation leftover answer (firmwareMain generation completed steps)
      (fun _ t => t.Valid generation leftover answer) s := by
  induction steps generalizing s completed with
  | zero => exact Machine.wp_pure (fun t next ht hrely => hrely.valid ht) h.valid
  | succ steps ih =>
      refine Machine.wp_bind (Machine.wp_mono (step_runs hleftover h) ?_)
      intro result t ht
      exact ih ht

end

end NanoKvm.WifiPower
