import NanoKvm.Lcd.Ownership

/-!
# The driver keeps the protocol

Between two calls without a latched fault every request has been streamed. A call writes
the slot that was not used last, so the service does not hold it, and it returns success
only after the completion line has reported it; by the invariant the frame has been
streamed then. A fault is latched for good, so that nothing is written after it.
-/

namespace NanoKvm.Lcd

open Exec

theorem next_sequence_ne_zero (sequence : UInt32) : nextSequence sequence ≠ 0 := by
  unfold nextSequence
  split
  · decide
  · assumption

theorem next_sequence_ne (sequence : UInt32) : nextSequence sequence ≠ sequence := by
  unfold nextSequence
  split
  · intro heq
    subst heq
    contradiction
  · intro heq
    have hnat := congrArg UInt32.toNat heq
    have hlt := sequence.toNat_lt
    rw [UInt32.toNat_add, UInt32.toNat_one] at hnat
    omega

theorem frame_completed_done {generation sequence : UInt32} {first second : Line}
    (h : frameCompleted generation sequence first second = .done) :
    second commitIndex = sequence ∧ second 3 = 0 := by
  unfold frameCompleted at h
  dsimp only at h
  split at h
  · cases h
  · rename_i hsame
    rw [ne_eq, not_not] at hsame
    split at h
    · cases h
    · rename_i hheader
      simp only [not_or, ne_eq, not_not] at hheader
      split at h
      · cases h
      · split at h
        · cases h
        · rename_i hresult
          rw [ne_eq, not_not] at hresult
          exact ⟨hsame ▸ hheader.2.2.2, hsame ▸ hresult⟩

section

variable {generation : UInt32} {leftover : Slot → Line} {s : Shared} {α : Type}

/-- The precondition of a program of the driver. -/
abbrev LinuxRuns (generation : UInt32) (leftover : Slot → Line) {α : Type}
    (program : LinuxCode α) (post : α → Shared → Prop) (s : Shared) : Prop :=
  (linuxMachine generation leftover).wp LinuxAllowed program post s

/-! ## What the driver knows -/

/-- Every request has been streamed, and the driver's own memory is known. -/
structure Owns (generation : UInt32) (leftover : Slot → Line) (request : Slot → Line)
    (pixels : Slot → Nat → UInt16) (committed : List Request) (s : Shared) : Prop where
  valid : s.Valid generation leftover
  request : s.request = request
  pixels : s.pixels = pixels
  committed : s.committed = committed
  scanned : s.scanned.length = s.committed.length

/-- The requests so far are known. -/
structure Waits (generation : UInt32) (leftover : Slot → Line) (committed : List Request)
    (s : Shared) : Prop where
  valid : s.Valid generation leftover
  committed : s.committed = committed

/-- No more is streamed than was committed. -/
theorem scanned_le (h : s.Valid generation leftover) :
    s.scanned.length ≤ s.committed.length := by
  have hscanned := h.scanned.length_le
  rw [List.length_map] at hscanned
  exact hscanned.trans h.accepted.length_le

theorem owns_stable (request : Slot → Line) (pixels : Slot → Nat → UInt16)
    (committed : List Request) : (linuxMachine generation leftover).Stable
      (Owns generation leftover request pixels committed) := by
  intro s next h hrely
  have hvalid := hrely.valid h.valid
  refine ⟨hvalid, hrely.request.trans h.request, hrely.pixels.trans h.pixels,
    hrely.committed.trans h.committed, ?_⟩
  have hle := scanned_le hvalid
  have hgrown := hrely.scanned
  have hscanned := h.scanned
  rw [hrely.committed] at hle ⊢
  omega

theorem waits_stable (committed : List Request) : (linuxMachine generation leftover).Stable
    (Waits generation leftover committed) := by
  intro s next h hrely
  exact ⟨hrely.valid h.valid, hrely.committed.trans h.committed⟩

/-- The driver's bookkeeping between two calls. -/
structure BooksMatch (fb : LcdFrames) (committed : List Request) : Prop where
  sequence : ∀ slot, fb.sequence slot = lastSequence committed slot
  completed : ∀ slot, fb.completed slot = fb.sequence slot
  next : ∀ request, committed.getLast? = some request → request.slot ≠ fb.nextSlot

/-- The driver between two calls. -/
structure DriverIdle (generation : UInt32) (leftover : Slot → Line) (fb : LcdFrames)
    (s : Shared) : Prop where
  valid : s.Valid generation leftover
  scanned : fb.fault = none → s.scanned.length = s.committed.length
  books : fb.fault = none → BooksMatch fb s.committed

theorem driver_idle_stable (fb : LcdFrames) : (linuxMachine generation leftover).Stable
    (DriverIdle generation leftover fb) := by
  intro s next h hrely
  have hvalid := hrely.valid h.valid
  refine ⟨hvalid, fun hfault => ?_, fun hfault => ?_⟩
  · have hle := scanned_le hvalid
    have hgrown := hrely.scanned
    have hscanned := h.scanned hfault
    rw [hrely.committed] at hle ⊢
    omega
  · rw [hrely.committed]
    exact h.books hfault

/-! ## Waiting -/

/-- A wait for a slot whose frame is known to be complete looks at nothing. -/
theorem wait_slot_complete {assertion : Shared → Prop}
    (hstable : (linuxMachine generation leftover).Stable assertion) {fb : LcdFrames} {slot : Slot}
    (hdone : fb.completed slot = fb.sequence slot) (turns : Nat) (h : assertion s) :
    LinuxRuns generation leftover (waitSlot generation fb slot turns)
      (fun result t => result.1 = fb ∧ assertion t) s := by
  have hpost : (linuxMachine generation leftover).Stable (fun t => fb = fb ∧ assertion t) :=
    fun t next ht hrely => ⟨rfl, hstable t next ht.2 hrely⟩
  induction turns generalizing s with
  | zero => exact Machine.wp_pure hpost ⟨rfl, h⟩
  | succ turns ih =>
      refine Machine.wp_look hstable h (fun _ _ _ hnext => hnext) (fun _ _ => trivial) ?_
      intro t check ht _
      cases check with
      | failed error => exact Machine.wp_pure hpost ⟨rfl, ht⟩
      | again => exact ih ht
      | current =>
          dsimp only
          rw [if_pos (.inr hdone)]
          exact Machine.wp_pure hpost ⟨rfl, ht⟩

/-- The driver after a wait for the request it has committed. -/
def Waited (generation : UInt32) (leftover : Slot → Line) (fb : LcdFrames) (slot : Slot)
    (committed : List Request) (result : LcdFrames × Option Errno) (s : Shared) : Prop :=
  Waits generation leftover committed s ∧ (result.2 = none →
    result.1 = { fb with completed := Function.update fb.completed slot (fb.sequence slot) } ∧
      s.scanned.length = committed.length)

theorem waited_stable (fb : LcdFrames) (slot : Slot) (committed : List Request)
    (result : LcdFrames × Option Errno) : (linuxMachine generation leftover).Stable
      (Waited generation leftover fb slot committed result) := by
  intro s next h hrely
  have hwaits := waits_stable committed s next h.1 hrely
  refine ⟨hwaits, fun hnone => ⟨(h.2 hnone).1, ?_⟩⟩
  have hle := scanned_le hwaits.valid
  have hgrown := hrely.scanned
  have hscanned := (h.2 hnone).2
  rw [hwaits.committed] at hle
  omega

/-- A wait for the request that the driver has committed succeeds only if it was streamed. -/
theorem wait_slot_committed {fb : LcdFrames} {committed : List Request} {request : Request}
    (hlast : committed.getLast? = some request)
    (hsequence : fb.sequence request.slot = request.record.sequence)
    (hpositive : request.record.sequence ≠ 0)
    (hopen : fb.completed request.slot ≠ request.record.sequence) (turns : Nat)
    (h : Waits generation leftover committed s) :
    LinuxRuns generation leftover (waitSlot generation fb request.slot turns)
      (Waited generation leftover fb request.slot committed) s := by
  have hstable := @waits_stable generation leftover committed
  have hwaited := @waited_stable generation leftover fb request.slot committed
  have hfailed : ∀ {t : Shared} (error : Errno), Waits generation leftover committed t →
      LinuxRuns generation leftover (pure (fb, some error))
        (Waited generation leftover fb request.slot committed) t := by
    intro t error ht
    exact Machine.wp_pure (hwaited _) ⟨ht, fun hnone => nomatch hnone⟩
  induction turns generalizing s with
  | zero => exact hfailed .timedOut h
  | succ turns ih =>
      refine Machine.wp_look hstable h (fun _ _ _ hnext => hnext) (fun _ _ => trivial) ?_
      intro t check ht _
      cases check with
      | failed error => exact hfailed error ht
      | again => exact ih ht
      | current =>
          have hneither : ¬ (fb.sequence request.slot = 0 ∨
              fb.completed request.slot = fb.sequence request.slot) := by
            rw [hsequence]
            exact fun hor => hor.elim hpositive hopen
          dsimp only
          rw [if_neg hneither]
          refine Machine.wp_look hstable ht (fun _ _ _ hnext => hnext.2) (fun _ _ => trivial) ?_
          intro t first ht _
          refine Machine.wp_look hstable ht (fun _ _ _ hnext => hnext.2) (fun _ _ => trivial) ?_
          intro t second ht hread
          cases hpoll : frameCompleted generation (fb.sequence request.slot) first second with
          | pending => exact ih ht
          | failed error => exact hfailed error ht
          | done =>
              -- The second snapshot is the line at this moment.
              have hline : second = t.completion request.slot := hread.1
              obtain ⟨hcommit, hresult⟩ := frame_completed_done hpoll
              rw [hline] at hcommit hresult
              rw [hsequence] at hcommit
              refine Machine.wp_pure (hwaited _) ⟨ht, fun _ => ⟨rfl, ?_⟩⟩
              have hle := scanned_le ht.valid
              have hunfinished := ht.valid.unfinished
              rw [ht.committed] at hle hunfinished
              by_contra hne
              exact hunfinished (by omega) request hlast ⟨hcommit, hresult⟩

/-! ## Handing a slot over -/

/-- What has been streamed was accepted. -/
theorem owns_accepted {request : Slot → Line} {pixels : Slot → Nat → UInt16}
    {committed : List Request} (h : Owns generation leftover request pixels committed s) :
    s.accepted = committed := by
  have hscanned := h.valid.scanned.length_le
  rw [List.length_map, h.scanned] at hscanned
  rw [← h.committed]
  exact h.valid.accepted.eq_of_length (Nat.le_antisymm h.valid.accepted.length_le hscanned)

/-- The driver may write the slot that it has not used last. -/
theorem owns_idle {request : Slot → Line} {pixels : Slot → Nat → UInt16}
    {committed : List Request} {slot : Slot}
    (h : Owns generation leftover request pixels committed s)
    (hslot : ∀ last, committed.getLast? = some last → last.slot ≠ slot) : s.Idle slot := by
  refine ⟨h.scanned, ?_⟩
  rintro ⟨_, last, hlast, rfl⟩
  rw [owns_accepted h] at hlast
  exact hslot last hlast rfl

/-- The cell has been written. -/
def Holds (slot : Slot) (line : Line) (frame : Nat → UInt16) (request : Slot → Line)
    (pixels : Slot → Nat → UInt16) : Cell → Prop
  | .word index => request slot index = line index
  | .pixel index => pixels slot index = frame index

/-- A slot whose cells are being written. -/
structure Filling (generation : UInt32) (leftover : Slot → Line) (slot : Slot) (line : Line)
    (frame : Nat → UInt16) (committed : List Request) (written : List Cell)
    (request : Slot → Line) (pixels : Slot → Nat → UInt16) (s : Shared) : Prop where
  owns : Owns generation leftover request pixels committed s
  revoked : request slot commitIndex = 0
  holds : ∀ cell ∈ written, Holds slot line frame request pixels cell

section

variable {slot : Slot} {line : Line} {frame : Nat → UInt16} {committed : List Request}
variable {written : List Cell} {request : Slot → Line} {pixels : Slot → Nat → UInt16}

theorem filling_stable : (linuxMachine generation leftover).Stable
    (Filling generation leftover slot line frame committed written request pixels) := by
  intro s next h hrely
  exact ⟨owns_stable request pixels committed s next h.owns hrely, h.revoked, h.holds⟩

/-- The commit stays revoked while a word is written. -/
theorem filling_revoked (hline : line commitIndex = 0)
    (h : Filling generation leftover slot line frame committed written request pixels s)
    (index : Fin 16) : ((s.request slot).set index (line index)) commitIndex = 0 := by
  by_cases hindex : commitIndex = index
  · rw [← hindex, line_set_self, hline]
  · rw [line_set_other _ hindex, h.owns.request, h.revoked]

theorem filling_word (hline : line commitIndex = 0)
    (h : Filling generation leftover slot line frame committed written request pixels s)
    (hidle : s.Idle slot) (index : Fin 16) :
    Filling generation leftover slot line frame committed (written ++ [.word index])
      (s.writeRequest slot index (line index)).request pixels
      (s.writeRequest slot index (line index)) := by
  have hrevoked := filling_revoked hline h index
  have hself : (s.writeRequest slot index (line index)).request slot =
      (s.request slot).set index (line index) := by
    simp [Shared.writeRequest]
  refine ⟨⟨valid_write_request h.owns.valid hidle hrevoked, rfl, h.owns.pixels,
    h.owns.committed, h.owns.scanned⟩, by rw [hself]; exact hrevoked, ?_⟩
  intro cell hcell
  rcases List.mem_append.1 hcell with hold | hnew
  · have hholds := h.holds cell hold
    cases cell with
    | pixel other => exact hholds
    | word other =>
        show (s.writeRequest slot index (line index)).request slot other = line other
        rw [hself]
        by_cases hindex : other = index
        · rw [hindex, line_set_self]
        · rw [line_set_other _ hindex, h.owns.request]
          exact hholds
  · rw [List.mem_singleton.1 hnew]
    show (s.writeRequest slot index (line index)).request slot index = line index
    rw [hself, line_set_self]

theorem filling_pixel
    (h : Filling generation leftover slot line frame committed written request pixels s)
    (hidle : s.Idle slot) (index : Nat) :
    Filling generation leftover slot line frame committed (written ++ [.pixel index])
      request (s.writePixel slot index (frame index)).pixels
      (s.writePixel slot index (frame index)) := by
  have hself : ∀ other, (s.writePixel slot index (frame index)).pixels slot other =
      if other = index then frame index else s.pixels slot other := by
    intro other
    by_cases hother : other = index
    · simp [Shared.writePixel, hother]
    · simp [Shared.writePixel, hother]
  refine ⟨⟨valid_write_pixel h.owns.valid hidle, h.owns.request, rfl, h.owns.committed,
    h.owns.scanned⟩, h.revoked, ?_⟩
  intro cell hcell
  rcases List.mem_append.1 hcell with hold | hnew
  · have hholds := h.holds cell hold
    cases cell with
    | word other => exact hholds
    | pixel other =>
        show (s.writePixel slot index (frame index)).pixels slot other = frame other
        rw [hself]
        split
        · rename_i hindex
          rw [hindex]
        · rw [h.owns.pixels]
          exact hholds
  · rw [List.mem_singleton.1 hnew]
    show (s.writePixel slot index (frame index)).pixels slot index = frame index
    rw [hself, if_pos rfl]

/-- All cells are written, in whatever order. -/
theorem write_cells_runs (hline : line commitIndex = 0)
    (hslot : ∀ last, committed.getLast? = some last → last.slot ≠ slot) (cells : List Cell)
    (h : Filling generation leftover slot line frame committed written request pixels s) :
    LinuxRuns generation leftover (writeCells slot line frame cells)
      (fun _ t => ∃ request pixels, Filling generation leftover slot line frame committed
        (written ++ cells) request pixels t) s := by
  induction cells generalizing s written request pixels with
  | nil =>
      refine Machine.wp_pure ?_ ⟨request, pixels, by rw [List.append_nil]; exact h⟩
      rintro t next ⟨request, pixels, ht⟩ hrely
      exact ⟨request, pixels, filling_stable t next ht hrely⟩
  | cons cell rest ih =>
      rw [List.append_cons]
      cases cell with
      | word index =>
          refine Machine.wp_perform filling_stable h ?_ ?_
          · intro t ht
            exact ⟨owns_idle ht.owns hslot, filling_revoked hline ht index⟩
          · intro t _ next ht hnext
            rw [show next = _ from hnext]
            exact ih (filling_word hline ht (owns_idle ht.owns hslot) index)
      | pixel index =>
          refine Machine.wp_perform filling_stable h ?_ ?_
          · intro t ht
            exact owns_idle ht.owns hslot
          · intro t _ next ht hnext
            rw [show next = _ from hnext]
            exact ih (filling_pixel ht (owns_idle ht.owns hslot) index)

end

/-- A completion line that was found at the start does not report success for a first request. -/
def Unambiguous (leftover : Slot → Line) : Prop :=
  ∀ slot, ¬ (leftover slot commitIndex = 1 ∧ leftover slot 3 = 0)

/-- The completion line does not report success for the next request of a slot. -/
theorem next_not_succeeds (hleftover : Unambiguous leftover) {fb : LcdFrames}
    {request : Slot → Line} {pixels : Slot → Nat → UInt16} {committed : List Request}
    (h : Owns generation leftover request pixels committed s) (hbooks : BooksMatch fb committed)
    (frame : Frame) :
    ¬ s.Succeeds
      (frameRequest generation (nextSequence (fb.sequence fb.nextSlot)) fb.nextSlot frame) := by
  rintro ⟨hcommit, hresult⟩
  have hcommit : s.completion fb.nextSlot commitIndex = nextSequence (fb.sequence fb.nextSlot) :=
    hcommit
  have hresult : s.completion fb.nextSlot 3 = 0 := hresult
  have hidle := owns_idle h hbooks.next
  have hsettled := h.valid.settled fb.nextSlot hidle.2
  have hsequence := hbooks.sequence fb.nextSlot
  unfold Shared.Settled at hsettled
  unfold lastSequence at hsequence
  rw [owns_accepted h] at hsettled
  cases hlast : lastOn committed fb.nextSlot with
  | none =>
      rw [hlast] at hsettled hsequence
      dsimp only at hsettled hsequence
      rw [hsequence, hsettled] at hcommit
      rw [hsettled] at hresult
      exact hleftover fb.nextSlot ⟨hcommit, hresult⟩
  | some last =>
      rw [hlast] at hsettled hsequence
      dsimp only at hsettled hsequence
      rw [hsettled, ← hsequence] at hcommit
      exact next_sequence_ne _ hcommit.symm

/-- The frame is in the slot once all cells are written. -/
theorem filled_shows {slot : Slot} {sequence : UInt32} {frame : Frame} {order : List Cell}
    {committed : List Request} {request : Slot → Line} {pixels : Slot → Nat → UInt16}
    (horder : order.Perm (frameCells frame))
    (h : Filling generation leftover slot (frameRecord generation sequence frame).toLine
      frame.pixels committed order request pixels s) :
    s.request slot = (frameRecord generation sequence frame).toLine ∧
      s.Shows (frameRequest generation sequence slot frame) := by
  constructor
  · funext index
    have hmem : Cell.word index ∈ order := by
      rw [horder.mem_iff]
      exact List.mem_append_left _ (List.mem_map_of_mem (List.mem_finRange index))
    rw [h.owns.request]
    exact h.holds _ hmem
  · show (List.range _).map (s.pixels slot) = (List.range _).map frame.pixels
    refine List.map_congr_left fun index hindex => ?_
    have hmem : Cell.pixel index ∈ order := by
      rw [horder.mem_iff]
      exact List.mem_append_right _ (List.mem_map_of_mem hindex)
    rw [h.owns.pixels]
    exact h.holds _ hmem

/-- The books after a commit. -/
def LcdFrames.advance (fb : LcdFrames) : LcdFrames :=
  { fb with
    sequence := Function.update fb.sequence fb.nextSlot
      (nextSequence (fb.sequence fb.nextSlot))
    nextSlot := fb.nextSlot + 1 }

theorem advance_sequence (fb : LcdFrames) :
    fb.advance.sequence fb.nextSlot = nextSequence (fb.sequence fb.nextSlot) := by
  simp [LcdFrames.advance]

/-- The request that a call commits. -/
abbrev LcdFrames.request (fb : LcdFrames) (generation : UInt32) (frame : Frame) : Request :=
  frameRequest generation (nextSequence (fb.sequence fb.nextSlot)) fb.nextSlot frame

/-- The request is handed over. -/
theorem publish_request_runs (hleftover : Unambiguous leftover) {fb : LcdFrames}
    {committed : List Request} (hbooks : BooksMatch fb committed) (frame : Frame)
    {request : Slot → Line} {pixels : Slot → Nat → UInt16}
    (h : Owns generation leftover request pixels committed s) :
    LinuxRuns generation leftover (publishRequest generation fb frame)
      (fun result t => result = fb.advance ∧
        Waits generation leftover (committed ++ [fb.request generation frame]) t) s := by
  -- The commit is revoked first.
  refine Machine.wp_perform (owns_stable request pixels committed) h ?_ ?_
  · intro t ht
    exact ⟨owns_idle ht hbooks.next, line_set_self _ _ _⟩
  intro t _ next ht hnext
  rw [show next = _ from hnext]
  have hidle := owns_idle ht hbooks.next
  have hrevoked : Filling generation leftover fb.nextSlot
      (frameRecord generation (nextSequence (fb.sequence fb.nextSlot)) frame).toLine frame.pixels
      committed [] (t.writeRequest fb.nextSlot commitIndex 0).request pixels
      (t.writeRequest fb.nextSlot commitIndex 0) := by
    refine ⟨⟨valid_write_request ht.valid hidle (line_set_self _ _ _), rfl, ht.pixels,
      ht.committed, ht.scanned⟩, ?_, fun cell hcell => absurd hcell List.not_mem_nil⟩
    simp [Shared.writeRequest, line_set_self]
  refine Machine.wp_look filling_stable hrevoked (fun _ _ _ hnext => hnext.2) (fun _ _ => trivial) ?_
  intro t order ht horder
  refine Machine.wp_bind (Machine.wp_mono (write_cells_runs rfl hbooks.next order ht) ?_)
  rintro _ t ⟨request, pixels, ht⟩
  have hcommit : ∀ t, Filling generation leftover fb.nextSlot
      (frameRecord generation (nextSequence (fb.sequence fb.nextSlot)) frame).toLine frame.pixels
      committed ([] ++ order) request pixels t →
      LinuxAllowed t (.commit (fb.request generation frame)) := by
    intro t ht
    obtain ⟨hline, hshows⟩ := filled_shows horder.1 ht
    have hslot : (fb.request generation frame).slot = fb.nextSlot := rfl
    refine ⟨owns_idle ht.owns hbooks.next, ?_, hshows, next_sequence_ne_zero _,
      next_not_succeeds hleftover ht.owns hbooks frame⟩
    rw [hslot, hline, Line.set, to_line_commit, of_line_to_line]
    rfl
  refine Machine.wp_perform filling_stable ht hcommit ?_
  intro t _ next ht hnext
  rw [show next = _ from hnext]
  refine Machine.wp_pure ?_ ⟨rfl, valid_commit ht.owns.valid (hcommit t ht), ?_⟩
  · intro t next ht hrely
    exact ⟨rfl, waits_stable _ t next ht.2 hrely⟩
  · show t.committed ++ [_] = committed ++ [_]
    rw [ht.owns.committed]

/-! ## A whole call -/

/-- An error is latched. -/
theorem finish_failed {committed : List Request} {fb : LcdFrames} (frame : Frame) (error : Errno)
    (h : Waits generation leftover committed s) :
    LinuxRuns generation leftover (finishScanout fb frame (some error))
      (fun result => DriverIdle generation leftover result) s := by
  refine Machine.wp_look (waits_stable committed) h (fun _ _ _ hnext => hnext) (fun _ _ => trivial) ?_
  intro t _ ht _
  refine Machine.wp_pure (driver_idle_stable _) ⟨ht.valid, ?_, ?_⟩
  · exact fun hnone => nomatch hnone
  · exact fun hnone => nomatch hnone

/-- The books after a request was committed and seen to be complete. -/
theorem books_advance {fb : LcdFrames} {committed : List Request}
    (hbooks : BooksMatch fb committed) (frame : Frame) :
    BooksMatch
      { fb.advance with
        completed := Function.update fb.completed fb.nextSlot (fb.advance.sequence fb.nextSlot) }
      (committed ++ [fb.request generation frame]) := by
  have hother : ∀ {slot}, slot ≠ fb.nextSlot → fb.advance.sequence slot = fb.sequence slot := by
    intro slot hslot
    simp [LcdFrames.advance, hslot]
  have hslot : (fb.request generation frame).slot = fb.nextSlot := rfl
  constructor
  · intro slot
    show fb.advance.sequence slot = _
    rw [last_sequence_append, hslot]
    by_cases heq : fb.nextSlot = slot
    · rw [if_pos heq, ← heq, advance_sequence]
      rfl
    · rw [if_neg heq, hother (Ne.symm heq)]
      exact hbooks.sequence slot
  · intro slot
    show Function.update fb.completed fb.nextSlot _ slot = fb.advance.sequence slot
    by_cases heq : slot = fb.nextSlot
    · rw [heq, Function.update_self]
    · rw [Function.update_of_ne heq, hother heq]
      exact hbooks.completed slot
  · intro last hlast
    rw [List.getLast?_concat] at hlast
    rw [← Option.some.inj hlast, hslot]
    show fb.nextSlot ≠ fb.nextSlot + 1
    generalize fb.nextSlot = slot
    revert slot
    decide

/-- The end of a call that has waited for its request. -/
theorem finish_waited {fb : LcdFrames} {committed : List Request}
    (hbooks : BooksMatch fb committed) (frame : Frame)
    {result : LcdFrames × Option Errno}
    (h : Waited generation leftover fb.advance fb.nextSlot
      (committed ++ [fb.request generation frame]) result s) :
    LinuxRuns generation leftover (finishScanout result.1 frame result.2)
      (fun result => DriverIdle generation leftover result) s := by
  obtain ⟨after, error⟩ := result
  cases error with
  | some error => exact finish_failed frame error h.1
  | none =>
      refine Machine.wp_look (waited_stable fb.advance fb.nextSlot _ (after, none)) h
        (fun _ _ _ hnext => hnext) ?_ ?_
      · intro t ht
        obtain ⟨hwaits, hdone⟩ := ht
        obtain ⟨_, hlength⟩ := hdone rfl
        refine ⟨fb.request generation frame, ?_, ⟨rfl, rfl, rfl, rfl, rfl⟩, ?_⟩
        · rw [hwaits.committed, List.getLast?_concat]
        · have hprefix := hwaits.valid.scanned.trans (hwaits.valid.accepted.map Request.image)
          refine hprefix.eq_of_length ?_
          rw [List.length_map, hwaits.committed, hlength]
      · intro t _ ht _
        obtain ⟨hwaits, hdone⟩ := ht
        obtain ⟨hafter, hlength⟩ := hdone rfl
        refine Machine.wp_pure (driver_idle_stable _) ⟨hwaits.valid, fun _ => ?_, fun _ => ?_⟩
        · rw [hlength, hwaits.committed]
        · rw [hwaits.committed]
          rw [show after = _ from hafter]
          exact books_advance hbooks frame

/-- `lcd_scanout` with the lock held -/
theorem scanout_locked_runs (hleftover : Unambiguous leftover) {fb : LcdFrames}
    (hfault : fb.fault = none) (frame : Frame) (h : DriverIdle generation leftover fb s) :
    LinuxRuns generation leftover (scanoutLocked generation fb frame)
      (fun result => DriverIdle generation leftover result) s := by
  have hbooks := h.books hfault
  have howns : Owns generation leftover s.request s.pixels s.committed s :=
    ⟨h.valid, rfl, rfl, rfl, h.scanned hfault⟩
  have hstable := @owns_stable generation leftover s.request s.pixels s.committed
  have hwaits : ∀ {t}, Owns generation leftover s.request s.pixels s.committed t →
      Waits generation leftover s.committed t := fun ht => ⟨ht.valid, ht.committed⟩
  refine Machine.wp_look hstable howns (fun _ _ _ hnext => hnext) (fun _ _ => trivial) ?_
  intro t turns ht _
  refine Machine.wp_bind (Machine.wp_mono
    (wait_slot_complete hstable (hbooks.completed fb.nextSlot) turns ht) ?_)
  rintro ⟨after, error⟩ t ⟨hafter, ht⟩
  cases (show after = fb from hafter)
  cases error with
  | some error => exact finish_failed frame error (hwaits ht)
  | none =>
      refine Machine.wp_look hstable ht (fun _ _ _ hnext => hnext) (fun _ _ => trivial) ?_
      intro t access ht _
      cases access with
      | some error => exact finish_failed frame error (hwaits ht)
      | none =>
          refine Machine.wp_bind (Machine.wp_mono
            (publish_request_runs hleftover hbooks frame ht) ?_)
          rintro after t ⟨hafter, ht⟩
          cases (show after = fb.advance from hafter)
          refine Machine.wp_look (waits_stable _) ht (fun _ _ _ hnext => hnext) (fun _ _ => trivial) ?_
          intro t turns ht _
          refine Machine.wp_bind (Machine.wp_mono (wait_slot_committed List.getLast?_concat
            ?_ (next_sequence_ne_zero _) ?_ turns ht) ?_)
          · exact advance_sequence fb
          · show fb.completed fb.nextSlot ≠ nextSequence (fb.sequence fb.nextSlot)
            rw [hbooks.completed]
            exact Ne.symm (next_sequence_ne _)
          · intro result t ht
            exact finish_waited hbooks frame ht

/-- `lcd_scanout` -/
theorem lcd_scanout_runs (hleftover : Unambiguous leftover) (fb : LcdFrames) (frame : Frame)
    (h : DriverIdle generation leftover fb s) :
    LinuxRuns generation leftover (lcdScanout generation fb frame)
      (fun result => DriverIdle generation leftover result) s := by
  have hstable := @driver_idle_stable generation leftover fb
  unfold lcdScanout
  split
  · refine Machine.wp_look hstable h (fun _ _ _ hnext => hnext) (fun _ _ => trivial) ?_
    exact fun t _ ht _ => Machine.wp_pure hstable ht
  · rename_i hfault
    refine Machine.wp_look hstable h (fun _ _ _ hnext => hnext) (fun _ _ => trivial) ?_
    intro t locked ht _
    cases locked with
    | true => exact scanout_locked_runs hleftover hfault frame ht
    | false =>
        refine Machine.wp_look hstable ht (fun _ _ _ hnext => hnext) (fun _ _ => trivial) ?_
        exact fun t _ ht _ => Machine.wp_pure hstable ht

/-- Any number of calls -/
theorem linux_main_runs (hleftover : Unambiguous leftover) (count : Nat) (fb : LcdFrames)
    (h : DriverIdle generation leftover fb s) :
    LinuxRuns generation leftover (linuxMain generation fb count)
      (fun _ t => t.Valid generation leftover) s := by
  induction count generalizing fb s with
  | zero => exact Machine.wp_pure (fun _ _ hvalid hrely => hrely.valid hvalid) h.valid
  | succ count ih =>
      refine Machine.wp_look (driver_idle_stable fb) h (fun _ _ _ hnext => hnext)
        (fun _ _ => trivial) ?_
      intro t frame ht _
      refine Machine.wp_bind (Machine.wp_mono (lcd_scanout_runs hleftover fb frame ht) ?_)
      exact fun after t ht => ih after ht

end

end NanoKvm.Lcd
