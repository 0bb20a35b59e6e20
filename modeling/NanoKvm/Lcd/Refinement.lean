import NanoKvm.Lcd.Display
import NanoKvm.Lcd.Scanout

/-!
# The panel shows what was scanned out

The copy and the request of a scanout agree with the job and the window of the firmware, so a
finished job has replaced exactly the rectangle. The invariant follows a call through the
system: offered, drawn and done, with the panel as the finished calls left it.
-/

namespace NanoKvm.Lcd

open Panel

/-! ## The copy is packed -/

/-- The bytes of the rows copied so far, in rows without a gap. -/
theorem drm_fb_memcpy_byte (memory : Nat → UInt8) (address : Nat) (framebuffer : Framebuffer)
    (clip : Clip) {rows row offset : Nat} (hrow : row < rows) (hoffset : offset < clip.width * 2) :
    drmFbMemcpy memory address (clip.width * 2) framebuffer clip rows
        (address + (row * (clip.width * 2) + offset)) =
      framebuffer.data ((clip.y1 + row) * framebuffer.pitch + clip.x1 * 2 + offset) := by
  induction rows with
  | zero => omega
  | succ rows ih =>
      rw [drmFbMemcpy, copyBytes]
      by_cases hlast : row = rows
      · subst hlast
        rw [if_pos (by omega)]
        congr 1
        omega
      · have hbefore : (row + 1) * (clip.width * 2) ≤ rows * (clip.width * 2) :=
          Nat.mul_le_mul_right _ (by omega)
        rw [Nat.succ_mul] at hbefore
        rw [if_neg (by omega)]
        exact ih (by omega)

/-- The pixels of the scanout are in the slot, row after row from its start. -/
def Packed (memory : Nat → UInt8) (slot : Slot) (scanout : Scanout) : Prop :=
  ∀ column row, scanout.clip.x1 ≤ column → column < scanout.clip.x2 → scanout.clip.y1 ≤ row →
    row < scanout.clip.y2 →
    slotPixel memory (slotAddress slot +
      ((row - scanout.clip.y1) * scanout.clip.width + (column - scanout.clip.x1)) * 2) =
      scanout.image column row

theorem packed_write_pixels (memory : Nat → UInt8) (slot : Slot) (scanout : Scanout) :
    Packed (writePixels memory slot scanout) slot scanout := by
  intro column row hleft hright htop hbottom
  cases scanout with
  | update framebuffer clip =>
      simp only [Scanout.clip] at hleft hright htop hbottom ⊢
      have hrow : row - clip.y1 < clip.height := by
        unfold Clip.height
        omega
      have hlow : (column - clip.x1) * 2 < clip.width * 2 := by
        unfold Clip.width
        omega
      have hhigh : (column - clip.x1) * 2 + 1 < clip.width * 2 := by
        unfold Clip.width
        omega
      have hplace : ((row - clip.y1) * clip.width + (column - clip.x1)) * 2 =
          (row - clip.y1) * (clip.width * 2) + (column - clip.x1) * 2 := by
        rw [Nat.add_mul, Nat.mul_assoc]
      have hsource : (clip.y1 + (row - clip.y1)) * framebuffer.pitch + clip.x1 * 2 +
          (column - clip.x1) * 2 = row * framebuffer.pitch + column * 2 := by
        rw [Nat.add_sub_cancel' htop]
        omega
      have hfirst := drm_fb_memcpy_byte memory (slotAddress slot) framebuffer clip hrow hlow
      have hsecond : drmFbMemcpy memory (slotAddress slot) (clip.width * 2) framebuffer clip
          clip.height (slotAddress slot +
            ((row - clip.y1) * (clip.width * 2) + (column - clip.x1) * 2) + 1) =
          framebuffer.data ((clip.y1 + (row - clip.y1)) * framebuffer.pitch + clip.x1 * 2 +
            (column - clip.x1) * 2 + 1) :=
        drm_fb_memcpy_byte memory (slotAddress slot) framebuffer clip hrow hhigh
      rw [hsource] at hfirst hsecond
      simp only [writePixels, Scanout.image, Framebuffer.pixel, slotPixel, hplace]
      rw [hfirst, hsecond]
  | blank =>
      have hclip : Scanout.blank.clip = .whole := rfl
      have hwidth : Scanout.blank.clip.width = 240 := rfl
      have hbytes : frameBytes = 115200 := rfl
      have hright' : column < 240 := hright
      have hbottom' : row < 240 := hbottom
      have hleft' : Scanout.blank.clip.x1 = 0 := rfl
      have htop' : Scanout.blank.clip.y1 = 0 := rfl
      simp only [writePixels, copyBytes, slotPixel, hwidth, hleft', htop', hbytes]
      rw [if_pos (by omega), if_pos (by omega)]
      rfl

/-- A drawn job has put the scanout's pixels at their places. -/
theorem paint_packed {memory : Nat → UInt8} {slot : Slot} {scanout : Scanout}
    (h : Packed memory slot scanout) (panel : Nat → Nat → UInt16) :
    paint scanout.clip.x1 (scanout.clip.y1 + 80) scanout.clip.width scanout.clip.height
      (packedImage memory slot scanout.clip.x1 (scanout.clip.y1 + 80) scanout.clip.width) panel =
    scanout.shownOver panel := by
  have hwide := scanout.clip.wide
  have hhigh := scanout.clip.high
  funext column row
  unfold Scanout.shownOver paint
  split
  · rename_i hwindow
    unfold Clip.width Clip.height at hwindow
    have hpixel := h column (row - 80) hwindow.1 (by omega) (by omega) (by omega)
    rw [Nat.sub_sub, Nat.add_comm 80] at hpixel
    exact hpixel
  · rfl

/-! ## The request and the job -/

/-- The request of a scanout as it is committed. -/
def scanoutRecord (generation sequence : UInt32) (memory : Nat → UInt8) (slot : Slot)
    (scanout : Scanout) : Record :=
  { frameRecord generation sequence (scanoutFrame memory slot scanout) with commit := sequence }

/-- The job the service makes of it. -/
def scanoutJob (slot : Slot) (scanout : Scanout) : Job :=
  .frame (.ofNat slot) (.ofNat scanout.clip.x1) (.ofNat scanout.clip.y1)
    (.ofNat scanout.clip.width) (.ofNat scanout.clip.height)

/-- The render of a scanout's job before its first stage. -/
def scanoutRender (slot : Slot) (scanout : Scanout) : Render :=
  ⟨.ofNat scanout.clip.x1, .ofNat scanout.clip.y1, .ofNat scanout.clip.width,
    .ofNat scanout.clip.height, .frame (.ofNat slot), 0, 0⟩

section Rectangle

variable (clip : Clip)

theorem clip_to_nat :
    (UInt16.ofNat clip.x1).toNat = clip.x1 ∧ (UInt16.ofNat clip.y1).toNat = clip.y1 ∧
      (UInt16.ofNat clip.width).toNat = clip.width ∧
      (UInt16.ofNat clip.height).toNat = clip.height := by
  have hwide := clip.wide
  have hhigh := clip.high
  have hright := clip.right
  have hbottom := clip.bottom
  have hwidth : clip.width < 65536 := by
    unfold Clip.width
    omega
  have hheight : clip.height < 65536 := by
    unfold Clip.height
    omega
  simp only [UInt16.toNat_ofNat']
  omega

theorem clip_on_panel : OnPanel (.ofNat clip.x1) (.ofNat clip.y1) (.ofNat clip.width)
    (.ofNat clip.height) := by
  have hwide := clip.wide
  have hhigh := clip.high
  have hright := clip.right
  have hbottom := clip.bottom
  obtain ⟨hx, hy, hwidth, hheight⟩ := clip_to_nat clip
  constructor
  · rw [hwidth, Clip.width]
    omega
  · rw [hheight, Clip.height]
    omega
  · rw [hx, hwidth, Clip.width]
    omega
  · rw [hy, hheight, Clip.height]
    omega

end Rectangle

theorem valid_scanout_record (generation : UInt32) {sequence completed : UInt32}
    (memory : Nat → UInt8) (slot : Slot) (scanout : Scanout) (hsequence : sequence ≠ 0)
    (hnew : sequence ≠ completed) :
    validRequest (scanoutRecord generation sequence memory slot scanout) generation completed =
      true := by
  obtain ⟨hwidth, hheight, hright, hbottom⟩ := (clip_on_panel scanout.clip).checks
  have hzero : ∀ word : UInt16, word ≠ 0 → word.toUInt32 ≠ 0 := by
    intro word hword heq
    apply hword
    apply UInt16.toNat_inj.1
    simpa using congrArg UInt32.toNat heq
  simp only [validRequest, scanoutRecord, frameRecord, scanoutFrame, Bool.and_eq_true, beq_iff_eq,
    bne_iff_ne, lcdWidth, lcdHeight]
  exact ⟨⟨⟨⟨⟨⟨⟨⟨⟨⟨trivial, trivial⟩, hsequence⟩, hnew⟩, trivial⟩, hzero _ hwidth⟩,
    hzero _ hheight⟩, decide_eq_true hright⟩, decide_eq_true hbottom⟩, trivial⟩, trivial⟩

/-- The engine with a scanout's job. -/
def scanoutEngine (engine : Panel.Engine) (sequence : UInt32) (slot : Slot) (scanout : Scanout) :
    Panel.Engine where
  phase := .draw (scanoutRender slot scanout)
  lastJob := some (scanoutJob slot scanout)
  status := { engine.status with state := .busy, acceptedSequence := sequence }

/-- A ready engine takes the job of a scanout. -/
theorem submit_scanout {engine : Panel.Engine} {sequence : UInt32} (slot : Slot)
    (scanout : Scanout) (hstate : engine.status.state = .ready) (hsequence : sequence ≠ 0)
    (hnew : sequence ≠ engine.status.acceptedSequence) :
    engine.submit sequence (scanoutJob slot scanout) =
      .ok (scanoutEngine engine sequence slot scanout) := by
  have hslot : UInt8.ofNat slot < 2 := by
    fin_cases slot <;> decide
  exact submit_frame (clip_on_panel scanout.clip) hslot hstate hsequence hnew

/-! ## The way of a scanout -/

namespace Display

/-- The panel's memory after the calls that have succeeded. -/
def expected (d : Display) (start : Nat → Nat → UInt16) : Nat → Nat → UInt16 :=
  d.shown.foldl (fun memory scanout => scanout.shownOver memory) start

/-- A completion of this generation in the slot is for its last request. -/
def Answered (generation : UInt32) (d : Display) (slot : Slot) : Prop :=
  (Record.ofLine (d.completion slot)).Committed generation →
    (Record.ofLine (d.completion slot)).sequence = d.fb.sequence slot

/-- There is no completion for the last request of the slot. -/
def Unanswered (generation : UInt32) (d : Display) (slot : Slot) : Prop :=
  (Record.ofLine (d.completion slot)).Committed generation →
    (Record.ofLine (d.completion slot)).sequence ≠ d.fb.sequence slot

/-- The service has no request to accept in the slot. -/
structure Settled (generation : UInt32) (d : Display) (slot : Slot) : Prop where
  completed : d.completed slot = d.fb.sequence slot
  request : ¬ validRequest (Record.ofLine (d.request slot)) generation (d.completed slot) = true
  answered : d.Answered generation slot

/-- The request and the pixels of a scanout are in the slot. -/
structure Offered (generation : UInt32) (d : Display) (slot : Slot) (scanout : Scanout) :
    Prop where
  request : d.request slot =
    (scanoutRecord generation (d.fb.sequence slot) d.board.memory slot scanout).toLine
  sequence : d.fb.sequence slot ≠ 0
  packed : Packed d.board.memory slot scanout
  unanswered : d.Unanswered generation slot

/-- The service works and has no job. -/
structure Vacant (d : Display) : Prop where
  running : ¬ d.faulted = true
  active : d.active = none
  quiet : d.engine.Quiet d.board.panel
  jobs : d.engine.status.acceptedSequence = d.jobSequence

/-- Where the driver's call is: there is none, it is offered, drawn, or done; or one of the two
sides has failed. The published slot is the one after the next. -/
inductive Stage (generation : UInt32) (start : Nat → Nat → UInt16) (d : Display) : Prop where
  | idle (hpending : d.pending = none) (hvacant : d.Vacant)
      (hslots : ∀ slot, d.Settled generation slot)
      (hpanel : d.board.panel.memory = d.expected start)
  | offered {scanout : Scanout} (hpending : d.pending = some scanout) (hvacant : d.Vacant)
      (hother : d.Settled generation d.fb.nextSlot)
      (hoffered : d.Offered generation (d.fb.nextSlot + 1) scanout)
      (hnew : d.fb.sequence (d.fb.nextSlot + 1) ≠ d.completed (d.fb.nextSlot + 1))
      (hpanel : d.board.panel.memory = d.expected start)
  | drawing {scanout : Scanout} (hpending : d.pending = some scanout)
      (hrunning : ¬ d.faulted = true)
      (hactive : d.active =
        some (d.fb.nextSlot + 1, d.fb.sequence (d.fb.nextSlot + 1), d.jobSequence))
      (hphase : d.engine.phase = .draw (scanoutRender (d.fb.nextSlot + 1) scanout))
      (hjobs : d.engine.status.acceptedSequence = d.jobSequence)
      (hother : d.Settled generation d.fb.nextSlot)
      (hoffered : d.Offered generation (d.fb.nextSlot + 1) scanout)
      (hpanel : d.board.panel.memory = d.expected start)
  | done {scanout : Scanout} (hpending : d.pending = some scanout) (hvacant : d.Vacant)
      (hphase : d.engine.phase = .ready) (hslots : ∀ slot, d.Settled generation slot)
      (hpanel : d.board.panel.memory = scanout.shownOver (d.expected start))
  | broken (hfaulted : d.faulted = true)
      (hidle : d.pending = none → (∀ slot, d.Answered generation slot) ∧
        d.board.panel.memory = d.expected start)
      (hwaiting : d.pending ≠ none → d.Answered generation d.fb.nextSlot ∧
        frameCompleted generation (d.fb.sequence (d.fb.nextSlot + 1))
          (d.completion (d.fb.nextSlot + 1)) (d.completion (d.fb.nextSlot + 1)) ≠ .done)
  | stopped (hfault : d.fb.fault ≠ none) (hpending : d.pending = none)

end Display

/-! ## What a step of the service does -/

section Service

variable {generation : UInt32} {link : Nat → Option (SpiError × Nat)} {now : UInt32} {d : Display}

theorem slot_add_two (slot : Slot) : slot + 1 + 1 = slot := by
  revert slot
  decide

theorem next_slot_ne (slot : Slot) : slot + 1 ≠ slot := by
  revert slot
  decide

theorem other_slot {slot other : Slot} (h : slot ≠ other) : slot = other + 1 := by
  revert slot other
  decide

theorem quiet_state {engine : Panel.Engine} {panel : St7789} (h : engine.Quiet panel) :
    engine.status.state = .initializing ∨ engine.status.state = .ready := by
  unfold Panel.Engine.Quiet at h
  split at h
  · exact .inl h
  · exact .inl h.1
  · exact .inr h
  · exact absurd h id
  · exact absurd h id

theorem admit_none {slots : List Slot}
    (h : ∀ slot, ¬ validRequest (Record.ofLine (d.request slot)) generation (d.completed slot) =
      true) : d.acceptSlots generation slots = d := by
  induction slots with
  | nil => rfl
  | cons slot rest ih =>
      rw [Display.acceptSlots, if_neg (h slot), ih]

/-- Of two slots the one with a valid request is accepted. -/
theorem admit_one {slot : Slot} (first : Slot)
    (h : validRequest (Record.ofLine (d.request slot)) generation (d.completed slot) = true)
    (hother : ¬ validRequest (Record.ofLine (d.request (slot + 1))) generation
      (d.completed (slot + 1)) = true) :
    d.acceptSlots generation [first, first + 1] =
      d.accept generation slot (Record.ofLine (d.request slot)) := by
  by_cases hfirst : first = slot
  · subst hfirst
    rw [Display.acceptSlots, if_pos h]
  · have hother' := other_slot hfirst
    subst hother'
    rw [Display.acceptSlots, if_neg hother, Display.acceptSlots, slot_add_two, if_pos h]

/-- A step of a service without a job: it fails, or may look for a request. -/
theorem service_vacant (h : d.Vacant) :
    (∃ engine board, board.panel.memory = d.board.panel.memory ∧
      d.service generation link now =
        { d with engine := engine, board := board, faulted := true }) ∨
    ∃ engine board, Unchanged d.engine engine d.board board ∧ engine.Quiet board.panel ∧
      (d.service generation link now = { d with engine := engine, board := board } ∨
        (engine.status.state = .ready ∧ d.service generation link now =
          { d with engine := engine, board := board }.acceptSlots generation
            [d.nextSlot, d.nextSlot + 1])) := by
  have hmemory := @step_quiet_memory link now _ _ h.quiet
  have hstep := @step_quiet link now _ _ h.quiet
  unfold Display.service
  rw [if_neg h.running]
  generalize d.engine.step (Board.hardware link) now d.board = stepped at hmemory hstep
  obtain ⟨engine, board⟩ := stepped
  dsimp only at hmemory hstep
  have hfinish : ({ d with engine := engine, board := board } : Display).finish generation =
      { d with engine := engine, board := board } := by
    simp only [Display.finish, h.active]
  simp only [hfinish]
  rcases hstep with hfault | ⟨hquiet, hunchanged⟩
  · exact .inl ⟨engine, board, hmemory, by rw [if_pos hfault]⟩
  · refine .inr ⟨engine, board, hunchanged, hquiet, ?_⟩
    rcases quiet_state hquiet with hstate | hstate
    · left
      rw [if_neg (by simp [hstate]), if_pos (.inr (by simp [hstate]))]
    · right
      refine ⟨hstate, ?_⟩
      rw [if_neg (by simp [hstate]), if_neg (by simp [hstate, h.active])]

/-- A step of a service with a scanout's job: it fails and reports that, or the rectangle is drawn
and the completion published. -/
theorem service_drawing {scanout : Scanout} {slot : Slot} {sequence : UInt32}
    (hrunning : ¬ d.faulted = true) (hactive : d.active = some (slot, sequence, d.jobSequence))
    (hphase : d.engine.phase = .draw (scanoutRender slot scanout))
    (hjobs : d.engine.status.acceptedSequence = d.jobSequence)
    (hpacked : Packed d.board.memory slot scanout) :
    (∃ engine board, d.service generation link now =
      { ({ d with engine := engine, board := board } : Display).complete generation slot sequence 1
        with active := none, nextSlot := slot + 1, faulted := true }) ∨
    ∃ board, board.memory = d.board.memory ∧
      board.panel.memory = scanout.shownOver d.board.panel.memory ∧
      d.service generation link now =
        ({ ({ d with engine := d.engine.complete, board := board } : Display).complete generation
            slot sequence 0 with active := none, nextSlot := slot + 1 } : Display).acceptSlots generation
          [slot + 1, slot + 1 + 1] := by
  obtain ⟨hx, hy, hwidth, hheight⟩ := clip_to_nat scanout.clip
  have hslot : (UInt8.ofNat slot).toNat = slot := by
    fin_cases slot <;> rfl
  have hstep := @step_frame link now d.engine d.board _ _ _ _ _ (clip_on_panel scanout.clip) hphase
  rw [hx, hy, hwidth, hheight, hslot, paint_packed hpacked] at hstep
  unfold Display.service
  rw [if_neg hrunning]
  generalize d.engine.step (Board.hardware link) now d.board = stepped at hstep
  obtain ⟨engine, board⟩ := stepped
  rcases hstep with hfault | ⟨hengine, hmemory, hpanel⟩
  · refine .inl ⟨engine, board, ?_⟩
    dsimp only at hfault
    simp only [Display.finish, hactive, hfault, true_or, if_true]
  · refine .inr ⟨board, hmemory, hpanel, ?_⟩
    dsimp only at hengine
    subst hengine
    have hcompleted : d.engine.complete.status.completedSequence = d.jobSequence := hjobs
    have hready : d.engine.complete.status.state = .ready := rfl
    have hnot : ¬ (PanelState.ready = PanelState.fault) := by simp
    simp only [Display.finish, hactive, hcompleted, or_true, if_true, hready, hnot, if_false]
    rw [if_neg (by simp)]

/-- A ready engine does nothing in a step. -/
theorem service_ready (h : d.Vacant) (hphase : d.engine.phase = .ready)
    (hslots : ∀ slot, d.Settled generation slot) : d.service generation link now = d := by
  have hstate : d.engine.status.state = .ready := by
    have hquiet := h.quiet
    rw [Panel.Engine.Quiet, hphase] at hquiet
    exact hquiet
  have hadvance : Panel.Engine.advance (Board.hardware link) now (31 + 1) d.engine d.board =
      ((none, d.engine), d.board) := by
    rw [Panel.Engine.advance, Panel.Engine.chunk, hphase]
  have hstep : d.engine.step (Board.hardware link) now d.board = (d.engine, d.board) := by
    rw [Panel.Engine.step, show maxChunks = 31 + 1 from rfl, hadvance]
  have hfinish : d.finish generation = d := by
    simp only [Display.finish, h.active]
  unfold Display.service
  rw [if_neg h.running, hstep]
  simp only [hfinish]
  rw [if_neg (by simp [hstate]), if_neg (by simp [hstate, h.active])]
  exact admit_none fun slot => (hslots slot).request

/-- The service accepts an offered scanout. -/
theorem accept_offered {slot : Slot} {scanout : Scanout} (h : d.Offered generation slot scanout)
    (hjobs : d.engine.status.acceptedSequence = d.jobSequence)
    (hready : d.engine.status.state = .ready) :
    d.accept generation slot (Record.ofLine (d.request slot)) =
      { d with
        engine := scanoutEngine d.engine (nextJob d.jobSequence) slot scanout
        jobSequence := nextJob d.jobSequence
        active := some (slot, d.fb.sequence slot, nextJob d.jobSequence) } := by
  have hsubmit := submit_scanout slot scanout hready (next_job_ne_zero d.jobSequence)
    (hjobs ▸ next_job_ne d.jobSequence)
  rw [h.request, of_line_to_line]
  unfold Display.accept
  dsimp only
  rw [show Job.frame (.ofNat slot)
      (scanoutRecord generation (d.fb.sequence slot) d.board.memory slot scanout).x
      (scanoutRecord generation (d.fb.sequence slot) d.board.memory slot scanout).y
      (scanoutRecord generation (d.fb.sequence slot) d.board.memory slot scanout).width
      (scanoutRecord generation (d.fb.sequence slot) d.board.memory slot scanout).height =
    scanoutJob slot scanout from rfl, hsubmit]
  rfl

end Service

/-! ## Every step keeps the stage -/

section Steps

variable {generation : UInt32} {link : Nat → Option (SpiError × Nat)} {now : UInt32}
  {start : Nat → Nat → UInt16} {d : Display}

/-- A completion that the driver takes for its request is one of this generation for it. -/
theorem frame_completed_committed {sequence : UInt32} {line : Line} (hsequence : sequence ≠ 0)
    (h : frameCompleted generation sequence line line = .done) :
    (Record.ofLine line).Committed generation ∧ (Record.ofLine line).sequence = sequence := by
  unfold frameCompleted at h
  dsimp only at h
  rw [if_neg (fun hne => hne rfl)] at h
  split at h
  · cases h
  · rename_i hheader
    simp only [not_or, ne_eq, not_not] at hheader
    obtain ⟨_, hgeneration, hnumber, hcommit⟩ := hheader
    exact ⟨⟨hgeneration, hnumber ▸ hsequence, hcommit.trans hnumber.symm⟩, hnumber⟩

theorem not_done_of_unanswered {slot : Slot} (hsequence : d.fb.sequence slot ≠ 0)
    (h : d.Unanswered generation slot) :
    frameCompleted generation (d.fb.sequence slot) (d.completion slot) (d.completion slot) ≠
      .done := by
  intro hdone
  obtain ⟨hcommitted, hnumber⟩ := frame_completed_committed hsequence hdone
  exact h hcommitted hnumber

/-- A poll that is not answered by success leaves the system as it is or stops the driver. -/
theorem poll_not_done {scanout : Scanout} (h : d.Stage generation start)
    (hnot : frameCompleted generation (d.fb.sequence (d.fb.nextSlot + 1))
      (d.completion (d.fb.nextSlot + 1)) (d.completion (d.fb.nextSlot + 1)) ≠ .done) :
    (d.poll generation scanout).Stage generation start := by
  unfold Display.poll
  dsimp only
  split
  · exact h
  · exact .stopped (by simp) rfl
  · rename_i hdone
    exact absurd hdone hnot

theorem poll_done {scanout : Scanout}
    (h : frameCompleted generation (d.fb.sequence (d.fb.nextSlot + 1))
      (d.completion (d.fb.nextSlot + 1)) (d.completion (d.fb.nextSlot + 1)) = .done) :
    (d.poll generation scanout).shown = d.shown ++ [scanout] ∧
      (d.poll generation scanout).pending = none ∧
      (d.poll generation scanout).fb.fault = d.fb.fault := by
  simp only [Display.poll, h, and_self]

theorem poll_stage {scanout : Scanout} (hpending : d.pending = some scanout)
    (h : d.Stage generation start) : (d.poll generation scanout).Stage generation start := by
  have hstage := h
  cases h with
  | idle hnone | stopped _ hnone =>
      rw [hnone] at hpending
      cases hpending
  | offered _ _ _ hoffered =>
      exact poll_not_done hstage (not_done_of_unanswered hoffered.sequence hoffered.unanswered)
  | drawing _ _ _ _ _ _ hoffered =>
      exact poll_not_done hstage (not_done_of_unanswered hoffered.sequence hoffered.unanswered)
  | broken _ _ hwaiting =>
      exact poll_not_done hstage (hwaiting (by simp [hpending])).2
  | done hsame hvacant hphase hslots hpanel =>
      rw [hpending] at hsame
      cases hsame
      unfold Display.poll
      dsimp only
      split
      · exact hstage
      · exact .stopped (by simp) rfl
      · refine .idle rfl ⟨hvacant.running, hvacant.active, hvacant.quiet, hvacant.jobs⟩ ?_ ?_
        · intro slot
          exact ⟨(hslots slot).completed, (hslots slot).request, (hslots slot).answered⟩
        · simpa [Display.expected, List.foldl_append] using hpanel

theorem publish_unanswered (scanout : Scanout) (h : d.Answered generation d.fb.nextSlot) :
    (d.publish generation scanout).Unanswered generation d.fb.nextSlot := by
  intro hcommitted
  have hold : (Record.ofLine (d.completion d.fb.nextSlot)).sequence =
      d.fb.sequence d.fb.nextSlot := h hcommitted
  have hnew : (d.publish generation scanout).fb.sequence d.fb.nextSlot =
      nextSequence (d.fb.sequence d.fb.nextSlot) := by
    simp [Display.publish]
  rw [hnew]
  show (Record.ofLine (d.completion d.fb.nextSlot)).sequence ≠ _
  rw [hold]
  exact (next_sequence_ne _).symm

theorem publish_answered (scanout : Scanout) (h : d.Answered generation (d.fb.nextSlot + 1)) :
    (d.publish generation scanout).Answered generation (d.fb.nextSlot + 1) := by
  intro hcommitted
  have hsame : (d.publish generation scanout).fb.sequence (d.fb.nextSlot + 1) =
      d.fb.sequence (d.fb.nextSlot + 1) :=
    Function.update_of_ne (next_slot_ne _) _ _
  rw [hsame]
  exact h hcommitted

theorem publish_offered (scanout : Scanout) (h : d.Answered generation d.fb.nextSlot) :
    (d.publish generation scanout).Offered generation d.fb.nextSlot scanout where
  request := by simp [Display.publish, scanoutRecord]
  sequence := by simpa [Display.publish] using next_sequence_ne_zero _
  packed := packed_write_pixels d.board.memory d.fb.nextSlot scanout
  unanswered := publish_unanswered scanout h

theorem publish_settled (scanout : Scanout) (h : d.Settled generation (d.fb.nextSlot + 1)) :
    (d.publish generation scanout).Settled generation (d.fb.nextSlot + 1) where
  completed := by simpa [Display.publish, next_slot_ne] using h.completed
  request := by simpa [Display.publish, next_slot_ne] using h.request
  answered := publish_answered scanout h.answered

theorem publish_stage (scanout : Scanout) (hfault : d.fb.fault = none)
    (hpending : d.pending = none) (h : d.Stage generation start) :
    (d.publish generation scanout).Stage generation start := by
  have hnext : (d.publish generation scanout).fb.nextSlot = d.fb.nextSlot + 1 := rfl
  have hslot : (d.publish generation scanout).fb.nextSlot + 1 = d.fb.nextSlot := by
    rw [hnext, slot_add_two]
  cases h with
  | idle _ hvacant hslots hpanel =>
      refine .offered rfl ⟨hvacant.running, hvacant.active, hvacant.quiet, hvacant.jobs⟩ ?_ ?_ ?_
        hpanel
      · rw [hnext]
        exact publish_settled scanout (hslots _)
      · rw [hslot]
        exact publish_offered scanout (hslots _).answered
      · rw [hslot]
        have hcompleted := (hslots d.fb.nextSlot).completed
        simpa [Display.publish, hcompleted] using next_sequence_ne _
  | broken hfaulted hidle =>
      refine .broken hfaulted (fun hnone => nomatch hnone) fun _ => ?_
      rw [hslot, hnext]
      have hoffered := publish_offered scanout ((hidle hpending).1 d.fb.nextSlot)
      exact ⟨publish_answered scanout ((hidle hpending).1 _),
        not_done_of_unanswered hoffered.sequence hoffered.unanswered⟩
  | offered hsome | drawing hsome | done hsome =>
      rw [hpending] at hsome
      cases hsome
  | stopped hstopped => exact absurd hfault hstopped

/-! ### The service -/

theorem finish_driver (d : Display) :
    (d.finish generation).fb = d.fb ∧ (d.finish generation).pending = d.pending ∧
      (d.finish generation).shown = d.shown := by
  unfold Display.finish
  split
  · exact ⟨rfl, rfl, rfl⟩
  · split <;> exact ⟨rfl, rfl, rfl⟩

theorem admit_driver (d : Display) (slots : List Slot) :
    (d.acceptSlots generation slots).fb = d.fb ∧
      (d.acceptSlots generation slots).pending = d.pending ∧
      (d.acceptSlots generation slots).shown = d.shown := by
  induction slots with
  | nil => exact ⟨rfl, rfl, rfl⟩
  | cons slot rest ih =>
      rw [Display.acceptSlots]
      split
      · unfold Display.accept
        dsimp only
        split <;> exact ⟨rfl, rfl, rfl⟩
      · exact ih

/-- The service does not touch the driver. -/
theorem service_driver (d : Display) :
    (d.service generation link now).fb = d.fb ∧
      (d.service generation link now).pending = d.pending ∧
      (d.service generation link now).shown = d.shown := by
  unfold Display.service
  split
  · exact ⟨rfl, rfl, rfl⟩
  · dsimp only
    generalize d.engine.step (Board.hardware link) now d.board = stepped
    obtain ⟨hfb, hpending, hshown⟩ := @finish_driver generation
      { d with engine := stepped.1, board := stepped.2 }
    split
    · exact ⟨hfb, hpending, hshown⟩
    · split
      · exact ⟨hfb, hpending, hshown⟩
      · obtain ⟨hfb', hpending', hshown'⟩ := @admit_driver generation
          ({ d with engine := stepped.1, board := stepped.2 }.finish generation)
          [({ d with engine := stepped.1, board := stepped.2 }.finish generation).nextSlot,
            ({ d with engine := stepped.1, board := stepped.2 }.finish generation).nextSlot + 1]
        exact ⟨hfb'.trans hfb, hpending'.trans hpending, hshown'.trans hshown⟩

/-- A service that was offered a scanout: it fails, waits for its panel, or takes the job. -/
theorem service_offered {scanout : Scanout} (hpending : d.pending = some scanout)
    (hvacant : d.Vacant) (hother : d.Settled generation d.fb.nextSlot)
    (hoffered : d.Offered generation (d.fb.nextSlot + 1) scanout)
    (hnew : d.fb.sequence (d.fb.nextSlot + 1) ≠ d.completed (d.fb.nextSlot + 1))
    (hpanel : d.board.panel.memory = d.expected start) :
    (d.service generation link now).Stage generation start := by
  rcases @service_vacant generation link now _ hvacant with
    ⟨engine, board, hmemory, hservice⟩ | ⟨engine, board, hunchanged, hquiet, hservice⟩
  · rw [hservice]
    refine .broken rfl (fun hnone => ?_) fun _ => ⟨hother.answered,
      not_done_of_unanswered hoffered.sequence hoffered.unanswered⟩
    rw [show d.pending = none from hnone] at hpending
    cases hpending
  · let next : Display := { d with engine := engine, board := board }
    have hoffered' : next.Offered generation (d.fb.nextSlot + 1) scanout := by
      refine ⟨hoffered.request, hoffered.sequence, ?_, hoffered.unanswered⟩
      show Packed board.memory _ _
      rw [hunchanged.shared]
      exact hoffered.packed
    have hjobs : next.engine.status.acceptedSequence = next.jobSequence :=
      hunchanged.accepted.trans hvacant.jobs
    have hother' : next.Settled generation d.fb.nextSlot :=
      ⟨hother.completed, hother.request, hother.answered⟩
    have hpanel' : next.board.panel.memory = next.expected start := hunchanged.panel.trans hpanel
    rcases hservice with hservice | ⟨hready, hservice⟩
    · rw [hservice]
      exact .offered hpending ⟨hvacant.running, hvacant.active, hquiet, hjobs⟩ hother' hoffered'
        hnew hpanel'
    · have hvalid : validRequest (Record.ofLine (next.request (d.fb.nextSlot + 1))) generation
          (next.completed (d.fb.nextSlot + 1)) = true := by
        rw [hoffered'.request, of_line_to_line]
        exact valid_scanout_record generation _ _ scanout hoffered.sequence hnew
      have hsettled : ¬ validRequest (Record.ofLine (next.request (d.fb.nextSlot + 1 + 1)))
          generation (next.completed (d.fb.nextSlot + 1 + 1)) = true := by
        rw [slot_add_two]
        exact hother.request
      rw [hservice, admit_one _ hvalid hsettled, accept_offered hoffered' hjobs hready]
      exact .drawing hpending hvacant.running rfl rfl rfl
        ⟨hother.completed, hother.request, hother.answered⟩
        ⟨hoffered'.request, hoffered'.sequence, hoffered'.packed, hoffered'.unanswered⟩ hpanel'

/-- The completion of a job settles its slot. -/
theorem complete_settled {slot : Slot} {scanout : Scanout} (error : UInt32)
    (h : d.Offered generation slot scanout) :
    (d.complete generation slot (d.fb.sequence slot) error).Settled generation slot where
  completed := by simp [Display.complete]
  request := by
    intro hvalid
    have hne := (valid_request_committed hvalid).2
    apply hne
    simp only [Display.complete, Function.update_self]
    rw [h.request, of_line_to_line]
    rfl
  answered := by
    intro _
    simp only [Display.complete, Function.update_self]
    rw [of_line_to_line]
    rfl

theorem complete_other {slot : Slot} (error sequence : UInt32)
    (h : d.Settled generation slot) :
    (d.complete generation (slot + 1) sequence error).Settled generation slot where
  completed := by simpa [Display.complete, (next_slot_ne slot).symm] using h.completed
  request := by simpa [Display.complete, (next_slot_ne slot).symm] using h.request
  answered := by simpa [Display.Answered, Display.complete, (next_slot_ne slot).symm] using h.answered

/-- A service that draws a scanout: it fails and says so, or the call is done. -/
theorem service_drawn {scanout : Scanout} (hpending : d.pending = some scanout)
    (hrunning : ¬ d.faulted = true)
    (hactive : d.active =
      some (d.fb.nextSlot + 1, d.fb.sequence (d.fb.nextSlot + 1), d.jobSequence))
    (hphase : d.engine.phase = .draw (scanoutRender (d.fb.nextSlot + 1) scanout))
    (hjobs : d.engine.status.acceptedSequence = d.jobSequence)
    (hother : d.Settled generation d.fb.nextSlot)
    (hoffered : d.Offered generation (d.fb.nextSlot + 1) scanout)
    (hpanel : d.board.panel.memory = d.expected start) :
    (d.service generation link now).Stage generation start := by
  rcases @service_drawing generation link now d _ _ _ hrunning hactive hphase hjobs
    hoffered.packed with ⟨engine, board, hservice⟩ | ⟨board, hmemory, hdrawn, hservice⟩
  · rw [hservice]
    refine .broken rfl (fun hnone => ?_) fun _ => ⟨?_, ?_⟩
    · rw [show d.pending = none from hnone] at hpending
      cases hpending
    · exact (@complete_other generation d d.fb.nextSlot 1 _ hother).answered
    · intro hdone
      have hresult := (frame_completed_done hdone).2
      simp only [Display.complete, Function.update_self] at hresult
      exact absurd (show (1 : UInt32) = 0 from hresult) (by decide)
  · let drawn : Display := { d with engine := d.engine.complete, board := board }
    have hoffered' : drawn.Offered generation (d.fb.nextSlot + 1) scanout := by
      refine ⟨hoffered.request, hoffered.sequence, ?_, hoffered.unanswered⟩
      show Packed board.memory _ _
      rw [hmemory]
      exact hoffered.packed
    have hother' : drawn.Settled generation d.fb.nextSlot :=
      ⟨hother.completed, hother.request, hother.answered⟩
    have hslots : ∀ slot, (drawn.complete generation (d.fb.nextSlot + 1)
        (d.fb.sequence (d.fb.nextSlot + 1)) 0).Settled generation slot := by
      intro slot
      by_cases hslot : slot = d.fb.nextSlot
      · rw [hslot]
        exact complete_other 0 _ hother'
      · rw [other_slot hslot]
        exact complete_settled 0 hoffered'
    rw [hservice, admit_none]
    · refine .done hpending ⟨hrunning, rfl, rfl, hjobs⟩ rfl ?_ ?_
      · intro slot
        exact ⟨(hslots slot).completed, (hslots slot).request, (hslots slot).answered⟩
      · show board.panel.memory = _
        rw [hdrawn, hpanel]
        rfl
    · exact fun slot => (hslots slot).request


theorem service_stage (h : d.Stage generation start) :
    (d.service generation link now).Stage generation start := by
  cases h with
  | stopped hfault hpending =>
      obtain ⟨hfb, hcall, _⟩ := @service_driver generation link now d
      exact .stopped (by rw [hfb]; exact hfault) (hcall.trans hpending)
  | broken hfaulted hidle hwaiting =>
      have hsame : d.service generation link now = d := by
        rw [Display.service, if_pos hfaulted]
      rw [hsame]
      exact .broken hfaulted hidle hwaiting
  | done hpending hvacant hphase hslots hpanel =>
      rw [service_ready hvacant hphase hslots]
      exact .done hpending hvacant hphase hslots hpanel
  | idle hpending hvacant hslots hpanel =>
      rcases @service_vacant generation link now _ hvacant with
        ⟨engine, board, hmemory, hservice⟩ | ⟨engine, board, hunchanged, hquiet, hservice⟩
      · rw [hservice]
        exact .broken rfl (fun _ => ⟨fun slot => (hslots slot).answered, hmemory.trans hpanel⟩)
          fun hsome => absurd hpending hsome
      · have hsame : d.service generation link now = { d with engine := engine, board := board } := by
          rcases hservice with hservice | ⟨_, hservice⟩
          · exact hservice
          · rw [hservice]
            exact admit_none fun slot => (hslots slot).request
        rw [hsame]
        exact .idle hpending ⟨hvacant.running, hvacant.active, hquiet,
          hunchanged.accepted.trans hvacant.jobs⟩
          (fun slot => ⟨(hslots slot).completed, (hslots slot).request, (hslots slot).answered⟩)
          (hunchanged.panel.trans hpanel)
  | offered hpending hvacant hother hoffered hnew hpanel =>
      exact service_offered hpending hvacant hother hoffered hnew hpanel
  | drawing hpending hrunning hactive hphase hjobs hother hoffered hpanel =>
      exact service_drawn hpending hrunning hactive hphase hjobs hother hoffered hpanel

theorem step_stage {next : Display} (h : d.Stage generation start)
    (hstep : DisplayStep generation link d next) : next.Stage generation start := by
  cases hstep with
  | publish scanout hfault hpending _ => exact publish_stage scanout hfault hpending h
  | poll hpending => exact poll_stage hpending h
  | timeout _ => exact .stopped (by simp) rfl
  | service now => exact service_stage h

end Steps

/-! ## The panel -/

/-- The driver and the service after their start, with a panel that has no job and ownership lines
without a commit of the generation. -/
structure Display.Started (generation : UInt32) (d : Display) : Prop where
  driver : d.fb = .new
  pending : d.pending = none
  shown : d.shown = []
  running : d.faulted = false
  active : d.active = none
  completed : ∀ slot, d.completed slot = 0
  quiet : d.engine.Quiet d.board.panel
  jobs : d.engine.status.acceptedSequence = d.jobSequence
  request : ∀ slot, ¬ (Record.ofLine (d.request slot)).Committed generation
  completion : ∀ slot, ¬ (Record.ofLine (d.completion slot)).Committed generation

theorem Display.Started.stage {generation : UInt32} {d : Display} (h : d.Started generation) :
    d.Stage generation d.board.panel.memory := by
  refine .idle h.pending ⟨by simp [h.running], h.active, h.quiet, h.jobs⟩ ?_ ?_
  · intro slot
    refine ⟨?_, fun hvalid => h.request slot (valid_request_committed hvalid).1,
      fun hcommitted => absurd hcommitted (h.completion slot)⟩
    rw [h.completed, h.driver]
    rfl
  · rw [Display.expected, h.shown]
    rfl

/-- In every run of the driver and the service, whatever the panel's bus does: when no call is
under way and none has failed, the panel's memory is the first one with the rectangle of each
scanout that returned zero replaced, in their order, by the client's pixels at the same places.
While a call is under way that the service has not failed, its rectangle may be there as well. -/
theorem panel_shows_scanouts {generation : UInt32} {link : Nat → Option (SpiError × Nat)}
    {first d : Display} (hstart : first.Started generation)
    (hrun : Relation.ReflTransGen (DisplayStep generation link) first d) :
    (d.fb.fault = none → d.pending = none →
      d.board.panel.memory = d.shown.foldl (fun memory scanout => scanout.shownOver memory)
        first.board.panel.memory) ∧
    ∀ scanout, d.pending = some scanout → d.faulted = false →
      d.board.panel.memory = d.expected first.board.panel.memory ∨
      d.board.panel.memory = scanout.shownOver (d.expected first.board.panel.memory) := by
  have hpreserved : Exec.Preserved (DisplayStep generation link)
      (Display.Stage generation first.board.panel.memory) := fun _ _ h hstep => step_stage h hstep
  have hstage := hpreserved.reachable hstart.stage hrun
  constructor
  · intro hfault hpending
    cases hstage with
    | idle _ _ _ hpanel => exact hpanel
    | broken _ hidle => exact (hidle hpending).2
    | stopped hstopped => exact absurd hfault hstopped
    | offered hsome | drawing hsome | done hsome =>
        rw [hpending] at hsome
        cases hsome
  · intro scanout hpending hrunning
    cases hstage with
    | idle hnone | stopped _ hnone =>
        rw [hpending] at hnone
        cases hnone
    | broken hfaulted =>
        rw [hrunning] at hfaulted
        cases hfaulted
    | offered _ _ _ _ _ hpanel => exact .inl hpanel
    | drawing _ _ _ _ _ _ _ hpanel => exact .inl hpanel
    | done hsome _ _ _ hpanel =>
        rw [hpending] at hsome
        cases hsome
        exact .inr hpanel

/-- A system with a ready panel that no generation has used. -/
def readyDisplay : Display where
  fb := .new
  request _ _ := 0
  completion _ _ := 0
  board := ⟨false, ⟨0x29, [], (0, 0), (0, 0), 0, fun _ _ => 0⟩, fun _ => 0, 0⟩
  engine := ⟨.ready, ⟨.ready, 0, 0, none⟩, none⟩
  completed _ := 0
  active := none
  jobSequence := 0
  nextSlot := 0
  faulted := false
  pending := none
  shown := []

theorem ready_display_started : readyDisplay.Started 7 where
  driver := rfl
  pending := rfl
  shown := rfl
  running := rfl
  active := rfl
  completed _ := rfl
  quiet := rfl
  jobs := rfl
  request _ hcommitted := absurd (show (0 : UInt32) = 7 from hcommitted.1) (by decide)
  completion _ hcommitted := absurd (show (0 : UInt32) = 7 from hcommitted.1) (by decide)

/-- Three rows of five pixels of a buffer. -/
def rowsScanout : Scanout :=
  .update ⟨fun index => .ofNat index, 480⟩
    ⟨5, 7, 10, 10, by decide, by decide, by decide, by decide⟩

/-- Two rows of four pixels of another one, which overlap them. -/
def overlapScanout : Scanout :=
  .update ⟨fun index => .ofNat (index + 1), 480⟩
    ⟨8, 8, 12, 10, by decide, by decide, by decide, by decide⟩

/-- The start of a call and two steps of the service. -/
def served (scanout : Scanout) (d : Display) : Display :=
  ((d.publish 7 scanout).service 7 (fun _ => none) 0).service 7 (fun _ => none) 0

/-- A call that the service completes in them. -/
theorem served_run {scanout : Scanout} {d : Display} (hfault : d.fb.fault = none)
    (hpending : d.pending = none)
    (hslot : d.fb.sequence d.fb.nextSlot = 0 ∨
      d.fb.completed d.fb.nextSlot = d.fb.sequence d.fb.nextSlot)
    (hcompleted : frameCompleted 7
      ((served scanout d).fb.sequence ((served scanout d).fb.nextSlot + 1))
      ((served scanout d).completion ((served scanout d).fb.nextSlot + 1))
      ((served scanout d).completion ((served scanout d).fb.nextSlot + 1)) = .done) :
    Relation.ReflTransGen (DisplayStep 7 fun _ => none) d ((served scanout d).poll 7 scanout) ∧
      ((served scanout d).poll 7 scanout).shown = d.shown ++ [scanout] ∧
      ((served scanout d).poll 7 scanout).pending = none ∧
      ((served scanout d).poll 7 scanout).fb.fault = none := by
  obtain ⟨hfb, hcall, hshown⟩ := @service_driver 7 (fun _ => none) 0 (d.publish 7 scanout)
  obtain ⟨hfb', hcall', hshown'⟩ := @service_driver 7 (fun _ => none) 0
    ((d.publish 7 scanout).service 7 (fun _ => none) 0)
  obtain ⟨hdone, hnone, hsame⟩ := @poll_done 7 (served scanout d) scanout hcompleted
  have hoffered : (served scanout d).pending = some scanout := hcall'.trans hcall
  refine ⟨?_, ?_, hnone, ?_⟩
  · exact .head (.publish scanout hfault hpending hslot)
      (.head (.service 0) (.head (.service 0) (.single (.poll hoffered))))
  · rw [hdone, show (served scanout d).shown = d.shown from hshown'.trans hshown]
  · rw [hsame, show (served scanout d).fb = (d.publish 7 scanout).fb from hfb'.trans hfb]
    exact hfault

/-- The system after the first call. -/
def rowsShown : Display := (served rowsScanout readyDisplay).poll 7 rowsScanout

/-- The system after both calls. -/
def overlapShown : Display := (served overlapScanout rowsShown).poll 7 overlapScanout

/-- Two scanouts go through, the second over the first. -/
theorem panel_shows_overlap :
    Relation.ReflTransGen (DisplayStep 7 fun _ => none) readyDisplay overlapShown ∧
      overlapShown.shown = [rowsScanout, overlapScanout] ∧
      overlapShown.board.panel.memory =
        overlapScanout.shownOver (rowsScanout.shownOver readyDisplay.board.panel.memory) := by
  obtain ⟨hfirst, hrows, hidle, hsound⟩ := @served_run rowsScanout readyDisplay rfl rfl (.inl rfl)
    (by decide +kernel)
  obtain ⟨hsecond, hboth, hpending, hfault⟩ := @served_run overlapScanout rowsShown hsound hidle
    (.inl (by decide +kernel)) (by decide +kernel)
  have hrun : Relation.ReflTransGen (DisplayStep 7 fun _ => none) readyDisplay overlapShown :=
    hfirst.trans hsecond
  have hshown : overlapShown.shown = [rowsScanout, overlapScanout] := by
    rw [overlapShown, hboth, rowsShown, hrows]
    rfl
  refine ⟨hrun, hshown, ?_⟩
  rw [(panel_shows_scanouts ready_display_started hrun).1 hfault hpending, hshown]
  rfl

end NanoKvm.Lcd
