import Mathlib.Data.List.GetD
import NanoKvm.Exec.Bytes
import NanoKvm.Lcd.Panel

/-!
# What a frame job does to the panel

The window commands of the engine and the burst after them replace one rectangle of the
controller's memory and nothing else. The proof goes from a pixel to the stream of a frame,
then over the stages of the draw.
-/

namespace NanoKvm.Lcd.Panel

/-! ## The stream -/

/-- The memory with a rectangle replaced. -/
def paint (x y width height : Nat) (image memory : Nat → Nat → UInt16) : Nat → Nat → UInt16 :=
  fun column row =>
    if x ≤ column ∧ column < x + width ∧ y ≤ row ∧ row < y + height then image column row
    else memory column row

/-- The controller in a memory write with a window, about to receive a word. -/
structure St7789.Filling (panel : St7789) (x y width height written : Nat) : Prop where
  command : panel.command = 0x2c
  parameters : panel.parameters = []
  columns : panel.columns = (x, x + width - 1)
  rows : panel.rows = (y, y + height - 1)
  written : panel.written = written

namespace St7789

/-- The first byte of a pixel is kept. -/
theorem receive_data_high {panel : St7789} (hcommand : panel.command = 0x2c)
    (hparameters : panel.parameters = []) (byte : UInt8) :
    panel.receiveData byte = { panel with parameters := [byte] } := by
  have hcolumn : ¬ panel.command = 0x2a := by simp [hcommand]
  have hrow : ¬ panel.command = 0x2b := by simp [hcommand]
  rw [receiveData, if_neg hcolumn, if_neg hrow, if_pos hcommand, hparameters]

/-- The second byte of a pixel completes it. -/
theorem receive_data_low {panel : St7789} {high : UInt8} (hcommand : panel.command = 0x2c)
    (hparameters : panel.parameters = [high]) (byte : UInt8) :
    panel.receiveData byte = pixel { panel with parameters := [] }
      (high.toUInt16 <<< 8 ||| byte.toUInt16) := by
  have hcolumn : ¬ panel.command = 0x2a := by simp [hcommand]
  have hrow : ¬ panel.command = 0x2b := by simp [hcommand]
  rw [receiveData, if_neg hcolumn, if_neg hrow, if_pos hcommand, hparameters]

end St7789

namespace St7789.Filling

variable {panel : St7789} {x y width height written : Nat}

/-- A word of the stream is a pixel. -/
theorem word (h : panel.Filling x y width height written) (color : UInt16) :
    panel.receive true [(color >>> 8).toUInt8, color.toUInt8] = panel.pixel color := by
  have hpanel : { panel with parameters := [] } = panel := by rw [← h.parameters]
  show (panel.receiveData (color >>> 8).toUInt8).receiveData color.toUInt8 = panel.pixel color
  rw [receive_data_high h.command h.parameters,
    @receive_data_low { panel with parameters := [_] } _ h.command rfl, hpanel, Exec.word_bytes]

theorem pixel (h : panel.Filling x y width height written) (color : UInt16) :
    (panel.pixel color).Filling x y width height (written + 1) :=
  ⟨h.command, h.parameters, h.columns, h.rows, by rw [St7789.pixel, h.written]⟩

/-- The place of the next pixel in the window. -/
theorem pixel_memory (h : panel.Filling x y width height written) (color : UInt16)
    (hwritten : written < width * height) (column row : Nat) :
    (panel.pixel color).memory column row =
      if column = x + written % width ∧ row = y + written / width then color
      else panel.memory column row := by
  have hwidth : 0 < width := Nat.pos_of_mul_pos_right (Nat.zero_lt_of_lt hwritten)
  have hheight : 0 < height := Nat.pos_of_mul_pos_left (Nat.zero_lt_of_lt hwritten)
  have hacross : x + width - 1 + 1 - x = width := by omega
  have hdown : y + height - 1 + 1 - y = height := by omega
  simp only [St7789.pixel, h.columns, h.rows, h.written, hacross, hdown,
    Nat.mod_eq_of_lt hwritten]

/-- The place of the pixel with a number, and the number of the pixel at a place. -/
theorem place_iff {number column row : Nat} (hnumber : number < width * height) :
    column = x + number % width ∧ row = y + number / width ↔
      (x ≤ column ∧ column < x + width ∧ y ≤ row ∧ row < y + height) ∧
        (row - y) * width + (column - x) = number := by
  have hwidth : 0 < width := Nat.pos_of_mul_pos_right (Nat.zero_lt_of_lt hnumber)
  have hmod := Nat.mod_lt number hwidth
  have hdiv : number / width < height := Nat.div_lt_of_lt_mul hnumber
  constructor
  · rintro ⟨rfl, rfl⟩
    refine ⟨⟨Nat.le_add_right _ _, Nat.add_lt_add_left hmod x, Nat.le_add_right _ _,
      Nat.add_lt_add_left hdiv y⟩, ?_⟩
    rw [Nat.add_sub_cancel_left, Nat.add_sub_cancel_left]
    exact Nat.div_add_mod' number width
  · rintro ⟨hwindow, rfl⟩
    have hcolumn : column - x < width := by omega
    have hquotient : ((row - y) * width + (column - x)) / width = row - y := by
      rw [Nat.mul_comm, Nat.mul_add_div hwidth, Nat.div_eq_of_lt hcolumn, Nat.add_zero]
    rw [Nat.mul_add_mod_of_lt hcolumn, hquotient]
    omega

/-- What a stream that fits the window leaves in the memory. -/
theorem stream (h : panel.Filling x y width height 0) (colors : List UInt16)
    (hfits : colors.length ≤ width * height) :
    (panel.receive true (streamBytes colors)).Filling x y width height colors.length ∧
    ∀ column row, (panel.receive true (streamBytes colors)).memory column row =
      if x ≤ column ∧ column < x + width ∧ y ≤ row ∧ row < y + height then
        colors.getD ((row - y) * width + (column - x)) (panel.memory column row)
      else panel.memory column row := by
  induction colors using List.reverseRecOn with
  | nil => exact ⟨h, by simp [streamBytes, St7789.receive]⟩
  | append_singleton colors color ih =>
      rw [List.length_append, List.length_singleton] at hfits
      obtain ⟨hfilling, hmemory⟩ := ih (by omega)
      have hstream : panel.receive true (streamBytes (colors ++ [color])) =
          (panel.receive true (streamBytes colors)).pixel color := by
        rw [← hfilling.word color]
        simp [streamBytes, St7789.receive]
      rw [hstream, List.length_append]
      refine ⟨hfilling.pixel color, ?_⟩
      intro column row
      have hlast : colors.length < width * height := by omega
      rw [hfilling.pixel_memory color hlast, hmemory]
      by_cases hplace : column = x + colors.length % width ∧ row = y + colors.length / width
      · obtain ⟨hwindow, hnumber⟩ := (place_iff hlast).1 hplace
        rw [if_pos hplace, if_pos hwindow, hnumber]
        simp
      · rw [if_neg hplace]
        split
        · rename_i hwindow
          have hother : (row - y) * width + (column - x) ≠ colors.length :=
            fun hnumber => hplace ((place_iff hlast).2 ⟨hwindow, hnumber⟩)
          simp only [List.getD_eq_getElem?_getD, List.getElem?_append]
          split
          · rfl
          · rw [List.getElem?_eq_none (by omega), List.getElem?_eq_none (by simp; omega)]
        · rfl

end St7789.Filling

/-! ## The window -/

theorem word_to_nat (x : UInt16) : St7789.word (x >>> 8).toUInt8 x.toUInt8 = x.toNat := by
  have hlt := x.toNat_lt
  simp [St7789.word, Nat.shiftRight_eq_div_pow]
  omega

/-- The five commands before the pixels set the window and leave the memory alone. -/
theorem window_commands (panel : St7789) (x last y bottom : UInt16) :
    let framed := ((((panel.receive false [0x2a]).receive true (windowBytes x last)).receive
      false [0x2b]).receive true (windowBytes y bottom)).receive false [0x2c]
    framed.command = 0x2c ∧ framed.parameters = [] ∧ framed.columns = (x.toNat, last.toNat) ∧
      framed.rows = (y.toNat, bottom.toNat) ∧ framed.written = 0 ∧
      framed.memory = panel.memory := by
  rw [← word_to_nat x, ← word_to_nat last, ← word_to_nat y, ← word_to_nat bottom]
  exact ⟨rfl, rfl, rfl, rfl, rfl, rfl⟩

/-! ## The hardware -/

variable {link : Nat → Option (SpiError × Nat)}

theorem and_then_ok {State α : Type} {result : Except Error Unit × State}
    {next : State → Except Error α × State} {value : α} {after : State}
    (h : andThen result next = (.ok value, after)) :
    ∃ middle, result = (.ok (), middle) ∧ next middle = (.ok value, after) := by
  obtain ⟨outcome, middle⟩ := result
  cases outcome with
  | error error => simp [andThen] at h
  | ok _ => exact ⟨middle, rfl, h⟩

theorem transfer_ok {bytes : List UInt8} {board after : Board}
    (h : board.transfer link bytes = (.ok (), after)) :
    after.panel = board.panel.receive board.dc bytes ∧ after.memory = board.memory := by
  unfold Board.transfer at h
  split at h
  · rw [← (Prod.mk.inj h).2]
    exact ⟨rfl, rfl⟩
  · simp at h

theorem dc_ok {high : Bool} {board after : Board}
    (h : (Board.hardware link).dc high board = (.ok (), after)) :
    after.dc = high ∧ after.panel = board.panel ∧ after.memory = board.memory := by
  simp only [Board.hardware, Board.line] at h
  split at h
  · rw [← (Prod.mk.inj h).2]
    exact ⟨rfl, rfl, rfl⟩
  · simp at h

theorem reset_ok {high : Bool} {board after : Board}
    (h : (Board.hardware link).reset high board = (.ok (), after)) :
    after.panel = board.panel ∧ after.memory = board.memory := by
  simp only [Board.hardware, Board.line] at h
  split at h
  · rw [← (Prod.mk.inj h).2]
    exact ⟨rfl, rfl⟩
  · simp at h

/-- A write that succeeds has brought its bytes to the controller. -/
theorem write_ok {data : Bool} {bytes : List UInt8} {board after : Board}
    (h : Engine.write (Board.hardware link) data bytes board = (.ok (), after)) :
    after.panel = board.panel.receive data bytes ∧ after.memory = board.memory := by
  obtain ⟨middle, hdc, hwrite⟩ := and_then_ok h
  obtain ⟨hline, hpanel, hmemory⟩ := dc_ok hdc
  simp only [Board.hardware] at hwrite
  split at hwrite
  · simp at hwrite
  · have hsent := transfer_ok hwrite
    rw [hline, hpanel, hmemory] at hsent
    exact hsent

/-- A stream that succeeds has brought the pixels of the slot to the controller. -/
theorem frame_stream_ok {slot : UInt8} {first count : UInt32} {board after : Board}
    (h : (Board.hardware link).frameStream slot first count board = (.ok (), after)) :
    after.panel = board.panel.receive board.dc (streamBytes
      ((List.range' first.toNat count.toNat).map fun pixel =>
        slotPixel board.memory (slotAddress slot.toNat + pixel * 2))) ∧
      after.memory = board.memory := by
  simp only [Board.hardware] at h
  split at h
  · simp at h
  · exact transfer_ok h

/-- A write, whatever it came to, has brought some bytes to the controller. -/
theorem write_any (data : Bool) (bytes : List UInt8) (board : Board) :
    ∃ sent, (Engine.write (Board.hardware link) data bytes board).2.panel =
      board.panel.receive data sent := by
  unfold Engine.write
  cases hdc : (Board.hardware link).dc data board with
  | mk result middle =>
      cases result with
      | error error =>
          refine ⟨[], ?_⟩
          simp only [Board.hardware, Board.line] at hdc
          split at hdc
          · simp at hdc
          · rw [← (Prod.mk.inj hdc).2]
            rfl
      | ok value =>
          obtain ⟨hline, hpanel, _⟩ := dc_ok hdc
          simp only [andThen, Board.hardware]
          split
          · exact ⟨[], hpanel⟩
          · unfold Board.transfer
            split
            · exact ⟨bytes, by rw [hline, hpanel]⟩
            · exact ⟨_, by rw [hline, hpanel]⟩

/-- Commands leave the memory alone. -/
theorem receive_command_memory (panel : St7789) (bytes : List UInt8) :
    (panel.receive false bytes).memory = panel.memory := by
  induction bytes generalizing panel with
  | nil => rfl
  | cons byte rest ih => exact ih (panel.receiveCommand byte)

/-! ## The stages of a draw -/

section Draw

variable {now : UInt32} {engine : Engine} {board : Board}

/-- A stage that writes bytes, then the stages after it. -/
theorem advance_stage {P : (Option Error × Engine) × Board → Prop} {turns : Nat}
    (render : Render) (next : Engine) (data : Bool) (bytes : List UInt8)
    (hphase : engine.phase = .draw render)
    (hdraw : engine.draw (Board.hardware link) render board =
      andThen (Engine.write (Board.hardware link) data bytes board) fun board =>
        (.ok (false, next), board))
    (hfails : ∀ error engine board, P ((some error, engine), board))
    (hnext : ∀ after, after.panel = board.panel.receive data bytes → after.memory = board.memory →
      P (Engine.advance (Board.hardware link) now turns next after)) :
    P (Engine.advance (Board.hardware link) now (turns + 1) engine board) := by
  have hchunk : Engine.chunk (Board.hardware link) now engine board =
      engine.draw (Board.hardware link) render board := by
    rw [Engine.chunk, hphase]
  rw [Engine.advance, hchunk, hdraw]
  cases hwrite : Engine.write (Board.hardware link) data bytes board with
  | mk result after =>
      cases result with
      | error error => exact hfails error _ _
      | ok value =>
          obtain ⟨hpanel, hmemory⟩ := write_ok hwrite
          exact hnext after hpanel hmemory

/-- The rectangle of a job lies on the panel. -/
structure OnPanel (x y width height : UInt16) : Prop where
  wide : 0 < width.toNat
  high : 0 < height.toNat
  right : x.toNat + width.toNat ≤ 240
  bottom : y.toNat + height.toNat ≤ 240

/-- The pixel of a slot that belongs at a place of the rectangle. -/
def packedImage (memory : Nat → UInt8) (slot x y width : Nat) (column row : Nat) : UInt16 :=
  slotPixel memory (slotAddress slot + ((row - y) * width + (column - x)) * 2)

variable {x y width height : UInt16} {slot : UInt8}

/-- A draw has failed, or has replaced the rectangle by the pixels of the slot. -/
def Drawn (engine : Engine) (board : Board) (x y width height : UInt16) (slot : UInt8)
    (result : (Option Error × Engine) × Board) : Prop :=
  result.1.1 ≠ none ∨ (result.1 = (none, engine.complete) ∧ result.2.memory = board.memory ∧
    result.2.panel.memory = paint x.toNat (y.toNat + 80) width.toNat height.toNat
      (packedImage board.memory slot.toNat x.toNat (y.toNat + 80) width.toNat)
      board.panel.memory)

/-- The bounds both the validator and the engine check. -/
theorem OnPanel.checks (h : OnPanel x y width height) :
    width ≠ 0 ∧ height ≠ 0 ∧ x.toUInt32 + width.toUInt32 ≤ 240 ∧
      y.toUInt32 + height.toUInt32 ≤ 240 := by
  obtain ⟨hwide, hhigh, hright, hbottom⟩ := h
  refine ⟨?_, ?_, ?_, ?_⟩
  · rintro rfl
    exact absurd hwide (by decide)
  · rintro rfl
    exact absurd hhigh (by decide)
  · rw [UInt32.le_iff_toNat_le]
    simp only [UInt32.toNat_add, UInt16.toNat_toUInt32, UInt32.reduceToNat]
    omega
  · rw [UInt32.le_iff_toNat_le]
    simp only [UInt32.toNat_add, UInt16.toNat_toUInt32, UInt32.reduceToNat]
    omega

/-- A ready engine takes a frame with a new sequence. -/
theorem submit_frame {sequence : UInt32} (hpanel : OnPanel x y width height)
    (hslot : slot < 2) (hstate : engine.status.state = .ready) (hsequence : sequence ≠ 0)
    (hnew : sequence ≠ engine.status.acceptedSequence) :
    engine.submit sequence (.frame slot x y width height) =
      .ok { phase := .draw ⟨x, y, width, height, .frame slot, 0, 0⟩
            lastJob := some (.frame slot x y width height)
            status := { engine.status with state := .busy, acceptedSequence := sequence } } := by
  obtain ⟨hwidth, hheight, hright, hbottom⟩ := hpanel.checks
  have hbounds : ¬ (width = 0 ∨ height = 0 ∨
      x.toUInt32 + width.toUInt32 > Panel.width.toUInt32 ∨
      y.toUInt32 + height.toUInt32 > Panel.height.toUInt32) := by
    rintro (h | h | h | h)
    · exact hwidth h
    · exact hheight h
    · exact absurd hright (UInt32.not_le.2 h)
    · exact absurd hbottom (UInt32.not_le.2 h)
  rw [Engine.submit, hstate, if_neg (by decide), if_neg hsequence, if_neg hnew,
    if_neg (by decide), if_neg (by decide), Render.new]
  simp only [if_pos hslot, if_neg hbounds]
  rfl

/-- The pixels of a rectangle on the panel, counted as the engine does. -/
theorem OnPanel.pixels (h : OnPanel x y width height) :
    (width.toUInt32 * height.toUInt32 - 0).toNat = width.toNat * height.toNat := by
  have hle : width.toNat * height.toNat ≤ 240 * 240 :=
    Nat.mul_le_mul (by have := h.right; omega) (by have := h.bottom; omega)
  simp only [UInt32.sub_zero, UInt32.toNat_mul, UInt16.toNat_toUInt32]
  exact Nat.mod_eq_of_lt (by omega)

/-- The last stage: one burst with the pixels of the slot. -/
theorem advance_burst {turns : Nat} (hpanel : OnPanel x y width height)
    (hphase : engine.phase = .draw ⟨x, y, width, height, .frame slot, 5, 0⟩)
    (hfilling : board.panel.Filling x.toNat (y.toNat + 80) width.toNat height.toNat 0) :
    Drawn engine board x y width height slot
      (Engine.advance (Board.hardware link) now (turns + 1) engine board) := by
  have hchunk : Engine.chunk (Board.hardware link) now engine board =
      engine.drawPixels (Board.hardware link) ⟨x, y, width, height, .frame slot, 5, 0⟩ board := by
    rw [Engine.chunk, hphase]
    rfl
  rw [Engine.advance, hchunk]
  cases hdraw : engine.drawPixels (Board.hardware link)
      ⟨x, y, width, height, .frame slot, 5, 0⟩ board with
  | mk result after =>
      cases result with
      | error error => exact .inl (by simp)
      | ok value =>
          obtain ⟨middle, hdc, hstream⟩ := and_then_ok hdraw
          obtain ⟨last, hstream, hlast⟩ := and_then_ok hstream
          obtain ⟨hline, hsame, hmemory⟩ := dc_ok hdc
          obtain ⟨hreceived, hmemory'⟩ := frame_stream_ok hstream
          obtain ⟨hvalue, hafter⟩ := Prod.mk.inj hlast
          cases hvalue
          subst hafter
          rw [hline, hsame, hmemory, hpanel.pixels] at hreceived
          refine .inr ⟨rfl, hmemory'.trans hmemory, ?_⟩
          funext column row
          have hpixels := (hfilling.stream ((List.range' 0 (width.toNat * height.toNat)).map
            fun pixel => slotPixel board.memory (slotAddress slot.toNat + pixel * 2))
            (by simp)).2 column row
          rw [hreceived]
          refine hpixels.trans ?_
          unfold paint
          split
          · rename_i hwindow
            have hindex : (row - (y.toNat + 80)) * width.toNat + (column - x.toNat) <
                width.toNat * height.toNat := by
              have hcolumn : column - x.toNat < width.toNat := by omega
              have hrow : row - (y.toNat + 80) + 1 ≤ height.toNat := by omega
              have hmul := Nat.mul_le_mul_left width.toNat hrow
              rw [Nat.mul_add, Nat.mul_one, Nat.mul_comm width.toNat] at hmul
              omega
            simp [List.getD_eq_getElem?_getD, hindex, packedImage]
          · rfl

/-- The sixteen-bit sums of the window commands. -/
theorem OnPanel.window (h : OnPanel x y width height) :
    (x + width - 1).toNat = x.toNat + width.toNat - 1 ∧ (y + yOffset).toNat = y.toNat + 80 ∧
      (y + yOffset + height - 1).toNat = y.toNat + 80 + height.toNat - 1 := by
  obtain ⟨hwide, hhigh, hright, hbottom⟩ := h
  have hoffset : yOffset.toNat = 80 := rfl
  have hone : (1 : UInt16).toNat = 1 := rfl
  simp only [UInt16.toNat_sub, UInt16.toNat_add, hoffset, hone]
  omega

/-- A draw of a frame fails, or replaces its rectangle by the pixels of the slot. -/
theorem advance_frame {turns : Nat} (hpanel : OnPanel x y width height)
    (hphase : engine.phase = .draw ⟨x, y, width, height, .frame slot, 0, 0⟩) :
    Drawn engine board x y width height slot
      (Engine.advance (Board.hardware link) now (turns + 6) engine board) := by
  have hfails : ∀ error engine' board',
      Drawn engine board x y width height slot ((some error, engine'), board') :=
    fun _ _ _ => .inl (by simp)
  let render (stage : UInt8) : Render := ⟨x, y, width, height, .frame slot, stage, 0⟩
  let staged (stage : UInt8) : Engine := { engine with phase := .draw (render stage) }
  refine advance_stage (P := Drawn engine board x y width height slot) (render 0) (staged 1)
    false [0x2a] hphase rfl hfails ?_
  intro first hfirst hfirst'
  refine advance_stage (P := Drawn engine board x y width height slot) (render 1) (staged 2)
    true (windowBytes x (x + width - 1)) rfl rfl hfails ?_
  intro second hsecond hsecond'
  refine advance_stage (P := Drawn engine board x y width height slot) (render 2) (staged 3)
    false [0x2b] rfl rfl hfails ?_
  intro third hthird hthird'
  refine advance_stage (P := Drawn engine board x y width height slot) (render 3) (staged 4)
    true (windowBytes (y + yOffset) (y + yOffset + height - 1)) rfl rfl hfails ?_
  intro fourth hfourth hfourth'
  refine advance_stage (P := Drawn engine board x y width height slot) (render 4) (staged 5)
    false [0x2c] rfl rfl hfails ?_
  intro fifth hfifth hfifth'
  -- the window is set: the controller is as it was but for the window
  obtain ⟨hcommand, hparameters, hcolumns, hrows, hwritten, hmemory⟩ := window_commands board.panel
    x (x + width - 1) (y + yOffset) (y + yOffset + height - 1)
  rw [← hfirst, ← hsecond, ← hthird, ← hfourth, ← hfifth] at hcommand hparameters hcolumns
  rw [← hfirst, ← hsecond, ← hthird, ← hfourth, ← hfifth] at hrows hwritten hmemory
  obtain ⟨hlast, htop, hbottom⟩ := hpanel.window
  rw [hlast] at hcolumns
  rw [htop, hbottom] at hrows
  have hshared : fifth.memory = board.memory := by
    rw [hfifth', hfourth', hthird', hsecond', hfirst']
  have hburst : Drawn (staged 5) fifth x y width height slot
      (Engine.advance (Board.hardware link) now (turns + 1) (staged 5) fifth) :=
    advance_burst hpanel rfl ⟨hcommand, hparameters, hcolumns, hrows, hwritten⟩
  unfold Drawn at hburst ⊢
  rwa [hshared, hmemory] at hburst

/-! ## The phases without a job -/

/-- The engine has no job: its phase and state agree, and data of the initialization belong to
their command. -/
def Engine.Quiet (engine : Engine) (panel : St7789) : Prop :=
  match engine.phase with
  | .delay _ _ _ => engine.status.state = .initializing
  | .init index offset => engine.status.state = .initializing ∧
      (offset = 0 ∨ panel.command = (initCommands.getD index (0, [])).1)
  | .ready => engine.status.state = .ready
  | .draw _ | .fault => False

/-- What stays while the engine has no job. -/
structure Unchanged (engine engine' : Engine) (board board' : Board) : Prop where
  accepted : engine'.status.acceptedSequence = engine.status.acceptedSequence
  completed : engine'.status.completedSequence = engine.status.completedSequence
  lastJob : engine'.lastJob = engine.lastJob
  shared : board'.memory = board.memory
  panel : board'.panel.memory = board.panel.memory

theorem Unchanged.trans {first second third : Engine} {board₁ board₂ board₃ : Board}
    (h : Unchanged first second board₁ board₂) (h' : Unchanged second third board₂ board₃) :
    Unchanged first third board₁ board₃ :=
  ⟨h'.accepted.trans h.accepted, h'.completed.trans h.completed, h'.lastJob.trans h.lastJob,
    h'.shared.trans h.shared, h'.panel.trans h.panel⟩

theorem init_command_other (index : Nat) :
    (initCommands.getD index (0, [])).1 ≠ 0x2a ∧ (initCommands.getD index (0, [])).1 ≠ 0x2b ∧
      (initCommands.getD index (0, [])).1 ≠ 0x2c := by
  have hall : ∀ entry ∈ initCommands, entry.1 ≠ 0x2a ∧ entry.1 ≠ 0x2b ∧ entry.1 ≠ 0x2c := by
    decide
  by_cases hindex : index < initCommands.length
  · rw [List.getD_eq_getElem _ _ hindex]
    exact hall _ (List.getElem_mem hindex)
  · rw [List.getD_eq_default _ _ (Nat.le_of_not_lt hindex)]
    decide

/-- Data of a command that is not one of the three are ignored. -/
theorem receive_other {panel : St7789} (hcolumn : panel.command ≠ 0x2a)
    (hrow : panel.command ≠ 0x2b) (hwrite : panel.command ≠ 0x2c) (bytes : List UInt8) :
    panel.receive true bytes = panel := by
  induction bytes with
  | nil => rfl
  | cons byte rest ih =>
      have hbyte : panel.receiveData byte = panel := by
        rw [St7789.receiveData, if_neg hcolumn, if_neg hrow, if_neg hwrite]
      show (panel.receiveData byte).receive true rest = panel
      rw [hbyte, ih]

theorem delayed_quiet {engine engine' : Engine} {board board' : Board} {next : AfterDelay}
    (hstate : engine.status.state = .initializing)
    (h : engine.delayed (Board.hardware link) next board = (.ok engine', board')) :
    engine'.Quiet board'.panel ∧ Unchanged engine engine' board board' := by
  cases next with
  | resetLow =>
      obtain ⟨middle, hreset, hnext⟩ := and_then_ok h
      obtain ⟨hpanel, hshared⟩ := reset_ok hreset
      cases hnext
      exact ⟨hstate, rfl, rfl, rfl, hshared, congrArg _ hpanel⟩
  | resetHigh =>
      obtain ⟨middle, hreset, hnext⟩ := and_then_ok h
      obtain ⟨hpanel, hshared⟩ := reset_ok hreset
      cases hnext
      exact ⟨hstate, rfl, rfl, rfl, hshared, congrArg _ hpanel⟩
  | sleepOut =>
      obtain ⟨middle, hwrite, hnext⟩ := and_then_ok h
      obtain ⟨hpanel, hshared⟩ := write_ok hwrite
      cases hnext
      refine ⟨hstate, rfl, rfl, rfl, hshared, ?_⟩
      rw [hpanel]
      rfl
  | init =>
      cases h
      exact ⟨⟨hstate, .inl rfl⟩, rfl, rfl, rfl, rfl, rfl⟩
  | ready =>
      cases h
      exact ⟨rfl, rfl, rfl, rfl, rfl, rfl⟩

theorem init_command_quiet {engine engine' : Engine} {board board' : Board} {index offset : Nat}
    (hstate : engine.status.state = .initializing)
    (hcommand : offset = 0 ∨ board.panel.command = (initCommands.getD index (0, [])).1)
    (h : engine.initCommand (Board.hardware link) index offset board = (.ok engine', board')) :
    engine'.Quiet board'.panel ∧ Unchanged engine engine' board board' := by
  simp only [Engine.initCommand] at h
  split at h
  · obtain ⟨middle, hwrite, hnext⟩ := and_then_ok h
    obtain ⟨hpanel, hshared⟩ := write_ok hwrite
    cases hnext
    refine ⟨?_, rfl, rfl, rfl, hshared, by rw [hpanel]; rfl⟩
    by_cases hdata : (initCommands.getD index (0, [])).2 = []
    · simp only [hdata, if_true, Engine.Quiet]
      exact ⟨hstate, .inl trivial⟩
    · simp only [hdata, if_false, Engine.Quiet]
      exact ⟨hstate, .inr (by rw [hpanel]; rfl)⟩
  · rename_i hoffset
    obtain ⟨middle, hwrite, hnext⟩ := and_then_ok h
    obtain ⟨hpanel, hshared⟩ := write_ok hwrite
    have hcommand := hcommand.resolve_left hoffset
    obtain ⟨hcolumn, hrow, hpixels⟩ := init_command_other index
    rw [receive_other (hcommand ▸ hcolumn) (hcommand ▸ hrow) (hcommand ▸ hpixels)] at hpanel
    cases hnext
    refine ⟨?_, rfl, rfl, rfl, hshared, congrArg St7789.memory hpanel⟩
    by_cases hstop : min (offset - 1 + 8) (initCommands.getD index (0, [])).2.length =
        (initCommands.getD index (0, [])).2.length
    · simp only [hstop, if_true, Engine.Quiet]
      exact ⟨hstate, .inl trivial⟩
    · simp only [hstop, if_false, Engine.Quiet]
      exact ⟨hstate, .inr (by rw [hpanel, hcommand])⟩

/-- A turn without a job leaves the jobs, the shared memory and the panel's memory alone. -/
theorem chunk_quiet {engine engine' : Engine} {board board' : Board} {finished : Bool}
    (hquiet : engine.Quiet board.panel)
    (h : engine.chunk (Board.hardware link) now board = (.ok (finished, engine'), board')) :
    engine'.Quiet board'.panel ∧ Unchanged engine engine' board board' := by
  unfold Engine.Quiet at hquiet
  unfold Engine.chunk at h
  split at hquiet
  · rename_i deadline ticks next hphase
    rw [hphase] at h
    cases deadline with
    | none =>
        cases h
        exact ⟨hquiet, rfl, rfl, rfl, rfl, rfl⟩
    | some deadline =>
        dsimp only at h
        split at h
        · cases h
          refine ⟨?_, rfl, rfl, rfl, rfl, rfl⟩
          rw [Engine.Quiet, hphase]
          exact hquiet
        · cases hdelayed : engine.delayed (Board.hardware link) next board with
          | mk result after =>
              rw [hdelayed] at h
              cases result with
              | error error => simp [Except.map] at h
              | ok value =>
                  cases h
                  exact delayed_quiet hquiet hdelayed
  · rename_i index offset hphase
    rw [hphase] at h
    dsimp only at h
    split at h
    · cases h
      exact ⟨hquiet.1, rfl, rfl, rfl, rfl, rfl⟩
    · cases hcommand : engine.initCommand (Board.hardware link) index offset board with
      | mk result after =>
          rw [hcommand] at h
          cases result with
          | error error => simp [Except.map] at h
          | ok value =>
              cases h
              exact init_command_quiet hquiet.1 hquiet.2 hcommand
  · rename_i hphase
    rw [hphase] at h
    cases h
    refine ⟨?_, rfl, rfl, rfl, rfl, rfl⟩
    rw [Engine.Quiet, hphase]
    exact hquiet
  · exact absurd hquiet id
  · exact absurd hquiet id

theorem advance_quiet {engine engine' : Engine} {board board' : Board} {turns : Nat}
    (hquiet : engine.Quiet board.panel)
    (h : Engine.advance (Board.hardware link) now turns engine board = ((none, engine'), board')) :
    engine'.Quiet board'.panel ∧ Unchanged engine engine' board board' := by
  induction turns generalizing engine board with
  | zero =>
      cases h
      exact ⟨hquiet, rfl, rfl, rfl, rfl, rfl⟩
  | succ turns ih =>
      rw [Engine.advance] at h
      split at h
      · simp at h
      · rename_i next after hchunk
        cases h
        exact chunk_quiet hquiet hchunk
      · rename_i next after hchunk
        obtain ⟨hnext, hunchanged⟩ := chunk_quiet hquiet hchunk
        obtain ⟨hlast, hrest⟩ := ih hnext h
        exact ⟨hlast, hunchanged.trans hrest⟩

theorem and_then_state {State α : Type} (result : Except Error Unit × State) (value : α) :
    (andThen result fun state => (.ok value, state)).2 = result.2 := by
  obtain ⟨outcome, state⟩ := result
  cases outcome <;> rfl

theorem write_command_memory (bytes : List UInt8) (board : Board) :
    (Engine.write (Board.hardware link) false bytes board).2.panel.memory =
      board.panel.memory := by
  obtain ⟨sent, hsent⟩ := @write_any link false bytes board
  rw [hsent, receive_command_memory]

theorem reset_memory (high : Bool) (board : Board) :
    ((Board.hardware link).reset high board).2.panel.memory = board.panel.memory := by
  simp only [Board.hardware, Board.line]
  split <;> rfl

/-- Also a turn that fails leaves the panel's memory alone if there is no job. -/
theorem chunk_quiet_memory (hquiet : engine.Quiet board.panel) :
    (engine.chunk (Board.hardware link) now board).2.panel.memory = board.panel.memory := by
  unfold Engine.Quiet at hquiet
  unfold Engine.chunk
  split at hquiet
  · rename_i deadline ticks next hphase
    rw [hphase]
    cases deadline with
    | none => rfl
    | some deadline =>
        dsimp only
        split
        · rfl
        · cases next with
          | resetLow | resetHigh =>
              simp only [Engine.delayed, and_then_state]
              exact reset_memory _ _
          | sleepOut =>
              simp only [Engine.delayed, and_then_state]
              exact write_command_memory _ _
          | init | ready => rfl
  · rename_i index offset hphase
    rw [hphase]
    dsimp only
    split
    · rfl
    · simp only [Engine.initCommand]
      split
      · rw [and_then_state]
        exact write_command_memory _ _
      · rename_i hoffset
        rw [and_then_state]
        have hcommand := hquiet.2.resolve_left hoffset
        obtain ⟨hcolumn, hrow, hpixels⟩ := init_command_other index
        obtain ⟨sent, hsent⟩ := @write_any link true _ board
        rw [hsent, receive_other (hcommand ▸ hcolumn) (hcommand ▸ hrow) (hcommand ▸ hpixels)]
  · rename_i hphase
    rw [hphase]
  · exact absurd hquiet id
  · exact absurd hquiet id

theorem advance_quiet_memory {turns : Nat} (hquiet : engine.Quiet board.panel) :
    (Engine.advance (Board.hardware link) now turns engine board).2.panel.memory =
      board.panel.memory := by
  induction turns generalizing engine board with
  | zero => rfl
  | succ turns ih =>
      have hmemory : (engine.chunk (Board.hardware link) now board).2.panel.memory =
          board.panel.memory := chunk_quiet_memory hquiet
      rw [Engine.advance]
      split
      · rename_i hchunk
        rw [hchunk] at hmemory
        exact hmemory
      · rename_i hchunk
        rw [hchunk] at hmemory
        exact hmemory
      · rename_i hchunk
        rw [hchunk] at hmemory
        exact (ih (chunk_quiet hquiet hchunk).1).trans hmemory

/-! ## Steps of the engine -/

/-- A step with a frame job fails, or finishes the job. -/
theorem step_frame (hpanel : OnPanel x y width height)
    (hphase : engine.phase = .draw ⟨x, y, width, height, .frame slot, 0, 0⟩) :
    (engine.step (Board.hardware link) now board).1.status.state = .fault ∨
      ((engine.step (Board.hardware link) now board).1 = engine.complete ∧
        (engine.step (Board.hardware link) now board).2.memory = board.memory ∧
        (engine.step (Board.hardware link) now board).2.panel.memory =
          paint x.toNat (y.toNat + 80) width.toNat height.toNat
            (packedImage board.memory slot.toNat x.toNat (y.toNat + 80) width.toNat)
            board.panel.memory) := by
  have hdrawn : Drawn engine board x y width height slot
      (Engine.advance (Board.hardware link) now (26 + 6) engine board) :=
    advance_frame hpanel hphase
  unfold Engine.step
  rw [show maxChunks = 26 + 6 from rfl]
  split
  · rename_i engine' board' hadvance
    rw [hadvance] at hdrawn
    rcases hdrawn with hfailed | ⟨hengine, hshared, hmemory⟩
    · exact absurd rfl hfailed
    · exact .inr ⟨(Prod.mk.inj hengine).2, hshared, hmemory⟩
  · exact .inl rfl

theorem step_quiet_memory (hquiet : engine.Quiet board.panel) :
    (engine.step (Board.hardware link) now board).2.panel.memory = board.panel.memory := by
  have hmemory : (Engine.advance (Board.hardware link) now maxChunks engine board).2.panel.memory =
      board.panel.memory := advance_quiet_memory hquiet
  unfold Engine.step
  split
  · rename_i hadvance
    rw [hadvance] at hmemory
    exact hmemory
  · rename_i hadvance
    rw [hadvance] at hmemory
    exact hmemory

/-- A step without a job fails, or leaves everything but the phase alone. -/
theorem step_quiet (hquiet : engine.Quiet board.panel) :
    (engine.step (Board.hardware link) now board).1.status.state = .fault ∨
      ((engine.step (Board.hardware link) now board).1.Quiet
          (engine.step (Board.hardware link) now board).2.panel ∧
        Unchanged engine (engine.step (Board.hardware link) now board).1 board
          (engine.step (Board.hardware link) now board).2) := by
  unfold Engine.step
  split
  · rename_i engine' board' hadvance
    exact .inr (advance_quiet hquiet hadvance)
  · exact .inl rfl

end Draw

end NanoKvm.Lcd.Panel
