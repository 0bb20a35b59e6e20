import NanoKvm.Lcd.Bus
import NanoKvm.Lcd.Drawing

/-!
# What a job sends

`Job.signals` is what the panel must see of a job: the window, then the pixels of the
rectangle row by row, in numbers without overflow. The engine sends it four pixels a turn and
may be stopped after every turn; `draws_exactly` says that it sends nothing else, for every
division into steps, and that the job is complete exactly at the end.
-/

namespace NanoKvm.Lcd.Panel

/-! ## The signals of a job -/

/-- What the panel sees: a byte with the level of D/C, or the pixels of a slot. -/
inductive Signal where
  | reset (high : Bool)
  | byte (data : Bool) (value : UInt8)
  | stream (data : Bool) (slot : UInt8) (first count : Nat)
  deriving DecidableEq, Repr

def Event.signals : Event → List Signal
  | .reset high => [.reset high]
  | .write data bytes => bytes.map (.byte data)
  | .frame data slot first count => [.stream data slot first.toNat count.toNat]

/-- A sixteen-bit number, most significant byte first. -/
def bigEndian (value : Nat) : List UInt8 := [.ofNat (value / 256), .ofNat (value % 256)]

/-- The window of a rectangle; the panel starts at row 80 of the controller. -/
def window (x y width height : Nat) : List Signal :=
  [.byte false 0x2a] ++ (bigEndian x ++ bigEndian (x + width - 1)).map (.byte true) ++
  [.byte false 0x2b] ++ (bigEndian (y + 80) ++ bigEndian (y + 80 + height - 1)).map (.byte true) ++
  [.byte false 0x2c]

/-- The pixels of a rectangle, row by row. -/
def picture (width height : Nat) (color : Nat → Nat → UInt16) : List Signal :=
  (List.range (width * height)).flatMap fun position =>
    (bigEndian (color (position % width) (position / width)).toNat).map (.byte true)

/-- What the panel must see of a job. -/
def Job.signals : Job → List Signal
  | .clear color => window 0 0 240 240 ++ picture 240 240 fun _ _ => color
  | .fillRect x y width height color =>
      window x.toNat y.toNat width.toNat height.toNat ++
        picture width.toNat height.toNat fun _ _ => color
  | .demo seed =>
      window 0 0 240 240 ++
        picture 240 240 fun column row => demoPixel (.ofNat column) (.ofNat row) seed
  | .frame slot x y width height =>
      window x.toNat y.toNat width.toNat height.toNat ++
        [.stream true slot 0 (width.toNat * height.toNat)]

/-! ## The signals of a draw -/

/-- So many pixels of a source. -/
def Pixels.signals (source : Pixels) (count : Nat) : List Signal :=
  (List.range count).flatMap fun position =>
    (bigEndian (Engine.colorOf source (.ofNat position)).toNat).map (.byte true)

namespace Render

/-- The pixels of the rectangle. -/
def area (render : Render) : Nat := render.width.toNat * render.height.toNat

def window (render : Render) : List Signal :=
  Panel.window render.x.toNat render.y.toNat render.width.toNat render.height.toNat

/-- All signals of a draw. -/
def signals (render : Render) : List Signal :=
  render.window ++ match render.source with
    | .frame slot => [.stream true slot 0 render.area]
    | source => source.signals render.area

/-- The signals of the stages before this one. -/
def windowCount (stage : UInt8) : Nat :=
  match stage with
  | 0 => 0
  | 1 => 1
  | 2 => 5
  | 3 => 6
  | 4 => 10
  | _ => 11

/-- The signals of a draw that were sent. -/
def sent (render : Render) : List Signal :=
  render.window.take (windowCount render.stage) ++ render.source.signals render.pixel.toNat

/-- A draw that is not complete. -/
structure Valid (render : Render) : Prop where
  onPanel : OnPanel render.x render.y render.width render.height
  stage : render.stage.toNat ≤ 5
  first : render.stage ≠ 5 → render.pixel = 0
  burst : ∀ slot, render.source = .frame slot → render.pixel = 0
  pixel : render.pixel.toNat < render.area

/-- A bound on the turns that are left. -/
def left (render : Render) : Nat := 5 - render.stage.toNat + (render.area - render.pixel.toNat)

/-- The operands of `demo_pixel` for a place in the box of its glyphs: no difference is negative,
both indices are within the glyphs, and no shift is wider than a byte. -/
structure GlyphInRange (x y : Nat) : Prop where
  column : 60 ≤ x
  row : 96 ≤ y
  cell : (x - 60) / 24 < 5
  line : (y - 96) / 4 < 7
  shift : (x - 60) % 24 / 4 < 5 → (x - 60) % 24 / 4 ≤ 4 ∧ 4 - (x - 60) % 24 / 4 < 8

/-- The operands of every computation that the engine makes for a draw: no sum or product leaves
its type, no difference is negative, and no position is cut when it becomes a row. -/
structure InRange (render : Render) : Prop where
  columns : render.x.toNat + render.width.toNat < 2 ^ 16 ∧ 1 ≤ render.x.toNat + render.width.toNat
  rows : render.y.toNat + 80 + render.height.toNat < 2 ^ 16 ∧
    1 ≤ render.y.toNat + 80 + render.height.toNat
  area : render.width.toNat * render.height.toNat < 2 ^ 32
  remaining : render.pixel.toNat ≤ render.width.toNat * render.height.toNat
  position : render.pixel.toNat + 4 < 2 ^ 32
  row : (render.pixel.toNat + 4) / 240 < 2 ^ 16
  stage : render.stage.toNat + 1 < 2 ^ 8
  glyphs : ∀ position, render.pixel.toNat ≤ position → position < render.pixel.toNat + 4 →
    60 ≤ position % 240 ∧ position % 240 < 180 ∧ 96 ≤ position / 240 ∧ position / 240 < 124 →
    GlyphInRange (position % 240) (position / 240)

theorem Valid.area_le {render : Render} (h : render.Valid) : render.area ≤ 57600 := by
  obtain ⟨_, _, hright, hbottom⟩ := h.onPanel
  have hmul : render.width.toNat * render.height.toNat ≤ 240 * 240 :=
    Nat.mul_le_mul (by omega) (by omega)
  exact hmul

theorem Valid.in_range {render : Render} (h : render.Valid) : render.InRange := by
  have harea := h.area_le
  have hpixel := h.pixel
  have hstage := h.stage
  obtain ⟨hwide, hhigh, hright, hbottom⟩ := h.onPanel
  unfold area at harea hpixel
  refine ⟨by omega, by omega, by omega, by omega, by omega, by omega, by omega, ?_⟩
  rintro position - - ⟨hleft, hright, htop, hbottom⟩
  exact ⟨hleft, htop, by omega, by omega, by omega⟩

end Render

theorem big_endian_bytes (value : UInt16) :
    [(value >>> 8).toUInt8, value.toUInt8] = bigEndian value.toNat := by
  have hlt := value.toNat_lt
  have hhigh : (value >>> 8).toUInt8 = UInt8.ofNat (value.toNat / 256) := by
    apply UInt8.toNat_inj.1
    simp [Nat.shiftRight_eq_div_pow]
  have hlow : value.toUInt8 = UInt8.ofNat (value.toNat % 256) := by
    apply UInt8.toNat_inj.1
    simp
  rw [hhigh, hlow]
  rfl

theorem window_bytes_eq (first last : UInt16) :
    windowBytes first last = bigEndian first.toNat ++ bigEndian last.toNat := by
  rw [← big_endian_bytes, ← big_endian_bytes]
  rfl

/-- More pixels of a source. -/
theorem pixels_signals_add (source : Pixels) (first : UInt32) (count : Nat) :
    source.signals (first.toNat + count) = source.signals first.toNat ++
      (Engine.pixelBytes source first count).map (.byte true) := by
  have hposition : ∀ index, UInt32.ofNat (first.toNat + index) = first + .ofNat index := by
    intro index
    rw [UInt32.ofNat_add, UInt32.ofNat_toNat]
  simp only [Pixels.signals, Engine.pixelBytes, List.range_add, List.flatMap_append,
    List.flatMap_map, List.map_flatMap, hposition, big_endian_bytes]

namespace Render

variable {render : Render} {engine : Engine}

theorem stage_cases (h : render.Valid) :
    render.stage = 0 ∨ render.stage = 1 ∨ render.stage = 2 ∨ render.stage = 3 ∨
      render.stage = 4 ∨ render.stage = 5 := by
  have hstage := h.stage
  simp only [← UInt8.toNat_inj, UInt8.reduceToNat]
  omega

/-- The window stages. -/
theorem draw_turn_window (h : render.Valid) (hstage : render.stage ≠ 5) :
    ∃ event, engine.drawTurn render =
        ⟨some event, false, engine.inPhase (.draw { render with stage := render.stage + 1 })⟩ ∧
      { render with stage := render.stage + 1 }.Valid ∧
      { render with stage := render.stage + 1 }.sent = render.sent ++ event.signals ∧
      { render with stage := render.stage + 1 }.left < render.left ∧ event.signals ≠ [] := by
  have hpixel := h.first hstage
  obtain ⟨hlast, htop, hbottom⟩ := h.onPanel.window
  obtain ⟨x, y, width, height, source, stage, pixel⟩ := render
  dsimp only at hpixel hstage hlast htop hbottom
  subst hpixel
  have hcases := stage_cases h
  dsimp only at hcases
  have hvalid : ∀ next : UInt8, next.toNat ≤ 5 →
      Render.Valid ⟨x, y, width, height, source, next, 0⟩ :=
    fun next hnext => ⟨h.onPanel, hnext, fun _ => rfl, fun _ _ => rfl, h.pixel⟩
  obtain rfl | rfl | rfl | rfl | rfl | rfl := hcases
  · exact ⟨_, rfl, hvalid 1 (by decide), rfl, by simp [left, area], nofun⟩
  · refine ⟨_, rfl, hvalid 2 (by decide), ?_, by simp [left, area], nofun⟩
    simp only [Event.signals, window_bytes_eq, hlast]
    rfl
  · exact ⟨_, rfl, hvalid 3 (by decide), rfl, by simp [left, area], nofun⟩
  · refine ⟨_, rfl, hvalid 4 (by decide), ?_, by simp [left, area], nofun⟩
    simp only [Event.signals, window_bytes_eq, htop, hbottom]
    rfl
  · exact ⟨_, rfl, hvalid 5 (by decide), rfl, by simp [left, area], nofun⟩
  · exact absurd rfl hstage

theorem take_window (render : Render) : render.window.take 11 = render.window := rfl

/-- The pixels that are left. -/
theorem remaining_to_nat (h : render.Valid) :
    (render.width.toUInt32 * render.height.toUInt32 - render.pixel).toNat =
      render.area - render.pixel.toNat := by
  have harea := h.area_le
  have hpixel := h.pixel
  have hmul : (render.width.toUInt32 * render.height.toUInt32).toNat = render.area := by
    rw [UInt32.toNat_mul, UInt16.toNat_toUInt32, UInt16.toNat_toUInt32]
    unfold area at harea ⊢
    omega
  rw [UInt32.toNat_sub, hmul]
  have hlt := render.pixel.toNat_lt
  omega

/-- The stage of the pixels. -/
theorem draw_turn_last (hstage : render.stage = 5) :
    engine.drawTurn render = engine.pixelTurn render := by
  apply Engine.draw_turn_pixels <;> rw [hstage] <;> decide

/-- The burst of a frame ends the draw. -/
theorem pixel_turn_frame (h : render.Valid) (hstage : render.stage = 5) {slot : UInt8}
    (hsource : render.source = .frame slot) :
    ∃ event, engine.pixelTurn render = ⟨some event, true, engine.complete⟩ ∧
      render.sent ++ event.signals = render.signals ∧ event.signals ≠ [] := by
  have hremaining := remaining_to_nat h
  have hpixel := h.burst slot hsource
  refine ⟨.frame true slot render.pixel
    (render.width.toUInt32 * render.height.toUInt32 - render.pixel), ?_, ?_, nofun⟩
  · rw [Engine.pixelTurn, hsource]
  · rw [signals, hsource, sent, hstage, Event.signals, hremaining, hpixel]
    simp [Pixels.signals, windowCount, window, Panel.window, bigEndian]

/-- Up to four pixels of another source. -/
theorem pixel_turn_bytes (h : render.Valid) (hstage : render.stage = 5)
    (hsource : ∀ slot, render.source ≠ .frame slot) :
    ∃ event, event.signals ≠ [] ∧
      ((engine.pixelTurn render = ⟨some event, true, engine.complete⟩ ∧
        render.sent ++ event.signals = render.signals) ∨
      ∃ next, engine.pixelTurn render = ⟨some event, false, engine.inPhase (.draw next)⟩ ∧
        next.Valid ∧ next.sent = render.sent ++ event.signals ∧ next.signals = render.signals ∧
        next.left < render.left) := by
  have hremaining := remaining_to_nat h
  have hpixel := h.pixel
  have harea := h.area_le
  generalize hrest : render.width.toUInt32 * render.height.toUInt32 - render.pixel = rest
  rw [hrest] at hremaining
  have hcount : (min rest 4).toNat = min rest.toNat 4 := by
    show (if rest ≤ 4 then rest else 4).toNat = min rest.toNat 4
    split
    · rename_i hle
      exact (Nat.min_eq_left (UInt32.le_iff_toNat_le.1 hle)).symm
    · rename_i hle
      rw [UInt32.le_iff_toNat_le] at hle
      exact (Nat.min_eq_right (by simpa using Nat.le_of_not_le hle)).symm
  have hturn : engine.pixelTurn render =
      if min rest 4 = rest then
        ⟨some (.write true (Engine.pixelBytes render.source render.pixel (min rest 4).toNat)), true,
          engine.complete⟩
      else
        ⟨some (.write true (Engine.pixelBytes render.source render.pixel (min rest 4).toNat)), false,
          engine.inPhase (.draw { render with pixel := render.pixel + min rest 4, stage := 5 })⟩ := by
    rw [← hrest]
    unfold Engine.pixelTurn
    cases hpixels : render.source with
    | frame slot => exact absurd hpixels (hsource slot)
    | solid color | demo seed => rfl
  have hsignals := pixels_signals_add render.source render.pixel (min rest 4).toNat
  have hsent : render.sent = render.window ++ render.source.signals render.pixel.toNat := by
    rw [sent, hstage]
    exact congrArg (· ++ _) (take_window render)
  have hall : render.signals = render.window ++ render.source.signals render.area := by
    unfold signals
    cases hpixels : render.source with
    | frame slot => exact absurd hpixels (hsource slot)
    | solid color | demo seed => rfl
  have hsome : (Engine.pixelBytes render.source render.pixel (min rest 4).toNat).map
      (Signal.byte true) ≠ [] := by
    obtain ⟨count, hnext⟩ : ∃ count, (min rest 4).toNat = count + 1 :=
      ⟨(min rest 4).toNat - 1, by omega⟩
    rw [hnext, Engine.pixelBytes, List.range_succ_eq_map]
    simp
  refine ⟨.write true (Engine.pixelBytes render.source render.pixel (min rest 4).toNat), hsome, ?_⟩
  by_cases hlast : min rest 4 = rest
  · left
    rw [hturn, if_pos hlast]
    refine ⟨rfl, ?_⟩
    have hend : render.pixel.toNat + (min rest 4).toNat = render.area := by
      rw [hlast, hremaining]
      omega
    rw [hend] at hsignals
    rw [hsent, hall, hsignals, List.append_assoc]
    rfl
  · right
    have hmore : 4 < rest.toNat := by
      by_contra hle
      exact hlast (UInt32.toNat_inj.1 (by rw [hcount]; omega))
    have hsum : (render.pixel + min rest 4).toNat = render.pixel.toNat + 4 := by
      rw [UInt32.toNat_add, hcount]
      omega
    have hfour : (min rest 4).toNat = 4 := by omega
    refine ⟨{ render with pixel := render.pixel + min rest 4, stage := 5 }, ?_, ?_, ?_, ?_, ?_⟩
    · rw [hturn, if_neg hlast]
    · refine ⟨h.onPanel, Nat.le_refl 5, fun hne => absurd rfl hne,
        fun slot hframe => absurd hframe (hsource slot), ?_⟩
      show (render.pixel + min rest 4).toNat < render.area
      omega
    · rw [hfour] at hsignals
      rw [hsent, List.append_assoc]
      simp only [sent, hsum, hsignals, windowCount, hfour]
      exact congrArg (· ++ _) (take_window render)
    · rfl
    · show 5 - 5 + (render.area - (render.pixel + min rest 4).toNat) < _
      rw [left, hstage]
      omega

/-- A turn of a draw: it sends what comes next, and the draw goes on or is complete. -/
theorem draw_turn_sends (h : render.Valid) :
    ∃ event, event.signals ≠ [] ∧
      ((engine.drawTurn render = ⟨some event, true, engine.complete⟩ ∧
        render.sent ++ event.signals = render.signals) ∨
      ∃ next, engine.drawTurn render = ⟨some event, false, engine.inPhase (.draw next)⟩ ∧
        next.Valid ∧ next.sent = render.sent ++ event.signals ∧ next.signals = render.signals ∧
        next.left < render.left) := by
  by_cases hstage : render.stage = 5
  · rw [draw_turn_last hstage]
    by_cases hsource : ∃ slot, render.source = .frame slot
    · obtain ⟨slot, hframe⟩ := hsource
      obtain ⟨event, hturn, hsent, hsome⟩ := @pixel_turn_frame render engine h hstage slot hframe
      exact ⟨event, hsome, .inl ⟨hturn, hsent⟩⟩
    · exact pixel_turn_bytes h hstage fun slot hframe => hsource ⟨slot, hframe⟩
  · obtain ⟨event, hturn, hvalid, hsent, hleft, hsome⟩ := @draw_turn_window render engine h hstage
    exact ⟨event, hsome, .inr ⟨_, hturn, hvalid, hsent, rfl, hleft⟩⟩

/-- What was sent begins the draw and does not complete it. -/
theorem sent_signals (h : render.Valid) :
    render.sent <+: render.signals ∧ render.sent ≠ render.signals := by
  -- The induction is on the turns that are left, along the draw.
  generalize hleft : render.left = left
  induction left using Nat.strong_induction_on generalizing render with
  | _ left ih =>
      obtain ⟨event, hsome, ⟨_, hsent⟩ | ⟨next, _, hvalid, hsent, hsignals, hless⟩⟩ :=
        @draw_turn_sends render Engine.new h
      · rw [← hsent]
        exact ⟨List.prefix_append _ _, by simp [hsome]⟩
      · obtain ⟨hbegins, _⟩ := ih next.left (by omega) hvalid rfl
        rw [hsent, hsignals] at hbegins
        refine ⟨(List.prefix_append _ _).trans hbegins, fun heq => ?_⟩
        have hlength := hbegins.length_le
        rw [← heq, List.length_append] at hlength
        have hpos := List.length_pos_of_ne_nil hsome
        omega

end Render

/-! ## Accepted jobs -/

/-- The bounds that `Render::new` checks. -/
theorem on_panel_of_checks {x y width height : UInt16}
    (h : ¬ (width = 0 ∨ height = 0 ∨
      x.toUInt32 + width.toUInt32 > Panel.width.toUInt32 ∨
      y.toUInt32 + height.toUInt32 > Panel.height.toUInt32)) : OnPanel x y width height := by
  have hx := x.toNat_lt
  have hy := y.toNat_lt
  have hw := width.toNat_lt
  have hh := height.toNat_lt
  simp only [not_or, ← UInt16.toNat_inj, gt_iff_lt, UInt32.lt_iff_toNat_lt, UInt32.toNat_add,
    UInt16.toNat_toUInt32] at h
  have hwidth : Panel.width.toNat = 240 := rfl
  have hheight : Panel.height.toNat = 240 := rfl
  rw [hwidth, hheight] at h
  have hzero : (0 : UInt16).toNat = 0 := rfl
  rw [hzero] at h
  obtain ⟨hwide, hhigh, hright, hbottom⟩ := h
  exact ⟨by omega, by omega, by omega, by omega⟩

/-- The colors of the demo, by row and column. -/
theorem demo_signals (seed : UInt32) :
    (Pixels.demo seed).signals (240 * 240) =
      picture 240 240 fun column row => demoPixel (.ofNat column) (.ofNat row) seed := by
  unfold Pixels.signals picture
  apply List.flatMap_congr
  intro position hposition
  rw [List.mem_range] at hposition
  have hcolumn : (UInt32.ofNat position % Panel.width.toUInt32).toUInt16 =
      UInt16.ofNat (position % 240) := by
    apply UInt16.toNat_inj.1
    simp [Panel.width]
    omega
  have hrow : (UInt32.ofNat position / Panel.width.toUInt32).toUInt16 =
      UInt16.ofNat (position / 240) := by
    apply UInt16.toNat_inj.1
    simp [Panel.width]
    omega
  rw [Engine.colorOf, hcolumn, hrow]

/-- An accepted job draws its rectangle from the beginning. -/
theorem render_new_ok {job : Job} {render : Render} (h : Render.new job = .ok render) :
    render.Valid ∧ render.stage = 0 ∧ render.pixel = 0 ∧ render.signals = job.signals := by
  have hvalid : ∀ x y width height source, OnPanel x y width height →
      Render.Valid ⟨x, y, width, height, source, 0, 0⟩ := by
    intro x y width height source hpanel
    exact ⟨hpanel, Nat.zero_le _, fun _ => rfl, fun _ _ => rfl,
      Nat.mul_pos hpanel.wide hpanel.high⟩
  unfold Render.new at h
  cases job with
  | clear color =>
      dsimp only at h
      split at h
      · cases h
      · rename_i hbounds
        cases h
        exact ⟨hvalid _ _ _ _ _ (on_panel_of_checks hbounds), rfl, rfl, rfl⟩
  | fillRect x y width height color =>
      dsimp only at h
      split at h
      · cases h
      · rename_i hbounds
        cases h
        exact ⟨hvalid _ _ _ _ _ (on_panel_of_checks hbounds), rfl, rfl, rfl⟩
  | demo seed =>
      dsimp only at h
      split at h
      · cases h
      · rename_i hbounds
        cases h
        refine ⟨hvalid _ _ _ _ _ (on_panel_of_checks hbounds), rfl, rfl, ?_⟩
        exact congrArg (Panel.window 0 0 240 240 ++ ·) (demo_signals seed)
  | frame slot x y width height =>
      dsimp only at h
      by_cases hslot : slot < 2
      · rw [if_pos hslot] at h
        dsimp only at h
        split at h
        · cases h
        · rename_i hbounds
          cases h
          exact ⟨hvalid _ _ _ _ _ (on_panel_of_checks hbounds), rfl, rfl, rfl⟩
      · rw [if_neg hslot] at h
        cases h

/-! ## The steps of a draw -/

/-- A job is being drawn. The engine was `start` when it was accepted, and `base` were the
transactions before it. -/
def Drawing (start : Engine) (job : Job) (base : List Event) (failed : Bool) (left : Nat)
    (engine : Engine) (bus : Bus) : Prop :=
  ∃ render sent, engine = start.inPhase (.draw render) ∧ render.Valid ∧
    render.signals = job.signals ∧ render.left ≤ left ∧ bus.failed = failed ∧
    bus.events = base ++ sent ∧ sent.flatMap Event.signals = render.sent

/-- The job was drawn. -/
def Completed (start : Engine) (job : Job) (base : List Event) (failed : Bool) (engine : Engine)
    (bus : Bus) : Prop :=
  engine = start.complete ∧ bus.failed = failed ∧
    ∃ sent, bus.events = base ++ sent ∧ sent.flatMap Event.signals = job.signals

/-- A transaction of the job has failed. -/
def Broken (link : Link) (start : Engine) (job : Job) (base : List Event) (engine : Engine)
    (bus : Bus) : Prop :=
  (∃ operation, link.failure operation ≠ none) ∧ bus.failed = true ∧
    (∃ render error, engine = (start.inPhase (.draw render)).faultWith error) ∧
    ∃ sent, bus.events = base ++ sent ∧ sent.flatMap Event.signals <+: job.signals

section

variable {start engine : Engine} {job : Job} {base : List Event} {failed : Bool} {bus : Bus}
variable {link : Link}

theorem events_append {bus after : Bus} {time : Nat} {event : Event} {base sent : List Event}
    (hevents : bus.events = base ++ sent) (hlog : after.log = bus.log ++ [(time, event)]) :
    after.events = base ++ (sent ++ [event]) := by
  rw [Bus.events, hlog, List.map_append]
  show bus.events ++ [event] = _
  rw [hevents, List.append_assoc]

/-- What one turn of a draw does. -/
theorem Drawing.turn {left : Nat} (h : Drawing start job base failed left engine bus)
    (now : UInt32) :
    ∃ event, (engine.turn now).event = some event ∧
      (∀ after, bus.send link event = (.ok (), after) →
        ((engine.turn now).leave = false → ∃ less < left,
          Drawing start job base failed less (engine.turn now).engine after) ∧
        ((∃ less < left, Drawing start job base failed less (engine.turn now).engine after) ∨
          Completed start job base failed (engine.turn now).engine after)) ∧
      ∀ error after, bus.send link event = (.error error, after) →
        Broken link start job base (engine.faultWith error) after := by
  obtain ⟨render, sent, rfl, hvalid, hsignals, hleft, hfailed, hevents, hsent⟩ := h
  obtain ⟨event, _, hturn⟩ := @Render.draw_turn_sends render (start.inPhase (.draw render)) hvalid
  have hunfold : (start.inPhase (.draw render)).turn now =
      (start.inPhase (.draw render)).drawTurn render := rfl
  have hnext : render.sent ++ event.signals <+: job.signals := by
    obtain ⟨_, hend⟩ | ⟨next, _, hnext, hmore, hsame, _⟩ := hturn
    · rw [hend, hsignals]
    · rw [← hmore, ← hsignals, ← hsame]
      exact (Render.sent_signals hnext).1
  refine ⟨event, ?_, ?_, ?_⟩
  · rw [hunfold]
    obtain ⟨hturn, _⟩ | ⟨_, hturn, _⟩ := hturn <;> rw [hturn]
  · intro after hsend
    obtain ⟨_, hkept, hlog⟩ := Bus.send_result event _ hsend
    have hafter := events_append hevents hlog
    rw [hunfold]
    obtain ⟨hturn, hend⟩ | ⟨next, hturn, hnext, hmore, hsame, hless⟩ := hturn
    · rw [hturn]
      refine ⟨nofun, .inr ⟨rfl, hkept.trans hfailed, _, hafter, ?_⟩⟩
      rw [List.flatMap_append, hsent, List.flatMap_singleton, hend, hsignals]
    · rw [hturn]
      have hdrawing : ∃ less < left, Drawing start job base failed less
          ((start.inPhase (.draw render)).inPhase (.draw next)) after := by
        refine ⟨next.left, by omega, next, _, rfl, hnext, hsame.trans hsignals, Nat.le_refl _,
          hkept.trans hfailed, hafter, ?_⟩
        rw [List.flatMap_append, hsent, List.flatMap_singleton, hmore]
      exact ⟨fun _ => hdrawing, .inl hdrawing⟩
  · intro error after hsend
    obtain ⟨_, hfailure, htrue, hlog⟩ := Bus.send_result event _ hsend
    refine ⟨hfailure, htrue, ⟨render, error, rfl⟩, ?_⟩
    obtain hlog | hlog := hlog
    · refine ⟨sent, ?_, ?_⟩
      · rw [← hevents, Bus.events, hlog]
        rfl
      · rw [hsent]
        exact (List.prefix_append _ _).trans hnext
    · refine ⟨_, events_append hevents hlog, ?_⟩
      rw [List.flatMap_append, hsent, List.flatMap_singleton]
      exact hnext

/-- What a step of the engine does while a job is drawn. -/
theorem Drawing.step {left : Nat} (h : Drawing start job base failed left engine bus)
    (turns time : Nat) :
    (∃ less < left, Drawing start job base failed less
        (Engine.stepAt link (turns + 1) time (engine, bus)).1
        (Engine.stepAt link (turns + 1) time (engine, bus)).2) ∨
      Completed start job base failed (Engine.stepAt link (turns + 1) time (engine, bus)).1
        (Engine.stepAt link (turns + 1) time (engine, bus)).2 ∨
      Broken link start job base (Engine.stepAt link (turns + 1) time (engine, bus)).1
        (Engine.stepAt link (turns + 1) time (engine, bus)).2 := by
  refine @Engine.step_for_induct link (.ofNat time)
    (fun engine bus => ∃ more ≤ left, Drawing start job base failed more engine bus)
    (fun engine bus => (∃ less < left, Drawing start job base failed less engine bus) ∨
      Completed start job base failed engine bus ∨ Broken link start job base engine bus)
    turns ?_ ?_ ?_ engine _ ⟨left, Nat.le_refl _, h⟩
  · rintro engine bus ⟨more, _, hdrawing⟩ hevent
    obtain ⟨event, hsome, _⟩ := @Drawing.turn _ _ _ _ _ _ link _ hdrawing (.ofNat time)
    rw [hevent] at hsome
    cases hsome
  · rintro engine bus event after ⟨more, hmore, hdrawing⟩ hevent hsend
    obtain ⟨other, hsome, hsent, _⟩ := @Drawing.turn _ _ _ _ _ _ link _ hdrawing (.ofNat time)
    rw [hevent] at hsome
    cases hsome
    obtain ⟨hgoes, hends⟩ := hsent after hsend
    refine ⟨fun hleave => ?_, ?_⟩
    · obtain ⟨less, hless, hnext⟩ := hgoes hleave
      exact ⟨less, by omega, hnext⟩
    · obtain ⟨less, hless, hnext⟩ | hcomplete := hends
      · exact .inl ⟨less, by omega, hnext⟩
      · exact .inr (.inl hcomplete)
  · rintro engine bus event error after ⟨more, _, hdrawing⟩ hevent hsend
    obtain ⟨other, hsome, _, hbroken⟩ := @Drawing.turn _ _ _ _ _ _ link _ hdrawing (.ofNat time)
    rw [hevent] at hsome
    cases hsome
    exact .inr (.inr (hbroken error after hsend))

/-- A submission that is not a repetition starts a draw of its job, and nothing else. -/
theorem submit_new {accepted : Engine} {sequence : UInt32}
    (h : engine.submit sequence job = .ok accepted)
    (hnew : sequence ≠ engine.status.acceptedSequence) :
    engine.status.state = .ready ∧ sequence ≠ 0 ∧ ∃ render, Render.new job = .ok render ∧
      accepted =
        { phase := .draw render
          lastJob := some job
          status := { engine.status with state := .busy, acceptedSequence := sequence } } := by
  unfold Engine.submit at h
  split at h
  · cases h
  · rename_i hfault
    split at h
    · cases h
    · rename_i hzero
      split at h
      · cases h
      · rename_i hinitializing
        split at h
        · cases h
        · rename_i hbusy
          cases hrender : Render.new job with
          | error error =>
              rw [hrender] at h
              cases h
          | ok render =>
              rw [hrender] at h
              cases h
              refine ⟨?_, hzero, render, rfl, rfl⟩
              cases hstate : engine.status.state with
              | ready => rfl
              | initializing | busy | fault => exact absurd hstate ‹_›

/-- An engine that has nothing to do leaves the bus alone. -/
theorem idle_step (hphase : engine.phase = .ready ∨ engine.phase = .fault) (turns time : Nat) :
    Engine.stepAt link (turns + 1) time (engine, bus) = (engine, { bus with clock := time }) := by
  unfold Engine.stepAt Engine.stepFor
  rw [Engine.advance, Engine.chunk]
  obtain hready | hfault := hphase
  · rw [hready]
  · rw [hfault]

/-- The steps that follow one another. -/
def Engine.runSteps (link : Link) (steps : List (Nat × Nat)) (s : Engine × Bus) : Engine × Bus :=
  steps.foldl (fun s step => Engine.stepAt link (step.1 + 1) step.2 s) s

/-- A job over any number of steps without an error. -/
theorem Drawing.run (hlink : ∀ operation, link.failure operation = none)
    (steps : List (Nat × Nat)) {left : Nat}
    (h : Drawing start job base failed left engine bus) :
    (∃ less, less + steps.length ≤ left ∧ Drawing start job base failed less
        (Engine.runSteps link steps (engine, bus)).1
        (Engine.runSteps link steps (engine, bus)).2) ∨
      Completed start job base failed (Engine.runSteps link steps (engine, bus)).1
        (Engine.runSteps link steps (engine, bus)).2 := by
  have hcompleted : ∀ (steps : List (Nat × Nat)) (engine : Engine) (bus : Bus),
      Completed start job base failed engine bus →
      Completed start job base failed (Engine.runSteps link steps (engine, bus)).1
        (Engine.runSteps link steps (engine, bus)).2 := by
    intro steps
    induction steps with
    | nil => exact fun _ _ hdone => hdone
    | cons step steps ih =>
        intro engine bus hdone
        have hready : engine.phase = .ready := by rw [hdone.1]; rfl
        have hidle := @idle_step engine bus link (.inl hready) step.1 step.2
        show Completed start job base failed
          (Engine.runSteps link steps (Engine.stepAt link (step.1 + 1) step.2 (engine, bus))).1
          (Engine.runSteps link steps (Engine.stepAt link (step.1 + 1) step.2 (engine, bus))).2
        rw [hidle]
        exact ih engine { bus with clock := step.2 } hdone
  induction steps generalizing engine bus left with
  | nil => exact .inl ⟨left, Nat.le_refl _, h⟩
  | cons step steps ih =>
      obtain ⟨less, hless, hnext⟩ | hdone | ⟨⟨operation, hfailure⟩, _⟩ :=
        @Drawing.step start engine job base failed bus link left h step.1 step.2
      · obtain ⟨least, hleast, hlast⟩ | hdone := ih hnext
        · exact .inl ⟨least, by simp only [List.length_cons]; omega, hlast⟩
        · exact .inr hdone
      · exact .inr (hcompleted steps _ _ hdone)
      · exact absurd (hlink operation) hfailure

end

/-- An accepted job, over every division of its execution into steps. While it is drawn, the panel
has seen a beginning of the job's signals, none of the engine's numbers leaves its range, and the
completed sequence is the old one. It becomes the job's sequence when the panel has seen all
signals of the job, and nothing follows them; after enough steps this is so. -/
theorem draws_exactly {link : Link} (hlink : ∀ operation, link.failure operation = none)
    {engine accepted : Engine} {sequence : UInt32} {job : Job}
    (hsubmit : engine.submit sequence job = .ok accepted)
    (hnew : sequence ≠ engine.status.acceptedSequence) (bus : Bus) (steps : List (Nat × Nat)) :
    ∃ sent, (Engine.runSteps link steps (accepted, bus)).2.events = bus.events ++ sent ∧
      ((∃ render, (Engine.runSteps link steps (accepted, bus)).1.phase = .draw render ∧
          render.InRange ∧
          sent.flatMap Event.signals <+: job.signals ∧
          sent.flatMap Event.signals ≠ job.signals ∧
          (Engine.runSteps link steps (accepted, bus)).1.status.completedSequence =
            engine.status.completedSequence ∧ steps.length < 57605) ∨
        (sent.flatMap Event.signals = job.signals ∧
          (Engine.runSteps link steps (accepted, bus)).1.phase = .ready ∧
          (Engine.runSteps link steps (accepted, bus)).1.status.completedSequence = sequence)) := by
  obtain ⟨_, _, render, hrender, rfl⟩ := submit_new hsubmit hnew
  obtain ⟨hvalid, hstage, hpixel, hsignals⟩ := render_new_ok hrender
  have harea := hvalid.area_le
  have hstart : Drawing
      { phase := .draw render
        lastJob := some job
        status := { engine.status with state := .busy, acceptedSequence := sequence } }
      job bus.events bus.failed 57605
      { phase := .draw render
        lastJob := some job
        status := { engine.status with state := .busy, acceptedSequence := sequence } } bus := by
    refine ⟨render, [], rfl, hvalid, hsignals, ?_, rfl, by simp, ?_⟩
    · rw [Render.left]
      omega
    · rw [Render.sent, hstage, hpixel]
      rfl
  obtain ⟨less, hless, last, sent, hengine, hlast, hsame, hleft, _, hevents, hsent⟩ |
    ⟨hengine, _, sent, hevents, hsent⟩ := hstart.run hlink steps
  · refine ⟨sent, hevents, .inl ⟨last, by rw [hengine]; rfl, hlast.in_range, ?_, ?_, ?_, ?_⟩⟩
    · rw [hsent, ← hsame]
      exact (Render.sent_signals hlast).1
    · rw [hsent, ← hsame]
      exact (Render.sent_signals hlast).2
    · rw [hengine]
      rfl
    · have hpos := hlast.pixel
      rw [Render.left] at hleft
      omega
  · exact ⟨sent, hevents, .inr ⟨hsent, by rw [hengine]; rfl, by rw [hengine]; rfl⟩⟩

/-- An engine that is powered up and has drawn nothing. -/
def readyEngine : Engine where
  phase := .ready
  status := ⟨.ready, 0, 0, none⟩
  lastJob := none

/-- The last three rows of the right edge, six pixels wide: five chunks, in three steps. -/
theorem draws_exactly_three_rows :
    ∃ accepted sent, readyEngine.submit 7 (.fillRect 234 237 6 3 0x1234) = .ok accepted ∧
      (Engine.runSteps ⟨fun _ => 0, fun _ => none⟩ [(3, 0), (3, 1), (5, 2)]
        (accepted, ⟨false, 0, 0, false, []⟩)).2.events = sent ∧ sent.length = 10 ∧
      sent.flatMap Event.signals = (Job.fillRect 234 237 6 3 0x1234).signals ∧
      (Engine.runSteps ⟨fun _ => 0, fun _ => none⟩ [(3, 0), (3, 1), (5, 2)]
        (accepted, ⟨false, 0, 0, false, []⟩)).1.status.completedSequence = 7 := by
  have hsubmit : readyEngine.submit 7 (.fillRect 234 237 6 3 0x1234) =
      .ok ⟨.draw ⟨234, 237, 6, 3, .solid 0x1234, 0, 0⟩, ⟨.busy, 7, 0, none⟩,
        some (.fillRect 234 237 6 3 0x1234)⟩ := by decide
  obtain ⟨sent, hevents, ⟨_, _, _, _, _, hcompleted, _⟩ | ⟨hall, _, hcompleted⟩⟩ :=
    @draws_exactly ⟨fun _ => 0, fun _ => none⟩ (fun _ => rfl) _ _ _ _ hsubmit (by decide)
      ⟨false, 0, 0, false, []⟩ [(3, 0), (3, 1), (5, 2)]
  · exact absurd hcompleted (by decide +kernel)
  · have hlength := congrArg List.length hevents
    exact ⟨_, sent, hsubmit, hevents, hlength.symm.trans (by decide +kernel), hall, hcompleted⟩

end NanoKvm.Lcd.Panel
