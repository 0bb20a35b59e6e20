import NanoKvm.Exec.Reachability
import NanoKvm.Lcd.Panel

/-!
# The engine on a recording bus

An `Io` that keeps what the engine does: every transaction with the level of D/C and the time
at which it takes effect. An operation takes as long as `duration` says and fails when
`failure` says so. `Engine.turn` is one turn of the loop of `Engine::advance` without the
bus: what it sends, whether the loop returns and the engine after it. `chunk_turn` connects
the two, so that an invariant of the engine has to be shown for `turn` only
(`step_for_induct`).
-/

namespace NanoKvm.Lcd.Panel

/-! ## The bus -/

/-- A transaction with the panel, with the level of D/C. -/
inductive Event where
  | reset (high : Bool)
  | write (data : Bool) (bytes : List UInt8)
  | frame (data : Bool) (slot : UInt8) (first count : UInt32)
  deriving DecidableEq, Repr

/-- The time that each operation takes, and the error that it returns. -/
structure Link where
  duration : Nat → Nat
  failure : Nat → Option Error

/-- The D/C line, the time, the number of operations so far, whether one has failed, and the
transactions that were begun. -/
structure Bus where
  dc : Bool
  clock : Nat
  operations : Nat
  failed : Bool
  log : List (Nat × Event)

namespace Bus

/-- The transactions without their times. -/
def events (bus : Bus) : List Event := bus.log.map Prod.snd

/-- An operation, which may be a transaction. -/
def operate (link : Link) (event : Option Event) (bus : Bus) : Except Error Unit × Bus :=
  let clock := bus.clock + link.duration bus.operations
  let after := { bus with
    clock := clock
    operations := bus.operations + 1
    log := bus.log ++ (event.map fun event => (clock, event)).toList }
  match link.failure bus.operations with
  | none => (.ok (), after)
  | some error => (.error error, { after with failed := true })

/-- The bus as the engine's `Io`. -/
def recorder (link : Link) : Io Bus where
  dc high bus :=
    let (result, after) := bus.operate link none
    (result, { after with dc := high })
  reset high bus := bus.operate link (some (.reset high))
  write bytes bus := bus.operate link (some (.write bus.dc bytes))
  frameStream slot first count bus := bus.operate link (some (.frame bus.dc slot first count))

/-- The operations of the engine that make a transaction. -/
def send (link : Link) (event : Event) (bus : Bus) : Except Error Unit × Bus :=
  match event with
  | .reset high => (recorder link).reset high bus
  | .write data bytes => Engine.write (recorder link) data bytes bus
  | .frame data slot first count =>
      andThen ((recorder link).dc data bus) ((recorder link).frameStream slot first count)

/-- What a transaction has done: it is in the log with the time of its effect, or it has failed
and may not have begun, because D/C could not be set. -/
def Sent (link : Link) (event : Event) (bus after : Bus) : Except Error Unit → Prop
  | .ok _ => after.failed = bus.failed ∧ after.log = bus.log ++ [(after.clock, event)]
  | .error _ => (∃ operation, link.failure operation ≠ none) ∧ after.failed = true ∧
      (after.log = bus.log ∨ after.log = bus.log ++ [(after.clock, event)])

variable {link : Link} {bus after : Bus}

theorem operate_ok {event : Option Event} (h : bus.operate link event = (.ok (), after)) :
    link.failure bus.operations = none ∧ after.failed = bus.failed ∧ bus.clock ≤ after.clock ∧
      after.log = bus.log ++ (event.map fun event => (after.clock, event)).toList := by
  unfold operate at h
  dsimp only at h
  split at h
  · rename_i hnone
    rw [← (Prod.mk.inj h).2]
    exact ⟨hnone, rfl, Nat.le_add_right _ _, rfl⟩
  · simp at h

theorem operate_error {event : Option Event} {error : Error}
    (h : bus.operate link event = (.error error, after)) :
    link.failure bus.operations ≠ none ∧ after.failed = true ∧ bus.clock ≤ after.clock ∧
      after.log = bus.log ++ (event.map fun event => (after.clock, event)).toList := by
  unfold operate at h
  dsimp only at h
  split at h
  · simp at h
  · rename_i hsome
    rw [← (Prod.mk.inj h).2]
    exact ⟨by simp [hsome], rfl, Nat.le_add_right _ _, rfl⟩

/-- The D/C line comes first. -/
theorem dc_then {data : Bool} {event : Event} {next : Bus → Except Error Unit × Bus}
    (hnext : ∀ middle, middle.dc = data → next middle = middle.operate link (some event))
    (result : Except Error Unit)
    (h : andThen ((recorder link).dc data bus) next = (result, after)) :
    bus.clock ≤ after.clock ∧ Sent link event bus after result := by
  cases hdc : bus.operate link none with
  | mk outcome middle =>
      cases outcome with
      | error error =>
          obtain ⟨hfailure, hfailed, hclock, hlog⟩ := operate_error hdc
          simp only [recorder, hdc, andThen] at h
          obtain ⟨rfl, rfl⟩ := Prod.mk.inj h
          exact ⟨hclock, ⟨_, hfailure⟩, hfailed, .inl (by simpa using hlog)⟩
      | ok value =>
          obtain ⟨_, hkept, hclock, hlog⟩ := operate_ok hdc
          simp only [recorder, hdc, andThen] at h
          rw [hnext { middle with dc := data } rfl] at h
          have hmiddle : middle.log = bus.log := by simpa using hlog
          cases result with
          | error error =>
              obtain ⟨hfailure, hfailed, hlater, hend⟩ := operate_error h
              refine ⟨Nat.le_trans hclock hlater, ⟨_, hfailure⟩, hfailed, .inr ?_⟩
              rw [hend]
              simp [hmiddle]
          | ok value =>
              obtain ⟨_, hfailed, hlater, hend⟩ := operate_ok h
              refine ⟨Nat.le_trans hclock hlater, hfailed.trans hkept, ?_⟩
              rw [hend]
              simp [hmiddle]

/-- What a transaction comes to. -/
theorem send_result (event : Event) (result : Except Error Unit)
    (h : bus.send link event = (result, after)) :
    bus.clock ≤ after.clock ∧ Sent link event bus after result := by
  cases event with
  | reset high =>
      cases result with
      | error error =>
          obtain ⟨hfailure, hfailed, hclock, hlog⟩ := operate_error h
          exact ⟨hclock, ⟨_, hfailure⟩, hfailed, .inr (by simpa using hlog)⟩
      | ok value =>
          obtain ⟨_, hfailed, hclock, hlog⟩ := operate_ok h
          exact ⟨hclock, hfailed, by simpa using hlog⟩
  | write data bytes =>
      refine dc_then ?_ result h
      intro middle hmiddle
      rw [← hmiddle]
      rfl
  | frame data slot first count =>
      refine dc_then ?_ result h
      intro middle hmiddle
      rw [← hmiddle]
      rfl

end Bus

/-! ## Turns -/

/-- What a turn of the loop sends, whether the loop returns and the engine after it. -/
structure Turn where
  event : Option Event
  leave : Bool
  engine : Engine

namespace Engine

/-- The engine in another phase. -/
def inPhase (engine : Engine) (phase : Phase) : Engine := { engine with phase := phase }

/-- The turn at the end of a delay. -/
def delayTurn (engine : Engine) : AfterDelay → Turn
  | .resetLow => ⟨some (.reset false), true, engine.inPhase (delay 10 .resetHigh)⟩
  | .resetHigh => ⟨some (.reset true), true, engine.inPhase (delay 24 .sleepOut)⟩
  | .sleepOut => ⟨some (.write false [0x11]), true, engine.inPhase (delay 24 .init)⟩
  | .init => ⟨none, true, engine.inPhase (.init 0 0)⟩
  | .ready =>
      ⟨none, true,
        { engine with phase := .ready, status := { engine.status with state := .ready } }⟩

/-- The turn of a command of `INIT` or of a part of its data. -/
def initTurn (engine : Engine) (index offset : Nat) : Turn :=
  let (command, data) := initCommands.getD index (0, [])
  if offset = 0 then
    ⟨some (.write false [command]), false,
      engine.inPhase (if data = [] then .init (index + 1) 0 else .init index 1)⟩
  else
    let begin := offset - 1
    let stop := min (begin + 8) data.length
    ⟨some (.write true ((data.drop begin).take (stop - begin))), false,
      engine.inPhase
        (if stop = data.length then .init (index + 1) 0 else .init index (stop + 1))⟩

/-- The bytes of so many pixels of a source. -/
def pixelBytes (source : Pixels) (first : UInt32) (count : Nat) : List UInt8 :=
  (List.range count).flatMap fun index =>
    let color := colorOf source (first + .ofNat index)
    [(color >>> 8).toUInt8, color.toUInt8]

/-- The turn that sends pixels. -/
def pixelTurn (engine : Engine) (render : Render) : Turn :=
  let remaining := render.width.toUInt32 * render.height.toUInt32 - render.pixel
  match render.source with
  | .frame slot => ⟨some (.frame true slot render.pixel remaining), true, engine.complete⟩
  | source =>
      let pixels := min remaining 4
      let event := Event.write true (pixelBytes source render.pixel pixels.toNat)
      if pixels = remaining then ⟨some event, true, engine.complete⟩
      else ⟨some event, false,
        engine.inPhase (.draw { render with pixel := render.pixel + pixels, stage := 5 })⟩

/-- The turn of a draw. -/
def drawTurn (engine : Engine) (render : Render) : Turn :=
  let go (data : Bool) (bytes : List UInt8) : Turn :=
    ⟨some (.write data bytes), false,
      engine.inPhase (.draw { render with stage := render.stage + 1 })⟩
  match render.stage with
  | 0 => go false [0x2a]
  | 1 => go true (windowBytes render.x (render.x + render.width - 1))
  | 2 => go false [0x2b]
  | 3 => go true (windowBytes (render.y + yOffset) (render.y + yOffset + render.height - 1))
  | 4 => go false [0x2c]
  | _ => pixelTurn engine render

/-- One turn of the loop, if its transaction succeeds. -/
def turn (now : UInt32) (engine : Engine) : Turn :=
  match engine.phase with
  | .ready | .fault => ⟨none, true, engine⟩
  | .delay none ticks next => ⟨none, true, engine.inPhase (.delay (some (now + ticks)) ticks next)⟩
  | .delay (some deadline) _ next =>
      if (now - deadline).toInt32 < 0 then ⟨none, true, engine⟩ else delayTurn engine next
  | .init index offset =>
      if index = initCommands.length then ⟨none, true, engine.inPhase (delay 20 .ready)⟩
      else initTurn engine index offset
  | .draw render => drawTurn engine render

/-- The engine after an error. -/
def faultWith (engine : Engine) (error : Error) : Engine :=
  { engine with
    phase := .fault, status := { engine.status with state := .fault, error := some error } }

/-- `Engine::step` with a budget of its own. -/
def stepFor {State : Type} (io : Io State) (turns : Nat) (now : UInt32) (engine : Engine)
    (state : State) : Engine × State :=
  match advance io now turns engine state with
  | ((none, engine), state) => (engine, state)
  | ((some error, engine), state) => (engine.faultWith error, state)

variable {link : Link} {now : UInt32}

theorem and_then_map {State α β : Type} (result : Except Error Unit × State) (value : α)
    (f : α → β) :
    ((andThen result fun state => (.ok value, state)).1.map f,
      (andThen result fun state => ((.ok value : Except Error α), state)).2) =
      andThen result fun state => (.ok (f value), state) := by
  obtain ⟨outcome, state⟩ := result
  cases outcome <;> rfl

/-- A turn of the power-up table on the bus. -/
theorem init_command_turn (engine : Engine) (index offset : Nat) (bus : Bus) :
    ((initCommand (Bus.recorder link) engine index offset bus).1.map fun engine => (false, engine),
      (initCommand (Bus.recorder link) engine index offset bus).2) =
      match (initTurn engine index offset).event with
      | none => (.ok (false, (initTurn engine index offset).engine), bus)
      | some event => andThen (bus.send link event) fun bus =>
          (.ok (false, (initTurn engine index offset).engine), bus) := by
  unfold initCommand initTurn
  by_cases hoffset : offset = 0
  · simp only [if_pos hoffset]
    exact and_then_map _ _ _
  · simp only [if_neg hoffset]
    exact and_then_map _ _ _

/-- Pixels on the bus. -/
theorem draw_pixels_turn (engine : Engine) (render : Render) (bus : Bus) :
    drawPixels (Bus.recorder link) engine render bus =
      match (pixelTurn engine render).event with
      | none => (.ok ((pixelTurn engine render).leave, (pixelTurn engine render).engine), bus)
      | some event => andThen (bus.send link event) fun bus =>
          (.ok ((pixelTurn engine render).leave, (pixelTurn engine render).engine), bus) := by
  have hburst : ∀ (slot : UInt8) (first count : UInt32) (value : Bool × Engine),
      (andThen ((Bus.recorder link).dc true bus) fun state =>
        andThen ((Bus.recorder link).frameStream slot first count state) fun state =>
          ((.ok value : Except Error (Bool × Engine)), state)) =
        andThen (bus.send link (.frame true slot first count)) fun state => (.ok value, state) := by
    intro slot first count value
    rw [Bus.send]
    cases (Bus.recorder link).dc true bus with
    | mk outcome middle => cases outcome <;> rfl
  obtain ⟨x, y, width, height, source, stage, pixel⟩ := render
  unfold drawPixels pixelTurn
  dsimp only
  cases source with
  | frame slot => exact hburst _ _ _ _
  | solid color | demo seed =>
      dsimp only
      by_cases hlast : min (width.toUInt32 * height.toUInt32 - pixel) 4 =
          width.toUInt32 * height.toUInt32 - pixel
      · simp only [if_pos hlast]
        rfl
      · simp only [if_neg hlast]
        rfl

/-- The window is complete. -/
theorem draw_turn_pixels {engine : Engine} {render : Render} (hzero : render.stage ≠ 0)
    (hone : render.stage ≠ 1) (htwo : render.stage ≠ 2) (hthree : render.stage ≠ 3)
    (hfour : render.stage ≠ 4) : drawTurn engine render = pixelTurn engine render := by
  unfold drawTurn
  dsimp only
  split <;> first | contradiction | rfl

/-- A turn of a draw on the bus. -/
theorem draw_turn (engine : Engine) (render : Render) (bus : Bus) :
    draw (Bus.recorder link) engine render bus =
      match (drawTurn engine render).event with
      | none => (.ok ((drawTurn engine render).leave, (drawTurn engine render).engine), bus)
      | some event => andThen (bus.send link event) fun bus =>
          (.ok ((drawTurn engine render).leave, (drawTurn engine render).engine), bus) := by
  obtain ⟨x, y, width, height, source, stage, pixel⟩ := render
  unfold draw
  dsimp only
  split
  · rfl
  · rfl
  · rfl
  · rfl
  · rfl
  · rename_i hzero hone htwo hthree hfour
    rw [draw_turn_pixels hzero hone htwo hthree hfour]
    exact draw_pixels_turn engine _ bus

/-- A turn on the bus. -/
theorem chunk_turn (engine : Engine) (bus : Bus) :
    chunk (Bus.recorder link) now engine bus =
      match (engine.turn now).event with
      | none => (.ok ((engine.turn now).leave, (engine.turn now).engine), bus)
      | some event => andThen (bus.send link event) fun bus =>
          (.ok ((engine.turn now).leave, (engine.turn now).engine), bus) := by
  unfold chunk turn
  cases engine.phase with
  | ready | fault => rfl
  | delay deadline ticks next =>
      cases deadline with
      | none => rfl
      | some deadline =>
          dsimp only
          by_cases hwait : (now - deadline).toInt32 < 0
          · simp only [if_pos hwait]
          · rw [if_neg hwait, if_neg hwait]
            cases next with
            | resetLow | resetHigh | sleepOut => exact and_then_map _ _ _
            | init | ready => rfl
  | init index offset =>
      dsimp only
      by_cases hend : index = initCommands.length
      · simp only [if_pos hend, inPhase]
      · rw [if_neg hend, if_neg hend]
        have hleave : (initTurn engine index offset).leave = false := by
          unfold initTurn
          dsimp only
          split <;> rfl
        rw [hleave]
        exact init_command_turn engine index offset bus
  | draw render => exact draw_turn engine render bus

/-- The rule for a step: `inv` holds before every turn, `post` after the last one. -/
theorem step_for_induct {inv post : Engine → Bus → Prop} {turns : Nat}
    (hquiet : ∀ engine bus, inv engine bus → (engine.turn now).event = none →
      ((engine.turn now).leave = false → inv (engine.turn now).engine bus) ∧
        post (engine.turn now).engine bus)
    (hsent : ∀ engine bus event after, inv engine bus → (engine.turn now).event = some event →
      bus.send link event = (.ok (), after) →
      ((engine.turn now).leave = false → inv (engine.turn now).engine after) ∧
        post (engine.turn now).engine after)
    (hfailed : ∀ engine bus event error after, inv engine bus →
      (engine.turn now).event = some event → bus.send link event = (.error error, after) →
      post (engine.faultWith error) after)
    {engine : Engine} {bus : Bus} (h : inv engine bus) :
    post (engine.stepFor (Bus.recorder link) (turns + 1) now bus).1
      (engine.stepFor (Bus.recorder link) (turns + 1) now bus).2 := by
  unfold stepFor
  induction turns generalizing engine bus with
  | zero =>
      rw [advance, chunk_turn]
      cases hevent : (engine.turn now).event with
      | none =>
          obtain ⟨_, hend⟩ := hquiet engine bus h hevent
          cases hleave : (engine.turn now).leave <;> exact hend
      | some event =>
          dsimp only
          cases hsend : bus.send link event with
          | mk result after =>
              cases result with
              | error error => exact hfailed engine bus event error after h hevent hsend
              | ok value =>
                  obtain ⟨_, hend⟩ := hsent engine bus event after h hevent hsend
                  simp only [andThen]
                  cases hleave : (engine.turn now).leave <;> exact hend
  | succ turns ih =>
      rw [advance, chunk_turn]
      cases hevent : (engine.turn now).event with
      | none =>
          obtain ⟨hnext, hend⟩ := hquiet engine bus h hevent
          cases hleave : (engine.turn now).leave with
          | true => exact hend
          | false => exact ih (hnext hleave)
      | some event =>
          dsimp only
          cases hsend : bus.send link event with
          | mk result after =>
              cases result with
              | error error => exact hfailed engine bus event error after h hevent hsend
              | ok value =>
                  obtain ⟨hnext, hend⟩ := hsent engine bus event after h hevent hsend
                  simp only [andThen]
                  cases hleave : (engine.turn now).leave with
                  | true => exact hend
                  | false => exact ih (hnext hleave)

/-- `Engine::step` with a budget of turns, at a time. -/
def stepAt (link : Link) (turns time : Nat) (s : Engine × Bus) : Engine × Bus :=
  s.1.stepFor (Bus.recorder link) turns (.ofNat time) { s.2 with clock := time }

end Engine

end NanoKvm.Lcd.Panel
