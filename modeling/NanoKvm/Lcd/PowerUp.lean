import NanoKvm.Lcd.Bus

/-!
# The power-up of the panel

The transactions of the power-up in their order, how far each phase of the engine has come
with them, and the times between them. A delay is armed by the step after the action and
compared with wrapping arithmetic; `power_up` says that it is never shortened, for every
sequence of steps, and that the panel becomes ready when the steps go on.
-/

namespace NanoKvm.Lcd.Panel

/-! ## The transactions -/

/-- So many parts of the data of a command, of at most eight bytes each. -/
def dataParts (data : List UInt8) (count : Nat) : List Event :=
  (List.range count).map fun part => .write true ((data.drop (8 * part)).take 8)

/-- A command and its data. -/
def commandEvents (entry : UInt8 × List UInt8) : List Event :=
  .write false [entry.1] :: dataParts entry.2 ((entry.2.length + 7) / 8)

/-- The reset pulse and the command that ends the sleep. -/
def wakeUp : List Event := [.reset false, .reset true, .write false [0x11]]

/-- The whole power-up. -/
def powerUp : List Event := wakeUp ++ initCommands.flatMap commandEvents

/-- The ticks of the delay before an action. -/
def AfterDelay.ticks : AfterDelay → UInt32
  | .resetLow | .resetHigh => 10
  | .sleepOut | .init => 24
  | .ready => 20

/-- The part of a command that precedes an offset into its data. -/
def commandBefore (entry : UInt8 × List UInt8) (offset : Nat) : List Event :=
  if offset = 0 then [] else .write false [entry.1] :: dataParts entry.2 (offset / 8)

namespace Phase

/-- What was sent when the engine is in a phase of the power-up. -/
def performed : Phase → List Event
  | .delay _ _ .resetLow => []
  | .delay _ _ .resetHigh => [.reset false]
  | .delay _ _ .sleepOut => [.reset false, .reset true]
  | .delay _ _ .init => wakeUp
  | .init index offset =>
      wakeUp ++ (initCommands.take index).flatMap commandEvents ++
        commandBefore (initCommands.getD index (0, [])) offset
  | _ => powerUp

/-- A phase of the power-up. -/
def Starting : Phase → Prop
  | .delay _ ticks next => ticks = next.ticks
  | .init index offset => index ≤ initCommands.length ∧
      (offset = 0 ∨ ∃ part, offset = 8 * part + 1 ∧ index < initCommands.length ∧
        8 * part < (initCommands.getD index (0, [])).2.length)
  | _ => False

end Phase

/-- The engine once it is powered up. -/
def Engine.powered (engine : Engine) : Engine :=
  { engine with phase := .ready, status := { engine.status with state := .ready } }

theorem data_parts_succ (data : List UInt8) (count : Nat) :
    dataParts data (count + 1) =
      dataParts data count ++ [.write true ((data.drop (8 * count)).take 8)] := by
  rw [dataParts, List.range_succ, List.map_append]
  rfl

theorem take_succ_commands {index : Nat} (h : index < initCommands.length) :
    (initCommands.take (index + 1)).flatMap commandEvents =
      (initCommands.take index).flatMap commandEvents ++
        commandEvents (initCommands.getD index (0, [])) := by
  rw [List.take_succ_eq_append_getElem h, List.flatMap_append, List.flatMap_singleton,
    List.getD_eq_getElem?_getD, List.getElem?_eq_getElem h, Option.getD_some]

/-- The table after a whole command. -/
theorem performed_next {index : Nat} (h : index < initCommands.length) :
    (Phase.init (index + 1) 0).performed = wakeUp ++ (initCommands.take index).flatMap commandEvents ++
      commandEvents (initCommands.getD index (0, [])) := by
  simp [Phase.performed, commandBefore, take_succ_commands h]

/-- A turn of the table sends its next transaction. -/
theorem init_turn_starting {engine : Engine} {index offset : Nat}
    (hphase : (Phase.init index offset).Starting) (hindex : index < initCommands.length) :
    ∃ next nextOffset event, engine.initTurn index offset =
        ⟨some event, false, engine.inPhase (.init next nextOffset)⟩ ∧
      (Phase.init next nextOffset).Starting ∧
      (Phase.init next nextOffset).performed = (Phase.init index offset).performed ++ [event] := by
  have hnext := performed_next hindex
  cases hentry : initCommands.getD index (0, []) with
  | mk command data =>
      rw [hentry] at hnext
      obtain ⟨hle, hzero | ⟨part, hoffset, _, hpart⟩⟩ := hphase
      · subst hzero
        simp only [Engine.initTurn, hentry, if_true]
        by_cases hdata : data = []
        · refine ⟨index + 1, 0, _, by rw [if_pos hdata], ⟨hindex, .inl rfl⟩, ?_⟩
          rw [hnext]
          simp [Phase.performed, commandBefore, commandEvents, dataParts, hdata]
        · refine ⟨index, 1, _, by rw [if_neg hdata], ⟨hle, .inr ⟨0, rfl, hindex, ?_⟩⟩, ?_⟩
          · rw [hentry]
            exact List.length_pos_of_ne_nil hdata
          · simp only [Phase.performed, hentry]
            simp [commandBefore, dataParts]
      · subst hoffset
        rw [hentry] at hpart
        dsimp only at hpart
        have hbegin : 8 * part + 1 - 1 = 8 * part := by omega
        have hcount : (8 * part + 1) / 8 = part := by omega
        have hsome : ¬ 8 * part + 1 = 0 := by omega
        simp only [Engine.initTurn, hentry, if_neg hsome, hbegin]
        by_cases hstop : min (8 * part + 8) data.length = data.length
        · refine ⟨index + 1, 0, _, by rw [if_pos hstop], ⟨hindex, .inl rfl⟩, ?_⟩
          have hparts : (data.length + 7) / 8 = part + 1 := by omega
          have hrest : (data.drop (8 * part)).take (data.length - 8 * part) =
              (data.drop (8 * part)).take 8 := by
            rw [List.take_of_length_le (by simp), List.take_of_length_le (by simp; omega)]
          rw [hnext, hstop, commandEvents, hparts, data_parts_succ, hrest]
          simp only [Phase.performed, hentry]
          simp [commandBefore, hcount]
        · have hfull : min (8 * part + 8) data.length = 8 * part + 8 := by omega
          refine ⟨index, 8 * part + 9, _, by rw [if_neg hstop, hfull],
            ⟨hle, .inr ⟨part + 1, by omega, hindex, by rw [hentry]; dsimp only; omega⟩⟩, ?_⟩
          have hparts : (8 * part + 9) / 8 = part + 1 := by omega
          have hwidth : 8 * part + 8 - 8 * part = 8 := by omega
          simp only [Phase.performed, hentry, hwidth]
          simp [commandBefore, hparts, hcount, data_parts_succ]

/-- A turn of the power-up: the engine stays in it or becomes ready, and what it sends comes
next. -/
theorem turn_starting {engine : Engine} {now : UInt32} (h : engine.phase.Starting) :
    (((engine.turn now).engine = engine.inPhase (engine.turn now).engine.phase ∧
        (engine.turn now).engine.phase.Starting) ∨ (engine.turn now).engine = engine.powered) ∧
      (engine.turn now).engine.phase.performed =
        engine.phase.performed ++ (engine.turn now).event.toList := by
  unfold Engine.turn
  cases hphase : engine.phase with
  | ready | fault | draw render =>
      rw [hphase] at h
      exact h.elim
  | delay deadline ticks next =>
      rw [hphase] at h
      cases deadline with
      | none => exact ⟨.inl ⟨rfl, h⟩, by cases next <;> simp [Engine.inPhase, Phase.performed]⟩
      | some deadline =>
          dsimp only
          split
          · refine ⟨.inl ⟨?_, ?_⟩, ?_⟩
            · rw [hphase, ← hphase]
              rfl
            · rw [hphase]
              exact h
            · simp [hphase]
          · cases next with
            | resetLow | resetHigh | sleepOut | init =>
                exact ⟨.inl ⟨rfl, by simp [Engine.delayTurn, Engine.inPhase, Phase.Starting,
                  AfterDelay.ticks, Engine.delay]⟩, by simp [Engine.delayTurn, Engine.inPhase,
                  Phase.performed, Engine.delay, wakeUp, commandBefore]⟩
            | ready => exact ⟨.inr rfl, by simp [Engine.delayTurn, Phase.performed]⟩
  | init index offset =>
      rw [hphase] at h
      dsimp only
      split
      · rename_i hend
        have hoffset : offset = 0 := by
          obtain ⟨_, hzero | ⟨_, _, hlt, _⟩⟩ := h
          · exact hzero
          · omega
        refine ⟨.inl ⟨rfl, rfl⟩, ?_⟩
        simp [Engine.inPhase, Engine.delay, Phase.performed, commandBefore, powerUp, hend, hoffset]
      · rename_i hne
        obtain ⟨next, nextOffset, event, hturn, hstarting, hperformed⟩ :=
          @init_turn_starting engine index offset h (Nat.lt_of_le_of_ne h.1 hne)
        rw [hturn]
        exact ⟨.inl ⟨rfl, hstarting⟩, hperformed⟩

/-! ## Ticks -/

theorem to_int32_neg_iff (x : UInt32) : x.toInt32 < 0 ↔ 2 ^ 31 ≤ x.toNat := by
  rw [Int32.lt_iff_toInt_lt]
  show x.toBitVec.toInt < 0 ↔ _
  rw [BitVec.toInt_neg_iff, UInt32.toNat_toBitVec]
  omega

/-- A wrapped deadline that counts as reached is reached. -/
theorem deadline_passed {armed now : Nat} {ticks : UInt32} (hle : armed ≤ now)
    (hticks : ticks.toNat ≤ 24)
    (h : ¬ (UInt32.ofNat now - (UInt32.ofNat armed + ticks)).toInt32 < 0) :
    armed + ticks.toNat ≤ now := by
  rw [to_int32_neg_iff, UInt32.toNat_sub, UInt32.toNat_add, UInt32.toNat_ofNat',
    UInt32.toNat_ofNat'] at h
  omega

/-- A deadline counts as reached for half of the range. -/
theorem deadline_found {armed now : Nat} {ticks : UInt32} (hticks : ticks.toNat ≤ 24)
    (hle : armed + 24 ≤ now) (hlt : now < armed + 2 ^ 31) :
    ¬ (UInt32.ofNat now - (UInt32.ofNat armed + ticks)).toInt32 < 0 := by
  rw [to_int32_neg_iff, UInt32.toNat_sub, UInt32.toNat_add, UInt32.toNat_ofNat',
    UInt32.toNat_ofNat']
  omega

theorem ticks_le (next : AfterDelay) : next.ticks.toNat ≤ 24 := by
  cases next <;> decide

/-- The time of the last transaction. -/
def lastTime (start : Nat) (log : List (Nat × Event)) : Nat :=
  (log.getLast?.map Prod.fst).getD start

/-- The ticks that have to pass before a transaction of the power-up. -/
def restBefore : Nat → Nat
  | 0 | 1 => 10
  | 2 | 3 => 24
  | _ => 0

/-- No rest of the power-up was shortened. -/
def Spaced (start : Nat) (log : List (Nat × Event)) : Prop :=
  ∀ index entry, log[index]? = some entry →
    lastTime start (log.take index) + restBefore index ≤ entry.1

theorem last_time_append (start : Nat) (log : List (Nat × Event)) (entry : Nat × Event) :
    lastTime start (log ++ [entry]) = entry.1 := by
  simp [lastTime]

theorem spaced_append {start : Nat} {log : List (Nat × Event)} {entry : Nat × Event}
    (h : Spaced start log) (hrest : lastTime start log + restBefore log.length ≤ entry.1) :
    Spaced start (log ++ [entry]) := by
  intro index other hother
  by_cases hindex : index < log.length
  · rw [List.getElem?_append_left hindex] at hother
    rw [List.take_append_of_le_length (by omega)]
    exact h index other hother
  · have hlast : index = log.length := by
      have hlength := (List.getElem?_eq_some_iff.1 hother).1
      simp at hlength
      omega
    subst hlast
    simp only [List.getElem?_concat_length, Option.some.injEq] at hother
    rw [List.take_append_of_le_length (by omega), List.take_length, ← hother]
    exact hrest

/-- The state of the power-up in a step that began at the given time. -/
structure PoweringUp (start now : Nat) (engine : Engine) (bus : Bus) : Prop where
  phase : engine.phase.Starting ∧ engine.status.state = .initializing ∨
    engine.phase = .ready ∧ engine.status.state = .ready
  events : bus.events = engine.phase.performed
  spaced : Spaced start bus.log
  past : lastTime start bus.log ≤ bus.clock
  present : now ≤ bus.clock
  waiting : ∀ deadline ticks next, engine.phase = .delay deadline ticks next →
    lastTime start bus.log ≤ now
  armed : ∀ deadline ticks next, engine.phase = .delay (some deadline) ticks next →
    ∃ armed, deadline = .ofNat armed + ticks ∧ lastTime start bus.log ≤ armed ∧ armed ≤ now
  rested : engine.phase = .init 0 0 → lastTime start bus.log + 24 ≤ now
  ready : engine.phase = .ready → lastTime start bus.log + 20 ≤ now

/-- The state of the power-up between two steps: the next one may begin at any later time. -/
def PoweredSince (start : Nat) (engine : Engine) (bus : Bus) : Prop :=
  ∀ now, bus.clock ≤ now → PoweringUp start now engine { bus with clock := now }

section

variable {start now : Nat} {engine : Engine} {bus after : Bus} {link : Link}

/-- The turns of the power-up: nothing happens, a delay is armed, a delay is over, the table is at
its end, or its next transaction is sent. -/
theorem PoweringUp.kinds (h : PoweringUp start now engine bus) :
    engine.turn (.ofNat now) = ⟨none, true, engine⟩ ∨
    (∃ ticks next, engine.phase = .delay none ticks next ∧ engine.turn (.ofNat now) =
      ⟨none, true, engine.inPhase (.delay (some (.ofNat now + ticks)) ticks next)⟩) ∨
    (∃ deadline next, engine.phase = .delay deadline next.ticks next ∧
      lastTime start bus.log + next.ticks.toNat ≤ now ∧
      engine.turn (.ofNat now) = engine.delayTurn next) ∨
    (∃ index offset, engine.phase = .init index offset ∧
      engine.turn (.ofNat now) = ⟨none, true, engine.inPhase (.delay none 20 .ready)⟩) ∨
    (∃ index offset next nextOffset event, engine.phase = .init index offset ∧
      engine.turn (.ofNat now) = ⟨some event, false, engine.inPhase (.init next nextOffset)⟩) := by
  have harmed := h.armed
  unfold Engine.turn
  obtain ⟨hstarting, _⟩ | ⟨hready, _⟩ := h.phase
  · cases hphase : engine.phase with
    | ready | fault | draw render =>
        rw [hphase] at hstarting
        exact hstarting.elim
    | delay deadline ticks next =>
        rw [hphase] at hstarting harmed
        have hticks : ticks = next.ticks := hstarting
        cases deadline with
        | none => exact .inr (.inl ⟨ticks, next, rfl, rfl⟩)
        | some deadline =>
            dsimp only
            split
            · exact .inl rfl
            · rename_i hpassed
              obtain ⟨armed, hdeadline, hlast, hle⟩ := harmed deadline ticks next rfl
              rw [hdeadline, hticks] at hpassed
              have hrest := deadline_passed hle (ticks_le next) hpassed
              exact .inr (.inr (.inl ⟨_, next, by rw [hticks], by omega, rfl⟩))
    | init index offset =>
        rw [hphase] at hstarting
        dsimp only
        split
        · exact .inr (.inr (.inr (.inl ⟨index, offset, rfl, rfl⟩)))
        · rename_i hne
          obtain ⟨next, nextOffset, event, hturn, _⟩ :=
            @init_turn_starting engine index offset hstarting
              (Nat.lt_of_le_of_ne hstarting.1 hne)
          exact .inr (.inr (.inr (.inr ⟨index, offset, next, nextOffset, event, rfl, hturn⟩)))
  · rw [hready]
    exact .inl rfl

/-- A phase of the table behind its first command. -/
theorem four_performed {index offset : Nat} (h : ¬ (index = 0 ∧ offset = 0))
    (hstarting : (Phase.init index offset).Starting) :
    4 ≤ (Phase.init index offset).performed.length := by
  by_cases hoffset : offset = 0
  · obtain ⟨before, rfl⟩ : ∃ before, index = before + 1 := ⟨index - 1, by omega⟩
    rw [hoffset, performed_next hstarting.1]
    simp [wakeUp, commandEvents]
    omega
  · simp [Phase.performed, commandBefore, hoffset, wakeUp]
    omega

/-- The rest before the next transaction is over. -/
theorem PoweringUp.rest (h : PoweringUp start now engine bus) {event : Event}
    (hevent : (engine.turn (.ofNat now)).event = some event) :
    lastTime start bus.log + restBefore bus.log.length ≤ bus.clock := by
  have hlength : bus.log.length = engine.phase.performed.length := by
    rw [← h.events, Bus.events, List.length_map]
  have hpast := h.past
  have hpresent := h.present
  obtain hturn | ⟨_, _, _, hturn⟩ | ⟨deadline, next, hphase, hrest, hturn⟩ |
    ⟨_, _, hlast, hturn⟩ | ⟨index, offset, next, nextOffset, sent, hphase, hturn⟩ := h.kinds
  · simp [hturn] at hevent
  · simp [hturn] at hevent
  · rw [hlength, hphase]
    cases next with
    | resetLow | resetHigh | sleepOut =>
        simp only [Phase.performed, List.length_nil, List.length_cons, restBefore]
        simp only [AfterDelay.ticks, UInt32.reduceToNat] at hrest
        omega
    | init | ready => simp [hturn, Engine.delayTurn] at hevent
  · simp [hturn] at hevent
  · have hstarting : (Phase.init index offset).Starting := by
      obtain ⟨hstarting, _⟩ | ⟨hready, _⟩ := h.phase
      · rwa [hphase] at hstarting
      · rw [hphase] at hready
        cases hready
    rw [hlength, hphase]
    by_cases hfirst : index = 0 ∧ offset = 0
    · have hrested := h.rested (by rw [hphase, hfirst.1, hfirst.2])
      simp [hfirst.1, hfirst.2, Phase.performed, commandBefore, wakeUp, restBefore]
      omega
    · have hfour := four_performed hfirst hstarting
      have hnone : restBefore (Phase.init index offset).performed.length = 0 := by
        unfold restBefore
        split <;> omega
      omega

/-- The table does not come back to its beginning: more than the wake-up was sent. -/
theorem not_first_of_sent {phase next : Phase} {index offset : Nat}
    (hbefore : bus.events = phase.performed) (hphase : phase = .init index offset)
    (hafter : after.events = next.performed) (hlog : bus.log.length < after.log.length) :
    next ≠ .init 0 0 := by
  intro hnext
  have hthen := congrArg List.length hbefore
  have hnow := congrArg List.length hafter
  rw [hphase] at hthen
  rw [hnext] at hnow
  simp [Bus.events, Phase.performed, commandBefore, wakeUp] at hthen hnow
  omega

section

variable (h : PoweringUp start now engine bus) (hclock : bus.clock ≤ after.clock)
  (hlog : after.log = bus.log ++ ((engine.turn (.ofNat now)).event.map fun event =>
    (after.clock, event)).toList)
include h hlog

/-- The engine after a turn of the power-up, and what was sent by then. -/
theorem PoweringUp.shape :
    ((engine.turn (.ofNat now)).engine.phase.Starting ∧
        (engine.turn (.ofNat now)).engine.status.state = .initializing ∨
      (engine.turn (.ofNat now)).engine.phase = .ready ∧
        (engine.turn (.ofNat now)).engine.status.state = .ready) ∧
      after.events = (engine.turn (.ofNat now)).engine.phase.performed := by
  have hevents : after.events =
      engine.phase.performed ++ (engine.turn (.ofNat now)).event.toList := by
    rw [← h.events, Bus.events, hlog, List.map_append, Bus.events]
    cases (engine.turn (.ofNat now)).event <;> rfl
  obtain ⟨hstarting, hstate⟩ | ⟨hready, hstate⟩ := h.phase
  · obtain ⟨hnext, hperformed⟩ := @turn_starting engine (.ofNat now) hstarting
    refine ⟨?_, by rw [hevents, hperformed]⟩
    obtain ⟨hengine, hphase⟩ | hpowered := hnext
    · left
      refine ⟨hphase, ?_⟩
      rw [hengine]
      exact hstate
    · right
      rw [hpowered]
      exact ⟨rfl, rfl⟩
  · have hturn : engine.turn (.ofNat now) = ⟨none, true, engine⟩ := by
      rw [Engine.turn, hready]
    rw [hturn] at hevents ⊢
    exact ⟨.inr ⟨hready, hstate⟩, by simpa using hevents⟩

include hclock

theorem PoweringUp.spaces :
    Spaced start after.log ∧ lastTime start after.log ≤ after.clock := by
  have hpast := h.past
  cases hevent : (engine.turn (.ofNat now)).event with
  | none =>
      rw [hevent] at hlog
      have hsame : after.log = bus.log := by simpa using hlog
      rw [hsame]
      exact ⟨h.spaced, by omega⟩
  | some event =>
      have hrest := h.rest hevent
      rw [hevent] at hlog
      rw [show after.log = bus.log ++ [(after.clock, event)] from hlog, last_time_append]
      exact ⟨spaced_append h.spaced (by omega), Nat.le_refl _⟩

/-- What a turn of the power-up leaves for the next step. -/
theorem PoweringUp.powered_since : PoweredSince start (engine.turn (.ofNat now)).engine after := by
  obtain ⟨hphase, hevents⟩ := h.shape hlog
  obtain ⟨hspaced, hlast⟩ := h.spaces hclock hlog
  have hpast := h.past
  have hpresent := h.present
  intro later hlater
  have hnow : lastTime start after.log ≤ later := by omega
  obtain hturn | ⟨ticks, next, hdelay, hturn⟩ | ⟨deadline, next, hdelay, hrest, hturn⟩ |
    ⟨_, _, hlast, hturn⟩ | ⟨index, offset, next, nextOffset, sent, hdelay, hturn⟩ := h.kinds
  all_goals rw [hturn] at hphase hevents hlog ⊢
  all_goals refine ⟨hphase, hevents, hspaced, hnow, Nat.le_refl _, fun _ _ _ _ => hnow, ?_, ?_, ?_⟩
  · have hsame : after.log = bus.log := by simpa using hlog
    intro deadline ticks next hnext
    obtain ⟨armed, hdeadline, hle, hthen⟩ := h.armed deadline ticks next hnext
    exact ⟨armed, hdeadline, by rw [hsame]; exact hle, by omega⟩
  · have hsame : after.log = bus.log := by simpa using hlog
    intro hinit
    have hrested := h.rested hinit
    rw [hsame]
    omega
  · have hsame : after.log = bus.log := by simpa using hlog
    intro hready
    have hrested := h.ready hready
    rw [hsame]
    omega
  · have hsame : after.log = bus.log := by simpa using hlog
    intro deadline other action hnext
    obtain ⟨hdeadline, rfl, rfl⟩ := Phase.delay.inj hnext
    have hwaiting := h.waiting none ticks next hdelay
    exact ⟨now, (Option.some.inj hdeadline).symm, by rw [hsame]; exact hwaiting, by omega⟩
  · intro hnext
    cases hnext
  · intro hnext
    cases hnext
  · intro _ _ _ hnext
    cases next <;> cases hnext
  · intro hinit
    cases next with
    | init =>
        have hsame : after.log = bus.log := by simpa [Engine.delayTurn] using hlog
        simp only [AfterDelay.ticks, UInt32.reduceToNat] at hrest
        rw [hsame]
        omega
    | _ => cases hinit
  · intro hready
    cases next with
    | ready =>
        have hsame : after.log = bus.log := by simpa [Engine.delayTurn] using hlog
        simp only [AfterDelay.ticks, UInt32.reduceToNat] at hrest
        rw [hsame]
        omega
    | _ => cases hready
  · intro _ _ _ hnext
    cases hnext
  · intro hnext
    cases hnext
  · intro hnext
    cases hnext
  · intro _ _ _ hnext
    cases hnext
  · intro hinit
    exact absurd hinit (not_first_of_sent h.events hdelay hevents (by simp [hlog]))
  · intro hnext
    cases hnext

/-- A turn of the power-up that does not leave the loop. -/
theorem PoweringUp.goes_on (hleave : (engine.turn (.ofNat now)).leave = false) :
    PoweringUp start now (engine.turn (.ofNat now)).engine after := by
  have hsince := h.powered_since hclock hlog after.clock (Nat.le_refl _)
  have hpresent := h.present
  obtain hturn | ⟨ticks, next, _, hturn⟩ | ⟨deadline, next, _, _, hturn⟩ |
    ⟨_, _, hlast, hturn⟩ | ⟨index, offset, next, nextOffset, sent, hinit, hturn⟩ := h.kinds
  · simp [hturn] at hleave
  · simp [hturn] at hleave
  · cases next <;> simp [hturn, Engine.delayTurn] at hleave
  · simp [hturn] at hleave
  · obtain ⟨hphase, hevents⟩ := h.shape hlog
    have hfirst : (engine.turn (.ofNat now)).engine.phase ≠ .init 0 0 :=
      not_first_of_sent h.events hinit hevents (by simp [hlog, hturn])
    rw [hturn] at hphase hevents hfirst ⊢
    exact ⟨hphase, hevents, hsince.spaced, hsince.past, by omega, nofun, nofun,
      fun hnext => absurd hnext hfirst, nofun⟩

end

/-- A step of the power-up without an error. -/
theorem PoweredSince.step (hlink : ∀ operation, link.failure operation = none)
    (h : PoweredSince start engine bus) {turns time : Nat} (htime : bus.clock ≤ time) :
    PoweredSince start (Engine.stepAt link (turns + 1) time (engine, bus)).1
      (Engine.stepAt link (turns + 1) time (engine, bus)).2 := by
  refine @Engine.step_for_induct link (.ofNat time) (PoweringUp start time) (PoweredSince start)
    turns ?_ ?_ ?_ engine _ (h time htime)
  · intro engine bus hinv hevent
    have hlog : bus.log = bus.log ++ ((engine.turn (.ofNat time)).event.map fun event =>
        (bus.clock, event)).toList := by simp [hevent]
    exact ⟨hinv.goes_on (Nat.le_refl _) hlog, hinv.powered_since (Nat.le_refl _) hlog⟩
  · intro engine bus event after hinv hevent hsend
    obtain ⟨hclock, _, hsent⟩ := Bus.send_result event _ hsend
    have hlog : after.log = bus.log ++ ((engine.turn (.ofNat time)).event.map fun event =>
        (after.clock, event)).toList := by
      rw [hevent]
      exact hsent
    exact ⟨hinv.goes_on hclock hlog, hinv.powered_since hclock hlog⟩
  · intro engine bus event error after _ _ hsend
    obtain ⟨_, ⟨operation, hfailure⟩, _⟩ := Bus.send_result event _ hsend
    exact absurd (hlink operation) hfailure

end

/-- A bus on which nothing has happened. -/
def Bus.idle (start : Nat) : Bus where
  dc := false
  clock := start
  operations := 0
  failed := false
  log := []

/-- A step of the engine at a later time. -/
inductive EngineStep (link : Link) : Engine × Bus → Engine × Bus → Prop where
  | step {s : Engine × Bus} (turns time : Nat) (htime : s.2.clock ≤ time) :
      EngineStep link s (Engine.stepAt link (turns + 1) time s)

theorem new_powered_since (start : Nat) : PoweredSince start Engine.new (Bus.idle start) := by
  intro now hnow
  refine ⟨.inl ⟨rfl, rfl⟩, rfl, ?_, hnow, Nat.le_refl _, fun _ _ _ _ => hnow, nofun, nofun, nofun⟩
  intro index entry hentry
  simp [Bus.idle] at hentry

/-- A phase of the power-up has sent the beginning of it. -/
theorem performed_starting {phase : Phase} (h : phase.Starting) : phase.performed <+: powerUp := by
  cases phase with
  | ready | fault | draw render => exact h.elim
  | delay deadline ticks next =>
      cases next with
      | resetLow => exact List.nil_prefix
      | resetHigh | sleepOut | init =>
          refine List.IsPrefix.trans ?_ (List.prefix_append wakeUp _)
          simp [Phase.performed, wakeUp]
      | ready => exact List.prefix_rfl
  | init index offset =>
      have hparts : ∀ (data : List UInt8) {first second : Nat}, first ≤ second →
          dataParts data first <+: dataParts data second := by
        intro data first second hle
        obtain ⟨extra, rfl⟩ := Nat.exists_eq_add_of_le hle
        rw [dataParts, dataParts, List.range_add, List.map_append]
        exact List.prefix_append _ _
      obtain ⟨hle, hoffset⟩ := h
      rw [Phase.performed, powerUp, List.append_assoc, List.prefix_append_right_inj]
      by_cases hend : index = initCommands.length
      · have hzero : offset = 0 := by
          obtain hzero | ⟨_, _, hlt, _⟩ := hoffset
          · exact hzero
          · omega
        rw [hend, hzero, List.take_length]
        simp [commandBefore]
      · have hindex : index < initCommands.length := by omega
        have hall := take_succ_commands hindex
        have hcut : initCommands.flatMap commandEvents =
            (initCommands.take (index + 1)).flatMap commandEvents ++
              (initCommands.drop (index + 1)).flatMap commandEvents := by
          rw [← List.flatMap_append, List.take_append_drop]
        rw [hcut, hall, List.append_assoc, List.prefix_append_right_inj]
        refine List.IsPrefix.trans ?_ (List.prefix_append _ _)
        obtain rfl | ⟨part, rfl, _, hpart⟩ := hoffset
        · exact List.nil_prefix
        · rw [commandBefore, if_neg (by omega), commandEvents, List.cons_prefix_cons]
          exact ⟨rfl, hparts _ (by omega)⟩

/-! ## Progress -/

/-- A bound on what is left of the power-up. -/
def Phase.left : Phase → Nat
  | .delay none _ .resetLow => 1200
  | .delay (some _) _ .resetLow => 1100
  | .delay none _ .resetHigh => 1000
  | .delay (some _) _ .resetHigh => 900
  | .delay none _ .sleepOut => 800
  | .delay (some _) _ .sleepOut => 700
  | .delay none _ .init => 600
  | .delay (some _) _ .init => 500
  | .init index offset => 400 + (powerUp.length - (Phase.init index offset).performed.length)
  | .delay none _ .ready => 300
  | .delay (some _) _ .ready => 200
  | _ => 0

section

variable {start now : Nat} {engine : Engine} {bus after : Bus} {link : Link}

/-- A deadline is armed. -/
def Phase.Armed (phase : Phase) : Prop :=
  ∃ deadline ticks next, phase = .delay (some deadline) ticks next

/-- What a step of the power-up can come to: nothing, a delay that was armed now, or progress to a
phase without a deadline. -/
def Moved (engine : Engine) (time : Nat) (after : Engine) : Prop :=
  (after = engine ∧ engine.turn (.ofNat time) = ⟨none, true, engine⟩) ∨
  (∃ ticks next, engine.phase = .delay none ticks next ∧
    after = engine.inPhase (.delay (some (.ofNat time + ticks)) ticks next)) ∨
  (after.phase.left < engine.phase.left ∧ ¬ after.phase.Armed)

/-- A turn that sends a part of the table leaves less of it. -/
theorem PoweringUp.table_left (h : PoweringUp start now engine bus) {event : Event}
    {index offset next nextOffset : Nat} (hphase : engine.phase = .init index offset)
    (hturn : engine.turn (.ofNat now) =
      ⟨some event, false, engine.inPhase (.init next nextOffset)⟩) :
    (Phase.init next nextOffset).left < (Phase.init index offset).left := by
  have hstarting : engine.phase.Starting := by
    obtain ⟨hstarting, _⟩ | ⟨hready, _⟩ := h.phase
    · exact hstarting
    · rw [hphase] at hready
      cases hready
  obtain ⟨hnext, hperformed⟩ := @turn_starting engine (.ofNat now) hstarting
  have hlength := congrArg List.length hperformed
  rw [hturn] at hnext hlength
  rw [hphase] at hlength
  have hle : (Phase.init next nextOffset).performed.length ≤ powerUp.length := by
    obtain ⟨_, hnext⟩ | hpowered := hnext
    · exact (performed_starting hnext).length_le
    · exact absurd (congrArg Engine.phase hpowered) (by simp [Engine.inPhase, Engine.powered])
  simp [Engine.inPhase] at hlength
  simp only [Phase.left]
  omega

/-- What a turn of the power-up comes to. The loop goes on only in the table. -/
theorem PoweringUp.moves (h : PoweringUp start now engine bus) :
    Moved engine now (engine.turn (.ofNat now)).engine ∧
      ((engine.turn (.ofNat now)).leave = false →
        (engine.turn (.ofNat now)).engine.phase.left < engine.phase.left ∧ ∃ index offset,
        (engine.turn (.ofNat now)).engine.phase = .init index offset) := by
  obtain hturn | ⟨ticks, next, hdelay, hturn⟩ | ⟨deadline, next, hdelay, _, hturn⟩ |
    ⟨_, _, hlast, hturn⟩ | ⟨index, offset, next, nextOffset, sent, hdelay, hturn⟩ := h.kinds
  · exact ⟨.inl ⟨by rw [hturn], hturn⟩, by simp [hturn]⟩
  · exact ⟨.inr (.inl ⟨ticks, next, hdelay, by rw [hturn]⟩), by simp [hturn]⟩
  · refine ⟨.inr (.inr ⟨?_, ?_⟩), by cases next <;> simp [hturn, Engine.delayTurn]⟩
    · have hall : powerUp.length < 100 := by decide
      rw [hturn, hdelay]
      cases deadline <;> cases next <;>
        simp [Engine.delayTurn, Engine.inPhase, Engine.delay, Phase.left]
      all_goals omega
    · rw [hturn]
      rintro ⟨_, _, _, harmed⟩
      cases next <;> simp [Engine.delayTurn, Engine.inPhase, Engine.delay] at harmed
  · refine ⟨.inr (.inr ⟨?_, ?_⟩), by simp [hturn]⟩
    · rw [hturn, hlast]
      simp [Engine.inPhase, Phase.left]
      omega
    · rw [hturn]
      rintro ⟨_, _, _, harmed⟩
      simp [Engine.inPhase] at harmed
  · have hleft := h.table_left hdelay hturn
    rw [hturn, hdelay]
    refine ⟨.inr (.inr ⟨by rw [hdelay]; exact hleft, ?_⟩), fun _ => ⟨hleft, next, nextOffset, rfl⟩⟩
    rintro ⟨_, _, _, harmed⟩
    simp [Engine.inPhase] at harmed

/-- What a step of the power-up comes to. -/
theorem PoweredSince.moves (hlink : ∀ operation, link.failure operation = none)
    (h : PoweredSince start engine bus) {turns time : Nat} (htime : bus.clock ≤ time) :
    Moved engine time (Engine.stepAt link (turns + 1) time (engine, bus)).1 := by
  have hturn : ∀ (other : Engine) (bus : Bus), PoweringUp start time other bus →
      (other = engine ∨ other.phase.left < engine.phase.left ∧
        ∃ index offset, other.phase = .init index offset) →
      ((other.turn (.ofNat time)).leave = false →
        (other.turn (.ofNat time)).engine.phase.left < engine.phase.left ∧
        ∃ index offset, (other.turn (.ofNat time)).engine.phase = .init index offset) ∧
      Moved engine time (other.turn (.ofNat time)).engine := by
    intro other bus hinv hother
    obtain ⟨hmoved, hgoes⟩ := hinv.moves
    obtain rfl | ⟨hless, index, offset, hinit⟩ := hother
    · exact ⟨hgoes, hmoved⟩
    · refine ⟨fun hleave => ?_, .inr (.inr ?_)⟩
      · obtain ⟨hlt, hnext⟩ := hgoes hleave
        exact ⟨by omega, hnext⟩
      · obtain ⟨hsame, _⟩ | ⟨_, _, hdelay, _⟩ | ⟨hlt, hunarmed⟩ := hmoved
        · rw [hsame, hinit]
          rw [hinit] at hless
          exact ⟨hless, by rintro ⟨_, _, _, harmed⟩; cases harmed⟩
        · rw [hinit] at hdelay
          cases hdelay
        · exact ⟨by omega, hunarmed⟩
  refine @Engine.step_for_induct link (.ofNat time)
    (fun other bus => PoweringUp start time other bus ∧ (other = engine ∨
      other.phase.left < engine.phase.left ∧ ∃ index offset, other.phase = .init index offset))
    (fun other _ => Moved engine time other) turns ?_ ?_ ?_ engine _ ⟨h time htime, .inl rfl⟩
  · intro other bus hinv hevent
    obtain ⟨hgoes, hmoved⟩ := hturn other bus hinv.1 hinv.2
    have hlog : bus.log = bus.log ++ ((other.turn (.ofNat time)).event.map fun event =>
        (bus.clock, event)).toList := by simp [hevent]
    exact ⟨fun hleave => ⟨hinv.1.goes_on (Nat.le_refl _) hlog hleave, .inr (hgoes hleave)⟩, hmoved⟩
  · intro other bus event after hinv hevent hsend
    obtain ⟨hgoes, hmoved⟩ := hturn other bus hinv.1 hinv.2
    obtain ⟨hclock, _, hsent⟩ := Bus.send_result event _ hsend
    have hlog : after.log = bus.log ++ ((other.turn (.ofNat time)).event.map fun event =>
        (after.clock, event)).toList := by
      rw [hevent]
      exact hsent
    exact ⟨fun hleave => ⟨hinv.1.goes_on hclock hlog hleave, .inr (hgoes hleave)⟩, hmoved⟩
  · intro other bus event error after _ _ hsend
    obtain ⟨_, ⟨operation, hfailure⟩, _⟩ := Bus.send_result event _ hsend
    exact absurd (hlink operation) hfailure

end

/-- Only an armed delay waits. -/
theorem armed_of_waiting {engine : Engine} {now : UInt32} (hstarting : engine.phase.Starting)
    (hturn : engine.turn now = ⟨none, true, engine⟩) : engine.phase.Armed := by
  unfold Engine.turn at hturn
  cases hphase : engine.phase with
  | ready | fault | draw render =>
      rw [hphase] at hstarting
      exact hstarting.elim
  | delay deadline ticks next =>
      cases deadline with
      | some deadline => exact ⟨deadline, ticks, next, rfl⟩
      | none =>
          rw [hphase] at hturn
          have hsame := congrArg (fun turn => turn.engine.phase) hturn
          simp [Engine.inPhase, hphase] at hsame
  | init index offset =>
      rw [hphase] at hturn hstarting
      dsimp only at hturn
      split at hturn
      · have hsame := congrArg (fun turn => turn.engine.phase) hturn
        simp [Engine.inPhase, Engine.delay, hphase] at hsame
      · rename_i hne
        obtain ⟨next, nextOffset, event, hsent, _⟩ :=
          @init_turn_starting engine index offset hstarting (Nat.lt_of_le_of_ne hstarting.1 hne)
        rw [hsent] at hturn
        cases congrArg Turn.event hturn

/-- A run of the task: one step after another, each at a time that is not before the end of the
last one. -/
structure Schedule (link : Link) (start : Nat) (times : Nat → Nat) (run : Nat → Engine × Bus) :
    Prop where
  first : run 0 = (Engine.new, Bus.idle start)
  later : ∀ n, (run n).2.clock ≤ times n
  next : ∀ n, run (n + 1) = Engine.stepAt link maxChunks (times n) (run n)

namespace Schedule

variable {link : Link} {start : Nat} {times : Nat → Nat} {run : Nat → Engine × Bus}

section

variable (h : Schedule link start times run) (hlink : ∀ operation, link.failure operation = none)
include h hlink

theorem powered_since (n : Nat) : PoweredSince start (run n).1 (run n).2 := by
  induction n with
  | zero =>
      rw [h.first]
      exact new_powered_since start
  | succ n ih =>
      rw [h.next n]
      exact ih.step hlink (h.later n)

theorem moved (n : Nat) : Moved (run n).1 (times n) (run (n + 1)).1 := by
  rw [h.next n]
  exact (h.powered_since hlink n).moves hlink (h.later n)

/-- A delay that is armed by a step is over after a later step that finds its deadline. -/
theorem delay_ends {n m : Nat} {ticks : UInt32} {next : AfterDelay}
    (hphase : (run n).1.phase = .delay none ticks next)
    (harmed : (run (n + 1)).1 =
      (run n).1.inPhase (.delay (some (.ofNat (times n) + ticks)) ticks next))
    (hm : n < m) (hle : times n + 24 ≤ times m) (hlt : times m < times n + 2 ^ 31) :
    ∃ j, (run j).1.phase.left < (run n).1.phase.left ∧ ¬ (run j).1.phase.Armed := by
  have hticks : ticks.toNat ≤ 24 := by
    obtain ⟨hstarting, _⟩ | ⟨hready, _⟩ :=
      (h.powered_since hlink n (times n) (h.later n)).phase
    · rw [hphase] at hstarting
      rw [show ticks = next.ticks from hstarting]
      exact ticks_le next
    · rw [hphase] at hready
      cases hready
  have hleft : (run (n + 1)).1.phase.left < (run n).1.phase.left := by
    rw [harmed, hphase]
    cases next <;> simp [Engine.inPhase, Phase.left]
  -- The delay waits as it is until a step moves on.
  have hwaits : ∀ j, (run (n + 1 + j)).1 = (run (n + 1)).1 ∨
      ∃ j, (run j).1.phase.left < (run n).1.phase.left ∧ ¬ (run j).1.phase.Armed := by
    intro j
    induction j with
    | zero => exact .inl rfl
    | succ j ih =>
        obtain hsame | hmoved := ih
        · obtain ⟨hstays, _⟩ | ⟨_, _, hdelay, _⟩ | ⟨hless, hunarmed⟩ :=
            h.moved hlink (n + 1 + j)
          · exact .inl (hstays.trans hsame)
          · rw [hsame, harmed] at hdelay
            cases hdelay
          · rw [hsame] at hless
            exact .inr ⟨_, by omega, hunarmed⟩
        · exact .inr hmoved
  obtain ⟨j, rfl⟩ := Nat.exists_eq_add_of_lt hm
  obtain hsame | hmoved := hwaits j
  · rw [show n + j + 1 = n + 1 + j by omega] at hle hlt
    obtain ⟨_, hturn⟩ | ⟨_, _, hdelay, _⟩ | ⟨hless, hunarmed⟩ := h.moved hlink (n + 1 + j)
    · have hfound := @deadline_found (times n) (times (n + 1 + j)) ticks hticks hle hlt
      rw [hsame, harmed] at hturn
      simp only [Engine.turn, Engine.inPhase, if_neg hfound] at hturn
      have hengine := congrArg (fun turn => turn.engine.phase) hturn
      cases next <;> simp [Engine.delayTurn, Engine.inPhase, Engine.delay] at hengine
    · rw [hsame, harmed] at hdelay
      cases hdelay
    · rw [hsame] at hless
      exact ⟨_, by omega, hunarmed⟩
  · exact hmoved

/-- The panel becomes ready if every step is followed by one that comes neither too early nor
half of the range too late. -/
theorem becomes_ready
    (hgoes : ∀ n, ∃ m > n, times n + 24 ≤ times m ∧ times m < times n + 2 ^ 31) :
    ∃ n, (run n).1.status.state = .ready := by
  have hprogress : ∀ bound n, (run n).1.phase.left < bound → ¬ (run n).1.phase.Armed →
      ∃ m, (run m).1.status.state = .ready := by
    intro bound
    induction bound with
    | zero => exact fun _ hnone => absurd hnone (Nat.not_lt_zero _)
    | succ bound ih =>
        intro n hbound hunarmed
        obtain ⟨hstarting, _⟩ | ⟨_, hready⟩ :=
          (h.powered_since hlink n (times n) (h.later n)).phase
        · obtain ⟨_, hturn⟩ | ⟨ticks, next, hdelay, harmed⟩ | ⟨hless, hnext⟩ := h.moved hlink n
          · exact absurd (armed_of_waiting hstarting hturn) hunarmed
          · obtain ⟨m, hm, hle, hlt⟩ := hgoes n
            obtain ⟨j, hless, hnext⟩ := h.delay_ends hlink hdelay harmed hm hle hlt
            exact ih j (by omega) hnext
          · exact ih (n + 1) (by omega) hnext
        · exact ⟨n, hready⟩
  refine hprogress _ 0 (Nat.lt_succ_self _) ?_
  rw [h.first]
  rintro ⟨_, _, _, harmed⟩
  cases harmed

end

end Schedule

/-- The power-up for every start tick and every sequence of steps without an error. In every state
of every run the transactions so far are the beginning of the power-up, in its order, and none of
the rests between them was shortened; a panel that is ready has seen all of them and the last
rest. And the panel does become ready if the steps go on. -/
theorem power_up (link : Link) (start : Nat) (hlink : ∀ operation, link.failure operation = none) :
    (∀ s, Relation.ReflTransGen (EngineStep link) (Engine.new, Bus.idle start) s →
      s.2.events <+: powerUp ∧ Spaced start s.2.log ∧
      (s.1.status.state = .initializing ∨ s.1.status.state = .ready ∧
        s.2.events = powerUp ∧ lastTime start s.2.log + 20 ≤ s.2.clock)) ∧
    ∀ times run, Schedule link start times run →
      (∀ n, ∃ m > n, times n + 24 ≤ times m ∧ times m < times n + 2 ^ 31) →
      ∃ n, (run n).1.status.state = .ready := by
  refine ⟨fun s hrun => ?_, fun times run hschedule => hschedule.becomes_ready hlink⟩
  have hpreserved : Exec.Preserved (EngineStep link)
      (fun s : Engine × Bus => PoweredSince start s.1 s.2) := by
    intro s next hs hstep
    cases hstep with
    | step turns time htime => exact hs.step hlink htime
  have hsince := hpreserved.reachable (new_powered_since start) hrun s.2.clock (Nat.le_refl _)
  have hevents := hsince.events
  refine ⟨?_, hsince.spaced, ?_⟩
  · obtain ⟨hstarting, _⟩ | ⟨hready, _⟩ := hsince.phase
    · rw [show s.2.events = _ from hevents]
      exact performed_starting hstarting
    · rw [hready] at hevents
      rw [show s.2.events = _ from hevents]
      exact List.prefix_rfl
  · obtain ⟨_, hstate⟩ | ⟨hready, hstate⟩ := hsince.phase
    · exact .inl hstate
    · have hrest := hsince.ready hready
      rw [hready] at hevents
      exact .inr ⟨hstate, hevents, hrest⟩

/-- A bus whose operations take three ticks each and do not fail. -/
def steadyLink : Link where
  duration _ := 3
  failure _ := none

/-- The first deadline wraps: it is armed five ticks before the end of the range. -/
theorem power_up_wrapping :
    ∃ s, Relation.ReflTransGen (EngineStep steadyLink)
        (Engine.new, Bus.idle (2 ^ 32 - 5)) s ∧
      s.2.events = [.reset false] ∧ s.2.events <+: powerUp ∧ Spaced (2 ^ 32 - 5) s.2.log := by
  have hrun : Relation.ReflTransGen (EngineStep steadyLink)
      (Engine.new, Bus.idle (2 ^ 32 - 5))
      (Engine.stepAt steadyLink 1 (2 ^ 32 + 5)
        (Engine.stepAt steadyLink 1 (2 ^ 32 - 5) (Engine.new, Bus.idle (2 ^ 32 - 5)))) :=
    Relation.ReflTransGen.refl.tail (.step 0 _ (by decide)) |>.tail (.step 0 _ (by decide))
  obtain ⟨hbegins, hspaced, _⟩ :=
    (power_up steadyLink (2 ^ 32 - 5) fun _ => rfl).1 _ hrun
  exact ⟨_, hrun, by decide, hbegins, hspaced⟩

end NanoKvm.Lcd.Panel
