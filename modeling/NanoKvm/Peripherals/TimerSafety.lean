import NanoKvm.Peripherals.Timer

/-!
# The self-test leaves its channel safe

Every run of the timer self-test ends in one of three shapes, `SelfTestTrace`; the handler adds
its own operations only while the interrupt is installed. `timers_left_safe` reads off them what
is written when, and `activate_one` is called for no timer after one that failed.
-/

namespace NanoKvm.Timer

open Exec Firmware Contract

/-! ## What is seen of a run -/

/-- The operations of the task. -/
def tasks (events : List TimerEvent) : List IoEvent :=
  events.filterMap fun event =>
    match event with
    | .task event => some event
    | .handler _ => none

/-- The operation, whoever performed it. -/
def TimerEvent.event : TimerEvent → IoEvent
  | .task event | .handler event => event

/-- A write of a register. -/
def writes : IoEvent → Bool
  | ⟨.write _ _, _⟩ => true
  | _ => false

/-- A write of a register, or an operation on the interrupt. -/
def acts : IoEvent → Bool
  | ⟨.write _ _, _⟩ | ⟨.irqInstall, _⟩ | ⟨.irqDisable, _⟩ => true
  | _ => false

/-- The word written to the control register. -/
def controlOf : IoEvent → Option UInt32
  | ⟨.write .control value, _⟩ => some value
  | _ => none

def installs : IoEvent → Bool
  | ⟨.irqInstall, status⟩ => succeeded status
  | _ => false

def disables : IoEvent → Bool
  | ⟨.irqDisable, _⟩ => true
  | _ => false

def delays : IoEvent → Bool
  | ⟨.delay _, _⟩ => true
  | _ => false

/-- The flag was seen. -/
def sawFired : IoEvent → Bool
  | ⟨.fired, fired⟩ => fired
  | _ => false

/-- The last word written to the control register. -/
def lastControl (events : List TimerEvent) : Option UInt32 :=
  (events.filterMap fun event => controlOf event.event).getLast?

/-- The value of a register was read, and it is right. -/
def ReadMet (register : Register) (right : UInt32 → Bool) (events : List IoEvent) : Prop :=
  ∃ value, right value = true ∧ (⟨.read register, value⟩ : IoEvent) ∈ events

/-- The configuration is valid, and every shared precondition was read and met. -/
structure PreconditionsMet (config : TimerConfig) (events : List IoEvent) : Prop where
  valid : config.valid = true
  xtal : ReadMet .clockXtalMisc config.clockXtalMisc.met events
  channel : ReadMet .clockChannel config.clockChannel.met events
  reset : ReadMet .resetTimer (fun value => config.resetTimerIp.met value &&
    config.resetChannel.met value) events
  source : ReadMet .timerSource config.clockSource.met events

/-- The channel is left safe, and the result says what was seen. -/
structure LeftSafe (config : TimerConfig) (events : List TimerEvent)
    (result : Except SelfTestError Unit) : Prop where
  checked : ∀ before event after, events = before ++ event :: after → acts event.event = true →
    PreconditionsMet config (tasks before)
  disabled : (tasks events).any installs = true → ∃ before front eoi,
    events = before ++ [.task ⟨.irqDisable, ()⟩] ∧ (tasks before).any disables = false ∧
    tasks before = front ++ [⟨.write .control stoppedMasked, ()⟩, ⟨.read .eoi, eoi⟩]
  untouched : (tasks events).any installs = false → (tasks events).any disables = false
  stopped : (∃ event ∈ events, writes event.event = true) → lastControl events = some stoppedMasked
  delayed : (tasks events).countP delays ≤ config.timeoutRtosTicks.toNat + 1
  passed : result = .ok () ↔ (tasks events).any sawFired = true

/-! ## The operations of the task -/

/-- A read of a shared register. -/
def Shared (event : IoEvent) : Prop :=
  acts event = false ∧ controlOf event = none ∧ installs event = false ∧ disables event = false ∧
    delays event = false ∧ sawFired event = false

/-- A poll. -/
def Polls (event : IoEvent) : Prop :=
  acts event = false ∧ controlOf event = none ∧ installs event = false ∧ disables event = false

/-- What the task does up to the installation of its interrupt. -/
def prepared (config : TimerConfig) (eoi : UInt32) : List IoEvent :=
  [⟨.resetFired, ()⟩, ⟨.write .control stoppedMasked, ()⟩, ⟨.read .eoi, eoi⟩,
    ⟨.write .load config.periodTicks, ()⟩]

/-- `stop_and_clear` -/
def stopped (eoi : UInt32) : List IoEvent :=
  [⟨.write .control stoppedMasked, ()⟩, ⟨.read .eoi, eoi⟩]

/-- The three ways in which the self-test can go. -/
inductive SelfTestTrace (config : TimerConfig) :
    List IoEvent → Except SelfTestError Unit → Prop where
  | refused {reads : List IoEvent} {error : SelfTestError} (hreads : ∀ event ∈ reads, Shared event) :
      SelfTestTrace config reads (.error error)
  | failed {reads : List IoEvent} {first last : UInt32} {status : Int32}
      (hreads : ∀ event ∈ reads, Shared event) (hmet : PreconditionsMet config reads)
      (hstatus : succeeded status = false) :
      SelfTestTrace config
        (reads ++ (prepared config first ++ (⟨.irqInstall, status⟩ :: stopped last)))
        (.error .interruptRegistration)
  | tested {reads polled : List IoEvent} {first last now : UInt32} {status : Int32} {passed : Bool}
      (hreads : ∀ event ∈ reads, Shared event) (hmet : PreconditionsMet config reads)
      (hstatus : succeeded status = true) (hpolled : ∀ event ∈ polled, Polls event)
      (hdelays : polled.countP delays ≤ config.timeoutRtosTicks.toNat + 1)
      (hpassed : passed = polled.any sawFired) :
      SelfTestTrace config
        (reads ++ (prepared config first ++ (⟨.irqInstall, status⟩ ::
          ⟨.write .control runningUnmasked, ()⟩ :: ⟨.ticks, now⟩ ::
          (polled ++ (stopped last ++ [⟨.irqDisable, ()⟩])))))
        (if passed then .ok () else .error .timeout)

section

variable {config : TimerConfig} {events : List IoEvent}

theorem shared_read {register : Register} {value : UInt32} :
    Shared ⟨.read register, value⟩ :=
  ⟨rfl, rfl, rfl, rfl, rfl, rfl⟩

/-- A precondition that is read and checked. -/
theorem gate_trace {register : Register} {met : UInt32 → Bool} {error : SelfTestError}
    {next : UInt32 → Io (Except SelfTestError Unit)} {result : Except SelfTestError Unit}
    (h : (io (.read register) >>= fun value : UInt32 =>
      if !met value then pure (.error error) else next value).Trace events result) :
    ∃ (value : UInt32) (rest : List IoEvent), events = ⟨.read register, value⟩ :: rest ∧
      ((rest = [] ∧ result = .error error) ∨
        (met value = true ∧ (next value).Trace rest result)) := by
  obtain ⟨value, rest, rfl, hrest⟩ := Prog.trace_perform.mp h
  refine ⟨value, rest, rfl, ?_⟩
  split at hrest
  · exact .inl (Prog.trace_pure.mp hrest)
  · rename_i hmet
    exact .inr ⟨by simpa using hmet, hrest⟩

theorem shared_cons {register : Register} {value : UInt32}
    (h : ∀ event ∈ events, Shared event) :
    ∀ event ∈ ((⟨.read register, value⟩ : IoEvent) :: events), Shared event :=
  List.forall_mem_cons.mpr ⟨shared_read, h⟩

theorem shared_nil : ∀ event ∈ ([] : List IoEvent), Shared event :=
  fun _ hevent => (by cases hevent)

theorem validate_trace {result : Except SelfTestError Unit}
    (h : (validatePlatform config).Trace events result) :
    (∀ event ∈ events, Shared event) ∧ (result = .ok () → PreconditionsMet config events) := by
  unfold validatePlatform at h
  split at h
  · obtain ⟨rfl, rfl⟩ := Prog.trace_pure.mp h
    exact ⟨shared_nil, fun hok => (by cases hok)⟩
  rename_i hvalid
  obtain ⟨xtal, later, rfl, ⟨rfl, rfl⟩ | ⟨hxtal, hlater⟩⟩ := gate_trace h
  · exact ⟨shared_cons shared_nil, fun hok => (by cases hok)⟩
  obtain ⟨channel, gated, rfl, ⟨rfl, rfl⟩ | ⟨hchannel, hgated⟩⟩ := gate_trace hlater
  · exact ⟨shared_cons (shared_cons shared_nil), fun hok => (by cases hok)⟩
  obtain ⟨reset, sourced, rfl, hreset⟩ := Prog.trace_perform.mp hgated
  split at hreset
  · obtain ⟨rfl, rfl⟩ := Prog.trace_pure.mp hreset
    exact ⟨shared_cons (shared_cons (shared_cons shared_nil)), fun hok => (by cases hok)⟩
  rename_i hip
  split at hreset
  · obtain ⟨rfl, rfl⟩ := Prog.trace_pure.mp hreset
    exact ⟨shared_cons (shared_cons (shared_cons shared_nil)), fun hok => (by cases hok)⟩
  rename_i hown
  obtain ⟨source, last, rfl, ⟨rfl, rfl⟩ | ⟨hsource, hlast⟩⟩ := gate_trace hreset
  · exact ⟨shared_cons (shared_cons (shared_cons (shared_cons shared_nil))),
      fun hok => (by cases hok)⟩
  obtain ⟨rfl, rfl⟩ := Prog.trace_pure.mp hlast
  refine ⟨shared_cons (shared_cons (shared_cons (shared_cons shared_nil))), fun _ => ?_⟩
  exact {
    valid := by simpa using hvalid
    xtal := ⟨xtal, hxtal, List.mem_cons_self⟩
    channel := ⟨channel, hchannel, by simp⟩
    reset := by
      refine ⟨reset, ?_, by simp⟩
      have hip' : config.resetTimerIp.met reset = true := by simpa using hip
      have hown' : config.resetChannel.met reset = true := by simpa using hown
      exact Bool.and_eq_true_iff.mpr ⟨hip', hown'⟩
    source := ⟨source, hsource, by simp⟩ }

theorem polls_fired {fired : Op.fired.Ret} : Polls ⟨.fired, fired⟩ := ⟨rfl, rfl, rfl, rfl⟩

theorem polls_ticks {now : Op.ticks.Ret} : Polls ⟨.ticks, now⟩ := ⟨rfl, rfl, rfl, rfl⟩

theorem polls_delay {ticks : UInt32} {result : (Op.delay ticks).Ret} :
    Polls ⟨.delay ticks, result⟩ :=
  ⟨rfl, rfl, rfl, rfl⟩

theorem poll_trace {deadline : UInt32} {remaining : Nat} {passed : Bool}
    (h : (poll deadline remaining).Trace events passed) :
    (∀ event ∈ events, Polls event) ∧ events.countP delays ≤ remaining ∧
      passed = events.any sawFired := by
  induction remaining generalizing events with
  | zero =>
      obtain ⟨fired, later, rfl, hlater⟩ := Prog.trace_perform.mp h
      split at hlater
      · rename_i hfired
        obtain ⟨rfl, rfl⟩ := Prog.trace_pure.mp hlater
        refine ⟨List.forall_mem_singleton.mpr polls_fired, Nat.le_refl 0, ?_⟩
        show true = (fired || false)
        rw [show fired = true from hfired]
        rfl
      · rename_i hfired
        obtain ⟨now, last, rfl, hlast⟩ := Prog.trace_perform.mp hlater
        obtain ⟨rfl, rfl⟩ := Prog.trace_pure.mp hlast
        refine ⟨by simp [polls_fired, polls_ticks], Nat.le_refl 0, ?_⟩
        show false = (fired || (false || false))
        rw [show fired = false from Bool.eq_false_iff.mpr hfired]
        rfl
  | succ remaining ih =>
      obtain ⟨fired, later, rfl, hlater⟩ := Prog.trace_perform.mp h
      split at hlater
      · rename_i hfired
        obtain ⟨rfl, rfl⟩ := Prog.trace_pure.mp hlater
        refine ⟨List.forall_mem_singleton.mpr polls_fired, Nat.zero_le _, ?_⟩
        show true = (fired || false)
        rw [show fired = true from hfired]
        rfl
      · rename_i hfired
        have hnot : fired = false := Bool.eq_false_iff.mpr hfired
        obtain ⟨now, last, rfl, hlast⟩ := Prog.trace_perform.mp hlater
        split at hlast
        · obtain ⟨rfl, rfl⟩ := Prog.trace_pure.mp hlast
          refine ⟨by simp [polls_fired, polls_ticks], Nat.zero_le _, ?_⟩
          show false = (fired || (false || false))
          rw [hnot]
          rfl
        · obtain ⟨_, polled, rfl, hpolled⟩ := Prog.trace_perform.mp hlast
          obtain ⟨hrest, hcount, hpassed⟩ := ih hpolled
          refine ⟨?_, ?_, ?_⟩
          · exact List.forall_mem_cons.mpr ⟨polls_fired, List.forall_mem_cons.mpr ⟨polls_ticks,
              List.forall_mem_cons.mpr ⟨polls_delay, hrest⟩⟩⟩
          · rw [List.countP_cons_of_neg (by simp [delays]), List.countP_cons_of_neg (by simp [delays]),
              List.countP_cons_of_pos rfl]
            exact Nat.succ_le_succ hcount
          · show passed = (fired || (false || (false || polled.any sawFired)))
            rw [hnot]
            exact hpassed

/-- The polls that remain at first are at most one more than the timeout. -/
theorem remaining_polls_le (config : TimerConfig) :
    remainingPolls config ≤ config.timeoutRtosTicks.toNat + 1 :=
  Nat.min_le_left _ _

theorem succeeded_iff (status : Int32) : succeeded status = true ↔ status = 0 := by
  simp [succeeded]

theorem self_test_with_trace {result : Except SelfTestError Unit}
    (h : (selfTestWith config).Trace events result) : SelfTestTrace config events result := by
  obtain ⟨reads, later, checked, rfl, hchecked, hlater⟩ := Prog.trace_bind.mp h
  obtain ⟨hreads, hmet⟩ := validate_trace hchecked
  cases checked with
  | error error =>
      obtain ⟨rfl, rfl⟩ := Prog.trace_pure.mp hlater
      rw [List.append_nil]
      exact .refused hreads
  | ok _ =>
      obtain ⟨_, reset, rfl, hreset⟩ := Prog.trace_perform.mp hlater
      obtain ⟨preparing, installing, _, rfl, hprepare, hinstall⟩ := Prog.trace_bind.mp hreset
      obtain ⟨_, cleared, rfl, hcleared⟩ := Prog.trace_perform.mp hprepare
      obtain ⟨first, loaded, rfl, hloaded⟩ := Prog.trace_perform.mp hcleared
      have hload := Prog.trace_perform_last.mp hloaded
      subst hload
      obtain ⟨status, started, rfl, hstarted⟩ := Prog.trace_perform.mp hinstall
      split at hstarted
      · rename_i hstatus
        obtain ⟨stopping, ended, _, rfl, hstop, hend⟩ := Prog.trace_bind.mp hstarted
        obtain ⟨rfl, rfl⟩ := Prog.trace_pure.mp hend
        obtain ⟨_, acknowledged, rfl, hacknowledged⟩ := Prog.trace_perform.mp hstop
        obtain ⟨last, nothing, rfl, hnothing⟩ := Prog.trace_perform.mp hacknowledged
        obtain ⟨rfl, -⟩ := Prog.trace_pure.mp hnothing
        exact .failed hreads (hmet rfl)
          (Bool.eq_false_iff.mpr fun hzero => hstatus ((succeeded_iff status).mp hzero))
      · rename_i hstatus
        obtain ⟨_, armed, rfl, harmed⟩ := Prog.trace_perform.mp hstarted
        obtain ⟨now, polling, rfl, hpolling⟩ := Prog.trace_perform.mp harmed
        obtain ⟨polled, stopping, passed, rfl, hpoll, hstopping⟩ := Prog.trace_bind.mp hpolling
        obtain ⟨stopped, disabling, _, rfl, hstop, hdisabling⟩ := Prog.trace_bind.mp hstopping
        obtain ⟨_, acknowledged, rfl, hacknowledged⟩ := Prog.trace_perform.mp hstop
        obtain ⟨last, nothing, rfl, hnothing⟩ := Prog.trace_perform.mp hacknowledged
        obtain ⟨rfl, -⟩ := Prog.trace_pure.mp hnothing
        obtain ⟨_, ended, rfl, hend⟩ := Prog.trace_perform.mp hdisabling
        obtain ⟨rfl, rfl⟩ := Prog.trace_pure.mp hend
        obtain ⟨hpolled, hdelays, hpassed⟩ := poll_trace hpoll
        exact .tested hreads (hmet rfl) ((succeeded_iff status).mpr (not_not.mp hstatus)) hpolled
          (Nat.le_trans hdelays (remaining_polls_le config)) hpassed

theorem self_test_trace {result : Except SelfTestError Unit}
    (h : (selfTest config).Trace events result) : SelfTestTrace config events result := by
  unfold selfTest at h
  split at h
  · obtain ⟨rfl, rfl⟩ := Prog.trace_pure.mp h
    exact .refused shared_nil
  · exact self_test_with_trace h

end

/-! ## The handler between them -/

/-- Whether the interrupt is installed after these operations of the task. -/
def installedBy (installed : Bool) (events : List IoEvent) : Bool :=
  events.foldl (fun installed event => installedAfter event installed) installed

/-- The handler runs only while its interrupt is installed, and it stops the timer. -/
def Windowed : Bool → List TimerEvent → Prop
  | _, [] => True
  | installed, .task event :: rest => Windowed (installedAfter event installed) rest
  | installed, .handler event :: rest =>
      installed = true ∧ (∀ value, controlOf event = some value → value = stoppedMasked) ∧
        Windowed installed rest

section

variable {events first second : List TimerEvent} {installed : Bool}

theorem tasks_append : tasks (first ++ second) = tasks first ++ tasks second :=
  List.filterMap_append

theorem tasks_handlers (handled : List IoEvent) : tasks (handled.map .handler) = [] := by
  simp [tasks]

/-- What the handler does. -/
theorem handler_trace {handled : List IoEvent} (h : interrupt.Trace handled ()) {event : IoEvent}
    (hevent : event ∈ handled) {value : UInt32} (hvalue : controlOf event = some value) :
    value = stoppedMasked := by
  obtain ⟨acknowledged, setting, _, rfl, hacknowledge, hsetting⟩ := Prog.trace_bind.mp h
  obtain ⟨eoi, stopping, rfl, hstopping⟩ := Prog.trace_perform.mp hacknowledge
  have hstop := Prog.trace_perform_last.mp hstopping
  have hset := Prog.trace_perform_last.mp hsetting
  subst hstop hset
  rcases List.mem_cons.mp hevent with rfl | hlater
  · cases hvalue
  rcases List.mem_cons.mp hlater with rfl | hlast
  · exact (Option.some.inj hvalue).symm
  · rw [List.mem_singleton.mp hlast] at hvalue
    cases hvalue

/-- Without the handler a run is a trace of the task. -/
theorem TimerRun.trace {α : Type} {program : Io α} {value : α}
    (h : TimerRun installed program events value) : program.Trace (tasks events) value := by
  induction h with
  | pure installed value => exact .pure value
  | task _ ih => exact .op ih
  | interrupt _ _ ih =>
      rw [tasks_append, tasks_handlers]
      exact ih

theorem windowed_append : Windowed installed (first ++ second) ↔
    Windowed installed first ∧ Windowed (installedBy installed (tasks first)) second := by
  induction first generalizing installed with
  | nil => exact (iff_of_eq (true_and _)).symm
  | cons event rest ih =>
      cases event with
      | task event => exact ih
      | handler event =>
          rw [List.cons_append, Windowed, Windowed, ih, and_assoc, and_assoc]
          exact Iff.rfl

theorem windowed_handlers {handled : List IoEvent}
    (h : ∀ event ∈ handled, ∀ value, controlOf event = some value → value = stoppedMasked) :
    Windowed true (handled.map .handler) := by
  induction handled with
  | nil => trivial
  | cons event rest ih =>
      obtain ⟨hevent, hrest⟩ := List.forall_mem_cons.mp h
      exact ⟨rfl, hevent, ih hrest⟩

theorem TimerRun.windowed {α : Type} {program : Io α} {value : α}
    (h : TimerRun installed program events value) : Windowed installed events := by
  induction h with
  | pure installed value => trivial
  | task _ ih => exact ih
  | interrupt hhandled _ ih =>
      rw [windowed_append, tasks_handlers]
      exact ⟨windowed_handlers fun event hevent value => handler_trace hhandled hevent, ih⟩

/-- A handler event comes after an installation. -/
theorem windowed_installed {event : IoEvent}
    (h : Windowed installed (first ++ .handler event :: second)) :
    installedBy installed (tasks first) = true :=
  (windowed_append.mp h).2.1

theorem installed_by_none {events : List IoEvent} (h : events.any installs = false) :
    installedBy false events = false := by
  induction events with
  | nil => rfl
  | cons event rest ih =>
      rw [List.any_cons, Bool.or_eq_false_iff] at h
      have hafter : installedAfter event false = false := by
        obtain ⟨operation, result⟩ := event
        cases operation <;> try rfl
        show (succeeded result || false) = false
        rw [show succeeded result = false from h.1]
        rfl
      show rest.foldl _ (installedAfter event false) = false
      rw [hafter]
      exact ih h.2

/-- Where the interrupt is not installed there is nothing but the task. -/
theorem windowed_quiet (h : Windowed false events) (hnone : (tasks events).any installs = false) :
    events = (tasks events).map .task := by
  induction events with
  | nil => rfl
  | cons event rest ih =>
      cases event with
      | task event =>
          have hnone' : (event :: tasks rest).any installs = false := hnone
          rw [List.any_cons, Bool.or_eq_false_iff] at hnone'
          have hafter : installedAfter event false = false := by
            have hone : [event].any installs = false := by simp [hnone'.1]
            exact installed_by_none hone
          have hrest : Windowed (installedAfter event false) rest := h
          rw [hafter] at hrest
          exact congrArg (TimerEvent.task event :: ·) (ih hrest hnone'.2)
      | handler event => exact absurd h.1 Bool.false_ne_true

/-- The place of one operation of the task. -/
theorem tasks_split {before after : List IoEvent} {event : IoEvent}
    (h : tasks events = before ++ event :: after) : ∃ first second,
      events = first ++ .task event :: second ∧ tasks first = before ∧ tasks second = after := by
  induction events generalizing before with
  | nil => simp [tasks] at h
  | cons head rest ih =>
      cases head with
      | task head =>
          have h' : head :: tasks rest = before ++ event :: after := h
          cases before with
          | nil =>
              obtain ⟨rfl, hrest⟩ := List.cons.inj h'
              exact ⟨[], rest, rfl, rfl, hrest⟩
          | cons earlier before =>
              obtain ⟨rfl, hrest⟩ := List.cons.inj h'
              obtain ⟨first, second, rfl, rfl, rfl⟩ := ih hrest
              exact ⟨.task head :: first, second, rfl, rfl, rfl⟩
      | handler head =>
          obtain ⟨first, second, rfl, rfl, rfl⟩ := ih h
          exact ⟨.handler head :: first, second, rfl, rfl, rfl⟩

/-- The words that the handler writes to the control register, with none of the task's. -/
theorem windowed_controls (h : Windowed installed events)
    (hnone : ∀ event ∈ tasks events, controlOf event = none) :
    ∀ value ∈ events.filterMap fun event => controlOf event.event, value = stoppedMasked := by
  induction events generalizing installed with
  | nil => exact fun value hvalue => (by cases hvalue)
  | cons event rest ih =>
      cases event with
      | task event =>
          obtain ⟨hevent, hrest⟩ := List.forall_mem_cons.mp
            (show ∀ other ∈ event :: tasks rest, controlOf other = none from hnone)
          rw [List.filterMap_cons_none (by exact hevent)]
          exact ih h hrest
      | handler event =>
          obtain ⟨-, hevent, hrest⟩ := h
          intro value hvalue
          rw [List.mem_filterMap] at hvalue
          obtain ⟨other, hother, hcontrol⟩ := hvalue
          rcases List.mem_cons.mp hother with rfl | hlater
          · exact hevent value hcontrol
          · exact ih hrest hnone value (List.mem_filterMap.mpr ⟨other, hlater, hcontrol⟩)

/-- After the task's last control write, which stops the timer, the control register stays so. -/
theorem last_control_stopped (before after : List IoEvent)
    (h : Windowed installed events)
    (hsplit : tasks events = before ++ ⟨.write .control stoppedMasked, ()⟩ :: after)
    (hafter : ∀ event ∈ after, controlOf event = none) :
    lastControl events = some stoppedMasked := by
  obtain ⟨first, second, rfl, -, rfl⟩ := tasks_split hsplit
  have hlater : Windowed _ second := (windowed_append.mp h).2
  have hstopped := windowed_controls hlater hafter
  unfold lastControl
  rw [List.filterMap_append, List.getLast?_append]
  show Option.or (List.getLast? (stoppedMasked ::
    second.filterMap fun event => controlOf event.event)) _ = _
  generalize second.filterMap (fun event => controlOf event.event) = words at hstopped
  rw [List.getLast?_cons]
  cases hlast : words.getLast? with
  | none => rfl
  | some last =>
      rw [Option.getD_some, hstopped last (List.mem_of_getLast? hlast)]
      rfl

end

/-! ## The channel is left safe -/

section

variable {config : TimerConfig} {events : List TimerEvent} {reads later : List IoEvent}

theorem PreconditionsMet.mono {first second : List IoEvent} (h : PreconditionsMet config first)
    (hsub : first ⊆ second) : PreconditionsMet config second := by
  have hread : ∀ {register right}, ReadMet register right first → ReadMet register right second := by
    rintro register right ⟨value, hright, hmem⟩
    exact ⟨value, hright, hsub hmem⟩
  exact ⟨h.valid, hread h.xtal, hread h.channel, hread h.reset, hread h.source⟩

/-- What is not a read of a shared register comes after all of them. -/
theorem met_before {before after : List IoEvent} {event : IoEvent}
    (hreads : ∀ event ∈ reads, Shared event) (hmet : PreconditionsMet config reads)
    (hsplit : reads ++ later = before ++ event :: after) (hacts : acts event = true) :
    PreconditionsMet config before := by
  rcases List.append_eq_append_iff.mp hsplit with ⟨between, hbefore, -⟩ | ⟨between, hreads', hrest⟩
  · rw [hbefore]
    exact hmet.mono (List.subset_append_left _ _)
  · cases between with
    | nil =>
        rw [List.append_nil] at hreads'
        rw [← hreads']
        exact hmet
    | cons head between =>
        obtain ⟨rfl, -⟩ := List.cons.inj hrest
        have hshared := hreads event (by rw [hreads']; simp)
        rw [hshared.1] at hacts
        exact absurd hacts Bool.false_ne_true

theorem installed_by_some {events : List IoEvent} (h : installedBy false events = true) :
    ∃ before event after, events = before ++ event :: after ∧ installs event = true := by
  have hany : events.any installs = true := by
    cases hany : events.any installs with
    | true => rfl
    | false =>
        rw [installed_by_none hany] at h
        exact absurd h Bool.false_ne_true
  obtain ⟨event, hevent, hinstalls⟩ := List.any_eq_true.mp hany
  obtain ⟨before, after, rfl⟩ := List.append_of_mem hevent
  exact ⟨before, event, after, rfl, hinstalls⟩

theorem installs_acts {event : IoEvent} (h : installs event = true) : acts event = true := by
  obtain ⟨operation, result⟩ := event
  cases operation <;> first | rfl | cases h

/-- Nothing acts before the preconditions were read and met, the handler included. -/
theorem checked_first (hwindow : Windowed false events) (hsplit : tasks events = reads ++ later)
    (hreads : ∀ event ∈ reads, Shared event) (hmet : PreconditionsMet config reads)
    {before after : List TimerEvent} {event : TimerEvent}
    (hevents : events = before ++ event :: after) (hacts : acts event.event = true) :
    PreconditionsMet config (tasks before) := by
  subst hevents
  rw [tasks_append] at hsplit
  cases event with
  | task event => exact met_before hreads hmet hsplit.symm hacts
  | handler event =>
      obtain ⟨first, install, second, hbefore, hinstalls⟩ :=
        installed_by_some (windowed_installed hwindow)
      rw [hbefore, List.append_assoc] at hsplit
      rw [hbefore]
      exact (met_before hreads hmet hsplit.symm (installs_acts hinstalls)).mono
        (List.subset_append_left _ _)

theorem shared_none (hreads : ∀ event ∈ reads, Shared event) :
    reads.any installs = false ∧ reads.any disables = false ∧ reads.any sawFired = false ∧
      reads.countP delays = 0 := by
  refine ⟨List.any_eq_false.mpr fun event hevent => ?_,
    List.any_eq_false.mpr fun event hevent => ?_, List.any_eq_false.mpr fun event hevent => ?_,
    List.countP_eq_zero.mpr fun event hevent => ?_⟩ <;>
  obtain ⟨-, -, hinstalls, hdisables, hdelays, hfired⟩ := hreads event hevent
  · simp [hinstalls]
  · simp [hdisables]
  · simp [hfired]
  · simp [hdelays]

theorem polls_none {polled : List IoEvent} (hpolled : ∀ event ∈ polled, Polls event) :
    polled.any installs = false ∧ polled.any disables = false := by
  refine ⟨List.any_eq_false.mpr fun event hevent => ?_,
    List.any_eq_false.mpr fun event hevent => ?_⟩ <;>
  obtain ⟨-, -, hinstalls, hdisables⟩ := hpolled event hevent
  · simp [hinstalls]
  · simp [hdisables]

theorem refused_safe {error : SelfTestError} (hwindow : Windowed false events)
    (hreads : ∀ event ∈ tasks events, Shared event) : LeftSafe config events (.error error) := by
  obtain ⟨hinstalls, hdisables, hfired, hdelays⟩ := shared_none hreads
  have hquiet := windowed_quiet hwindow hinstalls
  have hnothing : ∀ event ∈ events, acts event.event = false := by
    rw [hquiet]
    intro event hevent
    obtain ⟨task, htask, rfl⟩ := List.mem_map.mp hevent
    exact (hreads task htask).1
  refine ⟨?_, ?_, fun _ => hdisables, ?_, ?_, ?_⟩
  · rintro before event after rfl hacts
    rw [hnothing event (by simp)] at hacts
    exact absurd hacts Bool.false_ne_true
  · intro hinstalled
    rw [hinstalls] at hinstalled
    exact absurd hinstalled Bool.false_ne_true
  · rintro ⟨event, hevent, hwrites⟩
    have hacts : acts event.event = true := by
      revert hwrites
      rcases event.event with ⟨operation, result⟩
      cases operation <;> simp [writes, acts]
    rw [hnothing event hevent] at hacts
    exact absurd hacts Bool.false_ne_true
  · rw [hdelays]
    exact Nat.zero_le _
  · rw [hfired]
    exact iff_of_false (fun hok => (by cases hok)) Bool.false_ne_true

theorem failed_safe {first last : UInt32} {status : Int32} (hwindow : Windowed false events)
    (hsplit : tasks events =
      reads ++ (prepared config first ++ (⟨.irqInstall, status⟩ :: stopped last)))
    (hreads : ∀ event ∈ reads, Shared event) (hmet : PreconditionsMet config reads)
    (hstatus : succeeded status = false) :
    LeftSafe config events (.error .interruptRegistration) := by
  obtain ⟨hinstalls, hdisables, hfired, hdelays⟩ := shared_none hreads
  have hnot : (tasks events).any installs = false := by
    rw [hsplit, List.any_append, hinstalls]
    show (succeeded status || false) = false
    rw [hstatus]
    rfl
  refine ⟨fun before event after => checked_first hwindow hsplit hreads hmet, ?_, fun _ => ?_,
    fun _ => ?_, ?_, ?_⟩
  · intro hinstalled
    rw [hnot] at hinstalled
    exact absurd hinstalled Bool.false_ne_true
  · rw [hsplit, List.any_append, hdisables]
    rfl
  · refine last_control_stopped (reads ++ (prepared config first ++ [⟨.irqInstall, status⟩]))
      [⟨.read .eoi, last⟩] hwindow ?_ ?_
    · rw [hsplit]
      simp [stopped]
    · exact List.forall_mem_singleton.mpr rfl
  · rw [hsplit, List.countP_append, hdelays]
    exact Nat.zero_le _
  · rw [hsplit, List.any_append, hfired]
    exact iff_of_false (fun hok => (by cases hok)) Bool.false_ne_true

theorem tested_safe {polled : List IoEvent} {first last now : UInt32} {status : Int32}
    {passed : Bool} (hwindow : Windowed false events)
    (hsplit : tasks events = reads ++ (prepared config first ++ (⟨.irqInstall, status⟩ ::
      ⟨.write .control runningUnmasked, ()⟩ :: ⟨.ticks, now⟩ ::
      (polled ++ (stopped last ++ [⟨.irqDisable, ()⟩])))))
    (hreads : ∀ event ∈ reads, Shared event) (hmet : PreconditionsMet config reads)
    (hstatus : succeeded status = true) (hpolled : ∀ event ∈ polled, Polls event)
    (hcount : polled.countP delays ≤ config.timeoutRtosTicks.toNat + 1)
    (hpassed : passed = polled.any sawFired) :
    LeftSafe config events (if passed then .ok () else .error .timeout) := by
  obtain ⟨hinstalls, hdisables, hfired, hdelays⟩ := shared_none hreads
  obtain ⟨-, hdisables'⟩ := polls_none hpolled
  have hinstalled : (tasks events).any installs = true := by
    rw [hsplit, List.any_append, hinstalls]
    show (succeeded status || _) = true
    rw [hstatus]
    rfl
  refine ⟨fun before event after => checked_first hwindow hsplit hreads hmet, fun _ => ?_, ?_,
    fun _ => ?_, ?_, ?_⟩
  · -- the disabling ends the run: the handler is not installed after it
    have hfront : tasks events = (reads ++ (prepared config first ++ (⟨.irqInstall, status⟩ ::
        ⟨.write .control runningUnmasked, ()⟩ :: ⟨.ticks, now⟩ :: polled)) ++ stopped last) ++
        ⟨.irqDisable, ()⟩ :: [] := by
      rw [hsplit]
      simp
    obtain ⟨before, after, rfl, hbefore, hafter⟩ := tasks_split hfront
    have hquiet : Windowed false after := (windowed_append.mp hwindow).2
    have hnil := windowed_quiet hquiet (by rw [hafter]; rfl)
    rw [hafter] at hnil
    subst hnil
    refine ⟨before, _, last, rfl, ?_, hbefore⟩
    rw [hbefore, List.any_append, List.any_append, hdisables, List.any_append]
    show (false || (false || (false || polled.any disables)) || false) = false
    rw [hdisables']
    rfl
  · intro hnot
    rw [hinstalled] at hnot
    exact absurd hnot.symm Bool.false_ne_true
  · refine last_control_stopped (reads ++ (prepared config first ++ (⟨.irqInstall, status⟩ ::
      ⟨.write .control runningUnmasked, ()⟩ :: ⟨.ticks, now⟩ :: polled)))
      [⟨.read .eoi, last⟩, ⟨.irqDisable, ()⟩] hwindow ?_ ?_
    · rw [hsplit]
      simp [stopped]
    · exact List.forall_mem_cons.mpr ⟨rfl, List.forall_mem_singleton.mpr rfl⟩
  · rw [hsplit, List.countP_append, List.countP_append, hdelays]
    have hpolls : (⟨.irqInstall, status⟩ :: ⟨.write .control runningUnmasked, ()⟩ :: ⟨.ticks, now⟩ ::
        (polled ++ (stopped last ++ [⟨.irqDisable, ()⟩])) : List IoEvent).countP delays =
        polled.countP delays := by
      simp [List.countP_append, delays, stopped]
    rw [hpolls]
    have hzero : (prepared config first).countP delays = 0 := rfl
    omega
  · have hsaw : (tasks events).any sawFired = passed := by
      rw [hsplit, List.any_append, hfired, hpassed]
      show (false || (false || (false || (polled ++ _).any sawFired))) = _
      rw [List.any_append]
      show (polled.any sawFired || false) = polled.any sawFired
      exact Bool.or_false _
    rw [hsaw]
    cases passed with
    | true => exact iff_of_true rfl rfl
    | false => exact iff_of_false (fun hok => (by cases hok)) Bool.false_ne_true

theorem self_test_safe {result : Except SelfTestError Unit}
    (h : TimerRun false (selfTest config) events result) : LeftSafe config events result := by
  have hwindow := h.windowed
  have htrace := self_test_trace h.trace
  generalize hsplit : tasks events = ops at htrace
  cases htrace with
  | refused hreads => exact refused_safe hwindow (hsplit ▸ hreads)
  | failed hreads hmet hstatus => exact failed_safe hwindow hsplit hreads hmet hstatus
  | tested hreads hmet hstatus hpolled hdelays hpassed =>
      exact tested_safe hwindow hsplit hreads hmet hstatus hpolled hdelays hpassed

end

/-! ## The selected timers -/

/-- Timers are activated in order, and none after one that failed. -/
structure InOrder (selected : List Peripheral)
    (calls : List (Event Peripheral fun _ => Except SelfTestError Unit))
    (result : Except LeaseFailure Unit) : Prop where
  order : calls.map Event.operation <+: selected
  first : ∀ before failing after error, calls = before ++ failing :: after →
    failing.result = .error error → after = []
  passed : result = .ok () ↔ calls.map Event.operation = selected ∧
    ∀ call ∈ calls, call.result = .ok ()

theorem activate_trace {selected : List Peripheral}
    {calls : List (Event Peripheral fun _ => Except SelfTestError Unit)}
    {result : Except LeaseFailure Unit} (h : (activateSelectedTimers selected).Trace calls result) :
    InOrder selected calls result := by
  induction selected generalizing calls with
  | nil =>
      obtain ⟨rfl, rfl⟩ := Prog.trace_pure.mp h
      refine ⟨List.prefix_rfl, ?_, iff_of_true rfl ⟨rfl, fun _ hcall => (by cases hcall)⟩⟩
      intro before failing after error heq
      simp at heq
  | cons timer rest ih =>
      obtain ⟨outcome, later, rfl, hlater⟩ := Prog.trace_perform.mp h
      cases outcome with
      | error error =>
          obtain ⟨rfl, rfl⟩ := Prog.trace_pure.mp hlater
          refine ⟨List.prefix_append [timer] rest, ?_, iff_of_false (fun hok => (by cases hok)) ?_⟩
          · intro before failing after _ heq _
            cases before with
            | nil => exact (List.cons.inj heq).2.symm
            | cons head before =>
                have htail := (List.cons.inj heq).2
                simp at htail
          · intro hall
            have hone := hall.2 _ List.mem_cons_self
            cases hone
      | ok _ =>
          obtain ⟨horder, hfirst, hpassed⟩ := ih hlater
          refine ⟨(List.prefix_cons_inj _).mpr horder, ?_, ?_⟩
          · intro before failing after error heq hfailing
            cases before with
            | nil =>
                obtain ⟨rfl, -⟩ := List.cons.inj heq
                cases hfailing
            | cons head before =>
                exact hfirst before failing after error (List.cons.inj heq).2 hfailing
          · rw [hpassed]
            constructor
            · rintro ⟨hcalls, hall⟩
              exact ⟨congrArg (timer :: ·) hcalls, List.forall_mem_cons.mpr ⟨rfl, hall⟩⟩
            · rintro ⟨hcalls, hall⟩
              exact ⟨(List.cons.inj hcalls).2, (List.forall_mem_cons.mp hall).2⟩

/-- The calls give the lease the result that it has for their outcomes. -/
theorem activate_refines {selected : List Peripheral}
    {calls : List (Event Peripheral fun _ => Except SelfTestError Unit)}
    {result : Except LeaseFailure Unit} (h : (activateSelectedTimers selected).Trace calls result)
    {activateOne : Peripheral → Except SelfTestError Unit}
    (hcalls : ∀ call ∈ calls, call.result = activateOne call.operation) :
    result = Firmware.activateSelectedTimers activateOne selected := by
  induction selected generalizing calls with
  | nil => exact (Prog.trace_pure.mp h).2
  | cons timer rest ih =>
      obtain ⟨outcome, later, rfl, hlater⟩ := Prog.trace_perform.mp h
      obtain ⟨hone, hrest⟩ := List.forall_mem_cons.mp hcalls
      have hone' : outcome = activateOne timer := hone
      unfold Firmware.activateSelectedTimers
      rw [← hone']
      cases outcome with
      | error error => exact (Prog.trace_pure.mp hlater).2
      | ok _ => exact ih hlater hrest

/-- Every run of the self-test leaves its channel safe, and no timer is touched after one that
failed. -/
theorem timers_left_safe {config : TimerConfig} {events : List TimerEvent}
    {result : Except SelfTestError Unit} (h : TimerRun false (selfTest config) events result)
    {selected : List Peripheral}
    {calls : List (Event Peripheral fun _ => Except SelfTestError Unit)}
    {lease : Except LeaseFailure Unit} (hcalls : (activateSelectedTimers selected).Trace calls lease) :
    LeftSafe config events result ∧ InOrder selected calls lease :=
  ⟨self_test_safe h, activate_trace hcalls⟩

/-- The fourth timer of the bank, with a period of 250 ticks. -/
def timer4 : TimerConfig where
  channel := 4
  irq := 55
  bankAddress := 0x030a0000
  bankSize := 0x10000
  loadAddress := 0x030a0050
  currentAddress := 0x030a0054
  controlAddress := 0x030a0058
  eoiAddress := 0x030a005c
  statusAddress := 0x030a0060
  clockXtalMisc := ⟨0x03002000, 0x4000, 0x4000⟩
  clockChannel := ⟨0x0300200c, 0x2000, 0x2000⟩
  resetTimerIp := ⟨0x03003008, 0x2000, 0x2000⟩
  resetChannel := ⟨0x03003008, 0x40000, 0x40000⟩
  clockSource := ⟨0x030001a0, 0x10, 0⟩
  periodTicks := 250
  timeoutRtosTicks := 3

/-- The interrupt comes before the first poll. -/
def timer4Fires : List TimerEvent :=
  [.task ⟨.read .clockXtalMisc, (0x4000 : UInt32)⟩, .task ⟨.read .clockChannel, (0x2000 : UInt32)⟩,
    .task ⟨.read .resetTimer, (0x42000 : UInt32)⟩, .task ⟨.read .timerSource, (0 : UInt32)⟩,
    .task ⟨.resetFired, ()⟩, .task ⟨.write .control stoppedMasked, ()⟩,
    .task ⟨.read .eoi, (0 : UInt32)⟩, .task ⟨.write .load 250, ()⟩,
    .task ⟨.irqInstall, (0 : Int32)⟩, .task ⟨.write .control runningUnmasked, ()⟩,
    .task ⟨.ticks, (100 : UInt32)⟩, .handler ⟨.read .eoi, (1 : UInt32)⟩,
    .handler ⟨.write .control stoppedMasked, ()⟩, .handler ⟨.setFired, ()⟩,
    .task ⟨.fired, true⟩, .task ⟨.write .control stoppedMasked, ()⟩,
    .task ⟨.read .eoi, (0 : UInt32)⟩, .task ⟨.irqDisable, ()⟩]

theorem timers_left_safe_timer4 : LeftSafe timer4 timer4Fires (.ok ()) ∧
    InOrder [.timer4] [⟨.timer4, .ok ()⟩] (.ok ()) := by
  refine timers_left_safe ?_ (.op (.pure _))
  have hhandled : interrupt.Trace [⟨.read .eoi, (1 : UInt32)⟩,
      ⟨.write .control stoppedMasked, ()⟩, ⟨.setFired, ()⟩] () := .op (.op (.op (.pure ())))
  have hpolled : TimerRun true (do
      let passed ← poll (100 + 3) 4
      stopAndClear
      io .irqDisable
      pure (if passed then .ok () else .error .timeout))
      (timer4Fires.drop 11) (.ok () : Except SelfTestError Unit) := by
    refine .interrupt hhandled ?_
    iterate 4 refine .task ?_
    exact .pure _ _
  iterate 11 refine .task ?_
  exact hpolled

end NanoKvm.Timer
