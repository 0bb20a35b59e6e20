import NanoKvm.Media.Lt6911

/-!
# Who waits for whom in the LT6911UXC driver

Queries, `enable_streams`, `disable_streams`, `remove` and the polling work take the mode lock, the
stream lock and the lock of the active state in different orders, and a stop waits for the work.
`deadlock_iff` says that they can wait for each other in exactly one way.
-/

namespace NanoKvm.Lt6911

open Exec

/-! ## Locks -/

section

variable {ι : Type} {pc next : Pc} {lock : Lock}

theorem holds_lock (h : instr (ι := ι) pc = .lock lock next) :
    ¬ pc.Holds lock ∧ ∀ other, next.Holds other ↔ pc.Holds other ∨ other = lock := by
  cases pc with
  | queryModeLock | enableStateLock | enableStreamLock | disableStateLock | workModeLock
  | workStreamLock =>
      cases h
      exact ⟨by decide, fun other => by cases other <;> decide⟩
  | queryStateLock flag | workRelock flag | stopLock flag =>
      cases h
      cases flag <;> exact ⟨by decide, fun other => by cases other <;> decide⟩
  | workStreamUnlock streaming => cases streaming <;> cases h
  | _ => cases h

theorem holds_unlock (h : instr (ι := ι) pc = .unlock lock next) :
    pc.Holds lock ∧ ∀ other, next.Holds other ↔ pc.Holds other ∧ other ≠ lock := by
  cases pc with
  | enableStreamUnlock | refusedUnlock | stateUnlock =>
      cases h
      exact ⟨by decide, fun other => by cases other <;> decide⟩
  | queryStateUnlock flag | queryModeUnlock flag | workStreamUnlock flag | workUnlock flag
  | workModeUnlock flag =>
      cases flag <;> cases h <;> exact ⟨by decide, fun other => by cases other <;> decide⟩
  | stopUnlock removing was =>
      cases h
      cases removing <;> cases was <;>
        exact ⟨by decide, fun other => by cases other <;> decide⟩
  | _ => cases h

theorem holds_await {thread : Tid ι} (h : instr pc = .await thread next) (other : Lock) :
    next.Holds other ↔ pc.Holds other := by
  cases pc with
  | stopWait removing was =>
      cases h
      rfl
  | workStreamUnlock streaming => cases streaming <;> cases h
  | _ => cases h

theorem holds_act {action : Data → Data → Pc → Prop} {data data' : Data}
    (h : instr (ι := ι) pc = .act action) (haction : action data data' next) (other : Lock) :
    next.Holds other ↔ pc.Holds other := by
  cases pc with
  | idle =>
      cases h
      obtain ⟨_, rfl | rfl | rfl | rfl⟩ := haction <;> rfl
  | queryGet | enableGet =>
      cases h
      obtain ⟨_, rfl⟩ | ⟨_, rfl⟩ := haction <;> rfl
  | queryUpdate =>
      cases h
      obtain ⟨answers, _, rfl⟩ := haction
      split <;> rfl
  | workUpdate =>
      cases h
      obtain ⟨answers, _, rfl⟩ := haction
      rfl
  | enableTest | enableArm | disableTest =>
      cases h
      obtain ⟨_, rfl⟩ := haction
      split <;> rfl
  | stopPut removing was =>
      cases h
      obtain ⟨_, rfl⟩ := haction
      cases removing <;> rfl
  | workIdle =>
      cases h
      obtain ⟨_, _, rfl⟩ := haction
      rfl
  | queryFormat | queryPut | queryNotify | refusedPut | enableMark | stopClear | stopCancel
  | disableMark | workTest | workRearm | workNotify =>
      cases h
      obtain ⟨_, rfl⟩ := haction
      rfl
  | workStreamUnlock streaming => cases streaming <;> cases h
  | _ => cases h

theorem holds_resting (h : pc.Resting) : ¬ pc.Holds lock := by
  obtain rfl | rfl := h <;> cases lock <;> decide

end

theorem disciplined {ι : Type} : Disciplined (code (ι := ι)) Pc.Holds where
  lock _ _ _ h := holds_lock h
  unlock _ _ _ h := holds_unlock h
  await _ _ _ h := holds_await h
  act _ _ _ _ _ h haction := holds_act h haction
  resting _ _ h := holds_resting h

/-! ## Waiting in a cycle -/

/-- The control points of the worker. -/
def Pc.OfWorker : Pc → Bool
  | .workIdle | .workModeLock | .workStreamLock | .workTest | .workStreamUnlock _ | .workUpdate
  | .workRelock _ | .workRearm _ | .workUnlock _ | .workModeUnlock _ | .workNotify _ => true
  | _ => false

theorem moves_of_worker {ι : Type} {pc next : Pc} {data data' : Data}
    (h : (code (ι := ι)).Moves pc data data' next) : next.OfWorker = pc.OfWorker := by
  cases pc with
  | idle => obtain ⟨_, rfl | rfl | rfl | rfl⟩ := h <;> rfl
  | queryGet | enableGet => obtain ⟨_, rfl⟩ | ⟨_, rfl⟩ := h <;> rfl
  | queryUpdate =>
      obtain ⟨answers, _, rfl⟩ := h
      split <;> rfl
  | enableTest | enableArm | disableTest =>
      obtain ⟨_, rfl⟩ := h
      split <;> rfl
  | stopPut removing was =>
      obtain ⟨_, rfl⟩ := h
      cases removing <;> rfl
  | workStreamUnlock streaming =>
      cases streaming <;> obtain ⟨_, rfl⟩ := h <;> rfl
  | workIdle | workUpdate =>
      obtain ⟨_, _, rfl⟩ := h
      rfl
  | _ =>
      obtain ⟨_, rfl⟩ := h
      rfl

/-- The lock that a thread takes next. -/
def Pc.wants : Pc → Option Lock
  | .queryModeLock | .workModeLock => some .mode
  | .enableStateLock | .disableStateLock | .queryStateLock _ => some .active
  | .enableStreamLock | .stopLock _ | .workStreamLock | .workRelock _ => some .stream
  | _ => none

theorem instr_lock {ι : Type} {pc next : Pc} {lock : Lock}
    (h : instr (ι := ι) pc = .lock lock next) : pc.wants = some lock := by
  cases pc with
  | workStreamUnlock streaming => cases streaming <;> cases h
  | _ => cases h <;> rfl

theorem instr_await {ι : Type} {pc next : Pc} {other : Tid ι} (h : instr pc = .await other next) :
    (∃ removing was, pc = .stopWait removing was) ∧ other = none := by
  cases pc with
  | workStreamUnlock streaming => cases streaming <;> cases h
  | stopWait removing was =>
      cases h
      exact ⟨⟨removing, was, rfl⟩, rfl⟩
  | _ => cases h

/-- Who holds the stream lock waits for nothing. -/
theorem free_of_stream {pc : Pc} (h : pc.Holds .stream) :
    pc.wants = none ∧ ∀ removing was, pc ≠ .stopWait removing was := by
  unfold Pc.Holds at h
  cases pc with
  | stopLock removing | stopCancel removing | stopWait removing | stopPut removing =>
      cases removing <;> simp [Pc.held] at h
  | enableArm | enableStreamUnlock | refusedUnlock | stopClear | stopUnlock | workTest
  | workStreamUnlock | workRearm | workUnlock => exact ⟨rfl, fun _ _ h => (by cases h)⟩
  | _ => simp [Pc.held] at h

/-- Who holds the mode lock waits for the stream lock or, in a query, for the active state. -/
theorem waits_of_mode {pc : Pc} (h : pc.Holds .mode) :
    (pc.wants = none ∨ pc.wants = some .stream ∨ ∃ changed, pc = .queryStateLock changed) ∧
      ∀ removing was, pc ≠ .stopWait removing was := by
  unfold Pc.Holds at h
  cases pc with
  | queryStateLock changed => exact ⟨.inr (.inr ⟨changed, rfl⟩), fun _ _ h => (by cases h)⟩
  | workStreamLock | workRelock => exact ⟨.inr (.inl rfl), fun _ _ h => (by cases h)⟩
  | stopLock removing | stopClear removing | stopUnlock removing | stopCancel removing
  | stopWait removing | stopPut removing => cases removing <;> simp [Pc.held] at h
  | queryUpdate | queryModeUnlock | queryFormat | queryStateUnlock | workUpdate | workModeUnlock
  | workTest | workStreamUnlock | workRearm | workUnlock => exact ⟨.inl rfl, fun _ _ h => (by cases h)⟩
  | _ => simp [Pc.held] at h

/-- Who holds the active state waits for the stream lock or, when it disables, for the worker. -/
theorem waits_of_active {pc : Pc} (h : pc.Holds .active) :
    (pc.wants = none ∨ pc.wants = some .stream) ∧ ∀ was, pc ≠ .stopWait true was := by
  unfold Pc.Holds at h
  cases pc with
  | enableStreamLock => exact ⟨.inr rfl, fun _ h => (by cases h)⟩
  | stopLock removing => exact ⟨.inr rfl, fun _ h => (by cases h)⟩
  | stopWait removing was =>
      cases removing with
      | true => simp [Pc.held] at h
      | false => exact ⟨.inl rfl, fun _ h => (by cases h)⟩
  | stopClear | stopUnlock | stopCancel | stopPut | queryFormat | queryStateUnlock | enableTest
  | enableGet | refusedPut | enableMark | stateUnlock | enableArm | enableStreamUnlock
  | refusedUnlock | disableTest | disableMark => exact ⟨.inl rfl, fun _ h => (by cases h)⟩
  | _ => simp [Pc.held] at h

/-- The worker waits for the stream lock or, at its beginning, for the mode lock. -/
theorem waits_of_worker {pc : Pc} (h : pc.OfWorker = true) :
    (pc.wants = none ∨ pc.wants = some .stream ∨ pc = .workModeLock) ∧
      ∀ removing was, pc ≠ .stopWait removing was := by
  cases pc with
  | workModeLock => exact ⟨.inr (.inr rfl), fun _ _ h => (by cases h)⟩
  | workStreamLock | workRelock => exact ⟨.inr (.inl rfl), fun _ _ h => (by cases h)⟩
  | workIdle | workTest | workStreamUnlock | workUpdate | workRearm | workUnlock | workModeUnlock
  | workNotify => exact ⟨.inl rfl, fun _ _ h => (by cases h)⟩
  | _ => cases h

section

variable {ι : Type} {s next : System ι}

/-- The locks have their owners, and the worker is where it belongs. -/
structure Placed (s : System ι) : Prop where
  owned : s.Owned Pc.Holds
  worker : ∀ thread, (s.pc thread).OfWorker = thread.isNone

/-- What a thread waits for. -/
inductive Wait (s : System ι) (thread other : Tid ι) : Prop where
  | lock {lock : Lock} (h : (s.pc thread).wants = some lock) (hother : (s.pc other).Holds lock)
  | worker {removing was : Bool} (h : s.pc thread = .stopWait removing was) (hother : other = none)

theorem waits_cases (howned : s.Owned Pc.Holds) {thread other : Tid ι}
    (h : code.Waits s thread other) : Wait s thread other := by
  cases h with
  | @lock lock target hinstr howner =>
      exact .lock (instr_lock hinstr) ((howned lock other).mp howner)
  | await hinstr hbusy =>
      obtain ⟨⟨removing, was, hpc⟩, rfl⟩ := instr_await hinstr
      exact .worker hpc rfl

/-- A thread on a cycle of waiting threads. -/
abbrev OnCycle (s : System ι) (thread : Tid ι) : Prop :=
  Relation.TransGen (code.Waits s) thread thread

/-- Nobody on a cycle waits for the stream lock. -/
theorem cycle_waits (howned : s.Owned Pc.Holds) {thread : Tid ι} (h : OnCycle s thread) :
    ∃ other, OnCycle s other ∧ Wait s thread other ∧ ¬ (s.pc other).Holds .stream := by
  obtain ⟨other, hwaits, hother⟩ := cycle_next h
  refine ⟨other, hother, waits_cases howned hwaits, fun hstream => ?_⟩
  obtain ⟨hwants, hwait⟩ := free_of_stream hstream
  obtain ⟨last, hlast, _⟩ := cycle_next hother
  cases waits_cases howned hlast with
  | lock h' _ => cases hwants.symm.trans h'
  | worker h' _ => exact hwait _ _ h'

/-- A query holds the mode lock and waits for the active state, `disable_streams` holds the active
state and waits for the worker, and the worker waits for the mode lock. -/
def Tangled (s : System ι) : Prop :=
  ∃ query disable changed was, s.pc (some query) = .queryStateLock changed ∧
    s.pc (some disable) = .stopWait false was ∧ s.pc none = .workModeLock

theorem cycle_of_worker (h : Placed s) (hcycle : OnCycle s none) :
    s.pc none = .workModeLock ∧ ∃ other, OnCycle s other ∧ (s.pc other).Holds .mode := by
  obtain ⟨other, hother, hwait, hstream⟩ := cycle_waits h.owned hcycle
  obtain ⟨hkind, hnot⟩ := waits_of_worker (h.worker none)
  cases hwait with
  | worker hpc _ => exact absurd hpc (hnot _ _)
  | lock hwants hholds =>
      rcases hkind with hnone | hsome | hpc
      · cases hnone.symm.trans hwants
      · cases hsome.symm.trans hwants
        exact absurd hholds hstream
      · rw [hpc] at hwants
        cases hwants
        exact ⟨hpc, other, hother, hholds⟩

theorem cycle_of_mode (howned : s.Owned Pc.Holds) {thread : Tid ι} (hcycle : OnCycle s thread)
    (hholds : (s.pc thread).Holds .mode) :
    (∃ changed, s.pc thread = .queryStateLock changed) ∧
      ∃ other, OnCycle s other ∧ (s.pc other).Holds .active := by
  obtain ⟨other, hother, hwait, hstream⟩ := cycle_waits howned hcycle
  obtain ⟨hkind, hnot⟩ := waits_of_mode hholds
  cases hwait with
  | worker hpc _ => exact absurd hpc (hnot _ _)
  | lock hwants hholds =>
      rcases hkind with hnone | hsome | ⟨changed, hpc⟩
      · cases hnone.symm.trans hwants
      · cases hsome.symm.trans hwants
        exact absurd hholds hstream
      · rw [hpc] at hwants
        cases hwants
        exact ⟨⟨changed, hpc⟩, other, hother, hholds⟩

theorem cycle_of_active (howned : s.Owned Pc.Holds) {thread : Tid ι} (hcycle : OnCycle s thread)
    (hholds : (s.pc thread).Holds .active) :
    (∃ was, s.pc thread = .stopWait false was) ∧ OnCycle s none := by
  obtain ⟨other, hother, hwait, hstream⟩ := cycle_waits howned hcycle
  obtain ⟨hkind, hnot⟩ := waits_of_active hholds
  cases hwait with
  | @worker removing was hpc hnone =>
      subst hnone
      cases removing with
      | true => exact absurd hpc (hnot was)
      | false => exact ⟨⟨was, hpc⟩, hother⟩
  | lock hwants hholds =>
      rcases hkind with hnone | hsome
      · cases hnone.symm.trans hwants
      · cases hsome.symm.trans hwants
        exact absurd hholds hstream

theorem Placed.caller (h : Placed s) {thread : Tid ι} (hpc : (s.pc thread).OfWorker = false) :
    ∃ caller, thread = some caller := by
  rw [h.worker] at hpc
  cases thread with
  | none => cases hpc
  | some caller => exact ⟨caller, rfl⟩

/-- From the worker around the cycle. -/
theorem tangled_of_worker (h : Placed s) (hcycle : OnCycle s none) : Tangled s := by
  obtain ⟨hworker, query, hquery, hmode⟩ := cycle_of_worker h hcycle
  obtain ⟨⟨changed, hchanged⟩, disable, hdisable, hactive⟩ := cycle_of_mode h.owned hquery hmode
  obtain ⟨⟨was, hwas⟩, _⟩ := cycle_of_active h.owned hdisable hactive
  obtain ⟨query, rfl⟩ := h.caller (by rw [hchanged]; rfl)
  obtain ⟨disable, rfl⟩ := h.caller (by rw [hwas]; rfl)
  exact ⟨query, disable, changed, was, hchanged, hwas, hworker⟩

theorem tangled_of_cycle (h : Placed s) {thread : Tid ι} (hcycle : OnCycle s thread) :
    Tangled s := by
  obtain ⟨other, hother, hwait, hstream⟩ := cycle_waits h.owned hcycle
  cases hwait with
  | worker _ hnone =>
      subst hnone
      exact tangled_of_worker h hother
  | @lock lock _ hholds =>
      cases lock with
      | stream => exact absurd hholds hstream
      | active => exact tangled_of_worker h (cycle_of_active h.owned hother hholds).2
      | mode =>
          obtain ⟨_, last, hlast, hactive⟩ := cycle_of_mode h.owned hother hholds
          exact tangled_of_worker h (cycle_of_active h.owned hlast hactive).2

/-- In the tangle each thread waits for the next. -/
theorem waits_of_tangled (howned : s.Owned Pc.Holds) {query disable : ι} {changed was : Bool}
    (hquery : s.pc (some query) = .queryStateLock changed)
    (hdisable : s.pc (some disable) = .stopWait false was) (hworker : s.pc none = .workModeLock) :
    code.Waits s none (some query) ∧ code.Waits s (some query) (some disable) ∧
      code.Waits s (some disable) none := by
  have hmode : s.owner .mode = some (some query) := by
    rw [howned, hquery]
    exact .head _
  have hactive : s.owner .active = some (some disable) := by
    rw [howned, hdisable]
    exact .head _
  have hfirst : (code (ι := ι)).instr (s.pc none) = .lock .mode .workStreamLock := by
    rw [hworker]
    rfl
  have hsecond : (code (ι := ι)).instr (s.pc (some query)) = .lock .active (.queryFormat changed) := by
    rw [hquery]
    rfl
  have hthird : (code (ι := ι)).instr (s.pc (some disable)) = .await none (.stopPut false was) := by
    rw [hdisable]
    rfl
  have hbusy : ¬ Pc.Resting (s.pc none) := by
    rw [hworker]
    decide
  exact ⟨.lock hfirst hmode, .lock hsecond hactive, .await hthird hbusy⟩

/-- The tangle stays for ever. -/
theorem tangled_step [DecidableEq ι] (howned : s.Owned Pc.Holds) (h : Tangled s)
    (hstep : code.Steps s next) : Tangled next := by
  obtain ⟨thread, hstep⟩ := hstep
  have hstays : ∀ other last, code.Waits s other last → next.pc other = s.pc other := by
    intro other last hwaits
    refine step_other hstep fun heq => ?_
    subst heq
    exact waits_stuck hwaits hstep
  obtain ⟨query, disable, changed, was, hquery, hdisable, hworker⟩ := h
  obtain ⟨hfirst, hsecond, hthird⟩ := waits_of_tangled howned hquery hdisable hworker
  exact ⟨query, disable, changed, was, (hstays _ _ hsecond).trans hquery,
    (hstays _ _ hthird).trans hdisable, (hstays _ _ hfirst).trans hworker⟩

/-- Whatever a call or the worker does next can be done, unless it waits. -/
theorem act_possible {pc : Pc} (hbusy : ¬ pc.Resting) {action : Data → Data → Pc → Prop}
    (h : instr (ι := ι) pc = .act action) (data : Data) : ∃ data' target, action data data' target := by
  cases pc with
  | idle => exact absurd (.inl rfl) hbusy
  | workIdle => exact absurd (.inr rfl) hbusy
  | queryGet | enableGet =>
      cases h
      exact ⟨_, _, .inl ⟨rfl, rfl⟩⟩
  | queryUpdate | workUpdate =>
      cases h
      exact ⟨_, _, ⟨0, ⟨0, 0⟩, ⟨0, 0⟩, ⟨0, 0⟩, 0⟩, rfl, rfl⟩
  | workStreamUnlock streaming => cases streaming <;> cases h
  | queryFormat | queryPut | queryNotify | enableTest | enableArm | refusedPut | enableMark
  | disableTest | stopClear | stopCancel | stopPut | disableMark | workTest | workRearm | workNotify =>
      cases h
      exact ⟨_, _, rfl, rfl⟩
  | _ => cases h

/-- When nothing in progress can go on, there is a tangle. -/
theorem tangled_of_stuck [DecidableEq ι] [Finite ι] (h : Placed s) {thread : Tid ι}
    (hbusy : ¬ (s.pc thread).Resting)
    (hstuck : ∀ thread next, ¬ (s.pc thread).Resting → ¬ code.Step thread s next) : Tangled s := by
  obtain ⟨thread, hcycle⟩ := exists_cycle disciplined h.owned hbusy fun other hother => by
    refine (step_or_waits code s other fun action haction => ?_).resolve_left ?_
    · exact act_possible hother haction s.data
    · rintro ⟨next, hstep⟩
      exact hstuck other next hother hstep
  exact tangled_of_cycle h hcycle

end

/-! ## Deadlock -/

section

variable {ι : Type} {mode : Mode} {s next : System ι}

theorem placed_start : Placed (start mode : System ι) where
  owned lock thread := by
    refine ⟨fun howner => (by cases howner), fun hholds => ?_⟩
    cases thread with
    | none => exact absurd hholds (holds_resting (.inr rfl))
    | some caller => exact absurd hholds (holds_resting (.inl rfl))
  worker thread := by cases thread <;> rfl

variable [DecidableEq ι]

theorem placed_step (h : Placed s) (hstep : code.Steps s next) : Placed next := by
  obtain ⟨thread, hstep⟩ := hstep
  refine ⟨owned_step disciplined h.owned hstep, fun other => ?_⟩
  obtain ⟨pc, hpc, hmoves⟩ := step_moves hstep
  rw [hpc]
  by_cases heq : other = thread
  · subst heq
    rw [Function.update_self, moves_of_worker hmoves]
    exact h.worker other
  · rw [Function.update_of_ne heq]
    exact h.worker other

theorem Reached.placed (h : Reached mode s) : Placed s := by
  have hkept : Preserved (code (ι := ι)).Steps Placed := fun _ _ hs hstep => placed_step hs hstep
  exact hkept.reachable placed_start h

/-- A run that starts with a step. -/
theorem run_step (thread : Tid ι) {last : System ι} (h : code.Step thread s next)
    (hrest : Relation.ReflTransGen code.Steps next last) :
    Relation.ReflTransGen code.Steps s last :=
  .head ⟨thread, h⟩ hrest

/-- A mode of four lanes without a signal. -/
def initialMode : Mode := ⟨0, 0, 0, 0, 0, 0, 4, 0, 0⟩

/-- A query of one thread and `disable_streams` of another meet the worker. -/
theorem tangle_reached : ∃ s : System Bool, Reached initialMode s ∧ Tangled s := by
  refine ⟨?_, ?_, ?_⟩
  rotate_left
  · -- One thread enables the stream.
    refine run_step (some true) (.act rfl ⟨rfl, .inr (.inl rfl)⟩) ?_
    refine run_step (some true) (.lock rfl rfl) ?_
    refine run_step (some true) (.act rfl ⟨rfl, rfl⟩) ?_
    refine run_step (some true) (.act rfl (.inl ⟨rfl, rfl⟩)) ?_
    refine run_step (some true) (.lock rfl rfl) ?_
    refine run_step (some true) (.act rfl ⟨rfl, rfl⟩) ?_
    refine run_step (some true) (.unlock rfl) ?_
    refine run_step (some true) (.act rfl ⟨rfl, rfl⟩) ?_
    refine run_step (some true) (.unlock rfl) ?_
    -- The other one queries the timings.
    refine run_step (some false) (.act rfl ⟨rfl, .inl rfl⟩) ?_
    refine run_step (some false) (.act rfl (.inl ⟨rfl, rfl⟩)) ?_
    refine run_step (some false) (.lock rfl rfl) ?_
    refine run_step (some false) (.act rfl ⟨⟨0, ⟨0, 0⟩, ⟨0, 0⟩, ⟨0, 0⟩, 0⟩, rfl, rfl⟩) ?_
    -- The work starts, and the stream is disabled.
    refine run_step none (.act rfl ⟨rfl, rfl, rfl⟩) ?_
    refine run_step (some true) (.act rfl ⟨rfl, .inr (.inr (.inl rfl))⟩) ?_
    refine run_step (some true) (.lock rfl rfl) ?_
    refine run_step (some true) (.act rfl ⟨rfl, rfl⟩) ?_
    refine run_step (some true) (.lock rfl rfl) ?_
    refine run_step (some true) (.act rfl ⟨rfl, rfl⟩) ?_
    refine run_step (some true) (.unlock rfl) ?_
    refine run_step (some true) (.act rfl ⟨rfl, rfl⟩) ?_
    exact .refl
  · exact ⟨false, true, false, true, rfl, rfl, rfl⟩

/-- In every reachable state of any number of calls, threads wait for each other in a cycle exactly
in the tangle of a query, `disable_streams` and the worker. The tangle stays for ever; in every
other state with something in progress something can go on. -/
theorem deadlock_iff [Finite ι] (h : Reached mode s) :
    ((∃ thread, Relation.TransGen (code.Waits s) thread thread) ↔ Tangled s) ∧
    (Tangled s → ∀ next, Relation.ReflTransGen code.Steps s next → Tangled next) ∧
    ((∃ thread, ¬ (s.pc thread).Resting) → ¬ Tangled s →
      ∃ thread next, ¬ (s.pc thread).Resting ∧ code.Step thread s next) := by
  have hplaced := h.placed
  refine ⟨⟨fun ⟨_, hcycle⟩ => tangled_of_cycle hplaced hcycle, fun htangled => ?_⟩, ?_, ?_⟩
  · obtain ⟨query, disable, changed, was, hquery, hdisable, hworker⟩ := htangled
    obtain ⟨hfirst, hsecond, hthird⟩ := waits_of_tangled hplaced.owned hquery hdisable hworker
    exact ⟨none, .head hfirst (.head hsecond (.single hthird))⟩
  · intro htangled next hrun
    have hkept : Preserved code.Steps fun s : System ι => Placed s ∧ Tangled s :=
      fun s next hs hstep => ⟨placed_step hs.1 hstep, tangled_step hs.1.owned hs.2 hstep⟩
    exact (hkept.reachable ⟨hplaced, htangled⟩ hrun).2
  · rintro ⟨thread, hbusy⟩ hnot
    by_contra hnone
    refine hnot (tangled_of_stuck hplaced hbusy fun other next hother hstep => hnone ?_)
    exact ⟨other, next, hother, hstep⟩

/-- The cycle of the reached tangle. -/
theorem deadlock_reached : ∃ s : System Bool, Reached initialMode s ∧
    ∃ thread, Relation.TransGen (code.Waits s) thread thread := by
  obtain ⟨s, hreached, htangled⟩ := tangle_reached
  exact ⟨s, hreached, (deadlock_iff hreached).1.mpr htangled⟩

end

end NanoKvm.Lt6911
