import NanoKvm.Exec.Locks

/-!
# The LT6911UXC receiver

The UXC variant of the HDMI receiver has no hotplug interrupt: a delayed work polls its state while
it streams, and timing queries refresh it. The entry points as threads with locks, one control
point for each access to what they share. The V4L2 core calls `enable_streams` and
`disable_streams` with the active state locked, and only to change what is enabled.
-/

namespace NanoKvm.Lt6911

open Exec

/-! ## The state of the chip -/

/-- `struct lt6911uxe_mode` -/
structure Mode where
  width : Nat
  height : Nat
  htotal : Nat
  vtotal : Nat
  code : Nat
  fps : Nat
  lanes : Nat
  linkFreq : Nat
  pixelClk : Nat
  deriving DecidableEq, Repr

/-- `LT6911UXC_HDMI_STABLE` -/
def hdmiStable : Nat := 0x55

/-- `LT6911_DEFAULT_FPS` -/
def defaultFps : Nat := 60

/-- `ENOLINK` and `EINVAL` -/
def enoLink : Int := 67
def eInval : Int := 22

/-- What a read of a register returns: an error or zero, and the value. -/
structure Answer where
  err : Int
  value : Nat
  deriving DecidableEq, Repr

/-- What the chip answers to the accesses of one update. -/
structure Answers where
  enable : Int
  status : Answer
  width : Answer
  height : Answer
  disable : Int
  deriving DecidableEq, Repr

/-- `cci_read` with an accumulated error: after an error nothing is read. -/
def cciRead (ret : Int) (answer : Answer) : Answer := if ret ≠ 0 then ⟨ret, 0⟩ else answer

/-- The mode of a stable signal. -/
def Mode.stable (mode : Mode) (width height : Nat) : Mode :=
  let pixelClk := (width + 160) * (height + 45) * defaultFps
  { mode with
    width := width
    height := height
    fps := defaultFps
    htotal := width + 160
    vtotal := height + 45
    pixelClk := pixelClk
    linkFreq := pixelClk * 16 / mode.lanes }

/-- The mode without a signal. -/
def Mode.lost (mode : Mode) : Mode :=
  { mode with height := 0, width := 0, htotal := 0, vtotal := 0, fps := 0, linkFreq := 0, pixelClk := 0 }

/-- The part of `lt6911uxe_status_update` up to `uxc_disable`: an error code, and the mode that is
compared with `cur_mode`. -/
def detect (answers : Answers) (cur : Mode) : Int × Option Mode :=
  let status := cciRead answers.enable answers.status
  if status.err ≠ 0 then (status.err, none)
  else if status.value = hdmiStable then
    let width := cciRead 0 answers.width
    let height := cciRead width.err answers.height
    if height.err ≠ 0 then (height.err, none)
    else if width.value = 0 ∨ width.value > 3840 ∨ height.value = 0 ∨ height.value > 2160 then
      (-eInval, none)
    else (0, some (cur.stable width.value height.value))
  else (-enoLink, some cur.lost)

/-- What `lt6911uxe_status_update` returns and changes for a UXC. -/
structure Update where
  ret : Int
  mode : Mode
  changed : Bool

/-- `lt6911uxe_status_update` for a UXC. -/
def statusUpdate (answers : Answers) (cur : Mode) : Update :=
  let found := detect answers cur
  let ret := if found.1 = 0 ∧ answers.disable ≠ 0 then answers.disable else found.1
  match found.2 with
  | some mode =>
      -- `lt6911uxe_mode_equal` compares all fields
      if cur = mode then ⟨ret, cur, false⟩ else ⟨ret, mode, true⟩
  | none => ⟨ret, cur, false⟩

/-- The flag says whether the mode was changed. -/
theorem status_update_changed (answers : Answers) (cur : Mode) :
    (statusUpdate answers cur).changed = true ↔ (statusUpdate answers cur).mode ≠ cur := by
  unfold statusUpdate
  dsimp only
  split
  · split
    · exact ⟨fun h => (by cases h), fun h => absurd rfl h⟩
    · rename_i hne
      exact ⟨fun _ heq => hne heq.symm, fun _ => rfl⟩
  · exact ⟨fun h => (by cases h), fun h => absurd rfl h⟩

/-! ## The threads -/

/-- `mode_lock`, `stream_lock` and the lock of the active state. -/
inductive Lock where
  | mode | stream | active
  deriving DecidableEq, Repr

/-- What the threads share. `enabled` is the V4L2 core's; `refs` counts the references that the
driver takes to keep the chip resumed, `changes` and `events` what happened to `cur_mode` and what
was told of it. -/
structure Data where
  uxcStreaming : Bool
  removing : Bool
  armed : Bool
  enabled : Bool
  curMode : Mode
  refs : Nat
  changes : Nat
  events : Nat

/-- Where a thread is. -/
inductive Pc where
  | idle
  -- `lt6911uxe_query_dv_timings` and `lt6911uxe_refresh_uxc_state`
  | queryGet | queryModeLock | queryUpdate
  | queryStateLock (changed : Bool) | queryFormat (changed : Bool) | queryStateUnlock (changed : Bool)
  | queryModeUnlock (changed : Bool) | queryPut (changed : Bool) | queryNotify (changed : Bool)
  -- `lt6911uxe_enable_streams` under the core
  | enableStateLock | enableTest | enableGet | enableStreamLock | enableArm | enableStreamUnlock
  | refusedUnlock | refusedPut | enableMark | stateUnlock
  -- `lt6911uxe_disable_streams` under the core, and `lt6911uxe_remove`
  | disableStateLock | disableTest | stopLock (removing : Bool) | stopClear (removing : Bool)
  | stopUnlock (removing was : Bool) | stopCancel (removing was : Bool)
  | stopWait (removing was : Bool) | stopPut (removing was : Bool) | disableMark
  -- `lt6911uxe_uxc_poll_work`
  | workIdle | workModeLock | workStreamLock | workTest | workStreamUnlock (streaming : Bool)
  | workUpdate | workRelock (changed : Bool) | workRearm (changed : Bool)
  | workUnlock (changed : Bool) | workModeUnlock (changed : Bool) | workNotify (changed : Bool)
  deriving DecidableEq, Repr

/-- The calls are numbered; the worker has no number. -/
abbrev Tid (ι : Type) : Type := Option ι

/-- `lt6911uxe_status_update` as an action. -/
def Data.update (data : Data) (answers : Answers) : Data :=
  let found := statusUpdate answers data.curMode
  { data with
    curMode := found.mode
    changes := if found.mode = data.curMode then data.changes else data.changes + 1 }

/-- `v4l2_subdev_notify_event` when the mode has changed. -/
def Data.notify (data : Data) (changed : Bool) : Data :=
  { data with events := data.events + changed.toNat }

/-- `pm_runtime_resume_and_get` and `pm_runtime_put` -/
def Data.get (data : Data) : Data := { data with refs := data.refs + 1 }
def Data.put (data : Data) : Data := { data with refs := data.refs - 1 }

/-- What `lt6911uxe_stop_uxc_polling` does under `stream_lock`. -/
def Data.clear (data : Data) (removing : Bool) : Data :=
  { data with removing := data.removing || removing, uxcStreaming := false }

/-- What `lt6911uxe_enable_streams` does under `stream_lock`. -/
def Data.arm (data : Data) : Data := { data with uxcStreaming := true, armed := true }

variable {ι : Type}

/-- The next control point is known. -/
def goto (data : Data) (next : Pc) (data' : Data) (next' : Pc) : Prop := data' = data ∧ next' = next

/-- The code of the entry points and of the worker. -/
def instr : Pc → Instr (Tid ι) Pc Lock Data
  | .idle => .act fun data data' next =>
      data' = data ∧ (next = .queryGet ∨ next = .enableStateLock ∨ next = .disableStateLock ∨
        next = .stopLock true)
  -- a query
  | .queryGet => .act fun data data' next =>
      goto data.get .queryModeLock data' next ∨ goto data .idle data' next
  | .queryModeLock => .lock .mode .queryUpdate
  | .queryUpdate => .act fun data data' next => ∃ answers,
      let found := statusUpdate answers data.curMode
      goto (data.update answers)
        (if found.ret ≠ 0 ∧ found.ret ≠ -enoLink then .queryModeUnlock found.changed
          else .queryStateLock found.changed) data' next
  | .queryStateLock changed => .lock .active (.queryFormat changed)
  -- the timings and the format concern nothing that is modelled
  | .queryFormat changed => .act fun data => goto data (.queryStateUnlock changed)
  | .queryStateUnlock changed => .unlock .active (.queryModeUnlock changed)
  | .queryModeUnlock changed => .unlock .mode (.queryPut changed)
  | .queryPut changed => .act fun data => goto data.put (.queryNotify changed)
  | .queryNotify changed => .act fun data => goto (data.notify changed) .idle
  -- enabling
  | .enableStateLock => .lock .active .enableTest
  | .enableTest => .act fun data => goto data (if data.enabled then .stateUnlock else .enableGet)
  | .enableGet => .act fun data data' next =>
      goto data.get .enableStreamLock data' next ∨ goto data .stateUnlock data' next
  | .enableStreamLock => .lock .stream .enableArm
  | .enableArm => .act fun data =>
      goto (if data.removing then data else data.arm)
        (if data.removing then .refusedUnlock else .enableStreamUnlock)
  | .enableStreamUnlock => .unlock .stream .enableMark
  | .refusedUnlock => .unlock .stream .refusedPut
  | .refusedPut => .act fun data => goto data.put .stateUnlock
  | .enableMark => .act fun data => goto { data with enabled := true } .stateUnlock
  | .stateUnlock => .unlock .active .idle
  -- disabling and removing
  | .disableStateLock => .lock .active .disableTest
  | .disableTest => .act fun data =>
      goto data (if data.enabled then .stopLock false else .stateUnlock)
  | .stopLock removing => .lock .stream (.stopClear removing)
  | .stopClear removing => .act fun data =>
      goto (data.clear removing) (.stopUnlock removing data.uxcStreaming)
  | .stopUnlock removing was => .unlock .stream (.stopCancel removing was)
  -- `cancel_delayed_work_sync` takes the pending work back and waits for the running one
  | .stopCancel removing was => .act fun data =>
      goto { data with armed := false } (.stopWait removing was)
  | .stopWait removing was => .await none (.stopPut removing was)
  | .stopPut removing was => .act fun data =>
      goto (if was then data.put else data) (if removing then .idle else .disableMark)
  | .disableMark => .act fun data => goto { data with enabled := false } .stateUnlock
  -- the worker
  | .workIdle => .act fun data data' next =>
      data.armed = true ∧ goto { data with armed := false } .workModeLock data' next
  | .workModeLock => .lock .mode .workStreamLock
  | .workStreamLock => .lock .stream .workTest
  | .workTest => .act fun data => goto data (.workStreamUnlock data.uxcStreaming)
  | .workStreamUnlock true => .unlock .stream .workUpdate
  | .workStreamUnlock false => .unlock .stream (.workModeUnlock false)
  | .workUpdate => .act fun data data' next => ∃ answers,
      goto (data.update answers) (.workRelock (statusUpdate answers data.curMode).changed)
        data' next
  | .workRelock changed => .lock .stream (.workRearm changed)
  | .workRearm changed => .act fun data =>
      goto (if data.uxcStreaming then { data with armed := true } else data) (.workUnlock changed)
  | .workUnlock changed => .unlock .stream (.workModeUnlock changed)
  | .workModeUnlock changed => .unlock .mode (.workNotify changed)
  | .workNotify changed => .act fun data => goto (data.notify changed) .workIdle

/-- No call is in progress, or the worker does not run. -/
def Pc.Resting (pc : Pc) : Prop := pc = .idle ∨ pc = .workIdle

instance (pc : Pc) : Decidable pc.Resting := inferInstanceAs (Decidable (_ ∨ _))

/-- The threads. -/
def code : ThreadCode (Tid ι) Pc Lock Data where
  instr := instr
  resting := Pc.Resting

/-- The threads of any number of calls, and the worker. -/
abbrev System (ι : Type) : Type := Threads (Tid ι) Pc Lock Data

/-- After probe. -/
def start (mode : Mode) : System ι where
  pc
    | some _ => .idle
    | none => .workIdle
  owner := fun _ => none
  data := {
    uxcStreaming := false
    removing := false
    armed := false
    enabled := false
    curMode := mode
    refs := 0
    changes := 0
    events := 0 }

/-- The states of all interleavings. -/
def Reached [DecidableEq ι] (mode : Mode) (s : System ι) : Prop :=
  Relation.ReflTransGen code.Steps (start mode) s

/-! ## Who holds which lock -/

/-- The locks that are held at a control point. -/
def Pc.held : Pc → List Lock
  | .queryUpdate | .queryStateLock _ | .queryModeUnlock _ => [.mode]
  | .queryFormat _ | .queryStateUnlock _ => [.mode, .active]
  | .enableTest | .enableGet | .enableStreamLock | .refusedPut | .enableMark | .stateUnlock => [.active]
  | .enableArm | .enableStreamUnlock | .refusedUnlock => [.active, .stream]
  | .disableTest | .disableMark => [.active]
  | .stopLock removing => if removing then [] else [.active]
  | .stopClear removing | .stopUnlock removing _ => if removing then [.stream] else [.active, .stream]
  | .stopCancel removing _ | .stopWait removing _ | .stopPut removing _ =>
      if removing then [] else [.active]
  | .workStreamLock | .workUpdate | .workRelock _ | .workModeUnlock _ => [.mode]
  | .workTest | .workStreamUnlock _ | .workRearm _ | .workUnlock _ => [.mode, .stream]
  | _ => []

/-- The lock is held at the control point. -/
def Pc.Holds (pc : Pc) (lock : Lock) : Prop := lock ∈ pc.held

instance (pc : Pc) (lock : Lock) : Decidable (pc.Holds lock) :=
  inferInstanceAs (Decidable (lock ∈ pc.held))

end NanoKvm.Lt6911
