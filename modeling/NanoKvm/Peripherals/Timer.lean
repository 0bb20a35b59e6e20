import Mathlib.Algebra.Group.Nat.Defs
import NanoKvm.Exec.Traces
import NanoKvm.Firmware.Leases

/-!
# The timer self-test

`dw_apb_timer.rs`: the self-test of one leased channel as a program of register accesses and calls
of its runtime, the interrupt handler of the channel, and `activate_selected_timers` of
`activation.rs` as a program of calls of `activate_one`. `TimerRun` is a run of the self-test with
the handler where its interrupt is installed.
-/

namespace NanoKvm.Timer

open Exec Firmware Contract

/-- `CONTROL_STOPPED_MASKED`: the bit of the interrupt mask. -/
def stoppedMasked : UInt32 := 0x4

/-- `CONTROL_RUNNING_UNMASKED`: the bits of the enable and of the user-defined count. -/
def runningUnmasked : UInt32 := 0x1 ||| 0x2

/-- `CHANNEL_SIZE` -/
def channelSize : UInt64 := 0x14

structure Precondition where
  address : UInt64
  mask : UInt32
  expected : UInt32
  deriving DecidableEq, Repr

structure TimerConfig where
  channel : UInt32
  irq : UInt32
  bankAddress : UInt64
  bankSize : UInt64
  loadAddress : UInt64
  currentAddress : UInt64
  controlAddress : UInt64
  eoiAddress : UInt64
  statusAddress : UInt64
  clockXtalMisc : Precondition
  clockChannel : Precondition
  resetTimerIp : Precondition
  resetChannel : Precondition
  clockSource : Precondition
  periodTicks : UInt32
  timeoutRtosTicks : UInt32
  deriving DecidableEq, Repr

/-- `checked_add` -/
def checkedAdd (first second : UInt64) : Option UInt64 :=
  if first.toNat + second.toNat < 2 ^ 64 then some (first + second) else none

/-- A mask that is not empty and has the expected bits in it. -/
def Precondition.sound (condition : Precondition) : Bool :=
  condition.mask != 0 && condition.expected &&& ~~~condition.mask == 0

/-- `valid` -/
def TimerConfig.valid (config : TimerConfig) : Bool :=
  match checkedAdd config.bankAddress config.bankSize, checkedAdd config.loadAddress channelSize,
      checkedAdd config.bankAddress (config.channel.toUInt64 * channelSize) with
  | some bankEnd, some channelEnd, some expectedLoadAddress =>
      decide (4 ≤ config.channel) && decide (config.channel ≤ 7) &&
      config.irq == config.channel + 51 &&
      decide (channelSize ≤ config.bankSize) &&
      config.loadAddress != 0 &&
      config.loadAddress % 4 == 0 &&
      decide (config.bankAddress ≤ config.loadAddress) &&
      config.loadAddress == expectedLoadAddress &&
      decide (channelEnd ≤ bankEnd) &&
      config.currentAddress == config.loadAddress + 0x04 &&
      config.controlAddress == config.loadAddress + 0x08 &&
      config.eoiAddress == config.loadAddress + 0x0c &&
      config.statusAddress == config.loadAddress + 0x10 &&
      config.resetTimerIp.address == config.resetChannel.address &&
      config.clockXtalMisc.address % 4 == 0 &&
      config.clockChannel.address % 4 == 0 &&
      config.resetTimerIp.address % 4 == 0 &&
      config.clockSource.address % 4 == 0 &&
      config.clockXtalMisc.sound && config.clockChannel.sound && config.resetTimerIp.sound &&
      config.resetChannel.sound && config.clockSource.sound &&
      config.periodTicks != 0 &&
      config.timeoutRtosTicks != 0
  | _, _, _ => false

/-- `Register` -/
inductive Register where
  | clockXtalMisc
  | clockChannel
  | resetTimer
  | timerSource
  | load
  | control
  | eoi
  deriving DecidableEq, Repr

/-- The operations of `TimerIo` and `TimerRuntime`, and the store of the handler to the flag. -/
inductive Op where
  | read (register : Register)
  | write (register : Register) (value : UInt32)
  | resetFired
  | fired
  | setFired
  | irqInstall
  | irqDisable
  | ticks
  | delay (ticks : UInt32)
  deriving DecidableEq, Repr

/-- What they return. -/
def Op.Ret : Op → Type
  | .read _ | .ticks => UInt32
  | .fired => Bool
  | .irqInstall => Int32
  | _ => Unit

/-- A program of the self-test or of the handler. -/
abbrev Io (α : Type) : Type := Prog Op Op.Ret α

/-- An operation with what it returned. -/
abbrev IoEvent : Type := Event Op Op.Ret

def io (operation : Op) : Io operation.Ret := Prog.perform operation

/-! ## The self-test -/

def Precondition.met (condition : Precondition) (value : UInt32) : Bool :=
  value &&& condition.mask == condition.expected

/-- `validate_platform` -/
def validatePlatform (config : TimerConfig) : Io (Except SelfTestError Unit) :=
  if !config.valid then pure (.error .invalidContract)
  else do
    let xtal : UInt32 ← io (.read .clockXtalMisc)
    if !config.clockXtalMisc.met xtal then pure (.error .clockXtalMiscDisabled)
    else do
      let channel : UInt32 ← io (.read .clockChannel)
      if !config.clockChannel.met channel then pure (.error .clockChannelDisabled)
      else do
        let reset : UInt32 ← io (.read .resetTimer)
        if !config.resetTimerIp.met reset then pure (.error .timerResetAsserted)
        else if !config.resetChannel.met reset then pure (.error .channelResetAsserted)
        else do
          let source : UInt32 ← io (.read .timerSource)
          if !config.clockSource.met source then pure (.error .wrongClockSource)
          else pure (.ok ())

def prepare (config : TimerConfig) : Io Unit := do
  io (.write .control stoppedMasked)
  let _ ← io (.read .eoi)
  io (.write .load config.periodTicks)

/-- `acknowledge_and_stop` -/
def acknowledgeAndStop : Io Unit := do
  let _ ← io (.read .eoi)
  io (.write .control stoppedMasked)

/-- `stop_and_clear` -/
def stopAndClear : Io Unit := do
  io (.write .control stoppedMasked)
  let _ ← io (.read .eoi)
  pure ()

/-- `deadline_reached` -/
def deadlineReached (now deadline : UInt32) : Bool := decide (0 ≤ (now - deadline).toInt32)

/-- The polling loop, with the polls that remain. -/
def poll (deadline : UInt32) : Nat → Io Bool
  | 0 => do
      let fired : Bool ← io .fired
      if fired then pure true
      else do
        let _ ← io .ticks
        pure false
  | remaining + 1 => do
      let fired : Bool ← io .fired
      if fired then pure true
      else do
        let now : UInt32 ← io .ticks
        if deadlineReached now deadline then pure false
        else do
          io (.delay 1)
          poll deadline remaining

/-- `saturating_add` of one. -/
def remainingPolls (config : TimerConfig) : Nat := min (config.timeoutRtosTicks.toNat + 1) (2 ^ 32 - 1)

/-- `self_test_with` -/
def selfTestWith (config : TimerConfig) : Io (Except SelfTestError Unit) := do
  match ← validatePlatform config with
  | .error error => pure (.error error)
  | .ok () => do
      io .resetFired
      prepare config
      let installed : Int32 ← io .irqInstall
      if installed ≠ 0 then do
        stopAndClear
        pure (.error .interruptRegistration)
      else do
        io (.write .control runningUnmasked)
        let now : UInt32 ← io .ticks
        let passed ← poll (now + config.timeoutRtosTicks) (remainingPolls config)
        stopAndClear
        io .irqDisable
        pure (if passed then .ok () else .error .timeout)

/-- `self_test` -/
def selfTest (config : TimerConfig) : Io (Except SelfTestError Unit) :=
  if !config.valid then pure (.error .invalidContract) else selfTestWith config

/-! ## Interrupts -/

/-- `c906l_timer_interrupt` for the channel. -/
def interrupt : Io Unit := do
  acknowledgeAndStop
  io .setFired

/-- An operation of the task or of the handler. -/
inductive TimerEvent where
  | task (event : IoEvent)
  | handler (event : IoEvent)

/-- `irq_install` returned zero. -/
def succeeded (status : Int32) : Bool := status == 0

/-- Whether the interrupt is installed after an operation of the task. -/
def installedAfter : IoEvent → Bool → Bool
  | ⟨.irqInstall, status⟩, installed => succeeded status || installed
  | ⟨.irqDisable, _⟩, _ => false
  | _, installed => installed

/-- A run of the task, with the handler run between its operations while it is installed. -/
inductive TimerRun {α : Type} : Bool → Io α → List TimerEvent → α → Prop where
  | pure (installed : Bool) (value : α) : TimerRun installed (.pure value) [] value
  | task {installed : Bool} {operation : Op} {rest : operation.Ret → Io α} {result : operation.Ret}
      {events : List TimerEvent} {value : α}
      (h : TimerRun (installedAfter ⟨operation, result⟩ installed) (rest result) events value) :
      TimerRun installed (.op operation rest) (.task ⟨operation, result⟩ :: events) value
  | interrupt {program : Io α} {handled : List IoEvent} {events : List TimerEvent} {value : α}
      (hhandled : interrupt.Trace handled ()) (h : TimerRun true program events value) :
      TimerRun true program (handled.map .handler ++ events) value

/-! ## The selected timers -/

/-- `activate_selected_timers`: a program of calls of `activate_one`. -/
def activateSelectedTimers :
    List Peripheral → Prog Peripheral (fun _ => Except SelfTestError Unit) (Except LeaseFailure Unit)
  | [] => pure (.ok ())
  | timer :: rest => do
      match ← Prog.perform timer with
      | .error error => pure (.error (timerFailure error (failureFlag timer)))
      | .ok () => activateSelectedTimers rest

end NanoKvm.Timer
