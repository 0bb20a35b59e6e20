import NanoKvm.Firmware.Activation

/-!
# The leases of the hardware

`HardwareLeases`, the `LeaseActivator` that the control task passes to `handle`. What
the peripherals answer is an argument: whether the LCD service authorizes, and the
self-test of each timer. Read `hardware_failure` for the results a failed lease can
report.
-/

namespace NanoKvm.Firmware

open Contract

/-- `SelfTestError` of `dw_apb_timer.rs`. -/
inductive SelfTestError where
  | invalidContract
  | clockXtalMiscDisabled
  | clockChannelDisabled
  | timerResetAsserted
  | channelResetAsserted
  | wrongClockSource
  | interruptRegistration
  | timeout
  deriving DecidableEq, Repr

/-- `timer_failure` -/
def timerFailure (error : SelfTestError) (flag : UInt32) : LeaseFailure where
  result :=
    match error with
    | .clockXtalMiscDisabled | .clockChannelDisabled | .timerResetAsserted
    | .channelResetAsserted | .wrongClockSource => activationResultPreconditionFailed
    | .interruptRegistration => activationResultIrqInstallFailed
    | .timeout => activationResultSelfTestTimeout
    | .invalidContract => activationResultInternalFailure
  flag := flag

/-- The status flag of a failed lease. -/
def failureFlag : Peripheral → UInt32
  | .picoclawLcd => flagPicoclawLcdFailed
  | .timer4 => flagTimer4SelfTestFailed
  | .timer5 => flagTimer5SelfTestFailed
  | .timer6 => flagTimer6SelfTestFailed
  | .timer7 => flagTimer7SelfTestFailed

/-- `activate_selected_timers`: in ascending order, up to the first failure. -/
def activateSelectedTimers (activateOne : Peripheral → Except SelfTestError Unit) :
    List Peripheral → Except LeaseFailure Unit
  | [] => .ok ()
  | timer :: rest =>
      match activateOne timer with
      | .error error => .error (timerFailure error (failureFlag timer))
      | .ok () => activateSelectedTimers activateOne rest

/-- `HardwareLeases::activate` for one profile. The base profile has no lease to activate and
fails closed. -/
def hardwareActivate (profile : Profile) (authorize : Except Unit Unit)
    (selfTest : Peripheral → Except SelfTestError Unit) : Except LeaseFailure Unit :=
  match profile with
  | .picoclawLcd =>
      match authorize with
      | .ok () => .ok ()
      | .error () => .error
          { result := activationResultPreconditionFailed, flag := flagPicoclawLcdFailed }
  | .timers false false false false =>
      .error { result := activationResultInternalFailure, flag := 0 }
  | .timers timer4 timer5 timer6 timer7 =>
      activateSelectedTimers selfTest (Profile.timers timer4 timer5 timer6 timer7).peripherals

/-- The outcomes that the hardware leases of a profile can have. -/
def HardwareOutcome (profile : Profile) (lease : Except LeaseFailure Unit) : Prop :=
  ∃ authorize selfTest, lease = hardwareActivate profile authorize selfTest

/-- The results with which a lease fails. -/
def IsLeaseFault (result : UInt32) : Prop :=
  activationResultPreconditionFailed ≤ result ∧ result ≤ activationResultInternalFailure

/-- Every self-test error is reported as a lease fault. -/
theorem timer_failure_fault (error : SelfTestError) (flag : UInt32) :
    IsLeaseFault (timerFailure error flag).result := by
  dsimp only [IsLeaseFault, timerFailure]
  cases error <;> decide

/-- A failure of the selected timers is the failure of one of them. -/
theorem activate_selected_timers_fault {activateOne : Peripheral → Except SelfTestError Unit}
    {timers : List Peripheral} {failure : LeaseFailure}
    (h : activateSelectedTimers activateOne timers = .error failure) :
    IsLeaseFault failure.result := by
  induction timers with
  | nil => cases h
  | cons timer rest ih =>
      unfold activateSelectedTimers at h
      cases hone : activateOne timer with
      | error error =>
          rw [hone] at h
          cases h
          exact timer_failure_fault error (failureFlag timer)
      | ok _ =>
          rw [hone] at h
          exact ih h

/-- A hardware lease fails only with a lease fault. -/
theorem hardware_failure {profile : Profile} {failure : LeaseFailure}
    (h : HardwareOutcome profile (.error failure)) : IsLeaseFault failure.result := by
  obtain ⟨authorize, selfTest, h⟩ := h
  unfold hardwareActivate at h
  split at h
  · split at h
    · cases h
    · cases h
      exact ⟨by decide, by decide⟩
  · cases h
    exact ⟨by decide, by decide⟩
  · exact activate_selected_timers_fault h.symm

end NanoKvm.Firmware
