import Mathlib.Algebra.Order.Ring.Nat
import Mathlib.Tactic.Common
import NanoKvm.Exec.Indices
import NanoKvm.Exec.Registers

/-!
# The PWM driver

`cv1800_pwm_apply` turns nanoseconds into cycles by rounding down, `cv1800_pwm_get_state` turns
cycles into nanoseconds by rounding to the closest. `read_back_iff` says when a state that was
read back can be applied again without moving a register.
-/

namespace NanoKvm.Pwm

open Exec

/-! ## The driver -/

/-- `CV1800_PWM_NUM_CHANNELS` channels, by `hwpwm`. -/
abbrev Channel : Type := Fin 4

/-- `CV1800_PWM_HLPERIOD` -/
def hlperiod (channel : Channel) : Nat := 0x00 + channel * 8

/-- `CV1800_PWM_PERIOD` -/
def period (channel : Channel) : Nat := 0x04 + channel * 8

/-- `CV1800_PWM_POLARITY`, `CV1800_PWM_START` and `CV1800_PWM_OE` -/
def polarity : Nat := 0x40
def start : Nat := 0x44
def oe : Nat := 0xd0

/-- `NSEC_PER_SEC` -/
def nsecPerSec : UInt64 := 1000000000

/-- `U32_MAX` -/
def u32Max : UInt64 := 0xffffffff

/-- `enum pwm_polarity` -/
inductive Polarity where
  | normal | inversed
  deriving DecidableEq, Repr

/-- `struct pwm_state`, as far as the driver reads it. -/
structure PwmState where
  period : UInt64
  dutyCycle : UInt64
  polarity : Polarity
  enabled : Bool
  deriving DecidableEq, Repr

/-- `mul_u64_u64_div_u64`: the product has 128 bits. -/
def mulDiv (a b c : UInt64) : UInt64 := .ofNat (a.toNat * b.toNat / c.toNat)

/-- `DIV_ROUND_CLOSEST_ULL`. Its `do_div` takes a divisor of 32 bits. -/
def divRoundClosest (x divisor : UInt64) : UInt64 :=
  (x + divisor / 2) / divisor.toUInt32.toUInt64

/-- `(u32)` of a count of cycles -/
def low (cycles : UInt64) : Word := .ofNat 32 cycles.toNat

/-- `BIT(pwm->hwpwm)` -/
def mask (channel : Channel) : Word := .twoPow 32 channel

/-- `val |= mask` or `val &= ~mask` -/
def assign (channel : Channel) (on : Bool) (val : Word) : Word :=
  if on then val ||| mask channel else val &&& ~~~mask channel

/-- The clamped `period_cycles` of `cv1800_pwm_apply`. -/
def periodCycles (rate : UInt64) (state : PwmState) : UInt64 :=
  let cycles := mulDiv state.period rate nsecPerSec
  let cycles := if cycles < 2 then 2 else cycles
  if cycles > u32Max then u32Max else cycles

/-- The clamped `duty_cycles` of `cv1800_pwm_apply`. -/
def dutyCycles (rate : UInt64) (state : PwmState) : UInt64 :=
  let cycles := mulDiv state.dutyCycle rate nsecPerSec
  let cycles := if cycles = 0 then 1 else cycles
  if cycles ≥ periodCycles rate state then periodCycles rate state - 1 else cycles

/-- The register accesses of `cv1800_pwm_apply`. -/
def program (channel : Channel) (inversed enabled : Bool) (hl cycles : Word)
    (regs : RegisterFile) : RegisterFile :=
  let regs := regs.write polarity (assign channel inversed (regs polarity))
  -- the channel is paused while its pair is rewritten
  let regs := regs.write start (assign channel false (regs start))
  let regs := regs.write (hlperiod channel) hl
  let regs := regs.write (period channel) cycles
  let regs := regs.write oe (assign channel enabled (regs oe))
  if enabled then regs.write start (assign channel true (regs start)) else regs

/-- `cv1800_pwm_apply`, `none` for `-EINVAL`. -/
def apply (rate : UInt64) (channel : Channel) (state : PwmState) (regs : RegisterFile) :
    Option RegisterFile :=
  if rate = 0 then none
  else
    let cycles := periodCycles rate state
    let hl := cycles - dutyCycles rate state
    some (program channel (state.polarity = .inversed) state.enabled (low hl) (low cycles) regs)

/-- `(u64)cycles * NSEC_PER_SEC` in nanoseconds of the clock -/
def nanoseconds (rate : UInt64) (cycles : Word) : UInt64 :=
  divRoundClosest (.ofNat cycles.toNat * nsecPerSec) rate

/-- `cv1800_pwm_get_state`, `none` for `-EINVAL`. -/
def getState (rate : UInt64) (channel : Channel) (regs : RegisterFile) : Option PwmState :=
  if rate = 0 then none
  else
    let cycles := regs (period channel)
    let hl := regs (hlperiod channel)
    some {
      period := nanoseconds rate cycles
      dutyCycle := nanoseconds rate (cycles - hl)
      polarity := if regs polarity &&& mask channel ≠ 0 then .inversed else .normal
      enabled := regs start &&& mask channel ≠ 0 }

/-! ## There and back

A count of cycles is turned into the closest whole number of time units and then back into the
cycles that fit, where a cycle takes at least a unit. -/

section Rounding

/-- The closest time of `count` cycles. -/
def closest (unit rate count : Nat) : Nat := (count * unit + rate / 2) / rate

/-- The closest time of `count` cycles is not below the time that they take. -/
def RoundsUp (unit rate count : Nat) : Prop :=
  count * unit % rate = 0 ∨ rate ≤ count * unit % rate + rate / 2

instance (unit rate count : Nat) : Decidable (RoundsUp unit rate count) :=
  inferInstanceAs (Decidable (_ ∨ _))

variable {unit rate count : Nat}

/-- The quotient and the remainder of the closest time. -/
theorem closest_split (unit count : Nat) (hrate : 0 < rate) :
    closest unit rate count
      = count * unit / rate + (count * unit % rate + rate / 2) / rate := by
  have hsplit : count * unit + rate / 2
      = count * unit % rate + rate / 2 + rate * (count * unit / rate) := by
    have := Nat.mod_add_div (count * unit) rate
    omega
  rw [closest, hsplit, Nat.add_mul_div_left _ _ hrate, Nat.add_comm]

theorem closest_mul_down (hrate : 0 < rate) (h : count * unit % rate + rate / 2 < rate) :
    closest unit rate count * rate + count * unit % rate = count * unit := by
  have hmod := Nat.div_add_mod (count * unit) rate
  rw [closest_split unit count hrate, Nat.div_eq_of_lt h, Nat.add_zero, Nat.mul_comm]
  exact hmod

theorem closest_mul_up (hrate : 0 < rate) (h : rate ≤ count * unit % rate + rate / 2) :
    closest unit rate count * rate + count * unit % rate = count * unit + rate := by
  have hlt := Nat.mod_lt (count * unit) hrate
  have hmod := Nat.div_add_mod (count * unit) rate
  have hone : (count * unit % rate + rate / 2) / rate = 1 :=
    Nat.div_eq_of_lt_le (by omega) (by omega)
  rw [closest_split unit count hrate, hone, Nat.add_mul, Nat.one_mul, Nat.mul_comm _ rate]
  omega

/-- A time that is not below that of the cycles fits as many. -/
theorem floor_closest_up (hrate : 0 < rate) (hunit : rate ≤ unit) (h : RoundsUp unit rate count) :
    closest unit rate count * rate / unit = count := by
  have hlt := Nat.mod_lt (count * unit) hrate
  have hbounds : count * unit ≤ closest unit rate count * rate
      ∧ closest unit rate count * rate < count * unit + unit := by
    by_cases hdown : count * unit % rate + rate / 2 < rate
    · have hexact : count * unit % rate = 0 := h.resolve_right (by omega)
      have := closest_mul_down hrate hdown
      omega
    · have := closest_mul_up hrate (by omega : rate ≤ count * unit % rate + rate / 2)
      omega
  refine Nat.div_eq_of_lt_le hbounds.1 ?_
  rw [Nat.add_mul, Nat.one_mul]
  exact hbounds.2

/-- A time below that of the cycles fits one cycle less. -/
theorem floor_closest_down (hrate : 0 < rate) (hunit : rate ≤ unit)
    (h : ¬ RoundsUp unit rate count) : closest unit rate count * rate / unit + 1 = count := by
  obtain ⟨hrest, hlow⟩ := not_or.mp h
  have hlt := Nat.mod_lt (count * unit) hrate
  have hdown := closest_mul_down hrate (by omega : count * unit % rate + rate / 2 < rate)
  have hcount : 0 < count := by
    refine Nat.pos_of_ne_zero fun hzero => hrest ?_
    rw [hzero, Nat.zero_mul, Nat.zero_mod]
  obtain ⟨fewer, rfl⟩ := Nat.exists_eq_add_one_of_ne_zero hcount.ne'
  have hmul : (fewer + 1) * unit = fewer * unit + unit := by
    rw [Nat.add_mul, Nat.one_mul]
  congr 1
  refine Nat.div_eq_of_lt_le ?_ ?_
  · omega
  · omega

/-- More cycles take no less time. -/
theorem closest_mono {fewer : Nat} (h : fewer ≤ count) :
    closest unit rate fewer ≤ closest unit rate count :=
  Nat.div_le_div_right (Nat.add_le_add_right (Nat.mul_le_mul_right unit h) _)

end Rounding

/-! ## The conversions in numbers -/

/-- The whole cycles of a period, within what a channel is given. -/
def wholePeriod (rate period : Nat) : Nat := min (max (period * rate / 10 ^ 9) 2) (2 ^ 32 - 1)

/-- The whole cycles of a duty cycle, inside both ends of the period. -/
def wholeDuty (rate period duty : Nat) : Nat :=
  min (max (duty * rate / 10 ^ 9) 1) (wholePeriod rate period - 1)

theorem whole_period_bounds (rate period : Nat) :
    2 ≤ wholePeriod rate period ∧ wholePeriod rate period < 2 ^ 32 := by
  unfold wholePeriod
  omega

theorem whole_duty_bounds (rate period duty : Nat) :
    1 ≤ wholeDuty rate period duty ∧ wholeDuty rate period duty < wholePeriod rate period := by
  have := whole_period_bounds rate period
  unfold wholeDuty
  omega

variable {rate : UInt64} {state : PwmState}

theorem mul_div_to_nat (ns : UInt64) (hrate : rate ≤ 1000000000) :
    (mulDiv ns rate nsecPerSec).toNat = ns.toNat * rate.toNat / 10 ^ 9 := by
  have hle : rate.toNat ≤ 10 ^ 9 := UInt64.le_iff_toNat_le.mp hrate
  have hfits : ns.toNat * rate.toNat / 10 ^ 9 ≤ ns.toNat := by
    refine Nat.div_le_of_le_mul ?_
    rw [Nat.mul_comm]
    exact Nat.mul_le_mul_right _ hle
  exact UInt64.toNat_ofNat_of_lt' (Nat.lt_of_le_of_lt hfits ns.toNat_lt)

theorem period_cycles_to_nat (state : PwmState) (hrate : rate ≤ 1000000000) :
    (periodCycles rate state).toNat = wholePeriod rate.toNat state.period.toNat := by
  have hcycles := mul_div_to_nat state.period hrate
  unfold periodCycles wholePeriod u32Max
  simp only [gt_iff_lt, UInt64.lt_iff_toNat_lt, hcycles, apply_ite UInt64.toNat,
    UInt64.reduceToNat]
  generalize state.period.toNat * rate.toNat / 10 ^ 9 = cycles
  split_ifs <;> omega

theorem duty_cycles_to_nat (state : PwmState) (hrate : rate ≤ 1000000000) :
    (dutyCycles rate state).toNat
      = wholeDuty rate.toNat state.period.toNat state.dutyCycle.toNat := by
  have hduty := mul_div_to_nat state.dutyCycle hrate
  have hperiod := period_cycles_to_nat state hrate
  have hbounds := whole_period_bounds rate.toNat state.period.toNat
  have hone : (1 : UInt64) ≤ periodCycles rate state := by
    rw [UInt64.le_iff_toNat_le, hperiod]
    show 1 ≤ _
    omega
  have hless := UInt64.toNat_sub_of_le _ _ hone
  rw [hperiod] at hless
  unfold dutyCycles wholeDuty
  simp only [ge_iff_le, UInt64.le_iff_toNat_le, apply_ite UInt64.toNat, ← UInt64.toNat_inj, hduty,
    hperiod, hless, UInt64.reduceToNat]
  generalize state.dutyCycle.toNat * rate.toNat / 10 ^ 9 = cycles
  have hbelow : UInt64.toNat 1 = 1 := rfl
  split_ifs <;> omega

/-- Nothing overflows on the way to nanoseconds. -/
theorem nanoseconds_to_nat (cycles : Word) (hrate : rate ≤ 1000000000) :
    (nanoseconds rate cycles).toNat = closest (10 ^ 9) rate.toNat cycles.toNat := by
  have hle : rate.toNat ≤ 10 ^ 9 := UInt64.le_iff_toNat_le.mp hrate
  have hcycles := cycles.isLt
  have hproduct : (UInt64.ofNat cycles.toNat * nsecPerSec).toNat = cycles.toNat * 10 ^ 9 := by
    rw [UInt64.toNat_mul, UInt64.toNat_ofNat_of_lt' (by simp [UInt64.size]; omega)]
    refine Nat.mod_eq_of_lt ?_
    show cycles.toNat * 10 ^ 9 < _
    omega
  have hdivisor : rate.toUInt32.toUInt64.toNat = rate.toNat := by
    rw [UInt32.toNat_toUInt64, UInt64.toNat_toUInt32]
    exact Nat.mod_eq_of_lt (by omega)
  have hsum : (UInt64.ofNat cycles.toNat * nsecPerSec + rate / 2).toNat
      = cycles.toNat * 10 ^ 9 + rate.toNat / 2 := by
    rw [UInt64.toNat_add, hproduct, UInt64.toNat_div]
    refine Nat.mod_eq_of_lt ?_
    show _ + rate.toNat / 2 < _
    omega
  rw [nanoseconds, divRoundClosest, UInt64.toNat_div, hsum, hdivisor, closest]

/-! ## The registers -/

variable {channel : Channel} {inversed enabled on : Bool} {hl cycles : Word} {regs : RegisterFile}

theorem mask_bit (channel : Channel) (bit : Nat) :
    (mask channel).getLsbD bit = decide (bit = channel) := by
  have hchannel := channel.isLt
  simp only [mask, BitVec.getLsbD_twoPow, (by omega : (channel : Nat) < 32), decide_true,
    Bool.true_and, eq_comm]

/-- A channel sets its own bit of a shared word. -/
theorem assign_bit (channel : Channel) (on : Bool) (word : Word) (bit : Nat) :
    (assign channel on word).getLsbD bit = if bit = channel then on else word.getLsbD bit := by
  have hchannel := channel.isLt
  cases on
  · show (word &&& ~~~mask channel).getLsbD bit = _
    rw [BitVec.getLsbD_and, BitVec.getLsbD_not, mask_bit]
    by_cases hbit : bit = channel
    · simp only [hbit, decide_true, Bool.not_true, Bool.and_false, if_true]
    · by_cases hlt : bit < 32
      · simp only [hbit, hlt, decide_true, decide_false, Bool.not_false, Bool.and_true, if_false]
      · simp only [hbit, BitVec.getLsbD_of_ge _ _ (Nat.le_of_not_lt hlt), Bool.false_and, if_false]
  · show (word ||| mask channel).getLsbD bit = _
    rw [BitVec.getLsbD_or, mask_bit]
    by_cases hbit : bit = channel
    · simp only [hbit, decide_true, Bool.or_true, if_true]
    · simp only [hbit, decide_false, Bool.or_false, if_false]

theorem assign_assign (first : Bool) (word : Word) :
    assign channel on (assign channel first word) = assign channel on word := by
  apply BitVec.eq_of_getLsbD_eq
  intro bit _
  simp only [assign_bit]
  split <;> rfl

/-- A channel finds the bit that it set. -/
theorem assign_and_mask (channel : Channel) (on : Bool) (word : Word) :
    assign channel on word &&& mask channel ≠ 0 ↔ on = true := by
  have hbits : ∀ bit, (assign channel on word &&& mask channel).getLsbD bit
      = (on && decide (bit = channel)) := by
    intro bit
    rw [BitVec.getLsbD_and, assign_bit, mask_bit]
    by_cases hbit : bit = channel <;> simp [hbit]
  constructor
  · intro hne
    by_contra hoff
    refine hne (BitVec.eq_of_getLsbD_eq fun bit _ => ?_)
    rw [hbits, Bool.eq_false_iff.mpr hoff, Bool.false_and]
    exact BitVec.getLsbD_zero.symm
  · intro hon hzero
    have := hbits channel
    rw [hzero, hon] at this
    simp at this

/-- The shared registers lie above the pairs of the channels. -/
theorem shared_apart (channel : Channel) {shared : Nat} (h : 0x40 ≤ shared) :
    shared ≠ hlperiod channel ∧ shared ≠ period channel := by
  have hchannel := channel.isLt
  unfold hlperiod period
  omega

theorem pair_apart (channel : Channel) : period channel ≠ hlperiod channel := by
  unfold hlperiod period
  omega

/-- The registers after `cv1800_pwm_apply`. -/
theorem program_at (channel : Channel) (inversed enabled : Bool) (hl cycles : Word)
    (regs : RegisterFile) (offset : Nat) :
    program channel inversed enabled hl cycles regs offset
      = if offset = hlperiod channel then hl
        else if offset = period channel then cycles
        else if offset = polarity then assign channel inversed (regs polarity)
        else if offset = start then assign channel enabled (regs start)
        else if offset = oe then assign channel enabled (regs oe)
        else regs offset := by
  have hapart : start ≠ polarity ∧ oe ≠ polarity ∧ oe ≠ start := by decide
  have hpair := pair_apart channel
  obtain ⟨hpolarity, hpolarity'⟩ := shared_apart channel (by decide : 0x40 ≤ polarity)
  obtain ⟨hstart, hstart'⟩ := shared_apart channel (by decide : 0x40 ≤ start)
  obtain ⟨hoe, hoe'⟩ := shared_apart channel (by decide : 0x40 ≤ oe)
  have hwrite : ∀ (regs : RegisterFile) target word,
      regs.write target word offset = if offset = target then word else regs offset :=
    fun _ _ _ => rfl
  unfold program
  simp only [RegisterFile.write_other _ _ hapart.1, RegisterFile.write_other _ _ hapart.2.1,
    RegisterFile.write_other _ _ hapart.2.2, RegisterFile.write_other _ _ hoe,
    RegisterFile.write_other _ _ hoe', RegisterFile.write_other _ _ hstart,
    RegisterFile.write_other _ _ hstart', RegisterFile.write_other _ _ hapart.2.2.symm,
    RegisterFile.write_self, assign_assign]
  cases enabled
  · rw [if_neg Bool.false_ne_true]
    simp only [hwrite]
    split_ifs <;> first | rfl | simp_all
  · rw [if_pos rfl]
    simp only [hwrite]
    split_ifs <;> first | rfl | simp_all

section Programmed

variable (channel : Channel) (inversed enabled : Bool) (hl cycles : Word) (regs : RegisterFile)

theorem program_hlperiod :
    program channel inversed enabled hl cycles regs (hlperiod channel) = hl := by
  rw [program_at, if_pos rfl]

theorem program_period :
    program channel inversed enabled hl cycles regs (period channel) = cycles := by
  rw [program_at, if_neg (pair_apart channel), if_pos rfl]

theorem program_polarity :
    program channel inversed enabled hl cycles regs polarity
      = assign channel inversed (regs polarity) := by
  obtain ⟨hl', hcycles'⟩ := shared_apart channel (by decide : 0x40 ≤ polarity)
  rw [program_at, if_neg hl', if_neg hcycles', if_pos rfl]

theorem program_start :
    program channel inversed enabled hl cycles regs start
      = assign channel enabled (regs start) := by
  obtain ⟨hl', hcycles'⟩ := shared_apart channel (by decide : 0x40 ≤ start)
  rw [program_at, if_neg hl', if_neg hcycles', if_neg (by decide), if_pos rfl]

theorem program_oe :
    program channel inversed enabled hl cycles regs oe = assign channel enabled (regs oe) := by
  obtain ⟨hl', hcycles'⟩ := shared_apart channel (by decide : 0x40 ≤ oe)
  rw [program_at, if_neg hl', if_neg hcycles', if_neg (by decide), if_neg (by decide), if_pos rfl]

/-- A second time only the pair counts. -/
theorem program_again (hl' cycles' : Word) :
    program channel inversed enabled hl' cycles'
        (program channel inversed enabled hl cycles regs)
      = program channel inversed enabled hl cycles regs ↔ hl' = hl ∧ cycles' = cycles := by
  constructor
  · intro h
    have hhl := congrFun h (hlperiod channel)
    have hcycles := congrFun h (period channel)
    rw [program_hlperiod, program_hlperiod] at hhl
    rw [program_period, program_period] at hcycles
    exact ⟨hhl, hcycles⟩
  · intro h
    obtain ⟨rfl, rfl⟩ := h
    funext offset
    rw [program_at, program_polarity, program_start, program_oe]
    simp only [assign_assign]
    rw [program_at channel inversed enabled hl' cycles' regs offset]
    split_ifs <;> rfl

/-- What `get_state` finds of it. -/
theorem get_state_program {rate : UInt64} (hpos : rate ≠ 0) (polarity : Polarity) :
    getState rate channel
        (program channel (decide (polarity = .inversed)) enabled hl cycles regs)
      = some {
          period := nanoseconds rate cycles
          dutyCycle := nanoseconds rate (cycles - hl)
          polarity := polarity
          enabled := enabled } := by
  unfold getState
  rw [if_neg hpos, program_period, program_hlperiod, program_polarity, program_start]
  simp only [assign_and_mask, decide_eq_true_eq, Option.some.injEq, PwmState.mk.injEq, true_and,
    Bool.decide_eq_true, and_true]
  cases polarity <;> rfl

/-- The other channels are left alone. -/
theorem program_elsewhere :
    (∀ offset ∉ [hlperiod channel, period channel, polarity, start, oe],
      program channel inversed enabled hl cycles regs offset = regs offset) ∧
    ∀ offset ∈ [polarity, start, oe], ∀ bit : Nat, bit ≠ channel →
      (program channel inversed enabled hl cycles regs offset).getLsbD bit
        = (regs offset).getLsbD bit := by
  constructor
  · intro offset hother
    simp only [List.mem_cons, List.not_mem_nil, or_false, not_or] at hother
    obtain ⟨hhl, hcycles, hpolarity, hstart, hoe⟩ := hother
    rw [program_at, if_neg hhl, if_neg hcycles, if_neg hpolarity, if_neg hstart, if_neg hoe]
  · intro offset hshared bit hbit
    simp only [List.mem_cons, List.not_mem_nil, or_false] at hshared
    rcases hshared with rfl | rfl | rfl
    · rw [program_polarity, assign_bit, if_neg hbit]
    · rw [program_start, assign_bit, if_neg hbit]
    · rw [program_oe, assign_bit, if_neg hbit]

end Programmed

/-- The pair that `apply` computes, as `getState` finds it. -/
theorem pair_found (state : PwmState) (hrate : rate ≤ 1000000000) :
    (low (periodCycles rate state)).toNat = wholePeriod rate.toNat state.period.toNat
      ∧ (low (periodCycles rate state - dutyCycles rate state)).toNat
        = wholePeriod rate.toNat state.period.toNat
          - wholeDuty rate.toNat state.period.toNat state.dutyCycle.toNat := by
  have hperiod := period_cycles_to_nat state hrate
  have hduty := duty_cycles_to_nat state hrate
  have hcycles := whole_period_bounds rate.toNat state.period.toNat
  have hinside := whole_duty_bounds rate.toNat state.period.toNat state.dutyCycle.toNat
  have hle : dutyCycles rate state ≤ periodCycles rate state := by
    rw [UInt64.le_iff_toNat_le, hperiod, hduty]
    omega
  unfold low
  rw [BitVec.toNat_ofNat, BitVec.toNat_ofNat, UInt64.toNat_sub_of_le _ _ hle, hperiod, hduty]
  omega

/-! ## Reading a state back -/

/-- The cycles of the period, told to the closest nanosecond, are found again. -/
theorem whole_period_closest {rate cycles : Nat} (hpos : 0 < rate) (hrate : rate ≤ 10 ^ 9)
    (htwo : 2 ≤ cycles) (hfits : cycles < 2 ^ 32) :
    wholePeriod rate (closest (10 ^ 9) rate cycles) = cycles
      ↔ cycles = 2 ∨ RoundsUp (10 ^ 9) rate cycles := by
  unfold wholePeriod
  by_cases hup : RoundsUp (10 ^ 9) rate cycles
  · have := floor_closest_up hpos hrate hup
    simp only [hup, or_true, iff_true]
    omega
  · have := floor_closest_down hpos hrate hup
    simp only [hup, or_false]
    omega

/-- So are those of the duty cycle, once the period is. -/
theorem whole_duty_closest {rate ns cycles duty : Nat} (hpos : 0 < rate) (hrate : rate ≤ 10 ^ 9)
    (hcycles : wholePeriod rate ns = cycles) (hone : 1 ≤ duty) (hinside : duty < cycles) :
    wholeDuty rate ns (closest (10 ^ 9) rate duty) = duty
      ↔ duty = 1 ∨ RoundsUp (10 ^ 9) rate duty := by
  unfold wholeDuty
  rw [hcycles]
  by_cases hup : RoundsUp (10 ^ 9) rate duty
  · have := floor_closest_up hpos hrate hup
    simp only [hup, or_true, iff_true]
    omega
  · have := floor_closest_down hpos hrate hup
    simp only [hup, or_false]
    omega

/-- What belongs to the other channels keeps its value. -/
structure Elsewhere (channel : Channel) (before after : RegisterFile) : Prop where
  registers : ∀ offset ∉ [hlperiod channel, period channel, polarity, start, oe],
    after offset = before offset
  bits : ∀ offset ∈ [polarity, start, oe], ∀ bit : Nat, bit ≠ channel →
    (after offset).getLsbD bit = (before offset).getLsbD bit

/-- The state is programmed within bounds and apart from the other channels, it is reported in
order, and applying the report moves no register. -/
def ReadBack (rate : UInt64) (channel : Channel) (state : PwmState) (regs : RegisterFile) : Prop :=
  ∃ after report, apply rate channel state regs = some after ∧ Elsewhere channel regs after ∧
    1 ≤ (after (hlperiod channel)).toNat ∧
    (after (hlperiod channel)).toNat < (after (period channel)).toNat ∧
    (after (period channel)).toNat ≤ 2 ^ 32 - 1 ∧
    getState rate channel after = some report ∧ report.dutyCycle ≤ report.period ∧
    report.polarity = state.polarity ∧ report.enabled = state.enabled ∧
    apply rate channel report after = some after

section Again

variable {after : RegisterFile}

/-- What `get_state` reports of an applied state. -/
def report (rate : UInt64) (state : PwmState) : PwmState where
  period := nanoseconds rate (low (periodCycles rate state))
  dutyCycle := nanoseconds rate
    (low (periodCycles rate state) - low (periodCycles rate state - dutyCycles rate state))
  polarity := state.polarity
  enabled := state.enabled

theorem apply_program (hpos : rate ≠ 0) (h : apply rate channel state regs = some after) :
    after = program channel (decide (state.polarity = .inversed)) state.enabled
      (low (periodCycles rate state - dutyCycles rate state)) (low (periodCycles rate state))
      regs := by
  rw [apply, if_neg hpos] at h
  exact (Option.some.inj h).symm

theorem get_state_apply (hpos : rate ≠ 0) (h : apply rate channel state regs = some after) :
    getState rate channel after = some (report rate state) := by
  rw [apply_program hpos h]
  exact get_state_program _ _ _ _ _ hpos _

/-- The times of the report. -/
theorem report_to_nat (state : PwmState) (hrate : rate ≤ 1000000000) :
    (report rate state).period.toNat
        = closest (10 ^ 9) rate.toNat (wholePeriod rate.toNat state.period.toNat)
      ∧ (report rate state).dutyCycle.toNat
        = closest (10 ^ 9) rate.toNat
            (wholeDuty rate.toNat state.period.toNat state.dutyCycle.toNat) := by
  have hinside := whole_duty_bounds rate.toNat state.period.toNat state.dutyCycle.toNat
  obtain ⟨hfound, hfoundHl⟩ := pair_found state hrate
  have hduty : (low (periodCycles rate state)
      - low (periodCycles rate state - dutyCycles rate state)).toNat
      = wholeDuty rate.toNat state.period.toNat state.dutyCycle.toNat := by
    rw [BitVec.toNat_sub_of_le, hfound, hfoundHl]
    · omega
    · rw [BitVec.le_def, hfound, hfoundHl]
      omega
  constructor
  · rw [← hfound]
    exact nanoseconds_to_nat _ hrate
  · rw [← hduty]
    exact nanoseconds_to_nat _ hrate

/-- The report computes the same pair when both counts of cycles are found again. -/
theorem apply_report (hpos : rate ≠ 0) (hrate : rate ≤ 1000000000)
    (h : apply rate channel state regs = some after) :
    apply rate channel (report rate state) after = some after
      ↔ (wholePeriod rate.toNat state.period.toNat = 2
          ∨ RoundsUp (10 ^ 9) rate.toNat (wholePeriod rate.toNat state.period.toNat))
        ∧ (wholeDuty rate.toNat state.period.toNat state.dutyCycle.toNat = 1
          ∨ RoundsUp (10 ^ 9) rate.toNat
            (wholeDuty rate.toNat state.period.toNat state.dutyCycle.toNat)) := by
  have hzero : 0 < rate.toNat := Nat.pos_of_ne_zero fun h => hpos (UInt64.toNat_inj.mp h)
  have hle : rate.toNat ≤ 10 ^ 9 := UInt64.le_iff_toNat_le.mp hrate
  have hcycles := whole_period_bounds rate.toNat state.period.toNat
  have hinside := whole_duty_bounds rate.toNat state.period.toNat state.dutyCycle.toNat
  obtain ⟨hfound, hfoundHl⟩ := pair_found state hrate
  obtain ⟨hagain, hagainHl⟩ := pair_found (report rate state) hrate
  rw [(report_to_nat state hrate).1] at hagain hagainHl
  rw [(report_to_nat state hrate).2] at hagainHl
  rw [apply_program hpos h, apply, if_neg hpos, Option.some.injEq]
  refine (program_again ..).trans ?_
  rw [← BitVec.toNat_inj, ← BitVec.toNat_inj, hagain, hagainHl, hfound, hfoundHl,
    ← whole_period_closest hzero hle hcycles.1 hcycles.2]
  generalize wholePeriod rate.toNat state.period.toNat = cycles at *
  generalize wholeDuty rate.toNat state.period.toNat state.dutyCycle.toNat = duty at *
  have hbelow := whole_duty_bounds rate.toNat (closest (10 ^ 9) rate.toNat cycles)
    (closest (10 ^ 9) rate.toNat duty)
  constructor
  · intro h
    obtain ⟨hpair, hsame⟩ := h
    refine ⟨hsame, (whole_duty_closest hzero hle hsame hinside.1 hinside.2).mp ?_⟩
    omega
  · intro h
    obtain ⟨hsame, hrounds⟩ := h
    have := (whole_duty_closest hzero hle hsame hinside.1 hinside.2).mpr hrounds
    omega

/-- Everything but the second call holds of every state. -/
theorem apply_settled (hpos : rate ≠ 0) (hrate : rate ≤ 1000000000)
    (h : apply rate channel state regs = some after) :
    Elsewhere channel regs after ∧
      1 ≤ (after (hlperiod channel)).toNat ∧
      (after (hlperiod channel)).toNat < (after (period channel)).toNat ∧
      (report rate state).dutyCycle ≤ (report rate state).period := by
  have hinside := whole_duty_bounds rate.toNat state.period.toNat state.dutyCycle.toNat
  obtain ⟨hfound, hfoundHl⟩ := pair_found state hrate
  obtain ⟨hperiod, hduty⟩ := report_to_nat state hrate
  obtain ⟨hregisters, hbits⟩ := program_elsewhere channel
    (decide (state.polarity = .inversed)) state.enabled
    (low (periodCycles rate state - dutyCycles rate state)) (low (periodCycles rate state)) regs
  rw [apply_program hpos h, program_hlperiod, program_period, hfoundHl, hfound,
    UInt64.le_iff_toNat_le, hperiod, hduty]
  refine ⟨⟨hregisters, hbits⟩, ?_, ?_, closest_mono hinside.2.le⟩
  · omega
  · omega

end Again

/-- The second call of a read-back is about the report. -/
theorem read_back_again (hpos : rate ≠ 0) (h : ReadBack rate channel state regs) :
    ∃ after, apply rate channel state regs = some after ∧
      apply rate channel (report rate state) after = some after := by
  obtain ⟨after, found, hafter, _, _, _, _, hfound, _, _, _, hsame⟩ := h
  rw [get_state_apply hpos hafter] at hfound
  obtain rfl := Option.some.inj hfound
  exact ⟨after, hafter, hsame⟩

/-- A state is applied again without moving a register exactly when neither the cycles of the
period nor those of the duty cycle are reported below the time that they take, unless the limits
of `apply` make up for it. -/
theorem read_back_iff (hpos : rate ≠ 0) (hrate : rate ≤ 1000000000) (channel : Channel)
    (state : PwmState) (regs : RegisterFile) :
    ReadBack rate channel state regs
      ↔ (wholePeriod rate.toNat state.period.toNat = 2
          ∨ RoundsUp (10 ^ 9) rate.toNat (wholePeriod rate.toNat state.period.toNat))
        ∧ (wholeDuty rate.toNat state.period.toNat state.dutyCycle.toNat = 1
          ∨ RoundsUp (10 ^ 9) rate.toNat
            (wholeDuty rate.toNat state.period.toNat state.dutyCycle.toNat)) := by
  constructor
  · intro h
    obtain ⟨after, hafter, hsame⟩ := read_back_again hpos h
    exact (apply_report hpos hrate hafter).mp hsame
  · intro h
    have hafter : apply rate channel state regs = some (program channel
        (decide (state.polarity = .inversed)) state.enabled
        (low (periodCycles rate state - dutyCycles rate state)) (low (periodCycles rate state))
        regs) := by
      rw [apply, if_neg hpos]
    obtain ⟨helsewhere, hone, hless, horder⟩ := apply_settled hpos hrate hafter
    exact ⟨_, report rate state, hafter, helsewhere, hone, hless,
      Nat.le_sub_one_of_lt (BitVec.isLt _), get_state_apply hpos hafter, horder, rfl, rfl,
      (apply_report hpos hrate hafter).mpr h⟩

/-- At a kilohertz from a clock whose cycles are whole nanoseconds. -/
theorem read_back_kilohertz :
    ReadBack 100000000 2 ⟨1000000, 250000, .inversed, true⟩ (fun _ => 0) :=
  (read_back_iff (by decide) (by decide) 2 ⟨1000000, 250000, .inversed, true⟩ fun _ => 0).mpr
    (by decide)

/-- From 150 MHz, 54 ns of a microsecond are 8 cycles; they are reported as 53 ns, which are 7. -/
theorem duty_cycle_shrinks :
    ¬ ReadBack 150000000 0 ⟨1000, 54, .normal, true⟩ (fun _ => 0) := by
  intro h
  obtain ⟨after, hafter, hsame⟩ := read_back_again (by decide) h
  exact absurd ((apply_report (by decide) (by decide) hafter).mp hsame) (by decide)

end NanoKvm.Pwm
