import Mathlib.Order.Basic
import NanoKvm.Clock.Mmux

/-!
# What park and unpark do to the registers

A successful park rewrites one lane register and one bit of the selector register, and
unpark gives both back. `park_cases` says what a park can do, `unpark_parked` what the
pair leaves behind, and `set_divider_changes` which bits a new divider touches.
-/

namespace NanoKvm.Clock

open Exec Mmux

section

variable {mmux : Mmux} {regs : RegisterFile}

@[simp] theorem Lane.other_other (lane : Lane) : lane.other.other = lane := by
  cases lane <;> rfl

theorem Lane.other_ne (lane : Lane) : lane.other ≠ lane := by
  cases lane <;> decide

/-- The two lanes have registers of their own. -/
theorem div_other_reg (mmux : Mmux) (lane : Lane) :
    (mmux.div lane.other).reg ≠ (mmux.div lane).reg := by
  cases lane with
  | zero => exact mmux.lanes_apart.symm
  | one => exact mmux.lanes_apart

/-- Setting the enable bit changes no other bit. -/
theorem set_en_div_factor_bit (word : Word) {bit : Nat} (h : bit ≠ enableBit) :
    (setEnDivFactor word).getLsbD bit = word.getLsbD bit := by
  simp [setEnDivFactor, BitVec.getLsbD_twoPow, h.symm]

/-- A field without the enable bit is not changed by it. -/
theorem get_set_en_div_factor {field : Field} (h : ¬ field.Covers enableBit) (word : Word) :
    field.get (setEnDivFactor word) = field.get word := by
  apply Field.get_congr
  intro bit hcovers
  apply set_en_div_factor_bit
  intro hbit
  exact h (hbit ▸ hcovers)

/-- The selector is flipped. -/
theorem flip_clk_sel (mmux : Mmux) (regs : RegisterFile) :
    checkbit (mmux.flip regs) mmux.clkSel = !checkbit regs mmux.clkSel := by
  have hfits := mmux.clkSel.fits
  simp [checkbit, Mmux.flip, hfits]

/-- The bypass is not. -/
theorem flip_bypass (mmux : Mmux) (regs : RegisterFile) :
    checkbit (mmux.flip regs) mmux.bypass = checkbit regs mmux.bypass := by
  unfold checkbit Mmux.flip
  by_cases hreg : mmux.clkSel.reg = mmux.bypass.reg
  · have hbit := mmux.bits_apart hreg
    rw [← hreg, RegisterFile.write_self, BitVec.getLsbD_xor, BitVec.getLsbD_twoPow]
    simp [hbit.symm]
  · rw [RegisterFile.write_other _ _ (Ne.symm hreg)]

/-- Another lane is selected. -/
theorem flip_lane (mmux : Mmux) (regs : RegisterFile) :
    mmux.lane (mmux.flip regs) = (mmux.lane regs).other := by
  unfold lane
  rw [flip_clk_sel]
  cases checkbit regs mmux.clkSel <;> rfl

/-- No lane register changes. -/
theorem flip_div (mmux : Mmux) (regs : RegisterFile) (lane : Lane) :
    mmux.flip regs (mmux.div lane).reg = regs (mmux.div lane).reg :=
  RegisterFile.write_other _ _ (mmux.clk_sel_apart lane).symm

/-- A write to a lane register changes neither bit of the selection. -/
theorem write_div_checkbit (mmux : Mmux) (regs : RegisterFile) (lane : Lane) (word : Word) :
    checkbit (regs.write (mmux.div lane).reg word) mmux.clkSel = checkbit regs mmux.clkSel ∧
      checkbit (regs.write (mmux.div lane).reg word) mmux.bypass = checkbit regs mmux.bypass := by
  unfold checkbit
  rw [RegisterFile.write_other _ _ (mmux.clk_sel_apart lane),
    RegisterFile.write_other _ _ (mmux.bypass_apart lane)]
  exact ⟨rfl, rfl⟩

/-- So it leaves the selected lane. -/
theorem write_div_lane (mmux : Mmux) (regs : RegisterFile) (lane : Lane) (word : Word) :
    mmux.lane (regs.write (mmux.div lane).reg word) = mmux.lane regs := by
  unfold Mmux.lane
  rw [(write_div_checkbit mmux regs lane word).1]

/-- The parent that the lane which is not selected names. -/
def otherParent (mmux : Mmux) (regs : RegisterFile) : Nat :=
  let lane := (mmux.lane regs).other
  mmux.sel2parent lane ((mmux.mux lane).field.get (regs (mmux.mux lane).reg))

/-- The registers after the CPU is moved off a lane. -/
def parkedRegs (mmux : Mmux) (value : Nat) (regs : RegisterFile) : RegisterFile :=
  mmux.flip (mmux.prepare (mmux.lane regs).other value regs)

/-- The other lane is selected. -/
theorem parked_lane (mmux : Mmux) (value : Nat) (regs : RegisterFile) :
    mmux.lane (parkedRegs mmux value regs) = (mmux.lane regs).other := by
  unfold parkedRegs prepare
  rw [flip_lane, write_div_lane]

/-- The bypass is as it was. -/
theorem parked_bypass (mmux : Mmux) (value : Nat) (regs : RegisterFile) :
    checkbit (parkedRegs mmux value regs) mmux.bypass = checkbit regs mmux.bypass := by
  unfold parkedRegs prepare
  rw [flip_bypass, (write_div_checkbit _ _ _ _).2]

/-- The word of the lane the CPU is parked on. -/
theorem parked_park_word (mmux : Mmux) (value : Nat) (regs : RegisterFile) :
    parkedRegs mmux value regs (mmux.div (mmux.lane regs).other).reg =
      setEnDivFactor ((mmux.mux (mmux.lane regs).other).field.set
        ((mmux.div (mmux.lane regs).other).field.set
          (regs (mmux.div (mmux.lane regs).other).reg) value) 0) := by
  unfold parkedRegs
  rw [flip_div]
  exact RegisterFile.write_self _ _ _

/-- The lane that the CPU left keeps its word. -/
theorem parked_active_word (mmux : Mmux) (value : Nat) (regs : RegisterFile) :
    parkedRegs mmux value regs (mmux.div (mmux.lane regs)).reg =
      regs (mmux.div (mmux.lane regs)).reg := by
  unfold parkedRegs
  rw [flip_div]
  exact RegisterFile.write_other _ _ (div_other_reg mmux _).symm

/-- The parked lane divides by the given value. -/
theorem parked_divider (mmux : Mmux) {value : Nat} (regs : RegisterFile)
    (h : value ≤ (mmux.div (mmux.lane regs).other).limit) :
    (mmux.div (mmux.lane regs).other).field.get
      (parkedRegs mmux value regs (mmux.div (mmux.lane regs).other).reg) = value := by
  have hpos : 0 < 2 ^ (mmux.div (mmux.lane regs).other).field.width := Nat.two_pow_pos _
  have hfits : value < 2 ^ (mmux.div (mmux.lane regs).other).field.width := by
    unfold RegField.limit at h
    omega
  have hapart : (mmux.div (mmux.lane regs).other).field.Apart
      (mmux.mux (mmux.lane regs).other).field := (mmux.fields_apart _).symm
  rw [parked_park_word, get_set_en_div_factor (mmux.enable_apart _).1,
    Field.get_set_apart hapart, Field.get_set hfits]

/-- Its mux names its first parent. -/
theorem parked_mux (mmux : Mmux) (value : Nat) (regs : RegisterFile) :
    (mmux.mux (mmux.lane regs).other).field.get
      (parkedRegs mmux value regs (mmux.mux (mmux.lane regs).other).reg) = 0 := by
  rw [mmux.mux_reg, parked_park_word, get_set_en_div_factor (mmux.enable_apart _).2,
    Field.get_set (Nat.two_pow_pos _)]

end

/-! ## Park and unpark -/

/-- The state after a park that was not refused. -/
def parked (mmux : Mmux) (value : Nat) (s : State) : State :=
  { s with
    savedLane := s.regs (mmux.div (mmux.lane s.regs).other).reg
    regs := parkedRegs mmux value s.regs
    retuneState := .parked }

/-- A park is refused and changes nothing, or it moves a running CPU that is not bypassed to the
other lane, with the rounded quotient of the rates as divider. -/
theorem park_cases (mmux : Mmux) (rates : Rates) (limit : UInt64) (s : State) :
    (∃ error, mmux.park rates limit s = (.error error, s)) ∨
      ∃ parkRate, s.retuneState = .running ∧ checkbit s.regs mmux.bypass = false ∧
        rates (mmux.sel2parent (mmux.lane s.regs).other 0) = some parkRate ∧ parkRate ≠ 0 ∧
        limit ≠ 0 ∧ (divRoundUpUll parkRate limit).toUInt32.toNat ≤
          (mmux.div (mmux.lane s.regs).other).limit ∧
        mmux.park rates limit s =
          (.ok (), parked mmux (divRoundUpUll parkRate limit).toUInt32.toNat s) := by
  unfold park
  by_cases hstate : s.retuneState ≠ .running
  · exact .inl ⟨_, if_pos hstate⟩
  rw [if_neg hstate]
  by_cases hbypass : checkbit s.regs mmux.bypass
  · exact .inl ⟨_, if_pos hbypass⟩
  rw [if_neg hbypass]
  dsimp only
  cases hrate : rates (mmux.sel2parent (mmux.lane s.regs).other 0) with
  | none => exact .inl ⟨_, rfl⟩
  | some parkRate =>
      dsimp only
      by_cases hzero : parkRate = 0 ∨ limit = 0
      · exact .inl ⟨_, if_pos hzero⟩
      rw [if_neg hzero]
      obtain ⟨hparkRate, hlimit⟩ := not_or.1 hzero
      by_cases hrange : (divRoundUpUll parkRate limit).toUInt32.toNat >
          (mmux.div (mmux.lane s.regs).other).limit
      · exact .inl ⟨_, if_pos hrange⟩
      rw [if_neg hrange]
      exact .inr ⟨parkRate, not_not.1 hstate, Bool.not_eq_true _ ▸ hbypass, rfl, hparkRate, hlimit,
        not_lt.1 hrange, rfl⟩

/-- A successful park says everything about the state it leaves. -/
theorem park_ok {mmux : Mmux} {rates : Rates} {limit : UInt64} {s t : State}
    (h : mmux.park rates limit s = (.ok (), t)) :
    ∃ parkRate, s.retuneState = .running ∧ checkbit s.regs mmux.bypass = false ∧
      rates (mmux.sel2parent (mmux.lane s.regs).other 0) = some parkRate ∧ parkRate ≠ 0 ∧
      limit ≠ 0 ∧ (divRoundUpUll parkRate limit).toUInt32.toNat ≤
        (mmux.div (mmux.lane s.regs).other).limit ∧
      t = parked mmux (divRoundUpUll parkRate limit).toUInt32.toNat s := by
  rcases park_cases mmux rates limit s with ⟨error, hpark⟩ | ⟨parkRate, hpark⟩
  · rw [hpark] at h
    cases h
  · obtain ⟨hstate, hbypass, hrate, hparkRate, hlimit, hrange, hpark⟩ := hpark
    rw [hpark] at h
    cases h
    exact ⟨parkRate, hstate, hbypass, hrate, hparkRate, hlimit, hrange, rfl⟩

/-- A refused park changes no register and no state. -/
theorem park_refused {mmux : Mmux} {rates : Rates} {limit : UInt64} {s : State}
    (h : (mmux.park rates limit s).1 ≠ .ok ()) : (mmux.park rates limit s).2 = s := by
  rcases park_cases mmux rates limit s with ⟨error, hpark⟩ | ⟨_, _, _, _, _, _, _, hpark⟩
  · rw [hpark]
  · rw [hpark] at h
    exact absurd rfl h

/-- Only a running mux is parked, so a second park is refused. -/
theorem park_busy {mmux : Mmux} {s : State} (h : s.retuneState ≠ .running) (rates : Rates)
    (limit : UInt64) : mmux.park rates limit s = (.error .busy, s) :=
  if_pos h

/-- The registers after the CPU is back on its lane, whose divider may have changed. -/
def unparkedRegs (mmux : Mmux) (value : Option Nat) (saved : Word) (regs : RegisterFile) :
    RegisterFile :=
  (mmux.flip (value.elim regs (mmux.setDivider (mmux.lane regs).other · regs))).write
    (mmux.div (mmux.lane regs)).reg saved

/-- A parked CPU always comes back when the divider is kept or fits. -/
theorem unpark_eq {mmux : Mmux} {s : State} (h : s.retuneState = .parked) {value : Option Nat}
    (hvalue : ∀ divider, value = some divider →
      divider ≤ (mmux.div (mmux.lane s.regs).other).limit) :
    mmux.unpark value s = (.ok (), { s with
      regs := unparkedRegs mmux value s.savedLane s.regs
      retuneState := .running }) := by
  have hrange : ¬ value.any (· > (mmux.div (mmux.lane s.regs).other).limit) := by
    cases value with
    | none => simp
    | some divider => simpa using hvalue divider rfl
  unfold unpark
  rw [if_neg (not_not.2 h)]
  dsimp only
  rw [if_neg hrange]
  rfl

/-- Keeping the divider never fails. -/
theorem unpark_none_eq {mmux : Mmux} {s : State} (h : s.retuneState = .parked) :
    mmux.unpark none s = (.ok (), { s with
      regs := unparkedRegs mmux none s.savedLane s.regs
      retuneState := .running }) :=
  unpark_eq h fun _ hnone => by cases hnone

/-- Park and unpark give back every register but that of the active lane, which gets the new
divider and its enable bit. -/
theorem unparked_parked (mmux : Mmux) (parkValue : Nat) (value : Option Nat)
    (regs : RegisterFile) :
    unparkedRegs mmux value (regs (mmux.div (mmux.lane regs).other).reg)
        (parkedRegs mmux parkValue regs) =
      value.elim regs (mmux.setDivider (mmux.lane regs) · regs) := by
  have hpark := div_other_reg mmux (mmux.lane regs)
  have hword := parked_active_word mmux parkValue regs
  have hsel := mmux.clk_sel_apart
  -- Every register other than the parked lane's and the selector's is untouched by the park.
  have hkept : ∀ reg, reg ≠ mmux.clkSel.reg → reg ≠ (mmux.div (mmux.lane regs).other).reg →
      parkedRegs mmux parkValue regs reg = regs reg := by
    intro reg hreg hdiv
    unfold parkedRegs Mmux.flip prepare
    rw [RegisterFile.write_other _ _ hreg, RegisterFile.write_other _ _ hdiv]
  have hselword : parkedRegs mmux parkValue regs mmux.clkSel.reg =
      regs mmux.clkSel.reg ^^^ BitVec.twoPow 32 mmux.clkSel.shift := by
    unfold parkedRegs Mmux.flip prepare
    rw [RegisterFile.write_self, RegisterFile.write_other _ _ (hsel _)]
  funext reg
  unfold unparkedRegs
  rw [parked_lane, Lane.other_other]
  by_cases hdiv : reg = (mmux.div (mmux.lane regs).other).reg
  · subst hdiv
    rw [RegisterFile.write_self]
    cases value with
    | none => rfl
    | some divider => exact (RegisterFile.write_other _ _ hpark).symm
  rw [RegisterFile.write_other _ _ hdiv]
  by_cases hclk : reg = mmux.clkSel.reg
  · subst hclk
    unfold Mmux.flip
    rw [RegisterFile.write_self]
    cases value with
    | none =>
        rw [Option.elim_none, Option.elim_none, hselword, BitVec.xor_assoc, BitVec.xor_self,
          BitVec.xor_zero]
    | some divider =>
        simp only [Option.elim_some, setDivider]
        rw [RegisterFile.write_other _ _ (hsel _), RegisterFile.write_other _ _ (hsel _), hselword,
          BitVec.xor_assoc, BitVec.xor_self, BitVec.xor_zero]
  unfold Mmux.flip
  rw [RegisterFile.write_other _ _ hclk]
  cases value with
  | none => exact hkept reg hclk hdiv
  | some divider =>
      simp only [Option.elim_some, setDivider]
      rw [hword]
      by_cases hactive : reg = (mmux.div (mmux.lane regs)).reg
      · subst hactive
        rw [RegisterFile.write_self, RegisterFile.write_self]
      · rw [RegisterFile.write_other _ _ hactive, RegisterFile.write_other _ _ hactive]
        exact hkept reg hclk hdiv

/-- Park and unpark on states: all of the registers but a new divider, and the mux running. -/
theorem unpark_parked (mmux : Mmux) (parkValue : Nat) (value : Option Nat) (s : State)
    (hvalue : ∀ divider, value = some divider → divider ≤ (mmux.div (mmux.lane s.regs)).limit) :
    mmux.unpark value (parked mmux parkValue s) = (.ok (), { parked mmux parkValue s with
      regs := value.elim s.regs (mmux.setDivider (mmux.lane s.regs) · s.regs)
      retuneState := .running }) := by
  have hlane : (mmux.lane (parked mmux parkValue s).regs).other = mmux.lane s.regs := by
    dsimp only [parked]
    rw [parked_lane, Lane.other_other]
  rw [unpark_eq rfl fun divider hdivider => hlane ▸ hvalue divider hdivider]
  dsimp only [parked]
  rw [unparked_parked]

/-- A new divider changes only its field and the enable bit of its lane. -/
theorem set_divider_changes {mmux : Mmux} {lane : Lane} {value : Nat} {regs : RegisterFile}
    {reg bit : Nat}
    (h : (mmux.setDivider lane value regs reg).getLsbD bit ≠ (regs reg).getLsbD bit) :
    reg = (mmux.div lane).reg ∧ ((mmux.div lane).field.Covers bit ∨ bit = enableBit) := by
  unfold setDivider at h
  by_cases hreg : reg = (mmux.div lane).reg
  · subst hreg
    refine ⟨rfl, ?_⟩
    rw [RegisterFile.write_self] at h
    by_cases henable : bit = enableBit
    · exact .inr henable
    · rw [set_en_div_factor_bit _ henable, Field.set_bit] at h
      by_cases hcovers : (mmux.div lane).field.Covers bit
      · exact .inl hcovers
      · rw [if_neg hcovers] at h
        exact absurd rfl h
  · rw [RegisterFile.write_other _ _ hreg] at h
    exact absurd rfl h

end NanoKvm.Clock
