import NanoKvm.Clock.Parking

/-!
# Rolling a retuned PLL back

The PLL that the CPU mux watches is a fractional one: its rate is set by the dividers in
its own register and, in fractional mode, by the word in the set register of its
synthesizer. `fpllSetRate` rewrites both; the notifier saves and restores the first
alone. `rollback_restores_iff` says for which configurations and requests that is enough.
-/

namespace NanoKvm.Clock

open Exec Mmux

/-- The parts of `cv1800_clk_pll` and its synthesizer that decide the rate beside the register of
the PLL: the bit that `fpll_is_factional_mode` tests and the set register. The searches of
the PLL driver, `ipll_find_rate` and `fpll_find_rate`, give the dividers for a rate and, in
fractional mode, the synthesizer word; `copyReg` puts dividers into the word of the register. -/
structure Pll (mmux : Mmux) where
  mode : RegBit
  setReg : Nat
  ipllFindRate : UInt64 → UInt64 → Except Errno Word
  fpllFindRate : UInt64 → UInt64 → Except Errno (Word × Word)
  copyReg : Word → Word → Word
  set_apart : (∀ lane, setReg ≠ (mmux.div lane).reg) ∧ setReg ≠ mmux.clkSel.reg ∧
    setReg ≠ mmux.pllReg
  mode_apart : (∀ lane, mode.reg ≠ (mmux.div lane).reg) ∧ mode.reg ≠ mmux.clkSel.reg

namespace Pll

variable {mmux : Mmux}

/-- `fpll_is_factional_mode` -/
def fractional (pll : Pll mmux) (regs : RegisterFile) : Bool := checkbit regs pll.mode

/-- New dividers in the register of the PLL. -/
def writeDividers (pll : Pll mmux) (detected : Word) (regs : RegisterFile) : RegisterFile :=
  regs.write mmux.pllReg (pll.copyReg (regs mmux.pllReg) detected)

/-- The registers after `ipll_set_rate`. -/
def ipllSetRate (pll : Pll mmux) (rate parentRate : UInt64) (regs : RegisterFile) :
    Except Errno RegisterFile :=
  match pll.ipllFindRate rate parentRate with
  | .error error => .error error
  | .ok detected => .ok (pll.writeDividers detected regs)

/-- The registers after `fpll_set_rate`: a search that fails is reported before any write, and in
fractional mode the synthesizer word is written beside the dividers. -/
def fpllSetRate (pll : Pll mmux) (rate parentRate : UInt64) (regs : RegisterFile) :
    Except Errno RegisterFile :=
  if ¬ pll.fractional regs then pll.ipllSetRate rate parentRate regs
  else
    match pll.fpllFindRate rate parentRate with
    | .error error => .error error
    | .ok (detected, detectedSsc) =>
        .ok (pll.writeDividers detected (regs.write pll.setReg detectedSsc))

/-- The registers that determine the rate of the PLL. -/
def rateRegisters (pll : Pll mmux) : List Nat := [mmux.pllReg, pll.setReg, pll.mode.reg]

/-- The registers after a request, which keeps them when the search fails: the framework
discards the error. -/
def requested (pll : Pll mmux) (rate parentRate : UInt64) (regs : RegisterFile) : RegisterFile :=
  (pll.fpllSetRate rate parentRate regs).toOption.getD regs

/-- The synthesizer word that a request leaves: a new one only in fractional mode and only when
the search succeeds. -/
theorem requested_set (pll : Pll mmux) (rate parentRate : UInt64) (regs : RegisterFile) :
    pll.requested rate parentRate regs pll.setReg = regs pll.setReg ↔
      (pll.fractional regs = false ∨ ∀ detected detectedSsc,
        pll.fpllFindRate rate parentRate = .ok (detected, detectedSsc) →
          detectedSsc = regs pll.setReg) := by
  have hset := pll.set_apart.2.2
  unfold requested fpllSetRate
  cases hmode : pll.fractional regs with
  | false =>
      rw [if_pos (by simp)]
      unfold ipllSetRate
      cases pll.ipllFindRate rate parentRate with
      | error error => simp [Except.toOption]
      | ok detected => simp [Except.toOption, writeDividers, RegisterFile.write_other _ _ hset]
  | true =>
      rw [if_neg (by simp)]
      cases hfound : pll.fpllFindRate rate parentRate with
      | error error => simp [Except.toOption]
      | ok found =>
          obtain ⟨detected, detectedSsc⟩ := found
          simp only [Except.toOption, Option.getD_some, writeDividers,
            RegisterFile.write_other _ _ hset, RegisterFile.write_self, Except.ok.injEq,
            Prod.mk.injEq, Bool.true_eq_false, false_or]
          constructor
          · intro hsame _ _ hfound
            rw [← hfound.2, hsame]
          · intro hall
            exact hall detected detectedSsc ⟨rfl, rfl⟩

/-- A request writes no register but that of the PLL and the set register. -/
theorem requested_other (pll : Pll mmux) (rate parentRate : UInt64) (regs : RegisterFile)
    {reg : Nat} (hpll : reg ≠ mmux.pllReg) (hset : reg ≠ pll.setReg) :
    pll.requested rate parentRate regs reg = regs reg := by
  unfold requested fpllSetRate
  split
  · unfold ipllSetRate
    cases pll.ipllFindRate rate parentRate with
    | error error => rfl
    | ok detected => exact RegisterFile.write_other _ _ hpll
  · cases pll.fpllFindRate rate parentRate with
    | error error => rfl
    | ok found =>
        obtain ⟨detected, detectedSsc⟩ := found
        simp only [Except.toOption, Option.getD_some, writeDividers,
          RegisterFile.write_other _ _ hpll, RegisterFile.write_other _ _ hset]

end Pll

/-! ## The way back -/

section

variable {mmux : Mmux} {regs after : RegisterFile}

/-- Unparking reads the selector register and changes a register from its own word. -/
theorem unparked_congr (saved : Word) {reg : Nat}
    (hsel : after mmux.clkSel.reg = regs mmux.clkSel.reg) (hreg : after reg = regs reg) :
    unparkedRegs mmux none saved after reg = unparkedRegs mmux none saved regs reg := by
  have hlane : mmux.lane after = mmux.lane regs := by
    unfold Mmux.lane checkbit
    rw [hsel]
  unfold unparkedRegs
  rw [hlane]
  by_cases hdiv : reg = (mmux.div (mmux.lane regs)).reg
  · rw [hdiv, RegisterFile.write_self, RegisterFile.write_self]
  · rw [RegisterFile.write_other _ _ hdiv, RegisterFile.write_other _ _ hdiv]
    unfold Mmux.flip
    by_cases hclk : reg = mmux.clkSel.reg
    · rw [hclk, RegisterFile.write_self, RegisterFile.write_self]
      exact congrArg (· ^^^ _) hsel
    · rw [RegisterFile.write_other _ _ hclk, RegisterFile.write_other _ _ hclk]
      exact hreg

/-- It leaves every register that is not one of the mux. -/
theorem unparked_apart (saved : Word) {reg : Nat} (hdiv : ∀ lane, reg ≠ (mmux.div lane).reg)
    (hclk : reg ≠ mmux.clkSel.reg) : unparkedRegs mmux none saved regs reg = regs reg := by
  unfold unparkedRegs Mmux.flip
  rw [RegisterFile.write_other _ _ (hdiv _), RegisterFile.write_other _ _ hclk]
  rfl

/-- So does parking. -/
theorem parked_apart (value : Nat) {reg : Nat} (hdiv : ∀ lane, reg ≠ (mmux.div lane).reg)
    (hclk : reg ≠ mmux.clkSel.reg) : parkedRegs mmux value regs reg = regs reg := by
  unfold parkedRegs Mmux.flip prepare
  rw [RegisterFile.write_other _ _ hclk, RegisterFile.write_other _ _ (hdiv _)]

/-- In particular the register of the PLL. -/
theorem parked_pll_word (mmux : Mmux) (value : Nat) (regs : RegisterFile) :
    parkedRegs mmux value regs mmux.pllReg = regs mmux.pllReg :=
  parked_apart value mmux.pll_apart.1 mmux.pll_apart.2.1

end

/-- A `PRE_RATE_CHANGE` that parks saves the word of the PLL as it was before. -/
theorem pre_ok {mmux : Mmux} {upstream : Upstream} {rates : Rates} {oldRate newRate : UInt64}
    {s t : State} (h : mmux.pre upstream rates oldRate newRate s = (.ok, t)) :
    ∃ value, t = { parked mmux value s with savedPll := s.regs mmux.pllReg } := by
  unfold Mmux.pre at h
  split at h
  · cases h
  · split at h
    · cases h
    · rename_i parkedState hpark
      obtain ⟨parkRate, _, _, _, _, _, _, rfl⟩ := park_ok hpark
      cases h
      refine ⟨(divRoundUpUll parkRate
        (divu (min oldRate newRate) (mmux.activeDiv upstream s.regs))).toUInt32.toNat, ?_⟩
      simp only [parked, parked_pll_word]

/-- The whole of a retune that does not lock and is rolled back to a setting that does: from the
state before `PRE_RATE_CHANGE` over the request to the state after `POST_RATE_CHANGE`. -/
def rolledBack (mmux : Mmux) (pll : Pll mmux) (rate parentRate : UInt64) (t : State) : State :=
  (mmux.post false true { t with regs := pll.requested rate parentRate t.regs }).2

/-- After a retune that does not lock and a rollback that does, the CPU runs from its lane again
and every register but the set register of the synthesizer has its word of before. The registers
that determine the rate all have it exactly when the PLL is in integer mode, or no setting was
found for the request, or the setting found has the synthesizer word of before. -/
theorem rollback_restores_iff (mmux : Mmux) (upstream : Upstream) (pll : Pll mmux) (rates : Rates)
    (oldRate newRate rate parentRate : UInt64) (s t : State)
    (hpre : mmux.pre upstream rates oldRate newRate s = (.ok, t)) :
    (rolledBack mmux pll rate parentRate t).retuneState = .running ∧
      (∀ reg, reg ≠ pll.setReg → (rolledBack mmux pll rate parentRate t).regs reg = s.regs reg) ∧
      ((∀ reg ∈ pll.rateRegisters,
          (rolledBack mmux pll rate parentRate t).regs reg = s.regs reg) ↔
        (pll.fractional s.regs = false ∨ ∀ detected detectedSsc,
          pll.fpllFindRate rate parentRate = .ok (detected, detectedSsc) →
            detectedSsc = s.regs pll.setReg)) := by
  obtain ⟨value, rfl⟩ := pre_ok hpre
  obtain ⟨hsetDiv, hsetSel, hsetPll⟩ := pll.set_apart
  obtain ⟨hmodeDiv, hmodeSel⟩ := pll.mode_apart
  have hrolled : (rolledBack mmux pll rate parentRate
        { parked mmux value s with savedPll := s.regs mmux.pllReg }) =
      { parked mmux value s with
        savedPll := s.regs mmux.pllReg
        regs := unparkedRegs mmux none (s.regs (mmux.div (mmux.lane s.regs).other).reg)
          ((pll.requested rate parentRate (parkedRegs mmux value s.regs)).write mmux.pllReg
            (s.regs mmux.pllReg))
        retuneState := .running } := by
    unfold rolledBack Mmux.post
    rw [if_neg (by simp [parked])]
    simp only [Bool.false_eq_true, if_false, if_true]
    rw [unpark_none_eq rfl]
    rfl
  -- Away from the set register the request and the rollback leave what the park left.
  have hkept : ∀ reg, reg ≠ pll.setReg → (rolledBack mmux pll rate parentRate
      { parked mmux value s with savedPll := s.regs mmux.pllReg }).regs reg = s.regs reg := by
    intro reg hreg
    have hword : ∀ reg, reg ≠ pll.setReg →
        (pll.requested rate parentRate (parkedRegs mmux value s.regs)).write mmux.pllReg
          (s.regs mmux.pllReg) reg = parkedRegs mmux value s.regs reg := by
      intro reg hreg
      by_cases hpll : reg = mmux.pllReg
      · rw [hpll, RegisterFile.write_self, parked_pll_word]
      · rw [RegisterFile.write_other _ _ hpll, pll.requested_other _ _ _ hpll hreg]
    rw [hrolled]
    dsimp only
    rw [unparked_congr _ (hword _ hsetSel.symm) (hword reg hreg), unparked_parked]
    rfl
  have hset : (rolledBack mmux pll rate parentRate
      { parked mmux value s with savedPll := s.regs mmux.pllReg }).regs pll.setReg =
      pll.requested rate parentRate (parkedRegs mmux value s.regs) pll.setReg := by
    rw [hrolled]
    dsimp only
    rw [unparked_apart _ hsetDiv hsetSel, RegisterFile.write_other _ _ hsetPll]
  have hmode : pll.fractional (parkedRegs mmux value s.regs) = pll.fractional s.regs := by
    unfold Pll.fractional checkbit
    rw [parked_apart _ hmodeDiv hmodeSel]
  have hrequested := pll.requested_set rate parentRate (parkedRegs mmux value s.regs)
  rw [hmode, parked_apart _ hsetDiv hsetSel] at hrequested
  refine ⟨by rw [hrolled], hkept, ?_⟩
  rw [← hrequested, ← hset]
  constructor
  · intro hall
    exact hall _ (by simp [Pll.rateRegisters])
  · intro hsetWord reg hmem
    by_cases hreg : reg = pll.setReg
    · rw [hreg]
      exact hsetWord
    · exact hkept reg hreg

/-- The word of the dividers that multiply by a factor and do not divide. -/
def dividers (factor : Nat) : Word := .ofNat 32 (0x101 + factor * 2 ^ 17)

/-- The word of the synthesizer for a rate at the factor 40. -/
def synthesizerWord (rate parentRate : UInt64) : Word :=
  .ofNat 32 (parentRate.toNat * 40 * 2 ^ 26 / rate.toNat)

/-- MPLL beside the C906 mux: the synthesizer's mode bit, its set register and the fields of the
divider word. In integer mode the search finds the multiples of the parent's rate, and in fractional
mode it keeps the factor 40. -/
def c906Pll : Pll c906Mmux where
  mode := { reg := 20, shift := 3, fits := by omega }
  setReg := 24
  ipllFindRate rate parentRate :=
    if rate % parentRate = 0 then .ok (dividers (rate / parentRate).toNat) else .error .inval
  fpllFindRate rate parentRate := .ok (dividers 40, synthesizerWord rate parentRate)
  copyReg register detected := (register &&& ~~~0x07ffff7f) ||| (detected &&& 0x07ffff7f)
  set_apart := ⟨fun lane => by cases lane <;> decide, by decide, by decide⟩
  mode_apart := ⟨fun lane => by cases lane <;> decide, by decide⟩

/-- The C906 mux beside an MPLL at 850 MHz: with the factor 34 in integer mode, or with the factor 40
and a synthesizer word in fractional mode. -/
def mpllState (fractional : Bool) : State :=
  { c906System.mux with
    regs := ((c906System.mux.regs.write 16 (dividers (if fractional then 40 else 34))).write 20
      (if fractional then 8 else 0)).write 24 (synthesizerWord 850000000 25000000) }

/-- In integer mode the rollback restores every register that determines the rate, the dividers of
the setting that did not lock among them. -/
theorem rollback_restores_integer :
    ∃ t, c906Mmux.pre c906Upstream c906Rates 850000000 1000000000 (mpllState false) = (.ok, t) ∧
      c906Pll.requested 1000000000 25000000 t.regs c906Mmux.pllReg = dividers 40 ∧
      ∀ reg ∈ c906Pll.rateRegisters,
        (rolledBack c906Mmux c906Pll 1000000000 25000000 t).regs reg =
          (mpllState false).regs reg := by
  have hrestores := rollback_restores_iff c906Mmux c906Upstream c906Pll c906Rates 850000000
    1000000000 1000000000 25000000 (mpllState false) _ rfl
  exact ⟨_, rfl, by decide, hrestores.2.2.2 (.inl (by decide))⟩

/-- In fractional mode the synthesizer keeps the word of the setting that did not lock. -/
theorem rollback_keeps_synthesizer :
    ∃ t, c906Mmux.pre c906Upstream c906Rates 850000000 1000000000 (mpllState true) = (.ok, t) ∧
      c906Pll.fractional (mpllState true).regs = true ∧
      (rolledBack c906Mmux c906Pll 1000000000 25000000 t).retuneState = .running ∧
      (rolledBack c906Mmux c906Pll 1000000000 25000000 t).regs c906Pll.setReg =
        synthesizerWord 1000000000 25000000 ∧
      (mpllState true).regs c906Pll.setReg = synthesizerWord 850000000 25000000 ∧
      synthesizerWord 1000000000 25000000 ≠ synthesizerWord 850000000 25000000 :=
  ⟨_, rfl, by decide, by decide, by decide, by decide, by decide⟩

end NanoKvm.Clock
