import NanoKvm.Exec.Registers

/-!
# The CPU clock mux of the CV18xx driver

`cv1800_clk_mmux` as the patch series leaves it: a bypass to the oscillator, a selector
bit that names one of two lanes, and in each lane a mux field that names a PLL and a
divider field. `park` moves the CPU to the other lane, `unpark` moves it back, `setRate`
is the rate operation of the clock and `pre`, `post` and `abort` are the three cases of
the notifier that watches the PLL of the active lane.

What the driver takes from the kernel around it is in `Upstream` and in the arguments:
the rates of the parents, the divider helpers and the outcome of each lock poll.
-/

namespace NanoKvm.Clock

open Exec

/-- The error codes of the mux operations. -/
inductive Errno where
  | busy | inval | range | io
  deriving DecidableEq, Repr

/-- The two divider lanes. -/
inductive Lane where
  | zero | one
  deriving DecidableEq, Repr

/-- `!lane` -/
def Lane.other : Lane → Lane
  | .zero => .one
  | .one => .zero

/-- `struct cv1800_clk_regfield`: the register and the bits in it. -/
structure RegField where
  reg : Nat
  field : Field

/-- `struct cv1800_clk_regbit` -/
structure RegBit where
  reg : Nat
  shift : Nat
  fits : shift < 32

/-- The bit of a divider register that `DIV_SET_EN_DIV_FACTOR` sets. -/
def enableBit : Nat := 3

/-- `DIV_SET_EN_DIV_FACTOR` -/
def setEnDivFactor (word : Word) : Word := word ||| BitVec.twoPow 32 enableBit

/-- `struct cv1800_clk_mmux`, as far as it describes the hardware, with the PLL it tolerates
being retuned: the offset of its register and its index among the parents. Both fields of a lane
live in one register of their own, and the park position of a lane is not fed by that PLL. -/
structure Mmux where
  div : Lane → RegField
  mux : Lane → RegField
  bypass : RegBit
  clkSel : RegBit
  sel2parent : Lane → Nat → Nat
  pllReg : Nat
  retunePll : Nat
  mux_reg : ∀ lane, (mux lane).reg = (div lane).reg
  lanes_apart : (div .zero).reg ≠ (div .one).reg
  clk_sel_apart : ∀ lane, clkSel.reg ≠ (div lane).reg
  bypass_apart : ∀ lane, bypass.reg ≠ (div lane).reg
  bits_apart : clkSel.reg = bypass.reg → bypass.shift ≠ clkSel.shift
  fields_apart : ∀ lane, (mux lane).field.Apart (div lane).field
  enable_apart : ∀ lane, ¬ (div lane).field.Covers enableBit ∧ ¬ (mux lane).field.Covers enableBit
  width_pos : ∀ lane, 0 < (div lane).field.width ∧ 0 < (mux lane).field.width
  pll_apart : (∀ lane, pllReg ≠ (div lane).reg) ∧ pllReg ≠ clkSel.reg ∧ pllReg ≠ bypass.reg
  park_parent : ∀ lane, sel2parent lane 0 ≠ retunePll
  retune_ne_oscillator : retunePll ≠ 0

/-- The helpers of the clock core that the driver calls: `div_helper_get_clockdiv` on the word of
a divider's register, `divider_get_val`, which never returns more than the field holds, and
`mmux_recalc_rate`. -/
structure Upstream where
  clockDiv : RegField → Word → UInt64
  dividerGetVal : UInt64 → UInt64 → RegField → Except Errno Nat
  recalcRate : RegisterFile → UInt64 → UInt64
  divider_get_val_lt : ∀ {rate parentRate div value},
    dividerGetVal rate parentRate div = .ok value → value < 2 ^ div.field.width

/-- `retune_state` -/
inductive RetuneState where
  | running | parked | stranded
  deriving DecidableEq, Repr

/-- The registers, what the mux saved, and the parent the clock framework has on record. -/
structure State where
  regs : RegisterFile
  savedLane : Word
  savedPll : Word
  retuneState : RetuneState
  parent : Nat

/-- The rates that the framework reports for the parents, none for a parent that is missing or
disabled. -/
abbrev Rates : Type := Nat → Option UInt64

/-- Unsigned division of the processor: a zero divisor gives all ones. -/
def divu (dividend divisor : UInt64) : UInt64 :=
  if divisor = 0 then 0xffffffffffffffff else dividend / divisor

/-- `DIV_ROUND_UP_ULL`. The sum is a 64-bit one and `do_div` takes a 32-bit divisor. -/
def divRoundUpUll (dividend divisor : UInt64) : UInt64 :=
  divu (dividend + divisor - 1) divisor.toUInt32.toUInt64

/-- `cv1800_clk_checkbit` -/
def checkbit (regs : RegisterFile) (bit : RegBit) : Bool := (regs bit.reg).getLsbD bit.shift

/-- The largest value of a field, `GENMASK(width - 1, 0)`. -/
def RegField.limit (field : RegField) : Nat := 2 ^ field.field.width - 1

namespace Mmux

/-- The lane that the selector names. -/
def lane (mmux : Mmux) (regs : RegisterFile) : Lane :=
  if checkbit regs mmux.clkSel then .zero else .one

/-- `mmux_get_parent`: the oscillator in bypass, else what the mux of the selected lane names. -/
def getParent (mmux : Mmux) (regs : RegisterFile) : Nat :=
  if checkbit regs mmux.bypass then 0
  else
    let lane := mmux.lane regs
    mmux.sel2parent lane ((mmux.mux lane).field.get (regs (mmux.mux lane).reg))

/-- Flip the selector bit and leave the rest of its register. -/
def flip (mmux : Mmux) (regs : RegisterFile) : RegisterFile :=
  regs.write mmux.clkSel.reg (regs mmux.clkSel.reg ^^^ BitVec.twoPow 32 mmux.clkSel.shift)

/-- The register of a lane with a new divider and its enable bit. -/
def setDivider (mmux : Mmux) (lane : Lane) (value : Nat) (regs : RegisterFile) : RegisterFile :=
  regs.write (mmux.div lane).reg
    (setEnDivFactor ((mmux.div lane).field.set (regs (mmux.div lane).reg) value))

/-- The register of a lane prepared for parking: divider, first parent and enable bit. -/
def prepare (mmux : Mmux) (lane : Lane) (value : Nat) (regs : RegisterFile) : RegisterFile :=
  regs.write (mmux.div lane).reg (setEnDivFactor ((mmux.mux lane).field.set
    ((mmux.div lane).field.set (regs (mmux.div lane).reg) value) 0))

/-- `cv1800_clk_mmux_park` -/
def park (mmux : Mmux) (rates : Rates) (limit : UInt64) (s : State) : Except Errno Unit × State :=
  if s.retuneState ≠ .running then (.error .busy, s)
  else if checkbit s.regs mmux.bypass then (.error .inval, s)
  else
    let parkLane := (mmux.lane s.regs).other
    match rates (mmux.sel2parent parkLane 0) with
    | none => (.error .inval, s)
    | some parkRate =>
        if parkRate = 0 ∨ limit = 0 then (.error .inval, s)
        else
          let parkVal := (divRoundUpUll parkRate limit).toUInt32.toNat
          if parkVal > (mmux.div parkLane).limit then (.error .range, s)
          else (.ok (), { s with
            savedLane := s.regs (mmux.div parkLane).reg
            regs := mmux.flip (mmux.prepare parkLane parkVal s.regs)
            retuneState := .parked })

/-- `cv1800_clk_mmux_unpark`; no value stands for a negative one, which keeps the divider. -/
def unpark (mmux : Mmux) (value : Option Nat) (s : State) : Except Errno Unit × State :=
  if s.retuneState ≠ .parked then (.error .inval, s)
  else
    -- While parked the selector names the parked lane.
    let parkLane := mmux.lane s.regs
    let lane := parkLane.other
    if value.any (· > (mmux.div lane).limit) then (.error .range, s)
    else
      let regs := value.elim s.regs (mmux.setDivider lane · s.regs)
      (.ok (), { s with
        regs := (mmux.flip regs).write (mmux.div parkLane).reg s.savedLane
        retuneState := .running })

/-- The last part of `mmux_set_rate`: change the divider from the other lane. -/
def changeDivider (mmux : Mmux) (rates : Rates) (limit : UInt64) (value : Nat) (s : State) :
    Except Errno Unit × State :=
  match mmux.park rates limit s with
  | (.error error, s) => (.error error, s)
  | (.ok (), s) => mmux.unpark (some value) s

/-- `mmux_set_rate` -/
def setRate (mmux : Mmux) (upstream : Upstream) (rates : Rates) (rate parentRate : UInt64)
    (s : State) : Except Errno Unit × State :=
  match s.retuneState with
  | .parked => mmux.unpark none s
  | .stranded => (.error .io, s)
  | .running =>
      if rate = 0 ∨ parentRate = 0 then (.error .inval, s)
      else if checkbit s.regs mmux.bypass then (.ok (), s)
      else
        let div := mmux.div (mmux.lane s.regs)
        match upstream.dividerGetVal rate parentRate div with
        | .error error => (.error error, s)
        | .ok value =>
            if value = (upstream.clockDiv div (s.regs div.reg)).toNat then (.ok (), s)
            else mmux.changeDivider rates (min rate (upstream.recalcRate s.regs parentRate)) value s

/-- What a notifier returns to the framework. -/
inductive Notify where
  | done | ok
  | error (errno : Errno)
  deriving DecidableEq, Repr

/-- The divider of the active lane. -/
def activeDiv (mmux : Mmux) (upstream : Upstream) (regs : RegisterFile) : UInt64 :=
  let div := mmux.div (mmux.lane regs)
  upstream.clockDiv div (regs div.reg)

/-- `mmux_retune_notifier` on `PRE_RATE_CHANGE`. -/
def pre (mmux : Mmux) (upstream : Upstream) (rates : Rates) (oldRate newRate : UInt64)
    (s : State) : Notify × State :=
  if s.parent ≠ mmux.retunePll then (.done, s)
  else
    match mmux.park rates (divu (min oldRate newRate) (mmux.activeDiv upstream s.regs)) s with
    | (.error error, s) => (.error error, s)
    | (.ok (), s) => (.ok, { s with savedPll := s.regs mmux.pllReg })

/-- The setting that never locked is replaced by the saved one. -/
def rollBack (mmux : Mmux) (s : State) : State :=
  { s with regs := s.regs.write mmux.pllReg s.savedPll }

/-- `mmux_retune_notifier` on `POST_RATE_CHANGE`, with the outcome of the lock poll and of the
second one that follows a rollback. -/
def post (mmux : Mmux) (locked relocked : Bool) (s : State) : Notify × State :=
  if s.retuneState ≠ .parked then (.done, s)
  else if locked then (.ok, (mmux.unpark none s).2)
  else if relocked then (.ok, (mmux.unpark none (mmux.rollBack s)).2)
  else
    let s := mmux.rollBack s
    (.ok, { s with retuneState := .stranded, parent := mmux.getParent s.regs })

/-- `mmux_retune_notifier` on `ABORT_RATE_CHANGE`. -/
def abort (mmux : Mmux) (s : State) : Notify × State :=
  if s.retuneState = .parked then (.ok, (mmux.unpark none s).2) else (.ok, s)

end Mmux

end NanoKvm.Clock
