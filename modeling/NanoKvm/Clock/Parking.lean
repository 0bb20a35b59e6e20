import Mathlib.Logic.Relation
import Mathlib.Tactic.Ring
import NanoKvm.Clock.Lanes
import NanoKvm.Exec.Reachability

/-!
# Parking the CPU while its PLL is retuned

The clock framework around the mux as a step relation: a retune is announced, the PLL is
rewritten, and the framework ends it by a `POST_RATE_CHANGE`, by an `ABORT_RATE_CHANGE` or
by `mmux_set_rate` when the rate did not move. `Parking` is the invariant of every run,
and `retune_parking` states what it gives: the CPU is off the PLL whenever that may be
rewritten, and below both endpoint rates while it is parked.
-/

namespace NanoKvm.Clock

open Exec Mmux

/-! ## The framework around the mux -/

/-- Where the framework is in a rate change of the PLL: no change under way, `PRE_RATE_CHANGE`
refused, announced without a refusal, the PLL rewritten, or ended without a `POST_RATE_CHANGE`
because the rate did not move. -/
inductive Phase where
  | idle | refused | announced | rewritten | skipped
  deriving DecidableEq, Repr

/-- The rates of the last announced change, the active divider it found, the rate of the parent
that the other lane parks on and the largest divider of that lane. -/
structure Announcement where
  oldRate : UInt64
  newRate : UInt64
  divider : UInt64
  parkRate : UInt64
  largest : Nat
  deriving DecidableEq, Repr

/-- The mux, the phase of the framework and the last announcement. -/
structure System where
  mux : State
  phase : Phase
  announced : Announcement

/-- The PLL may be rewritten: its change was announced and not refused, and has not ended. -/
def Phase.MayRewrite : Phase → Prop
  | .announced | .rewritten => True
  | _ => False

/-- Another driver wrote registers, but neither a lane nor a bit of the selection. -/
structure KeepsMux (mmux : Mmux) (regs after : RegisterFile) : Prop where
  lanes : ∀ lane, after (mmux.div lane).reg = regs (mmux.div lane).reg
  clkSel : checkbit after mmux.clkSel = checkbit regs mmux.clkSel
  bypass : checkbit after mmux.bypass = checkbit regs mmux.bypass

/-- The phase after the notifier answered a `PRE_RATE_CHANGE`. -/
def phaseAfter : Notify → Phase
  | .error _ => .refused
  | _ => .announced

/-- What the announcement of a change finds. -/
def announce (mmux : Mmux) (upstream : Upstream) (rates : Rates) (oldRate newRate : UInt64)
    (s : State) : Announcement where
  oldRate := oldRate
  newRate := newRate
  divider := mmux.activeDiv upstream s.regs
  parkRate := (rates (mmux.sel2parent (mmux.lane s.regs).other 0)).getD 0
  largest := (mmux.div (mmux.lane s.regs).other).limit

/-- The steps that the clock framework allows. To a running mux a change of the parent on record is
announced only when it is admitted. -/
inductive Step (mmux : Mmux) (upstream : Upstream)
    (admitted : Announcement → Prop) : System → System → Prop where
  | pre (s : System) (rates : Rates) (oldRate newRate : UInt64) (idle : s.phase = .idle)
      (allowed : s.mux.retuneState = .running → s.mux.parent = mmux.retunePll →
        admitted (announce mmux upstream rates oldRate newRate s.mux)) :
      Step mmux upstream admitted s
        { mux := (mmux.pre upstream rates oldRate newRate s.mux).2
          phase := phaseAfter (mmux.pre upstream rates oldRate newRate s.mux).1
          announced := announce mmux upstream rates oldRate newRate s.mux }
  | rewrite (s : System) (regs : RegisterFile) (may : s.phase.MayRewrite)
      (keeps : KeepsMux mmux s.mux.regs regs) :
      Step mmux upstream admitted s { s with mux := { s.mux with regs }, phase := .rewritten }
  | post (s : System) (locked relocked : Bool) (may : s.phase.MayRewrite) :
      Step mmux upstream admitted s
        { s with mux := (mmux.post locked relocked s.mux).2, phase := .idle }
  | skip (s : System) (may : s.phase.MayRewrite) :
      Step mmux upstream admitted s { s with phase := .skipped }
  | abort (s : System) (unwritten : s.phase = .refused ∨ s.phase = .announced) :
      Step mmux upstream admitted s { s with mux := (mmux.abort s.mux).2, phase := .idle }
  | setRate (s : System) (rates : Rates) (rate parentRate : UInt64)
      (called : s.phase = .idle ∨ s.phase = .skipped) :
      Step mmux upstream admitted s
        { s with mux := (mmux.setRate upstream rates rate parentRate s.mux).2, phase := .idle }

/-- A mux as its registration leaves it: running, with the parent of its registers on record. -/
structure Registered (mmux : Mmux) (s : System) : Prop where
  phase : s.phase = .idle
  state : s.mux.retuneState = .running
  parent : s.mux.parent = mmux.getParent s.mux.regs

/-- The divider that the selected lane has programmed. -/
def programmedDivider (mmux : Mmux) (regs : RegisterFile) : Nat :=
  (mmux.div (mmux.lane regs)).field.get (regs (mmux.div (mmux.lane regs)).reg)

/-- The park parent's rate over the programmed divider is at most the smaller endpoint over the
active divider. -/
structure Slow (announced : Announcement) (divider : Nat) : Prop where
  divider_pos : 0 < divider
  active_pos : 0 < announced.divider.toNat
  rate : announced.parkRate.toNat * announced.divider.toNat ≤
    min announced.oldRate.toNat announced.newRate.toNat * divider

/-- The rate that the CPU may have at most: the smaller endpoint over the active divider. -/
def Announcement.limit (announced : Announcement) : Nat :=
  min announced.oldRate.toNat announced.newRate.toNat / announced.divider.toNat

/-- The park rate over the limit, rounded up; the divisor has 32 bits. -/
def Announcement.quotient (announced : Announcement) : Nat :=
  (announced.parkRate.toNat + announced.limit - 1) / (announced.limit % 2 ^ 32)

/-- The driver divides the announced rates as meant, or has to refuse the change: there is no rate
to park on, the limit is zero, or the active divider is not zero, the sum of `DIV_ROUND_UP_ULL` does
not wrap, and the quotient fits in its 32 bits or is too large for the divider also without the
bits above. -/
inductive Divides (announced : Announcement) : Prop where
  | noRate (h : announced.parkRate = 0)
  | noLimit (hdivider : announced.divider ≠ 0) (h : announced.limit = 0)
  | rates (hdivider : announced.divider ≠ 0)
      (hsum : announced.parkRate.toNat + announced.limit ≤ 2 ^ 64)
      (hquotient : announced.quotient < 2 ^ 32 ∨
        announced.largest < announced.quotient % 2 ^ 32)

/-- The invariant of the system. -/
structure Parking (mmux : Mmux) (admitted : Announcement → Prop) (s : System) : Prop where
  /-- A running mux has the parent of its registers on record. -/
  running : s.mux.retuneState = .running → s.mux.parent = mmux.getParent s.mux.regs
  /-- A change that was announced to a running mux is not one of its own PLL. -/
  unaffected : s.mux.retuneState = .running → s.phase.MayRewrite → s.mux.parent ≠ mmux.retunePll
  /-- Off its lane the CPU is not bypassed and takes the first parent of the other one. -/
  away : s.mux.retuneState ≠ .running → checkbit s.mux.regs mmux.bypass = false ∧
    (mmux.mux (mmux.lane s.mux.regs)).field.get
      (s.mux.regs (mmux.mux (mmux.lane s.mux.regs)).reg) = 0
  /-- It is parked only while a change is under way. -/
  busy : s.mux.retuneState = .parked → s.phase ≠ .idle
  /-- While parked, the lane it came from names the parent on record. -/
  back : s.mux.retuneState = .parked → s.mux.parent = otherParent mmux s.mux.regs
  /-- It was parked for a change that was admitted. -/
  admitted : s.mux.retuneState = .parked → admitted s.announced
  /-- While parked for rates that the driver divides, it is slow. -/
  slow : s.mux.retuneState = .parked → Divides s.announced →
    Slow s.announced (programmedDivider mmux s.mux.regs)

/-! ## The arithmetic of the limit -/

/-- The smaller of two rates. -/
theorem min_to_nat (left right : UInt64) :
    (min left right).toNat = min left.toNat right.toNat := by
  show (if left ≤ right then left else right).toNat = min left.toNat right.toNat
  split
  · rename_i h
    rw [min_eq_left (UInt64.le_iff_toNat_le.1 h)]
  · rename_i h
    rw [UInt64.le_iff_toNat_le] at h
    rw [min_eq_right (by omega)]

/-- The quotient of `DIV_ROUND_UP_ULL` by a limit whose low bits are not all zero. -/
theorem div_round_up_to_nat {parkRate limit : UInt64} (hlow : limit.toNat % 2 ^ 32 ≠ 0)
    (hsum : parkRate.toNat + limit.toNat ≤ 2 ^ 64) :
    (divRoundUpUll parkRate limit).toUInt32.toNat =
      (parkRate.toNat + limit.toNat - 1) / (limit.toNat % 2 ^ 32) % 2 ^ 32 := by
  have hbase : limit.toUInt32.toUInt64.toNat = limit.toNat % 2 ^ 32 := by
    rw [UInt32.toNat_toUInt64, UInt64.toNat_toUInt32]
  have hdivisor : limit.toUInt32.toUInt64 ≠ 0 := fun hzero => hlow (by rw [← hbase, hzero]; rfl)
  have hdividend : (parkRate + limit - 1).toNat = parkRate.toNat + limit.toNat - 1 := by
    have hone : (1 : UInt64).toNat = 1 := rfl
    rw [UInt64.toNat_sub, UInt64.toNat_add, hone]
    omega
  rw [UInt64.toNat_toUInt32, divRoundUpUll, divu, if_neg hdivisor, UInt64.toNat_div, hdividend,
    hbase]

/-- By a limit whose low bits are all zero the processor divides to all ones. -/
theorem div_round_up_all_ones {parkRate limit : UInt64} (hlow : limit.toNat % 2 ^ 32 = 0) :
    (divRoundUpUll parkRate limit).toUInt32.toNat = 2 ^ 32 - 1 := by
  have hdivisor : limit.toUInt32.toUInt64 = 0 := by
    apply UInt64.toNat_inj.1
    rw [UInt32.toNat_toUInt64, UInt64.toNat_toUInt32, hlow]
    rfl
  rw [divRoundUpUll, divu, if_pos hdivisor]
  rfl

/-- A quotient that has lost no bits keeps the rate at or below the limit as divider. -/
theorem div_round_up_bound {parkRate limit : UInt64} (hrate : parkRate ≠ 0) (hlimit : limit ≠ 0)
    (hsum : parkRate.toNat + limit.toNat ≤ 2 ^ 64)
    (hquotient : (parkRate.toNat + limit.toNat - 1) / (limit.toNat % 2 ^ 32) < 2 ^ 32) :
    0 < (divRoundUpUll parkRate limit).toUInt32.toNat ∧
      parkRate.toNat ≤ (divRoundUpUll parkRate limit).toUInt32.toNat * limit.toNat := by
  have hrateNat : 0 < parkRate.toNat := Nat.pos_of_ne_zero fun h => hrate (UInt64.toNat_inj.1 h)
  have hlimitNat : 0 < limit.toNat := Nat.pos_of_ne_zero fun h => hlimit (UInt64.toNat_inj.1 h)
  by_cases hlow : limit.toNat % 2 ^ 32 = 0
  · rw [div_round_up_all_ones hlow]
    omega
  rw [div_round_up_to_nat hlow hsum, Nat.mod_eq_of_lt hquotient]
  have hle : limit.toNat % 2 ^ 32 ≤ limit.toNat := Nat.mod_le _ _
  have hmod := Nat.div_add_mod (parkRate.toNat + limit.toNat - 1) (limit.toNat % 2 ^ 32)
  have hlt := Nat.mod_lt (parkRate.toNat + limit.toNat - 1) (Nat.pos_of_ne_zero hlow)
  rw [Nat.mul_comm] at hmod
  refine ⟨Nat.div_pos (by omega) (Nat.pos_of_ne_zero hlow), ?_⟩
  calc parkRate.toNat
      ≤ (parkRate.toNat + limit.toNat - 1) / (limit.toNat % 2 ^ 32) * (limit.toNat % 2 ^ 32) := by
        omega
    _ ≤ (parkRate.toNat + limit.toNat - 1) / (limit.toNat % 2 ^ 32) * limit.toNat :=
        Nat.mul_le_mul_left _ hle

/-- The limit that the notifier computes. -/
theorem limit_to_nat {announced : Announcement} (h : announced.divider ≠ 0) :
    (divu (min announced.oldRate announced.newRate) announced.divider).toNat =
      announced.limit := by
  rw [divu, if_neg h, UInt64.toNat_div, min_to_nat, Announcement.limit]

/-- A park that is not refused does not rest on a zero rate, so the active divider is not zero. -/
theorem Divides.quotient_lt {announced : Announcement} (h : Divides announced)
    (hrate : announced.parkRate ≠ 0)
    (hlimit : divu (min announced.oldRate announced.newRate) announced.divider ≠ 0)
    (hrange : (divRoundUpUll announced.parkRate
      (divu (min announced.oldRate announced.newRate) announced.divider)).toUInt32.toNat ≤
        announced.largest) :
    announced.divider ≠ 0 ∧ announced.parkRate.toNat + announced.limit ≤ 2 ^ 64 ∧
      announced.quotient < 2 ^ 32 := by
  cases h with
  | noRate h => exact absurd h hrate
  | noLimit hdivider h =>
      refine absurd (UInt64.toNat_inj.1 ?_) hlimit
      rw [limit_to_nat hdivider, h]
      rfl
  | rates hdivider hsum hquotient =>
      refine ⟨hdivider, hsum, hquotient.elim id fun hlarge => ?_⟩
      have hnat := limit_to_nat hdivider
      by_cases hlow : announced.limit % 2 ^ 32 = 0
      · rw [Announcement.quotient, hlow, Nat.div_zero]
        exact Nat.two_pow_pos _
      · rw [div_round_up_to_nat (hnat ▸ hlow) (hnat ▸ hsum), hnat] at hrange
        exact absurd hrange (Nat.not_le.2 hlarge)

/-- A park at the limit of a change whose rates divide is slow. -/
theorem slow_of_divides {announced : Announcement} (h : Divides announced)
    (hrate : announced.parkRate ≠ 0)
    (hlimit : divu (min announced.oldRate announced.newRate) announced.divider ≠ 0)
    (hrange : (divRoundUpUll announced.parkRate
      (divu (min announced.oldRate announced.newRate) announced.divider)).toUInt32.toNat ≤
        announced.largest) :
    Slow announced (divRoundUpUll announced.parkRate
      (divu (min announced.oldRate announced.newRate) announced.divider)).toUInt32.toNat := by
  obtain ⟨hdivider, hsum, hquotient⟩ := h.quotient_lt hrate hlimit hrange
  have hnat := limit_to_nat hdivider
  have hactive : 0 < announced.divider.toNat :=
    Nat.pos_of_ne_zero fun hzero => hdivider (UInt64.toNat_inj.1 hzero)
  obtain ⟨hpos, hbound⟩ := div_round_up_bound hrate hlimit (hnat ▸ hsum) (hnat ▸ hquotient)
  refine ⟨hpos, hactive, ?_⟩
  rw [hnat] at hbound
  have hfloor := Nat.div_mul_le_self (min announced.oldRate.toNat announced.newRate.toNat)
    announced.divider.toNat
  calc announced.parkRate.toNat * announced.divider.toNat
      ≤ (divRoundUpUll announced.parkRate
            (divu (min announced.oldRate announced.newRate) announced.divider)).toUInt32.toNat *
          announced.limit * announced.divider.toNat := Nat.mul_le_mul_right _ hbound
    _ = (announced.limit * announced.divider.toNat) *
          (divRoundUpUll announced.parkRate
            (divu (min announced.oldRate announced.newRate)
              announced.divider)).toUInt32.toNat := by ring
    _ ≤ min announced.oldRate.toNat announced.newRate.toNat *
          (divRoundUpUll announced.parkRate
            (divu (min announced.oldRate announced.newRate)
              announced.divider)).toUInt32.toNat := Nat.mul_le_mul_right _ hfloor

/-! ## Every step keeps the invariant -/

section

variable {mmux : Mmux} {upstream : Upstream} {admitted : Announcement → Prop} {s : System}

/-- The selected lane after another driver's writes. -/
theorem KeepsMux.lane {regs after : RegisterFile} (h : KeepsMux mmux regs after) :
    mmux.lane after = mmux.lane regs := by
  unfold Mmux.lane
  rw [h.clkSel]

/-- The parent by the register of the selected lane. -/
theorem get_parent_eq (mmux : Mmux) (regs : RegisterFile) :
    mmux.getParent regs = if checkbit regs mmux.bypass then 0
      else mmux.sel2parent (mmux.lane regs)
        ((mmux.mux (mmux.lane regs)).field.get (regs (mmux.div (mmux.lane regs)).reg)) := by
  rw [← mmux.mux_reg]
  rfl

/-- The selected parent after them. -/
theorem KeepsMux.get_parent {regs after : RegisterFile} (h : KeepsMux mmux regs after) :
    mmux.getParent after = mmux.getParent regs := by
  simp only [get_parent_eq, h.bypass, h.lane, h.lanes]

/-- The parent of the other lane after them. -/
theorem KeepsMux.other_parent {regs after : RegisterFile} (h : KeepsMux mmux regs after) :
    otherParent mmux after = otherParent mmux regs := by
  unfold otherParent
  dsimp only
  rw [h.lane, mmux.mux_reg, h.lanes]

/-- A new divider of a lane selects no other parent. -/
theorem set_divider_get_parent (mmux : Mmux) (lane : Lane) (value : Nat) (regs : RegisterFile) :
    mmux.getParent (mmux.setDivider lane value regs) = mmux.getParent regs := by
  obtain ⟨_, hbypass⟩ := write_div_checkbit mmux regs lane
    (setEnDivFactor ((mmux.div lane).field.set (regs (mmux.div lane).reg) value))
  unfold setDivider
  simp only [get_parent_eq, hbypass, write_div_lane]
  by_cases hreg : (mmux.div (mmux.lane regs)).reg = (mmux.div lane).reg
  · have hlane : mmux.lane regs = lane := by
      by_contra hne
      have hother : lane = (mmux.lane regs).other := by
        revert hne
        cases mmux.lane regs <;> cases lane <;> simp [Lane.other]
      exact div_other_reg mmux _ (hother ▸ hreg.symm)
    rw [hlane, RegisterFile.write_self, get_set_en_div_factor (mmux.enable_apart lane).2,
      Field.get_set_apart (mmux.fields_apart lane)]
  · rw [RegisterFile.write_other _ _ hreg]

/-- Back on its lane, a CPU that is not bypassed has the parent of that lane. -/
theorem unparked_get_parent (mmux : Mmux) (saved : Word) {regs : RegisterFile}
    (h : checkbit regs mmux.bypass = false) :
    mmux.getParent (unparkedRegs mmux none saved regs) = otherParent mmux regs := by
  have hbits := write_div_checkbit mmux (mmux.flip regs) (mmux.lane regs) saved
  have hword : (mmux.flip regs).write (mmux.div (mmux.lane regs)).reg saved
      (mmux.div (mmux.lane regs).other).reg = regs (mmux.div (mmux.lane regs).other).reg := by
    rw [RegisterFile.write_other _ _ (div_other_reg mmux _), flip_div]
  unfold unparkedRegs otherParent
  simp only [Option.elim_none, get_parent_eq, hbits.2, flip_bypass, h, write_div_lane, flip_lane,
    hword, mmux.mux_reg, Bool.false_eq_true, if_false]

/-- Off its lane, a CPU takes the first parent of the other one. -/
theorem Parking.away_parent (h : Parking mmux admitted s) (hstate : s.mux.retuneState ≠ .running) :
    mmux.getParent s.mux.regs = mmux.sel2parent (mmux.lane s.mux.regs) 0 := by
  obtain ⟨hbypass, hmux⟩ := h.away hstate
  unfold getParent
  rw [hbypass]
  dsimp only
  rw [hmux]
  rfl

/-- Whenever the PLL may be rewritten, the CPU does not run from it. -/
theorem Parking.off_pll (h : Parking mmux admitted s) (hphase : s.phase.MayRewrite) :
    mmux.getParent s.mux.regs ≠ mmux.retunePll := by
  by_cases hstate : s.mux.retuneState = .running
  · rw [← h.running hstate]
    exact h.unaffected hstate hphase
  · rw [h.away_parent hstate]
    exact mmux.park_parent _

/-- Outside a rewrite, a mux that is not parked satisfies the invariant by its parent alone. -/
theorem Parking.of_not_parked {t : System} (hparked : t.mux.retuneState ≠ .parked)
    (hphase : ¬ t.phase.MayRewrite)
    (hrunning : t.mux.retuneState = .running → t.mux.parent = mmux.getParent t.mux.regs)
    (haway : t.mux.retuneState ≠ .running → checkbit t.mux.regs mmux.bypass = false ∧
      (mmux.mux (mmux.lane t.mux.regs)).field.get
        (t.mux.regs (mmux.mux (mmux.lane t.mux.regs)).reg) = 0) :
    Parking mmux admitted t where
  running := hrunning
  unaffected _ hmay := absurd hmay hphase
  away := haway
  busy hstate := absurd hstate hparked
  back hstate := absurd hstate hparked
  admitted hstate := absurd hstate hparked
  slow hstate := absurd hstate hparked

/-- A running mux needs the right parent on record. -/
theorem Parking.of_running {t : System} (hstate : t.mux.retuneState = .running)
    (hparent : t.mux.parent = mmux.getParent t.mux.regs) (hphase : ¬ t.phase.MayRewrite) :
    Parking mmux admitted t :=
  .of_not_parked (by simp [hstate]) hphase (fun _ => hparent) (fun hne => absurd hstate hne)

/-- A mux that is not parked stays as it is when a change ends. -/
theorem Parking.settle (h : Parking mmux admitted s) (hparked : s.mux.retuneState ≠ .parked) :
    Parking mmux admitted { s with phase := .idle } :=
  .of_not_parked hparked (by simp [Phase.MayRewrite]) h.running h.away

/-- Unparking ends a change. -/
theorem Parking.unpark (h : Parking mmux admitted s) (hstate : s.mux.retuneState = .parked) :
    Parking mmux admitted { s with mux := (mmux.unpark none s.mux).2, phase := .idle } := by
  rw [unpark_none_eq hstate]
  refine .of_running rfl ?_ (by simp [Phase.MayRewrite])
  have hbypass := (h.away (by simp [hstate])).1
  dsimp only
  rw [unparked_get_parent mmux _ hbypass]
  exact h.back hstate

/-- A rollback touches no register of the mux. -/
theorem keeps_mux_roll_back (mmux : Mmux) (s : State) :
    KeepsMux mmux s.regs (mmux.rollBack s).regs where
  lanes lane := RegisterFile.write_other _ _ (mmux.pll_apart.1 lane).symm
  clkSel := by
    dsimp only [checkbit, rollBack]
    rw [RegisterFile.write_other _ _ mmux.pll_apart.2.1.symm]
  bypass := by
    dsimp only [checkbit, rollBack]
    rw [RegisterFile.write_other _ _ mmux.pll_apart.2.2.symm]

/-- Another driver's writes keep the invariant in the phases that rewrite, with the phase itself
free among those that are not idle. -/
theorem Parking.keeps_mux (h : Parking mmux admitted s) {regs : RegisterFile} {phase : Phase}
    (hkeeps : KeepsMux mmux s.mux.regs regs) (hphase : s.phase.MayRewrite)
    (hbusy : phase ≠ .idle) :
    Parking mmux admitted { s with mux := { s.mux with regs }, phase } where
  running hstate := (h.running hstate).trans hkeeps.get_parent.symm
  unaffected hstate _ := h.unaffected hstate hphase
  away hstate := by
    dsimp only
    rw [hkeeps.bypass, hkeeps.lane, mmux.mux_reg, hkeeps.lanes, ← mmux.mux_reg]
    exact h.away hstate
  busy _ := hbusy
  back hstate := (h.back hstate).trans hkeeps.other_parent.symm
  admitted := h.admitted
  slow hstate := by
    dsimp only [programmedDivider]
    rw [hkeeps.lane, hkeeps.lanes]
    exact h.slow hstate

/-- A successful park of an announced change. -/
theorem Parking.park (h : Parking mmux admitted s) {rates : Rates} {oldRate newRate : UInt64} {t : State}
    (hadmitted : s.mux.retuneState = .running →
      admitted (announce mmux upstream rates oldRate newRate s.mux))
    (hpark : mmux.park rates (divu (min oldRate newRate) (mmux.activeDiv upstream s.mux.regs))
      s.mux = (.ok (), t)) :
    Parking mmux admitted
      { mux := { t with savedPll := t.regs mmux.pllReg }
        phase := .announced
        announced := announce mmux upstream rates oldRate newRate s.mux } := by
  obtain ⟨parkRate, hstate, hbypass, hrate, hparkRate, hlimit, hrange, rfl⟩ := park_ok hpark
  have hannounced : (announce mmux upstream rates oldRate newRate s.mux).parkRate = parkRate := by
    simp [announce, hrate]
  have hlane := parked_lane mmux (divRoundUpUll parkRate
    (divu (min oldRate newRate) (mmux.activeDiv upstream s.mux.regs))).toUInt32.toNat s.mux.regs
  constructor
  · intro hrunning
    cases hrunning
  · intro hrunning
    cases hrunning
  · intro _
    dsimp only [parked]
    rw [parked_bypass, hlane]
    exact ⟨hbypass, parked_mux mmux _ _⟩
  · intro _ hidle
    cases hidle
  · intro _
    dsimp only [parked]
    have hparent := h.running hstate
    rw [get_parent_eq, hbypass] at hparent
    rw [hparent, otherParent, hlane, Lane.other_other, mmux.mux_reg, parked_active_word]
    rfl
  · exact fun _ => hadmitted hstate
  · intro _ hdivides
    dsimp only [parked, programmedDivider]
    rw [hlane, parked_divider mmux _ hrange, ← hannounced]
    exact slow_of_divides hdivides (hannounced ▸ hparkRate) hlimit (hannounced ▸ hrange)

/-- `PRE_RATE_CHANGE` keeps the invariant: the change is not one of the mux's own PLL, or it is
refused, or the CPU is parked. -/
theorem Parking.pre (h : Parking mmux admitted s) (hidle : s.phase = .idle) (rates : Rates)
    (oldRate newRate : UInt64) (hadmitted : s.mux.retuneState = .running →
      s.mux.parent = mmux.retunePll →
        admitted (announce mmux upstream rates oldRate newRate s.mux)) :
    Parking mmux admitted
      { mux := (mmux.pre upstream rates oldRate newRate s.mux).2
        phase := phaseAfter (mmux.pre upstream rates oldRate newRate s.mux).1
        announced := announce mmux upstream rates oldRate newRate s.mux } := by
  have hnot : s.mux.retuneState ≠ .parked := fun hparked => h.busy hparked hidle
  unfold Mmux.pre
  by_cases hparent : s.mux.parent ≠ mmux.retunePll
  · rw [if_pos hparent]
    exact ⟨h.running, fun _ _ => hparent, h.away, fun hparked => absurd hparked hnot, h.back,
      fun hparked => absurd hparked hnot, fun hparked => absurd hparked hnot⟩
  · rw [if_neg hparent]
    rcases hpark : mmux.park rates
      (divu (min oldRate newRate) (mmux.activeDiv upstream s.mux.regs)) s.mux with ⟨result, t⟩
    cases result with
    | error error =>
        have hrefused : (mmux.park rates
            (divu (min oldRate newRate) (mmux.activeDiv upstream s.mux.regs)) s.mux).2 = s.mux :=
          park_refused (by simp [hpark])
        rw [hpark] at hrefused
        dsimp only at hrefused ⊢
        rw [hrefused]
        exact .of_not_parked hnot (by simp [phaseAfter, Phase.MayRewrite]) h.running h.away
    | ok _ => exact h.park (fun hstate => hadmitted hstate (not_not.1 hparent)) hpark

/-- `POST_RATE_CHANGE` keeps the invariant: the CPU returns, or it is stranded where it is. -/
theorem Parking.post (h : Parking mmux admitted s) (hphase : s.phase.MayRewrite) (locked relocked : Bool) :
    Parking mmux admitted { s with mux := (mmux.post locked relocked s.mux).2, phase := .idle } := by
  have hrolled : Parking mmux admitted { s with mux := mmux.rollBack s.mux } :=
    h.keeps_mux (keeps_mux_roll_back mmux s.mux) hphase fun hidle => by rwa [hidle] at hphase
  unfold Mmux.post
  by_cases hstate : s.mux.retuneState = .parked
  · rw [if_neg (not_not.2 hstate)]
    cases locked with
    | true => exact h.unpark hstate
    | false =>
        cases relocked with
        | true => exact hrolled.unpark hstate
        | false =>
            have haway := hrolled.away (by simp [rollBack, hstate])
            exact .of_not_parked (by simp) (by simp [Phase.MayRewrite]) (by simp) fun _ => haway
  · rw [if_pos hstate]
    exact h.settle hstate

/-- `ABORT_RATE_CHANGE` keeps the invariant. -/
theorem Parking.abort (h : Parking mmux admitted s) :
    Parking mmux admitted { s with mux := (mmux.abort s.mux).2, phase := .idle } := by
  unfold Mmux.abort
  by_cases hstate : s.mux.retuneState = .parked
  · rw [if_pos hstate]
    exact h.unpark hstate
  · rw [if_neg hstate]
    exact h.settle hstate

/-- Changing the divider of a running mux leaves it running with the same parent. -/
theorem change_divider_running {s : State} (hstate : s.retuneState = .running)
    (hparent : s.parent = mmux.getParent s.regs) (rates : Rates) (limit : UInt64) {value : Nat}
    (hvalue : value ≤ (mmux.div (mmux.lane s.regs)).limit) :
    (mmux.changeDivider rates limit value s).2.retuneState = .running ∧
      (mmux.changeDivider rates limit value s).2.parent =
        mmux.getParent (mmux.changeDivider rates limit value s).2.regs := by
  unfold changeDivider
  rcases park_cases mmux rates limit s with ⟨error, hpark⟩ | ⟨parkRate, _, _, _, _, _, _, hpark⟩
  · rw [hpark]
    exact ⟨hstate, hparent⟩
  · rw [hpark]
    dsimp only
    rw [unpark_parked mmux _ (some value) s fun divider hdivider => Option.some.inj hdivider ▸ hvalue]
    refine ⟨rfl, ?_⟩
    dsimp only [parked]
    rw [Option.elim_some, set_divider_get_parent]
    exact hparent

/-- `mmux_set_rate` keeps the invariant. -/
theorem Parking.set_rate (h : Parking mmux admitted s) (rates : Rates) (rate parentRate : UInt64) :
    Parking mmux admitted
      { s with mux := (mmux.setRate upstream rates rate parentRate s.mux).2, phase := .idle } := by
  have hidle : ¬ Phase.idle.MayRewrite := by simp [Phase.MayRewrite]
  unfold setRate
  cases hstate : s.mux.retuneState with
  | parked => exact h.unpark hstate
  | stranded => exact h.settle (by simp [hstate])
  | running =>
      have hsame : Parking mmux admitted { s with phase := .idle } :=
        .of_running hstate (h.running hstate) hidle
      dsimp only
      by_cases hzero : rate = 0 ∨ parentRate = 0
      · rwa [if_pos hzero]
      rw [if_neg hzero]
      by_cases hbypass : checkbit s.mux.regs mmux.bypass
      · rwa [if_pos hbypass]
      rw [if_neg hbypass]
      cases hfound : upstream.dividerGetVal rate parentRate (mmux.div (mmux.lane s.mux.regs)) with
      | error error => exact hsame
      | ok value =>
          dsimp only
          split
          · exact hsame
          · have hvalue : value ≤ (mmux.div (mmux.lane s.mux.regs)).limit := by
              have hlt := upstream.divider_get_val_lt hfound
              unfold RegField.limit
              omega
            obtain ⟨hrunning, hparent⟩ := change_divider_running hstate (h.running hstate) rates
              (min rate (upstream.recalcRate s.mux.regs parentRate)) hvalue
            exact .of_running hrunning hparent hidle

/-- The invariant holds of a mux as it is registered. -/
theorem Registered.parking (h : Registered mmux s) : Parking mmux admitted s :=
  .of_running h.state h.parent (by simp [h.phase, Phase.MayRewrite])

/-- Every step keeps the invariant. -/
theorem Parking.step : Preserved (Step mmux upstream admitted) (Parking mmux admitted) := by
  intro s t h hstep
  cases hstep with
  | pre rates oldRate newRate idle allowed => exact h.pre idle rates oldRate newRate allowed
  | rewrite regs may keeps => exact h.keeps_mux keeps may (by simp)
  | post locked relocked may => exact h.post may locked relocked
  | skip may => exact { h with
      unaffected := fun _ hmay => absurd hmay (by simp [Phase.MayRewrite])
      busy := fun _ => by simp }
  | abort unwritten => exact h.abort
  | setRate rates rate parentRate called => exact h.set_rate rates rate parentRate

/-- No step leaves `STRANDED`, whatever is announced. -/
theorem stranded_step :
    Preserved (Step mmux upstream admitted) (fun s => s.mux.retuneState = .stranded) := by
  intro s t h hstep
  have hrunning : s.mux.retuneState ≠ .running := by simp [h]
  have hparked : s.mux.retuneState ≠ .parked := by simp [h]
  cases hstep with
  | pre rates oldRate newRate idle allowed =>
      dsimp only [Mmux.pre]
      split
      · exact h
      · rw [park_busy hrunning]
        exact h
  | rewrite regs may keeps => exact h
  | post locked relocked may =>
      dsimp only [Mmux.post]
      rw [if_pos hparked]
      exact h
  | skip may => exact h
  | abort unwritten =>
      dsimp only [Mmux.abort]
      rw [if_neg hparked]
      exact h
  | setRate rates rate parentRate called =>
      dsimp only [setRate]
      rw [h]
      exact h

end

/-- Parking the CPU, in every state that a run of announcements, rewrites, notifications and rate
requests reaches. Whenever the PLL may be rewritten the CPU does not run from it; a refused park
changes nothing, a second park is refused, park and unpark give back every register bit but those
of a new divider, and `STRANDED` is never left and refuses every rate. When every announced change
has rates that the driver divides or refuses, a CPU that is parked is slow. -/
theorem retune_parking (mmux : Mmux) (upstream : Upstream) (admitted : Announcement → Prop)
    (start s : System) (hstart : Registered mmux start)
    (hrun : Relation.ReflTransGen (Step mmux upstream admitted) start s) :
    (s.phase.MayRewrite → mmux.getParent s.mux.regs ≠ mmux.retunePll) ∧
      ((∀ announced, admitted announced → Divides announced) → s.mux.retuneState = .parked →
        Slow s.announced (programmedDivider mmux s.mux.regs)) ∧
      (∀ rates limit, (mmux.park rates limit s.mux).1 ≠ .ok () →
        (mmux.park rates limit s.mux).2 = s.mux) ∧
      (s.mux.retuneState = .parked → ∀ rates limit,
        mmux.park rates limit s.mux = (.error .busy, s.mux)) ∧
      (∀ rates limit t, mmux.park rates limit s.mux = (.ok (), t) →
        (mmux.unpark none t).2.regs = s.mux.regs ∧
        ∀ divider, (mmux.unpark (some divider) t).1 = .ok () → ∀ reg bit,
          ((mmux.unpark (some divider) t).2.regs reg).getLsbD bit ≠
              (s.mux.regs reg).getLsbD bit →
            reg = (mmux.div (mmux.lane s.mux.regs)).reg ∧
              ((mmux.div (mmux.lane s.mux.regs)).field.Covers bit ∨ bit = enableBit)) ∧
      (s.mux.retuneState = .stranded → ∀ t,
        Relation.ReflTransGen (Step mmux upstream fun _ => True) s t →
        t.mux.retuneState = .stranded ∧ ∀ rates rate parentRate,
          mmux.setRate upstream rates rate parentRate t.mux = (.error .io, t.mux)) := by
  have hparking : Parking mmux admitted s := Parking.step.reachable hstart.parking hrun
  refine ⟨hparking.off_pll, fun hdivides hparked => ?_, fun _ _ hrefused => park_refused hrefused,
    ?_, ?_, ?_⟩
  · exact hparking.slow hparked (hdivides _ (hparking.admitted hparked))
  · intro hparked rates limit
    exact park_busy (by simp [hparked]) rates limit
  · intro rates limit t hpark
    obtain ⟨parkRate, _, _, _, _, _, _, rfl⟩ := park_ok hpark
    constructor
    · rw [unpark_parked mmux _ none s.mux (by simp)]
      rfl
    · intro divider hok reg bit hdiffers
      have hfits : divider ≤ (mmux.div (mmux.lane s.mux.regs)).limit := by
        by_contra hlarge
        have hrange : (mmux.unpark (some divider) (parked mmux
            (divRoundUpUll parkRate limit).toUInt32.toNat s.mux)).1 = .error .range := by
          simp [unpark, parked, parked_lane, not_le.1 hlarge]
        rw [hrange] at hok
        cases hok
      rw [unpark_parked mmux _ (some divider) s.mux fun value hvalue =>
        Option.some.inj hvalue ▸ hfits] at hdiffers
      exact set_divider_changes hdiffers
  · intro hstranded t hlater
    have hstate := stranded_step.reachable hstranded hlater
    refine ⟨hstate, fun rates rate parentRate => ?_⟩
    unfold setRate
    rw [hstate]

/-! ## The C906 mux -/

theorem divider_fits : 16 + 4 ≤ 32 := by omega
theorem selector_fits : 8 + 2 ≤ 32 := by omega
theorem bypass_fits : 6 < 32 := by omega
theorem clk_sel_fits : 23 < 32 := by omega

/-- The registers of the C906 mux in the order of the driver's own test: the two lanes, the bypass,
the selector and the PLL. MPLL is parent 4, the last of lane zero; lane one has FPLL alone. -/
def c906Mmux : Mmux where
  div
    | .zero => { reg := 0, field := ⟨16, 4, divider_fits⟩ }
    | .one => { reg := 4, field := ⟨16, 4, divider_fits⟩ }
  mux
    | .zero => { reg := 0, field := ⟨8, 2, selector_fits⟩ }
    | .one => { reg := 4, field := ⟨8, 2, selector_fits⟩ }
  bypass := { reg := 8, shift := 6, fits := bypass_fits }
  clkSel := { reg := 12, shift := 23, fits := clk_sel_fits }
  sel2parent
    | .zero, selector => selector + 1
    | .one, _ => 5
  pllReg := 16
  retunePll := 4
  mux_reg lane := by cases lane <;> rfl
  lanes_apart := by decide
  clk_sel_apart lane := by cases lane <;> decide
  bypass_apart lane := by cases lane <;> decide
  bits_apart h := by cases h
  fields_apart lane := by cases lane <;> exact .inl (by decide)
  enable_apart lane := by cases lane <;> exact ⟨by decide, by decide⟩
  width_pos lane := by cases lane <;> decide
  pll_apart := ⟨fun lane => by cases lane <;> decide, by decide, by decide⟩
  park_parent lane := by cases lane <;> decide
  retune_ne_oscillator := by decide

/-- The helpers for one-based dividers that count only when they are enabled. -/
def c906Upstream : Upstream where
  clockDiv div word := if word.getLsbD enableBit then .ofNat (div.field.get word) else 1
  dividerGetVal rate parentRate div :=
    .ok (min ((parentRate.toNat + rate.toNat - 1) / rate.toNat) div.limit)
  recalcRate regs parentRate :=
    let div := c906Mmux.div (c906Mmux.lane regs)
    if (regs div.reg).getLsbD enableBit then divu parentRate (.ofNat (div.field.get (regs div.reg)))
    else parentRate
  divider_get_val_lt := by
    intro rate parentRate div value h
    cases h
    have hpos : 0 < 2 ^ div.field.width := Nat.two_pow_pos _
    unfold RegField.limit
    omega

/-- The normal firmware configuration: MPLL divided by one on lane zero. -/
def c906System : System where
  mux :=
    { regs := fun reg => if reg = 0 then 0x10308 else if reg = 12 then 0x800000 else 0
      savedLane := 0, savedPll := 0, retuneState := .running, parent := 4 }
  phase := .idle
  announced := { oldRate := 0, newRate := 0, divider := 1, parkRate := 0, largest := 0 }

/-- It is as the registration leaves it. -/
theorem c906_registered : Registered c906Mmux c906System := ⟨rfl, rfl, by decide⟩

/-- FPLL runs at 1500 MHz. -/
def c906Rates : Rates := fun parent => if parent = 5 then some 1500000000 else none

/-- A change from 850 MHz to 1000 MHz parks the CPU at FPLL over two. -/
theorem retune_parking_c906 :
    ∃ s, Relation.ReflTransGen (Step c906Mmux c906Upstream Divides) c906System s ∧
      s.mux.retuneState = .parked ∧ programmedDivider c906Mmux s.mux.regs = 2 ∧
      Slow s.announced (programmedDivider c906Mmux s.mux.regs) := by
  have hdivides : Divides (announce c906Mmux c906Upstream c906Rates 850000000 1000000000
      c906System.mux) := .rates (by decide) (by decide) (.inl (by decide))
  have hrun := Relation.ReflTransGen.single (Step.pre c906System c906Rates 850000000 1000000000
    rfl fun _ _ => hdivides)
  have hparking := retune_parking c906Mmux c906Upstream Divides c906System _ c906_registered hrun
  exact ⟨_, hrun, rfl, by decide, hparking.2.1 (fun _ => id) rfl⟩

/-- The configuration with the enable bit of lane zero set over a divider of zero. -/
def zeroDividerSystem : System :=
  { c906System with
    mux := { c906System.mux with regs := c906System.mux.regs.write 0 0x308 } }

/-- It is as the registration leaves it. -/
theorem zero_divider_registered : Registered c906Mmux zeroDividerSystem := ⟨rfl, rfl, by decide⟩

/-- An active divider that is enabled and zero makes the limit all ones, which wraps the sum of
`DIV_ROUND_UP_ULL`: a change from 850 MHz to 1000 MHz parks the CPU on FPLL with a divider of zero,
which is not slow. -/
theorem zero_divider_parks_undivided :
    ∃ s, Relation.ReflTransGen (Step c906Mmux c906Upstream fun _ => True) zeroDividerSystem s ∧
      s.announced.oldRate = 850000000 ∧ s.announced.newRate = 1000000000 ∧
      s.announced.divider = 0 ∧ s.mux.retuneState = .parked ∧
      programmedDivider c906Mmux s.mux.regs = 0 ∧
      ¬ Slow s.announced (programmedDivider c906Mmux s.mux.regs) := by
  have hrun : Relation.ReflTransGen (Step c906Mmux c906Upstream fun _ => True)
      zeroDividerSystem _ :=
    .single (Step.pre zeroDividerSystem c906Rates 850000000 1000000000 rfl fun _ _ => trivial)
  refine ⟨_, hrun, rfl, rfl, by decide, rfl, by decide, fun hslow => ?_⟩
  exact absurd hslow.divider_pos (by decide)

end NanoKvm.Clock
