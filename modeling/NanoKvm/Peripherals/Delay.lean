import Mathlib.Algebra.Order.Ring.Nat

/-!
# Delays of the firmware's drivers

`FreeRtosDelay` of `lib.rs` waits in ticks of 5 ms, which is how it implements `DelayNs` of
`embedded-hal`. That crate's defaults for microseconds and milliseconds are a parameter: they split
a long argument into chunks for `delay_ns`. `delay_enough_iff` says which delays are long enough.
-/

namespace NanoKvm.Delay

/-- `u32::saturating_add` -/
def saturatingAdd (left right : UInt32) : UInt32 :=
  .ofNat (min (left.toNat + right.toNat) (2 ^ 32 - 1))

/-- The ticks that `delay_ns` passes to `c906l_delay`. -/
def delayNs (ns : UInt32) : List UInt32 :=
  if ns = 0 then []
  else
    let ticks := saturatingAdd ns 4999999 / 5000000
    [max ticks 1]

/-- `delay_us` and `delay_ms` call `delay_ns` for every chunk. -/
def delayChunks (split : UInt32 → List UInt32) (nanos amount : UInt32) : List UInt32 :=
  (split amount).flatMap fun chunk => delayNs (chunk * nanos)

/-- `NANOS_PER_MICRO` and `NANOS_PER_MILLI` -/
def nanosPerMicro : UInt32 := 1000
def nanosPerMilli : UInt32 := 1000000

/-- `MAX_MICROS` and `MAX_MILLIS` -/
def maxMicros : UInt32 := 0xffffffff / nanosPerMicro
def maxMillis : UInt32 := 0xffffffff / nanosPerMilli

/-- `DelayNs::delay_us` -/
def delayUs (split : UInt32 → List UInt32) (us : UInt32) : List UInt32 :=
  delayChunks split nanosPerMicro us

/-- `DelayNs::delay_ms` -/
def delayMs (split : UInt32 → List UInt32) (ms : UInt32) : List UInt32 :=
  delayChunks split nanosPerMilli ms

/-- What the defaults of `DelayNs` do: while the argument is above the largest chunk, a chunk of
that size is taken off it. -/
structure Splits (largest : UInt32) (split : UInt32 → List UInt32) : Prop where
  short : ∀ amount ≤ largest, split amount = [amount]
  long : ∀ amount, largest < amount → split amount = largest :: split (amount - largest)

/-- The nanoseconds that the ticks take. -/
def waited (ticks : List UInt32) : Nat := 5000000 * (ticks.map UInt32.toNat).sum

/-! ## One call -/

/-- The ticks of a call, in numbers. -/
def ticksOf (ns : Nat) : Nat := min (ns + 4999999) 4294967295 / 5000000

theorem waited_append (first second : List UInt32) :
    waited (first ++ second) = waited first + waited second := by
  simp only [waited, List.map_append, List.sum_append, Nat.mul_add]

theorem waited_delay_ns (ns : UInt32) : waited (delayNs ns) = 5000000 * ticksOf ns.toNat := by
  by_cases hzero : ns = 0
  · subst hzero
    rfl
  have hpos : 0 < ns.toNat := Nat.pos_of_ne_zero fun h => hzero (UInt32.toNat_inj.mp h)
  have hticks : (saturatingAdd ns 4999999 / 5000000).toNat = ticksOf ns.toNat := by
    rw [UInt32.toNat_div, saturatingAdd, UInt32.toNat_ofNat_of_lt' (by simp [UInt32.size])]
    rfl
  have hmax : (max (saturatingAdd ns 4999999 / 5000000) 1).toNat = ticksOf ns.toNat := by
    show (if saturatingAdd ns 4999999 / 5000000 ≤ 1 then 1 else _ : UInt32).toNat = _
    split
    · rename_i hle
      rw [UInt32.le_iff_toNat_le, hticks] at hle
      rw [ticksOf] at hle ⊢
      show 1 = _
      change _ ≤ 1 at hle
      omega
    · exact hticks
  rw [delayNs, if_neg hzero]
  show waited [max _ 1] = _
  rw [waited, List.map_singleton, List.sum_singleton, hmax]

/-! ## Chunks -/

section

variable {split : UInt32 → List UInt32} {largest nanos amount : UInt32}

theorem waited_short (h : Splits largest split) (hfits : largest.toNat * nanos.toNat < 2 ^ 32)
    (hshort : amount ≤ largest) :
    waited (delayChunks split nanos amount) = 5000000 * ticksOf (amount.toNat * nanos.toNat) := by
  have hle : amount.toNat * nanos.toNat ≤ largest.toNat * nanos.toNat :=
    Nat.mul_le_mul_right _ (UInt32.le_iff_toNat_le.mp hshort)
  rw [delayChunks, h.short amount hshort, List.flatMap_singleton, waited_delay_ns, UInt32.toNat_mul,
    Nat.mod_eq_of_lt (hle.trans_lt hfits)]

theorem waited_long (h : Splits largest split) (hfits : largest.toNat * nanos.toNat < 2 ^ 32)
    (hlong : largest < amount) :
    waited (delayChunks split nanos amount) =
      5000000 * ticksOf (largest.toNat * nanos.toNat) +
        waited (delayChunks split nanos (amount - largest)) := by
  rw [delayChunks, h.long amount hlong, List.flatMap_cons, waited_append, waited_delay_ns,
    UInt32.toNat_mul, Nat.mod_eq_of_lt hfits, delayChunks]

theorem rest_to_nat (hlong : largest < amount) :
    (amount - largest).toNat = amount.toNat - largest.toNat :=
  UInt32.toNat_sub_of_le _ _ (UInt32.le_iff_toNat_le.mpr (UInt32.lt_iff_toNat_lt.mp hlong).le)

/-- A full chunk waits too short, so no delay is more than a tick too long. -/
theorem waited_below (h : Splits largest split) (hfits : largest.toNat * nanos.toNat < 2 ^ 32)
    (hpos : 0 < largest.toNat)
    (hfull : 5000000 * ticksOf (largest.toNat * nanos.toNat) ≤ largest.toNat * nanos.toNat)
    (amount : UInt32) :
    waited (delayChunks split nanos amount) < amount.toNat * nanos.toNat + 5000000 := by
  induction hsize : amount.toNat using Nat.strong_induction_on generalizing amount with
  | _ size ih =>
      by_cases hshort : amount ≤ largest
      · rw [waited_short h hfits hshort, ← hsize, ticksOf]
        omega
      · have hlong : largest < amount := UInt32.not_le.mp hshort
        have hless := UInt32.lt_iff_toNat_lt.mp hlong
        have hrest := ih (amount - largest).toNat (by rw [rest_to_nat hlong]; omega) _ rfl
        rw [waited_long h hfits hlong]
        rw [rest_to_nat hlong] at hrest
        have hmul : (amount.toNat - largest.toNat) * nanos.toNat + largest.toNat * nanos.toNat =
            size * nanos.toNat := by
          rw [← Nat.add_mul, Nat.sub_add_cancel hless.le, hsize]
        omega

end

/-! ## Which delays are long enough -/

section

variable {split : UInt32 → List UInt32}

theorem delay_ns_enough_iff (ns : UInt32) :
    ns.toNat ≤ waited (delayNs ns) ↔ ns.toNat ≤ 4290000000 := by
  have hlt := ns.toNat_lt
  rw [waited_delay_ns, ticksOf]
  omega

theorem delay_us_enough_iff (h : Splits maxMicros split) (us : UInt32) :
    us.toNat * 1000 ≤ waited (delayUs split us) ↔ us.toNat ≤ 4290000 ∨
      (4294967 < us.toNat ∧ us.toNat ≤ 8584967 ∧ 1 ≤ (us.toNat - 4294967) % 5000 ∧
        (us.toNat - 4294967) % 5000 ≤ 33) := by
  have hlargest : maxMicros.toNat = 4294967 := rfl
  have hnanos : nanosPerMicro.toNat = 1000 := rfl
  have hfits : maxMicros.toNat * nanosPerMicro.toNat < 2 ^ 32 := by decide
  have hfull : ticksOf (maxMicros.toNat * nanosPerMicro.toNat) = 858 := by decide
  rw [delayUs]
  by_cases hshort : us ≤ maxMicros
  · have hle := UInt32.le_iff_toNat_le.mp hshort
    rw [waited_short h hfits hshort, hnanos, ticksOf]
    omega
  have hlong : maxMicros < us := UInt32.not_le.mp hshort
  have hless := UInt32.lt_iff_toNat_lt.mp hlong
  rw [waited_long h hfits hlong, hfull]
  have hrest := rest_to_nat hlong
  by_cases htwo : us - maxMicros ≤ maxMicros
  · have hle := UInt32.le_iff_toNat_le.mp htwo
    rw [waited_short h hfits htwo, hnanos, hrest, ticksOf]
    omega
  · -- two full chunks are too short by more than the rest can make up for
    have hmore : maxMicros < us - maxMicros := UInt32.not_le.mp htwo
    have hmoreNat := UInt32.lt_iff_toNat_lt.mp hmore
    have hlast := waited_below h hfits (by decide) (by rw [hfull]; decide)
      (us - maxMicros - maxMicros)
    rw [rest_to_nat hmore, hrest, hnanos] at hlast
    rw [waited_long h hfits hmore, hfull]
    omega

theorem delay_ms_enough_iff (h : Splits maxMillis split) (ms : UInt32) :
    ms.toNat * 1000000 ≤ waited (delayMs split ms) ↔ ms.toNat ≤ 4290 ∨
      (4294 < ms.toNat ∧ ms.toNat ≤ 8584 ∧ (ms.toNat - 4294) % 5 = 1) := by
  have hlargest : maxMillis.toNat = 4294 := rfl
  have hnanos : nanosPerMilli.toNat = 1000000 := rfl
  have hfits : maxMillis.toNat * nanosPerMilli.toNat < 2 ^ 32 := by decide
  have hfull : ticksOf (maxMillis.toNat * nanosPerMilli.toNat) = 858 := by decide
  rw [delayMs]
  by_cases hshort : ms ≤ maxMillis
  · have hle := UInt32.le_iff_toNat_le.mp hshort
    rw [waited_short h hfits hshort, hnanos, ticksOf]
    omega
  have hlong : maxMillis < ms := UInt32.not_le.mp hshort
  have hless := UInt32.lt_iff_toNat_lt.mp hlong
  rw [waited_long h hfits hlong, hfull]
  have hrest := rest_to_nat hlong
  by_cases htwo : ms - maxMillis ≤ maxMillis
  · have hle := UInt32.le_iff_toNat_le.mp htwo
    rw [waited_short h hfits htwo, hnanos, hrest, ticksOf]
    omega
  · have hmore : maxMillis < ms - maxMillis := UInt32.not_le.mp htwo
    have hmoreNat := UInt32.lt_iff_toNat_lt.mp hmore
    have hlast := waited_below h hfits (by decide) (by rw [hfull]; decide)
      (ms - maxMillis - maxMillis)
    rw [rest_to_nat hmore, hrest, hnanos] at hlast
    rw [waited_long h hfits hmore, hfull]
    omega

end

/-- A delay is long enough exactly if no saturated addition cuts it short by more than the rest
of its last tick. -/
theorem delay_enough_iff {splitUs splitMs : UInt32 → List UInt32}
    (hus : Splits maxMicros splitUs) (hms : Splits maxMillis splitMs) (amount : UInt32) :
    (amount.toNat ≤ waited (delayNs amount) ↔ amount.toNat ≤ 4290000000) ∧
      (amount.toNat * 1000 ≤ waited (delayUs splitUs amount) ↔ amount.toNat ≤ 4290000 ∨
        (4294967 < amount.toNat ∧ amount.toNat ≤ 8584967 ∧
          1 ≤ (amount.toNat - 4294967) % 5000 ∧ (amount.toNat - 4294967) % 5000 ≤ 33)) ∧
      (amount.toNat * 1000000 ≤ waited (delayMs splitMs amount) ↔ amount.toNat ≤ 4290 ∨
        (4294 < amount.toNat ∧ amount.toNat ≤ 8584 ∧ (amount.toNat - 4294) % 5 = 1)) :=
  ⟨delay_ns_enough_iff amount, delay_us_enough_iff hus amount, delay_ms_enough_iff hms amount⟩

/-- Full chunks and the rest. -/
def chunks (largest amount : UInt32) : List UInt32 :=
  if _h : largest < amount ∧ 0 < largest then largest :: chunks largest (amount - largest)
  else [amount]
termination_by amount.toNat
decreasing_by
  have hpos := UInt32.lt_iff_toNat_lt.mp _h.2
  rw [rest_to_nat _h.1]
  have hless := UInt32.lt_iff_toNat_lt.mp _h.1
  change 0 < _ at hpos
  omega

theorem splits_chunks {largest : UInt32} (hpos : 0 < largest) : Splits largest (chunks largest) where
  short amount hshort := by
    rw [chunks, dif_neg fun h => UInt32.not_le.mpr h.1 hshort]
  long amount hlong := by
    rw [chunks, dif_pos ⟨hlong, hpos⟩]

/-- One microsecond more than a full chunk. -/
theorem delay_enough_full_chunk :
    4294968 * 1000 ≤ waited (delayUs (chunks maxMicros) 4294968) :=
  (delay_enough_iff (splits_chunks (by decide)) (splits_chunks (by decide))
    4294968).2.1.mpr (.inr (by decide))

/-- The longest delay of `delay_ns` waits for 858 ticks. -/
theorem longest_delay_early : waited (delayNs 0xffffffff) < (0xffffffff : UInt32).toNat := by
  decide

end NanoKvm.Delay
