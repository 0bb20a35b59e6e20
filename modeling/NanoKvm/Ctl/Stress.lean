import NanoKvm.Exec.LittleEndian
import Mathlib.Logic.Function.Basic

/-!
# The payloads of the echo stress test

`stress_payload` of `sg2002-c906l-ctl` fills an RPMsg payload with the bytes of a marker that it
mixes from the number of the iteration. `stress_payload_changes`: two iterations differ in
any eight bytes in a row, because every round of the mixing is injective.
-/

namespace NanoKvm.Ctl

open Exec

/-- The marker of an iteration. -/
def marker (iteration : UInt64) : UInt64 :=
  let first := iteration + 0x9e3779b97f4a7c15
  let second := (first ^^^ (first >>> 30)) * 0xbf58476d1ce4e5b9
  let third := (second ^^^ (second >>> 27)) * 0x94d049bb133111eb
  third ^^^ (third >>> 31)

/-- `stress_payload`, which overwrites every byte of the payload. -/
def stressPayload (payload : List UInt8) (iteration : UInt64) : List UInt8 :=
  let bytes := leBytes 8 (marker iteration).toNat
  payload.mapIdx fun offset _ =>
    (bytes[offset % bytes.length]?).getD 0 ^^^ (UInt8.ofNat offset * 0x5b)

/-! ## The rounds of the mixing -/

/-- A word that is its own right shift is zero. -/
theorem eq_zero_of_shift {word shift : UInt64} (hpos : 0 < shift.toNat % 64)
    (h : word = word >>> shift) : word = 0 := by
  have hnat := congrArg UInt64.toNat h
  rw [UInt64.toNat_shiftRight, Nat.shiftRight_eq_div_pow] at hnat
  have htwo : 2 ≤ 2 ^ (shift.toNat % 64) := by
    calc 2 = 2 ^ 1 := rfl
      _ ≤ 2 ^ (shift.toNat % 64) := Nat.pow_le_pow_right (by decide) hpos
  apply UInt64.toNat_inj.mp
  show word.toNat = 0
  by_contra hne
  have hless := Nat.div_lt_self (Nat.pos_of_ne_zero hne) htwo
  omega

/-- The xor with a right shift. -/
theorem xor_shift_injective {shift : UInt64} (hpos : 0 < shift.toNat % 64) :
    Function.Injective fun word : UInt64 => word ^^^ (word >>> shift) := by
  intro first second h
  have hshift : first ^^^ second = (first ^^^ second) >>> shift := by
    have hxor : (first ^^^ (first >>> shift)) ^^^ (second ^^^ (second >>> shift)) = 0 := by
      rw [show first ^^^ (first >>> shift) = second ^^^ (second >>> shift) from h, UInt64.xor_self]
    rw [UInt64.shiftRight_xor]
    apply UInt64.xor_eq_zero_iff.mp
    rw [← hxor]
    ac_rfl
  exact UInt64.xor_eq_zero_iff.mp (eq_zero_of_shift hpos hshift)

/-- The product with a word that has an inverse. -/
theorem mul_injective {factor inverse : UInt64} (hinverse : factor * inverse = 1) :
    Function.Injective fun word : UInt64 => word * factor := by
  intro first second h
  calc first = first * factor * inverse := by rw [UInt64.mul_assoc, hinverse, UInt64.mul_one]
    _ = second * factor * inverse := by rw [show first * factor = second * factor from h]
    _ = second := by rw [UInt64.mul_assoc, hinverse, UInt64.mul_one]

/-- The marker tells all iterations apart. -/
theorem marker_injective : Function.Injective marker := by
  intro first second h
  have hlast : (0x94d049bb133111eb : UInt64) * 0x319642b2d24d8ec3 = 1 := by decide
  have hmiddle : (0xbf58476d1ce4e5b9 : UInt64) * 0x96de1b173f119089 = 1 := by decide
  have hthird := xor_shift_injective (show 0 < (31 : UInt64).toNat % 64 by decide) h
  have hsecond := xor_shift_injective (by decide) (mul_injective hlast hthird)
  have hfirst := xor_shift_injective (by decide) (mul_injective hmiddle hsecond)
  exact (UInt64.add_left_inj _).mp hfirst

/-! ## The payload -/

section

variable {payload : List UInt8} {iteration : UInt64}

@[simp] theorem stress_payload_length : (stressPayload payload iteration).length = payload.length :=
  List.length_mapIdx

/-- The byte of the marker that a position of the payload shows. -/
theorem stress_payload_get {offset : Nat} (h : offset < payload.length) :
    (stressPayload payload iteration)[offset]? =
      some (.ofNat ((marker iteration).toNat / 256 ^ (offset % 8)) ^^^
        (UInt8.ofNat offset * 0x5b)) := by
  rw [stressPayload, List.getElem?_mapIdx, List.getElem?_eq_getElem h, le_bytes_length,
    le_bytes_get (Nat.mod_lt _ (by decide))]
  rfl

end

/-- Eight positions in a row show the whole marker. -/
theorem marker_eq_of_window {before after : List UInt8} {first second : UInt64} {start : Nat}
    (hbefore : start + 8 ≤ before.length) (hafter : start + 8 ≤ after.length)
    (h : ∀ offset, start ≤ offset → offset < start + 8 →
      (stressPayload before first)[offset]? = (stressPayload after second)[offset]?) :
    marker first = marker second := by
  have hbytes : leBytes 8 (marker first).toNat = leBytes 8 (marker second).toNat := by
    apply List.ext_getElem?
    intro index
    by_cases hindex : index < 8
    · -- the position of the window that shows this byte
      let offset := start + (index + 8 - start % 8) % 8
      have hmod : offset % 8 = index := by
        show (start + (index + 8 - start % 8) % 8) % 8 = index
        omega
      have hlt : offset < start + 8 := by
        show start + (index + 8 - start % 8) % 8 < start + 8
        omega
      have hsame := h offset (Nat.le_add_right ..) hlt
      rw [stress_payload_get (by omega), stress_payload_get (by omega), Option.some_inj, hmod,
        UInt8.xor_left_inj] at hsame
      rw [le_bytes_get hindex, le_bytes_get hindex, hsame]
    · rw [List.getElem?_eq_none (by simpa using hindex), List.getElem?_eq_none (by simpa using hindex)]
  exact UInt64.toNat_inj.mp (le_bytes_inj (marker first).toNat_lt (marker second).toNat_lt hbytes)

/-- The marker tells all iterations apart, and so do any eight positions that two payloads share. -/
theorem stress_payload_changes : Function.Injective marker ∧
    ∀ (before after : List UInt8) (first second : UInt64) (start length : Nat), first ≠ second →
      8 ≤ length → start + length ≤ before.length → start + length ≤ after.length →
      ∃ offset, start ≤ offset ∧ offset < start + length ∧
        (stressPayload before first)[offset]? ≠ (stressPayload after second)[offset]? := by
  refine ⟨marker_injective, fun before after first second start length hne hlong hbefore hafter => ?_⟩
  have hbeforeWindow : start + 8 ≤ before.length := by omega
  have hafterWindow : start + 8 ≤ after.length := by omega
  by_contra hsame
  refine hne (marker_injective (marker_eq_of_window hbeforeWindow hafterWindow
    fun offset hstart hend => ?_))
  by_contra hdiffer
  exact hsame ⟨offset, hstart, by omega, hdiffer⟩

/-- The eight bytes of the two first iterations. -/
theorem stress_payload_changes_first : ∃ offset, 0 ≤ offset ∧ offset < 0 + 8 ∧
    (stressPayload (.replicate 8 0) 0)[offset]? ≠ (stressPayload (.replicate 8 0) 1)[offset]? :=
  stress_payload_changes.2 _ _ 0 1 0 8 (by decide) (by decide) (by decide) (by decide)

end NanoKvm.Ctl
