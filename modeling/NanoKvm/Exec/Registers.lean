import Mathlib.Data.Nat.Bitwise

/-!
# Words with fields and registers at offsets

A register file maps offsets to 32-bit words. A field is a run of bits of such a word.
Setting a field changes exactly its bits, which `set_bit` says bit by bit; every other
law is read off from it.
-/

namespace NanoKvm.Exec

/-- A 32-bit register word. -/
abbrev Word : Type := BitVec 32

/-- A run of bits of a word, with the proof that it fits. -/
structure Field where
  shift : Nat
  width : Nat
  fits : shift + width ≤ 32

namespace Field

/-- The bits of the field. -/
def Covers (field : Field) (bit : Nat) : Prop :=
  field.shift ≤ bit ∧ bit < field.shift + field.width

instance (field : Field) (bit : Nat) : Decidable (field.Covers bit) :=
  inferInstanceAs (Decidable (_ ∧ _))

/-- Fields without a common bit. -/
def Apart (field other : Field) : Prop :=
  field.shift + field.width ≤ other.shift ∨ other.shift + other.width ≤ field.shift

/-- The word with ones in the field and zeros elsewhere. -/
def mask (field : Field) : Word := BitVec.ofNat 32 (2 ^ field.width - 1) <<< field.shift

/-- The value of the field. -/
def get (field : Field) (word : Word) : Nat :=
  (word >>> field.shift &&& BitVec.ofNat 32 (2 ^ field.width - 1)).toNat

/-- The word with the field replaced. -/
def set (field : Field) (word : Word) (value : Nat) : Word :=
  word &&& ~~~field.mask ||| BitVec.ofNat 32 value <<< field.shift &&& field.mask

variable {field other : Field} {word : Word} {value bit : Nat}

/-- The bits of the mask. -/
theorem mask_bit (field : Field) (bit : Nat) :
    field.mask.getLsbD bit = decide (field.Covers bit) := by
  have hfits := field.fits
  rw [Bool.eq_iff_iff]
  simp only [mask, BitVec.getLsbD_shiftLeft, BitVec.getLsbD_ofNat, Nat.testBit_two_pow_sub_one,
    Bool.and_eq_true, Bool.not_eq_true', decide_eq_true_eq, decide_eq_false_iff_not]
  unfold Covers
  omega

/-- Inside the field a set word has the bits of the value, outside its own. -/
theorem set_bit (field : Field) (word : Word) (value bit : Nat) :
    (field.set word value).getLsbD bit =
      if field.Covers bit then value.testBit (bit - field.shift) else word.getLsbD bit := by
  have hfits := field.fits
  simp only [set, BitVec.getLsbD_or, BitVec.getLsbD_and, BitVec.getLsbD_not, mask_bit,
    BitVec.getLsbD_shiftLeft, BitVec.getLsbD_ofNat]
  by_cases hcovers : field.Covers bit
  · have hbit : bit < 32 := by unfold Covers at hcovers; omega
    have hinside : ¬ bit < field.shift := by unfold Covers at hcovers; omega
    have hoffset : bit - field.shift < 32 := by omega
    simp [hcovers, hbit, hinside, hoffset]
  · by_cases hbit : bit < 32
    · simp [hcovers, hbit]
    · simp [hcovers, hbit, BitVec.getLsbD_of_ge word bit (by omega)]

/-- The bits of a field value. -/
theorem get_test_bit (field : Field) (word : Word) (bit : Nat) :
    (field.get word).testBit bit =
      (decide (bit < field.width) && word.getLsbD (field.shift + bit)) := by
  have hfits := field.fits
  rw [get, BitVec.testBit_toNat, BitVec.getLsbD_and, BitVec.getLsbD_ushiftRight,
    BitVec.getLsbD_ofNat, Nat.testBit_two_pow_sub_one, Bool.eq_iff_iff]
  simp only [Bool.and_eq_true, decide_eq_true_eq]
  constructor
  · exact fun h => ⟨h.2.2, h.1⟩
  · exact fun h => ⟨h.2, by omega, h.1⟩

/-- A value that fits is read back. -/
theorem get_set (h : value < 2 ^ field.width) : field.get (field.set word value) = value := by
  apply Nat.eq_of_testBit_eq
  intro bit
  rw [get_test_bit, set_bit]
  by_cases hbit : bit < field.width
  · have hcovers : field.Covers (field.shift + bit) := by unfold Covers; omega
    simp [hbit, hcovers]
  · have hzero : value.testBit bit = false :=
      Nat.testBit_lt_two_pow (h.trans_le (Nat.pow_le_pow_right (by omega) (by omega)))
    simp [hbit, hzero]

/-- A field sees only its own bits. -/
theorem get_congr {word' : Word}
    (h : ∀ bit, field.Covers bit → word'.getLsbD bit = word.getLsbD bit) :
    field.get word' = field.get word := by
  apply Nat.eq_of_testBit_eq
  intro bit
  rw [get_test_bit, get_test_bit]
  by_cases hbit : bit < field.width
  · rw [h (field.shift + bit) ⟨by omega, by omega⟩]
  · simp [hbit]

/-- Setting a field leaves every field apart from it alone. -/
theorem get_set_apart (h : field.Apart other) :
    field.get (other.set word value) = field.get word := by
  apply get_congr
  intro bit hcovers
  have hother : ¬ other.Covers bit := by unfold Covers at *; unfold Apart at h; omega
  rw [set_bit, if_neg hother]

end Field

/-! ## Register files -/

/-- The contents of the registers by offset. -/
abbrev RegisterFile : Type := Nat → Word

namespace RegisterFile

/-- `writel` -/
def write (regs : RegisterFile) (offset : Nat) (word : Word) : RegisterFile :=
  fun other => if other = offset then word else regs other

@[simp] theorem write_self (regs : RegisterFile) (offset : Nat) (word : Word) :
    write regs offset word offset = word :=
  if_pos rfl

/-- Every other register keeps its word. -/
theorem write_other (regs : RegisterFile) {offset other : Nat} (word : Word) (h : other ≠ offset) :
    write regs offset word other = regs other :=
  if_neg h

end RegisterFile

end NanoKvm.Exec
