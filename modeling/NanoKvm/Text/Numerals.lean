import Mathlib.Algebra.Group.Nat.Defs
import Mathlib.Data.List.Basic
import Mathlib.Data.List.Induction

/-!
# Numerals

Numbers as texts, in the way of the Rust standard library. A text is its list of characters;
`utf8Bytes` are the bytes that `str::bytes` yields. `fromStrRadix` reads a number with an
optional sign and checks its range at every digit; `decimal` and `paddedHex` write one.
`from_str_radix_fixed` and `from_str_radix_digits` say that what is written is read, and
`exists_fixed_digits` that a text of digits is the numeral of a number of its width.
-/

namespace NanoKvm.Text

/-! ## Bytes -/

/-- `str::bytes` -/
def utf8Bytes (text : List Char) : List UInt8 := text.flatMap String.utf8EncodeChar

/-- `u8::is_ascii_digit` -/
def isAsciiDigit (byte : UInt8) : Bool := 0x30 ≤ byte && byte ≤ 0x39

/-- `u8::is_ascii_lowercase` -/
def isAsciiLowercase (byte : UInt8) : Bool := 0x61 ≤ byte && byte ≤ 0x7a

/-- A lowercase hexadecimal digit. -/
def isLowerHex (byte : UInt8) : Bool := isAsciiDigit byte || (0x61 ≤ byte && byte ≤ 0x66)

/-- A character beyond ASCII starts with a byte beyond ASCII. -/
theorem utf8_encode_large {char : Char} (h : 0x80 ≤ char.toNat) :
    ∃ byte ∈ String.utf8EncodeChar char, 0x80 ≤ byte.toNat := by
  have hval : char.val.toNat = char.toNat := rfl
  unfold String.utf8EncodeChar
  simp only [hval]
  split
  · omega
  · split
    · exact ⟨_, List.mem_cons_self, by rw [UInt8.toNat_ofNat']; omega⟩
    · split
      · exact ⟨_, List.mem_cons_self, by rw [UInt8.toNat_ofNat']; omega⟩
      · exact ⟨_, List.mem_cons_self, by rw [UInt8.toNat_ofNat']; omega⟩

theorem utf8_encode_small {char : Char} (h : char.toNat < 0x80) :
    String.utf8EncodeChar char = [UInt8.ofNat char.toNat] := by
  have hval : char.val.toNat = char.toNat := rfl
  unfold String.utf8EncodeChar
  simp only [hval]
  rw [if_pos (by omega)]

/-- A check of all bytes that only ASCII passes is a check of all characters. -/
theorem all_bytes_iff {p : UInt8 → Bool} (hp : ∀ byte, p byte = true → byte.toNat < 0x80)
    (text : List Char) :
    (utf8Bytes text).all p = true ↔
      ∀ char ∈ text, char.toNat < 0x80 ∧ p (.ofNat char.toNat) = true := by
  simp only [utf8Bytes, List.all_eq_true, List.mem_flatMap]
  constructor
  · intro hall char hchar
    have hsmall : char.toNat < 0x80 := by
      by_contra hlarge
      obtain ⟨byte, hbyte, hle⟩ := utf8_encode_large (Nat.le_of_not_lt hlarge)
      have hlt := hp byte (hall byte ⟨char, hchar, hbyte⟩)
      omega
    refine ⟨hsmall, hall _ ⟨char, hchar, ?_⟩⟩
    rw [utf8_encode_small hsmall]
    exact List.mem_singleton_self _
  · rintro hall byte ⟨char, hchar, hbyte⟩
    obtain ⟨hsmall, hpass⟩ := hall char hchar
    rw [utf8_encode_small hsmall, List.mem_singleton] at hbyte
    rw [hbyte]
    exact hpass

/-- The bytes of an ASCII text are its characters. -/
theorem utf8_bytes_ascii {text : List Char} (h : ∀ char ∈ text, char.toNat < 0x80) :
    utf8Bytes text = text.map fun char => UInt8.ofNat char.toNat := by
  induction text with
  | nil => rfl
  | cons char rest ih =>
      have hrest := ih fun other hother => h other (List.mem_cons_of_mem _ hother)
      simp only [utf8Bytes] at hrest
      simp [utf8Bytes, utf8_encode_small (h char List.mem_cons_self), hrest]

theorem utf8_bytes_length {text : List Char} (h : ∀ char ∈ text, char.toNat < 0x80) :
    (utf8Bytes text).length = text.length := by
  rw [utf8_bytes_ascii h, List.length_map]

/-- A lowercase letter, by its byte. -/
theorem ascii_lowercase_iff (char : Char) :
    char.toNat < 0x80 ∧ isAsciiLowercase (.ofNat char.toNat) = true ↔ char.isLower = true := by
  have hval : char.val.toNat = char.toNat := rfl
  have hlower : char.isLower = (decide ('a'.val ≤ char.val) && decide (char.val ≤ 'z'.val)) := rfl
  rw [hlower]
  simp only [isAsciiLowercase, Bool.and_eq_true, decide_eq_true_eq,
    UInt8.le_iff_toNat_le, UInt32.le_iff_toNat_le, UInt8.toNat_ofNat', UInt8.reduceToNat, hval]
  have hlow : 'a'.val.toNat = 0x61 := rfl
  have hhigh : 'z'.val.toNat = 0x7a := rfl
  rw [hlow, hhigh]
  omega

/-- A decimal digit, by its byte. -/
theorem ascii_digit_iff (char : Char) :
    char.toNat < 0x80 ∧ isAsciiDigit (.ofNat char.toNat) = true ↔ char.isDigit = true := by
  have hval : char.val.toNat = char.toNat := rfl
  simp only [isAsciiDigit, Char.isDigit, Bool.and_eq_true, decide_eq_true_eq, ge_iff_le,
    UInt8.le_iff_toNat_le, UInt32.le_iff_toNat_le, UInt8.toNat_ofNat', UInt8.reduceToNat, hval]
  have hlow : '0'.val.toNat = 0x30 := rfl
  have hhigh : '9'.val.toNat = 0x39 := rfl
  rw [hlow, hhigh]
  omega

/-! ## Reading -/

/-- The value of a digit or a letter. -/
def digitValue (char : Char) : Option Nat :=
  if '0' ≤ char ∧ char ≤ '9' then some (char.toNat - '0'.toNat)
  else if 'a' ≤ char ∧ char ≤ 'z' then some (char.toNat - 'a'.toNat + 10)
  else if 'A' ≤ char ∧ char ≤ 'Z' then some (char.toNat - 'A'.toNat + 10)
  else none

/-- `char::to_digit` -/
def toDigit (radix : Nat) (char : Char) : Option Nat := (digitValue char).filter (· < radix)

/-- The digits of a number below a bound. -/
def readDigits (radix bound : Nat) (text : List Char) : Option Nat :=
  text.foldlM (fun value char => do
    let digit ← toDigit radix char
    if value * radix + digit < bound then some (value * radix + digit) else none) 0

/-- `from_str_radix` of an unsigned type with so many values. -/
def fromStrRadix (radix bound : Nat) : List Char → Option Nat
  | [] => none
  | ['+'] => none
  | '+' :: text => readDigits radix bound text
  | text => readDigits radix bound text

/-! ## Writing -/

/-- The last digits of a number, so many of them. -/
def fixedDigits (radix : Nat) : Nat → Nat → List Char
  | 0, _ => []
  | width + 1, value => fixedDigits radix width (value / radix) ++ [Nat.digitChar (value % radix)]

/-- `{:0width$x}` -/
def paddedHex (width value : Nat) : List Char := (Nat.toDigits 16 value).leftpad width '0'

section

variable {radix : Nat}

theorem to_digit_digit_char (hradix : radix ≤ 16) {digit : Nat} (h : digit < radix) :
    toDigit radix (Nat.digitChar digit) = some digit := by
  have hvalue : ∀ digit : Fin 16, digitValue (Nat.digitChar digit) = some digit.val := by decide
  rw [toDigit, hvalue ⟨digit, by omega⟩]
  simp [h]

/-- One more digit at the end. -/
theorem read_digits_concat {bound value digit : Nat} {text : List Char} (hradix : radix ≤ 16)
    (hread : readDigits radix bound text = some value) (hdigit : digit < radix)
    (hbound : value * radix + digit < bound) :
    readDigits radix bound (text ++ [Nat.digitChar digit]) = some (value * radix + digit) := by
  unfold readDigits at hread ⊢
  rw [List.foldlM_append, hread]
  simp [to_digit_digit_char hradix hdigit, hbound]

/-- The digits of a number are read as the number. -/
theorem read_digits_to_digits (hone : 1 < radix) (hradix : radix ≤ 16) {bound value : Nat}
    (h : value < bound) : readDigits radix bound (Nat.toDigits radix value) = some value := by
  induction value using Nat.strongRecOn with
  | _ value ih =>
      by_cases hsmall : value < radix
      · rw [Nat.toDigits_of_lt_base hsmall]
        have hnil : readDigits radix bound [] = some 0 := rfl
        have hread := read_digits_concat hradix hnil hsmall (by omega)
        simpa using hread
      · have hless : value / radix < value := Nat.div_lt_self (by omega) hone
        have hdivision := Nat.div_add_mod value radix
        rw [Nat.mul_comm] at hdivision
        have hread := read_digits_concat hradix (ih _ hless (by omega))
          (Nat.mod_lt value (by omega)) (by omega)
        rw [Nat.toDigits_of_base_le hone (by omega), hread, hdivision]

theorem read_digits_fixed (hone : 1 < radix) (hradix : radix ≤ 16) {bound : Nat} (width : Nat)
    {value : Nat} (hwidth : value < radix ^ width) (h : value < bound) :
    readDigits radix bound (fixedDigits radix width value) = some value := by
  induction width generalizing value with
  | zero =>
      have hzero : value = 0 := by simpa using hwidth
      rw [hzero]
      rfl
  | succ width ih =>
      have hdivision := Nat.div_add_mod value radix
      rw [Nat.mul_comm] at hdivision
      have hless : value / radix ≤ value := Nat.div_le_self _ _
      have hquotient : value / radix < radix ^ width := by
        apply Nat.div_lt_of_lt_mul
        rw [Nat.mul_comm, ← Nat.pow_succ]
        exact hwidth
      have hread := read_digits_concat hradix (ih hquotient (by omega))
        (Nat.mod_lt value (by omega)) (by omega)
      rw [fixedDigits, hread, hdivision]

theorem fixed_digits_length (width value : Nat) : (fixedDigits radix width value).length = width := by
  induction width generalizing value with
  | zero => rfl
  | succ width ih => simp [fixedDigits, ih]

theorem fixed_digits_zero (width : Nat) : fixedDigits radix width 0 = List.replicate width '0' := by
  induction width with
  | zero => rfl
  | succ width ih =>
      rw [fixedDigits, Nat.zero_div, Nat.zero_mod, ih, List.replicate_succ']
      rfl

/-- A numeral that is padded to its width. -/
theorem leftpad_to_digits (hone : 1 < radix) (width : Nat) {value : Nat}
    (h : value < radix ^ (width + 1)) :
    (Nat.toDigits radix value).leftpad (width + 1) '0' = fixedDigits radix (width + 1) value := by
  induction width generalizing value with
  | zero =>
      have hsmall : value < radix := by simpa using h
      rw [Nat.toDigits_of_lt_base hsmall]
      simp [List.leftpad, fixedDigits, Nat.mod_eq_of_lt hsmall]
  | succ width ih =>
      by_cases hsmall : value < radix
      · rw [Nat.toDigits_of_lt_base hsmall, fixedDigits, Nat.div_eq_of_lt hsmall,
          Nat.mod_eq_of_lt hsmall, fixed_digits_zero]
        rfl
      · have hquotient : value / radix < radix ^ (width + 1) := by
          apply Nat.div_lt_of_lt_mul
          rw [Nat.mul_comm, ← Nat.pow_succ]
          exact h
        rw [Nat.toDigits_of_base_le hone (by omega), fixedDigits, ← ih hquotient]
        simp [List.leftpad]

/-- A text of digits is the numeral of a number of its width. -/
theorem exists_fixed_digits (hpos : 0 < radix) {text : List Char}
    (h : ∀ char ∈ text, ∃ digit < radix, char = Nat.digitChar digit) :
    ∃ value < radix ^ text.length, text = fixedDigits radix text.length value := by
  induction text using List.reverseRecOn with
  | nil => exact ⟨0, by simp, rfl⟩
  | append_singleton text char ih =>
      obtain ⟨value, hvalue, htext⟩ := ih fun other hother => h other (by simp [hother])
      obtain ⟨digit, hdigit, hchar⟩ := h char (by simp)
      refine ⟨value * radix + digit, ?_, ?_⟩
      · rw [List.length_append, List.length_singleton, Nat.pow_succ]
        calc value * radix + digit < (value + 1) * radix := by rw [Nat.add_mul]; omega
          _ ≤ radix ^ text.length * radix := Nat.mul_le_mul_right _ hvalue
      · have hquotient : (value * radix + digit) / radix = value := by
          rw [Nat.mul_comm, Nat.mul_add_div hpos, Nat.div_eq_of_lt hdigit, Nat.add_zero]
        have hremainder : (value * radix + digit) % radix = digit := by
          rw [Nat.mul_comm, Nat.mul_add_mod, Nat.mod_eq_of_lt hdigit]
        rw [List.length_append, List.length_singleton, fixedDigits, hquotient, hremainder,
          ← htext, hchar]

end

/-! ## Characters of numerals -/

theorem mem_fixed_digits {radix width value : Nat} (hpos : 0 < radix) {char : Char}
    (h : char ∈ fixedDigits radix width value) : ∃ digit < radix, char = Nat.digitChar digit := by
  induction width generalizing value with
  | zero => cases h
  | succ width ih =>
      rw [fixedDigits, List.mem_append, List.mem_singleton] at h
      obtain hbefore | rfl := h
      · exact ih hbefore
      · exact ⟨_, Nat.mod_lt value hpos, rfl⟩

theorem mem_to_digits {radix value : Nat} (hone : 1 < radix) {char : Char}
    (h : char ∈ Nat.toDigits radix value) : ∃ digit < radix, char = Nat.digitChar digit := by
  induction value using Nat.strongRecOn with
  | _ value ih =>
      by_cases hsmall : value < radix
      · rw [Nat.toDigits_of_lt_base hsmall, List.mem_singleton] at h
        exact ⟨value, hsmall, h⟩
      · rw [Nat.toDigits_of_base_le hone (by omega), List.mem_append, List.mem_singleton] at h
        obtain hbefore | rfl := h
        · exact ih _ (Nat.div_lt_self (by omega) hone) hbefore
        · exact ⟨_, Nat.mod_lt value (by omega), rfl⟩

theorem digit_char_lower_hex {digit : Nat} (h : digit < 16) :
    (Nat.digitChar digit).toNat < 0x80 ∧
      isLowerHex (.ofNat (Nat.digitChar digit).toNat) = true := by
  have hall : ∀ digit : Fin 16, (Nat.digitChar digit).toNat < 0x80 ∧
      isLowerHex (.ofNat (Nat.digitChar digit).toNat) = true := by decide
  exact hall ⟨digit, h⟩

theorem digit_char_digit {digit : Nat} (h : digit < 10) :
    (Nat.digitChar digit).toNat < 0x80 ∧
      isAsciiDigit (.ofNat (Nat.digitChar digit).toNat) = true := by
  have hall : ∀ digit : Fin 10, (Nat.digitChar digit).toNat < 0x80 ∧
      isAsciiDigit (.ofNat (Nat.digitChar digit).toNat) = true := by decide
  exact hall ⟨digit, h⟩

theorem lower_hex_digit_char {char : Char} (hsmall : char.toNat < 0x80)
    (h : isLowerHex (.ofNat char.toNat) = true) : ∃ digit < 16, char = Nat.digitChar digit := by
  have hall : ∀ code : Fin 128, isLowerHex (.ofNat code) = true →
      ∃ digit : Fin 16, Char.ofNat code = Nat.digitChar digit := by decide
  obtain ⟨digit, hdigit⟩ := hall ⟨char.toNat, hsmall⟩ h
  rw [Char.ofNat_toNat] at hdigit
  exact ⟨digit, digit.isLt, hdigit⟩

/-- The check of fixed-width hexadecimal: so many bytes, all of them lowercase digits. -/
theorem fixed_hex_iff (width : Nat) (text : List Char) :
    (utf8Bytes text).length = width ∧ (utf8Bytes text).all isLowerHex = true ↔
      ∃ value < 16 ^ width, text = fixedDigits 16 width value := by
  have hascii : ∀ byte, isLowerHex byte = true → byte.toNat < 0x80 := by
    intro byte hbyte
    simp only [isLowerHex, isAsciiDigit, Bool.or_eq_true, Bool.and_eq_true, decide_eq_true_eq,
      UInt8.le_iff_toNat_le, UInt8.reduceToNat] at hbyte
    omega
  rw [all_bytes_iff hascii]
  constructor
  · rintro ⟨rfl, hall⟩
    have hlength := utf8_bytes_length fun char hchar => (hall char hchar).1
    rw [hlength]
    exact exists_fixed_digits (by decide) fun char hchar =>
      lower_hex_digit_char (hall char hchar).1 (hall char hchar).2
  · rintro ⟨value, _, rfl⟩
    have hall : ∀ char ∈ fixedDigits 16 width value,
        char.toNat < 0x80 ∧ isLowerHex (.ofNat char.toNat) = true := by
      intro char hchar
      obtain ⟨digit, hdigit, rfl⟩ := mem_fixed_digits (by decide) hchar
      exact digit_char_lower_hex hdigit
    rw [utf8_bytes_length fun char hchar => (hall char hchar).1, fixed_digits_length]
    exact ⟨rfl, hall⟩

theorem decimal_bytes (value : Nat) :
    (utf8Bytes (Nat.toDigits 10 value)).all isAsciiDigit = true := by
  have hascii : ∀ byte, isAsciiDigit byte = true → byte.toNat < 0x80 := by
    intro byte hbyte
    simp only [isAsciiDigit, Bool.and_eq_true, decide_eq_true_eq, UInt8.le_iff_toNat_le,
      UInt8.reduceToNat] at hbyte
    omega
  rw [all_bytes_iff hascii]
  intro char hchar
  obtain ⟨digit, hdigit, rfl⟩ := mem_to_digits (by decide) hchar
  exact digit_char_digit hdigit

/-- A text of digits has no sign. -/
theorem from_str_radix_digits {radix bound : Nat} (hradix : radix ≤ 16) {text : List Char}
    (hsome : text ≠ []) (h : ∀ char ∈ text, ∃ digit < radix, char = Nat.digitChar digit) :
    fromStrRadix radix bound text = readDigits radix bound text := by
  have hplus : '+' ∉ text := by
    intro hmem
    obtain ⟨digit, hdigit, hchar⟩ := h _ hmem
    have hall : ∀ digit : Fin 16, '+' ≠ Nat.digitChar digit := by decide
    exact hall ⟨digit, by omega⟩ hchar
  unfold fromStrRadix
  split
  · exact absurd rfl hsome
  · exact absurd (by simp) hplus
  · exact absurd (by simp) hplus
  · rfl

/-! ## Unsigned types -/

/-- An unsigned integer type: its values are the numbers below a bound. -/
class Unsigned (T : Type) where
  bound : Nat
  ofNat : Nat → T
  toNat : T → Nat
  toNat_lt : ∀ value, toNat value < bound
  toNat_ofNat : ∀ {value}, value < bound → toNat (ofNat value) = value
  ofNat_toNat : ∀ value, ofNat (toNat value) = value

instance : Unsigned UInt8 where
  bound := 2 ^ 8
  ofNat := UInt8.ofNat
  toNat := UInt8.toNat
  toNat_lt := UInt8.toNat_lt
  toNat_ofNat h := UInt8.toNat_ofNat_of_lt h
  ofNat_toNat _ := UInt8.ofNat_toNat

instance : Unsigned UInt16 where
  bound := 2 ^ 16
  ofNat := UInt16.ofNat
  toNat := UInt16.toNat
  toNat_lt := UInt16.toNat_lt
  toNat_ofNat h := UInt16.toNat_ofNat_of_lt h
  ofNat_toNat _ := UInt16.ofNat_toNat

instance : Unsigned UInt32 where
  bound := 2 ^ 32
  ofNat := UInt32.ofNat
  toNat := UInt32.toNat
  toNat_lt := UInt32.toNat_lt
  toNat_ofNat h := UInt32.toNat_ofNat_of_lt h
  ofNat_toNat _ := UInt32.ofNat_toNat

instance : Unsigned UInt64 where
  bound := 2 ^ 64
  ofNat := UInt64.ofNat
  toNat := UInt64.toNat
  toNat_lt := UInt64.toNat_lt
  toNat_ofNat h := UInt64.toNat_ofNat_of_lt h
  ofNat_toNat _ := UInt64.ofNat_toNat

section

variable {T : Type} [Unsigned T]

/-- `from_str_radix` of an unsigned type. -/
def Unsigned.fromStrRadix (T : Type) [Unsigned T] (radix : Nat) (text : List Char) : Option T :=
  (Text.fromStrRadix radix (bound T) text).map ofNat

/-- `{}` -/
def decimal (value : T) : List Char := Nat.toDigits 10 (Unsigned.toNat value)

theorem from_str_decimal (value : T) :
    Unsigned.fromStrRadix T 10 (decimal value) = some value := by
  unfold Unsigned.fromStrRadix decimal
  rw [from_str_radix_digits (by decide) Nat.toDigits_ne_nil fun char => mem_to_digits (by decide),
    read_digits_to_digits (by decide) (by decide) (Unsigned.toNat_lt value), Option.map_some,
    Unsigned.ofNat_toNat]

/-- Hexadecimal digits of a width that the type has room for. -/
theorem from_str_fixed_hex {width value : Nat} (hsome : width ≠ 0) (h : value < 16 ^ width)
    (hbound : value < Unsigned.bound T) :
    Unsigned.fromStrRadix T 16 (fixedDigits 16 width value) = some (Unsigned.ofNat value) := by
  have hne : fixedDigits 16 width value ≠ [] := by
    rw [ne_eq, ← List.length_eq_zero_iff, fixed_digits_length]
    exact hsome
  unfold Unsigned.fromStrRadix
  rw [from_str_radix_digits (by decide) hne fun char => mem_fixed_digits (by decide),
    read_digits_fixed (by decide) (by decide) width h hbound, Option.map_some]

end

theorem padded_hex_eq {width value : Nat} (hsome : width ≠ 0) (h : value < 16 ^ width) :
    paddedHex width value = fixedDigits 16 width value := by
  obtain ⟨width, rfl⟩ := Nat.exists_eq_succ_of_ne_zero hsome
  exact leftpad_to_digits (by decide) width h

end NanoKvm.Text
