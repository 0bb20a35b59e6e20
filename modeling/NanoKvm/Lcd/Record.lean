import Mathlib.Data.Fintype.Basic
import Mathlib.Logic.Function.Basic
import Mathlib.Tactic.FinCases
import Mathlib.Tactic.Tauto
import NanoKvm.Exec.Indices

/-!
# The LCD ownership records

One frame slot has a request line that only Linux writes and a completion line that only
the C906L writes. Both are 64-byte lines with the layout of `Record`; the last word is
the commit. `Line` is such a line as the sixteen words in which both sides write it, so
that a reader can see some words of a record and not yet the others.
-/

namespace NanoKvm.Lcd

/-- The two frame slots. -/
abbrev Slot := Fin 2

/-- A 64-byte ownership line as its sixteen little-endian words. -/
abbrev Line := Fin 16 → UInt32

/-- `struct Record`, with the 36 reserved bytes as nine words. -/
structure Record where
  magic : UInt32
  generation : UInt32
  sequence : UInt32
  result : UInt32
  x : UInt16
  y : UInt16
  width : UInt16
  height : UInt16
  reserved : Vector UInt32 9
  commit : UInt32
  deriving DecidableEq, Repr

def requestMagic : UInt32 := 826688076
def completionMagic : UInt32 := 826688067
def lcdWidth : UInt32 := 240
def lcdHeight : UInt32 := 240

/-- The offset of the commit word, in words. -/
def commitIndex : Fin 16 := 15

/-- The record that a reader of the line sees. -/
def Record.ofLine (line : Line) : Record where
  magic := line 0
  generation := line 1
  sequence := line 2
  result := line 3
  x := (line 4).toUInt16
  y := (line 4 >>> 16).toUInt16
  width := (line 5).toUInt16
  height := (line 5 >>> 16).toUInt16
  reserved := #v[line 6, line 7, line 8, line 9, line 10, line 11, line 12, line 13, line 14]
  commit := line 15

/-- The words of a record. -/
def Record.toLine (record : Record) : Line :=
  Vector.get #v[record.magic, record.generation, record.sequence, record.result,
    record.x.toUInt32 ||| (record.y.toUInt32 <<< 16),
    record.width.toUInt32 ||| (record.height.toUInt32 <<< 16),
    record.reserved[0], record.reserved[1], record.reserved[2], record.reserved[3],
    record.reserved[4], record.reserved[5], record.reserved[6], record.reserved[7],
    record.reserved[8], record.commit]

/-- `valid_request`: a committed request of this generation other than the completed one, whose
rectangle lies on the panel and whose size is that of its pixels. -/
def validRequest (record : Record) (generation completed : UInt32) : Bool :=
  let width := record.width.toUInt32
  let height := record.height.toUInt32
  record.magic == requestMagic
    && record.generation == generation
    && record.sequence != 0
    && record.sequence != completed
    && record.commit == record.sequence
    && width != 0
    && height != 0
    && decide (record.x.toUInt32 + width ≤ lcdWidth)
    && decide (record.y.toUInt32 + height ≤ lcdHeight)
    && record.result == width * height * 2
    && record.reserved == Vector.replicate 9 0

/-- A valid request is stamped with the generation it is checked against. -/
theorem valid_request_generation {record : Record} {generation completed : UInt32}
    (h : validRequest record generation completed = true) : record.generation = generation := by
  simp only [validRequest, Bool.and_eq_true, beq_iff_eq] at h
  tauto

/-! ## Words and fields -/

/-- The low half of a packed word. -/
theorem low_half (low high : UInt16) :
    (low.toUInt32 ||| (high.toUInt32 <<< 16)).toUInt16 = low := by
  apply UInt16.toNat_inj.1
  simp only [UInt32.toNat_toUInt16, UInt32.toNat_or, UInt16.toNat_toUInt32,
    UInt32.toNat_shiftLeft]
  rw [Nat.or_mod_two_pow]
  simp [Nat.shiftLeft_eq]

/-- The high half of a packed word. -/
theorem high_half (low high : UInt16) :
    ((low.toUInt32 ||| (high.toUInt32 <<< 16)) >>> 16).toUInt16 = high := by
  apply UInt16.toNat_inj.1
  have hlow := low.toNat_lt
  have hhigh := high.toNat_lt
  have hbits : (16 : UInt32).toNat % 32 = 16 := rfl
  have hshift : high.toNat * 2 ^ 16 % 2 ^ 32 = high.toNat * 2 ^ 16 :=
    Nat.mod_eq_of_lt (by omega)
  simp only [UInt32.toNat_toUInt16, UInt32.toNat_or, UInt16.toNat_toUInt32,
    UInt32.toNat_shiftLeft, UInt32.toNat_shiftRight]
  rw [Nat.shiftRight_or_distrib, hbits, Nat.shiftLeft_eq, hshift, Nat.shiftRight_eq_div_pow,
    Nat.shiftRight_eq_div_pow, Nat.mul_div_cancel _ (by decide), Nat.div_eq_of_lt hlow,
    Nat.zero_or, Nat.mod_eq_of_lt hhigh]

/-- A reader of the words of a record sees the record. -/
theorem of_line_to_line (record : Record) : Record.ofLine record.toLine = record := by
  obtain ⟨magic, generation, sequence, result, x, y, width, height, reserved, commit⟩ := record
  have hreserved : #v[reserved[0], reserved[1], reserved[2], reserved[3], reserved[4],
      reserved[5], reserved[6], reserved[7], reserved[8]] = reserved := by
    apply Vector.ext
    intro index hindex
    match index, hindex with
    | 0, _ | 1, _ | 2, _ | 3, _ | 4, _ | 5, _ | 6, _ | 7, _ | 8, _ => rfl
  rw [Record.ofLine, Record.mk.injEq]
  exact ⟨rfl, rfl, rfl, rfl, low_half x y, high_half x y, low_half width height,
    high_half width height, hreserved, rfl⟩

/-- The commit is the last word. -/
theorem to_line_commit (record : Record) (commit : UInt32) :
    Function.update record.toLine commitIndex commit =
      { record with commit := commit }.toLine := by
  funext index
  by_cases hindex : index = commitIndex
  · rw [hindex, Function.update_self]
    rfl
  · rw [Function.update_of_ne hindex]
    fin_cases index <;> first | rfl | exact absurd rfl hindex

end NanoKvm.Lcd
