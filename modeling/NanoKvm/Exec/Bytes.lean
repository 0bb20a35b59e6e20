import Mathlib.Logic.Function.Basic

/-!
# Byte-addressed memory

A memory holds a byte at every address. Ranges are read and written as lists of bytes; a
read that does not meet a written range sees what was there before.
-/

namespace NanoKvm.Exec

/-- A byte at every address. -/
structure Memory where
  byte : Nat → UInt8

namespace Memory

/-- One byte replaced. -/
def set (memory : Memory) (address : Nat) (byte : UInt8) : Memory :=
  ⟨Function.update memory.byte address byte⟩

/-- The bytes of a range. -/
def read (memory : Memory) (address : Nat) : Nat → List UInt8
  | 0 => []
  | count + 1 => memory.byte address :: memory.read (address + 1) count

/-- A range replaced by the given bytes. -/
def write (memory : Memory) (address : Nat) : List UInt8 → Memory
  | [] => memory
  | byte :: rest => (memory.set address byte).write (address + 1) rest

@[simp] theorem read_length (memory : Memory) (address count : Nat) :
    (memory.read address count).length = count := by
  induction count generalizing address with
  | zero => rfl
  | succ count ih => simp [read, ih]

theorem set_other (memory : Memory) {address target : Nat} (h : target ≠ address)
    (byte : UInt8) : (memory.set address byte).byte target = memory.byte target := by
  simp [set, h]

/-- A byte outside the written range. -/
theorem write_outside (memory : Memory) {address target : Nat} {bytes : List UInt8}
    (h : target < address ∨ address + bytes.length ≤ target) :
    (memory.write address bytes).byte target = memory.byte target := by
  induction bytes generalizing memory address with
  | nil => rfl
  | cons byte rest ih =>
      simp only [List.length_cons] at h
      rw [write, ih _ (by omega), set_other _ (by omega)]

/-- A read depends only on the bytes of its range. -/
theorem read_congr {memory other : Memory} {address count : Nat}
    (h : ∀ target, address ≤ target → target < address + count →
      other.byte target = memory.byte target) :
    other.read address count = memory.read address count := by
  induction count generalizing address with
  | zero => rfl
  | succ count ih =>
      rw [read, read, h address (by omega) (by omega)]
      rw [ih fun target hlow hhigh => h target (by omega) (by omega)]

/-- A read of exactly the written range. -/
theorem read_write_self (memory : Memory) (address : Nat) (bytes : List UInt8) :
    (memory.write address bytes).read address bytes.length = bytes := by
  induction bytes generalizing memory address with
  | nil => rfl
  | cons byte rest ih =>
      rw [List.length_cons, read, write, ih]
      rw [write_outside _ (by omega)]
      simp [set]

/-- A read in two parts. -/
theorem read_append (memory : Memory) (address first second : Nat) :
    memory.read address (first + second) =
      memory.read address first ++ memory.read (address + first) second := by
  induction first generalizing address with
  | zero => simp [read]
  | succ first ih =>
      rw [Nat.succ_add, read, read, ih, List.cons_append]
      rw [show address + 1 + first = address + (first + 1) by omega]

/-- The first bytes of a read. -/
theorem read_take (memory : Memory) (address : Nat) {count total : Nat} (h : count ≤ total) :
    (memory.read address total).take count = memory.read address count := by
  obtain ⟨rest, rfl⟩ := Nat.exists_eq_add_of_le h
  rw [read_append, List.take_left' (read_length ..)]

/-- A part of a read. -/
theorem read_drop_take (memory : Memory) (address : Nat) {offset count total : Nat}
    (h : offset + count ≤ total) :
    ((memory.read address total).drop offset).take count =
      memory.read (address + offset) count := by
  obtain ⟨rest, rfl⟩ := Nat.exists_eq_add_of_le h
  rw [Nat.add_assoc, read_append, List.drop_left' (read_length ..), read_append,
    List.take_left' (read_length ..)]

end Memory

/-! ## The bytes of a word -/

/-- A word of two bytes, most significant first. -/
theorem word_bytes (x : UInt16) :
    ((x >>> 8).toUInt8.toUInt16 <<< 8) ||| x.toUInt8.toUInt16 = x := by
  apply UInt16.eq_of_toBitVec_eq
  show ((x.toBitVec >>> 8).setWidth 8).setWidth 16 <<< 8 ||| (x.toBitVec.setWidth 8).setWidth 16 =
    x.toBitVec
  apply BitVec.eq_of_getLsbD_eq
  intro i hi
  simp only [BitVec.getLsbD_or, BitVec.getLsbD_shiftLeft, BitVec.getLsbD_setWidth,
    BitVec.getLsbD_ushiftRight]
  grind

/-- A word of four bytes, most significant first. -/
theorem long_bytes (x : UInt32) :
    ((x >>> 24).toUInt8.toUInt32 <<< 24) ||| ((x >>> 16).toUInt8.toUInt32 <<< 16) |||
      ((x >>> 8).toUInt8.toUInt32 <<< 8) ||| x.toUInt8.toUInt32 = x := by
  apply UInt32.eq_of_toBitVec_eq
  show ((x.toBitVec >>> 24).setWidth 8).setWidth 32 <<< 24 |||
    ((x.toBitVec >>> 16).setWidth 8).setWidth 32 <<< 16 |||
    ((x.toBitVec >>> 8).setWidth 8).setWidth 32 <<< 8 ||| (x.toBitVec.setWidth 8).setWidth 32 =
    x.toBitVec
  apply BitVec.eq_of_getLsbD_eq
  intro i hi
  simp only [BitVec.getLsbD_or, BitVec.getLsbD_shiftLeft, BitVec.getLsbD_setWidth,
    BitVec.getLsbD_ushiftRight]
  grind

end NanoKvm.Exec
