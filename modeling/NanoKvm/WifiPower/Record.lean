import Mathlib.Algebra.Group.Nat.Defs
import Mathlib.Data.Fintype.Basic
import Mathlib.Tactic.FinCases
import NanoKvm.Exec.Indices
import NanoKvm.Exec.Snapshot

/-!
# The records of the Wi-Fi power regulator

Linux asks for a power change in a request line and the C906L answers in a completion line.
Both are 64-byte lines with the layout of `Record`; the last word is the commit. The request
line is kept as bytes, because Linux copies a request in stores of at most eight bytes, so
that a part of it can stand over the bytes of an older one. Readers load words.
-/

namespace NanoKvm.WifiPower

open Exec

/-- A 64-byte line as bytes. -/
abbrev Line := Fin 64 → UInt8

/-- A 64-byte line as little-endian words. -/
abbrev Words := Fin 16 → UInt32

/-- `struct power_record`, with the 44 reserved bytes as eleven words. -/
structure Record where
  magic : UInt32
  generation : UInt32
  sequence : UInt32
  enabled : UInt32
  reserved : Vector UInt32 11
  commit : UInt32
  deriving DecidableEq, Repr

def requestMagic : UInt32 := 827347799
def completionMagic : UInt32 := 827347779

/-- `u32::MAX` -/
def maxWord : UInt32 := 0xFFFFFFFF

/-- The offsets of the power value and of the commit, in words. -/
def enabledIndex : Fin 16 := 3
def commitIndex : Fin 16 := 15

/-- The record that the words hold. -/
def Record.ofWords (words : Words) : Record where
  magic := words 0
  generation := words 1
  sequence := words 2
  enabled := words 3
  reserved := #v[words 4, words 5, words 6, words 7, words 8, words 9, words 10, words 11,
    words 12, words 13, words 14]
  commit := words 15

/-- The words of a record. -/
def Record.toWords (record : Record) : Words :=
  Vector.get #v[record.magic, record.generation, record.sequence, record.enabled,
    record.reserved[0], record.reserved[1], record.reserved[2], record.reserved[3],
    record.reserved[4], record.reserved[5], record.reserved[6], record.reserved[7],
    record.reserved[8], record.reserved[9], record.reserved[10], record.commit]

/-- The number of a byte in a line. -/
def byteAt (index : Fin 16) (part : Fin 4) : Fin 64 := ⟨4 * index + part, by omega⟩

/-- The word that a load of the line returns. -/
def Line.word (line : Line) (index : Fin 16) : UInt32 :=
  .ofNat ((line (byteAt index 0)).toNat + 256 * (line (byteAt index 1)).toNat +
    65536 * (line (byteAt index 2)).toNat + 16777216 * (line (byteAt index 3)).toNat)

/-- The bytes of the words. -/
def bytesOf (words : Words) : Line := fun index =>
  .ofNat ((words ⟨index / 4, by omega⟩).toNat / 256 ^ (index.val % 4))

/-- The bytes of a record. -/
def Record.line (record : Record) : Line := bytesOf record.toWords

/-- The line after the first bytes of another one have been copied over it. -/
def Line.splice (old new : Line) (copied : Nat) : Line := fun index =>
  if index.val < copied then new index else old index

/-- A power value as the records carry it. -/
def enabledWord (enabled : Bool) : UInt32 := if enabled then 1 else 0

/-- The request as Linux copies it, before its commit. -/
def requestRecord (generation sequence : UInt32) (enabled : Bool) : Record where
  magic := requestMagic
  generation := generation
  sequence := sequence
  enabled := enabledWord enabled
  reserved := Vector.replicate 11 0
  commit := 0

/-- A request with its commit. -/
def Record.committed (record : Record) : Record := { record with commit := record.sequence }

/-- What `process` does not look at any further. -/
def rejected (request : Record) (generation completed : UInt32) : Bool :=
  generation == 0
    || request.magic != requestMagic
    || request.generation != generation
    || decide (request.sequence ≤ completed)
    || request.commit != request.sequence
    || decide (request.enabled > 1)
    || request.reserved != Vector.replicate 11 0

/-- What `acknowledged` makes of its two snapshots. -/
inductive Answer where
  | pending | complete | io | proto
  deriving DecidableEq

/-- `acknowledged` -/
def acknowledged (first second : Words) (generation sequence : UInt32) (enabled : Bool) :
    Answer :=
  let record := Record.ofWords first
  if first ≠ second ∨ record.magic ≠ completionMagic ∨ record.generation ≠ generation ∨
      record.sequence ≠ sequence ∨ record.commit ≠ sequence then .pending
  else if record.reserved ≠ Vector.replicate 11 0 then .proto
  else if record.enabled ≠ enabledWord enabled then .io
  else .complete

/-! ## Bytes and words -/

/-- The value of a loaded word. -/
theorem word_to_nat (line : Line) (index : Fin 16) : (line.word index).toNat =
    (line (byteAt index 0)).toNat + 256 * (line (byteAt index 1)).toNat +
      65536 * (line (byteAt index 2)).toNat + 16777216 * (line (byteAt index 3)).toNat := by
  have hzero := (line (byteAt index 0)).toNat_lt
  have hone := (line (byteAt index 1)).toNat_lt
  have htwo := (line (byteAt index 2)).toNat_lt
  have hthree := (line (byteAt index 3)).toNat_lt
  rw [Line.word, UInt32.toNat_ofNat']
  omega

/-- A byte of the bytes of words. -/
theorem bytes_of_byte (words : Words) (index : Fin 16) (part : Fin 4) :
    (bytesOf words (byteAt index part)).toNat =
      (words index).toNat / 256 ^ part.val % 256 := by
  have hindex : (⟨(byteAt index part).val / 4, by omega⟩ : Fin 16) = index := by
    apply Fin.ext
    show (4 * index.val + part.val) / 4 = index.val
    omega
  have hpart : (byteAt index part).val % 4 = part.val := by
    show (4 * index.val + part.val) % 4 = part.val
    omega
  rw [bytesOf, hindex, hpart, UInt8.toNat_ofNat']

/-- A load of the bytes of words returns the word. -/
theorem bytes_of_word (words : Words) (index : Fin 16) :
    (bytesOf words).word index = words index := by
  apply UInt32.toNat_inj.1
  have hlt := (words index).toNat_lt
  rw [word_to_nat, bytes_of_byte, bytes_of_byte, bytes_of_byte, bytes_of_byte]
  show (words index).toNat / 1 % 256 + 256 * ((words index).toNat / 256 % 256) +
    65536 * ((words index).toNat / 65536 % 256) +
    16777216 * ((words index).toNat / 16777216 % 256) = (words index).toNat
  omega

/-- Equal words have equal bytes. -/
theorem byte_eq_of_word {line other : Line} {index : Fin 16}
    (h : line.word index = other.word index) (part : Fin 4) :
    line (byteAt index part) = other (byteAt index part) := by
  have hnat := congrArg UInt32.toNat h
  rw [word_to_nat, word_to_nat] at hnat
  have hbound : ∀ part, (line (byteAt index part)).toNat < 256 ∧
      (other (byteAt index part)).toNat < 256 :=
    fun part => ⟨UInt8.toNat_lt _, UInt8.toNat_lt _⟩
  have hzero := hbound 0
  have hone := hbound 1
  have htwo := hbound 2
  have hthree := hbound 3
  apply UInt8.toNat_inj.1
  fin_cases part
  · show (line (byteAt index 0)).toNat = (other (byteAt index 0)).toNat
    omega
  · show (line (byteAt index 1)).toNat = (other (byteAt index 1)).toNat
    omega
  · show (line (byteAt index 2)).toNat = (other (byteAt index 2)).toNat
    omega
  · show (line (byteAt index 3)).toNat = (other (byteAt index 3)).toNat
    omega

/-- A word depends only on its own bytes. -/
theorem word_congr {line other : Line} {index : Fin 16}
    (h : ∀ part, line (byteAt index part) = other (byteAt index part)) :
    line.word index = other.word index := by
  rw [Line.word, Line.word, h 0, h 1, h 2, h 3]

/-- The words of a record hold it. -/
theorem of_words_to_words (record : Record) : Record.ofWords record.toWords = record := by
  obtain ⟨magic, generation, sequence, enabled, reserved, commit⟩ := record
  have hreserved : #v[reserved[0], reserved[1], reserved[2], reserved[3], reserved[4],
      reserved[5], reserved[6], reserved[7], reserved[8], reserved[9], reserved[10]] =
      reserved := by
    apply Vector.ext
    intro index hindex
    match index, hindex with
    | 0, _ | 1, _ | 2, _ | 3, _ | 4, _ | 5, _ | 6, _ | 7, _ | 8, _ | 9, _ | 10, _ => rfl
  rw [Record.ofWords, Record.mk.injEq]
  exact ⟨rfl, rfl, rfl, rfl, hreserved, rfl⟩

/-- A record determines its words. -/
theorem of_words_inj {words other : Words} (h : Record.ofWords words = Record.ofWords other) :
    words = other := by
  have hwords : ∀ words : Words, (Record.ofWords words).toWords = words := by
    intro words
    funext index
    fin_cases index <;> rfl
  rw [← hwords words, h, hwords]

/-- A reader of the bytes of a record sees the record. -/
theorem of_words_line (record : Record) : Record.ofWords record.line.word = record := by
  have hwords : record.line.word = record.toWords :=
    funext fun index => bytes_of_word record.toWords index
  rw [hwords, of_words_to_words]

/-- The commit is in the last four bytes. -/
theorem committed_line (record : Record) {index : Fin 64} (hindex : index.val < 60) :
    record.committed.line index = record.line index := by
  have hword : ∀ word : Fin 16, word ≠ commitIndex →
      record.committed.toWords word = record.toWords word := by
    intro word hne
    fin_cases word <;> first | rfl | exact absurd rfl hne
  unfold Record.line bytesOf
  rw [hword]
  intro heq
  have hval := congrArg Fin.val heq
  have hcommit : commitIndex.val = 15 := rfl
  simp only [hcommit] at hval
  omega

/-- The words that are loaded before the commit. -/
def recordIndices : List (Fin 16) := [0, 1, 2, 3, 4, 5, 6, 7, 8, 9, 10, 11, 12, 13, 14]

theorem commit_loaded_last : List.finRange 16 = recordIndices ++ [commitIndex] := by decide

theorem mem_record_indices {index : Fin 16} (h : index ≠ commitIndex) :
    index ∈ recordIndices := by
  revert index
  decide

/-! ## Partly copied lines -/

theorem splice_zero (old new : Line) : old.splice new 0 = old := by
  funext index
  simp [Line.splice]

theorem splice_all (old new : Line) : old.splice new 64 = new := by
  funext index
  simp [Line.splice]

/-- While an uncommitted record is copied over a line, the commit does not grow. -/
theorem splice_commit_le (old : Line) {record : Record} (hcommit : record.commit = 0)
    (copied : Nat) :
    ((old.splice record.line copied).word commitIndex).toNat ≤
      (old.word commitIndex).toNat := by
  have hbyte : ∀ part, ((old.splice record.line copied) (byteAt commitIndex part)).toNat ≤
      (old (byteAt commitIndex part)).toNat := by
    intro part
    unfold Line.splice
    split
    · have hzero : record.toWords commitIndex = 0 := hcommit
      rw [Record.line, bytes_of_byte, hzero]
      show 0 / 256 ^ part.val % 256 ≤ _
      rw [Nat.zero_div]
      exact Nat.zero_le _
    · exact Nat.le_refl _
  have hzero := hbyte 0
  have hone := hbyte 1
  have htwo := hbyte 2
  have hthree := hbyte 3
  rw [word_to_nat, word_to_nat]
  omega

end NanoKvm.WifiPower
