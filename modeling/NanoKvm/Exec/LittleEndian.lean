import Mathlib.Algebra.Group.Nat.Defs
import Mathlib.Data.Nat.Basic

/-!
# Little-endian integers

Integers as bytes with the lowest one first, what byte stands where, records whose fields are placed
at offsets, and bytes as words of 32 bits.
-/

namespace NanoKvm.Exec

/-- `to_le_bytes` of an integer of `count` bytes. -/
def leBytes : Nat → Nat → List UInt8
  | 0, _ => []
  | count + 1, value => .ofNat value :: leBytes count (value / 256)

/-- `from_le_bytes` -/
def ofLeBytes : List UInt8 → Nat
  | [] => 0
  | byte :: rest => byte.toNat + 256 * ofLeBytes rest

@[simp] theorem le_bytes_length (count value : Nat) : (leBytes count value).length = count := by
  induction count generalizing value with
  | zero => rfl
  | succ count ih => simp [leBytes, ih]

/-- Reading back what was written. -/
theorem of_le_bytes_le_bytes (count value : Nat) :
    ofLeBytes (leBytes count value) = value % 256 ^ count := by
  induction count generalizing value with
  | zero => simp [leBytes, ofLeBytes, Nat.mod_one]
  | succ count ih =>
      have hbyte : (UInt8.ofNat value).toNat = value % 256 := by simp
      rw [leBytes, ofLeBytes, ih, hbyte, Nat.pow_succ', Nat.mod_mul]

/-- Writing what was read. -/
theorem le_bytes_of_le_bytes (bytes : List UInt8) :
    leBytes bytes.length (ofLeBytes bytes) = bytes := by
  induction bytes with
  | nil => rfl
  | cons byte rest ih =>
      have hlt := byte.toNat_lt
      have hrest : (byte.toNat + 256 * ofLeBytes rest) / 256 = ofLeBytes rest := by omega
      have hbyte : UInt8.ofNat (byte.toNat + 256 * ofLeBytes rest) = byte := by
        apply UInt8.toNat_inj.mp
        rw [UInt8.toNat_ofNat']
        omega
      rw [List.length_cons, leBytes, ofLeBytes, hrest, ih, hbyte]

/-- The byte at a position. -/
theorem le_bytes_get {count value index : Nat} (h : index < count) :
    (leBytes count value)[index]? = some (.ofNat (value / 256 ^ index)) := by
  induction count generalizing value index with
  | zero => omega
  | succ count ih =>
      cases index with
      | zero => simp [leBytes]
      | succ index =>
          rw [leBytes, List.getElem?_cons_succ, ih (by omega), Nat.div_div_eq_div_mul,
            Nat.pow_succ']

/-- Numbers that fit are told apart by their bytes. -/
theorem le_bytes_inj {count first second : Nat} (hfirst : first < 256 ^ count)
    (hsecond : second < 256 ^ count) (h : leBytes count first = leBytes count second) :
    first = second := by
  have hread := congrArg ofLeBytes h
  rwa [of_le_bytes_le_bytes, of_le_bytes_le_bytes, Nat.mod_eq_of_lt hfirst,
    Nat.mod_eq_of_lt hsecond] at hread

theorem of_le_bytes_append (first second : List UInt8) :
    ofLeBytes (first ++ second) = ofLeBytes first + 256 ^ first.length * ofLeBytes second := by
  induction first with
  | nil => simp [ofLeBytes]
  | cons byte rest ih =>
      rw [List.cons_append, ofLeBytes, ofLeBytes, ih, List.length_cons, Nat.pow_succ', Nat.mul_add,
        Nat.mul_assoc, Nat.add_assoc]

/-- The bytes of a double word are those of its two words. -/
theorem le_bytes_add (low high value : Nat) :
    leBytes (low + high) value = leBytes low value ++ leBytes high (value / 256 ^ low) := by
  induction low generalizing value with
  | zero => simp [leBytes]
  | succ low ih =>
      rw [Nat.succ_add, leBytes, leBytes, ih, Nat.div_div_eq_div_mul, Nat.pow_succ',
        List.cons_append]

/-! ## Records -/

/-- The bytes of a record of this size whose fields are written at their offsets. -/
def layOut (size : Nat) (fields : List (Nat × List UInt8)) : List UInt8 :=
  fields.foldl (fun record field =>
    record.take field.1 ++ field.2 ++ record.drop (field.1 + field.2.length))
    (List.replicate size 0)

/-- Every field starts where the one before it ends. -/
def Contiguous : Nat → List (Nat × List UInt8) → Prop
  | _, [] => True
  | start, field :: rest => field.1 = start ∧ Contiguous (start + field.2.length) rest

/-- Fields without gaps that fill the record follow each other. -/
theorem lay_out_contiguous {size : Nat} {fields : List (Nat × List UInt8)}
    (h : Contiguous 0 fields) (hsize : (fields.map Prod.snd).flatten.length = size) :
    layOut size fields = (fields.map Prod.snd).flatten := by
  have hfold : ∀ (written record : List UInt8) (rest : List (Nat × List UInt8)),
      Contiguous written.length rest →
      (rest.map Prod.snd).flatten.length = record.length →
      rest.foldl (fun record field =>
        record.take field.1 ++ field.2 ++ record.drop (field.1 + field.2.length))
        (written ++ record) = written ++ (rest.map Prod.snd).flatten := by
    intro written record rest hrest hlength
    induction rest generalizing written record with
    | nil =>
        have hnil : record = [] := List.length_eq_zero_iff.mp hlength.symm
        rw [hnil]
        rfl
    | cons field rest ih =>
        obtain ⟨hstart, hrest⟩ := hrest
        rw [List.map_cons, List.flatten_cons, List.length_append] at hlength
        rw [List.foldl_cons, hstart, List.take_left, List.drop_append]
        have hdrop : written.drop (written.length + field.2.length) = [] :=
          List.drop_eq_nil_of_le (Nat.le_add_right ..)
        rw [hdrop, List.nil_append, Nat.add_sub_cancel_left]
        rw [ih (written ++ field.2) (record.drop field.2.length)
          (by rwa [List.length_append]) (by rw [List.length_drop]; omega)]
        rw [List.map_cons, List.flatten_cons, List.append_assoc]
  exact hfold [] (List.replicate size 0) fields h (by rw [hsize, List.length_replicate])

/-! ## Words -/

/-- The little-endian words of 32 bits that the bytes fill. -/
def leWords : List UInt8 → List UInt32
  | zero :: one :: two :: three :: rest =>
      .ofNat (ofLeBytes [zero, one, two, three]) :: leWords rest
  | _ => []

theorem le_words_block {block : List UInt8} (h : block.length = 4) (rest : List UInt8) :
    leWords (block ++ rest) = .ofNat (ofLeBytes block) :: leWords rest := by
  match block, h with
  | [zero, one, two, three], _ => rfl

/-- Bytes that do not start with a word are too few for one. -/
theorem short_of_no_word {bytes : List UInt8}
    (h : ∀ zero one two three rest, bytes = zero :: one :: two :: three :: rest → False) :
    bytes.length < 4 := by
  match bytes, h with
  | [], _ | [_], _ | [_, _], _ | [_, _, _], _ => simp
  | _ :: _ :: _ :: _ :: _, h => exact absurd rfl (h _ _ _ _ _)

theorem nil_of_no_word {bytes : List UInt8} (hwords : 4 ∣ bytes.length)
    (h : ∀ zero one two three rest, bytes = zero :: one :: two :: three :: rest → False) :
    bytes = [] := by
  have := short_of_no_word h
  exact List.length_eq_zero_iff.mp (by omega)

theorem le_words_append {first : List UInt8} (h : 4 ∣ first.length) (second : List UInt8) :
    leWords (first ++ second) = leWords first ++ leWords second := by
  induction first using leWords.induct with
  | case1 zero one two three rest ih =>
      have hrest : 4 ∣ rest.length := by
        simp only [List.length_cons] at h
        omega
      show _ :: leWords (rest ++ second) = _
      rw [ih hrest]
      rfl
  | case2 first hshort =>
      rw [nil_of_no_word h hshort]
      rfl

theorem le_words_length (bytes : List UInt8) : (leWords bytes).length = bytes.length / 4 := by
  induction bytes using leWords.induct with
  | case1 zero one two three rest ih =>
      rw [leWords, List.length_cons, ih]
      simp only [List.length_cons]
      omega
  | case2 bytes hshort =>
      rw [leWords.eq_2 bytes hshort, Nat.div_eq_of_lt (short_of_no_word hshort)]
      rfl

/-- The bytes of the words are the bytes that filled them. -/
theorem bytes_of_le_words {bytes : List UInt8} (h : 4 ∣ bytes.length) :
    (leWords bytes).flatMap (fun word => leBytes 4 word.toNat) = bytes := by
  induction bytes using leWords.induct with
  | case1 zero one two three rest ih =>
      have hrest : 4 ∣ rest.length := by
        simp only [List.length_cons] at h
        omega
      have hlt : ofLeBytes [zero, one, two, three] < 2 ^ 32 := by
        have h0 := zero.toNat_lt
        have h1 := one.toNat_lt
        have h2 := two.toNat_lt
        have h3 := three.toNat_lt
        simp only [ofLeBytes]
        omega
      rw [leWords, List.flatMap_cons, ih hrest, UInt32.toNat_ofNat_of_lt' hlt,
        show leBytes 4 _ = _ from le_bytes_of_le_bytes [zero, one, two, three]]
      rfl
  | case2 bytes hshort =>
      rw [nil_of_no_word h hshort]
      rfl

end NanoKvm.Exec
