import Mathlib.Data.List.Basic

/-!
# Base64

The decoder of RFC 4648 with padding, and an encoder group by group: `decode_encode` says that they
are inverse, `encode_length` how long the text is.
-/

namespace NanoKvm.Text.Base64

/-- The characters of the sixty-four values. -/
def alphabet : List Char :=
  ['A', 'B', 'C', 'D', 'E', 'F', 'G', 'H', 'I', 'J', 'K', 'L', 'M', 'N', 'O', 'P', 'Q', 'R', 'S',
    'T', 'U', 'V', 'W', 'X', 'Y', 'Z', 'a', 'b', 'c', 'd', 'e', 'f', 'g', 'h', 'i', 'j', 'k', 'l',
    'm', 'n', 'o', 'p', 'q', 'r', 's', 't', 'u', 'v', 'w', 'x', 'y', 'z', '0', '1', '2', '3', '4',
    '5', '6', '7', '8', '9', '+', '/']

/-- The character that fills up the last group. -/
def pad : Char := '='

/-- The character of a value. -/
def charOf (value : Nat) : Char := alphabet.getD value pad

/-- The value of a character. -/
def valueOf (char : Char) : Option Nat := alphabet.idxOf? char

/-- The three bytes of a group's number. -/
def bytesOf (number : Nat) : List UInt8 :=
  [.ofNat (number / 65536), .ofNat (number / 256), .ofNat number]

/-- The number of three bytes. -/
def numberOf (first second third : UInt8) : Nat :=
  65536 * first.toNat + 256 * second.toNat + third.toNat

/-- The number of four values. -/
def joinValues (first second third fourth : Nat) : Nat :=
  262144 * first + 4096 * second + 64 * third + fourth

/-- The last group, if it is padded: its unused bits are zero. -/
def decodePadded (first second third : Char) : Option (List UInt8) := do
  let first ← valueOf first
  let second ← valueOf second
  if third = pad then
    if second % 16 = 0 then some ((bytesOf (joinValues first second 0 0)).take 1) else none
  else
    let third ← valueOf third
    if third % 4 = 0 then some ((bytesOf (joinValues first second third 0)).take 2) else none

/-- The bytes that a text stands for. -/
def decode : List Char → Option (List UInt8)
  | [] => some []
  | [first, second, third, fourth] =>
      if fourth = pad then decodePadded first second third
      else do
        some (bytesOf (joinValues (← valueOf first) (← valueOf second) (← valueOf third)
          (← valueOf fourth)))
  | first :: second :: third :: fourth :: rest => do
      let group := bytesOf (joinValues (← valueOf first) (← valueOf second) (← valueOf third)
        (← valueOf fourth))
      some (group ++ (← decode rest))
  | _ => none

/-- The characters of a group's number. -/
def charsOf (number : Nat) : List Char :=
  [charOf (number / 262144), charOf (number / 4096 % 64), charOf (number / 64 % 64),
    charOf (number % 64)]

/-- The text of the bytes. -/
def encode : List UInt8 → List Char
  | first :: second :: third :: rest => charsOf (numberOf first second third) ++ encode rest
  | [first, second] => (charsOf (numberOf first second 0)).take 3 ++ [pad]
  | [first] => (charsOf (numberOf first 0 0)).take 2 ++ [pad, pad]
  | [] => []

/-! ## The alphabet -/

theorem value_of_char {value : Nat} (h : value < 64) : valueOf (charOf value) = some value := by
  have hall : ∀ value : Fin 64, valueOf (charOf value) = some value.val := by decide
  exact hall ⟨value, h⟩

theorem char_ne_pad {value : Nat} (h : value < 64) : charOf value ≠ pad := by
  have hall : ∀ value : Fin 64, charOf value ≠ pad := by decide
  exact hall ⟨value, h⟩

/-! ## Groups -/

section

variable (first second third : UInt8)

theorem number_lt : numberOf first second third < 16777216 := by
  have hfirst := first.toNat_lt
  have hsecond := second.toNat_lt
  have hthird := third.toNat_lt
  unfold numberOf
  omega

theorem bytes_of_number : bytesOf (numberOf first second third) = [first, second, third] := by
  have hfirst := first.toNat_lt
  have hsecond := second.toNat_lt
  have hthird := third.toNat_lt
  simp only [bytesOf, numberOf, List.cons.injEq, and_true, ← UInt8.toNat_inj, UInt8.toNat_ofNat']
  omega

/-- The values of a group's characters give its number. -/
theorem join_values (number : Nat) :
    joinValues (number / 262144) (number / 4096 % 64) (number / 64 % 64) (number % 64) = number := by
  unfold joinValues
  omega

end

theorem decode_group {number : Nat} (h : number < 16777216) (rest : List Char) :
    decode (charsOf number ++ rest) = (decode rest).map (bytesOf number ++ ·) := by
  have hfirst : number / 262144 < 64 := by omega
  have hsecond : number / 4096 % 64 < 64 := Nat.mod_lt _ (by decide)
  have hthird : number / 64 % 64 < 64 := Nat.mod_lt _ (by decide)
  have hfourth : number % 64 < 64 := Nat.mod_lt _ (by decide)
  cases rest with
  | nil =>
      simp [charsOf, decode, char_ne_pad hfourth, value_of_char, hfirst, hsecond, hthird, hfourth,
        join_values]
  | cons char rest =>
      simp only [charsOf, List.cons_append, List.nil_append, decode, value_of_char, hfirst, hsecond,
        hthird, hfourth, Option.bind_eq_bind, Option.bind_some, join_values]
      cases decode (char :: rest) <;> rfl

theorem decode_two (first second : UInt8) :
    decode ((charsOf (numberOf first second 0)).take 3 ++ [pad]) = some [first, second] := by
  have hnumber := number_lt first second 0
  have hbytes := bytes_of_number first second 0
  have hvalue := join_values (numberOf first second 0)
  have hlow : numberOf first second 0 % 64 = 0 := by
    simp only [numberOf]
    show (_ + _ + 0) % 64 = 0
    omega
  have hunused : numberOf first second 0 / 64 % 64 % 4 = 0 := by
    simp only [numberOf]
    show (_ + _ + 0) / 64 % 64 % 4 = 0
    omega
  rw [hlow] at hvalue
  have hfirst : numberOf first second 0 / 262144 < 64 := by omega
  have hsecond : numberOf first second 0 / 4096 % 64 < 64 := Nat.mod_lt _ (by decide)
  have hthird : numberOf first second 0 / 64 % 64 < 64 := Nat.mod_lt _ (by decide)
  simp [charsOf, decode, decodePadded, value_of_char, char_ne_pad, hfirst, hsecond, hthird,
    hunused, hvalue, hbytes]

theorem decode_one (first : UInt8) :
    decode ((charsOf (numberOf first 0 0)).take 2 ++ [pad, pad]) = some [first] := by
  have hnumber := number_lt first 0 0
  have hbytes := bytes_of_number first 0 0
  have hvalue := join_values (numberOf first 0 0)
  have hlow : numberOf first 0 0 % 64 = 0 := by
    simp only [numberOf]
    show (_ + 0 + 0) % 64 = 0
    omega
  have hthird : numberOf first 0 0 / 64 % 64 = 0 := by
    simp only [numberOf]
    show (_ + 0 + 0) / 64 % 64 = 0
    omega
  have hunused : numberOf first 0 0 / 4096 % 64 % 16 = 0 := by
    simp only [numberOf]
    show (_ + 0 + 0) / 4096 % 64 % 16 = 0
    omega
  rw [hlow, hthird] at hvalue
  have hfirst : numberOf first 0 0 / 262144 < 64 := by omega
  have hsecond : numberOf first 0 0 / 4096 % 64 < 64 := Nat.mod_lt _ (by decide)
  simp [charsOf, decode, decodePadded, value_of_char, hfirst, hsecond, hunused, hvalue, hbytes]

/-! ## The whole text -/

/-- The text stands for the bytes. -/
theorem decode_encode (bytes : List UInt8) : decode (encode bytes) = some bytes := by
  induction bytes using encode.induct with
  | case1 first second third rest ih =>
      rw [encode, decode_group (number_lt ..), ih, Option.map_some, bytes_of_number]
      rfl
  | case2 first second => exact decode_two first second
  | case3 first => exact decode_one first
  | case4 => rfl

/-- Four characters for every three bytes or part of them. -/
theorem encode_length (bytes : List UInt8) :
    (encode bytes).length = 4 * ((bytes.length + 2) / 3) := by
  induction bytes using encode.induct with
  | case1 first second third rest ih =>
      simp only [encode, charsOf, List.length_append, List.length_cons, List.length_nil, ih]
      omega
  | case2 first second => simp [encode, charsOf]
  | case3 first => simp [encode, charsOf]
  | case4 => rfl

end NanoKvm.Text.Base64
