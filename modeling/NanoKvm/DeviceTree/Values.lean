import Mathlib.Data.List.TakeWhile
import NanoKvm.DeviceTree.Lexing
import NanoKvm.Text.Fallible

/-!
# The values dtc prints

The tokens of a printed value, and what `string_values` and `cell_values` read off them.
`decoded_eq_iff` says when the strings read back; `cell_values_value` and `balanced_of_value`
say that the cells do exactly when no string is an angle bracket.
-/

namespace NanoKvm.DeviceTree

/-! ## Names and numerals -/

/-- The characters of names. -/
def isNameCharacter (c : Char) : Bool :=
  c.isAlphanum || [',', '.', '_', '+', '*', '#', '?', '@', '-'].contains c

/-- A name of a node or a property. -/
structure IsName (name : String) : Prop where
  nonempty : name ≠ ""
  characters : name.toList.all isNameCharacter = true

instance (name : String) : Decidable (IsName name) :=
  decidable_of_iff (name ≠ "" ∧ name.toList.all isNameCharacter = true)
    ⟨fun h => ⟨h.1, h.2⟩, fun h => ⟨h.nonempty, h.characters⟩⟩

theorem name_character_small {c : Char} (h : isNameCharacter c = true) : c.toNat < 128 := by
  have hval : c.val.toNat = c.toNat := rfl
  rw [isNameCharacter, Bool.or_eq_true] at h
  obtain halphanum | hother := h
  · have hranges : (decide (c.val ≥ 'A'.val ∧ c.val ≤ 'Z'.val)
        || (c.val ≥ 'a'.val && c.val ≤ 'z'.val) || (c.val ≥ '0'.val && c.val ≤ '9'.val)) = true :=
      halphanum
    simp only [Bool.or_eq_true, Bool.and_eq_true, decide_eq_true_eq, ge_iff_le,
      UInt32.le_iff_toNat_le] at hranges
    have hcodes : 'z'.val.toNat = 122 ∧ 'Z'.val.toNat = 90 ∧ '9'.val.toNat = 57 := by decide
    omega
  · have hall : ∀ d ∈ [',', '.', '_', '+', '*', '#', '?', '@', '-'], d.toNat < 128 := by simp
    exact hall c (List.contains_iff_mem.mp hother)

theorem name_character_inner {c : Char} (h : isNameCharacter c = true) :
    isSpace c = false ∧ c ≠ '"' ∧ isSymbol c = false ∧ c ≠ '/' := by
  have hall : ∀ code : Fin 128, isNameCharacter (.ofNat code) = true →
      isSpace (.ofNat code) = false ∧ Char.ofNat code ≠ '"' ∧ isSymbol (.ofNat code) = false ∧
        Char.ofNat code ≠ '/' := by decide
  have hc := hall ⟨c.toNat, name_character_small h⟩
  simp only [Char.ofNat_toNat] at hc
  exact hc h

theorem comment_free_of_no_slash {text : List Char} (h : '/' ∉ text) : commentFree text = true := by
  induction text with
  | nil => rfl
  | cons c text ih =>
      rw [List.mem_cons, not_or] at h
      have hstart : startsComment (c :: text) ≠ true := by
        rw [ne_eq, starts_comment_iff]
        simp [Ne.symm h.1]
      rw [commentFree, ih h.2, Bool.and_true, Bool.not_eq_true', ← Bool.not_eq_true]
      exact hstart

namespace IsName

variable {name : String}

theorem mem (h : IsName name) {c : Char} (hc : c ∈ name.toList) : isNameCharacter c = true :=
  List.all_eq_true.mp h.characters c hc

theorem isAtom (h : IsName name) : IsAtom name.toList where
  nonempty := by simpa using h.nonempty
  inner c hc :=
    let ⟨hspace, hquote, hsymbol, _⟩ := name_character_inner (h.mem hc)
    ⟨hspace, hquote, hsymbol⟩
  comments := comment_free_of_no_slash fun hslash =>
    (name_character_inner (h.mem hslash)).2.2.2 rfl

theorem ne (h : IsName name) {c : Char} (hc : isNameCharacter c = false) :
    name ≠ String.ofList [c] := by
  rintro rfl
  have hname := h.mem (c := c) (by simp)
  rw [hc] at hname
  cases hname

end IsName

theorem digit_char_name {digit : Nat} (h : digit < 16) :
    isNameCharacter (Nat.digitChar digit) = true := by
  have hall : ∀ digit : Fin 16, isNameCharacter (Nat.digitChar digit) = true := by decide
  exact hall ⟨digit, h⟩

theorem padded_hex_name (width value : Nat) :
    (Text.paddedHex width value).all isNameCharacter = true := by
  rw [List.all_eq_true]
  intro c hc
  obtain ⟨digit, hdigit, rfl⟩ := mem_padded_hex hc
  exact digit_char_name hdigit

theorem padded_hex_ne_nil (width value : Nat) : Text.paddedHex width value ≠ [] := by
  rw [Text.paddedHex, List.leftpad]
  exact List.append_ne_nil_of_right_ne_nil _ Nat.toDigits_ne_nil

theorem hex_byte_name (value : UInt8) : IsName (hexByte value) where
  nonempty := by simpa [hexByte] using padded_hex_ne_nil 2 value.toNat
  characters := by simpa [hexByte] using padded_hex_name 2 value.toNat

theorem hex_name (width value : Nat) :
    IsName (String.ofList (['0', 'x'] ++ Text.paddedHex width value)) where
  nonempty := by simp
  characters := by
    rw [String.toList_ofList, List.all_append, padded_hex_name]
    decide

theorem rstrip_eq_self {c : Char} {text : String} (h : c ∉ text.toList) : rstrip c text = text := by
  have hdrop : text.toList.reverse.dropWhile (· = c) = text.toList.reverse := by
    rw [List.dropWhile_eq_self_iff]
    intro hpos heq
    refine h (List.mem_reverse.mp ?_)
    rw [← of_decide_eq_true heq]
    exact List.getElem_mem hpos
  rw [rstrip, hdrop, List.reverse_reverse, String.ofList_toList]

theorem read_digits_digit {value digit : Nat} (h : digit < 16) (rest : List Char) :
    readDigits 16 value (Nat.digitChar digit :: rest) = readDigits 16 (value * 16 + digit) rest := by
  have hall : ∀ digit : Fin 16, DeviceTree.digit 16 (Nat.digitChar digit) = some digit.val ∧
      Nat.digitChar digit ≠ '_' := by decide
  obtain ⟨hdigit, hne⟩ := hall ⟨digit, h⟩
  rw [readDigits, hdigit]
  · rfl
  · exact fun _ _ heq => absurd heq hne

theorem read_digits_append {text : List Char} (rest : List Char)
    (h : ∀ c ∈ text, ∃ digit < 16, c = Nat.digitChar digit) (value : Nat) :
    readDigits 16 value (text ++ rest) =
      (readDigits 16 value text).bind fun value => readDigits 16 value rest := by
  induction text generalizing value with
  | nil => rw [readDigits]; rfl
  | cons c text ih =>
      obtain ⟨digit, hdigit, rfl⟩ := h c List.mem_cons_self
      rw [List.cons_append, read_digits_digit hdigit, read_digits_digit hdigit]
      exact ih (fun d hd => h d (List.mem_cons_of_mem _ hd)) _

theorem read_digits_to_digits (value : Nat) :
    readDigits 16 0 (Nat.toDigits 16 value) = some value := by
  induction value using Nat.strongRecOn with
  | _ value ih =>
      by_cases hsmall : value < 16
      · rw [Nat.toDigits_of_lt_base hsmall, read_digits_digit hsmall, readDigits]
        simp
      · have hdivision := Nat.div_add_mod value 16
        rw [Nat.toDigits_of_base_le (by decide) (by omega),
          read_digits_append _ fun c => Text.mem_to_digits (by decide), ih _ (by omega),
          Option.bind_some, read_digits_digit (Nat.mod_lt value (by decide)), readDigits]
        congr 1
        omega

theorem read_digits_padded (width value : Nat) :
    readDigits 16 0 (Text.paddedHex width value) = some value := by
  have hzeros : ∀ count, readDigits 16 0 (List.replicate count '0') = some 0 := by
    intro count
    induction count with
    | zero => rw [List.replicate_zero, readDigits]
    | succ count ih =>
        rw [List.replicate_succ]
        exact (read_digits_digit (by decide : 0 < 16) _).trans ih
  rw [Text.paddedHex, List.leftpad, read_digits_append, hzeros, Option.bind_some,
    read_digits_to_digits]
  exact fun c hc => ⟨0, by decide, List.eq_of_mem_replicate hc⟩

/-- A printed cell is read as its value. -/
theorem int_hex_cell (value : Nat) : int (rstrip ',' (hexCell value)) = some (value : Int) := by
  have hcomma : ',' ∉ (hexCell value).toList := by
    intro hmem
    rw [hexCell, String.toList_ofList, List.mem_append] at hmem
    obtain hbase | hdigits := hmem
    · exact absurd hbase (by decide)
    · obtain ⟨digit, hdigit, heq⟩ := mem_padded_hex hdigits
      have hall : ∀ digit : Fin 16, ',' ≠ Nat.digitChar digit := by decide
      exact hall ⟨digit, hdigit⟩ heq
  have htext : (hexCell value).toList = '0' :: 'x' :: Text.paddedHex 2 value := by
    rw [hexCell, String.toList_ofList]
    rfl
  have hliteral : readLiteral ('0' :: 'x' :: Text.paddedHex 2 value) = some value := by
    rw [readLiteral, readBase, if_neg (padded_hex_ne_nil 2 value), read_digits_padded]
  rw [rstrip_eq_self hcomma]
  unfold int
  rw [htext]
  exact congrArg (Option.map Int.ofNat) hliteral

/-! ## Values -/

/-- The tokens of a value. -/
def valueTokens (components : List Component) : List Token :=
  (valueLexemes components).map Lexeme.token

/-- What follows the first component. -/
def restTokens (components : List Component) : List Token :=
  components.flatMap fun component => ⟨.atom, ","⟩ :: component.lexemes.map Lexeme.token

theorem value_tokens_cons (component : Component) (rest : List Component) :
    valueTokens (component :: rest) = component.lexemes.map Lexeme.token ++ restTokens rest := by
  induction rest generalizing component with
  | nil => simp [valueTokens, valueLexemes, restTokens]
  | cons next rest ih =>
      have hrest : valueTokens (component :: next :: rest) =
          component.lexemes.map Lexeme.token ++ ⟨.atom, ","⟩ :: valueTokens (next :: rest) := by
        simp [valueTokens, valueLexemes, Lexeme.token]
      rw [hrest, ih next, restTokens, restTokens, List.flatMap_cons, List.cons_append]

/-- The string of a component, as it is read. -/
def Component.decoded : Component → Option String
  | .string text => some (decode text)
  | _ => none

theorem string_values_append (tokens others : List Token) :
    stringValues (tokens ++ others) = stringValues tokens ++ stringValues others := by
  simp [stringValues]

theorem string_values_component (component : Component) :
    stringValues (component.lexemes.map Lexeme.token) = component.decoded.toList := by
  cases component with
  | string text => rfl
  | cells values =>
      simp [stringValues, Component.lexemes, Component.decoded, Lexeme.token, List.filter_eq_nil_iff]
  | bytes values =>
      simp [stringValues, Component.lexemes, Component.decoded, Lexeme.token, List.filter_eq_nil_iff]

theorem string_values_rest (components : List Component) :
    stringValues (restTokens components) = components.filterMap Component.decoded := by
  induction components with
  | nil => rfl
  | cons component rest ih =>
      rw [restTokens, List.flatMap_cons, string_values_append, ← restTokens, ih,
        List.filterMap_cons]
      have hcomma : stringValues (⟨.atom, ","⟩ :: component.lexemes.map Lexeme.token) =
          stringValues (component.lexemes.map Lexeme.token) := rfl
      rw [hcomma, string_values_component]
      cases component.decoded <;> rfl

theorem string_values_value (components : List Component) :
    stringValues (valueTokens components) = components.filterMap Component.decoded := by
  cases components with
  | nil => rfl
  | cons component rest =>
      rw [value_tokens_cons, string_values_append, string_values_component, string_values_rest,
        List.filterMap_cons]
      cases component.decoded <;> rfl

theorem decoded_length (components : List Component) :
    (components.filterMap Component.decoded).length = (Component.strings components).length := by
  induction components with
  | nil => rfl
  | cons component rest ih =>
      cases component with
      | string text => exact congrArg (· + 1) ih
      | cells values => exact ih
      | bytes values => exact ih

/-- The strings read back exactly when all of them are plain. -/
theorem decoded_eq_iff (components : List Component) :
    components.filterMap Component.decoded = Component.strings components ↔
      ∀ text, Component.string text ∈ components → ∀ byte ∈ text, Plain byte := by
  induction components with
  | nil => simp [Component.strings]
  | cons component rest ih =>
      cases component with
      | string text =>
          have hcons : (Component.string text :: rest).filterMap Component.decoded =
              Component.strings (.string text :: rest) ↔
              decode text = String.ofList (text.map byteChar) ∧
                rest.filterMap Component.decoded = Component.strings rest := by
            rw [← List.cons.injEq]
            rfl
          rw [hcons, ih, decode_eq_iff]
          simp only [List.mem_cons, Component.string.injEq]
          constructor
          · rintro ⟨htext, hrest⟩ other (rfl | hother)
            · exact htext
            · exact hrest other hother
          · exact fun h => ⟨h text (.inl rfl), fun other hother => h other (.inr hother)⟩
      | cells values =>
          simp only [List.mem_cons, reduceCtorEq, false_or]
          exact ih
      | bytes values =>
          simp only [List.mem_cons, reduceCtorEq, false_or]
          exact ih

/-- The string is not an angle bracket. -/
def Component.Balanced : Component → Prop
  | .string text => decode text ≠ "<" ∧ decode text ≠ ">"
  | _ => True

section

variable (description : String)

theorem cell_values_atoms (values : List UInt32) (rest : List Token) :
    cellValuesFrom description 1
      (values.map (fun value => ⟨.atom, hexCell value.toNat⟩) ++ ⟨.symbol, ">"⟩ :: rest) =
        (cellValuesFrom description 0 rest).map (values.map UInt32.toNat ++ ·) := by
  induction values with
  | nil =>
      rw [List.map_nil, List.nil_append, cellValuesFrom, if_neg (by simp), if_pos rfl,
        if_neg (by decide)]
      cases cellValuesFrom description 0 rest <;> rfl
  | cons value values ih =>
      have hlt := value.toNat_lt
      have hname : IsName (hexCell value.toNat) := hex_name 2 value.toNat
      rw [List.map_cons, List.cons_append, cellValuesFrom, if_neg (hname.ne (by decide)),
        if_neg (hname.ne (by decide)), if_pos (by simp), int_hex_cell]
      simp only
      rw [if_pos ⟨by omega, by omega⟩, ih]
      cases cellValuesFrom description 0 rest <;> rfl

theorem cell_values_bytes (values : List UInt8) (rest : List Token) :
    cellValuesFrom description 0 (values.map (fun value => ⟨.atom, hexByte value⟩) ++ rest) =
      cellValuesFrom description 0 rest := by
  induction values with
  | nil => rfl
  | cons value values ih =>
      have hname := hex_byte_name value
      rw [List.map_cons, List.cons_append, cellValuesFrom, if_neg (hname.ne (by decide)),
        if_neg (hname.ne (by decide)), if_neg (by simp), ih]

/-- A component between the brackets of no other adds its cells. -/
theorem cell_values_component {component : Component} (h : component.Balanced)
    (rest : List Token) :
    cellValuesFrom description 0 (component.lexemes.map Lexeme.token ++ rest) =
      (cellValuesFrom description 0 rest).map (Component.cellsOf [component] ++ ·) := by
  have hnone : (cellValuesFrom description 0 rest).map ([] ++ ·) =
      cellValuesFrom description 0 rest := by
    cases cellValuesFrom description 0 rest <;> rfl
  cases component with
  | string text =>
      refine Eq.trans ?_ hnone.symm
      show cellValuesFrom description 0 (⟨.string, decode text⟩ :: rest) = _
      rw [cellValuesFrom, if_neg h.1, if_neg h.2, if_neg (by simp)]
  | cells values =>
      have htokens : (Component.cells values).lexemes.map Lexeme.token ++ rest =
          ⟨.symbol, "<"⟩ :: (values.map (fun value => ⟨.atom, hexCell value.toNat⟩) ++
            ⟨.symbol, ">"⟩ :: rest) := by
        simp [Component.lexemes, Lexeme.token, Function.comp_def]
      rw [htokens, cellValuesFrom, if_pos rfl, cell_values_atoms]
      simp [Component.cellsOf]
  | bytes values =>
      have htokens : (Component.bytes values).lexemes.map Lexeme.token ++ rest =
          ⟨.symbol, "["⟩ :: (values.map (fun value => ⟨.atom, hexByte value⟩) ++
            ⟨.symbol, "]"⟩ :: rest) := by
        simp [Component.lexemes, Lexeme.token, Function.comp_def]
      refine Eq.trans ?_ hnone.symm
      rw [htokens, cellValuesFrom, if_neg (by decide), if_neg (by decide), if_neg (by simp),
        cell_values_bytes, cellValuesFrom, if_neg (by decide), if_neg (by decide),
        if_neg (by simp)]

theorem cell_values_comma (rest : List Token) :
    cellValuesFrom description 0 (⟨.atom, ","⟩ :: rest) = cellValuesFrom description 0 rest := by
  rw [cellValuesFrom, if_neg (by decide), if_neg (by decide), if_neg (by simp)]

theorem cell_values_rest {components : List Component} (h : ∀ c ∈ components, c.Balanced) :
    cellValuesFrom description 0 (restTokens components) = .ok (Component.cellsOf components) := by
  induction components with
  | nil => rfl
  | cons component rest ih =>
      obtain ⟨hcomponent, hrest⟩ := List.forall_mem_cons.mp h
      rw [restTokens, List.flatMap_cons, List.cons_append, cell_values_comma,
        cell_values_component description hcomponent, ← restTokens, ih hrest]
      simp [Except.map, Component.cellsOf]

theorem cell_values_value {components : List Component} (h : ∀ c ∈ components, c.Balanced) :
    cellValuesFrom description 0 (valueTokens components) =
      .ok (Component.cellsOf components) := by
  cases components with
  | nil => rfl
  | cons component rest =>
      obtain ⟨hcomponent, hrest⟩ := List.forall_mem_cons.mp h
      rw [value_tokens_cons, cell_values_component description hcomponent,
        cell_values_rest description hrest]
      simp [Except.map, Component.cellsOf]

/-- A string that is a bracket leaves the brackets unbalanced, or a comma among the cells. -/
theorem balanced_of_component {component : Component} {rest : List Component} {cells : List Nat}
    (h : cellValuesFrom description 0 (component.lexemes.map Lexeme.token ++ restTokens rest) =
      .ok cells) : component.Balanced := by
  cases component with
  | string text =>
      have hfirst : cellValuesFrom description 0 (⟨.string, decode text⟩ :: restTokens rest) =
          .ok cells := h
      rw [cellValuesFrom] at hfirst
      constructor
      · intro hopen
        rw [if_pos hopen] at hfirst
        cases rest with
        | nil => cases hfirst
        | cons next rest =>
            have hcomma : cellValuesFrom description 1 (restTokens (next :: rest)) =
                .error (.nonNumericCell (rstrip ',' ",") description) := by
              rw [restTokens, List.flatMap_cons, List.cons_append, cellValuesFrom,
                if_neg (by decide), if_neg (by decide), if_pos (by simp)]
              have hnone : int (rstrip ',' ",") = none := by decide
              rw [hnone]
            rw [hcomma] at hfirst
            cases hfirst
      · intro hclose
        rw [if_neg (by rw [hclose]; decide), if_pos hclose, if_pos rfl] at hfirst
        cases hfirst
  | cells values => trivial
  | bytes values => trivial

theorem balanced_of_rest {components : List Component} {cells : List Nat}
    (h : cellValuesFrom description 0 (restTokens components) = .ok cells) :
    ∀ c ∈ components, c.Balanced := by
  induction components generalizing cells with
  | nil => simp
  | cons component rest ih =>
      rw [restTokens, List.flatMap_cons, List.cons_append, cell_values_comma, ← restTokens] at h
      have hcomponent := balanced_of_component description h
      rw [cell_values_component description hcomponent, Text.map_ok_iff] at h
      obtain ⟨found, hfound, _⟩ := h
      exact List.forall_mem_cons.mpr ⟨hcomponent, ih hfound⟩

theorem balanced_of_value {components : List Component} {cells : List Nat}
    (h : cellValuesFrom description 0 (valueTokens components) = .ok cells) :
    ∀ c ∈ components, c.Balanced := by
  cases components with
  | nil => simp
  | cons component rest =>
      rw [value_tokens_cons] at h
      have hcomponent := balanced_of_component description h
      rw [cell_values_component description hcomponent, Text.map_ok_iff] at h
      obtain ⟨found, hfound, _⟩ := h
      exact List.forall_mem_cons.mpr ⟨hcomponent, balanced_of_rest description hfound⟩

end

end NanoKvm.DeviceTree
