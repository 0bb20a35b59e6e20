import NanoKvm.DeviceTree.Dts

/-!
# The tokens of a printed source

`tokenize_lay_out`: a source of proper lexemes is tokenized to one token for each of them,
whatever the gaps are. `Lexeme.token` is that token. A string of dtc reads back as
`decode`, which is the string itself exactly when its bytes are plain (`decode_eq_iff`):
`tokenize` knows three of dtc's escapes and takes any other for the character after its
backslash.
-/

namespace NanoKvm.DeviceTree

/-! ## Strings -/

/-- A byte that dtc prints as itself, or with an escape that `tokenize` reads. -/
def Plain (byte : UInt8) : Prop :=
  byte = 0x09 ∨ byte = 0x0a ∨ byte = 0x0d ∨ 0x20 ≤ byte ∧ byte ≤ 0x7e

instance (byte : UInt8) : Decidable (Plain byte) :=
  inferInstanceAs (Decidable (byte = 0x09 ∨ byte = 0x0a ∨ byte = 0x0d ∨ 0x20 ≤ byte ∧ byte ≤ 0x7e))

/-- What `tokenize` makes of a printed byte. -/
def decodeByte (byte : UInt8) : List Char :=
  match escapeByte byte with
  | '\\' :: character :: rest => unescape character :: rest
  | text => text

/-- What `tokenize` makes of a printed string. -/
def decode (bytes : List UInt8) : String := String.ofList (bytes.flatMap decodeByte)

theorem byte_char_to_nat (byte : UInt8) : (byteChar byte).toNat = byte.toNat := by
  have hlt := byte.toNat_lt
  have hvalid : byte.toNat.isValidChar := Or.inl (by omega)
  rw [byteChar, Char.ofNat, dif_pos hvalid]
  rfl

theorem byte_char_injective {byte other : UInt8} (h : byteChar byte = byteChar other) :
    byte = other := by
  have hnat := congrArg Char.toNat h
  rw [byte_char_to_nat, byte_char_to_nat] at hnat
  exact UInt8.toNat_inj.mp hnat

theorem read_string_plain {character : Char} (hquote : character ≠ '"')
    (hbackslash : character ≠ '\\') (rest : List Char) :
    readString (character :: rest) =
      (readString rest).map fun (value, rest) => (character :: value, rest) := by
  rw [readString]
  · exact fun h => hquote h
  · exact fun h => absurd h hbackslash
  · exact fun _ _ h => absurd h hbackslash

theorem read_string_escape (character : Char) (rest : List Char) :
    readString ('\\' :: character :: rest) =
      (readString rest).map fun (value, rest) => (unescape character :: value, rest) := by
  rw [readString]

theorem read_string_append {text : List Char} (h : ∀ c ∈ text, c ≠ '"' ∧ c ≠ '\\')
    (rest : List Char) :
    readString (text ++ rest) =
      (readString rest).map fun (value, rest) => (text ++ value, rest) := by
  induction text with
  | nil => cases hread : readString rest <;> simp [hread, Except.map]
  | cons c text ih =>
      have hc := h c List.mem_cons_self
      rw [List.cons_append, read_string_plain hc.1 hc.2,
        ih fun d hd => h d (List.mem_cons_of_mem c hd)]
      cases readString rest <;> rfl

theorem digit_char_plain {digit : Nat} (h : digit < 16) :
    Nat.digitChar digit ≠ '"' ∧ Nat.digitChar digit ≠ '\\' := by
  have hall : ∀ digit : Fin 16,
      Nat.digitChar digit ≠ '"' ∧ Nat.digitChar digit ≠ '\\' := by decide
  exact hall ⟨digit, h⟩

theorem mem_padded_hex {width value : Nat} {character : Char}
    (h : character ∈ Text.paddedHex width value) :
    ∃ digit < 16, character = Nat.digitChar digit := by
  rw [Text.paddedHex, List.leftpad, List.mem_append] at h
  obtain hzero | hdigit := h
  · exact ⟨0, by decide, List.eq_of_mem_replicate hzero⟩
  · exact Text.mem_to_digits (by decide) hdigit

/-- The text of a byte: one character, or an escape. -/
inductive Escaped : List Char → Prop
  | character {c : Char} (hquote : c ≠ '"') (hslash : c ≠ '\\') : Escaped [c]
  | escape {c : Char} {rest : List Char} (hrest : ∀ d ∈ rest, d ≠ '"' ∧ d ≠ '\\') :
      Escaped ('\\' :: c :: rest)

theorem escape_byte_escaped (byte : UInt8) : Escaped (escapeByte byte) := by
  have hsingle : ∀ c, Escaped ['\\', c] := fun c => .escape (by simp)
  unfold escapeByte
  repeat' split
  all_goals try exact hsingle _
  case isTrue hslash hquote _ _ =>
    exact .character (fun h => hquote (byte_char_injective (h.trans (by decide))))
      fun h => hslash (byte_char_injective (h.trans (by decide)))
  case isFalse =>
    refine .escape fun d hd => ?_
    obtain ⟨digit, hdigit, rfl⟩ := mem_padded_hex hd
    exact digit_char_plain hdigit

theorem read_string_byte (byte : UInt8) (rest : List Char) :
    readString (escapeByte byte ++ rest) =
      (readString rest).map fun (value, rest) => (decodeByte byte ++ value, rest) := by
  have hescaped := escape_byte_escaped byte
  unfold decodeByte
  generalize escapeByte byte = text at hescaped ⊢
  cases hescaped with
  | character hquote hslash =>
      rw [List.singleton_append, read_string_plain hquote hslash]
      cases readString rest <;> simp [Except.map]
  | escape hrest =>
      rw [List.cons_append, List.cons_append, read_string_escape, read_string_append hrest]
      cases readString rest <;> rfl

/-- A printed string is read up to its closing quote. -/
theorem read_string_bytes (bytes : List UInt8) (rest : List Char) :
    readString (bytes.flatMap escapeByte ++ '"' :: rest) =
      .ok (bytes.flatMap decodeByte, rest) := by
  induction bytes with
  | nil => rfl
  | cons byte bytes ih =>
      rw [List.flatMap_cons, List.append_assoc, read_string_byte, ih, List.flatMap_cons]
      rfl


theorem decode_byte_plain {byte : UInt8} (h : Plain byte) : decodeByte byte = [byteChar byte] := by
  obtain rfl | rfl | rfl | hprintable := h
  · decide
  · decide
  · decide
  · by_cases hslash : byte = 0x5c
    · subst hslash
      decide
    by_cases hquote : byte = 0x22
    · subst hquote
      decide
    have hescape : escapeByte byte = [byteChar byte] := by
      have hne : ∀ control < 0x20, byte ≠ control := by
        rintro control hcontrol rfl
        exact absurd hprintable.1 (UInt8.not_le.mpr hcontrol)
      unfold escapeByte
      rw [if_neg (hne _ (by decide)), if_neg (hne _ (by decide)), if_neg (hne _ (by decide)),
        if_neg (hne _ (by decide)), if_neg (hne _ (by decide)), if_neg (hne _ (by decide)),
        if_neg (hne _ (by decide)), if_neg hslash, if_neg hquote, if_neg (hne _ (by decide)),
        if_pos hprintable]
    unfold decodeByte
    rw [hescape]
    split
    · rename_i h
      exact absurd (congrArg List.length h) (by simp)
    · rfl

theorem escape_byte_other {byte : UInt8} (h : ¬ Plain byte) :
    ∃ c rest, escapeByte byte = '\\' :: c :: rest ∧ c ∈ ['a', 'b', 'v', 'f', '0', 'x'] := by
  have hne : ∀ other, Plain other → byte ≠ other := by
    rintro other hother rfl
    exact h hother
  simp only [Plain, not_or] at h
  obtain ⟨htab, hnewline, hreturn, hprintable⟩ := h
  unfold escapeByte
  rw [if_neg htab, if_neg hnewline, if_neg hreturn, if_neg (hne 0x5c (by decide)),
    if_neg (hne 0x22 (by decide)), if_neg hprintable]
  by_cases hbell : byte = 0x07
  · exact ⟨'a', [], if_pos hbell, by decide⟩
  rw [if_neg hbell]
  by_cases hbackspace : byte = 0x08
  · exact ⟨'b', [], if_pos hbackspace, by decide⟩
  rw [if_neg hbackspace]
  by_cases hvertical : byte = 0x0b
  · exact ⟨'v', [], if_pos hvertical, by decide⟩
  rw [if_neg hvertical]
  by_cases hform : byte = 0x0c
  · exact ⟨'f', [], if_pos hform, by decide⟩
  rw [if_neg hform]
  by_cases hnul : byte = 0x00
  · exact ⟨'0', [], if_pos hnul, by decide⟩
  rw [if_neg hnul]
  exact ⟨'x', _, rfl, by decide⟩

/-- Of the other escapes the tokenizer drops the backslash. -/
theorem decode_byte_other {byte : UInt8} (h : ¬ Plain byte) :
    ∃ c rest, decodeByte byte = c :: rest ∧ c ∈ ['a', 'b', 'v', 'f', '0', 'x'] := by
  obtain ⟨c, rest, hescape, hc⟩ := escape_byte_other h
  have hunescape : ∀ c ∈ ['a', 'b', 'v', 'f', '0', 'x'], unescape c = c := by
    simp [unescape]
  refine ⟨c, rest, ?_, hc⟩
  unfold decodeByte
  rw [hescape]
  simp only [hunescape c hc]

theorem decode_byte_ne {byte : UInt8} (h : ¬ Plain byte) :
    ∃ c rest, decodeByte byte = c :: rest ∧ c ≠ byteChar byte := by
  obtain ⟨c, rest, hdecode, hc⟩ := decode_byte_other h
  refine ⟨c, rest, hdecode, fun heq => h ?_⟩
  have hprintable : ∀ c ∈ ['a', 'b', 'v', 'f', '0', 'x'], 0x20 ≤ c.toNat ∧ c.toNat ≤ 0x7e := by
    simp
  have hrange := hprintable c hc
  rw [heq, byte_char_to_nat] at hrange
  exact .inr (.inr (.inr hrange))

/-- A string reads back as itself exactly when its bytes are plain. -/
theorem decode_eq_iff (bytes : List UInt8) :
    decode bytes = String.ofList (bytes.map byteChar) ↔ ∀ byte ∈ bytes, Plain byte := by
  rw [decode, String.ofList_inj]
  constructor
  · intro h
    induction bytes with
    | nil => simp
    | cons byte bytes ih =>
        rw [List.flatMap_cons, List.map_cons] at h
        by_cases hplain : Plain byte
        · rw [decode_byte_plain hplain, List.singleton_append, List.cons.injEq] at h
          exact List.forall_mem_cons.mpr ⟨hplain, ih h.2⟩
        · obtain ⟨c, rest, hdecode, hne⟩ := decode_byte_ne hplain
          rw [hdecode, List.cons_append, List.cons.injEq] at h
          exact absurd h.1 hne
  · intro h
    induction bytes with
    | nil => rfl
    | cons byte bytes ih =>
        obtain ⟨hbyte, hbytes⟩ := List.forall_mem_cons.mp h
        rw [List.flatMap_cons, decode_byte_plain hbyte, ih hbytes, List.map_cons,
          List.singleton_append]

/-- Only a string of that one byte reads back as the character. -/
theorem decode_eq_singleton {byte : UInt8} (hbyte : Plain byte)
    (hother : byteChar byte ∉ ['a', 'b', 'v', 'f', '0', 'x']) (bytes : List UInt8) :
    decode bytes = String.ofList [byteChar byte] ↔ bytes = [byte] := by
  rw [decode, String.ofList_inj]
  constructor
  · intro h
    cases bytes with
    | nil => cases h
    | cons first bytes =>
        rw [List.flatMap_cons] at h
        by_cases hplain : Plain first
        · rw [decode_byte_plain hplain, List.singleton_append, List.cons.injEq] at h
          rw [byte_char_injective h.1]
          cases bytes with
          | nil => rfl
          | cons second bytes =>
              exfalso
              have hempty : decodeByte second = [] := by
                rw [List.flatMap_cons, List.append_eq_nil_iff] at h
                exact h.2.1
              by_cases hsecond : Plain second
              · rw [decode_byte_plain hsecond] at hempty
                cases hempty
              · obtain ⟨c, rest, hdecode, _⟩ := decode_byte_other hsecond
                rw [hdecode] at hempty
                cases hempty
        · obtain ⟨c, rest, hdecode, hc⟩ := decode_byte_other hplain
          rw [hdecode, List.cons_append, List.cons.injEq] at h
          exact absurd (h.1 ▸ hc) hother
  · rintro rfl
    rw [List.flatMap_cons, decode_byte_plain hbyte]
    rfl

/-! ## Atoms -/

/-- No comment starts in the text. -/
def commentFree : List Char → Bool
  | [] => true
  | c :: rest => !startsComment (c :: rest) && commentFree rest

/-- A text that is one atom. -/
structure IsAtom (text : List Char) : Prop where
  nonempty : text ≠ []
  inner : ∀ c ∈ text, isSpace c = false ∧ c ≠ '"' ∧ isSymbol c = false
  comments : commentFree text = true

instance (text : List Char) : Decidable (IsAtom text) :=
  have : Decidable (∀ c ∈ text, isSpace c = false ∧ c ≠ '"' ∧ isSymbol c = false) :=
    List.decidableBAll _ text
  decidable_of_iff (text ≠ [] ∧ (∀ c ∈ text, isSpace c = false ∧ c ≠ '"' ∧ isSymbol c = false) ∧
      commentFree text = true)
    ⟨fun h => ⟨h.1, h.2.1, h.2.2⟩, fun h => ⟨h.nonempty, h.inner, h.comments⟩⟩

/-- A text at which an atom ends. -/
def Delimited (text : List Char) : Prop :=
  ∀ c ∈ text.head?, isSpace c = true ∨ c = '"' ∨ isSymbol c = true

/-- The first two characters decide whether a comment starts. -/
theorem starts_comment_iff (text : List Char) :
    startsComment text = true ↔ text.take 2 = ['/', '/'] ∨ text.take 2 = ['/', '*'] := by
  unfold startsComment
  split
  · simp
  · simp
  · rename_i hslash hstar
    match text with
    | [] => simp
    | [c] => simp
    | c :: d :: rest =>
        simp only [List.take_succ_cons, List.take_zero, Bool.false_eq_true, false_iff]
        rintro (heq | heq)
        · obtain ⟨rfl, rfl⟩ : c = '/' ∧ d = '/' := by simpa using heq
          exact hslash rest rfl
        · obtain ⟨rfl, rfl⟩ : c = '/' ∧ d = '*' := by simpa using heq
          exact hstar rest rfl

theorem starts_comment_append (c d : Char) (text rest : List Char) :
    startsComment (c :: d :: (text ++ rest)) = startsComment (c :: d :: text) := by
  rw [Bool.eq_iff_iff, starts_comment_iff, starts_comment_iff]
  rfl

theorem Delimited.not_comment {text : List Char} (h : Delimited text) (c : Char) :
    startsComment (c :: text) = false := by
  rw [← Bool.not_eq_true, starts_comment_iff]
  cases text with
  | nil => simp
  | cons d text =>
      have hd := h d rfl
      have hslash : d ≠ '/' := by
        rintro rfl
        exact absurd hd (by decide)
      have hstar : d ≠ '*' := by
        rintro rfl
        exact absurd hd (by decide)
      simp [hslash, hstar]

theorem read_atom_delimited {text : List Char} (h : Delimited text) : readAtom text = ([], text) := by
  cases text with
  | nil => rfl
  | cons c text =>
      rw [readAtom, if_pos]
      obtain hspace | hquote | hsymbol := h c rfl
      · exact .inl hspace
      · exact .inr (.inl hquote)
      · exact .inr (.inr (.inl hsymbol))

theorem read_atom_append {text rest : List Char}
    (hinner : ∀ c ∈ text, isSpace c = false ∧ c ≠ '"' ∧ isSymbol c = false)
    (hcomments : commentFree text = true) (hrest : Delimited rest) :
    readAtom (text ++ rest) = (text, rest) := by
  induction text with
  | nil => exact read_atom_delimited hrest
  | cons c text ih =>
      rw [commentFree, Bool.and_eq_true, Bool.not_eq_true'] at hcomments
      obtain ⟨hspace, hquote, hsymbol⟩ := hinner c List.mem_cons_self
      have hstart : startsComment (c :: (text ++ rest)) = false := by
        cases text with
        | nil => exact hrest.not_comment c
        | cons d text => exact (starts_comment_append c d text rest).trans hcomments.1
      have htail := ih (fun d hd => hinner d (List.mem_cons_of_mem c hd)) hcomments.2
      rw [List.cons_append, readAtom, if_neg (by simp [hspace, hquote, hsymbol, hstart]), htail]

/-! ## Turns of the tokenizer -/

/-- The tokens of a text, with any fuel that covers it. -/
def Tokenizes (text : List Char) (tokens : List Token) : Prop :=
  ∀ fuel, text.length ≤ fuel → tokenizeFrom fuel text = .ok tokens

theorem Tokenizes.nil : Tokenizes [] [] := fun fuel _ => by
  rw [tokenizeFrom]

/-- A turn of the loop, and the turns after it. -/
theorem Tokenizes.turn (token : Option Token) {text rest : List Char} {tokens : List Token}
    (h : Tokenizes rest tokens) (hturn : nextToken text = .ok (token, rest))
    (hless : rest.length < text.length) : Tokenizes text (token.toList ++ tokens) := by
  intro fuel hfuel
  cases fuel with
  | zero => omega
  | succ fuel =>
      cases text with
      | nil => simp at hless
      | cons c text =>
          rw [tokenizeFrom, hturn]
          · simp only [bind, Except.bind, h fuel (by omega)]
            rfl
          · exact fun h => by cases h

theorem Tokenizes.space {c : Char} {text : List Char} {tokens : List Token}
    (h : Tokenizes text tokens) (hspace : isSpace c = true) : Tokenizes (c :: text) tokens :=
  h.turn none (by rw [nextToken, if_pos hspace]) (by simp)

theorem Tokenizes.gap {gap text : List Char} {tokens : List Token} (h : Tokenizes text tokens)
    (hgap : gap.all isSpace = true) : Tokenizes (gap ++ text) tokens := by
  induction gap with
  | nil => exact h
  | cons c gap ih =>
      rw [List.all_cons, Bool.and_eq_true] at hgap
      exact (ih hgap.2).space hgap.1

/-- The token of a lexeme. -/
def Lexeme.token : Lexeme → Token
  | string bytes => ⟨.string, decode bytes⟩
  | symbol character => ⟨.symbol, String.ofList [character]⟩
  | atom text => ⟨.atom, text⟩

/-- The text of a lexeme is one token. -/
def Lexeme.Proper : Lexeme → Prop
  | string _ => True
  | symbol character => isSymbol character = true
  | atom text => IsAtom text.toList

theorem next_token_string (bytes : List UInt8) (rest : List Char) :
    nextToken ((Lexeme.string bytes).text ++ rest) =
      .ok (some (Lexeme.string bytes).token, rest) := by
  have htext : (Lexeme.string bytes).text ++ rest =
      '"' :: (bytes.flatMap escapeByte ++ '"' :: rest) := by
    simp [Lexeme.text]
  rw [htext, nextToken, if_neg (by decide), if_neg (by simp), if_neg (by simp), if_pos rfl,
    read_string_bytes]
  rfl

theorem next_token_symbol {c : Char} (h : isSymbol c = true) (rest : List Char) :
    nextToken (c :: rest) = .ok (some (Lexeme.symbol c).token, rest) := by
  have hother : ∀ d ∈ ['{', '}', '=', ';', '<', '>', '[', ']', ':'],
      isSpace d = false ∧ d ≠ '/' ∧ d ≠ '"' := by
    simp [isSpace]
  obtain ⟨hspace, hslash, hquote⟩ := hother c (List.contains_iff_mem.mp h)
  rw [nextToken, if_neg (by simp [hspace]), if_neg (by simp [hslash]), if_neg (by simp [hslash]),
    if_neg hquote, if_pos h]
  rfl

theorem next_token_atom {text : String} (h : IsAtom text.toList) {rest : List Char}
    (hrest : Delimited rest) :
    nextToken (text.toList ++ rest) = .ok (some (Lexeme.atom text).token, rest) := by
  have hread := read_atom_append h.inner h.comments hrest
  obtain ⟨c, tail, htext⟩ := List.exists_cons_of_ne_nil h.nonempty
  obtain ⟨hspace, hquote, hsymbol⟩ := h.inner c (by simp [htext])
  have hstart : startsComment (c :: (tail ++ rest)) ≠ true := by
    have hcomments := h.comments
    rw [htext, commentFree, Bool.and_eq_true, Bool.not_eq_true'] at hcomments
    cases tail with
    | nil => simpa using hrest.not_comment c
    | cons d tail =>
        rw [List.cons_append, starts_comment_append, hcomments.1]
        exact Bool.false_ne_true
  rw [ne_eq, starts_comment_iff, not_or] at hstart
  rw [htext, List.cons_append] at hread ⊢
  rw [nextToken, if_neg (by simp [hspace]), if_neg hstart.1, if_neg hstart.2, if_neg hquote,
    if_neg (by simp [hsymbol]), hread]
  simp only [List.cons_ne_nil, if_false]
  rw [← htext, String.ofList_toList]
  rfl

theorem Lexeme.text_ne_nil {lexeme : Lexeme} (h : lexeme.Proper) : lexeme.text ≠ [] := by
  cases lexeme with
  | string bytes => simp [Lexeme.text]
  | symbol c => simp [Lexeme.text]
  | atom text => exact h.nonempty

/-- A proper lexeme is one token; an atom also needs its end marked. -/
theorem Tokenizes.lexeme {lexeme : Lexeme} {rest : List Char} {tokens : List Token}
    (h : Tokenizes rest tokens) (hproper : lexeme.Proper)
    (hend : ∀ text, lexeme = .atom text → Delimited rest) :
    Tokenizes (lexeme.text ++ rest) (lexeme.token :: tokens) := by
  have hless : rest.length < (lexeme.text ++ rest).length := by
    have hpos := List.length_pos_iff.mpr (Lexeme.text_ne_nil hproper)
    rw [List.length_append]
    omega
  refine h.turn (some lexeme.token) ?_ hless
  cases lexeme with
  | string bytes => exact next_token_string bytes rest
  | symbol c => exact next_token_symbol hproper rest
  | atom text => exact next_token_atom hproper (hend text rfl)

theorem Delimited.append {text rest : List Char} (hsome : text ≠ []) (h : Delimited text) :
    Delimited (text ++ rest) := by
  obtain ⟨c, tail, rfl⟩ := List.exists_cons_of_ne_nil hsome
  exact h

theorem delimited_gap {gap : List Char} (h : gap.all isSpace = true) : Delimited gap := by
  intro c hc
  exact .inl (List.all_eq_true.mp h c (List.mem_of_mem_head? hc))

theorem Fits.gap {lexemes : List Lexeme} {gaps : List (List Char)} (h : Fits lexemes gaps) :
    (gaps.headD []).all isSpace = true := by
  unfold Fits at h
  split at h
  · exact h
  · exact h.1
  · exact h.1

theorem Fits.tail {lexeme : Lexeme} {lexemes : List Lexeme} {gaps : List (List Char)}
    (h : Fits (lexeme :: lexemes) gaps) : Fits lexemes gaps.tail := by
  unfold Fits at h
  split at h
  · rename_i heq
    cases heq
  · rename_i heq
    cases heq
    exact h.2.2
  · rename_i heq
    cases heq
    exact h.2

theorem Fits.apart {text next : String} {lexemes : List Lexeme} {gaps : List (List Char)}
    (h : Fits (.atom text :: .atom next :: lexemes) gaps) : gaps.tail.headD [] ≠ [] := by
  rw [Fits] at h
  exact h.2.1

/-- After an atom that fits, a gap or the next lexeme ends it. -/
theorem delimited_lay_out {text : String} {lexemes : List Lexeme} {gaps : List (List Char)}
    (hfits : Fits (.atom text :: lexemes) gaps) (hproper : ∀ lexeme ∈ lexemes, lexeme.Proper) :
    Delimited (layOut lexemes gaps.tail) := by
  have hgap := hfits.tail.gap
  cases lexemes with
  | nil => exact delimited_gap hgap
  | cons lexeme lexemes =>
      rw [layOut, List.append_assoc]
      by_cases hempty : gaps.tail.headD [] = []
      · rw [hempty, List.nil_append]
        cases lexeme with
        | string bytes => exact fun c hc => .inr (.inl (by simpa [Lexeme.text] using hc.symm))
        | symbol c =>
            have hsymbol : isSymbol c = true := hproper (.symbol c) List.mem_cons_self
            exact Delimited.append (by simp [Lexeme.text])
              fun d hd => .inr (.inr (by simp_all [Lexeme.text]))
        | atom next => exact absurd hempty hfits.apart
      · exact (delimited_gap hgap).append hempty

/-- A source has one token for each of its lexemes. -/
theorem tokenizes_lay_out {lexemes : List Lexeme} {gaps : List (List Char)}
    (hfits : Fits lexemes gaps) (hproper : ∀ lexeme ∈ lexemes, lexeme.Proper) :
    Tokenizes (layOut lexemes gaps) (lexemes.map Lexeme.token) := by
  induction lexemes generalizing gaps with
  | nil =>
      have hgap := Tokenizes.nil.gap hfits.gap
      rwa [List.append_nil] at hgap
  | cons lexeme lexemes ih =>
      have hlater : ∀ other ∈ lexemes, other.Proper := fun other hother =>
        hproper other (List.mem_cons_of_mem lexeme hother)
      rw [layOut, List.append_assoc]
      refine Tokenizes.gap ?_ hfits.gap
      refine (ih hfits.tail hlater).lexeme (hproper lexeme List.mem_cons_self) ?_
      rintro text rfl
      exact delimited_lay_out hfits hlater

theorem tokenize_lay_out {lexemes : List Lexeme} {gaps : List (List Char)}
    (hfits : Fits lexemes gaps) (hproper : ∀ lexeme ∈ lexemes, lexeme.Proper) :
    tokenize (layOut lexemes gaps) = .ok (lexemes.map Lexeme.token) :=
  tokenizes_lay_out hfits hproper _ (Nat.le_refl _)

end NanoKvm.DeviceTree
