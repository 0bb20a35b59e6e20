import NanoKvm.Ctl.Attributes
import NanoKvm.Text.Fallible

/-!
# The grammar of the attributes

What the parsers of `Ctl.Attributes` accept, exactly: the fields of the printed text in any
order, with one space between them and a newline at the end. Each parser of a value accepts
the printed form of the value and nothing else; `attributes_exact` puts them together.
-/

namespace NanoKvm.Ctl

open Text

/-! ## Fields -/

/-- A text that can be a name or a value. -/
def Clean (text : List Char) : Prop :=
  text ≠ [] ∧ ∀ char ∈ text, char ≠ '=' ∧ char ≠ ' ' ∧ char ≠ '\n' ∧ char ≠ '\r'

instance (text : List Char) : Decidable (Clean text) :=
  have : Decidable (∀ char ∈ text, char ≠ '=' ∧ char ≠ ' ' ∧ char ≠ '\n' ∧ char ≠ '\r') :=
    List.decidableBAll _ text
  inferInstanceAs (Decidable (_ ∧ _))

/-- The text of a field. -/
def entryText (field : List Char × List Char) : List Char := field.1 ++ '=' :: field.2

/-- Fields with a space between them. -/
def recordLine (fields : List (List Char × List Char)) : List Char :=
  [' '].intercalate (fields.map entryText)

theorem record_line_cons (field other : List Char × List Char)
    (rest : List (List Char × List Char)) :
    recordLine (field :: other :: rest) = entryText field ++ ' ' :: recordLine (other :: rest) := by
  simp [recordLine, List.intercalate_cons_cons]

theorem record_line_singleton (field : List Char × List Char) :
    recordLine [field] = entryText field := by
  simp [recordLine]

/-- The names that a record must have. -/
structure Names (expected : List (List Char)) : Prop where
  nodup : expected.Nodup
  some : expected ≠ []
  clean : ∀ name ∈ expected, Clean name

section

variable {source : String} {expected : List (List Char)}
variable {fields after : List (List Char × List Char)}

theorem parse_entry_ok_iff {entry : List Char} :
    parseEntry source expected fields entry = .ok after ↔
      ∃ name value, entry = entryText (name, value) ∧ '=' ∉ name ∧ name ≠ [] ∧ value ≠ [] ∧
        '=' ∉ value ∧ name ∈ expected ∧ name ∉ fields.map Prod.fst ∧
        after = fields ++ [(name, value)] := by
  unfold parseEntry
  constructor
  · intro h
    split at h
    · cases h
    · split at h
      · cases h
      · rename_i name value hsplit
        obtain ⟨hentry, hname⟩ := split_once_some_iff.1 hsplit
        split at h
        · cases h
        · rename_i hsome
          split at h
          · cases h
          · rename_i hexpected
            split at h
            · cases h
            · rename_i hnew
              cases h
              simp only [not_or] at hsome
              exact ⟨name, value, hentry, hname, hsome.1, hsome.2.1, hsome.2.2,
                not_not.1 hexpected, hnew, rfl⟩
  · rintro ⟨name, value, rfl, hname, hsome, hvalue, hone, hexpected, hnew, rfl⟩
    have hentry : entryText (name, value) ≠ [] := by simp [entryText]
    have hsplit : splitOnce '=' (entryText (name, value)) = some (name, value) :=
      split_once_some_iff.2 ⟨rfl, hname⟩
    have hfield : ¬ (name = [] ∨ value = [] ∨ '=' ∈ value) := by simp [hsome, hvalue, hone]
    rw [if_neg hentry, hsplit]
    simp only [if_neg hfield, if_neg (not_not.2 hexpected), if_neg hnew]

/-- The loop over the entries. -/
theorem entries_ok_iff {entries : List (List Char)} (hnodup : (fields.map Prod.fst).Nodup) :
    entries.foldlM (parseEntry source expected) fields = .ok after ↔
      ∃ more, after = fields ++ more ∧ entries = more.map entryText ∧
        (∀ field ∈ more, '=' ∉ field.1 ∧ field.1 ≠ [] ∧ field.2 ≠ [] ∧ '=' ∉ field.2 ∧
          field.1 ∈ expected) ∧ (after.map Prod.fst).Nodup := by
  induction entries generalizing fields with
  | nil =>
      constructor
      · intro h
        cases h
        exact ⟨[], by simp, rfl, by simp, hnodup⟩
      · rintro ⟨more, rfl, hentries, _⟩
        rw [List.map_eq_nil_iff.1 hentries.symm, List.append_nil]
        rfl
  | cons entry entries ih =>
      rw [List.foldlM_cons]
      constructor
      · intro h
        cases hentry : parseEntry source expected fields entry with
        | error error =>
            rw [hentry] at h
            cases h
        | ok next =>
            rw [hentry] at h
            obtain ⟨name, value, rfl, hname, hsome, hvalue, hone, hexpected, hnew, rfl⟩ :=
              parse_entry_ok_iff.1 hentry
            have hnext : ((fields ++ [(name, value)]).map Prod.fst).Nodup := by
              rw [List.map_append, List.nodup_append_comm]
              simpa using ⟨by simpa using hnew, hnodup⟩
            obtain ⟨more, rfl, rfl, hmore, hlast⟩ := (ih hnext).1 h
            refine ⟨(name, value) :: more, by simp, rfl, ?_, hlast⟩
            intro field hfield
            obtain rfl | hrest := List.mem_cons.1 hfield
            · exact ⟨hname, hsome, hvalue, hone, hexpected⟩
            · exact hmore field hrest
      · rintro ⟨more, rfl, hentries, hmore, hlast⟩
        cases more with
        | nil => cases hentries
        | cons field more =>
            obtain ⟨name, value⟩ := field
            rw [List.map_cons, List.cons.injEq] at hentries
            obtain ⟨rfl, rfl⟩ := hentries
            obtain ⟨hname, hsome, hvalue, hone, hexpected⟩ := hmore (name, value) List.mem_cons_self
            have hnew : name ∉ fields.map Prod.fst := by
              rw [List.map_append, List.nodup_append] at hlast
              intro hmem
              exact hlast.2.2 name hmem name (by simp) rfl
            have hnext : ((fields ++ [(name, value)]).map Prod.fst).Nodup := by
              rw [List.map_append, List.nodup_append_comm]
              simpa using ⟨by simpa using hnew, hnodup⟩
            rw [parse_entry_ok_iff.2
              ⟨name, value, rfl, hname, hsome, hvalue, hone, hexpected, hnew, rfl⟩]
            refine (ih hnext).2 ⟨more, by simp, rfl, ?_, hlast⟩
            exact fun field hfield => hmore field (List.mem_cons_of_mem _ hfield)

theorem mem_record_line {char : Char} :
    char ∈ recordLine fields → char = ' ' ∨ ∃ field ∈ fields, char ∈ entryText field := by
  induction fields with
  | nil => simp [recordLine]
  | cons field rest ih =>
      intro h
      cases rest with
      | nil => exact .inr ⟨field, by simp, by simpa [recordLine] using h⟩
      | cons other rest =>
          rw [record_line_cons, List.mem_append, List.mem_cons] at h
          obtain hfirst | hspace | hrest := h
          · exact .inr ⟨field, by simp, hfirst⟩
          · exact .inl hspace
          · obtain hspace | ⟨found, hfound, hchar⟩ := ih hrest
            · exact .inl hspace
            · exact .inr ⟨found, List.mem_cons_of_mem _ hfound, hchar⟩

theorem record_line_mem {char : Char} {field : List Char × List Char} (hfield : field ∈ fields)
    (hchar : char ∈ entryText field) : char ∈ recordLine fields := by
  induction fields with
  | nil => cases hfield
  | cons first rest ih =>
      cases rest with
      | nil =>
          rw [List.mem_singleton] at hfield
          simpa [recordLine, ← hfield] using hchar
      | cons other rest =>
          rw [record_line_cons, List.mem_append, List.mem_cons]
          obtain rfl | hrest := List.mem_cons.1 hfield
          · exact .inl hchar
          · exact .inr (.inr (ih hrest))

/-- The characters of a field, from its name and its value. -/
theorem entry_text_mem {char : Char} {field : List Char × List Char} :
    char ∈ entryText field ↔ char ∈ field.1 ∨ char = '=' ∨ char ∈ field.2 := by
  simp [entryText]

/-- The entries of a line of clean fields. -/
theorem split_record_line (hsome : fields ≠ [])
    (hclean : ∀ field ∈ fields, Clean field.1 ∧ Clean field.2) :
    (recordLine fields).splitOn ' ' = fields.map entryText := by
  refine List.splitOn_intercalate ' ' ?_ (by simpa using hsome)
  intro part hpart hspace
  obtain ⟨field, hfield, rfl⟩ := List.mem_map.1 hpart
  obtain ⟨hname, hvalue⟩ := hclean field hfield
  obtain hfirst | heq | hsecond := entry_text_mem.1 hspace
  · exact (hname.2 _ hfirst).2.1 rfl
  · cases heq
  · exact (hvalue.2 _ hsecond).2.1 rfl

/-- What the field splitter accepts. -/
theorem parse_fields_ok_iff (hnames : Names expected) {input : List Char} :
    parseFields source input expected = .ok fields ↔
      input = recordLine fields ++ ['\n'] ∧ (fields.map Prod.fst).Perm expected ∧
        ∀ field ∈ fields, Clean field.2 := by
  unfold parseFields
  constructor
  · intro h
    split at h
    · cases h
    · rename_i hlast
      dsimp only at h
      split at h
      · cases h
      · rename_i hline
        simp only [not_or] at hline
        have hinput : input = input.dropLast ++ ['\n'] := by
          rw [not_not] at hlast
          have hsome : input ≠ [] := by
            rintro rfl
            cases hlast
          rw [List.getLast?_eq_getLast_of_ne_nil hsome, Option.some.injEq] at hlast
          rw [← hlast, List.dropLast_append_getLast]
        cases hentries : (input.dropLast.splitOn ' ').foldlM (parseEntry source expected) [] with
        | error error =>
            rw [hentries] at h
            cases h
        | ok found =>
            rw [hentries] at h
            cases hfind : expected.find? fun name => decide (name ∉ found.map Prod.fst) with
            | some name =>
                simp only [bind, Except.bind, hfind] at h
                cases h
            | none =>
                simp only [bind, Except.bind, hfind] at h
                cases h
                obtain ⟨more, hfields, hsplit, hmore, hnodup⟩ := (entries_ok_iff (by simp)).1 hentries
                rw [List.nil_append] at hfields
                subst hfields
                have hjoin : recordLine fields = input.dropLast := by
                  rw [recordLine, ← hsplit, List.intercalate_splitOn]
                refine ⟨by rw [hjoin]; exact hinput, ?_, ?_⟩
                · rw [List.perm_ext_iff_of_nodup hnodup hnames.nodup]
                  intro name
                  constructor
                  · intro hname
                    obtain ⟨field, hfield, rfl⟩ := List.mem_map.1 hname
                    exact (hmore field hfield).2.2.2.2
                  · intro hname
                    have hnone := List.find?_eq_none.1 hfind name hname
                    simpa using hnone
                · intro field hfield
                  obtain ⟨_, _, hsome, hone, _⟩ := hmore field hfield
                  refine ⟨hsome, fun char hchar => ⟨?_, ?_, ?_, ?_⟩⟩
                  · rintro rfl
                    exact hone hchar
                  · rintro rfl
                    have hpart : entryText field ∈ input.dropLast.splitOn ' ' := by
                      rw [hsplit]
                      exact List.mem_map_of_mem hfield
                    exact not_mem_of_mem_split hpart (entry_text_mem.2 (.inr (.inr hchar)))
                  · rintro rfl
                    have hmem := record_line_mem hfield (entry_text_mem.2 (.inr (.inr hchar)))
                    exact hline.2.1 (hjoin ▸ hmem)
                  · rintro rfl
                    have hmem := record_line_mem hfield (entry_text_mem.2 (.inr (.inr hchar)))
                    exact hline.2.2 (hjoin ▸ hmem)
  · rintro ⟨rfl, hperm, hclean⟩
    have hname : ∀ field ∈ fields, Clean field.1 := fun field hfield =>
      hnames.clean _ (hperm.mem_iff.1 (List.mem_map_of_mem hfield))
    have hsome : fields ≠ [] := by
      rintro rfl
      exact hnames.some (List.nil_perm.1 hperm)
    have hchars : ∀ char ∈ recordLine fields, char ≠ '\n' ∧ char ≠ '\r' := by
      intro char hchar
      obtain rfl | ⟨field, hfield, hmem⟩ := mem_record_line hchar
      · decide
      · obtain hfirst | rfl | hsecond := entry_text_mem.1 hmem
        · exact ((hname field hfield).2 char hfirst).2.2
        · decide
        · exact ((hclean field hfield).2 char hsecond).2.2
    have hline : ¬ (recordLine fields = [] ∨ '\n' ∈ recordLine fields ∨
        '\r' ∈ recordLine fields) := by
      simp only [not_or]
      refine ⟨?_, fun hmem => (hchars _ hmem).1 rfl, fun hmem => (hchars _ hmem).2 rfl⟩
      obtain ⟨field, hfield⟩ := List.exists_mem_of_ne_nil _ hsome
      have hmem := record_line_mem hfield (entry_text_mem.2 (.inr (.inl rfl)))
      exact List.ne_nil_of_mem hmem
    have hsplit := split_record_line hsome fun field hfield =>
      ⟨hname field hfield, hclean field hfield⟩
    have hentries : ((recordLine fields).splitOn ' ').foldlM (parseEntry source expected) [] =
        .ok fields := by
      rw [entries_ok_iff (by simp)]
      refine ⟨fields, rfl, hsplit, fun field hfield => ?_, hperm.nodup_iff.2 hnames.nodup⟩
      refine ⟨fun hmem => ((hname field hfield).2 _ hmem).1 rfl, (hname field hfield).1,
        (hclean field hfield).1, fun hmem => ((hclean field hfield).2 _ hmem).1 rfl, ?_⟩
      exact hperm.mem_iff.1 (List.mem_map_of_mem hfield)
    have hfind : expected.find? (fun name => decide (name ∉ fields.map Prod.fst)) = none := by
      rw [List.find?_eq_none]
      intro name hmem
      simpa using hperm.mem_iff.2 hmem
    have hlast : ¬ (recordLine fields ++ ['\n']).getLast? ≠ some '\n' := by simp
    rw [if_neg hlast]
    simp only [List.dropLast_concat, if_neg hline, hentries, bind, Except.bind, hfind]

end

/-! ## Values -/

section

variable {source field : String} {text : List Char}

/-- A number is accepted in its own decimal form only. -/
theorem parse_decimal_ok_iff {T : Type} [Unsigned T] {value : T} :
    parseDecimal T source field text = .ok value ↔ text = decimal value := by
  unfold parseDecimal
  constructor
  · intro h
    split at h
    · cases h
    · split at h
      · cases h
      · split at h
        · cases h
        · rename_i hcanonical
          cases h
          exact (not_not.1 hcanonical).symm
  · rintro rfl
    have hdigits : ¬ (decimal value = [] ∨ (utf8Bytes (decimal value)).all isAsciiDigit = false) := by
      rw [decimal, decimal_bytes]
      simp [Nat.toDigits_ne_nil]
    rw [if_neg hdigits, from_str_decimal]
    simp

/-- A word is accepted in lowercase hexadecimal of its width only. -/
theorem parse_fixed_hex_ok_iff {digits : Nat} (hsome : digits ≠ 0) (hwidth : digits ≤ 16)
    {value : UInt64} :
    parseFixedHex source field text digits = .ok value ↔
      text = '0' :: 'x' :: paddedHex digits value.toNat ∧ value.toNat < 16 ^ digits := by
  have hpower : 16 ^ digits ≤ 2 ^ 64 := by
    calc 16 ^ digits ≤ 16 ^ 16 := Nat.pow_le_pow_right (by decide) hwidth
      _ = 2 ^ 64 := by decide
  unfold parseFixedHex
  constructor
  · intro h
    split at h
    · split at h
      · cases h
      · rename_i hex hcheck
        have hhex : (utf8Bytes hex).length = digits ∧ (utf8Bytes hex).all isLowerHex = true := by
          simp only [not_or, not_not, Bool.not_eq_false] at hcheck
          exact hcheck
        obtain ⟨number, hnumber, rfl⟩ := (fixed_hex_iff digits hex).1 hhex
        have hbound : number < Unsigned.bound UInt64 := Nat.lt_of_lt_of_le hnumber hpower
        rw [from_str_fixed_hex hsome hnumber hbound] at h
        cases h
        have hvalue : (Unsigned.ofNat number : UInt64).toNat = number :=
          Unsigned.toNat_ofNat hbound
        rw [hvalue, padded_hex_eq hsome hnumber]
        exact ⟨rfl, hnumber⟩
    · cases h
  · rintro ⟨rfl, hvalue⟩
    obtain ⟨hlength, hall⟩ :=
      (fixed_hex_iff digits (paddedHex digits value.toNat)).2 ⟨_, hvalue, padded_hex_eq hsome hvalue⟩
    have hbound : value.toNat < Unsigned.bound UInt64 := value.toNat_lt
    have hcheck : ¬ ((utf8Bytes (paddedHex digits value.toNat)).length ≠ digits ∨
        (utf8Bytes (paddedHex digits value.toNat)).all isLowerHex = false) := by
      simp [hlength, hall]
    simp only [if_neg hcheck]
    rw [padded_hex_eq hsome hvalue, from_str_fixed_hex hsome hvalue hbound]
    exact congrArg Except.ok (Unsigned.ofNat_toNat value)

/-- The decimal form has digits only. -/
theorem not_mem_decimal {T : Type} [Unsigned T] {value : T} {char : Char}
    (h : ∀ digit : Fin 10, char ≠ Nat.digitChar digit) : char ∉ decimal value := by
  intro hmem
  obtain ⟨digit, hdigit, hchar⟩ := mem_to_digits (by decide) hmem
  exact h ⟨digit, hdigit⟩ hchar

theorem parse_abi_ok_iff {abi : AbiVersion} :
    parseAbi source text = .ok abi ↔ text = abi.display := by
  unfold parseAbi
  constructor
  · intro h
    split at h
    · cases h
    · rename_i major minor hsplit
      obtain ⟨rfl, _⟩ := split_once_some_iff.1 hsplit
      split at h
      · cases h
      · cases hmajor : parseDecimal UInt16 source "abi major" major with
        | error error =>
            rw [hmajor] at h
            cases h
        | ok first =>
            rw [hmajor] at h
            cases hminor : parseDecimal UInt16 source "abi minor" minor with
            | error error =>
                rw [hminor] at h
                cases h
            | ok second =>
                rw [hminor] at h
                cases h
                rw [parse_decimal_ok_iff.1 hmajor, parse_decimal_ok_iff.1 hminor]
                simp [AbiVersion.display]
  · rintro rfl
    have hdot : ∀ digit : Fin 10, '.' ≠ Nat.digitChar digit := by decide
    have hsplit : splitOnce '.' abi.display = some (decimal abi.major, decimal abi.minor) :=
      split_once_some_iff.2 ⟨by simp [AbiVersion.display], not_mem_decimal hdot⟩
    rw [hsplit]
    simp only [if_neg (not_mem_decimal hdot)]
    rw [parse_decimal_ok_iff.2 rfl, parse_decimal_ok_iff.2 rfl]
    rfl

/-- The bytes of a digest, two digits each. -/
theorem digest_bytes_ok_iff {count : Nat} {bytes : List UInt8}
    (hlength : text.length = 2 * count)
    (hhex : ∀ char ∈ text, ∃ digit < 16, char = Nat.digitChar digit) :
    digestBytes source text count = .ok bytes ↔
      bytes.length = count ∧ text = bytes.flatMap fun byte => paddedHex 2 byte.toNat := by
  induction count generalizing text bytes with
  | zero =>
      have hnil : text = [] := List.length_eq_zero_iff.1 hlength
      subst hnil
      constructor
      · intro h
        cases h
        exact ⟨rfl, rfl⟩
      · rintro ⟨hcount, _⟩
        rw [List.length_eq_zero_iff.1 hcount]
        rfl
  | succ count ih =>
      have hpair : (text.take 2).length = 2 := by
        rw [List.length_take]
        omega
      obtain ⟨value, hvalue, htake⟩ := exists_fixed_digits (by decide)
        fun char hchar => hhex char (List.mem_of_mem_take hchar)
      rw [hpair] at hvalue htake
      have hbound : value < Unsigned.bound UInt8 := hvalue
      have hread : Unsigned.fromStrRadix UInt8 16 (text.take 2) = some (.ofNat value) := by
        rw [htake]
        exact from_str_fixed_hex (by decide) hvalue hbound
      have hbyte : (UInt8.ofNat value).toNat = value := Unsigned.toNat_ofNat hbound
      have htext : text = paddedHex 2 (UInt8.ofNat value).toNat ++ text.drop 2 := by
        rw [hbyte, padded_hex_eq (by decide) hvalue, ← htake, List.take_append_drop]
      have hdrop : (text.drop 2).length = 2 * count := by
        rw [List.length_drop]
        omega
      have hrest := fun rest => @ih (text.drop 2) rest hdrop
        fun char hchar => hhex char (List.mem_of_mem_drop hchar)
      unfold digestBytes
      rw [hread]
      constructor
      · intro h
        cases hnext : digestBytes source (text.drop 2) count with
        | error error =>
            simp only [hnext, bind, Except.bind] at h
            cases h
        | ok rest =>
            simp only [hnext, bind, Except.bind] at h
            cases h
            obtain ⟨hcount, hmore⟩ := (hrest rest).1 hnext
            refine ⟨by rw [List.length_cons, hcount], ?_⟩
            rw [List.flatMap_cons, ← hmore]
            exact htext
      · rintro ⟨hcount, hall⟩
        cases bytes with
        | nil => cases hcount
        | cons byte rest =>
            have hsmall : byte.toNat < 16 ^ 2 := byte.toNat_lt
            have hfirst : (paddedHex 2 byte.toNat).length = 2 := by
              rw [padded_hex_eq (by decide) hsmall, fixed_digits_length]
            rw [List.flatMap_cons] at hall
            have hbegin : text.take 2 = paddedHex 2 byte.toNat := by
              rw [hall, List.take_append_of_le_length (by omega), List.take_of_length_le (by omega)]
            have hend : text.drop 2 = rest.flatMap fun byte => paddedHex 2 byte.toNat := by
              rw [hall, List.drop_append_of_le_length (by omega), List.drop_of_length_le (by omega),
                List.nil_append]
            have hsame : byte = .ofNat value := by
              have hagain := @from_str_fixed_hex UInt8 _ 2 byte.toNat (by decide) hsmall hsmall
              rw [← padded_hex_eq (by decide) hsmall, ← hbegin, hread, Option.some.injEq] at hagain
              rw [hagain]
              exact (Unsigned.ofNat_toNat byte).symm
            have hnext := (hrest rest).2 ⟨by simpa using hcount, hend⟩
            simp only [hnext, bind, Except.bind, hsame]
            rfl

theorem parse_digest_ok_iff {digest : Vector UInt8 32} :
    parseDigest source text = .ok digest ↔ text = formatDigest digest := by
  have hofn : ∀ bytes : List UInt8, bytes.length = 32 →
      (Vector.ofFn fun index : Fin 32 => bytes.getD index 0).toList = bytes := by
    intro bytes hlength
    apply List.ext_getElem
    · simp [hlength]
    · intro index hleft hright
      simp [List.getElem?_eq_getElem hright]
  unfold parseDigest
  constructor
  · intro h
    split at h
    · cases h
    · rename_i hcheck
      simp only [not_or, not_not, Bool.not_eq_false] at hcheck
      obtain ⟨value, _, htext⟩ := (fixed_hex_iff 64 text).1 hcheck
      cases hbytes : digestBytes source text 32 with
      | error error =>
          rw [hbytes] at h
          cases h
      | ok bytes =>
          rw [hbytes] at h
          have hdigest := Except.ok.inj h
          have hhex : ∀ char ∈ text, ∃ digit < 16, char = Nat.digitChar digit := by
            rw [htext]
            exact fun char hchar => mem_fixed_digits (by decide) hchar
          obtain ⟨hlength, hall⟩ := (digest_bytes_ok_iff
            (by rw [htext, fixed_digits_length]) hhex).1 hbytes
          rw [← hdigest, formatDigest, hofn bytes hlength]
          exact hall
  · rintro rfl
    have hdigits : ∀ byte : UInt8, ∀ char ∈ paddedHex 2 byte.toNat,
        ∃ digit < 16, char = Nat.digitChar digit := by
      intro byte char hchar
      rw [padded_hex_eq (by decide) byte.toNat_lt] at hchar
      exact mem_fixed_digits (by decide) hchar
    have hhex : ∀ char ∈ formatDigest digest, ∃ digit < 16, char = Nat.digitChar digit := by
      intro char hchar
      obtain ⟨byte, _, hmem⟩ := List.mem_flatMap.1 hchar
      exact hdigits byte char hmem
    have hlength : (formatDigest digest).length = 2 * 32 := by
      have hpair : ∀ bytes : List UInt8,
          (bytes.flatMap fun byte => paddedHex 2 byte.toNat).length = 2 * bytes.length := by
        intro bytes
        induction bytes with
        | nil => rfl
        | cons byte rest ih =>
            rw [List.flatMap_cons, List.length_append, ih,
              padded_hex_eq (by decide) byte.toNat_lt, fixed_digits_length, List.length_cons]
            omega
      rw [formatDigest, hpair, Vector.length_toList]
    obtain ⟨value, hvalue, htext⟩ := exists_fixed_digits (by decide) hhex
    rw [hlength] at hvalue htext
    obtain ⟨hbytes, hall⟩ := (fixed_hex_iff 64 (formatDigest digest)).2 ⟨value, hvalue, htext⟩
    have hcheck : ¬ ((utf8Bytes (formatDigest digest)).length ≠ 64 ∨
        (utf8Bytes (formatDigest digest)).all isLowerHex = false) := by simp [hbytes, hall]
    rw [if_neg hcheck, (digest_bytes_ok_iff hlength hhex).2 ⟨digest.length_toList, rfl⟩]
    refine congrArg Except.ok (Vector.toList_inj.1 ?_)
    exact hofn digest.toList digest.length_toList

end

/-- A canonical slug: a lowercase letter, then lowercase letters, digits and hyphens. -/
def Slug (profile : List Char) : Prop :=
  ∃ first rest, profile = first :: rest ∧ first.isLower = true ∧
    ∀ char ∈ rest, char.isLower = true ∨ char.isDigit = true ∨ char = '-'

/-- The bytes of a slug after its first one. -/
theorem all_zip_idx_pos (bytes : List UInt8) {index : Nat} (h : 0 < index) :
    ((bytes.zipIdx index).all fun (byte, index) =>
      isAsciiLowercase byte || isAsciiDigit byte && index > 0 || byte == 0x2d && index > 0) =
    bytes.all fun byte => isAsciiLowercase byte || isAsciiDigit byte || byte == 0x2d := by
  induction bytes generalizing index with
  | nil => rfl
  | cons byte rest ih =>
      rw [List.zipIdx_cons, List.all_cons, List.all_cons, ih (Nat.succ_pos index)]
      simp [h]

/-- A character of a slug, by its byte. -/
theorem slug_char_iff (char : Char) :
    (char.toNat < 0x80 ∧ (isAsciiLowercase (.ofNat char.toNat) || isAsciiDigit (.ofNat char.toNat) ||
      UInt8.ofNat char.toNat == 0x2d) = true) ↔
      char.isLower = true ∨ char.isDigit = true ∨ char = '-' := by
  have hhyphen : char.toNat < 0x80 ∧ (UInt8.ofNat char.toNat == 0x2d) = true ↔ char = '-' := by
    have hcode : (0x2d : UInt8).toNat = 0x2d := rfl
    rw [beq_iff_eq, ← UInt8.toNat_inj, UInt8.toNat_ofNat', hcode]
    constructor
    · rintro ⟨hsmall, heq⟩
      rw [← Char.toNat_inj]
      show char.toNat = 0x2d
      omega
    · rintro rfl
      decide
  rw [← ascii_lowercase_iff, ← ascii_digit_iff, ← hhyphen, Bool.or_eq_true, Bool.or_eq_true]
  tauto

/-- The check of a slug, byte by byte. -/
theorem all_zip_idx (byte : UInt8) (bytes : List UInt8) :
    ((byte :: bytes).zipIdx.all fun (byte, index) =>
      isAsciiLowercase byte || isAsciiDigit byte && index > 0 || byte == 0x2d && index > 0) =
    (isAsciiLowercase byte &&
      bytes.all fun byte => isAsciiLowercase byte || isAsciiDigit byte || byte == 0x2d) := by
  rw [List.zipIdx_cons, List.all_cons, all_zip_idx_pos bytes (Nat.succ_pos 0)]
  simp

theorem is_slug_iff (profile : List Char) : isSlug profile = true ↔ Slug profile := by
  have hascii : ∀ byte, (isAsciiLowercase byte || isAsciiDigit byte || byte == 0x2d) = true →
      byte.toNat < 0x80 := by
    intro byte hbyte
    simp only [isAsciiLowercase, isAsciiDigit, Bool.or_eq_true, Bool.and_eq_true,
      decide_eq_true_eq, beq_iff_eq, UInt8.le_iff_toNat_le, UInt8.reduceToNat] at hbyte
    obtain (⟨_, hle⟩ | ⟨_, hle⟩) | rfl := hbyte
    · omega
    · omega
    · decide
  unfold isSlug
  constructor
  · intro h
    simp only [Bool.and_eq_true, decide_eq_true_eq] at h
    obtain ⟨hsome, hall⟩ := h
    have hweak : (utf8Bytes profile).all (fun byte =>
        isAsciiLowercase byte || isAsciiDigit byte || byte == 0x2d) = true := by
      cases hbytes : utf8Bytes profile with
      | nil => rfl
      | cons byte bytes =>
          rw [hbytes, all_zip_idx, Bool.and_eq_true] at hall
          simp only [List.all_cons, hall.1, hall.2, Bool.true_or, Bool.and_self]
    have hchars := (all_bytes_iff hascii profile).1 hweak
    rw [utf8_bytes_ascii fun char hchar => (hchars char hchar).1] at hall
    cases profile with
    | nil => exact absurd rfl hsome
    | cons first rest =>
        rw [List.map_cons, all_zip_idx, Bool.and_eq_true] at hall
        refine ⟨first, rest, rfl, ?_, fun char hchar => ?_⟩
        · exact (ascii_lowercase_iff first).1 ⟨(hchars first List.mem_cons_self).1, hall.1⟩
        · exact (slug_char_iff char).1 (hchars char (List.mem_cons_of_mem _ hchar))
  · rintro ⟨first, rest, rfl, hfirst, hrest⟩
    have hletter := (ascii_lowercase_iff first).2 hfirst
    have hchars : ∀ char ∈ first :: rest, char.toNat < 0x80 := by
      intro char hchar
      obtain rfl | hmem := List.mem_cons.1 hchar
      · exact hletter.1
      · exact ((slug_char_iff char).2 (hrest char hmem)).1
    rw [utf8_bytes_ascii hchars, List.map_cons, all_zip_idx, hletter.2]
    simp only [ne_eq, reduceCtorEq, not_false_eq_true, decide_true, Bool.true_and,
      List.all_map, List.all_eq_true]
    exact fun char hchar => ((slug_char_iff char).2 (hrest char hchar)).2

/-! ## Clean values -/

theorem digit_char_clean {digit : Nat} (h : digit < 16) :
    Nat.digitChar digit ≠ '=' ∧ Nat.digitChar digit ≠ ' ' ∧ Nat.digitChar digit ≠ '\n' ∧
      Nat.digitChar digit ≠ '\r' := by
  have hall : ∀ digit : Fin 16, Nat.digitChar digit ≠ '=' ∧ Nat.digitChar digit ≠ ' ' ∧
      Nat.digitChar digit ≠ '\n' ∧ Nat.digitChar digit ≠ '\r' := by decide
  exact hall ⟨digit, h⟩

theorem decimal_clean {T : Type} [Unsigned T] (value : T) : Clean (decimal value) := by
  refine ⟨Nat.toDigits_ne_nil, fun char hchar => ?_⟩
  obtain ⟨digit, hdigit, rfl⟩ := mem_to_digits (by decide) hchar
  exact digit_char_clean (by omega)

theorem padded_hex_clean {digits value : Nat} (hsome : digits ≠ 0) (h : value < 16 ^ digits) :
    Clean (paddedHex digits value) := by
  rw [padded_hex_eq hsome h]
  refine ⟨?_, fun char hchar => ?_⟩
  · rw [ne_eq, ← List.length_eq_zero_iff, fixed_digits_length]
    exact hsome
  · obtain ⟨digit, hdigit, rfl⟩ := mem_fixed_digits (by decide) hchar
    exact digit_char_clean hdigit

theorem Clean.append {first second : List Char} (hfirst : Clean first)
    (hsecond : ∀ char ∈ second, char ≠ '=' ∧ char ≠ ' ' ∧ char ≠ '\n' ∧ char ≠ '\r') :
    Clean (first ++ second) := by
  refine ⟨by simp [hfirst.1], fun char hchar => ?_⟩
  obtain hmem | hmem := List.mem_append.1 hchar
  · exact hfirst.2 char hmem
  · exact hsecond char hmem

theorem hex_clean {digits value : Nat} (hsome : digits ≠ 0) (h : value < 16 ^ digits) :
    Clean ("0x".toList ++ paddedHex digits value) := by
  have hmark : Clean "0x".toList := by decide
  exact hmark.append (padded_hex_clean hsome h).2

theorem abi_clean (abi : AbiVersion) : Clean abi.display := by
  have hmajor := decimal_clean abi.major
  have hdot : Clean (decimal abi.major ++ ['.']) := hmajor.append (by simp)
  exact hdot.append (decimal_clean abi.minor).2

theorem digest_clean (digest : Vector UInt8 32) : Clean (formatDigest digest) := by
  have hbyte : ∀ byte : UInt8, Clean (paddedHex 2 byte.toNat) := fun byte =>
    padded_hex_clean (by decide) byte.toNat_lt
  refine ⟨?_, fun char hchar => ?_⟩
  · have hmem : digest[0] ∈ digest.toList := by simp
    obtain ⟨char, hchar⟩ := List.exists_mem_of_ne_nil _ (hbyte digest[0]).1
    exact List.ne_nil_of_mem (List.mem_flatMap.2 ⟨_, hmem, hchar⟩)
  · obtain ⟨byte, _, hmem⟩ := List.mem_flatMap.1 hchar
    exact (hbyte byte).2 char hmem

theorem Slug.clean {profile : List Char} (h : Slug profile) : Clean profile := by
  obtain ⟨first, rest, rfl, hfirst, hrest⟩ := h
  have hplain : ∀ char : Char, char.isLower = true ∨ char.isDigit = true ∨ char = '-' →
      char ≠ '=' ∧ char ≠ ' ' ∧ char ≠ '\n' ∧ char ≠ '\r' := by
    intro char hchar
    refine ⟨?_, ?_, ?_, ?_⟩ <;> rintro rfl <;> revert hchar <;> decide
  refine ⟨by simp, fun char hchar => ?_⟩
  obtain rfl | hmem := List.mem_cons.1 hchar
  · exact hplain _ (.inl hfirst)
  · exact hplain char (hrest char hmem)

theorem outcome_clean (outcome : ActivationOutcome) : Clean outcome.display := by
  cases outcome <;> decide

/-! ## Records -/

/-- The fields of a contract's text. -/
def ContractIdentity.pairs (x : ContractIdentity) : List (List Char × List Char) :=
  [("profile".toList, x.profile.toList), ("profile_id".toList, decimal x.profileId),
    ("sha256".toList, formatDigest x.sha256), ("epoch".toList, decimal x.epoch),
    ("abi".toList, x.abi.display),
    ("final_capabilities".toList, "0x".toList ++ paddedHex 16 x.finalCapabilities.toNat),
    ("dormant_capabilities".toList, "0x".toList ++ paddedHex 16 x.dormantCapabilities.toNat),
    ("lease_mask".toList, "0x".toList ++ paddedHex 16 x.leaseMask.toNat),
    ("manifest_flags".toList, "0x".toList ++ paddedHex 8 x.manifestFlags.toNat),
    ("activation_required".toList, if x.activationRequired then ['1'] else ['0'])]

/-- The fields of a status' text. -/
def ActivationStatus.pairs (x : ActivationStatus) : List (List Char × List Char) :=
  [("driver_outcome".toList, x.driverOutcome.display), ("state".toList, decimal x.state),
    ("error".toList, decimal x.error), ("attempts".toList, decimal x.attempts),
    ("request_id".toList, decimal x.requestId)]

theorem contract_display_eq (x : ContractIdentity) : x.display = recordLine x.pairs := by
  unfold ContractIdentity.display ContractIdentity.pairs
  -- The values are opaque here; what is compared are the names and the separators.
  generalize x.profile.toList = profile, decimal x.profileId = profileId,
    formatDigest x.sha256 = sha256, decimal x.epoch = epoch, x.abi.display = abi,
    paddedHex 16 x.finalCapabilities.toNat = final,
    paddedHex 16 x.dormantCapabilities.toNat = dormant, paddedHex 16 x.leaseMask.toNat = mask,
    paddedHex 8 x.manifestFlags.toNat = flags,
    (if x.activationRequired then ['1'] else ['0']) = required
  simp [record_line_cons, record_line_singleton, entryText]

theorem activation_display_eq (x : ActivationStatus) : x.display = recordLine x.pairs := by
  unfold ActivationStatus.display ActivationStatus.pairs
  generalize x.driverOutcome.display = outcome, decimal x.state = state,
    decimal x.error = error, decimal x.attempts = attempts, decimal x.requestId = requestId
  simp [record_line_cons, record_line_singleton, entryText]

theorem contract_names : Names contractFields := ⟨by decide, by decide, by decide⟩

theorem activation_names : Names activationFields := ⟨by decide, by decide, by decide⟩

theorem contract_pairs_clean {x : ContractIdentity} (h : Slug x.profile.toList) :
    ∀ field ∈ x.pairs, Clean field.2 := by
  intro field hfield
  simp only [ContractIdentity.pairs, List.mem_cons, List.not_mem_nil, or_false] at hfield
  obtain rfl | rfl | rfl | rfl | rfl | rfl | rfl | rfl | rfl | rfl := hfield
  · exact h.clean
  · exact decimal_clean _
  · exact digest_clean _
  · exact decimal_clean _
  · exact abi_clean _
  · exact hex_clean (by decide) x.finalCapabilities.toNat_lt
  · exact hex_clean (by decide) x.dormantCapabilities.toNat_lt
  · exact hex_clean (by decide) x.leaseMask.toNat_lt
  · exact hex_clean (by decide) x.manifestFlags.toNat_lt
  · cases x.activationRequired <;> decide

theorem activation_pairs_clean (x : ActivationStatus) : ∀ field ∈ x.pairs, Clean field.2 := by
  intro field hfield
  simp only [ActivationStatus.pairs, List.mem_cons, List.not_mem_nil, or_false] at hfield
  obtain rfl | rfl | rfl | rfl | rfl := hfield
  · exact outcome_clean _
  · exact decimal_clean _
  · exact decimal_clean _
  · exact decimal_clean _
  · exact decimal_clean _

theorem parse_outcome_ok_iff {text : List Char} {outcome : ActivationOutcome} :
    parseOutcome text = .ok outcome ↔ text = outcome.display := by
  unfold parseOutcome
  constructor
  · intro h
    split at h
    · rename_i hname
      cases h
      exact hname
    · split at h
      · rename_i hname
        cases h
        exact hname
      · split at h
        · rename_i hname
          cases h
          exact hname
        · split at h
          · rename_i hname
            cases h
            exact hname
          · cases h
  · rintro rfl
    cases outcome <;> decide

/-- What `parse_activation_attribute` accepts. -/
theorem parse_activation_ok_iff {input : String} {x : ActivationStatus} :
    parseActivationAttribute input = .ok x ↔
      ∃ fields, fields.Perm x.pairs ∧ input.toList = recordLine fields ++ ['\n'] := by
  unfold parseActivationAttribute
  simp only [bind_ok_iff, parse_fields_ok_iff activation_names, parse_outcome_ok_iff,
    parse_decimal_ok_iff]
  constructor
  · rintro ⟨fields, ⟨hinput, hperm, _⟩, outcome, houtcome, state, hstate, error, herror, attempts,
      hattempts, requestId, hrequest, hvalue⟩
    cases hvalue
    refine ⟨fields, ?_, hinput⟩
    have hpairs := perm_pairs activation_names.nodup hperm
    simp only [activationFields, List.map_cons, List.map_nil, houtcome, hstate, herror, hattempts,
      hrequest] at hpairs
    exact hpairs
  · rintro ⟨fields, hperm, hinput⟩
    have hnodup : (x.pairs.map Prod.fst).Nodup := activation_names.nodup
    have hvalue : ∀ field ∈ x.pairs, valueOf fields field.1 = field.2 := fun field hfield =>
      value_of_perm hperm hnodup hfield
    refine ⟨fields, ⟨hinput, hperm.map Prod.fst, ?_⟩, x.driverOutcome, ?_, x.state, ?_, x.error, ?_,
      x.attempts, ?_, x.requestId, ?_, rfl⟩
    · exact fun field hfield => activation_pairs_clean x field (hperm.mem_iff.1 hfield)
    · exact hvalue ("driver_outcome".toList, x.driverOutcome.display) (by simp [ActivationStatus.pairs])
    · exact hvalue ("state".toList, decimal x.state) (by simp [ActivationStatus.pairs])
    · exact hvalue ("error".toList, decimal x.error) (by simp [ActivationStatus.pairs])
    · exact hvalue ("attempts".toList, decimal x.attempts) (by simp [ActivationStatus.pairs])
    · exact hvalue ("request_id".toList, decimal x.requestId) (by simp [ActivationStatus.pairs])

theorem parse_flag_ok_iff {text : List Char} {flag : Bool} :
    parseFlag text = .ok flag ↔ text = if flag then ['1'] else ['0'] := by
  unfold parseFlag
  constructor
  · intro h
    split at h
    · rename_i hzero
      cases h
      exact hzero
    · split at h
      · rename_i hone
        cases h
        exact hone
      · cases h
  · rintro rfl
    cases flag <;> decide

/-- Eight digits fit: the `expect` does not panic. -/
theorem expect_fits {source field : String} {text : List Char} {value : UInt64}
    (h : parseFixedHex source field text 8 = .ok value) :
    expectU32 value = .ok value.toUInt32 ∧ value.toUInt32.toNat = value.toNat := by
  have hsmall : value.toNat < 2 ^ 32 := ((parse_fixed_hex_ok_iff (by decide) (by decide)).1 h).2
  rw [expectU32, if_pos hsmall, UInt64.toNat_toUInt32, Nat.mod_eq_of_lt hsmall]
  exact ⟨rfl, rfl⟩

/-- The eight digits of a word. -/
theorem parse_word_ok {source field : String} (value : UInt32) :
    parseFixedHex source field ("0x".toList ++ paddedHex 8 value.toNat) 8 = .ok value.toUInt64 ∧
      expectU32 value.toUInt64 = .ok value := by
  have hvalue : value.toUInt64.toNat = value.toNat := UInt32.toNat_toUInt64 value
  have hparse : parseFixedHex source field ("0x".toList ++ paddedHex 8 value.toNat) 8 =
      .ok value.toUInt64 := by
    rw [parse_fixed_hex_ok_iff (by decide) (by decide), hvalue]
    exact ⟨rfl, value.toNat_lt⟩
  refine ⟨hparse, (expect_fits hparse).1.trans (congrArg Except.ok ?_)⟩
  rw [← UInt32.toNat_inj, (expect_fits hparse).2, hvalue]

/-- What `parse_contract_attribute` accepts. -/
theorem parse_contract_ok_iff {input : String} {x : ContractIdentity} :
    parseContractAttribute input = .ok x ↔ Slug x.profile.toList ∧
      ∃ fields, fields.Perm x.pairs ∧ input.toList = recordLine fields ++ ['\n'] := by
  have hhex : ∀ {field : String} {text : List Char} {value : UInt64},
      parseFixedHex "contract" field text 16 = .ok value ↔
        text = "0x".toList ++ paddedHex 16 value.toNat := by
    intro field text value
    have hsmall : value.toNat < 16 ^ 16 := value.toNat_lt
    rw [parse_fixed_hex_ok_iff (by decide) (by decide), and_iff_left hsmall]
    rfl
  unfold parseContractAttribute
  simp only [bind_ok_iff, parse_fields_ok_iff contract_names]
  constructor
  · rintro ⟨fields, ⟨hinput, hperm, _⟩, h⟩
    split at h
    · cases h
    · rename_i hslug
      simp only [bind_ok_iff, parse_flag_ok_iff, parse_decimal_ok_iff, parse_digest_ok_iff,
        parse_abi_ok_iff, hhex] at h
      obtain ⟨required, hrequired, profileId, hid, sha256, hdigest, epoch, hepoch, abi, habi, final,
        hfinal, dormant, hdormant, mask, hmask, flags, hflags, manifest, hmanifest, hvalue⟩ := h
      obtain ⟨hfit, hword⟩ := expect_fits hflags
      cases hfit.symm.trans hmanifest
      have hflags := ((parse_fixed_hex_ok_iff (by decide) (by decide)).1 hflags).1
      have hprofile : (String.ofList (valueOf fields "profile".toList)).toList =
          valueOf fields "profile".toList := String.toList_ofList
      have hx := Except.ok.inj hvalue
      subst hx
      refine ⟨?_, fields, ?_, hinput⟩
      · show Slug (String.ofList (valueOf fields "profile".toList)).toList
        rw [hprofile]
        exact (is_slug_iff _).1 (by simpa using hslug)
      · have hpairs := perm_pairs contract_names.nodup hperm
        simp only [contractFields, List.map_cons, List.map_nil, hrequired, hid, hdigest, hepoch, habi,
          hfinal, hdormant, hmask, hflags] at hpairs
        simp only [ContractIdentity.pairs, hprofile, hword]
        exact hpairs
  · rintro ⟨hslug, fields, hperm, hinput⟩
    have hnodup : (x.pairs.map Prod.fst).Nodup := contract_names.nodup
    have hvalue : ∀ field ∈ x.pairs, valueOf fields field.1 = field.2 := fun field hfield =>
      value_of_perm hperm hnodup hfield
    have hprofile := hvalue ("profile".toList, x.profile.toList) (by simp [ContractIdentity.pairs])
    have hname : ¬ isSlug (valueOf fields "profile".toList) = false := by
      rw [hprofile, Bool.not_eq_false]
      exact (is_slug_iff _).2 hslug
    obtain ⟨hflags, hmanifest⟩ :=
      @parse_word_ok "contract" "manifest_flags" x.manifestFlags
    refine ⟨fields, ⟨hinput, hperm.map Prod.fst, fun field hfield =>
      contract_pairs_clean hslug field (hperm.mem_iff.1 hfield)⟩, ?_⟩
    rw [if_neg hname]
    simp only [bind_ok_iff, parse_flag_ok_iff, parse_decimal_ok_iff, parse_digest_ok_iff,
      parse_abi_ok_iff, hhex]
    refine ⟨x.activationRequired, ?_, x.profileId, ?_, x.sha256, ?_, x.epoch, ?_, x.abi, ?_,
      x.finalCapabilities, ?_, x.dormantCapabilities, ?_, x.leaseMask, ?_,
      x.manifestFlags.toUInt64, ?_, x.manifestFlags, hmanifest, ?_⟩
    · exact hvalue ("activation_required".toList, if x.activationRequired then ['1'] else ['0'])
        (by simp [ContractIdentity.pairs])
    · exact hvalue ("profile_id".toList, decimal x.profileId) (by simp [ContractIdentity.pairs])
    · exact hvalue ("sha256".toList, formatDigest x.sha256) (by simp [ContractIdentity.pairs])
    · exact hvalue ("epoch".toList, decimal x.epoch) (by simp [ContractIdentity.pairs])
    · exact hvalue ("abi".toList, x.abi.display) (by simp [ContractIdentity.pairs])
    · exact hvalue ("final_capabilities".toList, "0x".toList ++ paddedHex 16 x.finalCapabilities.toNat)
        (by simp [ContractIdentity.pairs])
    · exact hvalue ("dormant_capabilities".toList,
        "0x".toList ++ paddedHex 16 x.dormantCapabilities.toNat) (by simp [ContractIdentity.pairs])
    · exact hvalue ("lease_mask".toList, "0x".toList ++ paddedHex 16 x.leaseMask.toNat)
        (by simp [ContractIdentity.pairs])
    · rw [hvalue ("manifest_flags".toList, "0x".toList ++ paddedHex 8 x.manifestFlags.toNat)
        (by simp [ContractIdentity.pairs])]
      exact hflags
    · rw [hprofile, String.ofList_toList]
      rfl

/-! ## Exactness -/

/-- The fields of a line in some order, with one space between them and a newline at the end. -/
def AnyOrder (line input : List Char) : Prop :=
  ∃ entries, entries.Perm (line.splitOn ' ') ∧ input = [' '].intercalate entries ++ ['\n']

theorem any_order_iff {pairs : List (List Char × List Char)} (hsome : pairs ≠ [])
    (hclean : ∀ field ∈ pairs, Clean field.1 ∧ Clean field.2) {input : List Char} :
    AnyOrder (recordLine pairs) input ↔
      ∃ fields, fields.Perm pairs ∧ input = recordLine fields ++ ['\n'] := by
  unfold AnyOrder
  rw [split_record_line hsome hclean]
  constructor
  · rintro ⟨entries, hperm, rfl⟩
    have hcomp := congrFun (congrFun (List.eq_map_comp_perm entryText) entries) pairs
    obtain ⟨fields, rfl, hfields⟩ : Relation.Comp (fun entries fields => entries =
        List.map entryText fields) List.Perm entries pairs := by
      rw [hcomp]
      exact hperm
    exact ⟨fields, hfields, rfl⟩
  · rintro ⟨fields, hperm, rfl⟩
    exact ⟨fields.map entryText, hperm.map entryText, rfl⟩

theorem contract_pairs_fields {x : ContractIdentity} (h : Slug x.profile.toList) :
    ∀ field ∈ x.pairs, Clean field.1 ∧ Clean field.2 := by
  intro field hfield
  have hname : field.1 ∈ contractFields :=
    (List.mem_map_of_mem hfield : field.1 ∈ x.pairs.map Prod.fst)
  exact ⟨contract_names.clean _ hname, contract_pairs_clean h field hfield⟩

theorem activation_pairs_fields (x : ActivationStatus) :
    ∀ field ∈ x.pairs, Clean field.1 ∧ Clean field.2 := by
  intro field hfield
  have hname : field.1 ∈ activationFields :=
    (List.mem_map_of_mem hfield : field.1 ∈ x.pairs.map Prod.fst)
  exact ⟨activation_names.clean _ hname, activation_pairs_clean x field hfield⟩

theorem contract_exact {input : String} {x : ContractIdentity} :
    parseContractAttribute input = .ok x ↔
      Slug x.profile.toList ∧ AnyOrder x.display input.toList := by
  rw [parse_contract_ok_iff, contract_display_eq]
  have hsome : x.pairs ≠ [] := by simp [ContractIdentity.pairs]
  constructor
  · rintro ⟨hslug, horder⟩
    exact ⟨hslug, (any_order_iff hsome (contract_pairs_fields hslug)).2 horder⟩
  · rintro ⟨hslug, horder⟩
    exact ⟨hslug, (any_order_iff hsome (contract_pairs_fields hslug)).1 horder⟩

theorem activation_exact {input : String} {x : ActivationStatus} :
    parseActivationAttribute input = .ok x ↔ AnyOrder x.display input.toList := by
  rw [parse_activation_ok_iff, activation_display_eq]
  have hsome : x.pairs ≠ [] := by simp [ActivationStatus.pairs]
  exact (any_order_iff hsome (activation_pairs_fields x)).symm

theorem any_order_self (line : List Char) : AnyOrder line (line ++ ['\n']) :=
  ⟨line.splitOn ' ', .refl _, by rw [List.intercalate_splitOn]⟩

/-- The parsers accept exactly the printed texts, with the ten or five fields in any order. So a
printed text with a newline is read as what it was printed for, and two values with a common text
are the same. -/
theorem attributes_exact :
    (∀ (input : String) (x : ContractIdentity), parseContractAttribute input = .ok x ↔
      Slug x.profile.toList ∧ (x.display.splitOn ' ').length = 10 ∧
        AnyOrder x.display input.toList) ∧
    (∀ (input : String) (x : ActivationStatus), parseActivationAttribute input = .ok x ↔
      (x.display.splitOn ' ').length = 5 ∧ AnyOrder x.display input.toList) ∧
    (∀ x : ContractIdentity, Slug x.profile.toList →
      parseContractAttribute (String.ofList (x.display ++ ['\n'])) = .ok x) ∧
    (∀ x : ActivationStatus,
      parseActivationAttribute (String.ofList (x.display ++ ['\n'])) = .ok x) ∧
    (∀ (x y : ContractIdentity) (input : List Char), Slug x.profile.toList →
      Slug y.profile.toList → AnyOrder x.display input → AnyOrder y.display input → x = y) ∧
    ∀ (x y : ActivationStatus) (input : List Char),
      AnyOrder x.display input → AnyOrder y.display input → x = y := by
  refine ⟨fun input x => ?_, fun input x => ?_, fun x hslug => ?_, fun x => ?_,
    fun x y input hx hy hfirst hsecond => ?_, fun x y input hfirst hsecond => ?_⟩
  · rw [contract_exact]
    constructor
    · rintro ⟨hslug, horder⟩
      refine ⟨hslug, ?_, horder⟩
      rw [contract_display_eq, split_record_line (by simp [ContractIdentity.pairs])
        (contract_pairs_fields hslug)]
      rfl
    · rintro ⟨hslug, _, horder⟩
      exact ⟨hslug, horder⟩
  · rw [activation_exact, activation_display_eq, split_record_line
      (by simp [ActivationStatus.pairs]) (activation_pairs_fields x)]
    exact (and_iff_right rfl).symm
  · rw [contract_exact, String.toList_ofList]
    exact ⟨hslug, any_order_self _⟩
  · rw [activation_exact, String.toList_ofList]
    exact any_order_self _
  · have hparse := (@contract_exact (String.ofList input) x).2
      ⟨hx, by rw [String.toList_ofList]; exact hfirst⟩
    have hother := (@contract_exact (String.ofList input) y).2
      ⟨hy, by rw [String.toList_ofList]; exact hsecond⟩
    exact Except.ok.inj (hparse.symm.trans hother)
  · have hparse := (@activation_exact (String.ofList input) x).2
      (by rw [String.toList_ofList]; exact hfirst)
    have hother := (@activation_exact (String.ofList input) y).2
      (by rw [String.toList_ofList]; exact hsecond)
    exact Except.ok.inj (hparse.symm.trans hother)

/-- A contract of the base profile, with the digest left blank. -/
def baseIdentity : ContractIdentity where
  profile := "base"
  profileId := 1
  sha256 := Vector.replicate 32 0
  epoch := 2
  abi := ⟨1, 1⟩
  finalCapabilities := 0xb
  dormantCapabilities := 0xb
  leaseMask := 0
  manifestFlags := 2
  activationRequired := false

/-- A printed contract, and a status with its fields in another order. -/
theorem attributes_exact_reordered :
    parseContractAttribute (String.ofList (baseIdentity.display ++ ['\n'])) = .ok baseIdentity ∧
      parseActivationAttribute
        "request_id=7 driver_outcome=completed attempts=1 state=2 error=0\n" =
        .ok ⟨.completed, 2, 0, 1, 7⟩ := by
  have hslug : Slug baseIdentity.profile.toList :=
    ⟨'b', ['a', 's', 'e'], by decide, by decide, by
      simp only [List.forall_mem_cons, List.not_mem_nil, false_implies, implies_true]
      decide⟩
  refine ⟨attributes_exact.2.2.1 baseIdentity hslug, (attributes_exact.2.1 _ _).2 ⟨by decide,
    ["request_id=7".toList, "driver_outcome=completed".toList, "attempts=1".toList,
      "state=2".toList, "error=0".toList], by decide, by decide⟩⟩

end NanoKvm.Ctl
