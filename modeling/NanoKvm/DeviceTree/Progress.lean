import NanoKvm.DeviceTree.Dts
import NanoKvm.Text.Fallible

/-!
# The loops of the parser end

Every turn of `tokenize` takes a character and every turn of `parse_node` a token, so the fuel
that `parseDts` starts with is never used up: `parse_dts_fueled`.
-/

namespace NanoKvm.DeviceTree

/-- What is left is no longer than the bound, and no fuel was missing. -/
structure Leaves {α β : Type} (result : Except DtsError (α × List β)) (bound : Nat) : Prop where
  rest : ∀ value rest, result = .ok (value, rest) → rest.length ≤ bound
  fueled : result ≠ .error .outOfFuel

section

variable {α β γ : Type} {bound : Nat}

theorem Leaves.ok {value : α} {rest : List β} (h : rest.length ≤ bound) :
    Leaves (.ok (value, rest)) bound where
  rest _ _ heq := by
    cases heq
    exact h
  fueled := by simp

theorem Leaves.error {error : DtsError} (h : error ≠ .outOfFuel) :
    Leaves (.error error : Except DtsError (α × List β)) bound where
  rest _ _ heq := by cases heq
  fueled := by simpa using h

theorem Leaves.mono {result : Except DtsError (α × List β)} {larger : Nat}
    (h : Leaves result bound) (hle : bound ≤ larger) : Leaves result larger where
  rest value rest heq := Nat.le_trans (h.rest value rest heq) hle
  fueled := h.fueled

/-- A step and what runs on its rest. -/
theorem Leaves.bind {first : Except DtsError (α × List β)}
    {next : α × List β → Except DtsError (γ × List β)} {left : Nat} (hfirst : Leaves first left)
    (hnext : ∀ value rest, rest.length ≤ left → Leaves (next (value, rest)) bound) :
    Leaves (first >>= next) bound := by
  cases hresult : first with
  | error error => exact .error fun heq => hfirst.fueled (by rw [hresult, heq])
  | ok result =>
      obtain ⟨value, rest⟩ := result
      exact hnext value rest (hfirst.rest value rest hresult)

theorem Leaves.map {result : Except DtsError (α × List β)} {f : α × List β → γ × List β}
    (h : Leaves result bound) (hf : ∀ found, (f found).2 = found.2) :
    Leaves (result.map f) bound := by
  cases hresult : result with
  | error error => exact .error fun heq => h.fueled (by rw [hresult, heq])
  | ok found =>
      obtain ⟨value, rest⟩ := found
      have hrest := h.rest value rest hresult
      refine ⟨fun other left heq => ?_, by simp [Except.map]⟩
      have hleft := (hf (value, rest)).symm.trans (congrArg Prod.snd (Except.ok.inj heq))
      dsimp only at hleft
      rw [← hleft]
      exact hrest

end

/-! ## The tokenizer -/

theorem skip_block_length {text rest : List Char} (h : skipBlock text = some rest) :
    rest.length < text.length := by
  induction text using skipBlock.induct with
  | case1 => cases h
  | case2 tail =>
      cases h
      simp only [List.length_cons]
      omega
  | case3 c tail hother ih =>
      rw [skipBlock] at h
      · have hless := ih h
        rw [List.length_cons]
        omega
      · exact hother

theorem read_string_leaves (text : List Char) : Leaves (readString text) text.length := by
  induction text using readString.induct with
  | case1 => exact .error (by simp)
  | case2 rest => exact .ok (by simp)
  | case3 => exact .error (by simp)
  | case4 c rest ih =>
      rw [readString]
      refine Leaves.mono (ih.map fun _ => rfl) ?_
      simp only [List.length_cons]
      omega
  | case5 c rest hquote hslash hescape ih =>
      rw [readString]
      · refine Leaves.mono (ih.map fun _ => rfl) ?_
        simp only [List.length_cons]
        omega
      all_goals assumption

theorem read_atom_length (text : List Char) :
    (readAtom text).1.length + (readAtom text).2.length = text.length := by
  induction text with
  | nil => rfl
  | cons c text ih =>
      rw [readAtom]
      split
      · simp
      · simp only [List.length_cons]
        omega

/-- A turn takes a character. -/
theorem next_token_leaves (c : Char) (text : List Char) :
    Leaves (nextToken (c :: text)) text.length := by
  rw [nextToken]
  split
  · exact .ok (Nat.le_refl _)
  split
  · refine .ok ?_
    have hdrop := (List.dropWhile_suffix (l := text) (· ≠ '\n')).length_le
    rw [List.length_drop]
    omega
  split
  · split
    · exact .error (by simp)
    · rename_i rest hskip
      have hless := skip_block_length hskip
      rw [List.length_drop] at hless
      exact .ok (by omega)
  split
  · exact (read_string_leaves text).map fun _ => rfl
  split
  · exact .ok (Nat.le_refl _)
  · have hlength := read_atom_length (c :: text)
    dsimp only
    split
    · exact .error (by simp)
    · rename_i hatom
      have hpos := List.length_pos_iff.mpr hatom
      rw [List.length_cons] at hlength
      exact .ok (by omega)

theorem tokenize_from_fueled {fuel : Nat} {text : List Char} (h : text.length ≤ fuel) :
    tokenizeFrom fuel text ≠ .error .outOfFuel := by
  induction fuel generalizing text with
  | zero =>
      rw [Nat.le_zero, List.length_eq_zero_iff] at h
      subst h
      simp [tokenizeFrom]
  | succ fuel ih =>
      cases text with
      | nil => simp [tokenizeFrom]
      | cons c text =>
          have hturn := next_token_leaves c text
          rw [tokenizeFrom]
          · cases hresult : nextToken (c :: text) with
            | error error =>
                intro heq
                refine hturn.fueled (hresult.trans ?_)
                rw [Except.error.inj heq]
            | ok result =>
                obtain ⟨token, rest⟩ := result
                have hrest := hturn.rest token rest hresult
                have hlater := ih (by rw [List.length_cons] at h; omega : rest.length ≤ fuel)
                simp only [bind, Except.bind]
                cases htail : tokenizeFrom fuel rest with
                | error error =>
                    intro heq
                    exact hlater (htail.trans heq)
                | ok tokens => simp [pure, Except.pure]
          · exact List.cons_ne_nil c text

/-! ## The parser -/

theorem take_leaves (tokens : List Token) : Leaves (take tokens) (tokens.length - 1) := by
  cases tokens with
  | nil => exact .error (by simp)
  | cons token tokens => exact .ok (Nat.le_refl _)

theorem take_value_cases (value : String) (tokens : List Token) :
    (∃ rest, takeValue value tokens = .ok rest ∧ rest.length + 1 = tokens.length) ∨
      ∃ error, takeValue value tokens = .error error ∧ error ≠ .outOfFuel := by
  cases tokens with
  | nil => exact .inr ⟨_, rfl, by simp⟩
  | cons token tokens =>
      rw [takeValue]
      split
      · exact .inr ⟨_, rfl, by simp⟩
      · exact .inl ⟨tokens, rfl, rfl⟩

/-- A token that is expected, and what runs after it. -/
theorem take_value_leaves {α : Type} (value : String) {tokens : List Token} {bound : Nat}
    {next : List Token → Except DtsError (α × List Token)}
    (hnext : ∀ rest, rest.length + 1 = tokens.length → Leaves (next rest) bound) :
    Leaves (takeValue value tokens >>= next) bound := by
  obtain ⟨rest, htake, hlength⟩ | ⟨error, htake, hne⟩ := take_value_cases value tokens
  · rw [htake]
    exact hnext rest hlength
  · rw [htake]
    exact .error hne

theorem take_until_leaves (tokens : List Token) :
    Leaves (takeUntilSemicolon tokens) tokens.length := by
  induction tokens with
  | nil => exact .error (by simp)
  | cons token tokens ih =>
      rw [takeUntilSemicolon]
      split
      · exact .ok (Nat.le_refl _)
      · exact Leaves.mono (ih.map fun _ => rfl) (Nat.le_succ _)

theorem parse_property_leaves (tokens : List Token) :
    Leaves (parseProperty tokens) (tokens.length - 1) := by
  unfold parseProperty
  split
  · exact take_value_leaves ";" fun rest hrest => .ok (by omega)
  · refine take_value_leaves "=" fun rest hrest => ?_
    refine (take_until_leaves rest).bind fun value after hafter => ?_
    exact take_value_leaves ";" fun last hlast => .ok (by omega)

theorem skip_label_leaves {α : Type} {tokens : List Token} {bound : Nat}
    {next : List Token → Except DtsError (α × List Token)}
    (hnext : ∀ rest, rest.length ≤ tokens.length → Leaves (next rest) bound) :
    Leaves (skipLabel tokens >>= next) bound := by
  unfold skipLabel
  split
  · cases tokens with
    | nil => exact .error (by simp)
    | cons token tokens =>
        refine take_value_leaves ":" fun rest hrest => hnext rest ?_
        rw [List.length_cons]
        omega
  · exact hnext tokens (Nat.le_refl _)

/-- A node takes its tokens. -/
theorem parse_body_leaves (path node : String) {fuel : Nat} {tokens : List Token}
    (properties : List (String × List Token)) (children : List Node) (h : tokens.length < fuel) :
    Leaves (parseBody path node fuel tokens properties children) (tokens.length - 1) := by
  induction fuel generalizing path node tokens properties children with
  | zero => omega
  | succ fuel ih =>
      rw [parseBody]
      split
      · refine take_value_leaves "\x7d" fun rest hrest => ?_
        exact take_value_leaves ";" fun last hlast => .ok (by omega)
      split
      · exact .error (by simp)
      rename_i hsome
      have hpos := List.length_pos_iff.mpr hsome
      refine skip_label_leaves fun labelled hlabelled => ?_
      refine (take_leaves labelled).bind fun token after hafter => ?_
      dsimp only
      split
      · exact .error (by simp)
      split
      · refine take_value_leaves "\x7b" fun inner hinner => ?_
        refine (ih _ _ [] [] (by omega : inner.length < fuel)).bind fun child rest hrest => ?_
        dsimp only
        exact (ih path node properties (children ++ [child]) (by omega)).mono (by omega)
      split
      · exact .error (by simp)
      · refine (parse_property_leaves after).bind fun value rest hrest => ?_
        dsimp only
        exact (ih path node (properties ++ [(token.value, value)]) children (by omega)).mono
          (by omega)

theorem find_root_cases (tokens : List Token) :
    (∃ rest, findRoot tokens = .ok rest) ∨ findRoot tokens = .error .noRoot := by
  induction tokens with
  | nil => exact .inr rfl
  | cons token tokens ih =>
      rw [findRoot]
      split
      · exact .inl ⟨_, rfl⟩
      · exact ih

/-- The parser answers every source. -/
theorem parse_dts_fueled (source : List Char) : parseDts source ≠ .error .outOfFuel := by
  unfold parseDts
  cases htokens : tokenize source with
  | error error =>
      intro heq
      refine tokenize_from_fueled (Nat.le_refl source.length) (htokens.trans ?_)
      rw [Except.error.inj heq]
  | ok tokens =>
      simp only [bind, Except.bind, parse]
      obtain ⟨found, hfound⟩ | hnone := find_root_cases tokens
      · rw [hfound]
        obtain ⟨inner, hslash, _⟩ | ⟨error, hslash, hne⟩ := take_value_cases "/" found
        · obtain ⟨body, hopen, _⟩ | ⟨error, hopen, hne⟩ := take_value_cases "\x7b" inner
          · have hbody := parse_body_leaves "/" "/" [] [] (Nat.lt_succ_self body.length)
            simp only [hslash, hopen]
            cases hparse : parseBody "/" "/" (body.length + 1) body [] [] with
            | error error =>
                intro heq
                refine hbody.fueled (hparse.trans ?_)
                rw [Except.error.inj heq]
            | ok result =>
                dsimp only
                split
                · simp
                · simp
          · simpa [hslash, hopen] using hne
        · simpa [hslash] using hne
      · rw [hnone]
        simp

end NanoKvm.DeviceTree
