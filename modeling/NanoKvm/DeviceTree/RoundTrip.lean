import NanoKvm.DeviceTree.Values

/-!
# Parsing what dtc prints

`parse_printed_iff`: the source of a tree parses to the same names, strings and cells exactly
when the tree is `Faithful`. The parser compares the texts of tokens and not their kinds, so a
string `;` ends its value and a string `<` or `>` counts as a bracket; and the tokenizer knows
only some of dtc's escapes. `parse_body_tree` is the parse of a faithful tree, and
`faithful_of_body` goes back from the parsed node.
-/

namespace NanoKvm.DeviceTree

/-! ## Trees -/

namespace Tree

def name : Tree → String
  | mk name _ _ => name

def properties : Tree → List (String × List Component)
  | mk _ properties _ => properties

def children : Tree → List Tree
  | mk _ _ children => children

/-- A device tree: its names are names, and no node has a property twice. -/
inductive WellFormed : Tree → Prop
  | mk {name : String} {properties : List (String × List Component)} {children : List Tree}
      (hnames : ∀ property ∈ properties, IsName property.1)
      (hdistinct : (properties.map Prod.fst).Nodup)
      (hchildNames : ∀ child ∈ children, IsName child.name)
      (hchildren : ∀ child ∈ children, child.WellFormed) : WellFormed (.mk name properties children)

end Tree

/-- A part of a value that reads back: a string is plain and no punctuation of the parser. -/
def Component.Faithful : Component → Prop
  | .string text => (∀ byte ∈ text, Plain byte) ∧ text ≠ [0x3b] ∧ text ≠ [0x3c] ∧ text ≠ [0x3e]
  | _ => True

/-- A tree whose values all read back. -/
inductive Tree.Faithful : Tree → Prop
  | mk {name : String} {properties : List (String × List Component)} {children : List Tree}
      (hproperties : ∀ property ∈ properties, ∀ component ∈ property.2, component.Faithful)
      (hchildren : ∀ child ∈ children, child.Faithful) : Faithful (.mk name properties children)

def Node.children : Node → List Node
  | mk _ _ children => children

/-- The tokens of a value have its strings and its cells. -/
structure SameValue (tokens : List Token) (components : List Component) : Prop where
  strings : stringValues tokens = Component.strings components
  cells : ∀ description, cellValues tokens description = .ok (Component.cellsOf components)

/-- The entry has the name, the strings and the cells of the property. -/
def SameEntry (entry : String × List Token) (property : String × List Component) : Prop :=
  entry.1 = property.1 ∧ SameValue entry.2 property.2

/-- The node has the names, the strings and the cells of the tree, in its order. -/
inductive Node.Same : Node → Tree → Prop
  | mk {name : String} {found : List (String × List Token)} {nodes : List Node}
      {properties : List (String × List Component)} {children : List Tree}
      (hproperties : List.Forall₂ SameEntry found properties)
      (hchildren : List.Forall₂ Node.Same nodes children) :
      Node.Same (.mk name found nodes) (.mk name properties children)

theorem Tree.induction {motive : Tree → Prop}
    (mk : ∀ name properties children, (∀ child ∈ children, motive child) →
      motive (.mk name properties children)) (tree : Tree) : motive tree :=
  @Tree.rec motive (fun children => ∀ child ∈ children, motive child)
    (fun name properties children h => mk name properties children h) (by simp)
    (fun _ _ h hrest => List.forall_mem_cons.mpr ⟨h, hrest⟩) tree

/-! ## Single values -/

/-- A property after its name. -/
def afterName (components : List Component) : List Token :=
  if components = [] then [⟨.symbol, ";"⟩]
  else ⟨.symbol, "="⟩ :: valueTokens components ++ [⟨.symbol, ";"⟩]

theorem decode_ne_punctuation (byte : UInt8) (hbyte : byte ∈ [0x3b, 0x3c, 0x3e])
    {text : List UInt8} (h : text ≠ [byte]) : decode text ≠ String.ofList [byteChar byte] := by
  have hall : ∀ byte ∈ ([0x3b, 0x3c, 0x3e] : List UInt8),
      Plain byte ∧ byteChar byte ∉ ['a', 'b', 'v', 'f', '0', 'x'] := by decide +kernel
  obtain ⟨hplain, hother⟩ := hall byte hbyte
  exact fun heq => h ((decode_eq_singleton hplain hother text).mp heq)

theorem Component.Faithful.balanced {component : Component} (h : component.Faithful) :
    component.Balanced := by
  cases component with
  | string text =>
      exact ⟨decode_ne_punctuation 0x3c (by decide) h.2.2.1,
        decode_ne_punctuation 0x3e (by decide) h.2.2.2⟩
  | cells values => trivial
  | bytes values => trivial

/-- Only a string of a value can read as a semicolon. -/
theorem component_token_cases {component : Component} {token : Token}
    (h : token ∈ component.lexemes.map Lexeme.token) :
    token.value ≠ ";" ∨ ∃ text, component = .string text ∧ token = ⟨.string, decode text⟩ := by
  cases component with
  | string text => exact .inr ⟨text, rfl, by simpa [Component.lexemes, Lexeme.token] using h⟩
  | cells values =>
      left
      simp only [Component.lexemes, List.mem_map, List.mem_append, List.mem_singleton] at h
      obtain ⟨lexeme, (rfl | ⟨value, _, rfl⟩) | rfl, rfl⟩ := h
      · decide
      · exact (hex_name 2 value.toNat).ne (by decide)
      · decide
  | bytes values =>
      left
      simp only [Component.lexemes, List.mem_map, List.mem_append, List.mem_singleton] at h
      obtain ⟨lexeme, (rfl | ⟨value, _, rfl⟩) | rfl, rfl⟩ := h
      · decide
      · exact (hex_byte_name value).ne (by decide)
      · decide

theorem mem_value_tokens {components : List Component} {token : Token}
    (h : token ∈ valueTokens components) :
    token = ⟨.atom, ","⟩ ∨ ∃ component ∈ components, token ∈ component.lexemes.map Lexeme.token := by
  cases components with
  | nil => cases h
  | cons component rest =>
      rw [value_tokens_cons, List.mem_append, restTokens, List.mem_flatMap] at h
      obtain hfirst | ⟨next, hnext, hmem⟩ := h
      · exact .inr ⟨component, List.mem_cons_self, hfirst⟩
      · obtain hcomma | hmem := List.mem_cons.mp hmem
        · exact .inl hcomma
        · exact .inr ⟨next, List.mem_cons_of_mem _ hnext, hmem⟩

theorem value_token_cases {components : List Component} {token : Token}
    (h : token ∈ valueTokens components) :
    token.value ≠ ";" ∨ ∃ text, Component.string text ∈ components ∧
      token = ⟨.string, decode text⟩ := by
  obtain rfl | ⟨component, hmem, htoken⟩ := mem_value_tokens h
  · exact .inl (by decide)
  · obtain hother | ⟨text, rfl, heq⟩ := component_token_cases htoken
    · exact .inl hother
    · exact .inr ⟨text, hmem, heq⟩

/-! ## Single properties -/

section

variable {tokens tail : List Token}

theorem peek_zero (value : String) (token : Token) (rest : List Token) :
    peek value 0 (token :: rest) = decide (token.value = value) := rfl

theorem take_value_cons {value : String} {token : Token} (h : token.value = value)
    (rest : List Token) : takeValue value (token :: rest) = .ok rest := by
  rw [takeValue, if_neg (by simpa using h)]

theorem split_semicolon (h : ∃ token ∈ tokens, token.value = ";") :
    ∃ before last rest, tokens = before ++ last :: rest ∧ last.value = ";" ∧
      ∀ token ∈ before, token.value ≠ ";" := by
  induction tokens with
  | nil => simp at h
  | cons token tokens ih =>
      by_cases hvalue : token.value = ";"
      · exact ⟨[], token, tokens, rfl, hvalue, by simp⟩
      · obtain ⟨before, last, rest, rfl, hlast, hbefore⟩ := ih (by simpa [hvalue] using h)
        exact ⟨token :: before, last, rest, rfl, hlast, List.forall_mem_cons.mpr ⟨hvalue, hbefore⟩⟩

theorem take_until_semicolon {before rest : List Token} {last : Token} (hlast : last.value = ";")
    (hbefore : ∀ token ∈ before, token.value ≠ ";") :
    takeUntilSemicolon (before ++ last :: rest) = .ok (before, last :: rest) := by
  induction before with
  | nil => rw [List.nil_append, takeUntilSemicolon, if_pos hlast]
  | cons token before ih =>
      obtain ⟨htoken, hlater⟩ := List.forall_mem_cons.mp hbefore
      rw [List.cons_append, takeUntilSemicolon, if_neg htoken, ih hlater]
      rfl

theorem parse_property_value {before rest : List Token} {last : Token} (hlast : last.value = ";")
    (hbefore : ∀ token ∈ before, token.value ≠ ";") :
    parseProperty (⟨.symbol, "="⟩ :: (before ++ last :: rest)) = .ok (before, rest) := by
  have hequals : takeValue "=" (⟨.symbol, "="⟩ :: (before ++ last :: rest)) =
      .ok (before ++ last :: rest) := take_value_cons rfl _
  rw [parseProperty, peek_zero, if_neg (by decide), hequals]
  simp only [bind, Except.bind, take_until_semicolon hlast hbefore, take_value_cons hlast]
  rfl

theorem parse_property_faithful {components : List Component}
    (h : ∀ component ∈ components, component.Faithful) (tail : List Token) :
    parseProperty (afterName components ++ tail) = .ok (valueTokens components, tail) := by
  rw [afterName]
  split
  · rename_i hempty
    subst hempty
    rfl
  · have hvalue : ∀ token ∈ valueTokens components, token.value ≠ ";" := by
      intro token htoken
      obtain hother | ⟨text, hmem, rfl⟩ := value_token_cases htoken
      · exact hother
      · exact decode_ne_punctuation 0x3b (by decide) (h _ hmem).2.1
    rw [List.append_assoc, List.cons_append]
    exact parse_property_value rfl hvalue

theorem same_value_faithful {components : List Component}
    (h : ∀ component ∈ components, component.Faithful) :
    SameValue (valueTokens components) components where
  strings := by
    rw [string_values_value, decoded_eq_iff]
    exact fun text hmem => (h _ hmem).1
  cells description := cell_values_value description fun c hc => (h c hc).balanced

theorem string_token_mem {components : List Component} {text : List UInt8}
    (h : Component.string text ∈ components) :
    (⟨.string, decode text⟩ : Token) ∈ valueTokens components := by
  cases components with
  | nil => cases h
  | cons component rest =>
      rw [value_tokens_cons, List.mem_append, restTokens, List.mem_flatMap]
      obtain rfl | hmem := List.mem_cons.mp h
      · exact .inl List.mem_cons_self
      · exact .inr ⟨_, hmem, by simp [Component.lexemes, Lexeme.token]⟩

/-- A value that ends early lacks a string. -/
theorem not_same_before {components : List Component} {before rest : List Token} {last : Token}
    (hsplit : valueTokens components = before ++ last :: rest) (hlast : last.value = ";") :
    ¬ SameValue before components := by
  intro hsame
  have hmem : last ∈ valueTokens components := by simp [hsplit]
  obtain hother | ⟨text, _, rfl⟩ := value_token_cases hmem
  · exact hother hlast
  · have hlength : (stringValues (valueTokens components)).length =
        (stringValues before).length := by
      rw [string_values_value, decoded_length, hsame.strings]
    rw [hsplit, string_values_append, List.length_append] at hlength
    simp [stringValues] at hlength

/-- A value that is parsed to its strings and its cells reads back. -/
theorem faithful_of_property {components : List Component} {value rest : List Token}
    (h : parseProperty (afterName components ++ tail) = .ok (value, rest))
    (hsame : SameValue value components) : ∀ component ∈ components, component.Faithful := by
  by_cases hempty : components = []
  · simp [hempty]
  rw [afterName, if_neg hempty, List.append_assoc, List.cons_append] at h
  by_cases hearly : ∃ token ∈ valueTokens components, token.value = ";"
  · obtain ⟨before, last, later, hsplit, hlast, hbefore⟩ := split_semicolon hearly
    rw [hsplit, List.append_assoc, List.cons_append, parse_property_value hlast hbefore] at h
    cases h
    exact absurd hsame (not_same_before hsplit hlast)
  · have hvalue : ∀ token ∈ valueTokens components, token.value ≠ ";" :=
      fun token htoken heq => hearly ⟨token, htoken, heq⟩
    rw [List.singleton_append, parse_property_value rfl hvalue] at h
    cases h
    have hplain : ∀ text, Component.string text ∈ components → ∀ byte ∈ text, Plain byte := by
      rw [← decoded_eq_iff, ← string_values_value]
      exact hsame.strings
    have hbalanced := balanced_of_value "" (hsame.cells "")
    intro component hmem
    cases component with
    | string text =>
        refine ⟨hplain text hmem, ?_, ?_, ?_⟩
        · rintro rfl
          exact hvalue _ (string_token_mem hmem) (by decide)
        · rintro rfl
          exact (hbalanced _ hmem).1 (by decide)
        · rintro rfl
          exact (hbalanced _ hmem).2 (by decide)
    | cells values => trivial
    | bytes values => trivial

end

/-! ## Turns of the parser -/

section

variable {path node name : String} {fuel : Nat} {tokens : List Token}
  {properties : List (String × List Token)} {children : List Node}

theorem parse_body_close (tail : List Token) :
    parseBody path node (fuel + 1) (⟨.symbol, "\x7d"⟩ :: ⟨.symbol, ";"⟩ :: tail) properties children =
      .ok (.mk node properties children, tail) := by
  rfl

theorem parse_body_property (hname : IsName name) (hcolon : peek ":" 0 tokens = false)
    (hopen : peek "\x7b" 0 tokens = false) (hnew : name ∉ properties.map Prod.fst) :
    parseBody path node (fuel + 1) (⟨.atom, name⟩ :: tokens) properties children =
      parseProperty tokens >>= fun (value, rest) =>
        parseBody path node fuel rest (properties ++ [(name, value)]) children := by
  have hclose : name ≠ "\x7d" := hname.ne (by decide)
  have hlabel : skipLabel (⟨.atom, name⟩ :: tokens) = .ok (⟨.atom, name⟩ :: tokens) := by
    rw [skipLabel, if_neg]
    exact fun h => Bool.false_ne_true (hcolon.symm.trans h)
  rw [parseBody, peek_zero, if_neg (by simpa using hclose), if_neg (by simp), hlabel]
  simp only [bind, Except.bind, take]
  rw [if_neg (by simp), hopen, if_neg (by simp), if_neg hnew]

theorem parse_body_child (hname : IsName name) :
    parseBody path node (fuel + 1) (⟨.atom, name⟩ :: ⟨.symbol, "\x7b"⟩ :: tokens) properties
        children =
      parseBody (rstrip '/' path ++ "/" ++ name) name fuel tokens [] [] >>= fun (child, rest) =>
        parseBody path node fuel rest properties (children ++ [child]) := by
  have hclose : name ≠ "\x7d" := hname.ne (by decide)
  have hlabel : skipLabel (⟨.atom, name⟩ :: ⟨.symbol, "\x7b"⟩ :: tokens) =
      .ok (⟨.atom, name⟩ :: ⟨.symbol, "\x7b"⟩ :: tokens) := rfl
  rw [parseBody, peek_zero, if_neg (by simpa using hclose), if_neg (by simp), hlabel]
  simp only [bind, Except.bind, take]
  rw [if_neg (by simp), peek_zero, if_pos (by decide)]
  rfl

/-- A turn closes the node, or adds a child or a property to it. -/
theorem parse_body_cases {result : Node × List Token}
    (h : parseBody path node (fuel + 1) tokens properties children = .ok result) :
    result.1 = .mk node properties children ∨
      (∃ rest child, parseBody path node fuel rest properties (children ++ [child]) = .ok result) ∨
      ∃ rest entry, parseBody path node fuel rest (properties ++ [entry]) children = .ok result := by
  rw [parseBody] at h
  split at h
  · obtain ⟨_, _, h⟩ := Text.bind_ok_iff.mp h
    obtain ⟨_, _, h⟩ := Text.bind_ok_iff.mp h
    cases h
    exact .inl rfl
  split at h
  · cases h
  obtain ⟨_, _, h⟩ := Text.bind_ok_iff.mp h
  obtain ⟨⟨token, after⟩, _, h⟩ := Text.bind_ok_iff.mp h
  dsimp only at h
  split at h
  · cases h
  split at h
  · obtain ⟨_, _, h⟩ := Text.bind_ok_iff.mp h
    obtain ⟨⟨child, rest⟩, _, h⟩ := Text.bind_ok_iff.mp h
    exact .inr (.inl ⟨rest, child, h⟩)
  split at h
  · cases h
  obtain ⟨⟨value, rest⟩, _, h⟩ := Text.bind_ok_iff.mp h
  exact .inr (.inr ⟨rest, _, h⟩)

/-- The parser only adds to a node. -/
theorem parse_body_extends {result : Node × List Token}
    (h : parseBody path node fuel tokens properties children = .ok result) :
    ∃ entries nodes, result.1 = .mk node (properties ++ entries) (children ++ nodes) := by
  induction fuel generalizing tokens properties children with
  | zero => cases h
  | succ fuel ih =>
      obtain hclose | ⟨rest, child, hchild⟩ | ⟨rest, entry, hentry⟩ := parse_body_cases h
      · exact ⟨[], [], by simpa using hclose⟩
      · obtain ⟨entries, nodes, heq⟩ := ih hchild
        exact ⟨entries, child :: nodes, by simpa using heq⟩
      · obtain ⟨entries, nodes, heq⟩ := ih hentry
        exact ⟨entry :: entries, nodes, by simpa using heq⟩

end

/-! ## Printed nodes -/

/-- The tokens of a property. -/
def entryTokens (property : String × List Component) : List Token :=
  ⟨.atom, property.1⟩ :: afterName property.2

mutual

/-- The tokens of a node after its opening brace. -/
def bodyTokens : Tree → List Token
  | .mk _ properties children =>
      properties.flatMap entryTokens ++ (childTokens children ++
        [⟨.symbol, "\x7d"⟩, ⟨.symbol, ";"⟩])

/-- The tokens of the nodes in a node. -/
def childTokens : List Tree → List Token
  | [] => []
  | .mk name properties children :: rest =>
      ⟨.atom, name⟩ :: ⟨.symbol, "\x7b"⟩ :: (bodyTokens (.mk name properties children) ++
        childTokens rest)

end

theorem child_tokens_cons (child : Tree) (rest : List Tree) :
    childTokens (child :: rest) =
      ⟨.atom, child.name⟩ :: ⟨.symbol, "\x7b"⟩ :: (bodyTokens child ++ childTokens rest) := by
  cases child
  rw [childTokens, Tree.name]

theorem property_tokens (property : String × List Component) :
    (propertyLexemes property).map Lexeme.token = entryTokens property := by
  unfold propertyLexemes entryTokens afterName
  split <;> simp [Lexeme.token, valueTokens]

theorem node_tokens (tree : Tree) :
    tree.lexemes.map Lexeme.token = ⟨.symbol, "\x7b"⟩ :: bodyTokens tree := by
  induction tree using Tree.induction with
  | mk name properties children ih =>
      have hproperties : (properties.flatMap propertyLexemes).map Lexeme.token =
          properties.flatMap entryTokens := by
        rw [List.map_flatMap]
        simp only [property_tokens]
      have hchildren : (Tree.childLexemes children).map Lexeme.token = childTokens children := by
        induction children with
        | nil => rfl
        | cons child rest ihr =>
            obtain ⟨hchild, hrest⟩ := List.forall_mem_cons.mp ih
            cases child with
            | mk childName childProperties grandchildren =>
                rw [Tree.childLexemes, childTokens, List.map_append, List.map_append, hchild,
                  ihr hrest]
                simp [Lexeme.token]
      rw [Tree.lexemes, bodyTokens, List.map_append, List.map_append, List.map_append, hproperties,
        hchildren]
      simp [Lexeme.token]

section

variable (path node : String) {tail : List Token}

theorem parse_body_entry {property : String × List Component} (hname : IsName property.1)
    {fuel : Nat} {properties : List (String × List Token)} {children : List Node}
    (hnew : property.1 ∉ properties.map Prod.fst) (tail : List Token) :
    parseBody path node (fuel + 1) (entryTokens property ++ tail) properties children =
      parseProperty (afterName property.2 ++ tail) >>= fun (value, rest) =>
        parseBody path node fuel rest (properties ++ [(property.1, value)]) children := by
  have hpeek : ∀ mark ∈ [":", "\x7b"], peek mark 0 (afterName property.2 ++ tail) = false := by
    unfold afterName
    split
    · intro mark hmark
      rw [List.singleton_append, peek_zero]
      revert mark
      decide
    · intro mark hmark
      rw [List.cons_append, List.cons_append, peek_zero]
      revert mark
      decide
  exact parse_body_property hname (hpeek ":" (by decide)) (hpeek "\x7b" (by decide)) hnew

/-- The entries of faithful properties are parsed one after another. -/
theorem parse_body_properties {wanted : List (String × List Component)}
    (hnames : ∀ property ∈ wanted, IsName property.1)
    (hfaithful : ∀ property ∈ wanted, ∀ component ∈ property.2, component.Faithful)
    {fuel : Nat} (properties : List (String × List Token)) (children : List Node)
    (hdistinct : (properties.map Prod.fst ++ wanted.map Prod.fst).Nodup)
    (hfuel : (wanted.flatMap entryTokens ++ tail).length < fuel) :
    ∃ left entries, tail.length < left ∧ List.Forall₂ SameEntry entries wanted ∧
      parseBody path node fuel (wanted.flatMap entryTokens ++ tail) properties children =
        parseBody path node left tail (properties ++ entries) children := by
  induction wanted generalizing fuel properties with
  | nil => exact ⟨fuel, [], hfuel, .nil, by simp⟩
  | cons property wanted ih =>
      obtain ⟨hname, hlaterNames⟩ := List.forall_mem_cons.mp hnames
      obtain ⟨hvalue, hlaterFaithful⟩ := List.forall_mem_cons.mp hfaithful
      cases fuel with
      | zero => omega
      | succ fuel =>
          have hnew : property.1 ∉ properties.map Prod.fst := by
            intro hmem
            exact (List.nodup_append.mp hdistinct).2.2 _ hmem _ (by simp) rfl
          have hlater : ((properties ++ [(property.1, valueTokens property.2)]).map Prod.fst ++
              wanted.map Prod.fst).Nodup := by
            simpa using hdistinct
          have hless : (wanted.flatMap entryTokens ++ tail).length < fuel := by
            simp only [List.flatMap_cons, entryTokens, List.cons_append, List.length_cons,
              List.length_append] at hfuel ⊢
            omega
          obtain ⟨left, entries, hleft, hsame, hparse⟩ :=
            ih hlaterNames hlaterFaithful _ hlater hless
          refine ⟨left, (property.1, valueTokens property.2) :: entries, hleft,
            .cons ⟨rfl, same_value_faithful hvalue⟩ hsame, ?_⟩
          rw [List.flatMap_cons, List.append_assoc, parse_body_entry path node hname hnew,
            parse_property_faithful hvalue]
          simpa [bind, Except.bind] using hparse

/-- The tree reads back in every place. -/
def Parses (tree : Tree) : Prop :=
  ∀ (path : String) (fuel : Nat) (tail : List Token),
    (bodyTokens tree ++ tail).length < fuel →
    ∃ node : Node, node.Same tree ∧
      parseBody path tree.name fuel (bodyTokens tree ++ tail) [] [] = .ok (node, tail)

/-- The nodes in a node are parsed one after another. -/
theorem parse_body_children {wanted : List Tree} (hnames : ∀ child ∈ wanted, IsName child.name)
    (hparses : ∀ child ∈ wanted, Parses child) {fuel : Nat}
    (properties : List (String × List Token)) (children : List Node)
    (hfuel : (childTokens wanted ++ tail).length < fuel) :
    ∃ left nodes, tail.length < left ∧ List.Forall₂ Node.Same nodes wanted ∧
      parseBody path node fuel (childTokens wanted ++ tail) properties children =
        parseBody path node left tail properties (children ++ nodes) := by
  induction wanted generalizing fuel children with
  | nil => exact ⟨fuel, [], hfuel, .nil, by simp [childTokens]⟩
  | cons child wanted ih =>
      obtain ⟨hname, hlaterNames⟩ := List.forall_mem_cons.mp hnames
      obtain ⟨hchild, hlaterParses⟩ := List.forall_mem_cons.mp hparses
      cases fuel with
      | zero => omega
      | succ fuel =>
          rw [child_tokens_cons] at hfuel ⊢
          simp only [List.cons_append, List.append_assoc, List.length_cons] at hfuel
          have hless : (childTokens wanted ++ tail).length < fuel := by
            simp only [List.length_append] at hfuel ⊢
            omega
          obtain ⟨found, hsame, hfound⟩ := 
            hchild (rstrip '/' path ++ "/" ++ child.name) fuel (childTokens wanted ++ tail) (by omega)
          obtain ⟨left, nodes, hleft, hnodes, hparse⟩ :=
            ih hlaterNames hlaterParses (children ++ [found]) hless
          refine ⟨left, found :: nodes, hleft, .cons hsame hnodes, ?_⟩
          simp only [List.cons_append, List.append_assoc]
          rw [parse_body_child hname, hfound]
          simpa [bind, Except.bind] using hparse

/-- A faithful node is parsed to the same node, and what follows it is left. -/
theorem parse_body_tree {tree : Tree} (hwell : tree.WellFormed) (hfaithful : tree.Faithful) :
    Parses tree := by
  induction tree using Tree.induction with
  | mk name properties children ih =>
      intro path fuel tail hfuel
      obtain ⟨hnames, hdistinct, hchildNames, hchildren⟩ := hwell
      obtain ⟨hvalues, hfaithfulChildren⟩ := hfaithful
      rw [bodyTokens] at hfuel ⊢
      simp only [List.append_assoc] at hfuel ⊢
      obtain ⟨left, entries, hleft, hentries, hproperties⟩ :=
        parse_body_properties path name hnames hvalues [] [] (by simpa using hdistinct) hfuel
      obtain ⟨last, nodes, hlast, hnodes, hparse⟩ :=
        parse_body_children path name hchildNames
          (fun child hmem => ih child hmem (hchildren child hmem) (hfaithfulChildren child hmem))
          ([] ++ entries) [] hleft
      refine ⟨.mk name entries nodes, .mk hentries hnodes, ?_⟩
      rw [Tree.name, hproperties, hparse]
      cases last with
      | zero => omega
      | succ last => exact parse_body_close tail

/-! ## From the parsed node back -/

theorem forall₂_append_cons {α β : Type} {r : α → β → Prop} {before after : List α}
    {others later : List β} {x : α} {y : β} (hlength : before.length = others.length)
    (h : List.Forall₂ r (before ++ x :: after) (others ++ y :: later)) : r x y := by
  induction before generalizing others with
  | nil =>
      cases others with
      | nil => exact (List.forall₂_cons.mp h).1
      | cons => cases hlength
  | cons first before ih =>
      cases others with
      | nil => cases hlength
      | cons other others => exact ih (Nat.succ.inj hlength) (List.forall₂_cons.mp h).2

theorem faithful_of_properties {wanted : List (String × List Component)}
    (others : List (String × List Component)) (hnames : ∀ property ∈ wanted, IsName property.1)
    {fuel : Nat} {properties : List (String × List Token)} {children : List Node}
    (hdistinct : (properties.map Prod.fst ++ wanted.map Prod.fst).Nodup)
    (hlength : properties.length = others.length) {result : Node × List Token}
    (h : parseBody path node fuel (wanted.flatMap entryTokens ++ tail) properties children =
      .ok result)
    (hsame : List.Forall₂ SameEntry result.1.properties (others ++ wanted)) :
    ∀ property ∈ wanted, ∀ component ∈ property.2, component.Faithful := by
  induction wanted generalizing fuel properties others with
  | nil => simp
  | cons property wanted ih =>
      obtain ⟨hname, hlaterNames⟩ := List.forall_mem_cons.mp hnames
      cases fuel with
      | zero => cases h
      | succ fuel =>
          have hnew : property.1 ∉ properties.map Prod.fst := by
            intro hmem
            exact (List.nodup_append.mp hdistinct).2.2 _ hmem _ (by simp) rfl
          rw [List.flatMap_cons, List.append_assoc, parse_body_entry path node hname hnew] at h
          obtain ⟨⟨value, rest⟩, hvalue, h⟩ := Text.bind_ok_iff.mp h
          have hproperty : ∀ component ∈ property.2, component.Faithful := by
            obtain ⟨entries, nodes, hnode⟩ := parse_body_extends h
            rw [hnode, Node.properties, List.append_assoc, List.singleton_append] at hsame
            exact faithful_of_property hvalue (forall₂_append_cons hlength hsame).2
          rw [parse_property_faithful hproperty] at hvalue
          cases hvalue
          refine List.forall_mem_cons.mpr ⟨hproperty, ?_⟩
          refine ih (others ++ [property]) hlaterNames (by simpa using hdistinct)
            (by simpa using hlength) h ?_
          simpa using hsame

/-- A node that is parsed to the same node reads back. -/
def Recovers (tree : Tree) : Prop :=
  ∀ (path : String) (fuel : Nat) (tail : List Token) (result : Node × List Token),
    (bodyTokens tree ++ tail).length < fuel →
    parseBody path tree.name fuel (bodyTokens tree ++ tail) [] [] = .ok result →
    result.1.Same tree → tree.Faithful

theorem faithful_of_children {wanted : List Tree} (others : List Tree)
    (hnames : ∀ child ∈ wanted, IsName child.name)
    (hparses : ∀ child ∈ wanted, child.Faithful → Parses child)
    (hrecovers : ∀ child ∈ wanted, Recovers child) {fuel : Nat}
    {properties : List (String × List Token)} {children : List Node}
    (hlength : children.length = others.length) {result : Node × List Token}
    (hfuel : (childTokens wanted ++ tail).length < fuel)
    (h : parseBody path node fuel (childTokens wanted ++ tail) properties children = .ok result)
    (hsame : List.Forall₂ Node.Same result.1.children (others ++ wanted)) :
    ∀ child ∈ wanted, child.Faithful := by
  induction wanted generalizing fuel children others with
  | nil => simp
  | cons child wanted ih =>
      obtain ⟨hname, hlaterNames⟩ := List.forall_mem_cons.mp hnames
      obtain ⟨hparse, hlaterParses⟩ := List.forall_mem_cons.mp hparses
      obtain ⟨hrecover, hlaterRecovers⟩ := List.forall_mem_cons.mp hrecovers
      cases fuel with
      | zero => cases h
      | succ fuel =>
          rw [child_tokens_cons] at h hfuel
          simp only [List.cons_append, List.append_assoc, List.length_cons] at h hfuel
          rw [parse_body_child hname] at h
          obtain ⟨⟨found, rest⟩, hfound, h⟩ := Text.bind_ok_iff.mp h
          have hchild : child.Faithful := by
            obtain ⟨entries, nodes, hnode⟩ := parse_body_extends h
            rw [hnode, Node.children, List.append_assoc, List.singleton_append] at hsame
            exact hrecover _ _ _ _ (by omega) hfound (forall₂_append_cons hlength hsame)
          obtain ⟨_, _, hagain⟩ := hparse hchild (rstrip '/' path ++ "/" ++ child.name) fuel
            (childTokens wanted ++ tail) (by omega)
          rw [hagain] at hfound
          cases hfound
          refine List.forall_mem_cons.mpr ⟨hchild, ?_⟩
          refine ih (others ++ [child]) hlaterNames hlaterParses hlaterRecovers
            (by simpa using hlength) ?_ h (by simpa using hsame)
          simp only [List.length_append] at hfuel ⊢
          omega

/-- A node that is parsed to the same node reads back. -/
theorem recovers_of_well_formed {tree : Tree} (hwell : tree.WellFormed) : Recovers tree := by
  induction tree using Tree.induction with
  | mk name properties children ih =>
      intro path fuel tail result hfuel h hsame
      obtain ⟨hnames, hdistinct, hchildNames, hchildren⟩ := hwell
      obtain ⟨node, rest⟩ := result
      cases hsame with
      | mk hentries hnodes =>
          rw [bodyTokens] at hfuel h
          simp only [List.append_assoc] at hfuel h
          have hvalues := faithful_of_properties path name [] hnames (by simpa using hdistinct) rfl h
            hentries
          obtain ⟨left, entries, hleft, _, hproperties⟩ :=
            parse_body_properties path name hnames hvalues [] [] (by simpa using hdistinct) hfuel
          rw [Tree.name, hproperties] at h
          exact .mk hvalues (faithful_of_children path name [] hchildNames
            (fun child hmem => parse_body_tree (hchildren child hmem))
            (fun child hmem => ih child hmem (hchildren child hmem)) rfl hleft h hnodes)

end

/-! ## Sources -/

theorem component_proper {component : Component} {lexeme : Lexeme}
    (h : lexeme ∈ component.lexemes) : lexeme.Proper := by
  cases component with
  | string text =>
      cases List.mem_singleton.mp h
      trivial
  | cells values =>
      simp only [Component.lexemes, List.mem_map, List.mem_append, List.mem_singleton] at h
      obtain (rfl | ⟨value, _, rfl⟩) | rfl := h
      · exact (by decide : isSymbol '<' = true)
      · exact (hex_name 2 value.toNat).isAtom
      · exact (by decide : isSymbol '>' = true)
  | bytes values =>
      simp only [Component.lexemes, List.mem_map, List.mem_append, List.mem_singleton] at h
      obtain (rfl | ⟨value, _, rfl⟩) | rfl := h
      · exact (by decide : isSymbol '[' = true)
      · exact (hex_byte_name value).isAtom
      · exact (by decide : isSymbol ']' = true)

theorem value_proper {components : List Component} {lexeme : Lexeme}
    (h : lexeme ∈ valueLexemes components) : lexeme.Proper := by
  induction components with
  | nil => cases h
  | cons component rest ih =>
      cases rest with
      | nil => exact component_proper h
      | cons next rest =>
          rw [valueLexemes, List.mem_append, List.mem_append, List.mem_singleton] at h
          · obtain (hcomponent | rfl) | hrest := h
            · exact component_proper hcomponent
            · exact (by decide : IsName ",").isAtom
            · exact ih hrest
          · exact List.cons_ne_nil next rest

theorem property_proper {property : String × List Component} (hname : IsName property.1)
    {lexeme : Lexeme} (h : lexeme ∈ propertyLexemes property) : lexeme.Proper := by
  have hsemicolon : (Lexeme.symbol ';').Proper := (by decide : isSymbol ';' = true)
  unfold propertyLexemes at h
  split at h
  · simp only [List.mem_cons, List.not_mem_nil, or_false] at h
    obtain rfl | rfl := h
    · exact hname.isAtom
    · exact hsemicolon
  · simp only [List.mem_cons, List.mem_append, List.not_mem_nil, or_false] at h
    obtain ((rfl | rfl) | hvalue) | rfl := h
    · exact hname.isAtom
    · exact (by decide : isSymbol '=' = true)
    · exact value_proper hvalue
    · exact hsemicolon

theorem child_lexemes_cons (child : Tree) (rest : List Tree) :
    Tree.childLexemes (child :: rest) =
      [.atom child.name] ++ child.lexemes ++ Tree.childLexemes rest := by
  cases child
  rw [Tree.childLexemes, Tree.name]

theorem node_proper {tree : Tree} (hwell : tree.WellFormed) :
    ∀ lexeme ∈ tree.lexemes, lexeme.Proper := by
  induction tree using Tree.induction with
  | mk name properties children ih =>
      intro lexeme h
      obtain ⟨hnames, _, hchildNames, hchildren⟩ := hwell
      have hall : ∀ lexeme ∈ Tree.childLexemes children, lexeme.Proper := by
        clear h
        induction children with
        | nil => exact fun lexeme h => by cases h
        | cons child rest ihr =>
            obtain ⟨hchild, hlater⟩ := List.forall_mem_cons.mp ih
            obtain ⟨hname, hlaterNames⟩ := List.forall_mem_cons.mp hchildNames
            obtain ⟨hchildWell, hlaterWell⟩ := List.forall_mem_cons.mp hchildren
            intro lexeme h
            rw [child_lexemes_cons, List.mem_append, List.mem_append, List.mem_singleton] at h
            obtain (rfl | hinner) | hrest := h
            · exact hname.isAtom
            · exact hchild hchildWell lexeme hinner
            · exact ihr hlater hlaterNames hlaterWell lexeme hrest
      rw [Tree.lexemes] at h
      simp only [List.mem_append, List.mem_flatMap, List.mem_cons, List.not_mem_nil,
        or_false] at h
      obtain ((rfl | ⟨property, hproperty, hmem⟩) | hmem) | rfl | rfl := h
      · exact (by decide : isSymbol '{' = true)
      · exact property_proper (hnames property hproperty) hmem
      · exact hall lexeme hmem
      · exact (by decide : isSymbol '}' = true)
      · exact (by decide : isSymbol ';' = true)

theorem document_proper {root : Tree} (hwell : root.WellFormed)
    (reserves : List (UInt64 × UInt64)) : ∀ lexeme ∈ root.document reserves, lexeme.Proper := by
  have hsemicolon : (Lexeme.symbol ';').Proper := (by decide : isSymbol ';' = true)
  intro lexeme h
  simp only [Tree.document, List.mem_append, List.mem_flatMap, List.mem_cons, List.not_mem_nil,
    or_false] at h
  obtain (((rfl | rfl) | ⟨reserve, _, rfl | rfl | rfl | rfl⟩) | rfl) | hroot := h
  · exact (by decide : IsAtom "/dts-v1/".toList)
  · exact hsemicolon
  · exact (by decide : IsAtom "/memreserve/".toList)
  · exact (hex_name 16 _).isAtom
  · exact (hex_name 16 _).isAtom
  · exact hsemicolon
  · exact (by decide : IsAtom "/".toList)
  · exact node_proper hwell lexeme hroot

theorem find_root_append {header tokens : List Token}
    (h : ∀ token ∈ header, token.value ≠ "/") : findRoot (header ++ tokens) = findRoot tokens := by
  induction header with
  | nil => rfl
  | cons token header ih =>
      obtain ⟨htoken, hlater⟩ := List.forall_mem_cons.mp h
      rw [List.cons_append, findRoot, if_neg (by simp [htoken]), ih hlater]

/-- What stands before the root. -/
def header (reserves : List (UInt64 × UInt64)) : List Lexeme :=
  [.atom "/dts-v1/", .symbol ';'] ++
    reserves.flatMap (fun (address, size) => [.atom "/memreserve/",
      .atom (String.ofList (['0', 'x'] ++ Text.paddedHex 16 address.toNat)),
      .atom (String.ofList (['0', 'x'] ++ Text.paddedHex 16 size.toNat)), .symbol ';'])

theorem header_values (reserves : List (UInt64 × UInt64)) :
    ∀ token ∈ (header reserves).map Lexeme.token, token.value ≠ "/" := by
  intro token htoken
  simp only [header, List.mem_map, List.mem_append, List.mem_flatMap, List.mem_cons,
    List.not_mem_nil, or_false] at htoken
  obtain ⟨lexeme, (rfl | rfl) | ⟨reserve, _, rfl | rfl | rfl | rfl⟩, rfl⟩ := htoken
  · decide
  · decide
  · decide
  · exact (hex_name 16 _).ne (by decide)
  · exact (hex_name 16 _).ne (by decide)
  · decide

/-- The parser finds the root after the reservations. -/
theorem parse_document (reserves : List (UInt64 × UInt64)) (root : Tree) :
    parse ((root.document reserves).map Lexeme.token) =
      parseBody "/" "/" ((bodyTokens root).length + 1) (bodyTokens root) [] [] >>=
        fun (node, rest) => if rest ≠ [] then .error .unexpectedData else .ok node := by
  have hdocument : (root.document reserves).map Lexeme.token =
      (header reserves).map Lexeme.token ++ ⟨.atom, "/"⟩ :: ⟨.symbol, "\x7b"⟩ :: bodyTokens root := by
    rw [Tree.document, ← header, List.map_append, List.map_append, node_tokens, List.append_assoc]
    rfl
  have hroot : takeValue "/" (⟨.atom, "/"⟩ :: ⟨.symbol, "\x7b"⟩ :: bodyTokens root) =
      .ok (⟨.symbol, "\x7b"⟩ :: bodyTokens root) := take_value_cons rfl _
  have hopen : takeValue "\x7b" (⟨.symbol, "\x7b"⟩ :: bodyTokens root) = .ok (bodyTokens root) :=
    take_value_cons rfl _
  rw [parse, hdocument, find_root_append (header_values reserves), findRoot, if_pos ⟨rfl, rfl⟩]
  simp only [bind, Except.bind, hroot, hopen]

/-- The source of a tree parses to the same names, strings and cells exactly when every string
is plain and none is punctuation. -/
theorem parse_printed_iff {root : Tree} (hname : root.name = "/") (hwell : root.WellFormed)
    (reserves : List (UInt64 × UInt64)) {gaps : List (List Char)}
    (hfits : Fits (root.document reserves) gaps) :
    (∃ node, parseDts (layOut (root.document reserves) gaps) = .ok node ∧ node.Same root) ↔
      root.Faithful := by
  have htokens := tokenize_lay_out hfits (document_proper hwell reserves)
  have hfuel : (bodyTokens root ++ []).length < (bodyTokens root).length + 1 := by simp
  rw [parseDts, htokens]
  simp only [bind, Except.bind, parse_document]
  constructor
  · rintro ⟨node, hparse, hsame⟩
    obtain ⟨⟨found, rest⟩, hbody, hlast⟩ := Text.bind_ok_iff.mp hparse
    dsimp only at hlast
    split at hlast
    · cases hlast
    cases hlast
    refine recovers_of_well_formed hwell "/" _ [] (node, rest) hfuel ?_ hsame
    rw [hname, List.append_nil]
    exact hbody
  · intro hfaithful
    obtain ⟨node, hsame, hparse⟩ := parse_body_tree hwell hfaithful "/" _ [] hfuel
    rw [hname, List.append_nil] at hparse
    refine ⟨node, ?_, hsame⟩
    rw [hparse]
    rfl

/-- A reservation, a nested node, a string list and a cell list, with a comma inside a string. -/
theorem parse_printed_reserved :
    (∃ node, parseDts (layOut (Tree.document [(0x80000000, 0x1000)] (.mk "/"
        [("compatible", [.string [0x61, 0x2c, 0x62], .string [0x7b, 0x22, 0x5c]])]
        [.mk "memory@0" [("reg", [.cells [0, 256], .cells [7]]), ("okay", [])] []]))
        ([[], [], ['\n'], [' '], ['\t', ' ']] ++ List.replicate 20 [' '])) = .ok node ∧
      node.Same (.mk "/"
        [("compatible", [.string [0x61, 0x2c, 0x62], .string [0x7b, 0x22, 0x5c]])]
        [.mk "memory@0" [("reg", [.cells [0, 256], .cells [7]]), ("okay", [])] []])) ↔
      Tree.Faithful (.mk "/"
        [("compatible", [.string [0x61, 0x2c, 0x62], .string [0x7b, 0x22, 0x5c]])]
        [.mk "memory@0" [("reg", [.cells [0, 256], .cells [7]]), ("okay", [])] []]) := by
  refine parse_printed_iff rfl (.mk (by decide) (by decide) ?_ ?_) _ ?_
  · simp only [List.mem_singleton, forall_eq]
    decide
  · simp only [List.mem_singleton, forall_eq]
    exact .mk (by decide) (by decide) (by simp) (by simp)
  · simp [Fits, Tree.document, Tree.lexemes, Tree.childLexemes, propertyLexemes, valueLexemes,
      Component.lexemes, isSpace, List.replicate]

/-- The value of a string `;` ends before it, and the parser takes the semicolon that follows
for a name. -/
theorem printed_semicolon :
    Tree.WellFormed (.mk "/" [("model", [.string [0x3b]])] []) ∧
      Fits (Tree.document [] (.mk "/" [("model", [.string [0x3b]])] [])) [] ∧
      parseDts (layOut (Tree.document [] (.mk "/" [("model", [.string [0x3b]])] [])) []) =
        .error (.unexpectedToken ";" "/") := by
  refine ⟨.mk (by decide) (by decide) (by simp) (by simp), ?_, ?_⟩
  · simp [Fits, Tree.document, Tree.lexemes, Tree.childLexemes, propertyLexemes, valueLexemes,
      Component.lexemes]
  · rfl

end NanoKvm.DeviceTree
