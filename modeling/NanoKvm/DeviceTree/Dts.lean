import NanoKvm.DeviceTree.Tree
import NanoKvm.Text.Numerals

/-!
# Device tree sources

`tokenize` and `parse_dts` of `verify-c906l-leases.py`, and the source that dtc prints for a
tree. The parser's loops take a fuel, which `parseDts` starts with one more than the tokens. A
tree of dtc keeps the bytes of its strings; `Tree.document` is its source as a list of lexemes,
and `layOut` puts any white space between them.
-/

namespace NanoKvm.DeviceTree

/-! ## The tokens -/

/-- What the tokenizer and the parser raise. -/
inductive DtsError where
  | unterminatedComment
  | unterminatedEscape
  | unterminatedString
  | cannotTokenize
  | unexpectedEnd
  | expected (value found : String)
  | noRoot
  | unexpectedData
  | unterminatedNode (path : String)
  | unexpectedToken (value path : String)
  | duplicateProperty (name path : String)
  | outOfFuel
  deriving DecidableEq, Repr

/-- `str.isspace` of one character. -/
def isSpace (character : Char) : Bool :=
  let code := character.toNat
  decide (0x09 ≤ code ∧ code ≤ 0x0d ∨ 0x1c ≤ code ∧ code ≤ 0x20 ∨ code = 0x85 ∨ code = 0xa0 ∨
    code = 0x1680 ∨ 0x2000 ≤ code ∧ code ≤ 0x200a ∨ code = 0x2028 ∨ code = 0x2029 ∨
    code = 0x202f ∨ code = 0x205f ∨ code = 0x3000)

/-- A symbol. -/
def isSymbol (character : Char) : Bool :=
  ['{', '}', '=', ';', '<', '>', '[', ']', ':'].contains character

/-- A comment begins. -/
def startsComment : List Char → Bool
  | '/' :: '/' :: _ => true
  | '/' :: '*' :: _ => true
  | _ => false

/-- The rest after a block comment. -/
def skipBlock : List Char → Option (List Char)
  | [] => none
  | '*' :: '/' :: rest => some rest
  | _ :: rest => skipBlock rest

/-- The character after a backslash. -/
def unescape (character : Char) : Char :=
  if character = 'n' then '\n' else if character = 'r' then '\r'
  else if character = 't' then '\t' else character

/-- The value of a string and the rest after its closing quote. -/
def readString : List Char → Except DtsError (List Char × List Char)
  | [] => .error .unterminatedString
  | '"' :: rest => .ok ([], rest)
  | ['\\'] => .error .unterminatedEscape
  | '\\' :: character :: rest =>
      (readString rest).map fun (value, rest) => (unescape character :: value, rest)
  | character :: rest =>
      (readString rest).map fun (value, rest) => (character :: value, rest)

/-- The characters of an atom and the rest. -/
def readAtom : List Char → List Char × List Char
  | [] => ([], [])
  | character :: rest =>
      if isSpace character ∨ character = '"' ∨ isSymbol character ∨
          startsComment (character :: rest) then ([], character :: rest)
      else
        let (atom, rest) := readAtom rest
        (character :: atom, rest)

/-- A turn of the loop of `tokenize`. -/
def nextToken : List Char → Except DtsError (Option Token × List Char)
  | [] => .ok (none, [])
  | character :: rest =>
      if isSpace character then .ok (none, rest)
      else if (character :: rest).take 2 = ['/', '/'] then
        .ok (none, (rest.dropWhile (· ≠ '\n')).drop 1)
      else if (character :: rest).take 2 = ['/', '*'] then
        match skipBlock (rest.drop 1) with
        | none => .error .unterminatedComment
        | some rest => .ok (none, rest)
      else if character = '"' then
        (readString rest).map fun (value, rest) => (some ⟨.string, String.ofList value⟩, rest)
      else if isSymbol character then
        .ok (some ⟨.symbol, String.ofList [character]⟩, rest)
      else
        let (atom, after) := readAtom (character :: rest)
        if atom = [] then .error .cannotTokenize
        else .ok (some ⟨.atom, String.ofList atom⟩, after)

/-- The loop of `tokenize`. Every turn takes a character. -/
def tokenizeFrom : Nat → List Char → Except DtsError (List Token)
  | _, [] => .ok []
  | 0, _ => .error .outOfFuel
  | fuel + 1, text => do
      let (token, rest) ← nextToken text
      return token.toList ++ (← tokenizeFrom fuel rest)

/-- `tokenize` -/
def tokenize (source : List Char) : Except DtsError (List Token) :=
  tokenizeFrom source.length source

/-! ## The parser -/

/-- `Parser.peek` -/
def peek (value : String) (offset : Nat) (tokens : List Token) : Bool :=
  match tokens[offset]? with
  | none => false
  | some token => token.value = value

/-- `Parser.take` of any token. -/
def take : List Token → Except DtsError (Token × List Token)
  | [] => .error .unexpectedEnd
  | token :: rest => .ok (token, rest)

/-- `Parser.take` of a value. -/
def takeValue (value : String) : List Token → Except DtsError (List Token)
  | [] => .error .unexpectedEnd
  | token :: rest =>
      if token.value ≠ value then .error (.expected value token.value) else .ok rest

/-- The tokens up to a semicolon. -/
def takeUntilSemicolon : List Token → Except DtsError (List Token × List Token)
  | [] => .error .unexpectedEnd
  | token :: rest =>
      if token.value = ";" then .ok ([], token :: rest)
      else (takeUntilSemicolon rest).map fun (value, rest) => (token :: value, rest)

/-- A label in front of a name. -/
def skipLabel (tokens : List Token) : Except DtsError (List Token) :=
  if peek ":" 1 tokens then do
    let (_, rest) ← take tokens
    takeValue ":" rest
  else .ok tokens

/-- The value of a property, after its name. -/
def parseProperty (tokens : List Token) : Except DtsError (List Token × List Token) :=
  if peek ";" 0 tokens then do
    let rest ← takeValue ";" tokens
    return ([], rest)
  else do
    let rest ← takeValue "=" tokens
    let (value, rest) ← takeUntilSemicolon rest
    let rest ← takeValue ";" rest
    return (value, rest)

/-- The loop of `Parser.parse_node`, with the properties and the children so far. -/
def parseBody (path name : String) (fuel : Nat) (tokens : List Token)
    (properties : List (String × List Token)) (children : List Node) :
    Except DtsError (Node × List Token) :=
  match fuel with
  | 0 => .error .outOfFuel
  | fuel + 1 =>
      if peek "\x7d" 0 tokens then do
        let rest ← takeValue "\x7d" tokens
        let rest ← takeValue ";" rest
        return (.mk name properties children, rest)
      else if tokens = [] then .error (.unterminatedNode path)
      else do
        let tokens ← skipLabel tokens
        let (token, tokens) ← take tokens
        if token.kind ≠ .atom then .error (.unexpectedToken token.value path)
        else if peek "\x7b" 0 tokens then do
          let rest ← takeValue "\x7b" tokens
          let (child, rest) ←
            parseBody (rstrip '/' path ++ "/" ++ token.value) token.value fuel rest [] []
          parseBody path name fuel rest properties (children ++ [child])
        else if token.value ∈ properties.map Prod.fst then
          .error (.duplicateProperty token.value path)
        else do
          let (value, rest) ← parseProperty tokens
          parseBody path name fuel rest (properties ++ [(token.value, value)]) children

/-- The search for the root. -/
def findRoot : List Token → Except DtsError (List Token)
  | [] => .error .noRoot
  | token :: rest =>
      if token.value = "/" ∧ peek "\x7b" 0 rest then .ok (token :: rest) else findRoot rest

/-- `Parser.parse` -/
def parse (tokens : List Token) : Except DtsError Node := do
  let tokens ← findRoot tokens
  let tokens ← takeValue "/" tokens
  let tokens ← takeValue "\x7b" tokens
  let (root, rest) ← parseBody "/" "/" (tokens.length + 1) tokens [] []
  if rest ≠ [] then .error .unexpectedData else .ok root

/-- `parse_dts` -/
def parseDts (source : List Char) : Except DtsError Node := do
  parse (← tokenize source)

/-! ## What dtc prints -/

/-- A part of the value of a property. -/
inductive Component where
  | string (bytes : List UInt8)
  | cells (values : List UInt32)
  | bytes (values : List UInt8)
  deriving DecidableEq, Repr

/-- A tree of dtc. -/
inductive Tree where
  | mk (name : String) (properties : List (String × List Component)) (children : List Tree)

/-- A lexeme of a source. -/
inductive Lexeme where
  | string (bytes : List UInt8)
  | symbol (character : Char)
  | atom (text : String)
  deriving DecidableEq, Repr

/-- The character of a byte. -/
def byteChar (byte : UInt8) : Char := Char.ofNat byte.toNat

/-- A byte of a string, as `write_propval_string` of dtc prints it. -/
def escapeByte (byte : UInt8) : List Char :=
  if byte = 0x07 then ['\\', 'a']
  else if byte = 0x08 then ['\\', 'b']
  else if byte = 0x09 then ['\\', 't']
  else if byte = 0x0a then ['\\', 'n']
  else if byte = 0x0b then ['\\', 'v']
  else if byte = 0x0c then ['\\', 'f']
  else if byte = 0x0d then ['\\', 'r']
  else if byte = 0x5c then ['\\', '\\']
  else if byte = 0x22 then ['\\', '"']
  else if byte = 0x00 then ['\\', '0']
  else if 0x20 ≤ byte ∧ byte ≤ 0x7e then [byteChar byte]
  else ['\\', 'x'] ++ Text.paddedHex 2 byte.toNat

/-- The text of a lexeme. -/
def Lexeme.text : Lexeme → List Char
  | string bytes => ['"'] ++ bytes.flatMap escapeByte ++ ['"']
  | symbol character => [character]
  | atom text => text.toList

/-- `0x%02x` -/
def hexCell (value : Nat) : String := String.ofList (['0', 'x'] ++ Text.paddedHex 2 value)

/-- `%02x` -/
def hexByte (value : UInt8) : String := String.ofList (Text.paddedHex 2 value.toNat)

namespace Component

def lexemes : Component → List Lexeme
  | string text => [.string text]
  | cells values =>
      [.symbol '<'] ++ values.map (fun value => .atom (hexCell value.toNat)) ++ [.symbol '>']
  | bytes values => [.symbol '['] ++ values.map (fun value => .atom (hexByte value)) ++ [.symbol ']']

/-- The strings of a value. -/
def strings (components : List Component) : List String :=
  components.filterMap fun
    | .string text => some (String.ofList (text.map byteChar))
    | _ => none

/-- The cells of a value. -/
def cellsOf (components : List Component) : List Nat :=
  components.flatMap fun
    | .cells values => values.map UInt32.toNat
    | _ => []

end Component

/-- The components of a value with commas between them. -/
def valueLexemes : List Component → List Lexeme
  | [] => []
  | [component] => component.lexemes
  | component :: rest => component.lexemes ++ [.atom ","] ++ valueLexemes rest

/-- A property. -/
def propertyLexemes (property : String × List Component) : List Lexeme :=
  if property.2 = [] then [.atom property.1, .symbol ';']
  else [.atom property.1, .symbol '='] ++ valueLexemes property.2 ++ [.symbol ';']

mutual

/-- A node after its name. -/
def Tree.lexemes : Tree → List Lexeme
  | .mk _ properties children =>
      [.symbol '{'] ++ properties.flatMap propertyLexemes ++ Tree.childLexemes children ++
        [.symbol '}', .symbol ';']

/-- The nodes in a node. -/
def Tree.childLexemes : List Tree → List Lexeme
  | [] => []
  | .mk name properties children :: rest =>
      [.atom name] ++ Tree.lexemes (.mk name properties children) ++ Tree.childLexemes rest

end

/-- The source of a tree with its memory reservations. -/
def Tree.document (reserves : List (UInt64 × UInt64)) (root : Tree) : List Lexeme :=
  [.atom "/dts-v1/", .symbol ';'] ++
    reserves.flatMap (fun (address, size) => [.atom "/memreserve/",
      .atom (String.ofList (['0', 'x'] ++ Text.paddedHex 16 address.toNat)),
      .atom (String.ofList (['0', 'x'] ++ Text.paddedHex 16 size.toNat)), .symbol ';']) ++
    [.atom "/"] ++ root.lexemes

/-- Lexemes with a gap before each of them and one after them. -/
def layOut : List Lexeme → List (List Char) → List Char
  | [], gaps => gaps.headD []
  | lexeme :: rest, gaps => gaps.headD [] ++ lexeme.text ++ layOut rest gaps.tail

/-- Gaps that consist of white space and keep atoms apart. -/
def Fits : List Lexeme → List (List Char) → Prop
  | [], gaps => (gaps.headD []).all isSpace = true
  | .atom _ :: .atom text :: rest, gaps =>
      (gaps.headD []).all isSpace = true ∧ gaps.tail.headD [] ≠ [] ∧
        Fits (.atom text :: rest) gaps.tail
  | _ :: rest, gaps => (gaps.headD []).all isSpace = true ∧ Fits rest gaps.tail

end NanoKvm.DeviceTree
