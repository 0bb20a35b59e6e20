import Mathlib.Algebra.Group.Int.Defs
import Mathlib.Algebra.Group.Nat.Defs
import Mathlib.Data.List.Basic

/-!
# Device trees as the lease guard reads them

The tree `parse_dts` builds in `verify-c906l-leases.py`, and what the guard reads off single
properties. A Python node points to its parent; here a `Place` is a node together with the
places above it, so the guard's walks towards the root are recursions. Each message of
`LeaseGuardError` is a constructor with what the message shows.
-/

namespace NanoKvm.DeviceTree

/-- `U64_LIMIT` -/
def u64Limit : Nat := 2 ^ 64

inductive TokenKind where
  | string | symbol | atom
  deriving DecidableEq, Repr

structure Token where
  kind : TokenKind
  value : String
  deriving DecidableEq, Repr

/-- A node: its name, its properties and the nodes in it. -/
inductive Node where
  | mk (name : String) (properties : List (String × List Token)) (children : List Node)

namespace Node

def name : Node → String
  | mk name _ _ => name

def properties : Node → List (String × List Token)
  | mk _ properties _ => properties

/-- `properties.get` -/
def property (node : Node) (name : String) : Option (List Token) := node.properties.lookup name

end Node

/-- A node in its tree: the root, or a child by its number. -/
inductive Place where
  | root (node : Node)
  | child (parent : Place) (number : Nat) (node : Node)

/-- `str.rstrip` of one character. -/
def rstrip (character : Char) (text : String) : String :=
  String.ofList (text.toList.reverse.dropWhile (· = character)).reverse

namespace Place

def node : Place → Node
  | root node => node
  | child _ _ node => node

/-- The numbers of the children from the node up: what `is` compares. -/
def address : Place → List Nat
  | root _ => []
  | child parent number _ => number :: parent.address

/-- `Node.path` -/
def path : Place → String
  | root _ => "/"
  | child parent _ node => rstrip '/' parent.path ++ "/" ++ node.name

end Place

/-- An interval of addresses. -/
structure Range where
  address : Nat
  size : Nat
  deriving DecidableEq, Repr

namespace Range

/-- `Range.end` -/
def stop (range : Range) : Nat := range.address + range.size

def overlaps (range other : Range) : Bool :=
  decide (range.address < other.stop ∧ other.address < range.stop)

end Range

/-- What the guard raises. -/
inductive LeaseGuardError where
  | unbalancedCells (property : String)
  | nonNumericCell (atom property : String)
  | cellOutsideU32 (atom property : String)
  | notOneCell (property : String)
  | statusNotOneString (path : String)
  | noAddressCells (path : String)
  | regTuples (path : String) (cells width : Nat)
  | regExceeds64Bits (path : String)
  | rangesTuples (path : String) (cells width : Nat)
  | rangesInvalid (path : String)
  | translationExceeds64Bits (path : String)
  | noParentBus (path : String)
  | cannotTranslate (path bus : String)
  | controlNodes (found : Nat)
  | leaseMask (path : String)
  | metadataWithoutMask (path : String)
  | peripheralNames (path : String)
  | leaseRangePairs (path : String)
  | rangeOwnersLength (path : String)
  | rangeOwnersCover (path : String)
  | irqOwners (path : String)
  | leaseRangeInvalid (path : String)
  | leaseRangesOverlap (path : String)
  | claimsLease (path : String) (physical lease : Range)
  deriving DecidableEq, Repr

/-! ## Numbers -/

/-- The value of a digit below the base. -/
def digit (base : Nat) (character : Char) : Option Nat :=
  let value :=
    if '0' ≤ character ∧ character ≤ '9' then character.toNat - '0'.toNat
    else if 'a' ≤ character ∧ character ≤ 'f' then character.toNat - 'a'.toNat + 10
    else if 'A' ≤ character ∧ character ≤ 'F' then character.toNat - 'A'.toNat + 10
    else base
  if value < base then some value else none

/-- Digits with single underscores between them. -/
def readDigits (base : Nat) : Nat → List Char → Option Nat
  | value, [] => some value
  | value, '_' :: character :: rest =>
      (digit base character).bind fun d => readDigits base (value * base + d) rest
  | value, character :: rest =>
      (digit base character).bind fun d => readDigits base (value * base + d) rest

/-- The digits after a base specifier. -/
def readBase (base : Nat) (rest : List Char) : Option Nat :=
  if rest = [] then none else readDigits base 0 rest

/-- A literal without sign; a decimal one starts with a zero only if it is zero. -/
def readLiteral : List Char → Option Nat
  | [] => none
  | '0' :: 'x' :: rest => readBase 16 rest
  | '0' :: 'X' :: rest => readBase 16 rest
  | '0' :: 'o' :: rest => readBase 8 rest
  | '0' :: 'O' :: rest => readBase 8 rest
  | '0' :: 'b' :: rest => readBase 2 rest
  | '0' :: 'B' :: rest => readBase 2 rest
  | '0' :: rest => (readDigits 10 0 rest).filter (· = 0)
  | character :: rest => (digit 10 character).bind fun d => readDigits 10 d rest

/-- `int(text, 0)` -/
def int (text : String) : Option Int :=
  match text.toList with
  | '-' :: rest => (readLiteral rest).map fun value => -(value : Int)
  | '+' :: rest => (readLiteral rest).map Int.ofNat
  | characters => (readLiteral characters).map Int.ofNat

/-! ## Values of properties -/

/-- `string_values` -/
def stringValues (tokens : List Token) : List String :=
  (tokens.filter fun token => token.kind = .string).map Token.value

/-- `cell_values` from a depth of angle brackets on. -/
def cellValuesFrom (description : String) : Nat → List Token → Except LeaseGuardError (List Nat)
  | depth, [] => if depth ≠ 0 then .error (.unbalancedCells description) else .ok []
  | depth, token :: rest =>
      if token.value = "<" then cellValuesFrom description (depth + 1) rest
      else if token.value = ">" then
        if depth = 0 then .error (.unbalancedCells description)
        else cellValuesFrom description (depth - 1) rest
      else if depth ≠ 0 ∧ token.kind = .atom then
        match int (rstrip ',' token.value) with
        | none => .error (.nonNumericCell (rstrip ',' token.value) description)
        | some value =>
            if 0 ≤ value ∧ value < 2 ^ 32 then
              (cellValuesFrom description depth rest).map (value.toNat :: ·)
            else .error (.cellOutsideU32 (rstrip ',' token.value) description)
      else cellValuesFrom description depth rest

/-- `cell_values` -/
def cellValues (tokens : List Token) (description : String) : Except LeaseGuardError (List Nat) :=
  cellValuesFrom description 0 tokens

/-- `cells_to_integer` -/
def cellsToInteger (cells : List Nat) : Nat :=
  cells.foldl (fun value cell => value <<< 32 ||| cell) 0

/-- The cells in tuples, as the guard's loops over offsets take them. -/
def tuples (width : Nat) (cells : List Nat) : List (List Nat) :=
  (List.range (cells.length / width)).map fun k => (cells.drop (k * width)).take width

/-- `inherited_cells` -/
def inheritedCells (place : Place) (name : String) (default : Nat) :
    Except LeaseGuardError Nat :=
  match place.node.property name with
  | none => .ok default
  | some tokens => do
      let cells ← cellValues tokens (place.path ++ ":" ++ name)
      match cells with
      | [cell] => if cell > 4 then .error (.notOneCell (place.path ++ ":" ++ name)) else .ok cell
      | _ => .error (.notOneCell (place.path ++ ":" ++ name))

end NanoKvm.DeviceTree
