import LockScreen.Value

/-!
# Writing JSON

Documents in printable ASCII characters: others are escaped by their UTF-16 units. Stored documents put
each field on a line of its own, indented by two spaces a level; the compact form has no line breaks.
-/

namespace LockScreen.Json

open Text

/-- An escape of one UTF-16 unit. -/
def escapeUnit (unit : Nat) : List Char :=
  '\\' :: 'u' :: fixedHex lowerHexDigit 4 unit

/-- One character of a string. -/
def escapeChar (c : Char) : List Char :=
  if c = '"' then ['\\', '"']
  else if c = '\\' then ['\\', '\\']
  else if c = '\n' then ['\\', 'n']
  else if c = '\r' then ['\\', 'r']
  else if c = '\t' then ['\\', 't']
  else if c = '\x0c' then ['\\', 'f']
  else if c = '\x08' then ['\\', 'b']
  else if 0x20 ≤ c.toNat && c.toNat < 0x7F then [c]
  else (unitsOf c.toNat).flatMap escapeUnit

/-- One letter of a string; half of a pair is escaped as the unit that it is. -/
def escapeLetter : Letter → List Char
  | .char c => escapeChar c
  | half => escapeUnit half.point

/-- A string with its quotes. -/
def writeString (t : Text) : List Char :=
  '"' :: t.letters.flatMap escapeLetter ++ ['"']

/-- A binary64 number; the infinities and not a number have words of their own. -/
def writeFloat : Binary64 → List Char
  | .nan => "NaN".toList
  | .infinite negative => (if negative then ['-'] else []) ++ "Infinity".toList
  | x => x.text

/-- The break before an item at the given depth, in the layout with the given indentation. -/
def lineBreak (indent : Option Nat) (depth : Nat) : List Char :=
  match indent with
  | none => []
  | some width => '\n' :: List.replicate (width * depth) ' '

/-- What separates a field from its value. -/
def colon (indent : Option Nat) : List Char :=
  if indent.isSome then [':', ' '] else [':']

mutual

/-- A value at a depth of nesting. What is no JSON value is written as null. -/
def writeAt (indent : Option Nat) (depth : Nat) : Value → List Char
  | .null => "null".toList
  | .bool b => if b then "true".toList else "false".toList
  | .int i => integerText i
  | .float x => writeFloat x
  | .text t => writeString t
  | .list [] => ['[', ']']
  | .list (item :: items) =>
    '[' :: lineBreak indent (depth + 1) ++ writeAt indent (depth + 1) item
      ++ writeItems indent (depth + 1) items ++ lineBreak indent depth ++ [']']
  | .object [] => ['{', '}']
  | .object ((name, value) :: fields) =>
    '{' :: lineBreak indent (depth + 1) ++ writeString name ++ colon indent
      ++ writeAt indent (depth + 1) value
      ++ writeFields indent (depth + 1) fields ++ lineBreak indent depth ++ ['}']
  | .thresholds _ | .phrases _ _ => "null".toList

/-- Further items of a list. -/
def writeItems (indent : Option Nat) (depth : Nat) : List Value → List Char
  | [] => []
  | item :: items =>
    ',' :: lineBreak indent depth ++ writeAt indent depth item ++ writeItems indent depth items

/-- Further fields of an object. -/
def writeFields (indent : Option Nat) (depth : Nat) : List (Text × Value) → List Char
  | [] => []
  | (name, value) :: fields =>
    ',' :: lineBreak indent depth ++ writeString name ++ colon indent
      ++ writeAt indent depth value ++ writeFields indent depth fields

end

/-! ## Parts -/

mutual

/-- The parts of a value that hold no others, the names of fields among them, in the order in which they are
written. -/
def leaves : Value → List Value
  | .list items => leavesOfItems items
  | .object fields => leavesOfFields fields
  | leaf => [leaf]

/-- The same for the items of a list. -/
def leavesOfItems : List Value → List Value
  | [] => []
  | item :: items => leaves item ++ leavesOfItems items

/-- The same for the fields of an object. -/
def leavesOfFields : List (Text × Value) → List Value
  | [] => []
  | (name, value) :: fields => .text name :: leaves value ++ leavesOfFields fields

end

/-- An integer with more digits than are written. -/
def isOverlong (limit : Nat) : Value → Bool
  | .int i => limit < (decimalText i.natAbs).length
  | _ => false

/-! ## Documents -/

/-- A document without line breaks. -/
def compact (v : Value) : String :=
  String.ofList (writeAt none 0 v)

/-- A document with a line for each field. -/
def indented (v : Value) : String :=
  String.ofList (writeAt (some 2) 0 v)

end LockScreen.Json
