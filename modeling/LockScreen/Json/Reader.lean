import LockScreen.Value

/-!
# Reading JSON

A reader for JSON documents that also knows the words for the infinities and for not a number. Numbers
with a fraction or an exponent are binary64 numbers, all others integers; of two fields of one name the
later value stays, at the place of the earlier. Lists and objects may be nested to a depth that the caller has room
for.

A document is a text, so halves of pairs may stand alone in its strings, and nowhere else. Two halves become a
character only where both are escaped and follow each other.
-/

namespace LockScreen.Json

open Text

/-! ## Letters of a document -/

/-- The white space of a document. -/
def isSpace (l : Letter) : Bool :=
  l = .char ' ' || l = .char '\n' || l = .char '\r' || l = .char '\t'

/-- The input from the next letter that is no white space. -/
def skipSpace (ls : List Letter) : List Letter :=
  ls.dropWhile isSpace

/-- What follows a word, where the input starts with it. -/
def afterWord? : List Char → List Letter → Option (List Letter)
  | [], ls => some ls
  | c :: word, .char d :: ls => if c = d then afterWord? word ls else none
  | _ :: _, _ => none

/-- The digits at the start of the input, and what follows them. -/
def splitDigits : List Letter → List Char × List Letter
  | .char c :: ls =>
    if isPlainDigit c then
      let (digits, rest) := splitDigits ls
      (c :: digits, rest)
    else ([], .char c :: ls)
  | ls => ([], ls)

/-! ## Strings -/

/-- What a string is made of: a letter that stands for itself, or the unit of an escape. -/
inductive Piece
  | letter (l : Letter)
  | unit (n : Nat)
deriving DecidableEq, Repr

/-- The unit of four hexadecimal digits. -/
def unitOf? (a b c d : Letter) : Option Nat := do
  let digit (l : Letter) : Option Nat := l.char?.bind hexDigit?
  return 4096 * (← digit a) + 256 * (← digit b) + 16 * (← digit c) + (← digit d)

/-- The character of an escape of one letter. -/
def shortEscape? : Letter → Option Char
  | .char '"' => some '"'
  | .char '\\' => some '\\'
  | .char '/' => some '/'
  | .char 'b' => some '\x08'
  | .char 'f' => some '\x0c'
  | .char 'n' => some '\n'
  | .char 'r' => some '\r'
  | .char 't' => some '\t'
  | _ => none

/-- Puts a piece in front of what was read. -/
def consPiece (piece : Piece) (read : Option (List Piece × List Letter)) :
    Option (List Piece × List Letter) :=
  read.map fun (pieces, rest) => (piece :: pieces, rest)

/-- The pieces of a string after its opening quote, and what follows its closing quote. -/
def readPieces : List Letter → Option (List Piece × List Letter)
  | .char '"' :: rest => some ([], rest)
  | .char '\\' :: .char 'u' :: a :: b :: c :: d :: rest =>
    (unitOf? a b c d).bind fun unit => consPiece (.unit unit) (readPieces rest)
  | .char '\\' :: l :: rest =>
    (shortEscape? l).bind fun c => consPiece (.letter (.char c)) (readPieces rest)
  | l :: rest => if l.point < 0x20 then none else consPiece (.letter l) (readPieces rest)
  | [] => none

/-- The letters that pieces make up. Two units that are the halves of a pair are one character. -/
def lettersOf : List Piece → List Letter
  | .unit lead :: .unit trail :: rest =>
    if isLeadUnit lead && isTrailUnit trail then .ofPoint (pointOfPair lead trail) :: lettersOf rest
    else .ofPoint lead :: lettersOf (.unit trail :: rest)
  | .unit unit :: rest => .ofPoint unit :: lettersOf rest
  | .letter l :: rest => l :: lettersOf rest
  | [] => []

/-- The text of a string after its opening quote. -/
def readString (ls : List Letter) : Except Fault (Text × List Letter) :=
  match readPieces ls with
  | some (pieces, rest) => .ok (⟨lettersOf pieces⟩, rest)
  | none => .error .fileNotJson

/-- Letters that stand for themselves stay as they are, halves of pairs too. -/
theorem lettersOf_map_letter (ls : List Letter) : lettersOf (ls.map .letter) = ls := by
  induction ls with
  | nil => rfl
  | cons l ls ih => simp [lettersOf, ih]

/-! ## Numbers -/

/-- The digits before the point: a zero alone, or digits that do not start with zero. -/
def splitWhole : List Letter → List Char × List Letter
  | .char '0' :: rest => (['0'], rest)
  | ls => splitDigits ls

/-- The digits after a point, and what follows them; a point without a digit is left where it is. -/
def splitFraction (ls : List Letter) : List Char × List Letter :=
  match afterWord? ['.'] ls with
  | none => ([], ls)
  | some rest =>
    let (digits, rest) := splitDigits rest
    if digits.isEmpty then ([], ls) else (digits, rest)

/-- A sign, and what follows it. -/
def splitSign : List Letter → Bool × List Letter
  | .char '-' :: rest => (true, rest)
  | .char '+' :: rest => (false, rest)
  | ls => (false, ls)

/-- The value of an exponent, and what follows it; none without a letter and a digit. -/
def splitExponent? (ls : List Letter) : Option (Int × List Letter) :=
  (afterWord? ['e'] ls).or (afterWord? ['E'] ls) |>.bind fun rest =>
    let (negative, rest) := splitSign rest
    let (digits, rest) := splitDigits rest
    if digits.isEmpty then none else some (Binary64.signed negative (valueOfDigits digits), rest)

/-- A number without its sign. -/
def readMagnitude (negative : Bool) (ls : List Letter) : Except Fault (Value × List Letter) :=
  let (whole, afterWhole) := splitWhole ls
  let (fraction, afterFraction) := splitFraction afterWhole
  let real (exponent : Int) (rest : List Letter) : Except Fault (Value × List Letter) :=
    .ok (.float (Binary64.ofDecimal negative
      ⟨valueOfDigits (whole ++ fraction), exponent - fraction.length⟩), rest)
  if whole.isEmpty then .error .fileNotJson
  else
    match splitExponent? afterFraction with
    | some (exponent, rest) => real exponent rest
    | none =>
      if !fraction.isEmpty then real 0 afterFraction
      else if Numeral.digitLimit < whole.length then .error (.integerTooLong whole.length)
      else .ok (.int (Binary64.signed negative (valueOfDigits whole)), afterFraction)

/-! ## Values -/

/-- The values that have a word of their own. -/
def words : List (String × Value) :=
  [("null", .null), ("true", .bool true), ("false", .bool false), ("NaN", .float .nan),
    ("Infinity", .float (.infinite false)), ("-Infinity", .float (.infinite true))]

/-- A value that is neither a string nor a list nor an object. -/
def readAtom (ls : List Letter) : Except Fault (Value × List Letter) :=
  match words.findSome? fun (word, v) => (afterWord? word.toList ls).map fun rest => (v, rest) with
  | some read => .ok read
  | none =>
    match ls with
    | .char '-' :: rest => readMagnitude true rest
    | ls => readMagnitude false ls

/-- The depth to which lists and objects may be nested where little room is taken up by callers. -/
def usualDepth : Nat := 970

mutual

/-- A value at the start of the input. The first argument bounds the steps, the second one says how many
lists and objects may still be nested. -/
def readValue : Nat → Nat → List Letter → Except Fault (Value × List Letter)
  | 0, _, _ => .error .fileNotJson
  | fuel + 1, depth, ls =>
    match ls with
    | .char '"' :: rest => (readString rest).map fun (t, rest) => (.text t, rest)
    | .char '[' :: rest =>
      if depth = 0 then .error .listTooDeep
      else
        match skipSpace rest with
        | .char ']' :: rest => .ok (.list [], rest)
        | rest => (readItems fuel (depth - 1) rest).map fun (items, rest) => (.list items, rest)
    | .char '{' :: rest =>
      if depth = 0 then .error .objectTooDeep
      else
        match skipSpace rest with
        | .char '}' :: rest => .ok (.object [], rest)
        | rest =>
          (readFields fuel (depth - 1) [] rest).map fun (fields, rest) => (.object fields, rest)
    | ls => readAtom ls

/-- The items of a list from the next one on. -/
def readItems : Nat → Nat → List Letter → Except Fault (List Value × List Letter)
  | 0, _, _ => .error .fileNotJson
  | fuel + 1, depth, ls => do
    let (item, rest) ← readValue fuel depth ls
    match skipSpace rest with
    | .char ']' :: rest => return ([item], rest)
    | .char ',' :: rest =>
      let (items, rest) ← readItems fuel depth (skipSpace rest)
      return (item :: items, rest)
    | _ => throw .fileNotJson

/-- The fields of an object from the next one on, added to those before. -/
def readFields : Nat → Nat → List (Text × Value) → List Letter →
    Except Fault (List (Text × Value) × List Letter)
  | 0, _, _, _ => .error .fileNotJson
  | fuel + 1, depth, fields, .char '"' :: ls => do
    let (name, rest) ← readString ls
    match skipSpace rest with
    | .char ':' :: rest =>
      let (value, rest) ← readValue fuel depth (skipSpace rest)
      match skipSpace rest with
      | .char '}' :: rest => return (Value.insert name value fields, rest)
      | .char ',' :: rest => readFields fuel depth (Value.insert name value fields) (skipSpace rest)
      | _ => throw .fileNotJson
    | _ => throw .fileNotJson
  | _, _, _, _ => .error .fileNotJson

end

/-- The value of a whole document, in which lists and objects are nested to a depth at most. -/
def read (document : Text) (depth : Nat := usualDepth) : Except Fault Value := do
  let ls := document.letters
  -- each step takes a letter, so their bound is never reached
  let (value, rest) ← readValue (2 * ls.length + 2) depth (skipSpace ls)
  if (skipSpace rest).isEmpty then return value else throw .fileNotJson

end LockScreen.Json
