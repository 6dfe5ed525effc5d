import LockScreen.Decimal
import LockScreen.Text.Blank
import LockScreen.Text.Quoted

/-!
# Numerals

Reading numbers from texts that people write: white space around, a sign, the digits of any script,
single underscores between digits, a fraction and an exponent, and the words for infinity and for not
a number. The strict numerals of data files are read by `readDecimal?` alone.
-/

namespace LockScreen.Numeral

open Text

/-- Integers with more digits than this are refused. -/
def digitLimit : Nat := 4300

/-- No limit on the digits of an integer may be lower. -/
def leastDigitLimit : Nat := 640

/-- Drops each underscore between two digits; any other underscore is refused. -/
def joinDigits? : List Char → Option (List Char)
  | [] => some []
  | c :: '_' :: d :: rest =>
    if isPlainDigit c && isPlainDigit d then (joinDigits? (d :: rest)).map (c :: ·) else none
  | c :: rest => if c = '_' then none else (joinDigits? rest).map (c :: ·)

/-- A sign in front, and what follows it. -/
def splitSign : List Char → Bool × List Char
  | '-' :: rest => (true, rest)
  | '+' :: rest => (false, rest)
  | cs => (false, cs)

/-- At least one plain digit and nothing else. -/
def isDigits (cs : List Char) : Bool :=
  !cs.isEmpty && cs.all isPlainDigit

/-- The exponent part of a decimal; absent, it is zero. -/
def readExponent? : List Char → Option Int
  | [] => some 0
  | c :: rest =>
    let (negative, digits) := splitSign rest
    if (c = 'e' || c = 'E') && isDigits digits then
      some (Binary64.signed negative (valueOfDigits digits))
    else none

/-- An unsigned decimal: digits, possibly a point among them, and possibly an exponent. -/
def readDecimal? (cs : List Char) : Option Decimal :=
  let whole := cs.takeWhile isPlainDigit
  let rest := cs.dropWhile isPlainDigit
  let fraction := if rest.head? = some '.' then rest.tail.takeWhile isPlainDigit else []
  let rest := if rest.head? = some '.' then rest.tail.dropWhile isPlainDigit else rest
  if whole.isEmpty && fraction.isEmpty then none
  else (readExponent? rest).map fun exponent =>
    ⟨valueOfDigits (whole ++ fraction), exponent - fraction.length⟩

/-- The words for infinity and for not a number, in any case. -/
def readWord? (negative : Bool) (cs : List Char) : Option Binary64 :=
  let word := cs.map Char.toLower
  if word = "inf".toList || word = "infinity".toList then some (.infinite negative)
  else if word = "nan".toList then some .nan
  else none

/-- A decimal or a word, with or without a sign. -/
def readSigned? (cs : List Char) : Option Binary64 :=
  let (negative, magnitude) := splitSign cs
  match readDecimal? magnitude with
  | some d => some (Binary64.ofDecimal negative d)
  | none => readWord? negative magnitude

/-- The characters of a numeral in plain digits, without the white space around it. -/
def plain (text : String) : List Char :=
  withPlainDigits (trimBy isMargin text.toList)

/-- The binary64 number that a text spells. -/
def readNumber? (text : String) : Option Binary64 :=
  (joinDigits? (plain text)).bind readSigned?

/-- The digits in front, without the underscores between them, and what follows them; none where there is no
digit, or an underscore that does not stand between two. -/
def splitDigits? (cs : List Char) : Option (List Char × List Char) :=
  let row := cs.takeWhile fun c => isPlainDigit c || c = '_'
  ((joinDigits? row).filter (!·.isEmpty)).map fun digits => (digits, cs.drop row.length)

/-- The integer that a text spells. Its digits are counted before what follows them is looked at. -/
def readInteger (text : Text) : Except Fault Int :=
  let unreadable := Fault.textNotInteger text.quoted
  match text.string? with
  | none => .error unreadable
  | some s =>
    let (negative, magnitude) := splitSign (plain s)
    match splitDigits? magnitude with
    | none => .error unreadable
    | some (digits, rest) =>
      if digitLimit < digits.length then .error (.integerTooLong digits.length)
      else if rest.isEmpty then .ok (Binary64.signed negative (valueOfDigits digits))
      else .error unreadable

end LockScreen.Numeral
