import LockScreen.Numeral

/-!
# Numerals in request bodies

Texts that stand for numbers in the body of a request. An integer may be written with white space around
it, a sign, leading zeros, single underscores between its characters and a fraction of zeros. It is brought
into its canonical form, a minus sign or none and digits without a leading zero, and that form is read. A
real number is read with white space around it or with single underscores in it, not with both.
-/

namespace LockScreen.Numeral

open Text

/-- Two underscores stand side by side. -/
def hasDoubleUnderscore : List Char → Bool
  | '_' :: '_' :: _ => true
  | _ :: rest => hasDoubleUnderscore rest
  | [] => false

/-- Drops the underscores; refused if one is in front, at the end or beside another one. -/
def withoutUnderscores? (cs : List Char) : Option (List Char) :=
  if cs.head? = some '_' || cs.getLast? = some '_' || hasDoubleUnderscore cs then none
  else some (cs.filter (· ≠ '_'))

/-! ## Integers -/

/-- The minus sign in front, if there is one, and what follows it. -/
def splitMinus (cs : List Char) : Bool × List Char :=
  if cs.head? = some '-' then (true, cs.tail) else (false, cs)

/-- The integer of a canonical form. -/
def canonicalInteger? (cs : List Char) : Option Int :=
  let (negative, digits) := splitMinus cs
  if isDigits digits && (digits.head? ≠ some '0' || digits.length = 1)
      && digits.length ≤ digitLimit then
    some (Binary64.signed negative (valueOfDigits digits))
  else none

/-- A canonical form with more digits than integers may have, whatever follows it. -/
def startsOverlong (cs : List Char) : Bool :=
  let digits := (splitMinus cs).2.takeWhile isPlainDigit
  digits.head? ≠ some '0' && digitLimit < digits.length

/-- A zero of a row of leading zeros, or an underscore that follows one. -/
def isZeroPart (c : Char) : Bool := c = '0' || c = '_'

/-- Drops the leading zeros. At the end, and before a point, the last character of their row stays. -/
def withoutLeadingZeros? (cs : List Char) : Option (List Char) :=
  match cs.head? with
  | none => none
  | some '0' =>
    let zeros := cs.takeWhile isZeroPart
    let rest := cs.dropWhile isZeroPart
    some (if rest.isEmpty || rest.head? = some '.' then zeros.getLast?.toList ++ rest else rest)
  | some c => if isPlainDigit c then some cs else none

/-- Drops a point that zeros and nothing else follow. -/
def withoutZeroFraction (cs : List Char) : List Char :=
  let fraction := (cs.dropWhile (· ≠ '.')).tail
  if !fraction.isEmpty && fraction.all (· = '0') then cs.takeWhile (· ≠ '.') else cs

/-- Drops a plus sign, which no other sign may follow. -/
def withoutPlus? : List Char → Option (List Char)
  | '+' :: '-' :: _ => none
  | '+' :: rest => some rest
  | cs => some cs

/-- The canonical form of an integer that is written with more freedom. -/
def canonicalForm? (cs : List Char) : Option (List Char) := do
  let (negative, digits) := splitMinus (← withoutPlus? (trimBy isMargin cs))
  let digits ← withoutUnderscores? (withoutZeroFraction (← withoutLeadingZeros? digits))
  return if negative then '-' :: digits else digits

/-- The integer that a numeral of a body spells. -/
def readBodyInteger? (text : String) : Option Int :=
  (canonicalInteger? text.toList).or ((canonicalForm? text.toList).bind canonicalInteger?)

/-! ## Real numbers -/

/-- The real number that a numeral of a body spells. -/
def readBodyReal? (text : String) : Option Binary64 :=
  (readSigned? (trimBy isMargin text.toList)).or
    ((withoutUnderscores? text.toList).bind readSigned?)

end LockScreen.Numeral
