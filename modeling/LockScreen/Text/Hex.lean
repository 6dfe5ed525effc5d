/-!
# Hexadecimal digits

Reading accepts the 22 hexadecimal digits of both cases; writing uses upper case for colours and lower
case for escapes.
-/

namespace LockScreen.Text

/-- The value of a hexadecimal digit of either case. -/
def hexDigit? (c : Char) : Option Nat :=
  if '0' ≤ c && c ≤ '9' then some (c.toNat - '0'.toNat)
  else if 'a' ≤ c && c ≤ 'f' then some (c.toNat - 'a'.toNat + 10)
  else if 'A' ≤ c && c ≤ 'F' then some (c.toNat - 'A'.toNat + 10)
  else none

/-- The upper-case digit of a value below 16. -/
def upperHexDigit (n : Nat) : Char :=
  if n < 10 then Char.ofNat ('0'.toNat + n) else Char.ofNat ('A'.toNat + (n - 10))

/-- The lower-case digit of a value below 16. -/
def lowerHexDigit (n : Nat) : Char :=
  if n < 10 then Char.ofNat ('0'.toNat + n) else Char.ofNat ('a'.toNat + (n - 10))

/-- The last `width` hexadecimal digits of a number, with leading zeros. -/
def fixedHex (digit : Nat → Char) : Nat → Nat → List Char
  | 0, _ => []
  | width + 1, n => fixedHex digit width (n / 16) ++ [digit (n % 16)]

/-- The hexadecimal digits of a number, without leading zeros; none for zero. -/
def significantHex (digit : Nat → Char) (n : Nat) : List Char :=
  if n = 0 then [] else significantHex digit (n / 16) ++ [digit (n % 16)]

/-- A number in upper-case hexadecimal with at least two characters; a minus sign counts as one. -/
def paddedHex (i : Int) : List Char :=
  if 0 ≤ i then
    let digits := significantHex upperHexDigit i.toNat
    List.replicate (2 - digits.length) '0' ++ digits
  else
    '-' :: significantHex upperHexDigit i.natAbs

end LockScreen.Text
