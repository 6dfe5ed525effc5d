/-!
# Blank characters

The characters that count as white space, and the trimming of a text. Two rules differ in the four
information separators: a text is trimmed of them, while a numeral may not have them around it.
-/

namespace LockScreen.Text

/-- White space of any script, with the information separators. -/
def isBlank (c : Char) : Bool :=
  let n := c.toNat
  (0x9 ≤ n && n ≤ 0xD) || (0x1C ≤ n && n ≤ 0x20) || n = 0x85 || n = 0xA0 || n = 0x1680
    || (0x2000 ≤ n && n ≤ 0x200A) || n = 0x2028 || n = 0x2029 || n = 0x202F || n = 0x205F
    || n = 0x3000

/-- The white space that may stand around a numeral. -/
def isMargin (c : Char) : Bool :=
  isBlank c && !(0x1C ≤ c.toNat && c.toNat ≤ 0x1F)

/-- The characters without the leading and trailing ones of a class. -/
def trimBy (drop : Char → Bool) (cs : List Char) : List Char :=
  ((cs.dropWhile drop).reverse.dropWhile drop).reverse

/-- The characters without leading and trailing white space. -/
def trim (cs : List Char) : List Char :=
  trimBy isBlank cs

end LockScreen.Text
