import LockScreen.Text.Basic
import LockScreen.Text.Printable

/-!
# Quoted texts

A text between quotes, as messages show it. The quote is `'`, or `"` for a text that holds `'` and no
`"`; backslash, line feed, carriage return and tab have short escapes, and any other character that is
not printable is written by its code point, as is half of a pair of units that stands alone.
-/

namespace LockScreen.Text

/-- The quote that needs the fewest escapes. -/
def quoteFor (t : Text) : Char :=
  if .char '\'' ∈ t.letters ∧ .char '"' ∉ t.letters then '"' else '\''

/-- One character between quotes. -/
def escapeQuoted (quote c : Char) : List Char :=
  if c = quote || c = '\\' then ['\\', c]
  else if c = '\n' then ['\\', 'n']
  else if c = '\r' then ['\\', 'r']
  else if c = '\t' then ['\\', 't']
  else if isPrintable c then [c]
  else if c.toNat < 0x100 then ['\\', 'x'] ++ fixedHex lowerHexDigit 2 c.toNat
  else if c.toNat < 0x10000 then ['\\', 'u'] ++ fixedHex lowerHexDigit 4 c.toNat
  else ['\\', 'U'] ++ fixedHex lowerHexDigit 8 c.toNat

/-- One letter between quotes. -/
def quotedLetter (quote : Char) : Letter → List Char
  | .char c => escapeQuoted quote c
  | half => ['\\', 'u'] ++ fixedHex lowerHexDigit 4 half.point

/-- A text between quotes. -/
def quoted (t : Text) : String :=
  let quote := quoteFor t
  String.ofList (quote :: t.letters.flatMap (quotedLetter quote) ++ [quote])

end LockScreen.Text
