import LockScreen.Text.Hex
import LockScreen.Text.Units

/-!
# Texts

A text from outside is a row of letters. A letter is a character, or one half of a pair of UTF-16 units that
stands alone: escapes can spell such a half, and a text keeps it. A half is no character, so a text that
holds one is no string (`string?`) and cannot be encoded (`strayHalves?`); a text made of a string is that
string (`string?_ofString`) and has no such halves (`strayHalves?_ofString`).
-/

namespace LockScreen

/-- A character, or half of a pair by its distance from the lowest one. -/
inductive Letter
  | char (c : Char)
  | half (offset : Fin 0x800)
deriving DecidableEq, Repr

namespace Letter

/-- The unit of the lowest half. -/
def lowestHalf : Nat := 0xD800

/-- The code point of a letter. -/
def point : Letter → Nat
  | char c => c.toNat
  | half offset => lowestHalf + offset

/-- The letter of a code point. -/
def ofPoint (point : Nat) : Letter :=
  if h : lowestHalf ≤ point ∧ point < lowestHalf + 0x800 then
    half ⟨point - lowestHalf, by omega⟩
  else char (Char.ofNat point)

/-- A half reads back from its unit. -/
theorem ofPoint_point_half (offset : Fin 0x800) : ofPoint (half offset).point = half offset := by
  have hrange : lowestHalf ≤ lowestHalf + offset.val ∧ lowestHalf + offset.val < lowestHalf + 0x800 :=
    ⟨Nat.le_add_right .., Nat.add_lt_add_left offset.isLt _⟩
  simp only [point, ofPoint, hrange, and_self, dite_true, Nat.add_sub_cancel_left, Fin.eta]

/-- The character that a letter is. -/
def char? : Letter → Option Char
  | char c => some c
  | half _ => none

/-- A letter that is no character. -/
def isHalf : Letter → Bool
  | char _ => false
  | half _ => true

end Letter

/-- A row of letters. -/
structure Text where
  letters : List Letter
deriving DecidableEq, Repr

namespace Text

/-- The text of a row of characters. -/
def ofChars (cs : List Char) : Text := ⟨cs.map .char⟩

/-- The text of a string. -/
def ofString (s : String) : Text := ofChars s.toList

instance : Coe String Text := ⟨ofString⟩

instance : Append Text := ⟨fun s t => ⟨s.letters ++ t.letters⟩⟩

/-- The text of a row of code points. -/
def ofPoints (points : List Nat) : Text := ⟨points.map Letter.ofPoint⟩

/-- The code points of a text. -/
def points (t : Text) : List Nat := t.letters.map Letter.point

/-- The string that a text is; none if it holds a half of a pair. -/
def string? (t : Text) : Option String :=
  (t.letters.mapM Letter.char?).map String.ofList

/-- Texts one after the other, with a separator between them. -/
def joined (separator : Text) (ts : List Text) : Text :=
  ⟨separator.letters.intercalate (ts.map letters)⟩

/-- The text as a string in which replacement characters stand for the three bytes of each half. -/
def lossy (t : Text) : String :=
  String.ofList (t.letters.flatMap fun
    | .char c => [c]
    | .half _ => ['\ufffd', '\ufffd', '\ufffd'])

/-- A text made of a string is that string. -/
theorem string?_ofString (s : String) : (ofString s).string? = some s := by
  have hmap (cs : List Char) : (cs.map Letter.char).mapM Letter.char? = some cs := by
    induction cs with
    | nil => rfl
    | cons c cs ih => simp [Letter.char?, ih]
  simp [string?, ofString, ofChars, hmap]

/-! ## Halves -/

/-- A row of halves of pairs in a text: how many letters stand before it, its first unit, and how many
halves follow that one. -/
structure StrayHalves where
  position : Nat
  unit : Nat
  more : Nat
deriving DecidableEq, Repr

/-- The first row of halves in a text. -/
def strayHalves? (t : Text) : Option StrayHalves :=
  match t.letters.dropWhile (!·.isHalf) with
  | [] => none
  | first :: rest => some
    { position := (t.letters.takeWhile (!·.isHalf)).length
      unit := first.point
      more := (rest.takeWhile Letter.isHalf).length }

/-- The wording of the fault that halves are when a text is encoded. -/
def StrayHalves.message (s : StrayHalves) : String :=
  let shown :=
    if s.more = 0 then
      "character '\\u" ++ String.ofList (fixedHex lowerHexDigit 4 s.unit) ++ "' in position "
        ++ s.position.repr
    else "characters in position " ++ s.position.repr ++ "-" ++ (s.position + s.more).repr
  "'utf-8' codec can't encode " ++ shown ++ ": surrogates not allowed"

/-- A text made of a string holds no halves. -/
theorem strayHalves?_ofString (s : String) : (ofString s).strayHalves? = none := by
  have hdrop (cs : List Char) : (cs.map Letter.char).dropWhile (!·.isHalf) = [] := by
    induction cs with
    | nil => rfl
    | cons c cs ih => exact ih
  simp [strayHalves?, ofString, ofChars, hdrop]

end Text

end LockScreen
