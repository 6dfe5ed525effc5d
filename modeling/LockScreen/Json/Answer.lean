import LockScreen.Json.Writer

/-!
# Answers that cannot be written

An answer goes out in a compact form in which characters beyond ASCII stand for themselves. It cannot be
written with a number that is not finite in it, and it cannot be encoded with half of a pair of units in it.
-/

namespace LockScreen.Json

open Text

/-! ## The compact form -/

/-- One letter of a string that is not restricted to ASCII. -/
def plainLetter : Letter → List Letter
  | .char c => if c.toNat < 0x7F then (escapeChar c).map .char else [.char c]
  | half => [half]

/-- A string with its quotes. -/
def plainString (t : Text) : List Letter :=
  .char '"' :: t.letters.flatMap plainLetter ++ [.char '"']

mutual

/-- The letters of a value. -/
def plainLetters : Value → List Letter
  | .text t => plainString t
  | .list [] => (ofString "[]").letters
  | .list (item :: items) =>
    .char '[' :: plainLetters item ++ plainItems items ++ [.char ']']
  | .object [] => (ofString "\x7b\x7d").letters
  | .object ((name, value) :: fields) =>
    .char '{' :: plainString name ++ .char ':' :: plainLetters value
      ++ plainFields fields ++ [.char '}']
  | atom => (writeAt none 0 atom).map .char

/-- The letters of further items of a list. -/
def plainItems : List Value → List Letter
  | [] => []
  | item :: items => .char ',' :: plainLetters item ++ plainItems items

/-- The letters of further fields of an object. -/
def plainFields : List (Text × Value) → List Letter
  | [] => []
  | (name, value) :: fields =>
    .char ',' :: plainString name ++ .char ':' :: plainLetters value ++ plainFields fields

end

/-- The text of an answer. -/
def plain (v : Value) : Text :=
  ⟨plainLetters v⟩

/-! ## Faults -/

/-- A number that is not finite. -/
def isNonFinite : Value → Bool
  | .float x => !x.isFinite
  | _ => false

/-- The halves of pairs in the first text that holds some. -/
def strayHalves? (v : Value) : Option StrayHalves :=
  (leaves v).findSome? fun leaf => leaf.text?.bind Text.strayHalves?

/-- Why a value cannot be written as a whole and then encoded. -/
def unwritable? (v : Value) : Option Fault :=
  if (leaves v).any isNonFinite then some .numberNotFinite
  else (plain v).strayHalves?.map .unencodable

end LockScreen.Json
