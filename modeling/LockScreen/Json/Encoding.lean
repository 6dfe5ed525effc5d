import LockScreen.Text.Basic

/-!
# The encoding of a document

A document that arrives as bytes does not say how they make up its characters, but it starts with an ASCII
character: in wider units that leaves zero bytes among the first four, and their places show the width of
the units and the order of their bytes.
-/

namespace LockScreen.Json

open Text

/-- The order of the bytes of a unit. -/
inductive ByteOrder
  | bigEndian
  | littleEndian
deriving DecidableEq, Repr

/-- How bytes make up characters. -/
inductive Encoding
  | utf8
  | utf16 (order : ByteOrder)
  | utf32 (order : ByteOrder)
deriving DecidableEq, Repr

/-- The encoding that the first bytes of a document show. -/
def Encoding.ofBytes : List UInt8 → Encoding
  | [0, _] => .utf16 .bigEndian
  | [_, 0] => .utf16 .littleEndian
  | 0 :: 0 :: _ :: _ :: _ => .utf32 .bigEndian
  | 0 :: _ :: _ :: _ :: _ => .utf16 .bigEndian
  | _ :: 0 :: 0 :: 0 :: _ => .utf32 .littleEndian
  | _ :: 0 :: _ :: _ :: _ => .utf16 .littleEndian
  | _ => .utf8

/-- The number that two bytes, or two units of bytes, make up. -/
def ByteOrder.join (order : ByteOrder) (base first second : Nat) : Nat :=
  match order with
  | .bigEndian => base * first + second
  | .littleEndian => base * second + first

/-- Joins neighbours two by two; none where one is left over. -/
def ByteOrder.joinPairs? (order : ByteOrder) (base : Nat) : List Nat → Option (List Nat)
  | [] => some []
  | [_] => none
  | first :: second :: rest =>
    (order.joinPairs? base rest).map (order.join base first second :: ·)

/-- The units of 16 bits that bytes make up. -/
def ByteOrder.units? (order : ByteOrder) (bytes : List UInt8) : Option (List Nat) :=
  order.joinPairs? 0x100 (bytes.map UInt8.toNat)

/-- The code points that bytes make up four by four. -/
def ByteOrder.points? (order : ByteOrder) (bytes : List UInt8) : Option (List Nat) :=
  ((order.units? bytes).bind (order.joinPairs? 0x10000)).filter (·.all (· < 0x110000))

/-- The text without a mark of the byte order in front. -/
def withoutMark (text : String) : String :=
  match text.toList with
  | '\ufeff' :: rest => String.ofList rest
  | _ => text

/-- The document that the bytes of a text hold in the encoding that they show; none where they hold none.
Halves of pairs that stand alone stay in it. -/
def decode? (text : String) : Option Text :=
  let bytes := text.toUTF8.toList
  match Encoding.ofBytes bytes with
  | .utf8 => some (ofString (withoutMark text))
  | .utf16 order => (order.units? bytes).map fun units => ofPoints (pointsOfUnits units)
  | .utf32 order => (order.points? bytes).map ofPoints

end LockScreen.Json
