import LockScreen.Text.Blank
import LockScreen.Text.Hex
import LockScreen.Value

/-!
# Colours

Colours with four parts, read from hexadecimal texts and from lists of numbers, and written as
`#RRGGBB`, or `#RRGGBBAA` where they are not opaque.
-/

namespace LockScreen

/-- Red, green, blue and opacity; a colour that is read has parts from 0 to 255. -/
structure Color where
  red : Int
  green : Int
  blue : Int
  alpha : Int
deriving DecidableEq, Repr

namespace Color

def white : Color := ⟨255, 255, 255, 255⟩

/-- The colour of warnings where nothing else is set. -/
def standardWarning : Color := ⟨255, 110, 64, 255⟩

/-- A part that a screen can show. -/
def InRange (part : Int) : Prop := 0 ≤ part ∧ part ≤ 255

/-- All parts can be shown. -/
structure Valid (c : Color) : Prop where
  red : InRange c.red
  green : InRange c.green
  blue : InRange c.blue
  alpha : InRange c.alpha

/-! ## Hexadecimal texts -/

/-- The value of two hexadecimal digits. -/
def byte (high low : Nat) : Int := (16 * high + low : Nat)

/-- The colour of six or eight digit values. -/
def ofDigitValues? : List Nat → Option Color
  | [r, s, g, h, b, c] => some ⟨byte r s, byte g h, byte b c, 255⟩
  | [r, s, g, h, b, c, a, d] => some ⟨byte r s, byte g h, byte b c, byte a d⟩
  | _ => none

/-- The text without white space around it and without one leading `#`. -/
def hexDigitsOf (s : String) : List Char :=
  match Text.trim s.toList with
  | '#' :: rest => rest
  | cs => cs

/-- The colour of a text of six or eight hexadecimal digits. -/
def ofHex? (t : Text) : Except Fault Color :=
  match t.string?.bind fun s => ((hexDigitsOf s).mapM Text.hexDigit?).bind ofDigitValues? with
  | some color => .ok color
  | none => .error .colorText

/-- The text of a colour in upper-case digits; the opacity is left out when it is full. -/
def toHex (c : Color) : String :=
  String.ofList ('#' :: Text.paddedHex c.red ++ Text.paddedHex c.green ++ Text.paddedHex c.blue
    ++ if c.alpha = 255 then [] else Text.paddedHex c.alpha)

/-! ## Values -/

/-- One part: a number that rounds into the range. -/
def partOfValue (v : Value) : Except Fault Int :=
  match v.number? with
  | none => .error .colorPartNotNumber
  | some n => do
    let part ← n.round
    if 0 ≤ part ∧ part ≤ 255 then .ok part else .error .colorPartOutOfRange

/-- The colour of three or four parts; without a fourth it is opaque. -/
def ofParts : List Value → Except Fault Color
  | [r, g, b] => do return ⟨← partOfValue r, ← partOfValue g, ← partOfValue b, 255⟩
  | [r, g, b, a] => do
    return ⟨← partOfValue r, ← partOfValue g, ← partOfValue b, ← partOfValue a⟩
  | _ => .error .colorShape

/-- The colour that a value gives, as a hexadecimal text or as a list of parts. -/
def ofValue : Value → Except Fault Color
  | .text t => ofHex? t
  | .list items => ofParts items
  | _ => .error .colorShape

/-- The colour that a value gives where only a hexadecimal text is accepted. -/
def ofHexValue : Value → Except Fault Color
  | .text t => ofHex? t
  | _ => .error .colorText

/-! ## Parts of any shape -/

/-- A part that has hexadecimal digits, whatever its range. -/
def wholePart : Value → Except Fault Int
  | .int i => .ok i
  | .bool b => .ok (if b then 1 else 0)
  | .float x => .error (.colorPartNotWhole (Value.float x).shape)
  | .text t => .error (.colorPartNotWhole (Value.text t).shape)
  | other => .error (.colorPartNotWritable other.shape)

/-- The colour of four parts that are written as they are. The opacity is only read where it is not full. -/
def ofWholeParts : List Value → Except Fault Color
  | [r, g, b, a] => do
    let red ← wholePart r
    let green ← wholePart g
    let blue ← wholePart b
    let alpha ← if (a.measure?.bind (·.compareInt? 255)) = some .eq then .ok 255 else wholePart a
    return ⟨red, green, blue, alpha⟩
  | parts => .error (if parts.length < 4 then .colorTooShort parts.length else .colorTooLong)

end Color

end LockScreen
