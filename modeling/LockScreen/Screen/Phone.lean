import LockScreen.Line
import LockScreen.Value.Flag

/-!
# The phone around the screen

The parts of the phone that the screen consults and drives: the flags of the device, the bouncer with
its messages, the lock icon, and the display that the line is pushed to.
-/

namespace LockScreen

/-- A message handed to the bouncer. -/
structure BouncerNotice where
  text : Text
  color : Color
deriving DecidableEq, Repr

/-- The flags of the device, the remaining charge time or null, and what it was told. -/
structure Phone where
  userUnlocked : Flag := true
  interactive : Flag := true
  fingerprintAllowed : Flag := true
  bouncerShowing : Flag := false
  chargeTime : Value := .null
  lockIconError : Flag := false
  bouncerNotices : List BouncerNotice := []
deriving DecidableEq

namespace Phone

/-- The bouncer keeps this many messages, the latest ones. -/
def bouncerLimit : Nat := 20

/-- Hands a message to the bouncer. -/
def tellBouncer (p : Phone) (text : Text) (color : Color) : Phone :=
  let messages := p.bouncerNotices ++ [⟨text, color⟩]
  { p with bouncerNotices := messages.drop (messages.length - bouncerLimit) }

/-- What the phone answers when it is asked for the remaining charge time; minus one if unknown. -/
def chargeTimeAnswer (p : Phone) : Answer :=
  match p.chargeTime with
  | .null => .gives (.int (-1))
  | time => .gives time

end Phone

/-- One assignment to the state of the device. -/
inductive PhoneChange
  | userUnlocked (on : Flag)
  | interactive (on : Flag)
  | fingerprintAllowed (on : Flag)
  | bouncerShowing (on : Flag)
  | chargeTime (time : Value)
  | lockIconError (on : Flag)
deriving DecidableEq

/-- The assignment of a value to the part of a name, if there is such a part. -/
def PhoneChange.ofField? (name : Text) (v : Value) : Option PhoneChange :=
  if name = "user_unlocked" then some (.userUnlocked ⟨v⟩)
  else if name = "interactive" then some (.interactive ⟨v⟩)
  else if name = "fingerprint_allowed" then some (.fingerprintAllowed ⟨v⟩)
  else if name = "bouncer_showing" then some (.bouncerShowing ⟨v⟩)
  else if name = "charge_time_remaining_ms" then some (.chargeTime v)
  else if name = "lock_icon_error" then some (.lockIconError ⟨v⟩)
  else none

namespace Phone

/-- Makes an assignment. -/
def change (p : Phone) : PhoneChange → Phone
  | .userUnlocked on => { p with userUnlocked := on }
  | .interactive on => { p with interactive := on }
  | .fingerprintAllowed on => { p with fingerprintAllowed := on }
  | .bouncerShowing on => { p with bouncerShowing := on }
  | .chargeTime time => { p with chargeTime := time }
  | .lockIconError on => { p with lockIconError := on }

/-- The name of a part that can be assigned to. -/
def isName (name : Text) : Bool :=
  (PhoneChange.ofField? name .null).isSome

/-- A phone built from fields; the parts that are not mentioned are as in a phone at rest. -/
def ofFields (fields : List (Text × Value)) : Except Fault Phone := do
  Value.checkNames .phone isName fields
  return (fields.filterMap fun (name, v) => PhoneChange.ofField? name v).foldl change {}

end Phone

/-- The text on the display, its colour, and how often the text was switched. -/
structure Display where
  text : Text := ""
  color : Color := .white
  visible : Bool := false
  updates : Nat := 0
deriving DecidableEq, Repr

namespace Display

/-- Switches to a text; no text counts as empty. -/
def switchText (d : Display) (text : Option Text) : Display :=
  { d with text := text.getD "", updates := d.updates + 1 }

/-- Changes the colour of the text. -/
def setColor (d : Display) (color : Color) : Display :=
  { d with color }

/-- Shows or hides the display. -/
def setVisible (d : Display) (visible : Bool) : Display :=
  { d with visible }

/-- Shows a line. -/
def push (d : Display) (line : Line) : Display :=
  (d.switchText (some line.text)).setColor line.color

end Display

end LockScreen
