import LockScreen.Screen.Basic

/-!
# Reports

The object forms in which the screen and the phone around it are reported.
-/

namespace LockScreen

/-- An optional text as a value. -/
def Value.ofText? : Option Text → Value
  | none => .null
  | some s => .text s

/-- A colour with its text form under the name `color`. -/
def Color.field (c : Color) : Text × Value :=
  ("color", .text c.toHex)

/-- The charging state. -/
def ChargeState.toValue (c : ChargeState) : Value :=
  .object
    [("plugged_in", .bool c.pluggedIn),
     ("charged", .bool c.charged),
     ("speed", .text c.speed.name),
     ("current", c.current),
     ("voltage", c.voltage),
     ("wattage", c.power)]

/-- The display. -/
def Display.toValue (d : Display) : Value :=
  .object
    [("text", .text d.text),
     d.color.field,
     ("visible", .bool d.visible),
     ("updates", .int d.updates)]

/-- The state of the device. -/
def Phone.toValue (p : Phone) : Value :=
  .object
    [("user_unlocked", p.userUnlocked.given),
     ("interactive", p.interactive.given),
     ("fingerprint_allowed", p.fingerprintAllowed.given),
     ("bouncer_showing", p.bouncerShowing.given),
     ("charge_time_remaining_ms", p.chargeTime),
     ("lock_icon_error", p.lockIconError.given),
     ("bouncer_messages", .list (p.bouncerNotices.map fun m =>
       .object [("text", .text m.text), m.color.field]))]

/-- The line last shown. -/
def Line.toValue (l : Line) : Value :=
  .object [("text", .text l.text), l.color.field, ("source", .text l.layer.name)]

/-- The message that is up. -/
def Message.toValue (m : Message) : Value :=
  .object [("text", .ofText? m.text), m.color.field]

/-- The state of the screen and of its display. -/
def Screen.toValue (s : Screen) : Value :=
  .object
    [("visible", .bool s.visible),
     ("indication", (s.lastLine.map Line.toValue).getD .null),
     ("transient", (s.board.message.map Message.toValue).getD .null),
     ("hide_pending", .bool s.board.takeDownTimer.isSome),
     ("charging", s.charging.state.toValue),
     ("resting", .ofText? s.resting),
     ("pending_screen_on_message", .ofText? s.feedback.deferred),
     ("last_error_code", .int s.feedback.lastError),
     ("display", s.display.toValue)]

end LockScreen
