import LockScreen.Settings.Merge

/-!
# Settings built directly

Settings made of their parts instead of a payload. The parts are taken as they are, but for the interval of the
clock tick, which may be any positive number of seconds; flags are reported in the form in which they were
given.
-/

namespace LockScreen.Settings

/-- The parts that settings are built from. -/
def partNames : List Text :=
  ["thresholds", "show_charging_details", "charging_details_when_charged", "warning_color", "strings",
    "tick_interval"]

/-- Thresholds from a pair of rates. -/
def directThresholds : Value → Except Fault Thresholds
  | .list [slow, fast] => Thresholds.ofValues slow fast
  | .thresholds t => .ok t
  | _ => .ok .standard

/-- A colour from its parts, whatever their range. -/
def directColor : Value → Except Fault Color
  | .list parts => Color.ofWholeParts parts
  | _ => .ok .standardWarning

/-- Phrases that are built already. -/
def directPhrases : Value → Phrases
  | .phrases p _ => p
  | _ => .standard

/-- An interval that is any positive number of seconds. -/
def positiveInterval (v : Value) : Except Fault Binary64 := do
  let x ← v.toBinary64
  if x.isFinite && x.isPositive then return x else throw .tickNotPositive

/-- Settings from their parts. Thresholds are built before the names of the parts are looked at. -/
def ofParts (parts : List (Text × Value)) : Except Fault Settings := do
  let thresholds ← directThresholds (field "thresholds" parts)
  Value.checkNames .settings (partNames.contains ·) parts
  let tickInterval ← positiveInterval
    ((Value.lookup "tick_interval" parts).getD (.float standard.tickInterval))
  return {
    thresholds
    showDetails := (Value.lookup "show_charging_details" parts).all Value.isTruthy
    detailsWhenCharged := (Value.lookup "charging_details_when_charged" parts).any Value.isTruthy
    warningColor := ← directColor (field "warning_color" parts)
    phrases := directPhrases (field "strings" parts)
    tickInterval }

/-- The report of settings that are built from their parts. -/
def reportOfParts (parts : List (Text × Value)) : Except Fault Value := do
  let s ← ofParts parts
  return s.report ((Value.lookup "show_charging_details" parts).getD (.bool s.showDetails))
    ((Value.lookup "charging_details_when_charged" parts).getD (.bool s.detailsWhenCharged))

end LockScreen.Settings
