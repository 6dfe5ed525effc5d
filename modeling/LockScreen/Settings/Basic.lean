import LockScreen.Color

/-!
# Settings

What a user can set, and the object form in which settings are reported and stored.
-/

namespace LockScreen

/-- The preferences of a user and the texts of the screen. -/
structure Settings where
  thresholds : Thresholds := .standard
  showDetails : Bool := true
  detailsWhenCharged : Bool := false
  warningColor : Color := .standardWarning
  phrases : Phrases := .standard
  tickInterval : Binary64 := Binary64.ofInt 60
deriving DecidableEq

namespace Settings

/-- The settings used where nothing else is set. -/
def standard : Settings := {}

/-- Settings that a payload can lead to. -/
structure Valid (s : Settings) : Prop where
  thresholds : s.thresholds.Valid
  warningColor : s.warningColor.Valid
  phrases : s.phrases.Valid
  tickInterval : s.tickInterval.isBetween 1 3600 = true

end Settings

/-- Thresholds as an object. -/
def Thresholds.toValue (t : Thresholds) : Value :=
  .object [("slow_threshold", .int t.slow), ("fast_threshold", .int t.fast)]

/-- Phrases as an object. -/
def Phrases.toValue (p : Phrases) : Value :=
  .object (Phrase.all.map fun k => (k.name, .text (p.get k)))

/-- Settings as an object, with the flags in the form in which they were given. -/
def Settings.report (s : Settings) (showDetails detailsWhenCharged : Value) : Value :=
  .object
    [("charging", .object
      [("thresholds", s.thresholds.toValue),
       ("show_details", showDetails),
       ("details_when_charged", detailsWhenCharged)]),
     ("warning_color", .text s.warningColor.toHex),
     ("strings", s.phrases.toValue),
     ("tick_interval", .float s.tickInterval)]

/-- Settings as an object. -/
def Settings.toValue (s : Settings) : Value :=
  s.report (.bool s.showDetails) (.bool s.detailsWhenCharged)

end LockScreen
