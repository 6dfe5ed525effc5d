import LockScreen.Battery.Estimate
import LockScreen.Battery.Reading
import LockScreen.Duration

/-!
# The charging text

What the screen says of a battery that is plugged in: the phrase for its speed with the estimated time
in it, and on a second line the measured current and voltage where the user wants them.
-/

namespace LockScreen

/-- A quotient without its fraction, by way of the nearest binary64 number. -/
def wholeQuotient (dividend : Value) (divisor : Nat) : Except Fault Int :=
  match dividend.measure? with
  | some (.int i) => do (← Binary64.quotient i divisor).truncate
  | some (.float x) => (x.divNat divisor).truncate
  | none => .error (.notDivisible dividend.shape)

/-- Current in milliamperes and voltage in volts on a line of their own; empty without a current. -/
def detailsText (c : ChargeState) : Except Fault Text :=
  if c.current.measure?.any Number.isZero then .ok ""
  else do
    let current ← wholeQuotient c.current 1000
    let voltage ← wholeQuotient c.voltage 1000000
    return "\n" ++ Text.ofChars (Text.integerText current) ++ "mA/h / "
      ++ Text.ofChars (Text.integerText voltage) ++ "V"

/-- The phrase for a speed, without an estimate. -/
def Phrases.plain (p : Phrases) : Speed → Text
  | .slow => p.pluggedInSlowly
  | .normal => p.pluggedIn
  | .fast => p.pluggedInFast

/-- The template for a speed, with an estimate. -/
def Phrases.template (p : Phrases) : Speed → Text
  | .slow => p.chargingTimeSlowly
  | .normal => p.chargingTime
  | .fast => p.chargingTimeFast

/-- The phrase for a speed with the estimate in its places; the plain phrase without an estimate. -/
def Phrases.announce (p : Phrases) (speed : Speed) (millis : Int) : Text :=
  if 0 < millis then
    ⟨Text.fillTime (Text.ofChars (Duration.ofMillis millis).text).letters (p.template speed).letters⟩
  else p.plain speed

/-- Whether details follow the charging text, and whether they also do once the battery is charged. -/
structure DetailOptions where
  whileCharging : Bool := false
  whenCharged : Bool := false
deriving DecidableEq, Repr

/-- The text shown of a battery that is plugged in. -/
def chargingText (c : ChargeState) (p : Phrases) (options : DetailOptions)
    (source : Option Answer) (j : Journal) : Except Fault Text × Journal :=
  -- the details are worked out first, so a fault in them comes before any question
  match if options.whileCharging then detailsText c else .ok "" with
  | .error fault => (.error fault, j)
  | .ok details =>
    if c.charged then (.ok (p.charged ++ if options.whenCharged then details else ""), j)
    else
      let asked := askEstimate source j
      (asked.1.map fun millis => p.announce c.speed millis ++ details, asked.2)

end LockScreen
