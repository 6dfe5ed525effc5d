import LockScreen.Number
import LockScreen.Timing.Clock

/-!
# Scales of time

A timer is set on a clock, either for some milliseconds that are known beforehand or for a delay that is given. A delay
is given in milliseconds and divided into seconds, in binary64; then it depends on the clock where the seconds lead, or
whether they lead anywhere.

There are two clocks. One shows whole milliseconds: it rounds what it is given, so a number that is infinite or none at
all is refused. The other one is the clock of an event loop, whose moments are seconds in binary64: it takes any delay
that is not below zero, and a delay that is not a number leads to a moment that is none.
-/

namespace LockScreen

/-- A scale on which the moments of a clock lie. From each of them a delay in seconds leads to another one, unless it
is refused. -/
class Timescale (τ : Type) where
  after (now : τ) (delay : Binary64) : Except Fault τ

/-- The moment to which a delay in milliseconds leads. -/
def Timescale.deadline {τ : Type} [Timescale τ] (now : τ) (delay : Number) : Except Fault τ := do
  Timescale.after now ((← delay.toBinary64).divNat 1000)

/-! ## Whole milliseconds -/

/-- A delay in seconds as whole milliseconds, to the nearest. -/
def Binary64.toMillis (delay : Binary64) : Except Fault Nat := do
  return (← (delay.mulNat 1000).round).toNat

instance : Timescale Nat where
  after now delay := do return now + (← delay.toMillis)

/-! ## Seconds -/

/-- A moment on the clock of an event loop. -/
structure Seconds where
  value : Binary64
deriving DecidableEq

namespace Seconds

/-- No later. A moment that is not a number is neither earlier nor later than any. -/
instance : LE Seconds where
  le a b := (a.value.compare? b.value).any Ordering.isLE = true

instance : DecidableLE Seconds :=
  fun _ _ => inferInstanceAs (Decidable (_ = true))

instance : HAdd Seconds Nat Seconds where
  hAdd now millis := ⟨now.value.add (Clock.seconds millis)⟩

instance : Timescale Seconds where
  after now delay := if delay.isNegative then .error .timerDelayNegative else .ok ⟨now.value.add delay⟩

end Seconds

end LockScreen
