import LockScreen.Number

/-!
# The clock

A clock that is moved in whole milliseconds, and delays that are not whole. Moments are counted in
femtoseconds, so that decimal fractions of a second down to the fifteenth place are whole numbers and add
up without drift. A moment counts as reached a little early: the clock cannot tell it from one that is less
than a nanosecond away. Times of alarms are binary64 numbers of seconds, with the same tolerance.
-/

namespace LockScreen.Clock

/-- The femtoseconds of a millisecond. -/
def perMilli : Nat := Nat.pow 10 12

/-- The femtoseconds that the clock cannot tell apart. -/
def resolution : Nat := Nat.pow 10 6

/-- The moment at a number of milliseconds. -/
def atMilli (millis : Nat) : Nat :=
  millis * perMilli

/-- The last moment that counts as reached when the clock shows the given one. -/
def reach (moment : Nat) : Nat :=
  moment + (resolution - 1)

/-- The length of a delay in seconds, to the nearest femtosecond; none where it is not finite. -/
def length? : Binary64 → Option Nat
  | .finite negative units _ =>
    some (if negative then 0 else roundDiv (units * (1000 * perMilli)) unitsPerOne)
  | _ => none

/-- A number of milliseconds in seconds, to the nearest binary64 number. -/
def seconds (millis : Nat) : Binary64 :=
  .ofRatio false millis 1000

/-- A nanosecond in seconds. -/
def nanosecond : Binary64 :=
  .ofRatio false 1 (Nat.pow 10 9)

/-- A time in seconds lies ahead of the clock: at least a nanosecond. Not a number lies nowhere. -/
def isAhead (now time : Binary64) : Bool :=
  (time.compare? (now.add nanosecond)).any Ordering.isGE

/-- A time in seconds is reached when the clock is set to a goal. Not a number never is. -/
def isReached (goal time : Binary64) : Bool :=
  (time.compare? (goal.add nanosecond)).any Ordering.isLE

/-- The clock moved on to a time, never back. -/
def movedOn (now time : Binary64) : Binary64 :=
  if (time.compare? now).any Ordering.isGT then time else now

/-- A millisecond does not reach the next one. -/
theorem reach_atMilli_lt (millis : Nat) : reach (atMilli millis) < atMilli (millis + 1) := by
  simp only [reach, atMilli, resolution, perMilli, Nat.pow_eq]
  omega

end LockScreen.Clock
