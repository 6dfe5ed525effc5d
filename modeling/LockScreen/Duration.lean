import LockScreen.Value

/-!
# Durations

The remaining charge time as it is shown: whole minutes, rounded up and never fewer than one; from two
hours on in hours, and from two days on in days, to the nearest.
-/

namespace LockScreen

/-- A duration in the units in which it is shown. -/
inductive Duration
  | minutes (count : Nat)
  | hours (count : Nat)
  | hourAnd (minutes : Nat)
  | days (count : Nat)
  | dayAnd (hours : Nat)
deriving DecidableEq, Repr

namespace Duration

/-- Milliseconds rounded up to whole minutes, at least one. -/
def minutesUp (millis : Int) : Nat :=
  max 1 (-((-millis) / 60000)).toNat

/-- The shown form of a number of minutes. -/
def ofMinutes (total : Nat) : Duration :=
  let days := total / 1440
  let hours := total % 1440 / 60
  let minutes := total % 60
  if 2 ≤ days then .days (days + (hours + 12) / 24)
  else if days = 1 then if hours = 0 then .days 1 else .dayAnd hours
  else if 2 ≤ hours then .hours (hours + (minutes + 30) / 60)
  else if hours = 1 then if minutes = 0 then .hours 1 else .hourAnd minutes
  else .minutes minutes

/-- The shown form of a number of milliseconds. -/
def ofMillis (millis : Int) : Duration :=
  ofMinutes (minutesUp millis)

/-- The shown form of the milliseconds that a value stands for. -/
def ofValue (v : Value) : Except Fault Duration := do
  return ofMillis (← v.toInteger)

/-- The number of minutes that a shown form stands for. -/
def inMinutes : Duration → Nat
  | minutes n => n
  | hours n => 60 * n
  | hourAnd n => 60 + n
  | days n => 1440 * n
  | dayAnd n => 1440 + 60 * n

/-- The characters of a shown form. There is no limit on the digits of a count: the limit that printing a whole number
may have is left out, since no estimate leads to a count of so many digits. -/
def text : Duration → List Char
  | minutes n => Text.decimalText n ++ " min".toList
  | hours n => Text.decimalText n ++ " hr".toList
  | hourAnd n => "1 hr, ".toList ++ Text.decimalText n ++ " min".toList
  | days n => if n = 1 then "1 day".toList else Text.decimalText n ++ " days".toList
  | dayAnd n => "1 day, ".toList ++ Text.decimalText n ++ " hr".toList

end Duration

end LockScreen
