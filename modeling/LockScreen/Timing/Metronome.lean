import LockScreen.Journal
import LockScreen.Timing.Clock
import LockScreen.Value

/-!
# The metronome

A tick at a steady interval, on a clock of femtoseconds. While the metronome runs it waits for one tick at
a time: a wait lasts the interval in force when it began, so a change of the interval shows from the next
wait on. A tick is due when the clock reaches the end of the wait, and the next wait begins at that end.

A start only asks for the first wait, which begins at the next turn of the metronome. No time passes until then, but
the interval may still change.
-/

namespace LockScreen

/-- What is waited for: the turn at which the first wait begins, or the end of a wait. -/
inductive Wait
  | turn
  | until (moment : Nat)
  | forever
deriving DecidableEq, Repr

/-- The interval in seconds, and what is waited for while the metronome runs. -/
structure Metronome where
  interval : Binary64
  wait : Option Wait := none
deriving DecidableEq

namespace Metronome

/-- An interval, which must not be zero or below. -/
def checkInterval (interval : Value) : Except Fault Binary64 := do
  let interval ← interval.comparable "<="
  if interval.isNegative || interval.isZero then throw .intervalNotPositive
  interval.toBinary64

/-- A metronome that does not run. -/
def ofInterval (interval : Value) : Except Fault Metronome := do
  return { interval := ← checkInterval interval }

/-- The metronome with another interval. -/
def setInterval (m : Metronome) (interval : Value) : Except Fault Metronome := do
  return { m with interval := ← checkInterval interval }

/-- The length of a wait, which takes at least one step of the clock; none where it never ends. -/
def period? (m : Metronome) : Option Nat :=
  (Clock.length? m.interval).map (max 1 ·)

/-- The wait that begins at a moment. -/
def waitFrom (m : Metronome) (moment : Nat) : Wait :=
  match m.period? with
  | some period => .until (moment + period)
  | none => .forever

/-- The metronome was started and not stopped since. -/
def running (m : Metronome) : Bool :=
  m.wait.isSome

/-- Asks for the first wait, unless the metronome runs. -/
def start (m : Metronome) : Metronome :=
  if m.running then m else { m with wait := some .turn }

/-- A turn at a moment: the first wait begins if it was asked for, with the interval in force by now. -/
def turn (m : Metronome) (now : Nat) : Metronome :=
  match m.wait with
  | some .turn => { m with wait := some (m.waitFrom now) }
  | _ => m

/-- Gives up the wait. -/
def stop (m : Metronome) : Metronome :=
  { m with wait := none }

/-- The moments of the ticks that are due when the clock shows a moment, and the metronome after them. -/
def runUntil (m : Metronome) (moment : Nat) : List Nat × Metronome :=
  match m.wait with
  | some (.until first) =>
    if first ≤ Clock.reach moment then
      -- the wait in progress keeps its end; the interval in force counts from there on
      match m.period? with
      | none => ([first], { m with wait := some .forever })
      | some period =>
        let count := (Clock.reach moment - first) / period + 1
        ((List.range count).map fun n => first + n * period,
          { m with wait := some (.until (first + count * period)) })
    else ([], m)
  | _ => ([], m)

end Metronome

/-- A metronome on a clock of its own, which shows milliseconds; its ticks are counted and may fail. -/
structure TickCounter where
  metronome : Metronome
  millis : Nat := 0
  ticks : Nat := 0
  failing : Bool := false
  warnings : List Warning := []

namespace TickCounter

/-- One tick, which leaves a warning when it fails. -/
def tick (c : TickCounter) : TickCounter :=
  { c with
    ticks := c.ticks + 1
    warnings := if c.failing then c.warnings ++ [.tickFailed] else c.warnings }

/-- The metronome has a turn. -/
def turn (c : TickCounter) : TickCounter :=
  { c with metronome := c.metronome.turn (Clock.atMilli c.millis) }

/-- Lets the clock run for some milliseconds, after a turn of the metronome. -/
def advance (c : TickCounter) (millis : Nat) : TickCounter :=
  let ran := c.turn.metronome.runUntil (Clock.atMilli (c.millis + millis))
  ran.1.foldl (fun c _ => c.tick) { c with metronome := ran.2, millis := c.millis + millis }

/-- Starts the metronome. -/
def start (c : TickCounter) : TickCounter :=
  { c with metronome := c.metronome.start }

/-- Stops the metronome. -/
def stop (c : TickCounter) : TickCounter :=
  { c with metronome := c.metronome.stop }

end TickCounter

end LockScreen
