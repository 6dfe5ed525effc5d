import LockScreen.Journal
import LockScreen.Timing.Alarms
import LockScreen.Value

/-!
# Alarms under names

Alarms under names that a caller chooses, on a clock that is moved in whole milliseconds. One that fails when it goes
off leaves a warning and disturbs no other. An alarm without delay goes off at the end of the step that set it: a step
does its work within a turn of the loop, and then the clock moves on from alarm to alarm, as long as the first one is
reached.
-/

namespace LockScreen

/-- What goes off: a name, and whether it fails then. -/
structure Signal where
  name : Text
  fails : Bool
deriving DecidableEq, Repr

/-- The milliseconds on the clock, the alarms, the number of the alarm last set under each name, and the alarms gone
off so far. -/
structure NamedAlarms where
  millis : Nat := 0
  alarms : Alarms Signal := { now := ⟨Clock.seconds 0⟩ }
  numbers : List (Text × Nat) := []
  fired : List Text := []
  warnings : List Warning := []

namespace NamedAlarms

/-- Sets an alarm to go off after a delay in seconds. -/
def set (a : NamedAlarms) (signal : Signal) (delay : Value) : Except Fault NamedAlarms := do
  let delay ← delay.comparable "<"
  if delay.isNegative then throw .timerDelayNegative
  let due ← Timescale.after a.alarms.now (← delay.toBinary64)
  return { a with
    alarms := a.alarms.set due signal
    numbers := (signal.name, a.alarms.nextId) :: a.numbers }

/-- Cancels the alarm last set under a name; without one, nothing happens. -/
def cancel (a : NamedAlarms) (name : Text) : NamedAlarms :=
  match a.numbers.lookup name with
  | none => a
  | some id => { a with alarms := a.alarms.cancel id }

/-- Some alarms have gone off. -/
def note (a : NamedAlarms) (gone : List (Timer Signal Seconds)) : NamedAlarms :=
  { a with
    fired := a.fired ++ gone.map (·.task.name)
    warnings := a.warnings ++ (gone.filter (·.task.fails)).map fun _ => .timerFailed }

/-- The rest of a turn, and the turns that follow until the clock shows its milliseconds. -/
def finish (a : NamedAlarms) : NamedAlarms :=
  let (gone, alarms) := a.alarms.release
  let (others, alarms) := alarms.settle ⟨Clock.seconds a.millis⟩
  { a with alarms := alarms.setNow ⟨Clock.seconds a.millis⟩ }.note (gone ++ others)

/-- What can be done to alarms. -/
inductive Step
  | set (signal : Signal) (delay : Value)
  | cancel (name : Text)
  | advance (millis : Nat)

/-- The work of a step. -/
def perform (a : NamedAlarms) : Step → Except Fault NamedAlarms
  | .set signal delay => a.set signal delay
  | .cancel name => .ok (a.cancel name)
  | .advance millis => .ok { a with millis := a.millis + millis }

/-- One step, and why it was refused. -/
def step (a : NamedAlarms) (s : Step) : NamedAlarms × Option Fault :=
  let a := { a with alarms := a.alarms.collect }
  match a.perform s with
  | .ok a => (a.finish, none)
  | .error fault => (a.finish, some fault)

end NamedAlarms

end LockScreen
