import LockScreen.Line
import LockScreen.Timing.Agenda

/-!
# The message board

The board holds at most one message, and at most one timer that will take the message down. Putting up
a message always cancels that timer, so a timer never takes down a message that came after it.

The agenda on which the timer is set also carries the timer of the fingerprint feedback, so it is part
of the board. Its clock may be of any scale.
-/

namespace LockScreen

/-- What a timer of the screen is for. -/
inductive Task
  | takeDown
  | endHelp
deriving DecidableEq, Repr

/-- The message that is up, the timer that takes it down, and the number of changes so far. -/
structure MessageBoard (τ : Type := Nat) where
  agenda : Agenda Task τ := by exact {}
  message : Option Message := none
  takeDownTimer : Option Nat := none
  changes : Nat := 0
deriving DecidableEq, Repr

namespace MessageBoard

variable {τ : Type}

/-- Cancels the timer that would take the message down. -/
def cancelTakeDown (b : MessageBoard τ) : MessageBoard τ :=
  { b with agenda := b.agenda.cancel? b.takeDownTimer, takeDownTimer := none }

/-- Puts up a message in the place of any other. -/
def put (b : MessageBoard τ) (m : Message) : MessageBoard τ :=
  { b.cancelTakeDown with message := some m, changes := b.changes + 1 }

/-- Takes the message down; without one, nothing happens. -/
def takeDown (b : MessageBoard τ) : MessageBoard τ :=
  if b.message.isSome then
    { b.cancelTakeDown with message := none, changes := b.changes + 1 }
  else b

/-- The timer went off: it is gone, and so is the message. -/
def expire (b : MessageBoard τ) : MessageBoard τ :=
  if b.message.isSome then
    { b with message := none, takeDownTimer := none, changes := b.changes + 1 }
  else { b with takeDownTimer := none }

/-- One pending timer goes off, unless it was cancelled meanwhile. -/
def fire (b : MessageBoard τ) (t : Timer Task τ) : MessageBoard τ :=
  if b.agenda.holds t.id then
    match t.task with
    | .takeDown => { b with agenda := b.agenda.fire t }.expire
    | .endHelp => { b with agenda := b.agenda.fire t }
  else b

/-! ## Setting the timer -/

section
variable [LE τ] [DecidableLE τ]

/-- Sets the timer that takes the message down, in the place of any other. -/
def takeDownAt (b : MessageBoard τ) (due : τ) : MessageBoard τ :=
  let b := b.cancelTakeDown
  { b with
    agenda := b.agenda.armAt due .takeDown
    takeDownTimer := some b.agenda.nextId }

/-- Sets the timer for a number of milliseconds. -/
def takeDownIn [HAdd τ Nat τ] (b : MessageBoard τ) (millis : Nat) : MessageBoard τ :=
  b.takeDownAt (b.agenda.now + millis)

/-- Sets the timer for a delay that comes from outside. The old timer is given up before the new delay
is converted. -/
def takeDownAfter [Timescale τ] (b : MessageBoard τ) (delay : Value) : MessageBoard τ × Option Fault :=
  match delay.comparable "<" with
  | .error fault => (b, some fault)
  | .ok delay =>
    -- a negative delay leaves the old timer as it is
    if delay.isNegative then (b, some .hideDelayNegative)
    else
      match Timescale.deadline b.agenda.now delay with
      | .ok due => (b.takeDownAt due, none)
      | .error fault => (b.cancelTakeDown, some fault)

end

/-! ## A board of its own -/

/-- Lets the clock run for some milliseconds. -/
def advance (b : MessageBoard) (millis : Nat) : MessageBoard :=
  let time := b.agenda.now + millis
  let b := (b.agenda.dueBy time).foldl fire b
  { b with agenda := b.agenda.setNow time }

/-- What can be done to a board. -/
inductive Step
  | put (m : Message)
  | takeDown
  | takeDownAfter (delay : Value)
  | cancelTakeDown
  | advance (millis : Nat)

/-- One step, and why it was refused. -/
def step (b : MessageBoard) : Step → MessageBoard × Option Fault
  | .put m => (b.put m, none)
  | .takeDown => (b.takeDown, none)
  | .takeDownAfter delay => b.takeDownAfter delay
  | .cancelTakeDown => (b.cancelTakeDown, none)
  | .advance millis => (b.advance millis, none)

end MessageBoard

end LockScreen
