import LockScreen.Timing.Agenda
import LockScreen.Timing.Heap

/-!
# Alarms

The timers of an event loop. The times of alarms are binary64 numbers of seconds, kept in a heap: alarms go off in the
order of their times, and in the order of the heap where these are equal. A cancelled alarm stays in the heap until it
comes first.

The loop takes turns. In each of them the alarms that come first and are not ahead of the clock leave the heap, and
then they go off, one after the other, unless one is cancelled by the time it comes to that. A time that is not a
number is never reached and never ahead, so such an alarm waits for the next turn and goes off with that.
-/

namespace LockScreen

/-- An alarm that is set: when it is due, the number that it is known by, and what it is for. -/
structure Alarm (α : Type) extends Timer α Seconds where
  cancelled : Bool := false
deriving DecidableEq

namespace Alarm

variable {α : Type}

/-- The earlier one of two alarms goes off first. -/
def earlier (p q : Alarm α) : Bool :=
  (p.due.value.compare? q.due.value).any Ordering.isLT

/-- Cancels the alarm if it is known by a number. -/
def cancelIf (id : Nat) (p : Alarm α) : Alarm α :=
  { p with cancelled := p.cancelled || p.id = id }

/-- A heap without the cancelled alarms that come first in it. -/
def withoutCancelled (pending : Heap (Alarm α)) : Heap (Alarm α) :=
  match h : pending.pop? earlier with
  | none => pending
  | some (first, rest) =>
    have := Heap.size_lt_of_pop? h
    if first.cancelled then withoutCancelled rest else pending
termination_by pending.size

/-- The alarms that come first in a heap and are not ahead of the clock, and the heap without them. -/
def takeFirst (now : Seconds) (pending : Heap (Alarm α)) : List (Alarm α) × Heap (Alarm α) :=
  match h : pending.pop? earlier with
  | none => ([], pending)
  | some (first, rest) =>
    have := Heap.size_lt_of_pop? h
    if Clock.isAhead now.value first.due.value then ([], pending)
    else
      let (others, rest) := takeFirst now rest
      (first :: others, rest)
termination_by pending.size

end Alarm

/-- The clock, the number of the next alarm, the alarms that are set, and those of them that have left the heap and go
off next. -/
structure Alarms (α : Type) where
  now : Seconds
  nextId : Nat := 0
  pending : Heap (Alarm α) := {}
  leaving : List (Alarm α) := []

namespace Alarms

variable {α : Type}

/-! ## Calls -/

/-- Sets an alarm to go off at a moment. -/
def set (a : Alarms α) (due : Seconds) (task : α) : Alarms α :=
  { a with
    nextId := a.nextId + 1
    pending := a.pending.push Alarm.earlier { due, id := a.nextId, task } }

/-- Cancels the alarm of a number, wherever it is by now. -/
def cancel (a : Alarms α) (id : Nat) : Alarms α :=
  { a with
    pending := a.pending.map (Alarm.cancelIf id)
    leaving := a.leaving.map (Alarm.cancelIf id) }

/-! ## Turns -/

/-- The clock set to a moment. -/
def setNow (a : Alarms α) (time : Seconds) : Alarms α :=
  { a with now := time }

/-- The alarms that come first and are not ahead of the clock leave the heap. -/
def collect (a : Alarms α) : Alarms α :=
  let (leaving, pending) := Alarm.takeFirst a.now (Alarm.withoutCancelled a.pending)
  { a with leaving := a.leaving ++ leaving, pending }

/-- The alarm that left first goes off, unless it was cancelled since. -/
def goOff (a : Alarms α) : Option (Timer α Seconds) × Alarms α :=
  match a.leaving with
  | [] => (none, a)
  | p :: rest => (if p.cancelled then none else some p.toTimer, { a with leaving := rest })

/-- All that have left the heap go off, where this sets no other alarm and cancels none. -/
def release (a : Alarms α) : List (Timer α Seconds) × Alarms α :=
  ((a.leaving.filter (!·.cancelled)).map (·.toTimer), { a with leaving := [] })

/-- Lets the alarms go off that are reached on the way to a moment, where this sets no other alarm and cancels none. -/
def settle (a : Alarms α) (goal : Seconds) : List (Timer α Seconds) × Alarms α :=
  match a.pending.first? with
  | none => ([], a)
  | some first =>
    if Clock.isReached goal.value first.due.value then
      let (gone, next) := (a.setNow ⟨Clock.movedOn a.now.value first.due.value⟩).collect.release
      -- the first alarm leaves the heap, so each turn leaves fewer
      if next.pending.size < a.pending.size then
        let (others, last) := next.settle goal
        (gone ++ others, last)
      else (gone, next)
    else ([], a)
termination_by a.pending.size

end Alarms

end LockScreen
