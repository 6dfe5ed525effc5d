import LockScreen.Timing.Timescale

/-!
# The agenda

The timers that are pending, on a clock that shows moments of some scale, whole milliseconds where nothing else is
said. Timers fire in the order of their times, and of their creation where the times are equal, which is the order in
which the agenda keeps them. A timer is known by a number that is never given twice, so whoever holds the number of a
timer that is gone cannot touch another one.
-/

namespace LockScreen

/-- A timer that is pending, and what it is for. -/
structure Timer (α : Type) (τ : Type := Nat) where
  due : τ
  id : Nat
  task : α
deriving DecidableEq, Repr

/-- The clock, the number of the next timer, and the pending timers in the order in which they fire. -/
structure Agenda (α : Type) (τ : Type := Nat) where
  now : τ := by exact 0
  nextId : Nat := 0
  timers : List (Timer α τ) := []
deriving DecidableEq, Repr

namespace Agenda

variable {α τ : Type}

/-- Puts a timer behind those that are due no later. -/
def place [LE τ] [DecidableLE τ] (t : Timer α τ) : List (Timer α τ) → List (Timer α τ)
  | [] => [t]
  | u :: rest => if u.due ≤ t.due then u :: place t rest else t :: u :: rest

/-- Adds a timer that is due at a moment. Its number is the next one of the agenda. -/
def armAt [LE τ] [DecidableLE τ] (a : Agenda α τ) (due : τ) (task : α) : Agenda α τ :=
  { a with
    nextId := a.nextId + 1
    timers := place ⟨due, a.nextId, task⟩ a.timers }

/-- Adds a timer that is due after some milliseconds. -/
def arm [LE τ] [DecidableLE τ] [HAdd τ Nat τ] (a : Agenda α τ) (delay : Nat) (task : α) : Agenda α τ :=
  a.armAt (a.now + delay) task

/-- Removes the timer of a number, if it is pending. -/
def cancel (a : Agenda α τ) (id : Nat) : Agenda α τ :=
  { a with timers := a.timers.filter (·.id ≠ id) }

/-- What a caller may ask of an agenda. -/
inductive Call (α : Type) (τ : Type)
  | armAt (due : τ) (task : α)
  | cancel (id : Nat)

/-- The agenda after a call. -/
def make [LE τ] [DecidableLE τ] (a : Agenda α τ) : Call α τ → Agenda α τ
  | .armAt due task => a.armAt due task
  | .cancel id => a.cancel id

/-- Removes a timer that may never have been set. -/
def cancel? (a : Agenda α τ) : Option Nat → Agenda α τ
  | none => a
  | some id => a.cancel id

/-- The timer of a number is pending. -/
def holds (a : Agenda α τ) (id : Nat) : Bool :=
  a.timers.any (·.id = id)

/-- The timers that are due by a time. -/
def dueBy [LE τ] [DecidableLE τ] (a : Agenda α τ) (time : τ) : List (Timer α τ) :=
  a.timers.filter (·.due ≤ time)

/-- Takes out a timer that fires, with the clock at its time. -/
def fire (a : Agenda α τ) (t : Timer α τ) : Agenda α τ :=
  { a.cancel t.id with now := t.due }

/-- The clock set to a time. -/
def setNow (a : Agenda α τ) (time : τ) : Agenda α τ :=
  { a with now := time }

/-- The moments left to each timer. -/
def remaining (a : Agenda α) : List Nat :=
  a.timers.map (·.due - a.now)

/-! ## Which timers are pending -/

@[simp]
theorem mem_place [LE τ] [DecidableLE τ] {t u : Timer α τ} {ts : List (Timer α τ)} :
    u ∈ place t ts ↔ u = t ∨ u ∈ ts := by
  induction ts with
  | nil => simp [place]
  | cons v rest ih =>
    by_cases h : v.due ≤ t.due
    · simp only [place, h, if_true, List.mem_cons, ih]
      constructor
      · rintro (rfl | rfl | hu)
        · exact .inr (.inl rfl)
        · exact .inl rfl
        · exact .inr (.inr hu)
      · rintro (rfl | rfl | hu)
        · exact .inr (.inl rfl)
        · exact .inl rfl
        · exact .inr (.inr hu)
    · simp [place, h]

/-- After a timer is set it is pending with all those from before. -/
theorem mem_timers_armAt [LE τ] [DecidableLE τ] {a : Agenda α τ} {due : τ} {task : α} {t : Timer α τ} :
    t ∈ (a.armAt due task).timers ↔ t = ⟨due, a.nextId, task⟩ ∨ t ∈ a.timers := by
  simp [armAt]

/-- After a number is cancelled the timers of all other numbers are pending. -/
theorem mem_timers_cancel {a : Agenda α τ} {id : Nat} {t : Timer α τ} :
    t ∈ (a.cancel id).timers ↔ t ∈ a.timers ∧ t.id ≠ id := by
  simp [cancel]

/-- A number is held exactly while a timer of that number is pending. -/
theorem holds_eq_true_iff {a : Agenda α τ} {id : Nat} :
    a.holds id = true ↔ ∃ t ∈ a.timers, t.id = id := by
  simp [holds]

end Agenda

end LockScreen
