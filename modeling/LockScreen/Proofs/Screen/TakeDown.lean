import LockScreen.Proofs.Screen.FeedbackWindow
import LockScreen.Proofs.Timing.Delays

/-!
# Taking a message down later

A delay for the message that is up is accepted, refused, or lost. One that is accepted sets the timer that takes the
message down, and it is the only one of its kind (`MessageBoard.Scheduled`). One that is refused, because it is no
number or below zero, leaves everything as it was. But one that is not below zero and yet leads nowhere
(`Value.LeadsNowhere`) fails only after the old timer is given up: the message stays, and no timer of that kind is left
to take it down (`MessageBoard.GivenUp`).

This is so on whatever clock the timers are set. Which delays lead nowhere depends on it: on the clock of an event loop
the integers that are too large for a number, and on one of whole milliseconds every number that is not finite
(`Value.LedByClocks`).
-/

namespace LockScreen

variable {τ : Type}

/-! ## Delays that lead nowhere -/

namespace Value

/-- A delay that is not below zero, and that the clock refuses all the same. -/
def LeadsNowhere [Timescale τ] (delay : Value) (now : τ) : Prop :=
  ∃ n, delay.measure? = some n ∧ n.isNegative = false ∧ ∀ due, Timescale.deadline now n ≠ .ok due

/-- A delay that is not below zero, but is no finite number: an integer of too many digits for one, or a number that is
infinite or none at all. -/
def IsUnbounded (delay : Value) : Prop :=
  ∃ n, delay.measure? = some n ∧ n.isNegative = false ∧ ¬n.IsFinite

theorem isUnbounded_int {i : Int} : (int i).IsUnbounded ↔ 0 ≤ i ∧ Binary64.Huge i := by
  constructor
  · rintro ⟨n, hn, hsign, hfinite⟩
    cases hn
    have hhuge : ¬¬Binary64.Huge i := hfinite
    exact ⟨Int.not_lt.mp (of_decide_eq_false hsign), Decidable.not_not.mp hhuge⟩
  · rintro ⟨hsign, hhuge⟩
    have hfinite : ¬(Number.int i).IsFinite := fun h => absurd hhuge h
    exact ⟨.int i, rfl, decide_eq_false (Int.not_lt.mpr hsign), hfinite⟩

/-- A clock of whole milliseconds takes the finite numbers. -/
theorem leadsNowhere_millis_iff {delay : Value} {now : Nat} : delay.LeadsNowhere now ↔ delay.IsUnbounded := by
  constructor
  · rintro ⟨n, hn, hsign, hnowhere⟩
    refine ⟨n, hn, hsign, ?_⟩
    intro hfinite
    obtain ⟨due, hdue⟩ := Timescale.exists_deadline_millis now hfinite
    exact hnowhere due hdue
  · rintro ⟨n, hn, hsign, hfinite⟩
    obtain ⟨fault, hfault⟩ := Timescale.error_of_deadline_millis now hfinite
    refine ⟨n, hn, hsign, ?_⟩
    intro due hdue
    rw [hfault] at hdue
    cases hdue

/-- The clock of an event loop takes all but the integers that are too large for a number. -/
theorem leadsNowhere_seconds_iff {delay : Value} {now : Seconds} :
    delay.LeadsNowhere now ↔ ∃ i, delay.measure? = some (.int i) ∧ 0 ≤ i ∧ Binary64.Huge i := by
  constructor
  · rintro ⟨n, hn, hsign, hnowhere⟩
    cases n with
    | int i =>
      refine ⟨i, hn, Int.not_lt.mp (of_decide_eq_false hsign), ?_⟩
      by_contra hfits
      have hx : (Number.int i).toBinary64 = .ok (Binary64.ofInt i) := by
        rw [Number.toBinary64, Binary64.ofInt?_of_not_huge hfits]
      exact hnowhere _ (Timescale.deadline_seconds now hsign hx)
    | float x => exact absurd (Timescale.deadline_seconds now hsign rfl) (hnowhere _)
  · rintro ⟨i, hi, hsign, hhuge⟩
    refine ⟨.int i, hi, decide_eq_false (Int.not_lt.mpr hsign), ?_⟩
    intro due hdue
    rw [Timescale.deadline_of_huge now hhuge] at hdue
    cases hdue

/-- An integer that is too large leads nowhere on any clock. -/
theorem leadsNowhere_of_huge [Timescale τ] {i : Int} (hsign : 0 ≤ i) (hhuge : Binary64.Huge i) (now : τ) :
    (int i).LeadsNowhere now := by
  refine ⟨.int i, rfl, decide_eq_false (Int.not_lt.mpr hsign), ?_⟩
  intro due hdue
  rw [Timescale.deadline_of_huge now hhuge] at hdue
  cases hdue

/-- Where the clock of an event loop and one of whole milliseconds take a delay. -/
structure LedByClocks (delay : Value) : Prop where
  /-- The seconds are added to the clock of an event loop as they are, also if they are infinite or not a number. -/
  seconds : ∀ n x, delay.measure? = some n → n.isNegative = false → n.toBinary64 = .ok x →
    ∀ now : Seconds, Timescale.deadline now n = .ok ⟨now.value.add (x.divNat 1000)⟩
  seconds_nowhere : ∀ now : Seconds,
    delay.LeadsNowhere now ↔ ∃ i, delay.measure? = some (.int i) ∧ 0 ≤ i ∧ Binary64.Huge i
  /-- Whole milliseconds are taken as they are. -/
  millis : ∀ millis : Nat, millis ≤ Nat.pow 2 50 → delay = .int millis →
    ∀ now : Nat, Timescale.deadline now (.int millis) = .ok (now + millis)
  millis_nowhere : ∀ now : Nat, delay.LeadsNowhere now ↔ delay.IsUnbounded

theorem ledByClocks (delay : Value) : delay.LedByClocks where
  seconds _ _ _ hsign hx now := Timescale.deadline_seconds now hsign hx
  seconds_nowhere _ := leadsNowhere_seconds_iff
  millis _ hmillis _ now := Timescale.deadline_int now hmillis
  millis_nowhere _ := leadsNowhere_millis_iff

end Value

namespace MessageBoard

/-- The numbers that are held: the board's own, and that of the timer of a help text. -/
def handle (b : MessageBoard τ) (help : Option Nat) : Task → Option Nat
  | .takeDown => b.takeDownTimer
  | .endHelp => help

/-- Nothing has changed but the timer that takes the message down. -/
structure Rescheduled (b after : MessageBoard τ) : Prop where
  message : after.message = b.message
  changes : after.changes = b.changes
  now : after.agenda.now = b.agenda.now
  others : after.agenda.timers.filter (·.task ≠ .takeDown) = b.agenda.timers.filter (·.task ≠ .takeDown)

/-- The message is to be taken down at a moment, by the only timer of its kind. -/
structure Scheduled (b after : MessageBoard τ) (due : τ) : Prop extends b.Rescheduled after where
  held : after.takeDownTimer = some b.agenda.nextId
  timers : after.agenda.timers.filter (·.task = .takeDown) = [⟨due, b.agenda.nextId, .takeDown⟩]

/-- The timer that takes the message down is gone. -/
structure GivenUp (b after : MessageBoard τ) : Prop extends b.Rescheduled after where
  held : after.takeDownTimer = none
  timers : after.agenda.timers.filter (·.task = .takeDown) = []

variable {b : MessageBoard τ} {help : Option Nat}

theorem heldBy_cancelTakeDown (h : b.agenda.HeldBy (b.handle help)) :
    b.cancelTakeDown.agenda.HeldBy (b.cancelTakeDown.handle help) := by
  have hcancel := h.cancel? Task.takeDown
  have hhandle : Function.update (b.handle help) .takeDown none = b.cancelTakeDown.handle help := by
    funext task
    cases task <;> rfl
  rw [hhandle] at hcancel
  exact hcancel

theorem givenUp_cancelTakeDown (h : b.agenda.HeldBy (b.handle help)) : b.GivenUp b.cancelTakeDown where
  message := rfl
  changes := rfl
  now := Agenda.now_cancel? b.agenda b.takeDownTimer
  held := rfl
  timers := (heldBy_cancelTakeDown h).filter_task_of_eq_none rfl
  others := h.filter_ne_cancel? .takeDown

/-- To give up the timer is nothing where there is none. -/
theorem cancelTakeDown_eq_self_iff : b.cancelTakeDown = b ↔ b.takeDownTimer = none := by
  constructor
  · intro hsame
    rw [← hsame]
    rfl
  · intro hnone
    obtain ⟨agenda, message, takeDownTimer, changes⟩ := b
    cases hnone
    rfl

section
variable [LE τ] [DecidableLE τ]

theorem heldBy_takeDownAt (h : b.agenda.HeldBy (b.handle help)) (due : τ) :
    (b.takeDownAt due).agenda.HeldBy ((b.takeDownAt due).handle help) := by
  have harm := (heldBy_cancelTakeDown h).armAt .takeDown rfl due
  have hhandle : Function.update (b.cancelTakeDown.handle help) .takeDown (some b.cancelTakeDown.agenda.nextId)
      = (b.takeDownAt due).handle help := by
    funext task
    cases task <;> rfl
  rw [hhandle] at harm
  exact harm

theorem scheduled_takeDownAt (h : b.agenda.HeldBy (b.handle help)) (due : τ) : b.Scheduled (b.takeDownAt due) due where
  message := rfl
  changes := rfl
  now := Agenda.now_cancel? b.agenda b.takeDownTimer
  held := congrArg some (Agenda.nextId_cancel? b.agenda b.takeDownTimer)
  timers := (heldBy_takeDownAt h due).filter_task (Screen.mem_timers_takeDownAt b due)
  others := (Agenda.filter_place_of_not (by rfl) _).trans (h.filter_ne_cancel? .takeDown)

end

/-! ## What a delay comes to -/

section
variable [LE τ] [DecidableLE τ] [Timescale τ]

/-- What a delay comes to: what it leaves of the board, and why it failed if it did. -/
structure AnswersDelay (b : MessageBoard τ) (delay : Value) (o : MessageBoard τ × Option Fault) : Prop where
  /-- A delay that is accepted is a number that leads somewhere, and there the timer is due. -/
  accepted : o.2 = none → ∃ n due, delay.measure? = some n ∧ n.isNegative = false ∧
    Timescale.deadline b.agenda.now n = .ok due ∧ b.Scheduled o.1 due
  /-- Any other delay leaves the board as it was, unless it leads nowhere and there is a timer to lose. -/
  untouched_iff : o.2 ≠ none → (o.1 = b ↔ ¬delay.LeadsNowhere b.agenda.now ∨ b.takeDownTimer = none)
  lost : delay.LeadsNowhere b.agenda.now → o.2 ≠ none ∧ b.GivenUp o.1

theorem takeDownAfter_of_deadline {delay : Value} {n : Number} {due : τ} (hdelay : delay.measure? = some n)
    (hsign : n.isNegative = false) (hdue : Timescale.deadline b.agenda.now n = .ok due) :
    b.takeDownAfter delay = (b.takeDownAt due, none) := by
  simp only [takeDownAfter, Value.comparable, hdelay, hsign, hdue]
  rfl

theorem takeDownAfter_of_leadsNowhere {delay : Value} (h : delay.LeadsNowhere b.agenda.now) :
    ∃ fault, b.takeDownAfter delay = (b.cancelTakeDown, some fault) := by
  obtain ⟨n, hdelay, hsign, hnowhere⟩ := h
  cases hdue : Timescale.deadline b.agenda.now n with
  | ok due => exact absurd hdue (hnowhere due)
  | error fault =>
    refine ⟨fault, ?_⟩
    simp only [takeDownAfter, Value.comparable, hdelay, hsign, hdue]
    rfl

/-- A delay that is neither is refused for what it is or for its sign. -/
theorem takeDownAfter_cases (b : MessageBoard τ) (delay : Value) :
    (∃ n due, delay.measure? = some n ∧ n.isNegative = false ∧ Timescale.deadline b.agenda.now n = .ok due) ∨
      delay.LeadsNowhere b.agenda.now ∨ ∃ fault, b.takeDownAfter delay = (b, some fault) := by
  cases hdelay : delay.measure? with
  | none =>
    refine .inr (.inr ⟨.notComparable "<" delay.shape, ?_⟩)
    simp only [takeDownAfter, Value.comparable, hdelay]
  | some n =>
    cases hsign : n.isNegative with
    | true =>
      refine .inr (.inr ⟨.hideDelayNegative, ?_⟩)
      simp only [takeDownAfter, Value.comparable, hdelay, hsign]
      rfl
    | false =>
      by_cases hleads : ∃ due, Timescale.deadline b.agenda.now n = .ok due
      · obtain ⟨due, hdue⟩ := hleads
        exact .inl ⟨n, due, rfl, hsign, hdue⟩
      · exact .inr (.inl ⟨n, hdelay, hsign, not_exists.mp hleads⟩)

theorem answersDelay_takeDownAfter (h : b.agenda.HeldBy (b.handle help)) (delay : Value) :
    b.AnswersDelay delay (b.takeDownAfter delay) := by
  have hlost : delay.LeadsNowhere b.agenda.now →
      (b.takeDownAfter delay).2 ≠ none ∧ b.GivenUp (b.takeDownAfter delay).1 := by
    intro hdelay
    obtain ⟨fault, hfault⟩ := takeDownAfter_of_leadsNowhere hdelay
    rw [hfault]
    exact ⟨Option.some_ne_none fault, givenUp_cancelTakeDown h⟩
  refine ⟨?_, ?_, hlost⟩
  · intro hnone
    rcases b.takeDownAfter_cases delay with ⟨n, due, hdelay, hsign, hdue⟩ | hdelay | ⟨fault, hrefused⟩
    · rw [takeDownAfter_of_deadline hdelay hsign hdue]
      exact ⟨n, due, hdelay, hsign, hdue, scheduled_takeDownAt h due⟩
    · exact absurd hnone (hlost hdelay).1
    · rw [hrefused] at hnone
      cases hnone
  · intro hfault
    by_cases hdelay : delay.LeadsNowhere b.agenda.now
    · obtain ⟨fault, hgivenUp⟩ := takeDownAfter_of_leadsNowhere hdelay
      rw [hgivenUp, cancelTakeDown_eq_self_iff]
      simp [hdelay]
    · refine iff_of_true ?_ (.inl hdelay)
      rcases b.takeDownAfter_cases delay with ⟨n, due, hnumber, hsign, hdue⟩ | hnowhere | ⟨fault, hrefused⟩
      · rw [takeDownAfter_of_deadline hnumber hsign hdue] at hfault
        exact absurd rfl hfault
      · exact absurd hnowhere hdelay
      · rw [hrefused]

end

/-! ## A board of its own -/

/-- The boards that are reached on a clock of any scale: from an empty one, by what is done to it, by pending timers
that go off, whatever the time, and by the clock, wherever it moves. -/
inductive Live [LE τ] [DecidableLE τ] [Timescale τ] : MessageBoard τ → Prop
  | empty (now : τ) : Live { agenda := { now } }
  | put {b : MessageBoard τ} (m : Message) : Live b → Live (b.put m)
  | takeDown {b : MessageBoard τ} : Live b → Live b.takeDown
  | takeDownAfter {b : MessageBoard τ} (delay : Value) : Live b → Live (b.takeDownAfter delay).1
  | cancelTakeDown {b : MessageBoard τ} : Live b → Live b.cancelTakeDown
  | fire {b : MessageBoard τ} {t : Timer Task τ} : Live b → t ∈ b.agenda.timers → Live (b.fire t)
  | setNow {b : MessageBoard τ} (time : τ) : Live b → Live { b with agenda := b.agenda.setNow time }

/-- A timer that goes off is given up; without a help text it can only be the board's own. -/
theorem heldBy_fire (h : b.agenda.HeldBy (b.handle none)) {t : Timer Task τ} (ht : t ∈ b.agenda.timers) :
    (b.fire t).agenda.HeldBy ((b.fire t).handle none) := by
  have hheld := h.held t ht
  have hfired := h.fire ht
  unfold fire
  rw [if_pos (Agenda.holds_of_mem ht)]
  cases htask : t.task with
  | endHelp =>
    rw [htask] at hheld
    cases hheld
  | takeDown =>
    rw [htask] at hfired
    dsimp only
    rw [Screen.agenda_expire]
    have hhandle : Function.update (b.handle none) .takeDown none
        = (expire { b with agenda := b.agenda.fire t }).handle none := by
      funext task
      cases task with
      | takeDown => exact (Screen.takeDownTimer_expire _).symm
      | endHelp => rfl
    rw [← hhandle]
    exact hfired

theorem heldBy_takeDown (h : b.agenda.HeldBy (b.handle help)) :
    b.takeDown.agenda.HeldBy (b.takeDown.handle help) := by
  unfold takeDown
  split
  · exact heldBy_cancelTakeDown h
  · exact h

theorem heldBy_takeDownAfter [LE τ] [DecidableLE τ] [Timescale τ] (h : b.agenda.HeldBy (b.handle help))
    (delay : Value) : (b.takeDownAfter delay).1.agenda.HeldBy ((b.takeDownAfter delay).1.handle help) := by
  rcases Screen.board_takeDownAfter_cases b delay with hboard | ⟨due, hboard⟩ | hboard
  · rw [hboard]
    exact h
  · rw [hboard]
    exact heldBy_takeDownAt h due
  · rw [hboard]
    exact heldBy_cancelTakeDown h

theorem Live.heldBy [LE τ] [DecidableLE τ] [Timescale τ] (h : b.Live) : b.agenda.HeldBy (b.handle none) := by
  induction h with
  | empty now => exact Agenda.heldBy_nil now fun task => by cases task <;> rfl
  | put m _ ih => exact heldBy_cancelTakeDown ih
  | takeDown _ ih => exact heldBy_takeDown ih
  | takeDownAfter delay _ ih => exact heldBy_takeDownAfter ih delay
  | cancelTakeDown _ ih => exact heldBy_cancelTakeDown ih
  | fire _ ht ih => exact heldBy_fire ih ht
  | setNow time _ ih => exact ih.setNow time

/-! ### In whole milliseconds -/

/-- The boards that steps lead to from an empty one. -/
inductive Reachable : MessageBoard → Prop
  | empty : Reachable {}
  | step {b : MessageBoard} (s : Step) : Reachable b → Reachable (b.step s).1

theorem fire_of_not_holds {b : MessageBoard} {t : Timer Task} (h : ¬b.agenda.holds t.id = true) : b.fire t = b :=
  if_neg h

theorem mem_timers_of_mem_fire {b : MessageBoard} {t u : Timer Task} (hu : u ∈ (b.fire t).agenda.timers) :
    u ∈ b.agenda.timers := by
  unfold fire at hu
  split at hu
  · split at hu
    · rw [Screen.agenda_expire] at hu
      exact (Agenda.mem_timers_cancel.mp hu).1
    · exact (Agenda.mem_timers_cancel.mp hu).1
  · exact hu

theorem Live.foldl_fire {b : MessageBoard} (h : b.Live) {ts : List (Timer Task)}
    (hts : ∀ t ∈ ts, b.agenda.holds t.id = true → t ∈ b.agenda.timers) : (ts.foldl MessageBoard.fire b).Live := by
  induction ts generalizing b with
  | nil => exact h
  | cons t rest ih =>
    by_cases hheld : b.agenda.holds t.id = true
    · have ht := hts t List.mem_cons_self hheld
      refine ih (h.fire ht) ?_
      intro u hu
      exact h.heldBy.mem_timers_of_holds (fun _ => mem_timers_of_mem_fire) (hts u (List.mem_cons_of_mem t hu))
    · rw [List.foldl_cons, fire_of_not_holds hheld]
      exact ih h fun u hu => hts u (List.mem_cons_of_mem t hu)

theorem Live.step {b : MessageBoard} (h : b.Live) (s : Step) : (b.step s).1.Live := by
  cases s with
  | put m => exact h.put m
  | takeDown => exact h.takeDown
  | takeDownAfter delay => exact h.takeDownAfter delay
  | cancelTakeDown => exact h.cancelTakeDown
  | advance millis =>
    exact (h.foldl_fire fun t ht _ => Agenda.mem_timers_of_mem_dueBy ht).setNow (b.agenda.now + millis)

theorem Reachable.live {b : MessageBoard} (h : b.Reachable) : b.Live := by
  induction h with
  | empty => exact .empty 0
  | step s _ ih => exact ih.step s

theorem Reachable.heldBy {b : MessageBoard} (h : b.Reachable) : b.agenda.HeldBy (b.handle none) :=
  h.live.heldBy

end MessageBoard

/-! ## On a screen -/

namespace Screen

/-- A screen that nothing has happened to, with its clock at a moment of any scale. -/
def startAt (now : τ) (settings : Settings) (phone : Phone) (user : Int) (unlockSource : UnlockSource)
    (estimateSource : EstimateSource) : Screen τ where
  settings
  charging := { thresholds := settings.thresholds }
  feedback := { warningColor := settings.warningColor }
  board := { agenda := { now } }
  phone
  user
  unlockSource
  estimateSource

/-- The screens that are reached on a clock of any scale: from one that nothing has happened to, by actions, by pending
timers that go off, whatever the time, and by the clock, wherever it moves. -/
inductive Live [LE τ] [DecidableLE τ] [HAdd τ Nat τ] [Timescale τ] : Screen τ → Prop
  | start (now : τ) (settings : Settings) (phone : Phone) (user : Int) (unlockSource : UnlockSource)
      (estimateSource : EstimateSource) : Live (startAt now settings phone user unlockSource estimateSource)
  | act {s : Screen τ} (a : Action) : Live s → Live (s.act a).screen
  | fire {s : Screen τ} {t : Timer Task τ} : Live s → t ∈ s.board.agenda.timers → Live (s.fire t).screen
  | setNow {s : Screen τ} (time : τ) : Live s → Live { s with board.agenda := s.board.agenda.setNow time }

theorem Live.owned [LE τ] [DecidableLE τ] [HAdd τ Nat τ] [Timescale τ] {s : Screen τ} (h : s.Live) : s.Owned := by
  induction h with
  | start now settings phone user unlockSource estimateSource =>
    exact Agenda.heldBy_nil now fun task => by cases task <;> rfl
  | act a _ ih => exact ih.act a
  | fire _ ht ih => exact ih.fire ht
  | setNow time _ ih => exact ih.setNow time

theorem Fires.live {s : Screen} {fired : List (Screen × Timer Task)} {o : Outcome} (h : Fires s fired o)
    (hs : s.Live) : o.screen.Live := by
  induction h with
  | nil s => exact hs
  | last ht _ => exact hs.fire ht
  | cons ht _ _ ih => exact ih (hs.fire ht)

theorem Live.move {s : Screen} (h : s.Live) (m : Move) : (s.move m).screen.Live := by
  cases m with
  | act a =>
    cases a with
    | advance millis =>
      exact Outcome.alter_induct ((fires_advance h.owned millis).live h) fun u hu => hu.setNow _
    | _ => exact h.act _
  | fire id =>
    cases ht : s.timer? id with
    | some t =>
      rw [move_fire_of_timer? ht]
      exact h.fire (timer?_eq_some ht).1
    | none =>
      rw [move_fire_of_timer?_eq_none ht]
      exact h

/-- Runs in whole milliseconds are among them. -/
theorem Reach.live {allowed : Screen → Move → Prop} {s : Screen} (h : Reach allowed s) : s.Live := by
  induction h with
  | start settings phone user unlockSource estimateSource => exact .start 0 _ _ _ _ _
  | move m _ _ ih => exact ih.move m

theorem heldBy_of_owned {s : Screen τ} (h : s.Owned) :
    s.board.agenda.HeldBy (s.board.handle s.feedback.helpTimer) := by
  have hhandle : s.handle = s.board.handle s.feedback.helpTimer := by
    funext task
    cases task <;> rfl
  rw [← hhandle]
  exact h

theorem answersDelay_takeDownAfter [LE τ] [DecidableLE τ] [Timescale τ] {s : Screen τ} (h : s.Owned)
    (delay : Value) :
    s.board.AnswersDelay delay ((s.takeDownAfter delay).screen.board, (s.takeDownAfter delay).fault) :=
  MessageBoard.answersDelay_takeDownAfter (heldBy_of_owned h) delay

end Screen

end LockScreen
