import LockScreen.Proofs.Screen.History
import LockScreen.Proofs.Screen.MessageLifetime
import LockScreen.Proofs.Screen.TakeDown

/-!
# How long the icon is lit

A help text lights the lock icon and has a timer set, and both go together: the timer goes off, or an error gives the
two up. In between the message may be taken down or replaced, at once or by the timer of the board, and neither the
icon nor the timer is touched by that. So the icon is lit exactly while the timer of a help text is pending
(`Matched`), on a screen on which no move stops half-way: one that stops after the icon is lit has set no timer yet.

The timer that is pending is that of the last help text, unless an error was shown since or its time is over
(`helpEnds_iff`). `icon_lit_for_last_help` says of the icon what follows.
-/

namespace LockScreen

/-- A move that gives up the timers from outside, or sets the icon. -/
def Move.isInterference : Move → Bool
  | .act .close | .act (.phone (.lockIconError _)) => true
  | _ => false

namespace Screen

/-- A move that does all it has to and does not interfere with the icon. -/
def Undisturbed (s : Screen) (m : Move) : Prop :=
  s.Faultless m ∧ m.isInterference = false

instance (s : Screen) (m : Move) : Decidable (s.Undisturbed m) :=
  inferInstanceAs (Decidable (_ ∧ _))

/-! ## The icon and its timer -/

/-- The icon is lit exactly while a number is held for the timer of a help text. -/
def Matched (s : Screen) : Prop :=
  s.phone.lockIconError.isUp = s.feedback.helpTimer.isSome

namespace Matched

variable {s : Screen}

theorem of_same {u : Screen} (h : s.Matched) (hicon : u.phone.lockIconError = s.phone.lockIconError)
    (hhelp : u.feedback.helpTimer = s.feedback.helpTimer) : u.Matched := by
  unfold Matched
  rw [hicon, hhelp]
  exact h

theorem refresh (h : s.Matched) : s.refresh.screen.Matched := by
  obtain ⟨_, _, _, hrefresh⟩ := s.refresh_frame
  rw [hrefresh]
  exact h.of_same rfl rfl

theorem withBoard (h : s.Matched) (board : MessageBoard) : (s.withBoard board).screen.Matched :=
  h.of_same (by rw [phone_withBoard]) (by rw [feedback_withBoard])

/-- A help text that was up gives way to an error, with its timer and its icon. -/
theorem announceError (h : s.Matched) (text : Text) : (s.announceError text).screen.Matched := by
  refine Outcome.alter_induct ?_ fun u hu => hu.of_same rfl rfl
  split
  · have hgone : (s.cancelHelp.setIcon false).Matched := rfl
    exact hgone.withBoard _
  · exact h.withBoard _

/-- A help text has its timer set after the icon is lit, where nothing stops it in between. -/
theorem receive (h : s.Matched) {e : Event} (hfault : (s.receive e).fault = none) :
    (s.receive e).screen.Matched := by
  revert hfault
  refine receive_induct (P := fun o => o.fault = none → o.screen.Matched) e ?_ ?_ ?_ ?_ ?_
  · rintro u ⟨_, _, _, rfl⟩ _
    exact h.of_same rfl rfl
  · intro charging _ _
    exact Matched.refresh (s := { s with charging }) (h.of_same rfl rfl)
  · intro fault _
    exact h
  · intro text note hnote _
    refine Outcome.alter_induct (h.announceError text) ?_
    intro u hu
    obtain ⟨_, _, heq⟩ := hnote u
    rw [heq]
    exact hu.of_same rfl rfl
  · intro text hfault
    -- the number of the timer is kept only if the refresh in between did not fail
    have hput := (Outcome.fault_eq_none_of_andThen hfault).1
    rw [Outcome.alter_of_fault_eq_none hput]
    have hlit : ((s.setIcon true).put (s.warning text)).screen.phone.lockIconError.isUp = true := by
      rw [put, phone_withBoard]
      rfl
    exact hlit

theorem perform (h : s.Matched) (task : Task) : (s.perform task).screen.Matched := by
  cases task with
  | takeDown => exact h.withBoard _
  | endHelp =>
    have hgone : ({ s with feedback.helpTimer := none }.setIcon false).Matched := rfl
    exact hgone.withBoard _

theorem fire (h : s.Matched) (t : Timer Task) : (s.fire t).screen.Matched := by
  by_cases hheld : s.board.agenda.holds t.id = true
  · rw [fire_of_holds hheld]
    exact Matched.perform (s := { s with board.agenda := s.board.agenda.fire t }) (h.of_same rfl rfl) t.task
  · rw [fire_of_not_holds hheld]
    exact h

theorem fireAll (h : s.Matched) (ts : List (Timer Task)) : (s.fireAll ts).screen.Matched := by
  induction ts generalizing s with
  | nil => exact h
  | cons t rest ih => exact Outcome.andThen_induct (P := fun o => o.screen.Matched) (h.fire t) fun u hu => ih hu

theorem step (h : s.Matched) {a : Action} (ha : s.Undisturbed (.act a)) : (s.step a).screen.Matched := by
  obtain ⟨hfault, hinterference⟩ := ha
  cases a with
  | close => cases hinterference
  | event e => exact h.receive hfault
  | advance millis => exact Outcome.alter_induct (h.fireAll _) fun u hu => hu.of_same rfl rfl
  | put m => exact h.withBoard _
  | takeDown => exact h.withBoard _
  | takeDownAfter delay => exact h.of_same rfl rfl
  | rest text => exact Matched.refresh (h.of_same rfl rfl)
  | apply settings => exact Matched.refresh (h.of_same rfl rfl)
  | applyPayload payload =>
    simp only [Screen.step, Screen.act, applyPayload]
    split
    · exact Matched.refresh (h.of_same rfl rfl)
    · exact h
  | setVisible visible =>
    simp only [Screen.step, Screen.act, setVisible]
    split
    · exact Matched.refresh (h.of_same rfl rfl)
    · exact h.of_same rfl rfl
  | look =>
    obtain ⟨journal, hasked⟩ := s.askUnlocked_frame
    simp only [Screen.step, Screen.act, hasked]
    exact h.of_same rfl rfl
  | phone change =>
    cases change with
    | lockIconError on => cases hinterference
    | _ => exact h.of_same rfl rfl
  | unlockSource source => exact h.of_same rfl rfl
  | estimateSource source =>
    obtain ⟨_, hsource⟩ := s.setEstimateSource_frame source
    simp only [Screen.step, Screen.act, hsource]
    exact h.of_same rfl rfl

theorem move (h : s.Matched) {m : Move} (hm : s.Undisturbed m) : (s.move m).screen.Matched := by
  cases m with
  | act a => exact h.step hm
  | fire id =>
    cases ht : s.timer? id with
    | some t =>
      rw [move_fire_of_timer? ht]
      exact h.fire t
    | none =>
      rw [move_fire_of_timer?_eq_none ht]
      exact h

theorem moved (h : s.Matched) {moves : List Move} (hmoves : s.Throughout Undisturbed moves) :
    (s.moved moves).Matched := by
  induction moves generalizing s with
  | nil => exact h
  | cons m rest ih => exact ih (h.move hmoves.1) hmoves.2

theorem isUp_iff (h : s.Matched) (howned : s.Owned) :
    s.phone.lockIconError.isUp = true ↔ ∃ t ∈ s.board.agenda.timers, t.task = .endHelp := by
  rw [h]
  exact Agenda.HeldBy.isSome_iff howned .endHelp

end Matched

/-! ## The time of a help text -/

/-- The pending timers that end a help text. -/
def helpTimers (s : Screen) : List (Timer Task) :=
  s.board.agenda.timers.filter (·.task ≠ .takeDown)

theorem mem_helpTimers {s : Screen} {t : Timer Task} :
    t ∈ s.helpTimers ↔ t ∈ s.board.agenda.timers ∧ t.task = .endHelp := by
  unfold helpTimers
  rw [List.mem_filter]
  cases htask : t.task with
  | takeDown => simp
  | endHelp => simp

/-- A help text ends at a time. -/
def HelpEnds (s : Screen) (time : Nat) : Prop :=
  ∃ t ∈ s.helpTimers, t.due = time

/-- The move shows a text that is taken down by a timer of the task: a help text or an error. -/
def Shows (task : Task) (s : Screen) (m : Move) : Prop :=
  ∃ e text, m = .act (.event e) ∧ s.announced? e = some (text, task)

/-- At a time a help text was shown, and since then neither another one nor an error. -/
def LastHelp (time : Nat) (s : Screen) (moves : List Move) : Prop :=
  Since (fun u m => u.Shows .endHelp m ∧ u.board.agenda.now = time) (fun u m => ∃ task, u.Shows task m) s moves

variable {s : Screen} {a : Action}

/-- What is announced is a help text or an error, and not both. -/
theorem Shows.unique {task other : Task} {m : Move} (h : s.Shows task m) (h' : s.Shows other m) : task = other := by
  obtain ⟨e, text, rfl, hannounced⟩ := h
  obtain ⟨_, _, heq, hother⟩ := h'
  cases heq
  rw [hannounced] at hother
  cases hother
  rfl

theorem helpEnds_of_help {m : Move} (howned : s.Owned) (hshows : s.Shows .endHelp m) (hfault : s.Faultless m) :
    (s.move m).screen.board.agenda.now = s.board.agenda.now ∧
      ∀ time, (s.move m).screen.HelpEnds time ↔ time = s.board.agenda.now + Feedback.helpMillis := by
  obtain ⟨e, text, rfl, hannounced⟩ := hshows
  have hafter := (announced_of_help howned hannounced hfault).1
  refine ⟨hafter.now, ?_⟩
  intro time
  have hrow : ((s.receive e).screen.board.agenda.timers.filter (·.task ≠ .takeDown))
      = [⟨s.board.agenda.now + Feedback.helpMillis, s.board.agenda.nextId, .endHelp⟩] := by
    rw [hafter.timers]
    rfl
  show (∃ t ∈ (s.receive e).screen.board.agenda.timers.filter (·.task ≠ .takeDown), t.due = time) ↔ _
  rw [hrow]
  simp [eq_comm]

theorem not_helpEnds_of_error {m : Move} (howned : s.Owned) (hshows : s.Shows .takeDown m)
    (hfault : s.Faultless m) (time : Nat) : ¬(s.move m).screen.HelpEnds time := by
  obtain ⟨e, text, rfl, hannounced⟩ := hshows
  have hafter := announced_of_error howned hannounced hfault
  rintro ⟨t, ht, _⟩
  obtain ⟨hmem, htask⟩ := mem_helpTimers.mp ht
  have hpending : t ∈ (s.receive e).screen.board.agenda.timers := hmem
  rw [hafter.timers, List.mem_singleton] at hpending
  rw [hpending] at htask
  cases htask

/-- Nothing happens to the help text. -/
structure KeepsHelp (s u : Screen) : Prop where
  now : u.board.agenda.now = s.board.agenda.now
  timers : u.helpTimers = s.helpTimers

theorem KeepsHelp.of_board {u : Screen} (hboard : u.board = s.board) : s.KeepsHelp u := by
  refine ⟨?_, ?_⟩
  · rw [hboard]
  · unfold helpTimers
    rw [hboard]

theorem KeepsHelp.of_rescheduled {u : Screen} {board : MessageBoard} (h : s.board.Rescheduled board)
    (hagenda : u.board.agenda = board.agenda) : s.KeepsHelp u := by
  refine ⟨?_, ?_⟩
  · rw [hagenda, h.now]
  · unfold helpTimers
    rw [hagenda, h.others]

/-- An action that shows no feedback keeps the help text, unless it gives up the timers or lets the clock run. -/
theorem keepsHelp_step (howned : s.Owned) (hclose : a ≠ .close) (hclock : ∀ millis, a ≠ .advance millis)
    (hshows : ∀ task, ¬s.Shows task (.act a)) : s.KeepsHelp (s.step a).screen := by
  have hheld := heldBy_of_owned howned
  have hgivenUp := (MessageBoard.givenUp_cancelTakeDown hheld).toRescheduled
  cases a with
  | close => exact absurd rfl hclose
  | advance millis => exact absurd rfl (hclock millis)
  | put m =>
    have hboard : (s.step (.put m)).screen.board = s.board.put m := board_withBoard s _
    exact .of_rescheduled hgivenUp (by rw [hboard]; rfl)
  | takeDown =>
    have hboard : (s.step .takeDown).screen.board = s.board.takeDown := board_withBoard s _
    unfold MessageBoard.takeDown at hboard
    split at hboard
    · exact .of_rescheduled hgivenUp (by rw [hboard])
    · exact .of_board hboard
  | takeDownAfter delay =>
    have hboard : (s.step (.takeDownAfter delay)).screen.board = (s.board.takeDownAfter delay).1 := rfl
    rcases board_takeDownAfter_cases s.board delay with hkept | ⟨due, hset⟩ | hcanceled
    · exact .of_board (hboard.trans hkept)
    · have hscheduled := (MessageBoard.scheduled_takeDownAt hheld due).toRescheduled
      exact .of_rescheduled hscheduled (by rw [hboard, hset])
    · exact .of_rescheduled hgivenUp (by rw [hboard, hcanceled])
  | event e =>
    have hannounced : s.announced? e = none := by
      by_contra hsome
      obtain ⟨⟨text, task⟩, heq⟩ := Option.ne_none_iff_exists'.mp hsome
      exact hshows task ⟨e, text, rfl, heq⟩
    exact .of_board (board_receive_of_announced?_eq_none hannounced).1
  | setVisible | rest | apply | applyPayload | look | phone | unlockSource | estimateSource =>
    exact .of_board (board_step_of_quiet rfl hclock).1

/-! ## The clock -/

/-- The timer of a help text stays pending where another one goes off. -/
theorem mem_helpTimers_fire (howned : s.Owned) {t u : Timer Task} (ht : t ∈ s.board.agenda.timers)
    (hu : u ∈ s.helpTimers) (hother : t ≠ u) : u ∈ (s.fire t).screen.helpTimers := by
  obtain ⟨hpending, htask⟩ := mem_helpTimers.mp hu
  refine mem_helpTimers.mpr ⟨?_, htask⟩
  cases hfired : t.task with
  | takeDown =>
    -- the board cancels nothing when its own timer goes off
    rw [fire_of_takeDown ht hfired, board_withBoard, agenda_expire]
    refine Agenda.mem_timers_cancel.mpr ⟨hpending, ?_⟩
    intro hid
    exact hother (Agenda.HeldBy.eq_of_id howned ht hpending hid.symm)
  | endHelp => exact absurd (Agenda.HeldBy.eq_of_task howned ht hpending (hfired.trans htask.symm)) hother

theorem Fires.mem_helpTimers {fired : List (Screen × Timer Task)} {o : Outcome} (h : Fires s fired o)
    (howned : s.Owned) {u : Timer Task} (hu : u ∈ s.helpTimers) (hother : ∀ f ∈ fired, f.2 ≠ u) :
    u ∈ o.screen.helpTimers := by
  induction h with
  | nil s => exact hu
  | last ht _ => exact mem_helpTimers_fire howned ht hu (hother _ List.mem_cons_self)
  | cons ht _ _ ih =>
    have hleft := mem_helpTimers_fire howned ht hu (hother _ List.mem_cons_self)
    exact ih (howned.fire ht) hleft fun f hf => hother f (List.mem_cons_of_mem _ hf)

/-- While the clock runs without a fault, a help text ends if its time comes, and only then. -/
theorem helpEnds_advance (howned : s.Owned) {millis : Nat} (hfault : (s.advance millis).fault = none) :
    (s.advance millis).screen.board.agenda.now = s.board.agenda.now + millis ∧
      ∀ time, (s.advance millis).screen.HelpEnds time ↔ s.HelpEnds time ∧ s.board.agenda.now + millis < time := by
  have hfires := fires_advance howned millis
  have hfired := (Outcome.fault_eq_none_of_andThen hfault).1
  have hadvance := Outcome.alter_of_fault_eq_none hfired fun u =>
    { u with board.agenda := u.board.agenda.setNow (s.board.agenda.now + millis) }
  unfold advance
  rw [hadvance]
  refine ⟨rfl, ?_⟩
  intro time
  constructor
  -- a timer that is left was not due
  · rintro ⟨t, ht, rfl⟩
    obtain ⟨hleft, htask⟩ := mem_helpTimers.mp ht
    obtain ⟨hpending, hothers⟩ := mem_timers_of_mem_fireAll hfired hleft
    refine ⟨⟨t, mem_helpTimers.mpr ⟨hpending, htask⟩, rfl⟩, ?_⟩
    by_contra hdue
    have hmem : t ∈ s.board.agenda.dueBy (s.board.agenda.now + millis) :=
      List.mem_filter.mpr ⟨hpending, decide_eq_true (Nat.le_of_not_lt hdue)⟩
    exact hothers t hmem rfl
  -- one that was not due did not go off, and no other one cancels it
  · rintro ⟨⟨t, ht, rfl⟩, hlater⟩
    refine ⟨t, hfires.mem_helpTimers howned ht ?_, rfl⟩
    rintro f hf rfl
    have hdue := (List.mem_filter.mp (mem_of_mem_firings hf)).2
    exact absurd (of_decide_eq_true hdue) (Nat.not_le.mpr hlater)

/-! ## Since the last help text -/

/-- An action that shows no feedback ends the help text if it lets the clock run to its time, and only then. -/
theorem helpEnds_step (howned : s.Owned) (ha : s.Undisturbed (.act a)) (hshows : ∀ task, ¬s.Shows task (.act a))
    (hahead : ∀ time, s.HelpEnds time → s.board.agenda.now < time) :
    s.board.agenda.now ≤ (s.step a).screen.board.agenda.now ∧
      ∀ time, (s.step a).screen.HelpEnds time ↔ s.HelpEnds time ∧ (s.step a).screen.board.agenda.now < time := by
  by_cases hclock : ∃ millis, a = .advance millis
  · obtain ⟨millis, rfl⟩ := hclock
    obtain ⟨hnow, hends⟩ := helpEnds_advance howned ha.1
    rw [← hnow] at hends
    exact ⟨Nat.le_trans (Nat.le_add_right _ millis) (Nat.le_of_eq hnow.symm), hends⟩
  · have hclose : a ≠ .close := by
      rintro rfl
      cases ha.2
    -- any other action takes no time, so that no help text ends by it
    obtain ⟨hnow, htimers⟩ := keepsHelp_step howned hclose (fun millis heq => hclock ⟨millis, heq⟩) hshows
    refine ⟨Nat.le_of_eq hnow.symm, ?_⟩
    intro time
    unfold HelpEnds
    rw [htimers, hnow]
    exact ⟨fun hends => ⟨hends, hahead time hends⟩, And.left⟩

/-- A help text is to end at a time: it was shown so long before, no feedback was shown since, and the time is still
to come. -/
theorem helpEnds_iff (howned : s.Owned) (hnone : s.board.agenda.timers = []) {actions : List Action}
    (hactions : s.Throughout Undisturbed (actions.map .act)) (time : Nat) :
    (s.moved (actions.map .act)).HelpEnds time ↔
      ∃ shown, time = shown + Feedback.helpMillis ∧ LastHelp shown s (actions.map .act) ∧
        (s.moved (actions.map .act)).board.agenda.now < time := by
  induction actions using List.reverseRecOn generalizing time with
  | nil =>
    refine iff_of_false ?_ ?_
    · rintro ⟨t, ht, _⟩
      have hpending : t ∈ s.board.agenda.timers := (mem_helpTimers.mp ht).1
      rw [hnone] at hpending
      cases hpending
    · rintro ⟨shown, _, hlast, _⟩
      exact not_since_nil s hlast
  | append_singleton actions a ih =>
    rw [List.map_append, List.map_singleton] at hactions ⊢
    obtain ⟨hbefore, ha⟩ := throughout_append_singleton.mp hactions
    have hrow := ih hbefore
    have hheld := howned.moved (actions.map .act)
    simp only [LastHelp, since_append_singleton, moved_append_singleton] at hrow ⊢
    generalize s.moved (actions.map .act) = u at hrow hheld ha ⊢
    by_cases hfeedback : ∃ task, u.Shows task (.act a)
    · have ⟨task, hshows⟩ := hfeedback
      -- what was shown before counts no longer
      simp only [hfeedback, not_true, and_false, or_false]
      cases task with
      | endHelp =>
        obtain ⟨hnow, hends⟩ := helpEnds_of_help hheld hshows ha.1
        rw [hends, hnow]
        constructor
        · rintro rfl
          exact ⟨_, rfl, ⟨hshows, rfl⟩, Nat.lt_add_of_pos_right (by decide)⟩
        · rintro ⟨shown, htime, ⟨_, rfl⟩, _⟩
          exact htime
      | takeDown =>
        refine iff_of_false (not_helpEnds_of_error hheld hshows ha.1 time) ?_
        rintro ⟨shown, _, ⟨hhelp, _⟩, _⟩
        cases hhelp.unique hshows
    · -- what was shown before counts on, while its time is still to come
      have hsilent : ∀ task, ¬u.Shows task (.act a) := not_exists.mp hfeedback
      have hahead : ∀ time, u.HelpEnds time → u.board.agenda.now < time := by
        intro time hends
        obtain ⟨_, _, _, hlater⟩ := (hrow time).mp hends
        exact hlater
      obtain ⟨hlate, hends⟩ := helpEnds_step hheld ha hsilent hahead
      simp only [hsilent, false_and, false_or, exists_false, not_false_eq_true, and_true]
      refine (hends time).trans ?_
      rw [hrow]
      constructor
      · rintro ⟨⟨shown, htime, hlast, _⟩, hlater⟩
        exact ⟨shown, htime, hlast, hlater⟩
      · rintro ⟨shown, htime, hlast, hlater⟩
        exact ⟨⟨shown, htime, hlast, Nat.lt_of_le_of_lt hlate hlater⟩, hlater⟩

/-- Wherever nothing stops half-way and nobody interferes, the icon is lit exactly while the timer of a help text is
pending. And where timers go off by the clock, it is lit exactly for the time of the last help text, or until an error
is shown. -/
theorem icon_lit_for_last_help (settings : Settings) (phone : Phone) (user : Int) (unlock : UnlockSource)
    (estimate : EstimateSource) (hdown : phone.lockIconError.isUp = false) :
    let first := start settings phone user unlock estimate
    (∀ moves, first.Throughout Undisturbed moves →
      ((first.moved moves).phone.lockIconError.isUp = true ↔
        ∃ t ∈ (first.moved moves).board.agenda.timers, t.task = .endHelp)) ∧
    ∀ actions : List Action, first.Throughout Undisturbed (actions.map .act) →
      ((first.moved (actions.map .act)).phone.lockIconError.isUp = true ↔
        ∃ shown, LastHelp shown first (actions.map .act) ∧
          (first.moved (actions.map .act)).board.agenda.now < shown + Feedback.helpMillis) := by
  intro first
  have howned : first.Owned := owned_start ..
  have hmatched : first.Matched := hdown
  have hpending : ∀ moves, first.Throughout Undisturbed moves →
      ((first.moved moves).phone.lockIconError.isUp = true ↔
        ∃ t ∈ (first.moved moves).board.agenda.timers, t.task = .endHelp) :=
    fun moves hmoves => (hmatched.moved hmoves).isUp_iff (howned.moved moves)
  refine ⟨hpending, ?_⟩
  intro actions hactions
  rw [hpending _ hactions]
  have hends := helpEnds_iff howned rfl hactions
  constructor
  · rintro ⟨t, ht, htask⟩
    obtain ⟨shown, hdue, hlast, hlater⟩ := (hends t.due).mp ⟨t, mem_helpTimers.mpr ⟨ht, htask⟩, rfl⟩
    rw [hdue] at hlater
    exact ⟨shown, hlast, hlater⟩
  · rintro ⟨shown, hlast, hlater⟩
    obtain ⟨t, ht, _⟩ := (hends _).mpr ⟨shown, rfl, hlast, hlater⟩
    exact ⟨t, mem_helpTimers.mp ht⟩

/-- A second help text before the time of the first is over, and a message in its place. -/
def helpTwice : List Action :=
  [.setVisible true, .event (.sensorHelp 1 "Dirty"), .advance 900, .event (.sensorHelp 3 "Wet"),
    .put ⟨some "Look here", .white⟩, .takeDownAfter (.int 700), .advance 1299]

theorem icon_lit_for_last_help_helpTwice :
    ((start .standard {} 0 .phone .nobody).moved (helpTwice.map .act)).phone.lockIconError.isUp = true ∧
      ∃ shown, LastHelp shown (start .standard {} 0 .phone .nobody) (helpTwice.map .act) ∧
        ((start .standard {} 0 .phone .nobody).moved (helpTwice.map .act)).board.agenda.now
          < shown + Feedback.helpMillis := by
  have hdown : ({} : Phone).lockIconError.isUp = false := rfl
  have hlaw := (icon_lit_for_last_help .standard {} 0 .phone .nobody hdown).2
  have hactions : (start .standard {} 0 .phone .nobody).Throughout Undisturbed (helpTwice.map .act) := by
    decide +kernel
  have hlit : ((start .standard {} 0 .phone .nobody).moved (helpTwice.map .act)).phone.lockIconError.isUp = true := by
    decide +kernel
  exact ⟨hlit, (hlaw helpTwice hactions).mp hlit⟩

end Screen

end LockScreen
