import LockScreen.Proofs.Screen.InForce

/-!
# How long feedback is shown

An error is shown for five seconds and a help text for thirteen tenths of a second, whatever was up before.
Each gives up the timers that were pending, the one of the board because it puts up a message, the one of
the help text by itself, so its own timer is the only one left. From there nothing that is quiet moves the
time at which the text goes (`UpUntil`).

Its colour is that of the settings in force (`Reach.warningColor`).
-/

namespace LockScreen

/-- How long the text stays that a timer of a task takes down. -/
def Task.window : Task → Nat
  | .takeDown => Feedback.errorMillis
  | .endHelp => Feedback.helpMillis

namespace Screen

/-! ## What is announced -/

/-- A help text that was up gives way to an error, with its timer. -/
theorem announceError_eq (s : Screen) (text : Text) :
    ∃ u : Screen, s.announceError text = (u.put (s.warning text)).alter (fun v =>
        { v with board := v.board.takeDownIn Feedback.errorMillis }) ∧
      u.feedback.helpTimer = none ∧
      u.board.agenda = s.board.agenda.cancel? s.feedback.helpTimer := by
  unfold announceError
  cases hhelp : s.feedback.helpTimer with
  | none => exact ⟨s, rfl, hhelp, rfl⟩
  | some id =>
    refine ⟨s.cancelHelp.setIcon false, rfl, rfl, ?_⟩
    show s.board.agenda.cancel? s.feedback.helpTimer = _
    rw [hhelp]

/-- A message is put up at once. -/
theorem now_put (b : MessageBoard) (m : Message) : (b.put m).agenda.now = b.agenda.now :=
  Agenda.now_cancel? b.agenda b.takeDownTimer

/-- A message that is put up takes no number for itself. -/
theorem nextId_put (b : MessageBoard) (m : Message) : (b.put m).agenda.nextId = b.agenda.nextId :=
  Agenda.nextId_cancel? b.agenda b.takeDownTimer

/-- The timer of the board is set for its time, under the next number. -/
theorem mem_timers_takeDownAt {τ : Type} [LE τ] [DecidableLE τ] (b : MessageBoard τ) (due : τ) :
    ⟨due, b.agenda.nextId, .takeDown⟩ ∈ (b.takeDownAt due).agenda.timers := by
  rw [← Agenda.nextId_cancel? b.agenda b.takeDownTimer]
  exact Agenda.mem_timers_armAt.mpr (.inl rfl)

/-- The timer of a help text is set for its time, under the next number. -/
theorem mem_timers_endHelpIn (s : Screen) (millis : Nat) :
    ⟨s.board.agenda.now + millis, s.board.agenda.nextId, .endHelp⟩
      ∈ (s.endHelpIn millis).board.agenda.timers := by
  rw [← Agenda.now_cancel? s.board.agenda s.feedback.helpTimer,
    ← Agenda.nextId_cancel? s.board.agenda s.feedback.helpTimer]
  exact Agenda.mem_timers_armAt.mpr (.inl rfl)

/-- What an event that is announced leaves on the board: its text in the colour of warnings, and a single
timer for its time. -/
structure Announced (s u : Screen) (text : Text) (task : Task) : Prop where
  message : u.board.message = some (s.warning text)
  now : u.board.agenda.now = s.board.agenda.now
  timers : u.board.agenda.timers
    = [⟨s.board.agenda.now + task.window, s.board.agenda.nextId, task⟩]

theorem Announced.of_board {s u v : Screen} {text : Text} {task : Task} (h : s.Announced u text task)
    (hboard : v.board = u.board) : s.Announced v text task := by
  refine ⟨?_, ?_, ?_⟩
  · rw [hboard, h.message]
  · rw [hboard, h.now]
  · rw [hboard, h.timers]

theorem announced_announceError {s : Screen} (howned : s.Owned) {text : Text}
    (hfault : (s.announceError text).fault = none) :
    s.Announced (s.announceError text).screen text .takeDown := by
  have hafter := howned.announceError text
  obtain ⟨u, hannounce, hhelp, hagenda⟩ := s.announceError_eq text
  rw [hannounce] at hfault hafter ⊢
  have hput := (Outcome.fault_eq_none_of_andThen hfault).1
  rw [Outcome.alter_of_fault_eq_none hput] at hafter ⊢
  have hboard : (u.put (s.warning text)).screen.board = u.board.put (s.warning text) :=
    board_withBoard u _
  have hfeedback : (u.put (s.warning text)).screen.feedback = u.feedback := feedback_withBoard u _
  have hnow : (u.board.put (s.warning text)).agenda.now = s.board.agenda.now := by
    rw [now_put, hagenda, Agenda.now_cancel?]
  have hnext : (u.board.put (s.warning text)).agenda.nextId = s.board.agenda.nextId := by
    rw [nextId_put, hagenda, Agenda.nextId_cancel?]
  simp only [done, hboard] at hafter ⊢
  refine ⟨rfl, ?_, Agenda.HeldBy.timers_eq_singleton hafter ?_ ?_⟩
  · show ((u.board.put (s.warning text)).agenda.cancel? _).now = _
    rw [Agenda.now_cancel?, hnow]
  · rw [← hnow, ← hnext]
    exact mem_timers_takeDownAt _ _
  · intro task htask
    cases task with
    | takeDown => exact absurd rfl htask
    | endHelp =>
      show (u.put (s.warning text)).screen.feedback.helpTimer = none
      rw [hfeedback, hhelp]

theorem announced_of_error {s : Screen} (howned : s.Owned) {e : Event} {text : Text}
    (h : s.announced? e = some (text, .takeDown)) (hfault : (s.receive e).fault = none) :
    s.Announced (s.receive e).screen text .takeDown := by
  obtain ⟨note, hnote, hreceive⟩ := receive_of_error h
  rw [hreceive] at hfault ⊢
  have hannounced := (Outcome.fault_eq_none_of_andThen hfault).1
  rw [Outcome.alter_of_fault_eq_none hannounced]
  obtain ⟨_, _, heq⟩ := hnote (s.announceError text).screen
  refine (announced_announceError howned hannounced).of_board ?_
  rw [done, heq]

/-- The icon is lit besides, for a help text. -/
theorem announced_of_help {s : Screen} (howned : s.Owned) {e : Event} {text : Text}
    (h : s.announced? e = some (text, .endHelp)) (hfault : (s.receive e).fault = none) :
    s.Announced (s.receive e).screen text .endHelp ∧
      (s.receive e).screen.phone.lockIconError.isUp = true := by
  have hafter := howned.receive e
  rw [receive_of_help h] at hfault hafter ⊢
  have hput := (Outcome.fault_eq_none_of_andThen hfault).1
  rw [Outcome.alter_of_fault_eq_none hput] at hafter ⊢
  have hboard : ((s.setIcon true).put (s.warning text)).screen.board = s.board.put (s.warning text) :=
    board_withBoard _ _
  have hphone : ((s.setIcon true).put (s.warning text)).screen.phone = (s.setIcon true).phone :=
    phone_withBoard _ _
  generalize ((s.setIcon true).put (s.warning text)).screen = u at hafter hboard hphone ⊢
  have hnow : u.board.agenda.now = s.board.agenda.now := by
    rw [hboard, now_put]
  have hnext : u.board.agenda.nextId = s.board.agenda.nextId := by
    rw [hboard, nextId_put]
  refine ⟨⟨?_, ?_, Agenda.HeldBy.timers_eq_singleton hafter ?_ ?_⟩, ?_⟩
  · show u.board.message = _
    rw [hboard]
    rfl
  · show (u.board.agenda.cancel? u.feedback.helpTimer).now = _
    rw [Agenda.now_cancel?, hnow]
  · rw [← hnow, ← hnext]
    exact mem_timers_endHelpIn u _
  · intro task htask
    cases task with
    | endHelp => exact absurd rfl htask
    | takeDown =>
      show u.board.takeDownTimer = none
      rw [hboard]
      rfl
  · show u.phone.lockIconError.isUp = true
    rw [hphone]
    rfl

/-! ## Until the time is over -/

/-- Nobody puts up a message or takes one down, and nobody sets a timer or gives one up. -/
def Quiet (s : Screen) : Move → Prop
  | .act a => s.quiet a = true
  | .fire _ => False

/-- Before the time of a timer the message is up and no other timer is pending; from then on there is no
message and no timer. -/
def UpUntil (s : Screen) (m : Message) (t : Timer Task) : Prop :=
  if s.board.agenda.now < t.due then s.board.message = some m ∧ s.board.agenda.timers = [t]
  else s.board.message = none ∧ s.board.agenda.timers = []

theorem upUntil_of_lt {s : Screen} {m : Message} {t : Timer Task}
    (hlt : s.board.agenda.now < t.due) (hmessage : s.board.message = some m)
    (htimers : s.board.agenda.timers = [t]) : s.UpUntil m t := by
  unfold UpUntil
  rw [if_pos hlt]
  exact ⟨hmessage, htimers⟩

theorem upUntil_of_le {s : Screen} {m : Message} {t : Timer Task}
    (hle : t.due ≤ s.board.agenda.now) (hmessage : s.board.message = none)
    (htimers : s.board.agenda.timers = []) : s.UpUntil m t := by
  unfold UpUntil
  rw [if_neg (Nat.not_lt.mpr hle)]
  exact ⟨hmessage, htimers⟩

theorem UpUntil.of_board {s u : Screen} {m : Message} {t : Timer Task} (h : s.UpUntil m t)
    (hboard : u.board = s.board) : u.UpUntil m t := by
  unfold UpUntil
  rw [hboard]
  exact h

/-- When its time has come, the timer takes the message down, whether the refresh fails or not. -/
theorem upUntil_of_due {s : Screen} {m : Message} {t : Timer Task} (htimers : s.board.agenda.timers = [t])
    {millis : Nat} (hdue : t.due ≤ s.board.agenda.now + millis) : (s.advance millis).screen.UpUntil m t := by
  have ht : t ∈ s.board.agenda.timers := by
    rw [htimers]
    exact List.mem_cons_self
  have hdueBy : s.board.agenda.dueBy (s.board.agenda.now + millis) = [t] := by
    simp [Agenda.dueBy, htimers, hdue]
  have hfired : (s.fire t).screen.board.agenda.timers = [] := by
    refine List.eq_nil_iff_forall_not_mem.mpr ?_
    intro u hu
    obtain ⟨hmem, hne⟩ := mem_timers_of_mem_fire hu
    rw [htimers, List.mem_singleton] at hmem
    exact hne (congrArg Timer.id hmem)
  have hgone : t.due ≤ (s.advance millis).screen.board.agenda.now ∧
      (s.advance millis).screen.board.message = none ∧
      (s.advance millis).screen.board.agenda.timers = [] := by
    simp only [advance, hdueBy]
    refine Outcome.alter_induct (P := fun u => t.due ≤ u.board.agenda.now ∧ u.board.message = none ∧
      u.board.agenda.timers = []) ?_ fun u hu => ⟨hdue, hu.2⟩
    refine Outcome.andThen_induct (P := fun o => t.due ≤ o.screen.board.agenda.now ∧
      o.screen.board.message = none ∧ o.screen.board.agenda.timers = []) ?_ fun u hu => hu
    exact ⟨Nat.le_of_eq (now_fire ht).symm, message_fire ht, hfired⟩
  exact upUntil_of_le hgone.1 hgone.2.1 hgone.2.2

/-- While no timer is due, the clock just runs. -/
theorem advance_of_dueBy_eq_nil {s : Screen} {millis : Nat}
    (h : s.board.agenda.dueBy (s.board.agenda.now + millis) = []) :
    s.advance millis = done { s with
      board.agenda := s.board.agenda.setNow (s.board.agenda.now + millis) } := by
  simp only [advance, h]
  rfl

theorem UpUntil.advance {s : Screen} {m : Message} {t : Timer Task} (h : s.UpUntil m t)
    (millis : Nat) : (s.advance millis).screen.UpUntil m t := by
  unfold UpUntil at h
  split at h
  · obtain ⟨hmessage, htimers⟩ := h
    by_cases hdue : t.due ≤ s.board.agenda.now + millis
    · exact upUntil_of_due htimers hdue
    · have hdueBy : s.board.agenda.dueBy (s.board.agenda.now + millis) = [] := by
        simp [Agenda.dueBy, htimers, hdue]
      rw [advance_of_dueBy_eq_nil hdueBy]
      exact upUntil_of_lt (Nat.not_le.mp hdue) hmessage htimers
  · rename_i hover
    obtain ⟨hmessage, htimers⟩ := h
    have hdueBy : s.board.agenda.dueBy (s.board.agenda.now + millis) = [] := by
      simp [Agenda.dueBy, htimers]
    rw [advance_of_dueBy_eq_nil hdueBy]
    have hlater : t.due ≤ s.board.agenda.now + millis := by omega
    exact upUntil_of_le hlater hmessage htimers

theorem UpUntil.move {s : Screen} {m : Message} {t : Timer Task} (h : s.UpUntil m t) {mv : Move}
    (hquiet : s.Quiet mv) : (s.move mv).screen.UpUntil m t := by
  cases mv with
  | fire id => exact hquiet.elim
  | act a =>
    by_cases hclock : ∃ millis, a = .advance millis
    · obtain ⟨millis, rfl⟩ := hclock
      exact h.advance millis
    · exact h.of_board (board_step_of_quiet hquiet fun millis ha => hclock ⟨millis, ha⟩).1

theorem UpUntil.moved {s : Screen} {m : Message} {t : Timer Task} (h : s.UpUntil m t)
    {moves : List Move} (hquiet : s.Throughout Quiet moves) : (s.moved moves).UpUntil m t := by
  induction moves generalizing s with
  | nil => exact h
  | cons mv rest ih => exact ih (h.move hquiet.1) hquiet.2

/-- On whatever screen, what is announced without a fault is up in the colour of the settings, for its time and
not longer, with a single timer pending; a help text has the icon lit besides. -/
theorem announcement_lasts {s : Screen} (hreach : s.Reachable) {e : Event} {text : Text} {task : Task}
    (h : s.announced? e = some (text, task)) (hfault : (s.receive e).fault = none) :
    (s.receive e).screen.board.message = some ⟨some text, s.settings.warningColor⟩ ∧
      (s.receive e).screen.board.agenda.timers
        = [⟨s.board.agenda.now + task.window, s.board.agenda.nextId, task⟩] ∧
      (s.receive e).screen.board.agenda.remaining = [task.window] ∧
      (task = .endHelp → (s.receive e).screen.phone.lockIconError.isUp = true) ∧
      ∀ moves, (s.receive e).screen.Throughout Quiet moves →
        ((s.receive e).screen.moved moves).UpUntil ⟨some text, s.settings.warningColor⟩
          ⟨s.board.agenda.now + task.window, s.board.agenda.nextId, task⟩ := by
  have howned : s.Owned := Reach.owned hreach
  have hcolor : s.warning text = ⟨some text, s.settings.warningColor⟩ := by
    rw [warning, Reach.warningColor hreach]
  have hannounced : s.Announced (s.receive e).screen text task ∧
      (task = .endHelp → (s.receive e).screen.phone.lockIconError.isUp = true) := by
    cases task with
    | takeDown => exact ⟨announced_of_error howned h hfault, nofun⟩
    | endHelp =>
      obtain ⟨hboard, hicon⟩ := announced_of_help howned h hfault
      exact ⟨hboard, fun _ => hicon⟩
  obtain ⟨⟨hmessage, hnow, htimers⟩, hicon⟩ := hannounced
  rw [hcolor] at hmessage
  have hwindow : 0 < task.window := by
    cases task with
    | takeDown => decide
    | endHelp => decide
  have hup : (s.receive e).screen.UpUntil ⟨some text, s.settings.warningColor⟩
      ⟨s.board.agenda.now + task.window, s.board.agenda.nextId, task⟩ := by
    refine upUntil_of_lt ?_ hmessage htimers
    rw [hnow]
    exact Nat.lt_add_of_pos_right hwindow
  refine ⟨hmessage, htimers, ?_, hicon, fun _ hquiet => hup.moved hquiet⟩
  simp [Agenda.remaining, htimers, hnow]

/-- An error while both timers are pending. -/
def errorAfterHelp : Event := .sensorError 7 "Too many attempts"

theorem announcement_lasts_errorAfterHelp :
    (helpTakenDownEarly.receive errorAfterHelp).fault = none ∧
      (helpTakenDownEarly.receive errorAfterHelp).screen.board.agenda.remaining = [5000] ∧
      ∀ moves, (helpTakenDownEarly.receive errorAfterHelp).screen.Throughout Quiet moves →
        ((helpTakenDownEarly.receive errorAfterHelp).screen.moved moves).UpUntil
          ⟨some "Too many attempts", .standardWarning⟩ ⟨5000, 2, .takeDown⟩ := by
  have hreach : helpTakenDownEarly.Reachable := Reachable.moved (.start ..) _
  have hannounced : helpTakenDownEarly.announced? errorAfterHelp
      = some (("Too many attempts" : Text), Task.takeDown) := by decide +kernel
  have hfault : (helpTakenDownEarly.receive errorAfterHelp).fault = none := by decide +kernel
  have hcolor : helpTakenDownEarly.settings.warningColor = .standardWarning := by decide +kernel
  have hnow : helpTakenDownEarly.board.agenda.now = 0 := by decide +kernel
  have hnext : helpTakenDownEarly.board.agenda.nextId = 2 := by decide +kernel
  obtain ⟨_, _, hremaining, _, hlasts⟩ := announcement_lasts hreach hannounced hfault
  rw [hcolor, hnow, hnext] at hlasts
  exact ⟨hfault, hremaining, hlasts⟩

end Screen

end LockScreen
