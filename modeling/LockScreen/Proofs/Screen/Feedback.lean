import LockScreen.Proofs.Screen.Run

/-!
# What feedback does to message and timers

An event of the sensor is shown on the board, handed to the bouncer, kept for later or ignored. Only the
first of these touches the message and the timers, and it does so in one of two ways: as a help text
(`receive_of_help`) or as an error (`receive_of_error`). `announced?` says whether an event is shown, as what
and with which text.

An action is `quiet` when it neither shows nor takes down a message nor sets or gives up a timer. Unless it
lets the clock run it leaves the board and the timer of the help text as they are.
-/

namespace LockScreen.Screen

variable {τ : Type}

/-- Feedback is shown on the board: fingerprints may unlock, the bouncer is away and the device is in use. -/
def feedbackOnBoard (s : Screen τ) : Bool :=
  s.phone.fingerprintAllowed.isUp && !s.phone.bouncerShowing.isUp && s.phone.interactive.isUp

/-- The text that an event announces on the board, and the task of the timer that ends it. -/
def announced? (s : Screen τ) : Event → Option (Text × Task)
  | .sensorHelp _ text => if s.feedbackOnBoard then some (text, .endHelp) else none
  | .sensorError code text =>
    if s.feedbackOnBoard && code ≠ Feedback.canceled then some (text, .takeDown) else none
  | .screenOn => s.feedback.deferred.map fun text => (text, .takeDown)
  | _ => none

/-- An action puts up a message or takes one down at once. -/
def replaces (s : Screen τ) : Action → Bool
  | .put _ | .takeDown => true
  | .event e => (s.announced? e).isSome
  | _ => false

/-- An action neither puts up nor takes down a message, nor does it set or give up a timer. -/
def quiet (s : Screen τ) : Action → Bool
  | .takeDownAfter _ | .close => false
  | a => !s.replaces a

/-! ## What is noted -/

/-- A change is a note of the last error, and of the error that waits. -/
def Notes (note : Screen τ → Screen τ) : Prop :=
  ∀ u, ∃ lastError deferred, note u = { u with
    feedback.lastError := lastError, feedback.deferred := deferred }

/-- Only the bouncer's messages and what is noted of the feedback are changed. -/
def Noted (s u : Screen τ) : Prop :=
  ∃ notices lastError deferred, u = { s with
    phone.bouncerNotices := notices
    feedback.lastError := lastError
    feedback.deferred := deferred }

theorem noted_self (s : Screen τ) : s.Noted s := ⟨_, _, _, rfl⟩

/-- An event that tells of the sensor, of a finger or of the screen turning on. -/
def isFeedback : Event → Bool
  | .sensorHelp .. | .sensorError .. | .sensorRunning _ | .fingerAccepted _ | .fingerRefused
  | .screenOn => true
  | _ => false

/-- What an event makes of the charge: a reading of the battery is taken, and nothing else counts. -/
def ChargeAfter (s : Screen τ) (e : Event) (charging : ChargeTracker) : Prop :=
  match e with
  | .battery reading => s.charging.update reading = .ok charging
  | _ => charging = s.charging

section
variable [LE τ] [DecidableLE τ] [HAdd τ Nat τ] {s : Screen τ} {e : Event}

/-! ## Events that are announced -/

theorem sensorHelp_of_feedbackOnBoard (h : s.feedbackOnBoard = true) (text : Text) :
    s.sensorHelp text = ((s.setIcon true).put (s.warning text)).alter fun s =>
      (s.endHelpIn Feedback.helpMillis).forgetError := by
  simp only [feedbackOnBoard, Bool.and_eq_true, Bool.not_eq_true'] at h
  obtain ⟨⟨hallowed, hbouncer⟩, hinteractive⟩ := h
  simp [sensorHelp, hallowed, hbouncer, hinteractive]

theorem sensorError_of_feedbackOnBoard (h : s.feedbackOnBoard = true) {code : Int}
    (hcode : code ≠ Feedback.canceled) (text : Text) :
    s.sensorError code text
      = (s.announceError text).alter fun s => { s with feedback.lastError := code } := by
  simp only [feedbackOnBoard, Bool.and_eq_true, Bool.not_eq_true'] at h
  obtain ⟨⟨hallowed, hbouncer⟩, hinteractive⟩ := h
  simp [sensorError, hallowed, hbouncer, hinteractive, hcode]

/-- A help text lights the icon, replaces the message and has its timer set. -/
theorem receive_of_help {text : Text} (h : s.announced? e = some (text, .endHelp)) :
    s.receive e = ((s.setIcon true).put (s.warning text)).alter fun s =>
      (s.endHelpIn Feedback.helpMillis).forgetError := by
  cases e with
  | sensorHelp code shown =>
    simp only [announced?, Option.ite_none_right_eq_some, Option.some.injEq, Prod.mk.injEq] at h
    obtain ⟨hboard, rfl, _⟩ := h
    exact sensorHelp_of_feedbackOnBoard hboard shown
  | sensorError code shown => simp [announced?] at h
  | screenOn => simp [announced?] at h
  | _ => simp [announced?] at h

/-- An error is announced; what is noted afterwards is its code, or that no error waits any more. -/
theorem receive_of_error {text : Text} (h : s.announced? e = some (text, .takeDown)) :
    ∃ note, Notes note ∧ s.receive e = (s.announceError text).alter note := by
  cases e with
  | sensorError code shown =>
    simp only [announced?, Option.ite_none_right_eq_some, Option.some.injEq, Prod.mk.injEq,
      Bool.and_eq_true, decide_eq_true_eq] at h
    obtain ⟨⟨hboard, hcode⟩, rfl, _⟩ := h
    exact ⟨_, fun u => ⟨code, u.feedback.deferred, rfl⟩,
      sensorError_of_feedbackOnBoard hboard hcode shown⟩
  | screenOn =>
    simp only [announced?, Option.map_eq_some_iff, Prod.mk.injEq, and_true,
      exists_eq_right] at h
    refine ⟨_, fun u => ⟨u.feedback.lastError, none, rfl⟩, ?_⟩
    simp only [receive, screenOn, h]
  | sensorHelp code shown => simp [announced?] at h
  | _ => simp [announced?] at h

/-! ## Events that are not announced -/

/-- Feedback that is not announced leaves a note at most. -/
theorem receive_of_isFeedback (hfeedback : isFeedback e = true) (h : s.announced? e = none) :
    ∃ u, s.Noted u ∧ s.receive e = u.done := by
  cases e with
  | sensorHelp code text =>
    have hboard : s.feedbackOnBoard = false := by simpa [announced?] using h
    simp only [receive, sensorHelp]
    split_ifs with hallowed hbouncer hinteractive
    · exact ⟨_, s.noted_self, rfl⟩
    · exact ⟨_, ⟨_, _, _, rfl⟩, rfl⟩
    · simp_all [feedbackOnBoard]
    · exact ⟨_, ⟨_, _, _, rfl⟩, rfl⟩
  | sensorError code text =>
    have hboard : s.feedbackOnBoard = true → code = Feedback.canceled := by
      simpa [announced?] using h
    simp only [receive, sensorError]
    split_ifs with hallowed hbouncer hrepeated hinteractive
    · exact ⟨_, s.noted_self, rfl⟩
    · exact ⟨_, ⟨_, _, _, rfl⟩, rfl⟩
    · exact ⟨_, ⟨_, _, _, rfl⟩, rfl⟩
    · simp_all [feedbackOnBoard]
    · exact ⟨_, ⟨_, _, _, rfl⟩, rfl⟩
  | screenOn =>
    have hnone : s.feedback.deferred = none := by simpa [announced?] using h
    refine ⟨_, s.noted_self, ?_⟩
    simp only [receive, screenOn, hnone]
  | sensorRunning on =>
    refine ⟨_, ?_, rfl⟩
    unfold sensorRunning
    split
    · exact ⟨_, _, _, rfl⟩
    · exact s.noted_self
  | fingerAccepted | fingerRefused => exact ⟨_, ⟨_, _, _, rfl⟩, rfl⟩
  | battery | userUnlocked | tick | other => cases hfeedback

/-- An event that announces nothing leaves a note at most, brings the line up to date, or is refused. -/
theorem receive_of_announced?_eq_none (h : s.announced? e = none) :
    (∃ u, s.Noted u ∧ s.receive e = u.done) ∨
      (∃ charging, s.ChargeAfter e charging ∧ s.receive e = refresh { s with charging }) ∨
      ∃ fault, s.receive e = s.stopped fault := by
  cases e with
  | sensorHelp | sensorError | screenOn | sensorRunning | fingerAccepted | fingerRefused =>
    exact .inl (receive_of_isFeedback rfl h)
  | battery reading =>
    refine .inr ?_
    simp only [receive, battery]
    split
    · exact .inl ⟨_, ‹_›, rfl⟩
    · exact .inr ⟨_, rfl⟩
  | userUnlocked | tick =>
    simp only [receive, refreshIfVisible]
    split
    · exact .inr (.inl ⟨s.charging, rfl, rfl⟩)
    · exact .inl ⟨_, s.noted_self, rfl⟩
  | other name => exact .inr (.inr ⟨_, rfl⟩)

/-- What holds after each thing that an event can come to holds after every event. -/
theorem receive_induct {P : Outcome τ → Prop} (e : Event)
    (hnoted : ∀ u, s.Noted u → P u.done)
    (hrefreshed : ∀ charging, s.ChargeAfter e charging → P (refresh { s with charging }))
    (hstopped : ∀ fault, P (s.stopped fault))
    (herror : ∀ text note, Notes note → P ((s.announceError text).alter note))
    (hhelp : ∀ text, P (((s.setIcon true).put (s.warning text)).alter fun s =>
      (s.endHelpIn Feedback.helpMillis).forgetError)) : P (s.receive e) := by
  rcases hannounced : s.announced? e with _ | ⟨text, _ | _⟩
  · rcases receive_of_announced?_eq_none hannounced with
      ⟨u, hu, hdone⟩ | ⟨charging, hcharging, hrefresh⟩ | ⟨fault, hstop⟩
    · rw [hdone]
      exact hnoted u hu
    · rw [hrefresh]
      exact hrefreshed charging hcharging
    · rw [hstop]
      exact hstopped fault
  · obtain ⟨note, hnote, hreceive⟩ := receive_of_error hannounced
    rw [hreceive]
    exact herror text note hnote
  · rw [receive_of_help hannounced]
    exact hhelp text

/-! ## Actions that are quiet -/

/-- An event that announces nothing leaves message and timers alone. -/
theorem board_receive_of_announced?_eq_none (h : s.announced? e = none) :
    (s.receive e).screen.board = s.board ∧
      (s.receive e).screen.feedback.helpTimer = s.feedback.helpTimer := by
  rcases receive_of_announced?_eq_none h with ⟨u, ⟨_, _, _, rfl⟩, hdone⟩ | ⟨_, _, hrefresh⟩ | ⟨_, hstop⟩
  · rw [hdone]
    exact ⟨rfl, rfl⟩
  · rw [hrefresh, board_refresh, feedback_refresh]
    exact ⟨rfl, rfl⟩
  · rw [hstop]
    exact ⟨rfl, rfl⟩

/-- A quiet action leaves message and timers alone. -/
theorem board_act_of_quiet [Timescale τ] {a : Action} (h : s.quiet a = true) :
    (s.act a).screen.board = s.board ∧
      (s.act a).screen.feedback.helpTimer = s.feedback.helpTimer := by
  cases a with
  | put | takeDown | takeDownAfter | close => simp [quiet, replaces] at h
  | event e =>
    refine board_receive_of_announced?_eq_none ?_
    simpa [quiet, replaces] using h
  | setVisible visible =>
    simp only [act, setVisible]
    split
    · simp
    · exact ⟨rfl, rfl⟩
  | rest text => simp [act, rest]
  | apply settings => simp [act, apply]
  | applyPayload payload =>
    simp only [act, applyPayload]
    split
    · simp [apply]
    · exact ⟨rfl, rfl⟩
  | look =>
    obtain ⟨journal, hasked⟩ := s.askUnlocked_frame
    simp [act, hasked, done]
  | advance millis => exact ⟨rfl, rfl⟩
  | phone change => exact ⟨rfl, rfl⟩
  | unlockSource source => exact ⟨rfl, rfl⟩
  | estimateSource source =>
    obtain ⟨_, hsource⟩ := s.setEstimateSource_frame source
    simp [act, hsource, done]

end

/-- The same of a step, unless it lets the clock run. -/
theorem board_step_of_quiet {s : Screen} {a : Action} (h : s.quiet a = true)
    (hclock : ∀ millis, a ≠ .advance millis) :
    (s.step a).screen.board = s.board ∧
      (s.step a).screen.feedback.helpTimer = s.feedback.helpTimer := by
  rw [step_eq_act hclock]
  exact board_act_of_quiet h

end LockScreen.Screen
