import LockScreen.Proofs.Screen.FeedbackWindow
import LockScreen.Proofs.Screen.History

/-!
# Errors that wait for the screen to turn on

An error that comes while nobody looks, neither at the bouncer nor at the device, is deferred. The screen keeps
one such text, and `deferred_eq_some_iff_waits` says that it is always that of the last error that was deferred,
unless it was discarded since: shown when the screen turned on, or given up when the sensor started again. So
a text is not lost before one of these happens, and once the screen has turned on it is not shown again.
-/

namespace LockScreen.Screen

/-! ## The text that waits -/

/-- An error is deferred: fingerprints may unlock, it is not that the sensor was stopped, the bouncer is away
and the device is not in use. -/
def Defers (text : Text) (s : Screen) (m : Move) : Prop :=
  ∃ code, m = .act (.event (.sensorError code text)) ∧ s.phone.fingerprintAllowed.isUp = true ∧
    code ≠ Feedback.canceled ∧ s.phone.bouncerShowing.isUp = false ∧ s.phone.interactive.isUp = false

/-- No text waits any longer: the sensor starts, or the screen turns on and nothing stops that half-way. -/
def Discards (s : Screen) (m : Move) : Prop :=
  m = .act (.event (.sensorRunning true)) ∨
    m = .act (.event .screenOn) ∧ (s.move m).fault = none

/-- A text waits: an error with it was deferred, and since then no other one was and nothing discarded it. -/
def Waits (text : Text) (s : Screen) (moves : List Move) : Prop :=
  Since (fun u m => u.Defers text m) (fun u m => u.Discards m ∨ ∃ other, u.Defers other m) s moves

variable {s : Screen} {m : Move}

theorem deferred_of_defers {text : Text} (h : s.Defers text m) :
    (s.move m).screen.feedback.deferred = some text := by
  obtain ⟨code, rfl, hallowed, hcode, hbouncer, hinteractive⟩ := h
  have hfault : (s.move (.act (.event (.sensorError code text)))).fault = none := by
    simp [move, step, act, receive, sensorError, hallowed, hcode, hbouncer, hinteractive, done]
  refine (congrArg Record.deferred (record_event_of_done hfault)).trans ?_
  simp [noting, hallowed, hcode, hbouncer, hinteractive]

theorem deferred_of_discards (h : s.Discards m) : (s.move m).screen.feedback.deferred = none := by
  rcases h with rfl | ⟨rfl, hfault⟩
  · rfl
  · exact congrArg Record.deferred (record_event_of_done hfault)

/-- Nothing else touches the text that waits. -/
theorem deferred_of_not (hdiscards : ¬s.Discards m)
    (hdefers : ∀ text, ¬s.Defers text m) :
    (s.move m).screen.feedback.deferred = s.feedback.deferred := by
  obtain ⟨e, rfl, hfault, hrecord⟩ | ⟨hrecord, _⟩ := s.record_move_cases m
  · refine (congrArg Record.deferred hrecord).trans ?_
    cases e with
    | sensorError code text =>
      rw [noting]
      split
      · rfl
      · rename_i hcounts
        simp only [Bool.or_eq_true, Bool.not_eq_true', decide_eq_true_eq, not_or,
          Bool.not_eq_false] at hcounts
        split
        · rfl
        · -- an error that nobody sees is one that defers
          rename_i haway
          simp only [Bool.or_eq_true, not_or, Bool.not_eq_true] at haway
          exact absurd ⟨code, rfl, hcounts.1, hcounts.2, haway.1, haway.2⟩ (hdefers text)
    | sensorRunning on =>
      cases on with
      | true => exact absurd (.inl rfl) hdiscards
      | false => rfl
    | screenOn => exact absurd (.inr ⟨rfl, hfault⟩) hdiscards
    | sensorHelp code text =>
      rw [noting]
      split_ifs
      · rfl
      · rfl
      · rfl
    | fingerAccepted | fingerRefused | battery | userUnlocked | tick | other => rfl
  · exact congrArg Record.deferred hrecord

/-- Two texts are not deferred at once. -/
theorem eq_of_defers {text other : Text} (h : s.Defers text m) (hother : s.Defers other m) :
    other = text := by
  obtain ⟨code, rfl, _⟩ := h
  obtain ⟨_, hevent, _⟩ := hother
  cases hevent
  rfl

/-- The text that is kept is exactly the one that waits. -/
theorem deferred_moved_iff (h : s.feedback.deferred = none) (moves : List Move)
    (text : Text) : (s.moved moves).feedback.deferred = some text ↔ Waits text s moves := by
  induction moves using List.reverseRecOn with
  | nil => simp [moved, h, Waits, not_since_nil]
  | append_singleton moves m ih =>
    rw [moved_append_singleton, Waits, since_append_singleton, ← Waits, ← ih]
    by_cases hdiscards : (s.moved moves).Discards m
    · have hdefers : ¬(s.moved moves).Defers text m := fun hdefers => by
        have hkept := deferred_of_defers hdefers
        rw [deferred_of_discards hdiscards] at hkept
        cases hkept
      simp [deferred_of_discards hdiscards, hdiscards, hdefers]
    · by_cases hdefers : ∃ other, (s.moved moves).Defers other m
      · obtain ⟨other, hother⟩ := hdefers
        rw [deferred_of_defers hother, Option.some.injEq]
        constructor
        · rintro rfl
          exact .inl hother
        · rintro (hdefers | ⟨_, hkept⟩)
          · exact eq_of_defers hdefers hother
          · exact absurd (.inr ⟨other, hother⟩) hkept
      · have hnone : ∀ other, ¬(s.moved moves).Defers other m := fun other hother =>
          hdefers ⟨other, hother⟩
        rw [deferred_of_not hdiscards hnone]
        simp [hdiscards, hnone]

/-! ## The screen turns on -/

theorem changes_announceError (s : Screen) (text : Text) :
    (s.announceError text).screen.board.changes = s.board.changes + 1 := by
  refine Outcome.alter_induct (P := fun u => u.board.changes = s.board.changes + 1) ?_ fun u hu => hu
  rw [put, board_withBoard]
  split
  · rfl
  · rfl

/-- What is left when the screen has turned on and a text waited for it: the text is up, put there once, with
a new timer of its own, and does not wait any more. -/
structure ShownOnce (s u : Screen) (text : Text) : Prop where
  message : u.board.message = some ⟨some text, s.settings.warningColor⟩
  changes : u.board.changes = s.board.changes + 1
  timers : u.board.agenda.timers
    = [⟨s.board.agenda.now + Feedback.errorMillis, s.board.agenda.nextId, .takeDown⟩]
  deferred : u.feedback.deferred = none

theorem shownOnce_screenOn {s : Screen} (hreach : s.Reachable) {text : Text}
    (h : s.feedback.deferred = some text) (hfault : (s.receive .screenOn).fault = none) :
    s.ShownOnce (s.receive .screenOn).screen text := by
  have hannounced : s.announced? .screenOn = some (text, .takeDown) := by
    simp [announced?, h]
  have hboard := announced_of_error (Reach.owned hreach) hannounced hfault
  refine ⟨?_, ?_, hboard.timers, ?_⟩
  · rw [hboard.message, warning, Reach.warningColor hreach]
  · simp only [receive, screenOn, h]
    exact Outcome.alter_induct (P := fun u => u.board.changes = s.board.changes + 1)
      (s.changes_announceError text) fun u hu => hu
  · exact deferred_of_discards (m := .act (.event .screenOn)) (.inr ⟨rfl, hfault⟩)

/-- After any moves from a fresh start, the text that is kept is that of the last error that was deferred,
unless it was discarded since. When the screen turns on, the text is shown once, for its time, and discarded;
without a text nothing happens at all. And nothing else touches the text. -/
theorem deferred_eq_some_iff_waits (settings : Settings) (phone : Phone) (user : Int)
    (unlock : UnlockSource) (estimate : EstimateSource) (moves : List Move) :
    let s := start settings phone user unlock estimate
    let u := s.moved moves
    (∀ text, u.feedback.deferred = some text ↔ Waits text s moves) ∧
      (∀ text, u.feedback.deferred = some text → (u.receive .screenOn).fault = none →
        u.ShownOnce (u.receive .screenOn).screen text) ∧
      (u.feedback.deferred = none → u.receive .screenOn = u.done) ∧
      ∀ m, ¬u.Discards m → (∀ text, ¬u.Defers text m) →
        (u.move m).screen.feedback.deferred = u.feedback.deferred := by
  intro s u
  have hreach : s.Reachable := .start settings phone user unlock estimate
  refine ⟨?_, ?_, ?_, ?_⟩
  · exact deferred_moved_iff rfl moves
  · intro text htext hfault
    exact shownOnce_screenOn (hreach.moved moves) htext hfault
  · intro hnone
    simp [receive, screenOn, hnone]
  · intro m hdiscards hdefers
    exact deferred_of_not hdiscards hdefers

/-- A second error is deferred before the screen turns on, and a help text comes in between. -/
def deferredTwice : List Move :=
  [.act (.phone (.interactive false)), .act (.event (.sensorError 7 "Wet")),
    .act (.event (.sensorHelp 1 "Wipe")), .act (.event (.sensorError 9 "Dirty"))]

theorem deferred_eq_some_iff_waits_deferredTwice :
    Waits "Dirty" (start .standard {} 0 .phone .nobody) deferredTwice ∧
      ((start .standard {} 0 .phone .nobody).moved deferredTwice).ShownOnce
        (((start .standard {} 0 .phone .nobody).moved deferredTwice).receive .screenOn).screen
          "Dirty" := by
  obtain ⟨hwaits, hshown, _⟩ :=
    deferred_eq_some_iff_waits .standard {} 0 .phone .nobody deferredTwice
  have hkept : ((start .standard {} 0 .phone .nobody).moved deferredTwice).feedback.deferred
      = some (("Dirty" : String) : Text) := by decide +kernel
  exact ⟨(hwaits "Dirty").mp hkept, hshown "Dirty" hkept (by decide +kernel)⟩

end LockScreen.Screen
