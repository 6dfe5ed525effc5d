import LockScreen.Proofs.Screen.Ownership

/-!
# What work on the board leaves alone

Most of what happens to a screen is work on its message and its timers: a message goes up or comes down,
timers are set and given up and go off, and the line is selected anew. A view of the screen that does not
look at any of this (`BlindToBoard`) is the same before and after, whether or not the work stops half-way. An
event does no more than such work and a few notes, so a view that does not look at these either is the same after
every event (`BlindToBoard.receive`).

All that is left are the texts and the settings. A view that shows neither (`BlindToWork`) is changed only by showing
or hiding the screen and by assignments; the visibility itself is such a view (`visible_move`).
-/

namespace LockScreen

/-- A move that shows or hides the screen. -/
def Move.isVisibility : Move → Bool
  | .act (.setVisible _) => true
  | _ => false

theorem Move.eq_of_isVisibility {m : Move} (h : m.isVisibility = true) :
    ∃ visible, m = .act (.setVisible visible) := by
  cases m with
  | act a =>
    cases a with
    | setVisible visible => exact ⟨visible, rfl⟩
    | _ => cases h
  | fire id => cases h

/-- A move that assigns to a part of the phone or to one of the sources that are asked. -/
def Move.isAssignment : Move → Bool
  | .act (.phone _) | .act (.unlockSource _) | .act (.estimateSource _) => true
  | _ => false

/-- No line is called for on a hidden screen, and nobody is asked for an estimate. -/
theorem Situation.line_of_hidden {s : Situation} (h : s.visible = false) (p : Phrases) (source : Option Answer)
    (j : Journal) : s.line p source j = (.ok none, j) := by
  unfold Situation.line
  rw [h]
  rfl

namespace Outcome

@[simp]
theorem fault_alter (o : Outcome) (change : Screen → Screen) : (o.alter change).fault = o.fault := by
  obtain ⟨s, fault⟩ := o
  cases fault with
  | none => rfl
  | some fault => rfl

/-- A last change is made exactly if the operation has not stopped before. -/
theorem screen_alter (o : Outcome) (change : Screen → Screen) :
    (o.alter change).screen = if o.fault = none then change o.screen else o.screen := by
  obtain ⟨s, fault⟩ := o
  cases fault with
  | none => rfl
  | some fault => rfl

end Outcome

namespace Screen

variable {α : Type} {view : Screen → α}

/-- A view does not show the board, the timer and the icon of a help text, or what a refresh changes. -/
def BlindToBoard (view : Screen → α) : Prop :=
  ∀ (s : Screen) (board : MessageBoard) (helpTimer : Option Nat) (lockIconError : Flag)
    (display : Display) (lastLine : Option Line) (journal : Journal),
    view { s with
      board, display, lastLine, journal
      feedback.helpTimer := helpTimer, phone.lockIconError := lockIconError } = view s

namespace BlindToBoard

theorem refresh (h : BlindToBoard view) (s : Screen) : view s.refresh.screen = view s := by
  obtain ⟨display, lastLine, journal, hrefresh⟩ := s.refresh_frame
  rw [hrefresh]
  exact h s s.board s.feedback.helpTimer s.phone.lockIconError display lastLine journal

theorem withBoard (h : BlindToBoard view) (s : Screen) (board : MessageBoard) :
    view (s.withBoard board).screen = view s := by
  obtain ⟨display, lastLine, journal, hboard⟩ := s.withBoard_frame board
  rw [hboard]
  exact h s board s.feedback.helpTimer s.phone.lockIconError display lastLine journal

theorem setBoard (h : BlindToBoard view) (s : Screen) (board : MessageBoard) :
    view { s with board } = view s :=
  h s board s.feedback.helpTimer s.phone.lockIconError s.display s.lastLine s.journal

theorem setIcon (h : BlindToBoard view) (s : Screen) (on : Bool) : view (s.setIcon on) = view s :=
  h s s.board s.feedback.helpTimer on s.display s.lastLine s.journal

theorem cancelHelp (h : BlindToBoard view) (s : Screen) : view s.cancelHelp = view s :=
  h s _ none s.phone.lockIconError s.display s.lastLine s.journal

theorem endHelpIn (h : BlindToBoard view) (s : Screen) (millis : Nat) :
    view (s.endHelpIn millis) = view s :=
  h s _ _ s.phone.lockIconError s.display s.lastLine s.journal

theorem askUnlocked (h : BlindToBoard view) (s : Screen) : view s.askUnlocked = view s := by
  obtain ⟨journal, hasked⟩ := s.askUnlocked_frame
  rw [hasked]
  exact h s s.board s.feedback.helpTimer s.phone.lockIconError s.display s.lastLine journal

theorem announceError (h : BlindToBoard view) (s : Screen) (text : Text) :
    view (s.announceError text).screen = view s := by
  refine Outcome.alter_induct (P := fun u => view u = view s) ?_ fun u hu => ?_
  · rw [put, h.withBoard]
    split
    · rw [h.setIcon, h.cancelHelp]
    · rfl
  · rw [h.setBoard, hu]

theorem perform (h : BlindToBoard view) (s : Screen) (task : Task) : view (s.perform task).screen = view s := by
  cases task with
  | takeDown => exact h.withBoard s _
  | endHelp =>
    refine (h.withBoard _ _).trans ?_
    exact h s s.board none false s.display s.lastLine s.journal

theorem fire (h : BlindToBoard view) (s : Screen) (t : Timer Task) : view (s.fire t).screen = view s := by
  by_cases hheld : s.board.agenda.holds t.id = true
  · rw [fire_of_holds hheld, h.perform]
    exact h.setBoard s _
  · rw [fire_of_not_holds hheld]
    rfl

theorem fires (h : BlindToBoard view) {s : Screen} {fired : List (Screen × Timer Task)} {o : Outcome}
    (hfires : Fires s fired o) : view o.screen = view s := by
  induction hfires with
  | nil s => rfl
  | last _ _ => exact h.fire _ _
  | cons _ _ _ ih => rw [ih, h.fire]

theorem fireAll (h : BlindToBoard view) (s : Screen) (ts : List (Timer Task)) :
    view (s.fireAll ts).screen = view s := by
  induction ts generalizing s with
  | nil => rfl
  | cons t rest ih =>
    refine Outcome.andThen_induct (P := fun o => view o.screen = view s) (h.fire s t) ?_
    intro u hu
    exact (ih u).trans hu

theorem advance (h : BlindToBoard view) (s : Screen) (millis : Nat) :
    view (s.advance millis).screen = view s := by
  refine Outcome.alter_induct (P := fun u => view u = view s) ?_ fun u hu => ?_
  · exact h.fireAll s _
  · rw [h.setBoard, hu]

/-- A pending timer that goes off, or a number under which none is pending. -/
theorem moveFire (h : BlindToBoard view) (s : Screen) (id : Nat) :
    view (s.move (.fire id)).screen = view s := by
  cases ht : s.timer? id with
  | some t =>
    rw [move_fire_of_timer? ht]
    exact h.fire s t
  | none =>
    rw [move_fire_of_timer?_eq_none ht]
    rfl

/-- An event notes what was told to the bouncer, the last error and the error that waits, and it brings the
charge up to date. What shows none of this it does not change. -/
theorem receive (h : BlindToBoard view)
    (hnotes : ∀ (s : Screen) (notices : List BouncerNotice) (lastError : Int) (deferred : Option Text),
      view { s with
        phone.bouncerNotices := notices
        feedback.lastError := lastError, feedback.deferred := deferred } = view s)
    {s : Screen} {e : Event}
    (hcharge : ∀ charging, s.ChargeAfter e charging → view { s with charging } = view s) :
    view (s.receive e).screen = view s := by
  refine receive_induct (P := fun o => view o.screen = view s) e ?_ ?_ ?_ ?_ ?_
  · rintro u ⟨notices, lastError, deferred, rfl⟩
    exact hnotes s notices lastError deferred
  · intro charging hcharging
    rw [h.refresh]
    exact hcharge charging hcharging
  · intro fault
    rfl
  · intro text note hnote
    refine Outcome.alter_induct (P := fun u => view u = view s) (h.announceError s text) ?_
    intro u hu
    obtain ⟨lastError, deferred, heq⟩ := hnote u
    rw [heq, ← hu]
    exact hnotes u u.phone.bouncerNotices lastError deferred
  · intro text
    refine Outcome.alter_induct (P := fun u => view u = view s) ?_ ?_
    · rw [put, h.withBoard, h.setIcon]
    · intro u hu
      rw [← hu, ← h.endHelpIn u Feedback.helpMillis]
      exact hnotes _ _ Feedback.noError _

end BlindToBoard

/-! ## Every move -/

/-- A view shows only what is assigned to or shown and hidden: the visibility, the flags of the phone and the sources
that are asked. -/
def BlindToWork (view : Screen → α) : Prop :=
  ∀ (s : Screen) (board : MessageBoard) (phone : Phone) (feedback : Feedback) (display : Display)
    (lastLine : Option Line) (journal : Journal) (charging : ChargeTracker) (resting : Option Text)
    (settings : Settings), view { s with
      board, feedback, display, lastLine, journal, charging, resting, settings
      phone.lockIconError := phone.lockIconError, phone.bouncerNotices := phone.bouncerNotices } = view s

namespace BlindToWork

theorem board (h : BlindToWork view) : BlindToBoard view :=
  fun s board helpTimer lockIconError display lastLine journal =>
    h s board { s.phone with lockIconError } { s.feedback with helpTimer } display lastLine journal s.charging
      s.resting s.settings

theorem receive (h : BlindToWork view) (s : Screen) (e : Event) : view (s.receive e).screen = view s := by
  refine h.board.receive ?_ fun charging _ => ?_
  · intro s bouncerNotices lastError deferred
    exact h s s.board { s.phone with bouncerNotices } { s.feedback with lastError, deferred } s.display s.lastLine
      s.journal s.charging s.resting s.settings
  · exact h s s.board s.phone s.feedback s.display s.lastLine s.journal charging s.resting s.settings

theorem apply (h : BlindToWork view) (s : Screen) (settings : Settings) :
    view (s.apply settings).screen = view s := by
  unfold Screen.apply
  rw [h.board.refresh]
  exact h s s.board s.phone { s.feedback with warningColor := settings.warningColor } s.display s.lastLine s.journal
    { s.charging with thresholds := settings.thresholds } s.resting settings

/-- A move that neither shows or hides the screen nor assigns to anything is work, whatever it does. -/
theorem move (h : BlindToWork view) {s : Screen} {m : Move} (hvisibility : m.isVisibility = false)
    (hassignment : m.isAssignment = false) : view (s.move m).screen = view s := by
  cases m with
  | fire id => exact h.board.moveFire s id
  | act a =>
    cases a with
    | setVisible => cases hvisibility
    | phone | unlockSource | estimateSource => cases hassignment
    | event e => exact h.receive s e
    | advance millis => exact h.board.advance s millis
    | put | takeDown => exact h.board.withBoard s _
    | takeDownAfter | close =>
      exact h s _ s.phone _ s.display s.lastLine s.journal s.charging s.resting s.settings
    | rest text =>
      refine (h.board.refresh _).trans ?_
      exact h s s.board s.phone s.feedback s.display s.lastLine s.journal s.charging text s.settings
    | apply settings => exact h.apply s settings
    | look => exact h.board.askUnlocked s
    | applyPayload payload =>
      simp only [Screen.move, step, act, applyPayload]
      split
      · exact h.apply s _
      · rfl

end BlindToWork

/-! ## Visibility -/

theorem blindToWork_visible : BlindToWork Screen.visible := fun _ _ _ _ _ _ _ _ _ _ => rfl

/-- Only showing and hiding the screen changes its visibility. -/
theorem visible_move {s : Screen} {m : Move} (hm : m.isVisibility = false) :
    (s.move m).screen.visible = s.visible := by
  cases hassignment : m.isAssignment with
  | false => exact blindToWork_visible.move hm hassignment
  | true =>
    cases m with
    | fire id => cases hassignment
    | act a =>
      cases a with
      | phone | unlockSource => rfl
      | estimateSource source =>
        obtain ⟨_, hsource⟩ := s.setEstimateSource_frame source
        simp only [move, step, act, hsource]
        rfl
      | _ => cases hassignment

theorem visible_moved {s : Screen} {moves : List Move}
    (hmoves : ∀ m ∈ moves, m.isVisibility = false) : (s.moved moves).visible = s.visible := by
  induction moves generalizing s with
  | nil => rfl
  | cons m rest ih =>
    obtain ⟨hfirst, hrest⟩ := List.forall_mem_cons.mp hmoves
    exact (ih hrest).trans (visible_move hfirst)

/-- A hidden screen stays hidden until somebody shows it. -/
theorem hidden_move {s : Screen} (h : s.visible = false) {m : Move}
    (hm : m ≠ .act (.setVisible true)) : (s.move m).screen.visible = false := by
  cases hvisibility : m.isVisibility with
  | false => exact (visible_move hvisibility).trans h
  | true =>
    obtain ⟨visible, rfl⟩ := Move.eq_of_isVisibility hvisibility
    cases visible with
    | true => exact absurd rfl hm
    | false => rfl

theorem hidden_moved {s : Screen} (h : s.visible = false) {moves : List Move}
    (hmoves : .act (.setVisible true) ∉ moves) : (s.moved moves).visible = false := by
  induction moves generalizing s with
  | nil => exact h
  | cons m rest ih =>
    have hm : m ≠ .act (.setVisible true) := (List.ne_of_not_mem_cons hmoves).symm
    exact ih (hidden_move h hm) (List.not_mem_of_not_mem_cons hmoves)

/-! ## Hidden screens -/

/-- A refresh of a hidden screen does no more than ask the unlock source. -/
theorem refresh_of_hidden {s : Screen} (h : s.visible = false) :
    ∃ journal, s.refresh = done { s with journal } := by
  obtain ⟨journal, hasked⟩ := s.askUnlocked_frame
  refine ⟨journal, ?_⟩
  have hhidden : (situation { s with journal }).visible = false := h
  unfold refresh
  simp only [hasked, Situation.line_of_hidden hhidden]

theorem fault_refresh_of_hidden {s : Screen} (h : s.visible = false) : s.refresh.fault = none := by
  obtain ⟨journal, hrefresh⟩ := refresh_of_hidden h
  rw [hrefresh]
  rfl

theorem fault_withBoard_of_hidden {s : Screen} (h : s.visible = false) (board : MessageBoard) :
    (s.withBoard board).fault = none := by
  unfold withBoard
  split
  · rfl
  · exact fault_refresh_of_hidden h

end Screen

end LockScreen
