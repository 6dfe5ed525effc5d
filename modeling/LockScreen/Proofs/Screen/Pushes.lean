import LockScreen.Proofs.Screen.Asking
import LockScreen.Proofs.Screen.Freshness

/-!
# What is pushed to the display

A line reaches the display in a refresh only, and a refresh notes it as the line last shown. So what the display
says and what the screen believes it says never come apart (`Truthful`), and since every operation refreshes once at
most, even where timers go off one after the other, the display is updated once at most (`Sparing`). Nothing of
this depends on whether the operation stops half-way: a refresh that fails pushes nothing.
-/

namespace LockScreen.Screen

/-- Whether the screen is visible, the display, and the line last shown. -/
def facade (s : Screen) : Bool × Display × Option Line :=
  (s.visible, s.display, s.lastLine)

/-- One line at most is pushed on the way from a screen to another, and none if it is hidden. -/
def PushesOnce (s u : Screen) : Prop :=
  u.facade = s.facade ∨ s.visible = true ∧ ∃ line, u.facade = (s.push line).facade

variable {s u : Screen}

theorem pushesOnce_self (s : Screen) : s.PushesOnce s :=
  .inl rfl

theorem PushesOnce.of_facade {v : Screen} (h : s.PushesOnce u) (hv : v.facade = u.facade) : s.PushesOnce v := by
  unfold PushesOnce
  rw [hv]
  exact h

/-! ## Refreshes -/

/-- A hidden screen calls for no line. -/
theorem visible_of_line {line : Line} (h : s.line = .ok (some line)) : s.visible = true := by
  cases hvisible : s.visible with
  | true => rfl
  | false =>
    have hnone : s.line = .ok none := congrArg Prod.fst (Situation.line_of_hidden hvisible ..)
    rw [hnone] at h
    cases h

theorem pushesOnce_refresh (s : Screen) : s.PushesOnce s.refresh.screen := by
  rcases s.refresh_of_line with
    ⟨fault, journal, _, hstopped⟩ | ⟨_, journal, hdone⟩ | ⟨line, journal, hline, hpush⟩
  · rw [hstopped]
    exact .inl rfl
  · rw [hdone]
    exact .inl rfl
  · rw [hpush]
    exact .inr ⟨visible_of_line hline, line, rfl⟩

theorem pushesOnce_apply (s : Screen) (settings : Settings) : s.PushesOnce (s.apply settings).screen :=
  pushesOnce_refresh { s with
    settings
    charging.thresholds := settings.thresholds
    feedback.warningColor := settings.warningColor }

theorem facade_withBoard {board : MessageBoard} (h : board.changes = s.board.changes) :
    (s.withBoard board).screen.facade = s.facade := by
  unfold withBoard
  rw [if_pos h]
  rfl

theorem pushesOnce_withBoard (s : Screen) (board : MessageBoard) : s.PushesOnce (s.withBoard board).screen := by
  by_cases h : board.changes = s.board.changes
  · exact .inl (facade_withBoard h)
  · unfold withBoard
    rw [if_neg h]
    exact pushesOnce_refresh { s with board }

/-! ## Events -/

/-- Showing an error also gives up the timer of a help text and sets one of its own, but the line is pushed once. -/
theorem pushesOnce_announceError (s : Screen) (text : Text) : s.PushesOnce (s.announceError text).screen := by
  refine Outcome.alter_induct (P := s.PushesOnce) ?_ fun u hu => hu.of_facade rfl
  split
  · exact pushesOnce_withBoard (s.cancelHelp.setIcon false) _
  · exact pushesOnce_withBoard s _

theorem pushesOnce_receive (s : Screen) (e : Event) : s.PushesOnce (s.receive e).screen := by
  refine receive_induct (P := fun o => s.PushesOnce o.screen) e ?_ ?_ ?_ ?_ ?_
  · rintro u ⟨_, _, _, rfl⟩
    exact .inl rfl
  · intro charging _
    exact pushesOnce_refresh { s with charging }
  · intro fault
    exact s.pushesOnce_self
  · intro text note hnote
    refine Outcome.alter_induct (P := s.PushesOnce) (s.pushesOnce_announceError text) ?_
    intro u hu
    obtain ⟨_, _, heq⟩ := hnote u
    rw [heq]
    exact hu.of_facade rfl
  · intro text
    refine Outcome.alter_induct (P := s.PushesOnce) ?_ fun u hu => hu.of_facade rfl
    exact pushesOnce_withBoard (s.setIcon true) _

/-! ## Timers -/

theorem pushesOnce_perform (s : Screen) (task : Task) : s.PushesOnce (s.perform task).screen := by
  cases task with
  | takeDown => exact pushesOnce_withBoard s _
  | endHelp => exact pushesOnce_withBoard ({ s with feedback.helpTimer := none }.setIcon false) _

/-- A timer that finds no message pushes nothing. -/
theorem facade_perform (h : s.board.message = none) (task : Task) : (s.perform task).screen.facade = s.facade := by
  have hnone : s.board.message.isSome = false := by rw [h, Option.isSome_none]
  cases task with
  | takeDown => exact facade_withBoard ((changes_expire s.board).mpr hnone)
  | endHelp =>
    exact facade_withBoard (s := { s with feedback.helpTimer := none }.setIcon false)
      ((changes_takeDown s.board).mpr hnone)

theorem pushesOnce_fire (s : Screen) (t : Timer Task) : s.PushesOnce (s.fire t).screen := by
  by_cases hheld : s.board.agenda.holds t.id = true
  · rw [fire_of_holds hheld]
    exact pushesOnce_perform { s with board.agenda := s.board.agenda.fire t } t.task
  · rw [fire_of_not_holds hheld]
    exact s.pushesOnce_self

/-- Timers that find no message push nothing, and they put up none. -/
theorem fireAll_of_message_eq_none (h : s.board.message = none) (ts : List (Timer Task)) :
    (s.fireAll ts).screen.facade = s.facade ∧ (s.fireAll ts).screen.board.message = none := by
  induction ts generalizing s with
  | nil => exact ⟨rfl, h⟩
  | cons t rest ih =>
    unfold fireAll
    refine Outcome.andThen_induct
      (P := fun o => o.screen.facade = s.facade ∧ o.screen.board.message = none) ?_ ?_
    · by_cases hheld : s.board.agenda.holds t.id = true
      · rw [fire_of_holds hheld]
        exact ⟨facade_perform (s := { s with board.agenda := s.board.agenda.fire t }) h t.task,
          message_perform _ _⟩
      · rw [fire_of_not_holds hheld]
        exact ⟨rfl, h⟩
    · rintro u ⟨hfacade, hmessage⟩
      obtain ⟨hrest, hleft⟩ := ih hmessage
      exact ⟨hrest.trans hfacade, hleft⟩

/-- Only the first timer that goes off can find a message. -/
theorem pushesOnce_fireAll (s : Screen) (ts : List (Timer Task)) : s.PushesOnce (s.fireAll ts).screen := by
  induction ts generalizing s with
  | nil => exact s.pushesOnce_self
  | cons t rest ih =>
    unfold fireAll
    by_cases hheld : s.board.agenda.holds t.id = true
    · have hmessage : (s.fire t).screen.board.message = none := by
        rw [fire_of_holds hheld]
        exact message_perform _ _
      -- the timers behind find no message any more, should they have their turn
      by_cases hfault : (s.fire t).fault = none
      · rw [Outcome.andThen_of_fault_eq_none hfault]
        exact (s.pushesOnce_fire t).of_facade (fireAll_of_message_eq_none hmessage rest).1
      · rw [Outcome.andThen_of_fault_ne_none hfault]
        exact s.pushesOnce_fire t
    · rw [fire_of_not_holds hheld]
      exact ih s

/-- Where no timer goes off, nothing is pushed. -/
theorem fireAll_of_firings_eq_nil {ts : List (Timer Task)} (h : s.firings ts = []) : s.fireAll ts = s.done := by
  induction ts with
  | nil => rfl
  | cons t rest ih =>
    unfold firings at h
    split at h
    · cases h
    · rename_i hheld
      unfold fireAll
      rw [fire_of_not_holds hheld]
      exact ih h

theorem pushesOnce_advance (s : Screen) (millis : Nat) : s.PushesOnce (s.advance millis).screen :=
  Outcome.alter_induct (P := s.PushesOnce) (s.pushesOnce_fireAll _) fun _ hu => hu.of_facade rfl

/-- Time that passes without a timer that goes off shows nothing new. -/
theorem facade_advance {millis : Nat} (h : s.fired (.act (.advance millis)) = []) :
    (s.advance millis).screen.facade = s.facade := by
  unfold advance
  dsimp only
  rw [fireAll_of_firings_eq_nil h]
  rfl

/-! ## Moves -/

/-- The screen as it is before it is refreshed because it was shown, or as it stays when it was hidden. -/
def turned (s : Screen) (visible : Bool) : Screen :=
  { s with visible, display := s.display.setVisible visible }

theorem pushesOnce_setVisible (s : Screen) (visible : Bool) :
    (s.turned visible).PushesOnce (s.setVisible visible).screen := by
  cases visible with
  | true => exact (s.turned true).pushesOnce_refresh
  | false => exact (s.turned false).pushesOnce_self

theorem pushesOnce_move (s : Screen) {m : Move} (hm : m.isVisibility = false) : s.PushesOnce (s.move m).screen := by
  cases m with
  | fire id =>
    simp only [move]
    split
    · exact s.pushesOnce_fire _
    · exact s.pushesOnce_self
  | act a =>
    cases a with
    | setVisible visible => cases hm
    | event e => exact s.pushesOnce_receive e
    | advance millis => exact s.pushesOnce_advance millis
    | put | takeDown => exact s.pushesOnce_withBoard _
    | rest text => exact pushesOnce_refresh { s with resting := text }
    | apply settings => exact s.pushesOnce_apply settings
    | applyPayload payload =>
      simp only [move, step, act, applyPayload]
      split
      · exact s.pushesOnce_apply _
      · exact s.pushesOnce_self
    | look =>
      obtain ⟨_, hasked⟩ := s.askUnlocked_frame
      simp only [move, step, act, hasked]
      exact .inl rfl
    | estimateSource source =>
      obtain ⟨_, hsource⟩ := s.setEstimateSource_frame source
      simp only [move, step, act, hsource]
      exact .inl rfl
    | takeDownAfter | close | phone | unlockSource => exact .inl rfl

/-! ## What the screen believes -/

/-- What the screen believes of its display is so: whether it is visible, whether a line was ever shown, and the
text and the colour of the last one. -/
structure Truthful (s : Screen) : Prop where
  visible : s.display.visible = s.visible
  lastLine_eq_none_iff : s.lastLine = none ↔ s.display.updates = 0
  shown : ∀ line, s.lastLine = some line → s.display.text = line.text ∧ s.display.color = line.color

theorem truthful_start (settings : Settings) (phone : Phone) (user : Int) (unlock : UnlockSource)
    (estimate : EstimateSource) : (start settings phone user unlock estimate).Truthful :=
  ⟨rfl, ⟨fun _ => rfl, fun _ => rfl⟩, nofun⟩

namespace Truthful

/-- Nothing else enters into it. -/
theorem of_facade (h : s.Truthful) (hu : u.facade = s.facade) : u.Truthful := by
  obtain ⟨hvisible, hrest⟩ := Prod.mk.inj hu
  obtain ⟨hdisplay, hlast⟩ := Prod.mk.inj hrest
  refine ⟨?_, ?_, ?_⟩
  · rw [hvisible, hdisplay]
    exact h.visible
  · rw [hdisplay, hlast]
    exact h.lastLine_eq_none_iff
  · rw [hdisplay, hlast]
    exact h.shown

theorem push (h : s.Truthful) (line : Line) : (s.push line).Truthful := by
  refine ⟨h.visible, ?_, ?_⟩
  · simp [Screen.push, Display.push, Display.switchText, Display.setColor]
  · intro shown hshown
    cases hshown
    exact ⟨rfl, rfl⟩

theorem of_pushesOnce (h : s.Truthful) (hu : s.PushesOnce u) : u.Truthful := by
  rcases hu with hsame | ⟨_, line, hpush⟩
  · exact h.of_facade hsame
  · exact (h.push line).of_facade hpush

theorem turned (h : s.Truthful) (visible : Bool) : (s.turned visible).Truthful :=
  ⟨rfl, h.lastLine_eq_none_iff, h.shown⟩

/-- A move takes a screen that is right about its display to one that is, also if it stops half-way. -/
theorem move (h : s.Truthful) (m : Move) : (s.move m).screen.Truthful := by
  cases hm : m.isVisibility with
  | true =>
    obtain ⟨visible, rfl⟩ := Move.eq_of_isVisibility hm
    exact (h.turned visible).of_pushesOnce (s.pushesOnce_setVisible visible)
  | false => exact h.of_pushesOnce (s.pushesOnce_move hm)

end Truthful

theorem Reach.truthful {allowed : Screen → Move → Prop} (h : Reach allowed s) : s.Truthful := by
  induction h with
  | start settings phone user unlock estimate => exact truthful_start ..
  | move m _ _ ih => exact ih.move m

/-! ## How often the display is updated -/

/-- A move updates the display once at most, whether or not it stops half-way: only if a timer goes off where time
passes, and not at all if it leaves the screen hidden. -/
structure Sparing (s : Screen) (m : Move) : Prop where
  le : s.display.updates ≤ (s.move m).screen.display.updates
  le_succ : (s.move m).screen.display.updates ≤ s.display.updates + 1
  le_fired : ∀ millis, m = .act (.advance millis) →
    (s.move m).screen.display.updates ≤ s.display.updates + (s.fired m).length
  hidden : (s.move m).screen.visible = false → (s.move m).screen.display.updates = s.display.updates

theorem updates_of_facade (h : u.facade = s.facade) : u.display.updates = s.display.updates :=
  congrArg (·.2.1.updates) h

theorem PushesOnce.updates (h : s.PushesOnce u) :
    s.display.updates ≤ u.display.updates ∧ u.display.updates ≤ s.display.updates + 1 ∧
      (u.visible = false → u.display.updates = s.display.updates) := by
  rcases h with hsame | ⟨hvisible, line, hpush⟩
  · have hupdates := updates_of_facade hsame
    exact ⟨by omega, by omega, fun _ => hupdates⟩
  · have hupdates : u.display.updates = s.display.updates + 1 := updates_of_facade hpush
    refine ⟨by omega, by omega, ?_⟩
    intro hhidden
    have hstill : u.visible = s.visible := congrArg Prod.fst hpush
    rw [hstill, hvisible] at hhidden
    cases hhidden

theorem updates_move (s : Screen) (m : Move) :
    s.display.updates ≤ (s.move m).screen.display.updates ∧
      (s.move m).screen.display.updates ≤ s.display.updates + 1 ∧
      ((s.move m).screen.visible = false → (s.move m).screen.display.updates = s.display.updates) := by
  cases hm : m.isVisibility with
  | true =>
    obtain ⟨visible, rfl⟩ := Move.eq_of_isVisibility hm
    exact (s.pushesOnce_setVisible visible).updates
  | false => exact (s.pushesOnce_move hm).updates

theorem sparing_move (s : Screen) (m : Move) : s.Sparing m := by
  obtain ⟨hle, hsucc, hhidden⟩ := s.updates_move m
  refine ⟨hle, hsucc, ?_, hhidden⟩
  rintro millis rfl
  cases hfired : s.fired (.act (.advance millis)) with
  | nil => exact Nat.le_of_eq (updates_of_facade (facade_advance hfired))
  | cons => exact Nat.le_trans hsucc (Nat.add_le_add_left (Nat.succ_pos _) _)

end LockScreen.Screen
