import LockScreen.Proofs.Screen.Frame
import Mathlib.Data.List.Induction

/-!
# What is noted of the feedback

Of the events of the sensor a screen notes the code of the last error, the text that waits for the screen to
turn on, and what the bouncer was told (`Record`). `Screen.noting` says what each event adds to that, and
`record_receive` that an event which stops half-way adds nothing at all. No other move changes the record.

What a part of the record stands for is then a matter of the moves so far. `Since` says of a row of moves that
one of some kind was made and none of another kind since then, and `since_append_singleton` how one more move
changes that.
-/

namespace LockScreen.Screen

/-! ## Since -/

/-- A move of a row began something, and no later one has ended it. -/
def Since (begins ends : Screen → Move → Prop) (s : Screen) (moves : List Move) : Prop :=
  ∃ before m after, moves = before ++ m :: after ∧ begins (s.moved before) m ∧
    (s.moved (before ++ [m])).Throughout (fun u n => ¬ends u n) after

variable {begins ends : Screen → Move → Prop}

theorem not_since_nil (s : Screen) : ¬Since begins ends s [] := by
  rintro ⟨before, m, after, hmoves, _⟩
  simp at hmoves

theorem moved_append (s : Screen) (before after : List Move) :
    s.moved (before ++ after) = (s.moved before).moved after :=
  List.foldl_append

/-- One more move begins it, or it was begun before and this move does not end it. -/
theorem since_append_singleton {s : Screen} {moves : List Move} {m : Move} :
    Since begins ends s (moves ++ [m]) ↔
      begins (s.moved moves) m ∨ (Since begins ends s moves ∧ ¬ends (s.moved moves) m) := by
  constructor
  · rintro ⟨before, first, after, hmoves, hbegins, hkept⟩
    rcases List.eq_nil_or_concat' after with rfl | ⟨rest, last, rfl⟩
    · obtain ⟨rfl, hm⟩ := List.append_inj' hmoves rfl
      cases hm
      exact .inl hbegins
    · have hsplit : moves ++ [m] = (before ++ first :: rest) ++ [last] := by simp [hmoves]
      obtain ⟨rfl, hm⟩ := List.append_inj' hsplit rfl
      cases hm
      obtain ⟨hrest, hlast⟩ := throughout_append_singleton.mp hkept
      rw [← moved_append, List.append_assoc] at hlast
      exact .inr ⟨⟨before, first, rest, rfl, hbegins, hrest⟩, hlast⟩
  · rintro (hbegins | ⟨⟨before, first, after, rfl, hbegins, hkept⟩, hlast⟩)
    · exact ⟨moves, m, [], rfl, hbegins, trivial⟩
    · refine ⟨before, first, after ++ [m], by simp, hbegins, ?_⟩
      refine throughout_append_singleton.mpr ⟨hkept, ?_⟩
      rw [← moved_append, List.append_assoc]
      exact hlast

/-! ## The record -/

/-- What is noted of the feedback, besides its timer and its colour. -/
structure Record where
  lastError : Int
  deferred : Option Text
  notices : List BouncerNotice

/-- The record of a screen. -/
def record (s : Screen) : Record :=
  ⟨s.feedback.lastError, s.feedback.deferred, s.phone.bouncerNotices⟩

theorem blindToBoard_record : BlindToBoard record := fun _ _ _ _ _ _ _ => rfl

/-- The last messages, as many as the bouncer keeps. -/
def latest (notices : List BouncerNotice) : List BouncerNotice :=
  notices.drop (notices.length - Phone.bouncerLimit)

/-- A text as the bouncer is told it. -/
def notice (s : Screen) (text : Text) : BouncerNotice :=
  ⟨text, s.feedback.warningColor⟩

/-- What an event adds to the record. -/
def noting (s : Screen) : Event → Record
  | .sensorHelp _ text =>
    if !s.phone.fingerprintAllowed.isUp then s.record
    else { s.record with
      lastError := Feedback.noError
      notices := if s.phone.bouncerShowing.isUp
        then latest (s.phone.bouncerNotices ++ [s.notice text]) else s.phone.bouncerNotices }
  | .sensorError code text =>
    if !s.phone.fingerprintAllowed.isUp || code = Feedback.canceled then s.record
    else {
      lastError := code
      deferred := if s.phone.bouncerShowing.isUp || s.phone.interactive.isUp
        then s.feedback.deferred else some text
      notices := if s.phone.bouncerShowing.isUp && code ≠ s.feedback.lastError
        then latest (s.phone.bouncerNotices ++ [s.notice text]) else s.phone.bouncerNotices }
  | .sensorRunning on => if on then { s.record with deferred := none } else s.record
  | .fingerAccepted _ | .fingerRefused => { s.record with lastError := Feedback.noError }
  | .screenOn => { s.record with deferred := none }
  | _ => s.record

/-- What an operation leaves on record: what it was to note where it did all it had to, and otherwise the
record from before. -/
def LeavesRecord (s : Screen) (o : Outcome) (r : Record) : Prop :=
  o.screen.record = if o.fault = none then r else s.record

theorem leavesRecord_done (s : Screen) {u : Screen} {r : Record} (h : u.record = r) :
    s.LeavesRecord u.done r :=
  h

/-- A note that is made after all the rest of an operation. -/
theorem leavesRecord_alter {s : Screen} {o : Outcome} {change : Screen → Screen} {r : Record}
    (h : o.screen.record = s.record)
    (hchange : ∀ u : Screen, u.record = s.record → (change u).record = r) :
    s.LeavesRecord (o.alter change) r := by
  unfold LeavesRecord
  rw [Outcome.screen_alter, Outcome.fault_alter]
  split
  · exact hchange _ h
  · exact h

theorem leavesRecord_sensorHelp (s : Screen) (code : Int) (text : Text) :
    s.LeavesRecord (s.sensorHelp text) (s.noting (.sensorHelp code text)) := by
  unfold sensorHelp
  split_ifs with hallowed hbouncer hinteractive
  · exact leavesRecord_done s (by simp [noting, hallowed])
  · exact leavesRecord_done s (by simp [noting, hallowed, hbouncer]; rfl)
  · refine leavesRecord_alter ?_ ?_
    · rw [put, blindToBoard_record.withBoard, blindToBoard_record.setIcon]
    · intro u hu
      have hnoted : (u.endHelpIn Feedback.helpMillis).forgetError.record
          = { u.record with lastError := Feedback.noError } := rfl
      rw [hnoted, hu]
      simp [noting, hallowed, hbouncer]
      rfl
  · exact leavesRecord_done s (by simp [noting, hallowed, hbouncer]; rfl)

theorem leavesRecord_sensorError (s : Screen) (code : Int) (text : Text) :
    s.LeavesRecord (s.sensorError code text) (s.noting (.sensorError code text)) := by
  unfold sensorError
  split_ifs with hignored hbouncer hrepeated hinteractive
  · exact leavesRecord_done s (by simp [noting, hignored])
  · exact leavesRecord_done s (by simp [noting, hignored, hbouncer, ← hrepeated]; rfl)
  · exact leavesRecord_done s (by simp [noting, hignored, hbouncer, hrepeated]; rfl)
  · refine leavesRecord_alter (blindToBoard_record.announceError s text) ?_
    intro u hu
    have hnoted : record { u with feedback.lastError := code } = { u.record with lastError := code } :=
      rfl
    rw [hnoted, hu]
    simp [noting, hignored, hbouncer, hinteractive]
    exact ⟨rfl, rfl⟩
  · exact leavesRecord_done s (by simp [noting, hignored, hbouncer, hinteractive]; rfl)

theorem leavesRecord_screenOn (s : Screen) : s.LeavesRecord s.screenOn (s.noting .screenOn) := by
  unfold screenOn
  split
  · rename_i hnone
    refine leavesRecord_done s ?_
    simp only [noting, record, hnone]
  · refine leavesRecord_alter (blindToBoard_record.announceError s _) ?_
    intro u hu
    have hnoted : record { u with feedback.deferred := none } = { u.record with deferred := none } := rfl
    rw [hnoted, hu]
    rfl

/-- An event adds to the record what it has to, or nothing where it stops half-way. -/
theorem record_receive (s : Screen) (e : Event) : s.LeavesRecord (s.receive e) (s.noting e) := by
  cases e with
  | sensorHelp code text => exact s.leavesRecord_sensorHelp code text
  | sensorError code text => exact s.leavesRecord_sensorError code text
  | screenOn => exact s.leavesRecord_screenOn
  | sensorRunning on =>
    refine leavesRecord_done s ?_
    unfold sensorRunning
    rw [noting]
    split
    · rfl
    · rfl
  | fingerAccepted | fingerRefused => exact leavesRecord_done s rfl
  | battery reading =>
    have hsame : (s.battery reading).screen.record = s.record := by
      unfold battery
      split
      · exact blindToBoard_record.refresh _
      · rfl
    exact hsame.trans (ite_self _).symm
  | userUnlocked | tick =>
    have hsame : s.refreshIfVisible.screen.record = s.record := by
      unfold refreshIfVisible
      split
      · exact blindToBoard_record.refresh s
      · rfl
    exact hsame.trans (ite_self _).symm
  | other name => rfl

theorem record_event_of_done {s : Screen} {e : Event} (h : (s.move (.act (.event e))).fault = none) :
    (s.move (.act (.event e))).screen.record = s.noting e :=
  (s.record_receive e).trans (if_pos h)

/-- Nothing but an event changes the record. -/
theorem record_move {s : Screen} {m : Move} (h : ∀ e, m ≠ .act (.event e)) :
    (s.move m).screen.record = s.record := by
  cases m with
  | fire id => exact blindToBoard_record.moveFire s id
  | act a =>
    cases a with
    | event e => exact absurd rfl (h e)
    | advance millis => exact blindToBoard_record.advance s millis
    | put | takeDown => exact blindToBoard_record.withBoard s _
    | takeDownAfter | close | unlockSource => rfl
    | rest | apply => exact blindToBoard_record.refresh _
    | look => exact blindToBoard_record.askUnlocked s
    | setVisible visible =>
      simp only [move, step, act, setVisible]
      split
      · exact blindToBoard_record.refresh _
      · rfl
    | applyPayload payload =>
      simp only [move, step, act, applyPayload]
      split
      · exact blindToBoard_record.refresh _
      · rfl
    | phone change => cases change <;> rfl
    | estimateSource source =>
      obtain ⟨_, hsource⟩ := s.setEstimateSource_frame source
      simp only [move, step, act, hsource]
      rfl

/-- A move adds what its event has to, if there is one and nothing stops it half-way, and nothing otherwise. -/
theorem record_move_cases (s : Screen) (m : Move) :
    (∃ e, m = .act (.event e) ∧ (s.move m).fault = none ∧ (s.move m).screen.record = s.noting e) ∨
      (s.move m).screen.record = s.record ∧ ∀ e, m = .act (.event e) → (s.move m).fault ≠ none := by
  by_cases hevent : ∃ e, m = .act (.event e)
  · obtain ⟨e, rfl⟩ := hevent
    by_cases hfault : (s.move (.act (.event e))).fault = none
    · exact .inl ⟨e, rfl, hfault, record_event_of_done hfault⟩
    · exact .inr ⟨(s.record_receive e).trans (if_neg hfault), fun _ _ => hfault⟩
  · have hnone : ∀ e, m ≠ .act (.event e) := fun e he => hevent ⟨e, he⟩
    exact .inr ⟨record_move hnone, fun e he => absurd he (hnone e)⟩

end LockScreen.Screen
