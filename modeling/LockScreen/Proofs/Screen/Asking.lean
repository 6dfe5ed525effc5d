import LockScreen.Proofs.Screen.Frame
import LockScreen.Proofs.Screen.MessageLifetime

/-!
# When the unlock source is asked

The unlock source is asked in some moves and not in others (`asks`). A move in which it is not asked leaves
what the display says and the journal as they are; one in which it is asked comes down to a single refresh
(`move_cases`), save for a look, which only asks. `journal_move` shows in the journal that `asks` names
exactly the moves in which an answer was had.
-/

namespace LockScreen.Screen

/-- The unlock source is asked in a move. -/
def asks (s : Screen) : Move → Bool
  | .act (.setVisible visible) => visible
  | .act (.rest _) | .act (.put _) | .act (.apply _) | .act .look => true
  | .act .takeDown => s.board.message.isSome
  | .act (.applyPayload payload) => (s.settings.merge payload).isOk
  | .act (.event (.battery reading)) => (s.charging.update reading).isOk
  | .act (.event .userUnlocked) | .act (.event .tick) => s.visible
  | .act (.event e) => (s.announced? e).isSome
  | .act (.takeDownAfter _) | .act .close | .act (.phone _) | .act (.unlockSource _)
  | .act (.estimateSource _) => false
  -- the first timer that goes off takes the message down, and the others find none
  | m => s.board.message.isSome && !(s.fired m).isEmpty

/-- What the display says, and the journal. -/
def face (s : Screen) : Text × Color × Journal :=
  (s.display.text, s.display.color, s.journal)

/-- What decides between the notice and every other line. -/
def guard (s : Screen) : Bool × Settings × Answer :=
  (s.visible, s.settings, s.unlockAnswer)

theorem blindToBoard_guard : BlindToBoard guard := fun _ _ _ _ _ _ _ => rfl

/-- Everything that a line is chosen from. -/
def choice (s : Screen) : Situation × Phrases × Option Answer :=
  (s.situation, s.settings.phrases, s.estimateAnswer)

/-- Apart from the message, everything that a line is chosen from. -/
def setting (s : Screen) : Situation × Phrases × Option Answer :=
  ({ s.situation with message := none }, s.settings.phrases, s.estimateAnswer)

theorem blindToBoard_setting : BlindToBoard setting := fun _ _ _ _ _ _ _ => rfl

theorem choice_eq_of_setting {u v : Screen} (hsetting : u.setting = v.setting)
    (hmessage : u.board.message = v.board.message) : u.choice = v.choice := by
  have hparts (w : Screen) : w.choice = ({ w.setting.1 with message := w.board.message }, w.setting.2) := rfl
  rw [hparts, hparts, hsetting, hmessage]

theorem choice_refresh (s : Screen) : s.refresh.screen.choice = s.choice := by
  obtain ⟨_, _, _, hrefresh⟩ := s.refresh_frame
  rw [hrefresh]
  rfl

/-- A change of the screen comes down to a refresh: of a screen that differs from the first in nothing that
the display says, and from the last in nothing that decides on the notice or that a line is chosen from. -/
def Refreshes (s u : Screen) : Prop :=
  ∃ v : Screen, v.face = s.face ∧ v.unlockAnswer = s.unlockAnswer ∧ u.guard = v.guard ∧
    u.choice = v.choice ∧ u.face = v.refresh.screen.face

theorem refreshes_refresh {s v : Screen} (hface : v.face = s.face)
    (hanswer : v.unlockAnswer = s.unlockAnswer) : s.Refreshes v.refresh.screen :=
  ⟨v, hface, hanswer, blindToBoard_guard.refresh v, v.choice_refresh, rfl⟩

/-- More changes that have no part in it. -/
theorem Refreshes.of_same {s u w : Screen} (h : s.Refreshes u) (hface : w.face = u.face)
    (hguard : w.guard = u.guard) (hchoice : w.choice = u.choice) : s.Refreshes w := by
  obtain ⟨v, hv, hanswer, hu, hsame, hrefresh⟩ := h
  exact ⟨v, hv, hanswer, hguard.trans hu, hchoice.trans hsame, hface.trans hrefresh⟩

theorem refreshes_put {s u : Screen} (hface : u.face = s.face)
    (hanswer : u.unlockAnswer = s.unlockAnswer) (m : Message) : s.Refreshes (u.put m).screen := by
  have hput : u.put m = refresh { u with board := u.board.put m } := if_neg (Nat.succ_ne_self _)
  rw [hput]
  exact refreshes_refresh hface hanswer

theorem refreshes_announceError (s : Screen) (text : Text) :
    s.Refreshes (s.announceError text).screen := by
  refine Outcome.alter_induct (P := s.Refreshes) ?_ fun u hu => hu.of_same rfl rfl rfl
  split
  · exact refreshes_put (u := s.cancelHelp.setIcon false) rfl rfl _
  · exact refreshes_put (u := s) rfl rfl _

/-- A change of the screen that nobody sees: the display and the journal stay, and so do the settings, and a
hidden screen is not shown. -/
structure Silent (s u : Screen) : Prop where
  face : u.face = s.face
  settings : u.settings = s.settings
  visible : u.visible = true → s.visible = true

theorem Silent.of_guard {s u : Screen} (hface : u.face = s.face) (hguard : u.guard = s.guard) :
    s.Silent u := by
  obtain ⟨hvisible, hrest⟩ := Prod.mk.inj hguard
  exact ⟨hface, (Prod.mk.inj hrest).1, fun h => hvisible ▸ h⟩

/-- A change comes down to a refresh if the unlock source is asked, and is silent if not. -/
structure Accounted (asked : Bool) (s u : Screen) : Prop where
  refreshes : asked = true → s.Refreshes u
  silent : asked = false → s.Silent u

theorem accounted_of_refreshes {s u : Screen} (h : s.Refreshes u) : Accounted true s u :=
  ⟨fun _ => h, nofun⟩

theorem accounted_of_silent {s u : Screen} (h : s.Silent u) : Accounted false s u :=
  ⟨nofun, fun _ => h⟩

/-! ## Messages and timers -/

/-- A board that changes its message makes the screen refresh; one that does not changes nothing. -/
theorem accounted_withBoard {s u : Screen} (hface : u.face = s.face) (hguard : u.guard = s.guard)
    {board : MessageBoard} {asked : Bool} (h : board.changes = u.board.changes ↔ asked = false) :
    Accounted asked s (u.withBoard board).screen := by
  unfold withBoard
  cases asked with
  | true =>
    have hchanges : board.changes ≠ u.board.changes := fun heq => nomatch h.mp heq
    rw [if_neg hchanges]
    exact accounted_of_refreshes (refreshes_refresh hface (congrArg (·.2.2) hguard))
  | false =>
    rw [if_pos (h.mpr rfl)]
    exact accounted_of_silent (.of_guard hface hguard)

/-- A message can be taken down only if there is one. -/
theorem changes_takeDown (b : MessageBoard) :
    b.takeDown.changes = b.changes ↔ b.message.isSome = false := by
  unfold MessageBoard.takeDown
  split
  · simp [*]
  · simp [*]

theorem changes_expire (b : MessageBoard) :
    b.expire.changes = b.changes ↔ b.message.isSome = false := by
  unfold MessageBoard.expire
  split
  · simp [*]
  · simp [*]

theorem accounted_takeDown {s u : Screen} (hface : u.face = s.face) (hguard : u.guard = s.guard) :
    Accounted u.board.message.isSome s u.takeDown.screen :=
  accounted_withBoard hface hguard (changes_takeDown u.board)

theorem accounted_expire {s u : Screen} (hface : u.face = s.face) (hguard : u.guard = s.guard) :
    Accounted u.board.message.isSome s (u.withBoard u.board.expire).screen :=
  accounted_withBoard hface hguard (changes_expire u.board)

theorem accounted_fire {s : Screen} {t : Timer Task} (ht : t ∈ s.board.agenda.timers) :
    Accounted s.board.message.isSome s (s.fire t).screen := by
  cases htask : t.task with
  | takeDown =>
    rw [fire_of_takeDown ht htask]
    exact accounted_expire (u := { s with board.agenda := s.board.agenda.fire t }) rfl rfl
  | endHelp =>
    rw [fire_of_endHelp ht htask]
    exact accounted_takeDown (u := setIcon { s with
      board.agenda := s.board.agenda.fire t, feedback.helpTimer := none } false) rfl rfl

/-- Only the first timer that goes off can find a message. -/
theorem Fires.accounted {s : Screen} {fired : List (Screen × Timer Task)} {o : Outcome}
    (h : Fires s fired o) : Accounted (s.board.message.isSome && !fired.isEmpty) s o.screen := by
  induction h with
  | nil s =>
    rw [List.isEmpty_nil, Bool.not_true, Bool.and_false]
    exact accounted_of_silent (.of_guard rfl rfl)
  | last ht _ =>
    rw [List.isEmpty_cons, Bool.not_false, Bool.and_true]
    exact accounted_fire ht
  | @cons s t rest o ht _ hrest ih =>
    -- the timers behind find no message, so they change nothing that is seen
    rw [List.isEmpty_cons, Bool.not_false, Bool.and_true]
    rw [message_fire ht, Option.isSome_none, Bool.false_and] at ih
    have hface : o.screen.face = (s.fire t).screen.face := (ih.silent rfl).face
    have hguard : o.screen.guard = (s.fire t).screen.guard := blindToBoard_guard.fires hrest
    have hchoice : o.screen.choice = (s.fire t).screen.choice := by
      refine choice_eq_of_setting (blindToBoard_setting.fires hrest) ?_
      rw [hrest.message, message_fire ht, ite_self]
    refine ⟨?_, ?_⟩
    · intro hmessage
      exact ((accounted_fire ht).refreshes hmessage).of_same hface hguard hchoice
    · intro hnone
      refine .of_guard ?_ (hguard.trans (blindToBoard_guard.fire s t))
      rw [hface, ((accounted_fire ht).silent hnone).face]

/-! ## Every move -/

theorem refreshes_apply (s : Screen) (settings : Settings) :
    s.Refreshes (s.apply settings).screen :=
  refreshes_refresh (v := { s with
    settings
    charging.thresholds := settings.thresholds
    feedback.warningColor := settings.warningColor }) rfl rfl

/-- An event that is announced refreshes the screen, whatever is noted afterwards. -/
theorem refreshes_receive_of_announced? {s : Screen} {e : Event} {text : Text} {task : Task}
    (h : s.announced? e = some (text, task)) : s.Refreshes (s.receive e).screen := by
  cases task with
  | takeDown =>
    obtain ⟨note, hnote, hreceive⟩ := receive_of_error h
    rw [hreceive]
    refine Outcome.alter_induct (P := s.Refreshes) (s.refreshes_announceError text) ?_
    intro u hu
    obtain ⟨_, _, heq⟩ := hnote u
    rw [heq]
    exact hu.of_same rfl rfl rfl
  | endHelp =>
    rw [receive_of_help h]
    refine Outcome.alter_induct (P := s.Refreshes) ?_ fun u hu => hu.of_same rfl rfl rfl
    exact refreshes_put (u := s.setIcon true) rfl rfl _

theorem accounted_battery (s : Screen) (reading : BatteryReading) :
    Accounted (s.charging.update reading).isOk s (s.battery reading).screen := by
  unfold battery
  cases s.charging.update reading with
  | ok charging =>
    exact accounted_of_refreshes (refreshes_refresh (v := { s with charging }) rfl rfl)
  | error fault => exact accounted_of_silent (.of_guard rfl rfl)

theorem accounted_refreshIfVisible (s : Screen) :
    Accounted s.visible s s.refreshIfVisible.screen := by
  unfold refreshIfVisible
  cases hvisible : s.visible with
  | true => exact accounted_of_refreshes (refreshes_refresh rfl rfl)
  | false => exact accounted_of_silent (.of_guard rfl rfl)

theorem accounted_receive (s : Screen) (e : Event) :
    Accounted (s.asks (.act (.event e))) s (s.receive e).screen := by
  cases e with
  | battery reading => exact s.accounted_battery reading
  | userUnlocked | tick => exact s.accounted_refreshIfVisible
  | other name => exact accounted_of_silent (.of_guard rfl rfl)
  | sensorHelp | sensorError | sensorRunning | fingerAccepted | fingerRefused | screenOn =>
    simp only [asks]
    cases hannounced : s.announced? _ with
    | some announced => exact accounted_of_refreshes (refreshes_receive_of_announced? hannounced)
    | none =>
      obtain ⟨u, ⟨_, _, _, rfl⟩, hreceive⟩ := receive_of_isFeedback rfl hannounced
      rw [hreceive]
      exact accounted_of_silent (.of_guard rfl rfl)

theorem accounted_advance {s : Screen} (howned : s.Owned) (millis : Nat) :
    Accounted (s.asks (.act (.advance millis))) s (s.advance millis).screen := by
  have h := (fires_advance howned millis).accounted
  refine ⟨?_, ?_⟩
  · intro hasked
    exact Outcome.alter_induct (P := s.Refreshes) (h.refreshes hasked) fun u hu => hu.of_same rfl rfl rfl
  · intro hnot
    exact Outcome.alter_induct (P := s.Silent) (h.silent hnot) fun u hu =>
      ⟨hu.face, hu.settings, hu.visible⟩

theorem accounted_moveFire (s : Screen) (id : Nat) :
    Accounted (s.asks (.fire id)) s (s.move (.fire id)).screen := by
  simp only [asks, fired]
  cases ht : s.timer? id with
  | some t =>
    rw [move_fire_of_timer? ht, Option.toList_some, List.map_singleton, List.isEmpty_cons,
      Bool.not_false, Bool.and_true]
    exact accounted_fire (timer?_eq_some ht).1
  | none =>
    rw [move_fire_of_timer?_eq_none ht, Option.toList_none, List.map_nil, List.isEmpty_nil,
      Bool.not_true, Bool.and_false]
    exact accounted_of_silent (.of_guard rfl rfl)

/-- A move asks the unlock source for a refresh, or does not ask it and shows nothing. Only a look asks it for
nothing else. -/
theorem move_cases {s : Screen} (howned : s.Owned) {m : Move} (hm : m ≠ .act .look) :
    Accounted (s.asks m) s (s.move m).screen := by
  cases m with
  | fire id => exact s.accounted_moveFire id
  | act a =>
    cases a with
    | look => exact absurd rfl hm
    | setVisible visible =>
      cases visible with
      | true =>
        exact accounted_of_refreshes (refreshes_refresh
          (v := { s with visible := true, display := s.display.setVisible true }) rfl rfl)
      | false => exact accounted_of_silent ⟨rfl, rfl, nofun⟩
    | rest text =>
      exact accounted_of_refreshes (refreshes_refresh (v := { s with resting := text }) rfl rfl)
    | put m => exact accounted_of_refreshes (refreshes_put (u := s) rfl rfl m)
    | takeDown => exact accounted_takeDown rfl rfl
    | apply settings => exact accounted_of_refreshes (s.refreshes_apply settings)
    | applyPayload payload =>
      simp only [asks, move, step, act, applyPayload]
      cases s.settings.merge payload with
      | ok settings => exact accounted_of_refreshes (s.refreshes_apply settings)
      | error fault => exact accounted_of_silent (.of_guard rfl rfl)
    | event e => exact s.accounted_receive e
    | advance millis => exact accounted_advance howned millis
    | estimateSource source =>
      obtain ⟨_, hsource⟩ := s.setEstimateSource_frame source
      simp only [move, step, act, hsource]
      exact accounted_of_silent (.of_guard rfl rfl)
    | takeDownAfter | close | phone | unlockSource =>
      exact accounted_of_silent ⟨rfl, rfl, fun h => h⟩

/-! ## Moves that ask -/

/-- The failure that an answer tells of. -/
def failure? : Answer → Option Text
  | .gives _ => none
  | .fails text => some text

theorem unlockFailure_chargingText (c : ChargeState) (p : Phrases) (options : DetailOptions)
    (source : Option Answer) (j : Journal) :
    (chargingText c p options source j).2.unlockFailure = j.unlockFailure := by
  have hasked : (askEstimate source j).2.unlockFailure = j.unlockFailure := by
    rcases source with _ | _ | text
    · rfl
    · rfl
    · simp only [askEstimate, Journal.estimateFailed, Journal.warnUnless]
      split
      · rfl
      · rfl
  unfold chargingText
  split
  · rfl
  · split
    · rfl
    · exact hasked

theorem unlockFailure_line (s : Situation) (p : Phrases) (source : Option Answer) (j : Journal) :
    (s.line p source j).2.unlockFailure = j.unlockFailure := by
  unfold Situation.line
  split_ifs
  · rfl
  · rfl
  · split
    · rfl
    · exact unlockFailure_chargingText ..
  · split
    · rfl
    · rfl

theorem unlockFailure_askUnlocked (s : Screen) :
    s.askUnlocked.journal.unlockFailure = failure? s.unlockAnswer := by
  unfold askUnlocked
  cases s.unlockAnswer with
  | gives => rfl
  | fails => rfl

theorem unlockFailure_refresh (s : Screen) :
    s.refresh.screen.journal.unlockFailure = failure? s.unlockAnswer := by
  rw [← s.unlockFailure_askUnlocked]
  have hline := unlockFailure_line s.askUnlocked.situation s.askUnlocked.settings.phrases
    s.askUnlocked.estimateAnswer s.askUnlocked.journal
  unfold refresh
  dsimp only
  split
  · exact hline
  · exact hline
  · exact hline

/-- The moves that ask the unlock source are those that `asks` names: after them the journal tells of the
answer, and after the others it is as before. -/
theorem journal_move {s : Screen} (howned : s.Owned) (m : Move) :
    (s.asks m = true →
        (s.move m).screen.journal.unlockFailure = failure? s.unlockAnswer) ∧
      (s.asks m = false → (s.move m).screen.journal = s.journal) := by
  by_cases hlook : m = .act .look
  · subst hlook
    exact ⟨fun _ => s.unlockFailure_askUnlocked, nofun⟩
  · have haccounted := move_cases howned hlook
    constructor
    · intro hasks
      obtain ⟨v, _, hanswer, _, _, hrefresh⟩ := haccounted.refreshes hasks
      rw [← hanswer, ← v.unlockFailure_refresh]
      exact congrArg (·.2.2.unlockFailure) hrefresh
    · intro hasks
      exact congrArg (·.2.2) (haccounted.silent hasks).face

end LockScreen.Screen
