import LockScreen.Proofs.Service.Calls

/-!
# Runs of the service

A service is started on a settings file and then answers requests, as they were read, while time passes. Whatever it
does, it works on its screen by the operations of the screen; besides, it writes to the state of the phone and to the
journal, and it sets the clock. So a property of screens that survives all this (`Survives`) holds of the screen of
every service that is reached, once it holds of a screen that nothing has happened to (`Reachable.screen`). A property
that other settings would take away survives work and time at least (`SurvivesTime`).
-/

namespace LockScreen

/-- A property of screens that neither work takes away nor timers that go off, nor changes to the journal and to the
clock. -/
structure SurvivesTime (P : Screen → Prop) : Prop extends SurvivesWork P where
  fire : ∀ (s : Screen) (t : Timer Task), P s → P (s.fire t).screen
  journal : ∀ (s : Screen) (journal : Journal), P s → P { s with journal }
  setNow : ∀ (s : Screen) (time : Nat), P s → P { s with board.agenda := s.board.agenda.setNow time }

/-- A property of screens that settings that are put in force do not take away either. -/
structure Survives (P : Screen → Prop) : Prop extends SurvivesTime P where
  apply : ∀ (s : Screen) (settings : Settings), P s → P (s.apply settings).screen

namespace Service

/-- What happens to a service. -/
inductive Move
  | request (received : Received)
  | advance (millis : Nat)
  | start
  | stop

/-- The service after a move. -/
def move (s : Service) : Move → Service
  | .request received => (s.respond received).1
  | .advance millis => s.advance millis
  | .start => s.start
  | .stop => s.stop

/-- The services that moves lead to from one on a settings file. -/
inductive Reachable : Service → Prop
  | ofFile {file : Option FileContent} {phone : Phone} {s : Service} : ofFile file phone = .ok s → Reachable s
  | move {s : Service} (m : Move) : Reachable s → Reachable (s.move m)

/-- The service after a row of moves. -/
def moved (s : Service) (moves : List Move) : Service :=
  moves.foldl move s

/-- A condition holds of each move of a row where it is made. -/
def Throughout (allowed : Service → Move → Prop) (s : Service) : List Move → Prop
  | [] => True
  | m :: rest => allowed s m ∧ (s.move m).Throughout allowed rest

instance instDecidableThroughout {allowed : Service → Move → Prop} [∀ s m, Decidable (allowed s m)] :
    ∀ (s : Service) (moves : List Move), Decidable (s.Throughout allowed moves)
  | _, [] => inferInstanceAs (Decidable True)
  | s, m :: rest =>
    have : Decidable ((s.move m).Throughout allowed rest) := instDecidableThroughout _ rest
    inferInstanceAs (Decidable (_ ∧ _))

theorem Reachable.moved {s : Service} (h : s.Reachable) (moves : List Move) : (s.moved moves).Reachable := by
  induction moves generalizing s with
  | nil => exact h
  | cons m rest ih => exact ih (.move m h)

/-- The screen of a service that was just started is one that nothing has happened to. -/
theorem screen_ofFile {file : Option FileContent} {phone : Phone} {s : Service} (h : ofFile file phone = .ok s) :
    s.screen = .start s.store.settings phone 0 .phone .phone := by
  unfold ofFile at h
  obtain ⟨store, _, hstore⟩ := exists_ok_of_bind h
  obtain ⟨metronome, _, hmetronome⟩ := exists_ok_of_bind hstore
  cases hmetronome
  rfl

end Service

/-! ## Calls -/

variable {P : Screen → Prop}

/-- A change of settings is refused, or it is stored and put in force. -/
theorem SurvivesWork.answer_of_apply (h : SurvivesWork P)
    (happly : ∀ (s : Screen) (settings : Settings), P s → P (s.apply settings).screen) {s : Service}
    (hs : P s.screen) (c : Call) : P (s.answer c).1.screen := by
  cases hchange : c.change? with
  | none => exact h.answer hs hchange
  | some change =>
    cases hstore : s.store.call change with
    | error fault =>
      rw [Service.answer_of_refused hchange hstore]
      exact hs
    | ok store =>
      rw [Service.answer_of_accepted hchange hstore]
      exact happly s.screen store.settings hs

/-! ## Time -/

namespace SurvivesTime

theorem afterWork (h : SurvivesTime P) (s : Service) {o : Outcome} (ho : P o.screen) (w : Warning) :
    P (s.afterWork o w).screen := by
  unfold Service.afterWork
  split
  · exact ho
  · exact h.journal o.screen _ ho

theorem perform (h : SurvivesTime P) {s : Service} (hs : P s.screen) (due : Service.Due) :
    P (s.perform due).screen := by
  cases due with
  | timer t => exact h.afterWork s (h.fire s.screen t hs) .timerFailed
  | tick moment => exact h.afterWork s (h.step s.screen (.event .tick) rfl hs) .tickFailed

theorem advance (h : SurvivesTime P) {s : Service} (hs : P s.screen) (millis : Nat) : P (s.advance millis).screen := by
  have hran (dues : List Service.Due) {s : Service} (hs : P s.screen) : P (dues.foldl Service.perform s).screen := by
    induction dues generalizing s with
    | nil => exact hs
    | cons due rest ih => exact ih (h.perform hs due)
  exact h.setNow _ _ (hran _ hs)

end SurvivesTime

/-! ## Moves -/

namespace Survives

theorem respond (h : Survives P) {s : Service} (hs : P s.screen) (received : Received) :
    P (s.respond received).1.screen :=
  Service.respond_induct (P := fun u => P u.screen) hs (fun c => h.advance (h.answer_of_apply h.apply hs c) 0) received

theorem move (h : Survives P) {s : Service} (hs : P s.screen) (m : Service.Move) : P (s.move m).screen := by
  cases m with
  | request received => exact h.respond hs received
  | advance millis => exact h.advance hs millis
  | start => exact hs
  | stop => exact h.step s.screen .close rfl hs

end Survives

/-- What holds of a screen that nothing has happened to, and survives whatever does, holds of the screen of every
service. -/
theorem Service.Reachable.screen (h : Survives P)
    (hstart : ∀ settings phone user unlock estimate, P (.start settings phone user unlock estimate))
    {s : Service} (hs : s.Reachable) : P s.screen := by
  induction hs with
  | ofFile hfile =>
    rw [screen_ofFile hfile]
    exact hstart ..
  | move m _ ih => exact h.move ih m

end LockScreen
