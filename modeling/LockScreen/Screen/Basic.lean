import LockScreen.Screen.Board
import LockScreen.Screen.Phone
import LockScreen.Settings.Merge

/-!
# The state of the screen

Everything the screen keeps between two events, the outcome of an operation, and the refresh that
selects the line anew and pushes it to the display.

An operation can fail half-way, and what was changed before stays changed; so an outcome is a screen in
any case, and a fault besides.
-/

namespace LockScreen

/-- Who knows whether the user is unlocked. -/
inductive UnlockSource
  | phone
  | answer (a : Answer)
  | users (unlocked : List Int)

/-- Who estimates the remaining charge time. -/
inductive EstimateSource
  | nobody
  | phone
  | answer (a : Answer)

/-- What the feedback of the fingerprint sensor leaves behind: the code of the last error, the text of
an error that waits for the screen to turn on, the timer that clears a help text, and the colour of
warnings. -/
structure Feedback where
  lastError : Int := -1
  deferred : Option Text := none
  helpTimer : Option Nat := none
  warningColor : Color := .standardWarning
deriving DecidableEq, Repr

namespace Feedback

/-- The code that stands for no error. -/
def noError : Int := -1

/-- The code of an error that only says that the sensor was stopped. -/
def canceled : Int := 5

/-- How long a help text stays. -/
def helpMillis : Nat := 1300

/-- How long an error stays. -/
def errorMillis : Nat := 5000

end Feedback

/-- The lock screen with the phone around it. -/
structure Screen (τ : Type := Nat) where
  settings : Settings := .standard
  visible : Bool := false
  resting : Option Text := none
  lastLine : Option Line := none
  charging : ChargeTracker := {}
  board : MessageBoard τ := by exact {}
  feedback : Feedback := {}
  phone : Phone := {}
  display : Display := {}
  unlockSource : UnlockSource := .phone
  estimateSource : EstimateSource := .phone
  user : Int := 0
  journal : Journal := {}

/-- What an operation leaves: the screen, and why it stopped if it did. -/
structure Outcome (τ : Type := Nat) where
  screen : Screen τ
  fault : Option Fault := none

variable {τ : Type}

namespace Outcome

/-- The next part of an operation, unless it has stopped. -/
def andThen (o : Outcome τ) (next : Screen τ → Outcome τ) : Outcome τ :=
  match o.fault with
  | none => next o.screen
  | some _ => o

/-- A last change to the screen, unless the operation has stopped. -/
def alter (o : Outcome τ) (change : Screen τ → Screen τ) : Outcome τ :=
  o.andThen fun s => { screen := change s }

end Outcome

namespace Screen

/-- A screen with the given settings, hidden, with nothing to show. -/
def ofSettings (settings : Settings) : Screen where
  settings
  charging := { thresholds := settings.thresholds }
  feedback := { warningColor := settings.warningColor }

/-- An operation that did all it had to. -/
def done (s : Screen τ) : Outcome τ := { screen := s }

/-- An operation that stopped. -/
def stopped (s : Screen τ) (fault : Fault) : Outcome τ := { screen := s, fault := some fault }

/-! ## The line -/

/-- What the unlock source answers. -/
def unlockAnswer (s : Screen τ) : Answer :=
  match s.unlockSource with
  | .phone => .gives s.phone.userUnlocked.given
  | .answer a => a
  | .users unlocked => .gives (.bool (unlocked.contains s.user))

/-- What the source of estimates answers, where there is one. -/
def estimateAnswer (s : Screen τ) : Option Answer :=
  match s.estimateSource with
  | .nobody => none
  | .phone => some s.phone.chargeTimeAnswer
  | .answer a => some a

/-- Whether the user is unlocked. A source that fails counts as no. -/
def isUnlocked (s : Screen τ) : Bool :=
  match s.unlockAnswer with
  | .gives v => v.isTruthy
  | .fails _ => false

/-- Asks the unlock source. -/
def askUnlocked (s : Screen τ) : Screen τ :=
  match s.unlockAnswer with
  | .gives _ => { s with journal := s.journal.unlockAnswered }
  | .fails text => { s with journal := s.journal.unlockFailed text }

/-- Everything that the choice of the line depends on. -/
def situation (s : Screen τ) : Situation where
  visible := s.visible
  unlocked := s.isUnlocked
  message := s.board.message
  charge := s.charging.state
  resting := s.resting
  details := ⟨s.settings.showDetails, s.settings.detailsWhenCharged⟩

/-- Pushes a line to the display. -/
def push (s : Screen τ) (line : Line) : Screen τ :=
  { s with display := s.display.push line, lastLine := some line }

/-- Selects the line anew and pushes it; a hidden screen pushes nothing. -/
def refresh (s : Screen τ) : Outcome τ :=
  -- the unlock source is asked even while the screen is hidden
  let s := s.askUnlocked
  let selected := s.situation.line s.settings.phrases s.estimateAnswer s.journal
  let s := { s with journal := selected.2 }
  match selected.1 with
  | .error fault => s.stopped fault
  | .ok none => s.done
  | .ok (some line) => (s.push line).done

/-- The screen with another board, refreshed if the board has changed its message. -/
def withBoard (s : Screen τ) (board : MessageBoard τ) : Outcome τ :=
  if board.changes = s.board.changes then done { s with board } else refresh { s with board }

end Screen

end LockScreen
