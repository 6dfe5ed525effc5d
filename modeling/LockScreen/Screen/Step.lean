import LockScreen.Screen.Basic

/-!
# What happens to the screen

The operations of the screen, one by one, and `Screen.step`, which is any of them.

Feedback of the fingerprint sensor goes to the bouncer while that is showing, to the message board while
the device is in use, and waits for the screen to turn on otherwise. The bouncer restarts the sensor
when it comes up, so an error that it already has is not handed to it again.
-/

namespace LockScreen

/-- Events that the phone reports. -/
inductive Event
  | sensorHelp (code : Int) (text : Text)
  | sensorError (code : Int) (text : Text)
  | sensorRunning (on : Bool)
  | fingerAccepted (user : Int)
  | fingerRefused
  | screenOn
  | battery (reading : BatteryReading)
  | userUnlocked
  | tick
  | other (name : String)

/-- All that can happen to the screen. -/
inductive Action
  | setVisible (visible : Bool)
  | rest (text : Option Text)
  | put (m : Message)
  | takeDown
  | takeDownAfter (delay : Value)
  | apply (settings : Settings)
  | applyPayload (payload : Value)
  | event (e : Event)
  | look
  | close
  | advance (millis : Nat)
  | phone (change : PhoneChange)
  | unlockSource (source : UnlockSource)
  | estimateSource (source : EstimateSource)

namespace Screen

variable {τ : Type}

/-! ## Visibility, texts and settings -/

/-- Shows or hides the screen. -/
def setVisible (s : Screen τ) (visible : Bool) : Outcome τ :=
  let s := { s with visible, display := s.display.setVisible visible }
  if visible then s.refresh else s.done

/-- Sets the text shown when nothing else applies. -/
def rest (s : Screen τ) (text : Option Text) : Outcome τ :=
  refresh { s with resting := text }

/-- Puts up a message. -/
def put (s : Screen τ) (m : Message) : Outcome τ :=
  s.withBoard (s.board.put m)

/-- Takes the message down. -/
def takeDown (s : Screen τ) : Outcome τ :=
  s.withBoard s.board.takeDown

/-- Has the message taken down later. -/
def takeDownAfter [LE τ] [DecidableLE τ] [Timescale τ] (s : Screen τ) (delay : Value) : Outcome τ :=
  let (board, fault) := s.board.takeDownAfter delay
  { screen := { s with board }, fault }

/-- Puts settings in force. -/
def apply (s : Screen τ) (settings : Settings) : Outcome τ :=
  refresh { s with
    settings
    charging.thresholds := settings.thresholds
    feedback.warningColor := settings.warningColor }

/-- Puts the changes of a payload in force. -/
def applyPayload (s : Screen τ) (payload : Value) : Outcome τ :=
  match s.settings.merge payload with
  | .ok settings => s.apply settings
  | .error fault => s.stopped fault

/-! ## Fingerprint feedback -/

/-- The last error no longer counts. -/
def forgetError (s : Screen τ) : Screen τ :=
  { s with feedback.lastError := Feedback.noError }

/-- Lights the lock icon, or puts it out. -/
def setIcon (s : Screen τ) (on : Bool) : Screen τ :=
  { s with phone.lockIconError := on }

/-- Cancels the timer that would clear the help text. -/
def cancelHelp (s : Screen τ) : Screen τ :=
  { s with
    board.agenda := s.board.agenda.cancel? s.feedback.helpTimer
    feedback.helpTimer := none }

/-- A message in the colour of warnings. -/
def warning (s : Screen τ) (text : Text) : Message :=
  ⟨some text, s.feedback.warningColor⟩

/-- Hands a text to the bouncer. -/
def tellBouncer (s : Screen τ) (text : Text) : Screen τ :=
  { s with phone := s.phone.tellBouncer text s.feedback.warningColor }

/-- The sensor started or stopped. An error from before a start is no longer shown. -/
def sensorRunning (s : Screen τ) (on : Bool) : Screen τ :=
  if on then { s with feedback.deferred := none } else s

/-- The help text has had its time. -/
def endHelp (s : Screen τ) : Outcome τ :=
  takeDown ({ s with feedback.helpTimer := none }.setIcon false)

/-- Gives up both timers. -/
def close (s : Screen τ) : Screen τ :=
  { s with board := s.board.cancelTakeDown }.cancelHelp

section
variable [LE τ] [DecidableLE τ] [HAdd τ Nat τ]

/-- Sets the timer that clears the help text, in the place of any other. -/
def endHelpIn (s : Screen τ) (millis : Nat) : Screen τ :=
  let s := s.cancelHelp
  { s with
    board.agenda := s.board.agenda.arm millis .endHelp
    feedback.helpTimer := some s.board.agenda.nextId }

/-- Shows an error for its time. A help text that is up gives way, with its timer and its icon. -/
def announceError (s : Screen τ) (text : Text) : Outcome τ :=
  -- the timer of a help text would take the error down too early
  let s := if s.feedback.helpTimer.isSome then s.cancelHelp.setIcon false else s
  (s.put (s.warning text)).alter fun s =>
    { s with board := s.board.takeDownIn Feedback.errorMillis }

/-- The sensor asks for another attempt. -/
def sensorHelp (s : Screen τ) (text : Text) : Outcome τ :=
  if !s.phone.fingerprintAllowed.isUp then s.done
  else if s.phone.bouncerShowing.isUp then (s.tellBouncer text).forgetError.done
  else if s.phone.interactive.isUp then
    ((s.setIcon true).put (s.warning text)).alter fun s =>
      (s.endHelpIn Feedback.helpMillis).forgetError
  -- nobody is told, but it was another attempt since the last error
  else s.forgetError.done

/-- The sensor reports an error. -/
def sensorError (s : Screen τ) (code : Int) (text : Text) : Outcome τ :=
  if !s.phone.fingerprintAllowed.isUp || code = Feedback.canceled then s.done
  else
    let reported : Outcome τ :=
      if s.phone.bouncerShowing.isUp then
        if code = s.feedback.lastError then s.done else (s.tellBouncer text).done
      else if s.phone.interactive.isUp then s.announceError text
      else done { s with feedback.deferred := some text }
    -- the code counts even where the bouncer already had it or nobody was told
    reported.alter fun s => { s with feedback.lastError := code }

/-- The screen turned on: an error that waited for it is shown. -/
def screenOn (s : Screen τ) : Outcome τ :=
  match s.feedback.deferred with
  | none => s.done
  | some text => (s.announceError text).alter fun s => { s with feedback.deferred := none }

end

/-! ## Events -/

/-- The battery reports. A reading that cannot be taken changes nothing. -/
def battery (s : Screen τ) (reading : BatteryReading) : Outcome τ :=
  match s.charging.update reading with
  | .ok charging => refresh { s with charging }
  | .error fault => s.stopped fault

/-- Something may have changed that only a visible screen needs to know. -/
def refreshIfVisible (s : Screen τ) : Outcome τ :=
  if s.visible then s.refresh else s.done

/-- Takes an event to the operation that handles it. -/
def receive [LE τ] [DecidableLE τ] [HAdd τ Nat τ] (s : Screen τ) : Event → Outcome τ
  | .sensorHelp _ text => s.sensorHelp text
  | .sensorError code text => s.sensorError code text
  | .sensorRunning on => (s.sensorRunning on).done
  | .fingerAccepted _ => s.forgetError.done
  | .fingerRefused => s.forgetError.done
  | .screenOn => s.screenOn
  | .battery reading => s.battery reading
  | .userUnlocked => s.refreshIfVisible
  | .tick => s.refreshIfVisible
  | .other name => s.stopped (.unsupportedEvent name)

/-! ## Time -/

/-- The work of a timer that has been taken out of the agenda. -/
def perform (s : Screen τ) : Task → Outcome τ
  | .takeDown => s.withBoard s.board.expire
  | .endHelp => s.endHelp

/-- One timer fires, unless it was cancelled meanwhile. -/
def fire (s : Screen τ) (t : Timer Task τ) : Outcome τ :=
  if s.board.agenda.holds t.id then
    perform { s with board.agenda := s.board.agenda.fire t } t.task
  else s.done

/-- Fires timers one after the other, up to the first that fails. -/
def fireAll (s : Screen τ) : List (Timer Task τ) → Outcome τ
  | [] => s.done
  | t :: rest => (s.fire t).andThen fun s => s.fireAll rest

/-- Lets the clock run for some milliseconds; a timer that fails stops it at its time. -/
def advance (s : Screen) (millis : Nat) : Outcome :=
  let time := s.board.agenda.now + millis
  (s.fireAll (s.board.agenda.dueBy time)).alter fun s =>
    { s with board.agenda := s.board.agenda.setNow time }

/-! ## Steps -/

/-- Another source of estimates. A screen that has none does not get one. -/
def setEstimateSource (s : Screen τ) (source : EstimateSource) : Screen τ :=
  match s.estimateSource with
  | .nobody => s
  | _ => { s with estimateSource := source }

/-- One action on a screen, whatever the scale of its clock. The running of the clock is none: it is not the screen
that does it. -/
def act [LE τ] [DecidableLE τ] [HAdd τ Nat τ] [Timescale τ] (s : Screen τ) : Action → Outcome τ
  | .setVisible visible => s.setVisible visible
  | .rest text => s.rest text
  | .put m => s.put m
  | .takeDown => s.takeDown
  | .takeDownAfter delay => s.takeDownAfter delay
  | .apply settings => s.apply settings
  | .applyPayload payload => s.applyPayload payload
  | .event e => s.receive e
  | .look => s.askUnlocked.done
  | .close => s.close.done
  | .advance _ => s.done
  | .phone change => done { s with phone := s.phone.change change }
  | .unlockSource source => done { s with unlockSource := source }
  | .estimateSource source => (s.setEstimateSource source).done

/-- One step of a run. -/
def step (s : Screen) : Action → Outcome
  | .advance millis => s.advance millis
  | a => s.act a

/-- The screen after a run; a step that stops does not stop the run. -/
def run (s : Screen) (actions : List Action) : Screen :=
  actions.foldl (fun s a => (s.step a).screen) s

end Screen

end LockScreen
