import LockScreen.Json.Answer
import LockScreen.Screen.Report
import LockScreen.Service.Request
import LockScreen.Settings.Store
import LockScreen.Timing.Metronome

/-!
# The service

The screen with its stored settings and its metronome, answering calls. The settings in the store, on the
screen, in its tracker and its feedback, and the interval of the metronome are kept in step by the calls
that change settings: a change is stored first and put in force afterwards, and a change that the store
refuses reaches nothing else.

The file of the store takes every text here; `SettingsStore.perform` also answers for one that does not.
-/

namespace LockScreen

/-- The version of the service. -/
def version : String := "0.1.0"

/-- The answer to a request. A fault that no rule foresees is passed on as it is. -/
inductive Response
  | ok (body : Value)
  | rejected (detail : Text)
  | refused (reason : Refusal)
  | failed (fault : Fault)

namespace Refusal

/-- An answer that says what is wrong. -/
def detail (v : Value) : Value :=
  .object [("detail", v)]

/-- The status of an answer that turns a request away. -/
def status : Refusal → Nat
  | moved => 307
  | noSuchPath => 404
  | noSuchMethod => 405
  | unreadableBody => 400
  | badBody _ => 422

/-- What an answer says that turns a request away: a wording, the faults of the body, or nothing where
the caller is sent on. -/
def body : Refusal → Value
  | moved => .null
  | noSuchPath => detail (.text "Not Found")
  | noSuchMethod => detail (.text "Method Not Allowed")
  | unreadableBody => detail (.text "There was an error parsing the body")
  | badBody errors => detail (.list (errors.map BodyError.toValue))

end Refusal

/-- The answer as it goes out. One that cannot be written and encoded fails, and so does a report in which
some text cannot be encoded. -/
def Response.sent : Response → Response
  | ok body =>
    match Json.strayHalves? body with
    | none => ok body
    | some halves => failed (.answerUnwritable (.unencodable halves))
  | rejected detail =>
    match Json.unwritable? (Refusal.detail (.text detail)) with
    | none => rejected detail
    | some fault => failed fault
  | refused reason =>
    match Json.unwritable? reason.body with
    | none => refused reason
    | some fault => failed fault
  | failed fault => failed fault

/-- The stored settings, the screen and the metronome. -/
structure Service where
  store : SettingsStore
  screen : Screen
  metronome : Metronome

namespace Service

/-- A service on a settings file, for a phone in a given state. -/
def ofFile (file : Option FileContent) (phone : Phone) : Except Fault Service := do
  let store ← SettingsStore.ofFile file
  let metronome ← Metronome.ofInterval (.float store.settings.tickInterval)
  return { store, screen := { Screen.ofSettings store.settings with phone }, metronome }

/-- The milliseconds on the clock. -/
def now (s : Service) : Nat :=
  s.screen.board.agenda.now

/-! ## Calls -/

/-- The service after an operation of the screen, and a report of the screen if it did all it had to. -/
def afterScreen (s : Service) (o : Outcome) : Service × Response :=
  ({ s with screen := o.screen },
    match o.fault with
    | none => .ok o.screen.toValue
    | some fault => .failed fault)

/-- The answer to a change that the store refused: a bad value is the caller's. -/
def storeRefused (s : Service) (fault : Fault) : Service × Response :=
  (s, if fault.kind = .value then .rejected fault.message else .failed fault)

/-- Puts the stored settings in force, and then answers. -/
def applyStored (s : Service) (answer : Value) : Service × Response :=
  let o := s.screen.apply s.store.settings
  ({ s with screen := o.screen },
    match o.fault with
    | none => .ok answer
    | some fault => .failed fault)

/-- A message in a colour, white unless it is given, and taken down later if that is asked for. -/
def put (s : Service) (text : Text) (color : Option Text) (takeDownAfter : Option Int) :
    Service × Response :=
  match (color.map Color.ofHex?).getD (.ok .white) with
  | .error fault => (s, .rejected fault.message)
  | .ok color =>
    s.afterScreen ((s.screen.put ⟨some text, color⟩).andThen fun screen =>
      match takeDownAfter with
      | none => screen.done
      | some millis => screen.takeDownAfter (.int millis))

/-- The device after the changes that a call asks for. -/
def updatedPhone (p : Phone) (u : PhoneUpdate) : Phone :=
  { p with
    userUnlocked := (u.userUnlocked.map .ofBool).getD p.userUnlocked
    interactive := (u.interactive.map .ofBool).getD p.interactive
    fingerprintAllowed := (u.fingerprintAllowed.map .ofBool).getD p.fingerprintAllowed
    bouncerShowing := (u.bouncerShowing.map .ofBool).getD p.bouncerShowing
    chargeTime := if u.clearChargeTime then .null else (u.chargeTime.map .int).getD p.chargeTime }

/-- Changes the stored settings as a whole. The metronome follows once the screen has. -/
def updateSettings (s : Service) (payload : Value) : Service × Response :=
  match s.store.update payload with
  | .error fault => s.storeRefused fault
  | .ok store =>
    let o := s.screen.apply store.settings
    match o.fault with
    | some fault => ({ s with store, screen := o.screen }, .failed fault)
    | none =>
      ({ store
         screen := o.screen
         metronome := { s.metronome with interval := store.settings.tickInterval } },
        .ok store.settings.toValue)

/-- Answers a call. -/
def answer (s : Service) : Call → Service × Response
  | .showScreen => (s, .ok s.screen.toValue)
  | .setVisible on => s.afterScreen (s.screen.setVisible on)
  | .rest text => s.afterScreen (s.screen.rest text)
  | .put text color takeDownAfter => s.put text color takeDownAfter
  | .takeDownAfter millis => s.afterScreen (s.screen.takeDownAfter (.int millis))
  | .takeDown => s.afterScreen s.screen.takeDown
  | .battery report =>
    match report.reading with
    | .ok reading => s.afterScreen (s.screen.receive (.battery reading))
    | .error fault => (s, .failed fault)
  | .event e => s.afterScreen (s.screen.receive e)
  | .unlockUser =>
    s.afterScreen (Screen.receive { s.screen with phone.userUnlocked := true } .userUnlocked)
  | .showPhone => (s, .ok s.screen.phone.toValue)
  | .updatePhone update =>
    let phone := updatedPhone s.screen.phone update
    ({ s with screen.phone := phone }, .ok phone.toValue)
  | .showThresholds => (s, .ok s.store.settings.thresholds.toValue)
  | .setThresholds slow fast =>
    match s.store.setThresholds
        (.object [("slow_threshold", .int slow), ("fast_threshold", .int fast)]) with
    | .error fault => s.storeRefused fault
    | .ok store => applyStored { s with store } store.settings.thresholds.toValue
  | .showDetails => (s, .ok (.object [("enabled", .bool s.store.settings.showDetails)]))
  | .setDetails on =>
    match s.store.setShowDetails (.bool on) with
    | .error fault => (s, .failed fault)
    | .ok store => applyStored { s with store }
        (.object [("enabled", .bool store.settings.showDetails)])
  | .showWarningColor => (s, .ok (.object [s.store.settings.warningColor.field]))
  | .setWarningColor text =>
    match s.store.setWarningColor (.text text) with
    | .error fault => s.storeRefused fault
    | .ok store => applyStored { s with store } (.object [store.settings.warningColor.field])
  | .showSettings => (s, .ok s.store.settings.toValue)
  | .updateSettings payload => s.updateSettings payload

/-! ## Time -/

/-- What is due: a timer of the screen, or a tick. -/
inductive Due
  | timer (t : Timer Task)
  | tick (moment : Nat)

/-- When its turn comes. A tick waits for the timers that the clock cannot tell from it. -/
def Due.turn : Due → Nat
  | timer t => Clock.atMilli t.due
  | tick moment => Clock.reach moment

/-- The service after work that nobody waits for: a fault becomes a warning. -/
def afterWork (s : Service) (o : Outcome) (w : Warning) : Service :=
  match o.fault with
  | none => { s with screen := o.screen }
  | some _ => { s with screen := { o.screen with journal := o.screen.journal.warn w } }

/-- Does what is due. -/
def perform (s : Service) : Due → Service
  | .timer t => s.afterWork (s.screen.fire t) .timerFailed
  | .tick _ => s.afterWork (s.screen.receive .tick) .tickFailed

/-- All that is due when the clock shows a number of milliseconds, in order. -/
def dueBy (s : Service) (time : Nat) : List Due :=
  -- the sort is stable, so timers of one time stay in the order of their creation
  ((s.screen.board.agenda.dueBy time).map Due.timer
    ++ (s.metronome.runUntil (Clock.atMilli time)).1.map Due.tick).mergeSort
      fun a b => decide (a.turn ≤ b.turn)

/-- Lets the clock run for some milliseconds. -/
def advance (s : Service) (millis : Nat) : Service :=
  let time := s.now + millis
  let metronome := (s.metronome.runUntil (Clock.atMilli time)).2
  let ran := (s.dueBy time).foldl perform { s with metronome }
  { ran with screen.board.agenda := ran.screen.board.agenda.setNow time }

/-! ## Requests -/

/-- Answers what a request was read as, and then does what is due without delay. A call that is turned away
leaves nothing to do. -/
def respond (s : Service) : Received → Service × Response
  | .error reason => (s, (Response.refused reason).sent)
  | .ok call =>
    match s.answer call with
    -- a rejected call changed nothing, so nothing new is due
    | (s, .rejected detail) => (s, (Response.rejected detail).sent)
    | (s, response) => (s.advance 0, response.sent)

/-- Answers a request. -/
def handle (s : Service) (r : Request) (read : Reading := Request.call) : Service × Response :=
  s.respond (read r)

/-- Starts the metronome. It has its turn before any call is answered. -/
def start (s : Service) : Service :=
  { s with metronome := s.metronome.start.turn (Clock.atMilli s.now) }

/-- Stops the metronome and gives up the timers. -/
def stop (s : Service) : Service :=
  { s with metronome := s.metronome.stop, screen := s.screen.close }

end Service

end LockScreen
