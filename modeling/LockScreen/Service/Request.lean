import LockScreen.Json.Encoding
import LockScreen.Screen.Step
import LockScreen.Service.Body

/-!
# Requests

The calls that the service answers, the methods and paths they are made under, and the reading of a
call from the body of a request.

How a request is read is not the service's own doing, and the service does not depend on it: it answers what a request
was read as (`Received`), whatever the `Reading`. `Request.call` is the one it runs with.
-/

namespace LockScreen

/-- What a call can change about the device. -/
structure PhoneUpdate where
  userUnlocked : Option Bool
  interactive : Option Bool
  fingerprintAllowed : Option Bool
  bouncerShowing : Option Bool
  chargeTime : Option Int
  clearChargeTime : Bool
deriving DecidableEq, Repr

/-- The calls that the service answers. -/
inductive Call
  | showScreen
  | setVisible (on : Bool)
  | rest (text : Option Text)
  | put (text : Text) (color : Option Text) (takeDownAfter : Option Int)
  | takeDownAfter (millis : Int)
  | takeDown
  | battery (report : BatteryReport)
  | event (e : Event)
  | unlockUser
  | showPhone
  | updatePhone (update : PhoneUpdate)
  | showThresholds
  | setThresholds (slow fast : Int)
  | showDetails
  | setDetails (on : Bool)
  | showWarningColor
  | setWarningColor (text : Text)
  | showSettings
  | updateSettings (payload : Value)

/-- The places under which calls are made. -/
inductive Route
  | screen
  | visibility
  | resting
  | message
  | messageHide
  | messageDelete
  | battery
  | fingerprintHelp
  | fingerprintError
  | fingerprintAuthenticated
  | fingerprintFailed
  | fingerprintRunning
  | screenOn
  | userUnlocked
  | phone
  | phoneUpdate
  | thresholds
  | thresholdsUpdate
  | details
  | detailsUpdate
  | warningColor
  | warningColorUpdate
  | settings
  | settingsUpdate
deriving DecidableEq, Repr

namespace Route

/-- Methods, paths and routes. -/
def table : List (String × String × Route) :=
  [("GET", "/api/indication", screen),
   ("POST", "/api/visibility", visibility),
   ("POST", "/api/resting", resting),
   ("POST", "/api/transient", message),
   ("POST", "/api/transient/hide", messageHide),
   ("DELETE", "/api/transient", messageDelete),
   ("POST", "/api/battery", battery),
   ("POST", "/api/fingerprint/help", fingerprintHelp),
   ("POST", "/api/fingerprint/error", fingerprintError),
   ("POST", "/api/fingerprint/authenticated", fingerprintAuthenticated),
   ("POST", "/api/fingerprint/failed", fingerprintFailed),
   ("POST", "/api/fingerprint/running", fingerprintRunning),
   ("POST", "/api/screen/on", screenOn),
   ("POST", "/api/user/unlocked", userUnlocked),
   ("GET", "/api/device", phone),
   ("POST", "/api/device", phoneUpdate),
   ("GET", "/api/settings/thresholds", thresholds),
   ("POST", "/api/settings/thresholds", thresholdsUpdate),
   ("GET", "/api/settings/charging-details", details),
   ("POST", "/api/settings/charging-details", detailsUpdate),
   ("GET", "/api/settings/warning-color", warningColor),
   ("POST", "/api/settings/warning-color", warningColorUpdate),
   ("GET", "/api/settings", settings),
   ("POST", "/api/settings", settingsUpdate)]

/-- The path without a line feed at its end. -/
def withoutLineFeed (path : String) : String :=
  let cs := path.toList
  if cs.getLast? = some '\n' then String.ofList cs.dropLast else path

/-- The path without the slashes at its end. -/
def withoutSlashes (path : String) : String :=
  String.ofList (path.toList.reverse.dropWhile (· = '/')).reverse

/-- The route of a method and a path, which may end in a line feed and is otherwise taken to the letter. -/
def find? (method path : String) : Option Route :=
  (table.find? fun entry => entry.1 = method && entry.2.1 = withoutLineFeed path).map (·.2.2)

/-- Paths under which the service describes itself. No call is made there. -/
def descriptions : List String :=
  ["/openapi.json", "/docs", "/docs/oauth2-redirect", "/redoc"]

/-- A path that some method leads somewhere from. -/
def isPath (path : String) : Bool :=
  table.any (·.2.1 = withoutLineFeed path) || descriptions.contains (withoutLineFeed path)

end Route

namespace Call

open Body

/-- The fields of a battery report. -/
def readBattery (path : List String) (fields : List (Text × Value)) : Checked Call :=
  let build (health : Health) (plug : Plug) (level current voltage : Int) (power : Option Int) :=
    battery ⟨health, plug, .int level, .int current, .int voltage, power.map .int⟩
  Checked.and (Checked.and (Checked.and (Checked.and (Checked.and
    ((withDefault path fields "status" .unknown (readName Health.all Health.name)).map build)
    (withDefault path fields "plugged" .none (readName Plug.all Plug.name)))
    (withDefault path fields "level" 0 (readBetween 0 100)))
    (withDefault path fields "max_charging_current" 0 readInteger))
    (withDefault path fields "max_charging_voltage" 0 readInteger))
    (optional path fields "max_charging_wattage" readInteger)

/-- The fields of a change to the device. -/
def readPhoneUpdate (path : List String) (fields : List (Text × Value)) : Checked Call :=
  Checked.and (Checked.and (Checked.and (Checked.and (Checked.and
    ((optional path fields "user_unlocked" readFlag).map fun a b c d e f =>
      updatePhone ⟨a, b, c, d, e, f⟩)
    (optional path fields "interactive" readFlag))
    (optional path fields "fingerprint_allowed" readFlag))
    (optional path fields "bouncer_showing" readFlag))
    (optional path fields "charge_time_remaining_ms" readInteger))
    (withDefault path fields "clear_charge_time" false readFlag)

/-- A field of a payload, which is left out where it has no value. -/
def payloadField {α : Type} (name : Text) (toValue : α → Value) (x : Option α) :
    List (Text × Value) :=
  (x.map fun x => (name, toValue x)).toList

/-- The charging part of a change of settings. -/
def readChargingPayload (path : List String) (fields : List (Text × Value)) : Checked Value :=
  let build (thresholds : Option (List (Text × Int))) (showDetails whenCharged : Option Bool) :=
    Value.object
      (payloadField "thresholds" (fun rates =>
          .object (rates.map fun rate => (rate.1, .int rate.2))) thresholds
        ++ payloadField "show_details" .bool showDetails
        ++ payloadField "details_when_charged" .bool whenCharged)
  Checked.and (Checked.and
    ((optional path fields "thresholds" (readMap readInteger)).map build)
    (optional path fields "show_details" readFlag))
    (optional path fields "details_when_charged" readFlag)

/-- The fields of a change of settings, as the payload that is merged. -/
def readSettingsPayload (path : List String) (fields : List (Text × Value)) : Checked Call :=
  let build (charging : Option Value) (warningColor : Option Text)
      (strings : Option (List (Text × Text))) (tickInterval : Option Binary64) :=
    updateSettings (.object
      (payloadField "charging" id charging
        ++ payloadField "warning_color" .text warningColor
        ++ payloadField "strings" (fun texts =>
            .object (texts.map fun text => (text.1, .text text.2))) strings
        ++ payloadField "tick_interval" .float tickInterval))
  Checked.and (Checked.and (Checked.and
    ((optional path fields "charging" (readModel readChargingPayload)).map build)
    (optional path fields "warning_color" readText))
    (optional path fields "strings" (readMap readText)))
    (optional path fields "tick_interval" readReal)

/-- The code and the text of a fingerprint message. -/
def readFeedback (path : List String) (fields : List (Text × Value))
    (build : Int → Text → Event) : Checked Call :=
  Checked.and ((required path fields "code" readInteger).map fun code text =>
    event (build code text)) (required path fields "text" readText)

/-- The call of a route, read from the fields of a body; none for a route that takes no body. -/
def ofFields? (path : List String) :
    Route → Option (List (Text × Value) → Checked Call)
  | .visibility => some fun fields => (required path fields "visible" readFlag).map setVisible
  | .resting => some fun fields => (optional path fields "text" readText).map rest
  | .message => some fun fields =>
    Checked.and (Checked.and ((required path fields "text" readText).map put)
      (optional path fields "color" readText))
      (optional path fields "hide_after_ms" (readAtLeast 0))
  | .messageHide => some fun fields =>
    (required path fields "delay_ms" (readAtLeast 0)).map takeDownAfter
  | .battery => some (readBattery path)
  | .fingerprintHelp => some fun fields => readFeedback path fields .sensorHelp
  | .fingerprintError => some fun fields => readFeedback path fields .sensorError
  | .fingerprintAuthenticated => some fun fields =>
    (withDefault path fields "user_id" 0 readInteger).map fun user => event (.fingerAccepted user)
  | .fingerprintRunning => some fun fields =>
    (required path fields "running" readFlag).map fun on => event (.sensorRunning on)
  | .phoneUpdate => some (readPhoneUpdate path)
  | .thresholdsUpdate => some fun fields =>
    Checked.and ((required path fields "slow_threshold" readInteger).map setThresholds)
      (required path fields "fast_threshold" readInteger)
  | .detailsUpdate => some fun fields => (required path fields "enabled" readFlag).map setDetails
  | .warningColorUpdate => some fun fields =>
    (required path fields "color" readText).map setWarningColor
  | .settingsUpdate => some (readSettingsPayload path)
  | _ => none

/-- The call of a route that takes no body. -/
def ofRoute : Route → Call
  | .messageDelete => takeDown
  | .fingerprintFailed => event .fingerRefused
  | .screenOn => event .screenOn
  | .userUnlocked => unlockUser
  | .phone => showPhone
  | .thresholds => showThresholds
  | .details => showDetails
  | .warningColor => showWarningColor
  | .settings => showSettings
  | _ => showScreen

end Call

/-- A request. -/
structure Request where
  method : String
  path : String
  body : Body := .absent

/-- Why a request is turned away before any call is made. -/
inductive Refusal
  | moved
  | noSuchPath
  | noSuchMethod
  | unreadableBody
  | badBody (errors : List BodyError)

/-- The value of a body, which must be there. -/
def Body.value : Body → Except Refusal Value
  | .absent | .text "" => .error (.badBody [⟨["body"], .missing, .null⟩])
  | .json v => .ok v
  | .text s =>
    match Json.decode? s with
    | none => .error .unreadableBody
    | some document =>
      match Json.read document with
      | .ok v => .ok v
      | .error .fileNotJson => .error (.badBody [⟨["body"], .jsonInvalid, .object []⟩])
      | .error _ => .error .unreadableBody

/-- Why no call is made under a method and a path. The caller is sent on from a path that only has slashes
too many. -/
def Refusal.ofPath (path : String) : Refusal :=
  if Route.isPath path then .noSuchMethod
  else if Route.isPath (Route.withoutSlashes path) then .moved
  else .noSuchPath

/-- What a request is read as: a call, or why it is turned away. -/
abbrev Received := Except Refusal Call

/-- A way to read requests. -/
abbrev Reading := Request → Received

/-- The call that a request makes. -/
def Request.call : Reading := fun r =>
  match Route.find? r.method r.path with
  | none => .error (.ofPath r.path)
  | some route =>
    match Call.ofFields? ["body"] route with
    | none => .ok (Call.ofRoute route)
    | some ofFields => do
      match Body.readModel (fun _ fields => ofFields fields) ["body"] (← r.body.value) with
      | .ok call => return call
      | .error errors => throw (.badBody errors)

end LockScreen
