import LockScreen.Settings.Basic

/-!
# Merging settings

A payload changes the settings that it mentions and keeps the others. Each field has a reader of its
own that takes the value in force, which an absent or null field keeps; the fields are read in a fixed
order and the first that is refused decides the fault.
-/

namespace LockScreen

/-! ## Thresholds -/

/-- A rate for thresholds that are built directly: anything that stands for an integer. -/
def Thresholds.rateOfValue (v : Value) : Except Fault Int :=
  match v.toInteger with
  | .ok i => .ok i
  | .error fault => .error (if fault.isRejection then .thresholdsNotIntegers else fault)

/-- Thresholds built directly from two values. -/
def Thresholds.ofValues (slow fast : Value) : Except Fault Thresholds := do
  ofRates (← rateOfValue slow) (← rateOfValue fast)

namespace Settings

/-- A rate in a payload: a number or a numeral, without its fraction. -/
def rateOfValue (v : Value) : Except Fault Int := do
  (← v.toBinary64).truncate

/-- Thresholds from two rates of a payload. -/
def thresholdsOfRates (slow fast : Value) : Except Fault Thresholds :=
  match slow, fast with
  | .bool _, _ | _, .bool _ => .error .thresholdsNotNumeric
  | _, _ =>
    match do Thresholds.ofRates (← rateOfValue slow) (← rateOfValue fast) with
    | .ok t => .ok t
    | .error fault => .error (if fault.isRejection then .badThresholds fault else fault)

/-- A rate of an object under its long or its short name. -/
def namedRate (fields : List (Text × Value)) (long short : Text) (inForce : Int) : Value :=
  ((Value.lookup long fields).or (Value.lookup short fields)).getD (.int inForce)

/-- Thresholds from the fields of an object; a rate that is not mentioned stays in force. -/
def thresholdsOfFields (fields : List (Text × Value)) (inForce : Thresholds) :
    Except Fault Thresholds :=
  thresholdsOfRates (namedRate fields "slow_threshold" "slow" inForce.slow)
    (namedRate fields "fast_threshold" "fast" inForce.fast)

/-- Thresholds from a pair, an object, an object that holds one, or thresholds already built. -/
def readThresholds (v : Value) (inForce : Thresholds) : Except Fault Thresholds :=
  match v with
  | .null => .ok inForce
  -- thresholds that are built already have been checked, and pass again
  | .thresholds t => Thresholds.ofRates t.slow t.fast
  | .object fields =>
    match Value.lookup "thresholds" fields with
    | none => thresholdsOfFields fields inForce
    | some (.object inner) => thresholdsOfFields inner inForce
    | some _ => .error .thresholdsIncomplete
  | .list [slow, fast] => thresholdsOfRates slow fast
  | .list _ => .error .thresholdsNotPair
  | _ => .error .thresholdsUnsupported

/-! ## The other fields -/

/-- The words for yes and no, without regard to case. -/
def flagOfWord (word : String) (inForce : Bool) : Except Fault Bool :=
  if word = "" then .ok inForce
  else if word ∈ ["true", "1", "yes", "on", "enabled"] then .ok true
  else if word ∈ ["false", "0", "no", "off", "disabled"] then .ok false
  else .error .flagNotBoolean

/-- A flag: yes or no, a number that is not zero or is, or a word. -/
def readFlag (v : Value) (inForce : Bool) : Except Fault Bool :=
  match v with
  | .null => .ok inForce
  | .bool b => .ok b
  | .int i => do
    -- an integer is tested as a binary64 number, so it must be within their range
    let _ ← Binary64.ofInt? i
    return i ≠ 0
  | .float x => if x.isNaN then .error .flagNotBoolean else .ok (!x.isZero)
  | .text t =>
    match t.string? with
    | some s => flagOfWord (String.ofList ((Text.trim s.toList).map Char.toLower)) inForce
    | none => .error .flagNotBoolean
  | _ => .error .flagNotBoolean

/-- The colour of warnings. -/
def readColor (v : Value) (inForce : Color) : Except Fault Color :=
  match v with
  | .null => .ok inForce
  | v => Color.ofValue v

/-- The interval of the clock tick in seconds. -/
def readTickInterval (v : Value) (inForce : Binary64) : Except Fault Binary64 :=
  match v with
  | .null => .ok inForce
  | .bool _ => .error .tickNotNumeric
  | v =>
    match v.toBinary64 with
    | .ok x => if x.isBetween 1 3600 then .ok x else .error .tickOutOfRange
    | .error fault => .error (if fault.isRejection then .tickNotNumeric else fault)

end Settings

/-! ## Phrases -/

namespace Phrases

/-- Sets one phrase, where the fields mention it. -/
def setText (fields : List (Text × Value)) (p : Phrases) (k : Phrase) : Except Fault Phrases :=
  match Value.lookup k.name fields with
  | none => .ok p
  | some v =>
    match v.text? with
    | some t =>
      if k.isTemplate && !Text.hasTimePlace t.letters then .error (.phraseWithoutTime k.name)
      else .ok (p.set t k)
    | none => .error (.phraseNotText k.name)

/-- Some phrase has the name. -/
def isName (name : Text) : Bool :=
  Phrase.all.any fun k => k.name = name

/-- The names among the fields that no phrase has, in the order of their code points. -/
def unknownNames (fields : List (Text × Value)) : List Text :=
  ((fields.map (·.1)).filter fun name => !isName name).mergeSort
    fun a b => (compare a.points b.points).isLE

/-- The catalogue with the texts of the fields, which may mention no other names. -/
def withTexts (p : Phrases) (fields : List (Text × Value)) : Except Fault Phrases :=
  if unknownNames fields = [] then Phrase.all.foldlM (setText fields) p
  else .error (.unknownPhrases (unknownNames fields))

/-- A catalogue built from fields over the standard texts. -/
def ofFields (fields : List (Text × Value)) : Except Fault Phrases := do
  Value.checkNames .phrases isName fields
  Phrase.all.foldlM (setText fields) standard

end Phrases

namespace Settings

/-- The phrases: texts for some of them, or a whole catalogue. -/
def readPhrases (v : Value) (inForce : Phrases) : Except Fault Phrases :=
  match v with
  | .null => .ok inForce
  | .phrases p _ => .ok p
  | .object fields => inForce.withTexts fields
  | _ => .error .phrasesNotObject

/-! ## Payloads -/

/-- A field of a payload; absent counts as null. -/
def field (name : Text) (fields : List (Text × Value)) : Value :=
  (Value.lookup name fields).getD .null

/-- The fields of the charging part of a payload. -/
def chargingFields : Value → Except Fault (List (Text × Value))
  | .null => .ok []
  | .object fields => .ok fields
  | _ => .error .chargingNotObject

/-- The settings with the changes of a payload. -/
def merge (s : Settings) (payload : Value) : Except Fault Settings :=
  match payload with
  | .object fields => do
    let charging ← chargingFields (field "charging" fields)
    return {
      thresholds := ← readThresholds (field "thresholds" charging) s.thresholds
      showDetails := ← readFlag (field "show_details" charging) s.showDetails
      detailsWhenCharged := ← readFlag (field "details_when_charged" charging) s.detailsWhenCharged
      warningColor := ← readColor (field "warning_color" fields) s.warningColor
      phrases := ← readPhrases (field "strings" fields) s.phrases
      tickInterval := ← readTickInterval (field "tick_interval" fields) s.tickInterval }
  | _ => .error .settingsNotObject

end Settings

end LockScreen
