import LockScreen.Text.Basic

/-!
# Faults

Every way in which an operation of the service can be refused, as a cause, and the wording of each
cause in one function, `Fault.message`.

The kind of a cause matters: a place that rejects bad input (`Fault.isRejection`) rewords the causes
of the kinds `value` and `type` and lets those of the other kinds through unchanged.
-/

namespace LockScreen

/-- The family that a fault belongs to. -/
inductive Fault.Kind
  | value
  | type
  | overflow
  | runtime
  | depth
  | encoding
  | answer
  | system
deriving DecidableEq, Repr

/-- What is built from named fields. -/
inductive Fault.Record
  | phrases
  | settings
  | phone
deriving DecidableEq, Repr

/-- The name under which a record is reported. -/
def Fault.Record.name : Fault.Record → String
  | phrases => "IndicationStrings"
  | settings => "IndicationSettings"
  | phone => "DeviceState"

/-- The causes for which an operation is refused. -/
inductive Fault
  /- Numbers. -/
  | nanToInteger
  | infinityToInteger
  | integerTooLarge
  | quotientTooLarge
  | textNotNumber (quoted : String)
  | textNotInteger (quoted : String)
  | notNumber (shape : String)
  | notInteger (shape : String)
  | notComparable (relation shape : String)
  | notDivisible (shape : String)
  | integerTooLong (digits : Nat)
  /- Records. -/
  | unexpectedField (record : Fault.Record) (name : Text)
  | reservedField (record : Fault.Record) (name : Text)
  /- Colours. -/
  | colorText
  | colorShape
  | colorPartNotNumber
  | colorPartOutOfRange
  | colorTooShort (parts : Nat)
  | colorTooLong
  | colorPartNotWhole (shape : String)
  | colorPartNotWritable (shape : String)
  /- Charging thresholds. -/
  | thresholdsNotIntegers
  | thresholdsNotPositive
  | thresholdsReversed
  | thresholdsIncomplete
  | thresholdsNotPair
  | thresholdsUnsupported
  | thresholdsNotNumeric
  | badThresholds (cause : Fault)
  /- Phrases. -/
  | phraseNotText (name : String)
  | phraseWithoutTime (name : String)
  | unknownPhrases (names : List Text)
  | phrasesNotObject
  /- Settings. -/
  | flagNotBoolean
  | tickNotPositive
  | tickNotNumeric
  | tickOutOfRange
  | settingsNotObject
  | chargingNotObject
  /- The settings file. -/
  | fileNotJson
  | fileNotText
  | listTooDeep
  | objectTooDeep
  | fileNotObject
  | fileUnreadable (cause : Fault)
  | integerUnwritable
  | diskRefused (reason : Text)
  /- Battery readings and events. -/
  | unknownHealth (quoted : String)
  | unknownPlug (quoted : String)
  | unknownSpeed (quoted : String)
  | unsupportedEvent (name : String)
  /- Answers. -/
  | numberNotFinite
  | unencodable (halves : Text.StrayHalves)
  | answerUnwritable (cause : Fault)
  /- Time. -/
  | hideDelayNegative
  | timerDelayNegative
  | intervalNotPositive
deriving DecidableEq, Repr

namespace Fault

/-- The family of each cause. -/
def kind : Fault → Kind
  | infinityToInteger | integerTooLarge | quotientTooLarge => .overflow
  | notNumber _ | notInteger _ | notComparable _ _ | notDivisible _ => .type
  | colorPartNotWritable _ => .type
  | unexpectedField _ _ | reservedField _ _ | unsupportedEvent _ => .type
  | fileUnreadable _ => .runtime
  | listTooDeep | objectTooDeep => .depth
  | unencodable _ => .encoding
  | answerUnwritable _ => .answer
  | diskRefused _ => .system
  | _ => .value

/-- A rejection says that the value given was wrong; an overflow does not. -/
def isRejection (f : Fault) : Bool :=
  f.kind = .value || f.kind = .type

/-- A text that is no integer is shown up to this length, quotes included. -/
def quotedLimit : Nat := 200

/-- The wording of a cause. -/
def message : Fault → Text
  | nanToInteger => "cannot convert float NaN to integer"
  | infinityToInteger => "cannot convert float infinity to integer"
  | integerTooLarge => "int too large to convert to float"
  | quotientTooLarge => "integer division result too large for a float"
  | textNotNumber quoted => "could not convert string to float: " ++ quoted
  | textNotInteger quoted =>
    "invalid literal for int() with base 10: " ++ String.ofList (quoted.toList.take quotedLimit)
  | notNumber shape => "float() argument must be a string or a real number, not '" ++ shape ++ "'"
  | notInteger shape =>
    "int() argument must be a string, a bytes-like object or a real number, not '" ++ shape ++ "'"
  | notComparable relation shape =>
    "'" ++ relation ++ "' not supported between instances of '" ++ shape ++ "' and 'int'"
  | notDivisible shape => "unsupported operand type(s) for /: '" ++ shape ++ "' and 'int'"
  | integerTooLong digits =>
    "Exceeds the limit (4300 digits) for integer string conversion: value has "
      ++ digits.repr ++ " digits; use sys.set_int_max_str_digits() to increase the limit"
  | unexpectedField record name =>
    record.name ++ ".__init__() got an unexpected keyword argument '" ++ name ++ "'"
  | reservedField record name =>
    record.name ++ ".__init__() got multiple values for argument '" ++ name ++ "'"
  | colorText => "Colour must be a hex string in RRGGBB or RRGGBBAA format"
  | colorShape => "Colour must include red, green, blue and optional alpha values"
  | colorPartNotNumber => "Colour components must be numbers"
  | colorPartOutOfRange => "Colour components must be between 0 and 255"
  | colorTooShort parts =>
    "not enough values to unpack (expected 4, got " ++ parts.repr ++ ")"
  | colorTooLong => "too many values to unpack (expected 4)"
  | colorPartNotWhole shape => "Unknown format code 'X' for object of type '" ++ shape ++ "'"
  | colorPartNotWritable shape => "unsupported format string passed to " ++ shape ++ ".__format__"
  | thresholdsNotIntegers => "Charging thresholds must be integers"
  | thresholdsNotPositive => "Charging thresholds must be positive"
  | thresholdsReversed => "Slow charging threshold must not exceed the fast threshold"
  | thresholdsIncomplete => "Charging thresholds must provide 'slow' and 'fast' values"
  | thresholdsNotPair => "Charging thresholds sequence must contain two values"
  | thresholdsUnsupported => "Unsupported charging thresholds value"
  | thresholdsNotNumeric => "Charging threshold values must be numeric"
  | badThresholds cause => "Invalid charging thresholds: " ++ cause.message
  | phraseNotText name => "Indication string '" ++ name ++ "' must be text"
  | phraseWithoutTime name =>
    "Indication string '" ++ name ++ "' must contain the \x7btime\x7d placeholder"
  | unknownPhrases names => "Unknown indication strings: " ++ Text.joined ", " names
  | phrasesNotObject => "Indication strings must be an object of text overrides"
  | flagNotBoolean => "Setting flags must be boolean values"
  | tickNotPositive => "Tick interval must be a positive number of seconds"
  | tickNotNumeric => "Tick interval must be numeric"
  | tickOutOfRange => "Tick interval must be between 1 and 3600 seconds"
  | settingsNotObject => "Settings must be provided as an object"
  | chargingNotObject => "Charging settings must be an object"
  | fileNotJson => "JSONDecodeError"
  | fileNotText => "UnicodeDecodeError"
  | listTooDeep => "maximum recursion depth exceeded while decoding a JSON array from a unicode string"
  | objectTooDeep =>
    "maximum recursion depth exceeded while decoding a JSON object from a unicode string"
  | fileNotObject => "Configuration file must contain a JSON object"
  | fileUnreadable cause => "Failed to load configuration: " ++ cause.message
  | integerUnwritable =>
    "Exceeds the limit (4300 digits) for integer string conversion; "
      ++ "use sys.set_int_max_str_digits() to increase the limit"
  | diskRefused reason => reason
  | unknownHealth quoted => quoted ++ " is not a valid BatteryHealthStatus"
  | unknownPlug quoted => quoted ++ " is not a valid PlugType"
  | unknownSpeed quoted => quoted ++ " is not a valid ChargingSpeed"
  | unsupportedEvent name => "Unsupported indication event: " ++ name
  | numberNotFinite => "Out of range float values are not JSON compliant"
  | unencodable halves => halves.message
  | answerUnwritable cause => "Error serializing to JSON: UnicodeEncodeError: " ++ cause.message
  | hideDelayNegative => "Hide delay must not be negative"
  | timerDelayNegative => "Timer delay must not be negative"
  | intervalNotPositive => "interval must be positive"

end Fault

end LockScreen
