import LockScreen.Battery.Thresholds
import LockScreen.Numeral
import LockScreen.Phrases
import LockScreen.Text.Quoted

/-!
# Values from outside

Settings, estimates, measurements and request bodies arrive as values of any shape: the shapes of a JSON
document, and thresholds and phrases that are already built. An object keeps its fields in the order of their
first appearance.
-/

namespace LockScreen

/-- A value of any shape. -/
inductive Value
  | null
  | bool (b : Bool)
  | int (i : Int)
  | float (x : Binary64)
  | text (t : Text)
  | list (items : List Value)
  | object (fields : List (Text × Value))
  | thresholds (t : Thresholds)
  | phrases (p : Phrases) (valid : p.Valid)

namespace Value

/-- The value of a field, in a list of fields. -/
def lookup (name : Text) : List (Text × Value) → Option Value
  | [] => none
  | (key, value) :: rest => if key = name then some value else lookup name rest

/-- Sets a field: at its old place if there is one, else at the end. -/
def insert (name : Text) (value : Value) : List (Text × Value) → List (Text × Value)
  | [] => [(name, value)]
  | (key, old) :: rest =>
    if key = name then (key, value) :: rest else (key, old) :: insert name value rest

theorem lookup_insert_self (name : Text) (value : Value) (fields : List (Text × Value)) :
    lookup name (insert name value fields) = some value := by
  induction fields with
  | nil => simp [insert, lookup]
  | cons field rest ih =>
    by_cases h : field.1 = name
    · simp [insert, lookup, h]
    · simp [insert, lookup, h, ih]

theorem lookup_insert_of_ne {name other : Text} (h : other ≠ name) (value : Value)
    (fields : List (Text × Value)) :
    lookup other (insert name value fields) = lookup other fields := by
  induction fields with
  | nil => simp [insert, lookup, Ne.symm h]
  | cons field rest ih =>
    by_cases hname : field.1 = name
    · have hother : field.1 ≠ other := fun e => h (e.symm.trans hname)
      simp [insert, lookup, hname, Ne.symm h]
    · simp [insert, lookup, hname, ih]

/-- Whether a value counts as yes: all but null, no, zero and what is empty. -/
def isTruthy : Value → Bool
  | null => false
  | bool b => b
  | int i => i ≠ 0
  | float x => !x.isZero
  | text t => t ≠ ""
  | list items => !items.isEmpty
  | object fields => !fields.isEmpty
  | thresholds _ => true
  | phrases _ _ => true

/-- The word for the shape of a value. -/
def shape : Value → String
  | null => "NoneType"
  | bool _ => "bool"
  | int _ => "int"
  | float _ => "float"
  | text _ => "str"
  | list _ => "list"
  | object _ => "dict"
  | thresholds _ => "ChargingThresholds"
  | phrases _ _ => "IndicationStrings"

/-- The value as a binary64 number: a number, a flag as zero or one, or a numeral. -/
def toBinary64 : Value → Except Fault Binary64
  | bool b => .ok (Binary64.ofInt (if b then 1 else 0))
  | int i => Binary64.ofInt? i
  | float x => .ok x
  | text t =>
    match t.string?.bind Numeral.readNumber? with
    | some x => .ok x
    | none => .error (.textNotNumber (Text.quoted t))
  | other => .error (.notNumber other.shape)

/-- The value as an integer: an integer, a number without its fraction, a flag as zero or one, or a numeral. -/
def toInteger : Value → Except Fault Int
  | bool b => .ok (if b then 1 else 0)
  | int i => .ok i
  | float x => x.truncate
  | text t => Numeral.readInteger t
  | other => .error (.notInteger other.shape)

/-- The text that a value is. -/
def text? : Value → Option Text
  | text t => some t
  | _ => none

/-- The value of a number. -/
def ofNumber : Number → Value
  | .int i => int i
  | .float x => float x

/-- The number that a value is; flags are none. -/
def number? : Value → Option Number
  | int i => some (.int i)
  | float x => some (.float x)
  | _ => none

/-- The number that a value counts as: a number, or a flag as zero or one. -/
def measure? : Value → Option Number
  | bool b => some (.int (if b then 1 else 0))
  | v => v.number?

/-- The number that is compared with an integer when a value is, by the relation of the given sign. -/
def comparable (relation : String) (v : Value) : Except Fault Number :=
  match v.measure? with
  | some n => .ok n
  | none => .error (.notComparable relation v.shape)

@[simp]
theorem comparable_int (relation : String) (i : Int) : (int i).comparable relation = .ok (.int i) :=
  rfl

/-! ## Records -/

/-- The names of the fields that a record is built from are all known to it; otherwise the first other one
decides. A record cannot be given itself. -/
def checkNames (record : Fault.Record) (known : Text → Bool) (fields : List (Text × Value)) :
    Except Fault Unit :=
  match (fields.map (·.1)).find? fun name => !known name with
  | none => .ok ()
  | some name =>
    .error (if name = "self" then .reservedField record name else .unexpectedField record name)

end Value

end LockScreen
