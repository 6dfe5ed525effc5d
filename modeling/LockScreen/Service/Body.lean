import LockScreen.Json.Reader
import LockScreen.Service.Numeral

/-!
# Request bodies

What a request may carry, and the reading of its fields. All faults of a body are collected, in the order
of the fields that are read, each with the path to the place it is at and the value that was found there.

The rules are those of the framework that stands before the service. What is said of the service holds of any others.
-/

namespace LockScreen

/-- What a request carries. -/
inductive Body
  | absent
  | text (s : String)
  | json (v : Value)

/-- What is wrong at a place of a body. -/
inductive BodyError.Kind
  | missing
  | jsonInvalid
  | notModel
  | notObject
  | notText
  | notUnicode
  | notFlag
  | notFlagWord
  | notInteger
  | notIntegerNumeral
  | integerTooLong
  | fractional
  | notFinite
  | notReal
  | notRealNumeral
  | notListed (names : List String)
  | tooSmall (bound : Int)
  | tooLarge (bound : Int)
deriving DecidableEq, Repr

/-- The name under which a kind is reported. -/
def BodyError.Kind.name : BodyError.Kind → String
  | missing => "missing"
  | jsonInvalid => "json_invalid"
  | notModel => "model_attributes_type"
  | notObject => "dict_type"
  | notText => "string_type"
  | notUnicode => "string_unicode"
  | notFlag => "bool_type"
  | notFlagWord => "bool_parsing"
  | notInteger => "int_type"
  | notIntegerNumeral => "int_parsing"
  | integerTooLong => "int_parsing_size"
  | fractional => "int_from_float"
  | notFinite => "finite_number"
  | notReal => "float_type"
  | notRealNumeral => "float_parsing"
  | notListed _ => "enum"
  | tooSmall _ => "greater_than_equal"
  | tooLarge _ => "less_than_equal"

/-- The names of a list between quotes, the last one after an `or`. -/
def quotedNames (names : List String) : Text :=
  let quoted := names.map fun name => "'" ++ name ++ "'"
  match quoted.reverse with
  | last :: second :: rest =>
    ", ".intercalate (second :: rest).reverse ++ " or " ++ last
  | short => ", ".intercalate short

/-- The wording of a kind. -/
def BodyError.Kind.message : BodyError.Kind → Text
  | missing => "Field required"
  | jsonInvalid => "JSON decode error"
  | notModel => "Input should be a valid dictionary or object to extract fields from"
  | notObject => "Input should be a valid dictionary"
  | notText => "Input should be a valid string"
  | notUnicode => "Input should be a valid string, unable to parse raw data as a unicode string"
  | notFlag => "Input should be a valid boolean"
  | notFlagWord => "Input should be a valid boolean, unable to interpret input"
  | notInteger => "Input should be a valid integer"
  | notIntegerNumeral => "Input should be a valid integer, unable to parse string as an integer"
  | integerTooLong => "Unable to parse input string as an integer, exceeded maximum size"
  | fractional => "Input should be a valid integer, got a number with a fractional part"
  | notFinite => "Input should be a finite number"
  | notReal => "Input should be a valid number"
  | notRealNumeral => "Input should be a valid number, unable to parse string as a number"
  | notListed names => "Input should be " ++ quotedNames names
  | tooSmall bound =>
    "Input should be greater than or equal to " ++ Text.ofChars (Text.integerText bound)
  | tooLarge bound =>
    "Input should be less than or equal to " ++ Text.ofChars (Text.integerText bound)

/-- What a kind was checked against, as a field of the report; none for most kinds. -/
def BodyError.Kind.context : BodyError.Kind → List (Text × Value)
  | notListed names => [("ctx", .object [("expected", .text (quotedNames names))])]
  | tooSmall bound => [("ctx", .object [("ge", .int bound)])]
  | tooLarge bound => [("ctx", .object [("le", .int bound)])]
  | _ => []

namespace Body

/-- The name of a field that reports leave out, since it is kept for whoever stores the object. -/
def isReserved (name : Text) : Bool :=
  (Text.ofString "_sa").letters.isPrefixOf name.letters

mutual

/-- A value as reports show it: without the reserved fields, at any depth. -/
def reported : Value → Value
  | .list items => .list (reportedItems items)
  | .object fields => .object (reportedFields fields)
  | leaf => leaf

/-- The same for the items of a list. -/
def reportedItems : List Value → List Value
  | [] => []
  | item :: items => reported item :: reportedItems items

/-- The same for the fields of an object. -/
def reportedFields : List (Text × Value) → List (Text × Value)
  | [] => []
  | (name, value) :: fields =>
    if isReserved name then reportedFields fields
    else (name, reported value) :: reportedFields fields

end

end Body

/-- A fault of a body, the path to its place, and what was found: the value at the place, or the object
that should have had a field there. -/
structure BodyError where
  path : List String
  kind : BodyError.Kind
  found : Value

/-- A fault of a body as an answer reports it. -/
def BodyError.toValue (e : BodyError) : Value :=
  let reported : List (Text × Value) :=
    [("type", .text e.kind.name),
     ("loc", .list (e.path.map fun (name : String) => .text name)),
     ("msg", .text e.kind.message),
     ("input", Body.reported e.found)]
  .object (reported ++ e.kind.context)

/-- A reading that collects all faults. -/
abbrev Checked (α : Type) := Except (List BodyError) α

namespace Checked

variable {α β : Type}

/-- A single fault. -/
def fail (path : List String) (found : Value) (kind : BodyError.Kind) : Checked α :=
  .error [⟨path, kind, found⟩]

/-- Both readings, or the faults of both. -/
def and (f : Checked (α → β)) (x : Checked α) : Checked β :=
  match f, x with
  | .ok f, .ok x => .ok (f x)
  | .error first, .error second => .error (first ++ second)
  | .error first, .ok _ => .error first
  | .ok _, .error second => .error second

end Checked

/-- The reading of a value at a place. -/
abbrev FieldReader (α : Type) := List String → Value → Checked α

namespace Body

/-! ## Readers -/

/-- A text, which may hold halves of pairs. -/
def readText : FieldReader Text := fun path v =>
  match v.text? with
  | some t => .ok t
  | none => .fail path v .notText

/-- The reading of a text for what it spells, which halves of pairs cannot be part of. -/
def readSpelled {α : Type} (t : Text) (read : String → Except BodyError.Kind α) : FieldReader α :=
  fun path v =>
    match t.string? with
    | none => .fail path v .notUnicode
    | some s =>
      match read s with
      | .ok x => .ok x
      | .error kind => .fail path v kind

/-- The words for no. -/
def noWords : List String := ["0", "off", "f", "false", "n", "no"]

/-- The words for yes. -/
def yesWords : List String := ["1", "on", "t", "true", "y", "yes"]

/-- The integers of a machine word are at least `-wordLimit` and below `wordLimit`. -/
def wordLimit : Nat := Nat.pow 2 63

/-- The integer that a number without a fraction is, where it lies within the words; the lowest word is
left out. -/
def wholeWord? (x : Binary64) : Option Int :=
  match x.truncate with
  | .ok i => if x.isWhole && i.natAbs < wordLimit then some i else none
  | .error _ => none

/-- Zero or one as a flag. -/
def flagOfInteger (path : List String) (found : Value) (i : Int) : Checked Bool :=
  if i = 0 then .ok false else if i = 1 then .ok true else .fail path found .notFlagWord

/-- The flag of a word, in any case. -/
def flagOfWord (s : String) : Except BodyError.Kind Bool :=
  let word := s.map Char.toLower
  if word ∈ noWords then .ok false
  else if word ∈ yesWords then .ok true
  else .error .notFlagWord

/-- A flag: yes or no, zero or one, or a word. -/
def readFlag : FieldReader Bool := fun path v =>
  match v with
  | .bool b => .ok b
  | .int i =>
    if -wordLimit ≤ i && i < wordLimit then flagOfInteger path v i else .fail path v .notFlag
  | .float x =>
    match wholeWord? x with
    | some i => flagOfInteger path v i
    | none => .fail path v .notFlag
  | .text t => readSpelled t flagOfWord path v
  | _ => .fail path v .notFlag

/-- The integer of a numeral. -/
def integerOfNumeral (s : String) : Except BodyError.Kind Int :=
  if Numeral.startsOverlong s.toList then .error .integerTooLong
  else
    match Numeral.readBodyInteger? s with
    | some i => .ok i
    | none => .error .notIntegerNumeral

/-- An integer: a number without a fraction, a flag as zero or one, or a numeral. -/
def readInteger : FieldReader Int := fun path v =>
  match v with
  | .bool b => .ok (if b then 1 else 0)
  | .int i => .ok i
  | .float x =>
    match wholeWord? x with
    | some i => .ok i
    | none =>
      .fail path v
        (if !x.isFinite then .notFinite else if x.isWhole then .integerTooLong else .fractional)
  | .text t => readSpelled t integerOfNumeral path v
  | _ => .fail path v .notInteger

/-- The real number of a numeral. -/
def realOfNumeral (s : String) : Except BodyError.Kind Binary64 :=
  match Numeral.readBodyReal? s with
  | some x => .ok x
  | none => .error .notRealNumeral

/-- A real number: a number, a flag as zero or one, or a numeral. -/
def readReal : FieldReader Binary64 := fun path v =>
  match v with
  | .bool b => .ok (Binary64.ofInt (if b then 1 else 0))
  | .int i =>
    match Binary64.ofInt? i with
    | .ok x => .ok x
    | .error _ => .fail path v .notReal
  | .float x => .ok x
  | .text t => readSpelled t realOfNumeral path v
  | _ => .fail path v .notReal

/-- One of a list of things that are known by their names. -/
def readName {α : Type} (all : List α) (name : α → String) : FieldReader α := fun path v =>
  let unlisted := BodyError.Kind.notListed (all.map name)
  match v with
  | .text t =>
    readSpelled t (fun s =>
      match all.find? (name · = s) with
      | some x => .ok x
      | none => .error unlisted) path v
  | _ => .fail path v unlisted

/-- An integer that is not below a bound. -/
def readAtLeast (low : Int) : FieldReader Int := fun path v =>
  (readInteger path v).bind fun i => if low ≤ i then .ok i else Checked.fail path v (.tooSmall low)

/-- An integer between two bounds. -/
def readBetween (low high : Int) : FieldReader Int := fun path v =>
  (readAtLeast low path v).bind fun i => if i ≤ high then .ok i else Checked.fail path v (.tooLarge high)

/-- A value that may be null. -/
def readOptional {α : Type} (read : FieldReader α) : FieldReader (Option α) := fun path v =>
  match v with
  | .null => .ok none
  | v => (read path v).map some

/-- An object whose values are all of one kind. -/
def readMap {α : Type} (read : FieldReader α) : FieldReader (List (Text × α)) := fun path v =>
  match v with
  | .object fields =>
    fields.foldr (fun field rest =>
      Checked.and ((read (path ++ [field.1.lossy]) field.2).map fun x => ((field.1, x) :: ·)) rest)
      (.ok [])
  | _ => .fail path v .notObject

/-- An object with fields of its own. -/
def readModel {α : Type} (read : List String → List (Text × Value) → Checked α) :
    FieldReader α := fun path v =>
  match v with
  | .object fields => read path fields
  | _ => .fail path v .notModel

/-! ## Fields -/

/-- A field that must be there. -/
def required {α : Type} (path : List String) (fields : List (Text × Value)) (name : String)
    (read : FieldReader α) : Checked α :=
  match Value.lookup name fields with
  | some v => read (path ++ [name]) v
  | none => .fail (path ++ [name]) (.object fields) .missing

/-- A field that has a value of its own when it is not there. -/
def withDefault {α : Type} (path : List String) (fields : List (Text × Value)) (name : String)
    (standard : α) (read : FieldReader α) : Checked α :=
  match Value.lookup name fields with
  | some v => read (path ++ [name]) v
  | none => .ok standard

/-- A field that may be null or not there at all. -/
def optional {α : Type} (path : List String) (fields : List (Text × Value)) (name : String)
    (read : FieldReader α) : Checked (Option α) :=
  withDefault path fields name none (readOptional read)

end Body

end LockScreen
