import LockScreen.Value

/-!
# Quoted values

A value as messages show it: words for null and the flags, numbers in their written form, texts between
quotes, and lists, objects and built values with what is in them.
-/

namespace LockScreen.Value

/-- The phrases of a catalogue with their names. -/
def quotedPhrases (p : Phrases) : List Char :=
  ", ".toList.intercalate (Phrase.all.map fun k =>
    k.name.toList ++ '=' :: (Text.quoted (p.get k)).toList)

mutual

/-- The characters of a value as messages show it. -/
def quotedChars : Value → List Char
  | .null => "None".toList
  | .bool b => if b then "True".toList else "False".toList
  | .int i => Text.integerText i
  | .float x => x.text
  | .text t => (Text.quoted t).toList
  | .list items => '[' :: quotedItems items ++ [']']
  | .object fields => '{' :: quotedFields fields ++ ['}']
  | .thresholds t =>
    "ChargingThresholds(slow_threshold=".toList ++ Text.integerText t.slow
      ++ ", fast_threshold=".toList ++ Text.integerText t.fast ++ [')']
  | .phrases p _ => "IndicationStrings(".toList ++ quotedPhrases p ++ [')']

/-- The items of a list. -/
def quotedItems : List Value → List Char
  | [] => []
  | [item] => quotedChars item
  | item :: items => quotedChars item ++ ", ".toList ++ quotedItems items

/-- The fields of an object. -/
def quotedFields : List (Text × Value) → List Char
  | [] => []
  | [(name, value)] => (Text.quoted name).toList ++ ": ".toList ++ quotedChars value
  | (name, value) :: fields =>
    (Text.quoted name).toList ++ ": ".toList ++ quotedChars value ++ ", ".toList
      ++ quotedFields fields

end

/-- A value as messages show it. -/
def quoted (v : Value) : String :=
  String.ofList v.quotedChars

end LockScreen.Value
