import LockScreen.Value

/-!
# Equality of values

Whether two values are equal can be decided: shape by shape, and part by part where a value holds others
(`equals_iff`).
-/

namespace LockScreen.Value

mutual

/-- Two values are equal. -/
def equals : Value → Value → Bool
  | .null, .null => true
  | .bool a, .bool b => a = b
  | .int i, .int j => i = j
  | .float x, .float y => x = y
  | .text t, .text u => t = u
  | .list items, .list others => equalItems items others
  | .object fields, .object others => equalFields fields others
  | .thresholds t, .thresholds u => t = u
  | .phrases p _, .phrases q _ => p = q
  | _, _ => false

/-- The items of two lists are equal. -/
def equalItems : List Value → List Value → Bool
  | [], [] => true
  | a :: items, b :: others => equals a b && equalItems items others
  | _, _ => false

/-- The fields of two objects are equal. -/
def equalFields : List (Text × Value) → List (Text × Value) → Bool
  | [], [] => true
  | (name, a) :: fields, (other, b) :: others =>
    name = other && equals a b && equalFields fields others
  | _, _ => false

end

mutual

theorem equals_iff : ∀ a b : Value, equals a b = true ↔ a = b
  | .list items, .list others => by simp [equals, equalItems_iff items others]
  | .object fields, .object others => by simp [equals, equalFields_iff fields others]
  | .null, b | .bool _, b | .int _, b | .float _, b | .text _, b | .thresholds _, b
  | .phrases _ _, b => by cases b <;> simp [equals]
  | .list _, .null | .list _, .bool _ | .list _, .int _ | .list _, .float _ | .list _, .text _
  | .list _, .object _ | .list _, .thresholds _ | .list _, .phrases _ _ => by simp [equals]
  | .object _, .null | .object _, .bool _ | .object _, .int _ | .object _, .float _
  | .object _, .text _ | .object _, .list _ | .object _, .thresholds _
  | .object _, .phrases _ _ => by simp [equals]

theorem equalItems_iff : ∀ items others : List Value,
    equalItems items others = true ↔ items = others
  | [], [] => by simp [equalItems]
  | [], _ :: _ => by simp [equalItems]
  | _ :: _, [] => by simp [equalItems]
  | a :: items, b :: others => by
    simp [equalItems, equals_iff a b, equalItems_iff items others]

theorem equalFields_iff : ∀ fields others : List (Text × Value),
    equalFields fields others = true ↔ fields = others
  | [], [] => by simp [equalFields]
  | [], _ :: _ => by simp [equalFields]
  | _ :: _, [] => by simp [equalFields]
  | (_, a) :: fields, (_, b) :: others => by
    simp [equalFields, equals_iff a b, equalFields_iff fields others]

end

instance : DecidableEq Value := fun a b => decidable_of_iff _ (equals_iff a b)

end LockScreen.Value
