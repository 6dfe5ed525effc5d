import LockScreen.Value.Equality

/-!
# Flags

A flag may be given as a value of any shape. It is up if the value counts as yes, and it is reported in the
form in which it was given. A flag made of yes or no is that (`isUp_ofBool`).
-/

namespace LockScreen

/-- A flag in the form in which it was given. -/
structure Flag where
  given : Value
deriving DecidableEq

namespace Flag

/-- The flag that is up for yes. -/
def ofBool (b : Bool) : Flag := ⟨.bool b⟩

instance : Coe Bool Flag := ⟨ofBool⟩

/-- The value given counts as yes. -/
def isUp (f : Flag) : Bool := f.given.isTruthy

@[simp]
theorem isUp_ofBool (b : Bool) : (ofBool b).isUp = b := rfl

end Flag

end LockScreen
