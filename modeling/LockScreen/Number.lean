import LockScreen.Decimal

/-!
# Numbers

A number given from outside is an integer of any size or a binary64 number.
-/

namespace LockScreen

/-- An integer of any size or a binary64 number. -/
inductive Number
  | int (value : Int)
  | float (value : Binary64)
deriving DecidableEq

namespace Number

/-- Below zero; not a number and a negative zero are not. -/
def isNegative : Number → Bool
  | int i => i < 0
  | float x => x.isNegative

/-- Zero, of either sign. -/
def isZero : Number → Bool
  | int i => i = 0
  | float x => x.isZero

/-- The nearest binary64 number. -/
def toBinary64 : Number → Except Fault Binary64
  | int i => Binary64.ofInt? i
  | float x => .ok x

/-- The integer left when a fraction is cut off. -/
def truncate : Number → Except Fault Int
  | int i => .ok i
  | float x => x.truncate

/-- The nearest integer; a half goes to the even neighbour. -/
def round : Number → Except Fault Int
  | int i => .ok i
  | float x => x.round

/-- The whole quotient by a positive whole number, rounded down. -/
def floorDiv (n : Number) (divisor : Nat) : Number :=
  match n with
  | int i => int (i / divisor)
  | float x => float (x.floorDivNat divisor)

/-- The product: exact of two integers, else in binary64. -/
def mul : Number → Number → Except Fault Number
  | int i, int j => .ok (int (i * j))
  | m, n => do return float ((← m.toBinary64).mul (← n.toBinary64))

/-! ## Order -/

/-- How a number compares with an integer; not a number compares with none. -/
def compareInt? (n : Number) (bound : Int) : Option Ordering :=
  match n with
  | int i => some (compare i bound)
  | float x => x.compareInt? bound

/-- Greater than an integer. -/
def isAbove (n : Number) (bound : Int) : Bool :=
  (n.compareInt? bound).any Ordering.isGT

/-- Less than an integer. -/
def isBelow (n : Number) (bound : Int) : Bool :=
  (n.compareInt? bound).any Ordering.isLT

/-- Not less than an integer, and comparable with it. -/
def isAtLeast (n : Number) (bound : Int) : Bool :=
  (n.compareInt? bound).any Ordering.isGE

@[simp]
theorem isAbove_int (i bound : Int) : (int i).isAbove bound = decide (bound < i) := by
  rw [Bool.eq_iff_iff, decide_eq_true_iff, ← Int.compare_eq_gt]
  simp [isAbove, compareInt?, Ordering.isGT_iff_eq_gt]

@[simp]
theorem isBelow_int (i bound : Int) : (int i).isBelow bound = decide (i < bound) := by
  rw [Bool.eq_iff_iff, decide_eq_true_iff, ← Int.compare_eq_lt]
  simp [isBelow, compareInt?, Ordering.isLT_iff_eq_lt]

@[simp]
theorem isAtLeast_int (i bound : Int) : (int i).isAtLeast bound = decide (bound ≤ i) := by
  rw [Bool.eq_iff_iff, decide_eq_true_iff, ← Int.isGE_compare]
  simp [isAtLeast, compareInt?]

end Number

end LockScreen
