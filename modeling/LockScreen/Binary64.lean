import LockScreen.Fault

/-!
# Binary64 numbers

The numbers of the IEEE 754 double format as exact values. A finite number is a sign and a count of
*units*, the smallest positive step `2⁻¹⁰⁷⁴`; it is `Representable` when the count has at most 53
significant bits and stays below `2¹⁰²⁴`. Arithmetic is exact rational arithmetic followed by one
rounding, to nearest and from a half to even (`ofUnitRatio`), so each law about it is a law about
natural numbers.

`hasPrecision_roundToPrecision` is what makes a rounded count representable, and
`ofUnitRatio_mul_self` says that a count that is already representable stays as it is.
-/

namespace LockScreen

/-! ## Rounding natural quotients

Powers are written `Nat.pow`: where the algebra of Mathlib is in scope, `^` is another operation. -/

/-- The natural number nearest to `num / den`; a half goes to the even neighbour. -/
def roundDiv (num den : Nat) : Nat :=
  let quotient := num / den
  let twice := 2 * (num % den)
  if twice < den then quotient
  else if den < twice then quotient + 1
  else quotient + quotient % 2

theorem roundDiv_le (num den : Nat) : roundDiv num den ≤ num / den + 1 := by
  unfold roundDiv
  dsimp only
  split
  · omega
  · split <;> omega

theorem le_roundDiv (num den : Nat) : num / den ≤ roundDiv num den := by
  unfold roundDiv
  dsimp only
  split
  · omega
  · split <;> omega

/-- A quotient that leaves no remainder is not changed. -/
theorem roundDiv_mul_self (q : Nat) {den : Nat} (h : 0 < den) : roundDiv (q * den) den = q := by
  simp [roundDiv, Nat.mul_div_cancel q h, h]

/-- The distance between neighbours of 53 significant bits around `num / den`, as a power of two. -/
def precisionStep (num den : Nat) : Nat :=
  Nat.pow 2 ((num / den).log2 - 52)

/-- `num / den` rounded to 53 significant bits. -/
def roundToPrecision (num den : Nat) : Nat :=
  roundDiv num (den * precisionStep num den) * precisionStep num den

/-- The count has at most 53 significant bits. -/
def HasPrecision (units : Nat) : Prop :=
  Nat.pow 2 (units.log2 - 52) ∣ units

theorem hasPrecision_mul_two_pow {m k : Nat} (hm : m ≤ Nat.pow 2 53) :
    HasPrecision (m * Nat.pow 2 k) := by
  unfold HasPrecision
  simp only [Nat.pow_eq] at hm ⊢
  by_cases h0 : m = 0
  · simp [h0]
  by_cases htop : m = 2 ^ 53
  -- a carry out of the top digit leaves a power of two
  · subst htop
    rw [← Nat.pow_add, Nat.log2_two_pow]
    exact Nat.pow_dvd_pow 2 (by omega)
  -- otherwise the step of the product is at most the factor `2 ^ k`
  · have hlt : m * 2 ^ k < 2 ^ (53 + k) := by
      rw [Nat.pow_add]
      exact Nat.mul_lt_mul_of_pos_right (by omega) (Nat.two_pow_pos k)
    have hne : m * 2 ^ k ≠ 0 := Nat.mul_ne_zero h0 (Nat.ne_of_gt (Nat.two_pow_pos k))
    have hlog := (Nat.log2_lt hne).2 hlt
    exact Nat.dvd_trans (Nat.pow_dvd_pow 2 (by omega)) (Nat.dvd_mul_left _ _)

/-- Rounding leaves at most 53 significant bits. -/
theorem hasPrecision_roundToPrecision (num den : Nat) :
    HasPrecision (roundToPrecision num den) := by
  refine hasPrecision_mul_two_pow ?_
  have hlt : num / den < 2 ^ ((num / den).log2 + 1) := Nat.lt_log2_self
  -- measured in steps the quotient is below `2 ^ 53`, so rounding reaches at most that
  have hdiv : num / (den * precisionStep num den) < 2 ^ 53 := by
    rw [← Nat.div_div_eq_div_mul]
    refine Nat.div_lt_of_lt_mul (Nat.lt_of_lt_of_le hlt ?_)
    rw [precisionStep, Nat.pow_eq, ← Nat.pow_add]
    exact Nat.pow_le_pow_right (by decide) (by omega)
  exact Nat.le_trans (roundDiv_le _ _) hdiv

/-- A count of at most 53 significant bits is not changed by rounding. -/
theorem roundToPrecision_mul_self {units den : Nat} (h : HasPrecision units) (hden : 0 < den) :
    roundToPrecision (units * den) den = units := by
  obtain ⟨q, hq⟩ := h
  rw [Nat.pow_eq] at hq
  -- the step is that of the count itself, so a whole number of steps is rounded
  have hstep : precisionStep (units * den) den = 2 ^ (units.log2 - 52) := by
    rw [precisionStep, Nat.mul_div_cancel units hden, Nat.pow_eq]
  have hmul : units * den = q * (den * 2 ^ (units.log2 - 52)) := by
    calc units * den = 2 ^ (units.log2 - 52) * q * den := by rw [← hq]
      _ = q * (den * 2 ^ (units.log2 - 52)) := by ac_rfl
  rw [roundToPrecision, hstep, hmul,
    roundDiv_mul_self q (Nat.mul_pos hden (Nat.two_pow_pos _)), Nat.mul_comm, ← hq]

/-! ## The type -/

/-- The smallest positive step is this many halvings of one. -/
def unitExponent : Nat := 1074

/-- The smallest positive step is `1 / unitsPerOne`. -/
def unitsPerOne : Nat := Nat.pow 2 unitExponent

/-- No finite number reaches this count of units, which stands for `2¹⁰²⁴`. -/
def unitLimit : Nat := Nat.pow 2 2098

/-- The counts of units that are finite numbers. -/
def Representable (units : Nat) : Prop :=
  HasPrecision units ∧ units < unitLimit

/-- A number of the double format: not a number, an infinity, or a sign and a count of units. -/
inductive Binary64
  | nan
  | infinite (negative : Bool)
  | finite (negative : Bool) (units : Nat) (representable : Representable units)
deriving DecidableEq

namespace Binary64

/-- The number nearest to `num / den` units; an infinity when that reaches the limit. -/
def ofUnitRatio (negative : Bool) (num den : Nat) : Binary64 :=
  if h : roundToPrecision num den < unitLimit then
    .finite negative (roundToPrecision num den) ⟨hasPrecision_roundToPrecision num den, h⟩
  else
    .infinite negative

/-- A count that is a number is that number. -/
theorem ofUnitRatio_mul_self {units den : Nat} (negative : Bool) (h : Representable units)
    (hden : 0 < den) : ofUnitRatio negative (units * den) den = .finite negative units h := by
  have hround := roundToPrecision_mul_self h.1 hden
  unfold ofUnitRatio
  split
  · simp [hround]
  · rename_i hlarge
    exact absurd h.2 (hround ▸ hlarge)

/-- The number nearest to the fraction `num / den`. -/
def ofRatio (negative : Bool) (num den : Nat) : Binary64 :=
  ofUnitRatio negative (num * unitsPerOne) den

/-- The number nearest to an integer. -/
def ofInt (i : Int) : Binary64 :=
  ofRatio (decide (i < 0)) i.natAbs 1

/-! ## Tests -/

def isNaN : Binary64 → Bool
  | .nan => true
  | _ => false

def isFinite : Binary64 → Bool
  | .finite .. => true
  | _ => false

/-- Both zeros, of either sign. -/
def isZero : Binary64 → Bool
  | .finite _ units _ => units = 0
  | _ => false

/-- Without digits behind the point. -/
def isWhole : Binary64 → Bool
  | .finite _ units _ => units % unitsPerOne = 0
  | _ => false

/-- Above zero; not a number is not. -/
def isPositive : Binary64 → Bool
  | .finite negative units _ => !negative && units ≠ 0
  | .infinite negative => !negative
  | .nan => false

/-- Below zero; not a number is not, and neither is a negative zero. -/
def isNegative : Binary64 → Bool
  | .finite negative units _ => negative && units ≠ 0
  | .infinite negative => negative
  | .nan => false

/-- Between two whole bounds, both included. -/
def isBetween (x : Binary64) (low high : Nat) : Bool :=
  match x with
  | .finite negative units _ =>
    (!negative || units = 0) && low * unitsPerOne ≤ units && units ≤ high * unitsPerOne
  | _ => false

/-! ## Arithmetic -/

/-- The number divided by a positive whole number. -/
def divNat (x : Binary64) (divisor : Nat) : Binary64 :=
  match x with
  | .finite negative units _ => ofUnitRatio negative units divisor
  | other => other

/-- The number times a positive whole number. -/
def mulNat (x : Binary64) (factor : Nat) : Binary64 :=
  match x with
  | .finite negative units _ => ofUnitRatio negative (units * factor) 1
  | other => other

/-- A magnitude with its sign. -/
def signed (negative : Bool) (magnitude : Nat) : Int :=
  if negative then -(magnitude : Int) else magnitude

/-- The sum of two numbers. -/
def add : Binary64 → Binary64 → Binary64
  | .finite negative units _, .finite negative' units' _ =>
    let sum := signed negative units + signed negative' units'
    -- a sum of nothing is negative only if both parts are
    ofUnitRatio (if sum = 0 then negative && negative' else decide (sum < 0)) sum.natAbs 1
  | .infinite negative, .infinite negative' =>
    if negative = negative' then .infinite negative else .nan
  | .infinite negative, .finite .. | .finite .., .infinite negative => .infinite negative
  | .nan, _ | _, .nan => .nan

/-- The product of two numbers. -/
def mul : Binary64 → Binary64 → Binary64
  | .finite negative units _, .finite negative' units' _ =>
    ofUnitRatio (negative != negative') (units * units') unitsPerOne
  | .infinite negative, .infinite negative' => .infinite (negative != negative')
  | .infinite negative, .finite negative' units _ | .finite negative' units _, .infinite negative =>
    if units = 0 then .nan else .infinite (negative != negative')
  | .nan, _ | _, .nan => .nan

/-- The nearest whole number; a half goes down. -/
def nearestWhole : Binary64 → Binary64
  | .finite negative units _ =>
    let value := signed negative units
    ofInt (value / unitsPerOne + if (unitsPerOne : Int) < 2 * (value % unitsPerOne) then 1 else 0)
  | other => other

/-- The quotient by a positive whole number, rounded down; an infinity has none. The rest is taken off before
the division, and each step gives a number again, so the quotient may miss a whole number by a little. -/
def floorDivNat (x : Binary64) (divisor : Nat) : Binary64 :=
  match x with
  | .finite negative units _ =>
    let rest := units % (divisor * unitsPerOne)
    let quotient := (ofUnitRatio negative (units - rest) 1).divNat divisor
    -- below zero a rest makes the quotient one less
    (if negative && rest ≠ 0 then quotient.add (ofInt (-1)) else quotient).nearestWhole
  | _ => .nan

/-! ## Order -/

/-- How two numbers compare; not a number compares with none. -/
def compare? : Binary64 → Binary64 → Option Ordering
  | .finite negative units _, .finite negative' units' _ =>
    some (compare (signed negative units) (signed negative' units'))
  | .infinite negative, .infinite negative' =>
    some (if negative = negative' then .eq else if negative then .lt else .gt)
  | .infinite negative, .finite .. => some (if negative then .lt else .gt)
  | .finite .., .infinite negative => some (if negative then .gt else .lt)
  | .nan, _ | _, .nan => none

/-- How a number compares with an integer, of whatever size. -/
def compareInt? (x : Binary64) (bound : Int) : Option Ordering :=
  match x with
  | .finite negative units _ => some (compare (signed negative units) (bound * unitsPerOne))
  | .infinite negative => some (if negative then .lt else .gt)
  | .nan => none

/-! ## Integers -/

/-- The integer that the digits before the point spell. -/
def truncate : Binary64 → Except Fault Int
  | .finite negative units _ => .ok (signed negative (units / unitsPerOne))
  | .infinite _ => .error .infinityToInteger
  | .nan => .error .nanToInteger

/-- The nearest integer; a half goes to the even neighbour. -/
def round : Binary64 → Except Fault Int
  | .finite negative units _ => .ok (signed negative (roundDiv units unitsPerOne))
  | .infinite _ => .error .infinityToInteger
  | .nan => .error .nanToInteger

/-- The number nearest to an integer, where that is finite. -/
def ofInt? (i : Int) : Except Fault Binary64 :=
  let x := ofInt i
  if x.isFinite then .ok x else .error .integerTooLarge

/-- The number nearest to the quotient of an integer and a positive whole number. -/
def quotient (dividend : Int) (divisor : Nat) : Except Fault Binary64 :=
  let x := ofRatio (decide (dividend < 0)) dividend.natAbs divisor
  if x.isFinite then .ok x else .error .quotientTooLarge

end Binary64

end LockScreen
