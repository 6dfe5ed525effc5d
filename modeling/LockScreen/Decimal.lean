import LockScreen.Binary64
import LockScreen.Text.Digit

/-!
# Decimals and binary64 numbers

A decimal is a digit string and a power of ten. `Binary64.ofDecimal` reads one as the nearest number;
`Binary64.shortest` finds the decimal with the fewest digits that reads back as a given number, the
nearest of those, and `ofDecimal_shortest` says that it does read back.
-/

namespace LockScreen

/-- `digits · 10 ^ exponent`. -/
structure Decimal where
  digits : Nat
  exponent : Int
deriving DecidableEq, Repr

namespace Binary64

/-- A zero of either sign. -/
def zero (negative : Bool) : Binary64 :=
  ofUnitRatio negative 0 1

/-- The number nearest to a decimal. Decimals far outside the range are not multiplied out. -/
def ofDecimal (negative : Bool) (d : Decimal) : Binary64 :=
  if d.digits = 0 then zero negative
  -- at least `10 ^ 310`, which is above every finite number
  else if 310 ≤ d.exponent then .infinite negative
  -- below half a unit, since `10 ^ 1100` is above `2 ^ 1075`
  else if d.exponent < -(1100 + d.digits.log2 : Int) then zero negative
  else if 0 ≤ d.exponent then ofRatio negative (d.digits * Nat.pow 10 d.exponent.toNat) 1
  else ofRatio negative d.digits (Nat.pow 10 (-d.exponent).toNat)

/-! ## The shortest decimal -/

/-- The power of ten of the leading digit of a positive count of units. -/
def leadingExponent (units : Nat) : Int :=
  -- a unit is above `10 ^ (-400)`, so the scaled count keeps its leading digit
  ((Text.decimalText (units * Nat.pow 10 400 / unitsPerOne)).length : Int) - 401

/-- The count of units measured in steps of a power of ten, as a fraction. -/
def gridRatio (units : Nat) (exponent : Int) : Nat × Nat :=
  if 0 ≤ exponent then (units, unitsPerOne * Nat.pow 10 exponent.toNat)
  else (units * Nat.pow 10 (-exponent).toNat, unitsPerOne)

/-- The two neighbours of a count of units on a decimal grid, the nearer one first. -/
def neighbours (units : Nat) (exponent : Int) : List Decimal :=
  let (num, den) := gridRatio units exponent
  let below := num / den
  if roundDiv num den = below then [⟨below, exponent⟩, ⟨below + 1, exponent⟩]
  else [⟨below + 1, exponent⟩, ⟨below, exponent⟩]

/-- The neighbours on the grids of one to seventeen digits, coarse grids first. -/
def shortCandidates (units : Nat) : List Decimal :=
  (List.range 17).flatMap fun (n : Nat) => neighbours units (leadingExponent units - n)

/-- All digits of a count of units. -/
def exactDecimal (units : Nat) : Decimal :=
  ⟨units * Nat.pow 5 unitExponent, -unitExponent⟩

/-- The decimal with the fewest digits that reads back as the given count of units. -/
def shortest (negative : Bool) (units : Nat) (h : Representable units) : Decimal :=
  ((shortCandidates units).find? fun d => ofDecimal negative d = .finite negative units h).getD
    (exactDecimal units)

/-- A decimal with digits behind the point, not too far behind it, is a quotient. -/
theorem ofDecimal_of_neg (negative : Bool) {digits k : Nat} (h0 : digits ≠ 0) (hpos : 0 < k)
    (hnear : k ≤ 1100) :
    ofDecimal negative ⟨digits, -k⟩ = ofRatio negative digits (Nat.pow 10 k) := by
  have htop : ¬ (310 ≤ -(k : Int)) := by omega
  have hlow : ¬ (-(k : Int) < -(1100 + (digits.log2 : Int))) := by omega
  have hneg : ¬ (0 ≤ -(k : Int)) := by omega
  simp only [ofDecimal, h0, htop, hlow, hneg, if_false, Int.neg_neg, Int.toNat_natCast]

/-- Halvings of one are tenths with the power of five among the digits. -/
theorem ofUnitRatio_five_pow (negative : Bool) {units : Nat} (h : Representable units) (k : Nat) :
    ofUnitRatio negative (units * Nat.pow 5 k * Nat.pow 2 k) (Nat.pow 10 k)
      = .finite negative units h := by
  have hpow : units * Nat.pow 5 k * Nat.pow 2 k = units * Nat.pow 10 k := by
    rw [Nat.mul_assoc]
    simp only [Nat.pow_eq, ← Nat.mul_pow]
  rw [hpow]
  exact ofUnitRatio_mul_self negative h (Nat.pow_pos (by decide))

/-- All digits of a number read back as that number. -/
theorem ofDecimal_exactDecimal (negative : Bool) (units : Nat) (h : Representable units) :
    ofDecimal negative (exactDecimal units) = .finite negative units h := by
  by_cases h0 : units = 0
  · subst h0
    simpa [ofDecimal, exactDecimal, zero] using ofUnitRatio_mul_self negative h Nat.one_pos
  -- a unit is `5 ^ 1074` in steps of `10 ^ (-1074)`
  · have hfive (k : Nat) : units * Nat.pow 5 k ≠ 0 :=
      Nat.mul_ne_zero h0 (Nat.ne_of_gt (Nat.pow_pos (by decide)))
    unfold exactDecimal
    refine (ofDecimal_of_neg negative (hfive unitExponent) (by decide) (by decide)).trans ?_
    unfold ofRatio unitsPerOne
    exact ofUnitRatio_five_pow negative h unitExponent

/-- The shortest decimal of a number reads back as that number. -/
theorem ofDecimal_shortest (negative : Bool) (units : Nat) (h : Representable units) :
    ofDecimal negative (shortest negative units h) = .finite negative units h := by
  unfold shortest
  cases hfind : (shortCandidates units).find? fun d => ofDecimal negative d = .finite negative units h with
  | none => exact ofDecimal_exactDecimal negative units h
  | some d => simpa using List.find?_some hfind

/-! ## The written form -/

/-- Digits without trailing zeros, and the place of the point counted from their start. -/
def significand (d : Decimal) : List Char × Int :=
  let digits := Text.decimalText d.digits
  let kept := (digits.reverse.dropWhile (· = '0')).reverse
  (if kept.isEmpty then ['0'] else kept, digits.length + d.exponent)

/-- Digits with the point among them or zeros up to it; a whole number ends in `.0`. -/
def positionalText (digits : List Char) (point : Int) : List Char :=
  if point ≤ 0 then '0' :: '.' :: List.replicate (-point).toNat '0' ++ digits
  else if point < digits.length then digits.take point.toNat ++ '.' :: digits.drop point.toNat
  else digits ++ List.replicate (point.toNat - digits.length) '0' ++ ['.', '0']

/-- One digit before the point and a power of ten of at least two digits. -/
def scientificText (digits : List Char) (point : Int) : List Char :=
  let exponent := point - 1
  let power := Text.decimalText exponent.natAbs
  let mantissa := match digits with
    | [] => ['0']
    | [d] => [d]
    | d :: rest => d :: '.' :: rest
  mantissa ++ 'e' :: (if exponent < 0 then '-' else '+')
    :: List.replicate (2 - power.length) '0' ++ power

/-- The written form of a number: the fewest digits that read back, positional from `10⁻⁴` to `10¹⁶`. -/
def text : Binary64 → List Char
  | .nan => ['n', 'a', 'n']
  | .infinite negative => (if negative then ['-'] else []) ++ ['i', 'n', 'f']
  | .finite negative units h =>
    let magnitude :=
      if units = 0 then ['0', '.', '0']
      else
        let (digits, point) := significand (shortest negative units h)
        if -4 < point ∧ point ≤ 16 then positionalText digits point
        else scientificText digits point
    (if negative then ['-'] else []) ++ magnitude

end Binary64

end LockScreen
