/-!
# UTF-16 units

The units of 16 bits in which escapes spell a text. A code point beyond `0xFFFF` is spelled by a pair of
units, its halves; a half that stands alone is no character. `pointsOfUnits_unitsOf` says that the units of
a code point read back as that code point.
-/

namespace LockScreen.Text

/-- The first half of a pair. -/
def isLeadUnit (unit : Nat) : Bool := 0xD800 ≤ unit && unit < 0xDC00

/-- The second half of a pair. -/
def isTrailUnit (unit : Nat) : Bool := 0xDC00 ≤ unit && unit < 0xE000

/-- The code point that a pair spells. -/
def pointOfPair (lead trail : Nat) : Nat :=
  0x10000 + (lead - 0xD800) * 0x400 + (trail - 0xDC00)

/-- The units that spell a code point. -/
def unitsOf (point : Nat) : List Nat :=
  if point < 0x10000 then [point]
  else [0xD800 + (point - 0x10000) / 0x400, 0xDC00 + (point - 0x10000) % 0x400]

/-- The code points that units spell; a half that stands alone stays as it is. -/
def pointsOfUnits : List Nat → List Nat
  | lead :: trail :: rest =>
    if isLeadUnit lead && isTrailUnit trail then pointOfPair lead trail :: pointsOfUnits rest
    else lead :: pointsOfUnits (trail :: rest)
  | units => units

/-- A pair of halves reads back. -/
theorem pointOfPair_halves (high low : Nat) :
    pointOfPair (0xD800 + high) (0xDC00 + low) = 0x10000 + (high * 0x400 + low) := by
  unfold pointOfPair
  omega

/-- The units of a code point read back. -/
theorem pointsOfUnits_unitsOf {point : Nat} (h : point < 0x110000) :
    pointsOfUnits (unitsOf point) = [point] := by
  rcases Nat.lt_or_ge point 0x10000 with hunit | hunit
  · rw [unitsOf, if_pos hunit]
    rfl
  · rw [unitsOf, if_neg (Nat.not_lt.2 hunit)]
    -- both halves are in their ranges
    have hlead : isLeadUnit (0xD800 + (point - 0x10000) / 0x400) = true := by
      simp only [isLeadUnit, Bool.and_eq_true, decide_eq_true_eq]
      omega
    have htrail : isTrailUnit (0xDC00 + (point - 0x10000) % 0x400) = true := by
      simp only [isTrailUnit, Bool.and_eq_true, decide_eq_true_eq]
      omega
    have hpoint := Nat.add_sub_cancel' hunit
    rw [← Nat.div_add_mod' (point - 0x10000) 0x400, ← pointOfPair_halves] at hpoint
    simp only [pointsOfUnits, hlead, htrail, Bool.and_self, if_true, hpoint]

end LockScreen.Text
