import LockScreen.Decimal

/-!
# Whole binary64 numbers

The integers that are binary64 numbers. They are exactly what is left of such numbers when a fraction is cut
off (`isWhole_of_truncate`), and they come back unchanged from a conversion and a cut (`truncate_ofInt?`), so a
rate that was taken from a payload once is taken from it again.
-/

namespace LockScreen

/-- Cutting off the last digits of a count leaves no more significant ones. -/
theorem hasPrecision_div_mul {units : Nat} (h : HasPrecision units) (k : Nat) :
    HasPrecision (units / Nat.pow 2 k * Nat.pow 2 k) := by
  rcases Nat.lt_or_ge (units.log2 - 52) k with hk | hk
  · -- what is left is small enough for every integer to be a number
    refine hasPrecision_mul_two_pow ?_
    have hunits : units < 2 ^ (units.log2 + 1) := Nat.lt_log2_self
    have hexponent : units.log2 + 1 ≤ k + 53 := by omega
    refine Nat.le_of_lt (Nat.div_lt_of_lt_mul (Nat.lt_of_lt_of_le hunits ?_))
    simp only [Nat.pow_eq, ← Nat.pow_add]
    exact Nat.pow_le_pow_right (by decide) hexponent
  · -- there was no fraction to cut off
    have hdvd : Nat.pow 2 k ∣ units := Nat.dvd_trans (Nat.pow_dvd_pow 2 hk) h
    rwa [Nat.div_mul_cancel hdvd]

/-- A power of two in units. -/
theorem two_pow_mul_unitsPerOne {k n : Nat} (h : n = k + unitExponent) :
    Nat.pow 2 k * unitsPerOne = Nat.pow 2 n := by
  rw [h]
  exact (Nat.pow_add 2 k unitExponent).symm

theorem unitLimit_eq : Nat.pow 2 1024 * unitsPerOne = unitLimit :=
  two_pow_mul_unitsPerOne (by decide)

namespace Binary64

theorem unitsPerOne_pos : 0 < unitsPerOne := by
  rw [unitsPerOne, Nat.pow_eq]
  exact Nat.two_pow_pos _

/-- An integer that is a binary64 number. -/
def IsWhole (i : Int) : Prop :=
  Representable (i.natAbs * unitsPerOne)

theorem natAbs_signed (negative : Bool) (magnitude : Nat) :
    (signed negative magnitude).natAbs = magnitude := by
  unfold signed
  split
  · exact Int.natAbs_neg _
  · rfl

theorem signed_natAbs_of_neg {i : Int} (h : i < 0) : signed true i.natAbs = i := by
  simp only [signed, if_true]
  omega

theorem signed_natAbs_of_not_neg {i : Int} (h : ¬i < 0) : signed false i.natAbs = i := by
  simp only [signed, Bool.false_eq_true, if_false]
  omega

/-- An integer is its size with its sign. -/
theorem signed_natAbs (i : Int) : signed (decide (i < 0)) i.natAbs = i := by
  by_cases h : i < 0
  · rw [decide_eq_true h, signed_natAbs_of_neg h]
  · rw [decide_eq_false h, signed_natAbs_of_not_neg h]

/-- What is left of a number without its fraction is a number. -/
theorem isWhole_of_truncate {x : Binary64} {i : Int} (h : x.truncate = .ok i) : IsWhole i := by
  cases x with
  | nan => cases h
  | infinite negative => cases h
  | finite negative units hunits =>
    obtain rfl : signed negative (units / unitsPerOne) = i := Except.ok.inj h
    rw [IsWhole, natAbs_signed]
    exact ⟨hasPrecision_div_mul hunits.1 unitExponent,
      Nat.lt_of_le_of_lt (Nat.div_mul_le_self _ _) hunits.2⟩

/-- A small integer is a number. -/
theorem isWhole_of_le {i : Int} (h : i.natAbs ≤ Nat.pow 2 53) : IsWhole i := by
  refine ⟨hasPrecision_mul_two_pow h, ?_⟩
  have hlimit : Nat.pow 2 53 < Nat.pow 2 1024 := Nat.pow_lt_pow_right (by decide) (by decide)
  rw [← unitLimit_eq]
  exact Nat.mul_lt_mul_of_pos_right (Nat.lt_of_le_of_lt h hlimit) (Nat.two_pow_pos _)

theorem ofInt_of_isWhole {i : Int} (h : IsWhole i) :
    ofInt i = .finite (decide (i < 0)) (i.natAbs * unitsPerOne) h := by
  have hself := ofUnitRatio_mul_self (decide (i < 0)) h Nat.one_pos
  rwa [Nat.mul_one] at hself

/-- A whole number lies between the bounds that it lies between as an integer. -/
theorem isBetween_ofInt {n low high : Nat} (h : IsWhole n) (hlow : low ≤ n) (hhigh : n ≤ high) :
    (ofInt n).isBetween low high = true := by
  have hsign : decide ((n : Int) < 0) = false := decide_eq_false (Int.not_lt.2 (Int.natCast_nonneg n))
  have hlowUnits : low * unitsPerOne ≤ n * unitsPerOne := Nat.mul_le_mul_right _ hlow
  have hhighUnits : n * unitsPerOne ≤ high * unitsPerOne := Nat.mul_le_mul_right _ hhigh
  rw [ofInt_of_isWhole h]
  simp only [isBetween, hsign, Int.natAbs_natCast, hlowUnits, hhighUnits, Bool.not_false, Bool.true_or,
    decide_true, Bool.and_self]

/-- A number between positive bounds is finite and has no sign. -/
theorem exists_of_isBetween {x : Binary64} {low high : Nat} (hpos : 0 < low) (h : x.isBetween low high = true) :
    ∃ units hunits, x = .finite false units hunits ∧ low * unitsPerOne ≤ units ∧ units ≤ high * unitsPerOne := by
  cases x with
  | nan => cases h
  | infinite negative => cases h
  | finite negative units hunits =>
    simp only [isBetween, Bool.and_eq_true, decide_eq_true_eq] at h
    obtain ⟨⟨hsign, hlow⟩, hhigh⟩ := h
    have hne : units ≠ 0 := Nat.ne_of_gt (Nat.lt_of_lt_of_le (Nat.mul_pos hpos unitsPerOne_pos) hlow)
    have hpositive : negative = false := by simpa [hne] using hsign
    subst hpositive
    exact ⟨units, hunits, rfl, hlow, hhigh⟩

/-- A whole number comes back from a conversion and a cut. -/
theorem truncate_ofInt? {i : Int} (h : IsWhole i) : (do (← ofInt? i).truncate) = .ok i := by
  have hquotient : i.natAbs * unitsPerOne / unitsPerOne = i.natAbs :=
    Nat.mul_div_cancel _ (Nat.two_pow_pos _)
  unfold ofInt?
  rw [ofInt_of_isWhole h]
  exact congrArg Except.ok ((congrArg (signed _) hquotient).trans (signed_natAbs i))

/-- A whole number has no more than 1024 binary digits. -/
theorem natAbs_lt_of_isWhole {i : Int} (h : IsWhole i) : i.natAbs < Nat.pow 2 1024 := by
  have hunits := h.2
  rw [← unitLimit_eq] at hunits
  exact Nat.lt_of_mul_lt_mul_right hunits

end Binary64

end LockScreen
