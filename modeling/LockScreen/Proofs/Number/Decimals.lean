import LockScreen.Proofs.Number.Wholes
import Mathlib.Tactic.SplitIfs

/-!
# Decimals by their value

A decimal is read as the number nearest to it, and which number that is depends on its value alone: reading
never looks at the form (`ofDecimal_eq_ofRatio`), so zeros may move from the digits to the power of ten
(`ofDecimal_mul_pow`). Decimals that are not multiplied out because they lie far outside the range come to what
multiplying them out would give.
-/

namespace LockScreen

/-! ## Rounding a fraction -/

/-- Rounding depends on the value of a fraction alone. -/
theorem roundDiv_mul_mul (num den : Nat) {c : Nat} (hc : 0 < c) :
    roundDiv (num * c) (den * c) = roundDiv num den := by
  have hrest : 2 * (num % den * c) = 2 * (num % den) * c := by rw [Nat.mul_assoc]
  unfold roundDiv
  rw [Nat.mul_div_mul_right num den hc, Nat.mul_mod_mul_right]
  simp only [hrest, Nat.mul_lt_mul_right hc]

theorem roundToPrecision_mul_mul (num den : Nat) {c : Nat} (hc : 0 < c) :
    roundToPrecision (num * c) (den * c) = roundToPrecision num den := by
  have hstep : precisionStep (num * c) (den * c) = precisionStep num den := by
    rw [precisionStep, precisionStep, Nat.mul_div_mul_right num den hc]
  rw [roundToPrecision, hstep, Nat.mul_right_comm, roundDiv_mul_mul _ _ hc, roundToPrecision]

/-- Nothing that reaches a power of two is rounded below it. -/
theorem le_roundToPrecision {num den k : Nat} (h : Nat.pow 2 k ≤ num / den) :
    Nat.pow 2 k ≤ roundToPrecision num den := by
  have hne : num / den ≠ 0 := fun h0 => by
    rw [h0] at h
    exact absurd h (Nat.not_le.2 (Nat.two_pow_pos k))
  have hlog : k ≤ (num / den).log2 := (Nat.le_log2 hne).2 h
  have hsplit : (num / den).log2 = ((num / den).log2 - ((num / den).log2 - 52))
      + ((num / den).log2 - 52) := by omega
  -- the leading digit of the quotient is a whole number of steps
  have hlead : 2 ^ ((num / den).log2 - ((num / den).log2 - 52))
      ≤ roundDiv num (den * precisionStep num den) := by
    refine Nat.le_trans ?_ (le_roundDiv _ _)
    rw [← Nat.div_div_eq_div_mul, precisionStep, Nat.pow_eq,
      Nat.le_div_iff_mul_le (Nat.two_pow_pos _), ← Nat.pow_add, ← hsplit]
    exact Nat.log2_self_le hne
  calc 2 ^ k ≤ 2 ^ (num / den).log2 := Nat.pow_le_pow_right (by decide) hlog
    _ = 2 ^ ((num / den).log2 - ((num / den).log2 - 52)) * precisionStep num den := by
        rw [precisionStep, Nat.pow_eq, ← Nat.pow_add, ← hsplit]
    _ ≤ roundToPrecision num den := Nat.mul_le_mul_right _ hlead

/-- Less than half is rounded to nothing. -/
theorem roundToPrecision_eq_zero {num den : Nat} (h : 2 * num < den) : roundToPrecision num den = 0 := by
  have hlt : num < den := by omega
  have hstep : precisionStep num den = 1 := by
    rw [precisionStep, Nat.div_eq_of_lt hlt]
    rfl
  unfold roundToPrecision
  rw [hstep, Nat.mul_one, Nat.mul_one]
  simp [roundDiv, Nat.mod_eq_of_lt hlt, Nat.div_eq_of_lt hlt, h]

namespace Binary64

theorem ofRatio_mul_mul (negative : Bool) (num den : Nat) {c : Nat} (hc : 0 < c) :
    ofRatio negative (num * c) (den * c) = ofRatio negative num den := by
  unfold ofRatio ofUnitRatio
  rw [Nat.mul_right_comm]
  simp only [roundToPrecision_mul_mul _ _ hc]

theorem ofRatio_of_small (negative : Bool) {num den : Nat} (h : 2 * (num * unitsPerOne) < den) :
    ofRatio negative num den = zero negative := by
  have hzero : roundToPrecision 0 1 = 0 := roundToPrecision_eq_zero (by decide)
  unfold ofRatio zero ofUnitRatio
  simp only [roundToPrecision_eq_zero h, hzero]

theorem representable_zero : Representable 0 := by
  refine ⟨Nat.dvd_zero _, ?_⟩
  unfold unitLimit
  exact Nat.two_pow_pos 2098

theorem zero_eq (negative : Bool) : zero negative = .finite negative 0 representable_zero := by
  have hself := ofUnitRatio_mul_self negative representable_zero Nat.one_pos
  rwa [Nat.zero_mul] at hself

theorem ofRatio_of_large (negative : Bool) {num : Nat} (h : Nat.pow 2 1024 ≤ num) :
    ofRatio negative num 1 = .infinite negative := by
  have hunits : unitLimit ≤ num * unitsPerOne / 1 := by
    rw [Nat.div_one, ← unitLimit_eq]
    exact Nat.mul_le_mul_right _ h
  have hlimit : unitLimit ≤ roundToPrecision (num * unitsPerOne) 1 :=
    le_roundToPrecision (k := 2098) hunits
  unfold ofRatio ofUnitRatio
  rw [dif_neg (Nat.not_lt.2 hlimit)]

/-! ## Reading a decimal -/

/-- A decimal without digits is zero, whatever its power of ten. -/
theorem ofDecimal_of_digits_eq_zero (negative : Bool) {d : Decimal} (h : d.digits = 0) :
    ofDecimal negative d = .finite negative 0 representable_zero := by
  rw [ofDecimal, if_pos h, zero_eq]

/-- A decimal as a fraction. -/
def ratio (d : Decimal) : Nat × Nat :=
  if 0 ≤ d.exponent then (d.digits * Nat.pow 10 d.exponent.toNat, 1)
  else (d.digits, Nat.pow 10 (-d.exponent).toNat)

/-- A decimal is read as the number nearest to it, also where it is not multiplied out. -/
theorem ofDecimal_eq_ofRatio (negative : Bool) (d : Decimal) :
    ofDecimal negative d = ofRatio negative (ratio d).1 (ratio d).2 := by
  unfold ofDecimal
  split_ifs with hzero hlarge hsmall hwhole
  · have hnum : (ratio d).1 = 0 := by
      unfold ratio
      split
      · rw [hzero, Nat.zero_mul]
      · exact hzero
    have hden : 0 < (ratio d).2 := by
      unfold ratio
      split
      · exact Nat.one_pos
      · exact Nat.pow_pos (by decide)
    refine (ofRatio_of_small negative ?_).symm
    rwa [hnum, Nat.zero_mul]
  · have hwhole : 0 ≤ d.exponent := by omega
    have hnum : Nat.pow 2 1024 ≤ d.digits * Nat.pow 10 d.exponent.toNat := by
      calc Nat.pow 2 1024 ≤ Nat.pow 10 310 := by decide +kernel
        _ ≤ Nat.pow 10 d.exponent.toNat := Nat.pow_le_pow_right (by decide) (by omega)
        _ ≤ d.digits * Nat.pow 10 d.exponent.toNat :=
            Nat.le_mul_of_pos_left _ (Nat.pos_of_ne_zero hzero)
    rw [ratio, if_pos hwhole]
    exact (ofRatio_of_large negative hnum).symm
  · have hfraction : ¬0 ≤ d.exponent := by omega
    rw [ratio, if_neg hfraction]
    refine (ofRatio_of_small negative ?_).symm
    have hdigits : d.digits < 2 ^ (d.digits.log2 + 1) := Nat.lt_log2_self
    calc 2 * (d.digits * unitsPerOne)
        < 2 * (2 ^ (d.digits.log2 + 1) * unitsPerOne) :=
          Nat.mul_lt_mul_of_pos_left (Nat.mul_lt_mul_of_pos_right hdigits (Nat.two_pow_pos _)) (by decide)
      _ = 2 ^ (1 + (d.digits.log2 + 1 + unitExponent)) := by
          rw [unitsPerOne, Nat.pow_eq, ← Nat.pow_add, Nat.pow_add 2 1]
      _ ≤ 10 ^ (1 + (d.digits.log2 + 1 + unitExponent)) := Nat.pow_le_pow_left (by decide) _
      _ ≤ 10 ^ (-d.exponent).toNat :=
          Nat.pow_le_pow_right (by decide) (by rw [unitExponent]; omega)
  · rw [ratio, if_pos hwhole]
  · rw [ratio, if_neg hwhole]

/-- Zeros at the end of the digits belong to the power of ten. -/
theorem ofDecimal_mul_pow (negative : Bool) (m k : Nat) (e : Int) :
    ofDecimal negative ⟨m * Nat.pow 10 k, e⟩ = ofDecimal negative ⟨m, e + k⟩ := by
  have hten (n : Nat) : 0 < Nat.pow 10 n := Nat.pow_pos (by decide)
  rw [ofDecimal_eq_ofRatio, ofDecimal_eq_ofRatio]
  unfold ratio
  dsimp only
  split_ifs with hwhole hsum hsum
  · have hexponent : (e + k).toNat = k + e.toNat := by omega
    rw [hexponent, Nat.mul_assoc]
    simp only [Nat.pow_eq, Nat.pow_add]
  · omega
  · have hexponent : k = (e + k).toNat + (-e).toNat := by omega
    have hnum : m * Nat.pow 10 k = m * Nat.pow 10 (e + k).toNat * Nat.pow 10 (-e).toNat := by
      rw [Nat.mul_assoc]
      simp only [Nat.pow_eq, ← Nat.pow_add, ← hexponent]
    have hratio := ofRatio_mul_mul negative (m * Nat.pow 10 (e + k).toNat) 1 (hten (-e).toNat)
    rw [Nat.one_mul] at hratio
    rw [hnum]
    exact hratio
  · have hexponent : (-e).toNat = (-(e + k)).toNat + k := by omega
    have hden : Nat.pow 10 (-e).toNat = Nat.pow 10 (-(e + k)).toNat * Nat.pow 10 k := by
      rw [hexponent]
      exact Nat.pow_add 10 _ k
    rw [hden]
    exact ofRatio_mul_mul negative _ _ (hten _)

end Binary64

end LockScreen
