import LockScreen.Proofs.Number.Range

/-!
# Rounding to binary64

A larger count never rounds to a smaller one (`roundToPrecision_mono`), and a rounded count misses the count by one
part in `2⁵³` at most (`isNear_roundToPrecision`). Rounding looks at the leading digits alone, so zeros behind them
stay (`roundToPrecision_mul_two_pow`).

So an integer that is converted and cut off again becomes the nearest one of 53 significant bits (`nearestInt`), or
overflows where it is `Huge` (`truncate_ofInt?_eq`). It is the same integer exactly if it has no more bits itself
(`nearestInt_eq_self_iff`).
-/

namespace LockScreen

/-! ## Rounding is monotone -/

theorem roundDiv_mono {m n den : Nat} (h : m ≤ n) : roundDiv m den ≤ roundDiv n den := by
  rcases Nat.lt_or_ge (m / den) (n / den) with hlt | hge
  · exact Nat.le_trans (roundDiv_le m den) (Nat.le_trans hlt (le_roundDiv n den))
  · have hquotient : m / den = n / den := Nat.le_antisymm (Nat.div_le_div_right h) hge
    have hm := Nat.div_add_mod m den
    have hn := Nat.div_add_mod n den
    rw [hquotient] at hm
    have hrest : m % den ≤ n % den := by omega
    unfold roundDiv
    rw [hquotient]
    dsimp only
    split
    · split_ifs <;> omega
    · split_ifs <;> omega

theorem log2_le_log2 {m n : Nat} (h : m ≤ n) : m.log2 ≤ n.log2 := by
  by_cases hzero : m = 0
  · rw [hzero, Nat.log2_zero]
    exact Nat.zero_le _
  · have hne : n ≠ 0 := by omega
    exact (Nat.le_log2 hne).2 (Nat.le_trans (Nat.log2_self_le hzero) h)

/-- A larger count never rounds to a smaller one: within a binade the step is the same, and the power of two between
two binades separates what they round to. -/
theorem roundToPrecision_mono {m n den : Nat} (h : m ≤ n) : roundToPrecision m den ≤ roundToPrecision n den := by
  have hquotient : m / den ≤ n / den := Nat.div_le_div_right h
  rcases Nat.eq_or_lt_of_le (log2_le_log2 hquotient) with hsame | hlt
  · have hstep : precisionStep m den = precisionStep n den := by rw [precisionStep, precisionStep, hsame]
    rw [roundToPrecision, roundToPrecision, hstep]
    exact Nat.mul_le_mul_right _ (roundDiv_mono h)
  · have hne : n / den ≠ 0 := by
      intro hzero
      rw [hzero, Nat.log2_zero] at hlt
      omega
    have hbelow : m / den < Nat.pow 2 (n / den).log2 :=
      Nat.lt_of_lt_of_le Nat.lt_log2_self (Nat.pow_le_pow_right (by decide) hlt)
    have habove : Nat.pow 2 (n / den).log2 ≤ n / den := Nat.log2_self_le hne
    exact Nat.le_trans (roundToPrecision_le hbelow) (le_roundToPrecision habove)

/-! ## Rounding is near -/

/-- A rounded quotient misses the quotient by half of one at most. -/
theorem two_mul_roundDiv (num : Nat) {den : Nat} (hden : 0 < den) :
    2 * (den * roundDiv num den) ≤ 2 * num + den ∧ 2 * num ≤ 2 * (den * roundDiv num den) + den := by
  have hdivision := Nat.div_add_mod num den
  have hrest := Nat.mod_lt num hden
  have hnext : den * (num / den + 1) = den * (num / den) + den := Nat.mul_succ _ _
  unfold roundDiv
  dsimp only
  split_ifs
  · omega
  · rw [hnext]
    omega
  · rcases Nat.mod_two_eq_zero_or_one (num / den) with heven | hodd
    · rw [heven, Nat.add_zero]
      omega
    · rw [hodd, hnext]
      omega

/-- What is nearer to a multiple than half of one is rounded to it. -/
theorem roundDiv_eq {num den q : Nat} (hlow : 2 * (q * den) < 2 * num + den) (hhigh : 2 * num < 2 * (q * den) + den) :
    roundDiv num den = q := by
  have hden : 0 < den := by omega
  obtain ⟨habove, hbelow⟩ := two_mul_roundDiv num hden
  rw [Nat.mul_comm den] at habove hbelow
  have hle : roundDiv num den * den < (q + 1) * den := by rw [Nat.succ_mul]; omega
  have hge : q * den < (roundDiv num den + 1) * den := by rw [Nat.succ_mul]; omega
  have hle := Nat.lt_of_mul_lt_mul_right hle
  have hge := Nat.lt_of_mul_lt_mul_right hge
  omega

/-- A count misses another by one part in `2⁵³` at most. -/
def IsNear (m n : Nat) : Prop :=
  Nat.pow 2 53 * m ≤ Nat.pow 2 53 * n + n ∧ Nat.pow 2 53 * n ≤ Nat.pow 2 53 * m + n

/-- A rounded quotient is a whole number of steps. -/
theorem mul_roundToPrecision (num den : Nat) :
    den * roundToPrecision num den = den * precisionStep num den * roundDiv num (den * precisionStep num den) := by
  rw [roundToPrecision, Nat.mul_comm (roundDiv _ _), Nat.mul_assoc]

/-- A quotient of at least 53 binary digits is rounded to one that is near. -/
theorem isNear_roundToPrecision {num den : Nat} (hden : 0 < den) (h : Nat.pow 2 52 ≤ num / den) :
    IsNear (den * roundToPrecision num den) num := by
  unfold IsNear
  simp only [Nat.pow_eq] at h ⊢
  have hne : num / den ≠ 0 := by
    intro hzero
    rw [hzero] at h
    omega
  have hlog : 52 ≤ (num / den).log2 := (Nat.le_log2 hne).2 h
  have hstep : den * precisionStep num den * 2 ^ 52 ≤ num := by
    have hpow : precisionStep num den * 2 ^ 52 = 2 ^ (num / den).log2 := by
      rw [precisionStep, Nat.pow_eq, ← Nat.pow_add, Nat.sub_add_cancel hlog]
    calc den * precisionStep num den * 2 ^ 52 = den * 2 ^ (num / den).log2 := by rw [Nat.mul_assoc, hpow]
      _ ≤ den * (num / den) := Nat.mul_le_mul_left _ (Nat.log2_self_le hne)
      _ ≤ num := Nat.mul_div_le num den
  have hpos : 0 < den * precisionStep num den := Nat.mul_pos hden (Nat.two_pow_pos _)
  obtain ⟨habove, hbelow⟩ := two_mul_roundDiv num hpos
  rw [mul_roundToPrecision]
  omega

/-! ## Zeros behind the digits -/

/-- A count below `2⁵³` has no digits to lose. -/
theorem hasPrecision_of_le {n : Nat} (h : n ≤ Nat.pow 2 53) : HasPrecision n := by
  have hself : HasPrecision (n * Nat.pow 2 0) := hasPrecision_mul_two_pow h
  rwa [Nat.pow_eq, Nat.pow_zero, Nat.mul_one] at hself

theorem roundToPrecision_of_hasPrecision {n : Nat} (h : HasPrecision n) : roundToPrecision n 1 = n := by
  have hself := roundToPrecision_mul_self h Nat.one_pos
  rwa [Nat.mul_one] at hself

theorem log2_mul_two_pow {n : Nat} (hn : n ≠ 0) (k : Nat) : (n * Nat.pow 2 k).log2 = n.log2 + k := by
  have hpos : 0 < Nat.pow 2 k := Nat.two_pow_pos k
  have hlow : Nat.pow 2 (n.log2 + k) ≤ n * Nat.pow 2 k := by
    calc Nat.pow 2 (n.log2 + k) = Nat.pow 2 n.log2 * Nat.pow 2 k := Nat.pow_add 2 _ k
      _ ≤ n * Nat.pow 2 k := Nat.mul_le_mul_right _ (Nat.log2_self_le hn)
  have hhigh : n * Nat.pow 2 k < Nat.pow 2 (n.log2 + k + 1) := by
    calc n * Nat.pow 2 k < Nat.pow 2 (n.log2 + 1) * Nat.pow 2 k := Nat.mul_lt_mul_of_pos_right Nat.lt_log2_self hpos
      _ = Nat.pow 2 (n.log2 + 1 + k) := (Nat.pow_add 2 _ k).symm
      _ = Nat.pow 2 (n.log2 + k + 1) := by rw [Nat.add_right_comm]
  exact (Nat.log2_eq_iff (Nat.mul_ne_zero hn (Nat.ne_of_gt hpos))).mpr ⟨hlow, hhigh⟩

/-- Zeros behind the digits are no digits to be rounded. -/
theorem roundToPrecision_mul_two_pow (n k : Nat) :
    roundToPrecision (n * Nat.pow 2 k) 1 = roundToPrecision n 1 * Nat.pow 2 k := by
  rcases Nat.lt_or_ge n (Nat.pow 2 53) with hshort | hlong
  · rw [roundToPrecision_of_hasPrecision (hasPrecision_mul_two_pow (Nat.le_of_lt hshort)),
      roundToPrecision_of_hasPrecision (hasPrecision_of_le (Nat.le_of_lt hshort))]
  · -- the step grows with the count, and both with the same factor
    have hne : n ≠ 0 := Nat.ne_of_gt (Nat.lt_of_lt_of_le (Nat.two_pow_pos 53) hlong)
    have hlog : 53 ≤ n.log2 := (Nat.le_log2 hne).2 hlong
    have hstep : precisionStep (n * Nat.pow 2 k) 1 = precisionStep n 1 * Nat.pow 2 k := by
      have hexponent : n.log2 + k - 52 = n.log2 - 52 + k := by omega
      rw [precisionStep, precisionStep, Nat.div_one, Nat.div_one, log2_mul_two_pow hne, hexponent]
      exact Nat.pow_add 2 _ k
    have hpos : 0 < Nat.pow 2 k := Nat.two_pow_pos k
    rw [roundToPrecision, roundToPrecision, hstep, Nat.one_mul, Nat.one_mul, roundDiv_mul_mul _ _ hpos,
      Nat.mul_assoc]

theorem roundToPrecision_mul_unitsPerOne (n : Nat) :
    roundToPrecision (n * unitsPerOne) 1 = roundToPrecision n 1 * unitsPerOne :=
  roundToPrecision_mul_two_pow n unitExponent

/-! ## Integers -/

namespace Binary64

theorem exists_ofUnitRatio (negative : Bool) {num den : Nat} (h : roundToPrecision num den < unitLimit) :
    ∃ hrounded, ofUnitRatio negative num den = finite negative (roundToPrecision num den) hrounded := by
  unfold ofUnitRatio
  rw [dif_pos h]
  exact ⟨_, rfl⟩

/-- The integer of at most 53 significant bits that is nearest to an integer. -/
def nearestInt (i : Int) : Int :=
  signed (decide (i < 0)) (roundToPrecision i.natAbs 1)

/-- An integer that is converted and cut off again becomes the nearest one that is a number, unless it overflows. -/
theorem truncate_ofInt?_eq {i : Int} (h : ¬Huge i) : (do (← ofInt? i).truncate) = .ok (nearestInt i) := by
  have hfinite := isFinite_ofInt_iff.mpr h
  rw [ofInt, ofRatio, isFinite_ofUnitRatio_iff] at hfinite
  obtain ⟨_, hrounded⟩ := exists_ofUnitRatio (decide (i < 0)) hfinite
  have hunits : roundToPrecision (i.natAbs * unitsPerOne) 1 / unitsPerOne = roundToPrecision i.natAbs 1 := by
    rw [roundToPrecision_mul_unitsPerOne, Nat.mul_div_cancel _ unitsPerOne_pos]
  rw [ofInt?_of_not_huge h, ofInt, ofRatio, hrounded]
  exact congrArg (fun size => Except.ok (signed (decide (i < 0)) size)) hunits

theorem nearestInt_eq_self_iff {i : Int} : nearestInt i = i ↔ HasPrecision i.natAbs := by
  constructor
  · intro h
    have hsize : roundToPrecision i.natAbs 1 = i.natAbs := by
      rw [← natAbs_signed (decide (i < 0)) (roundToPrecision i.natAbs 1)]
      exact congrArg Int.natAbs h
    rw [← hsize]
    exact hasPrecision_roundToPrecision _ _
  · intro h
    rw [nearestInt, roundToPrecision_of_hasPrecision h, signed_natAbs]

/-- The nearest integer is its own nearest integer. -/
theorem nearestInt_nearestInt (i : Int) : nearestInt (nearestInt i) = nearestInt i := by
  rw [nearestInt_eq_self_iff, nearestInt, natAbs_signed]
  exact hasPrecision_roundToPrecision _ _

theorem nearestInt_natCast (n : Nat) : nearestInt n = roundToPrecision n 1 := by
  rw [nearestInt, decide_eq_false (Int.not_lt.2 (Int.natCast_nonneg n)), Int.natAbs_natCast]
  rfl

theorem nearestInt_pos {i : Int} (h : 0 < i) : 0 < nearestInt i := by
  obtain ⟨n, rfl⟩ := Int.eq_ofNat_of_zero_le (Int.le_of_lt h)
  have hone : Nat.pow 2 0 ≤ n / 1 := by
    rw [Nat.div_one]
    show 1 ≤ n
    omega
  have hrounded : 1 ≤ roundToPrecision n 1 := le_roundToPrecision hone
  rw [nearestInt_natCast]
  omega

theorem nearestInt_mono {i j : Int} (hi : 0 ≤ i) (h : i ≤ j) : nearestInt i ≤ nearestInt j := by
  obtain ⟨m, rfl⟩ := Int.eq_ofNat_of_zero_le hi
  obtain ⟨n, rfl⟩ := Int.eq_ofNat_of_zero_le (Int.le_trans hi h)
  rw [nearestInt_natCast, nearestInt_natCast]
  exact Int.ofNat_le.mpr (roundToPrecision_mono (Int.ofNat_le.mp h))

/-- The nearest integer is near. -/
theorem isNear_nearestInt (i : Int) : IsNear (nearestInt i).natAbs i.natAbs := by
  rw [nearestInt, natAbs_signed]
  rcases Nat.lt_or_ge i.natAbs (Nat.pow 2 53) with hshort | hlong
  · rw [roundToPrecision_of_hasPrecision (hasPrecision_of_le (Nat.le_of_lt hshort))]
    exact ⟨Nat.le_add_right _ _, Nat.le_add_right _ _⟩
  · have hnear : IsNear (1 * roundToPrecision i.natAbs 1) i.natAbs := by
      refine isNear_roundToPrecision Nat.one_pos ?_
      rw [Nat.div_one]
      exact Nat.le_trans (Nat.pow_le_pow_right (by decide) (by decide)) hlong
    rwa [Nat.one_mul] at hnear

end Binary64

end LockScreen
