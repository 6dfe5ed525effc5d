import LockScreen.Proofs.Number.Rounding
import Mathlib.Data.Nat.Dist

/-!
# Quotients of integers

The quotient of two integers is the binary64 number nearest to the exact fraction, and of two that are equally near the
one that ends even. `IsNearest` says this of counts without the steps of rounding, and the rounded count is the only one
of which it holds (`isNearest_iff`). So `Binary64.quotient` gives exactly the numbers that are `IsQuotient`
(`quotient_eq_ok_iff`).

A fraction that is no whole number stays away from the next one by at least one part of its divisor. Rounding moves the
quotient of an integer below `2⁵³` by less than that, so its whole part is exact, whatever the divisor is
(`truncate_of_isQuotient`).
-/

namespace LockScreen

variable {num den m k : Nat}

/-! ## Rounding to a multiple -/

/-- A larger multiple is larger by a whole divisor. -/
theorem mul_add_self_le (den : Nat) (h : k < m) : den * k + den ≤ den * m := by
  rw [← Nat.mul_succ]
  exact Nat.mul_le_mul_left den h

/-- No multiple is nearer than the one that is rounded to. -/
theorem dist_roundDiv_le (num : Nat) (hden : 0 < den) (k : Nat) :
    Nat.dist num (den * roundDiv num den) ≤ Nat.dist num (den * k) := by
  obtain ⟨habove, hbelow⟩ := two_mul_roundDiv num hden
  unfold Nat.dist
  -- any other multiple is a whole divisor away, which is twice what rounding misses
  rcases Nat.lt_trichotomy k (roundDiv num den) with hlt | rfl | hgt
  · have hstep := mul_add_self_le den hlt
    omega
  · exact Nat.le_refl _
  · have hstep := mul_add_self_le den hgt
    omega

/-- Half-way between two multiples the even one is rounded to. -/
theorem roundDiv_of_half (hden : 0 < den) (h : 2 * num = 2 * (den * k) + den) : roundDiv num den = k + k % 2 := by
  have hdivision := Nat.div_add_mod num den
  have hquotient : num / den = k := by
    refine Nat.div_eq_of_lt_le ?_ ?_
    · rw [Nat.mul_comm]
      omega
    · rw [Nat.succ_mul, Nat.mul_comm]
      omega
  rw [hquotient] at hdivision
  unfold roundDiv
  rw [hquotient]
  dsimp only
  split_ifs
  · omega
  · omega
  · rfl

/-- Where another multiple is as near, the one that is rounded to is even and the other one odd. -/
theorem even_roundDiv_of_dist_eq (hden : 0 < den) (hne : k ≠ roundDiv num den)
    (htie : Nat.dist num (den * k) = Nat.dist num (den * roundDiv num den)) :
    2 ∣ roundDiv num den ∧ ¬2 ∣ k := by
  obtain ⟨habove, hbelow⟩ := two_mul_roundDiv num hden
  unfold Nat.dist at htie
  -- the fraction lies half-way between the two, and so they follow one another
  rcases Nat.lt_or_gt_of_ne hne with hlt | hgt
  · have hstep := mul_add_self_le den hlt
    have hround := roundDiv_of_half hden (show 2 * num = 2 * (den * k) + den by omega)
    omega
  · have hstep := mul_add_self_le den hgt
    have hround := roundDiv_of_half hden (show 2 * num = 2 * (den * roundDiv num den) + den by omega)
    have hnext : k = roundDiv num den + 1 := by
      refine Nat.eq_of_mul_eq_mul_left hden ?_
      rw [Nat.mul_succ]
      omega
    omega

/-! ## Rounding to a number -/

/-- A count reaches the leading digit of a quotient, or it is below that digit. -/
theorem log2_le_or_lt (num den m : Nat) :
    (num / den).log2 ≤ m.log2 ∨ m < Nat.pow 2 (num / den).log2 ∧ den * Nat.pow 2 (num / den).log2 ≤ num := by
  rcases Nat.lt_or_ge m.log2 (num / den).log2 with hlt | hge
  · right
    have hne : num / den ≠ 0 := by
      intro hzero
      rw [hzero, Nat.log2_zero] at hlt
      omega
    constructor
    · exact Nat.lt_of_lt_of_le Nat.lt_log2_self (Nat.pow_le_pow_right (by decide) hlt)
    · calc den * Nat.pow 2 (num / den).log2 ≤ den * (num / den) := Nat.mul_le_mul_left _ (Nat.log2_self_le hne)
        _ ≤ num := Nat.mul_div_le num den
  · exact .inl hge

/-- A count that reaches the leading digit of a quotient is a whole number of steps. -/
theorem precisionStep_dvd (h : HasPrecision m) (hlog : (num / den).log2 ≤ m.log2) : precisionStep num den ∣ m :=
  Nat.dvd_trans (Nat.pow_dvd_pow 2 (Nat.sub_le_sub_right hlog 52)) h

theorem two_mul_precisionStep (num den : Nat) :
    2 * precisionStep num den = Nat.pow 2 ((num / den).log2 - 52 + 1) :=
  (Nat.pow_succ' ..).symm

/-- No whole number of steps is nearer than the rounded count. -/
theorem dist_roundToPrecision_le (num : Nat) (hden : 0 < den) (k : Nat) :
    Nat.dist num (den * roundToPrecision num den) ≤ Nat.dist num (den * (precisionStep num den * k)) := by
  rw [mul_roundToPrecision, ← Nat.mul_assoc]
  exact dist_roundDiv_le num (Nat.mul_pos hden (Nat.two_pow_pos _)) k

/-- A count below the leading digit of a quotient is farther from it than the rounded count. -/
theorem dist_roundToPrecision_lt (hden : 0 < den) (hlt : m < Nat.pow 2 (num / den).log2)
    (hlead : den * Nat.pow 2 (num / den).log2 ≤ num) :
    Nat.dist num (den * roundToPrecision num den) < Nat.dist num (den * m) := by
  -- the leading digit is itself a whole number of steps
  obtain ⟨k, hk⟩ : precisionStep num den ∣ Nat.pow 2 (num / den).log2 := Nat.pow_dvd_pow 2 (Nat.sub_le _ _)
  have hnear := dist_roundToPrecision_le num hden k
  rw [← hk] at hnear
  have hbelow : den * m < den * Nat.pow 2 (num / den).log2 := Nat.mul_lt_mul_of_pos_left hlt hden
  unfold Nat.dist at hnear ⊢
  omega

/-- No count of at most 53 significant bits is nearer than the rounded one. -/
theorem dist_roundToPrecision_le_of_hasPrecision (num : Nat) (hden : 0 < den) (h : HasPrecision m) :
    Nat.dist num (den * roundToPrecision num den) ≤ Nat.dist num (den * m) := by
  rcases log2_le_or_lt num den m with hlog | ⟨hlt, hlead⟩
  · obtain ⟨k, rfl⟩ := precisionStep_dvd h hlog
    exact dist_roundToPrecision_le num hden k
  · exact Nat.le_of_lt (dist_roundToPrecision_lt hden hlt hlead)

/-- Where another count is as near, it is an odd number of steps, and the rounded one an even number of them. -/
theorem even_steps_of_dist_eq (hden : 0 < den) (h : HasPrecision m) (hne : m ≠ roundToPrecision num den)
    (htie : Nat.dist num (den * m) = Nat.dist num (den * roundToPrecision num den)) :
    2 * precisionStep num den ∣ roundToPrecision num den ∧
      (num / den).log2 ≤ m.log2 ∧ ¬2 * precisionStep num den ∣ m := by
  have hstep : 0 < precisionStep num den := Nat.two_pow_pos _
  rcases log2_le_or_lt num den m with hlog | ⟨hlt, hlead⟩
  · obtain ⟨k, rfl⟩ := precisionStep_dvd h hlog
    have hk : k ≠ roundDiv num (den * precisionStep num den) := by
      rintro rfl
      exact hne (Nat.mul_comm _ _)
    rw [mul_roundToPrecision, ← Nat.mul_assoc] at htie
    obtain ⟨heven, hodd⟩ := even_roundDiv_of_dist_eq (Nat.mul_pos hden hstep) hk htie
    refine ⟨Nat.mul_dvd_mul_right heven _, hlog, ?_⟩
    rw [Nat.mul_comm (precisionStep num den)]
    exact fun hdvd => hodd (Nat.dvd_of_mul_dvd_mul_right hstep hdvd)
  · have hfar := dist_roundToPrecision_lt hden hlt hlead
    omega

/-! ## The nearest count -/

/-- The last of 53 significant digits is even. -/
def EndsEven (units : Nat) : Prop :=
  Nat.pow 2 (units.log2 - 52 + 1) ∣ units

/-- A count of at most 53 significant bits to which no other one is nearer to `num / den`, and which ends even where
another one is as near. -/
structure IsNearest (num den units : Nat) : Prop where
  precise : HasPrecision units
  nearest : ∀ other, HasPrecision other → Nat.dist num (den * units) ≤ Nat.dist num (den * other)
  even : ∀ other, HasPrecision other → other ≠ units →
    Nat.dist num (den * other) = Nat.dist num (den * units) → EndsEven units

/-- A rounded count that is an even number of steps ends even. -/
theorem endsEven_roundToPrecision (h : 2 * precisionStep num den ∣ roundToPrecision num den) :
    EndsEven (roundToPrecision num den) := by
  have hle : roundToPrecision num den ≤ Nat.pow 2 ((num / den).log2 + 1) := roundToPrecision_le Nat.lt_log2_self
  rw [two_mul_precisionStep] at h
  unfold EndsEven
  rcases Nat.eq_or_lt_of_le hle with heq | hlt
  -- a carry out of the top digit leaves a power of two
  · rw [heq]
    refine Nat.pow_dvd_pow 2 ?_
    rw [Nat.pow_eq, Nat.log2_two_pow]
    omega
  · by_cases hzero : roundToPrecision num den = 0
    · rw [hzero]
      exact Nat.dvd_zero _
    · have hlog : (roundToPrecision num den).log2 < (num / den).log2 + 1 := (Nat.log2_lt hzero).mpr hlt
      refine Nat.dvd_trans (Nat.pow_dvd_pow 2 ?_) h
      omega

/-- The rounded count is the one count that is nearest. -/
theorem isNearest_iff (hden : 0 < den) : IsNearest num den m ↔ m = roundToPrecision num den := by
  have hprecise := hasPrecision_roundToPrecision num den
  constructor
  · intro h
    by_contra hne
    have htie : Nat.dist num (den * m) = Nat.dist num (den * roundToPrecision num den) :=
      Nat.le_antisymm (h.nearest _ hprecise) (dist_roundToPrecision_le_of_hasPrecision num hden h.precise)
    obtain ⟨_, hlog, hodd⟩ := even_steps_of_dist_eq hden h.precise hne htie
    -- the other count is an odd number of steps, and would have to end even
    refine hodd (Nat.dvd_trans ?_ (h.even _ hprecise (Ne.symm hne) htie.symm))
    rw [two_mul_precisionStep]
    exact Nat.pow_dvd_pow 2 (by omega)
  · rintro rfl
    refine ⟨hprecise, fun other hother => dist_roundToPrecision_le_of_hasPrecision num hden hother, ?_⟩
    intro other hother hne htie
    exact endsEven_roundToPrecision (even_steps_of_dist_eq hden hother hne htie).1

/-! ## The whole part -/

/-- Rounding moves the quotient of an integer below `2⁵³` by less than one part of the divisor, and so not to the next
whole number. -/
theorem roundToPrecision_lt_succ (hden : 0 < den) (h : num < Nat.pow 2 53) (hk : 52 < k) :
    roundToPrecision (num * Nat.pow 2 k) den < (num / den + 1) * Nat.pow 2 k := by
  rcases Nat.lt_or_ge (num * Nat.pow 2 k / den) (Nat.pow 2 52) with hsmall | hlarge
  -- what is rounded to a whole unit stays far below one
  · calc roundToPrecision (num * Nat.pow 2 k) den ≤ Nat.pow 2 52 := roundToPrecision_le hsmall
      _ < Nat.pow 2 k := Nat.pow_lt_pow_right (by decide) hk
      _ ≤ (num / den + 1) * Nat.pow 2 k := Nat.le_mul_of_pos_left _ (Nat.succ_pos _)
  · have hnext : num + 1 ≤ den * (num / den + 1) := Nat.lt_mul_div_succ num hden
    refine Nat.lt_of_mul_lt_mul_left (a := Nat.pow 2 53 * den) ?_
    calc Nat.pow 2 53 * den * roundToPrecision (num * Nat.pow 2 k) den
        = Nat.pow 2 53 * (den * roundToPrecision (num * Nat.pow 2 k) den) := Nat.mul_assoc ..
      _ ≤ Nat.pow 2 53 * (num * Nat.pow 2 k) + num * Nat.pow 2 k := (isNear_roundToPrecision hden hlarge).1
      _ < Nat.pow 2 53 * (num * Nat.pow 2 k) + Nat.pow 2 53 * Nat.pow 2 k :=
          Nat.add_lt_add_left (Nat.mul_lt_mul_of_pos_right h (Nat.two_pow_pos k)) _
      _ = Nat.pow 2 53 * ((num + 1) * Nat.pow 2 k) := by rw [Nat.succ_mul num, Nat.mul_add (Nat.pow 2 53)]
      _ ≤ Nat.pow 2 53 * (den * (num / den + 1) * Nat.pow 2 k) :=
          Nat.mul_le_mul_left _ (Nat.mul_le_mul_right _ hnext)
      _ = Nat.pow 2 53 * den * ((num / den + 1) * Nat.pow 2 k) := by rw [Nat.mul_assoc den, Nat.mul_assoc]

/-- The whole part is a number itself, and nothing above a number is rounded below it. -/
theorem le_roundToPrecision_mul (hden : 0 < den) (h : num < Nat.pow 2 53) (k : Nat) :
    num / den * Nat.pow 2 k ≤ roundToPrecision (num * Nat.pow 2 k) den := by
  have hwhole : HasPrecision (num / den * Nat.pow 2 k) :=
    hasPrecision_mul_two_pow (Nat.le_trans (Nat.div_le_self _ _) (Nat.le_of_lt h))
  have hbelow : num / den * Nat.pow 2 k * den ≤ num * Nat.pow 2 k := by
    rw [Nat.mul_right_comm]
    exact Nat.mul_le_mul_right _ (Nat.div_mul_le_self num den)
  calc num / den * Nat.pow 2 k = roundToPrecision (num / den * Nat.pow 2 k * den) den :=
        (roundToPrecision_mul_self hwhole hden).symm
    _ ≤ roundToPrecision (num * Nat.pow 2 k) den := roundToPrecision_mono hbelow

/-- The whole part of a rounded quotient is the exact one. -/
theorem roundToPrecision_mul_unitsPerOne_div (hden : 0 < den) (h : num < Nat.pow 2 53) :
    roundToPrecision (num * unitsPerOne) den / unitsPerOne = num / den := by
  unfold unitsPerOne
  exact Nat.div_eq_of_lt_le (le_roundToPrecision_mul hden h unitExponent)
    (roundToPrecision_lt_succ hden h (by decide))

/-! ## Numbers that are quotients -/

namespace Binary64

variable {x : Binary64} {i : Int} {divisor : Nat}

/-- The number nearest to a fraction of integers, with the sign of the dividend. -/
def IsQuotient (x : Binary64) (dividend : Int) (divisor : Nat) : Prop :=
  ∃ units representable, x = .finite (decide (dividend < 0)) units representable ∧
    IsNearest (dividend.natAbs * unitsPerOne) divisor units

/-- Division gives the correctly rounded quotient, and fails only where none is finite. -/
theorem quotient_eq_ok_iff (hdivisor : 0 < divisor) : quotient i divisor = .ok x ↔ x.IsQuotient i divisor := by
  unfold quotient IsQuotient ofRatio
  simp only [isNearest_iff hdivisor, isFinite_ofUnitRatio_iff]
  constructor
  · intro h
    by_cases hfinite : roundToPrecision (i.natAbs * unitsPerOne) divisor < unitLimit
    · obtain ⟨representable, hrounded⟩ := exists_ofUnitRatio (decide (i < 0)) hfinite
      rw [if_pos hfinite] at h
      obtain rfl := Except.ok.inj h
      exact ⟨_, representable, hrounded, rfl⟩
    · rw [if_neg hfinite] at h
      cases h
  · rintro ⟨units, representable, rfl, rfl⟩
    obtain ⟨_, hrounded⟩ := exists_ofUnitRatio (decide (i < 0)) representable.2
    rw [if_pos representable.2, hrounded]

/-- The quotient of the sizes, with the sign of the dividend, is the quotient cut off towards zero. -/
theorem signed_natAbs_div (i : Int) (divisor : Nat) :
    signed (decide (i < 0)) (i.natAbs / divisor) = i.tdiv divisor := by
  by_cases h : i < 0
  · obtain ⟨n, rfl⟩ := Int.exists_eq_neg_ofNat (Int.le_of_lt h)
    rw [decide_eq_true h]
    simp only [signed, if_true, Int.neg_tdiv, Int.natAbs_neg, Int.natAbs_natCast, Int.ofNat_tdiv]
  · obtain ⟨n, rfl⟩ := Int.eq_ofNat_of_zero_le (Int.not_lt.mp h)
    rw [decide_eq_false h]
    simp only [signed, Bool.false_eq_true, if_false, Int.natAbs_natCast, Int.ofNat_tdiv]

/-- The quotient of an integer below `2⁵³`, cut off, is the exact quotient cut off, whatever the divisor is. -/
theorem truncate_of_isQuotient (hdivisor : 0 < divisor) (h : i.natAbs < Nat.pow 2 53) (hx : x.IsQuotient i divisor) :
    x.truncate = .ok (i.tdiv divisor) := by
  obtain ⟨units, representable, rfl, hnearest⟩ := hx
  obtain rfl := (isNearest_iff hdivisor).mp hnearest
  rw [truncate, roundToPrecision_mul_unitsPerOne_div hdivisor h, signed_natAbs_div]

end Binary64

end LockScreen
