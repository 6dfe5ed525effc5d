import LockScreen.Proofs.Number.Decimals
import LockScreen.Value

/-!
# The range of binary64 numbers

Rounding never passes a power of two (`roundToPrecision_le`), so what is far below the limit stays finite: an
integer of less than three hundred digits can be divided by anything (`exists_quotient`). At the limit itself the
last finite number decides. An integer is `Huge` from half a step above it on, and these are exactly the integers
that have no nearest binary64 number (`ofInt?_of_huge`, `ofInt?_of_not_huge`). A value is refused as a number for
being such an integer, or because it is none (`Value.error_of_toBinary64`).
-/

namespace LockScreen

/-- Rounding a quotient below a power of two does not pass it. -/
theorem roundToPrecision_le {num den k : Nat} (h : num / den < Nat.pow 2 k) :
    roundToPrecision num den ≤ Nat.pow 2 k := by
  rw [Nat.pow_eq] at h
  have hstep : (num / den).log2 - 52 ≤ k := by
    rcases Nat.eq_zero_or_pos (num / den) with hzero | hpos
    · rw [hzero, Nat.log2_zero]
      omega
    · have hlog := (Nat.log2_lt (Nat.ne_of_gt hpos)).2 h
      omega
  have hsplit : 2 ^ k = 2 ^ (k - ((num / den).log2 - 52)) * 2 ^ ((num / den).log2 - 52) := by
    rw [← Nat.pow_add, Nat.sub_add_cancel hstep]
  -- the power is a whole number of steps, and rounding moves by one step at most
  have hsteps : num / (den * precisionStep num den) < 2 ^ (k - ((num / den).log2 - 52)) := by
    rw [← Nat.div_div_eq_div_mul, precisionStep, Nat.pow_eq, Nat.div_lt_iff_lt_mul (Nat.two_pow_pos _),
      ← hsplit]
    exact h
  have hround := Nat.le_trans (roundDiv_le num (den * precisionStep num den)) hsteps
  calc roundToPrecision num den
      ≤ 2 ^ (k - ((num / den).log2 - 52)) * precisionStep num den := Nat.mul_le_mul_right _ hround
    _ = Nat.pow 2 k := by rw [precisionStep, Nat.pow_eq, Nat.pow_eq, ← hsplit]

/-- A count is rounded below a power of two exactly if it is more than half a step below it: the last number
before the power has an odd count of steps, so what lies half-way goes to the power. -/
theorem roundToPrecision_lt_iff {n k m : Nat} (h : m = k + 54) :
    roundToPrecision n 1 < Nat.pow 2 m ↔ n + Nat.pow 2 k < Nat.pow 2 m := by
  subst h
  have hpos : 0 < Nat.pow 2 k := Nat.two_pow_pos k
  have hbinade : Nat.pow 2 (k + 53) = 2 ^ 53 * Nat.pow 2 k := by rw [Nat.mul_comm]; exact Nat.pow_add 2 k 53
  have hlimit : Nat.pow 2 (k + 54) = 2 ^ 54 * Nat.pow 2 k := by rw [Nat.mul_comm]; exact Nat.pow_add 2 k 54
  rcases Nat.lt_or_ge n (Nat.pow 2 (k + 53)) with hsmall | hlarge
  · have hround : roundToPrecision n 1 ≤ Nat.pow 2 (k + 53) := roundToPrecision_le (by rwa [Nat.div_one])
    omega
  · rcases Nat.lt_or_ge n (Nat.pow 2 (k + 54)) with hinside | houtside
    · -- in the last binade a step is twice the half that is left to the limit
      have hne : n ≠ 0 := Nat.ne_of_gt (Nat.lt_of_lt_of_le (Nat.two_pow_pos _) hlarge)
      have hlog : n.log2 = k + 53 := by
        have hlow : k + 53 ≤ n.log2 := (Nat.le_log2 hne).2 hlarge
        have hhigh : n.log2 < k + 54 := (Nat.log2_lt hne).2 hinside
        omega
      have hstep : precisionStep n 1 = 2 * Nat.pow 2 k := by
        have hexponent : k + 53 - 52 = k + 1 := by omega
        rw [precisionStep, Nat.div_one, hlog, hexponent, Nat.mul_comm]
        exact Nat.pow_add 2 k 1
      have hdivision := Nat.div_add_mod n (2 * Nat.pow 2 k)
      have hrest := Nat.mod_lt n (Nat.mul_pos Nat.two_pos hpos)
      have hquotient : n / (2 * Nat.pow 2 k) < 2 ^ 53 := by
        rw [Nat.div_lt_iff_lt_mul (Nat.mul_pos Nat.two_pos hpos)]
        omega
      rw [roundToPrecision, hstep, Nat.one_mul, hlimit]
      by_cases hlast : n / (2 * Nat.pow 2 k) = 2 ^ 53 - 1
      · rw [roundDiv]
        rw [hlast] at hdivision ⊢
        split_ifs
        · omega
        · omega
        · omega
      · have hround := roundDiv_le n (2 * Nat.pow 2 k)
        have hbelow : roundDiv n (2 * Nat.pow 2 k) ≤ 2 ^ 53 - 1 := by omega
        have hproduct := Nat.mul_le_mul_right (2 * Nat.pow 2 k) hbelow
        have hfloor := Nat.mul_le_mul_left (2 * Nat.pow 2 k)
          (show n / (2 * Nat.pow 2 k) ≤ 2 ^ 53 - 2 by omega)
        omega
    · have hround : Nat.pow 2 (k + 54) ≤ roundToPrecision n 1 :=
        le_roundToPrecision (by rwa [Nat.div_one])
      omega

namespace Binary64

theorem isFinite_ofUnitRatio_iff {negative : Bool} {num den : Nat} :
    (ofUnitRatio negative num den).isFinite = true ↔ roundToPrecision num den < unitLimit := by
  unfold ofUnitRatio
  split
  · exact iff_of_true rfl ‹_›
  · exact iff_of_false Bool.false_ne_true ‹_›

/-- An integer that is too large for a binary64 number: at most half a step is left to `2¹⁰²⁴`. -/
def Huge (i : Int) : Prop :=
  Nat.pow 2 1024 ≤ i.natAbs + Nat.pow 2 970

instance (i : Int) : Decidable (Huge i) :=
  Nat.decLe _ _

theorem Huge.of_le {i j : Int} (h : Huge i) (hle : i.natAbs ≤ j.natAbs) : Huge j :=
  Nat.le_trans h (Nat.add_le_add_right hle _)

/-- The huge integers are those without a nearest number that is finite. -/
theorem isFinite_ofInt_iff {i : Int} : (ofInt i).isFinite = true ↔ ¬Huge i := by
  have hhalf := two_pow_mul_unitsPerOne (k := 970) (n := 2044) (by decide)
  have hrounded : roundToPrecision (i.natAbs * unitsPerOne) 1 < unitLimit
      ↔ i.natAbs * unitsPerOne + Nat.pow 2 970 * unitsPerOne < unitLimit := by
    rw [hhalf]
    exact roundToPrecision_lt_iff (by decide)
  unfold ofInt ofRatio Huge
  rw [isFinite_ofUnitRatio_iff, hrounded, ← unitLimit_eq, ← Nat.add_mul,
    Nat.mul_lt_mul_right unitsPerOne_pos, Nat.not_le]

theorem ofInt?_of_huge {i : Int} (h : Huge i) : ofInt? i = .error .integerTooLarge := by
  unfold ofInt?
  exact if_neg fun hfinite => isFinite_ofInt_iff.mp hfinite h

theorem ofInt?_of_not_huge {i : Int} (h : ¬Huge i) : ofInt? i = .ok (ofInt i) := by
  unfold ofInt?
  exact if_pos (isFinite_ofInt_iff.mpr h)

/-- A count of less than three hundred digits before the point stays finite, whatever it is divided by. -/
theorem isFinite_ofUnitRatio {units : Nat} (h : units < Nat.pow 10 300 * unitsPerOne) (negative : Bool)
    (divisor : Nat) : (ofUnitRatio negative units divisor).isFinite = true := by
  have hpow : Nat.pow 10 300 ≤ Nat.pow 2 1023 := by decide +kernel
  have hbinade := two_pow_mul_unitsPerOne (k := 1023) (n := 2097) (by decide)
  have hunits : units / divisor < Nat.pow 2 2097 := by
    refine Nat.lt_of_le_of_lt (Nat.div_le_self _ _) (Nat.lt_of_lt_of_eq ?_ hbinade)
    exact Nat.lt_of_lt_of_le h (Nat.mul_le_mul_right _ hpow)
  have hlimit : Nat.pow 2 2097 < unitLimit := Nat.pow_lt_pow_right (by decide) (by decide)
  exact isFinite_ofUnitRatio_iff.mpr (Nat.lt_of_le_of_lt (roundToPrecision_le hunits) hlimit)

/-- An integer of at most three hundred digits can be divided by any number. -/
theorem exists_quotient {i : Int} (h : i.natAbs < Nat.pow 10 300) (divisor : Nat) :
    ∃ x, quotient i divisor = .ok x ∧ x.isFinite = true := by
  have hfinite : (ofRatio (decide (i < 0)) i.natAbs divisor).isFinite = true :=
    isFinite_ofUnitRatio (Nat.mul_lt_mul_of_pos_right h unitsPerOne_pos) _ _
  unfold quotient
  exact ⟨_, if_pos hfinite, hfinite⟩

end Binary64

/-! ## Values that are read as numbers -/

namespace Value

/-- An integer that is too large for a binary64 number. -/
def IsHuge (v : Value) : Prop :=
  ∃ i, v = .int i ∧ Binary64.Huge i

/-- A value that counts as an infinity, as a number or as a numeral. -/
def IsInfinite (v : Value) : Prop :=
  ∃ negative, v.toBinary64 = .ok (.infinite negative)

theorem toBinary64_of_isHuge {v : Value} (h : v.IsHuge) : v.toBinary64 = .error .integerTooLarge := by
  obtain ⟨i, rfl, hhuge⟩ := h
  simp only [toBinary64, Binary64.ofInt?_of_huge hhuge]

/-- A value that is no number is rejected, and an integer that is too large overflows. -/
theorem error_of_toBinary64 {v : Value} {f : Fault} (h : v.toBinary64 = .error f) :
    f.isRejection = true ∨ f.kind = .overflow ∧ v.IsHuge := by
  by_cases hhuge : v.IsHuge
  · rw [toBinary64_of_isHuge hhuge] at h
    cases h
    exact .inr ⟨rfl, hhuge⟩
  left
  unfold toBinary64 at h
  split at h
  · cases h
  · rename_i i
    rw [Binary64.ofInt?_of_not_huge fun hi => hhuge ⟨i, rfl, hi⟩] at h
    cases h
  · cases h
  · split at h
    · cases h
    · cases h
      rfl
  · cases h
    rfl

end Value

end LockScreen
