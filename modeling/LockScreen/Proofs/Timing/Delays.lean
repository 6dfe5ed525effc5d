import LockScreen.Proofs.Number.Rounding
import LockScreen.Timing.Timescale

/-!
# Delays

A delay is given in milliseconds and divided into seconds in binary64. A clock of seconds takes every delay that is not
below zero, unless it is an integer too large for a number (`deadline_seconds`, `deadline_of_huge`). A clock of whole
milliseconds multiplies back, in binary64 again, and rounds. The two roundings never lead out of the finite numbers
(`mulNat_divNat_finite`), although the largest ones come close, so the only delays that it refuses are those that are
no finite numbers to begin with (`exists_deadline_millis`, `error_of_deadline_millis`). Up to `2⁵⁰` milliseconds the
errors stay below half a millisecond, and the delay comes out as it was given (`deadline_int`).
-/

namespace LockScreen

/-! ## The largest numbers -/

/-- A count of at most 53 significant bits that is below a power of two is at least a step below it. -/
theorem HasPrecision.add_le {units k m : Nat} (h : HasPrecision units) (hm : m = k + 53)
    (hlt : units < Nat.pow 2 m) : units + Nat.pow 2 k ≤ Nat.pow 2 m := by
  subst hm
  have hbinade : Nat.pow 2 (k + 52) = 2 ^ 52 * Nat.pow 2 k := by rw [Nat.mul_comm]; exact Nat.pow_add 2 k 52
  have hlimit : Nat.pow 2 (k + 53) = 2 ^ 53 * Nat.pow 2 k := by rw [Nat.mul_comm]; exact Nat.pow_add 2 k 53
  rcases Nat.lt_or_ge units (Nat.pow 2 (k + 52)) with hsmall | hlarge
  · omega
  · -- in the last binade a count is a whole number of steps
    have hne : units ≠ 0 := Nat.ne_of_gt (Nat.lt_of_lt_of_le (Nat.two_pow_pos _) hlarge)
    have hstep : units.log2 - 52 = k := by
      have hlow : k + 52 ≤ units.log2 := (Nat.le_log2 hne).2 hlarge
      have hhigh : units.log2 < k + 53 := (Nat.log2_lt hne).2 hlt
      omega
    unfold HasPrecision at h
    rw [hstep] at h
    obtain ⟨steps, hsteps⟩ := h
    rw [Nat.mul_comm] at hsteps
    rw [hsteps, hlimit] at hlt ⊢
    have hcount : steps + 1 ≤ 2 ^ 53 := Nat.lt_of_mul_lt_mul_right hlt
    calc steps * Nat.pow 2 k + Nat.pow 2 k = (steps + 1) * Nat.pow 2 k := (Nat.succ_mul _ _).symm
      _ ≤ 2 ^ 53 * Nat.pow 2 k := Nat.mul_le_mul_right _ hcount

/-- The units of the largest finite number. -/
def largestUnits : Nat := unitLimit - Nat.pow 2 2045

theorem Representable.le_largestUnits {units : Nat} (h : Representable units) : units ≤ largestUnits :=
  Nat.le_sub_of_add_le (h.1.add_le rfl h.2)

/-- The thousandth part of the largest number, and a thousand times that, are still finite numbers. -/
theorem roundToPrecision_largestUnits :
    roundToPrecision largestUnits 1000 < unitLimit ∧
      roundToPrecision (roundToPrecision largestUnits 1000 * 1000) 1 < unitLimit := by
  decide +kernel

namespace Binary64

/-- A finite number divided by a thousand and multiplied back is finite. -/
theorem mulNat_divNat_finite (negative : Bool) {units : Nat} (h : Representable units) :
    ∃ hback, ((finite negative units h).divNat 1000).mulNat 1000
      = finite negative (roundToPrecision (roundToPrecision units 1000 * 1000) 1) hback := by
  obtain ⟨hthousandth, hback⟩ := roundToPrecision_largestUnits
  have hdivided : roundToPrecision units 1000 ≤ roundToPrecision largestUnits 1000 :=
    roundToPrecision_mono h.le_largestUnits
  have hmultiplied : roundToPrecision (roundToPrecision units 1000 * 1000) 1
      ≤ roundToPrecision (roundToPrecision largestUnits 1000 * 1000) 1 :=
    roundToPrecision_mono (Nat.mul_le_mul_right 1000 hdivided)
  obtain ⟨_, hquotient⟩ := exists_ofUnitRatio negative (Nat.lt_of_le_of_lt hdivided hthousandth)
  rw [divNat, hquotient]
  exact exists_ofUnitRatio negative (Nat.lt_of_le_of_lt hmultiplied hback)

end Binary64

/-! ## Delays that are accepted -/

/-- A number that is finite, or is so once it is converted. -/
def Number.IsFinite : Number → Prop
  | .int i => ¬Binary64.Huge i
  | .float x => x.isFinite = true

theorem Number.exists_toBinary64 {n : Number} (h : n.IsFinite) :
    ∃ x, n.toBinary64 = .ok x ∧ x.isFinite = true := by
  cases n with
  | int i =>
    have hfits : ¬Binary64.Huge i := h
    rw [toBinary64, Binary64.ofInt?_of_not_huge hfits]
    exact ⟨_, rfl, Binary64.isFinite_ofInt_iff.mpr hfits⟩
  | float x => exact ⟨x, rfl, h⟩

/-! ## Delays below zero -/

namespace Binary64

theorem isNegative_ofUnitRatio (num den : Nat) : (ofUnitRatio false num den).isNegative = false := by
  unfold ofUnitRatio
  split
  · rfl
  · rfl

/-- What is not below zero stays so when it is divided. -/
theorem isNegative_divNat {x : Binary64} (h : x.isNegative = false) (divisor : Nat) :
    (x.divNat divisor).isNegative = false := by
  cases x with
  | nan => rfl
  | infinite negative => exact h
  | finite negative units hunits =>
    cases negative with
    | false => exact isNegative_ofUnitRatio units divisor
    | true =>
      -- only a zero has the sign and is not below zero
      have hzero : units = 0 := by simpa [isNegative] using h
      have hround : roundToPrecision 0 divisor = 0 := by simp [roundToPrecision, roundDiv]
      have hlimit : 0 < unitLimit := Nat.two_pow_pos 2098
      simp [divNat, ofUnitRatio, hzero, hround, hlimit, isNegative]

end Binary64

/-- Nor does a number come below zero when it is converted. -/
theorem Number.isNegative_toBinary64 {n : Number} {x : Binary64} (h : n.isNegative = false)
    (hx : n.toBinary64 = .ok x) : x.isNegative = false := by
  cases n with
  | int i =>
    have hsign : decide (i < 0) = false := h
    rw [toBinary64] at hx
    by_cases hhuge : Binary64.Huge i
    · rw [Binary64.ofInt?_of_huge hhuge] at hx
      injection hx
    · rw [Binary64.ofInt?_of_not_huge hhuge] at hx
      rw [← Except.ok.inj hx, Binary64.ofInt, Binary64.ofRatio, hsign]
      exact Binary64.isNegative_ofUnitRatio _ _
  | float y =>
    cases hx
    exact h

/-! ## Where a delay leads -/

namespace Timescale

/-- An integer that is too large for a number leads nowhere, whatever the clock. -/
theorem deadline_of_huge {τ : Type} [Timescale τ] (now : τ) {i : Int} (h : Binary64.Huge i) :
    deadline now (.int i) = .error .integerTooLarge := by
  unfold deadline
  rw [Number.toBinary64, Binary64.ofInt?_of_huge h]
  rfl

/-- A finite delay is rounded twice in binary64, and then to a whole number of milliseconds. -/
theorem deadline_of_finite (now : Nat) {delay : Number} {negative : Bool} {units : Nat} {h : Representable units}
    (hdelay : delay.toBinary64 = .ok (.finite negative units h)) :
    deadline now delay = .ok (now + (Binary64.signed negative
      (roundDiv (roundToPrecision (roundToPrecision units 1000 * 1000) 1) unitsPerOne)).toNat) := by
  obtain ⟨hback, heq⟩ := Binary64.mulNat_divNat_finite negative h
  simp only [deadline, after, Binary64.toMillis, hdelay, bind, Except.bind, heq, Binary64.round, pure, Except.pure]

theorem exists_deadline_millis (now : Nat) {delay : Number} (h : delay.IsFinite) :
    ∃ due, deadline now delay = .ok due := by
  obtain ⟨x, hx, hfinite⟩ := Number.exists_toBinary64 h
  cases x with
  | nan => cases hfinite
  | infinite negative => cases hfinite
  | finite negative units hunits => exact ⟨_, deadline_of_finite now hx⟩

/-- A delay that is no finite number overflows, or is not a number at all. -/
theorem error_of_deadline_millis (now : Nat) {delay : Number} (h : ¬delay.IsFinite) :
    ∃ fault, deadline now delay = .error fault := by
  cases delay with
  | int i =>
    have hhuge : Binary64.Huge i := Decidable.not_not.mp h
    exact ⟨_, deadline_of_huge now hhuge⟩
  | float x =>
    cases x with
    | nan => exact ⟨_, rfl⟩
    | infinite negative => exact ⟨_, rfl⟩
    | finite negative units hunits => exact absurd rfl h

/-- A delay that is not below zero leads on by as many seconds. -/
theorem deadline_seconds (now : Seconds) {delay : Number} {x : Binary64} (hsign : delay.isNegative = false)
    (hx : delay.toBinary64 = .ok x) : deadline now delay = .ok ⟨now.value.add (x.divNat 1000)⟩ := by
  have hnonneg : (x.divNat 1000).isNegative = false :=
    Binary64.isNegative_divNat (Number.isNegative_toBinary64 hsign hx) 1000
  simp only [deadline, after, hx, bind, Except.bind, hnonneg]
  rfl

end Timescale

/-! ## Delays that come out as they were given -/

/-- Both errors together stay below half of one. -/
theorem roundDiv_thousandths {millis : Nat} (h : millis ≤ Nat.pow 2 50) :
    roundDiv (roundToPrecision (roundToPrecision (millis * unitsPerOne) 1000 * 1000) 1) unitsPerOne = millis := by
  rcases Nat.eq_zero_or_pos millis with hzero | hpos
  · rw [hzero]
    decide +kernel
  have hone : Nat.pow 2 64 ≤ unitsPerOne := by decide +kernel
  have hlow : unitsPerOne ≤ millis * unitsPerOne := Nat.le_mul_of_pos_left _ hpos
  have hhigh : millis * unitsPerOne ≤ Nat.pow 2 50 * unitsPerOne := Nat.mul_le_mul_right _ h
  simp only [Nat.pow_eq] at hone hhigh
  have hseconds : IsNear (1000 * roundToPrecision (millis * unitsPerOne) 1000) (millis * unitsPerOne) := by
    refine isNear_roundToPrecision (by decide) ?_
    rw [Nat.pow_eq]
    omega
  generalize roundToPrecision (millis * unitsPerOne) 1000 = seconds at hseconds ⊢
  simp only [IsNear, Nat.pow_eq] at hseconds
  have hback : IsNear (1 * roundToPrecision (seconds * 1000) 1) (seconds * 1000) := by
    refine isNear_roundToPrecision (by decide) ?_
    rw [Nat.pow_eq]
    omega
  simp only [IsNear, Nat.pow_eq] at hback
  refine roundDiv_eq ?_ ?_
  · omega
  · omega

/-- A delay of a whole number of milliseconds comes out as it was given, up to `2⁵⁰` of them. -/
theorem Timescale.deadline_int (now : Nat) {millis : Nat} (h : millis ≤ Nat.pow 2 50) :
    deadline now (.int millis) = .ok (now + millis) := by
  have hwhole : Binary64.IsWhole millis := Binary64.isWhole_of_le (Nat.le_trans h (by decide))
  have hdelay : (Number.int millis).toBinary64 = .ok (Binary64.ofInt millis) := by
    rw [Number.toBinary64, Binary64.ofInt?, Binary64.ofInt_of_isWhole hwhole]
    rfl
  rw [Binary64.ofInt_of_isWhole hwhole] at hdelay
  have hsign : decide ((millis : Int) < 0) = false := decide_eq_false (Int.not_lt.2 (Int.natCast_nonneg millis))
  rw [deadline_of_finite now hdelay, Int.natAbs_natCast, roundDiv_thousandths h, hsign]
  rfl

end LockScreen
