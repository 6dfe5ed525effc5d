import LockScreen.Battery.Reading
import Mathlib.Order.Lattice.Nat
import Mathlib.Tactic.SplitIfs

/-!
# Speeds of measured readings

A current and a voltage are rounded down to milliamperes and millivolts before they are multiplied
(`measuredRate`). The rate that comes of it grows with both (`measuredRate_mono`), and among known rates the speed
grows with the rate. But less than a milliampere or a millivolt is rounded down to zero, which is read as an unknown
rate (`measuredRate_nonpos_iff`) and counts as normal. So more power reads as slower exactly where a rate is unknown
for the lower reading and slow for the higher one (`slower_only_from_unknown`, `not_forall_faster_with_more`).
-/

namespace LockScreen

namespace Speed

/-- The place of a speed, from slow to fast. -/
def rank : Speed → Nat
  | slow => 0
  | normal => 1
  | fast => 2

theorem rank_injective : Function.Injective rank := by
  intro s s' h
  cases s <;> cases s' <;> first | rfl | cases h

instance : LinearOrder Speed := LinearOrder.lift' rank rank_injective

theorem lt_iff_rank {s s' : Speed} : s < s' ↔ s.rank < s'.rank :=
  Iff.rfl

end Speed

namespace Thresholds

variable {t : Thresholds} {rate rate' : Int}

theorem speedAt_int (t : Thresholds) (rate : Int) :
    t.speedAt (.int rate) =
      if rate ≤ 0 then .normal else if rate < t.slow then .slow else if t.fast < rate then .fast else .normal := by
  simp [speedAt]

/-- A higher rate is slower only if it is slow and the lower one is unknown. -/
theorem speedAt_lt_iff (ht : t.Valid) (hle : rate ≤ rate') :
    t.speedAt (.int rate') < t.speedAt (.int rate) ↔ rate ≤ 0 ∧ 0 < rate' ∧ rate' < t.slow := by
  have hpos := ht.slow_pos
  have horder := ht.slow_le_fast
  rw [speedAt_int, speedAt_int, Speed.lt_iff_rank]
  -- in order, the thresholds leave one drop: from an unknown rate, which is normal, to a slow one
  split_ifs <;> simp only [Speed.rank] <;> omega

end Thresholds

namespace BatteryReading

variable {t : Thresholds} {current current' voltage voltage' rate rate' : Int} {speed speed' : Speed}

/-- The voltage that counts: the measured one, or the assumed one. -/
def countedVoltage (voltage : Int) : Int :=
  if 0 < voltage then voltage else 5000000

/-- The charge rate of integers that were measured. -/
def measuredRate (current voltage : Int) : Int :=
  if 0 < current then current / 1000 * (countedVoltage voltage / 1000) else -1

theorem ofMeasurements_int (health : Health) (plug : Plug) (level : Value) (current voltage : Int) :
    ofMeasurements health plug level (.int current) (.int voltage) =
      .ok ⟨health, plug, level, .int current, .int (countedVoltage voltage), .int (measuredRate current voltage)⟩ := by
  unfold ofMeasurements
  simp only [Value.comparable_int, bind, Except.bind, Number.isAbove_int, decide_eq_true_eq]
  by_cases hvoltage : 0 < voltage
  · simp only [if_pos hvoltage, powerOf_int, countedVoltage, measuredRate]
    rfl
  · simp only [if_neg hvoltage, assumedVoltage, powerOf_int, countedVoltage, measuredRate]
    rfl

/-- A rate is unknown if the current or the measured voltage is rounded down to nothing, or if there is no current. -/
theorem measuredRate_nonpos_iff :
    measuredRate current voltage ≤ 0 ↔ current < 1000 ∨ 0 < voltage ∧ voltage < 1000 := by
  unfold measuredRate
  split_ifs with hcurrent
  · have hamperes : current / 1000 = 0 ↔ current < 1000 := by omega
    have hvolts : countedVoltage voltage / 1000 = 0 ↔ 0 < voltage ∧ voltage < 1000 := by
      unfold countedVoltage
      split_ifs <;> omega
    have hvoltsNonneg : 0 ≤ countedVoltage voltage / 1000 := by
      unfold countedVoltage
      split_ifs <;> omega
    have hproduct : 0 ≤ current / 1000 * (countedVoltage voltage / 1000) :=
      Int.mul_nonneg (by omega) hvoltsNonneg
    -- neither factor is negative, so a product that is not positive is zero
    rw [← hamperes, ← hvolts, ← Int.mul_eq_zero]
    omega
  · omega

theorem measuredRate_mono (hcurrent : 0 < current) (hmore : current ≤ current') (hvoltage : 0 < voltage)
    (hhigher : voltage ≤ voltage') : measuredRate current voltage ≤ measuredRate current' voltage' := by
  have hvolts : 0 ≤ voltage / 1000 := by omega
  have hamperes : 0 ≤ current' / 1000 := by omega
  rw [measuredRate, measuredRate, countedVoltage, countedVoltage, if_pos hcurrent, if_pos hvoltage,
    if_pos (by omega), if_pos (by omega)]
  exact Int.mul_le_mul (by omega) (by omega) hvolts hamperes

/-- A current and a voltage make a reading with this rate and this speed, whatever else is read. -/
def Measures (t : Thresholds) (current voltage rate : Int) (speed : Speed) : Prop :=
  ∀ health plug level, ∃ r, ofMeasurements health plug level (.int current) (.int voltage) = .ok r ∧
    r.power = .int rate ∧ t.speedOf r.power = .ok speed

theorem measures_iff : Measures t current voltage rate speed ↔
    rate = measuredRate current voltage ∧ speed = t.speedAt (.int (measuredRate current voltage)) := by
  constructor
  · intro h
    obtain ⟨r, hr, hrate, hspeed⟩ := h .unknown .none (.int 0)
    rw [ofMeasurements_int] at hr
    cases hr
    cases hrate
    cases hspeed
    exact ⟨rfl, rfl⟩
  · rintro ⟨rfl, rfl⟩ health plug level
    exact ⟨_, ofMeasurements_int health plug level current voltage, rfl, rfl⟩

/-- Every reading of integers has a rate and a speed, and the rate is unknown only below a milliampere or, where a
voltage is measured, below a millivolt. Under valid thresholds more current and voltage never give a lower rate, and
they read as slower exactly where the lower rate is unknown and the higher one is known and slow. -/
theorem slower_only_from_unknown (ht : t.Valid) (current current' voltage voltage' : Int) :
    ∃ rate rate' speed speed', Measures t current voltage rate speed ∧ Measures t current' voltage' rate' speed' ∧
      (rate ≤ 0 ↔ current < 1000 ∨ 0 < voltage ∧ voltage < 1000) ∧
      (0 < current → current ≤ current' → 0 < voltage → voltage ≤ voltage' →
        rate ≤ rate' ∧ (speed' < speed ↔ rate ≤ 0 ∧ 0 < rate' ∧ rate' < t.slow)) := by
  refine ⟨_, _, _, _, measures_iff.mpr ⟨rfl, rfl⟩, measures_iff.mpr ⟨rfl, rfl⟩, measuredRate_nonpos_iff, ?_⟩
  intro hcurrent hmore hvoltage hhigher
  have hrate := measuredRate_mono hcurrent hmore hvoltage hhigher
  exact ⟨hrate, Thresholds.speedAt_lt_iff ht hrate⟩

/-- Under the standard thresholds and with five volts, a milliampere is slow and less is not, and two amperes are not
slower than a milliampere. -/
theorem slower_only_from_unknown_fiveVolts :
    (∃ speed speed', Measures .standard 999 5000000 0 speed ∧ Measures .standard 1000 5000000 5000 speed' ∧
      speed' < speed) ∧
    ∃ speed speed', Measures .standard 1000 5000000 5000 speed ∧ Measures .standard 2000000 5000000 10000000 speed' ∧
      ¬ speed' < speed := by
  have hvalid : Thresholds.standard.Valid := ⟨by decide, by decide⟩
  obtain ⟨rate, rate', speed, speed', h, h', _, hslower⟩ := slower_only_from_unknown hvalid 999 1000 5000000 5000000
  obtain ⟨low, high, speedLow, speedHigh, hlow, hhigh, _, hfaster⟩ :=
    slower_only_from_unknown hvalid 1000 2000000 5000000 5000000
  obtain rfl := (measures_iff.mp h).1
  obtain rfl := (measures_iff.mp h').1
  obtain rfl := (measures_iff.mp hlow).1
  obtain rfl := (measures_iff.mp hhigh).1
  obtain ⟨_, hdrop⟩ := hslower (by decide) (by decide) (by decide) (by decide)
  obtain ⟨_, hrise⟩ := hfaster (by decide) (by decide) (by decide) (by decide)
  exact ⟨⟨speed, speed', h, h', hdrop.mpr (by decide)⟩,
    speedLow, speedHigh, hlow, hhigh, fun hlt => absurd (hrise.mp hlt) (by decide)⟩

/-- With five volts and less than a milliampere the rate is unknown, and reads as faster than a milliampere does. -/
theorem not_forall_faster_with_more :
    (¬ ∀ (t : Thresholds) (current current' voltage voltage' rate rate' : Int) (speed speed' : Speed), t.Valid →
      0 < current → current ≤ current' → 0 < voltage → voltage ≤ voltage' →
      Measures t current voltage rate speed → Measures t current' voltage' rate' speed' → speed ≤ speed') ∧
    ¬ ∀ t current voltage rate speed, Measures t current voltage rate speed → rate ≤ 0 → current ≤ 0 := by
  have hnone : Measures .standard 999 5000000 0 .normal := measures_iff.mpr (by decide)
  have hslow : Measures .standard 1000 5000000 5000 .slow := measures_iff.mpr (by decide)
  constructor
  · intro hall
    have hle := hall .standard 999 1000 5000000 5000000 _ _ _ _ ⟨by decide, by decide⟩ (by decide) (by decide)
      (by decide) (by decide) hnone hslow
    exact absurd hle (by decide)
  · intro hall
    exact absurd (hall _ _ _ _ _ hnone (by decide)) (by decide)

end BatteryReading

end LockScreen
