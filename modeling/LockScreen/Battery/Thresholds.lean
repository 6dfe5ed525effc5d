import LockScreen.Number

/-!
# Charging thresholds

Two charge rates divide slow from normal and normal from fast charging. Rates are in microwatts; a rate
that is not positive is unknown and counts as normal.
-/

namespace LockScreen

/-- How fast a battery charges. -/
inductive Speed
  | slow
  | normal
  | fast
deriving DecidableEq, Repr

namespace Speed

/-- The name under which a speed is reported. -/
def name : Speed → String
  | slow => "slow"
  | normal => "normal"
  | fast => "fast"

def all : List Speed := [slow, normal, fast]

end Speed

/-- The rates below which charging is slow and above which it is fast. -/
structure Thresholds where
  slow : Int := 5000000
  fast : Int := 7500000
deriving DecidableEq, Repr

namespace Thresholds

/-- The thresholds used where nothing else is set. -/
def standard : Thresholds := {}

/-- Both rates are positive and in order. -/
structure Valid (t : Thresholds) : Prop where
  slow_pos : 0 < t.slow
  slow_le_fast : t.slow ≤ t.fast

/-- Thresholds from two rates, which must be positive and in order. -/
def ofRates (slow fast : Int) : Except Fault Thresholds :=
  if slow ≤ 0 ∨ fast ≤ 0 then .error .thresholdsNotPositive
  else if fast < slow then .error .thresholdsReversed
  else .ok ⟨slow, fast⟩

/-- Thresholds are built exactly from rates that are positive and in order, and hold them unchanged. -/
theorem ofRates_eq_ok_iff {slow fast : Int} {t : Thresholds} :
    ofRates slow fast = .ok t ↔ t = ⟨slow, fast⟩ ∧ t.Valid := by
  unfold ofRates
  split
  · rename_i h
    simp only [reduceCtorEq, false_iff]
    rintro ⟨rfl, hpos, hle⟩
    dsimp only at hpos hle
    omega
  · rename_i hpos
    split
    · rename_i h
      simp only [reduceCtorEq, false_iff]
      rintro ⟨rfl, _, hle⟩
      dsimp only at hle
      omega
    · rename_i hle
      constructor
      · rintro ⟨⟩
        exact ⟨rfl, ⟨by dsimp only; omega, by dsimp only; omega⟩⟩
      · rintro ⟨rfl, _⟩
        rfl

/-- The speed of charging at a rate. -/
def speedAt (t : Thresholds) (power : Number) : Speed :=
  if !power.isAbove 0 then .normal
  else if power.isBelow t.slow then .slow
  else if power.isAbove t.fast then .fast
  else .normal

end Thresholds

end LockScreen
