import LockScreen.Proofs.Battery.Announcements
import LockScreen.Proofs.Number.Quotients

/-!
# The digits of the details

Current and voltage are shown in whole milliamperes and volts, and both are worked out by way of a binary64 quotient.
Below `2⁵³` that detour changes no digit: the nearest number is on the same side of the next whole number as the exact
quotient (`wholeQuotient_of_lt`), so the line shows the exact quotients (`details_show_exact_quotients`).
-/

namespace LockScreen

open Binary64

/-- An integer below `2⁵³` has a correctly rounded quotient by any divisor, and what is shown of it is the exact quotient
cut off towards zero. -/
theorem wholeQuotient_of_lt {i : Int} {divisor : Nat} (hdivisor : 0 < divisor) (h : i.natAbs < Nat.pow 2 53) :
    ∃ x : Binary64, x.IsQuotient i divisor ∧ x.truncate = .ok (i.tdiv divisor) ∧
      wholeQuotient (.int i) divisor = .ok (i.tdiv divisor) := by
  have hsize : i.natAbs < Nat.pow 10 300 := Nat.lt_trans h (by decide +kernel)
  obtain ⟨x, hx, _⟩ := exists_quotient hsize divisor
  have hquotient := (quotient_eq_ok_iff hdivisor).mp hx
  have htruncate := truncate_of_isQuotient hdivisor h hquotient
  refine ⟨x, hquotient, htruncate, ?_⟩
  unfold wholeQuotient
  simp only [Value.measure?, Value.number?, hx]
  exact htruncate

variable {c : ChargeState} {current voltage : Int}

/-- Of a current and a voltage below `2⁵³` the line of details shows the exact quotients cut off towards zero, although
it is the correctly rounded binary64 quotients that are cut off. -/
theorem details_show_exact_quotients (hcurrent : c.current = .int current) (hvoltage : c.voltage = .int voltage)
    (hsome : current ≠ 0) (hcurrentSize : current.natAbs < Nat.pow 2 53)
    (hvoltageSize : voltage.natAbs < Nat.pow 2 53) :
    ∃ milliamperes volts : Binary64, milliamperes.IsQuotient current 1000 ∧ volts.IsQuotient voltage 1000000 ∧
      milliamperes.truncate = .ok (current.tdiv 1000) ∧ volts.truncate = .ok (voltage.tdiv 1000000) ∧
      detailsText c = .ok (detailsLine (current.tdiv 1000) (voltage.tdiv 1000000)) := by
  obtain ⟨milliamperes, hmilliamperes, hcut, hshown⟩ := wholeQuotient_of_lt (show 0 < 1000 by decide) hcurrentSize
  obtain ⟨volts, hvolts, hcut', hshown'⟩ := wholeQuotient_of_lt (show 0 < 1000000 by decide) hvoltageSize
  refine ⟨milliamperes, volts, hmilliamperes, hvolts, hcut, hcut', ?_⟩
  have hzero : c.current.measure?.any Number.isZero = false := by
    rw [hcurrent]
    exact decide_eq_false hsome
  unfold detailsText
  rw [hzero, hcurrent, hvoltage, hshown, hshown']
  rfl

/-- A microampere and a microvolt below a whole number, near the bound and of either sign. -/
theorem details_show_exact_quotients_justBelowWhole :
    detailsText { current := .int 9007199254739999, voltage := .int (-9007199253999999) }
      = .ok "\n9007199254739mA/h / -9007199253V" := by
  obtain ⟨_, _, _, _, _, _, hline⟩ := details_show_exact_quotients
    (c := { current := .int 9007199254739999, voltage := .int (-9007199253999999) }) rfl rfl (by decide)
    (by decide +kernel) (by decide +kernel)
  rw [hline]
  decide +kernel

/-- Somewhat above the bound a quotient does reach the next whole number. -/
example : wholeQuotient (.int 17592186044416999) 1000 = .ok 17592186044417 := by
  decide +kernel

end LockScreen
