import LockScreen.Proofs.Json.Values
import LockScreen.Proofs.Number.Wholes
import LockScreen.Settings.Merge

/-!
# Rates that are read

A value of a payload gives a rate (`GivesRate`) if it is no flag and has an integer part as a binary64 number, and two
values give thresholds exactly if the rates that they give are valid (`thresholdsOfRates_eq_ok_iff`).

What is left of a binary64 number without its fraction is one itself. So a rate that was read once is read again as it
is (`rateOfValue_again`), and thresholds are, too, whether their value names both rates or leaves one in force
(`readThresholds_again`).
-/

namespace LockScreen.Settings

theorem isWhole_of_rateOfValue {v : Value} {i : Int} (h : rateOfValue v = .ok i) : Binary64.IsWhole i := by
  obtain ⟨x, _, htruncate⟩ := exists_ok_of_bind h
  exact Binary64.isWhole_of_truncate htruncate

/-- A whole rate is taken from a payload as it is. -/
theorem rateOfValue_int {i : Int} (h : Binary64.IsWhole i) : rateOfValue (.int i) = .ok i := by
  rw [rateOfValue, Value.toBinary64, Binary64.truncate_ofInt? h]

/-- A rate that was read is read again as it is. -/
theorem rateOfValue_again {v : Value} {i : Int} (h : rateOfValue v = .ok i) : rateOfValue (.int i) = .ok i :=
  rateOfValue_int (isWhole_of_rateOfValue h)

/-- A value gives a rate. Flags, which are numbers elsewhere, give none. -/
structure GivesRate (v : Value) (rate : Int) : Prop where
  not_flag : ∀ b, v ≠ .bool b
  read : rateOfValue v = .ok rate

theorem givesRate_int {v : Value} {rate i : Int} (hv : v = .int i) (h : rateOfValue (.int i) = .ok rate) :
    GivesRate v rate := by
  subst hv
  exact ⟨fun _ => Value.noConfusion, h⟩

/-- Two values give thresholds exactly if they give the rates of them and these are valid. -/
theorem thresholdsOfRates_eq_ok_iff {slow fast : Value} {t : Thresholds} :
    thresholdsOfRates slow fast = .ok t ↔ GivesRate slow t.slow ∧ GivesRate fast t.fast ∧ t.Valid := by
  unfold thresholdsOfRates
  split
  · refine iff_of_false (fun h => nomatch h) ?_
    rintro ⟨⟨hflag, _⟩, _⟩
    exact hflag _ rfl
  · refine iff_of_false (fun h => nomatch h) ?_
    rintro ⟨_, ⟨hflag, _⟩, _⟩
    exact hflag _ rfl
  · rename_i hslow hfast
    constructor
    · intro h
      split at h
      · rename_i rates hrates
        cases h
        obtain ⟨i, hi, hrates⟩ := exists_ok_of_bind hrates
        obtain ⟨j, hj, hrates⟩ := exists_ok_of_bind hrates
        obtain ⟨rfl, hvalid⟩ := Thresholds.ofRates_eq_ok_iff.mp hrates
        exact ⟨⟨hslow, hi⟩, ⟨hfast, hj⟩, hvalid⟩
      · cases h
    · rintro ⟨⟨_, hi⟩, ⟨_, hj⟩, hvalid⟩
      have hrates : Thresholds.ofRates t.slow t.fast = .ok t :=
        Thresholds.ofRates_eq_ok_iff.mpr ⟨rfl, hvalid⟩
      rw [hi, hj]
      simp only [bind, Except.bind, hrates]

/-! ## Reading again -/

/-- A rate that is not named was read from the one in force, and is read again from what came of it. -/
theorem givesRate_namedRate_again {fields : List (Text × Value)} {long short : Text} {inForce i : Int}
    (h : GivesRate (namedRate fields long short inForce) i) : GivesRate (namedRate fields long short i) i := by
  unfold namedRate at h ⊢
  cases hnamed : (Value.lookup long fields).or (Value.lookup short fields) with
  | none => exact givesRate_int rfl (rateOfValue_again h.read)
  | some v =>
    rw [hnamed] at h
    exact h

theorem thresholdsOfFields_again {fields : List (Text × Value)} {inForce read : Thresholds}
    (h : thresholdsOfFields fields inForce = .ok read) : thresholdsOfFields fields read = .ok read := by
  obtain ⟨hslow, hfast, hvalid⟩ := thresholdsOfRates_eq_ok_iff.mp h
  exact thresholdsOfRates_eq_ok_iff.mpr
    ⟨givesRate_namedRate_again hslow, givesRate_namedRate_again hfast, hvalid⟩

theorem readThresholds_again {v : Value} {inForce read : Thresholds} (h : readThresholds v inForce = .ok read) :
    readThresholds v read = .ok read := by
  unfold readThresholds at h ⊢
  split at h
  · rfl
  · exact h
  · split at h
    · exact thresholdsOfFields_again h
    · exact thresholdsOfFields_again h
    · cases h
  · exact h
  · cases h
  · cases h

end LockScreen.Settings
