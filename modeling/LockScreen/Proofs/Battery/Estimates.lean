import LockScreen.Line
import LockScreen.Proofs.Json.Values
import LockScreen.Proofs.Number.Range

/-!
# Whatever the estimate is

The source of the estimate may answer anything, and may fail. An answer holds an estimate if it is a finite number
with a positive whole part (`Value.IsEstimate`); nearly every other one counts as none (`estimateOf_of_fits`). The
exception is an integer that is too large for a binary64 number, of either sign: it is tested for being finite as one,
and the charging text fails with it (`chargingText_of_huge`).

With measurements of a sensible size nothing else can fail, so the text of a battery and the line on the screen are
there for every source but one with such an answer.
-/

namespace LockScreen

/-! ## Estimates -/

/-- An answer that holds an estimate: a finite number of at least one whole millisecond. -/
def Value.IsEstimate (v : Value) : Prop :=
  ∃ n millis, v.number? = some n ∧ n.truncate = .ok millis ∧ 0 < millis

/-- The source answers with an integer that is too large for a number. -/
def Answer.IsHuge (a : Answer) : Prop :=
  ∃ v, a = .gives v ∧ v.IsHuge

/-- The source answers with an estimate. -/
def Answer.HoldsEstimate (a : Answer) : Prop :=
  ∃ v, a = .gives v ∧ v.IsEstimate

theorem Binary64.exists_truncate {x : Binary64} (h : x.isFinite = true) : ∃ i, x.truncate = .ok i := by
  cases x with
  | finite negative units representable => exact ⟨_, rfl⟩
  | infinite negative => cases h
  | nan => cases h

theorem estimateOf_of_huge {v : Value} (h : v.IsHuge) : estimateOf v = .error .integerTooLarge := by
  obtain ⟨i, rfl, hhuge⟩ := h
  unfold estimateOf
  simp only [Value.number?, Number.toBinary64, Binary64.ofInt?_of_huge hhuge]
  rfl

theorem estimateOf_of_toBinary64 {v : Value} {n : Number} {x : Binary64} (hnumber : v.number? = some n)
    (hx : n.toBinary64 = .ok x) : estimateOf v = if x.isFinite then n.truncate else .ok 0 := by
  unfold estimateOf
  rw [hnumber]
  dsimp only
  rw [hx]
  rfl

/-- A number that is finite where it is tested has an integer part. -/
theorem exists_finite_of_fits {v : Value} {n : Number} (hnumber : v.number? = some n) (h : ¬v.IsHuge) :
    ∃ x, n.toBinary64 = .ok x ∧ (x.isFinite = true → ∃ millis, n.truncate = .ok millis) := by
  cases v with
  | int i =>
    cases hnumber
    have hfits : ¬Binary64.Huge i := fun hhuge => h ⟨i, rfl, hhuge⟩
    refine ⟨Binary64.ofInt i, ?_, fun _ => ⟨i, rfl⟩⟩
    simp only [Number.toBinary64, Binary64.ofInt?_of_not_huge hfits]
  | float x =>
    cases hnumber
    exact ⟨x, rfl, Binary64.exists_truncate⟩
  | _ => cases hnumber

/-- Any other answer gives a number of milliseconds, which is not positive where the answer holds no estimate. -/
theorem estimateOf_of_fits {v : Value} (h : ¬v.IsHuge) :
    ∃ millis, estimateOf v = .ok millis ∧ (¬v.IsEstimate → millis ≤ 0) := by
  cases hnumber : v.number? with
  | none =>
    refine ⟨0, ?_, fun _ => Int.le_refl 0⟩
    unfold estimateOf
    rw [hnumber]
  | some n =>
    obtain ⟨x, hx, htruncate⟩ := exists_finite_of_fits hnumber h
    rw [estimateOf_of_toBinary64 hnumber hx]
    split
    · rename_i hfinite
      obtain ⟨millis, hmillis⟩ := htruncate hfinite
      refine ⟨millis, hmillis, fun hno => ?_⟩
      by_contra hpositive
      exact hno ⟨n, millis, hnumber, hmillis, by omega⟩
    · exact ⟨0, rfl, fun _ => Int.le_refl 0⟩

theorem askEstimate_of_fits {source : Option Answer} (h : ∀ a ∈ source, ¬a.IsHuge) (j : Journal) :
    ∃ millis, (askEstimate source j).1 = .ok millis ∧
      ((∀ a ∈ source, ¬a.HoldsEstimate) → millis ≤ 0) := by
  cases source with
  | none => exact ⟨0, rfl, fun _ => Int.le_refl 0⟩
  | some a =>
    cases a with
    | fails text => exact ⟨0, rfl, fun _ => Int.le_refl 0⟩
    | gives v =>
      have hfits : ¬v.IsHuge := fun hhuge => h _ rfl ⟨v, rfl, hhuge⟩
      obtain ⟨millis, hmillis, hnone⟩ := estimateOf_of_fits hfits
      exact ⟨millis, hmillis, fun hno => hnone fun hestimate => hno _ rfl ⟨v, rfl, hestimate⟩⟩

/-! ## The charging text -/

/-- The measured current and voltage are integers of at most three hundred digits. -/
def ChargeState.Sensible (c : ChargeState) : Prop :=
  ∃ current voltage : Int, c.current = .int current ∧ c.voltage = .int voltage ∧
    current.natAbs < Nat.pow 10 300 ∧ voltage.natAbs < Nat.pow 10 300

/-- An estimate is asked for, and its answer is too large for a number. -/
def ChargeState.Overstrained (c : ChargeState) (source : Option Answer) : Prop :=
  c.charged = false ∧ ∃ a ∈ source, a.IsHuge

/-- A finite number of at most three hundred digits before the point. -/
def Number.Moderate : Number → Prop
  | .int i => i.natAbs < Nat.pow 10 300
  | .float (.finite _ units _) => units < Nat.pow 10 300 * unitsPerOne
  | .float _ => False

/-- The measured current and voltage are such numbers, in whatever form. -/
structure ChargeState.Moderate (c : ChargeState) : Prop where
  current : ∃ n, c.current.measure? = some n ∧ n.Moderate
  voltage : ∃ n, c.voltage.measure? = some n ∧ n.Moderate

theorem ChargeState.Sensible.moderate {c : ChargeState} (h : c.Sensible) : c.Moderate := by
  obtain ⟨current, voltage, hcurrent, hvoltage, hcurrentSize, hvoltageSize⟩ := h
  exact ⟨⟨.int current, by rw [hcurrent]; rfl, hcurrentSize⟩, ⟨.int voltage, by rw [hvoltage]; rfl, hvoltageSize⟩⟩

/-- The quotient of such a number has a whole part. -/
theorem exists_wholeQuotient {v : Value} (h : ∃ n, v.measure? = some n ∧ n.Moderate) (divisor : Nat) :
    ∃ q, wholeQuotient v divisor = .ok q := by
  obtain ⟨n, hmeasure, hmoderate⟩ := h
  unfold wholeQuotient
  rw [hmeasure]
  match n, hmoderate with
  | .int i, hi =>
    obtain ⟨x, hquotient, hfinite⟩ := Binary64.exists_quotient hi divisor
    obtain ⟨q, hq⟩ := Binary64.exists_truncate hfinite
    refine ⟨q, ?_⟩
    simp only [hquotient]
    exact hq
  | .float (.finite negative units representable), hunits =>
    exact Binary64.exists_truncate (Binary64.isFinite_ofUnitRatio hunits negative divisor)

theorem ChargeState.Moderate.exists_detailsText {c : ChargeState} (h : c.Moderate) :
    ∃ details, detailsText c = .ok details := by
  unfold detailsText
  split
  · exact ⟨_, rfl⟩
  · obtain ⟨milliamperes, hmilliamperes⟩ := exists_wholeQuotient h.current 1000
    obtain ⟨volts, hvolts⟩ := exists_wholeQuotient h.voltage 1000000
    rw [hmilliamperes, hvolts]
    exact ⟨_, rfl⟩

variable {c : ChargeState} {p : Phrases} {options : DetailOptions} {source : Option Answer} {j : Journal}

/-- The details that are worked out before any estimate is asked for. -/
def ChargeState.details (c : ChargeState) (options : DetailOptions) : Except Fault Text :=
  if options.whileCharging then detailsText c else .ok ""

theorem ChargeState.Moderate.exists_details (h : c.Moderate) (options : DetailOptions) :
    ∃ details, c.details options = .ok details := by
  unfold ChargeState.details
  split
  · exact h.exists_detailsText
  · exact ⟨_, rfl⟩

theorem chargingText_of_huge (h : c.Sensible) (hstrain : c.Overstrained source) :
    (chargingText c p options source j).1 = .error .integerTooLarge := by
  obtain ⟨hcharged, a, ha, v, rfl, hhuge⟩ := hstrain
  cases ha
  obtain ⟨details, hdetails⟩ := h.moderate.exists_details options
  unfold ChargeState.details at hdetails
  unfold chargingText
  simp only [hdetails, hcharged, Bool.false_eq_true, if_false, askEstimate, estimateOf_of_huge hhuge]
  rfl

theorem ChargeState.Moderate.exists_chargingText (h : c.Moderate) (hfits : ¬c.Overstrained source) :
    ∃ text, (chargingText c p options source j).1 = .ok text := by
  obtain ⟨details, hdetails⟩ := h.exists_details options
  unfold ChargeState.details at hdetails
  unfold chargingText
  rw [hdetails]
  cases hcharged : c.charged with
  | true => exact ⟨_, rfl⟩
  | false =>
    have hnotHuge : ∀ a ∈ source, ¬a.IsHuge := fun a ha hhuge => hfits ⟨hcharged, a, ha, hhuge⟩
    obtain ⟨millis, hmillis, _⟩ := askEstimate_of_fits hnotHuge j
    simp only [Bool.false_eq_true, if_false, hmillis]
    exact ⟨_, rfl⟩

theorem exists_chargingText (h : c.Sensible) (hfits : ¬c.Overstrained source) :
    ∃ text, (chargingText c p options source j).1 = .ok text :=
  h.moderate.exists_chargingText hfits

/-- Without an estimate the text is the plain phrase for the speed, with the details. -/
theorem chargingText_of_no_estimate (hcharged : c.charged = false)
    (hnone : ∀ a ∈ source, ¬a.IsHuge ∧ ¬a.HoldsEstimate) :
    (chargingText c p options source j).1 = (c.details options).map fun details => p.plain c.speed ++ details := by
  obtain ⟨millis, hmillis, hle⟩ := askEstimate_of_fits (fun a ha => (hnone a ha).1) j
  have hplain : p.announce c.speed millis = p.plain c.speed := by
    have hmillisLe := hle fun a ha => (hnone a ha).2
    exact if_neg (by omega)
  unfold chargingText ChargeState.details
  split
  · rename_i fault hdetails
    rw [hdetails]
    rfl
  · rename_i details hdetails
    rw [hdetails]
    simp only [hcharged, Bool.false_eq_true, if_false, hmillis, Except.map, hplain]

/-! ## The line -/

/-- The line is there where the charging text is, should it come to that. -/
theorem exists_line_of_chargingText {s : Situation}
    (h : ∃ text, (chargingText s.charge p s.details source j).1 = .ok text) :
    ∃ line, (s.line p source j).1 = .ok line := by
  obtain ⟨text, htext⟩ := h
  unfold Situation.line
  split_ifs
  · exact ⟨_, rfl⟩
  · exact ⟨_, rfl⟩
  · split
    · exact ⟨_, rfl⟩
    · simp only [htext]
      exact ⟨_, rfl⟩
  · split
    · exact ⟨_, rfl⟩
    · exact ⟨_, rfl⟩

/-- With measurements of a sensible size there is a charging text and a line on the screen whatever the source of the
estimate does, failures included, unless it answers with an integer that is too large for a number; then the text
fails. A source that fails, or whose answer holds no estimate, leads to the plain phrase for the speed. -/
theorem text_whatever_the_estimate {s : Situation} (h : s.charge.Sensible) (p : Phrases) (options : DetailOptions)
    (source : Option Answer) (j : Journal) :
    (¬s.charge.Overstrained source →
      (∃ text, (chargingText s.charge p options source j).1 = .ok text) ∧
        ∃ line, (s.line p source j).1 = .ok line) ∧
      (s.charge.Overstrained source →
        (chargingText s.charge p options source j).1 = .error .integerTooLarge) ∧
      (s.charge.charged = false → (∀ a ∈ source, ¬a.IsHuge ∧ ¬a.HoldsEstimate) →
        ∃ details, s.charge.details options = .ok details ∧
          (chargingText s.charge p options source j).1 = .ok (p.plain s.charge.speed ++ details)) := by
  refine ⟨?_, chargingText_of_huge h, ?_⟩
  · intro hfits
    exact ⟨exists_chargingText h hfits, exists_line_of_chargingText (exists_chargingText h hfits)⟩
  · intro hcharged hnone
    obtain ⟨details, hdetails⟩ := h.moderate.exists_details options
    refine ⟨details, hdetails, ?_⟩
    rw [chargingText_of_no_estimate hcharged hnone, hdetails]
    rfl

/-- A battery that charges at five volts. -/
def atFiveVolts : Situation where
  visible := true
  unlocked := true
  charge := { pluggedIn := true, current := .int 900000, voltage := .int 5000000 }

theorem sensible_atFiveVolts : atFiveVolts.charge.Sensible :=
  ⟨900000, 5000000, rfl, rfl, by decide +kernel, by decide +kernel⟩

theorem text_whatever_the_estimate_notANumber :
    (∃ line, (atFiveVolts.line .standard (some (.gives (.float .nan))) {}).1 = .ok line) ∧
      (chargingText atFiveVolts.charge .standard {} (some (.gives (.float .nan))) {}).1 = .ok "Charging" := by
  have hnone : ∀ a ∈ some (Answer.gives (.float .nan)), ¬a.IsHuge ∧ ¬a.HoldsEstimate := by
    rintro a ⟨⟩
    refine ⟨?_, ?_⟩
    · rintro ⟨v, ⟨⟩, i, hi, _⟩
      cases hi
    · rintro ⟨v, ⟨⟩, n, millis, ⟨⟩, htruncate, _⟩
      cases htruncate
  obtain ⟨hthere, _, hplain⟩ := text_whatever_the_estimate sensible_atFiveVolts Phrases.standard {}
    (some (.gives (.float .nan))) {}
  refine ⟨(hthere ?_).2, ?_⟩
  · rintro ⟨_, a, ha, hhuge⟩
    exact (hnone a ha).1 hhuge
  · obtain ⟨details, hdetails, htext⟩ := hplain rfl hnone
    cases hdetails
    exact htext

/-- Not every answer leaves a charging text: an integer below zero that is too large for a number does not count as
no estimate. -/
theorem not_forall_exists_chargingText :
    ¬∀ (c : ChargeState) (p : Phrases) (options : DetailOptions) (source : Option Answer) (j : Journal),
      c.Sensible → p.Valid → ∃ text, (chargingText c p options source j).1 = .ok text := by
  intro h
  have hhuge : Binary64.Huge (-(Nat.pow 10 400 : Nat)) := by decide +kernel
  obtain ⟨text, htext⟩ := h atFiveVolts.charge .standard {} (some (.gives (.int (-(Nat.pow 10 400 : Nat))))) {}
    sensible_atFiveVolts Phrases.valid_standard
  rw [chargingText_of_huge sensible_atFiveVolts ⟨rfl, _, rfl, _, rfl, _, rfl, hhuge⟩] at htext
  cases htext

end LockScreen
