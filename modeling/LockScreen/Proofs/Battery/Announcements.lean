import LockScreen.Proofs.Battery.Durations
import LockScreen.Proofs.Battery.Estimates
import LockScreen.Proofs.Text.Places

/-!
# The estimate in the charging text

A battery that charges with an estimate is announced by the template for its speed, with the duration in every place,
and by the details where they are wanted (`chargingText_of_estimates`). A duration begins with a digit and the details
with a line break, and neither opens a brace, so whatever else a template holds, no place for the time is left in the
whole text (`estimate_in_every_place`).
-/

namespace LockScreen

open Text

/-! ## Texts that stand apart -/

/-- Characters stand apart if the first one is a digit and no brace is opened among them. -/
theorem Text.apart_of_isPlainDigit {c : Char} {cs : List Char} (hc : isPlainDigit c = true) (hbrace : '{' ∉ cs) :
    Apart (ofChars (c :: cs)).letters := by
  refine ⟨.char c, cs.map .char, rfl, fun hmem => ?_, ?_⟩
  · have hplaces : "\x7btime\x7d".toList.all (!isPlainDigit ·) = true := by decide
    obtain ⟨d, hd, hchar⟩ := List.mem_map.mp hmem
    cases hchar
    have hnot := List.all_eq_true.mp hplaces c hd
    rw [hc] at hnot
    cases hnot
  · rwa [List.mem_map_of_injective fun _ _ h => Letter.char.inj h]

/-- Neither a number nor its sign opens a brace. -/
theorem Text.brace_notMem_integerText (i : Int) : '{' ∉ integerText i := by
  have hdigits := notMem_decimalText_append (c := '{') (by decide) i.natAbs List.not_mem_nil
  rw [List.append_nil] at hdigits
  unfold integerText
  split
  · exact List.not_mem_cons_of_ne_of_not_mem (by decide) hdigits
  · exact hdigits

namespace Duration

theorem brace_notMem_text (d : Duration) : '{' ∉ d.text := by
  have hnumber (n : Nat) {word : List Char} (hword : '{' ∉ word) : '{' ∉ decimalText n ++ word :=
    notMem_decimalText_append (by decide) n hword
  cases d with
  | minutes n | hours n => exact hnumber n (by decide)
  | hourAnd n | dayAnd n =>
    dsimp only [text]
    rw [List.append_assoc, List.mem_append, not_or]
    exact ⟨by decide, hnumber n (by decide)⟩
  | days n =>
    dsimp only [text]
    split
    · decide
    · exact hnumber n (by decide)

/-- A duration text begins with a digit. -/
theorem exists_text_cons (d : Duration) : ∃ c cs, d.text = c :: cs ∧ isPlainDigit c = true := by
  have hnumber (n : Nat) (word : List Char) : ∃ c cs, decimalText n ++ word = c :: cs ∧ isPlainDigit c = true := by
    obtain ⟨c, cs, hcs⟩ := List.exists_cons_of_ne_nil (decimalText_ne_nil n)
    refine ⟨c, cs ++ word, by rw [hcs]; rfl, isPlainDigit_of_mem_decimalText n c ?_⟩
    rw [hcs]
    exact List.mem_cons_self
  cases d with
  | minutes n | hours n => exact hnumber n _
  | hourAnd n | dayAnd n => exact ⟨'1', _, rfl, by decide⟩
  | days n =>
    dsimp only [text]
    split
    · exact ⟨'1', _, rfl, by decide⟩
    · exact hnumber n _

theorem apart_text (d : Duration) : Apart (ofChars d.text).letters := by
  obtain ⟨c, cs, htext, hc⟩ := d.exists_text_cons
  have hbrace := d.brace_notMem_text
  rw [htext] at hbrace ⊢
  exact apart_of_isPlainDigit hc (List.not_mem_of_not_mem_cons hbrace)

end Duration

/-! ## Details -/

/-- The line of details, with its line break. -/
def detailsLine (milliamperes volts : Int) : Text :=
  "\n" ++ ofChars (integerText milliamperes) ++ "mA/h / " ++ ofChars (integerText volts) ++ "V"

/-- What follows the announcement: the line of details where it is wanted and there is a current, else nothing. -/
def ChargeState.EndsWith (c : ChargeState) (options : DetailOptions) (details : Text) : Prop :=
  if options.whileCharging = true ∧ c.current ≠ .int 0 then
    ∃ milliamperes volts, wholeQuotient c.current 1000 = .ok milliamperes ∧
      wholeQuotient c.voltage 1000000 = .ok volts ∧ details = detailsLine milliamperes volts
  else details = ""

theorem apart_detailsLine (milliamperes volts : Int) : Apart (detailsLine milliamperes volts).letters := by
  refine ⟨.char '\n', (integerText milliamperes ++ "mA/h / ".toList ++ integerText volts ++ "V".toList).map .char,
    ?_, by decide, ?_⟩
  · simp only [List.map_append]
    rfl
  · rw [List.mem_map_of_injective fun _ _ h => Letter.char.inj h]
    simp only [List.mem_append, brace_notMem_integerText, false_or, or_false]
    decide

theorem ChargeState.Sensible.exists_endsWith {c : ChargeState} (h : c.Sensible) (options : DetailOptions) :
    ∃ details, c.details options = .ok details ∧ c.EndsWith options details := by
  unfold ChargeState.details ChargeState.EndsWith
  by_cases hwanted : options.whileCharging = true
  · obtain ⟨milliamperes, hmilliamperes⟩ := exists_wholeQuotient h.moderate.current 1000
    obtain ⟨volts, hvolts⟩ := exists_wholeQuotient h.moderate.voltage 1000000
    obtain ⟨current, voltage, hcurrent, _⟩ := h
    have hzero : c.current.measure?.any Number.isZero = decide (current = 0) := by
      rw [hcurrent]
      rfl
    simp only [hwanted, if_true, true_and]
    unfold detailsText
    rw [hzero]
    by_cases hnone : current = 0
    · subst hnone
      refine ⟨"", rfl, ?_⟩
      simp [hcurrent]
    · have hne : c.current ≠ .int 0 := fun heq => hnone (Value.int.inj (hcurrent.symm.trans heq))
      simp only [hnone, decide_false, Bool.false_eq_true, if_false, hmilliamperes, hvolts]
      exact ⟨detailsLine milliamperes volts, rfl, by
        rw [if_pos hne]
        exact ⟨milliamperes, volts, rfl, rfl, rfl⟩⟩
  · simp only [hwanted]
    exact ⟨"", rfl, rfl⟩

/-! ## The whole text -/

/-- The value is an estimate of so many whole milliseconds: a number below `10³⁰⁰`, cut off to at least one. -/
def Value.Estimates (v : Value) (millis : Int) : Prop :=
  ∃ n, v.number? = some n ∧ n.isBelow (Nat.pow 10 300 : Nat) = true ∧ n.truncate = .ok millis ∧ 1 ≤ millis

theorem Value.Estimates.estimateOf {v : Value} {millis : Int} (h : v.Estimates millis) :
    estimateOf v = .ok millis := by
  obtain ⟨n, hnumber, hbelow, hmillis, hpositive⟩ := h
  cases v with
  | int i =>
    cases hnumber
    cases hmillis
    rw [Number.isBelow_int, decide_eq_true_eq] at hbelow
    have hfits : ¬Binary64.Huge millis := by
      have hlimit : Nat.pow 10 300 + Nat.pow 2 970 < Nat.pow 2 1024 := by decide +kernel
      unfold Binary64.Huge
      omega
    have hx : (Number.int millis).toBinary64 = .ok (.ofInt millis) := by
      simp only [Number.toBinary64, Binary64.ofInt?_of_not_huge hfits]
    rw [estimateOf_of_toBinary64 rfl hx, if_pos (Binary64.isFinite_ofInt_iff.mpr hfits)]
    rfl
  | float x =>
    cases hnumber
    have hfinite : x.isFinite = true := by
      cases x with
      | finite => rfl
      | infinite | nan => cases hmillis
    rw [estimateOf_of_toBinary64 rfl rfl, if_pos hfinite]
    exact hmillis
  | _ => cases hnumber

variable {c : ChargeState} {p : Phrases} {options : DetailOptions} {v : Value} {millis : Int} {details : Text}

/-- With an estimate the text is the announcement for the speed, with the details. -/
theorem chargingText_of_estimates (hcharged : c.charged = false) (hdetails : c.details options = .ok details)
    (h : v.Estimates millis) (j : Journal) :
    chargingText c p options (some (.gives v)) j
      = (.ok (p.announce c.speed millis ++ details), j.estimateAnswered) := by
  unfold ChargeState.details at hdetails
  unfold chargingText
  rw [hdetails]
  simp only [hcharged, Bool.false_eq_true, if_false, askEstimate, h.estimateOf]
  rfl

/-- With an estimate and readings of a sensible size, the text of a battery that charges is the template for its speed
with the duration in every place, followed by the details where they are wanted and there is a current. The duration
stands in it at least once, and no place for the time is left, whatever else the template holds. -/
theorem estimate_in_every_place (hp : p.Valid) (hc : c.Sensible) (hcharged : c.charged = false)
    (h : v.Estimates millis) (options : DetailOptions) (j : Journal) :
    ∃ announcement details : Text,
      (chargingText c p options (some (.gives v)) j).1 = .ok (announcement ++ details) ∧
        Fills (ofChars (Duration.ofMillis millis).text).letters (p.template c.speed).letters announcement.letters ∧
        c.EndsWith options details ∧
        (ofChars (Duration.ofMillis millis).text).letters <:+: (announcement ++ details).letters ∧
        ¬timePlace <:+: (announcement ++ details).letters := by
  obtain ⟨details, hdetails, hends⟩ := hc.exists_endsWith options
  have hpositive : 0 < millis := h.choose_spec.2.2.2
  have hplace : timePlace <:+: (p.template c.speed).letters := by
    rw [← hasTimePlace_iff]
    cases c.speed with
    | slow => exact hp .chargingTimeSlowly rfl
    | normal => exact hp .chargingTime rfl
    | fast => exact hp .chargingTimeFast rfl
  have hfills := fills_fillTime (ofChars (Duration.ofMillis millis).text).letters (p.template c.speed).letters
  have hnone := hfills.holds_no_place (Duration.ofMillis millis).apart_text
  have hannounce : p.announce c.speed millis
      = ⟨fillTime (ofChars (Duration.ofMillis millis).text).letters (p.template c.speed).letters⟩ := if_pos hpositive
  refine ⟨p.announce c.speed millis, details, ?_, ?_, hends, ?_, ?_⟩
  · rw [chargingText_of_estimates hcharged hdetails h]
  · rw [hannounce]
    exact hfills
  · rw [hannounce]
    exact (hfills.holds_time hplace).trans (List.prefix_append _ _).isInfix
  · rw [hannounce]
    show ¬timePlace <:+: fillTime _ _ ++ details.letters
    unfold ChargeState.EndsWith at hends
    split at hends
    · obtain ⟨milliamperes, volts, _, _, rfl⟩ := hends
      intro hleft
      rw [← List.append_nil (fillTime _ _ ++ _)] at hleft
      exact ((apart_detailsLine milliamperes volts).infix_append hleft).elim hnone (by decide)
    · subst hends
      rwa [show (("" : Text)).letters = [] from rfl, List.append_nil]

/-- Phrases whose announcement has a place inside a broken one. -/
def brokenPlaces : Phrases :=
  { Phrases.standard with chargingTime := "\x7bti\x7btime\x7dme\x7d or \x7btime\x7d" }

theorem estimate_in_every_place_brokenPlaces :
    (chargingText atFiveVolts.charge brokenPlaces { whileCharging := true } (some (.gives (.int 300000))) {}).1
        = .ok "\x7bti5 minme\x7d or 5 min\n900mA/h / 5V" ∧
      ¬timePlace <:+: ("\x7bti5 minme\x7d or 5 min\n900mA/h / 5V" : Text).letters := by
  have hestimate : (Value.int 300000).Estimates 300000 := ⟨.int 300000, rfl, by decide +kernel, rfl, by decide⟩
  have htext : (chargingText atFiveVolts.charge brokenPlaces { whileCharging := true }
      (some (.gives (.int 300000))) {}).1 = .ok "\x7bti5 minme\x7d or 5 min\n900mA/h / 5V" := by
    decide +kernel
  obtain ⟨announcement, details, htext', _, _, _, hnone⟩ := estimate_in_every_place (p := brokenPlaces)
    (by decide) sensible_atFiveVolts rfl hestimate { whileCharging := true } {}
  rw [← Except.ok.inj (htext.symm.trans htext')] at hnone
  exact ⟨htext, hnone⟩

end LockScreen
