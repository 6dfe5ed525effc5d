import LockScreen.Proofs.Battery.Durations

/-!
# One text for each length

A duration is in normal form (`IsNormal`) if its counts leave nothing that would make up a larger unit. A normal form
is shown again for the time that it denotes (`ofMinutes_inMinutes`), so normal forms of equal length are equal.

Rounding to hours does not always end in a normal form: from 23 hours and a half on it ends in 24 hours
(`ofMinutes_eq_twentyFourHours_iff`), where the carry to the day is missing. This form is the only one
(`isNormal_or_twentyFourHours`): every other text is shown again for what it denotes, and only this one shares its
length with another text (`text_canonical_below_fullDay`, `not_forall_text_canonical`).
-/

namespace LockScreen.Duration

/-- Every count is smaller than the number that makes up a larger unit, and none that stands beside a unit is zero. -/
def IsNormal : Duration → Prop
  | minutes n => n < 60
  | hours n => 1 ≤ n ∧ n < 24
  | hourAnd n => 1 ≤ n ∧ n < 60
  | days n => 1 ≤ n
  | dayAnd n => 1 ≤ n ∧ n < 24

variable {d : Duration}

/-- The form of a time that is given by its days, hours and minutes. -/
theorem ofMinutes_of_units (dayCount : Nat) {hourCount minuteCount : Nat} (hhours : hourCount < 24)
    (hminutes : minuteCount < 60) :
    ofMinutes (1440 * dayCount + 60 * hourCount + minuteCount) =
      if 2 ≤ dayCount then .days (dayCount + (hourCount + 12) / 24)
      else if dayCount = 1 then if hourCount = 0 then .days 1 else .dayAnd hourCount
      else if 2 ≤ hourCount then .hours (hourCount + (minuteCount + 30) / 60)
      else if hourCount = 1 then if minuteCount = 0 then .hours 1 else .hourAnd minuteCount
      else .minutes minuteCount := by
  have hday : (1440 * dayCount + 60 * hourCount + minuteCount) / 1440 = dayCount := by omega
  have hhour : (1440 * dayCount + 60 * hourCount + minuteCount) % 1440 / 60 = hourCount := by omega
  have hminute : (1440 * dayCount + 60 * hourCount + minuteCount) % 60 = minuteCount := by omega
  rw [ofMinutes, hday, hhour, hminute]

/-- A normal form is shown again for the time that it denotes. -/
theorem ofMinutes_inMinutes (h : d.IsNormal) : ofMinutes d.inMinutes = d := by
  cases d with
  | minutes n =>
    have hform := ofMinutes_of_units 0 (by omega : 0 < 24) h
    rw [Nat.mul_zero, Nat.zero_add, Nat.zero_add] at hform
    exact hform
  | hours n =>
    obtain ⟨hpos, hlt⟩ := h
    have hform := ofMinutes_of_units 0 hlt (by omega : 0 < 60)
    rw [Nat.mul_zero, Nat.zero_add, Nat.add_zero] at hform
    show ofMinutes (60 * n) = hours n
    rw [hform, if_neg (by omega), if_neg (by omega)]
    by_cases hone : n = 1
    · rw [hone]
      rfl
    · rw [if_pos (by omega)]
      rfl
  | hourAnd n =>
    obtain ⟨hpos, hlt⟩ := h
    have hform := ofMinutes_of_units 0 (by omega : 1 < 24) hlt
    show ofMinutes (60 + n) = hourAnd n
    rw [Nat.mul_zero, Nat.mul_one, Nat.zero_add] at hform
    rw [hform, if_neg (by omega), if_neg (by omega), if_neg (by omega), if_pos rfl, if_neg (by omega)]
  | days n =>
    have hpos : 1 ≤ n := h
    have hform := ofMinutes_of_units n (by omega : 0 < 24) (by omega : 0 < 60)
    rw [Nat.mul_zero, Nat.add_zero, Nat.add_zero] at hform
    show ofMinutes (1440 * n) = days n
    by_cases hone : n = 1
    · rw [hone]
      rfl
    · rw [hform, if_pos (by omega)]
  | dayAnd n =>
    obtain ⟨hpos, hlt⟩ := h
    have hform := ofMinutes_of_units 1 hlt (by omega : 0 < 60)
    rw [Nat.mul_one, Nat.add_zero] at hform
    show ofMinutes (1440 + 60 * n) = dayAnd n
    rw [hform, if_neg (by omega), if_pos rfl, if_neg (by omega)]

theorem ofMinutes_eq_twentyFourHours_iff {total : Nat} :
    ofMinutes total = hours 24 ↔ 1410 ≤ total ∧ total < 1440 := by
  unfold ofMinutes
  dsimp only
  split_ifs <;> simp only [hours.injEq, false_iff] <;> omega

/-- The missing carry is the only way out of the normal forms. -/
theorem isNormal_or_twentyFourHours (total : Nat) : (ofMinutes total).IsNormal ∨ ofMinutes total = hours 24 := by
  rw [ofMinutes_eq_twentyFourHours_iff]
  unfold ofMinutes
  dsimp only
  split_ifs <;> simp only [IsNormal] <;> omega

/-- What a shown form is shown as, for the time that it denotes. -/
theorem ofMinutes_inMinutes_ofMinutes (total : Nat) :
    ofMinutes (ofMinutes total).inMinutes = if ofMinutes total = hours 24 then days 1 else ofMinutes total := by
  rcases isNormal_or_twentyFourHours total with hnormal | hfull
  · have hne : ofMinutes total ≠ hours 24 := by
      intro hfull
      rw [hfull] at hnormal
      exact absurd hnormal.2 (by decide)
    rw [if_neg hne, ofMinutes_inMinutes hnormal]
  · rw [if_pos hfull, hfull]
    rfl

/-- Two shown forms of equal length are equal, but for the full day in hours. -/
theorem inMinutes_eq_iff (m n : Nat) :
    (ofMinutes m).inMinutes = (ofMinutes n).inMinutes ↔ ofMinutes m = ofMinutes n ∨
      (ofMinutes m = hours 24 ∧ ofMinutes n = days 1) ∨ (ofMinutes m = days 1 ∧ ofMinutes n = hours 24) := by
  constructor
  · intro heq
    -- forms of equal length are shown again as one form
    have hm := ofMinutes_inMinutes_ofMinutes m
    have hn := ofMinutes_inMinutes_ofMinutes n
    rw [heq, hn] at hm
    split_ifs at hm with hnfull hmfull hmfull
    · exact .inl (hmfull.trans hnfull.symm)
    · exact .inr (.inr ⟨hm.symm, hnfull⟩)
    · exact .inr (.inl ⟨hmfull, hm⟩)
    · exact .inl hm.symm
  · rintro (heq | ⟨hm, hn⟩ | ⟨hm, hn⟩)
    · rw [heq]
    · rw [hm, hn]
      rfl
    · rw [hm, hn]
      rfl

/-! ## Texts -/

theorem parts_injective : Function.Injective parts := by
  intro d e h
  cases d <;> cases e <;> simp_all [parts]

/-- Durations are told apart by their texts. -/
theorem text_injective : Function.Injective text := by
  intro d e h
  have hparts := readParts?_text d
  rw [h, readParts?_text, Option.some_inj] at hparts
  exact parts_injective hparts.symm

/-- Whole minutes are not rounded up. -/
theorem minutesUp_mul {minutes : Nat} (h : 1 ≤ minutes) : minutesUp (60000 * minutes) = minutes := by
  unfold minutesUp
  omega

theorem one_le_inMinutes_ofMillis (m : Int) : 1 ≤ (ofMillis m).inMinutes := by
  have hup : 1 ≤ minutesUp m := Nat.le_max_left ..
  rw [ofMillis, inMinutes_ofMinutes]
  split_ifs <;> omega

/-- The text for any number of milliseconds denotes a time, and this time is shown with the same text again, but for
the text of 24 hours: it stands for the last half hour before the day, and is shown again as a day. Two texts denote the
same length exactly if they are equal or these two. -/
theorem text_canonical_below_fullDay (m n : Int) :
    (∃ minutes, minutesOf? (ofMillis m).text = some minutes ∧
      (ofMillis (60000 * minutes)).text =
        if (ofMillis m).text = "24 hr".toList then "1 day".toList else (ofMillis m).text) ∧
    ((ofMillis m).text = "24 hr".toList ↔ 84540000 < m ∧ m ≤ 86340000) ∧
    (minutesOf? (ofMillis m).text = minutesOf? (ofMillis n).text ↔ (ofMillis m).text = (ofMillis n).text ∨
      ((ofMillis m).text = "24 hr".toList ∧ (ofMillis n).text = "1 day".toList) ∨
      ((ofMillis m).text = "1 day".toList ∧ (ofMillis n).text = "24 hr".toList)) := by
  have hfull (d : Duration) : d.text = "24 hr".toList ↔ d = hours 24 := text_injective.eq_iff' (by decide +kernel)
  have hday (d : Duration) : d.text = "1 day".toList ↔ d = days 1 := text_injective.eq_iff' (by decide +kernel)
  have hagain : ofMillis (60000 * (ofMillis m).inMinutes) = if ofMillis m = hours 24 then days 1 else ofMillis m := by
    rw [ofMillis, minutesUp_mul (one_le_inMinutes_ofMillis m)]
    exact ofMinutes_inMinutes_ofMinutes (minutesUp m)
  refine ⟨⟨(ofMillis m).inMinutes, minutesOf?_text _, ?_⟩, ?_, ?_⟩
  · simp only [hfull, hagain]
    split_ifs
    · exact (hday _).mpr rfl
    · rfl
  · rw [hfull, ofMillis, ofMinutes_eq_twentyFourHours_iff]
    unfold minutesUp
    omega
  · simp only [minutesOf?_text, Option.some_inj, hfull, hday, text_injective.eq_iff]
    exact inMinutes_eq_iff (minutesUp m) (minutesUp n)

/-- The time of 23 hours and a half is shown as 24 hours, which are shown as a day. -/
theorem not_forall_text_canonical :
    (¬ ∀ (m : Int) (minutes : Nat), minutesOf? (ofMillis m).text = some minutes →
      (ofMillis (60000 * minutes)).text = (ofMillis m).text) ∧
    ¬ ∀ m n, minutesOf? (ofMillis m).text = minutesOf? (ofMillis n).text →
      (ofMillis m).text = (ofMillis n).text := by
  have hshown : (ofMillis 84600000).text = "24 hr".toList := by decide +kernel
  have hday : (ofMillis 86400000).text = "1 day".toList := by decide +kernel
  have hne : "1 day".toList ≠ "24 hr".toList := by decide
  constructor
  · intro hall
    have hagain := hall 84600000 1440 (by rw [hshown]; decide +kernel)
    rw [hshown] at hagain
    exact hne (hday.symm.trans hagain)
  · intro hall
    have hequal := hall 86400000 84600000 (by rw [hshown, hday]; decide +kernel)
    rw [hshown, hday] at hequal
    exact hne hequal

end LockScreen.Duration
