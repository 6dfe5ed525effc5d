import LockScreen.Proofs.Number.Range
import LockScreen.Proofs.Settings.Merge

/-!
# Why settings are refused

Each field of a payload is read on its own and refused for one of two reasons: its value is a bad one, or it holds
a number that is too large. What is too large depends on the reader. A rate and the interval of the tick become
binary64 numbers and a flag is tested as one, so an integer may be too large for that (`Value.IsHuge`); a rate and a
part of a colour become integers, which an infinity cannot.

A reader `KeepsOut` what is too large for it: it never accepts it, and nothing else makes it overflow. Readers that
are run one after the other keep out what each of them does (`KeepsOut.bind`), so a payload is accepted only if it
is not `Oversized`, and refused for a bad value or because it is (`keepsOut_merge`).
-/

namespace LockScreen

/-- The reading refuses whatever is too large. Otherwise it is only refused for a bad value. -/
structure KeepsOut {α : Type} (reading : Except Fault α) (oversized : Prop) : Prop where
  refused : oversized → ∃ f, reading = .error f
  blamed : ∀ f, reading = .error f → f.kind = .value ∨ f.kind = .overflow ∧ oversized

namespace KeepsOut

variable {α β : Type} {x : Except Fault α} {p q : Prop}

theorem of_ok (a : α) (hp : ¬p) : KeepsOut (.ok a : Except Fault α) p :=
  ⟨fun h => absurd h hp, fun _ h => nomatch h⟩

theorem of_value {f : Fault} (h : f.kind = .value) : KeepsOut (.error f : Except Fault α) p :=
  ⟨fun _ => ⟨f, rfl⟩, fun _ hf => .inl (by cases hf; exact h)⟩

theorem of_overflow {f : Fault} (h : f.kind = .overflow) (hp : p) : KeepsOut (.error f : Except Fault α) p :=
  ⟨fun _ => ⟨f, rfl⟩, fun _ hf => .inr (by cases hf; exact ⟨h, hp⟩)⟩

theorem congr (h : KeepsOut x p) (hpq : p ↔ q) : KeepsOut x q :=
  ⟨fun hq => h.refused (hpq.mpr hq), fun f hf => (h.blamed f hf).imp_right (And.imp_right hpq.mp)⟩

/-- Two readings, one after the other, keep out what either does. -/
theorem bind {f : α → Except Fault β} (hx : KeepsOut x p) (hf : ∀ a, KeepsOut (f a) q) :
    KeepsOut (x >>= f) (p ∨ q) := by
  cases x with
  | error e =>
    refine ⟨fun _ => ⟨e, rfl⟩, ?_⟩
    intro g hg
    cases hg
    exact (hx.blamed e rfl).imp_right (And.imp_right .inl)
  | ok a =>
    refine ⟨?_, ?_⟩
    · rintro (hp | hq)
      · obtain ⟨e, he⟩ := hx.refused hp
        cases he
      · exact (hf a).refused hq
    · intro g hg
      exact ((hf a).blamed g hg).imp_right (And.imp_right .inr)

/-- What is made of an accepted reading does not matter. -/
theorem map {f : α → β} (hx : KeepsOut x p) : KeepsOut (x >>= fun a => pure (f a)) p :=
  (hx.bind fun a => of_ok (f a) not_false).congr (or_iff_left not_false)

end KeepsOut

namespace Settings

/-! ## Thresholds -/

/-- A rate that is too large to become an integer by way of a binary64 number. -/
def OversizedRate (v : Value) : Prop :=
  v.IsHuge ∨ v.IsInfinite

theorem not_oversizedRate_of_rateOfValue {v : Value} {i : Int} (h : rateOfValue v = .ok i) :
    ¬OversizedRate v := by
  obtain ⟨x, hread, htruncate⟩ := exists_ok_of_bind h
  rintro (hhuge | ⟨negative, hinfinite⟩)
  · rw [Value.toBinary64_of_isHuge hhuge] at hread
    cases hread
  · rw [hinfinite] at hread
    cases hread
    cases htruncate

theorem error_of_rateOfValue {v : Value} {f : Fault} (h : rateOfValue v = .error f) :
    f.isRejection = true ∨ f.kind = .overflow ∧ OversizedRate v := by
  obtain hread | ⟨x, hread, htruncate⟩ := error_of_bind h
  · exact (Value.error_of_toBinary64 hread).imp_right (And.imp_right .inl)
  · cases x with
    | nan =>
      cases htruncate
      exact .inl rfl
    | infinite negative =>
      cases htruncate
      exact .inr ⟨rfl, .inr ⟨negative, hread⟩⟩
    | finite negative units representable => cases htruncate

theorem kind_of_ofRates {slow fast : Int} {f : Fault} (h : Thresholds.ofRates slow fast = .error f) :
    f.kind = .value := by
  unfold Thresholds.ofRates at h
  split at h
  · cases h
    rfl
  · split at h
    · cases h
      rfl
    · cases h

theorem error_of_rates {slow fast : Value} {f : Fault}
    (h : (do Thresholds.ofRates (← rateOfValue slow) (← rateOfValue fast)) = .error f) :
    f.isRejection = true ∨ f.kind = .overflow ∧ (OversizedRate slow ∨ OversizedRate fast) := by
  obtain hslow | ⟨i, _, h⟩ := error_of_bind h
  · exact (error_of_rateOfValue hslow).imp_right (And.imp_right .inl)
  obtain hfast | ⟨j, _, h⟩ := error_of_bind h
  · exact (error_of_rateOfValue hfast).imp_right (And.imp_right .inr)
  · exact .inl (by simp [Fault.isRejection, kind_of_ofRates h])

theorem keepsOut_thresholdsOfRates (slow fast : Value) :
    KeepsOut (thresholdsOfRates slow fast) (OversizedRate slow ∨ OversizedRate fast) := by
  unfold thresholdsOfRates
  split
  · exact .of_value rfl
  · exact .of_value rfl
  · split
    · rename_i t ht
      obtain ⟨i, hslow, ht⟩ := exists_ok_of_bind ht
      obtain ⟨j, hfast, _⟩ := exists_ok_of_bind ht
      exact .of_ok t
        (not_or.mpr ⟨not_oversizedRate_of_rateOfValue hslow, not_oversizedRate_of_rateOfValue hfast⟩)
    · rename_i f hf
      obtain hrejected | ⟨hoverflow, hrate⟩ := error_of_rates hf
      · rw [if_pos hrejected]
        exact .of_value rfl
      -- an overflow is no rejection, so it is not reworded
      · have hpassed : f.isRejection = false := by simp [Fault.isRejection, hoverflow]
        rw [hpassed]
        exact .of_overflow hoverflow hrate

/-- The rates that the fields of an object give; a rate that is not mentioned is the one in force. -/
def ratesOfFields (fields : List (Text × Value)) (inForce : Thresholds) : List Value :=
  [namedRate fields "slow_threshold" "slow" inForce.slow,
    namedRate fields "fast_threshold" "fast" inForce.fast]

/-- The rates that a value for the thresholds gives. -/
def rates (v : Value) (inForce : Thresholds) : List Value :=
  match v with
  | .object fields =>
    match Value.lookup "thresholds" fields with
    | none => ratesOfFields fields inForce
    | some (.object inner) => ratesOfFields inner inForce
    | some _ => []
  | .list [slow, fast] => [slow, fast]
  | _ => []

theorem keepsOut_thresholdsOfFields (fields : List (Text × Value)) (inForce : Thresholds) :
    KeepsOut (thresholdsOfFields fields inForce)
      (∃ rate ∈ ratesOfFields fields inForce, OversizedRate rate) :=
  (keepsOut_thresholdsOfRates _ _).congr (by simp [ratesOfFields])

theorem keepsOut_readThresholds (v : Value) (inForce : Thresholds) :
    KeepsOut (readThresholds v inForce) (∃ rate ∈ rates v inForce, OversizedRate rate) := by
  unfold readThresholds
  split
  · exact .of_ok _ (by simp [rates])
  · rename_i t
    cases h : Thresholds.ofRates t.slow t.fast with
    | ok built => exact .of_ok _ (by simp [rates])
    | error f => exact .of_value (kind_of_ofRates h)
  · split
    · rename_i hlookup
      rw [rates, hlookup]
      exact keepsOut_thresholdsOfFields _ _
    · rename_i hlookup
      rw [rates, hlookup]
      exact keepsOut_thresholdsOfFields _ _
    · exact .of_value rfl
  · exact (keepsOut_thresholdsOfRates _ _).congr (by simp [rates])
  · exact .of_value rfl
  · exact .of_value rfl

/-! ## The other fields -/

theorem keepsOut_flagOfWord (word : String) (inForce : Bool) : KeepsOut (flagOfWord word inForce) False := by
  unfold flagOfWord
  split
  · exact .of_ok _ not_false
  · split
    · exact .of_ok _ not_false
    · split
      · exact .of_ok _ not_false
      · exact .of_value rfl

theorem keepsOut_readFlag (v : Value) (inForce : Bool) : KeepsOut (readFlag v inForce) v.IsHuge := by
  unfold readFlag
  split
  · exact .of_ok _ (by simp [Value.IsHuge])
  · exact .of_ok _ (by simp [Value.IsHuge])
  · rename_i i
    by_cases hhuge : Binary64.Huge i
    · rw [Binary64.ofInt?_of_huge hhuge]
      exact .of_overflow rfl ⟨i, rfl, hhuge⟩
    · rw [Binary64.ofInt?_of_not_huge hhuge]
      exact .of_ok _ (by simpa [Value.IsHuge] using hhuge)
  · split
    · exact .of_value rfl
    · exact .of_ok _ (by simp [Value.IsHuge])
  · split
    · exact (keepsOut_flagOfWord _ _).congr (by simp [Value.IsHuge])
    · exact .of_value rfl
  · exact .of_value rfl

/-- A part of a colour that is an infinity. -/
def OversizedPart (v : Value) : Prop :=
  ∃ negative, v = .float (.infinite negative)

theorem keepsOut_partOfValue (v : Value) : KeepsOut (Color.partOfValue v) (OversizedPart v) := by
  have hbounded {part : Int} (h : ¬OversizedPart v) : KeepsOut
      (if 0 ≤ part ∧ part ≤ 255 then .ok part else .error .colorPartOutOfRange) (OversizedPart v) := by
    split
    · exact .of_ok _ h
    · exact .of_value rfl
  unfold Color.partOfValue
  cases v with
  | int i => exact hbounded (by simp [OversizedPart])
  | float x =>
    cases x with
    | nan => exact .of_value rfl
    | infinite negative => exact .of_overflow rfl ⟨negative, rfl⟩
    | finite negative units representable => exact hbounded (by simp [OversizedPart])
  | _ => exact .of_value rfl

/-- A colour of which some part is an infinity. -/
def OversizedColor (v : Value) : Prop :=
  ∃ parts, v = .list parts ∧ ∃ part ∈ parts, OversizedPart part

theorem keepsOut_ofParts (parts : List Value) :
    KeepsOut (Color.ofParts parts) (∃ part ∈ parts, OversizedPart part) := by
  unfold Color.ofParts
  split
  · refine ((keepsOut_partOfValue _).bind fun red => (keepsOut_partOfValue _).bind fun green =>
      (keepsOut_partOfValue _).map).congr ?_
    simp
  · refine ((keepsOut_partOfValue _).bind fun red => (keepsOut_partOfValue _).bind fun green =>
      (keepsOut_partOfValue _).bind fun blue => (keepsOut_partOfValue _).map).congr ?_
    simp
  · exact .of_value rfl

theorem keepsOut_readColor (v : Value) (inForce : Color) :
    KeepsOut (readColor v inForce) (OversizedColor v) := by
  unfold readColor
  split
  · exact .of_ok _ (by simp [OversizedColor])
  · unfold Color.ofValue
    split
    · unfold Color.ofHex?
      split
      · exact .of_ok _ (by simp [OversizedColor])
      · exact .of_value rfl
    · exact (keepsOut_ofParts _).congr (by simp [OversizedColor])
    · exact .of_value rfl

theorem keepsOut_readTickInterval (v : Value) (inForce : Binary64) :
    KeepsOut (readTickInterval v inForce) v.IsHuge := by
  unfold readTickInterval
  split
  · exact .of_ok _ (by simp [Value.IsHuge])
  · exact .of_value rfl
  · split
    · rename_i x hread
      split
      · refine .of_ok _ fun hhuge => ?_
        rw [Value.toBinary64_of_isHuge hhuge] at hread
        cases hread
      · exact .of_value rfl
    · rename_i f hf
      obtain hrejected | ⟨hoverflow, hhuge⟩ := Value.error_of_toBinary64 hf
      · rw [if_pos hrejected]
        exact .of_value rfl
      · have hpassed : f.isRejection = false := by simp [Fault.isRejection, hoverflow]
        rw [hpassed]
        exact .of_overflow hoverflow hhuge

/-! ## Phrases -/

theorem keepsOut_setText (fields : List (Text × Value)) (p : Phrases) (k : Phrase) :
    KeepsOut (Phrases.setText fields p k) False := by
  unfold Phrases.setText
  split
  · exact .of_ok _ not_false
  · split
    · split
      · exact .of_value rfl
      · exact .of_ok _ not_false
    · exact .of_value rfl

theorem keepsOut_foldlM_setText (fields : List (Text × Value)) (ks : List Phrase) (p : Phrases) :
    KeepsOut (ks.foldlM (Phrases.setText fields) p) False := by
  induction ks generalizing p with
  | nil => exact .of_ok _ not_false
  | cons k ks ih =>
    rw [List.foldlM_cons]
    exact ((keepsOut_setText fields p k).bind ih).congr (or_self_iff)

theorem keepsOut_readPhrases (v : Value) (inForce : Phrases) : KeepsOut (readPhrases v inForce) False := by
  unfold readPhrases
  split
  · exact .of_ok _ not_false
  · exact .of_ok _ not_false
  · unfold Phrases.withTexts
    split
    · exact keepsOut_foldlM_setText _ _ _
    · exact .of_value rfl
  · exact .of_value rfl

/-! ## Payloads -/

/-- The charging part of a payload in which some number is too large. -/
def OversizedCharging (s : Settings) (charging : List (Text × Value)) : Prop :=
  (∃ rate ∈ rates (field "thresholds" charging) s.thresholds, OversizedRate rate) ∨
    (field "show_details" charging).IsHuge ∨ (field "details_when_charged" charging).IsHuge

/-- A payload in which some number is too large for the reader of its field. -/
def Oversized (s : Settings) (payload : Value) : Prop :=
  ∃ fields, payload = .object fields ∧
    ((∃ charging, chargingFields (field "charging" fields) = .ok charging ∧ s.OversizedCharging charging) ∨
      OversizedColor (field "warning_color" fields) ∨ (field "tick_interval" fields).IsHuge)

/-- A payload is refused for a bad value, or because some number in it is too large; then it is not accepted. -/
theorem keepsOut_merge (s : Settings) (payload : Value) : KeepsOut (s.merge payload) (s.Oversized payload) := by
  unfold merge
  split
  · rename_i fields
    cases hcharging : chargingFields (field "charging" fields) with
    | error f =>
      unfold chargingFields at hcharging
      split at hcharging
      · cases hcharging
      · cases hcharging
      · cases hcharging
        exact .of_value rfl
    | ok charging =>
      refine ((keepsOut_readThresholds _ _).bind fun thresholds => (keepsOut_readFlag _ _).bind fun showDetails =>
        (keepsOut_readFlag _ _).bind fun detailsWhenCharged => (keepsOut_readColor _ _).bind fun warningColor =>
        (keepsOut_readPhrases _ _).bind fun phrases => (keepsOut_readTickInterval _ _).map).congr ?_
      simp [Oversized, OversizedCharging, hcharging, or_assoc]
  · exact .of_value rfl

end Settings

end LockScreen
