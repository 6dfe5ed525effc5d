import LockScreen.Proofs.Settings.Atomicity

/-!
# Settings are valid

Whatever payloads are merged into the standard settings or into those of a file, and whatever calls are made of a
store, the settings that come of it are valid (`valid_of_obtained`). Each reader sees to its own setting: what it
takes in is brought into range or refused, also where numerals, fractions and nested objects stand for rates, parts
and intervals, and thresholds and catalogues that are built already are valid or checked again.

The object form of valid settings has the shape that readers of it may count on (`InShape`): ordered positive
integers, flags that are no numbers, six or eight upper-case digits, an interval in its bounds, and templates that
hold a place for the time.
-/

namespace LockScreen

namespace Settings

/-! ## Single settings -/

/-- Thresholds that are read are valid, if those in force are. -/
theorem valid_readThresholds {v : Value} {inForce t : Thresholds} (hinForce : inForce.Valid)
    (h : readThresholds v inForce = .ok t) : t.Valid := by
  unfold readThresholds at h
  split at h
  · cases h
    exact hinForce
  · obtain ⟨rfl, hvalid⟩ := Thresholds.ofRates_eq_ok_iff.mp h
    exact hvalid
  · split at h
    · exact (thresholdsOfRates_eq_ok_iff.mp h).2.2
    · exact (thresholdsOfRates_eq_ok_iff.mp h).2.2
    · cases h
  · exact (thresholdsOfRates_eq_ok_iff.mp h).2.2
  · cases h
  · cases h

variable {s t : Settings}

theorem Storable.toValid (h : s.Storable) : s.Valid where
  thresholds := h.thresholds.valid
  warningColor := h.warningColor
  phrases := h.phrases.valid
  tickInterval := h.tickInterval

/-- Any entries lead from valid settings to valid ones. -/
theorem Valid.of_takes (hs : s.Valid) {entries : Setting → Option Value} (h : ∀ f, Takes (entries f) s t f) :
    t.Valid where
  thresholds := valid_readThresholds hs.thresholds (h .thresholds)
  warningColor := valid_readColor hs.warningColor (h .warningColor)
  phrases := Phrases.valid_of_takesText hs.phrases fun k => h (.phrase k)
  tickInterval := isBetween_readTickInterval hs.tickInterval (h .tickInterval)

end Settings

/-- A call keeps settings valid, also one that is refused or cannot be written. -/
theorem SettingsStore.valid_perform {store : SettingsStore} (hstore : store.settings.Valid) (c : StoreCall)
    (m : Medium := .standard) : (store.perform c m).1.settings.Valid := by
  rcases perform_cases store c m with ⟨fault, _, hperform⟩ | ⟨next, hcall, hperform⟩
  · rw [hperform]
    exact hstore
  · have hvalid : next.settings.Valid := hstore.of_takes (takes_of_call hcall)
    rw [hperform, settings_save]
    exact hvalid

namespace Settings

variable {s : Settings}

/-- Settings that come of the standard ones or of a file by payloads and calls. -/
inductive Obtained : Settings → Prop
  | standard : Obtained standard
  | loaded {file : Option FileContent} {s : Settings} (h : load file = .ok s) : Obtained s
  | merged {s t : Settings} {payload : Value} (hs : Obtained s) (h : s.merge payload = .ok t) : Obtained t
  | performed {store : SettingsStore} (c : StoreCall) (hs : Obtained store.settings) :
    Obtained (store.perform c).1.settings

theorem Obtained.valid (h : s.Obtained) : s.Valid := by
  induction h with
  | standard => exact storable_standard.toValid
  | loaded h => exact (storable_load h).toValid
  | merged _ h ih => exact ih.of_takes (merge_eq_ok_iff.mp h).2
  | performed c _ ih => exact SettingsStore.valid_perform ih c

/-! ## The object form -/

/-- The digits that colours are written with. -/
def colorDigits : List Char :=
  "0123456789ABCDEF".toList

/-- The shape in which each setting is reported. -/
def InShape : Setting → Value → Prop
  | .thresholds, v => ∃ slow fast : Int,
      v = .object [("slow_threshold", .int slow), ("fast_threshold", .int fast)] ∧ 0 < slow ∧ slow ≤ fast
  | .showDetails, v | .detailsWhenCharged, v => ∃ b, v = .bool b
  | .warningColor, v => ∃ digits : List Char,
      v = .text (String.ofList ('#' :: digits)) ∧ (digits.length = 6 ∨ digits.length = 8) ∧
        ∀ d ∈ digits, d ∈ colorDigits
  | .tickInterval, v => ∃ units h,
      v = .float (.finite false units h) ∧ unitsPerOne ≤ units ∧ units ≤ 3600 * unitsPerOne
  | .phrase k, v => ∃ t, v = .text t ∧ (k.isTemplate = true → Text.timePlace <:+: t.letters)

theorem mem_colorDigits {n : Nat} (h : n < 16) : Text.upperHexDigit n ∈ colorDigits := by
  have hall : ∀ k : Fin 16, Text.upperHexDigit k ∈ colorDigits := by decide
  exact hall ⟨n, h⟩

/-- A part in range takes up two digits. -/
theorem paddedHex_of_inRange {part : Int} (h : Color.InRange part) :
    (Text.paddedHex part).length = 2 ∧ ∀ d ∈ Text.paddedHex part, d ∈ colorDigits := by
  obtain ⟨high, low, hhigh, hlow, htext, _⟩ := Color.exists_digits h
  rw [htext]
  exact ⟨rfl, by simp [mem_colorDigits hhigh, mem_colorDigits hlow]⟩

theorem inShape_toHex {c : Color} (h : c.Valid) : InShape .warningColor (.text c.toHex) := by
  let opacity := if c.alpha = 255 then [] else Text.paddedHex c.alpha
  obtain ⟨hredLength, hred⟩ := paddedHex_of_inRange h.red
  obtain ⟨hgreenLength, hgreen⟩ := paddedHex_of_inRange h.green
  obtain ⟨hblueLength, hblue⟩ := paddedHex_of_inRange h.blue
  obtain ⟨halphaLength, halpha⟩ := paddedHex_of_inRange h.alpha
  have hopacity : (opacity.length = 0 ∨ opacity.length = 2) ∧ ∀ d ∈ opacity, d ∈ colorDigits := by
    unfold opacity
    split
    · exact ⟨.inl rfl, fun d hd => nomatch hd⟩
    · exact ⟨.inr halphaLength, halpha⟩
  refine ⟨Text.paddedHex c.red ++ Text.paddedHex c.green ++ Text.paddedHex c.blue ++ opacity, rfl, ?_, ?_⟩
  · simp only [List.length_append, hredLength, hgreenLength, hblueLength]
    omega
  · intro d hd
    simp only [List.mem_append] at hd
    rcases hd with ((hd | hd) | hd) | hd
    · exact hred d hd
    · exact hgreen d hd
    · exact hblue d hd
    · exact hopacity.2 d hd

theorem inShape_of_isBetween {x : Binary64} (h : x.isBetween 1 3600 = true) : InShape .tickInterval (.float x) := by
  obtain ⟨units, hunits, rfl, hlow, hhigh⟩ := Binary64.exists_of_isBetween Nat.one_pos h
  rw [Nat.one_mul] at hlow
  exact ⟨units, hunits, rfl, hlow, hhigh⟩

theorem Valid.inShape (h : s.Valid) (f : Setting) : InShape f (s.reported f) := by
  cases f with
  | thresholds => exact ⟨_, _, rfl, h.thresholds.slow_pos, h.thresholds.slow_le_fast⟩
  | showDetails => exact ⟨_, rfl⟩
  | detailsWhenCharged => exact ⟨_, rfl⟩
  | warningColor => exact inShape_toHex h.warningColor
  | tickInterval => exact inShape_of_isBetween h.tickInterval
  | phrase k => exact ⟨_, rfl, fun htemplate => Text.hasTimePlace_iff.mp (h.phrases k htemplate)⟩

/-- Settings that come of the standard ones or of any file, by whatever payloads and calls, are valid, and their
object form says of each setting what has its shape. -/
theorem valid_of_obtained (h : s.Obtained) :
    s.Valid ∧ ∀ f, ∃ v, entry s.toValue f = some v ∧ InShape f v :=
  ⟨h.valid, fun f => ⟨_, entry_toValue s f, h.valid.inShape f⟩⟩

/-- A call that gives one rate as a numeral with an exponent and the other with a fraction. -/
def looseRates : StoreCall :=
  .setThresholds (.list [.text "1e6", .text " 2500000.9 "])

theorem valid_of_obtained_looseRates :
    (SettingsStore.phraseStore.perform looseRates).1.settings.thresholds = ⟨1000000, 2500000⟩ ∧
      (SettingsStore.phraseStore.perform looseRates).1.settings.Valid ∧
      ∀ f, ∃ v, entry (SettingsStore.phraseStore.perform looseRates).1.settings.toValue f = some v ∧ InShape f v := by
  have hload : load (some SettingsStore.phraseFile) = .ok SettingsStore.phraseStore.settings := by decide +kernel
  exact ⟨by decide +kernel, valid_of_obtained (.performed looseRates (.loaded hload))⟩

end Settings

end LockScreen
