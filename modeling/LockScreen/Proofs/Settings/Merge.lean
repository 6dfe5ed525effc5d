import LockScreen.Proofs.Settings.Colors
import LockScreen.Proofs.Settings.Entries

/-!
# Settings that are kept

Settings are `Storable` if they are valid, their rates are binary64 numbers and their texts can be spelled. Entries
that a document can spell lead from such settings to such settings (`Storable.of_takes`), one by one, because each
reader takes in only what can be written down again: a rate loses its fraction and is a number still, and a colour is
brought into range.

Merging the object form of such settings gives them back, whatever was in force before (`merge_toValue`): it has an
entry for every setting, and what it says is taken as it is.
-/

namespace LockScreen

/-! ## Thresholds -/

/-- Thresholds that are kept as they are: valid, with rates that are binary64 numbers. -/
structure Thresholds.Storable (t : Thresholds) : Prop where
  valid : t.Valid
  slow : Binary64.IsWhole t.slow
  fast : Binary64.IsWhole t.fast

namespace Settings

theorem storable_of_thresholdsOfRates {slow fast : Value} {t : Thresholds}
    (h : thresholdsOfRates slow fast = .ok t) : t.Storable := by
  obtain ⟨hslow, hfast, hvalid⟩ := thresholdsOfRates_eq_ok_iff.mp h
  exact ⟨hvalid, isWhole_of_rateOfValue hslow.read, isWhole_of_rateOfValue hfast.read⟩

theorem storable_readThresholds {v : Value} {inForce t : Thresholds} (hjson : v.IsJson)
    (hinForce : inForce.Storable) (h : readThresholds v inForce = .ok t) : t.Storable := by
  unfold readThresholds at h
  split at h
  · cases h
    exact hinForce
  · exact hjson.elim
  · split at h
    · exact storable_of_thresholdsOfRates h
    · exact storable_of_thresholdsOfRates h
    · cases h
  · exact storable_of_thresholdsOfRates h
  · cases h
  · cases h

/-- The object form of thresholds that are kept gives them back. -/
theorem readThresholds_toValue {t : Thresholds} (h : t.Storable) (inForce : Thresholds) :
    readThresholds t.toValue inForce = .ok t := by
  have hnested : Value.lookup "thresholds"
      [("slow_threshold", .int t.slow), ("fast_threshold", .int t.fast)] = none := rfl
  have hslow : namedRate [("slow_threshold", .int t.slow), ("fast_threshold", .int t.fast)]
      "slow_threshold" "slow" inForce.slow = .int t.slow := rfl
  have hfast : namedRate [("slow_threshold", .int t.slow), ("fast_threshold", .int t.fast)]
      "fast_threshold" "fast" inForce.fast = .int t.fast := rfl
  simp only [Thresholds.toValue, readThresholds, hnested, thresholdsOfFields, hslow, hfast]
  exact thresholdsOfRates_eq_ok_iff.mpr
    ⟨givesRate_int rfl (rateOfValue_int h.slow), givesRate_int rfl (rateOfValue_int h.fast), h.valid⟩

/-! ## The other fields -/

theorem valid_readColor {v : Value} {inForce c : Color} (hinForce : inForce.Valid)
    (h : readColor v inForce = .ok c) : c.Valid := by
  unfold readColor at h
  split at h
  · cases h
    exact hinForce
  · exact Color.valid_of_ofValue h

theorem isBetween_readTickInterval {v : Value} {inForce x : Binary64}
    (hinForce : inForce.isBetween 1 3600 = true) (h : readTickInterval v inForce = .ok x) :
    x.isBetween 1 3600 = true := by
  unfold readTickInterval at h
  split at h
  · cases h
    exact hinForce
  · cases h
  · split at h
    · split at h
      · cases h
        assumption
      · cases h
    · cases h

end Settings

/-! ## Entries of a document -/

namespace Settings

theorem isJson_field {fields : List (Text × Value)} (h : Value.AreJsonFields fields) (name : Text) :
    (field name fields).IsJson := by
  unfold field
  cases hlookup : Value.lookup name fields with
  | none => exact trivial
  | some v => exact h.lookup hlookup

theorem areJsonFields_fieldsOf {v : Value} (h : v.IsJson) : Value.AreJsonFields (fieldsOf v) := by
  unfold fieldsOf
  split
  · exact h
  · exact trivial

theorem eq_of_said_eq_some {v w : Value} (h : said v = some w) : w = v := by
  have hget := congrArg (·.getD .null) h
  simpa using hget.symm

/-- What a document mentions, a document can spell. -/
theorem isJson_entry {payload v : Value} (h : payload.IsJson) {f : Setting} (hentry : entry payload f = some v) :
    v.IsJson := by
  have hfields := areJsonFields_fieldsOf h
  have hcharging := areJsonFields_fieldsOf (isJson_field hfields "charging")
  cases f with
  | thresholds | showDetails | detailsWhenCharged =>
    rw [eq_of_said_eq_some hentry]
    exact isJson_field hcharging _
  | warningColor | tickInterval =>
    rw [eq_of_said_eq_some hentry]
    exact isJson_field hfields _
  | phrase k =>
    have htexts := isJson_field hfields "strings"
    simp only [entry, textEntry] at hentry
    split at hentry
    · rename_i hobject
      rw [hobject] at htexts
      exact Value.AreJsonFields.lookup htexts hentry
    · rename_i hcatalogue
      rw [hcatalogue] at htexts
      exact htexts.elim
    · cases hentry

end Settings

/-! ## Phrases -/

/-- Phrases that are kept as they are: with a place for the time in each template, and with texts that can be
spelled. -/
structure Phrases.Storable (p : Phrases) : Prop where
  valid : p.Valid
  spellable : ∀ k, (p.get k).Spellable

namespace Phrases

/-- A phrase that is taken was in force before, or is the text of an entry. -/
theorem eq_or_entry_of_takesText {k : Phrase} {entry : Option Value} {old new : Text} (h : TakesText k entry old new) :
    new = old ∨ entry = some (.text new) ∧ (k.isTemplate = true → Text.hasTimePlace new.letters = true) := by
  cases entry with
  | none => exact .inl h
  | some v =>
    obtain ⟨rfl, hplace⟩ := h
    exact .inr ⟨rfl, hplace⟩

theorem valid_of_takesText {entries : Phrase → Option Value} {p q : Phrases} (hp : p.Valid)
    (h : ∀ k, TakesText k (entries k) (p.get k) (q.get k)) : q.Valid := by
  intro k htemplate
  rcases eq_or_entry_of_takesText (h k) with hkept | ⟨_, hplace⟩
  · rw [hkept]
    exact hp k htemplate
  · exact hplace htemplate

theorem storable_of_takesText {entries : Phrase → Option Value} (hjson : ∀ k v, entries k = some v → v.IsJson)
    {p q : Phrases} (hp : p.Storable) (h : ∀ k, TakesText k (entries k) (p.get k) (q.get k)) : q.Storable := by
  refine ⟨valid_of_takesText hp.valid h, fun k => ?_⟩
  rcases eq_or_entry_of_takesText (h k) with hkept | ⟨hentry, _⟩
  · rw [hkept]
    exact hp.spellable k
  · exact hjson k _ hentry

end Phrases

/-! ## Payloads -/

/-- Settings that are kept as they are. -/
structure Settings.Storable (s : Settings) : Prop where
  thresholds : s.thresholds.Storable
  warningColor : s.warningColor.Valid
  phrases : s.phrases.Storable
  tickInterval : s.tickInterval.isBetween 1 3600 = true

namespace Settings

/-- Entries that a document can spell lead from settings that are kept to such settings. -/
theorem Storable.of_takes {s t : Settings} (hs : s.Storable) {entries : Setting → Option Value}
    (hjson : ∀ f v, entries f = some v → v.IsJson) (h : ∀ f, Takes (entries f) s t f) : t.Storable := by
  have hthresholds : ((entries .thresholds).getD .null).IsJson := by
    cases hentry : entries .thresholds with
    | none => exact trivial
    | some v => exact hjson _ v hentry
  exact ⟨storable_readThresholds hthresholds hs.thresholds (h .thresholds),
    valid_readColor hs.warningColor (h .warningColor),
    Phrases.storable_of_takesText (fun k => hjson (.phrase k)) hs.phrases fun k => h (.phrase k),
    isBetween_readTickInterval hs.tickInterval (h .tickInterval)⟩

/-- A payload that a document can spell leads from settings that are kept to such settings. -/
theorem storable_merge {s t : Settings} (hs : s.Storable) {payload : Value} (hjson : payload.IsJson)
    (h : s.merge payload = .ok t) : t.Storable :=
  hs.of_takes (fun _ _ => isJson_entry hjson) (merge_eq_ok_iff.mp h).2

theorem isBetween_standard : standard.tickInterval.isBetween 1 3600 = true := by
  have hwhole : Binary64.IsWhole ((60 : Nat) : Int) := Binary64.isWhole_of_le (by decide)
  have hlow : 1 ≤ 60 := by decide
  have hhigh : 60 ≤ 3600 := by decide
  have hbetween := Binary64.isBetween_ofInt hwhole hlow hhigh
  simpa only [standard, Int.cast_ofNat_Int] using hbetween

theorem storable_standard : standard.Storable where
  thresholds := ⟨⟨by decide, by decide⟩, Binary64.isWhole_of_le (by decide), Binary64.isWhole_of_le (by decide)⟩
  warningColor := ⟨⟨by decide, by decide⟩, ⟨by decide, by decide⟩, ⟨by decide, by decide⟩,
    ⟨by decide, by decide⟩⟩
  phrases := by
    refine ⟨Phrases.valid_standard, ?_⟩
    intro k
    cases k <;> exact Text.spellable_ofString _
  tickInterval := isBetween_standard

/-! ## The object form -/

/-- What the object form of settings says of a setting. -/
def reported (s : Settings) : Setting → Value
  | .thresholds => s.thresholds.toValue
  | .showDetails => .bool s.showDetails
  | .detailsWhenCharged => .bool s.detailsWhenCharged
  | .warningColor => .text s.warningColor.toHex
  | .tickInterval => .float s.tickInterval
  | .phrase k => .text (s.phrases.get k)

theorem entry_toValue (s : Settings) (f : Setting) : entry s.toValue f = some (s.reported f) := by
  cases f with
  | phrase k =>
    have hlookup : entry s.toValue (.phrase k)
        = Value.lookup k.name (Phrase.all.map fun l => (l.name, .text (s.phrases.get l))) := rfl
    rw [hlookup]
    cases k <;> simp [reported, Phrase.all, Phrase.name, Value.lookup, Text.ofString_inj]
  | _ => rfl

theorem isPayload_toValue (s : Settings) : IsPayload s.toValue := by
  refine ⟨_, rfl, ⟨_, rfl⟩, ?_⟩
  have hnone : ((Phrase.all.map fun k => ((k.name : Text), Value.text (s.phrases.get k))).map (·.1)).filter
      (fun name => !Phrases.isName name) = [] := by
    refine List.filter_eq_nil_iff.mpr ?_
    intro name hname
    rw [List.map_map] at hname
    obtain ⟨k, _, rfl⟩ := List.mem_map.mp hname
    have hknown : Phrases.isName k.name = true := List.any_eq_true.mpr ⟨k, Phrase.mem_all k, by simp⟩
    simp [hknown]
  show Phrases.unknownNames (Phrase.all.map fun k => ((k.name : Text), Value.text (s.phrases.get k))) = []
  rw [Phrases.unknownNames, hnone, List.mergeSort_nil]

/-- What is reported of settings that are kept is taken as it is. -/
theorem takes_reported {s : Settings} (h : s.Storable) (inForce : Settings) (f : Setting) :
    Takes (some (s.reported f)) inForce s f := by
  cases f with
  | thresholds => exact readThresholds_toValue h.thresholds inForce.thresholds
  | showDetails => rfl
  | detailsWhenCharged => rfl
  | warningColor => exact Color.ofHex?_toHex h.warningColor
  | tickInterval =>
    simp only [Takes, reported, Option.getD_some, readTickInterval, Value.toBinary64, h.tickInterval, if_true]
  | phrase k => exact ⟨rfl, h.phrases.valid k⟩

/-- Merging the object form of settings that are kept gives them back, whatever was in force before. -/
theorem merge_toValue {s : Settings} (h : s.Storable) (inForce : Settings) :
    inForce.merge s.toValue = .ok s := by
  refine merge_eq_ok_iff.mpr ⟨isPayload_toValue s, fun f => ?_⟩
  rw [entry_toValue]
  exact takes_reported h inForce f

end Settings

end LockScreen
