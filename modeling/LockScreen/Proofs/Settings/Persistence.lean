import LockScreen.Proofs.Json.Documents
import LockScreen.Proofs.Number.Digits
import LockScreen.Proofs.Settings.Merge
import LockScreen.Settings.Store

/-!
# Settings outlive the store

The file that is written for settings that are kept is read back to these settings (`load_toFileText`), and the
settings that any file gives are kept (`storable_load`). So a store is `Durable` from the moment it is opened: its
settings are kept, and a store that is opened on its file is the same. A call has an entry for each setting that it
mentions, and every setting takes its own (`takes_of_call`), so what holds of payloads holds of calls. Every call keeps
a store durable, whether it is accepted or refused (`Durable.after`), and so does every row of calls
(`Durable.afterAll`).
-/

namespace LockScreen

namespace Settings

/-! ## The written form -/

/-- A rate has few enough digits to be read and written, whatever the limit. -/
theorem length_decimalText_of_isWhole {i : Int} (h : Binary64.IsWhole i) :
    (Text.decimalText i.natAbs).length ≤ Numeral.leastDigitLimit := by
  -- a rough bound is enough: there is room for hundreds of digits
  have hpow : Nat.pow 2 1024 ≤ Nat.pow 10 512 := by
    have hsquare : Nat.pow 2 1024 = Nat.pow (Nat.pow 2 2) 512 := Nat.pow_mul 2 2 512
    rw [hsquare]
    exact Nat.pow_le_pow_left (by decide) 512
  have hlt : i.natAbs < Nat.pow 10 512 := Nat.lt_of_lt_of_le (Binary64.natAbs_lt_of_isWhole h) hpow
  have hlimit : 512 ≤ Numeral.leastDigitLimit := by decide
  exact Nat.le_trans (Text.length_decimalText_le hlt) hlimit

/-- A rate has few enough digits to be read. -/
theorem length_decimalText_le_digitLimit {i : Int} (h : Binary64.IsWhole i) :
    (Text.decimalText i.natAbs).length ≤ Numeral.digitLimit :=
  Nat.le_trans (length_decimalText_of_isWhole h) (by decide)

end Settings

/-- A rate has more digits than are written. -/
def Thresholds.Overlong (t : Thresholds) (limit : Nat := Numeral.digitLimit) : Prop :=
  limit < (Text.decimalText t.slow.natAbs).length ∨ limit < (Text.decimalText t.fast.natAbs).length

theorem Thresholds.Storable.not_overlong {t : Thresholds} (h : t.Storable) {limit : Nat}
    (hlimit : Numeral.leastDigitLimit ≤ limit) : ¬ t.Overlong limit := by
  have hslow := Nat.le_trans (Settings.length_decimalText_of_isWhole h.slow) hlimit
  have hfast := Nat.le_trans (Settings.length_decimalText_of_isWhole h.fast) hlimit
  rintro (hlong | hlong)
  · exact absurd hslow (Nat.not_le.mpr hlong)
  · exact absurd hfast (Nat.not_le.mpr hlong)

namespace Settings

theorem fits_thresholds {t : Thresholds} (h : t.Storable) (depth : Nat) :
    Json.Fits (depth + 1) t.toValue := by
  have hnames : [("slow_threshold" : Text), "fast_threshold"].Nodup := by decide
  exact ⟨Nat.succ_pos depth, hnames, Text.spellable_ofString _, length_decimalText_le_digitLimit h.slow,
    Text.spellable_ofString _, length_decimalText_le_digitLimit h.fast, trivial⟩

theorem fitFields_texts {p : Phrases} (h : p.Storable) (ks : List Phrase) (depth : Nat) :
    Json.FitFields depth (ks.map fun k => ((k.name : Text), .text (p.get k))) := by
  induction ks with
  | nil => exact trivial
  | cons k ks ih => exact ⟨Text.spellable_ofString k.name, h.spellable k, ih⟩

theorem fits_phrases {p : Phrases} (h : p.Storable) (depth : Nat) : Json.Fits (depth + 1) p.toValue := by
  have hnames : (Phrase.all.map fun k => (k.name : Text)).Nodup := by decide
  refine ⟨Nat.succ_pos depth, ?_, fitFields_texts h Phrase.all depth⟩
  rw [List.map_map]
  exact hnames

/-- The object form of settings that are kept can be held by a document. -/
theorem fits_toValue {s : Settings} (h : s.Storable) (depth : Nat) : Json.Fits (depth + 3) s.toValue := by
  have hnames : [("charging" : Text), "warning_color", "strings", "tick_interval"].Nodup := by decide
  have hchargingNames : [("thresholds" : Text), "show_details", "details_when_charged"].Nodup := by decide
  have hcharging : Json.Fits (depth + 2) (.object
      [("thresholds", s.thresholds.toValue),
       ("show_details", .bool s.showDetails),
       ("details_when_charged", .bool s.detailsWhenCharged)]) :=
    ⟨Nat.succ_pos (depth + 1), hchargingNames, Text.spellable_ofString _, fits_thresholds h.thresholds depth,
      Text.spellable_ofString _, trivial, Text.spellable_ofString _, trivial, trivial⟩
  exact ⟨Nat.succ_pos (depth + 2), hnames, Text.spellable_ofString _, hcharging,
    Text.spellable_ofString _, Text.spellable_ofString s.warningColor.toHex,
    Text.spellable_ofString _, fits_phrases h.phrases (depth + 1), Text.spellable_ofString _, trivial, trivial⟩

/-- The rates are the only integers that are written. -/
theorem any_isOverlong_iff {s : Settings} {limit : Nat} :
    (Json.leaves s.toValue).any (Json.isOverlong limit) = true ↔ s.thresholds.Overlong limit := by
  simp [toValue, report, Thresholds.toValue, Phrases.toValue, Phrase.all, Json.leaves, Json.leavesOfFields,
    Json.isOverlong, Thresholds.Overlong]

theorem unwritable?_of_overlong {s : Settings} {limit : Nat} (h : s.thresholds.Overlong limit) :
    s.unwritable? (some limit) = some .integerUnwritable :=
  if_pos (any_isOverlong_iff.mpr h)

theorem unwritable?_of_not_overlong {s : Settings} {limit : Nat} (h : ¬ s.thresholds.Overlong limit) :
    s.unwritable? (some limit) = none :=
  if_neg (mt any_isOverlong_iff.mp h)

/-- Settings that are kept can be written. -/
theorem unwritable?_of_storable {s : Settings} (h : s.Storable) : s.unwritable? (some Numeral.digitLimit) = none :=
  unwritable?_of_not_overlong (h.thresholds.not_overlong (by decide))

theorem read_toFileText {s : Settings} (h : s.Storable) : Json.read s.toFileText = .ok s.toValue :=
  Json.read_indented (fits_toValue h 967)

/-! ## The file -/

/-- The file that is written for settings that are kept gives them back. -/
theorem load_toFileText {s : Settings} (h : s.Storable) : load (some (.text s.toFileText)) = .ok s := by
  have hobject : ∃ fields, s.toValue = .object fields := ⟨_, rfl⟩
  obtain ⟨fields, hfields⟩ := hobject
  have hmerge := merge_toValue h standard
  rw [hfields] at hmerge
  have htext : ofFileText s.toFileText = .ok s := by
    rw [ofFileText, read_toFileText h, hfields]
    exact hmerge
  simp only [load, htext]

/-- The settings that a file gives are kept. -/
theorem storable_load {file : Option FileContent} {depth : Nat} {s : Settings} (h : load file depth = .ok s) :
    s.Storable := by
  unfold load at h
  split at h
  · cases h
    exact storable_standard
  · cases h
  · split at h
    · rename_i text s' htext
      cases h
      obtain ⟨v, hread, hmerge⟩ := exists_ok_of_bind htext
      split at hmerge
      · exact storable_merge storable_standard (Json.isJson_read hread) hmerge
      · cases hmerge
    · cases h

end Settings

/-! ## Calls -/

/-- The entry of a call for a setting. A call for one setting has none for the others. -/
def StoreCall.entry (c : StoreCall) (f : Setting) : Option Value :=
  match c, f with
  | .update payload, f => Settings.entry payload f
  | .setThresholds v, .thresholds | .setShowDetails v, .showDetails | .setWarningColor v, .warningColor =>
    Settings.said v
  | _, _ => none

namespace SettingsStore

/-- The store after a call, whether it succeeds or fails. -/
def after (store : SettingsStore) (c : StoreCall) (m : Medium := .standard) : SettingsStore :=
  (store.perform c m).1

/-- The store after a row of calls. -/
def afterAll (store : SettingsStore) (calls : List StoreCall) (m : Medium := .standard) : SettingsStore :=
  calls.foldl (fun store c => store.after c m) store

/-- The settings in force are kept, and the file holds them: a store that is opened on it is the same. -/
structure Durable (store : SettingsStore) : Prop where
  settings : store.settings.Storable
  file : Settings.load store.file = .ok store.settings

/-- A refused call changes nothing. -/
theorem perform_of_error {store : SettingsStore} {c : StoreCall} {fault : Fault} (h : store.call c = .error fault)
    (m : Medium := .standard) : store.perform c m = (store, some fault) := by
  simp only [perform, h]

/-- An accepted call leads to settings that are written down. -/
theorem eq_saved_of_call {store next : SettingsStore} {c : StoreCall} (h : store.call c = .ok next) :
    next = saved next.settings := by
  cases c <;>
  · obtain ⟨_, _, hnext⟩ := exists_ok_of_bind h
    cases hnext
    rfl

/-- An accepted call leads to its store, if the settings can be written. -/
theorem perform_of_writable {store next : SettingsStore} {c : StoreCall} (h : store.call c = .ok next)
    (hwritable : next.settings.unwritable? (some Numeral.digitLimit) = none) : store.perform c = (next, none) := by
  simp only [perform, h, save, Medium.standard, hwritable]
  rw [eq_saved_of_call h]
  rfl

/-- In an accepted call every setting takes its entry. -/
theorem takes_of_call {store next : SettingsStore} {c : StoreCall} (h : store.call c = .ok next) (f : Setting) :
    Settings.Takes (c.entry f) store.settings next.settings f := by
  cases c with
  | update payload =>
    obtain ⟨settings, hmerge, hnext⟩ := exists_ok_of_bind h
    cases hnext
    exact (Settings.merge_eq_ok_iff.mp hmerge).2 f
  | setThresholds v =>
    obtain ⟨thresholds, hread, hnext⟩ := exists_ok_of_bind h
    cases hnext
    cases f with
    | thresholds =>
      simp only [StoreCall.entry, Settings.Takes, Settings.getD_said]
      exact hread
    | _ => rfl
  | setShowDetails v =>
    obtain ⟨showDetails, hread, hnext⟩ := exists_ok_of_bind h
    cases hnext
    cases f with
    | showDetails =>
      simp only [StoreCall.entry, Settings.Takes, Settings.getD_said]
      exact hread
    | _ => rfl
  | setWarningColor v =>
    obtain ⟨warningColor, hread, hnext⟩ := exists_ok_of_bind h
    cases hnext
    cases f with
    | warningColor =>
      simp only [StoreCall.entry, Settings.Takes, Settings.getD_said]
      exact hread
    | _ => rfl

/-- What a call mentions, a document can spell if it can spell its argument. -/
theorem isJson_entry {c : StoreCall} (h : c.argument.IsJson) {f : Setting} {v : Value} (hentry : c.entry f = some v) :
    v.IsJson := by
  unfold StoreCall.entry at hentry
  split at hentry
  · exact Settings.isJson_entry h hentry
  · rw [Settings.eq_of_said_eq_some hentry]
    exact h
  · rw [Settings.eq_of_said_eq_some hentry]
    exact h
  · rw [Settings.eq_of_said_eq_some hentry]
    exact h
  · cases hentry

theorem durable_ofFile {file : Option FileContent} {store : SettingsStore} (h : ofFile file = .ok store) :
    store.Durable := by
  obtain ⟨settings, hload, h⟩ := exists_ok_of_bind h
  cases h
  exact ⟨Settings.storable_load hload, hload⟩

theorem durable_saved {s : Settings} (h : s.Storable) : (saved s).Durable :=
  ⟨h, Settings.load_toFileText h⟩

/-- An accepted call writes down settings that are kept. -/
theorem Durable.call {store next : SettingsStore} (h : store.Durable) {c : StoreCall}
    (hjson : c.argument.IsJson) (hcall : store.call c = .ok next) : next.Durable := by
  rw [eq_saved_of_call hcall]
  exact durable_saved (h.settings.of_takes (fun _ _ => isJson_entry hjson) (takes_of_call hcall))

/-- What a durable store accepts can be written. -/
theorem Durable.perform {store next : SettingsStore} (h : store.Durable) {c : StoreCall}
    (hjson : c.argument.IsJson) (hcall : store.call c = .ok next) : store.perform c = (next, none) :=
  perform_of_writable hcall (Settings.unwritable?_of_storable (h.call hjson hcall).settings)

/-- A call keeps a store durable, whether it is accepted or refused. -/
theorem Durable.after {store : SettingsStore} (h : store.Durable) {c : StoreCall}
    (hjson : c.argument.IsJson) : (store.after c).Durable := by
  cases hcall : store.call c with
  | error fault =>
    rw [SettingsStore.after, perform_of_error hcall]
    exact h
  | ok next =>
    rw [SettingsStore.after, h.perform hjson hcall]
    exact h.call hjson hcall

theorem Durable.afterAll {store : SettingsStore} (h : store.Durable) {calls : List StoreCall}
    (hjson : ∀ c ∈ calls, c.argument.IsJson) : (store.afterAll calls).Durable := by
  induction calls generalizing store with
  | nil => exact h
  | cons c calls ih =>
    obtain ⟨hfirst, hrest⟩ := List.forall_mem_cons.mp hjson
    exact ih (h.after hfirst) hrest

/-- Whatever changes are asked of a store that was opened on a file or without one, accepted or refused, the
object form of the settings in force leads to these settings, and a store that is opened on the file is the
same, with the same settings in force. -/
theorem persists {file : Option FileContent} {store : SettingsStore} (hopen : ofFile file = .ok store)
    {calls : List StoreCall} (hjson : ∀ c ∈ calls, c.argument.IsJson) :
    Settings.standard.merge (store.afterAll calls).settings.toValue = .ok (store.afterAll calls).settings ∧
      ofFile (store.afterAll calls).file = .ok (store.afterAll calls) := by
  have hdurable := (durable_ofFile hopen).afterAll hjson
  refine ⟨Settings.merge_toValue hdurable.settings _, ?_⟩
  rw [ofFile, hdurable.file]
  rfl

/-- A file that sets a phrase. -/
def phraseFile : FileContent :=
  .text "\x7b\"strings\": \x7b\"charged\": \"Full\"\x7d\x7d"

/-- A store on a file that sets a phrase. -/
def phraseStore : SettingsStore :=
  ⟨{ Settings.standard with phrases := { Phrases.standard with charged := "Full" } }, some phraseFile⟩

/-- A phrase with a letter outside of the basic plane, a refused call, and a colour. -/
def mixedCalls : List StoreCall :=
  [.update (.object [("strings", .object [("plugged_in", .text "Am Netz 🔋")])]),
    .setThresholds (.text "fast"), .setWarningColor (.text "#102030")]

theorem persists_mixedCalls :
    Settings.standard.merge (phraseStore.afterAll mixedCalls).settings.toValue
        = .ok (phraseStore.afterAll mixedCalls).settings ∧
      ofFile (phraseStore.afterAll mixedCalls).file = .ok (phraseStore.afterAll mixedCalls) := by
  have hopen : ofFile (some phraseFile) = .ok phraseStore := by decide +kernel
  refine persists hopen ?_
  simp [mixedCalls, StoreCall.argument, Value.IsJson, Value.AreJsonFields, Text.spellable_ofString]

end SettingsStore

end LockScreen
