import LockScreen.Text.Placeholder

/-!
# Phrases

The catalogue of fixed texts that the screen shows. The three phrases that announce an estimate are
templates and must have a place for the time (`Phrases.Valid`).
-/

namespace LockScreen

/-- The names of the texts in the catalogue. -/
inductive Phrase
  | storageLocked
  | charged
  | pluggedIn
  | pluggedInFast
  | pluggedInSlowly
  | chargingTime
  | chargingTimeFast
  | chargingTimeSlowly
deriving DecidableEq, Repr

namespace Phrase

/-- All phrases, in the order of the catalogue. -/
def all : List Phrase :=
  [storageLocked, charged, pluggedIn, pluggedInFast, pluggedInSlowly,
    chargingTime, chargingTimeFast, chargingTimeSlowly]

/-- The name under which a phrase is stored. -/
def name : Phrase → String
  | storageLocked => "storage_locked"
  | charged => "charged"
  | pluggedIn => "plugged_in"
  | pluggedInFast => "plugged_in_fast"
  | pluggedInSlowly => "plugged_in_slowly"
  | chargingTime => "charging_time"
  | chargingTimeFast => "charging_time_fast"
  | chargingTimeSlowly => "charging_time_slowly"

/-- The phrases that announce an estimate. -/
def isTemplate : Phrase → Bool
  | chargingTime | chargingTimeFast | chargingTimeSlowly => true
  | _ => false

theorem mem_all (k : Phrase) : k ∈ all := by
  cases k <;> decide

end Phrase

/-- A text for each phrase. -/
structure Phrases where
  storageLocked : Text := "Unlock to access all features and data"
  charged : Text := "Charged"
  pluggedIn : Text := "Charging"
  pluggedInFast : Text := "Charging rapidly"
  pluggedInSlowly : Text := "Charging slowly"
  chargingTime : Text := "Charging (\x7btime\x7d until full)"
  chargingTimeFast : Text := "Charging rapidly (\x7btime\x7d until full)"
  chargingTimeSlowly : Text := "Charging slowly (\x7btime\x7d until full)"
deriving DecidableEq, Repr

namespace Phrases

/-- The texts used where nothing else is set. -/
def standard : Phrases := {}

/-- The text of a phrase. -/
def get (p : Phrases) : Phrase → Text
  | .storageLocked => p.storageLocked
  | .charged => p.charged
  | .pluggedIn => p.pluggedIn
  | .pluggedInFast => p.pluggedInFast
  | .pluggedInSlowly => p.pluggedInSlowly
  | .chargingTime => p.chargingTime
  | .chargingTimeFast => p.chargingTimeFast
  | .chargingTimeSlowly => p.chargingTimeSlowly

/-- The catalogue with another text for a phrase. -/
def set (p : Phrases) (text : Text) : Phrase → Phrases
  | .storageLocked => { p with storageLocked := text }
  | .charged => { p with charged := text }
  | .pluggedIn => { p with pluggedIn := text }
  | .pluggedInFast => { p with pluggedInFast := text }
  | .pluggedInSlowly => { p with pluggedInSlowly := text }
  | .chargingTime => { p with chargingTime := text }
  | .chargingTimeFast => { p with chargingTimeFast := text }
  | .chargingTimeSlowly => { p with chargingTimeSlowly := text }

@[simp]
theorem get_set_self (p : Phrases) (text : Text) (k : Phrase) : (p.set text k).get k = text := by
  cases k <;> rfl

theorem get_set_of_ne (p : Phrases) (text : Text) {k l : Phrase} (h : l ≠ k) :
    (p.set text k).get l = p.get l := by
  cases k <;> cases l <;> simp_all [get, set]

/-- Each template has a place for the time. -/
def Valid (p : Phrases) : Prop :=
  ∀ k : Phrase, k.isTemplate = true → Text.hasTimePlace (p.get k).letters = true

instance (p : Phrases) : Decidable p.Valid :=
  decidable_of_iff
    (∀ k ∈ Phrase.all, k.isTemplate = true → Text.hasTimePlace (p.get k).letters = true)
    ⟨fun h k => h k (Phrase.mem_all k), fun h k _ => h k⟩

theorem valid_standard : standard.Valid := by
  decide

end Phrases

end LockScreen
