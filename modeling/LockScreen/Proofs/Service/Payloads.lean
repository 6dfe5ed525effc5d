import LockScreen.Proofs.Settings.Persistence
import LockScreen.Service.Request

/-!
# What bodies give

A body that is accepted gives its settings in a form of its own: rates are integers, flags are flags, the colour
is a text and the interval a number (`settingsPayload`). A delay that it gives is not below zero. Little else counts
of how requests are read: a reading that leads to no other payloads and delays is `Typed`, and so is the one that the
service runs with (`typed_call`).
-/

namespace LockScreen

namespace Checked

variable {α β : Type}

theorem map_eq_ok_iff {x : Checked α} {f : α → β} {b : β} : x.map f = .ok b ↔ ∃ a, x = .ok a ∧ f a = b := by
  cases x with
  | error e => simp [Except.map]
  | ok a => simp [Except.map]

/-- Two readings together give what the first makes of the second. -/
theorem and_eq_ok_iff {f : Checked (α → β)} {x : Checked α} {b : β} :
    f.and x = .ok b ↔ ∃ g, f = .ok g ∧ ∃ a, x = .ok a ∧ g a = b := by
  cases f with
  | error e => cases x <;> simp [Checked.and]
  | ok g => cases x <;> simp [Checked.and]

end Checked

namespace Body

/-- The value of an optional field that is read comes from the field's reader. -/
theorem exists_of_optional {α : Type} {path : List String} {fields : List (Text × Value)} {name : String}
    {read : FieldReader α} {a : α} (h : optional path fields name read = .ok (some a)) :
    ∃ v, read (path ++ [name]) v = .ok a := by
  unfold optional withDefault at h
  split at h
  · rename_i v _
    unfold readOptional at h
    split at h
    · cases h
    · obtain ⟨b, hb, heq⟩ := Checked.map_eq_ok_iff.mp h
      cases heq
      exact ⟨v, hb⟩
  · cases h

/-- So does that of a field that must be there. -/
theorem exists_of_required {α : Type} {path : List String} {fields : List (Text × Value)} {name : String}
    {read : FieldReader α} {a : α} (h : required path fields name read = .ok a) :
    ∃ v, read (path ++ [name]) v = .ok a := by
  unfold required at h
  split at h
  · exact ⟨_, h⟩
  · cases h

theorem le_of_readAtLeast {low i : Int} {path : List String} {v : Value} (h : readAtLeast low path v = .ok i) :
    low ≤ i := by
  obtain ⟨n, _, hn⟩ := exists_ok_of_bind h
  split at hn
  · rename_i hlow
    cases hn
    exact hlow
  · cases hn

theorem exists_of_readModel {α : Type} {path : List String} {v : Value} {a : α}
    {read : List String → List (Text × Value) → Checked α} (h : readModel read path v = .ok a) :
    ∃ fields, read path fields = .ok a := by
  unfold readModel at h
  split at h
  · exact ⟨_, h⟩
  · cases h

end Body

namespace Call

open Body

/-! ## Payloads of bodies -/

/-- Rates under their names. -/
def rateFields (rates : List (Text × Int)) : List (Text × Value) :=
  rates.map fun rate => (rate.1, .int rate.2)

/-- The charging part of a payload with the values that a body gives. -/
def chargingPayload (rates : Option (List (Text × Int))) (showDetails whenCharged : Option Bool) :
    List (Text × Value) :=
  payloadField "thresholds" (fun rates => .object (rateFields rates)) rates
    ++ payloadField "show_details" .bool showDetails
    ++ payloadField "details_when_charged" .bool whenCharged

/-- A payload with the values that a body gives. -/
def settingsPayload (charging : Option Value) (warningColor : Option Text)
    (strings : Option (List (Text × Text))) (tickInterval : Option Binary64) : List (Text × Value) :=
  payloadField "charging" id charging
    ++ payloadField "warning_color" .text warningColor
    ++ payloadField "strings" (fun texts => .object (texts.map fun text => (text.1, .text text.2))) strings
    ++ payloadField "tick_interval" .float tickInterval

theorem exists_of_readChargingPayload {path : List String} {fields : List (Text × Value)} {v : Value}
    (h : readChargingPayload path fields = .ok v) :
    ∃ rates showDetails whenCharged, v = .object (chargingPayload rates showDetails whenCharged) := by
  obtain ⟨_, hrest, whenCharged, _, rfl⟩ := Checked.and_eq_ok_iff.mp h
  obtain ⟨_, hthresholds, showDetails, _, rfl⟩ := Checked.and_eq_ok_iff.mp hrest
  obtain ⟨rates, _, rfl⟩ := Checked.map_eq_ok_iff.mp hthresholds
  exact ⟨rates, showDetails, whenCharged, rfl⟩

theorem exists_of_readSettingsPayload {path : List String} {fields : List (Text × Value)} {c : Call}
    (h : readSettingsPayload path fields = .ok c) :
    ∃ charging warningColor strings tickInterval,
      c = .updateSettings (.object (settingsPayload charging warningColor strings tickInterval)) ∧
      ∀ v, charging = some v →
        ∃ rates showDetails whenCharged, v = .object (chargingPayload rates showDetails whenCharged) := by
  obtain ⟨_, hrest, tickInterval, _, rfl⟩ := Checked.and_eq_ok_iff.mp h
  obtain ⟨_, hfront, strings, _, rfl⟩ := Checked.and_eq_ok_iff.mp hrest
  obtain ⟨_, hfirst, warningColor, _, rfl⟩ := Checked.and_eq_ok_iff.mp hfront
  obtain ⟨charging, hcharging, rfl⟩ := Checked.map_eq_ok_iff.mp hfirst
  refine ⟨charging, warningColor, strings, tickInterval, rfl, ?_⟩
  rintro v rfl
  obtain ⟨found, hread⟩ := exists_of_optional hcharging
  obtain ⟨inner, hinner⟩ := exists_of_readModel hread
  exact exists_of_readChargingPayload hinner

/-! ## The fields of such a payload -/

theorem lookup_append (name : Text) (fields rest : List (Text × Value)) :
    Value.lookup name (fields ++ rest) = (Value.lookup name fields).or (Value.lookup name rest) := by
  induction fields with
  | nil => rfl
  | cons field fields ih =>
    rw [List.cons_append, Value.lookup, Value.lookup]
    split
    · rfl
    · exact ih

theorem lookup_payloadField {α : Type} (name other : Text) (toValue : α → Value) (x : Option α) :
    Value.lookup name (payloadField other toValue x) = if other = name then x.map toValue else none := by
  cases x with
  | none =>
    rw [Option.map_none, ite_self]
    rfl
  | some a => rfl

section

variable (charging : Option Value) (warningColor : Option Text) (strings : Option (List (Text × Text)))
  (tickInterval : Option Binary64) (rates : Option (List (Text × Int))) (showDetails whenCharged : Option Bool)

theorem field_charging :
    Settings.field "charging" (settingsPayload charging warningColor strings tickInterval)
      = charging.getD .null := by
  simp [Settings.field, settingsPayload, lookup_append, lookup_payloadField, Text.ofString_inj]

theorem field_warningColor :
    Settings.field "warning_color" (settingsPayload charging warningColor strings tickInterval)
      = (warningColor.map .text).getD .null := by
  simp [Settings.field, settingsPayload, lookup_append, lookup_payloadField, Text.ofString_inj]

theorem field_tickInterval :
    Settings.field "tick_interval" (settingsPayload charging warningColor strings tickInterval)
      = (tickInterval.map .float).getD .null := by
  simp [Settings.field, settingsPayload, lookup_append, lookup_payloadField, Text.ofString_inj]

theorem field_thresholds :
    Settings.field "thresholds" (chargingPayload rates showDetails whenCharged)
      = (rates.map fun rates => .object (rateFields rates)).getD .null := by
  simp [Settings.field, chargingPayload, lookup_append, lookup_payloadField, Text.ofString_inj]

theorem field_showDetails :
    Settings.field "show_details" (chargingPayload rates showDetails whenCharged)
      = (showDetails.map .bool).getD .null := by
  simp [Settings.field, chargingPayload, lookup_append, lookup_payloadField, Text.ofString_inj]

theorem field_detailsWhenCharged :
    Settings.field "details_when_charged" (chargingPayload rates showDetails whenCharged)
      = (whenCharged.map .bool).getD .null := by
  simp [Settings.field, chargingPayload, lookup_append, lookup_payloadField, Text.ofString_inj]

end

/-! ## Requests -/

/-- Only one route has a change of settings read from its body. -/
theorem readSettingsPayload_of_ofFields? {path : List String} {route : Route}
    {read : List (Text × Value) → Checked Call} {fields : List (Text × Value)} {payload : Value}
    (hroute : ofFields? path route = some read) (h : read fields = .ok (.updateSettings payload)) :
    readSettingsPayload path fields = .ok (.updateSettings payload) := by
  cases route with
  | settingsUpdate =>
    cases hroute
    exact h
  | _ =>
    -- every other body is read to a call of another kind
    cases hroute <;>
      simp [Checked.map_eq_ok_iff, Checked.and_eq_ok_iff, readBattery, readPhoneUpdate, readFeedback] at h

/-- A call is that of a route without a body, or it is read from the fields of one. -/
theorem exists_of_call {r : Request} {c : Call} (h : r.call = .ok c) :
    ∃ route, c = ofRoute route ∨
      ∃ read fields, ofFields? ["body"] route = some read ∧ read fields = .ok c := by
  unfold Request.call at h
  split at h
  · cases h
  · rename_i route _
    refine ⟨route, ?_⟩
    split at h
    · cases h
      exact .inl rfl
    · rename_i read hroute
      obtain ⟨v, _, h⟩ := exists_ok_of_bind h
      split at h
      · rename_i _ hmodel
        cases h
        obtain ⟨fields, hfields⟩ := exists_of_readModel hmodel
        exact .inr ⟨read, fields, hroute, hfields⟩
      · cases h

/-- A payload of the form that bodies give. -/
def IsBodyPayload (payload : Value) : Prop :=
  ∃ charging warningColor strings tickInterval,
    payload = .object (settingsPayload charging warningColor strings tickInterval) ∧
    ∀ v, charging = some v →
      ∃ rates showDetails whenCharged, v = .object (chargingPayload rates showDetails whenCharged)

theorem isBodyPayload_of_call_updateSettings {r : Request} {payload : Value}
    (h : r.call = .ok (.updateSettings payload)) : IsBodyPayload payload := by
  obtain ⟨route, hcall | ⟨read, fields, hroute, hfields⟩⟩ := exists_of_call h
  · cases route <;> cases hcall
  · obtain ⟨charging, warningColor, strings, tickInterval, heq, hcharging⟩ :=
      exists_of_readSettingsPayload (readSettingsPayload_of_ofFields? hroute hfields)
    cases heq
    exact ⟨charging, warningColor, strings, tickInterval, rfl, hcharging⟩

theorem nonneg_of_call_takeDownAfter {r : Request} {millis : Int} (h : r.call = .ok (.takeDownAfter millis)) :
    0 ≤ millis := by
  obtain ⟨route, hcall | ⟨read, fields, hroute, hfields⟩⟩ := exists_of_call h
  · cases route <;> cases hcall
  · cases route with
    | messageHide =>
      cases hroute
      obtain ⟨i, hi, heq⟩ := Checked.map_eq_ok_iff.mp hfields
      cases heq
      obtain ⟨v, hv⟩ := exists_of_required hi
      exact le_of_readAtLeast hv
    | _ =>
      -- every other body is read to a call of another kind
      cases hroute <;>
        simp [Checked.map_eq_ok_iff, Checked.and_eq_ok_iff, readBattery, readPhoneUpdate, readFeedback,
          readSettingsPayload] at hfields

end Call

/-- A reading that gives payloads of the form that bodies give, and delays that are not below zero. -/
structure Reading.Typed (read : Reading) : Prop where
  payload : ∀ r payload, read r = .ok (.updateSettings payload) → Call.IsBodyPayload payload
  delay : ∀ r millis, read r = .ok (.takeDownAfter millis) → 0 ≤ millis

theorem typed_call : Reading.Typed Request.call where
  payload _ _ h := Call.isBodyPayload_of_call_updateSettings h
  delay _ _ h := Call.nonneg_of_call_takeDownAfter h

end LockScreen
