import LockScreen.Proofs.Json.Nesting
import LockScreen.Proofs.Service.Payloads
import LockScreen.Proofs.Settings.Refusal
import LockScreen.Service.Basic

/-!
# Refused changes of settings

What becomes of settings that are refused. A file that holds a bad value makes the store report an unreadable file,
and a request that gives one is rejected. Numbers that are too large slip through: the overflow of a file is passed
on as it is (`Unloadable.oversized`), and so is that of a request, which can only come from a rate
(`exists_huge_of_oversized`), since a body has no other integer left when its payload is merged.
-/

namespace LockScreen

/-! ## Files -/

/-- Why a file gives no settings where lists and objects may be nested to a depth. Its fault names the file where the
value is a bad one. -/
inductive Settings.Unloadable (file : Option FileContent) (depth : Nat) : Fault → Prop
  | badValue {cause : Fault} (hkind : cause.kind = .value) : Unloadable file depth (.fileUnreadable cause)
  | oversized {f : Fault} {text : String} {payload : Value} (hkind : f.kind = .overflow)
      (hfile : file = some (.text text)) (hread : Json.read text depth = .ok payload)
      (hsize : standard.Oversized payload) : Unloadable file depth f
  | nested {f : Fault} {text : String} (hkind : f.kind = .depth) (hfile : file = some (.text text))
      (hdepth : depth < Json.openings (Text.ofString text).letters) : Unloadable file depth f

/-- What a text is refused for: a bad value, a number that is too large, or too many levels. -/
theorem Settings.error_of_ofFileText {text : String} {depth : Nat} {f : Fault} (h : ofFileText text depth = .error f) :
    f.kind = .value ∨
      (f.kind = .overflow ∧ ∃ payload, Json.read text depth = .ok payload ∧ standard.Oversized payload) ∨
      (f.kind = .depth ∧ depth < Json.openings (Text.ofString text).letters) := by
  obtain hread | ⟨payload, hread, hmerge⟩ := error_of_bind h
  · obtain hvalue | hdepth := Json.error_of_read hread
    · exact .inl hvalue
    · exact .inr (.inr hdepth)
  · split at hmerge
    · obtain hvalue | ⟨hoverflow, hsize⟩ := (keepsOut_merge _ _).blamed f hmerge
      · exact .inl hvalue
      · exact .inr (.inl ⟨hoverflow, _, hread, hsize⟩)
    · cases hmerge
      exact .inl rfl

theorem Settings.unloadable_of_load {file : Option FileContent} {depth : Nat} {f : Fault}
    (h : load file depth = .error f) : Unloadable file depth f := by
  unfold load at h
  split at h
  · cases h
  · cases h
    exact .badValue rfl
  · split at h
    · cases h
    · rename_i cause hcause
      cases h
      obtain hvalue | ⟨hoverflow, payload, hread, hsize⟩ | ⟨hdepth, hopenings⟩ := error_of_ofFileText hcause
      · rw [if_pos hvalue]
        exact .badValue hvalue
      -- the other kinds are passed on
      · rw [if_neg (by simp [hoverflow])]
        exact .oversized hoverflow rfl hread hsize
      · rw [if_neg (by simp [hdepth])]
        exact .nested hdepth rfl hopenings

theorem SettingsStore.unloadable_of_ofFile {file : Option FileContent} {depth : Nat} {f : Fault}
    (h : ofFile file depth = .error f) : Settings.Unloadable file depth f := by
  obtain hload | ⟨settings, _, h⟩ := error_of_bind h
  · exact Settings.unloadable_of_load hload
  · cases h

/-! ## Calls of the store -/

namespace StoreCall

/-- The rates that a call gives; those in force count where it leaves one out. -/
def rates (c : StoreCall) (inForce : Thresholds) : List Value :=
  match c with
  | .update (.object fields) =>
    match Settings.chargingFields (Settings.field "charging" fields) with
    | .ok charging => Settings.rates (Settings.field "thresholds" charging) inForce
    | .error _ => []
  | .setThresholds v => Settings.rates v inForce
  | _ => []

/-- A call in which some number is too large. -/
def Oversized (c : StoreCall) (s : Settings) : Prop :=
  match c with
  | .update payload => s.Oversized payload
  | .setThresholds v => ∃ rate ∈ Settings.rates v s.thresholds, Settings.OversizedRate rate
  | .setShowDetails v => v.IsHuge
  | .setWarningColor v => Settings.OversizedColor v

end StoreCall

theorem SettingsStore.keepsOut_call (store : SettingsStore) (c : StoreCall) :
    KeepsOut (store.call c) (c.Oversized store.settings) := by
  cases c with
  | update payload => exact (Settings.keepsOut_merge _ _).map
  | setThresholds v => exact (Settings.keepsOut_readThresholds _ _).map
  | setShowDetails v => exact (Settings.keepsOut_readFlag _ _).map
  | setWarningColor v => exact (Settings.keepsOut_readColor _ _).map

/-! ## Requests -/

namespace Call

/-- The call of the store that a call of the service makes, where it changes settings. -/
def change? : Call → Option StoreCall
  | .setThresholds slow fast =>
    some (.setThresholds (.object [("slow_threshold", .int slow), ("fast_threshold", .int fast)]))
  | .setDetails on => some (.setShowDetails (.bool on))
  | .setWarningColor text => some (.setWarningColor (.text text))
  | .updateSettings payload => some (.update payload)
  | _ => none

theorem exists_int_of_lookup {name : Text} {fields : List (Text × Int)} {v : Value}
    (h : Value.lookup name (rateFields fields) = some v) : ∃ i, v = .int i := by
  induction fields with
  | nil => cases h
  | cons field fields ih =>
    rw [rateFields, List.map_cons, Value.lookup] at h
    split at h
    · cases h
      exact ⟨_, rfl⟩
    · exact ih h

theorem exists_int_of_namedRate (fields : List (Text × Int)) (long short : Text) (inForce : Int) :
    ∃ i, Settings.namedRate (rateFields fields) long short inForce = .int i := by
  unfold Settings.namedRate
  cases h : (Value.lookup long (rateFields fields)).or (Value.lookup short (rateFields fields)) with
  | none => exact ⟨inForce, rfl⟩
  | some v =>
    rcases Option.or_eq_some_iff.mp h with hlong | ⟨_, hshort⟩
    · exact exists_int_of_lookup hlong
    · exact exists_int_of_lookup hshort

/-- The rates of an object of integers are integers, whatever is in force. -/
theorem exists_int_of_mem_rates {fields : List (Text × Int)} {inForce : Thresholds} {rate : Value}
    (h : rate ∈ Settings.rates (.object (rateFields fields)) inForce) : ∃ i, rate = .int i := by
  cases hlookup : Value.lookup "thresholds" (rateFields fields) with
  | none =>
    have hrates : Settings.rates (.object (rateFields fields)) inForce
        = Settings.ratesOfFields (rateFields fields) inForce := by
      rw [Settings.rates, hlookup]
    rw [hrates, Settings.ratesOfFields, List.mem_cons, List.mem_singleton] at h
    rcases h with rfl | rfl
    · exact exists_int_of_namedRate _ _ _ _
    · exact exists_int_of_namedRate _ _ _ _
  | some v =>
    -- what is nested is an integer and gives no rates
    obtain ⟨i, rfl⟩ := exists_int_of_lookup hlookup
    rw [Settings.rates, hlookup] at h
    cases h

/-- An integer that is too large as a rate is huge: it does not count as an infinity. -/
theorem huge_of_oversizedRate {i : Int} (h : Settings.OversizedRate (.int i)) : Binary64.Huge i := by
  rcases h with ⟨j, hj, hhuge⟩ | ⟨negative, hinfinite⟩
  · cases hj
    exact hhuge
  · by_contra hfits
    have hfinite := Binary64.isFinite_ofInt_iff.mpr hfits
    simp only [Value.toBinary64, Binary64.ofInt?_of_not_huge hfits, Except.ok.injEq] at hinfinite
    rw [hinfinite] at hfinite
    cases hfinite

theorem exists_huge_of_mem_rates {fields : List (Text × Int)} {inForce : Thresholds} {rate : Value}
    (hmem : rate ∈ Settings.rates (.object (rateFields fields)) inForce) (hsize : Settings.OversizedRate rate) :
    ∃ i, .int i ∈ Settings.rates (.object (rateFields fields)) inForce ∧ Binary64.Huge i := by
  obtain ⟨i, rfl⟩ := exists_int_of_mem_rates hmem
  exact ⟨i, hmem, huge_of_oversizedRate hsize⟩

/-- What is too large in the charging part of a body is a rate, since its flags are flags. -/
theorem exists_huge_of_oversizedCharging {given : Option (List (Text × Int))}
    {showDetails whenCharged : Option Bool} {s : Settings}
    (h : s.OversizedCharging (chargingPayload given showDetails whenCharged)) :
    ∃ i, .int i ∈ Settings.rates
        (Settings.field "thresholds" (chargingPayload given showDetails whenCharged)) s.thresholds ∧
      Binary64.Huge i := by
  unfold Settings.OversizedCharging at h
  rw [field_thresholds, field_showDetails, field_detailsWhenCharged] at h
  rw [field_thresholds]
  rcases h with ⟨rate, hmem, hsize⟩ | ⟨i, hi, _⟩ | ⟨i, hi, _⟩
  · cases given with
    | none => cases hmem
    | some rates => exact exists_huge_of_mem_rates hmem hsize
  · cases showDetails with
    | none => cases hi
    | some on => cases hi
  · cases whenCharged with
    | none => cases hi
    | some on => cases hi

/-- A number that is too large in a change that a request makes is one of its rates. -/
theorem exists_huge_of_oversized {read : Reading} (hread : read.Typed) {r : Request} {c : Call} {change : StoreCall}
    (hcall : read r = .ok c) (hchange : c.change? = some change) {s : Settings} (h : change.Oversized s) :
    ∃ i, .int i ∈ change.rates s.thresholds ∧ Binary64.Huge i := by
  cases c with
  | setThresholds slow fast =>
    cases hchange
    obtain ⟨rate, hmem, hsize⟩ := h
    have hmem : rate ∈ Settings.rates
        (.object (rateFields [("slow_threshold", slow), ("fast_threshold", fast)])) s.thresholds := hmem
    exact exists_huge_of_mem_rates hmem hsize
  | setDetails on =>
    cases hchange
    obtain ⟨i, hi, _⟩ := h
    cases hi
  | setWarningColor text =>
    cases hchange
    obtain ⟨parts, hparts, _⟩ := h
    cases hparts
  | updateSettings payload =>
    cases hchange
    obtain ⟨charging, warningColor, strings, tickInterval, rfl, hcharging⟩ :=
      hread.payload r payload hcall
    -- without a charging part it counts as an empty one
    have hpart : ∃ given showDetails whenCharged, Settings.chargingFields (charging.getD .null)
        = .ok (chargingPayload given showDetails whenCharged) := by
      cases charging with
      | none => exact ⟨none, none, none, rfl⟩
      | some v =>
        obtain ⟨given, showDetails, whenCharged, rfl⟩ := hcharging v rfl
        exact ⟨given, showDetails, whenCharged, rfl⟩
    obtain ⟨given, showDetails, whenCharged, hfields⟩ := hpart
    rw [← field_charging charging warningColor strings tickInterval] at hfields
    obtain ⟨fields, hobject, hsize⟩ := h
    cases hobject
    rw [StoreCall.rates, hfields]
    rw [field_warningColor, field_tickInterval] at hsize
    rcases hsize with ⟨part, hpart, hsize⟩ | ⟨parts, hparts, _⟩ | ⟨i, hi, _⟩
    · rw [hfields] at hpart
      cases hpart
      exact exists_huge_of_oversizedCharging hsize
    · cases warningColor with
      | none => cases hparts
      | some text => cases hparts
    · cases tickInterval with
      | none => cases hi
      | some x => cases hi
  | _ => cases hchange

end Call

namespace Service

/-! ## Answers -/

variable {s : Service} {f : Fault}

/-- What the store makes of thresholds is a function of its own here, so that nobody looks into it. -/
theorem answer_setThresholds_of_refused {slow fast : Int} {setThresholds : Value → Except Fault SettingsStore}
    (hstore : s.store.setThresholds = setThresholds)
    (h : setThresholds (.object [("slow_threshold", .int slow), ("fast_threshold", .int fast)]) = .error f) :
    s.answer (.setThresholds slow fast) = s.storeRefused f := by
  rw [answer.eq_def, hstore]
  dsimp only
  rw [h]

/-- A change that the store refuses is handed back to the caller. -/
theorem answer_of_refused {c : Call} {change : StoreCall} (hchange : c.change? = some change)
    (h : s.store.call change = .error f) : s.answer c = s.storeRefused f := by
  cases c with
  | setThresholds slow fast =>
    cases hchange
    have hstore : s.store.setThresholds
        (.object [("slow_threshold", .int slow), ("fast_threshold", .int fast)]) = .error f := h
    exact answer_setThresholds_of_refused rfl hstore
  | setDetails on =>
    -- a flag is never refused
    cases hchange
    obtain hread | ⟨_, _, hsaved⟩ := error_of_bind h
    · cases hread
    · cases hsaved
  | setWarningColor text =>
    cases hchange
    have hstore : s.store.setWarningColor (.text text) = .error f := h
    rw [answer.eq_def]
    simp only [hstore]
  | updateSettings payload =>
    cases hchange
    have hstore : s.store.update payload = .error f := h
    rw [answer.eq_def]
    simp only [Service.updateSettings, hstore]
  | _ => cases hchange

/-- A change that the store refuses is rejected where it gives a bad value. Where a rate is too large the request
fails, with nothing changed but what is due. -/
theorem handle_of_refused {read : Reading} (hread : read.Typed) {r : Request} {c : Call} {change : StoreCall}
    (hcall : read r = .ok c) (hchange : c.change? = some change) (h : s.store.call change = .error f) :
    (f.kind = .value ∧ s.handle r read = (s, (Response.rejected f.message).sent)) ∨
      (f.kind = .overflow ∧ s.handle r read = (s.advance 0, .failed f) ∧
        ∃ i, .int i ∈ change.rates s.store.settings.thresholds ∧ Binary64.Huge i) := by
  have hanswer := answer_of_refused hchange h
  rcases (SettingsStore.keepsOut_call s.store change).blamed f h with hvalue | ⟨hoverflow, hsize⟩
  · rw [storeRefused, if_pos hvalue] at hanswer
    refine .inl ⟨hvalue, ?_⟩
    simp only [handle, respond, hcall, hanswer]
  · rw [storeRefused, if_neg (by simp [hoverflow])] at hanswer
    refine .inr ⟨hoverflow, ?_, Call.exists_huge_of_oversized hread hcall hchange hsize⟩
    simp only [handle, respond, hcall, hanswer]
    rfl

end Service

/-! ## Every refusal -/

/-- Settings that are given as a payload, in a file or by a request are refused for a bad value, which is reported
as one, or because a number in them is too large, or a file because it is nested deeper than there is room for. Nothing
else makes any of the three fail, and a payload in which something is too large is never accepted. -/
theorem refused_for_value_or_size (s : Settings) (payload : Value) (file : Option FileContent)
    (service : Service) {read : Reading} (hread : read.Typed) {r : Request} {c : Call} {change : StoreCall}
    (hcall : read r = .ok c) (hchange : c.change? = some change) :
    KeepsOut (s.merge payload) (s.Oversized payload) ∧
      (∀ depth f, SettingsStore.ofFile file depth = .error f → Settings.Unloadable file depth f) ∧
      (∀ f, service.store.call change = .error f →
        (f.kind = .value ∧ service.handle r read = (service, (Response.rejected f.message).sent)) ∨
          (f.kind = .overflow ∧ service.handle r read = (service.advance 0, .failed f) ∧
            ∃ i, .int i ∈ change.rates service.store.settings.thresholds ∧ Binary64.Huge i)) :=
  ⟨Settings.keepsOut_merge s payload, fun _ _ => SettingsStore.unloadable_of_ofFile,
    fun _ => Service.handle_of_refused hread hcall hchange⟩

/-- A payload whose rates are infinite. -/
def infiniteRates : Value :=
  .object [("charging", .object [("thresholds", .list [.float (.infinite false), .float (.infinite false)])])]

/-- A file that spells it. -/
def infiniteRatesFile : FileContent :=
  .text "\x7b\"charging\": \x7b\"thresholds\": [Infinity, Infinity]\x7d\x7d"

/-- A request for rates that are integers of too many digits for a number. -/
def hugeRates : Request where
  method := "POST"
  path := "/api/settings/thresholds"
  body := .json (.object [("slow_threshold", .int (Nat.pow 10 400)), ("fast_threshold", .int (Nat.pow 10 400))])

/-- A service with the standard settings. -/
def standardService : Service where
  store := ⟨Settings.standard, none⟩
  screen := Screen.ofSettings Settings.standard
  metronome := ⟨Settings.standard.tickInterval, none⟩

theorem refused_for_value_or_size_hugeRates :
    (∃ f, Settings.standard.merge infiniteRates = .error f) ∧
      (∃ f, SettingsStore.ofFile (some infiniteRatesFile) = .error f ∧
        Settings.Unloadable (some infiniteRatesFile) Json.usualDepth f) ∧
      ∃ f, standardService.handle hugeRates = (standardService.advance 0, .failed f) := by
  have hcall : hugeRates.call = .ok (.setThresholds (Nat.pow 10 400) (Nat.pow 10 400)) := rfl
  obtain ⟨hmerge, hload, hanswer⟩ :=
    refused_for_value_or_size Settings.standard infiniteRates (some infiniteRatesFile) standardService
      typed_call hcall rfl
  have hrate : Settings.OversizedRate (.float (.infinite false)) := .inr ⟨false, rfl⟩
  have hfile : SettingsStore.ofFile (some infiniteRatesFile) = .error .infinityToInteger := by decide +kernel
  have hstore : standardService.store.call (.setThresholds (.object
      [("slow_threshold", .int (Nat.pow 10 400)), ("fast_threshold", .int (Nat.pow 10 400))]))
        = .error .integerTooLarge := by
    decide +kernel
  refine ⟨hmerge.refused ⟨_, rfl, .inl ⟨_, rfl, .inl ⟨_, List.mem_cons_self, hrate⟩⟩⟩,
    ⟨_, hfile, hload _ _ hfile⟩, ?_⟩
  obtain ⟨hvalue, _⟩ | ⟨_, hhandle, _⟩ := hanswer _ hstore
  · cases hvalue
  · exact ⟨_, hhandle⟩

/-- Not every payload that is refused gives a bad value: an infinite rate overflows. -/
theorem not_forall_refused_as_bad_value :
    ¬∀ (s : Settings) (payload : Value) (f : Fault), s.Valid → payload.IsJson →
      s.merge payload = .error f → f.kind = .value := by
  intro h
  have hmerge : Settings.standard.merge infiniteRates = .error .infinityToInteger := by decide +kernel
  have hjson : infiniteRates.IsJson := by
    simp [infiniteRates, Value.IsJson, Value.AreJson, Value.AreJsonFields, Text.spellable_ofString]
  have hstandard := Settings.storable_standard
  have hvalid : Settings.standard.Valid := ⟨hstandard.thresholds.valid, hstandard.warningColor,
    hstandard.phrases.valid, hstandard.tickInterval⟩
  cases h _ _ _ hvalid hjson hmerge

end LockScreen
