import LockScreen.Proofs.Number.Rounding
import LockScreen.Proofs.Settings.Atomicity

/-!
# Ways to give thresholds

Two rates are given as a pair, by their names in an object or in one that it holds, or as thresholds that are
built already; and each of these by the call for thresholds or as the only entry of a payload, which comes to the
same (`perform_update`). Thresholds that are built come into force as they are. Rates that are given as numbers go by
way of binary64 numbers, all of them alike: those of more than 53 significant bits come out as the nearest integer
that has no more, and one that is too large for any overflows (`readThresholds_of_gives`).

The same happens to a rate in force when a value names only the other one, so it stays as it is exactly if it has no
more than 53 bits. Rates that were given as numbers have no more; those of thresholds that were built may.
-/

namespace LockScreen

/-- The nearest thresholds with rates of at most 53 significant bits. -/
def Thresholds.nearest (t : Thresholds) : Thresholds :=
  ⟨Binary64.nearestInt t.slow, Binary64.nearestInt t.fast⟩

namespace Thresholds

variable {t : Thresholds}

/-- Rounding keeps the order of the rates. -/
theorem Valid.nearest (h : t.Valid) : t.nearest.Valid where
  slow_pos := Binary64.nearestInt_pos h.slow_pos
  slow_le_fast := Binary64.nearestInt_mono (Int.le_of_lt h.slow_pos) h.slow_le_fast

/-- Rounded rates are not rounded any further. -/
theorem nearest_nearest (t : Thresholds) : t.nearest.nearest = t.nearest := by
  rw [nearest, nearest, Binary64.nearestInt_nearestInt, Binary64.nearestInt_nearestInt]

theorem nearest_eq_self_iff : t.nearest = t ↔ HasPrecision t.slow.natAbs ∧ HasPrecision t.fast.natAbs := by
  rw [← Binary64.nearestInt_eq_self_iff, ← Binary64.nearestInt_eq_self_iff]
  constructor
  · intro h
    exact ⟨congrArg Thresholds.slow h, congrArg Thresholds.fast h⟩
  · rintro ⟨hslow, hfast⟩
    rw [nearest, hslow, hfast]

end Thresholds

namespace Settings

/-! ## Forms -/

/-- The fields that may name rates: those of an object, or of the object that it holds as its thresholds. -/
def rateFields? : Value → Option (List (Text × Value))
  | .object fields =>
    match Value.lookup "thresholds" fields with
    | none => some fields
    | some (.object inner) => some inner
    | some _ => none
  | _ => none

/-- A value names rates, each under its long or its short name; none where it leaves one out. -/
def Names (v : Value) (slow fast : Option Value) : Prop :=
  ∃ fields, rateFields? v = some fields ∧
    (Value.lookup "slow_threshold" fields).or (Value.lookup "slow" fields) = slow ∧
    (Value.lookup "fast_threshold" fields).or (Value.lookup "fast" fields) = fast

/-- A value gives the rates of thresholds as integers, as a pair or by their names. -/
inductive Gives (t : Thresholds) : Value → Prop
  | pair : Gives t (.list [.int t.slow, .int t.fast])
  | named {v : Value} (h : Names v (some (.int t.slow)) (some (.int t.fast))) : Gives t v

/-- A payload that has an entry for the thresholds alone. -/
structure OnlyThresholds (payload v : Value) : Prop where
  isPayload : IsPayload payload
  thresholds : entry payload .thresholds = some v
  others : ∀ f, f ≠ .thresholds → entry payload f = none

variable {v : Value} {t : Thresholds}

theorem onlyThresholds_object (h : v ≠ .null) :
    OnlyThresholds (.object [("charging", .object [("thresholds", v)])]) v where
  isPayload := ⟨_, rfl, ⟨_, rfl⟩, trivial⟩
  thresholds := by
    show said v = some v
    cases v with
    | null => exact absurd rfl h
    | _ => rfl
  others f hf := by
    cases f with
    | thresholds => exact absurd rfl hf
    | _ => rfl

/-! ## Reading -/

/-- An integer is read as the nearest one of 53 significant bits, or overflows. -/
theorem rateOfValue_int_eq (i : Int) :
    rateOfValue (.int i) = if Binary64.Huge i then .error .integerTooLarge else .ok (Binary64.nearestInt i) := by
  by_cases h : Binary64.Huge i
  · rw [if_pos h, rateOfValue, Value.toBinary64, Binary64.ofInt?_of_huge h]
    rfl
  · rw [if_neg h, rateOfValue, Value.toBinary64]
    exact Binary64.truncate_ofInt?_eq h

/-- A fault that is no rejection is passed on as it is. -/
theorem thresholdsOfRates_of_error {slow fast : Value} {fault : Fault} (hslow : ∀ b, slow ≠ .bool b)
    (hfast : ∀ b, fast ≠ .bool b) (hfault : fault.isRejection = false)
    (h : (do Thresholds.ofRates (← rateOfValue slow) (← rateOfValue fast)) = .error fault) :
    thresholdsOfRates slow fast = .error fault := by
  unfold thresholdsOfRates
  split
  · exact absurd rfl (hslow _)
  · exact absurd rfl (hfast _)
  · rw [h]
    dsimp only
    rw [hfault]
    rfl

theorem thresholdsOfRates_int (h : t.Valid) :
    thresholdsOfRates (.int t.slow) (.int t.fast)
      = if Binary64.Huge t.fast then .error .integerTooLarge else .ok t.nearest := by
  have hslowRead := rateOfValue_int_eq t.slow
  have hfastRead := rateOfValue_int_eq t.fast
  by_cases hfast : Binary64.Huge t.fast
  · -- whichever rate is read first that is too large, the fault is the same
    rw [if_pos hfast] at hfastRead ⊢
    refine thresholdsOfRates_of_error (fun _ => Value.noConfusion) (fun _ => Value.noConfusion) rfl ?_
    by_cases hslow : Binary64.Huge t.slow
    · rw [hslowRead, if_pos hslow]
      rfl
    · rw [hslowRead, if_neg hslow, hfastRead]
      rfl
  · -- the slow rate is no larger
    have hsize : t.slow.natAbs ≤ t.fast.natAbs := by
      have hpos := h.slow_pos
      have hle := h.slow_le_fast
      omega
    have hslow : ¬Binary64.Huge t.slow := fun hhuge => hfast (hhuge.of_le hsize)
    rw [if_neg hslow] at hslowRead
    rw [if_neg hfast] at hfastRead ⊢
    exact thresholdsOfRates_eq_ok_iff.mpr ⟨givesRate_int rfl hslowRead, givesRate_int rfl hfastRead, h.nearest⟩

theorem readThresholds_of_names {slow fast : Option Value} (h : Names v slow fast) (inForce : Thresholds) :
    readThresholds v inForce
      = thresholdsOfRates (slow.getD (.int inForce.slow)) (fast.getD (.int inForce.fast)) := by
  obtain ⟨fields, hfields, rfl, rfl⟩ := h
  unfold rateFields? at hfields
  split at hfields
  · split at hfields
    · rename_i hnone
      cases hfields
      simp only [readThresholds, hnone]
      rfl
    · rename_i hinner
      cases hfields
      simp only [readThresholds, hinner]
      rfl
    · cases hfields
  · cases hfields

/-- All forms of two integers are read alike. -/
theorem readThresholds_of_gives (ht : t.Valid) (h : Gives t v) (inForce : Thresholds) :
    readThresholds v inForce = if Binary64.Huge t.fast then .error .integerTooLarge else .ok t.nearest := by
  rw [← thresholdsOfRates_int ht]
  cases h with
  | pair => rfl
  | named h => exact readThresholds_of_names h inForce

theorem eq_nearestInt_of_givesRate {i rate : Int} (h : GivesRate (.int i) rate) : rate = Binary64.nearestInt i := by
  have hread := h.read
  rw [rateOfValue_int_eq] at hread
  split at hread
  · cases hread
  · cases hread
    rfl

/-- A rate that is not named is the one in force, by way of a binary64 number. -/
theorem fast_of_names {slow : Option Value} {inForce : Thresholds} (h : Names v slow none)
    (hread : readThresholds v inForce = .ok t) : t.fast = inForce.nearest.fast := by
  rw [readThresholds_of_names h] at hread
  exact eq_nearestInt_of_givesRate (thresholdsOfRates_eq_ok_iff.mp hread).2.1

theorem slow_of_names {fast : Option Value} {inForce : Thresholds} (h : Names v none fast)
    (hread : readThresholds v inForce = .ok t) : t.slow = inForce.nearest.slow := by
  rw [readThresholds_of_names h] at hread
  exact eq_nearestInt_of_givesRate (thresholdsOfRates_eq_ok_iff.mp hread).1

/-- A payload that mentions the thresholds alone changes them as its entry does. -/
theorem merge_of_onlyThresholds {payload : Value} (h : OnlyThresholds payload v) (s : Settings) :
    s.merge payload = (readThresholds v s.thresholds).map fun thresholds => { s with thresholds } := by
  cases hread : readThresholds v s.thresholds with
  | ok thresholds =>
    refine merge_eq_ok_iff.mpr ⟨h.isPayload, fun f => ?_⟩
    by_cases hf : f = .thresholds
    · subst hf
      rw [h.thresholds]
      exact hread
    · rw [h.others f hf, takes_none_iff]
      cases f with
      | thresholds => exact absurd rfl hf
      | _ => rfl
  | error fault =>
    -- the thresholds are read first, so nothing else can be at fault before them
    obtain ⟨⟨fields, rfl, ⟨charging, hcharging⟩, _⟩, hentry, _⟩ := h
    have hvalue : field "thresholds" charging = v := by
      rw [← getD_said (field "thresholds" charging), ← fieldsOf_of_chargingFields hcharging]
      exact congrArg (·.getD .null) hentry
    simp only [merge, hcharging, hvalue, hread, bind, Except.bind, Except.map]

end Settings

namespace SettingsStore

variable {store next : SettingsStore} {t : Thresholds}

/-! ## Calls -/

theorem call_setThresholds (store : SettingsStore) (v : Value) :
    store.call (.setThresholds v) = (Settings.readThresholds v store.settings.thresholds).map
      fun thresholds => saved { store.settings with thresholds } :=
  rfl

/-- A payload that mentions the thresholds alone comes to the same as the call for thresholds. -/
theorem perform_update {payload v : Value} (h : Settings.OnlyThresholds payload v) (store : SettingsStore) :
    store.perform (.update payload) = store.perform (.setThresholds v) := by
  have hcall : store.call (.update payload) = store.call (.setThresholds v) := by
    rw [call_setThresholds, call, update, Settings.merge_of_onlyThresholds h]
    cases Settings.readThresholds v store.settings.thresholds <;> rfl
  unfold perform
  rw [hcall]

/-- Thresholds that are built already come into force as they are, and are written unless they are too long for
it. -/
theorem perform_built (ht : t.Valid) (store : SettingsStore) :
    (store.perform (.setThresholds (.thresholds t))).1.settings = { store.settings with thresholds := t } ∧
      ((store.perform (.setThresholds (.thresholds t))).2 = none ↔ ¬t.Overlong) := by
  by_cases hlong : t.Overlong
  · have hlimit : Numeral.digitLimit ∈ Medium.standard.digitLimit := rfl
    rw [perform_of_overlong store hlimit ht hlong]
    exact ⟨rfl, iff_of_false (Option.some_ne_none _) (not_not_intro hlong)⟩
  · have hread : Settings.readThresholds (.thresholds t) store.settings.thresholds = .ok t :=
      Thresholds.ofRates_eq_ok_iff.mpr ⟨rfl, ht⟩
    have hcall : store.call (.setThresholds (.thresholds t))
        = .ok (saved { store.settings with thresholds := t }) := by
      rw [call_setThresholds, hread]
      rfl
    rw [perform_of_writable hcall (Settings.unwritable?_of_not_overlong hlong)]
    exact ⟨rfl, iff_of_true rfl hlong⟩

/-- Rates that are given as integers are refused if one of them is too large. Otherwise the nearest rates come into
force and are written. -/
theorem perform_given {v : Value} (ht : t.Valid) (h : Settings.Gives t v) (store : SettingsStore) :
    store.perform (.setThresholds v)
      = if Binary64.Huge t.fast then (store, some .integerTooLarge)
        else (saved { store.settings with thresholds := t.nearest }, none) := by
  have hread := Settings.readThresholds_of_gives ht h store.settings.thresholds
  by_cases hhuge : Binary64.Huge t.fast
  · rw [if_pos hhuge] at hread ⊢
    apply perform_of_error
    rw [call_setThresholds, hread]
    rfl
  · rw [if_neg hhuge] at hread ⊢
    have hcall : store.call (.setThresholds v) = .ok (saved { store.settings with thresholds := t.nearest }) := by
      rw [call_setThresholds, hread]
      rfl
    refine perform_of_writable hcall (Settings.unwritable?_of_not_overlong ?_)
    -- what was read has too few digits for that
    have hrates := Settings.thresholdsOfRates_int ht
    rw [if_neg hhuge] at hrates
    exact (Settings.storable_of_thresholdsOfRates hrates).not_overlong (by decide)

/-- A rate that a call does not name is the nearest one to the rate in force. -/
theorem unnamed_of_call {c : StoreCall} (h : store.call c = .ok next) :
    (∀ slow, Settings.Names c.thresholdsValue slow none →
        next.settings.thresholds.fast = store.settings.thresholds.nearest.fast) ∧
      ∀ fast, Settings.Names c.thresholdsValue none fast →
        next.settings.thresholds.slow = store.settings.thresholds.nearest.slow := by
  have hread := readThresholds_of_call h
  exact ⟨fun _ hnames => Settings.fast_of_names hnames hread, fun _ hnames => Settings.slow_of_names hnames hread⟩

/-- Two rates may be given to a store in any form, and as the only entry of a payload or by the call for them. Built,
they come into force as they are. As integers they are refused if one is too large, and otherwise the nearest rates of
at most 53 significant bits come into force and are written: these are the rates themselves if they have no more bits,
and miss them by one part in `2⁵³` at most. A later change that names only one rate does the same to the other. -/
theorem rates_given_in_any_form (ht : t.Valid) (store : SettingsStore) :
    ((store.perform (.setThresholds (.thresholds t))).1.settings = { store.settings with thresholds := t } ∧
      ((store.perform (.setThresholds (.thresholds t))).2 = none ↔ ¬t.Overlong)) ∧
    (∀ v, Settings.Gives t v → store.perform (.setThresholds v)
      = if Binary64.Huge t.fast then (store, some .integerTooLarge)
        else (saved { store.settings with thresholds := t.nearest }, none)) ∧
    (∀ payload v, Settings.OnlyThresholds payload v →
      store.perform (.update payload) = store.perform (.setThresholds v)) ∧
    (t.nearest = t ↔ HasPrecision t.slow.natAbs ∧ HasPrecision t.fast.natAbs) ∧
    (IsNear t.nearest.slow.natAbs t.slow.natAbs ∧ IsNear t.nearest.fast.natAbs t.fast.natAbs) ∧
    t.nearest.nearest = t.nearest ∧
    ∀ c next, store.call c = .ok next →
      (∀ slow, Settings.Names c.thresholdsValue slow none →
        next.settings.thresholds.fast = store.settings.thresholds.nearest.fast) ∧
      (∀ fast, Settings.Names c.thresholdsValue none fast →
        next.settings.thresholds.slow = store.settings.thresholds.nearest.slow) :=
  ⟨perform_built ht store, fun _ h => perform_given ht h store, fun _ _ h => perform_update h store,
    Thresholds.nearest_eq_self_iff, ⟨Binary64.isNear_nearestInt _, Binary64.isNear_nearestInt _⟩,
    Thresholds.nearest_nearest t, fun _ _ h => unnamed_of_call h⟩

/-- Thresholds with a rate of 54 significant bits. -/
def wideRates : Thresholds :=
  ⟨9007199254740993, 10000000000000000⟩

/-- The rates by their names, the slow one by its short and the fast one by its long name, in an object that holds
them. -/
def wideRatesByName : Value :=
  .object [("thresholds", .object [("slow", .int wideRates.slow), ("fast_threshold", .int wideRates.fast)])]

theorem gives_wideRatesByName : Settings.Gives wideRates wideRatesByName :=
  .named ⟨_, rfl, rfl, rfl⟩

theorem rates_given_in_any_form_wideRates :
    wideRates.Valid ∧
      (newStore.perform (.setThresholds (.thresholds wideRates))).1.settings.thresholds = wideRates ∧
      newStore.perform (.update (.object [("charging", .object [("thresholds", wideRatesByName)])]))
        = (saved { Settings.standard with thresholds := ⟨9007199254740992, 10000000000000000⟩ }, none) := by
  have hvalid : wideRates.Valid := ⟨by decide, by decide⟩
  obtain ⟨⟨hbuilt, _⟩, hgiven, hupdate, _⟩ := rates_given_in_any_form hvalid newStore
  have hnearest : wideRates.nearest = ⟨9007199254740992, 10000000000000000⟩ := by decide +kernel
  refine ⟨hvalid, congrArg Settings.thresholds hbuilt, ?_⟩
  rw [hupdate _ _ (Settings.onlyThresholds_object Value.noConfusion), hgiven _ gives_wideRatesByName,
    if_neg (by decide +kernel), hnearest]
  rfl

/-- Rates of more than 53 significant bits do not come into force as they were given. -/
theorem not_forall_rates_as_given :
    ¬ ∀ (t : Thresholds), t.Valid → ∀ (store : SettingsStore) (v : Value), Settings.Gives t v →
        ∃ next, store.call (.setThresholds v) = .ok next ∧ next.settings.thresholds = t := by
  intro hall
  have hvalid : wideRates.Valid := ⟨by decide, by decide⟩
  obtain ⟨next, hcall, hthresholds⟩ := hall wideRates hvalid newStore _ .pair
  have hread := readThresholds_of_call hcall
  rw [hthresholds] at hread
  have hrounded : Settings.readThresholds (.list [.int wideRates.slow, .int wideRates.fast])
      newStore.settings.thresholds = .ok ⟨9007199254740992, 10000000000000000⟩ := by decide +kernel
  cases hrounded.symm.trans hread

end SettingsStore

end LockScreen
