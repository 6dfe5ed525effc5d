import LockScreen.Proofs.Settings.Rates

/-!
# Payloads change settings one by one

A payload has an entry for each single setting (`Settings.entry`), and none for what it does not mention. Merging
reads every setting from its own entry and its own value in force, and looks at nothing else: a payload leads from
settings to others exactly if it is one (`IsPayload`) and every setting `Takes` its entry (`merge_eq_ok_iff`).

So three laws about payloads come down to laws about single readers. What is not mentioned is kept
(`takes_none_iff`). An entry that was taken is taken again and changes nothing any more (`Takes.again`), also where
a rate lost digits the first time. Two payloads that mention no setting in common can be merged in either order
(`merge_merge_comm`).
-/

namespace LockScreen

/-- One thing that can be set. -/
inductive Setting
  | thresholds
  | showDetails
  | detailsWhenCharged
  | warningColor
  | tickInterval
  | phrase (k : Phrase)
deriving DecidableEq, Repr

/-! ## Phrases -/

namespace Phrases

/-- The catalogue of the given texts. -/
def ofTexts (text : Phrase → Text) : Phrases where
  storageLocked := text .storageLocked
  charged := text .charged
  pluggedIn := text .pluggedIn
  pluggedInFast := text .pluggedInFast
  pluggedInSlowly := text .pluggedInSlowly
  chargingTime := text .chargingTime
  chargingTimeFast := text .chargingTimeFast
  chargingTimeSlowly := text .chargingTimeSlowly

@[simp]
theorem get_ofTexts (text : Phrase → Text) (k : Phrase) : (ofTexts text).get k = text k := by
  cases k <;> rfl

theorem ofTexts_get (p : Phrases) : ofTexts p.get = p :=
  rfl

/-- Catalogues with the same texts are the same. -/
theorem eq_of_get {p q : Phrases} (h : ∀ k, p.get k = q.get k) : p = q := by
  rw [← ofTexts_get p, ← ofTexts_get q, funext h]

/-- A phrase keeps its text without an entry, and takes the text of an entry, in which a template needs a place for
the time. -/
def TakesText (k : Phrase) (entry : Option Value) (old new : Text) : Prop :=
  match entry with
  | none => new = old
  | some v => v = .text new ∧ (k.isTemplate = true → Text.hasTimePlace new.letters = true)

theorem set_eq_of_get {p q : Phrases} {t : Text} {k : Phrase} (hk : q.get k = t)
    (hothers : ∀ l, l ≠ k → q.get l = p.get l) : p.set t k = q := by
  apply eq_of_get
  intro l
  by_cases hl : l = k
  · rw [hl, get_set_self, hk]
  · rw [get_set_of_ne p t hl, hothers l hl]

/-- One phrase is read from its own entry, and the others are as they were. -/
theorem setText_eq_ok_iff {fields : List (Text × Value)} {p q : Phrases} {k : Phrase} :
    setText fields p k = .ok q ↔
      TakesText k (Value.lookup k.name fields) (p.get k) (q.get k) ∧ ∀ l, l ≠ k → q.get l = p.get l := by
  unfold setText TakesText
  cases hlookup : Value.lookup k.name fields with
  | none =>
    constructor
    · rintro ⟨⟩
      exact ⟨rfl, fun _ _ => rfl⟩
    · rintro ⟨hk, hothers⟩
      have hp : p.set (p.get k) k = p := set_eq_of_get rfl fun _ _ => rfl
      rw [← set_eq_of_get hk hothers, hp]
  | some v =>
    dsimp only
    split
    · rename_i t ht
      have hv : v = .text t := by
        cases v <;> simp_all [Value.text?]
      subst hv
      split
      · rename_i hplace
        refine iff_of_false (by simp only [reduceCtorEq, not_false_eq_true]) ?_
        rintro ⟨⟨htext, htemplate⟩, _⟩
        cases htext
        simp_all
      · rename_i hplace
        constructor
        · intro h
          cases h
          refine ⟨⟨by rw [get_set_self], fun htemplate => ?_⟩, fun l hl => get_set_of_ne p t hl⟩
          rw [get_set_self]
          simpa [htemplate] using hplace
        · rintro ⟨⟨htext, _⟩, hothers⟩
          cases htext
          rw [set_eq_of_get rfl hothers]
    · rename_i hnone
      refine iff_of_false (by simp only [reduceCtorEq, not_false_eq_true]) ?_
      rintro ⟨⟨rfl, _⟩, _⟩
      cases hnone

/-- Phrases that are set one after the other do not disturb each other. -/
theorem foldlM_setText_eq_ok_iff {fields : List (Text × Value)} {ks : List Phrase} (hks : ks.Nodup)
    {p q : Phrases} :
    ks.foldlM (setText fields) p = .ok q ↔
      ∀ l, if l ∈ ks then TakesText l (Value.lookup l.name fields) (p.get l) (q.get l)
        else q.get l = p.get l := by
  induction ks generalizing p with
  | nil =>
    simp only [List.foldlM_nil, List.not_mem_nil, if_false]
    constructor
    · rintro ⟨⟩ l
      rfl
    · intro h
      rw [eq_of_get h]
      rfl
  | cons k ks ih =>
    obtain ⟨hk, hks⟩ := List.nodup_cons.mp hks
    rw [List.foldlM_cons]
    constructor
    · intro h l
      obtain ⟨next, hset, hrest⟩ := exists_ok_of_bind h
      obtain ⟨htakes, hothers⟩ := setText_eq_ok_iff.mp hset
      have hl := (ih hks).mp hrest l
      by_cases hlk : l = k
      · subst hlk
        rw [if_neg hk] at hl
        rw [if_pos List.mem_cons_self, hl]
        exact htakes
      · rw [hothers l hlk] at hl
        simpa [hlk] using hl
    · intro h
      have hset : setText fields p k = .ok (p.set (q.get k) k) := by
        have hself := h k
        rw [if_pos List.mem_cons_self] at hself
        rw [setText_eq_ok_iff, get_set_self]
        exact ⟨hself, fun l hl => get_set_of_ne p _ hl⟩
      rw [hset]
      refine (ih hks).mpr ?_
      intro l
      by_cases hlk : l = k
      · subst hlk
        rw [if_neg hk, get_set_self]
      · rw [get_set_of_ne p _ hlk]
        simpa [hlk] using h l

end Phrases

namespace Settings

/-! ## Entries -/

/-- The fields of an object; other values have none. -/
def fieldsOf : Value → List (Text × Value)
  | .object fields => fields
  | _ => []

@[simp]
theorem fieldsOf_object (fields : List (Text × Value)) : fieldsOf (.object fields) = fields :=
  rfl

/-- What a field says; null says nothing. -/
def said : Value → Option Value
  | .null => none
  | v => some v

@[simp]
theorem getD_said (v : Value) : (said v).getD .null = v := by
  cases v <;> rfl

/-- The entry for a phrase among the texts of a payload. -/
def textEntry (texts : Value) (k : Phrase) : Option Value :=
  match texts with
  | .object fields => Value.lookup k.name fields
  | .phrases p _ => some (.text (p.get k))
  | _ => none

/-- The entry of a payload for a setting; none for what it does not mention. -/
def entry (payload : Value) : Setting → Option Value
  | .thresholds => said (field "thresholds" (fieldsOf (field "charging" (fieldsOf payload))))
  | .showDetails => said (field "show_details" (fieldsOf (field "charging" (fieldsOf payload))))
  | .detailsWhenCharged => said (field "details_when_charged" (fieldsOf (field "charging" (fieldsOf payload))))
  | .warningColor => said (field "warning_color" (fieldsOf payload))
  | .tickInterval => said (field "tick_interval" (fieldsOf payload))
  | .phrase k => textEntry (field "strings" (fieldsOf payload)) k

/-- Texts for phrases: an object that names no others, a whole catalogue, or nothing. -/
def AreTexts : Value → Prop
  | .null | .phrases _ _ => True
  | .object fields => Phrases.unknownNames fields = []
  | _ => False

/-- An object with the parts of a payload in their shapes. -/
def IsPayload (payload : Value) : Prop :=
  ∃ fields, payload = .object fields ∧ (∃ charging, chargingFields (field "charging" fields) = .ok charging) ∧
    AreTexts (field "strings" fields)

/-- A setting has the same value in both settings. -/
def Agree (s t : Settings) : Setting → Prop
  | .thresholds => t.thresholds = s.thresholds
  | .showDetails => t.showDetails = s.showDetails
  | .detailsWhenCharged => t.detailsWhenCharged = s.detailsWhenCharged
  | .warningColor => t.warningColor = s.warningColor
  | .tickInterval => t.tickInterval = s.tickInterval
  | .phrase k => t.phrases.get k = s.phrases.get k

/-- A setting is read from its entry and its value in force. -/
def Takes (entry : Option Value) (s t : Settings) : Setting → Prop
  | .thresholds => readThresholds (entry.getD .null) s.thresholds = .ok t.thresholds
  | .showDetails => readFlag (entry.getD .null) s.showDetails = .ok t.showDetails
  | .detailsWhenCharged => readFlag (entry.getD .null) s.detailsWhenCharged = .ok t.detailsWhenCharged
  | .warningColor => readColor (entry.getD .null) s.warningColor = .ok t.warningColor
  | .tickInterval => readTickInterval (entry.getD .null) s.tickInterval = .ok t.tickInterval
  | .phrase k => Phrases.TakesText k entry (s.phrases.get k) (t.phrases.get k)

variable {s t u s' t' : Settings} {f : Setting} {e : Option Value} {payload : Value}

/-! ## Merging -/

theorem readPhrases_eq_ok_iff {v : Value} {p q : Phrases} :
    readPhrases v p = .ok q ↔
      AreTexts v ∧ ∀ k, Phrases.TakesText k (textEntry v k) (p.get k) (q.get k) := by
  have hall : Phrase.all.Nodup := by decide
  unfold readPhrases AreTexts textEntry
  split
  · simp only [Phrases.TakesText, true_and, Except.ok.injEq]
    constructor
    · rintro rfl k
      rfl
    · intro h
      exact Phrases.eq_of_get fun k => (h k).symm
  · rename_i built hvalid
    simp only [Phrases.TakesText, true_and, Except.ok.injEq, Value.text.injEq]
    constructor
    · rintro rfl k
      exact ⟨rfl, hvalid k⟩
    · intro h
      exact Phrases.eq_of_get fun k => (h k).1
  · rename_i fields
    unfold Phrases.withTexts
    by_cases hnames : Phrases.unknownNames fields = []
    · simp only [hnames, if_true, true_and, Phrases.foldlM_setText_eq_ok_iff hall, Phrase.mem_all]
    · simp only [hnames, if_false, false_and, reduceCtorEq]
  · simp_all

theorem fieldsOf_of_chargingFields {v : Value} {charging : List (Text × Value)}
    (h : chargingFields v = .ok charging) : fieldsOf v = charging := by
  unfold chargingFields at h
  split at h
  · cases h
    rfl
  · cases h
    rfl
  · cases h

/-- A payload leads from settings to others exactly if it is one and every setting takes its entry. -/
theorem merge_eq_ok_iff : s.merge payload = .ok t ↔ IsPayload payload ∧ ∀ f, Takes (entry payload f) s t f := by
  constructor
  · intro h
    unfold merge at h
    split at h
    · rename_i fields
      obtain ⟨charging, hcharging, h⟩ := exists_ok_of_bind h
      obtain ⟨thresholds, hthresholds, h⟩ := exists_ok_of_bind h
      obtain ⟨showDetails, hshow, h⟩ := exists_ok_of_bind h
      obtain ⟨detailsWhenCharged, hcharged, h⟩ := exists_ok_of_bind h
      obtain ⟨warningColor, hcolor, h⟩ := exists_ok_of_bind h
      obtain ⟨phrases, hphrases, h⟩ := exists_ok_of_bind h
      obtain ⟨tickInterval, htick, h⟩ := exists_ok_of_bind h
      cases h
      obtain ⟨htexts, htakes⟩ := readPhrases_eq_ok_iff.mp hphrases
      refine ⟨⟨fields, rfl, ⟨charging, hcharging⟩, htexts⟩, ?_⟩
      intro f
      have hfields := fieldsOf_of_chargingFields hcharging
      cases f with
      | thresholds => simpa only [Takes, entry, getD_said, fieldsOf_object, hfields] using hthresholds
      | showDetails => simpa only [Takes, entry, getD_said, fieldsOf_object, hfields] using hshow
      | detailsWhenCharged => simpa only [Takes, entry, getD_said, fieldsOf_object, hfields] using hcharged
      | warningColor => simpa only [Takes, entry, getD_said, fieldsOf_object] using hcolor
      | tickInterval => simpa only [Takes, entry, getD_said, fieldsOf_object] using htick
      | phrase k => exact htakes k
    · cases h
  · rintro ⟨⟨fields, rfl, ⟨charging, hcharging⟩, htexts⟩, htakes⟩
    have hthresholds := htakes .thresholds
    have hshow := htakes .showDetails
    have hcharged := htakes .detailsWhenCharged
    have hcolor := htakes .warningColor
    have htick := htakes .tickInterval
    have hphrases : readPhrases (field "strings" fields) s.phrases = .ok t.phrases :=
      readPhrases_eq_ok_iff.mpr ⟨htexts, fun k => htakes (.phrase k)⟩
    simp only [Takes, entry, getD_said, fieldsOf_object, fieldsOf_of_chargingFields hcharging]
      at hthresholds hshow hcharged hcolor htick
    unfold merge
    simp only [hcharging, hthresholds, hshow, hcharged, hcolor, htick, hphrases, bind, Except.bind, pure,
      Except.pure]

/-! ## Single settings -/

/-- Without an entry a setting is kept. -/
theorem takes_none_iff : Takes none s t f ↔ Agree s t f := by
  cases f with
  | phrase k => exact Iff.rfl
  | _ => simp only [Takes, Agree, Option.getD_none, readThresholds, readFlag, readColor, readTickInterval,
      Except.ok.injEq, eq_comm]

/-- How a setting is read depends on its own value alone. -/
theorem takes_congr (hold : Agree s s' f) (hnew : Agree t t' f) : Takes e s t f ↔ Takes e s' t' f := by
  cases f <;> simp only [Agree] at hold hnew <;> simp only [Takes, hold, hnew]

theorem readFlag_again {v : Value} {inForce read : Bool} (h : readFlag v inForce = .ok read) :
    readFlag v read = .ok read := by
  unfold readFlag at h ⊢
  split at h
  · rfl
  · exact h
  · exact h
  · exact h
  · split at h
    · unfold flagOfWord at h ⊢
      split at h
      · simp_all
      · simp_all
    · cases h
  · cases h

theorem readColor_again {v : Value} {inForce read : Color} (h : readColor v inForce = .ok read) :
    readColor v read = .ok read := by
  unfold readColor at h ⊢
  split at h
  · rfl
  · exact h

theorem readTickInterval_again {v : Value} {inForce read : Binary64} (h : readTickInterval v inForce = .ok read) :
    readTickInterval v read = .ok read := by
  unfold readTickInterval at h ⊢
  split at h
  · rfl
  · cases h
  · exact h

/-- An entry that was taken is taken again, and changes nothing any more. -/
theorem Takes.again (h : Takes e s t f) : Takes e t t f := by
  cases f with
  | thresholds => exact readThresholds_again h
  | showDetails => exact readFlag_again h
  | detailsWhenCharged => exact readFlag_again h
  | warningColor => exact readColor_again h
  | tickInterval => exact readTickInterval_again h
  | phrase k =>
    cases e with
    | none => rfl
    | some v => exact h

/-! ## Payloads that mention no setting in common -/

/-- The settings of which some come from the first and the others from the second. -/
def pick (fromFirst : Setting → Bool) (first second : Settings) : Settings where
  thresholds := if fromFirst .thresholds then first.thresholds else second.thresholds
  showDetails := if fromFirst .showDetails then first.showDetails else second.showDetails
  detailsWhenCharged := if fromFirst .detailsWhenCharged then first.detailsWhenCharged else second.detailsWhenCharged
  warningColor := if fromFirst .warningColor then first.warningColor else second.warningColor
  phrases := .ofTexts fun k => if fromFirst (.phrase k) then first.phrases.get k else second.phrases.get k
  tickInterval := if fromFirst .tickInterval then first.tickInterval else second.tickInterval

theorem agree_pick (fromFirst : Setting → Bool) (first second : Settings) (f : Setting) :
    Agree (if fromFirst f then first else second) (pick fromFirst first second) f := by
  by_cases h : fromFirst f = true
  · cases f <;> simp [Agree, pick, h]
  · cases f <;> simp [Agree, pick, h]

theorem Agree.symm (h : Agree s t f) : Agree t s f := by
  cases f <;> exact Eq.symm h

/-- Payloads that mention no setting in common can be merged in either order. -/
theorem merge_merge_comm {p q : Value} (hdisjoint : ∀ f, entry p f = none ∨ entry q f = none)
    (hp : s.merge p = .ok t) (hq : t.merge q = .ok u) : ∃ r, s.merge q = .ok r ∧ r.merge p = .ok u := by
  obtain ⟨hpayloadP, hp⟩ := merge_eq_ok_iff.mp hp
  obtain ⟨hpayloadQ, hq⟩ := merge_eq_ok_iff.mp hq
  -- what the second payload mentions is as it will be in the end, and the rest is as it was
  let r := pick (fun f => (entry q f).isSome) u s
  have hboth (f : Setting) : Takes (entry q f) s r f ∧ Takes (entry p f) r u f := by
    have hpicked := agree_pick (fun f => (entry q f).isSome) u s f
    have hpf := hp f
    have hqf := hq f
    cases hentry : entry q f with
    | none =>
      have hold : Agree s r f := by simpa [hentry] using hpicked
      have hkept : Agree t u f := by
        rw [hentry] at hqf
        exact takes_none_iff.mp hqf
      exact ⟨takes_none_iff.mpr hold, (takes_congr hold hkept).mp hpf⟩
    | some e =>
      have hnew : Agree u r f := by simpa [hentry] using hpicked
      have hunmentioned : entry p f = none := by simpa [hentry] using hdisjoint f
      rw [hunmentioned] at hpf ⊢
      rw [hentry] at hqf
      have hkept : Agree t s f := (takes_none_iff.mp hpf).symm
      exact ⟨(takes_congr hkept hnew).mp hqf, takes_none_iff.mpr hnew.symm⟩
  exact ⟨r, merge_eq_ok_iff.mpr ⟨hpayloadQ, fun f => (hboth f).1⟩,
    merge_eq_ok_iff.mpr ⟨hpayloadP, fun f => (hboth f).2⟩⟩

/-- Payloads merge setting by setting, over any settings. An accepted payload keeps what it does not mention, and
is accepted again without changing anything any more. If a second payload is accepted after it that mentions no
setting of the first, both are also accepted in the other order, with the same outcome. -/
theorem merge_setting_by_setting {p : Value} (hp : s.merge p = .ok t) :
    (∀ f, entry p f = none → Agree s t f) ∧ t.merge p = .ok t ∧
      ∀ q u, (∀ f, entry p f = none ∨ entry q f = none) → t.merge q = .ok u →
        ∃ r, s.merge q = .ok r ∧ r.merge p = .ok u := by
  obtain ⟨hpayload, htakes⟩ := merge_eq_ok_iff.mp hp
  refine ⟨fun f hnone => ?_, merge_eq_ok_iff.mpr ⟨hpayload, fun f => (htakes f).again⟩,
    fun q u hdisjoint hq => merge_merge_comm hdisjoint hp hq⟩
  have htakesNone := htakes f
  rw [hnone] at htakesNone
  exact takes_none_iff.mp htakesNone

/-- A payload that names one rate, as a numeral, and one phrase. -/
def rateAndPhrase : Value :=
  .object [("charging", .object [("thresholds", .object [("slow", .text "1e6")]), ("show_details", .null)]),
    ("strings", .object [("charged", .text "Full")])]

/-- A payload that names a flag, by a word, and another phrase. -/
def flagAndPhrase : Value :=
  .object [("charging", .object [("show_details", .text "off")]),
    ("strings", .object [("plugged_in", .text "On")])]

/-- The standard settings after the first of the two payloads. -/
def rateAndPhraseSet : Settings :=
  { standard with
    thresholds := ⟨1000000, 7500000⟩
    phrases := { Phrases.standard with charged := "Full" } }

theorem merge_setting_by_setting_flagAndPhrase :
    standard.merge rateAndPhrase = .ok rateAndPhraseSet ∧
      rateAndPhraseSet.merge rateAndPhrase = .ok rateAndPhraseSet ∧
      Agree standard rateAndPhraseSet .showDetails ∧
      ∃ r, standard.merge flagAndPhrase = .ok r ∧
        r.merge rateAndPhrase = .ok { rateAndPhraseSet with
          showDetails := false
          phrases := { rateAndPhraseSet.phrases with pluggedIn := "On" } } := by
  have hp : standard.merge rateAndPhrase = .ok rateAndPhraseSet := by decide +kernel
  obtain ⟨hkept, hagain, hcomm⟩ := merge_setting_by_setting hp
  refine ⟨hp, hagain, hkept .showDetails rfl, hcomm flagAndPhrase _ ?_ (by decide +kernel)⟩
  intro f
  cases f with
  | phrase k => cases k <;> decide +kernel
  | _ => decide +kernel

end Settings

end LockScreen
