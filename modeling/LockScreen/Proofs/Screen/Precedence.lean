import LockScreen.Proofs.Battery.Estimates
import LockScreen.Proofs.Screen.Freshness
import Mathlib.Order.WellFounded

/-!
# The first layer that applies

A visible screen shows the first layer that `Applies`, and its line is chosen from the premises of that layer alone
(`Premises.shown`, `Premises.line_of_first`): neither the layers behind it nor the ones in front of it that do not
apply have any part in it.

The source of the estimate is a premise of the charging text alone, and even there only until the battery is charged.
It is asked once where an estimate is called for, and nowhere else (`Situation.line_of_asks`,
`Situation.line_of_not_asks`). The law as a whole is `line_from_first_layer`.
-/

namespace LockScreen

/-! ## Layers -/

/-- The place of a layer, counted from the front. -/
def Layer.rank : Layer → Nat
  | storageLocked => 0
  | message => 1
  | charging => 2
  | resting => 3

namespace Situation

/-- The layer has something to show. -/
def Applies (s : Situation) : Layer → Prop
  | .storageLocked => s.unlocked = false
  | .message => ∃ m ∈ s.message, ∃ text ∈ m.text, text ≠ ""
  | .charging => s.charge.pluggedIn = true
  | .resting => True

/-- The layer applies, and none in front of it does. -/
def First (s : Situation) (l : Layer) : Prop :=
  s.Applies l ∧ ∀ front : Layer, front.rank < l.rank → ¬s.Applies front

/-- An estimate is called for: the line is the charging text of a battery that is not charged. -/
structure CallsForEstimate (s : Situation) : Prop where
  visible : s.visible = true
  first : s.First .charging
  uncharged : s.charge.charged = false

variable {s : Situation}

theorem covering?_eq_none_iff : s.covering? = none ↔ ¬s.Applies .message := by
  unfold covering? Applies Message.shown?
  cases s.message with
  | none => simp
  | some m => cases htext : m.text <;> simp [htext, Option.filter]

theorem First.unlocked {l : Layer} (h : s.First l) (hl : 0 < l.rank) : s.unlocked = true :=
  (Bool.not_eq_false _).mp (h.2 .storageLocked hl)

theorem First.covering? {l : Layer} (h : s.First l) (hl : 1 < l.rank) : s.covering? = none :=
  covering?_eq_none_iff.mpr (h.2 .message hl)

theorem first_charging_iff :
    s.First .charging ↔ s.unlocked = true ∧ s.covering? = none ∧ s.charge.pluggedIn = true := by
  refine ⟨fun h => ⟨h.unlocked (by decide), h.covering? (by decide), h.1⟩, ?_⟩
  rintro ⟨hunlocked, hcovering, hplugged⟩
  refine ⟨hplugged, fun front hrank => ?_⟩
  cases front with
  | storageLocked => exact fun hlocked : s.unlocked = false => by simp [hunlocked] at hlocked
  | message => exact covering?_eq_none_iff.mp hcovering
  | charging | resting => exact absurd hrank (by decide)

theorem exists_first (s : Situation) : ∃ l, s.First l := by
  obtain ⟨l, happlies, hmin⟩ := (measure Layer.rank).wf.has_min {l | s.Applies l} ⟨.resting, trivial⟩
  exact ⟨l, happlies, fun front hrank hfront => hmin front hfront hrank⟩

/-- On a visible screen the charging text makes the line where it comes first. -/
theorem line_of_charging (hvisible : s.visible = true) (hfirst : s.First .charging) (p : Phrases)
    (source : Option Answer) (j : Journal) :
    s.line p source j = ((chargingText s.charge p s.details source j).1.map fun text => some ⟨text, .white, .charging⟩,
      (chargingText s.charge p s.details source j).2) := by
  have hplugged : s.charge.pluggedIn = true := hfirst.1
  unfold line
  simp only [hvisible, hfirst.unlocked (by decide), hfirst.covering? (by decide), hplugged, Bool.not_true,
    Bool.false_eq_true, if_false, if_true]

end Situation

/-! ## Premises of a line -/

/-- Everything that a line is chosen from. -/
structure Premises where
  situation : Situation
  phrases : Phrases
  source : Option Answer

namespace Premises

/-- The line with these premises. -/
def line (a : Premises) (j : Journal) : Except Fault (Option Line) × Journal :=
  a.situation.line a.phrases a.source j

/-- The premises of a layer are the same. -/
def SameFor (a b : Premises) : Layer → Prop
  | .storageLocked =>
    a.situation.unlocked = b.situation.unlocked ∧ a.phrases.storageLocked = b.phrases.storageLocked
  | .message => a.situation.message = b.situation.message
  | .charging =>
    a.situation.charge = b.situation.charge ∧ a.situation.details = b.situation.details ∧
      (∀ k ≠ Phrase.storageLocked, a.phrases.get k = b.phrases.get k) ∧ a.source = b.source
  | .resting => a.situation.resting = b.situation.resting

/-- What a layer shows where it is the first. -/
def shown (a : Premises) : Layer → Except Fault (Text × Color)
  | .storageLocked => .ok (a.phrases.storageLocked, .white)
  | .message => .ok (a.situation.covering?.getD ("", .white))
  | .charging =>
    (chargingText a.situation.charge a.phrases a.situation.details a.source {}).1.map fun text => (text, .white)
  | .resting => .ok (a.situation.resting.getD "", .white)

variable {a b : Premises} {l : Layer}

/-- A visible screen shows what the first layer shows. -/
theorem line_of_first (hvisible : a.situation.visible = true) (hfirst : a.situation.First l) (j : Journal) :
    (a.line j).1 = (a.shown l).map fun shown => some ⟨shown.1, shown.2, l⟩ := by
  cases l with
  | storageLocked =>
    have hlocked : a.situation.unlocked = false := hfirst.1
    simp only [line, Situation.line, hvisible, hlocked, Bool.not_true, Bool.not_false, Bool.false_eq_true, if_false,
      if_true]
    rfl
  | message =>
    obtain ⟨covering, hcovering⟩ :=
      Option.ne_none_iff_exists'.mp fun hnone => Situation.covering?_eq_none_iff.mp hnone hfirst.1
    simp only [line, Situation.line, hvisible, hfirst.unlocked (by decide), hcovering, Bool.not_true,
      Bool.false_eq_true, if_false, shown]
    rfl
  | charging =>
    have htext := chargingText_journal a.situation.charge a.phrases a.situation.details a.source j {}
    unfold line
    rw [Situation.line_of_charging hvisible hfirst, htext]
    unfold shown
    cases (chargingText a.situation.charge a.phrases a.situation.details a.source {}).1 with
    | error => rfl
    | ok => rfl
  | resting =>
    have hunplugged : a.situation.charge.pluggedIn = false := (Bool.not_eq_true _).mp (hfirst.2 .charging (by decide))
    simp only [line, Situation.line, hvisible, hfirst.unlocked (by decide), hfirst.covering? (by decide), hunplugged,
      Bool.not_true, Bool.false_eq_true, if_false]
    rfl

/-- The notice that storage is locked has no part in the charging text. -/
theorem chargingText_phrases {p q : Phrases} (h : ∀ k ≠ Phrase.storageLocked, p.get k = q.get k) (c : ChargeState)
    (options : DetailOptions) (source : Option Answer) (j : Journal) :
    chargingText c p options source j = chargingText c q options source j := by
  have hcharged : p.charged = q.charged := h .charged (by decide)
  have hplain : p.plain c.speed = q.plain c.speed := by
    cases c.speed with
    | slow => exact h .pluggedInSlowly (by decide)
    | normal => exact h .pluggedIn (by decide)
    | fast => exact h .pluggedInFast (by decide)
  have htemplate : p.template c.speed = q.template c.speed := by
    cases c.speed with
    | slow => exact h .chargingTimeSlowly (by decide)
    | normal => exact h .chargingTime (by decide)
    | fast => exact h .chargingTimeFast (by decide)
  unfold chargingText Phrases.announce
  rw [hcharged, hplain, htemplate]

/-- A layer shows the same wherever its premises are the same. -/
theorem SameFor.shown (h : a.SameFor b l) : a.shown l = b.shown l := by
  cases l with
  | storageLocked => simp only [Premises.shown, h.2]
  | message => simp only [Premises.shown, Situation.covering?, show a.situation.message = _ from h]
  | charging =>
    obtain ⟨hcharge, hdetails, hphrases, hsource⟩ := h
    simp only [Premises.shown]
    rw [chargingText_phrases hphrases, hcharge, hdetails, hsource]
  | resting => simp only [Premises.shown, show a.situation.resting = _ from h]

/-- A layer that applies also does wherever its premises are the same, and stays the first where none in front of it
comes to apply. -/
theorem SameFor.first (h : a.SameFor b l) (hfirst : a.situation.First l)
    (hfront : ∀ front : Layer, front.rank < l.rank → ¬b.situation.Applies front) : b.situation.First l := by
  refine ⟨?_, hfront⟩
  have happlies := hfirst.1
  cases l with
  | storageLocked => exact h.1.symm.trans happlies
  | message =>
    unfold Situation.Applies at happlies ⊢
    rwa [← show a.situation.message = _ from h]
  | charging =>
    unfold Situation.Applies at happlies ⊢
    rwa [← h.1]
  | resting => trivial

end Premises

/-! ## The question for an estimate -/

/-- The source is asked about the battery: it is not charged, and the details before the question can be told. -/
def ChargeState.Asks (c : ChargeState) (options : DetailOptions) : Prop :=
  c.charged = false ∧ ∃ details, c.details options = .ok details

theorem chargingText_of_asks {c : ChargeState} {options : DetailOptions} (h : c.Asks options) (p : Phrases)
    (source : Option Answer) (j : Journal) : (chargingText c p options source j).2 = (askEstimate source j).2 := by
  obtain ⟨hcharged, details, hdetails⟩ := h
  unfold ChargeState.details at hdetails
  unfold chargingText
  rw [hdetails]
  simp only [hcharged, Bool.false_eq_true, if_false]

/-- Where the source is not asked, neither it nor the journal has any part in the text. -/
theorem chargingText_of_not_asks {c : ChargeState} {options : DetailOptions} (h : ¬c.Asks options) (p : Phrases)
    (source : Option Answer) (j : Journal) :
    chargingText c p options source j = ((chargingText c p options none {}).1, j) := by
  unfold ChargeState.Asks ChargeState.details at h
  unfold chargingText
  split
  · rfl
  · rename_i details hdetails
    have hcharged : c.charged = true := by
      by_contra hcharging
      exact h ⟨(Bool.not_eq_true _).mp hcharging, details, hdetails⟩
    simp only [hcharged, if_true]

/-- An answer or a failure is counted, whatever it is. -/
theorem askEstimate_estimatesAsked (source : Option Answer) (j : Journal) :
    (askEstimate source j).2.estimatesAsked = j.estimatesAsked + source.toList.length := by
  match source with
  | none => rfl
  | some (.gives _) => rfl
  | some (.fails text) =>
    unfold askEstimate Journal.estimateFailed
    rfl

namespace Situation

variable {s : Situation}

/-- The line asks for an estimate: one is called for, and the details before the question can be told. -/
def Asks (s : Situation) : Prop :=
  s.visible = true ∧ s.First .charging ∧ s.charge.Asks s.details

theorem line_of_asks (h : s.Asks) (p : Phrases) (source : Option Answer) (j : Journal) :
    (s.line p source j).2 = (askEstimate source j).2 := by
  rw [line_of_charging h.1 h.2.1]
  exact chargingText_of_asks h.2.2 p source j

/-- Where the source is not asked, neither it nor the journal has any part in the line. -/
theorem line_of_not_asks (h : ¬s.Asks) (p : Phrases) (source : Option Answer) (j : Journal) :
    s.line p source j = ((s.line p none {}).1, j) := by
  unfold line
  split_ifs with hhidden hlocked hplugged
  · rfl
  · rfl
  · cases hcovering : s.covering? with
    | some covering => rfl
    | none =>
      have hnot : ¬s.charge.Asks s.details := by
        simp only [Bool.not_eq_true', Bool.not_eq_false] at hhidden hlocked
        exact fun hasks => h ⟨hhidden, first_charging_iff.mpr ⟨hlocked, hcovering, hplugged⟩, hasks⟩
      simp only [chargingText_of_not_asks hnot p source j]
  · cases s.covering? with
    | some covering => rfl
    | none => rfl

theorem Asks.callsForEstimate (h : s.Asks) : s.CallsForEstimate :=
  ⟨h.1, h.2.1, h.2.2.1⟩

theorem CallsForEstimate.asks (h : s.CallsForEstimate) (hcharge : s.charge.Moderate) : s.Asks :=
  ⟨h.visible, h.first, h.uncharged, hcharge.exists_details s.details⟩

end Situation

/-! ## The law of precedence -/

/-- An answer that is an integer has at most three hundred digits. -/
def Answer.Moderate (a : Answer) : Prop :=
  ∀ i, a = .gives (.int i) → i.natAbs < Nat.pow 10 300

theorem Answer.Moderate.not_isHuge {a : Answer} (h : a.Moderate) : ¬a.IsHuge := by
  rintro ⟨v, rfl, i, rfl, hhuge⟩
  have hsize := h i rfl
  have hlimit : Nat.pow 10 300 + Nat.pow 2 970 < Nat.pow 2 1024 := by decide +kernel
  unfold Binary64.Huge at hhuge
  omega

namespace Premises

variable {a : Premises}

theorem line_eq_none_iff (j : Journal) : (a.line j).1 = .ok none ↔ a.situation.visible = false := by
  constructor
  · intro hnone
    by_contra hvisible
    exact Situation.line_ne_none ((Bool.not_eq_false _).mp hvisible) _ _ _ hnone
  · intro hhidden
    unfold line Situation.line
    rw [hhidden]
    rfl

theorem exists_line (hcharge : a.situation.charge.Moderate) (hsource : ∀ answer ∈ a.source, answer.Moderate)
    (hvisible : a.situation.visible = true) (j : Journal) :
    ∃ line, (a.line j).1 = .ok (some line) ∧ a.situation.First line.layer := by
  obtain ⟨l, hfirst⟩ := a.situation.exists_first
  have hfits : ¬a.situation.charge.Overstrained a.source := by
    rintro ⟨_, answer, hanswer, hhuge⟩
    exact (hsource answer hanswer).not_isHuge hhuge
  have htext : ∃ text, (chargingText a.situation.charge a.phrases a.situation.details a.source j).1 = .ok text :=
    hcharge.exists_chargingText hfits
  obtain ⟨line, hline⟩ := exists_line_of_chargingText htext
  have hshown := line_of_first hvisible hfirst j
  cases hlayer : a.shown l with
  | error fault =>
    rw [hlayer] at hshown
    cases hline.symm.trans hshown
  | ok shown =>
    rw [hlayer] at hshown
    exact ⟨_, hshown, hfirst⟩

end Premises

/-- A hidden screen shows no line, and a visible one the line of the first layer that applies, with measurements and
answers of a sensible size. The line stays the same whatever becomes of the layers behind the first and of those in
front of it, as long as these do not come to apply. The source of the estimate is asked once where the line is the
charging text of a battery that is not charged, and otherwise neither the line nor the journal depends on it. -/
theorem line_from_first_layer {a : Premises} (hcharge : a.situation.charge.Moderate)
    (hsource : ∀ answer ∈ a.source, answer.Moderate) (j : Journal) :
    ((a.line j).1 = .ok none ↔ a.situation.visible = false) ∧
      (a.situation.visible = true → ∃ line, (a.line j).1 = .ok (some line) ∧ a.situation.First line.layer) ∧
      (∀ (b : Premises) (k : Journal) (l : Layer), a.situation.visible = true → b.situation.visible = true →
        a.situation.First l → a.SameFor b l →
        (∀ front : Layer, front.rank < l.rank → ¬b.situation.Applies front) → (b.line k).1 = (a.line j).1) ∧
      (a.situation.CallsForEstimate →
        (a.line j).2.estimatesAsked = j.estimatesAsked + a.source.toList.length) ∧
      (¬a.situation.CallsForEstimate →
        (a.line j).2 = j ∧ ∀ source, { a with source }.line j = a.line j) := by
  refine ⟨Premises.line_eq_none_iff j, fun hvisible => Premises.exists_line hcharge hsource hvisible j, ?_, ?_, ?_⟩
  · intro b k l hvisibleA hvisibleB hfirst hsame hfront
    rw [Premises.line_of_first hvisibleB (hsame.first hfirst hfront), Premises.line_of_first hvisibleA hfirst,
      hsame.shown]
  · intro hcalls
    unfold Premises.line
    rw [Situation.line_of_asks (hcalls.asks hcharge), askEstimate_estimatesAsked]
  · intro hnone
    have hnot : ¬a.situation.Asks := fun hasks => hnone hasks.callsForEstimate
    have hline (source : Option Answer) := Situation.line_of_not_asks hnot a.phrases source j
    refine ⟨congrArg Prod.snd (hline a.source), fun source => ?_⟩
    exact (hline source).trans (hline a.source).symm

/-- A battery that charges behind a message without a text, with a source that fails. -/
def emptyMessage : Premises where
  situation := { atFiveVolts with message := some { text := some "" }, resting := some "Welcome" }
  phrases := .standard
  source := some (.fails "no answer")

/-- The same battery without the message, and another resting text behind it. -/
def noMessage : Premises :=
  { emptyMessage with situation := { atFiveVolts with resting := some "Goodbye" } }

theorem line_from_first_layer_emptyMessage :
    (∃ line, (emptyMessage.line {}).1 = .ok (some line) ∧ emptyMessage.situation.First line.layer) ∧
      (noMessage.line {}).1 = (emptyMessage.line {}).1 ∧ (emptyMessage.line {}).2.estimatesAsked = 1 := by
  have hfirst : emptyMessage.situation.First .charging :=
    Situation.first_charging_iff.mpr ⟨rfl, by decide, rfl⟩
  have hfirst' : noMessage.situation.First .charging := Situation.first_charging_iff.mpr ⟨rfl, rfl, rfl⟩
  have hsource : ∀ answer ∈ emptyMessage.source, answer.Moderate := by
    rintro answer ⟨⟩ i hanswer
    cases hanswer
  obtain ⟨_, hline, hsame, hasked, _⟩ := line_from_first_layer (a := emptyMessage)
    sensible_atFiveVolts.moderate hsource {}
  refine ⟨hline rfl, ?_, hasked ⟨rfl, hfirst, rfl⟩⟩
  exact hsame noMessage {} .charging rfl rfl hfirst ⟨rfl, rfl, fun _ _ => rfl, rfl⟩ hfirst'.2

end LockScreen
