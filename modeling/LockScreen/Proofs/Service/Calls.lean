import LockScreen.Proofs.Screen.Run
import LockScreen.Proofs.Service.Changes

/-!
# What a call does

A call that changes no settings leaves store and metronome alone and does work on the screen, so a property of
screens that no work takes away holds after it (`SurvivesWork.answer`). A call that does change settings is refused
by the store, and then it does nothing (`Service.answer_of_refused`), or it is accepted, and then the settings of
the store are put in force (`Service.answer_of_accepted`).
-/

namespace LockScreen

/-- An action that puts settings in force. -/
def Action.applies : Action → Bool
  | .apply _ | .applyPayload _ => true
  | _ => false

/-- A property of screens that no action takes away, unless it puts settings in force, and no change to the phone. -/
structure SurvivesWork (P : Screen → Prop) : Prop where
  step : ∀ (s : Screen) (a : Action), a.applies = false → P s → P (s.step a).screen
  phone : ∀ (s : Screen) (phone : Phone), P s → P { s with phone }

/-! ## Calls that change no settings -/

namespace SurvivesWork

variable {P : Screen → Prop}

theorem put (h : SurvivesWork P) {s : Service} (hs : P s.screen) (text : Text) (color : Option Text)
    (takeDownAfter : Option Int) : P (s.put text color takeDownAfter).1.screen := by
  unfold Service.put
  split
  · exact hs
  · rename_i color _
    refine Outcome.andThen_induct (P := fun o => P o.screen) (h.step s.screen (.put ⟨some text, color⟩) rfl hs) ?_
    intro u hu
    cases takeDownAfter with
    | none => exact hu
    | some millis => exact h.step u (.takeDownAfter (.int millis)) rfl hu

theorem answer (h : SurvivesWork P) {s : Service} (hs : P s.screen) {c : Call} (hc : c.change? = none) :
    P (s.answer c).1.screen := by
  cases c
  case setThresholds | setDetails | setWarningColor | updateSettings => cases hc
  all_goals rw [Service.answer.eq_def]
  case setVisible visible => exact h.step s.screen (.setVisible visible) rfl hs
  case rest text => exact h.step s.screen (.rest text) rfl hs
  case put text color takeDownAfter => exact h.put hs text color takeDownAfter
  case takeDownAfter millis => exact h.step s.screen (.takeDownAfter (.int millis)) rfl hs
  case takeDown => exact h.step s.screen .takeDown rfl hs
  case event e => exact h.step s.screen (.event e) rfl hs
  case unlockUser =>
    have hunlocked : P { s.screen with phone.userUnlocked := true } := h.phone s.screen _ hs
    exact h.step { s.screen with phone.userUnlocked := true } (.event .userUnlocked) rfl hunlocked
  case updatePhone update => exact h.phone s.screen _ hs
  case battery report =>
    dsimp only
    split
    · exact h.step s.screen (.event (.battery _)) rfl hs
    · exact hs
  all_goals exact hs

end SurvivesWork

/-- What a call that changes settings reports of them. -/
def Call.report (c : Call) (settings : Settings) : Value :=
  match c with
  | .setThresholds _ _ => settings.thresholds.toValue
  | .setDetails _ => .object [("enabled", .bool settings.showDetails)]
  | .setWarningColor _ => .object [settings.warningColor.field]
  | _ => settings.toValue

/-- The answer to a call that came to something: a report or a failure. -/
def Response.IsOutcome : Response → Prop
  | ok _ | failed _ => True
  | rejected _ | refused _ => False

namespace Service

variable {s : Service}

/-- Store and metronome stay as they are. -/
theorem answer_of_change?_eq_none {c : Call} (hc : c.change? = none) :
    (s.answer c).1 = { s with screen := (s.answer c).1.screen } := by
  cases c
  case setThresholds | setDetails | setWarningColor | updateSettings => cases hc
  all_goals rw [answer.eq_def]
  case put text color takeDownAfter =>
    simp only [Service.put]
    split
    · rfl
    · rfl
  case battery report =>
    dsimp only
    split
    · rfl
    · rfl
  all_goals rfl

/-! ## Changes that are accepted -/

variable {store : SettingsStore}

/-- The metronome after settings were put in force: it follows a change of them as a whole that did not fail. -/
def retimed (m : Metronome) (c : Call) (settings : Settings) (fault : Option Fault) : Metronome :=
  match c, fault with
  | .updateSettings _, none => { m with interval := settings.tickInterval }
  | _, _ => m

/-- The answer to a change of settings that was stored. -/
def responseTo (c : Call) (settings : Settings) (fault : Option Fault) : Response :=
  match fault with
  | none => .ok (c.report settings)
  | some fault => .failed fault

/-- What the store makes of thresholds is a function of its own here, so that nobody looks into it. -/
theorem answer_setThresholds_of_accepted {slow fast : Int} {setThresholds : Value → Except Fault SettingsStore}
    (hstore : s.store.setThresholds = setThresholds)
    (h : setThresholds (.object [("slow_threshold", .int slow), ("fast_threshold", .int fast)]) = .ok store) :
    s.answer (.setThresholds slow fast) = applyStored { s with store } store.settings.thresholds.toValue := by
  rw [answer.eq_def, hstore]
  dsimp only
  rw [h]

/-- A change that the store accepts is stored, put in force, and reported. -/
theorem answer_of_accepted {c : Call} {change : StoreCall} (hchange : c.change? = some change)
    (h : s.store.call change = .ok store) :
    let o := s.screen.apply store.settings
    s.answer c = (⟨store, o.screen, retimed s.metronome c store.settings o.fault⟩,
      responseTo c store.settings o.fault) := by
  cases c with
  | setThresholds slow fast =>
    cases hchange
    have hstore : s.store.setThresholds
        (.object [("slow_threshold", .int slow), ("fast_threshold", .int fast)]) = .ok store := h
    exact answer_setThresholds_of_accepted rfl hstore
  | setDetails on =>
    cases hchange
    have hstore : s.store.setShowDetails (.bool on) = .ok store := h
    rw [answer.eq_def]
    simp only [hstore]
    rfl
  | setWarningColor text =>
    cases hchange
    have hstore : s.store.setWarningColor (.text text) = .ok store := h
    rw [answer.eq_def]
    simp only [hstore]
    rfl
  | updateSettings payload =>
    cases hchange
    have hstore : s.store.update payload = .ok store := h
    rw [answer.eq_def]
    simp only [Service.updateSettings, hstore]
    split
    · rename_i hfault
      simp only [hfault, retimed, responseTo]
    · rename_i hfault
      simp only [hfault, retimed, responseTo]
      rfl
  | _ => cases hchange

/-! ## Calls that are rejected -/

theorem isOutcome_afterScreen (s : Service) (o : Outcome) : (s.afterScreen o).2.IsOutcome := by
  unfold afterScreen
  cases o.fault with
  | none => exact trivial
  | some fault => exact trivial

/-- A call is rejected and does nothing, or it comes to something. -/
theorem answer_cases (s : Service) (c : Call) :
    (∃ detail, s.answer c = (s, .rejected detail)) ∨ (s.answer c).2.IsOutcome := by
  cases hchange : c.change? with
  | some change =>
    cases hstore : s.store.call change with
    | error fault =>
      rw [answer_of_refused hchange hstore]
      unfold storeRefused
      split
      · exact .inl ⟨_, rfl⟩
      · exact .inr trivial
    | ok store =>
      rw [answer_of_accepted hchange hstore]
      refine .inr ?_
      cases (s.screen.apply store.settings).fault with
      | none => exact trivial
      | some fault => exact trivial
  | none =>
    cases c
    case setThresholds | setDetails | setWarningColor | updateSettings => cases hchange
    all_goals rw [answer.eq_def]
    case put text color takeDownAfter =>
      simp only [Service.put]
      split
      · exact .inl ⟨_, rfl⟩
      · exact .inr (isOutcome_afterScreen s _)
    case battery report =>
      dsimp only
      split
      · exact .inr (isOutcome_afterScreen s _)
      · exact .inr trivial
    case showScreen | showPhone | updatePhone | showThresholds | showDetails | showWarningColor | showSettings =>
      exact .inr trivial
    all_goals exact .inr (isOutcome_afterScreen _ _)

/-! ## Requests -/

/-- A request is turned away, or its call is rejected, or its call comes to something. Only then what is due without
delay is done. -/
theorem respond_cases (s : Service) (received : Received) :
    (∃ reason, received = .error reason ∧ s.respond received = (s, (Response.refused reason).sent)) ∨
      (∃ c detail, received = .ok c ∧ s.answer c = (s, .rejected detail) ∧
        s.respond received = (s, (Response.rejected detail).sent)) ∨
      ∃ c, received = .ok c ∧ (s.answer c).2.IsOutcome ∧
        s.respond received = ((s.answer c).1.advance 0, (s.answer c).2.sent) := by
  cases received with
  | error reason => exact .inl ⟨reason, rfl, rfl⟩
  | ok c =>
    refine .inr ?_
    rcases s.answer_cases c with ⟨detail, hanswer⟩ | houtcome
    · refine .inl ⟨c, detail, rfl, hanswer, ?_⟩
      simp only [respond, hanswer]
    · refine .inr ⟨c, rfl, houtcome, ?_⟩
      simp only [respond]
      split
      · rename_i hanswer
        rw [hanswer] at houtcome
        cases houtcome
      · rename_i hanswer
        rw [hanswer]

/-- A request leaves the service as it was, or as a call leaves it once what is due without delay is done. -/
theorem respond_induct {P : Service → Prop} {s : Service} (hs : P s) (hanswer : ∀ c, P ((s.answer c).1.advance 0))
    (received : Received) : P (s.respond received).1 := by
  rcases s.respond_cases received with ⟨_, _, hrespond⟩ | ⟨_, _, _, _, hrespond⟩ | ⟨c, _, _, hrespond⟩
  · rw [hrespond]
    exact hs
  · rw [hrespond]
    exact hs
  · rw [hrespond]
    exact hanswer c

end Service

end LockScreen
