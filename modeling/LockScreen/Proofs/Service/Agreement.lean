import LockScreen.Proofs.Screen.InForce
import LockScreen.Proofs.Service.Run

/-!
# The copies of the settings

The settings of the store stand again on the screen, their thresholds in its tracker, their colour in its feedback,
and their interval in the metronome. Every change that the store accepts is put in force on the screen, where all of
it arrives even if the refresh fails afterwards. The metronome comes last and is left out where something failed
before, so it follows the store as long as no request is answered by a failure (`copies_agree`).
-/

namespace LockScreen

/-! ## Copies on the screen -/

theorem InForce.settings_move (f : InForce) {a : Action} (h : a.applies = false) :
    (f.move (.act a)).settings = f.settings := by
  cases a with
  | apply | applyPayload => cases h
  | event e =>
    cases e with
    | battery reading =>
      unfold move
      dsimp only
      split
      · rfl
      · rfl
    | _ => rfl
  | _ => rfl

/-- The screen has these settings in force. -/
def Screen.Has (s : Screen) (settings : Settings) : Prop :=
  s.inForce.Agrees ∧ s.settings = settings

namespace Screen

theorem Has.of_inForce {s u : Screen} {settings : Settings} (h : s.Has settings) (hsame : u.inForce = s.inForce) :
    u.Has settings := by
  obtain ⟨hagrees, hsettings⟩ := h
  rw [← hsame] at hagrees
  exact ⟨hagrees, (congrArg InForce.settings hsame).trans hsettings⟩

theorem has_apply (s : Screen) (settings : Settings) : (s.apply settings).screen.Has settings := by
  have happly := s.inForce_apply settings
  refine ⟨?_, congrArg InForce.settings happly⟩
  rw [happly]
  exact s.inForce.agrees_apply settings

/-- Settings that are in force stay so until others are put in force. -/
theorem survivesTime_has (settings : Settings) : SurvivesTime fun s => s.Has settings where
  step s a ha h := by
    obtain ⟨hagrees, hsettings⟩ := h
    have hmove := s.inForce_move (.act a)
    refine ⟨?_, ?_⟩
    · rw [show (s.step a).screen.inForce = _ from hmove]
      exact hagrees.move (.act a)
    · exact (congrArg InForce.settings hmove).trans ((s.inForce.settings_move ha).trans hsettings)
  phone _ _ h := h.of_inForce rfl
  fire s t h := h.of_inForce (blindToBoard_inForce.fire s t)
  journal _ _ h := h.of_inForce rfl
  setNow _ _ h := h.of_inForce rfl

end Screen

/-! ## The interval of the metronome -/

theorem Metronome.interval_runUntil (m : Metronome) (moment : Nat) : (m.runUntil moment).2.interval = m.interval := by
  unfold runUntil
  split
  · split
    · split
      · rfl
      · rfl
    · rfl
  · rfl

theorem Metronome.interval_start (m : Metronome) : m.start.interval = m.interval := by
  unfold start
  split
  · rfl
  · rfl

theorem Metronome.interval_turn (m : Metronome) (now : Nat) : (m.turn now).interval = m.interval := by
  unfold turn
  split
  · rfl
  · rfl

/-- An interval that is a number is taken as it is. -/
theorem Metronome.eq_of_ofInterval {x : Binary64} {m : Metronome} (h : ofInterval (.float x) = .ok m) :
    m = { interval := x } := by
  obtain ⟨interval, hinterval, hnew⟩ := exists_ok_of_bind h
  cases hnew
  obtain ⟨n, hn, hchecked⟩ := exists_ok_of_bind hinterval
  cases hn
  split at hchecked
  · cases hchecked
  · cases hchecked
    rfl

/-- Only a change of the settings as a whole changes the interval. -/
theorem SettingsStore.tickInterval_call {store next : SettingsStore} {change : StoreCall}
    (h : store.call change = .ok next) :
    (∃ payload, change = .update payload) ∨ next.settings.tickInterval = store.settings.tickInterval := by
  cases change with
  | update payload => exact .inl ⟨payload, rfl⟩
  | _ => exact .inr (Settings.takes_none_iff.mp (takes_of_call h .tickInterval))

/-- An answer that reports a failure. -/
def Response.isFailed : Response → Bool
  | failed _ => true
  | _ => false

/-- A failure goes out as one. -/
theorem Response.isFailed_of_sent {response : Response} (h : response.sent.isFailed = false) :
    response.isFailed = false := by
  cases response with
  | failed fault => cases h
  | _ => rfl

namespace Service

variable {s : Service}

/-- The metronome ticks at the interval of the settings. -/
def InTime (s : Service) : Prop :=
  s.metronome.interval = s.store.settings.tickInterval

/-- What is due changes the screen only. -/
theorem perform_frame (s : Service) (due : Due) :
    (s.perform due).store = s.store ∧ (s.perform due).metronome = s.metronome := by
  cases due with
  | timer t =>
    simp only [perform, afterWork]
    split
    · exact ⟨rfl, rfl⟩
    · exact ⟨rfl, rfl⟩
  | tick moment =>
    simp only [perform, afterWork]
    split
    · exact ⟨rfl, rfl⟩
    · exact ⟨rfl, rfl⟩

/-- Time changes the screen and the wait of the metronome. -/
theorem advance_frame (s : Service) (millis : Nat) :
    s.advance millis = ⟨s.store, (s.advance millis).screen,
      (s.metronome.runUntil (Clock.atMilli (s.now + millis))).2⟩ := by
  have hran (dues : List Due) (u : Service) :
      (dues.foldl perform u).store = u.store ∧ (dues.foldl perform u).metronome = u.metronome := by
    induction dues generalizing u with
    | nil => exact ⟨rfl, rfl⟩
    | cons due rest ih =>
      obtain ⟨hstore, hmetronome⟩ := u.perform_frame due
      exact ⟨(ih _).1.trans hstore, (ih _).2.trans hmetronome⟩
  obtain ⟨hstore, hmetronome⟩ := hran (s.dueBy (s.now + millis))
    { s with metronome := (s.metronome.runUntil (Clock.atMilli (s.now + millis))).2 }
  unfold advance
  dsimp only
  rw [hstore, hmetronome]

theorem InTime.advance (h : s.InTime) (millis : Nat) : (s.advance millis).InTime := by
  rw [advance_frame]
  exact (s.metronome.interval_runUntil _).trans h

/-- A call keeps the metronome in time unless it fails. -/
theorem InTime.answer (h : s.InTime) {c : Call} (hdone : (s.answer c).2.isFailed = false) :
    (s.answer c).1.InTime := by
  cases hchange : c.change? with
  | none =>
    rw [answer_of_change?_eq_none hchange]
    exact h
  | some change =>
    cases hstore : s.store.call change with
    | error fault =>
      rw [answer_of_refused hchange hstore]
      exact h
    | ok store =>
      rw [answer_of_accepted hchange hstore] at hdone ⊢
      have hfault : (s.screen.apply store.settings).fault = none := by
        cases hfault : (s.screen.apply store.settings).fault with
        | none => rfl
        | some fault =>
          rw [hfault] at hdone
          cases hdone
      rw [hfault]
      rcases SettingsStore.tickInterval_call hstore with ⟨payload, rfl⟩ | hsame
      · cases c with
        | updateSettings => rfl
        | _ => cases hchange
      · unfold InTime retimed
        dsimp only
        split
        · rfl
        · exact h.trans hsame.symm

/-! ## Moves -/

/-- A move is no request that is answered by a failure. -/
def Unfailing (s : Service) : Move → Prop
  | .request received => (s.respond received).2.isFailed = false
  | _ => True

instance (s : Service) (m : Move) : Decidable (s.Unfailing m) :=
  match m with
  | .request _ => inferInstanceAs (Decidable (_ = false))
  | .advance _ | .start | .stop => inferInstanceAs (Decidable True)

theorem InTime.respond (h : s.InTime) {received : Received} (hdone : (s.respond received).2.isFailed = false) :
    (s.respond received).1.InTime := by
  rcases s.respond_cases received with ⟨_, _, hrespond⟩ | ⟨_, _, _, _, hrespond⟩ | ⟨c, _, _, hrespond⟩
  · rw [hrespond]
    exact h
  · rw [hrespond]
    exact h
  · rw [hrespond] at hdone ⊢
    exact InTime.advance (h.answer (Response.isFailed_of_sent hdone)) 0

theorem InTime.move (h : s.InTime) {m : Move} (hm : s.Unfailing m) : (s.move m).InTime := by
  cases m with
  | request received => exact h.respond hm
  | advance millis => exact h.advance millis
  | start => exact ((s.metronome.start.interval_turn _).trans s.metronome.interval_start).trans h
  | stop => exact h

theorem InTime.moved (h : s.InTime) {moves : List Move} (hmoves : s.Throughout Unfailing moves) :
    (s.moved moves).InTime := by
  induction moves generalizing s with
  | nil => exact h
  | cons m rest ih => exact ih (h.move hmoves.1) hmoves.2

theorem inTime_ofFile {file : Option FileContent} {phone : Phone} (h : ofFile file phone = .ok s) : s.InTime := by
  unfold ofFile at h
  obtain ⟨store, _, hstore⟩ := exists_ok_of_bind h
  obtain ⟨metronome, hmetronome, hservice⟩ := exists_ok_of_bind hstore
  cases hservice
  rw [Metronome.eq_of_ofInterval hmetronome]
  rfl

/-! ## Copies of the service -/

theorem has_answer (h : s.screen.Has s.store.settings) (c : Call) :
    (s.answer c).1.screen.Has (s.answer c).1.store.settings := by
  cases hchange : c.change? with
  | none =>
    have hscreen := (Screen.survivesTime_has s.store.settings).answer h hchange
    rw [answer_of_change?_eq_none hchange]
    exact hscreen
  | some change =>
    cases hstore : s.store.call change with
    | error fault =>
      rw [answer_of_refused hchange hstore]
      exact h
    | ok store =>
      rw [answer_of_accepted hchange hstore]
      exact s.screen.has_apply store.settings

theorem has_advance (h : s.screen.Has s.store.settings) (millis : Nat) :
    (s.advance millis).screen.Has (s.advance millis).store.settings := by
  have hscreen := (Screen.survivesTime_has s.store.settings).advance h millis
  rw [advance_frame]
  exact hscreen

theorem has_move (h : s.screen.Has s.store.settings) (m : Move) : (s.move m).screen.Has (s.move m).store.settings := by
  cases m with
  | request received =>
    exact respond_induct (P := fun u => u.screen.Has u.store.settings) h (fun c => has_advance (has_answer h c) 0)
      received
  | advance millis => exact has_advance h millis
  | start => exact h
  | stop => exact (Screen.survivesTime_has s.store.settings).step s.screen .close rfl h

theorem Reachable.has (h : s.Reachable) : s.screen.Has s.store.settings := by
  induction h with
  | ofFile hfile =>
    rw [screen_ofFile hfile]
    exact ⟨Screen.agrees_start .., rfl⟩
  | move m _ ih => exact has_move ih m

/-- Whatever requests come to a service that was started on a file or without one, however they are read, and whatever
time passes between them, the settings on the screen, the thresholds in its tracker and the colour of its warnings are
those of the store. So is the interval of the metronome if no request was answered by a failure. -/
theorem copies_agree {file : Option FileContent} {phone : Phone} {first : Service}
    (hfirst : ofFile file phone = .ok first) (moves : List Move) :
    (first.moved moves).screen.settings = (first.moved moves).store.settings ∧
      (first.moved moves).screen.charging.thresholds = (first.moved moves).store.settings.thresholds ∧
      (first.moved moves).screen.feedback.warningColor = (first.moved moves).store.settings.warningColor ∧
      (first.Throughout Unfailing moves →
        (first.moved moves).metronome.interval = (first.moved moves).store.settings.tickInterval) := by
  obtain ⟨hagrees, hsettings⟩ := ((Reachable.ofFile hfirst).moved moves).has
  refine ⟨hsettings, ?_, ?_, (inTime_ofFile hfirst).moved⟩
  · rw [← hsettings]
    exact hagrees.thresholds
  · rw [← hsettings]
    exact hagrees.warningColor

theorem ofFile_none : ofFile none {} = .ok standardService := by
  have hstarts : (ofFile none {}).isOk = true := by decide +kernel
  cases hs : ofFile none {} with
  | error fault =>
    rw [hs] at hstarts
    cases hstarts
  | ok s =>
    have hscreen := screen_ofFile hs
    obtain ⟨store, hstore, h⟩ := exists_ok_of_bind hs
    cases hstore
    obtain ⟨metronome, hmetronome, h⟩ := exists_ok_of_bind h
    cases h
    rw [Metronome.eq_of_ofInterval hmetronome]
    rfl

/-- A request with a body. -/
def posted (path : String) (fields : List (Text × Value)) : Request where
  method := "POST"
  path
  body := .json (.object fields)

/-- Settings are changed as a whole and in part, once by thresholds that are rejected, while the metronome runs. -/
def mixedChanges : List Move :=
  [.start,
    .request (posted "/api/settings" [("tick_interval", .int 30), ("warning_color", .text "#102030")]).call,
    .request (posted "/api/settings/thresholds" [("slow_threshold", .int 2000), ("fast_threshold", .int 1000)]).call,
    .request (posted "/api/settings/thresholds" [("slow_threshold", .int 1000), ("fast_threshold", .int 2000)]).call,
    .advance 60000]

theorem copies_agree_mixedChanges :
    (standardService.moved mixedChanges).screen.settings.thresholds = ⟨1000, 2000⟩ ∧
      (standardService.moved mixedChanges).screen.charging.thresholds = ⟨1000, 2000⟩ ∧
      (standardService.moved mixedChanges).screen.feedback.warningColor = ⟨16, 32, 48, 255⟩ ∧
      (standardService.moved mixedChanges).metronome.interval = Binary64.ofInt 30 := by
  obtain ⟨hsettings, hthresholds, hcolor, hinterval⟩ := copies_agree ofFile_none mixedChanges
  have hunfailing : standardService.Throughout Unfailing mixedChanges := by decide +kernel
  have hstore : (standardService.moved mixedChanges).store.settings.thresholds = ⟨1000, 2000⟩ ∧
      (standardService.moved mixedChanges).store.settings.warningColor = ⟨16, 32, 48, 255⟩ ∧
      (standardService.moved mixedChanges).store.settings.tickInterval = Binary64.ofInt 30 := by
    decide +kernel
  rw [hsettings, hthresholds, hcolor, hinterval hunfailing]
  exact ⟨hstore.1, hstore⟩

end Service

end LockScreen
