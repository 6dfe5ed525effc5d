import LockScreen.Proofs.Screen.Disclosure
import LockScreen.Proofs.Screen.Freshness

/-!
# Visibility only gates output

Nothing that a screen keeps, save for what it shows, depends on whether it is visible. Beside every screen runs its
shadow, the same screen hidden all the time (`Shadows`): each move takes both to a screen and its shadow, as long as
it does all it has to, and showing or hiding the screen leaves the shadow where it is (`Shadows.move`).

So two runs that differ in showing and hiding only have the same shadow, and agree in all they keep after each of
the other moves. What a visible screen shows is a function of that (`line_eq_of_kept`), so they also show the same
whenever both are visible (`visibility_only_gates_output`).
-/

namespace LockScreen

namespace Screen

/-! ## Shadows -/

/-- The same screen, but for its visibility, what it shows and what was noted on the way. -/
def kept (s : Screen) : Screen :=
  { s with visible := false, display := {}, lastLine := none, journal := {} }

/-- The screen as it is when it was hidden all the time. -/
def Shadows (s t : Screen) : Prop :=
  ∃ display lastLine journal, t = { s with visible := false, display, lastLine, journal }

/-- Where the operation does all it has to, the shadow's does too and leads to a shadow. -/
def OutcomeShadows (o p : Outcome) : Prop :=
  o.fault = none → p.fault = none ∧ o.screen.Shadows p.screen

variable {s t : Screen}

theorem Shadows.kept (h : s.Shadows t) : s.kept = t.kept := by
  obtain ⟨_, _, _, rfl⟩ := h
  rfl

theorem Shadows.hidden (h : s.Shadows t) : t.visible = false := by
  obtain ⟨_, _, _, rfl⟩ := h
  rfl

/-- The shadow of a screen is also that of one that differs from it in no more than what it shows. -/
theorem Shadows.of_kept {u : Screen} (h : s.Shadows t)
    (hu : ∃ visible display lastLine journal, u = { s with visible, display, lastLine, journal }) :
    u.Shadows t := by
  obtain ⟨display, lastLine, journal, rfl⟩ := h
  obtain ⟨_, _, _, _, rfl⟩ := hu
  exact ⟨display, lastLine, journal, rfl⟩

theorem shadows_of_hidden (h : s.visible = false) : s.Shadows s :=
  ⟨s.display, s.lastLine, s.journal, by rw [← h]⟩

namespace OutcomeShadows

variable {o p : Outcome}

theorem of_done (h : s.Shadows t) : OutcomeShadows s.done t.done :=
  fun _ => ⟨rfl, h⟩

theorem of_stopped (fault : Fault) : OutcomeShadows (s.stopped fault) (t.stopped fault) :=
  fun h => nomatch h

theorem andThen (h : OutcomeShadows o p) {next : Screen → Outcome}
    (hnext : ∀ u v : Screen, u.Shadows v → OutcomeShadows (next u) (next v)) :
    OutcomeShadows (o.andThen next) (p.andThen next) := by
  intro hfault
  obtain ⟨hfirst, hsecond⟩ := Outcome.fault_eq_none_of_andThen hfault
  obtain ⟨hp, hshadows⟩ := h hfirst
  rw [Outcome.andThen_of_fault_eq_none hfirst] at hfault ⊢
  rw [Outcome.andThen_of_fault_eq_none hp]
  exact hnext _ _ hshadows hfault

theorem alter (h : OutcomeShadows o p) {change : Screen → Screen}
    (hchange : ∀ u v : Screen, u.Shadows v → (change u).Shadows (change v)) :
    OutcomeShadows (o.alter change) (p.alter change) :=
  h.andThen fun u v huv => of_done (hchange u v huv)

end OutcomeShadows

/-! ## Operations -/

namespace Shadows

theorem board (h : s.Shadows t) : t.board = s.board := by
  obtain ⟨_, _, _, rfl⟩ := h
  rfl

theorem phone (h : s.Shadows t) : t.phone = s.phone := by
  obtain ⟨_, _, _, rfl⟩ := h
  rfl

theorem feedback (h : s.Shadows t) : t.feedback = s.feedback := by
  obtain ⟨_, _, _, rfl⟩ := h
  rfl

/-- A change that reads and writes nothing but what is kept. -/
theorem change (h : s.Shadows t) (f : Screen → Screen)
    (hf : ∀ display lastLine journal, f { s with visible := false, display, lastLine, journal }
      = { f s with visible := false, display, lastLine, journal }) : (f s).Shadows (f t) := by
  obtain ⟨display, lastLine, journal, rfl⟩ := h
  exact ⟨display, lastLine, journal, hf display lastLine journal⟩

/-- A refresh changes nothing that is kept, and that of a hidden screen does not fail. -/
theorem refresh (h : s.Shadows t) : OutcomeShadows s.refresh t.refresh := by
  intro _
  refine ⟨fault_refresh_of_hidden h.hidden, ?_⟩
  obtain ⟨display, lastLine, journal, rfl⟩ := h
  obtain ⟨_, _, _, hs⟩ := s.refresh_frame
  obtain ⟨_, _, _, ht⟩ := refresh_frame { s with visible := false, display, lastLine, journal }
  rw [hs, ht]
  exact ⟨_, _, _, rfl⟩

theorem withBoard (h : s.Shadows t) (board : MessageBoard) :
    OutcomeShadows (s.withBoard board) (t.withBoard board) := by
  have hset : Shadows { s with board } { t with board } := h.change (fun u => { u with board }) fun _ _ _ => rfl
  unfold Screen.withBoard
  rw [h.board]
  split
  · exact .of_done hset
  · exact hset.refresh

theorem put (h : s.Shadows t) (m : Message) : OutcomeShadows (s.put m) (t.put m) := by
  unfold Screen.put
  rw [h.board]
  exact h.withBoard _

theorem takeDown (h : s.Shadows t) : OutcomeShadows s.takeDown t.takeDown := by
  unfold Screen.takeDown
  rw [h.board]
  exact h.withBoard _

theorem putWarning (h : s.Shadows t) (text : Text) :
    OutcomeShadows (s.put (s.warning text)) (t.put (t.warning text)) := by
  unfold warning
  rw [h.feedback]
  exact h.put _

theorem announceError (h : s.Shadows t) (text : Text) :
    OutcomeShadows (s.announceError text) (t.announceError text) := by
  have hstart : Shadows (if s.feedback.helpTimer.isSome then s.cancelHelp.setIcon false else s)
      (if t.feedback.helpTimer.isSome then t.cancelHelp.setIcon false else t) := by
    rw [h.feedback]
    split
    · exact h.change (fun u => u.cancelHelp.setIcon false) fun _ _ _ => rfl
    · exact h
  exact (hstart.putWarning text).alter fun u v huv =>
    huv.change (fun u => { u with board := u.board.takeDownIn Feedback.errorMillis }) fun _ _ _ => rfl

theorem apply (h : s.Shadows t) (settings : Settings) :
    OutcomeShadows (s.apply settings) (t.apply settings) := by
  refine Shadows.refresh ?_
  exact h.change (fun u => { u with
    settings
    charging.thresholds := settings.thresholds
    feedback.warningColor := settings.warningColor }) fun _ _ _ => rfl

theorem sensorHelp (h : s.Shadows t) (text : Text) :
    OutcomeShadows (s.sensorHelp text) (t.sensorHelp text) := by
  unfold Screen.sensorHelp
  rw [h.phone]
  split_ifs
  · exact .of_done h
  · exact .of_done (h.change (fun u => (u.tellBouncer text).forgetError) fun _ _ _ => rfl)
  · have hlit : Shadows (s.setIcon true) (t.setIcon true) := h.change (fun u => u.setIcon true) fun _ _ _ => rfl
    exact (hlit.putWarning text).alter fun u v huv =>
      huv.change (fun u => (u.endHelpIn Feedback.helpMillis).forgetError) fun _ _ _ => rfl
  · exact .of_done (h.change forgetError fun _ _ _ => rfl)

theorem sensorError (h : s.Shadows t) (code : Int) (text : Text) :
    OutcomeShadows (s.sensorError code text) (t.sensorError code text) := by
  have hreported : OutcomeShadows
      (if s.phone.bouncerShowing.isUp then
        if code = s.feedback.lastError then s.done else (s.tellBouncer text).done
      else if s.phone.interactive.isUp then s.announceError text
      else done { s with feedback.deferred := some text })
      (if t.phone.bouncerShowing.isUp then
        if code = t.feedback.lastError then t.done else (t.tellBouncer text).done
      else if t.phone.interactive.isUp then t.announceError text
      else done { t with feedback.deferred := some text }) := by
    have hlast : t.feedback.lastError = s.feedback.lastError := by rw [h.feedback]
    rw [h.phone, hlast]
    split_ifs
    · exact .of_done h
    · exact .of_done (h.change (fun u => u.tellBouncer text) fun _ _ _ => rfl)
    · exact h.announceError text
    · obtain ⟨_, _, _, rfl⟩ := h
      exact .of_done ⟨_, _, _, rfl⟩
  unfold Screen.sensorError
  rw [h.phone]
  split
  · exact .of_done h
  · rw [h.phone] at hreported
    exact hreported.alter fun u v huv => huv.change (fun u => { u with feedback.lastError := code }) fun _ _ _ => rfl

theorem screenOn (h : s.Shadows t) : OutcomeShadows s.screenOn t.screenOn := by
  unfold Screen.screenOn
  rw [h.feedback]
  split
  · exact .of_done h
  · exact (h.announceError _).alter fun u v huv =>
      huv.change (fun u => { u with feedback.deferred := none }) fun _ _ _ => rfl

theorem battery (h : s.Shadows t) (reading : BatteryReading) :
    OutcomeShadows (s.battery reading) (t.battery reading) := by
  have hcharging : t.charging = s.charging := by
    obtain ⟨_, _, _, rfl⟩ := h
    rfl
  unfold Screen.battery
  rw [hcharging]
  split
  · rename_i charging _
    exact Shadows.refresh (h.change (fun u => { u with charging }) fun _ _ _ => rfl)
  · exact .of_stopped _

/-- What is skipped while the screen is hidden changes nothing that is kept. -/
theorem refreshIfVisible (h : s.Shadows t) : OutcomeShadows s.refreshIfVisible t.refreshIfVisible := by
  unfold Screen.refreshIfVisible
  rw [h.hidden]
  split
  · intro _
    obtain ⟨_, _, _, hs⟩ := s.refresh_frame
    exact ⟨rfl, h.of_kept ⟨s.visible, _, _, _, hs⟩⟩
  · exact .of_done h

theorem receive (h : s.Shadows t) (e : Event) : OutcomeShadows (s.receive e) (t.receive e) := by
  cases e with
  | sensorHelp code text => exact h.sensorHelp text
  | sensorError code text => exact h.sensorError code text
  | sensorRunning on =>
    refine .of_done ?_
    cases on with
    | true => exact h.change (fun u => { u with feedback.deferred := none }) fun _ _ _ => rfl
    | false => exact h
  | fingerAccepted | fingerRefused => exact .of_done (h.change forgetError fun _ _ _ => rfl)
  | screenOn => exact h.screenOn
  | battery reading => exact h.battery reading
  | userUnlocked | tick => exact h.refreshIfVisible
  | other name => exact .of_stopped _

/-! ## Time -/

theorem fire (h : s.Shadows t) (timer : Timer Task) : OutcomeShadows (s.fire timer) (t.fire timer) := by
  unfold Screen.fire
  rw [h.board]
  split
  · have hfired : Shadows { s with board.agenda := s.board.agenda.fire timer }
        { t with board.agenda := t.board.agenda.fire timer } :=
      h.change (fun u => { u with board.agenda := u.board.agenda.fire timer }) fun _ _ _ => rfl
    rw [h.board] at hfired
    cases timer.task with
    | takeDown =>
      unfold perform
      exact hfired.withBoard _
    | endHelp =>
      refine Shadows.takeDown ?_
      exact hfired.change (fun u => { u with feedback.helpTimer := none }.setIcon false) fun _ _ _ => rfl
  · exact .of_done h

theorem fireAll (h : s.Shadows t) (timers : List (Timer Task)) :
    OutcomeShadows (s.fireAll timers) (t.fireAll timers) := by
  induction timers generalizing s t with
  | nil => exact .of_done h
  | cons timer rest ih => exact (h.fire timer).andThen fun u v huv => ih huv

theorem advance (h : s.Shadows t) (millis : Nat) : OutcomeShadows (s.advance millis) (t.advance millis) := by
  unfold Screen.advance
  rw [h.board]
  exact (h.fireAll _).alter fun u v huv =>
    huv.change (fun u => { u with board.agenda := u.board.agenda.setNow (s.board.agenda.now + millis) })
      fun _ _ _ => rfl

/-! ## Moves -/

/-- Showing or hiding the screen leaves its shadow where it is, also where the screen cannot be shown. -/
theorem setVisible (h : s.Shadows t) (visible : Bool) : (s.setVisible visible).screen.Shadows t := by
  unfold Screen.setVisible
  dsimp only
  split
  · obtain ⟨_, _, _, hs⟩ := refresh_frame { s with visible, display := s.display.setVisible visible }
    rw [hs]
    exact h.of_kept ⟨_, _, _, _, rfl⟩
  · exact h.of_kept ⟨_, _, _, _, rfl⟩

theorem step (h : s.Shadows t) {a : Action} (ha : ∀ visible, a ≠ .setVisible visible) :
    OutcomeShadows (s.step a) (t.step a) := by
  cases a with
  | setVisible visible => exact absurd rfl (ha visible)
  | rest text => exact Shadows.refresh (h.change (fun u => { u with resting := text }) fun _ _ _ => rfl)
  | put m => exact h.put m
  | takeDown => exact h.takeDown
  | takeDownAfter delay =>
    intro hfault
    simp only [Screen.step, Screen.act, Screen.takeDownAfter] at hfault ⊢
    rw [h.board]
    exact ⟨hfault, h.change (fun u => { u with board := (s.board.takeDownAfter delay).1 }) fun _ _ _ => rfl⟩
  | apply settings => exact h.apply settings
  | applyPayload payload =>
    have hsettings : t.settings = s.settings := by
      obtain ⟨_, _, _, rfl⟩ := h
      rfl
    simp only [Screen.step, Screen.act, applyPayload, hsettings]
    split
    · exact h.apply _
    · exact .of_stopped _
  | event e => exact h.receive e
  | look =>
    obtain ⟨display, lastLine, journal, rfl⟩ := h
    obtain ⟨_, hs⟩ := s.askUnlocked_frame
    obtain ⟨_, ht⟩ := askUnlocked_frame { s with visible := false, display, lastLine, journal }
    simp only [Screen.step, Screen.act, hs, ht]
    exact .of_done ⟨_, _, _, rfl⟩
  | close => exact .of_done (h.change close fun _ _ _ => rfl)
  | advance millis => exact h.advance millis
  | phone change => exact .of_done (h.change (fun u => { u with phone := u.phone.change change }) fun _ _ _ => rfl)
  | unlockSource source => exact .of_done (h.change (fun u => { u with unlockSource := source }) fun _ _ _ => rfl)
  | estimateSource source =>
    refine .of_done (h.change (fun u => u.setEstimateSource source) ?_)
    intro display lastLine journal
    unfold setEstimateSource
    dsimp only
    split
    · rfl
    · rfl

/-- A move that does all it has to takes a screen and its shadow to a screen and its shadow. -/
theorem move (h : s.Shadows t) {m : Move} (hm : m.isVisibility = false) : OutcomeShadows (s.move m) (t.move m) := by
  cases m with
  | act a =>
    refine h.step ?_
    rintro visible rfl
    cases hm
  | fire id =>
    have htimer : t.timer? id = s.timer? id := by
      unfold timer?
      rw [h.board]
    simp only [Screen.move, htimer]
    split
    · exact h.fire _
    · exact .of_done h

theorem move_visibility (h : s.Shadows t) {m : Move} (hm : m.isVisibility = true) :
    (s.move m).screen.Shadows t := by
  obtain ⟨visible, rfl⟩ := Move.eq_of_isVisibility hm
  exact h.setVisible visible

end Shadows

/-! ## Runs -/

/-- The moves of a row that neither show nor hide the screen. -/
def common (moves : List Move) : List Move :=
  moves.filter fun m => !m.isVisibility

/-- The screens of a run after each of these moves. -/
def afterCommon (s : Screen) : List Move → List Screen
  | [] => []
  | m :: rest =>
    let u := (s.move m).screen
    if m.isVisibility then u.afterCommon rest else u :: u.afterCommon rest

/-- A run and the run of its shadow, which makes only the moves that neither show nor hide. -/
theorem Shadows.moved (h : s.Shadows t) {moves : List Move} (hmoves : s.Throughout Faultless moves) :
    (s.moved moves).Shadows (t.moved (common moves)) ∧
      (s.afterCommon moves).map Screen.kept = (t.afterCommon (common moves)).map Screen.kept := by
  induction moves generalizing s t with
  | nil => exact ⟨h, rfl⟩
  | cons m rest ih =>
    obtain ⟨hfirst, hrest⟩ := hmoves
    cases hm : m.isVisibility with
    | true =>
      have hcommon : common (m :: rest) = common rest := List.filter_cons_of_neg (by simp [hm])
      rw [hcommon, afterCommon, if_pos hm]
      exact ih (h.move_visibility hm) hrest
    | false =>
      have hcommon : common (m :: rest) = m :: common rest := List.filter_cons_of_pos (by simp [hm])
      have hnot : ¬m.isVisibility = true := by simp [hm]
      obtain ⟨_, hshadows⟩ := h.move hm hfirst
      obtain ⟨hmoved, hafter⟩ := ih hshadows hrest
      rw [hcommon, afterCommon, if_neg hnot, afterCommon, if_neg hnot, List.map_cons, List.map_cons,
        hafter, hshadows.kept]
      exact ⟨hmoved, rfl⟩

/-! ## What is shown -/

/-- The line that is called for depends on what is kept and on the visibility. -/
theorem line_eq_of_kept {u v : Screen} (h : u.kept = v.kept) (hvisible : u.visible = v.visible) :
    u.line = v.line := by
  have hline (w : Screen) : w.line = Screen.line { w.kept with visible := w.visible } :=
    Situation.line_journal ..
  rw [hline u, hline v, h, hvisible]

theorem line_refresh (s : Screen) : s.refresh.screen.line = s.line := by
  obtain ⟨_, _, _, hrefresh⟩ := s.refresh_frame
  rw [hrefresh]
  exact line_eq_of_kept rfl rfl

/-- Two screens that are up to date show the same if the same line is called for. -/
theorem UpToDate.display_eq {u v : Screen} (hu : u.UpToDate) (hv : v.UpToDate) (hline : u.line = v.line) :
    u.display.text = v.display.text ∧ u.display.color = v.display.color := by
  obtain ⟨shown, hshown, htext, hcolor, _⟩ := hu
  obtain ⟨other, hother, htextOther, hcolorOther, _⟩ := hv
  rw [hline, hother] at hshown
  cases hshown
  exact ⟨htext.trans htextOther.symm, hcolor.trans hcolorOther.symm⟩

/-- A screen whose line is there shows it as soon as it is refreshed. -/
theorem upToDate_refresh {s : Screen} {line : Line} (hvisible : s.visible = true)
    (hline : s.line = .ok (some line)) : s.refresh.screen.UpToDate := by
  rcases s.refresh_of_line with
    ⟨fault, journal, herror, _⟩ | ⟨hnone, journal, _⟩ | ⟨shown, journal, _, hpush⟩
  · rw [hline] at herror
    cases herror
  · rw [hline] at hnone
    cases hnone
  · refine fresh_refresh (by rw [hpush]; rfl) ?_
    rw [hpush]
    exact hvisible

/-- The move that shows the screen. -/
def showing : Move := .act (.setVisible true)

theorem common_eq_self {steps : List Move} (h : ∀ m ∈ steps, m.isVisibility = false) : common steps = steps :=
  List.filter_eq_self.mpr fun m hm => by simp [h m hm]

/-- Steps on a hidden screen that is shown afterwards lead to what is shown when they are made in sight. -/
theorem display_moved_showing {s : Screen} (hs : s.IsStart) {steps : List Move}
    (hsteps : ∀ m ∈ steps, m.isVisibility = false) (hcalm : s.Throughout Calm (showing :: steps)) :
    (s.moved (steps ++ [showing])).display.text = (s.moved (showing :: steps)).display.text ∧
      (s.moved (steps ++ [showing])).display.color = (s.moved (showing :: steps)).display.color := by
  obtain ⟨settings, phone, user, unlock, estimate, rfl⟩ := hs
  have hreach := Reach.moved (.start settings phone user unlock estimate) hcalm
  have hvisible : ((start settings phone user unlock estimate).moved (showing :: steps)).visible = true :=
    (visible_moved hsteps).trans
      (blindToWork_visible.board.refresh _)
  have hshown := upToDate_of_reach_calm hreach hvisible
  -- the hidden screen is the shadow of the visible one
  have hshadows := ((shadows_of_hidden rfl).moved (hcalm.imp fun _ _ h => h.fault)).1
  have hcommon : common (showing :: steps) = steps := common_eq_self hsteps
  rw [hcommon] at hshadows
  generalize (start settings phone user unlock estimate).moved (showing :: steps) = inSight
    at hshown hvisible hshadows ⊢
  rw [moved_append_singleton]
  generalize (start settings phone user unlock estimate).moved steps = hidden at hshadows ⊢
  have hline : Screen.line { hidden with visible := true, display := hidden.display.setVisible true }
      = inSight.line := line_eq_of_kept hshadows.kept.symm hvisible.symm
  obtain ⟨line, hcalled, _⟩ := id hshown
  have hlater := upToDate_refresh rfl (hline.trans hcalled)
  exact hlater.display_eq hshown ((line_refresh _).trans hline)

/-- Two runs of a screen that nothing has happened to, which differ in showing and hiding it only and in which every
move does all it has to, agree in all that a screen keeps after each of the other moves: the message, the timers, the
charge, the texts, the settings, the feedback and the phone. If the sources keep to their answers, both screens show
the same where both are visible; and steps on a hidden screen that is shown afterwards lead to what is shown when
they are made in sight. -/
theorem visibility_only_gates_output {s : Screen} (hs : s.IsStart) {moves others : List Move}
    (hmoves : s.Throughout Faultless moves) (hothers : s.Throughout Faultless others)
    (hsame : common moves = common others) :
    (s.afterCommon moves).map kept = (s.afterCommon others).map kept ∧
      (s.Throughout Calm moves → s.Throughout Calm others →
        (s.moved moves).visible = true → (s.moved others).visible = true →
          (s.moved moves).display.text = (s.moved others).display.text ∧
            (s.moved moves).display.color = (s.moved others).display.color) ∧
      (∀ steps : List Move, (∀ m ∈ steps, m.isVisibility = false) → s.Throughout Calm (showing :: steps) →
        (s.moved (steps ++ [showing])).display.text = (s.moved (showing :: steps)).display.text ∧
          (s.moved (steps ++ [showing])).display.color = (s.moved (showing :: steps)).display.color) := by
  have hhidden : s.visible = false := by
    obtain ⟨_, _, _, _, _, rfl⟩ := hs
    rfl
  obtain ⟨hshadows, hafter⟩ := (shadows_of_hidden hhidden).moved hmoves
  obtain ⟨hshadowsOther, hafterOther⟩ := (shadows_of_hidden hhidden).moved hothers
  rw [← hsame] at hshadowsOther hafterOther
  refine ⟨hafter.trans hafterOther.symm, ?_, ?_⟩
  · intro hcalm hcalmOther hvisible hvisibleOther
    obtain ⟨_, _, _, _, _, rfl⟩ := hs
    have hshown := upToDate_of_reach_calm (Reach.moved (.start ..) hcalm) hvisible
    have hshownOther := upToDate_of_reach_calm (Reach.moved (.start ..) hcalmOther) hvisibleOther
    exact hshown.display_eq hshownOther (line_eq_of_kept (hshadows.kept.trans hshadowsOther.kept.symm)
      (hvisible.trans hvisibleOther.symm))
  · intro steps hsteps hcalm
    exact display_moved_showing hs hsteps hcalm

/-- A finger leaves a help text on a visible screen. -/
def helpInSight : List Move :=
  [showing, .act (.rest (some "At rest")), .act (.event (.sensorHelp 1 "Dirty")), .act (.advance 1000)]

/-- The same happens while the screen is hidden, and it is shown again. -/
def helpUnseen : List Move :=
  [.act (.rest (some "At rest")), showing, .act (.setVisible false), .act (.event (.sensorHelp 1 "Dirty")),
    .act (.advance 1000), showing]

theorem visibility_only_gates_output_helpUnseen :
    ((start .standard {} 0 .phone .nobody).moved helpUnseen).display.text
        = ((start .standard {} 0 .phone .nobody).moved helpInSight).display.text ∧
      ((start .standard {} 0 .phone .nobody).moved helpInSight).display.text = "Dirty" := by
  have hinSight : (start .standard {} 0 .phone .nobody).Throughout Faultless helpInSight := by decide +kernel
  have hunseen : (start .standard {} 0 .phone .nobody).Throughout Faultless helpUnseen := by decide +kernel
  obtain ⟨_, hdisplay, _⟩ := visibility_only_gates_output ⟨_, _, _, _, _, rfl⟩ hunseen hinSight rfl
  refine ⟨(hdisplay (throughout_calm (by decide) hunseen)
    (throughout_calm (by decide) hinSight) ?_ ?_).1, ?_⟩
  all_goals decide +kernel

end Screen

end LockScreen
