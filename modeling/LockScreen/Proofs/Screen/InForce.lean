import LockScreen.Proofs.Screen.Frame

/-!
# Settings in force

A screen has settings in force, and besides it has the thresholds in its tracker and the colour of warnings in its
feedback. All that happens to these three, and to the charging state, is that settings are put in force and that the
battery reports. So they form a machine of their own (`InForce`), which every move of a screen takes one step
(`inForce_move`), and tracker and feedback agree with the settings on every screen that is reached (`Reach.agrees`).
-/

namespace LockScreen

/-- The settings in force, what the tracker has of them and of the battery, and what the feedback has of them. -/
structure InForce where
  settings : Settings
  charging : ChargeTracker
  warningColor : Color

namespace InForce

/-- Settings are put in force. The charging state stays. -/
def apply (f : InForce) (settings : Settings) : InForce where
  settings
  charging := { f.charging with thresholds := settings.thresholds }
  warningColor := settings.warningColor

/-- What a move makes of it. A payload or a reading that is refused counts for nothing. -/
def move (f : InForce) : Move → InForce
  | .act (.apply settings) => f.apply settings
  | .act (.applyPayload payload) =>
    match f.settings.merge payload with
    | .ok settings => f.apply settings
    | .error _ => f
  | .act (.event (.battery reading)) =>
    match f.charging.update reading with
    | .ok charging => { f with charging }
    | .error _ => f
  | _ => f

/-- Tracker and feedback have what the settings say. -/
structure Agrees (f : InForce) : Prop where
  thresholds : f.charging.thresholds = f.settings.thresholds
  warningColor : f.warningColor = f.settings.warningColor

theorem agrees_apply (f : InForce) (settings : Settings) : (f.apply settings).Agrees :=
  ⟨rfl, rfl⟩

end InForce

/-- A reading changes the charging state only. -/
theorem ChargeTracker.update_eq_ok {t u : ChargeTracker} {r : BatteryReading} (h : t.update r = .ok u) :
    ∃ state, ChargeState.ofReading t.thresholds r = .ok state ∧ u = { t with state } := by
  unfold update at h
  cases hstate : ChargeState.ofReading t.thresholds r with
  | error fault =>
    rw [hstate] at h
    cases h
  | ok state =>
    rw [hstate] at h
    cases h
    exact ⟨state, rfl, rfl⟩

theorem InForce.Agrees.move {f : InForce} (h : f.Agrees) (m : Move) : (f.move m).Agrees := by
  unfold InForce.move
  split
  · exact f.agrees_apply _
  · split
    · exact f.agrees_apply _
    · exact h
  · split
    · rename_i hupdate
      obtain ⟨state, _, rfl⟩ := ChargeTracker.update_eq_ok hupdate
      exact ⟨h.thresholds, h.warningColor⟩
    · exact h
  · exact h

namespace Screen

def inForce (s : Screen) : InForce :=
  ⟨s.settings, s.charging, s.feedback.warningColor⟩

theorem blindToBoard_inForce : BlindToBoard inForce := fun _ _ _ _ _ _ _ => rfl

theorem inForce_apply (s : Screen) (settings : Settings) :
    (s.apply settings).screen.inForce = s.inForce.apply settings :=
  blindToBoard_inForce.refresh _

theorem inForce_applyPayload (s : Screen) (payload : Value) :
    (s.applyPayload payload).screen.inForce = s.inForce.move (.act (.applyPayload payload)) := by
  unfold applyPayload InForce.move
  cases hmerge : s.settings.merge payload with
  | error fault => simp only [inForce, hmerge, stopped]
  | ok settings =>
    simp only [inForce_apply]
    simp only [inForce, hmerge]

theorem inForce_battery (s : Screen) (reading : BatteryReading) :
    (s.battery reading).screen.inForce = s.inForce.move (.act (.event (.battery reading))) := by
  unfold battery InForce.move
  cases hupdate : s.charging.update reading with
  | error fault => simp only [inForce, hupdate, stopped]
  | ok charging =>
    simp only [blindToBoard_inForce.refresh]
    simp only [inForce, hupdate]

/-- No other event counts. -/
theorem inForce_receive (s : Screen) (e : Event) : (s.receive e).screen.inForce = s.inForce.move (.act (.event e)) := by
  cases e with
  | battery reading => exact s.inForce_battery reading
  | _ =>
    refine blindToBoard_inForce.receive (fun _ _ _ _ => rfl) ?_
    intro charging hcharging
    rw [show charging = s.charging from hcharging]

/-- Every move of a screen is a step of the machine. -/
theorem inForce_move (s : Screen) (m : Move) : (s.move m).screen.inForce = s.inForce.move m := by
  cases m with
  | fire id => exact blindToBoard_inForce.moveFire s id
  | act a =>
    cases a with
    | apply settings => exact s.inForce_apply settings
    | applyPayload payload => exact s.inForce_applyPayload payload
    | event e => exact s.inForce_receive e
    | put | takeDown => exact blindToBoard_inForce.withBoard s _
    | takeDownAfter | close | phone | unlockSource => rfl
    | setVisible visible =>
      simp only [move, step, act, setVisible]
      split
      · exact blindToBoard_inForce.refresh _
      · rfl
    | rest text => exact blindToBoard_inForce.refresh _
    | look => exact blindToBoard_inForce.askUnlocked s
    | advance millis => exact blindToBoard_inForce.advance s millis
    | estimateSource source =>
      obtain ⟨_, hsource⟩ := s.setEstimateSource_frame source
      simp only [move, step, act, hsource]
      rfl

theorem charging_move (s : Screen) (m : Move) : (s.move m).screen.charging = (s.inForce.move m).charging :=
  congrArg InForce.charging (s.inForce_move m)

theorem agrees_start (settings : Settings) (phone : Phone) (user : Int) (unlock : UnlockSource)
    (estimate : EstimateSource) : (start settings phone user unlock estimate).inForce.Agrees :=
  ⟨rfl, rfl⟩

/-- The thresholds of the tracker and the colour of warnings are those of the settings in force. -/
theorem Reach.agrees {allowed : Screen → Move → Prop} {s : Screen} (h : Reach allowed s) : s.inForce.Agrees := by
  induction h with
  | start => exact agrees_start ..
  | move m _ _ ih =>
    rw [inForce_move]
    exact ih.move m

theorem Reach.warningColor {allowed : Screen → Move → Prop} {s : Screen} (h : Reach allowed s) :
    s.feedback.warningColor = s.settings.warningColor :=
  h.agrees.warningColor

end Screen

end LockScreen
