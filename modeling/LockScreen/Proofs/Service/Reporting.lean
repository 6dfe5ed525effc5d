import LockScreen.Proofs.Screen.Pushes
import LockScreen.Proofs.Service.Run

/-!
# The line that is reported

A screen keeps the line it showed last beside the display that shows it, and a report tells of both. No operation
sets them apart (`Survives Screen.Truthful`), so whatever a service was asked to do before, its report tells of the
very line on the display (`display_bookkeeping`).
-/

namespace LockScreen

/-- A report tells of the line that the display shows: of none where the display was never updated, and otherwise of
one with the text and the colour of the display. -/
def ReportsDisplayed (report : Value) : Prop :=
  ∃ fields display line updates,
    report = .object fields ∧ Value.lookup "display" fields = some (.object display) ∧
      Value.lookup "indication" fields = some line ∧ Value.lookup "updates" display = some (.int updates) ∧
      ((line = .null ∧ updates = 0) ∨
        ∃ parts text color, line = .object parts ∧ updates ≠ 0 ∧
          Value.lookup "text" parts = some text ∧ Value.lookup "text" display = some text ∧
          Value.lookup "color" parts = some color ∧ Value.lookup "color" display = some color)

namespace Screen

theorem Truthful.reportsDisplayed {s : Screen} (h : s.Truthful) : ReportsDisplayed s.toValue := by
  refine ⟨_, _, _, _, rfl, rfl, rfl, rfl, ?_⟩
  cases hlast : s.lastLine with
  | none =>
    have hupdates : s.display.updates = 0 := h.lastLine_eq_none_iff.mp hlast
    exact .inl ⟨rfl, by rw [hupdates]; rfl⟩
  | some line =>
    have hupdates : s.display.updates ≠ 0 := fun hzero => by
      rw [h.lastLine_eq_none_iff.mpr hzero] at hlast
      cases hlast
    obtain ⟨htext, hcolor⟩ := h.shown line hlast
    refine .inr ⟨_, _, _, rfl, Int.natCast_ne_zero.mpr hupdates, rfl, ?_, rfl, ?_⟩
    · rw [← htext]
      rfl
    · rw [← hcolor]
      rfl

/-- Whatever happens to a screen or around it, it stays right about its display. -/
theorem survives_truthful : Survives Truthful where
  step _ a _ h := h.move (.act a)
  apply _ settings h := h.move (.act (.apply settings))
  fire s t h := h.of_pushesOnce (s.pushesOnce_fire t)
  phone _ _ h := h.of_facade rfl
  journal _ _ h := h.of_facade rfl
  setNow _ _ h := h.of_facade rfl

end Screen

theorem Service.Reachable.truthful {s : Service} (h : s.Reachable) : s.screen.Truthful :=
  h.screen Screen.survives_truthful Screen.truthful_start

theorem Service.handle_showScreen (s : Service) {read : Reading} {r : Request} (h : read r = .ok .showScreen) :
    (s.handle r read).2 = (Response.ok s.screen.toValue).sent := by
  unfold handle
  rw [h]
  rfl

/-- After any moves, also ones that stop half-way, a screen knows what its display shows: whether it is visible, that
nothing was shown exactly while the display was never updated, and the text and the colour of the last line. Every
further move updates the display once at most, at most once for each timer that goes off where time passes, and not at
all if the screen is hidden at its end. So a service never reports another line than the one on its display, however
requests for a report are read. -/
theorem display_bookkeeping :
    (∀ s : Screen, s.Reachable → s.Truthful ∧ ∀ m, s.Sparing m) ∧
      ∀ s : Service, s.Reachable → s.screen.Truthful ∧
        ∀ (read : Reading) (r : Request), read r = .ok .showScreen →
          (s.handle r read).2 = (Response.ok s.screen.toValue).sent ∧ ReportsDisplayed s.screen.toValue := by
  refine ⟨fun s hs => ⟨hs.truthful, s.sparing_move⟩, ?_⟩
  intro s hs
  exact ⟨hs.truthful, fun read r hr => ⟨s.handle_showScreen hr, hs.truthful.reportsDisplayed⟩⟩

/-- A help text is up that is taken down before the timer that was set with it goes off. -/
def bothDue : Screen :=
  (Screen.start .standard {} 0 .phone .nobody).moved
    [.act (.setVisible true), .act (.event (.sensorHelp 1 "Dirty")), .act (.takeDownAfter (.int 100))]

/-- A request for a report. -/
def reportRequest : Request where
  method := "GET"
  path := "/api/indication"

theorem display_bookkeeping_bothDue :
    (bothDue.fired (.act (.advance 1300))).length = 2 ∧ bothDue.Sparing (.act (.advance 1300)) ∧
      ∃ s : Service, Service.ofFile none {} = .ok s ∧
        (s.handle reportRequest).2 = (Response.ok s.screen.toValue).sent ∧ ReportsDisplayed s.screen.toValue := by
  obtain ⟨hscreen, hservice⟩ := display_bookkeeping
  have hbothDue : bothDue.Reachable := Screen.Reachable.moved (.start ..) _
  refine ⟨by decide +kernel, (hscreen _ hbothDue).2 _, ?_⟩
  have hstarts : (Service.ofFile none {}).isOk = true := by decide +kernel
  cases hs : Service.ofFile none {} with
  | error fault =>
    rw [hs] at hstarts
    cases hstarts
  | ok s => exact ⟨s, rfl, (hservice s (.ofFile hs)).2 Request.call reportRequest rfl⟩

end LockScreen
