import LockScreen.Proofs.Screen.FeedbackWindow
import LockScreen.Proofs.Screen.History

/-!
# What the bouncer is told

The bouncer restarts the sensor, which then reports its last error once more, so an error that stands is not
handed to the bouncer a second time. An error `Stands` from when it was accepted until another attempt is
made or another error is accepted. The screen keeps this in a single number, the code of the last error, and
`lastError_eq_iff_stands` says that the number is right for every code but one: the code that also means no
error counts as standing where nothing does, so its first error is withheld
(`not_forall_told_of_not_stands`).

The messages that the bouncer keeps are the latest of all that it was told (`notices_moved`).
-/

namespace LockScreen.Screen

/-! ## The error that stands -/

/-- An error is accepted: fingerprints may unlock, it is not that the sensor was stopped, and nothing stops
the report of it half-way. -/
def Accepts (code : Int) (s : Screen) (m : Move) : Prop :=
  (∃ text, m = .act (.event (.sensorError code text))) ∧ s.phone.fingerprintAllowed.isUp = true ∧
    code ≠ Feedback.canceled ∧ (s.move m).fault = none

/-- A finger was tried since the last error: it was accepted or refused, or a help text says so. -/
def Retries (s : Screen) (m : Move) : Prop :=
  (∃ user, m = .act (.event (.fingerAccepted user))) ∨ m = .act (.event .fingerRefused) ∨
    (∃ code text, m = .act (.event (.sensorHelp code text))) ∧
      s.phone.fingerprintAllowed.isUp = true ∧ (s.move m).fault = none

/-- An error of a code does not stand any longer. -/
def Displaces (code : Int) (s : Screen) (m : Move) : Prop :=
  s.Retries m ∨ ∃ other, other ≠ code ∧ s.Accepts other m

/-- An error of a code was accepted and has not been displaced since. -/
def Stands (code : Int) (s : Screen) (moves : List Move) : Prop :=
  Since (fun u m => u.Accepts code m) (fun u m => u.Displaces code m) s moves

variable {s : Screen} {m : Move} {moves : List Move}

theorem lastError_of_accepts {code : Int} (h : s.Accepts code m) :
    (s.move m).screen.feedback.lastError = code := by
  obtain ⟨⟨text, rfl⟩, hallowed, hcode, hfault⟩ := h
  refine (congrArg Record.lastError (record_event_of_done hfault)).trans ?_
  simp [noting, hallowed, hcode]

theorem lastError_of_retries (h : s.Retries m) :
    (s.move m).screen.feedback.lastError = Feedback.noError := by
  rcases h with ⟨user, rfl⟩ | rfl | ⟨⟨code, text, rfl⟩, hallowed, hfault⟩
  · rfl
  · rfl
  · refine (congrArg Record.lastError (record_event_of_done hfault)).trans ?_
    simp [noting, hallowed]

/-- Nothing else touches the code of the last error. -/
theorem lastError_of_not (hretries : ¬s.Retries m)
    (haccepts : ∀ code, ¬s.Accepts code m) :
    (s.move m).screen.feedback.lastError = s.feedback.lastError := by
  obtain ⟨e, rfl, hfault, hrecord⟩ | ⟨hrecord, _⟩ := s.record_move_cases m
  · refine (congrArg Record.lastError hrecord).trans ?_
    cases e with
    | sensorHelp code text =>
      have hignored : s.phone.fingerprintAllowed.isUp = false := by
        by_contra hallowed
        exact hretries (.inr (.inr ⟨⟨code, text, rfl⟩, by simpa using hallowed, hfault⟩))
      simp [noting, hignored, record]
    | sensorError code text =>
      have hignored : (!s.phone.fingerprintAllowed.isUp || code = Feedback.canceled) = true := by
        by_contra hcounts
        simp only [Bool.or_eq_true, Bool.not_eq_true', decide_eq_true_eq, not_or] at hcounts
        exact haccepts code ⟨⟨text, rfl⟩, by simpa using hcounts.1, hcounts.2, hfault⟩
      simp only [noting, hignored, if_true, record]
    | fingerAccepted user => exact absurd (.inl ⟨user, rfl⟩) hretries
    | fingerRefused => exact absurd (.inr (.inl rfl)) hretries
    | sensorRunning on => cases on <;> rfl
    | screenOn | battery | userUnlocked | tick | other => rfl
  · exact congrArg Record.lastError hrecord

/-- The code of the last error is that of every error that stands. -/
theorem lastError_of_stands {code : Int} (h : Stands code s moves) :
    (s.moved moves).feedback.lastError = code := by
  induction moves using List.reverseRecOn with
  | nil => exact absurd h (not_since_nil s)
  | append_singleton moves m ih =>
    rw [moved_append_singleton]
    rcases since_append_singleton.mp h with haccepts | ⟨hstands, hkept⟩
    · exact lastError_of_accepts haccepts
    · have hretries : ¬(s.moved moves).Retries m := fun hretries => hkept (.inl hretries)
      by_cases haccepts : ∃ other, (s.moved moves).Accepts other m
      · -- an error that was accepted without displacing it is one of the same code
        obtain ⟨other, hother⟩ := haccepts
        have hsame : other = code := by
          by_contra hne
          exact hkept (.inr ⟨other, hne, hother⟩)
        rw [lastError_of_accepts hother, hsame]
      · rw [lastError_of_not hretries fun other hother => haccepts ⟨other, hother⟩]
        exact ih hstands

/-- The code of the last error is that of an error that stands, or it means that there is none. -/
theorem stands_lastError (h : s.feedback.lastError = Feedback.noError)
    (moves : List Move) :
    (s.moved moves).feedback.lastError = Feedback.noError ∨
      Stands (s.moved moves).feedback.lastError s moves := by
  induction moves using List.reverseRecOn with
  | nil => exact .inl h
  | append_singleton moves m ih =>
    rw [moved_append_singleton]
    by_cases hretries : (s.moved moves).Retries m
    · exact .inl (lastError_of_retries hretries)
    · by_cases haccepts : ∃ code, (s.moved moves).Accepts code m
      · obtain ⟨code, hcode⟩ := haccepts
        rw [lastError_of_accepts hcode]
        exact .inr (since_append_singleton.mpr (.inl hcode))
      · have hnone : ∀ code, ¬(s.moved moves).Accepts code m := fun code hcode => haccepts ⟨code, hcode⟩
        rw [lastError_of_not hretries hnone]
        rcases ih with hnoError | hstands
        · exact .inl hnoError
        · refine .inr (since_append_singleton.mpr (.inr ⟨hstands, ?_⟩))
          rintro (hretry | ⟨other, _, hother⟩)
          · exact hretries hretry
          · exact hnone other hother

/-- A code other than the one for no error is that of the last error exactly while such an error stands. -/
theorem lastError_eq_iff_stands (h : s.feedback.lastError = Feedback.noError)
    {code : Int} (hcode : code ≠ Feedback.noError) :
    (s.moved moves).feedback.lastError = code ↔ Stands code s moves := by
  constructor
  · rintro rfl
    rcases stands_lastError h moves with hnone | hstands
    · exact absurd hnone hcode
    · exact hstands
  · exact lastError_of_stands

/-! ## The messages of the bouncer -/

/-- What the bouncer is told in a move. -/
def told (s : Screen) : Move → List BouncerNotice
  | .act (.event (.sensorHelp _ text)) =>
    if s.phone.fingerprintAllowed.isUp && s.phone.bouncerShowing.isUp then [s.notice text] else []
  | .act (.event (.sensorError code text)) =>
    if s.phone.fingerprintAllowed.isUp && code ≠ Feedback.canceled && s.phone.bouncerShowing.isUp
      && code ≠ s.feedback.lastError then [s.notice text] else []
  | _ => []

/-- What the bouncer is told in a row of moves. -/
def toldOn (s : Screen) : List Move → List BouncerNotice
  | [] => []
  | m :: rest => s.told m ++ (s.move m).screen.toldOn rest

/-- The latest of the latest and some more are the latest of all. -/
theorem latest_latest_append (old new : List BouncerNotice) :
    latest (latest old ++ new) = latest (old ++ new) := by
  unfold latest
  rw [← List.drop_append_of_le_length (Nat.sub_le _ _), List.drop_drop]
  congr 1
  simp only [List.length_append, List.length_drop]
  omega

theorem latest_latest (notices : List BouncerNotice) : latest (latest notices) = latest notices := by
  simpa using latest_latest_append notices []

/-- Only an event tells the bouncer anything, and it never stops half-way. -/
theorem exists_event_of_told_ne_nil (h : s.told m ≠ []) :
    ∃ e, m = .act (.event e) ∧ (s.move m).fault = none := by
  cases m with
  | fire id => exact absurd rfl h
  | act a =>
    cases a with
    | event e =>
      refine ⟨e, rfl, ?_⟩
      cases e with
      | sensorHelp code text =>
        simp only [told, ne_eq, ite_eq_right_iff, List.cons_ne_self, imp_false, not_not,
          Bool.and_eq_true] at h
        simp [move, step, act, receive, sensorHelp, h.1, h.2, done]
      | sensorError code text =>
        simp only [told, ne_eq, ite_eq_right_iff, List.cons_ne_self, imp_false, not_not,
          Bool.and_eq_true, decide_eq_true_eq] at h
        obtain ⟨⟨⟨hallowed, hcode⟩, hbouncer⟩, hnew⟩ := h
        simp [move, step, act, receive, sensorError, hallowed, hcode, hbouncer, hnew, done]
      | _ => exact absurd rfl h
    | _ => exact absurd rfl h

/-- What an event notes of the bouncer is what the bouncer is told. -/
theorem notices_noting (s : Screen) (e : Event) :
    (s.noting e).notices = if s.told (.act (.event e)) = [] then s.phone.bouncerNotices
      else latest (s.phone.bouncerNotices ++ s.told (.act (.event e))) := by
  cases e with
  | sensorHelp code text =>
    cases hallowed : s.phone.fingerprintAllowed.isUp with
    | false => simp [noting, told, hallowed, record]
    | true => cases hbouncer : s.phone.bouncerShowing.isUp <;> simp [noting, told, hallowed, hbouncer]
  | sensorError code text =>
    cases hallowed : s.phone.fingerprintAllowed.isUp with
    | false => simp [noting, told, hallowed, record]
    | true =>
      by_cases hcode : code = Feedback.canceled
      · simp [noting, told, hcode, record]
      · cases hbouncer : s.phone.bouncerShowing.isUp with
        | false => simp [noting, told, hallowed, hcode, hbouncer]
        | true =>
          by_cases hnew : code = s.feedback.lastError
          · simp [noting, told, hallowed, hcode, hbouncer, ← hnew]
          · simp [noting, told, hallowed, hcode, hbouncer, hnew]
  | sensorRunning on => cases on <;> rfl
  | _ => rfl

theorem notices_move (s : Screen) (m : Move) :
    (s.move m).screen.phone.bouncerNotices
      = if s.told m = [] then s.phone.bouncerNotices
        else latest (s.phone.bouncerNotices ++ s.told m) := by
  obtain ⟨e, rfl, _, hrecord⟩ | ⟨hrecord, hstopped⟩ := s.record_move_cases m
  · exact (congrArg Record.notices hrecord).trans (s.notices_noting e)
  · have hnothing : s.told m = [] := by
      by_contra htold
      obtain ⟨e, he, hfault⟩ := exists_event_of_told_ne_nil htold
      exact hstopped e he hfault
    rw [if_pos hnothing]
    exact congrArg Record.notices hrecord

/-- The bouncer keeps the latest of all that it was told. -/
theorem notices_moved (h : latest s.phone.bouncerNotices = s.phone.bouncerNotices)
    (moves : List Move) :
    (s.moved moves).phone.bouncerNotices = latest (s.phone.bouncerNotices ++ s.toldOn moves) := by
  induction moves generalizing s with
  | nil => simpa [toldOn, moved] using h.symm
  | cons m rest ih =>
    have hmove := s.notices_move m
    have hmoved : s.moved (m :: rest) = (s.move m).screen.moved rest := rfl
    rw [hmoved]
    split_ifs at hmove with hnothing
    · rw [ih (by rw [hmove, h]), hmove, toldOn, hnothing, List.nil_append]
    · rw [ih (by rw [hmove, latest_latest]), hmove, toldOn, latest_latest_append,
        List.append_assoc]

/-! ## Where an error goes -/

/-- An error that is announced replaces the message, whether the refresh fails or not. -/
theorem message_announceError (s : Screen) (text : Text) :
    (s.announceError text).screen.board.message = some (s.warning text) := by
  refine Outcome.alter_induct (P := fun u => u.board.message = some (s.warning text)) ?_ fun u hu => hu
  rw [put, board_withBoard]
  split
  · rfl
  · rfl

theorem message_sensorError_of_feedbackOnBoard (h : s.feedbackOnBoard = true) {code : Int}
    (hcode : code ≠ Feedback.canceled) (text : Text) :
    (s.sensorError code text).screen.board.message = some (s.warning text) := by
  rw [sensorError_of_feedbackOnBoard h hcode]
  exact Outcome.alter_induct (P := fun u => u.board.message = some (s.warning text))
    (s.message_announceError text) fun u hu => hu

/-- On a hidden screen no error and no help text stops half-way. -/
theorem fault_sensor_of_hidden (h : s.visible = false) (code : Int) (text : Text) :
    (s.sensorError code text).fault = none ∧ (s.sensorHelp text).fault = none := by
  have hput (u : Screen) (hu : u.visible = false) (m : Message) : (u.put m).fault = none :=
    fault_withBoard_of_hidden hu _
  constructor
  · unfold sensorError announceError
    split_ifs
    · rfl
    · rfl
    · rfl
    · simp only [Outcome.fault_alter]
      exact hput (s.cancelHelp.setIcon false) h _
    · simp only [Outcome.fault_alter]
      exact hput s h _
    · rfl
  · unfold sensorHelp
    split_ifs
    · rfl
    · rfl
    · rw [Outcome.fault_alter]
      exact hput (s.setIcon true) h _
    · rfl

/-- Where an error goes that is delivered after a row of moves while fingerprints may unlock. -/
structure ErrorGoes (s : Screen) (moves : List Move) (code : Int) (text : Text) : Prop where
  /-- The bouncer is told the error, while it shows, unless the error stands. -/
  told : (s.moved moves).phone.bouncerShowing.isUp = true → code ≠ Feedback.noError →
    ¬Stands code s moves → (s.moved moves).told (.act (.event (.sensorError code text)))
      = [⟨text, (s.moved moves).settings.warningColor⟩]
  /-- It is withheld from the bouncer while it stands. -/
  withheld : (s.moved moves).phone.bouncerShowing.isUp = true → Stands code s moves →
    (s.moved moves).told (.act (.event (.sensorError code text))) = []
  /-- The code that also means no error is told only after another error. -/
  told_noError : (s.moved moves).phone.bouncerShowing.isUp = true → code = Feedback.noError →
    ((s.moved moves).told (.act (.event (.sensorError code text)))
        = [⟨text, (s.moved moves).settings.warningColor⟩] ↔
      ∃ other, other ≠ Feedback.noError ∧ Stands other s moves)
  /-- While the bouncer does not show, the error is up as a message if the device is in use. -/
  shown : (s.moved moves).phone.bouncerShowing.isUp = false →
    (s.moved moves).phone.interactive.isUp = true →
      ((s.moved moves).receive (.sensorError code text)).screen.board.message
        = some ⟨some text, (s.moved moves).settings.warningColor⟩
  /-- Otherwise it waits. -/
  deferred : (s.moved moves).phone.bouncerShowing.isUp = false →
    (s.moved moves).phone.interactive.isUp = false →
      ((s.moved moves).receive (.sensorError code text)).screen.feedback.deferred = some text

theorem errorGoes {s : Screen} (hreach : s.Reachable) (h : s.feedback.lastError = Feedback.noError)
    {moves : List Move} {code : Int} (hcode : code ≠ Feedback.canceled)
    (hallowed : (s.moved moves).phone.fingerprintAllowed.isUp = true) (text : Text) :
    s.ErrorGoes moves code text := by
  have hcolor : (s.moved moves).notice text = ⟨text, (s.moved moves).settings.warningColor⟩ := by
    rw [notice, Reach.warningColor (hreach.moved moves)]
  have hwarning : (s.moved moves).warning text
      = ⟨some text, (s.moved moves).settings.warningColor⟩ := by
    rw [warning, Reach.warningColor (hreach.moved moves)]
  refine ⟨?_, ?_, ?_, ?_, ?_⟩
  · intro hbouncer hcounts hstands
    have hnew : code ≠ (s.moved moves).feedback.lastError := fun hsame =>
      hstands ((lastError_eq_iff_stands h hcounts).mp hsame.symm)
    simp [told, hallowed, hcode, hbouncer, hnew, hcolor]
  · intro hbouncer hstands
    have hsame := lastError_of_stands hstands
    simp [told, hsame]
  · -- the code that means no error is that of the last error also where none stands
    rintro hbouncer rfl
    rw [← hcolor]
    constructor
    · intro htold
      rcases stands_lastError h moves with hnone | hstands
      · simp [told, hnone] at htold
      · refine ⟨_, ?_, hstands⟩
        intro hnone
        simp [told, hnone] at htold
    · rintro ⟨other, hother, hstands⟩
      have hlast := lastError_of_stands hstands
      simp [told, hallowed, hcode, hbouncer, hlast, hother.symm]
  · intro hbouncer hinteractive
    have hboard : (s.moved moves).feedbackOnBoard = true := by
      simp [feedbackOnBoard, hallowed, hbouncer, hinteractive]
    rw [← hwarning]
    exact message_sensorError_of_feedbackOnBoard hboard hcode text
  · intro hbouncer hinteractive
    simp [receive, sensorError, hallowed, hcode, hbouncer, hinteractive, done, Outcome.alter,
      Outcome.andThen]

/-- After any moves from a fresh start, the bouncer keeps the latest of all that it was told; an error is told
unless it stands, save for the one code that cannot be told from none; while the bouncer does not show, an
error is never withheld; and what is ignored changes nothing. On a screen that was never shown, no report
stops half-way, so that every error there is accepted which may be. -/
theorem error_told_unless_stands (settings : Settings) (phone : Phone) (user : Int)
    (unlock : UnlockSource) (estimate : EstimateSource) (hphone : phone.bouncerNotices = [])
    (moves : List Move) :
    let s := start settings phone user unlock estimate
    let u := s.moved moves
    u.phone.bouncerNotices = latest (s.toldOn moves) ∧
      (∀ code text, code ≠ Feedback.canceled → u.phone.fingerprintAllowed.isUp = true →
        s.ErrorGoes moves code text) ∧
      (∀ code text, u.phone.fingerprintAllowed.isUp = false ∨ code = Feedback.canceled →
        u.receive (.sensorError code text) = u.done) ∧
      (∀ code text, u.phone.fingerprintAllowed.isUp = false →
        u.receive (.sensorHelp code text) = u.done) ∧
      (.act (.setVisible true) ∉ moves → ∀ code text,
        (u.receive (.sensorError code text)).fault = none ∧
          (u.receive (.sensorHelp code text)).fault = none) := by
  intro s u
  have hreach : s.Reachable := .start settings phone user unlock estimate
  have hnone : s.phone.bouncerNotices = [] := hphone
  refine ⟨?_, ?_, ?_, ?_, ?_⟩
  · have hnotices := notices_moved (by rw [hnone]; rfl) moves
    rwa [hnone, List.nil_append] at hnotices
  · intro code text hcode hallowed
    exact errorGoes hreach rfl hcode hallowed text
  · intro code text hignored
    simp [receive, sensorError, hignored]
  · intro code text hdisallowed
    simp [receive, sensorHelp, hdisallowed]
  · intro hmoves code text
    have hhidden : u.visible = false := hidden_moved rfl hmoves
    exact fault_sensor_of_hidden hhidden code text

/-- An error is reported twice, then once more after a help text. -/
def errorThreeTimes : List Move :=
  [.act (.phone (.bouncerShowing true)), .act (.event (.sensorError 7 "Wet")),
    .act (.event (.sensorError 7 "Wet")), .act (.event (.sensorHelp 1 "Wipe")),
    .act (.event (.sensorError 7 "Wet"))]

theorem error_told_unless_stands_threeTimes :
    ((start .standard {} 0 .phone .nobody).moved errorThreeTimes).phone.bouncerNotices
        = [⟨"Wet", .standardWarning⟩, ⟨"Wipe", .standardWarning⟩, ⟨"Wet", .standardWarning⟩] ∧
      ((start .standard {} 0 .phone .nobody).moved errorThreeTimes).told
        (.act (.event (.sensorError 7 "Wet"))) = [] := by
  obtain ⟨hnotices, hgoes, _⟩ :=
    error_told_unless_stands .standard {} 0 .phone .nobody rfl errorThreeTimes
  refine ⟨hnotices.trans (by decide +kernel), ?_⟩
  refine (hgoes 7 "Wet" (by decide) (by decide +kernel)).withheld (by decide +kernel) ?_
  have hsplit : errorThreeTimes = errorThreeTimes.dropLast ++ [.act (.event (.sensorError 7 "Wet"))] :=
    rfl
  rw [hsplit]
  refine since_append_singleton.mpr (.inl ⟨⟨"Wet", rfl⟩, by decide +kernel, by decide, by decide +kernel⟩)

/-- An error that nobody has reported before is withheld from the bouncer, if its code also means that there
is none. -/
theorem not_forall_told_of_not_stands :
    ¬∀ (settings : Settings) (phone : Phone) (user : Int) (unlock : UnlockSource)
      (estimate : EstimateSource) (moves : List Move) (code : Int) (text : Text),
      let s := start settings phone user unlock estimate
      let u := s.moved moves
      code ≠ Feedback.canceled → u.phone.fingerprintAllowed.isUp = true →
        u.phone.bouncerShowing.isUp = true → ¬Stands code s moves →
          ⟨text, u.settings.warningColor⟩
            ∈ (u.receive (.sensorError code text)).screen.phone.bouncerNotices := by
  intro h
  have hstands : ¬Stands (-1) (start .standard {} 0 .phone .nobody)
      ([] ++ [.act (.phone (.bouncerShowing true))]) := by
    intro hstands
    rcases since_append_singleton.mp hstands with ⟨⟨text, hevent⟩, _⟩ | ⟨hbefore, _⟩
    · cases hevent
    · exact not_since_nil _ hbefore
  have htold := h .standard {} 0 .phone .nobody [.act (.phone (.bouncerShowing true))] (-1) "Dirty"
    (by decide) (by decide +kernel) (by decide +kernel) hstands
  revert htold
  decide +kernel

end LockScreen.Screen
