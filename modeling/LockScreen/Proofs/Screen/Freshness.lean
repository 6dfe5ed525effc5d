import LockScreen.Proofs.Screen.Frame

/-!
# The display is never out of date

The line that a screen shows depends on its visibility, the message, the battery, the resting text, the
settings and the two sources that are asked. `Screen.line` selects it from the present state, and a screen is
`UpToDate` when its display shows exactly that line. Whatever changes a part of the choice, refreshes: a
message goes up or comes down with a refresh because the board counts its changes, and what does not refresh
leaves the choice as it was (`SameChoice`).

So a visible screen stays up to date from one move to the next, unless an operation stops half-way or the
sources come to answer something else, which nobody tells the screen. They answer as before wherever nothing is
assigned that they depend on (`answers_move`).
-/

namespace LockScreen

/-! ## The choice of the line -/

theorem askEstimate_journal (source : Option Answer) (j k : Journal) :
    (askEstimate source j).1 = (askEstimate source k).1 := by
  rcases source with _ | _ | _
  · rfl
  · rfl
  · rfl

theorem chargingText_journal (c : ChargeState) (p : Phrases) (options : DetailOptions)
    (source : Option Answer) (j k : Journal) :
    (chargingText c p options source j).1 = (chargingText c p options source k).1 := by
  unfold chargingText
  split
  · rfl
  · split
    · rfl
    · simp only [askEstimate_journal source j k]

/-- What was noted of earlier failures has no part in the choice of the line. -/
theorem Situation.line_journal (s : Situation) (p : Phrases) (source : Option Answer) (j k : Journal) :
    (s.line p source j).1 = (s.line p source k).1 := by
  unfold Situation.line
  split_ifs
  · rfl
  · rfl
  · split
    · rfl
    · simp only [chargingText_journal s.charge p s.details source j k]
  · split
    · rfl
    · rfl

/-- A line is called for wherever the screen is visible. -/
theorem Situation.line_ne_none {s : Situation} (h : s.visible = true) (p : Phrases)
    (source : Option Answer) (j : Journal) : (s.line p source j).1 ≠ .ok none := by
  unfold Situation.line
  simp only [h, Bool.not_true, Bool.false_eq_true, if_false]
  split
  · simp
  · split
    · simp
    · split
      · cases (chargingText s.charge p s.details source j).1 with
        | error => simp [Except.map]
        | ok => simp [Except.map]
      · simp

namespace Screen

/-! ## The line that is called for -/

/-- The line that the present state calls for. -/
def line (s : Screen) : Except Fault (Option Line) :=
  (s.situation.line s.settings.phrases s.estimateAnswer s.journal).1

/-- The display shows the text and the colour of the line that the present state calls for, and the line
last shown is that one. -/
def UpToDate (s : Screen) : Prop :=
  ∃ line, s.line = .ok (some line) ∧ s.display.text = line.text ∧ s.display.color = line.color ∧
    s.lastLine = some line

/-- A visible screen is up to date. -/
def Fresh (s : Screen) : Prop :=
  s.visible = true → s.UpToDate

/-- Two screens show the same, and the same line is called for on both. -/
structure SameChoice (u s : Screen) : Prop where
  situation : u.situation = s.situation
  phrases : u.settings.phrases = s.settings.phrases
  estimateAnswer : u.estimateAnswer = s.estimateAnswer
  display : u.display = s.display
  lastLine : u.lastLine = s.lastLine

theorem SameChoice.line {u s : Screen} (h : u.SameChoice s) : u.line = s.line := by
  unfold Screen.line
  rw [h.situation, h.phrases, h.estimateAnswer]
  exact Situation.line_journal ..

theorem Fresh.of_sameChoice {u s : Screen} (hs : s.Fresh) (h : u.SameChoice s) : u.Fresh := by
  intro hvisible
  have hsame : u.visible = s.visible := congrArg Situation.visible h.situation
  obtain ⟨line, hline, htext, hcolor, hlast⟩ := hs (hsame ▸ hvisible)
  refine ⟨line, ?_, ?_, ?_, ?_⟩
  · rw [h.line, hline]
  · rw [h.display, htext]
  · rw [h.display, hcolor]
  · rw [h.lastLine, hlast]

/-- Nothing else than these enters the choice of the line and the display of it. -/
theorem SameChoice.of_parts {u s : Screen}
    (hunlock : u.unlockAnswer = s.unlockAnswer := by rfl)
    (hestimate : u.estimateAnswer = s.estimateAnswer := by rfl)
    (hmessage : u.board.message = s.board.message := by rfl)
    (hvisible : u.visible = s.visible := by rfl)
    (hcharging : u.charging.state = s.charging.state := by rfl)
    (hresting : u.resting = s.resting := by rfl)
    (hsettings : u.settings = s.settings := by rfl)
    (hdisplay : u.display = s.display := by rfl)
    (hlast : u.lastLine = s.lastLine := by rfl) : u.SameChoice s := by
  refine ⟨?_, by rw [hsettings], hestimate, hdisplay, hlast⟩
  unfold Screen.situation isUnlocked
  rw [hunlock, hvisible, hmessage, hcharging, hresting, hsettings]

/-! ## Refreshes -/

/-- A refresh pushes the line that is called for, where there is one, and does nothing else to the screen than
to keep the journal. -/
theorem refresh_of_line (s : Screen) :
    (∃ fault journal, s.line = .error fault ∧ s.refresh = stopped { s with journal } fault) ∨
      (s.line = .ok none ∧ ∃ journal, s.refresh = done { s with journal }) ∨
      ∃ line journal, s.line = .ok (some line) ∧ s.refresh = (push { s with journal } line).done := by
  obtain ⟨journal, hasked⟩ := s.askUnlocked_frame
  have hline : s.line = (s.situation.line s.settings.phrases s.estimateAnswer journal).1 :=
    Situation.line_journal ..
  rw [hline]
  unfold refresh
  simp only [hasked]
  split
  · rename_i fault herror
    exact .inl ⟨fault, _, herror, rfl⟩
  · rename_i hnone
    exact .inr (.inl ⟨hnone, _, rfl⟩)
  · rename_i line hsome
    exact .inr (.inr ⟨line, _, hsome, rfl⟩)

/-- A refresh that does not fail shows what is called for. -/
theorem fresh_refresh {s : Screen} (h : s.refresh.fault = none) : s.refresh.screen.Fresh := by
  rcases s.refresh_of_line with
    ⟨fault, journal, _, hstopped⟩ | ⟨hline, journal, hdone⟩ | ⟨line, journal, hline, hpush⟩
  · rw [hstopped] at h
    cases h
  · rw [hdone]
    intro hvisible
    exact absurd hline (Situation.line_ne_none (s := s.situation) hvisible _ _ _)
  · rw [hpush]
    intro _
    refine ⟨line, ?_, rfl, rfl, rfl⟩
    rw [← hline]
    exact Situation.line_journal ..

/-! ## Parts of operations -/

/-- A screen that takes another board is refreshed if the message is another one. -/
theorem fresh_withBoard {s : Screen} (h : s.Fresh) {board : MessageBoard}
    (hsame : board.changes = s.board.changes → board.message = s.board.message)
    (hfault : (s.withBoard board).fault = none) : (s.withBoard board).screen.Fresh := by
  unfold withBoard at hfault ⊢
  split
  · rename_i hchanges
    exact h.of_sameChoice (.of_parts rfl rfl (hsame hchanges))
  · rename_i hchanges
    rw [if_neg hchanges] at hfault
    exact fresh_refresh hfault

/-- Putting up a message always refreshes. -/
theorem fresh_put {s : Screen} {m : Message} (hfault : (s.put m).fault = none) :
    (s.put m).screen.Fresh := by
  have hput : s.put m = refresh { s with board := s.board.put m } :=
    if_neg (Nat.succ_ne_self _)
  rw [hput] at hfault ⊢
  exact fresh_refresh hfault

theorem fresh_takeDown {s : Screen} (h : s.Fresh) (hfault : s.takeDown.fault = none) :
    s.takeDown.screen.Fresh := by
  refine fresh_withBoard h ?_ hfault
  unfold MessageBoard.takeDown
  split
  · intro hchanges
    exact absurd hchanges (Nat.succ_ne_self _)
  · intro _
    rfl

theorem fresh_expire {s : Screen} (h : s.Fresh) (hfault : (s.withBoard s.board.expire).fault = none) :
    (s.withBoard s.board.expire).screen.Fresh := by
  refine fresh_withBoard h ?_ hfault
  unfold MessageBoard.expire
  split
  · intro hchanges
    exact absurd hchanges (Nat.succ_ne_self _)
  · intro _
    rfl

/-- A last change that has no part in the choice of the line keeps a screen fresh. -/
theorem fresh_alter {o : Outcome} {change : Screen → Screen} (h : o.fault = none → o.screen.Fresh)
    (hchange : ∀ u, (change u).SameChoice u) (hfault : (o.alter change).fault = none) :
    (o.alter change).screen.Fresh := by
  have hdone := (Outcome.fault_eq_none_of_andThen hfault).1
  rw [Outcome.alter_of_fault_eq_none hdone]
  exact (h hdone).of_sameChoice (hchange o.screen)

theorem fresh_announceError {s : Screen} {text : Text}
    (hfault : (s.announceError text).fault = none) : (s.announceError text).screen.Fresh :=
  fresh_alter fresh_put (fun _ => .of_parts) hfault

theorem fresh_receive {s : Screen} (h : s.Fresh) (e : Event) :
    (s.receive e).fault = none → (s.receive e).screen.Fresh := by
  refine receive_induct (P := fun o => o.fault = none → o.screen.Fresh) e ?_ ?_ ?_ ?_ ?_
  · rintro u ⟨_, _, _, rfl⟩ _
    exact h.of_sameChoice .of_parts
  · intro charging _ hfault
    exact fresh_refresh hfault
  · intro fault hfault
    cases hfault
  · intro text note hnote hfault
    refine fresh_alter fresh_announceError ?_ hfault
    intro u
    obtain ⟨_, _, heq⟩ := hnote u
    rw [heq]
    exact .of_parts
  · intro text hfault
    exact fresh_alter fresh_put (fun _ => .of_parts) hfault

theorem fresh_fire {s : Screen} (h : s.Fresh) {t : Timer Task} (ht : t ∈ s.board.agenda.timers)
    (hfault : (s.fire t).fault = none) : (s.fire t).screen.Fresh := by
  cases htask : t.task with
  | takeDown =>
    rw [fire_of_takeDown ht htask] at hfault ⊢
    refine fresh_expire ?_ hfault
    exact h.of_sameChoice .of_parts
  | endHelp =>
    rw [fire_of_endHelp ht htask] at hfault ⊢
    refine fresh_takeDown ?_ hfault
    exact h.of_sameChoice .of_parts

/-- Timers that go off one after the other without a fault keep a screen fresh. -/
theorem Fires.fresh {s : Screen} {fired : List (Screen × Timer Task)} {o : Outcome}
    (h : Fires s fired o) (hs : s.Fresh) (hfault : o.fault = none) : o.screen.Fresh := by
  induction h with
  | nil s => exact hs
  | last _ hstopped => exact absurd hfault hstopped
  | cons ht hdone _ ih => exact ih (fresh_fire hs ht hdone) hfault

/-! ## Every move -/

/-- A move that does all it has to, and finds and leaves the two sources with the same answers. -/
structure Calm (s : Screen) (m : Move) : Prop where
  fault : (s.move m).fault = none
  unlockAnswer : (s.move m).screen.unlockAnswer = s.unlockAnswer
  estimateAnswer : (s.move m).screen.estimateAnswer = s.estimateAnswer

/-- What the two sources answer if they are asked. -/
def answers (s : Screen) : Answer × Option Answer :=
  (s.unlockAnswer, s.estimateAnswer)

theorem blindToWork_answers : BlindToWork answers := fun _ _ _ _ _ _ _ _ _ _ => rfl

/-- The sources keep to their answers unless something is assigned that they depend on. -/
theorem answers_move {s : Screen} {m : Move} (hm : m.isAssignment = false) :
    (s.move m).screen.answers = s.answers := by
  cases hvisibility : m.isVisibility with
  | false => exact blindToWork_answers.move hvisibility hm
  | true =>
    obtain ⟨visible, rfl⟩ := Move.eq_of_isVisibility hvisibility
    cases visible with
    | true => exact blindToWork_answers.board.refresh _
    | false => rfl

theorem throughout_calm {s : Screen} {moves : List Move}
    (hmoves : ∀ m ∈ moves, m.isAssignment = false) (h : s.Throughout Faultless moves) :
    s.Throughout Calm moves := by
  induction moves generalizing s with
  | nil => exact trivial
  | cons m rest ih =>
    obtain ⟨hfirst, hrest⟩ := List.forall_mem_cons.mp hmoves
    obtain ⟨hunlock, hestimate⟩ := Prod.mk.inj (answers_move hfirst)
    exact ⟨⟨h.1, hunlock, hestimate⟩, ih hrest h.2⟩

theorem fresh_step {s : Screen} {a : Action} (howned : s.Owned) (h : s.Fresh)
    (hcalm : s.Calm (.act a)) : (s.step a).screen.Fresh := by
  obtain ⟨hfault, hunlock, hestimate⟩ := hcalm
  simp only [move] at hfault hunlock hestimate
  cases a with
  | setVisible visible =>
    simp only [step, act, setVisible] at hfault ⊢
    split
    · rename_i hvisible
      rw [if_pos hvisible] at hfault
      exact fresh_refresh hfault
    · rename_i hhidden
      intro hvisible
      exact absurd hvisible hhidden
  | rest text => exact fresh_refresh hfault
  | put m => exact fresh_put hfault
  | takeDown => exact fresh_takeDown h hfault
  | takeDownAfter delay =>
    exact h.of_sameChoice (.of_parts rfl rfl (message_takeDownAfter s.board delay))
  | apply settings => exact fresh_refresh hfault
  | applyPayload payload =>
    simp only [step, act, applyPayload] at hfault ⊢
    split at hfault
    · exact fresh_refresh hfault
    · cases hfault
  | event e => exact fresh_receive h e hfault
  | look =>
    obtain ⟨journal, hasked⟩ := s.askUnlocked_frame
    simp only [step, act, hasked, done]
    exact h.of_sameChoice .of_parts
  | close => exact h.of_sameChoice .of_parts
  | advance millis =>
    refine fresh_alter ?_ ?_ hfault
    · exact (fires_advance howned millis).fresh h
    · intro u
      exact .of_parts
  | phone change =>
    exact h.of_sameChoice (.of_parts hunlock hestimate)
  | unlockSource source =>
    exact h.of_sameChoice (.of_parts hunlock hestimate)
  | estimateSource source =>
    obtain ⟨_, hsource⟩ := s.setEstimateSource_frame source
    simp only [step, act, hsource, done] at hestimate ⊢
    exact h.of_sameChoice (.of_parts rfl hestimate)

theorem fresh_move {s : Screen} {m : Move} (howned : s.Owned) (h : s.Fresh) (hcalm : s.Calm m) :
    (s.move m).screen.Fresh := by
  cases m with
  | act a => exact fresh_step howned h hcalm
  | fire id =>
    have hfault := hcalm.fault
    cases ht : s.timer? id with
    | some t =>
      rw [move_fire_of_timer? ht] at hfault ⊢
      exact fresh_fire h (timer?_eq_some ht).1 hfault
    | none =>
      rw [move_fire_of_timer?_eq_none ht]
      exact h

theorem Reach.fresh {s : Screen} (h : Reach Calm s) : s.Fresh := by
  induction h with
  | start settings phone user unlock estimate => exact fun hvisible => nomatch hvisible
  | move m hs hcalm ih => exact fresh_move hs.owned ih hcalm

/-- After any moves without a fault, with sources that keep to their answers, a screen that is visible shows
exactly the line that its present state calls for. -/
theorem upToDate_of_reach_calm {s : Screen} (h : Reach Calm s) (hvisible : s.visible = true) :
    s.UpToDate :=
  h.fresh hvisible

/-- A message replaces a help text and is taken down in its place. -/
def helpReplaced : List Move :=
  [.act (.setVisible true), .act (.rest (some "At rest")), .act (.event (.sensorHelp 1 "Dirty")),
    .act (.put ⟨some "Look here", .white⟩), .fire 0]

/-- The resting text is all that is left. -/
def restingAgain : Screen :=
  (start .standard {} 0 .phone .nobody).moved helpReplaced

theorem upToDate_restingAgain :
    restingAgain.display.text = "At rest" ∧ restingAgain.visible = true ∧ restingAgain.UpToDate := by
  have hfaultless : (start .standard {} 0 .phone .nobody).Throughout Faultless helpReplaced := by
    decide +kernel
  have hcalm := throughout_calm (by decide) hfaultless
  have hvisible : restingAgain.visible = true := by decide +kernel
  exact ⟨by decide +kernel, hvisible, upToDate_of_reach_calm (Reach.moved (.start ..) hcalm) hvisible⟩

end Screen

end LockScreen
