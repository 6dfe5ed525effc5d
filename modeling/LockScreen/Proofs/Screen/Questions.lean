import LockScreen.Proofs.Screen.Asking
import LockScreen.Proofs.Screen.Precedence

/-!
# Questions and what is noted of them

Every question goes to the source of the estimate or to the unlock source of a screen, and all that the journal of a
screen ever takes in is what came of the questions, one after the other (`Journal.note`). A line puts at most one of
them, to the source of the estimate (`Situation.line_noted`). A move puts at most one to the unlock source, and then
those of the line that it selects (`Screen.move_noted`).
-/

namespace LockScreen

/-- Who is asked: the source of the estimate, or the unlock source of the screen of a number. -/
inductive Asked
  | estimate
  | unlock (screen : Nat)
deriving DecidableEq

/-- A question that was put, and what came of it. -/
structure Query where
  asked : Asked
  answer : Answer

/-- Takes in what came of a question. -/
def Journal.note (j : Journal) (q : Query) : Journal :=
  match q.asked, q.answer with
  | .estimate, .gives _ => j.estimateAnswered
  | .estimate, .fails text => j.estimateFailed text
  | .unlock _, .gives _ => j.unlockAnswered
  | .unlock _, .fails text => j.unlockFailed text

/-! ## Questions of a line -/

/-- The question for an estimate, where there is a source. -/
def estimateQueries (source : Option Answer) : List Query :=
  source.toList.map (⟨.estimate, ·⟩)

theorem askEstimate_noted (source : Option Answer) (j : Journal) :
    (askEstimate source j).2 = (estimateQueries source).foldl Journal.note j := by
  rcases source with _ | _ | _
  · rfl
  · rfl
  · rfl

instance (c : ChargeState) (options : DetailOptions) : Decidable (c.Asks options) :=
  decidable_of_iff (c.charged = false ∧ (c.details options).isOk = true) (by
    unfold ChargeState.Asks
    cases c.details options with
    | error fault => simp [Except.isOk, Except.toBool]
    | ok details => simp [Except.isOk, Except.toBool])

instance (s : Situation) : Decidable s.Asks :=
  decidable_of_iff (s.visible = true ∧ (s.unlocked = true ∧ s.covering? = none ∧ s.charge.pluggedIn = true) ∧
    s.charge.Asks s.details) (by
    unfold Situation.Asks
    rw [Situation.first_charging_iff])

/-- The questions put for the text of a battery that is plugged in. -/
def ChargeState.queries (c : ChargeState) (options : DetailOptions) (source : Option Answer) : List Query :=
  if c.Asks options then estimateQueries source else []

/-- The questions put for a line. -/
def Situation.queries (s : Situation) (source : Option Answer) : List Query :=
  if s.Asks then estimateQueries source else []

theorem chargingText_noted (c : ChargeState) (p : Phrases) (options : DetailOptions) (source : Option Answer)
    (j : Journal) : (chargingText c p options source j).2 = (c.queries options source).foldl Journal.note j := by
  unfold ChargeState.queries
  split
  · rename_i hasks
    rw [chargingText_of_asks hasks, askEstimate_noted]
  · rename_i hnone
    rw [chargingText_of_not_asks hnone]
    rfl

theorem Situation.line_noted (s : Situation) (p : Phrases) (source : Option Answer) (j : Journal) :
    (s.line p source j).2 = (s.queries source).foldl Journal.note j := by
  unfold Situation.queries
  split
  · rename_i hasks
    rw [line_of_asks hasks, askEstimate_noted]
  · rename_i hnone
    rw [line_of_not_asks hnone]
    rfl

theorem asked_of_mem_estimateQueries {source : Option Answer} : ∀ q ∈ estimateQueries source, q.asked = .estimate := by
  simp [estimateQueries]

theorem ChargeState.asked_of_mem_queries (c : ChargeState) (options : DetailOptions) (source : Option Answer) :
    ∀ q ∈ c.queries options source, q.asked = .estimate := by
  unfold ChargeState.queries
  split
  · exact asked_of_mem_estimateQueries
  · exact fun _ h => absurd h List.not_mem_nil

theorem Situation.asked_of_mem_queries (s : Situation) (source : Option Answer) :
    ∀ q ∈ s.queries source, q.asked = .estimate := by
  unfold Situation.queries
  split
  · exact asked_of_mem_estimateQueries
  · exact fun _ h => absurd h List.not_mem_nil

/-! ## Questions of a move -/

namespace Screen

variable {s : Screen}

/-- The questions put for the line that a screen calls for. -/
def lineQueries (s : Screen) : List Query :=
  s.situation.queries s.estimateAnswer

/-- The questions that a move of the screen of a number puts: one to its unlock source in the moves that ask it, and
then those for the line. A look puts none for a line. -/
def queries (s : Screen) (number : Nat) (m : Move) : List Query :=
  if s.asks m then
    ⟨.unlock number, s.unlockAnswer⟩ :: match m with
      | .act .look => []
      | _ => (s.move m).screen.lineQueries
  else []

theorem askUnlocked_noted (s : Screen) (number : Nat) :
    s.askUnlocked.journal = s.journal.note ⟨.unlock number, s.unlockAnswer⟩ := by
  unfold askUnlocked Journal.note
  cases s.unlockAnswer with
  | gives => rfl
  | fails => rfl

theorem refresh_noted (s : Screen) (number : Nat) :
    s.refresh.screen.journal = s.lineQueries.foldl Journal.note (s.journal.note ⟨.unlock number, s.unlockAnswer⟩) := by
  have hasked := s.askUnlocked_noted number
  obtain ⟨journal, hframe⟩ := s.askUnlocked_frame
  rw [← hasked, hframe]
  unfold lineQueries
  rw [← Situation.line_noted s.situation s.settings.phrases]
  unfold refresh
  simp only [hframe]
  split
  · rfl
  · rfl
  · rfl

/-- What a refresh notes where the same line is called for. -/
theorem Refreshes.noted {u : Screen} (h : s.Refreshes u) (number : Nat) :
    u.journal = u.lineQueries.foldl Journal.note (s.journal.note ⟨.unlock number, s.unlockAnswer⟩) := by
  obtain ⟨v, hface, hanswer, _, hchoice, hrefresh⟩ := h
  have hjournal : v.journal = s.journal := congrArg (·.2.2) hface
  have hlineQueries : u.lineQueries = v.lineQueries := by
    obtain ⟨hsituation, hrest⟩ := Prod.mk.inj hchoice
    unfold lineQueries
    rw [hsituation, (Prod.mk.inj hrest).2]
  rw [show u.journal = v.refresh.screen.journal from congrArg (·.2.2) hrefresh, v.refresh_noted number, hjournal,
    hanswer, hlineQueries]

/-- A move notes what came of its questions, and nothing else. -/
theorem move_noted (howned : s.Owned) (number : Nat) (m : Move) :
    (s.move m).screen.journal = (s.queries number m).foldl Journal.note s.journal := by
  unfold queries
  by_cases hlook : m = .act .look
  · subst hlook
    exact s.askUnlocked_noted number
  · have haccounted := move_cases howned hlook
    cases hasks : s.asks m with
    | true =>
      have hnoted := (haccounted.refreshes hasks).noted number
      rw [if_pos rfl]
      split
      · exact absurd rfl hlook
      · exact hnoted
    | false => exact congrArg (·.2.2) (haccounted.silent hasks).face

/-- A move asks the unlock source of its own screen and the source of the estimate, and nobody else. -/
theorem asked_of_mem_queries {number : Nat} {m : Move} :
    ∀ q ∈ s.queries number m, q.asked = .unlock number ∨ q.asked = .estimate := by
  unfold queries
  split
  · refine List.forall_mem_cons.mpr ⟨.inl rfl, ?_⟩
    split
    · exact fun _ h => absurd h List.not_mem_nil
    · exact fun q hq => .inr (Situation.asked_of_mem_queries _ _ q hq)
  · exact fun _ h => absurd h List.not_mem_nil

end Screen

end LockScreen
