import LockScreen.Proofs.Timing.Holding
import LockScreen.Screen.Step
import Mathlib.Tactic.SplitIfs

/-!
# Runs of the screen

What happens to a screen is a row of moves: actions, and pending timers that go off. `Screen.Reach` is every
screen that moves of some kind lead to from one that nothing has happened to.

The second half says what the operations leave alone. Selecting the line anew changes the display, the line
last shown and the journal, and nothing else (`refresh_frame`), so what an action does to message and timers
can be read off without it. An event either leaves message and timers alone or announces a text, as help or
as an error, and `announced?` says which.
-/

namespace LockScreen

/-! ## Outcomes -/

variable {τ : Type}

namespace Outcome

theorem andThen_of_fault_eq_none {o : Outcome τ} (h : o.fault = none) (next : Screen τ → Outcome τ) :
    o.andThen next = next o.screen := by
  unfold andThen
  rw [h]

theorem andThen_of_fault_ne_none {o : Outcome τ} (h : o.fault ≠ none) (next : Screen τ → Outcome τ) :
    o.andThen next = o := by
  unfold andThen
  split
  · exact absurd ‹_› h
  · rfl

theorem alter_of_fault_eq_none {o : Outcome τ} (h : o.fault = none) (change : Screen τ → Screen τ) :
    o.alter change = (change o.screen).done :=
  andThen_of_fault_eq_none h _

/-- Both parts of an operation did all they had to if the whole did. -/
theorem fault_eq_none_of_andThen {o : Outcome τ} {next : Screen τ → Outcome τ}
    (h : (o.andThen next).fault = none) : o.fault = none ∧ (next o.screen).fault = none := by
  by_cases ho : o.fault = none
  · rw [andThen_of_fault_eq_none ho] at h
    exact ⟨ho, h⟩
  · rw [andThen_of_fault_ne_none ho] at h
    exact absurd h ho

/-- What holds after the first part of an operation, and of the second part where the first one did all it
had to, holds after the whole. -/
theorem andThen_induct {P : Outcome τ → Prop} {o : Outcome τ} {next : Screen τ → Outcome τ} (h : P o)
    (hnext : ∀ s : Screen τ, P s.done → P (next s)) : P (o.andThen next) := by
  obtain ⟨s, fault⟩ := o
  cases fault with
  | none => exact hnext s h
  | some fault => exact h

/-- What a last change keeps holds after it, or where the operation stopped before. -/
theorem alter_induct {P : Screen τ → Prop} {o : Outcome τ} {change : Screen τ → Screen τ}
    (h : P o.screen) (hchange : ∀ s, P s → P (change s)) : P (o.alter change).screen :=
  andThen_induct (P := fun o => P o.screen) h hchange

end Outcome

/-! ## Moves -/

/-- What moves a screen on: an action, or the pending timer of a number that goes off, whatever its time. -/
inductive Move
  | act (a : Action)
  | fire (id : Nat)

namespace Screen

/-- The pending timer of a number. -/
def timer? (s : Screen) (id : Nat) : Option (Timer Task) :=
  s.board.agenda.timers.find? (·.id = id)

/-- One move. -/
def move (s : Screen) : Move → Outcome
  | .act a => s.step a
  | .fire id =>
    match s.timer? id with
    | some t => s.fire t
    | none => s.done

/-- A step is an action unless it lets the clock run. -/
theorem step_eq_act {s : Screen} {a : Action} (hclock : ∀ millis, a ≠ .advance millis) : s.step a = s.act a := by
  cases a with
  | advance millis => exact absurd rfl (hclock millis)
  | _ => rfl

/-- The screen after a row of moves; one that stops does not end the row. -/
def moved (s : Screen) (moves : List Move) : Screen :=
  moves.foldl (fun s m => (s.move m).screen) s

/-- A condition holds of each move of a row where it is made. -/
def Throughout (allowed : Screen → Move → Prop) (s : Screen) : List Move → Prop
  | [] => True
  | m :: rest => allowed s m ∧ (s.move m).screen.Throughout allowed rest

instance instDecidableThroughout {allowed : Screen → Move → Prop} [∀ s m, Decidable (allowed s m)] :
    ∀ (s : Screen) (moves : List Move), Decidable (s.Throughout allowed moves)
  | _, [] => inferInstanceAs (Decidable True)
  | s, m :: rest =>
    have : Decidable ((s.move m).screen.Throughout allowed rest) := instDecidableThroughout _ rest
    inferInstanceAs (Decidable (_ ∧ _))

/-- A move that does all it has to. -/
def Faultless (s : Screen) (m : Move) : Prop :=
  (s.move m).fault = none

instance (s : Screen) (m : Move) : Decidable (s.Faultless m) :=
  inferInstanceAs (Decidable (_ = none))

/-- A screen that nothing has happened to. -/
def start (settings : Settings) (phone : Phone) (user : Int) (unlockSource : UnlockSource)
    (estimateSource : EstimateSource) : Screen :=
  { ofSettings settings with phone, user, unlockSource, estimateSource }

/-- The screens that allowed moves lead to from one that nothing has happened to. -/
inductive Reach (allowed : Screen → Move → Prop) : Screen → Prop
  | start (settings : Settings) (phone : Phone) (user : Int) (unlockSource : UnlockSource)
      (estimateSource : EstimateSource) :
    Reach allowed (start settings phone user unlockSource estimateSource)
  | move {s : Screen} (m : Move) :
    Reach allowed s → allowed s m → Reach allowed (s.move m).screen

/-- Any moves lead there, also ones that stop. -/
def Reachable : Screen → Prop :=
  Reach fun _ _ => True

theorem Reach.moved {allowed : Screen → Move → Prop} {s : Screen} (h : Reach allowed s)
    {moves : List Move} (hmoves : s.Throughout allowed moves) : Reach allowed (s.moved moves) := by
  induction moves generalizing s with
  | nil => exact h
  | cons m rest ih => exact ih (.move m h hmoves.1) hmoves.2

theorem Reachable.moved {s : Screen} (h : s.Reachable) (moves : List Move) :
    (s.moved moves).Reachable := by
  induction moves generalizing s with
  | nil => exact h
  | cons m rest ih => exact ih (.move m h trivial)

theorem Throughout.imp {allowed more : Screen → Move → Prop} {s : Screen} {moves : List Move}
    (h : s.Throughout allowed moves) (himp : ∀ u m, allowed u m → more u m) : s.Throughout more moves := by
  induction moves generalizing s with
  | nil => exact trivial
  | cons m rest ih => exact ⟨himp s m h.1, ih h.2⟩

/-- A row of moves and one more. -/
theorem moved_append_singleton (s : Screen) (moves : List Move) (m : Move) :
    s.moved (moves ++ [m]) = ((s.moved moves).move m).screen := by
  unfold moved
  rw [List.foldl_append]
  rfl

theorem throughout_append_singleton {allowed : Screen → Move → Prop} {s : Screen}
    {moves : List Move} {m : Move} :
    s.Throughout allowed (moves ++ [m])
      ↔ s.Throughout allowed moves ∧ allowed (s.moved moves) m := by
  induction moves generalizing s with
  | nil => simp [Throughout, moved]
  | cons first rest ih =>
    simp only [List.cons_append, Throughout, ih, and_assoc]
    rfl

/-! ## What a refresh leaves alone -/

/-- Asking the unlock source changes the journal only. -/
theorem askUnlocked_frame (s : Screen τ) : ∃ journal, s.askUnlocked = { s with journal } := by
  unfold askUnlocked
  cases s.unlockAnswer with
  | gives => exact ⟨_, rfl⟩
  | fails => exact ⟨_, rfl⟩

/-- A refresh changes the display, the line last shown and the journal only. -/
theorem refresh_frame (s : Screen τ) :
    ∃ display lastLine journal, s.refresh.screen = { s with display, lastLine, journal } := by
  obtain ⟨journal, hasked⟩ := s.askUnlocked_frame
  unfold refresh
  simp only [hasked]
  split
  · exact ⟨_, _, _, rfl⟩
  · exact ⟨_, _, _, rfl⟩
  · exact ⟨_, _, _, rfl⟩

/-- A screen that takes another board and is refreshed where that calls for it has that board. -/
theorem withBoard_frame (s : Screen τ) (board : MessageBoard τ) :
    ∃ display lastLine journal,
      (s.withBoard board).screen = { s with board, display, lastLine, journal } := by
  unfold withBoard
  split
  · exact ⟨_, _, _, rfl⟩
  · exact refresh_frame _

@[simp]
theorem board_refresh (s : Screen τ) : s.refresh.screen.board = s.board := by
  obtain ⟨_, _, _, h⟩ := s.refresh_frame
  rw [h]

@[simp]
theorem feedback_refresh (s : Screen τ) : s.refresh.screen.feedback = s.feedback := by
  obtain ⟨_, _, _, h⟩ := s.refresh_frame
  rw [h]

@[simp]
theorem board_withBoard (s : Screen τ) (board : MessageBoard τ) :
    (s.withBoard board).screen.board = board := by
  obtain ⟨_, _, _, h⟩ := s.withBoard_frame board
  rw [h]

@[simp]
theorem feedback_withBoard (s : Screen τ) (board : MessageBoard τ) :
    (s.withBoard board).screen.feedback = s.feedback := by
  obtain ⟨_, _, _, h⟩ := s.withBoard_frame board
  rw [h]

@[simp]
theorem phone_withBoard (s : Screen τ) (board : MessageBoard τ) :
    (s.withBoard board).screen.phone = s.phone := by
  obtain ⟨_, _, _, h⟩ := s.withBoard_frame board
  rw [h]

/-- Another source of estimates changes nothing else. -/
theorem setEstimateSource_frame (s : Screen τ) (source : EstimateSource) :
    ∃ estimateSource, s.setEstimateSource source = { s with estimateSource } := by
  unfold setEstimateSource
  split
  · exact ⟨_, rfl⟩
  · exact ⟨_, rfl⟩

/-! ## Timers that go off -/

theorem timer?_eq_some {s : Screen} {id : Nat} {t : Timer Task} (h : s.timer? id = some t) :
    t ∈ s.board.agenda.timers ∧ t.id = id := by
  refine ⟨List.mem_of_find?_eq_some h, ?_⟩
  simpa using List.find?_some h

theorem move_fire_of_timer? {s : Screen} {id : Nat} {t : Timer Task} (h : s.timer? id = some t) :
    s.move (.fire id) = s.fire t := by
  simp only [move, h]

theorem move_fire_of_timer?_eq_none {s : Screen} {id : Nat} (h : s.timer? id = none) :
    s.move (.fire id) = s.done := by
  simp only [move, h]

theorem fire_of_holds {s : Screen τ} {t : Timer Task τ} (h : s.board.agenda.holds t.id = true) :
    s.fire t = perform { s with board.agenda := s.board.agenda.fire t } t.task :=
  if_pos h

theorem fire_of_not_holds {s : Screen τ} {t : Timer Task τ} (h : ¬s.board.agenda.holds t.id = true) :
    s.fire t = s.done :=
  if_neg h

/-- A timer of the board that goes off takes the message down. -/
theorem fire_of_takeDown {s : Screen τ} {t : Timer Task τ} (ht : t ∈ s.board.agenda.timers)
    (htask : t.task = .takeDown) :
    s.fire t = withBoard { s with board.agenda := s.board.agenda.fire t }
      (MessageBoard.expire { s.board with agenda := s.board.agenda.fire t }) := by
  rw [fire_of_holds (Agenda.holds_of_mem ht), htask]
  rfl

/-- A timer of the feedback that goes off puts the icon out and takes the message down. -/
theorem fire_of_endHelp {s : Screen τ} {t : Timer Task τ} (ht : t ∈ s.board.agenda.timers)
    (htask : t.task = .endHelp) :
    s.fire t = takeDown (setIcon { s with
      board.agenda := s.board.agenda.fire t, feedback.helpTimer := none } false) := by
  rw [fire_of_holds (Agenda.holds_of_mem ht), htask]
  rfl

/-- Without a message there is nothing to take down. -/
theorem message_takeDown (b : MessageBoard τ) : b.takeDown.message = none := by
  unfold MessageBoard.takeDown
  split
  · rfl
  · simpa using ‹¬b.message.isSome = true›

theorem message_expire (b : MessageBoard τ) : b.expire.message = none := by
  unfold MessageBoard.expire
  split
  · rfl
  · simpa using ‹¬b.message.isSome = true›

/-- Whatever a delay comes to, the board keeps its timer, or sets a new one, or gives it up. -/
theorem board_takeDownAfter_cases [LE τ] [DecidableLE τ] [Timescale τ] (b : MessageBoard τ) (delay : Value) :
    (b.takeDownAfter delay).1 = b ∨ (∃ due, (b.takeDownAfter delay).1 = b.takeDownAt due) ∨
      (b.takeDownAfter delay).1 = b.cancelTakeDown := by
  unfold MessageBoard.takeDownAfter
  split
  · exact .inl rfl
  · split
    · exact .inl rfl
    · split
      · exact .inr (.inl ⟨_, rfl⟩)
      · exact .inr (.inr rfl)

/-- A delay never touches the message, also where it is refused. -/
theorem message_takeDownAfter [LE τ] [DecidableLE τ] [Timescale τ] (b : MessageBoard τ) (delay : Value) :
    (b.takeDownAfter delay).1.message = b.message := by
  rcases board_takeDownAfter_cases b delay with hboard | ⟨millis, hboard⟩ | hboard
  · rw [hboard]
  · rw [hboard]
    rfl
  · rw [hboard]
    rfl

theorem agenda_expire (b : MessageBoard τ) : b.expire.agenda = b.agenda := by
  unfold MessageBoard.expire
  split
  · rfl
  · rfl

theorem takeDownTimer_expire (b : MessageBoard τ) : b.expire.takeDownTimer = none := by
  unfold MessageBoard.expire
  split
  · rfl
  · rfl

/-- The work of either timer is to take the message down. -/
theorem message_perform (s : Screen τ) (task : Task) : (s.perform task).screen.board.message = none := by
  cases task with
  | takeDown =>
    unfold perform
    rw [board_withBoard]
    exact message_expire s.board
  | endHelp =>
    unfold perform endHelp takeDown
    rw [board_withBoard]
    exact message_takeDown _

/-- Whichever timer goes off, no message is up afterwards. -/
theorem message_fire {s : Screen τ} {t : Timer Task τ} (ht : t ∈ s.board.agenda.timers) :
    (s.fire t).screen.board.message = none := by
  rw [fire_of_holds (Agenda.holds_of_mem ht)]
  exact message_perform _ _

/-- Taking the message down neither sets a timer nor moves the clock. -/
theorem agenda_takeDown (b : MessageBoard τ) :
    ∃ id?, b.takeDown.agenda = b.agenda.cancel? id? := by
  unfold MessageBoard.takeDown
  split
  · exact ⟨b.takeDownTimer, rfl⟩
  · exact ⟨none, rfl⟩

theorem agenda_perform (s : Screen τ) (task : Task) :
    ∃ id?, (s.perform task).screen.board.agenda = s.board.agenda.cancel? id? := by
  cases task with
  | takeDown =>
    unfold perform
    rw [board_withBoard, agenda_expire]
    exact ⟨none, rfl⟩
  | endHelp =>
    unfold perform endHelp takeDown
    rw [board_withBoard]
    exact agenda_takeDown _

/-- A timer that goes off is gone, others may be given up with it, and the clock stands at its time. -/
theorem agenda_fire {s : Screen τ} {t : Timer Task τ} (h : s.board.agenda.holds t.id = true) :
    ∃ id?, (s.fire t).screen.board.agenda = (s.board.agenda.fire t).cancel? id? := by
  rw [fire_of_holds h]
  exact agenda_perform _ t.task

theorem now_fire {s : Screen τ} {t : Timer Task τ} (ht : t ∈ s.board.agenda.timers) :
    (s.fire t).screen.board.agenda.now = t.due := by
  obtain ⟨id?, hagenda⟩ := agenda_fire (Agenda.holds_of_mem ht)
  rw [hagenda, Agenda.now_cancel?]
  rfl

/-- No timer is set where one goes off, and none of its number is left. -/
theorem mem_timers_of_mem_fire {s : Screen τ} {t u : Timer Task τ} (h : u ∈ (s.fire t).screen.board.agenda.timers) :
    u ∈ s.board.agenda.timers ∧ u.id ≠ t.id := by
  by_cases hheld : s.board.agenda.holds t.id = true
  · obtain ⟨id?, hagenda⟩ := agenda_fire hheld
    rw [hagenda] at h
    have hfired : u ∈ (s.board.agenda.fire t).timers := Agenda.mem_timers_of_mem_cancel? h
    exact Agenda.mem_timers_cancel.mp hfired
  · rw [fire_of_not_holds hheld] at h
    exact ⟨h, fun hid => hheld (Agenda.holds_eq_true_iff.mpr ⟨u, h, hid⟩)⟩

/-- Timers that had their turn without a fault are no longer pending. -/
theorem mem_timers_of_mem_fireAll {s : Screen τ} {ts : List (Timer Task τ)} (hfault : (s.fireAll ts).fault = none)
    {u : Timer Task τ} (hu : u ∈ (s.fireAll ts).screen.board.agenda.timers) :
    u ∈ s.board.agenda.timers ∧ ∀ t ∈ ts, u.id ≠ t.id := by
  induction ts generalizing s with
  | nil => exact ⟨hu, nofun⟩
  | cons t rest ih =>
    unfold fireAll at hfault hu
    obtain ⟨hfirst, hrest⟩ := Outcome.fault_eq_none_of_andThen hfault
    rw [Outcome.andThen_of_fault_eq_none hfirst] at hu
    obtain ⟨hleft, hothers⟩ := ih hrest hu
    obtain ⟨hpending, hne⟩ := mem_timers_of_mem_fire hleft
    refine ⟨hpending, ?_⟩
    intro v hv
    rcases List.mem_cons.mp hv with rfl | hv
    · exact hne
    · exact hothers v hv

/-- The timers of a list that go off when they have their turn, each with the screen that it finds. The
first one that fails is the last. -/
def firings (s : Screen) : List (Timer Task) → List (Screen × Timer Task)
  | [] => []
  | t :: rest =>
    if s.board.agenda.holds t.id then
      (s, t) :: if (s.fire t).fault = none then (s.fire t).screen.firings rest else []
    else s.firings rest

/-- Only timers of the list go off. -/
theorem mem_of_mem_firings {s : Screen} {ts : List (Timer Task)} {f : Screen × Timer Task}
    (hf : f ∈ s.firings ts) : f.2 ∈ ts := by
  induction ts generalizing s with
  | nil => cases hf
  | cons t rest ih =>
    unfold firings at hf
    split at hf
    · rcases List.mem_cons.mp hf with rfl | hf
      · exact List.mem_cons_self
      · split at hf
        · exact List.mem_cons_of_mem t (ih hf)
        · cases hf
    · exact List.mem_cons_of_mem t (ih hf)

/-- The timers that go off in a move, each with the screen that it finds. -/
def fired (s : Screen) : Move → List (Screen × Timer Task)
  | .act (.advance millis) =>
    s.firings (s.board.agenda.dueBy (s.board.agenda.now + millis))
  | .act _ => []
  | .fire id => (s.timer? id).toList.map fun t => (s, t)

/-- The timers that go off in a row of moves. -/
def firedOn (s : Screen) : List Move → List (Timer Task)
  | [] => []
  | m :: rest => (s.fired m).map (·.2) ++ (s.move m).screen.firedOn rest

theorem firedOn_append_singleton (s : Screen) (moves : List Move) (m : Move) :
    s.firedOn (moves ++ [m])
      = s.firedOn moves ++ ((s.moved moves).fired m).map (·.2) := by
  induction moves generalizing s with
  | nil => simp [firedOn, moved]
  | cons first rest ih =>
    simp only [List.cons_append, firedOn, ih, List.append_assoc]
    rfl

end Screen

end LockScreen
