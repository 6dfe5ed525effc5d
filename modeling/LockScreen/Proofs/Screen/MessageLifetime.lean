import LockScreen.Proofs.Screen.Ownership
import Mathlib.Data.List.Induction

/-!
# How long a message stays

While nobody puts up another message or takes one down, the message that is up stays until a timer goes off,
whichever of the two it is. A timer that goes off was held from the beginning, or it was set since then for a
delay (`Origin`).

Putting up a message gives up the timer that would take the message down, so that one cannot have been held
from the beginning. It does not give up the timer of a help text that was up before, as an error does, and
that timer takes the new message down.
-/

namespace LockScreen.Screen

/-- A move that does not itself put up a message or take one down. -/
def NotReplaced (s : Screen) : Move → Prop
  | .act a => s.replaces a = false
  | .fire _ => True

/-! ## One move -/

/-- The timers that are left were pending from the beginning. -/
theorem Fires.mem_timers {s : Screen} {fired : List (Screen × Timer Task)} {o : Outcome}
    (h : Fires s fired o) {t : Timer Task} (ht : t ∈ o.screen.board.agenda.timers) :
    t ∈ s.board.agenda.timers := by
  induction h with
  | nil s => exact ht
  | last _ _ => exact (mem_timers_of_mem_fire ht).1
  | cons _ _ _ ih => exact (mem_timers_of_mem_fire (ih ht)).1

/-- The timers that go off were pending from the beginning. -/
theorem Fires.mem_timers_of_mem {s : Screen} {fired : List (Screen × Timer Task)} {o : Outcome}
    (h : Fires s fired o) : ∀ f ∈ fired, f.2 ∈ s.board.agenda.timers := by
  induction h with
  | nil s => simp
  | last ht _ => simpa using ht
  | cons ht _ _ ih =>
    intro f hf
    rcases List.mem_cons.mp hf with rfl | hf
    · exact ht
    · exact (mem_timers_of_mem_fire (ih f hf)).1

/-- The first timer that goes off takes the message down. -/
theorem Fires.message {s : Screen} {fired : List (Screen × Timer Task)} {o : Outcome}
    (h : Fires s fired o) :
    o.screen.board.message = if fired = [] then s.board.message else none := by
  induction h with
  | nil s => rfl
  | last ht _ => exact message_fire ht
  | cons ht _ _ ih =>
    rw [ih, message_fire ht, ite_self]
    rfl

/-- The same message is up, and the same timers are pending. -/
structure SameBoard (u s : Screen) : Prop where
  message : u.board.message = s.board.message
  timers : u.board.agenda.timers = s.board.agenda.timers

theorem SameBoard.of_board {u s : Screen} (hboard : u.board = s.board) : u.SameBoard s := by
  refine ⟨?_, ?_⟩
  · rw [hboard]
  · rw [hboard]

/-- All that a quiet action does to message and timers is to let timers go off. -/
theorem fires_of_quiet {s : Screen} (howned : s.Owned) {a : Action} (h : s.quiet a = true) :
    ∃ o, Fires s (s.fired (.act a)) o ∧ (s.step a).screen.SameBoard o.screen := by
  by_cases hclock : ∃ millis, a = .advance millis
  · obtain ⟨millis, rfl⟩ := hclock
    refine ⟨_, fires_advance howned millis, ?_⟩
    refine Outcome.alter_induct (P := fun u => u.SameBoard _) (.of_board rfl) ?_
    rintro u ⟨hmessage, htimers⟩
    exact ⟨hmessage, htimers⟩
  · have hnot : ∀ millis, a ≠ .advance millis := fun millis ha => hclock ⟨millis, ha⟩
    refine ⟨s.done, ?_, .of_board (board_step_of_quiet h hnot).1⟩
    have hfired : s.fired (.act a) = [] := by
      cases a with
      | advance millis => exact absurd rfl (hnot millis)
      | _ => rfl
    rw [hfired]
    exact .nil s

/-- A move that replaces nothing sets the timer of the board, gives up both timers, or lets timers go off. -/
theorem move_of_notReplaced {s : Screen} (howned : s.Owned) {m : Move} (h : s.NotReplaced m) :
    (∃ delay, m = .act (.takeDownAfter delay)) ∨ m = .act .close ∨
      ∃ o, Fires s (s.fired m) o ∧ (s.move m).screen.SameBoard o.screen := by
  cases m with
  | act a =>
    have hreplaces : s.replaces a = false := h
    cases a with
    | takeDownAfter delay => exact .inl ⟨delay, rfl⟩
    | close => exact .inr (.inl rfl)
    | _ =>
      refine .inr (.inr (fires_of_quiet howned ?_))
      simp only [quiet, hreplaces, Bool.not_false]
  | fire id =>
    refine .inr (.inr ?_)
    cases ht : s.timer? id with
    | some t =>
      obtain ⟨o, hfires, hscreen⟩ := fires_fire (timer?_eq_some ht).1
      rw [move_fire_of_timer? ht, ← hscreen]
      simp only [fired, ht]
      exact ⟨o, hfires, .of_board rfl⟩
    | none =>
      rw [move_fire_of_timer?_eq_none ht]
      simp only [fired, ht]
      exact ⟨s.done, .nil s, .of_board rfl⟩

/-- A move that replaces nothing keeps the message, unless a timer goes off in it. -/
theorem message_move {s : Screen} (howned : s.Owned) {m : Move} (h : s.NotReplaced m) :
    (s.move m).screen.board.message = if s.fired m = [] then s.board.message else none := by
  rcases move_of_notReplaced howned h with ⟨delay, rfl⟩ | rfl | ⟨o, hfires, hsame⟩
  · exact message_takeDownAfter s.board delay
  · rfl
  · rw [hsame.message]
    exact hfires.message

/-- A delay sets the timer of the board under the next number, or leaves it, or gives it up. -/
theorem takeDownTimer_takeDownAfter (b : MessageBoard) (delay : Value) {id : Nat}
    (h : (b.takeDownAfter delay).1.takeDownTimer = some id) :
    b.takeDownTimer = some id ∨ id = b.agenda.nextId := by
  rcases board_takeDownAfter_cases b delay with hboard | ⟨millis, hboard⟩ | hboard
  · rw [hboard] at h
    exact .inl h
  · rw [hboard] at h
    refine .inr ?_
    rw [← Agenda.nextId_cancel? b.agenda b.takeDownTimer]
    exact (Option.some.inj h).symm
  · rw [hboard] at h
    cases h

/-- A move has the message taken down later, by a timer that it sets under a number. -/
def Arms (s : Screen) (m : Move) (id : Nat) : Prop :=
  (∃ delay, m = .act (.takeDownAfter delay)) ∧ id = s.board.agenda.nextId ∧
    (s.move m).screen.board.takeDownTimer = some id

/-- A number that is held after a move that replaces nothing was held before, or the move has set the timer
of the board under it. -/
theorem handle_move {s : Screen} (howned : s.Owned) {m : Move} (h : s.NotReplaced m) {task : Task}
    {id : Nat} (hid : (s.move m).screen.handle task = some id) :
    s.handle task = some id ∨ (task = .takeDown ∧ s.Arms m id) := by
  rcases move_of_notReplaced howned h with ⟨delay, rfl⟩ | rfl | ⟨o, hfires, hsame⟩
  · cases task with
    | endHelp => exact .inl hid
    | takeDown =>
      rcases takeDownTimer_takeDownAfter s.board delay hid with hheld | hnew
      · exact .inl hheld
      · exact .inr ⟨rfl, ⟨delay, rfl⟩, hnew, hid⟩
  · cases task with
    | takeDown => cases hid
    | endHelp => cases hid
  · -- no timer is set where timers go off
    obtain ⟨t, ht, rfl, rfl⟩ := Agenda.HeldBy.pending (howned.move m) task id hid
    rw [hsame.timers] at ht
    exact .inl (Agenda.HeldBy.held howned t (hfires.mem_timers ht))

/-- Whatever goes off in a move is held when the move begins. -/
theorem handle_of_mem_fired {s : Screen} (h : s.Owned) {m : Move} {f : Screen × Timer Task}
    (hf : f ∈ s.fired m) : s.handle f.2.task = some f.2.id := by
  obtain ⟨o, hfires⟩ := exists_fires h m
  exact Agenda.HeldBy.held h f.2 (hfires.mem_timers_of_mem f hf)

/-! ## A row of moves -/

/-- Where a number comes from that is held for a task after a row of moves: it was held from the beginning,
or one of the moves has set the timer of the board under it. -/
def Origin (s : Screen) (moves : List Move) (task : Task) (id : Nat) : Prop :=
  s.handle task = some id ∨
    (task = .takeDown ∧ ∃ before m after, moves = before ++ m :: after ∧ (s.moved before).Arms m id)

/-- One more move takes no origin away. -/
theorem Origin.snoc {s : Screen} {moves : List Move} {task : Task} {id : Nat}
    (h : s.Origin moves task id) (m : Move) : s.Origin (moves ++ [m]) task id := by
  rcases h with hheld | ⟨htask, before, armed, after, rfl, harms⟩
  · exact .inl hheld
  · refine .inr ⟨htask, before, armed, after ++ [m], ?_, harms⟩
    rw [List.append_assoc, List.cons_append]

/-- While nothing is replaced, every number that is held has an origin. -/
theorem origin_of_handle {s : Screen} (howned : s.Owned) {moves : List Move}
    (h : s.Throughout NotReplaced moves) {task : Task} {id : Nat}
    (hid : (s.moved moves).handle task = some id) : s.Origin moves task id := by
  induction moves using List.reverseRecOn generalizing task id with
  | nil => exact .inl hid
  | append_singleton moves m ih =>
    obtain ⟨hmoves, hm⟩ := throughout_append_singleton.mp h
    rw [moved_append_singleton] at hid
    rcases handle_move (howned.moved moves) hm hid with hheld | ⟨htask, harms⟩
    · exact (ih hmoves hheld).snoc m
    · exact .inr ⟨htask, moves, m, [], rfl, harms⟩

/-- While nothing is replaced, every timer that goes off has an origin. -/
theorem origin_of_firedOn {s : Screen} (howned : s.Owned) {moves : List Move}
    (h : s.Throughout NotReplaced moves) : ∀ t ∈ s.firedOn moves, s.Origin moves t.task t.id := by
  induction moves using List.reverseRecOn with
  | nil => simp [firedOn]
  | append_singleton moves m ih =>
    obtain ⟨hmoves, _⟩ := throughout_append_singleton.mp h
    intro t ht
    rw [firedOn_append_singleton] at ht
    rcases List.mem_append.mp ht with ht | ht
    · exact (ih hmoves t ht).snoc m
    · obtain ⟨f, hf, rfl⟩ := List.mem_map.mp ht
      exact (origin_of_handle howned hmoves (handle_of_mem_fired (howned.moved moves) hf)).snoc m

/-- While nothing is replaced, the message stays until a timer goes off, and is gone from then on. -/
theorem message_moved {s : Screen} (howned : s.Owned) {moves : List Move}
    (h : s.Throughout NotReplaced moves) :
    (s.moved moves).board.message = if s.firedOn moves = [] then s.board.message else none := by
  induction moves using List.reverseRecOn with
  | nil => rfl
  | append_singleton moves m ih =>
    obtain ⟨hmoves, hm⟩ := throughout_append_singleton.mp h
    rw [moved_append_singleton, message_move (howned.moved moves) hm, ih hmoves,
      firedOn_append_singleton]
    by_cases hfired : (s.moved moves).fired m = []
    · rw [if_pos hfired, hfired, List.map_nil, List.append_nil]
    · rw [if_neg hfired, if_neg]
      intro hnil
      exact hfired (List.map_eq_nil_iff.mp (List.append_eq_nil_iff.mp hnil).2)

/-! ## A message that is put up -/

/-- A message that is put up stays until it is replaced or taken down, or a timer goes off. The timer that
does it was set for a delay since then, or it is that of the help text that was up before. -/
theorem message_put_until {s : Screen} (hreach : s.Reachable) (m : Message) {moves : List Move}
    (h : (s.put m).screen.Throughout NotReplaced moves) :
    ((s.put m).screen.moved moves).board.message
        = (if (s.put m).screen.firedOn moves = [] then some m else none) ∧
      ∀ t ∈ (s.put m).screen.firedOn moves,
        (t.task = .takeDown ∧ ∃ before armed after, moves = before ++ armed :: after ∧
          ((s.put m).screen.moved before).Arms armed t.id) ∨
        (t.task = .endHelp ∧ s.feedback.helpTimer = some t.id) := by
  have howned : (s.put m).screen.Owned := (Reach.owned hreach).put m
  have hboard : (s.put m).screen.board = s.board.put m := board_withBoard s _
  refine ⟨?_, ?_⟩
  · rw [message_moved howned h, hboard]
    rfl
  · intro t ht
    rcases origin_of_firedOn howned h t ht with hheld | harmed
    · cases htask : t.task with
      | takeDown =>
        -- the timer of the message from before was given up
        rw [htask, handle, hboard] at hheld
        cases hheld
      | endHelp =>
        rw [htask, handle, put, feedback_withBoard] at hheld
        exact .inr ⟨rfl, hheld⟩
    · exact .inl harmed

/-- A help text is up, with its timer. -/
def helpUp : Screen :=
  (start .standard {} 0 .phone .nobody).moved [.act (.event (.sensorHelp 1 "Dirty"))]

theorem reachable_helpUp : helpUp.Reachable := Reachable.moved (.start ..) _

/-- The screen after a message has replaced the help text. -/
def helpCovered : Screen :=
  (helpUp.put ⟨some "Look here", .white⟩).screen

theorem message_put_until_helpCovered :
    helpCovered.firedOn [.act (.advance 1300)] = [⟨1300, 0, .endHelp⟩] ∧
      (helpCovered.moved [.act (.advance 1300)]).board.message = none ∧
      helpUp.feedback.helpTimer = some 0 := by
  have hfired : helpCovered.firedOn [.act (.advance 1300)] = [⟨1300, 0, .endHelp⟩] := by
    decide +kernel
  have hkept : helpCovered.Throughout NotReplaced [.act (.advance 1300)] := ⟨rfl, trivial⟩
  obtain ⟨hmessage, horigin⟩ := message_put_until reachable_helpUp _ hkept
  refine ⟨hfired, hmessage.trans (if_neg ?_), ?_⟩
  · show helpCovered.firedOn [.act (.advance 1300)] ≠ []
    rw [hfired]
    exact List.cons_ne_nil _ _
  · rcases horigin ⟨1300, 0, .endHelp⟩ (hfired ▸ List.mem_cons_self) with ⟨htask, _⟩ | ⟨_, hheld⟩
    · cases htask
    · exact hheld

/-- Nobody has asked for the message to be taken down, and yet it does not stay. -/
theorem not_forall_message_stays :
    ¬∀ (s : Screen) (m : Message) (moves : List Move), s.Reachable →
      (s.put m).screen.Throughout NotReplaced moves → (∀ delay, .act (.takeDownAfter delay) ∉ moves) →
        ((s.put m).screen.moved moves).board.message = some m := by
  intro h
  have hstays : (helpCovered.moved [.act (.advance 1300)]).board.message
      = some ⟨some "Look here", .white⟩ :=
    h helpUp _ _ reachable_helpUp ⟨rfl, trivial⟩ (by simp)
  have hgone : (helpCovered.moved [.act (.advance 1300)]).board.message = none := by decide +kernel
  rw [hgone] at hstays
  cases hstays

end LockScreen.Screen
