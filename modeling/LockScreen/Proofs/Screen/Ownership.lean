import LockScreen.Proofs.Screen.Feedback
import Mathlib.Data.List.Perm.Subperm

/-!
# Who holds the timers

Two timers may be pending on the agenda of a screen: the board holds the one that takes the message down,
and the feedback holds the one that ends a help text. `Owned` says that the numbers the two hold are those of
the pending timers. Every part of every operation preserves it, so it also holds where an operation stops
half-way, and while the clock runs from timer to timer (`Fires`).

`TimersHeld` collects what follows, and it holds on every reachable screen.
-/

namespace LockScreen.Screen

variable {τ : Type}

/-- The number that is held of the timer of a task. -/
def handle (s : Screen τ) : Task → Option Nat
  | .takeDown => s.board.takeDownTimer
  | .endHelp => s.feedback.helpTimer

/-- The timers of the agenda are held by the board and the feedback. -/
def Owned (s : Screen τ) : Prop :=
  s.board.agenda.HeldBy s.handle

theorem owned_start (settings : Settings) (phone : Phone) (user : Int) (unlock : UnlockSource)
    (estimate : EstimateSource) : (start settings phone user unlock estimate).Owned :=
  Agenda.heldBy_nil 0 fun task => by cases task <;> rfl

/-- The numbers may be given in another form. -/
theorem owned_of_heldBy {s : Screen τ} {handle : Task → Option Nat}
    (h : s.board.agenda.HeldBy handle) (hhandle : ∀ task, s.handle task = handle task) :
    s.Owned := by
  rw [← funext hhandle] at h
  exact h

/-! ## Operations on the timers -/

namespace Owned

variable {s : Screen τ}

/-- Only the agenda and the numbers that are held count. -/
theorem of_same {u : Screen τ} (h : s.Owned) (hboard : u.board = s.board)
    (hhelp : u.feedback.helpTimer = s.feedback.helpTimer) : u.Owned := by
  have hheld : u.board.agenda.HeldBy s.handle := by
    rw [hboard]
    exact h
  refine owned_of_heldBy hheld ?_
  intro task
  cases task with
  | takeDown => simp only [handle, hboard]
  | endHelp => exact hhelp

/-- The board gives up its timer. -/
theorem cancelTakeDown (h : s.Owned) : Owned { s with board := s.board.cancelTakeDown } := by
  refine owned_of_heldBy (h.cancel? Task.takeDown) ?_
  intro task
  cases task <;> rfl

/-- The board sets its timer. -/
theorem takeDownAt [LE τ] [DecidableLE τ] (h : s.Owned) (due : τ) :
    Owned { s with board := s.board.takeDownAt due } := by
  refine owned_of_heldBy (h.cancelTakeDown.armAt .takeDown rfl due) ?_
  intro task
  cases task <;> rfl

/-- The feedback gives up its timer. -/
theorem cancelHelp (h : s.Owned) : s.cancelHelp.Owned := by
  refine owned_of_heldBy (h.cancel? Task.endHelp) ?_
  intro task
  cases task <;> rfl

/-- The feedback sets its timer. -/
theorem endHelpIn [LE τ] [DecidableLE τ] [HAdd τ Nat τ] (h : s.Owned) (millis : Nat) : (s.endHelpIn millis).Owned := by
  refine owned_of_heldBy (h.cancelHelp.armAt .endHelp rfl _) ?_
  intro task
  cases task <;> rfl

theorem withBoard {board : MessageBoard τ} (h : Owned { s with board }) :
    (s.withBoard board).screen.Owned :=
  h.of_same (board_withBoard s board) (by rw [feedback_withBoard])

theorem put (h : s.Owned) (m : Message) : (s.put m).screen.Owned :=
  Owned.withBoard h.cancelTakeDown

theorem takeDown (h : s.Owned) : s.takeDown.screen.Owned := by
  refine Owned.withBoard ?_
  unfold MessageBoard.takeDown
  split
  · exact h.cancelTakeDown
  · exact h

theorem takeDownAfter [LE τ] [DecidableLE τ] [Timescale τ] (h : s.Owned) (delay : Value) :
    (s.takeDownAfter delay).screen.Owned := by
  show Owned { s with board := (s.board.takeDownAfter delay).1 }
  rcases board_takeDownAfter_cases s.board delay with hboard | ⟨due, hboard⟩ | hboard
  · rw [hboard]
    exact h
  · rw [hboard]
    exact h.takeDownAt due
  · rw [hboard]
    exact h.cancelTakeDown

theorem announceError [LE τ] [DecidableLE τ] [HAdd τ Nat τ] (h : s.Owned) (text : Text) :
    (s.announceError text).screen.Owned := by
  refine Outcome.alter_induct ?_ fun u hu => hu.takeDownAt _
  split
  · exact (h.cancelHelp.of_same rfl rfl : (s.cancelHelp.setIcon false).Owned).put _
  · exact h.put _

theorem receive [LE τ] [DecidableLE τ] [HAdd τ Nat τ] (h : s.Owned) (e : Event) : (s.receive e).screen.Owned := by
  refine receive_induct (P := fun o => o.screen.Owned) e ?_ ?_ ?_ ?_ ?_
  · rintro u ⟨_, _, _, rfl⟩
    exact h.of_same rfl rfl
  · intro charging _
    exact h.of_same (board_refresh _) (by rw [feedback_refresh])
  · intro fault
    exact h
  · intro text note hnote
    refine Outcome.alter_induct (h.announceError text) ?_
    intro u hu
    obtain ⟨_, _, heq⟩ := hnote u
    rw [heq]
    exact hu.of_same rfl rfl
  · intro text
    refine Outcome.alter_induct ?_ fun u hu => (hu.endHelpIn _).of_same rfl rfl
    exact (h.of_same rfl rfl : (s.setIcon true).Owned).put _

/-- A timer that goes off is given up by the one who held it. -/
theorem fire {t : Timer Task τ} (h : s.Owned) (ht : t ∈ s.board.agenda.timers) :
    (s.fire t).screen.Owned := by
  have hfired := Agenda.HeldBy.fire h ht
  cases htask : t.task with
  | takeDown =>
    rw [fire_of_takeDown ht htask]
    have hexpired : (MessageBoard.expire { s.board with agenda := s.board.agenda.fire t }).agenda.HeldBy
        (Function.update s.handle .takeDown none) := by
      rw [agenda_expire, ← htask]
      exact hfired
    refine Owned.withBoard (owned_of_heldBy hexpired ?_)
    intro task
    cases task with
    | takeDown => exact takeDownTimer_expire _
    | endHelp => rfl
  | endHelp =>
    rw [htask] at hfired
    rw [fire_of_endHelp ht htask]
    refine Owned.takeDown (owned_of_heldBy hfired ?_)
    intro task
    cases task <;> rfl

/-- The clock has no part in it. -/
theorem setNow (h : s.Owned) (time : τ) :
    Owned { s with board.agenda := s.board.agenda.setNow time } :=
  owned_of_heldBy (Agenda.HeldBy.setNow h time) fun task => by cases task <;> rfl

end Owned

/-! ## Timers that go off one after the other -/

/-- Pending timers go off one after the other, up to the first that fails: the screens that they find, and
what the last one leaves. -/
inductive Fires : Screen → List (Screen × Timer Task) → Outcome → Prop
  | nil (s : Screen) : Fires s [] s.done
  | last {s : Screen} {t : Timer Task} :
    t ∈ s.board.agenda.timers → (s.fire t).fault ≠ none → Fires s [(s, t)] (s.fire t)
  | cons {s : Screen} {t : Timer Task} {rest : List (Screen × Timer Task)} {o : Outcome} :
    t ∈ s.board.agenda.timers → (s.fire t).fault = none → Fires (s.fire t).screen rest o →
      Fires s ((s, t) :: rest) o

/-- Timers that were pending together go off one after the other; one that was cancelled meanwhile does not. -/
theorem fires_fireAll {s : Screen} (h : s.Owned) {ts : List (Timer Task)}
    (hts : ∀ t ∈ ts, s.board.agenda.holds t.id = true → t ∈ s.board.agenda.timers) :
    Fires s (s.firings ts) (s.fireAll ts) := by
  induction ts generalizing s with
  | nil => exact .nil s
  | cons t rest ih =>
    unfold firings fireAll
    by_cases hheld : s.board.agenda.holds t.id = true
    · rw [if_pos hheld]
      have ht := hts t List.mem_cons_self hheld
      cases hfault : (s.fire t).fault with
      | some fault =>
        rw [if_neg (Option.some_ne_none fault), Outcome.andThen_of_fault_ne_none (by simp [hfault])]
        exact .last ht (by simp [hfault])
      | none =>
        rw [if_pos rfl, Outcome.andThen_of_fault_eq_none hfault]
        refine .cons ht hfault (ih (h.fire ht) ?_)
        intro u hu
        exact Agenda.HeldBy.mem_timers_of_holds h (fun _ hw => (mem_timers_of_mem_fire hw).1)
          (hts u (List.mem_cons_of_mem t hu))
    · rw [if_neg hheld, fire_of_not_holds hheld]
      exact ih h fun u hu => hts u (List.mem_cons_of_mem t hu)

/-- What goes off while the clock runs. -/
theorem fires_advance {s : Screen} (h : s.Owned) (millis : Nat) :
    Fires s (s.fired (.act (.advance millis)))
      (s.fireAll (s.board.agenda.dueBy (s.board.agenda.now + millis))) :=
  fires_fireAll h fun _ ht _ => Agenda.mem_timers_of_mem_dueBy ht

/-- One timer that goes off is a row of timers that go off. -/
theorem fires_fire {s : Screen} {t : Timer Task} (ht : t ∈ s.board.agenda.timers) :
    ∃ o, Fires s [(s, t)] o ∧ o.screen = (s.fire t).screen := by
  by_cases hfault : (s.fire t).fault = none
  · exact ⟨_, .cons ht hfault (.nil _), rfl⟩
  · exact ⟨_, .last ht hfault, rfl⟩

/-- Whatever goes off in a move is a row of pending timers. -/
theorem exists_fires {s : Screen} (h : s.Owned) (m : Move) : ∃ o, Fires s (s.fired m) o := by
  cases m with
  | act a =>
    cases a with
    | advance millis => exact ⟨_, fires_advance h millis⟩
    | _ => exact ⟨_, .nil s⟩
  | fire id =>
    cases ht : s.timer? id with
    | some t =>
      obtain ⟨o, hfires, _⟩ := fires_fire (timer?_eq_some ht).1
      simp only [fired, ht]
      exact ⟨o, hfires⟩
    | none =>
      simp only [fired, ht]
      exact ⟨_, .nil s⟩

theorem Fires.owned {s : Screen} {fired : List (Screen × Timer Task)} {o : Outcome}
    (h : Fires s fired o) (hs : s.Owned) :
    o.screen.Owned ∧ ∀ f ∈ fired, f.1.Owned ∧ f.2 ∈ f.1.board.agenda.timers := by
  induction h with
  | nil s => exact ⟨hs, by simp⟩
  | last ht _ =>
    refine ⟨hs.fire ht, ?_⟩
    intro f hf
    rw [List.mem_singleton.mp hf]
    exact ⟨hs, ht⟩
  | cons ht _ _ ih =>
    obtain ⟨hlast, hrest⟩ := ih (hs.fire ht)
    refine ⟨hlast, ?_⟩
    intro f hf
    rcases List.mem_cons.mp hf with rfl | hf
    · exact ⟨hs, ht⟩
    · exact hrest f hf

/-! ## Every reachable screen -/

theorem Owned.act_of_quiet [LE τ] [DecidableLE τ] [HAdd τ Nat τ] [Timescale τ] {s : Screen τ} {a : Action} (h : s.Owned)
    (hquiet : s.quiet a = true) : (s.act a).screen.Owned := by
  obtain ⟨hboard, hhelp⟩ := board_act_of_quiet hquiet
  exact h.of_same hboard hhelp

theorem Owned.act [LE τ] [DecidableLE τ] [HAdd τ Nat τ] [Timescale τ] {s : Screen τ} (h : s.Owned) (a : Action) :
    (s.act a).screen.Owned := by
  cases a with
  | put m => exact h.put m
  | takeDown => exact h.takeDown
  | takeDownAfter delay => exact h.takeDownAfter delay
  | event e => exact h.receive e
  | close => exact h.cancelTakeDown.cancelHelp
  | setVisible | rest | apply | applyPayload | look | advance | phone | unlockSource | estimateSource =>
    exact h.act_of_quiet rfl

theorem Owned.step {s : Screen} (h : s.Owned) (a : Action) : (s.step a).screen.Owned := by
  cases a with
  | advance millis =>
    exact Outcome.alter_induct ((fires_advance h millis).owned h).1 fun u hu => hu.setNow _
  | _ => exact h.act _

theorem Owned.move {s : Screen} (h : s.Owned) (m : Move) : (s.move m).screen.Owned := by
  cases m with
  | act a => exact h.step a
  | fire id =>
    cases ht : s.timer? id with
    | some t =>
      rw [move_fire_of_timer? ht]
      exact h.fire (timer?_eq_some ht).1
    | none =>
      rw [move_fire_of_timer?_eq_none ht]
      exact h

theorem Owned.moved {s : Screen} (h : s.Owned) (moves : List Move) : (s.moved moves).Owned := by
  induction moves generalizing s with
  | nil => exact h
  | cons m rest ih => exact ih (h.move m)

theorem Reach.owned {allowed : Screen → Move → Prop} {s : Screen} (h : Reach allowed s) :
    s.Owned := by
  induction h with
  | start settings phone user unlock estimate => exact owned_start ..
  | move m _ _ ih => exact ih.move m

/-- Whatever goes off in a move is pending when its turn comes. -/
theorem Owned.fired {s : Screen} (h : s.Owned) (m : Move) :
    ∀ f ∈ s.fired m, f.1.Owned ∧ f.2 ∈ f.1.board.agenda.timers := by
  obtain ⟨o, hfires⟩ := exists_fires h m
  exact (hfires.owned h).2

/-- The pending timers are those that the board and the feedback hold. -/
structure TimersHeld (s : Screen) : Prop where
  /-- A timer of a task is pending under a number exactly if the number is held for the task. -/
  pending_iff : ∀ task id,
    (∃ t ∈ s.board.agenda.timers, t.task = task ∧ t.id = id) ↔ s.handle task = some id
  nodup_id : (s.board.agenda.timers.map (·.id)).Nodup
  nodup_task : (s.board.agenda.timers.map (·.task)).Nodup
  length_le : s.board.agenda.timers.length ≤ 2
  /-- The board holds a number exactly while a timer that takes the message down is pending. -/
  takeDown_iff : s.board.takeDownTimer.isSome = true ↔
    ∃ t ∈ s.board.agenda.timers, t.task = .takeDown
  /-- A timer that goes off, in whatever move, is held when its turn comes. -/
  fired_held : ∀ m, ∀ f ∈ s.fired m, f.1.handle f.2.task = some f.2.id
  /-- Where both are given up, none is pending. -/
  close : (s.step .close).screen.board.agenda.timers = []

/-- A list of tasks without repetition has at most two. -/
theorem length_le_two_of_nodup {tasks : List Task} (h : tasks.Nodup) : tasks.length ≤ 2 := by
  have hsub : tasks ⊆ [.takeDown, .endHelp] := by
    intro task _
    cases task <;> simp
  exact (List.subperm_of_subset h hsub).length_le

/-- On every reachable screen, also after operations that stopped half-way, the pending timers are exactly
the one that the board holds and the one that the feedback holds. -/
theorem timersHeld_of_reachable {s : Screen} (h : s.Reachable) : s.TimersHeld := by
  have howned : s.board.agenda.HeldBy s.handle := Reach.owned h
  refine ⟨?_, howned.distinct, howned.nodup_task, ?_, howned.isSome_iff .takeDown, ?_, ?_⟩
  · intro task id
    constructor
    · rintro ⟨t, ht, rfl, rfl⟩
      exact howned.held t ht
    · intro hid
      obtain ⟨t, ht, hidt, htask⟩ := howned.pending task id hid
      exact ⟨t, ht, htask, hidt⟩
  · have hlength := length_le_two_of_nodup howned.nodup_task
    rwa [List.length_map] at hlength
  · intro m f hf
    obtain ⟨hheld, hpending⟩ := Owned.fired howned m f hf
    exact hheld.held f.2 hpending
  · have hclosed := Owned.step howned .close
    refine Agenda.HeldBy.timers_eq_nil hclosed ?_
    intro task
    cases task <;> rfl

/-- A help text that is to be taken down before its own time is over. -/
def helpTakenDownEarly : Screen :=
  (start .standard {} 0 .phone .nobody).moved
    [.act (.event (.sensorHelp 1 "Dirty")), .act (.takeDownAfter (.int 700))]

theorem timersHeld_helpTakenDownEarly :
    helpTakenDownEarly.Reachable ∧ helpTakenDownEarly.board.agenda.remaining = [700, 1300] ∧
      helpTakenDownEarly.TimersHeld := by
  have hreach : helpTakenDownEarly.Reachable := Reachable.moved (.start ..) _
  exact ⟨hreach, by decide +kernel, timersHeld_of_reachable hreach⟩

end LockScreen.Screen
