import LockScreen.Proofs.Screen.Pushes

/-!
# Timers that are due at the same time

The timer of the board and the timer of a help text may be due at the same moment, and either may go off first. If a
message is up, the first one takes it down and the line is selected anew; the second is cancelled with the message, or
finds none to take down. A refresh does not look at the timers or at the icon (`refresh_retimed`), so it makes no
difference that one order has put the icon out by then and the other one has not. Without a message the two do not
meet at all.

So where neither of the two stops half-way, both orders leave the same screen, down to the journal
(`BothPending.exists_fireAll`); `order_of_simultaneous_timers` says besides what that screen is like.
-/

namespace LockScreen

namespace Agenda

variable {α : Type}

/-- It does not matter in which order two timers of one moment leave the agenda. -/
theorem fire_fire_comm (a : Agenda α) {t u : Timer α} (h : t.due = u.due) :
    (a.fire t).fire u = (a.fire u).fire t := by
  simp only [fire, cancel, h, List.filter_filter, Bool.and_comm]

/-- A timer that is cancelled when another one goes off might as well have gone off before. -/
theorem cancel_fire (a : Agenda α) (t u : Timer α) : (a.fire u).cancel t.id = (a.fire t).fire u := by
  simp only [fire, cancel, List.filter_filter, Bool.and_comm]

end Agenda

namespace Screen

/-! ## What a refresh does not look at -/

/-- The screen with other timers, and the icon lit or not. -/
def retimed (s : Screen) (agenda : Agenda Task) (helpTimer : Option Nat) (icon : Flag) : Screen :=
  { s with board.agenda := agenda, feedback.helpTimer := helpTimer, phone.lockIconError := icon }

variable (s : Screen) (agenda : Agenda Task) (helpTimer : Option Nat) (icon : Flag)

theorem askUnlocked_retimed :
    (s.retimed agenda helpTimer icon).askUnlocked = s.askUnlocked.retimed agenda helpTimer icon := by
  have hanswer : (s.retimed agenda helpTimer icon).unlockAnswer = s.unlockAnswer := rfl
  unfold askUnlocked
  rw [hanswer]
  cases s.unlockAnswer with
  | gives v => rfl
  | fails text => rfl

/-- A refresh is the same whatever the timers are and whether or not the icon is lit. -/
theorem refresh_retimed :
    (s.retimed agenda helpTimer icon).refresh
      = ⟨s.refresh.screen.retimed agenda helpTimer icon, s.refresh.fault⟩ := by
  unfold refresh
  rw [askUnlocked_retimed]
  generalize s.askUnlocked = asked
  -- the line is selected from the situation, and neither timers nor icon belong to it
  have hline : (asked.retimed agenda helpTimer icon).situation.line
        (asked.retimed agenda helpTimer icon).settings.phrases (asked.retimed agenda helpTimer icon).estimateAnswer
        (asked.retimed agenda helpTimer icon).journal
      = asked.situation.line asked.settings.phrases asked.estimateAnswer asked.journal := rfl
  simp only [hline]
  cases (asked.situation.line asked.settings.phrases asked.estimateAnswer asked.journal).1 with
  | error fault => rfl
  | ok line =>
    cases line with
    | none => rfl
    | some line => rfl

/-! ## One timer -/

/-- The screen without the message that was up and without the timer of the board, before it is refreshed. -/
def cleared (s : Screen) : Screen :=
  { s with board := { s.board with message := none, takeDownTimer := none, changes := s.board.changes + 1 } }

variable {s : Screen} {t u : Timer Task}

/-- A timer that finds a message takes it down, whichever of the two it is. -/
theorem fire_takeDown_of_isSome (ht : t ∈ s.board.agenda.timers) (htask : t.task = .takeDown)
    (hup : s.board.message.isSome = true) :
    s.fire t = (s.cleared.retimed (s.board.agenda.fire t) s.feedback.helpTimer s.phone.lockIconError).refresh := by
  have hexpire : MessageBoard.expire { s.board with agenda := s.board.agenda.fire t }
      = { s.board with
          agenda := s.board.agenda.fire t, message := none, takeDownTimer := none
          changes := s.board.changes + 1 } := if_pos hup
  rw [fire_of_takeDown ht htask, hexpire]
  exact if_neg (Nat.succ_ne_self _)

theorem fire_endHelp_of_isSome (hu : u ∈ s.board.agenda.timers) (hutask : u.task = .endHelp)
    (hup : s.board.message.isSome = true) :
    s.fire u = (s.cleared.retimed ((s.board.agenda.fire u).cancel? s.board.takeDownTimer) none false).refresh := by
  have htakeDown : MessageBoard.takeDown { s.board with agenda := s.board.agenda.fire u }
      = { s.board with
          agenda := (s.board.agenda.fire u).cancel? s.board.takeDownTimer, message := none, takeDownTimer := none
          changes := s.board.changes + 1 } := if_pos hup
  rw [fire_of_endHelp hu hutask, takeDown]
  show withBoard _ (MessageBoard.takeDown { s.board with agenda := s.board.agenda.fire u }) = _
  rw [htakeDown]
  exact if_neg (Nat.succ_ne_self _)

/-- A timer that finds no message does nothing but go off. -/
theorem fire_takeDown_of_none (ht : t ∈ s.board.agenda.timers) (htask : t.task = .takeDown)
    (hnone : s.board.message = none) :
    s.fire t = done { s with board := { s.board with agenda := s.board.agenda.fire t, takeDownTimer := none } } := by
  have hdown : ¬s.board.message.isSome = true := by simp [hnone]
  have hexpire : MessageBoard.expire { s.board with agenda := s.board.agenda.fire t }
      = { s.board with agenda := s.board.agenda.fire t, takeDownTimer := none } := if_neg hdown
  rw [fire_of_takeDown ht htask, hexpire]
  exact if_pos rfl

theorem fire_endHelp_of_none (hu : u ∈ s.board.agenda.timers) (hutask : u.task = .endHelp)
    (hnone : s.board.message = none) : s.fire u = (s.retimed (s.board.agenda.fire u) none false).done := by
  have hdown : ¬s.board.message.isSome = true := by simp [hnone]
  have htakeDown : MessageBoard.takeDown { s.board with agenda := s.board.agenda.fire u }
      = { s.board with agenda := s.board.agenda.fire u } := if_neg hdown
  rw [fire_of_endHelp hu hutask, takeDown]
  show withBoard _ (MessageBoard.takeDown { s.board with agenda := s.board.agenda.fire u }) = _
  rw [htakeDown]
  exact if_pos rfl

/-! ## Both timers -/

/-- Two timers go off one after the other if the first one does all it has to. -/
theorem fireAll_pair (t u : Timer Task) :
    s.fireAll [t, u] = (s.fire t).andThen fun s => s.fire u := by
  have hlast : ∀ s : Screen, (s.fire u).andThen Screen.done = s.fire u := by
    intro s
    obtain ⟨screen, fault⟩ := s.fire u
    cases fault with
    | none => rfl
    | some fault => rfl
  unfold fireAll
  exact congrArg _ (funext hlast)

/-- Two pending timers of the two tasks. -/
structure BothPending (s : Screen) (t u : Timer Task) : Prop where
  owned : s.Owned
  takeDown : t ∈ s.board.agenda.timers
  endHelp : u ∈ s.board.agenda.timers
  takeDown_task : t.task = .takeDown
  endHelp_task : u.task = .endHelp

namespace BothPending

theorem id_ne (h : s.BothPending t u) : t.id ≠ u.id := by
  intro hid
  have hsame := Agenda.HeldBy.eq_of_id h.owned h.takeDown h.endHelp hid
  have htask := h.takeDown_task
  rw [hsame, h.endHelp_task] at htask
  cases htask

/-- With a message up, either order comes to one refresh without it. -/
theorem fireAll_of_isSome (h : s.BothPending t u) (hup : s.board.message.isSome = true)
    (hfault : s.cleared.refresh.fault = none) :
    s.fireAll [t, u] = (s.cleared.refresh.screen.retimed ((s.board.agenda.fire t).fire u) none false).done ∧
      s.fireAll [u, t] = (s.cleared.refresh.screen.retimed ((s.board.agenda.fire t).fire u) none false).done := by
  have hcleared : s.cleared.refresh.screen.board.message = none := by
    rw [board_refresh]
    rfl
  have htakeDown : s.fire t = (s.cleared.refresh.screen.retimed (s.board.agenda.fire t) s.feedback.helpTimer
      s.phone.lockIconError).done := by
    rw [fire_takeDown_of_isSome h.takeDown h.takeDown_task hup, refresh_retimed, hfault]
    rfl
  have hendHelp : s.fire u = (s.cleared.refresh.screen.retimed
      ((s.board.agenda.fire u).cancel? s.board.takeDownTimer) none false).done := by
    rw [fire_endHelp_of_isSome h.endHelp h.endHelp_task hup, refresh_retimed, hfault]
    rfl
  rw [fireAll_pair, fireAll_pair, htakeDown, hendHelp, Outcome.andThen_of_fault_eq_none rfl,
    Outcome.andThen_of_fault_eq_none rfl]
  constructor
  · -- the timer of the help text goes off and finds no message
    have hpending : u ∈ (s.board.agenda.fire t).timers := Agenda.mem_timers_cancel.mpr ⟨h.endHelp, h.id_ne.symm⟩
    exact fire_endHelp_of_none hpending h.endHelp_task hcleared
  · -- the timer of the board was cancelled with the message
    have hheld : s.board.takeDownTimer = some t.id := by
      have hhandle := Agenda.HeldBy.held h.owned t h.takeDown
      rw [h.takeDown_task] at hhandle
      exact hhandle
    have hcancel : (s.board.agenda.fire u).cancel? s.board.takeDownTimer = (s.board.agenda.fire u).cancel t.id := by
      rw [hheld]
      rfl
    have hgone : ¬((s.board.agenda.fire u).cancel t.id).holds t.id = true := by
      simp [Agenda.holds, Agenda.cancel]
    rw [hcancel, ← Agenda.cancel_fire]
    exact fire_of_not_holds hgone

/-- Without a message the two timers only go off. -/
theorem fireAll_of_none (h : s.BothPending t u) (hnone : s.board.message = none) :
    s.fireAll [t, u]
        = done (retimed { s with board := { s.board with takeDownTimer := none } }
            ((s.board.agenda.fire t).fire u) none false) ∧
      s.fireAll [u, t]
        = done (retimed { s with board := { s.board with takeDownTimer := none } }
            ((s.board.agenda.fire u).fire t) none false) := by
  rw [fireAll_pair, fireAll_pair, fire_takeDown_of_none h.takeDown h.takeDown_task hnone,
    fire_endHelp_of_none h.endHelp h.endHelp_task hnone, Outcome.andThen_of_fault_eq_none rfl,
    Outcome.andThen_of_fault_eq_none rfl]
  constructor
  · have hpending : u ∈ (s.board.agenda.fire t).timers := Agenda.mem_timers_cancel.mpr ⟨h.endHelp, h.id_ne.symm⟩
    exact fire_endHelp_of_none hpending h.endHelp_task hnone
  · have hpending : t ∈ (s.board.agenda.fire u).timers := Agenda.mem_timers_cancel.mpr ⟨h.takeDown, h.id_ne⟩
    exact fire_takeDown_of_none hpending h.takeDown_task hnone

/-- Whichever goes off first, both orders leave the same. -/
theorem exists_fireAll (h : s.BothPending t u) (hdue : t.due = u.due)
    (hfault : (s.fireAll [t, u]).fault = none ∨ (s.fireAll [u, t]).fault = none) :
    ∃ v : Screen, v.board.message = none ∧
      s.fireAll [t, u] = (v.retimed ((s.board.agenda.fire t).fire u) none false).done ∧
      s.fireAll [u, t] = (v.retimed ((s.board.agenda.fire t).fire u) none false).done := by
  cases hmessage : s.board.message with
  | none =>
    -- the clock shows the time that both were due at, whichever was the last
    obtain ⟨hfirst, hsecond⟩ := h.fireAll_of_none hmessage
    rw [← Agenda.fire_fire_comm s.board.agenda hdue] at hsecond
    exact ⟨{ s with board := { s.board with takeDownTimer := none } }, hmessage, hfirst, hsecond⟩
  | some m =>
    have hup : s.board.message.isSome = true := by rw [hmessage, Option.isSome_some]
    -- the first timer makes the one refresh that there is
    have hrefresh : s.cleared.refresh.fault = none := by
      rcases hfault with hfault | hfault
      · rw [fireAll_pair] at hfault
        have hfirst := (Outcome.fault_eq_none_of_andThen hfault).1
        rw [fire_takeDown_of_isSome h.takeDown h.takeDown_task hup, refresh_retimed] at hfirst
        exact hfirst
      · rw [fireAll_pair] at hfault
        have hfirst := (Outcome.fault_eq_none_of_andThen hfault).1
        rw [fire_endHelp_of_isSome h.endHelp h.endHelp_task hup, refresh_retimed] at hfirst
        exact hfirst
    have hgone : s.cleared.refresh.screen.board.message = none := by
      rw [board_refresh]
      rfl
    exact ⟨_, hgone, h.fireAll_of_isSome hup hrefresh⟩

/-- There are no others. -/
theorem timers_fire_fire (h : s.BothPending t u) : ((s.board.agenda.fire t).fire u).timers = [] := by
  refine List.eq_nil_iff_forall_not_mem.mpr ?_
  intro v hv
  obtain ⟨hleft, hsecond⟩ := Agenda.mem_timers_cancel.mp hv
  obtain ⟨hpending, hfirst⟩ := Agenda.mem_timers_cancel.mp hleft
  cases htask : v.task with
  | takeDown =>
    have hsame := Agenda.HeldBy.eq_of_task h.owned hpending h.takeDown (htask.trans h.takeDown_task.symm)
    exact hfirst (congrArg Timer.id hsame)
  | endHelp =>
    have hsame := Agenda.HeldBy.eq_of_task h.owned hpending h.endHelp (htask.trans h.endHelp_task.symm)
    exact hsecond (congrArg Timer.id hsame)

end BothPending

/-- On every reachable screen on which both timers are pending for the same moment it does not matter which one goes
off first, where neither order fails: both leave the same screen, with no message up, no timer pending, the icon out
and the display updated once at most. -/
theorem order_of_simultaneous_timers (hreach : s.Reachable) (ht : t ∈ s.board.agenda.timers)
    (hu : u ∈ s.board.agenda.timers) (htask : t.task = .takeDown) (hutask : u.task = .endHelp) (hdue : t.due = u.due)
    (hfault : (s.fireAll [t, u]).fault = none ∨ (s.fireAll [u, t]).fault = none) :
    s.fireAll [t, u] = s.fireAll [u, t] ∧ (s.fireAll [t, u]).fault = none ∧
      (s.fireAll [t, u]).screen.board.message = none ∧
      (s.fireAll [t, u]).screen.board.agenda.timers = [] ∧
      (s.fireAll [t, u]).screen.phone.lockIconError.isUp = false ∧
      (s.fireAll [t, u]).screen.display.updates ≤ s.display.updates + 1 := by
  have hboth : s.BothPending t u := ⟨Reach.owned hreach, ht, hu, htask, hutask⟩
  have hupdates := (s.pushesOnce_fireAll [t, u]).updates.2.1
  obtain ⟨v, hmessage, hfirst, hsecond⟩ := hboth.exists_fireAll hdue hfault
  rw [hfirst] at hupdates ⊢
  exact ⟨hsecond.symm, rfl, hmessage, hboth.timers_fire_fire, rfl, hupdates⟩

/-- A help text on a visible screen that is to be taken down when its time is over. -/
def helpTakenDownInTime : Screen :=
  (start .standard {} 0 .phone .nobody).moved
    [.act (.setVisible true), .act (.event (.sensorHelp 1 "Dirty")), .act (.takeDownAfter (.int 1300))]

theorem order_of_simultaneous_timers_helpTakenDownInTime :
    helpTakenDownInTime.fireAll [⟨1300, 1, .takeDown⟩, ⟨1300, 0, .endHelp⟩]
        = helpTakenDownInTime.fireAll [⟨1300, 0, .endHelp⟩, ⟨1300, 1, .takeDown⟩] ∧
      (helpTakenDownInTime.fireAll [⟨1300, 1, .takeDown⟩, ⟨1300, 0, .endHelp⟩]).screen.display.updates
        ≤ helpTakenDownInTime.display.updates + 1 := by
  have hreach : helpTakenDownInTime.Reachable := Reachable.moved (.start ..) _
  have ht : ⟨1300, 1, .takeDown⟩ ∈ helpTakenDownInTime.board.agenda.timers := by decide +kernel
  have hu : ⟨1300, 0, .endHelp⟩ ∈ helpTakenDownInTime.board.agenda.timers := by decide +kernel
  have hfault : (helpTakenDownInTime.fireAll [⟨1300, 1, .takeDown⟩, ⟨1300, 0, .endHelp⟩]).fault = none := by
    decide +kernel
  obtain ⟨hsame, _, _, _, _, hupdates⟩ := order_of_simultaneous_timers hreach ht hu rfl rfl rfl (.inl hfault)
  exact ⟨hsame, hupdates⟩

end Screen

end LockScreen
