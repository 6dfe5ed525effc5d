import LockScreen.Proofs.Screen.Ownership
import LockScreen.Proofs.Service.Agreement
import LockScreen.Proofs.Timing.Schedule

/-!
# What is due

Whenever a service has answered a request or time has passed, nothing is due any more (`Settled`): what was due has
gone off, no timer is set where timers go off, and the metronome waits for a moment that is still to come. So to let
no time pass changes nothing (`advance_zero`). The timers of the screen also keep their holders, as they do on a
screen of its own (`Reachable.owned`).
-/

namespace LockScreen

namespace Screen

/-- Whatever else a tick does, it leaves message and timers alone. -/
theorem board_tick (s : Screen) :
    (s.receive .tick).screen.board = s.board ∧
      (s.receive .tick).screen.feedback.helpTimer = s.feedback.helpTimer :=
  board_receive_of_announced?_eq_none rfl

theorem survivesWork_owned : SurvivesWork Owned where
  step _ a _ h := h.step a
  phone _ _ h := h.of_same rfl rfl

end Screen

namespace Service

variable {s : Service}

/-! ## Work that is due -/

theorem board_afterWork (s : Service) (o : Outcome) (w : Warning) :
    (s.afterWork o w).screen.board = o.screen.board ∧
      (s.afterWork o w).screen.feedback = o.screen.feedback := by
  unfold afterWork
  split
  · exact ⟨rfl, rfl⟩
  · exact ⟨rfl, rfl⟩

/-- No timer is set by what is due, and a timer that has had its turn is gone. -/
theorem mem_timers_of_mem_perform {due : Due} {u : Timer Task}
    (h : u ∈ (s.perform due).screen.board.agenda.timers) :
    u ∈ s.screen.board.agenda.timers ∧ ∀ t, due = .timer t → u.id ≠ t.id := by
  cases due with
  | timer t =>
    rw [perform, (s.board_afterWork _ _).1] at h
    obtain ⟨hbefore, hother⟩ := Screen.mem_timers_of_mem_fire h
    refine ⟨hbefore, ?_⟩
    rintro v ⟨⟩
    exact hother
  | tick moment =>
    rw [perform, (s.board_afterWork _ _).1, s.screen.board_tick.1] at h
    refine ⟨h, ?_⟩
    intro t ht
    cases ht

theorem mem_timers_of_mem_foldl_perform {dues : List Due} {u : Timer Task}
    (h : u ∈ (dues.foldl perform s).screen.board.agenda.timers) :
    u ∈ s.screen.board.agenda.timers ∧ ∀ t, .timer t ∈ dues → u.id ≠ t.id := by
  induction dues generalizing s with
  | nil => exact ⟨h, nofun⟩
  | cons due rest ih =>
    obtain ⟨hafter, hrest⟩ := ih h
    obtain ⟨hbefore, hfirst⟩ := mem_timers_of_mem_perform hafter
    refine ⟨hbefore, ?_⟩
    intro t ht
    rcases List.mem_cons.mp ht with heq | ht
    · exact hfirst t heq.symm
    · exact hrest t ht

theorem timer_mem_dueBy {time : Nat} {t : Timer Task} :
    .timer t ∈ s.dueBy time ↔ t ∈ s.screen.board.agenda.dueBy time := by
  unfold dueBy
  rw [List.mem_mergeSort, List.mem_append]
  simp

/-- A timer that is left after time has passed was pending before, and is still to go off. -/
theorem mem_timers_of_mem_advance {millis : Nat} {u : Timer Task}
    (h : u ∈ (s.advance millis).screen.board.agenda.timers) :
    u ∈ s.screen.board.agenda.timers ∧ s.now + millis < u.due := by
  obtain ⟨hbefore, hnone⟩ := mem_timers_of_mem_foldl_perform h
  refine ⟨hbefore, ?_⟩
  by_contra hdue
  have hmem : u ∈ s.screen.board.agenda.dueBy (s.now + millis) :=
    List.mem_filter.mpr ⟨hbefore, decide_eq_true (Nat.le_of_not_lt hdue)⟩
  exact hnone u (timer_mem_dueBy.mpr hmem) rfl

/-! ## Services with nothing due -/

/-- Every timer and the end of the wait are still to come. -/
structure Settled (s : Service) : Prop where
  timers : ∀ t ∈ s.screen.board.agenda.timers, s.now < t.due
  wait : ∀ moment, s.metronome.wait = some (.until moment) → Clock.reach (Clock.atMilli s.now) < moment

end Service

/-- A wait of a second at least is longer than what the clock cannot tell apart. -/
theorem Metronome.resolution_le_of_period? {m : Metronome} {period : Nat}
    (hbetween : m.interval.isBetween 1 3600 = true) (h : m.period? = some period) : Clock.resolution ≤ period := by
  obtain ⟨length, hlength, rfl⟩ := Option.map_eq_some_iff.mp h
  refine Nat.le_trans ?_ (Nat.le_max_right 1 length)
  obtain ⟨units, hunits, hinterval, hlow, _⟩ := Binary64.exists_of_isBetween Nat.one_pos hbetween
  rw [hinterval, Clock.length?, if_neg Bool.false_ne_true, Option.some.injEq] at hlength
  rw [← hlength]
  refine Nat.le_trans ?_ (le_roundDiv _ _)
  rw [Nat.le_div_iff_mul_le Binary64.unitsPerOne_pos, Nat.mul_comm units]
  rw [Nat.one_mul] at hlow
  exact Nat.mul_le_mul (by decide) hlow

/-- A metronome that was started and has had its turn is in the wait that it was in, or its first wait begins. -/
theorem Metronome.wait_turn_start {m : Metronome} {now moment : Nat}
    (h : (m.start.turn now).wait = some (.until moment)) :
    m.wait = some (.until moment) ∨ m.waitFrom now = .until moment := by
  obtain ⟨interval, _ | _ | first | _⟩ := m
  · exact .inr (Option.some.inj h)
  · exact .inr (Option.some.inj h)
  · exact .inl h
  · cases h

/-- A change keeps the interval in its bounds. -/
theorem SettingsStore.isBetween_call {store next : SettingsStore} {change : StoreCall}
    (hbetween : store.settings.tickInterval.isBetween 1 3600 = true) (h : store.call change = .ok next) :
    next.settings.tickInterval.isBetween 1 3600 = true :=
  Settings.isBetween_readTickInterval hbetween (takes_of_call h .tickInterval)

namespace Service

variable {s : Service}

theorem now_advance (s : Service) (millis : Nat) : (s.advance millis).now = s.now + millis :=
  rfl

/-- Where time has passed, nothing is due. -/
theorem settled_advance (s : Service) (millis : Nat) : (s.advance millis).Settled where
  timers t ht := by
    rw [now_advance]
    exact (mem_timers_of_mem_advance ht).2
  wait moment hwait := by
    rw [advance_frame] at hwait
    rw [now_advance]
    exact Metronome.reach_lt_of_runUntil hwait

/-- To let no time pass changes nothing where nothing is due. -/
theorem Settled.advance_zero (h : s.Settled) : s.advance 0 = s := by
  have hticks : s.metronome.runUntil (Clock.atMilli s.now) = ([], s.metronome) :=
    Metronome.runUntil_of_reach_lt h.wait
  have htimers : s.screen.board.agenda.dueBy s.now = [] := by
    refine List.filter_eq_nil_iff.mpr ?_
    intro t ht hdue
    exact absurd (of_decide_eq_true hdue) (Nat.not_le_of_lt (h.timers t ht))
  have hnone : s.dueBy s.now = [] := by
    unfold dueBy
    rw [hticks, htimers]
    exact List.mergeSort_nil
  unfold advance
  simp only [Nat.add_zero, hticks, hnone]
  rfl

/-- The metronome, now and after the next change of its interval, waits for a second at least. -/
structure Slow (s : Service) : Prop where
  metronome : s.metronome.interval.isBetween 1 3600 = true
  store : s.store.settings.tickInterval.isBetween 1 3600 = true

theorem Slow.answer (h : s.Slow) (c : Call) : (s.answer c).1.Slow := by
  cases hchange : c.change? with
  | none =>
    rw [answer_of_change?_eq_none hchange]
    exact ⟨h.metronome, h.store⟩
  | some change =>
    cases hstore : s.store.call change with
    | error fault =>
      rw [answer_of_refused hchange hstore]
      exact h
    | ok store =>
      rw [answer_of_accepted hchange hstore]
      have hnext := SettingsStore.isBetween_call h.store hstore
      refine ⟨?_, hnext⟩
      unfold retimed
      split
      · exact hnext
      · exact h.metronome

theorem Slow.advance (h : s.Slow) (millis : Nat) : (s.advance millis).Slow := by
  rw [advance_frame]
  refine ⟨?_, h.store⟩
  rw [Metronome.interval_runUntil]
  exact h.metronome

theorem Slow.move (h : s.Slow) (m : Move) : (s.move m).Slow := by
  cases m with
  | request asked => exact respond_induct h (fun c => (h.answer c).advance 0) asked
  | advance millis => exact h.advance millis
  | start =>
    refine ⟨?_, h.store⟩
    show (s.metronome.start.turn _).interval.isBetween 1 3600 = true
    rw [Metronome.interval_turn, Metronome.interval_start]
    exact h.metronome
  | stop => exact ⟨h.metronome, h.store⟩

theorem Settled.start (h : s.Settled) (hslow : s.Slow) : s.start.Settled where
  timers := h.timers
  wait moment hwait := by
    show Clock.reach (Clock.atMilli s.now) < moment
    rcases Metronome.wait_turn_start hwait with hbefore | hbegins
    · exact h.wait moment hbefore
    · unfold Metronome.waitFrom at hbegins
      split at hbegins
      · rename_i period hperiod
        cases hbegins
        have hlong := Metronome.resolution_le_of_period? hslow.metronome hperiod
        have hpos : 0 < Clock.resolution := by decide
        unfold Clock.reach
        omega
      · cases hbegins

theorem Settled.stop (h : s.Settled) : s.stop.Settled where
  timers t ht := by
    have hboth : t ∈ ((s.screen.board.agenda.cancel? s.screen.board.takeDownTimer).cancel?
        s.screen.feedback.helpTimer).timers := ht
    have hnow : s.stop.now = s.now := by
      show ((s.screen.board.agenda.cancel? s.screen.board.takeDownTimer).cancel?
        s.screen.feedback.helpTimer).now = s.now
      rw [Agenda.now_cancel?, Agenda.now_cancel?]
      rfl
    rw [hnow]
    exact h.timers t (Agenda.mem_timers_of_mem_cancel? (Agenda.mem_timers_of_mem_cancel? hboth))
  wait moment hwait := nomatch hwait

theorem Settled.move (h : s.Settled) (hslow : s.Slow) (m : Move) : (s.move m).Settled := by
  cases m with
  | request asked => exact respond_induct h (fun c => (s.answer c).1.settled_advance 0) asked
  | advance millis => exact s.settled_advance millis
  | start => exact h.start hslow
  | stop => exact h.stop

theorem slow_ofFile {file : Option FileContent} {phone : Phone} (h : ofFile file phone = .ok s) : s.Slow := by
  have hintime := inTime_ofFile h
  obtain ⟨store, hstore, h⟩ := exists_ok_of_bind h
  obtain ⟨metronome, _, h⟩ := exists_ok_of_bind h
  cases h
  have hstored := (SettingsStore.durable_ofFile hstore).settings.tickInterval
  refine ⟨?_, hstored⟩
  rw [hintime]
  exact hstored

theorem settled_ofFile {file : Option FileContent} {phone : Phone} (h : ofFile file phone = .ok s) : s.Settled := by
  obtain ⟨store, _, h⟩ := exists_ok_of_bind h
  obtain ⟨metronome, hmetronome, h⟩ := exists_ok_of_bind h
  cases h
  rw [Metronome.eq_of_ofInterval hmetronome]
  exact ⟨nofun, nofun⟩

theorem Reachable.slow (h : s.Reachable) : s.Slow := by
  induction h with
  | ofFile hfile => exact slow_ofFile hfile
  | move m _ ih => exact ih.move m

/-- Nothing is due before a request comes or time passes. -/
theorem Reachable.settled (h : s.Reachable) : s.Settled := by
  induction h with
  | ofFile hfile => exact settled_ofFile hfile
  | move m hbefore ih => exact ih.move hbefore.slow m

/-! ## Holders of the timers -/

/-- The screen of the service keeps its timers held. -/
theorem owned_perform (h : s.screen.Owned) {due : Due}
    (hdue : ∀ t, due = .timer t → s.screen.board.agenda.holds t.id = true → t ∈ s.screen.board.agenda.timers) :
    (s.perform due).screen.Owned := by
  have hwork (o : Outcome) (w : Warning) (ho : o.screen.Owned) : (s.afterWork o w).screen.Owned := by
    obtain ⟨hboard, hfeedback⟩ := s.board_afterWork o w
    exact ho.of_same hboard (congrArg Feedback.helpTimer hfeedback)
  cases due with
  | timer t =>
    refine hwork _ .timerFailed ?_
    by_cases hheld : s.screen.board.agenda.holds t.id = true
    · exact h.fire (hdue t rfl hheld)
    · rw [Screen.fire_of_not_holds hheld]
      exact h
  | tick moment => exact hwork _ .tickFailed (h.receive .tick)

theorem owned_foldl_perform (h : s.screen.Owned) {dues : List Due}
    (hdues : ∀ t, .timer t ∈ dues → s.screen.board.agenda.holds t.id = true → t ∈ s.screen.board.agenda.timers) :
    (dues.foldl perform s).screen.Owned := by
  induction dues generalizing s with
  | nil => exact h
  | cons due rest ih =>
    refine ih (owned_perform h ?_) ?_
    · rintro t rfl
      exact hdues t List.mem_cons_self
    · intro t ht
      exact Agenda.HeldBy.mem_timers_of_holds h (fun _ hu => (mem_timers_of_mem_perform hu).1)
        (hdues t (List.mem_cons_of_mem due ht))

theorem owned_advance (h : s.screen.Owned) (millis : Nat) : (s.advance millis).screen.Owned := by
  let running : Service := { s with metronome := (s.metronome.runUntil (Clock.atMilli (s.now + millis))).2 }
  have hran : ((s.dueBy (s.now + millis)).foldl perform running).screen.Owned := by
    have howned : running.screen.Owned := h
    refine owned_foldl_perform howned ?_
    intro t ht _
    have hpending := timer_mem_dueBy.mp ht
    exact Agenda.mem_timers_of_mem_dueBy hpending
  exact hran.setNow (s.now + millis)

theorem owned_answer (h : s.screen.Owned) (c : Call) : (s.answer c).1.screen.Owned :=
  Screen.survivesWork_owned.answer_of_apply (fun _ settings hs => hs.step (.apply settings)) h c

theorem owned_move (h : s.screen.Owned) (m : Move) : (s.move m).screen.Owned := by
  cases m with
  | request asked =>
    exact respond_induct (P := fun u => u.screen.Owned) h (fun c => owned_advance (owned_answer h c) 0) asked
  | advance millis => exact owned_advance h millis
  | start => exact h
  | stop => exact h.step .close

theorem Reachable.owned (h : s.Reachable) : s.screen.Owned := by
  induction h with
  | ofFile hfile =>
    rw [screen_ofFile hfile]
    exact Screen.owned_start ..
  | move m _ ih => exact owned_move ih m

end Service

end LockScreen
