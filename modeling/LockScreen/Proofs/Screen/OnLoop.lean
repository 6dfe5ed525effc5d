import LockScreen.Proofs.Screen.TakeDown
import LockScreen.Proofs.Timing.Alarms

/-!
# A screen on an event loop

A screen has its timers on an agenda of its own. On an event loop it makes calls instead, and the loop keeps alarms
(`Screen.OnLoop`). Whatever is done to a screen comes to its agenda as a row of calls (`Screen.leadsTo_act`), so
there are such alarms after it, and they keep the agenda of the screen through all that happens
(`Screen.OnLoop.keeps`): an alarm that goes off is a timer of the screen, and the alarms that may still go off are those
that it holds (`Screen.OnLoop.pending_iff`).

So a delay that is accepted leaves one alarm that takes the message down, and one that leads nowhere leaves none
(`Screen.AnswersOnLoop`).
-/

namespace LockScreen

variable {τ : Type}

namespace Agenda

variable [LE τ] [DecidableLE τ] {α : Type} {g last : Agenda α τ}

/-- Calls lead from an agenda to another one. -/
def LeadsTo (g last : Agenda α τ) : Prop :=
  ∃ calls : List (Call α τ), last = calls.foldl make g

theorem leadsTo_self (g : Agenda α τ) : g.LeadsTo g :=
  ⟨[], rfl⟩

theorem LeadsTo.armAt (h : g.LeadsTo last) (due : τ) (task : α) : g.LeadsTo (last.armAt due task) := by
  obtain ⟨calls, rfl⟩ := h
  exact ⟨calls ++ [.armAt due task], by rw [List.foldl_append]; rfl⟩

theorem LeadsTo.cancel? (h : g.LeadsTo last) (id : Option Nat) : g.LeadsTo (last.cancel? id) := by
  cases id with
  | none => exact h
  | some id =>
    obtain ⟨calls, rfl⟩ := h
    exact ⟨calls ++ [.cancel id], by rw [List.foldl_append]; rfl⟩

end Agenda

namespace Screen

/-! ## What the screen calls for -/

section
variable [LE τ] [DecidableLE τ] {g : Agenda Task τ} {s : Screen τ}

theorem leadsTo_withBoard {board : MessageBoard τ} (h : g.LeadsTo board.agenda) :
    g.LeadsTo (s.withBoard board).screen.board.agenda := by
  rw [board_withBoard]
  exact h

theorem leadsTo_put (h : g.LeadsTo s.board.agenda) (m : Message) : g.LeadsTo (s.put m).screen.board.agenda :=
  leadsTo_withBoard (h.cancel? _)

theorem leadsTo_takeDown (h : g.LeadsTo s.board.agenda) : g.LeadsTo s.takeDown.screen.board.agenda := by
  refine leadsTo_withBoard ?_
  unfold MessageBoard.takeDown
  split
  · exact h.cancel? _
  · exact h

theorem leadsTo_takeDownAfter [Timescale τ] (s : Screen τ) (delay : Value) :
    s.board.agenda.LeadsTo (s.takeDownAfter delay).screen.board.agenda := by
  have hself := Agenda.leadsTo_self s.board.agenda
  show s.board.agenda.LeadsTo (s.board.takeDownAfter delay).1.agenda
  rcases board_takeDownAfter_cases s.board delay with hboard | ⟨due, hboard⟩ | hboard
  · rw [hboard]
    exact hself
  · rw [hboard]
    exact (hself.cancel? _).armAt due .takeDown
  · rw [hboard]
    exact hself.cancel? _

theorem leadsTo_announceError [HAdd τ Nat τ] (s : Screen τ) (text : Text) :
    s.board.agenda.LeadsTo (s.announceError text).screen.board.agenda := by
  refine Outcome.alter_induct (P := fun u => s.board.agenda.LeadsTo u.board.agenda) ?_
    fun u hu => (hu.cancel? _).armAt _ _
  split
  · exact leadsTo_put ((Agenda.leadsTo_self _).cancel? s.feedback.helpTimer) _
  · exact leadsTo_put (Agenda.leadsTo_self _) _

theorem leadsTo_receive [HAdd τ Nat τ] (s : Screen τ) (e : Event) :
    s.board.agenda.LeadsTo (s.receive e).screen.board.agenda := by
  have hself := Agenda.leadsTo_self s.board.agenda
  refine receive_induct (P := fun o => s.board.agenda.LeadsTo o.screen.board.agenda) e ?_ ?_ ?_ ?_ ?_
  · rintro u ⟨_, _, _, rfl⟩
    exact hself
  · intro charging _
    rw [board_refresh]
    exact hself
  · intro fault
    exact hself
  · intro text note hnote
    refine Outcome.alter_induct (P := fun u => s.board.agenda.LeadsTo u.board.agenda) (s.leadsTo_announceError text) ?_
    intro u hu
    obtain ⟨_, _, heq⟩ := hnote u
    rw [heq]
    exact hu
  · intro text
    exact Outcome.alter_induct (P := fun u => s.board.agenda.LeadsTo u.board.agenda)
      (leadsTo_put (s := s.setIcon true) hself _) fun u hu => (hu.cancel? _).armAt _ _

/-- An action comes to the agenda as a row of calls. -/
theorem leadsTo_act [HAdd τ Nat τ] [Timescale τ] (s : Screen τ) (a : Action) :
    s.board.agenda.LeadsTo (s.act a).screen.board.agenda := by
  have hself := Agenda.leadsTo_self s.board.agenda
  cases a with
  | put m => exact leadsTo_put hself m
  | takeDown => exact leadsTo_takeDown hself
  | takeDownAfter delay => exact s.leadsTo_takeDownAfter delay
  | event e => exact s.leadsTo_receive e
  | close => exact (hself.cancel? _).cancel? _
  | setVisible | rest | apply | applyPayload | look | advance | phone | unlockSource | estimateSource =>
    rw [(board_act_of_quiet rfl).1]
    exact hself

/-- What a timer does when it goes off comes to the agenda without it as a row of calls. -/
theorem leadsTo_fire {t : Timer Task τ} (ht : t ∈ s.board.agenda.timers) :
    (s.board.agenda.fire t).LeadsTo (s.fire t).screen.board.agenda := by
  have hself := Agenda.leadsTo_self (s.board.agenda.fire t)
  cases htask : t.task with
  | takeDown =>
    rw [fire_of_takeDown ht htask]
    refine leadsTo_withBoard ?_
    rw [agenda_expire]
    exact hself
  | endHelp =>
    rw [fire_of_endHelp ht htask]
    exact leadsTo_takeDown hself

end

/-! ## Alarms in the place of the agenda -/

/-- A screen and the alarms of the loop that it is on. What is done to the screen is a row of calls to the loop, and in
its turns the loop lets alarms leave and go off, with the clock at any moment. -/
inductive OnLoop : Screen Seconds → Alarms Task → Prop
  | start (now : Seconds) (settings : Settings) (phone : Phone) (user : Int) (unlockSource : UnlockSource)
      (estimateSource : EstimateSource) :
    OnLoop (startAt now settings phone user unlockSource estimateSource) { now }
  | act {s : Screen Seconds} {alarms : Alarms Task} {calls : List (Agenda.Call Task Seconds)} (a : Action) :
    OnLoop s alarms → (s.act a).screen.board.agenda = calls.foldl Agenda.make s.board.agenda →
      OnLoop (s.act a).screen (calls.foldl Alarms.make alarms)
  | collect {s : Screen Seconds} {alarms : Alarms Task} : OnLoop s alarms → OnLoop s alarms.collect
  | idle {s : Screen Seconds} {alarms : Alarms Task} :
    OnLoop s alarms → alarms.goOff.1 = none → OnLoop s alarms.goOff.2
  | fire {s : Screen Seconds} {alarms : Alarms Task} {t : Timer Task Seconds}
      {calls : List (Agenda.Call Task Seconds)} :
    OnLoop s alarms → alarms.goOff.1 = some t →
      (s.fire t).screen.board.agenda = calls.foldl Agenda.make (s.board.agenda.fire t) →
      -- the clock of the loop need not be at the time of the alarm
      OnLoop { (s.fire t).screen with board.agenda := (s.fire t).screen.board.agenda.setNow alarms.now }
        (calls.foldl Alarms.make alarms.goOff.2)
  | setNow {s : Screen Seconds} {alarms : Alarms Task} (time : Seconds) :
    OnLoop s alarms → OnLoop { s with board.agenda := s.board.agenda.setNow time } (alarms.setNow time)

end Screen

namespace Alarms

variable {α : Type}

/-- Calls do not read the clock. -/
theorem setNow_foldl_make (a : Alarms α) (calls : List (Agenda.Call α Seconds)) (time : Seconds) :
    (calls.foldl make a).setNow time = calls.foldl make (a.setNow time) := by
  induction calls generalizing a with
  | nil => rfl
  | cons c rest ih =>
    rw [List.foldl_cons, List.foldl_cons, ih]
    cases c <;> rfl

theorem now_goOff (a : Alarms α) : a.goOff.2.now = a.now := by
  unfold goOff
  split
  · rfl
  · rfl

/-- The calls of an alarm that goes off are the same whatever the clock shows. -/
theorem Keeps.foldl_make_fire {a : Alarms α} {g : Agenda α Seconds} (h : a.Keeps g) {t : Timer α Seconds}
    (ht : a.goOff.1 = some t) (calls : List (Agenda.Call α Seconds)) :
    (calls.foldl make a.goOff.2).Keeps ((calls.foldl Agenda.make (g.fire t)).setNow a.now) := by
  have hafter := (keeps_goOff h).2
  rw [ht] at hafter
  have hmade := keeps_setNow (keeps_foldl_make (keeps_setNow hafter t.due) calls) a.now
  rw [setNow_foldl_make] at hmade
  have hsame : (a.goOff.2.setNow t.due).setNow a.now = a.goOff.2 := by
    rw [← now_goOff]
    rfl
  rw [hsame] at hmade
  exact hmade

end Alarms

namespace Screen

variable {s : Screen Seconds} {alarms : Alarms Task}

theorem OnLoop.live_and_keeps (h : OnLoop s alarms) : s.Live ∧ alarms.Keeps s.board.agenda := by
  induction h with
  | start now settings phone user unlockSource estimateSource =>
    exact ⟨.start now settings phone user unlockSource estimateSource, Alarms.keeps_nil now⟩
  | act a _ hcalls ih =>
    refine ⟨ih.1.act a, ?_⟩
    rw [hcalls]
    exact Alarms.keeps_foldl_make ih.2 _
  | collect _ ih => exact ⟨ih.1, Alarms.keeps_collect ih.2⟩
  | idle _ hnone ih =>
    have hafter := (Alarms.keeps_goOff ih.2).2
    rw [hnone] at hafter
    exact ⟨ih.1, hafter⟩
  | @fire s alarms t calls _ hgone hcalls ih =>
    have hpending := (Alarms.keeps_goOff ih.2).1 t hgone
    refine ⟨(ih.1.fire hpending).setNow alarms.now, ?_⟩
    have hmade := ih.2.foldl_make_fire hgone calls
    rw [← hcalls] at hmade
    exact hmade
  | setNow time _ ih => exact ⟨ih.1.setNow time, Alarms.keeps_setNow ih.2 time⟩

/-- A screen on a loop is one of those that are reached on its clock. -/
theorem OnLoop.live (h : OnLoop s alarms) : s.Live :=
  h.live_and_keeps.1

/-- The alarms keep the agenda of the screen. -/
theorem OnLoop.keeps (h : OnLoop s alarms) : alarms.Keeps s.board.agenda :=
  h.live_and_keeps.2

/-- What goes off on the loop is a timer of the screen. -/
theorem OnLoop.mem_timers (h : OnLoop s alarms) {t : Timer Task Seconds} (ht : alarms.goOff.1 = some t) :
    t ∈ s.board.agenda.timers :=
  (Alarms.keeps_goOff h.keeps).1 t ht

/-- The alarms that may still go off are those whose numbers the screen holds. -/
theorem OnLoop.pending_iff (h : OnLoop s alarms) (task : Task) (id : Nat) :
    (∃ t ∈ Alarm.timers alarms.all, t.task = task ∧ t.id = id) ↔ s.handle task = some id := by
  have hheld : s.board.agenda.HeldBy s.handle := h.live.owned
  have hmem (t : Timer Task Seconds) := h.keeps.timers.mem_iff (a := t)
  constructor
  · rintro ⟨t, ht, rfl, rfl⟩
    exact hheld.held t ((hmem t).mp ht)
  · intro hhandle
    obtain ⟨t, ht, hid, htask⟩ := hheld.pending task id hhandle
    exact ⟨t, (hmem t).mpr ht, htask, hid⟩

/-- Whatever is done to the screen, the loop goes on. -/
theorem OnLoop.exists_act (h : OnLoop s alarms) (a : Action) :
    ∃ calls : List (Agenda.Call Task Seconds), OnLoop (s.act a).screen (calls.foldl Alarms.make alarms) := by
  obtain ⟨calls, hcalls⟩ := s.leadsTo_act a
  exact ⟨calls, h.act a hcalls⟩

/-- So it does when an alarm goes off. -/
theorem OnLoop.exists_fire (h : OnLoop s alarms) {t : Timer Task Seconds} (ht : alarms.goOff.1 = some t) :
    ∃ calls : List (Agenda.Call Task Seconds),
      OnLoop { (s.fire t).screen with board.agenda := (s.fire t).screen.board.agenda.setNow alarms.now }
        (calls.foldl Alarms.make alarms.goOff.2) := by
  obtain ⟨calls, hcalls⟩ := leadsTo_fire (h.mem_timers ht)
  exact ⟨calls, h.fire ht hcalls⟩

end Screen

/-! ## Delays -/

/-- The alarms that may still go off and take the message down. -/
def Alarms.takeDowns (alarms : Alarms Task) : List (Timer Task Seconds) :=
  (Alarm.timers alarms.all).filter (·.task = .takeDown)

theorem Alarms.Keeps.takeDowns_perm {alarms : Alarms Task} {g : Agenda Task Seconds} (h : alarms.Keeps g) :
    alarms.takeDowns.Perm (g.timers.filter (·.task = .takeDown)) :=
  h.timers.filter _

namespace Screen

variable {s : Screen Seconds} {alarms : Alarms Task}

/-- What a delay comes to on a loop: the alarms that it leaves to take the message down. -/
structure AnswersOnLoop (s : Screen Seconds) (alarms : Alarms Task) (delay : Value) : Prop where
  goesOn : ∃ calls : List (Agenda.Call Task Seconds),
    OnLoop (s.takeDownAfter delay).screen (calls.foldl Alarms.make alarms)
  /-- One that is accepted leaves a single one, due where it leads. -/
  accepted : (s.takeDownAfter delay).fault = none → ∃ n due, delay.measure? = some n ∧ n.isNegative = false ∧
    Timescale.deadline alarms.now n = .ok due ∧
    ∀ after, OnLoop (s.takeDownAfter delay).screen after → after.takeDowns = [⟨due, alarms.nextId, .takeDown⟩]
  /-- One that leads nowhere leaves none. -/
  lost : delay.LeadsNowhere alarms.now → (s.takeDownAfter delay).fault ≠ none ∧
    ∀ after, OnLoop (s.takeDownAfter delay).screen after → after.takeDowns = []

theorem OnLoop.answers (h : OnLoop s alarms) (delay : Value) : s.AnswersOnLoop alarms delay := by
  have hanswers := answersDelay_takeDownAfter h.live.owned delay
  have hkeeps := h.keeps
  refine ⟨h.exists_act (.takeDownAfter delay), ?_, ?_⟩
  · intro hnone
    obtain ⟨n, due, hn, hsign, hdue, hscheduled⟩ := hanswers.accepted hnone
    rw [← hkeeps.now] at hdue
    refine ⟨n, due, hn, hsign, hdue, ?_⟩
    intro after hafter
    have htimers := hscheduled.timers
    rw [← hkeeps.nextId] at htimers
    have hperm := hafter.keeps.takeDowns_perm
    rw [htimers] at hperm
    exact List.perm_singleton.mp hperm
  · intro hnowhere
    rw [hkeeps.now] at hnowhere
    obtain ⟨hfault, hgivenUp⟩ := hanswers.lost hnowhere
    refine ⟨hfault, ?_⟩
    intro after hafter
    have htimers := hgivenUp.timers
    have hperm := hafter.keeps.takeDowns_perm
    rw [htimers] at hperm
    exact List.perm_nil.mp hperm

end Screen

end LockScreen
