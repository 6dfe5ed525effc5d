import LockScreen.Proofs.Screen.MessageLifetime
import LockScreen.Proofs.Screen.OnLoop
import LockScreen.Proofs.Service.Rejection

/-!
# Taking a message down on request

A request gives the delay in whole milliseconds, none of them below zero, so it is accepted unless it is too large for a
number. Then it is answered by a failure, and the timer that was to take the message down is lost as it is on the board.
-/

namespace LockScreen

namespace MessageBoard

variable {b after : MessageBoard}

/-- Where the timers of that kind are still to go off, all are. -/
theorem Rescheduled.lt_due (h : b.Rescheduled after) (hdue : ∀ t ∈ b.agenda.timers, b.agenda.now < t.due)
    (hown : ∀ t ∈ after.agenda.timers.filter (·.task = .takeDown), b.agenda.now < t.due) :
    ∀ t ∈ after.agenda.timers, after.agenda.now < t.due := by
  intro t ht
  rw [h.now]
  by_cases htask : t.task = .takeDown
  · exact hown t (List.mem_filter.mpr ⟨ht, decide_eq_true htask⟩)
  · have hother : t ∈ after.agenda.timers.filter (·.task ≠ .takeDown) := List.mem_filter.mpr ⟨ht, decide_eq_true htask⟩
    rw [h.others] at hother
    exact hdue t (List.mem_filter.mp hother).1

/-- The new timer is still to go off unless there is no delay. -/
theorem Scheduled.lt_due {due : Nat} (h : b.Scheduled after due) (hdue : b.agenda.now < due)
    (hothers : ∀ t ∈ b.agenda.timers, b.agenda.now < t.due) : ∀ t ∈ after.agenda.timers, after.agenda.now < t.due := by
  refine h.toRescheduled.lt_due hothers ?_
  rw [h.timers]
  intro t ht
  rw [List.mem_singleton.mp ht]
  exact hdue

theorem GivenUp.lt_due (h : b.GivenUp after) (hdue : ∀ t ∈ b.agenda.timers, b.agenda.now < t.due) :
    ∀ t ∈ after.agenda.timers, after.agenda.now < t.due := by
  refine h.toRescheduled.lt_due hdue ?_
  rw [h.timers]
  exact nofun

end MessageBoard

namespace Service

variable {s : Service}

/-- Only the timers and the clock count. -/
theorem Settled.withBoard (h : s.Settled) {board : MessageBoard} (hnow : board.agenda.now = s.now)
    (hdue : ∀ t ∈ board.agenda.timers, board.agenda.now < t.due) : Settled { s with screen.board := board } where
  timers := hdue
  wait moment hwait := by
    have hsame : now { s with screen.board := board } = s.now := hnow
    rw [hsame]
    exact h.wait moment hwait

/-- What a request with a delay comes to: its timer is set, or it fails, with the timer from before where it is refused
for its sign, and without that where it is too large. -/
structure AnswersDelay (s : Service) (millis : Int) (o : Service × Response) : Prop where
  /-- The report shows the board with the new timer. It also stays like that, unless the delay is over at once. -/
  accepted : 0 ≤ millis → ¬Binary64.Huge millis → ∃ due board, Timescale.deadline s.now (.int millis) = .ok due ∧
    s.screen.board.Scheduled board due ∧ o.2 = (Response.ok { s.screen with board }.toValue).sent ∧
    o.1 = advance { s with screen.board := board } 0 ∧ (s.now < due → o.1 = { s with screen.board := board })
  refused : millis < 0 → ∃ fault, o = (s, .failed fault)
  lost : 0 ≤ millis → Binary64.Huge millis → ∃ board fault, s.screen.board.GivenUp board ∧
    o = ({ s with screen.board := board }, .failed fault)

theorem respond_takeDownAfter (s : Service) (millis : Int) :
    let o := s.screen.takeDownAfter (.int millis)
    s.respond (.ok (.takeDownAfter millis)) = ((s.afterScreen o).1.advance 0, (s.afterScreen o).2.sent) := by
  have hanswer : s.answer (.takeDownAfter millis) = s.afterScreen (s.screen.takeDownAfter (.int millis)) := by
    rw [answer.eq_def]
  rcases s.respond_cases (.ok (.takeDownAfter millis)) with
    ⟨_, hrefused, _⟩ | ⟨c, _, hc, hrejected, _⟩ | ⟨c, hc, _, hrespond⟩
  · cases hrefused
  · cases hc
    have houtcome := s.isOutcome_afterScreen (s.screen.takeDownAfter (.int millis))
    rw [← hanswer, hrejected] at houtcome
    cases houtcome
  · cases hc
    rw [hrespond, hanswer]

theorem answersDelay_respond (hsettled : s.Settled) (howned : s.screen.Owned) (millis : Int) :
    s.AnswersDelay millis (s.respond (.ok (.takeDownAfter millis))) := by
  have hheld := Screen.heldBy_of_owned howned
  rw [respond_takeDownAfter]
  refine ⟨?_, ?_, ?_⟩
  · intro hsign hfits
    have hfinite : (Number.int millis).IsFinite := hfits
    obtain ⟨due, hdue⟩ := Timescale.exists_deadline_millis s.now hfinite
    have hscheduled := MessageBoard.scheduled_takeDownAt hheld due
    have hboard : s.screen.board.takeDownAfter (.int millis) = (s.screen.board.takeDownAt due, none) :=
      MessageBoard.takeDownAfter_of_deadline rfl (decide_eq_false (Int.not_lt.mpr hsign)) hdue
    refine ⟨due, _, hdue, hscheduled, ?_, ?_, ?_⟩
    · simp only [Screen.takeDownAfter, hboard, afterScreen]
    · simp only [Screen.takeDownAfter, hboard, afterScreen]
    · intro hahead
      simp only [Screen.takeDownAfter, hboard, afterScreen]
      exact (hsettled.withBoard hscheduled.now (hscheduled.lt_due hahead hsettled.timers)).advance_zero
  · intro hsign
    have hboard : s.screen.board.takeDownAfter (.int millis) = (s.screen.board, some .hideDelayNegative) := by
      have hnegative : (Number.int millis).isNegative = true := decide_eq_true hsign
      simp only [MessageBoard.takeDownAfter, Value.comparable_int, hnegative]
      rfl
    refine ⟨.hideDelayNegative, ?_⟩
    simp only [Screen.takeDownAfter, hboard, afterScreen]
    rw [hsettled.advance_zero]
    rfl
  · intro hsign hhuge
    have hgivenUp := MessageBoard.givenUp_cancelTakeDown hheld
    obtain ⟨fault, hboard⟩ := MessageBoard.takeDownAfter_of_leadsNowhere (b := s.screen.board)
      (Value.leadsNowhere_of_huge hsign hhuge _)
    refine ⟨_, fault, hgivenUp, ?_⟩
    simp only [Screen.takeDownAfter, hboard, afterScreen]
    rw [(hsettled.withBoard hgivenUp.now (hgivenUp.lt_due hsettled.timers)).advance_zero]
    rfl

end Service

/-- A delay that a board is given sets the one timer that takes the message down, or fails. Where it fails it leaves the
board as it was, unless it is not below zero and yet leads nowhere: then the old timer is lost. A screen hands the
delay to its board and does nothing else, and so does a service with the delay of a request. All this holds on a clock
of any scale, of an event loop as well as of whole milliseconds, on which the service counts; which delays lead
nowhere depends on it, and the integers that are too large do on each. On an event loop the alarms that are left to
take the message down are those that the timers say. -/
theorem answersDelay_of_reachable {τ : Type} [LE τ] [DecidableLE τ] [HAdd τ Nat τ] [Timescale τ] {b : MessageBoard τ}
    (hb : b.Live) {s : Screen τ} (hs : s.Live) {onLoop : Screen Seconds} {alarms : Alarms Task}
    (honLoop : onLoop.OnLoop alarms) (delay : Value) {service : Service} (hservice : service.Reachable)
    {read : Reading} (hread : read.Typed) {r : Request} {millis : Int} (hcall : read r = .ok (.takeDownAfter millis)) :
    b.AnswersDelay delay (b.takeDownAfter delay) ∧
      (s.board.AnswersDelay delay ((s.takeDownAfter delay).screen.board, (s.takeDownAfter delay).fault) ∧
        (s.takeDownAfter delay).screen = { s with board := (s.takeDownAfter delay).screen.board }) ∧
      onLoop.AnswersOnLoop alarms delay ∧ delay.LedByClocks ∧
      0 ≤ millis ∧ service.AnswersDelay millis (service.handle r read) := by
  refine ⟨MessageBoard.answersDelay_takeDownAfter hb.heldBy delay,
    ⟨Screen.answersDelay_takeDownAfter hs.owned delay, rfl⟩, honLoop.answers delay, delay.ledByClocks,
    hread.delay r millis hcall, ?_⟩
  unfold Service.handle
  rw [hcall]
  exact Service.answersDelay_respond hservice.settled hservice.owned millis

/-- A board whose message is to be taken down. -/
def boardUp : MessageBoard :=
  ((({} : MessageBoard).step (.put ⟨some "Look here", .white⟩)).1.step (.takeDownAfter (.int 5000))).1

theorem reachable_boardUp : boardUp.Reachable :=
  .step _ (.step _ .empty)

/-- The same on the clock of an event loop that shows a second. -/
def boardUpOnLoop : MessageBoard Seconds :=
  ((MessageBoard.put { agenda := { now := ⟨.ofInt 1⟩ } } ⟨some "Look here", .white⟩).takeDownAfter (.int 5000)).1

theorem live_boardUpOnLoop : boardUpOnLoop.Live :=
  .takeDownAfter _ (.put _ (.empty _))

/-- A screen with a help text on that clock. -/
def helpOnLoop : Screen Seconds :=
  ((Screen.startAt ⟨.ofInt 1⟩ .standard {} 0 .phone .nobody).act (.event (.sensorHelp 1 "Dirty"))).screen

/-- The alarms of its loop. -/
def helpAlarms : Alarms Task :=
  Alarms.set { now := ⟨.ofInt 1⟩ } ((⟨.ofInt 1⟩ : Seconds) + Feedback.helpMillis) .endHelp

/-- The same with the help text to be taken down later than by itself. -/
def screenUpOnLoop : Screen Seconds :=
  (helpOnLoop.act (.takeDownAfter (.int 5000))).screen

/-- The alarms of its loop. -/
def alarmsUp : Alarms Task :=
  helpAlarms.set ⟨.ofInt 6⟩ .takeDown

theorem onLoop_screenUpOnLoop : screenUpOnLoop.OnLoop alarmsUp := by
  have hhelpCalls : helpOnLoop.board.agenda =
      Agenda.armAt { now := ⟨.ofInt 1⟩ } ((⟨.ofInt 1⟩ : Seconds) + Feedback.helpMillis) .endHelp := by decide +kernel
  have hdelayCalls : screenUpOnLoop.board.agenda = helpOnLoop.board.agenda.armAt ⟨.ofInt 6⟩ .takeDown := by
    decide +kernel
  have hstart : (Screen.startAt ⟨.ofInt 1⟩ .standard {} 0 .phone .nobody).OnLoop { now := ⟨.ofInt 1⟩ } := .start ..
  have hhelp : helpOnLoop.OnLoop helpAlarms := by
    unfold helpOnLoop at hhelpCalls ⊢
    exact @Screen.OnLoop.act _ _ [.armAt _ .endHelp] _ hstart hhelpCalls
  unfold screenUpOnLoop at hdelayCalls ⊢
  exact @Screen.OnLoop.act _ _ [.armAt _ .takeDown] _ hhelp hdelayCalls

/-- A request for a delay of too many digits for a number. -/
def hugeDelay : Request :=
  Service.posted "/api/transient/hide" [("delay_ms", .int (Nat.pow 10 400))]

/-- An integer of four hundred digits takes the timer along, on either clock and by a request, and with it the alarm of
a loop. An infinite delay does not on the clock of an event loop, where it sets the timer for a moment that never
comes. -/
theorem answersDelay_of_reachable_hugeDelay :
    boardUp.agenda.remaining = [5000] ∧ boardUp.GivenUp (boardUp.takeDownAfter (.int (Nat.pow 10 400))).1 ∧
      boardUpOnLoop.agenda.timers = [⟨⟨.ofInt 6⟩, 0, .takeDown⟩] ∧
      boardUpOnLoop.GivenUp (boardUpOnLoop.takeDownAfter (.int (Nat.pow 10 400))).1 ∧
      boardUpOnLoop.Scheduled (boardUpOnLoop.takeDownAfter (.float (.infinite false))).1 ⟨.infinite false⟩ ∧
      alarmsUp.takeDowns = [⟨⟨.ofInt 6⟩, 1, .takeDown⟩] ∧
      (∀ after, (screenUpOnLoop.takeDownAfter (.int (Nat.pow 10 400))).screen.OnLoop after → after.takeDowns = []) ∧
      ∃ board fault, Service.messageUp.screen.board.GivenUp board ∧
        Service.messageUp.handle hugeDelay = ({ Service.messageUp with screen.board := board }, .failed fault) := by
  have hreach : Service.messageUp.Reachable := (Service.Reachable.ofFile Service.ofFile_none).moved _
  have hcall : hugeDelay.call = .ok (.takeDownAfter (Nat.pow 10 400 : Nat)) := rfl
  have hhuge : Binary64.Huge (Nat.pow 10 400 : Nat) := by decide +kernel
  have hsign : (0 : Int) ≤ (Nat.pow 10 400 : Nat) := Int.natCast_nonneg _
  have hlive := onLoop_screenUpOnLoop.live
  obtain ⟨hboard, _⟩ := answersDelay_of_reachable reachable_boardUp.live Screen.reachable_helpUp.live
    onLoop_screenUpOnLoop (.int (Nat.pow 10 400 : Nat)) hreach typed_call hcall
  obtain ⟨honClock, _, honLoop, _, hnonneg, hservice⟩ := answersDelay_of_reachable live_boardUpOnLoop hlive
    onLoop_screenUpOnLoop (.int (Nat.pow 10 400 : Nat)) hreach typed_call hcall
  obtain ⟨hinfinite, _⟩ := answersDelay_of_reachable live_boardUpOnLoop hlive
    onLoop_screenUpOnLoop (.float (.infinite false)) hreach typed_call hcall
  have hscheduled : boardUpOnLoop.Scheduled (boardUpOnLoop.takeDownAfter (.float (.infinite false))).1
      ⟨.infinite false⟩ := by
    obtain ⟨n, due, hn, _, hdue, hscheduled⟩ := hinfinite.accepted (by decide +kernel)
    cases hn
    have hnow : Timescale.deadline boardUpOnLoop.agenda.now (.float (.infinite false)) = .ok ⟨.infinite false⟩ := by
      decide +kernel
    rw [hnow] at hdue
    rw [Except.ok.inj hdue]
    exact hscheduled
  exact ⟨by decide +kernel, (hboard.lost (Value.leadsNowhere_of_huge hsign hhuge _)).2, by decide +kernel,
    (honClock.lost (Value.leadsNowhere_of_huge hsign hhuge _)).2, hscheduled, by decide +kernel,
    (honLoop.lost (Value.leadsNowhere_of_huge hsign hhuge _)).2, hservice.lost hnonneg hhuge⟩

/-- A delay that fails may take the timer of the delay before it along, on a clock of whole milliseconds as well as on
that of an event loop. -/
theorem not_forall_failed_delay_leaves_board :
    (¬∀ (b : MessageBoard) (delay : Value), b.Reachable → (b.takeDownAfter delay).2 ≠ none →
      (b.takeDownAfter delay).1 = b) ∧
    ¬∀ (b : MessageBoard Seconds) (delay : Value), b.Live → (b.takeDownAfter delay).2 ≠ none →
      (b.takeDownAfter delay).1 = b := by
  refine ⟨?_, ?_⟩
  · intro h
    have hfails : (boardUp.takeDownAfter (.int (Nat.pow 10 400 : Nat))).2 ≠ none := by decide +kernel
    have hlost : (boardUp.takeDownAfter (.int (Nat.pow 10 400 : Nat))).1.takeDownTimer = none := by decide +kernel
    rw [h boardUp _ reachable_boardUp hfails] at hlost
    have hheld : boardUp.takeDownTimer = some 0 := by decide +kernel
    rw [hheld] at hlost
    cases hlost
  · intro h
    have hfails : (boardUpOnLoop.takeDownAfter (.int (Nat.pow 10 400 : Nat))).2 ≠ none := by decide +kernel
    have hlost : (boardUpOnLoop.takeDownAfter (.int (Nat.pow 10 400 : Nat))).1.takeDownTimer = none := by
      decide +kernel
    rw [h boardUpOnLoop _ live_boardUpOnLoop hfails] at hlost
    have hheld : boardUpOnLoop.takeDownTimer = some 0 := by decide +kernel
    rw [hheld] at hlost
    cases hlost

end LockScreen
