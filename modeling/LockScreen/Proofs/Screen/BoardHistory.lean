import LockScreen.Proofs.Screen.TakeDown
import Mathlib.Data.List.Induction

/-!
# What a board has been through

A board of its own, from the first step on. At most one timer is pending on it, and a step does one of three things
to the row of timers (`timers_step`): it leaves none, it sets a new one for a delay, or it leaves the row as it is and
the message with it. So a timer that is still pending was set by a delay, and from that moment on the message has been
the same without interruption (`setFor_of_mem_timers`): whatever the timer takes down when it goes off is what was up
when it was set.

The changes that are counted are the messages that were put up and those that were taken down (`changes_run`).
-/

namespace LockScreen.MessageBoard

/-! ## Runs -/

/-- The board after some steps. -/
def run (b : MessageBoard) (steps : List Step) : MessageBoard :=
  steps.foldl (fun b s => (b.step s).1) b

/-- The board after some steps from an empty one. -/
def after (steps : List Step) : MessageBoard :=
  run {} steps

/-- The step puts up a message. -/
def Step.isPut : Step → Bool
  | .put _ => true
  | _ => false

/-- The step takes down the message that is up. -/
def clears (b : MessageBoard) (s : Step) : Bool :=
  b.message.isSome && (b.step s).1.message.isNone

/-- How often some steps take down the message that is up. -/
def clearings (b : MessageBoard) : List Step → Nat
  | [] => 0
  | s :: rest => (b.clears s).toNat + clearings (b.step s).1 rest

theorem after_append_singleton (steps : List Step) (s : Step) :
    after (steps ++ [s]) = ((after steps).step s).1 :=
  List.foldl_append

theorem heldBy_after (steps : List Step) :
    (after steps).agenda.HeldBy ((after steps).handle none) := by
  apply Reachable.heldBy
  induction steps using List.reverseRecOn with
  | nil => exact .empty
  | append_singleton steps s ih =>
    rw [after_append_singleton]
    exact .step s ih

/-! ## The one timer -/

variable {b : MessageBoard}

theorem timers_of_takeDownTimer_eq_none (h : b.agenda.HeldBy (b.handle none)) (hnone : b.takeDownTimer = none) :
    b.agenda.timers = [] := by
  apply h.timers_eq_nil
  intro task
  cases task with
  | takeDown => exact hnone
  | endHelp => rfl

theorem timers_cancelTakeDown (h : b.agenda.HeldBy (b.handle none)) : b.cancelTakeDown.agenda.timers = [] :=
  timers_of_takeDownTimer_eq_none (heldBy_cancelTakeDown h) rfl

theorem timers_takeDownAt (h : b.agenda.HeldBy (b.handle none)) (due : Nat) :
    (b.takeDownAt due).agenda.timers = [⟨due, b.agenda.nextId, .takeDown⟩] := by
  refine (heldBy_takeDownAt h due).timers_eq_singleton (Screen.mem_timers_takeDownAt b due) ?_
  intro task htask
  cases task with
  | takeDown => exact absurd rfl htask
  | endHelp => rfl

/-- No timer is pending, or one that takes the message down. -/
theorem timers_cases (h : b.agenda.HeldBy (b.handle none)) :
    b.agenda.timers = [] ∨ ∃ t, b.agenda.timers = [t] ∧ t.task = .takeDown := by
  cases htimer : b.takeDownTimer with
  | none => exact .inl (timers_of_takeDownTimer_eq_none h htimer)
  | some id =>
    obtain ⟨t, ht, _, htask⟩ := h.pending .takeDown id htimer
    refine .inr ⟨t, h.timers_eq_singleton ht ?_, htask⟩
    intro task hother
    cases task with
    | takeDown => exact absurd htask.symm hother
    | endHelp => rfl

/-- Where nothing is due only the clock moves. -/
theorem advance_of_dueBy_eq_nil {millis : Nat} (hdue : b.agenda.dueBy (b.agenda.now + millis) = []) :
    b.advance millis = { b with agenda := b.agenda.setNow (b.agenda.now + millis) } := by
  simp only [advance, hdue, List.foldl_nil]

/-- The timer that is due takes itself and the message away. -/
theorem advance_of_due {millis : Nat} {t : Timer Task} (htimers : b.agenda.timers = [t]) (htask : t.task = .takeDown)
    (hdue : t.due ≤ b.agenda.now + millis) :
    (b.advance millis).message = none ∧ (b.advance millis).agenda.timers = [] := by
  have hrow : b.agenda.dueBy (b.agenda.now + millis) = [t] := by
    rw [Agenda.dueBy, htimers]
    exact List.filter_cons_of_pos (decide_eq_true hdue)
  have hholds : b.agenda.holds t.id = true :=
    Agenda.holds_of_mem (htimers ▸ List.mem_singleton_self t)
  have hfire : b.fire t = expire { b with agenda := b.agenda.fire t } := by
    unfold fire
    rw [if_pos hholds, htask]
  simp only [advance, hrow, List.foldl_cons, List.foldl_nil, hfire]
  refine ⟨Screen.message_expire _, ?_⟩
  rw [Screen.agenda_expire]
  show b.agenda.timers.filter (·.id ≠ t.id) = []
  rw [htimers]
  simp

/-- A step leaves no timer, or sets a new one for a delay, or leaves the timers and the message as they are. -/
theorem timers_step (h : b.agenda.HeldBy (b.handle none)) (s : Step) :
    (b.step s).1.agenda.timers = [] ∨
    (∃ delay due, s = .takeDownAfter delay ∧ b.step s = (b.takeDownAt due, none)) ∨
    (s.isPut = false ∧ (b.step s).1.agenda.timers = b.agenda.timers ∧ (b.step s).1.message = b.message) := by
  cases s with
  | put m => exact .inl (timers_cancelTakeDown h)
  | takeDown =>
    show b.takeDown.agenda.timers = [] ∨ _ ∨ _ ∧ b.takeDown.agenda.timers = _ ∧ b.takeDown.message = _
    -- without a message the timer stays
    unfold takeDown
    split
    · exact .inl (timers_cancelTakeDown h)
    · exact .inr (.inr ⟨rfl, rfl, rfl⟩)
  | takeDownAfter delay =>
    rcases b.takeDownAfter_cases delay with ⟨n, due, hdelay, hsign, hdue⟩ | hdelay | ⟨fault, hrefused⟩
    · exact .inr (.inl ⟨delay, due, rfl, takeDownAfter_of_deadline hdelay hsign hdue⟩)
    · obtain ⟨fault, hlost⟩ := takeDownAfter_of_leadsNowhere hdelay
      refine .inl ?_
      show (b.takeDownAfter delay).1.agenda.timers = []
      rw [hlost]
      exact timers_cancelTakeDown h
    · refine .inr (.inr ?_)
      show _ ∧ (b.takeDownAfter delay).1.agenda.timers = _ ∧ (b.takeDownAfter delay).1.message = _
      rw [hrefused]
      exact ⟨rfl, rfl, rfl⟩
  | cancelTakeDown => exact .inl (timers_cancelTakeDown h)
  | advance millis =>
    show (b.advance millis).agenda.timers = [] ∨ _ ∨ _ ∧ (b.advance millis).agenda.timers = _ ∧
      (b.advance millis).message = _
    rcases timers_cases h with hnone | ⟨t, htimers, htask⟩
    · have hdue : b.agenda.dueBy (b.agenda.now + millis) = [] := by
        rw [Agenda.dueBy, hnone, List.filter_nil]
      rw [advance_of_dueBy_eq_nil hdue]
      exact .inl hnone
    · -- the one timer goes off, or it is not due yet
      by_cases hdue : t.due ≤ b.agenda.now + millis
      · exact .inl (advance_of_due htimers htask hdue).2
      · have hrow : b.agenda.dueBy (b.agenda.now + millis) = [] := by
          rw [Agenda.dueBy, htimers]
          exact List.filter_cons_of_neg (by simpa using hdue)
        rw [advance_of_dueBy_eq_nil hrow]
        exact .inr (.inr ⟨rfl, rfl, rfl⟩)

/-! ## Since a timer was set -/

/-- The timer was set by a delay that came while the message was up, or while none was, and ever since it has been
pending and the message the same. -/
def SetFor (steps : List Step) (t : Timer Task) (message : Option Message) : Prop :=
  ∃ before delay rest, steps = before ++ .takeDownAfter delay :: rest ∧
    ((after before).takeDownAfter delay).2 = none ∧ t ∉ (after before).agenda.timers ∧
    (after before).message = message ∧ (∀ s ∈ rest, s.isPut = false) ∧
    ∀ part, part <+: rest →
      (after (before ++ .takeDownAfter delay :: part)).agenda.timers = [t] ∧
      (after (before ++ .takeDownAfter delay :: part)).message = message

theorem SetFor.snoc {steps : List Step} {t : Timer Task} {message : Option Message} (h : SetFor steps t message)
    {s : Step} (hput : s.isPut = false) (htimers : (after (steps ++ [s])).agenda.timers = [t])
    (hmessage : (after (steps ++ [s])).message = message) : SetFor (steps ++ [s]) t message := by
  obtain ⟨before, delay, rest, rfl, haccepted, hnew, hup, hputs, hrest⟩ := h
  refine ⟨before, delay, rest ++ [s], by simp, haccepted, hnew, hup, ?_, ?_⟩
  · intro u hu
    rcases List.mem_append.mp hu with hu | hu
    · exact hputs u hu
    · rw [List.mem_singleton.mp hu]
      exact hput
  · intro part hpart
    -- all the steps, or a part of those from before
    rcases List.prefix_concat_iff.mp hpart with rfl | hpart
    · have hsteps : before ++ .takeDownAfter delay :: (rest ++ [s])
          = before ++ .takeDownAfter delay :: rest ++ [s] := by simp
      rw [hsteps]
      exact ⟨htimers, hmessage⟩
    · exact hrest part hpart

/-- A timer that a delay sets is new, and the message is that of the moment. -/
theorem setFor_takeDownAt {steps : List Step} {delay : Value} {due : Nat} {t : Timer Task}
    (haccepted : (after steps).step (.takeDownAfter delay) = ((after steps).takeDownAt due, none))
    (ht : t ∈ (after (steps ++ [.takeDownAfter delay])).agenda.timers) :
    SetFor (steps ++ [.takeDownAfter delay]) t (after steps).message := by
  have hheld := heldBy_after steps
  have hafter : after (steps ++ [.takeDownAfter delay]) = (after steps).takeDownAt due := by
    rw [after_append_singleton, haccepted]
  rw [hafter, timers_takeDownAt hheld] at ht
  have hnew := List.mem_singleton.mp ht
  refine ⟨steps, delay, [], rfl, congrArg Prod.snd haccepted, ?_, rfl, ?_, ?_⟩
  · intro hold
    have hlt := hheld.numbered t hold
    rw [hnew] at hlt
    exact Nat.lt_irrefl _ hlt
  · intro s hs
    cases hs
  · intro part hpart
    rw [List.prefix_nil.mp hpart, hafter, timers_takeDownAt hheld, hnew]
    exact ⟨rfl, rfl⟩

/-- A timer that is pending has been so since a delay set it, with the same message up. -/
theorem setFor_of_mem_timers {steps : List Step} {t : Timer Task} (ht : t ∈ (after steps).agenda.timers) :
    SetFor steps t (after steps).message := by
  induction steps using List.reverseRecOn with
  | nil => cases ht
  | append_singleton steps s ih =>
    rcases timers_step (heldBy_after steps) s with hnone | ⟨delay, due, rfl, haccepted⟩ |
      ⟨hput, htimers, hmessage⟩
    · rw [after_append_singleton, hnone] at ht
      cases ht
    · have hset := setFor_takeDownAt haccepted ht
      rw [after_append_singleton, haccepted]
      exact hset
    · have hkept : (after (steps ++ [s])).agenda.timers = (after steps).agenda.timers := by
        rw [after_append_singleton, htimers]
      have hsame : (after (steps ++ [s])).message = (after steps).message := by
        rw [after_append_singleton, hmessage]
      rw [hkept] at ht
      rw [hsame]
      refine (ih ht).snoc hput ?_ hsame
      rw [hkept]
      -- a pending timer is the only one
      rcases timers_cases (heldBy_after steps) with hnone | ⟨u, hu, _⟩
      · rw [hnone] at ht
        cases ht
      · rw [hu] at ht ⊢
        rw [List.mem_singleton.mp ht]

/-! ## Counting changes -/

/-- The message is as it was, or it was taken down and this was counted. -/
def KeptOrCleared (b c : MessageBoard) : Prop :=
  (c.message = b.message ∧ c.changes = b.changes) ∨
    (b.message.isSome = true ∧ c.message = none ∧ c.changes = b.changes + 1)

theorem KeptOrCleared.trans {c d : MessageBoard} (h : b.KeptOrCleared c) (h' : c.KeptOrCleared d) :
    b.KeptOrCleared d := by
  rcases h with ⟨hmessage, hchanges⟩ | ⟨hsome, hnone, hchanges⟩
  · unfold KeptOrCleared at h' ⊢
    rw [← hmessage, ← hchanges]
    exact h'
  -- a message that was taken down cannot be taken down again
  · rcases h' with ⟨hmessage, hsame⟩ | ⟨hup, _⟩
    · exact .inr ⟨hsome, hmessage.trans hnone, hsame.trans hchanges⟩
    · rw [hnone] at hup
      cases hup

theorem keptOrCleared_takeDown (b : MessageBoard) : b.KeptOrCleared b.takeDown := by
  unfold takeDown
  split
  · rename_i hsome
    exact .inr ⟨hsome, rfl, rfl⟩
  · exact .inl ⟨rfl, rfl⟩

theorem keptOrCleared_expire (b : MessageBoard) : b.KeptOrCleared b.expire := by
  unfold expire
  split
  · rename_i hsome
    exact .inr ⟨hsome, rfl, rfl⟩
  · exact .inl ⟨rfl, rfl⟩

theorem keptOrCleared_fire (b : MessageBoard) (t : Timer Task) : b.KeptOrCleared (b.fire t) := by
  unfold fire
  split
  · split
    · exact keptOrCleared_expire { b with agenda := b.agenda.fire t }
    · exact .inl ⟨rfl, rfl⟩
  · exact .inl ⟨rfl, rfl⟩

theorem keptOrCleared_foldl_fire (b : MessageBoard) (ts : List (Timer Task)) :
    b.KeptOrCleared (ts.foldl fire b) := by
  induction ts generalizing b with
  | nil => exact .inl ⟨rfl, rfl⟩
  | cons t rest ih => exact (keptOrCleared_fire b t).trans (ih (b.fire t))

/-- Only a step that puts up a message does something else. -/
theorem keptOrCleared_step (b : MessageBoard) {s : Step} (hput : s.isPut = false) :
    b.KeptOrCleared (b.step s).1 := by
  cases s with
  | put m => cases hput
  | takeDown => exact keptOrCleared_takeDown b
  | takeDownAfter delay =>
    show b.KeptOrCleared (b.takeDownAfter delay).1
    rcases Screen.board_takeDownAfter_cases b delay with hboard | ⟨millis, hboard⟩ | hboard
    · rw [hboard]
      exact .inl ⟨rfl, rfl⟩
    · rw [hboard]
      exact .inl ⟨rfl, rfl⟩
    · rw [hboard]
      exact .inl ⟨rfl, rfl⟩
  | cancelTakeDown => exact .inl ⟨rfl, rfl⟩
  | advance millis => exact keptOrCleared_foldl_fire b _

/-- A step is counted once if it puts up a message, and once if it takes one down. -/
theorem changes_step (b : MessageBoard) (s : Step) :
    (b.step s).1.changes = b.changes + s.isPut.toNat + (b.clears s).toNat := by
  cases hput : s.isPut with
  | true =>
    cases s with
    | put m =>
      have hclears : b.clears (.put m) = false := Bool.and_false _
      rw [hclears]
      rfl
    | _ => cases hput
  | false =>
    unfold clears
    rcases keptOrCleared_step b hput with ⟨hmessage, hchanges⟩ | ⟨hsome, hnone, hchanges⟩
    · rw [hmessage, hchanges]
      cases b.message <;> rfl
    · rw [hsome, hnone, hchanges]
      rfl

theorem changes_run (b : MessageBoard) (steps : List Step) :
    (b.run steps).changes = b.changes + steps.countP Step.isPut + b.clearings steps := by
  induction steps generalizing b with
  | nil => rfl
  | cons s rest ih =>
    have hput : (s :: rest).countP Step.isPut = rest.countP Step.isPut + s.isPut.toNat := by
      rw [List.countP_cons]
      cases s.isPut <;> rfl
    show ((b.step s).1.run rest).changes = _
    rw [ih, changes_step, hput, clearings]
    omega

/-! ## The message that is taken down -/

/-- Whatever steps a board has been through: a message that the clock takes down is the one that was up when the
timer was set, and it has been up ever since; no timer is pending once a message was put up or taken down; and the
changes that are counted are the messages put up and those taken down. -/
theorem taken_down_as_meant (steps : List Step) :
    (∀ millis, ∀ t ∈ (after steps).agenda.dueBy ((after steps).agenda.now + millis),
      SetFor steps t (after steps).message) ∧
    (∀ millis m, (after steps).message = some m → ((after steps).advance millis).message ≠ some m →
      ((after steps).advance millis).message = none ∧
        ∃ t ∈ (after steps).agenda.dueBy ((after steps).agenda.now + millis), SetFor steps t (some m)) ∧
    (∀ m, ((after steps).put m).takeDownTimer = none ∧ ((after steps).put m).agenda.timers = []) ∧
    ((after steps).message.isSome = true →
      (after steps).takeDown.message = none ∧ (after steps).takeDown.takeDownTimer = none ∧
        (after steps).takeDown.agenda.timers = []) ∧
    (after steps).changes = steps.countP Step.isPut + clearings {} steps := by
  have hheld := heldBy_after steps
  refine ⟨?_, ?_, ?_, ?_, ?_⟩
  · intro millis t ht
    exact setFor_of_mem_timers (Agenda.mem_timers_of_mem_dueBy ht)
  · intro millis m hup hgone
    -- a message that goes is taken down by a timer that was due
    have hdue : (after steps).agenda.dueBy ((after steps).agenda.now + millis) ≠ [] := by
      intro hnil
      rw [advance_of_dueBy_eq_nil hnil] at hgone
      exact hgone hup
    obtain ⟨t, ht⟩ := List.exists_mem_of_ne_nil _ hdue
    refine ⟨?_, t, ht, ?_⟩
    · rcases keptOrCleared_foldl_fire (after steps) ((after steps).agenda.dueBy ((after steps).agenda.now + millis))
        with ⟨hmessage, _⟩ | ⟨_, hnone, _⟩
      · exact absurd (hmessage.trans hup) hgone
      · exact hnone
    · rw [← hup]
      exact setFor_of_mem_timers (Agenda.mem_timers_of_mem_dueBy ht)
  · intro m
    exact ⟨rfl, timers_cancelTakeDown hheld⟩
  · intro hsome
    have htakeDown : (after steps).takeDown
        = { (after steps).cancelTakeDown with message := none, changes := (after steps).changes + 1 } :=
      if_pos hsome
    rw [htakeDown]
    exact ⟨rfl, rfl, timers_cancelTakeDown hheld⟩
  · have hchanges := changes_run {} steps
    rw [Nat.zero_add] at hchanges
    exact hchanges

/-- A delay that comes before the message, and another one after it that is put off. -/
def delayedSteps : List Step :=
  [.takeDownAfter (.int 1000), .put ⟨some "Look here", .white⟩, .takeDownAfter (.int 2000), .advance 1500,
    .takeDownAfter (.int 2000)]

theorem taken_down_as_meant_delayedSteps :
    ((after delayedSteps).advance 2000).message = none ∧
      ∃ t ∈ (after delayedSteps).agenda.dueBy ((after delayedSteps).agenda.now + 2000),
        SetFor delayedSteps t (some ⟨some "Look here", .white⟩) := by
  have hup : (after delayedSteps).message = some ⟨some "Look here", .white⟩ := by decide +kernel
  have hgone : ((after delayedSteps).advance 2000).message ≠ some ⟨some "Look here", .white⟩ := by decide +kernel
  exact (taken_down_as_meant delayedSteps).2.1 2000 _ hup hgone

end LockScreen.MessageBoard
