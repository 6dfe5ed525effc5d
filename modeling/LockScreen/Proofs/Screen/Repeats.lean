import LockScreen.Proofs.Screen.Questions
import Mathlib.Logic.Function.Basic

/-!
# Failures that repeat

A process has any number of screens and asks for estimates of its own as well. Its screens share the journal, save for
the last failure of the unlock source, of which each screen keeps its own. Whatever the process is used for, it notes
each question that is put as `Noted.ask` does, and nothing else (`Process.use_noted`): a failure is reported unless the
last question to the same one failed with the same text.

From that follows the law of the whole run: the warnings are exactly those that the row of questions calls for
(`reports`), whoever put them and whatever was done in between (`failures_reported_once`).
-/

namespace LockScreen

open Screen (failure?)

/-! ## The law for a row of questions -/

/-- The warning about a failure. -/
def Asked.warning : Asked → Text → Warning
  | .estimate => .estimateFailed
  | .unlock _ => .unlockUnknown

/-- The failure of the last question that was put to somebody, if it failed. -/
def lastFailure (asked : Asked) (queries : List Query) : Option Text :=
  (queries.filter (·.asked = asked)).getLast?.bind (failure? ·.answer)

/-- The warning that a question leads to after the last failure: its own failure, unless the text is the same. -/
def Query.reportAfter? (q : Query) (last : Option Text) : Option Warning :=
  match q.answer with
  | .gives _ => none
  | .fails text => if last = some text then none else some (q.asked.warning text)

/-- The warnings that a row of questions calls for after earlier ones. -/
def reportsAfter (earlier : List Query) : List Query → List Warning
  | [] => []
  | q :: rest => (q.reportAfter? (lastFailure q.asked earlier)).toList ++ reportsAfter (earlier ++ [q]) rest

/-- The warnings that a row of questions calls for. -/
def reports : List Query → List Warning :=
  reportsAfter []

/-! ## What is noted -/

/-- The warnings so far, the failure that is remembered of each who was asked, and how often the source of the estimate
was. -/
@[ext]
structure Noted where
  warnings : List Warning
  memory : Asked → Option Text
  estimatesAsked : Nat

/-- Takes in what came of a question. -/
def Noted.ask (n : Noted) (q : Query) : Noted where
  warnings := n.warnings ++ (q.reportAfter? (n.memory q.asked)).toList
  memory := Function.update n.memory q.asked (failure? q.answer)
  estimatesAsked := n.estimatesAsked + if q.asked = .estimate then 1 else 0

/-- What a journal holds, with the failures of the unlock sources for the one that is remembered in it. -/
def Journal.noted (j : Journal) (unlocks : Option Text → Nat → Option Text) : Noted where
  warnings := j.warnings
  memory
    | .estimate => j.estimateFailure
    | .unlock number => unlocks j.unlockFailure number
  estimatesAsked := j.estimatesAsked

theorem Noted.memory_ask_self (n : Noted) (asked : Asked) (answer : Answer) :
    (n.ask ⟨asked, answer⟩).memory asked = failure? answer :=
  Function.update_self ..

theorem Noted.memory_ask_of_ne (n : Noted) {asked other : Asked} (h : other ≠ asked) (answer : Answer) :
    (n.ask ⟨asked, answer⟩).memory other = n.memory other :=
  Function.update_of_ne h ..

theorem lastFailure_append_singleton (earlier : List Query) (q : Query) :
    (lastFailure · (earlier ++ [q])) = Function.update (lastFailure · earlier) q.asked (failure? q.answer) := by
  funext asked
  unfold lastFailure
  rw [List.filter_append]
  by_cases hasked : asked = q.asked
  · subst hasked
    simp
  · rw [Function.update_of_ne hasked]
    simp [Ne.symm hasked]

/-- What is noted of a row of questions, where the memory holds the last failures of the earlier ones. -/
theorem foldl_ask (queries : List Query) (n : Noted) {earlier : List Query}
    (hmemory : n.memory = (lastFailure · earlier)) :
    queries.foldl Noted.ask n =
      { warnings := n.warnings ++ reportsAfter earlier queries
        memory := (lastFailure · (earlier ++ queries))
        estimatesAsked := n.estimatesAsked + (queries.filter (·.asked = .estimate)).length } := by
  induction queries generalizing n earlier with
  | nil => simp [reportsAfter, ← hmemory]
  | cons q rest ih =>
    have hnext : (n.ask q).memory = (lastFailure · (earlier ++ [q])) := by
      rw [lastFailure_append_singleton, ← hmemory]
      rfl
    have hwarnings : (n.ask q).warnings ++ reportsAfter (earlier ++ [q]) rest
        = n.warnings ++ reportsAfter earlier (q :: rest) := by
      simp only [Noted.ask, reportsAfter, hmemory, List.append_assoc]
    have hasked : (n.ask q).estimatesAsked + (rest.filter (·.asked = .estimate)).length
        = n.estimatesAsked + ((q :: rest).filter (·.asked = .estimate)).length := by
      simp only [Noted.ask, List.filter_cons, decide_eq_true_eq]
      split
      · rw [List.length_cons]
        omega
      · omega
    rw [List.foldl_cons, ih (n.ask q) hnext, hwarnings, hasked, List.append_assoc, List.singleton_append]

/-! ## A process -/

/-- The screens of a process, and what it has noted. The last failure of the unlock source is noted with the screen
that asked. -/
structure Process where
  screens : Nat → Screen
  journal : Journal := {}

/-- What a screen begins with. -/
structure Opening where
  settings : Settings := .standard
  phone : Phone := {}
  user : Int := 0
  unlockSource : UnlockSource := .phone
  estimateSource : EstimateSource := .phone

/-- What a process is used for: a charging text or a line from given premises, or a move of one of its screens. -/
inductive Use
  | text (c : ChargeState) (p : Phrases) (options : DetailOptions) (source : Option Answer)
  | line (a : Premises)
  | move (number : Nat) (m : Move)

namespace Process

/-- A process in which nothing has happened. -/
def start (openings : Nat → Opening) : Process where
  screens number :=
    let o := openings number
    Screen.start o.settings o.phone o.user o.unlockSource o.estimateSource

/-- The screen of a number with the journal of the process, and with its own memory of the unlock source. -/
def screen (P : Process) (number : Nat) : Screen :=
  { P.screens number with
    journal := { P.journal with unlockFailure := (P.screens number).journal.unlockFailure } }

/-- The process after a use. -/
def use (P : Process) : Use → Process
  | .text c p options source => { P with journal := (chargingText c p options source P.journal).2 }
  | .line a => { P with journal := (a.line P.journal).2 }
  | .move number m =>
    let moved := ((P.screen number).move m).screen
    { screens := Function.update P.screens number moved, journal := moved.journal }

/-- The process after a row of uses. -/
def after (P : Process) (uses : List Use) : Process :=
  uses.foldl use P

/-- The questions that a use puts. -/
def queries (P : Process) : Use → List Query
  | .text c _ options source => c.queries options source
  | .line a => a.situation.queries a.source
  | .move number m => (P.screen number).queries number m

/-- The questions that a row of uses puts. -/
def log (P : Process) : List Use → List Query
  | [] => []
  | u :: rest => P.queries u ++ (P.use u).log rest

/-- The last failures of the unlock sources, which each screen remembers. -/
def unlockFailures (P : Process) (number : Nat) : Option Text :=
  (P.screens number).journal.unlockFailure

/-- What a process has noted. -/
def noted (P : Process) : Noted :=
  P.journal.noted fun _ => P.unlockFailures

end Process

/-! ## What a use notes -/

theorem warnUnless_eq (j : Journal) (last : Option Text) (asked : Asked) (text : Text) :
    j.warnUnless (last = some text) (asked.warning text)
      = { j with warnings := j.warnings ++ (Query.reportAfter? ⟨asked, .fails text⟩ last).toList } := by
  unfold Journal.warnUnless Query.reportAfter?
  by_cases hlast : last = some text
  · simp [hlast]
  · simp [hlast, Journal.warn]

theorem note_estimate (j : Journal) (answer : Answer) :
    j.note ⟨.estimate, answer⟩ = { j with
      warnings := j.warnings ++ (Query.reportAfter? ⟨.estimate, answer⟩ j.estimateFailure).toList
      estimateFailure := failure? answer
      estimatesAsked := j.estimatesAsked + 1 } := by
  cases answer with
  | gives v => simp [Journal.note, Journal.estimateAnswered, Query.reportAfter?, failure?]
  | fails text =>
    have hwarned := warnUnless_eq j j.estimateFailure .estimate text
    unfold Asked.warning at hwarned
    simp only [Journal.note, Journal.estimateFailed, hwarned, failure?]

theorem note_unlock (j : Journal) (number : Nat) (answer : Answer) :
    j.note ⟨.unlock number, answer⟩ = { j with
      warnings := j.warnings ++ (Query.reportAfter? ⟨.unlock number, answer⟩ j.unlockFailure).toList
      unlockFailure := failure? answer } := by
  cases answer with
  | gives v => simp [Journal.note, Journal.unlockAnswered, Query.reportAfter?, failure?]
  | fails text =>
    have hwarned := warnUnless_eq j j.unlockFailure (.unlock number) text
    unfold Asked.warning at hwarned
    simp only [Journal.note, Journal.unlockFailed, hwarned, failure?]

/-- A question for an estimate is noted as the law has it, whoever puts it. -/
theorem noted_note_of_estimate {q : Query} (hq : q.asked = .estimate) (unlocks : Option Text → Nat → Option Text)
    (j : Journal) : (j.note q).noted unlocks = (j.noted unlocks).ask q := by
  obtain ⟨asked, answer⟩ := q
  subst hq
  rw [note_estimate]
  refine Noted.ext rfl ?_ rfl
  funext asked
  cases asked with
  | estimate => exact (Noted.memory_ask_self ..).symm
  | unlock number =>
    rw [Noted.memory_ask_of_ne _ (by simp)]
    rfl

/-- A question to the unlock source is noted as the law has it where the screen that puts it lends its memory. -/
theorem noted_note_of_unlock {q : Query} {number : Nat} (hq : q.asked = .unlock number) (others : Nat → Option Text)
    (j : Journal) : (j.note q).noted (Function.update others number)
      = (j.noted (Function.update others number)).ask q := by
  obtain ⟨asked, answer⟩ := q
  subst hq
  have hmine : (j.noted (Function.update others number)).memory (.unlock number) = j.unlockFailure :=
    Function.update_self ..
  rw [note_unlock]
  refine Noted.ext ?_ ?_ rfl
  · unfold Noted.ask
    rw [hmine]
    rfl
  · funext asked
    cases asked with
    | estimate =>
      rw [Noted.memory_ask_of_ne _ (by simp)]
      rfl
    | unlock i =>
      by_cases hi : i = number
      · subst hi
        rw [Noted.memory_ask_self]
        exact Function.update_self ..
      · rw [Noted.memory_ask_of_ne _ (by simpa using hi)]
        exact (Function.update_of_ne hi ..).trans (Function.update_of_ne hi ..).symm

/-- A row of questions is noted as the law has it where each of them is. -/
theorem noted_foldl_note {unlocks : Option Text → Nat → Option Text} {queries : List Query}
    (h : ∀ q ∈ queries, ∀ j : Journal, (j.note q).noted unlocks = (j.noted unlocks).ask q) (j : Journal) :
    (queries.foldl Journal.note j).noted unlocks = queries.foldl Noted.ask (j.noted unlocks) := by
  induction queries generalizing j with
  | nil => rfl
  | cons q rest ih =>
    obtain ⟨hfirst, hrest⟩ := List.forall_mem_cons.mp h
    rw [List.foldl_cons, List.foldl_cons, ih hrest, hfirst]

theorem noted_foldl_note_of_estimates {queries : List Query} (h : ∀ q ∈ queries, q.asked = .estimate)
    (unlocks : Option Text → Nat → Option Text) (j : Journal) :
    (queries.foldl Journal.note j).noted unlocks = queries.foldl Noted.ask (j.noted unlocks) :=
  noted_foldl_note (fun q hq => noted_note_of_estimate (h q hq) unlocks) j

namespace Process

/-- The timers of every screen are its own. -/
def Owned (P : Process) : Prop :=
  ∀ number, (P.screens number).Owned

theorem owned_start (openings : Nat → Opening) : (start openings).Owned :=
  fun _ => Screen.owned_start ..

theorem Owned.screen {P : Process} (h : P.Owned) (number : Nat) : (P.screen number).Owned :=
  (h number).of_same rfl rfl

theorem Owned.use {P : Process} (h : P.Owned) (u : Use) : (P.use u).Owned := by
  cases u with
  | text | line => exact h
  | move number m =>
    intro i
    unfold Process.use
    by_cases hi : i = number
    · subst hi
      simp only [Function.update_self]
      exact (h.screen i).move m
    · simp only [Function.update_of_ne hi]
      exact h i

/-- What a process has noted, once the memory of a screen has been put into the journal. -/
theorem noted_screen (P : Process) (number : Nat) :
    P.noted = (P.screen number).journal.noted (Function.update P.unlockFailures number) := by
  refine Noted.ext rfl ?_ rfl
  funext asked
  cases asked with
  | estimate => rfl
  | unlock i => exact (congrFun (Function.update_eq_self number P.unlockFailures) i).symm

/-- What a process has noted after a move of a screen. -/
theorem noted_move (P : Process) (number : Nat) (m : Move) :
    (P.use (.move number m)).noted
      = ((P.screen number).move m).screen.journal.noted (Function.update P.unlockFailures number) := by
  refine Noted.ext rfl ?_ rfl
  funext asked
  cases asked with
  | estimate => rfl
  | unlock i => exact Function.apply_update (fun _ s => s.journal.unlockFailure) P.screens number _ i

/-- A use notes what came of its questions, and nothing else. -/
theorem use_noted {P : Process} (h : P.Owned) (u : Use) :
    (P.use u).noted = (P.queries u).foldl Noted.ask P.noted := by
  cases u with
  | text c p options source =>
    have hnoted := noted_foldl_note_of_estimates (c.asked_of_mem_queries options source)
      (fun _ => P.unlockFailures) P.journal
    rw [← chargingText_noted c p options source] at hnoted
    exact hnoted
  | line a =>
    have hnoted := noted_foldl_note_of_estimates (a.situation.asked_of_mem_queries a.source)
      (fun _ => P.unlockFailures) P.journal
    rw [← Situation.line_noted a.situation a.phrases a.source] at hnoted
    exact hnoted
  | move number m =>
    rw [noted_move, P.noted_screen number, Screen.move_noted (h.screen number) number m]
    refine noted_foldl_note (fun q hq => ?_) _
    rcases Screen.asked_of_mem_queries q hq with hunlock | hestimate
    · exact noted_note_of_unlock hunlock _
    · exact noted_note_of_estimate hestimate _

/-- A row of uses notes what came of all their questions in order. -/
theorem after_noted {P : Process} (h : P.Owned) (uses : List Use) :
    (P.after uses).noted = (P.log uses).foldl Noted.ask P.noted := by
  induction uses generalizing P with
  | nil => rfl
  | cons u rest ih =>
    have hrest := ih (h.use u)
    rw [use_noted h u, ← List.foldl_append] at hrest
    exact hrest

theorem Owned.after {P : Process} (h : P.Owned) (uses : List Use) : (P.after uses).Owned := by
  induction uses generalizing P with
  | nil => exact h
  | cons u rest ih => exact ih (h.use u)

end Process

/-- Whatever a process is used for, the warnings are those that the row of its questions calls for: one for each
failure whose text is not that of the last question to the same source, or whose last question was answered, or that
is the first. Every question for an estimate is counted, and a use that puts no question reports nothing and leaves
what is remembered as it was. -/
theorem failures_reported_once (openings : Nat → Opening) (uses : List Use) :
    ((Process.start openings).after uses).journal.warnings = reports ((Process.start openings).log uses) ∧
      ((Process.start openings).after uses).journal.estimatesAsked
        = (((Process.start openings).log uses).filter (·.asked = .estimate)).length ∧
      ∀ u, ((Process.start openings).after uses).queries u = [] →
        (((Process.start openings).after uses).use u).noted = ((Process.start openings).after uses).noted := by
  have howned := Process.owned_start openings
  have hempty : (Process.start openings).noted.memory = (lastFailure · []) := by
    funext asked
    cases asked with
    | estimate => rfl
    | unlock number => rfl
  have hnoted := Process.after_noted howned uses
  rw [foldl_ask _ _ hempty] at hnoted
  refine ⟨congrArg Noted.warnings hnoted, ?_, fun u hnone => ?_⟩
  · exact (congrArg Noted.estimatesAsked hnoted).trans (Nat.zero_add _)
  · rw [Process.use_noted (howned.after uses) u, hnone]
    rfl

/-- Screens that never learn whether the user is unlocked. -/
def nobodyKnows : Nat → Opening :=
  fun _ => { unlockSource := .answer (.fails "no user") }

/-- Two screens are looked at and put to use while they are hidden, the first of them twice. -/
def twoHiddenScreens : List Use :=
  [.move 0 (.act .look), .move 1 (.act .look), .move 0 (.act (.rest none)), .move 0 (.act .close)]

theorem failures_reported_once_twoHiddenScreens :
    ((Process.start nobodyKnows).after twoHiddenScreens).journal.warnings
        = [.unlockUnknown "no user", .unlockUnknown "no user"] ∧
      (((Process.start nobodyKnows).after twoHiddenScreens).use (.move 1 (.act .close))).noted
        = ((Process.start nobodyKnows).after twoHiddenScreens).noted := by
  obtain ⟨hwarnings, _, hquiet⟩ := failures_reported_once nobodyKnows twoHiddenScreens
  refine ⟨hwarnings.trans ?_, hquiet _ rfl⟩
  decide +kernel

/-- Each is remembered for itself, and an answer of any kind lets the next failure be reported again. -/
example :
    reports
      [⟨.estimate, .fails "busy"⟩, ⟨.unlock 0, .fails "busy"⟩, ⟨.unlock 1, .fails "busy"⟩, ⟨.estimate, .fails "busy"⟩,
        ⟨.estimate, .gives .null⟩, ⟨.unlock 0, .fails "busy"⟩, ⟨.estimate, .fails "busy"⟩]
      = [.estimateFailed "busy", .unlockUnknown "busy", .unlockUnknown "busy", .estimateFailed "busy"] := by
  decide +kernel

end LockScreen
