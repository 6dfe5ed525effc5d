import LockScreen.Proofs.Screen.Asking
import Mathlib.Data.List.Destutter

/-!
# What a locked screen gives away

While the user is locked out a visible screen shows the notice that storage is locked, and nothing else. A
refresh that is told "locked", or told nothing, pushes the notice (`refresh_of_locked`), and what asks nobody
shows nothing, so every move of a run keeps the screen `Guarded`.

So whoever watches the display of a screen that is locked whenever it asks sees when it is visible and which
notice is in force; two such screens that agree in this look the same (`notice_only_while_locked`).
-/

namespace LockScreen.Screen

/-! ## The notice -/

/-- The line that a visible screen shows of locked storage. -/
def lockedLine (s : Screen) : Line :=
  ⟨s.settings.phrases.storageLocked, .white, .storageLocked⟩

theorem estimatesAsked_askUnlocked (s : Screen) :
    s.askUnlocked.journal.estimatesAsked = s.journal.estimatesAsked := by
  unfold askUnlocked
  cases s.unlockAnswer with
  | gives => rfl
  | fails text =>
    simp only [Journal.unlockFailed, Journal.warnUnless]
    split
    · rfl
    · rfl

/-- A refresh that is told that the user is locked out, or that gets no answer, shows the notice on a visible
screen, and asks for no estimate. -/
theorem refresh_of_locked {s : Screen} (h : s.isUnlocked = false) :
    ∃ journal : Journal, journal.estimatesAsked = s.journal.estimatesAsked ∧
      s.refresh = done (if s.visible then push { s with journal } s.lockedLine
        else { s with journal }) := by
  have hestimates := s.estimatesAsked_askUnlocked
  obtain ⟨journal, hasked⟩ := s.askUnlocked_frame
  rw [hasked] at hestimates
  refine ⟨journal, hestimates, ?_⟩
  have hlocked : (situation { s with journal }).unlocked = false := h
  have hvisible : (situation { s with journal }).visible = s.visible := rfl
  unfold refresh
  simp only [hasked, Situation.line, hlocked, hvisible]
  cases s.visible with
  | true => rfl
  | false => rfl

/-- A hidden screen keeps what its display says. -/
theorem display_refresh_of_hidden {s : Screen} (h : s.visible = false) :
    s.refresh.screen.display = s.display := by
  obtain ⟨journal, hrefresh⟩ := refresh_of_hidden h
  rw [hrefresh]
  rfl

/-- A move that leaves the screen hidden leaves the text on the display. -/
theorem text_move_of_hidden {s : Screen} (howned : s.Owned) {m : Move}
    (h : (s.move m).screen.visible = false) :
    (s.move m).screen.display.text = s.display.text := by
  by_cases hlook : m = .act .look
  · obtain ⟨journal, hasked⟩ := s.askUnlocked_frame
    simp only [hlook, move, step, act, hasked, done]
  · have haccounted := move_cases howned hlook
    cases hasks : s.asks m with
    | true =>
      -- the refresh is one of a screen that is hidden as well
      obtain ⟨v, hface, _, hguard, _, hrefresh⟩ := haccounted.refreshes hasks
      have hhidden : v.visible = false := (congrArg Prod.fst hguard).symm.trans h
      have hshown : (s.move m).screen.display.text = v.refresh.screen.display.text :=
        congrArg Prod.fst hrefresh
      rw [hshown, display_refresh_of_hidden hhidden]
      exact congrArg Prod.fst hface
    | false => exact congrArg Prod.fst (haccounted.silent hasks).face

/-! ## Runs of a locked screen -/

/-- Whenever the unlock source is asked in a move, it says that the user is locked out, or says nothing. -/
def Locked (s : Screen) (m : Move) : Prop :=
  s.asks m = true → s.isUnlocked = false

/-- A visible screen shows the notice in white, and no estimate was asked for. -/
structure Guarded (s : Screen) : Prop where
  text : s.visible = true → s.display.text = s.settings.phrases.storageLocked
  color : s.visible = true → s.display.color = .white
  estimatesAsked : s.journal.estimatesAsked = 0

theorem guarded_start (settings : Settings) (phone : Phone) (user : Int) (unlock : UnlockSource)
    (estimate : EstimateSource) : (start settings phone user unlock estimate).Guarded := by
  have hhidden : (start settings phone user unlock estimate).visible ≠ true := Bool.false_ne_true
  exact ⟨fun h => absurd h hhidden, fun h => absurd h hhidden, rfl⟩

theorem guarded_of_refreshes {s u : Screen} (h : s.Refreshes u) (hlocked : s.isUnlocked = false)
    (hestimates : s.journal.estimatesAsked = 0) : u.Guarded := by
  obtain ⟨v, hface, hanswer, hguard, _, hrefresh⟩ := h
  have hvlocked : v.isUnlocked = false := by
    unfold isUnlocked at hlocked ⊢
    rw [hanswer, hlocked]
  obtain ⟨journal, hjournal, hdone⟩ := refresh_of_locked hvlocked
  have hvisible : u.visible = v.visible := congrArg Prod.fst hguard
  have hsettings : u.settings = v.settings := congrArg (·.2.1) hguard
  rw [hdone] at hrefresh
  refine ⟨?_, ?_, ?_⟩
  · intro hu
    rw [hvisible] at hu
    rw [hu] at hrefresh
    rw [hsettings]
    exact congrArg Prod.fst hrefresh
  · intro hu
    rw [hvisible] at hu
    rw [hu] at hrefresh
    exact congrArg (·.2.1) hrefresh
  · have hvestimates : v.journal.estimatesAsked = s.journal.estimatesAsked :=
      congrArg (·.2.2.estimatesAsked) hface
    have hu : u.journal.estimatesAsked = journal.estimatesAsked := by
      refine (congrArg (·.2.2.estimatesAsked) hrefresh).trans ?_
      cases v.visible with
      | true => rfl
      | false => rfl
    rw [hu, hjournal, hvestimates, hestimates]

theorem Guarded.of_silent {s u : Screen} (h : s.Guarded) (hsilent : s.Silent u) : u.Guarded := by
  have htext : u.display.text = s.display.text := congrArg Prod.fst hsilent.face
  have hcolor : u.display.color = s.display.color := congrArg (·.2.1) hsilent.face
  have hjournal : u.journal = s.journal := congrArg (·.2.2) hsilent.face
  refine ⟨?_, ?_, ?_⟩
  · intro hu
    rw [htext, hsilent.settings]
    exact h.text (hsilent.visible hu)
  · intro hu
    rw [hcolor]
    exact h.color (hsilent.visible hu)
  · rw [hjournal]
    exact h.estimatesAsked

theorem Guarded.move {s : Screen} (h : s.Guarded) (howned : s.Owned) {m : Move} (hm : s.Locked m) :
    (s.move m).screen.Guarded := by
  by_cases hlook : m = .act .look
  · have hestimates := s.estimatesAsked_askUnlocked
    obtain ⟨journal, hasked⟩ := s.askUnlocked_frame
    rw [hasked] at hestimates
    subst hlook
    simp only [Screen.move, step, act, hasked]
    exact ⟨h.text, h.color, hestimates.trans h.estimatesAsked⟩
  · have haccounted := move_cases howned hlook
    cases hasks : s.asks m with
    | true => exact guarded_of_refreshes (haccounted.refreshes hasks) (hm hasks) h.estimatesAsked
    | false => exact h.of_silent (haccounted.silent hasks)

/-- The screens of a run: the first one, and the one after each move. -/
def screens (s : Screen) : List Move → List Screen
  | [] => [s]
  | m :: rest => s :: (s.move m).screen.screens rest

theorem guarded_of_mem_screens {s : Screen} (h : s.Guarded) (howned : s.Owned) {moves : List Move}
    (hlocked : s.Throughout Locked moves) : ∀ u ∈ s.screens moves, u.Guarded := by
  induction moves generalizing s with
  | nil => simpa [screens] using h
  | cons m rest ih =>
    have hrest := ih (h.move howned hlocked.1) (howned.move m) hlocked.2
    simpa [screens] using ⟨h, hrest⟩

/-- As long as the screen is never shown, the text on the display stays. -/
theorem text_moved_of_hidden {s : Screen} (howned : s.Owned) {moves : List Move}
    (h : ∀ u ∈ s.screens moves, u.visible = false) :
    (s.moved moves).display.text = s.display.text := by
  induction moves generalizing s with
  | nil => rfl
  | cons m rest ih =>
    have hrest : ∀ u ∈ (s.move m).screen.screens rest, u.visible = false := fun u hu =>
      h u (List.mem_cons_of_mem s hu)
    have hfirst : (s.move m).screen.visible = false := by
      refine hrest _ ?_
      cases rest <;> exact List.mem_cons_self
    exact (ih (howned.move m) hrest).trans (text_move_of_hidden howned hfirst)

/-! ## What an onlooker sees -/

/-- A screen that nothing has happened to. -/
def IsStart (s : Screen) : Prop :=
  ∃ settings phone user unlock estimate, s = start settings phone user unlock estimate

/-- What an onlooker sees of a screen: the text and the colour, while it is visible. -/
def seen (s : Screen) : Option (Text × Color) :=
  if s.visible then some (s.display.text, s.display.color) else none

/-- What an onlooker may learn of a screen: whether it is visible, and which notice is in force then. -/
def permitted (s : Screen) : Option Text :=
  if s.visible then some s.settings.phrases.storageLocked else none

/-- What an onlooker sees, or may learn, of a run. How long it stays the same tells nothing, since the runs
of two screens need not keep step. -/
def trace {α : Type} [DecidableEq α] (view : Screen → α) (s : Screen) (moves : List Move) : List α :=
  ((s.screens moves).map view).destutter (· ≠ ·)

/-- The notice in white. -/
def asNotice (text : Option Text) : Option (Text × Color) :=
  text.map fun text => (text, .white)

theorem asNotice_injective : Function.Injective asNotice :=
  Option.map_injective fun _ _ h => congrArg Prod.fst h

theorem Guarded.seen_eq {s : Screen} (h : s.Guarded) : s.seen = asNotice s.permitted := by
  unfold seen permitted
  cases hvisible : s.visible with
  | true =>
    rw [h.text hvisible, h.color hvisible]
    rfl
  | false => rfl

theorem trace_seen {s : Screen} {moves : List Move} (h : ∀ u ∈ s.screens moves, u.Guarded) :
    trace seen s moves = (trace permitted s moves).map asNotice := by
  have hmap : (s.screens moves).map seen = ((s.screens moves).map permitted).map asNotice := by
    rw [List.map_map]
    exact List.map_congr_left fun u hu => (h u hu).seen_eq
  unfold trace
  rw [hmap, ← List.map_destutter_ne _ asNotice_injective]

/-- A screen that nothing has happened to, whose user is locked out whenever it asks, shows the notice in
white while it is visible and no text before it was ever shown, and it asks for no estimate. Two of them that
are visible by turns with the same notices cannot be told apart by what an onlooker sees. -/
theorem notice_only_while_locked {s : Screen} (hs : s.IsStart) {moves : List Move}
    (hlocked : s.Throughout Locked moves) :
    (∀ u ∈ s.screens moves, u.Guarded) ∧
      ((∀ u ∈ s.screens moves, u.visible = false) → (s.moved moves).display.text = "") ∧
      ∀ (t : Screen) (others : List Move), t.IsStart → t.Throughout Locked others →
        trace permitted s moves = trace permitted t others →
          trace seen s moves = trace seen t others := by
  have hguarded {s : Screen} (hs : s.IsStart) {moves : List Move}
      (hlocked : s.Throughout Locked moves) : ∀ u ∈ s.screens moves, u.Guarded := by
    obtain ⟨settings, phone, user, unlock, estimate, rfl⟩ := hs
    exact guarded_of_mem_screens (guarded_start ..) (owned_start ..) hlocked
  refine ⟨hguarded hs hlocked, ?_, ?_⟩
  · intro hhidden
    obtain ⟨settings, phone, user, unlock, estimate, rfl⟩ := hs
    exact text_moved_of_hidden (owned_start ..) hhidden
  · intro t others ht hothers hsame
    rw [trace_seen (hguarded hs hlocked), trace_seen (hguarded ht hothers), hsame]

/-- A message is up on a screen that gets no answer, and comes down again. -/
def messageMoves : List Move :=
  [.act (.put ⟨some "Look here", .white⟩), .act (.setVisible true), .act (.takeDownAfter (.int 5)),
    .act (.advance 5)]

/-- A screen is shown that gets a no for an answer, and a finger is tried. -/
def fingerMoves : List Move :=
  [.act (.rest (some "Swipe")), .act (.setVisible true), .act (.event (.sensorError 7 "Wet"))]

theorem notice_only_while_locked_twoRuns :
    trace seen (start .standard {} 0 (.answer (.fails "No answer")) .phone) messageMoves
      = trace seen (start .standard {} 1 (.answer (.gives (.bool false))) .nobody) fingerMoves := by
  have hmessage : (start .standard {} 0 (.answer (.fails "No answer")) .phone).Throughout Locked
      messageMoves := ⟨fun _ => rfl, fun _ => rfl, fun _ => rfl, fun _ => by decide +kernel, trivial⟩
  have hfinger : (start .standard {} 1 (.answer (.gives (.bool false))) .nobody).Throughout Locked
      fingerMoves := ⟨fun _ => rfl, fun _ => rfl, fun _ => rfl, trivial⟩
  exact (notice_only_while_locked ⟨_, _, _, _, _, rfl⟩ hmessage).2.2 _ _ ⟨_, _, _, _, _, rfl⟩ hfinger
    (by decide +kernel)

end LockScreen.Screen
