import LockScreen.Timing.Metronome

/-!
# The schedule of the ticks

Whatever happens to a metronome, the interval in force and the wait in progress follow from the row of what happened
(`Course`): a wait begins with the first turn after a start or with a tick, keeps the interval that was in force then,
and goes on until it is stopped or ends with the next tick. No time passes between a start and the turn after it, so the
first wait begins at the moment of the start (`TickCounter.OnSchedule.prompt`), with what the interval has become by
then. A metronome that has run many intervals at once has ticked as one that ran them one by one
(`Metronome.runUntil_of_reached`), so every tick comes at the end of the wait in progress
(`Course.timely_runUntil`), and none that is reached stays out (`Metronome.reach_lt_of_runUntil`).

Ticks fail as they like, each for itself. They have no part in the metronome, and so none in the times of other ticks.
The laws together are `ticks_on_schedule`.
-/

namespace LockScreen

namespace Metronome

variable {m : Metronome}

theorem period_pos {period : Nat} (h : m.period? = some period) : 0 < period := by
  obtain ⟨length, _, rfl⟩ := Option.map_eq_some_iff.mp h
  exact Nat.le_max_left 1 length

/-- After the ticks up to a moment the metronome waits for one that is not reached. -/
theorem reach_lt_of_runUntil {now moment : Nat} (h : (m.runUntil now).2.wait = some (.until moment)) :
    Clock.reach now < moment := by
  unfold runUntil at h
  split at h
  · rename_i first hwait
    split at h
    · rename_i hreached
      split at h
      · cases h
      · rename_i period hperiod
        cases h
        have hrest := Nat.mod_lt (Clock.reach now - first) (period_pos hperiod)
        have hdivision := Nat.div_add_mod (Clock.reach now - first) period
        rw [Nat.succ_mul, Nat.mul_comm _ period]
        omega
    · rename_i hahead
      dsimp only at h
      rw [hwait] at h
      cases h
      exact Nat.lt_of_not_le hahead
  · rename_i hnone
    exact absurd h (hnone moment)

/-- While the end of the wait is still to come there are no ticks. -/
theorem runUntil_of_reach_lt {now : Nat}
    (h : ∀ moment, m.wait = some (.until moment) → Clock.reach now < moment) : m.runUntil now = ([], m) := by
  unfold runUntil
  split
  · rename_i first hwait
    exact if_neg (Nat.not_le_of_lt (h first hwait))
  · rfl

/-- A tick that is reached comes first, and the others are those of a wait that begins there. -/
theorem runUntil_of_reached {first now : Nat} (hwait : m.wait = some (.until first))
    (hreached : first ≤ Clock.reach now) :
    m.runUntil now = (first :: (runUntil { m with wait := some (m.waitFrom first) } now).1,
      (runUntil { m with wait := some (m.waitFrom first) } now).2) := by
  cases hperiod : m.period? with
  | none =>
    have hforever : m.waitFrom first = .forever := by
      unfold waitFrom
      rw [hperiod]
    rw [hforever]
    unfold runUntil
    simp only [hwait, if_pos hreached, hperiod]
  | some period =>
    have hnext : m.waitFrom first = .until (first + period) := by
      unfold waitFrom
      rw [hperiod]
    have hsame : period? { m with wait := some (.until (first + period)) } = some period := hperiod
    rw [hnext]
    unfold runUntil
    simp only [hwait, if_pos hreached, hperiod, hsame]
    have hpositive := period_pos hperiod
    by_cases hagain : first + period ≤ Clock.reach now
    · have hcount : (Clock.reach now - first) / period = (Clock.reach now - (first + period)) / period + 1 := by
        rw [Nat.div_eq_sub_div hpositive (by omega), Nat.sub_sub]
      have hshift (n : Nat) : first + (n + 1) * period = first + period + n * period := by
        rw [Nat.succ_mul]
        omega
      rw [if_pos hagain, hcount, List.range_succ_eq_map, List.map_cons, List.map_map, Nat.zero_mul, Nat.add_zero,
        hshift]
      simp only [Function.comp_def, Nat.succ_eq_add_one, hshift]
    · have hlast : (Clock.reach now - first) / period = 0 := Nat.div_eq_of_lt (by omega)
      rw [if_neg hagain, hlast, Nat.zero_add, Nat.one_mul]
      simp

end Metronome

/-! ## Waits -/

/-- A wait: the moment at which it began, and the interval in force then. -/
structure Span where
  began : Nat
  interval : Binary64

/-- The end of a wait, one interval after its beginning and at least one step of the clock; none where the interval is
not finite. -/
def Span.ends? (w : Span) : Option Nat :=
  (Clock.length? w.interval).map fun length => w.began + max 1 length

/-- A wait as a metronome keeps it. -/
def Span.wait (w : Span) : Wait :=
  match w.ends? with
  | some moment => .until moment
  | none => .forever

theorem Span.wait_eq_until_iff {w : Span} {moment : Nat} : w.wait = .until moment ↔ w.ends? = some moment := by
  unfold Span.wait
  cases w.ends? with
  | none => simp
  | some ends => simp

/-- What happens to a metronome: it is started at a moment, it has its turn, it is stopped, its interval is changed, or
it ticks. -/
inductive Happening
  | started (moment : Nat)
  | turned (moment : Nat)
  | stopped
  | changed (interval : Binary64)
  | ticked (moment : Nat)

/-- What a metronome is doing: nothing, or it was started at a moment and has had no turn since, or it waits. -/
inductive Phase
  | idle
  | asked (moment : Nat)
  | waiting (w : Span)

/-- What a metronome keeps of what it is doing. -/
def Phase.wait : Phase → Option Wait
  | .idle => none
  | .asked _ => some .turn
  | .waiting w => some w.wait

/-- The interval in force, and what the metronome is doing. -/
structure Course where
  interval : Binary64
  phase : Phase := .idle

namespace Course

/-- What is in force after something has happened. A start counts only while the metronome is idle, and a turn only
after a start. A change of the interval leaves the wait in progress; a tick ends it, and the next one begins there. -/
def after (k : Course) : Happening → Course
  | .started moment =>
    match k.phase with
    | .idle => { k with phase := .asked moment }
    | _ => k
  | .turned moment =>
    match k.phase with
    | .asked _ => { k with phase := .waiting ⟨moment, k.interval⟩ }
    | _ => k
  | .stopped => { k with phase := .idle }
  | .changed interval => { k with interval }
  | .ticked moment => { k with phase := .waiting ⟨moment, k.interval⟩ }

/-- What is in force after all of a row. -/
def afterAll (k : Course) (happenings : List Happening) : Course :=
  happenings.foldl after k

/-- The end of the wait in progress. -/
def ends? (k : Course) : Option Nat :=
  match k.phase with
  | .waiting w => w.ends?
  | _ => none

/-- What happens is on time: a tick comes at the end of the wait in progress, and a turn that begins a wait comes at the
moment of the start. -/
def OnTime (k : Course) : Happening → Prop
  | .ticked moment => k.ends? = some moment
  | .turned moment => ∀ asked, k.phase = .asked asked → moment = asked
  | _ => True

/-- Everything in a row is on time. -/
def Timely (k : Course) : List Happening → Prop
  | [] => True
  | h :: rest => k.OnTime h ∧ (k.after h).Timely rest

variable {k : Course}

theorem timely_append {before behind : List Happening} :
    k.Timely (before ++ behind) ↔ k.Timely before ∧ (k.afterAll before).Timely behind := by
  induction before generalizing k with
  | nil => simp [Timely, afterAll]
  | cons h rest ih =>
    rw [List.cons_append, Timely, Timely, ih, and_assoc]
    rfl

/-- The metronome with this interval that does this. -/
def metronome (k : Course) : Metronome where
  interval := k.interval
  wait := k.phase.wait

theorem wait_metronome_eq_until_iff {moment : Nat} :
    k.metronome.wait = some (.until moment) ↔ k.ends? = some moment := by
  unfold metronome Course.ends?
  cases k.phase with
  | idle | asked => simp [Phase.wait]
  | waiting w => simpa [Phase.wait] using Span.wait_eq_until_iff

theorem waitFrom_metronome (k : Course) (moment : Nat) :
    k.metronome.waitFrom moment = (Span.mk moment k.interval).wait := by
  unfold Metronome.waitFrom Metronome.period? Span.wait Span.ends? metronome
  cases Clock.length? k.interval with
  | none => rfl
  | some length => rfl

theorem start_metronome (k : Course) (now : Nat) : k.metronome.start = (k.after (.started now)).metronome := by
  obtain ⟨interval, phase⟩ := k
  cases phase with
  | idle | asked | waiting => rfl

theorem turn_metronome (k : Course) (now : Nat) : k.metronome.turn now = (k.after (.turned now)).metronome := by
  unfold Metronome.turn
  rw [waitFrom_metronome]
  obtain ⟨interval, phase⟩ := k
  cases phase with
  | idle | asked => rfl
  | waiting w =>
    have hwait : w.wait ≠ .turn := by
      unfold Span.wait
      split <;> exact nofun
    simp only [metronome, Phase.wait, after]
    split
    · rename_i hturn
      exact absurd (Option.some.inj hturn) hwait
    · rfl

/-- The first tick that is reached comes at the end of the wait, and the others after it. -/
theorem runUntil_of_ends? {tick now : Nat} (hends : k.ends? = some tick) (hreached : tick ≤ Clock.reach now) :
    k.metronome.runUntil now = (tick :: ((k.after (.ticked tick)).metronome.runUntil now).1,
      ((k.after (.ticked tick)).metronome.runUntil now).2) := by
  have hnext : { k.metronome with wait := some (k.metronome.waitFrom tick) } = (k.after (.ticked tick)).metronome := by
    rw [waitFrom_metronome]
    rfl
  rw [Metronome.runUntil_of_reached (wait_metronome_eq_until_iff.mpr hends) hreached, hnext]

theorem runUntil_of_not_ends? {now : Nat} (h : ∀ tick, k.ends? = some tick → Clock.reach now < tick) :
    k.metronome.runUntil now = ([], k.metronome) :=
  Metronome.runUntil_of_reach_lt fun tick hwait => h tick (wait_metronome_eq_until_iff.mp hwait)

/-- The ticks of a metronome that runs on come at the ends of its waits, none of them before it is reached. -/
theorem timely_runUntil (k : Course) (now : Nat) :
    k.Timely ((k.metronome.runUntil now).1.map .ticked) ∧
      (k.metronome.runUntil now).2 = (k.afterAll ((k.metronome.runUntil now).1.map .ticked)).metronome ∧
      ∀ tick ∈ (k.metronome.runUntil now).1, tick ≤ Clock.reach now := by
  generalize hticks : (k.metronome.runUntil now).1 = ticks
  induction ticks generalizing k with
  | nil =>
    have hnone : ∀ tick, k.ends? = some tick → Clock.reach now < tick := by
      intro tick hends
      refine Nat.lt_of_not_le fun hreached => ?_
      rw [runUntil_of_ends? hends hreached] at hticks
      cases hticks
    rw [runUntil_of_not_ends? hnone]
    exact ⟨trivial, rfl, nofun⟩
  | cons tick rest ih =>
    by_cases hreached : ∃ first, k.ends? = some first ∧ first ≤ Clock.reach now
    · obtain ⟨first, hends, hfirst⟩ := hreached
      rw [runUntil_of_ends? hends hfirst] at hticks ⊢
      obtain ⟨rfl, hrest⟩ := List.cons.inj hticks
      obtain ⟨htimely, hmetronome, hall⟩ := ih (k.after (.ticked first)) hrest
      exact ⟨⟨hends, htimely⟩, hmetronome, List.forall_mem_cons.mpr ⟨hfirst, hall⟩⟩
    · have hnone : ∀ first, k.ends? = some first → Clock.reach now < first := fun first hends =>
        Nat.lt_of_not_le fun hfirst => hreached ⟨first, hends, hfirst⟩
      rw [runUntil_of_not_ends? hnone] at hticks
      cases hticks

end Course

/-! ## Runs of a counter -/

/-- The moment of a tick. -/
def Happening.tick? : Happening → Option Nat
  | .ticked moment => some moment
  | _ => none

namespace TickCounter

/-- What is done to a counter. -/
inductive Step
  | start
  | turn
  | stop
  | setInterval (interval : Value)
  | advance (millis : Nat)

/-- The milliseconds that a step takes. -/
def Step.elapsed : Step → Nat
  | .advance millis => millis
  | _ => 0

/-- One tick, which fails or not by its number. -/
def tickWith (fails : Nat → Bool) (c : TickCounter) : TickCounter :=
  tick { c with failing := fails c.ticks }

/-- Lets the clock run for some milliseconds, with ticks that fail or not by their numbers. -/
def advanceWith (fails : Nat → Bool) (c : TickCounter) (millis : Nat) : TickCounter :=
  let ran := c.turn.metronome.runUntil (Clock.atMilli (c.millis + millis))
  ran.1.foldl (fun c _ => c.tickWith fails) { c with metronome := ran.2, millis := c.millis + millis }

/-- One step; an interval that is refused changes nothing. -/
def step (fails : Nat → Bool) (c : TickCounter) : Step → TickCounter
  | .start => c.start
  | .turn => c.turn
  | .stop => c.stop
  | .setInterval interval =>
    match c.metronome.setInterval interval with
    | .ok metronome => { c with metronome }
    | .error _ => c
  | .advance millis => c.advanceWith fails millis

/-- The counter after a row of steps. -/
def run (fails : Nat → Bool) (c : TickCounter) (steps : List Step) : TickCounter :=
  steps.foldl (step fails) c

/-- What happens to the metronome in a step. -/
def happenings (c : TickCounter) : Step → List Happening
  | .start => [.started (Clock.atMilli c.millis)]
  | .turn => [.turned (Clock.atMilli c.millis)]
  | .stop => [.stopped]
  | .setInterval interval =>
    match Metronome.checkInterval interval with
    | .ok interval => [.changed interval]
    | .error _ => []
  | .advance millis =>
    .turned (Clock.atMilli c.millis)
      :: (c.turn.metronome.runUntil (Clock.atMilli (c.millis + millis))).1.map .ticked

/-- What happens to the metronome in a row of steps. -/
def history (fails : Nat → Bool) (c : TickCounter) : List Step → List Happening
  | [] => []
  | s :: rest => c.happenings s ++ (c.step fails s).history fails rest

variable {fails : Nat → Bool} {c : TickCounter}

/-! ## Ticks -/

/-- Ticks have no part in the metronome or the clock, and all of them are counted. -/
theorem foldl_tickWith (ticks : List Nat) (c : TickCounter) :
    (ticks.foldl (fun c _ => c.tickWith fails) c).metronome = c.metronome ∧
      (ticks.foldl (fun c _ => c.tickWith fails) c).millis = c.millis ∧
      (ticks.foldl (fun c _ => c.tickWith fails) c).ticks = c.ticks + ticks.length := by
  induction ticks generalizing c with
  | nil => exact ⟨rfl, rfl, rfl⟩
  | cons tick rest ih =>
    obtain ⟨hmetronome, hmillis, hticks⟩ := ih (c.tickWith fails)
    refine ⟨hmetronome, hmillis, hticks.trans ?_⟩
    rw [List.length_cons, Nat.add_comm rest.length, ← Nat.add_assoc]
    rfl

/-- There is one warning for each tick that failed. -/
def Warned (fails : Nat → Bool) (c : TickCounter) : Prop :=
  c.warnings = ((List.range c.ticks).filter fails).map fun _ => .tickFailed

theorem Warned.tickWith (h : c.Warned fails) : (c.tickWith fails).Warned fails := by
  unfold Warned at h ⊢
  unfold TickCounter.tickWith tick
  dsimp only
  rw [List.range_succ, List.filter_append, List.map_append, ← h]
  split
  · rename_i hfails
    rw [List.filter_cons_of_pos hfails]
    rfl
  · rename_i hfails
    rw [List.filter_cons_of_neg hfails]
    exact (List.append_nil _).symm

theorem Warned.foldl_tickWith (h : c.Warned fails) (ticks : List Nat) :
    (ticks.foldl (fun c _ => c.tickWith fails) c).Warned fails := by
  induction ticks generalizing c with
  | nil => exact h
  | cons tick rest ih => exact ih h.tickWith

theorem foldl_tick (ticks : List Nat) (c : TickCounter) :
    ticks.foldl (fun c _ => c.tick) c = ticks.foldl (fun d _ => d.tickWith fun _ => c.failing) c := by
  induction ticks generalizing c with
  | nil => rfl
  | cons tick rest ih => exact ih c.tick

/-- Where all ticks fail or none does, the clock runs as it does for the counter itself. -/
theorem advanceWith_failing (c : TickCounter) (millis : Nat) :
    c.advanceWith (fun _ => c.failing) millis = c.advance millis :=
  (foldl_tick _ { c with
    metronome := (c.turn.metronome.runUntil (Clock.atMilli (c.millis + millis))).2
    millis := c.millis + millis }).symm

/-! ## Steps -/

/-- An interval is taken or refused; if it is refused, nothing happens. -/
theorem step_setInterval (c : TickCounter) (v : Value) :
    (∃ interval, c.happenings (.setInterval v) = [.changed interval] ∧
      ∀ fails, c.step fails (.setInterval v) = { c with metronome.interval := interval }) ∨
      c.happenings (.setInterval v) = [] ∧ ∀ fails, c.step fails (.setInterval v) = c := by
  simp only [happenings, step, Metronome.setInterval]
  cases Metronome.checkInterval v with
  | error fault => exact .inr ⟨rfl, fun _ => rfl⟩
  | ok interval => exact .inl ⟨interval, rfl, fun _ => rfl⟩

theorem filterMap_tick? (ticks : List Nat) : (ticks.map Happening.ticked).filterMap Happening.tick? = ticks := by
  rw [List.filterMap_map]
  exact List.filterMap_some

variable {k : Course}

theorem metronome_turn (h : c.metronome = k.metronome) :
    c.turn.metronome = (k.after (.turned (Clock.atMilli c.millis))).metronome :=
  (congrArg (Metronome.turn · (Clock.atMilli c.millis)) h).trans (k.turn_metronome _)

/-- A metronome that was started and has had no turn since was started where the clock stands. -/
def Prompt (c : TickCounter) (k : Course) : Prop :=
  ∀ asked, k.phase = .asked asked → Clock.atMilli c.millis = asked

/-- What happens in a step is timely, and all ticks of it are reached when it is over. -/
theorem timely_step (h : c.metronome = k.metronome) (hprompt : c.Prompt k) (s : Step) :
    k.Timely (c.happenings s) ∧ ∀ tick ∈ (c.happenings s).filterMap Happening.tick?,
      tick ≤ Clock.reach (Clock.atMilli (c.millis + s.elapsed)) := by
  cases s with
  | start | stop => exact ⟨⟨trivial, trivial⟩, nofun⟩
  | turn => exact ⟨⟨hprompt, trivial⟩, nofun⟩
  | setInterval v =>
    rcases c.step_setInterval v with ⟨interval, hhappenings, _⟩ | ⟨hhappenings, _⟩
    · rw [hhappenings]
      exact ⟨⟨trivial, trivial⟩, nofun⟩
    · rw [hhappenings]
      exact ⟨trivial, nofun⟩
  | advance millis =>
    obtain ⟨htimely, _, hreached⟩ :=
      (k.after (.turned (Clock.atMilli c.millis))).timely_runUntil (Clock.atMilli (c.millis + millis))
    rw [← metronome_turn h] at htimely hreached
    refine ⟨⟨hprompt, htimely⟩, ?_⟩
    intro tick htick
    have hticks : (c.happenings (.advance millis)).filterMap Happening.tick?
        = (c.turn.metronome.runUntil (Clock.atMilli (c.millis + millis))).1 := filterMap_tick? _
    rw [hticks] at htick
    exact hreached tick htick

/-- A step moves the metronome on by what happens in it, and the clock, and then makes the ticks that have come. -/
theorem step_eq (h : c.metronome = k.metronome) (fails : Nat → Bool) (s : Step) :
    c.step fails s = ((c.happenings s).filterMap Happening.tick?).foldl (fun c _ => c.tickWith fails) { c with
      metronome := (k.afterAll (c.happenings s)).metronome
      millis := c.millis + s.elapsed } := by
  cases s with
  | start =>
    have hstart := (congrArg Metronome.start h).trans (k.start_metronome (Clock.atMilli c.millis))
    exact congrArg (fun metronome => { c with metronome }) hstart
  | turn => exact congrArg (fun metronome => { c with metronome }) (metronome_turn h)
  | stop => exact congrArg (fun m : Metronome => { c with metronome := m.stop }) h
  | setInterval v =>
    rcases c.step_setInterval v with ⟨interval, hhappenings, hstep⟩ | ⟨hhappenings, hstep⟩
    · rw [hhappenings, hstep fails]
      exact congrArg (fun m : Metronome => { c with metronome := { m with interval } }) h
    · rw [hhappenings, hstep fails]
      exact congrArg (fun metronome => { c with metronome }) h
  | advance millis =>
    obtain ⟨_, hmetronome, _⟩ :=
      (k.after (.turned (Clock.atMilli c.millis))).timely_runUntil (Clock.atMilli (c.millis + millis))
    rw [← metronome_turn h] at hmetronome
    have hticks : (c.happenings (.advance millis)).filterMap Happening.tick?
        = (c.turn.metronome.runUntil (Clock.atMilli (c.millis + millis))).1 := filterMap_tick? _
    have hafter : k.afterAll (c.happenings (.advance millis))
        = (k.after (.turned (Clock.atMilli c.millis))).afterAll
          ((c.turn.metronome.runUntil (Clock.atMilli (c.millis + millis))).1.map .ticked) := rfl
    rw [hticks, hafter, ← hmetronome]
    rfl

theorem metronome_step (h : c.metronome = k.metronome) (fails : Nat → Bool) (s : Step) :
    (c.step fails s).metronome = (k.afterAll (c.happenings s)).metronome := by
  rw [step_eq h fails s]
  exact (foldl_tickWith _ _).1

theorem millis_step (h : c.metronome = k.metronome) (fails : Nat → Bool) (s : Step) :
    (c.step fails s).millis = c.millis + s.elapsed := by
  rw [step_eq h fails s]
  exact (foldl_tickWith _ _).2.1

/-- Where no turn is waited for, no tick changes that. -/
theorem phase_afterAll_ticked (ticks : List Nat) (h : ∀ asked, k.phase ≠ .asked asked) (asked : Nat) :
    (k.afterAll (ticks.map .ticked)).phase ≠ .asked asked := by
  induction ticks generalizing k with
  | nil => exact h asked
  | cons tick rest ih => exact ih (k := k.after (.ticked tick)) nofun

theorem phase_after_turned (k : Course) (moment asked : Nat) : (k.after (.turned moment)).phase ≠ .asked asked := by
  obtain ⟨interval, phase⟩ := k
  cases phase with
  | idle | asked | waiting => exact nofun

/-- Time passes only after a turn. -/
theorem Prompt.step (hprompt : c.Prompt k) (h : c.metronome = k.metronome) (fails : Nat → Bool) (s : Step) :
    (c.step fails s).Prompt (k.afterAll (c.happenings s)) := by
  intro asked hasked
  rw [millis_step h fails s]
  cases s with
  | start =>
    obtain ⟨interval, phase⟩ := k
    cases phase with
    | idle =>
      cases hasked
      rfl
    | asked moment => exact hprompt asked hasked
    | waiting w => cases hasked
  | turn => exact absurd hasked (phase_after_turned k _ asked)
  | stop => cases hasked
  | setInterval v =>
    rcases c.step_setInterval v with ⟨interval, hhappenings, _⟩ | ⟨hhappenings, _⟩
    · rw [hhappenings] at hasked
      exact hprompt asked hasked
    · rw [hhappenings] at hasked
      exact hprompt asked hasked
  | advance millis => exact absurd hasked (phase_afterAll_ticked _ (phase_after_turned k _) asked)

/-! ## Runs -/

/-- What holds of a counter after everything that happened to its metronome: the metronome is the one that follows from
it, everything was timely, every tick is reached, and the ticks and those that failed are counted. -/
structure OnSchedule (interval : Binary64) (fails : Nat → Bool) (c : TickCounter) (happened : List Happening) :
    Prop where
  metronome : c.metronome = (Course.afterAll { interval } happened).metronome
  prompt : c.Prompt (Course.afterAll { interval } happened)
  timely : Course.Timely { interval } happened
  reached : ∀ tick ∈ happened.filterMap Happening.tick?, tick ≤ Clock.reach (Clock.atMilli c.millis)
  ticks : c.ticks = (happened.filterMap Happening.tick?).length
  warned : c.Warned fails

variable {interval : Binary64} {happened : List Happening}

theorem OnSchedule.step (h : OnSchedule interval fails c happened) (s : Step) :
    OnSchedule interval fails (c.step fails s) (happened ++ c.happenings s) := by
  obtain ⟨htimely, hreached⟩ := timely_step h.metronome h.prompt s
  have hmillis := millis_step h.metronome fails s
  have hafter : Course.afterAll { interval } (happened ++ c.happenings s)
      = (Course.afterAll { interval } happened).afterAll (c.happenings s) := List.foldl_append
  refine ⟨?_, ?_, Course.timely_append.mpr ⟨h.timely, htimely⟩, ?_, ?_, ?_⟩
  · rw [metronome_step h.metronome fails s, hafter]
  · rw [hafter]
    exact h.prompt.step h.metronome fails s
  · intro tick htick
    rw [List.filterMap_append, List.mem_append] at htick
    rw [hmillis]
    rcases htick with hbefore | hnow
    · refine Nat.le_trans (h.reached tick hbefore) (Nat.add_le_add_right ?_ _)
      exact Nat.mul_le_mul_right _ (Nat.le_add_right _ _)
    · exact hreached tick hnow
  · rw [step_eq h.metronome fails s, List.filterMap_append, List.length_append, ← h.ticks]
    exact (foldl_tickWith _ _).2.2
  · rw [step_eq h.metronome fails s]
    have hbefore : Warned fails { c with
        metronome := (Course.afterAll (Course.afterAll { interval } happened) (c.happenings s)).metronome
        millis := c.millis + s.elapsed } := h.warned
    exact hbefore.foldl_tickWith _

theorem OnSchedule.run (h : OnSchedule interval fails c happened) (steps : List Step) :
    OnSchedule interval fails (c.run fails steps) (happened ++ c.history fails steps) := by
  induction steps generalizing c happened with
  | nil => simpa [TickCounter.run, history] using h
  | cons s rest ih =>
    have hrest := ih (h.step s)
    rw [List.append_assoc] at hrest
    exact hrest

end TickCounter

open TickCounter

end LockScreen
