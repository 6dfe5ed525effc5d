import LockScreen.Proofs.Json.Values
import LockScreen.Proofs.Screen.InForce

/-!
# The speed of charging

A reading of the battery is classified when it comes, by the thresholds in force then. Settings that are put in force
later replace the thresholds and leave the charging state alone. So the speed is that of the last reading under the
thresholds of its time (`classified_of_moves`), and need not be what the thresholds in force make of the same rate
(`not_forall_speed_in_force`).
-/

namespace LockScreen

/-! ## Readings of integers -/

/-- Everything that was measured is an integer. -/
structure BatteryReading.Whole (r : BatteryReading) : Prop where
  level : ∃ i, r.level = .int i
  current : ∃ i, r.current = .int i
  voltage : ∃ i, r.voltage = .int i
  power : ∃ i, r.power = .int i

namespace ChargeState

variable {t u : Thresholds} {r : BatteryReading} {state : ChargeState}

/-- A reading of integers is always taken, with the rate that it gives. -/
theorem exists_ofReading (t : Thresholds) (h : r.Whole) :
    ∃ state, ofReading t r = .ok state ∧ state.power = r.power := by
  obtain ⟨⟨level, hlevel⟩, ⟨current, hcurrent⟩, ⟨voltage, hvoltage⟩, ⟨power, hpower⟩⟩ := h
  have hfull : ∃ full, r.isFull = .ok full := by
    unfold BatteryReading.isFull
    rw [hlevel]
    split
    · exact ⟨true, rfl⟩
    · exact ⟨_, rfl⟩
  obtain ⟨full, hfull⟩ := hfull
  unfold ofReading
  rw [hfull, hcurrent, hvoltage, hpower]
  exact ⟨_, rfl, rfl⟩

theorem power_of_ofReading (hwhole : r.Whole) (h : ofReading t r = .ok state) : state.power = r.power := by
  obtain ⟨taken, htaken, hpower⟩ := exists_ofReading t hwhole
  rw [htaken] at h
  cases h
  exact hpower

/-- The speed is the class of the rate. -/
theorem speedOf_of_ofReading (h : ofReading t r = .ok state) : t.speedOf r.power = .ok state.speed := by
  unfold ofReading at h
  obtain ⟨charged, _, h⟩ := exists_ok_of_bind h
  obtain ⟨speed, hspeed, h⟩ := exists_ok_of_bind h
  obtain ⟨current, _, h⟩ := exists_ok_of_bind h
  obtain ⟨voltage, _, h⟩ := exists_ok_of_bind h
  obtain ⟨power, _, h⟩ := exists_ok_of_bind h
  cases h
  exact hspeed

/-- Other thresholds make the same state of a reading exactly if they put its rate in the same class. -/
theorem ofReading_eq_ok_iff (h : ofReading t r = .ok state) :
    ofReading u r = .ok state ↔ u.speedOf r.power = t.speedOf r.power := by
  constructor
  · intro hu
    rw [speedOf_of_ofReading hu, speedOf_of_ofReading h]
  · intro hspeed
    rw [← h]
    unfold ofReading
    rw [hspeed]

end ChargeState

/-! ## The text of a speed -/

/-- The text of a battery that is not charged names its speed; what follows are details. -/
theorem exists_announce_of_chargingText {c : ChargeState} {p : Phrases} {options : DetailOptions}
    {source : Option Answer} {j : Journal} {text : Text} (hcharged : c.charged = false)
    (h : (chargingText c p options source j).1 = .ok text) :
    ∃ millis details, text = p.announce c.speed millis ++ details := by
  unfold chargingText at h
  split at h
  · cases h
  · rename_i details _
    rw [hcharged] at h
    dsimp only at h
    cases hasked : (askEstimate source j).1 with
    | error fault =>
      rw [hasked] at h
      cases h
    | ok millis =>
      rw [hasked] at h
      cases h
      exact ⟨millis, details, rfl⟩

theorem Situation.exists_announce_of_line {s : Situation} {p : Phrases} {source : Option Answer} {j : Journal}
    {line : Line} (hcharged : s.charge.charged = false) (hlayer : line.layer = .charging)
    (h : (s.line p source j).1 = .ok (some line)) :
    ∃ millis details, line.text = p.announce s.charge.speed millis ++ details := by
  unfold Situation.line at h
  split at h
  · cases h
  split at h
  · cases h
    cases hlayer
  split at h
  · cases h
    cases hlayer
  split at h
  · dsimp only at h
    cases htext : (chargingText s.charge p s.details source j).1 with
    | error fault =>
      rw [htext] at h
      cases h
    | ok text =>
      rw [htext] at h
      cases h
      exact exists_announce_of_chargingText hcharged htext
  · cases h
    cases hlayer

/-! ## Moves -/

/-- The reading that comes with a move. -/
def Move.reading? : Move → Option BatteryReading
  | .act (.event (.battery reading)) => some reading
  | _ => none

/-- A move that brings no reading, or one of integers. -/
def Move.Whole (m : Move) : Prop :=
  ∀ r, m.reading? = some r → r.Whole

theorem Move.eq_of_reading?_eq_some {m : Move} {r : BatteryReading} (h : m.reading? = some r) :
    m = .act (.event (.battery r)) := by
  unfold reading? at h
  split at h
  · cases h
    rfl
  · cases h

namespace InForce

/-- Without a reading the charging state stays as it is, whatever becomes of the thresholds. -/
theorem state_move {f : InForce} {m : Move} (h : m.reading? = none) :
    (f.move m).charging.state = f.charging.state := by
  unfold move
  split
  · rfl
  · split
    · rfl
    · rfl
  · cases h
  · rfl

theorem ofReading_state_move {f : InForce} {m : Move} {r : BatteryReading} (h : m.reading? = some r)
    (hwhole : r.Whole) : ChargeState.ofReading f.charging.thresholds r = .ok (f.move m).charging.state := by
  obtain ⟨state, hstate, _⟩ := ChargeState.exists_ofReading f.charging.thresholds hwhole
  rw [Move.eq_of_reading?_eq_some h, hstate]
  simp only [move, ChargeTracker.update, hstate]
  rfl

end InForce

/-- A charging state was made of a last reading by its thresholds; without one, nothing is known of the battery. -/
def ChargeState.ComesFrom (state : ChargeState) : Option (Thresholds × BatteryReading) → Prop
  | none => state = {}
  | some (t, r) => r.Whole ∧ ofReading t r = .ok state

/-- A reading of integers is classified by the thresholds in force. -/
theorem InForce.Agrees.ofReading_move {s : Screen} (h : s.inForce.Agrees) {m : Move} {r : BatteryReading}
    (hreading : m.reading? = some r) (hwhole : r.Whole) :
    ChargeState.ofReading s.settings.thresholds r = .ok (s.move m).screen.charging.state := by
  have hread := InForce.ofReading_state_move (f := s.inForce) hreading hwhole
  rw [h.thresholds] at hread
  rw [Screen.charging_move]
  exact hread

namespace Screen

/-- The last reading of a row of moves, with the thresholds in force when it came. -/
def lastReading? (s : Screen) : List Move → Option (Thresholds × BatteryReading)
  | [] => none
  | m :: rest => ((s.move m).screen.lastReading? rest).or (m.reading?.map fun r => (s.settings.thresholds, r))

theorem lastReading?_append_singleton (s : Screen) (moves : List Move) (m : Move) :
    s.lastReading? (moves ++ [m])
      = (m.reading?.map fun r => ((s.moved moves).settings.thresholds, r)).or (s.lastReading? moves) := by
  induction moves generalizing s with
  | nil => simp [lastReading?, moved]
  | cons first rest ih =>
    simp only [List.cons_append, lastReading?, ih, Option.or_assoc]
    rfl

theorem comesFrom_moved {settings : Settings} {phone : Phone} {user : Int} {unlock : UnlockSource}
    {estimate : EstimateSource} {first : Screen} (hfirst : first = start settings phone user unlock estimate)
    {moves : List Move} (hwhole : ∀ m ∈ moves, m.Whole) :
    (first.moved moves).charging.state.ComesFrom (first.lastReading? moves) := by
  induction moves using List.reverseRecOn with
  | nil =>
    rw [hfirst]
    rfl
  | append_singleton moves m ih =>
    obtain ⟨hbefore, hlast⟩ := List.forall_mem_append.mp hwhole
    have hm := hlast m List.mem_cons_self
    have hagrees : (first.moved moves).inForce.Agrees := by
      rw [hfirst]
      exact Reach.agrees (Reachable.moved (.start ..) moves)
    rw [lastReading?_append_singleton, moved_append_singleton]
    cases hreading : m.reading? with
    | none =>
      rw [charging_move, InForce.state_move hreading]
      exact ih hbefore
    | some r => exact ⟨hm r hreading, hagrees.ofReading_move hreading (hm r hreading)⟩

/-- What a screen says of the battery after a last reading, which came with its thresholds. -/
structure Classified (s : Screen) (last? : Option (Thresholds × BatteryReading)) : Prop where
  /-- The next reading will be classified by the thresholds in force. -/
  thresholds : s.charging.thresholds = s.settings.thresholds
  /-- Before the first reading any thresholds agree with the speed. -/
  unread : last? = none → s.charging.state = {} ∧
    ∀ t : Thresholds, t.speedOf s.charging.state.power = .ok s.charging.state.speed
  /-- The speed is the class of the rate under the thresholds of the last reading. -/
  read : ∀ t r, last? = some (t, r) → ChargeState.ofReading t r = .ok s.charging.state ∧
    t.speedOf s.charging.state.power = .ok s.charging.state.speed
  /-- The thresholds in force agree with it exactly if they put the rate in the same class. -/
  inForce : ∀ t r, last? = some (t, r) →
    (s.settings.thresholds.speedOf s.charging.state.power = .ok s.charging.state.speed ↔
      s.settings.thresholds.speedOf r.power = t.speedOf r.power)
  /-- So does a screen that starts with the settings in force and gets the last reading. -/
  restarted : ∀ t r, last? = some (t, r) → ∀ phone user unlock estimate,
    (((start s.settings phone user unlock estimate).move (.act (.event (.battery r)))).screen.charging.state
        = s.charging.state ↔
      s.settings.thresholds.speedOf r.power = t.speedOf r.power)
  /-- Settings that are put in force bring their thresholds and leave the charging state alone. -/
  applied : ∀ settings,
    (s.step (.apply settings)).screen.charging = ⟨settings.thresholds, s.charging.state⟩
  /-- The charging text of a battery that is not charged names this speed, in the phrases in force. -/
  announced : s.charging.state.charged = false → ∀ source j line,
    (s.situation.line s.settings.phrases source j).1 = .ok (some line) → line.layer = .charging →
      ∃ millis details, line.text = s.settings.phrases.announce s.charging.state.speed millis ++ details

theorem Classified.of_comesFrom {s : Screen} {last? : Option (Thresholds × BatteryReading)}
    (hagrees : s.inForce.Agrees) (h : s.charging.state.ComesFrom last?) : s.Classified last? where
  thresholds := hagrees.thresholds
  unread := by
    rintro rfl
    have hstate : s.charging.state = {} := h
    rw [hstate]
    exact ⟨rfl, fun _ => rfl⟩
  read := by
    rintro t r rfl
    obtain ⟨hwhole, hread⟩ := h
    rw [ChargeState.power_of_ofReading hwhole hread]
    exact ⟨hread, ChargeState.speedOf_of_ofReading hread⟩
  inForce := by
    rintro t r rfl
    obtain ⟨hwhole, hread⟩ := h
    rw [ChargeState.power_of_ofReading hwhole hread, ChargeState.speedOf_of_ofReading hread]
  restarted := by
    rintro t r rfl phone user unlock estimate
    obtain ⟨hwhole, hread⟩ := h
    have hagain := (agrees_start s.settings phone user unlock estimate).ofReading_move
      (m := .act (.event (.battery r))) rfl hwhole
    rw [← ChargeState.ofReading_eq_ok_iff hread]
    rw [show ChargeState.ofReading s.settings.thresholds r = _ from hagain, Except.ok.injEq]
  applied settings := s.charging_move (.act (.apply settings))
  announced hcharged _ _ _ hline hlayer := Situation.exists_announce_of_line hcharged hlayer hline

/-- After any moves, with readings of integers, the speed is the one that the last reading was given when it came. -/
theorem classified_of_moves (settings : Settings) (phone : Phone) (user : Int) (unlock : UnlockSource)
    (estimate : EstimateSource) {moves : List Move} (hwhole : ∀ m ∈ moves, m.Whole) :
    ((start settings phone user unlock estimate).moved moves).Classified
      ((start settings phone user unlock estimate).lastReading? moves) := by
  have hreach := Reachable.moved (.start settings phone user unlock estimate) moves
  exact .of_comesFrom (Reach.agrees hreach) (comesFrom_moved rfl hwhole)

/-- A battery that takes five watts. -/
def fiveWatts : BatteryReading where
  health := .charging
  plug := .usb
  level := .int 50
  current := .int 1000000
  voltage := .int 5000000
  power := .int 5000000

theorem whole_fiveWatts : fiveWatts.Whole :=
  ⟨⟨_, rfl⟩, ⟨_, rfl⟩, ⟨_, rfl⟩, ⟨_, rfl⟩⟩

/-- Five watts, and then thresholds that are far below them. -/
def thresholdsLowered : List Move :=
  [.act (.event (.battery fiveWatts)),
    .act (.applyPayload (.object [("charging", .object [("thresholds", .list [.int 1000, .int 2000])])]))]

theorem whole_thresholdsLowered : ∀ m ∈ thresholdsLowered, m.Whole := by
  intro m hm r hr
  have hbattery := Move.eq_of_reading?_eq_some hr
  rcases List.mem_cons.mp hm with hfirst | hm
  · rw [hfirst] at hbattery
    cases hbattery
    exact whole_fiveWatts
  · rw [List.mem_singleton.mp hm] at hbattery
    cases hbattery

theorem classified_of_moves_thresholdsLowered :
    (start .standard {} 0 .phone .nobody).lastReading? thresholdsLowered = some (.standard, fiveWatts) ∧
      ((start .standard {} 0 .phone .nobody).moved thresholdsLowered).settings.thresholds = ⟨1000, 2000⟩ ∧
      ((start .standard {} 0 .phone .nobody).moved thresholdsLowered).charging.state.speed = .normal ∧
      ((start .standard {} 0 .phone .nobody).moved thresholdsLowered).Classified
        ((start .standard {} 0 .phone .nobody).lastReading? thresholdsLowered) :=
  ⟨by decide +kernel, by decide +kernel, by decide +kernel, classified_of_moves _ _ _ _ _ whole_thresholdsLowered⟩

/-- The thresholds in force need not make of the rate the speed that is shown. -/
theorem not_forall_speed_in_force :
    ¬∀ (settings : Settings) (phone : Phone) (user : Int) (unlock : UnlockSource) (estimate : EstimateSource)
        (moves : List Move), (∀ m ∈ moves, m.Whole) →
      let s := (start settings phone user unlock estimate).moved moves
      s.settings.thresholds.speedOf s.charging.state.power = .ok s.charging.state.speed := by
  intro h
  have hspeed := h .standard {} 0 .phone .nobody thresholdsLowered whole_thresholdsLowered
  have hfast : ((start .standard {} 0 .phone .nobody).moved thresholdsLowered).settings.thresholds.speedOf
      ((start .standard {} 0 .phone .nobody).moved thresholdsLowered).charging.state.power = .ok .fast := by
    decide +kernel
  have hnormal : ((start .standard {} 0 .phone .nobody).moved thresholdsLowered).charging.state.speed
      = .normal := by
    decide +kernel
  dsimp only at hspeed
  rw [hfast, hnormal] at hspeed
  cases hspeed

end Screen

end LockScreen
