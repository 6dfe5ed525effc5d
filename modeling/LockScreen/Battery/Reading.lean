import LockScreen.Value.Equality
import LockScreen.Value.Quoted

/-!
# Battery readings

What the battery reports, and the charging state that the screen keeps of it. Currents, voltages and
charge rates are in microamperes, microvolts and microwatts.

What was measured stays in the form in which it was given until it is used: compared, it has to be a number or
a flag, and the charging state keeps it as an integer.
-/

namespace LockScreen

/-- What the battery says about itself. -/
inductive Health
  | unknown
  | charging
  | discharging
  | notCharging
  | full
deriving DecidableEq, Repr

namespace Health

/-- The name under which a health is reported. -/
def name : Health → String
  | unknown => "unknown"
  | charging => "charging"
  | discharging => "discharging"
  | notCharging => "not_charging"
  | full => "full"

def all : List Health := [unknown, charging, discharging, notCharging, full]

/-- The health of a name. -/
def ofName? (name : Text) : Option Health :=
  all.find? fun h => h.name = name

theorem ofName?_name (h : Health) : ofName? h.name = some h := by
  cases h <;> decide

/-- The health that a value names. -/
def ofValue (v : Value) : Except Fault Health :=
  match v.text?.bind ofName? with
  | some health => .ok health
  | none => .error (.unknownHealth v.quoted)

end Health

/-- What the battery is connected to. -/
inductive Plug
  | none
  | ac
  | usb
  | wireless
deriving DecidableEq, Repr

namespace Plug

/-- The name under which a plug is reported. -/
def name : Plug → String
  | none => "none"
  | ac => "ac"
  | usb => "usb"
  | wireless => "wireless"

def all : List Plug := [none, ac, usb, wireless]

/-- The plug of a name. -/
def ofName? (name : Text) : Option Plug :=
  all.find? fun p => p.name = name

theorem ofName?_name (p : Plug) : ofName? p.name = some p := by
  cases p <;> decide

/-- The plug that a value names. -/
def ofValue (v : Value) : Except Fault Plug :=
  match v.text?.bind ofName? with
  | some plug => .ok plug
  | .none => .error (.unknownPlug v.quoted)

end Plug

/-- The speed that a value names. -/
def Speed.ofValue (v : Value) : Except Fault Speed :=
  match v.text?.bind fun name => all.find? fun s => s.name = name with
  | some speed => .ok speed
  | none => .error (.unknownSpeed v.quoted)

/-- The speed of charging at a rate, in whatever form it was given. -/
def Thresholds.speedOf (t : Thresholds) (power : Value) : Except Fault Speed := do
  return t.speedAt (← power.comparable "<=")

/-- What the battery says, with its charge rate. -/
structure BatteryReading where
  health : Health := .unknown
  plug : Plug := .none
  level : Value := .int 0
  current : Value := .int 0
  voltage : Value := .int 0
  power : Value := .int 0
deriving DecidableEq

namespace BatteryReading

/-- The voltage assumed where none is measured: five volts. -/
def assumedVoltage : Number := .int 5000000

/-- The charge rate of a current at a voltage; unknown without a current. -/
def powerOf (current voltage : Number) : Except Fault Number :=
  if current.isAbove 0 then (current.floorDiv 1000).mul (voltage.floorDiv 1000) else .ok (.int (-1))

/-- A reading whose charge rate is worked out from current and voltage. -/
def ofMeasurements (health : Health) (plug : Plug) (level current voltage : Value) :
    Except Fault BatteryReading := do
  let volts ← voltage.comparable ">"
  let amperes ← current.comparable ">"
  -- a voltage that is measured stays in the form in which it was given
  let (voltage, volts) :=
    if volts.isAbove 0 then (voltage, volts) else (.ofNumber assumedVoltage, assumedVoltage)
  return { health, plug, level, current, voltage, power := .ofNumber (← powerOf amperes volts) }

/-- Integers have an integer charge rate. -/
theorem powerOf_int (current voltage : Int) :
    powerOf (.int current) (.int voltage)
      = .ok (.int (if 0 < current then current / 1000 * (voltage / 1000) else -1)) := by
  by_cases h : 0 < current <;> simp [powerOf, Number.floorDiv, Number.mul, h]

/-- Connected to any supply. -/
def hasSupply (r : BatteryReading) : Bool :=
  r.plug ≠ .none

/-- Full by its own account or by its level, which is only looked at where it decides. -/
def isFull (r : BatteryReading) : Except Fault Bool :=
  if r.health = .full then .ok true
  else do return (← r.level.comparable ">=").isAtLeast 100

end BatteryReading

/-- What the battery says, with or without its charge rate. -/
structure BatteryReport where
  health : Health := .unknown
  plug : Plug := .none
  level : Value := .int 0
  current : Value := .int 0
  voltage : Value := .int 0
  power : Option Value := none
deriving DecidableEq

/-- The reading of a report. A charge rate that is not given is worked out. -/
def BatteryReport.reading (r : BatteryReport) : Except Fault BatteryReading :=
  match r.power with
  | some power =>
    .ok ⟨r.health, r.plug, r.level, r.current, r.voltage, power⟩
  | none => BatteryReading.ofMeasurements r.health r.plug r.level r.current r.voltage

/-! ## The charging state -/

/-- What the screen shows of the battery. -/
structure ChargeState where
  pluggedIn : Bool := false
  charged : Bool := false
  speed : Speed := .normal
  current : Value := .int 0
  voltage : Value := .int 0
  power : Value := .int 0
deriving DecidableEq

/-- The state after a reading, under the given thresholds; it keeps the integer parts of what was measured.
A supply counts only while the battery takes charge from it or is full. -/
def ChargeState.ofReading (t : Thresholds) (r : BatteryReading) : Except Fault ChargeState := do
  return {
    pluggedIn := r.hasSupply && (r.health = .charging || r.health = .full)
    charged := ← r.isFull
    speed := ← t.speedOf r.power
    current := .int (← r.current.toInteger)
    voltage := .int (← r.voltage.toInteger)
    power := .int (← r.power.toInteger) }

/-- The latest charging state, and the thresholds that the next reading is classified by. -/
structure ChargeTracker where
  thresholds : Thresholds := .standard
  state : ChargeState := {}
deriving DecidableEq

/-- Takes a reading. -/
def ChargeTracker.update (t : ChargeTracker) (r : BatteryReading) : Except Fault ChargeTracker := do
  return { t with state := ← ChargeState.ofReading t.thresholds r }

end LockScreen
