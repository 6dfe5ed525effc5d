import LockScreen.Battery.Announcement
import LockScreen.Color

/-!
# The line on the screen

A locked screen shows a single line of text. `Situation.line` selects it: nothing while the screen is
hidden, then the first that applies of the notice that storage is locked, a message, the charging text
and the resting text.

Only the charging text of a battery that is not charged needs an estimate, so only then is one asked for.
-/

namespace LockScreen

/-- The places that a line can come from, the first that applies going first. -/
inductive Layer
  | storageLocked
  | message
  | charging
  | resting
deriving DecidableEq, Repr

/-- The name under which a layer is reported. -/
def Layer.name : Layer → String
  | storageLocked => "storage_locked"
  | message => "transient"
  | charging => "charging"
  | resting => "resting"

/-- What the screen shows. -/
structure Line where
  text : Text
  color : Color
  layer : Layer
deriving DecidableEq, Repr

/-- A message that covers the charging and the resting text. -/
structure Message where
  text : Option Text
  color : Color := .white
deriving DecidableEq, Repr

/-- The text of a message that has one. -/
def Message.shown? (m : Message) : Option Text :=
  m.text.filter (· ≠ "")

/-- Everything that the choice of a line depends on. -/
structure Situation where
  visible : Bool
  unlocked : Bool
  message : Option Message := none
  charge : ChargeState := {}
  resting : Option Text := none
  details : DetailOptions := {}
deriving DecidableEq

/-- The message of a situation, where it has a text to show. -/
def Situation.covering? (s : Situation) : Option (Text × Color) :=
  s.message.bind fun m => m.shown?.map fun text => (text, m.color)

/-- The line that the screen shows; none while it is hidden. -/
def Situation.line (s : Situation) (p : Phrases) (source : Option Answer) (j : Journal) :
    Except Fault (Option Line) × Journal :=
  if !s.visible then (.ok none, j)
  else if !s.unlocked then (.ok (some ⟨p.storageLocked, .white, .storageLocked⟩), j)
  else
    match s.covering? with
    | some (text, color) => (.ok (some ⟨text, color, .message⟩), j)
    | none =>
      if s.charge.pluggedIn then
        let told := chargingText s.charge p s.details source j
        (told.1.map fun text => some ⟨text, .white, .charging⟩, told.2)
      else (.ok (some ⟨s.resting.getD "", .white, .resting⟩), j)

end LockScreen
