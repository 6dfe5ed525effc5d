import LockScreen.Journal
import LockScreen.Value

/-!
# Estimates

How long the battery still has to charge is estimated by a collaborator that may not exist, may fail, and
may answer anything. A failure goes to the journal and counts as no estimate, and so does an answer that
is no finite number. The one answer that is not absorbed is an integer beyond the range of binary64
numbers.
-/

namespace LockScreen

/-- What a collaborator does when it is asked. -/
inductive Answer
  | gives (value : Value)
  | fails (text : Text)

/-- The estimate in milliseconds that an answer holds; zero where it holds none. -/
def estimateOf (v : Value) : Except Fault Int :=
  match v.number? with
  | none => .ok 0
  | some n => do
    -- only this conversion can fail: what is finite has an integer part
    let x ← n.toBinary64
    if x.isFinite then n.truncate else .ok 0

/-- Asks for the remaining charge time. -/
def askEstimate (source : Option Answer) (j : Journal) : Except Fault Int × Journal :=
  match source with
  | none => (.ok 0, j)
  | some (.fails text) => (.ok 0, j.estimateFailed text)
  | some (.gives value) => (estimateOf value, j.estimateAnswered)

end LockScreen
