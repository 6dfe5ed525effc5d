import LockScreen.Text.Basic

/-!
# The journal

Warnings for whoever runs the service. A collaborator that fails again with the same text is reported
once: the journal remembers the last failure until the collaborator answers.
-/

namespace LockScreen

/-- What is worth a warning. -/
inductive Warning
  | estimateFailed (text : Text)
  | unlockUnknown (text : Text)
  | tickFailed
  | timerFailed
deriving DecidableEq, Repr

/-- The wording of a warning. -/
def Warning.message : Warning → Text
  | estimateFailed text => "Unable to compute remaining charge time: " ++ text
  | unlockUnknown text => "User unlock state unavailable; assuming locked: " ++ text
  | tickFailed => "Time tick handler raised an exception"
  | timerFailed => "Scheduled indication callback failed"

/-- The warnings so far in order, the last failure of each collaborator that has not answered since, and
how often an estimate was asked for. -/
structure Journal where
  warnings : List Warning := []
  estimateFailure : Option Text := none
  unlockFailure : Option Text := none
  estimatesAsked : Nat := 0
deriving DecidableEq, Repr

namespace Journal

/-- Adds a warning. -/
def warn (j : Journal) (w : Warning) : Journal :=
  { j with warnings := j.warnings ++ [w] }

/-- Adds a warning unless it repeats the last failure. -/
def warnUnless (j : Journal) (repeated : Bool) (w : Warning) : Journal :=
  if repeated then j else j.warn w

/-- The estimate failed. -/
def estimateFailed (j : Journal) (text : Text) : Journal :=
  { j.warnUnless (j.estimateFailure = some text) (.estimateFailed text) with
    estimateFailure := some text
    estimatesAsked := j.estimatesAsked + 1 }

/-- The estimate was answered. -/
def estimateAnswered (j : Journal) : Journal :=
  { j with estimateFailure := none, estimatesAsked := j.estimatesAsked + 1 }

/-- The unlock state could not be had. -/
def unlockFailed (j : Journal) (text : Text) : Journal :=
  { j.warnUnless (j.unlockFailure = some text) (.unlockUnknown text) with
    unlockFailure := some text }

/-- The unlock state was answered. -/
def unlockAnswered (j : Journal) : Journal :=
  { j with unlockFailure := none }

end Journal

end LockScreen
