import LockScreen.Proofs.Service.Timers

/-!
# Requests that are turned away

A request can be turned away before any call is made, for its path or its body, or its call can be rejected for what
it asks. Both leave the whole service as it was: the stored settings and their file, everything on the screen, the
timers and the metronome. Since nothing is due before a request comes, the moment it takes changes nothing either.
-/

namespace LockScreen

namespace Response

/-- The status of an answer; none where a fault is passed on. -/
def status : Response → Option Nat
  | ok _ => some 200
  | rejected _ => some 400
  | refused reason => some reason.status
  | failed _ => none

/-- What comes to something has no other status, also where the report cannot be written. -/
theorem eq_of_status_sent {response : Response} {n : Nat} (h : response.IsOutcome)
    (hstatus : response.sent.status = some n) : n = 200 := by
  cases response with
  | ok body =>
    simp only [sent] at hstatus
    split at hstatus
    · exact (Option.some.inj hstatus).symm
    · cases hstatus
  | rejected detail => cases h
  | refused reason => cases h
  | failed fault => cases hstatus

end Response

namespace Service

variable {s : Service}

/-- A request that is answered with another status than 200, be it 400 or 422, changes nothing at all, and no time that
passes with it does. This does not depend on how requests are read. -/
theorem unchanged_of_turnedAway (h : s.Reachable) {read : Reading} {r : Request} {n : Nat}
    (hstatus : (s.handle r read).2.status = some n) (hn : n ≠ 200) :
    (s.handle r read).1 = s ∧ (s.handle r read).1.advance 0 = s := by
  have hsame : (s.handle r read).1 = s := by
    unfold handle at hstatus ⊢
    rcases s.respond_cases (read r) with ⟨_, _, hrespond⟩ | ⟨_, _, _, _, hrespond⟩ | ⟨c, _, houtcome, hrespond⟩
    · rw [hrespond]
    · rw [hrespond]
    · rw [hrespond] at hstatus
      exact absurd (Response.eq_of_status_sent houtcome hstatus) hn
  rw [hsame]
  exact ⟨rfl, h.settled.advance_zero⟩

/-- A message is to be taken down, and the metronome runs. -/
def messageUp : Service :=
  standardService.moved
    [.start, .request (posted "/api/transient" [("text", .text "Look here"), ("hide_after_ms", .int 5000)]).call]

/-- A good colour beside an interval that is too long. -/
def slowTicks : Request :=
  posted "/api/settings" [("warning_color", .text "#102030"), ("tick_interval", .int 4000)]

/-- A delay below zero. -/
def takenDownBefore : Request :=
  posted "/api/transient/hide" [("delay_ms", .int (-1))]

theorem unchanged_of_turnedAway_messageUp :
    (messageUp.handle slowTicks).2.status = some 400 ∧ (messageUp.handle slowTicks).1 = messageUp ∧
      (messageUp.handle takenDownBefore).2.status = some 422 ∧ (messageUp.handle takenDownBefore).1 = messageUp ∧
      messageUp.screen.board.agenda.remaining = [5000] := by
  have hreach : messageUp.Reachable := (Reachable.ofFile ofFile_none).moved _
  have hslow : (messageUp.handle slowTicks).2.status = some 400 := by decide +kernel
  have hbefore : (messageUp.handle takenDownBefore).2.status = some 422 := by decide +kernel
  exact ⟨hslow, (unchanged_of_turnedAway hreach hslow (by decide)).1, hbefore,
    (unchanged_of_turnedAway hreach hbefore (by decide)).1, by decide +kernel⟩

end Service

end LockScreen
