import LockScreen.Text.Basic

/-!
# The time placeholder

A template holds the six characters `{time}` where an estimate goes. Filling replaces every place from
left to right; what is put in is not searched again.
-/

namespace LockScreen.Text

/-- The template has a place for the time. -/
def hasTimePlace : List Letter → Bool
  | .char '{' :: .char 't' :: .char 'i' :: .char 'm' :: .char 'e' :: .char '}' :: _ => true
  | _ :: rest => hasTimePlace rest
  | [] => false

/-- The letters of a place for the time. -/
def timePlace : List Letter :=
  "\x7btime\x7d".toList.map .char

/-- A template has a place for the time where its letters stand one after the other. -/
theorem hasTimePlace_iff {letters : List Letter} : hasTimePlace letters = true ↔ timePlace <:+: letters := by
  fun_induction hasTimePlace letters with
  | case1 rest => exact iff_of_true rfl ⟨[], rest, rfl⟩
  | case2 letter rest hnone ih =>
    rw [ih, List.infix_cons_iff]
    refine ⟨Or.inr, fun h => h.resolve_left ?_⟩
    rintro ⟨more, hmore⟩
    obtain ⟨rfl, rfl⟩ := List.cons_eq_cons.mp hmore
    exact hnone more rfl rfl
  | case3 =>
    have hne : timePlace ≠ [] := by decide
    exact iff_of_false Bool.false_ne_true fun h => hne (List.infix_nil.mp h)

/-- The template with the time in each place. -/
def fillTime (time : List Letter) : List Letter → List Letter
  | .char '{' :: .char 't' :: .char 'i' :: .char 'm' :: .char 'e' :: .char '}' :: rest =>
    time ++ fillTime time rest
  | letter :: rest => letter :: fillTime time rest
  | [] => []

end LockScreen.Text
