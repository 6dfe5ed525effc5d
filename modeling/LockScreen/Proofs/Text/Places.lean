import LockScreen.Text.Placeholder
import Mathlib.Data.List.Infix

/-!
# Places that are filled

A template falls into the pieces between its places for the time, and filling it puts the time between the same
pieces (`fills_fillTime`). No piece holds a place, but the text around an inserted time could still make up a new
one with parts of it. It does not where the time stands `Apart`: its first letter belongs to no place, and no brace is
opened behind it (`Fills.holds_no_place`).
-/

namespace LockScreen.Text

/-- The result is the template with the time in every place: the pieces around the places stay, and no place is left
in any of them. -/
def Fills (time template result : List Letter) : Prop :=
  ∃ pieces : List (List Letter), pieces ≠ [] ∧ (∀ piece ∈ pieces, ¬timePlace <:+: piece) ∧
    template = timePlace.intercalate pieces ∧ result = time.intercalate pieces

/-! ## Filling from left to right -/

/-- Pieces behind a place, with an empty one in front of it. -/
theorem intercalate_nil_cons (time : List Letter) {pieces : List (List Letter)} (h : pieces ≠ []) :
    time.intercalate ([] :: pieces) = time ++ time.intercalate pieces := by
  rw [List.intercalate_cons_of_ne_nil h, List.nil_append]

/-- A letter in front belongs to the first piece. -/
theorem intercalate_cons_cons (time : List Letter) (letter : Letter) (piece : List Letter)
    (pieces : List (List Letter)) :
    time.intercalate ((letter :: piece) :: pieces) = letter :: time.intercalate (piece :: pieces) := by
  cases pieces with
  | nil => rw [List.intercalate_singleton, List.intercalate_singleton]
  | cons next rest => simp only [List.intercalate_cons_cons, List.cons_append]

theorem fills_fillTime (time template : List Letter) : Fills time template (fillTime time template) := by
  fun_induction fillTime time template with
  | case1 rest ih =>
    obtain ⟨pieces, hne, hpieces, htemplate, hresult⟩ := ih
    refine ⟨[] :: pieces, List.cons_ne_nil _ _, ?_, ?_, ?_⟩
    · have hempty : ¬timePlace <:+: [] := by decide
      exact List.forall_mem_cons.mpr ⟨hempty, hpieces⟩
    · rw [intercalate_nil_cons _ hne, ← htemplate]
      rfl
    · rw [intercalate_nil_cons _ hne, ← hresult]
  | case2 letter rest hnone ih =>
    obtain ⟨pieces, hne, hpieces, htemplate, hresult⟩ := ih
    obtain ⟨piece, pieces, rfl⟩ := List.exists_cons_of_ne_nil hne
    obtain ⟨hpiece, hothers⟩ := List.forall_mem_cons.mp hpieces
    refine ⟨(letter :: piece) :: pieces, List.cons_ne_nil _ _, List.forall_mem_cons.mpr ⟨?_, hothers⟩, ?_, ?_⟩
    · -- a place at the front of the piece would be one at the front of the template
      rw [List.infix_cons_iff, not_or]
      refine ⟨?_, hpiece⟩
      intro hfront
      have htemplatePrefix : timePlace <+: letter :: rest := by
        rw [htemplate, ← intercalate_cons_cons]
        cases pieces with
        | nil => rwa [List.intercalate_singleton]
        | cons next others =>
          rw [List.intercalate_cons_cons, List.append_assoc]
          exact hfront.trans (List.prefix_append _ _)
      obtain ⟨more, hmore⟩ := htemplatePrefix
      obtain ⟨rfl, rfl⟩ := List.cons_eq_cons.mp hmore
      exact hnone more rfl rfl
    · rw [intercalate_cons_cons, ← htemplate]
    · rw [intercalate_cons_cons, ← hresult]
  | case3 =>
    have hempty : ¬timePlace <:+: [] := by decide
    exact ⟨[[]], List.cons_ne_nil _ _, List.forall_mem_singleton.mpr hempty, rfl, rfl⟩

/-- The time stands in the result if the template has a place for it. -/
theorem Fills.holds_time {time template result : List Letter} (h : Fills time template result)
    (hplace : timePlace <:+: template) : time <:+: result := by
  obtain ⟨pieces, hne, hpieces, rfl, rfl⟩ := h
  obtain ⟨piece, rest, rfl⟩ := List.exists_cons_of_ne_nil hne
  cases rest with
  | nil =>
    rw [List.intercalate_singleton] at hplace
    exact absurd hplace (hpieces piece List.mem_cons_self)
  | cons next rest =>
    rw [List.intercalate_cons_cons]
    exact List.infix_append _ _ _

/-! ## No new places -/

/-- A text that has no part in a place that reaches beyond it: its first letter belongs to no place, and no brace is
opened behind it. -/
def Apart (text : List Letter) : Prop :=
  ∃ first rest, text = first :: rest ∧ first ∉ timePlace ∧ .char '{' ∉ rest

/-- A letter that belongs to no place keeps places on either side of it. -/
theorem infix_append_cons {letter : Letter} (h : letter ∉ timePlace) {xs ys : List Letter}
    (hplace : timePlace <:+: xs ++ letter :: ys) : timePlace <:+: xs ∨ timePlace <:+: ys := by
  -- what is left of a place at the letter is nothing, or begins with the letter
  have hfront {left right : List Letter} (hsplit : timePlace = left ++ right) (hright : right <+: letter :: ys) :
      right = [] := by
    refine (List.prefix_cons_iff.mp hright).resolve_right ?_
    rintro ⟨rest, rfl, _⟩
    rw [hsplit] at h
    exact h (List.mem_append_right _ List.mem_cons_self)
  rcases List.infix_append_iff.mp hplace with hxs | hys | ⟨left, right, hsplit, hleft, hright⟩
  · exact .inl hxs
  · rcases List.infix_cons_iff.mp hys with hprefix | hys
    · have hnone := hfront (List.nil_append _).symm hprefix
      cases hnone
    · exact .inr hys
  · rw [hfront hsplit hright, List.append_nil] at hsplit
    rw [← hsplit] at hleft
    exact .inl hleft.isInfix

/-- Where no brace is opened no place begins. -/
theorem infix_of_infix_append {xs ys : List Letter} (h : .char '{' ∉ xs) (hplace : timePlace <:+: xs ++ ys) :
    timePlace <:+: ys := by
  induction xs with
  | nil => exact hplace
  | cons x xs ih =>
    obtain ⟨hx, hxs⟩ := not_or.mp (List.mem_cons.not.mp h)
    rw [List.cons_append, List.infix_cons_iff] at hplace
    rcases hplace with ⟨more, hmore⟩ | hplace
    · exact absurd (List.cons_eq_cons.mp hmore).1 hx
    · exact ih hxs hplace

/-- A text that stands apart keeps places on either side of it. -/
theorem Apart.infix_append {text : List Letter} (h : Apart text) {xs ys : List Letter}
    (hplace : timePlace <:+: xs ++ text ++ ys) : timePlace <:+: xs ∨ timePlace <:+: ys := by
  obtain ⟨first, rest, rfl, hfirst, hrest⟩ := h
  rw [List.append_assoc, List.cons_append] at hplace
  exact (infix_append_cons hfirst hplace).imp_right (infix_of_infix_append hrest)

/-- A time that stands apart leaves no place in the template that it fills. -/
theorem Fills.holds_no_place {time template result : List Letter} (h : Fills time template result)
    (hapart : Apart time) : ¬timePlace <:+: result := by
  obtain ⟨pieces, -, hpieces, -, rfl⟩ := h
  induction pieces with
  | nil =>
    rw [List.intercalate_nil]
    decide
  | cons piece rest ih =>
    obtain ⟨hpiece, hrest⟩ := List.forall_mem_cons.mp hpieces
    cases rest with
    | nil => rwa [List.intercalate_singleton]
    | cons next rest =>
      rw [List.intercalate_cons_cons]
      intro hplace
      exact (hapart.infix_append hplace).elim hpiece (ih hrest)

end LockScreen.Text
