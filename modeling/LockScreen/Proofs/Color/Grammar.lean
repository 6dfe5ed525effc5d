import LockScreen.Proofs.Settings.Colors
import Mathlib.Data.List.TakeWhile

/-!
# Which texts are colours

The texts that are read as colours are those that spell six or eight hexadecimal digits: white space, at most one `#`,
the digits and white space again (`Spells`). No other text is read, and all are refused with the same fault, which is
one of the value (`read_iff_spells`).

The reader trims the text, takes off a mark, and looks at the number and the kind of what is left. So both ways have to
be shown: the digits that a text spells are what is left (`hexDigitsOf_append`), and all that was taken off is white
space (`exists_append_trim_append`) and at most one mark (`exists_mark_append`).
-/

namespace LockScreen.Text

/-- A text that is a string is made of it. -/
theorem eq_ofString_of_string? {t : Text} {s : String} (h : t.string? = some s) : t = ofString s := by
  have hletters {letters : List Letter} {cs : List Char} (hcs : letters.mapM Letter.char? = some cs) :
      letters = cs.map .char := by
    induction letters generalizing cs with
    | nil =>
      cases hcs
      rfl
    | cons letter letters ih =>
      rw [List.mapM_cons] at hcs
      obtain ⟨c, hc, hrest⟩ := Option.bind_eq_some_iff.mp hcs
      obtain ⟨more, hmore, heq⟩ := Option.bind_eq_some_iff.mp hrest
      cases heq
      cases letter with
      | char d =>
        cases hc
        rw [ih hmore]
        rfl
      | half offset => cases hc
  obtain ⟨cs, hcs, rfl⟩ := Option.map_eq_some_iff.mp h
  rw [ofString, String.toList_ofList, ofChars, ← hletters hcs]

/-- What is trimmed from a text is white space. -/
theorem exists_append_trim_append (cs : List Char) :
    ∃ before after, (∀ c ∈ before, isBlank c = true) ∧ (∀ c ∈ after, isBlank c = true) ∧
      cs = before ++ trim cs ++ after := by
  let rest := cs.dropWhile isBlank
  have hrest : rest = trim cs ++ (rest.reverse.takeWhile isBlank).reverse := by
    rw [trim, trimBy, ← List.reverse_append, List.takeWhile_append_dropWhile, List.reverse_reverse]
  refine ⟨cs.takeWhile isBlank, (rest.reverse.takeWhile isBlank).reverse, fun c hc => List.mem_takeWhile_imp hc,
    fun c hc => List.mem_takeWhile_imp (List.mem_reverse.mp hc), ?_⟩
  rw [List.append_assoc, ← hrest, List.takeWhile_append_dropWhile]

end LockScreen.Text

namespace LockScreen.Color

open Text

/-- A text that spells digits: white space, at most one mark, six or eight hexadecimal digits, and white space. -/
structure Spells (t : Text) (digits : List Char) : Prop where
  hexadecimal : ∀ c ∈ digits, c ∈ hexDigits
  length : digits.length = 6 ∨ digits.length = 8
  layout : ∃ before mark after, (∀ c ∈ before, isBlank c = true) ∧ (mark = [] ∨ mark = ['#']) ∧
    (∀ c ∈ after, isBlank c = true) ∧ t = ofChars (before ++ mark ++ digits ++ after)

variable {t : Text} {digits : List Char} {c : Color}

theorem isBlank_of_mem_hexDigits {d : Char} (h : d ∈ hexDigits) : isBlank d = false := by
  have hall : ∀ e ∈ hexDigits, isBlank e = false := List.all_iff_forall_prop.mp (by decide)
  exact hall d h

/-- White space and a mark are taken off of digits. -/
theorem hexDigitsOf_append {before mark digits after : List Char} (hbefore : ∀ c ∈ before, isBlank c = true)
    (hmark : mark = [] ∨ mark = ['#']) (hdigits : ∀ c ∈ digits, c ∈ hexDigits)
    (hafter : ∀ c ∈ after, isBlank c = true) :
    hexDigitsOf (String.ofList (before ++ mark ++ digits ++ after)) = digits := by
  have hmiddle : ∀ c ∈ mark ++ digits, isBlank c = false := by
    intro c hc
    rcases List.mem_append.mp hc with hc | hc
    · rcases hmark with rfl | rfl
      · cases hc
      · rw [List.mem_singleton.mp hc]
        decide
    · exact isBlank_of_mem_hexDigits (hdigits c hc)
  rw [hexDigitsOf, String.toList_ofList, List.append_assoc before, trim_append_append hbefore hmiddle hafter]
  rcases hmark with rfl | rfl
  · split
    · rename_i rest hrest
      have hmem : '#' ∈ digits := by
        rw [List.nil_append] at hrest
        rw [hrest]
        exact List.mem_cons_self
      exact absurd (hdigits '#' hmem) (by decide)
    · rfl
  · rfl

/-- What is left of a trimmed text is all but at most one mark. -/
theorem exists_mark_append (s : String) :
    ∃ mark, (mark = [] ∨ mark = ['#']) ∧ trim s.toList = mark ++ hexDigitsOf s := by
  unfold hexDigitsOf
  split
  · rename_i rest hrest
    exact ⟨['#'], .inr rfl, hrest⟩
  · exact ⟨[], .inl rfl, rfl⟩

/-- Six or eight digits make up a colour. -/
theorem exists_ofDigitValues? : ∀ {values : List Nat}, values.length = 6 ∨ values.length = 8 →
    ∃ c, ofDigitValues? values = some c
  | [_, _, _, _, _, _], _ => ⟨_, rfl⟩
  | [_, _, _, _, _, _, _, _], _ => ⟨_, rfl⟩
  | [], h | [_], h | [_, _], h | [_, _, _], h | [_, _, _, _], h | [_, _, _, _, _], h | [_, _, _, _, _, _, _], h
  | _ :: _ :: _ :: _ :: _ :: _ :: _ :: _ :: _ :: _, h => by
    simp only [List.length_cons, List.length_nil] at h
    omega

/-- No other number of digits does. -/
theorem length_of_ofDigitValues? {values : List Nat} (h : ofDigitValues? values = some c) :
    values.length = 6 ∨ values.length = 8 := by
  unfold ofDigitValues? at h
  split at h
  · exact .inl rfl
  · exact .inr rfl
  · cases h

/-- What a text that spells digits is read as. -/
theorem Spells.ofHex?_eq_ok_iff (h : Spells t digits) :
    ofHex? t = .ok c ↔ ofDigitValues? (digits.map hexValue) = some c := by
  obtain ⟨before, mark, after, hbefore, hmark, hafter, rfl⟩ := h.layout
  have hstring := string?_ofString (String.ofList (before ++ mark ++ digits ++ after))
  rw [ofString, String.toList_ofList] at hstring
  have hvalues : digits.mapM hexDigit? = some (digits.map hexValue) :=
    mapM_hexDigit?_eq_some_iff.mpr ⟨h.hexadecimal, rfl⟩
  rw [ofHex?, hstring, Option.bind_some, hexDigitsOf_append hbefore hmark h.hexadecimal hafter, hvalues,
    Option.bind_some]
  split
  · rename_i color hcolor
    rw [hcolor, Option.some_inj, Except.ok.injEq]
  · rename_i hnone
    rw [hnone]
    simp only [reduceCtorEq]

/-- A text that is read spells digits. -/
theorem exists_spells_of_ofHex? (h : ofHex? t = .ok c) : ∃ digits, Spells t digits := by
  unfold ofHex? at h
  split at h
  · rename_i color hcolor
    obtain ⟨s, hs, hread⟩ := Option.bind_eq_some_iff.mp hcolor
    obtain ⟨values, hmapM, hvalues⟩ := Option.bind_eq_some_iff.mp hread
    obtain ⟨hhex, rfl⟩ := mapM_hexDigit?_eq_some_iff.mp hmapM
    have hlength := length_of_ofDigitValues? hvalues
    rw [List.length_map] at hlength
    obtain ⟨before, after, hbefore, hafter, htext⟩ := exists_append_trim_append s.toList
    obtain ⟨mark, hmark, htrim⟩ := exists_mark_append s
    refine ⟨hexDigitsOf s, hhex, hlength, before, mark, after, hbefore, hmark, hafter, ?_⟩
    rw [htrim, ← List.append_assoc before] at htext
    rw [eq_ofString_of_string? hs, ofString, ← htext]
  · cases h

/-- The texts that are read are those that spell digits, and all others are refused for their value. -/
theorem read_iff_spells (t : Text) :
    ((∃ c, ofHex? t = .ok c) ↔ ∃ digits, Spells t digits) ∧
    (ofHex? t = .error .colorText ↔ ¬ ∃ digits, Spells t digits) ∧ Fault.colorText.kind = .value := by
  have hread : (∃ c, ofHex? t = .ok c) ↔ ∃ digits, Spells t digits := by
    constructor
    · rintro ⟨c, h⟩
      exact exists_spells_of_ofHex? h
    · rintro ⟨digits, h⟩
      have hlength := h.length
      rw [← List.length_map hexValue] at hlength
      obtain ⟨c, hc⟩ := exists_ofDigitValues? hlength
      exact ⟨c, h.ofHex?_eq_ok_iff.mpr hc⟩
  refine ⟨hread, ?_, rfl⟩
  rw [← hread]
  unfold ofHex?
  split <;> simp

end LockScreen.Color
