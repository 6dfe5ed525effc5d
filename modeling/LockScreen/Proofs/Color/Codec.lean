import LockScreen.Proofs.Color.Grammar

/-!
# Colours written and read

A colour with parts in range is read back from its text and from the list of its parts. A text that is read is written
in one form (`canonicalText`): a mark and the digits in upper case, of which a last pair that stands for a full opacity
is left out. Two texts are the same colour exactly if they have the same form (`codec_canonical`).
-/

namespace LockScreen.Text

theorem upperHexDigit_hexValue {c : Char} (h : c ∈ hexDigits) : upperHexDigit (hexValue c) = c.toUpper := by
  have hall : ∀ d ∈ hexDigits, upperHexDigit (hexValue d) = d.toUpper := List.all_iff_forall_prop.mp (by decide)
  exact hall c h

theorem upperHexDigit_eq_F_iff {n : Nat} (h : n < 16) : upperHexDigit n = 'F' ↔ n = 15 := by
  have hall : ∀ k : Fin 16, upperHexDigit k = 'F' ↔ k.val = 15 := by decide
  exact hall ⟨n, h⟩

end LockScreen.Text

namespace LockScreen.Color

open Text

variable {t : Text} {digits : List Char} {c c' : Color}

/-- Digits without a last pair that stands for a full opacity. -/
def withoutFullOpacity (digits : List Char) : List Char :=
  if digits.drop 6 = ['F', 'F'] then digits.take 6 else digits

/-- The form in which digits are written. -/
def canonicalText (digits : List Char) : String :=
  String.ofList ('#' :: withoutFullOpacity (digits.map Char.toUpper))

/-- Two digits are written as they make up a part. -/
theorem paddedHex_byte {high low : Nat} (hhigh : high < 16) (hlow : low < 16) :
    paddedHex (byte high low) = [upperHexDigit high, upperHexDigit low] := by
  have hpart : 16 * high + low < 256 := by omega
  have hdiv : (16 * high + low) / 16 = high := by omega
  have hmod : (16 * high + low) % 16 = low := by omega
  rw [byte, paddedHex_of_lt hpart, hdiv, hmod]

/-- A full opacity is made up of two digits of the greatest value. -/
theorem byte_eq_full_iff {high low : Nat} (hlow : low < 16) :
    byte high low = 255 ↔ high = 15 ∧ low = 15 := by
  unfold byte
  omega

/-- The colour of digit values is written with their digits, but for a full opacity. -/
theorem toHex_of_ofDigitValues? {values : List Nat} (hvalues : ∀ n ∈ values, n < 16)
    (h : ofDigitValues? values = some c) :
    c.toHex = String.ofList ('#' :: withoutFullOpacity (values.map upperHexDigit)) := by
  unfold ofDigitValues? at h
  split at h
  · rename_i r s g i b j
    cases h
    simp only [List.mem_cons, List.not_mem_nil, or_false, forall_eq_or_imp, forall_eq] at hvalues
    obtain ⟨hr, hs, hg, hi, hb, hj⟩ := hvalues
    rw [toHex, paddedHex_byte hr hs, paddedHex_byte hg hi, paddedHex_byte hb hj]
    rfl
  · rename_i r s g i b j a k
    cases h
    simp only [List.mem_cons, List.not_mem_nil, or_false, forall_eq_or_imp, forall_eq] at hvalues
    obtain ⟨hr, hs, hg, hi, hb, hj, ha, hk⟩ := hvalues
    have hdrop : ([r, s, g, i, b, j, a, k].map upperHexDigit).drop 6 = ['F', 'F'] ↔ byte a k = 255 := by
      rw [byte_eq_full_iff hk, ← upperHexDigit_eq_F_iff ha, ← upperHexDigit_eq_F_iff hk]
      simp
    rw [toHex, paddedHex_byte hr hs, paddedHex_byte hg hi, paddedHex_byte hb hj, paddedHex_byte ha hk,
      withoutFullOpacity]
    by_cases hfull : byte a k = 255
    · rw [if_pos hfull, if_pos (hdrop.mpr hfull)]
      rfl
    · rw [if_neg hfull, if_neg (mt hdrop.mp hfull)]
      rfl
  · cases h

/-- What a text is read as is written in the canonical form of the digits that the text spells. -/
theorem Spells.toHex_eq (hspells : Spells t digits) (h : ofHex? t = .ok c) : c.toHex = canonicalText digits := by
  have hvalues : ∀ n ∈ digits.map hexValue, n < 16 :=
    lt_of_mapM_hexDigit? (mapM_hexDigit?_eq_some_iff.mpr ⟨hspells.hexadecimal, rfl⟩)
  have hupper : (digits.map hexValue).map upperHexDigit = digits.map Char.toUpper := by
    rw [List.map_map]
    exact List.map_congr_left fun d hd => upperHexDigit_hexValue (hspells.hexadecimal d hd)
  rw [toHex_of_ofDigitValues? hvalues (hspells.ofHex?_eq_ok_iff.mp h), hupper, canonicalText]

/-- Colours in range are told apart by their texts. -/
theorem eq_of_toHex_eq (hc : c.Valid) (hc' : c'.Valid) (h : c.toHex = c'.toHex) : c = c' := by
  have hread := ofHex?_toHex hc
  rw [h, ofHex?_toHex hc'] at hread
  exact (Except.ok.inj hread).symm

/-- The value that lists the parts of a colour. -/
def listedParts (c : Color) : Value :=
  .list [.int c.red, .int c.green, .int c.blue, .int c.alpha]

theorem ofValue_listedParts (h : c.Valid) : ofValue c.listedParts = .ok c := by
  have hpart {part : Int} (hpart : InRange part) : partOfValue (.int part) = .ok part := if_pos hpart
  simp only [ofValue, listedParts, ofParts, hpart h.red, hpart h.green, hpart h.blue, hpart h.alpha]
  rfl

/-- A colour with parts in range is read back from its text and from the list of its parts. A text that is read spells
digits, and the colour is written in their canonical form. Two texts are read as the same colour exactly if the canonical
forms of what they spell are equal. -/
theorem codec_canonical :
    (∀ c, c.Valid → ofHex? c.toHex = .ok c ∧ ofValue c.listedParts = .ok c) ∧
    (∀ t c, ofHex? t = .ok c → ∃ digits, Spells t digits ∧ c.toHex = canonicalText digits) ∧
    ∀ t t' c c' digits digits', ofHex? t = .ok c → ofHex? t' = .ok c' → Spells t digits → Spells t' digits' →
      (c = c' ↔ canonicalText digits = canonicalText digits') := by
  refine ⟨fun c hc => ⟨ofHex?_toHex hc, ofValue_listedParts hc⟩, fun t c h => ?_, fun t t' c c' digits digits' h h' => ?_⟩
  · obtain ⟨digits, hspells⟩ := exists_spells_of_ofHex? h
    exact ⟨digits, hspells, hspells.toHex_eq h⟩
  · intro hspells hspells'
    rw [← hspells.toHex_eq h, ← hspells'.toHex_eq h']
    constructor
    · intro heq
      rw [heq]
    · exact eq_of_toHex_eq (valid_of_ofHex? h) (valid_of_ofHex? h')

/-- The colour of warnings, spelled in both cases, with white space around it and with a full opacity, is the same
as without all of this. -/
theorem codec_canonical_fullOpacity :
    ofHex? "\u3000#ff6E40fF\n" = .ok standardWarning ∧ ofHex? "FF6E40" = .ok standardWarning ∧
      canonicalText "ff6E40fF".toList = canonicalText "FF6E40".toList ∧
      (∃ digits, Spells "\u3000#ff6E40fF\n" digits ∧ standardWarning.toHex = canonicalText digits) ∧
      ofHex? standardWarning.toHex = .ok standardWarning ∧ ofValue standardWarning.listedParts = .ok standardWarning := by
  have hdigits : ∀ d ∈ "ff6E40fF".toList, d ∈ hexDigits := List.all_iff_forall_prop.mp (by decide)
  have hupper : ∀ d ∈ "FF6E40".toList, d ∈ hexDigits := List.all_iff_forall_prop.mp (by decide)
  have hwide : Spells "\u3000#ff6E40fF\n" "ff6E40fF".toList :=
    ⟨hdigits, .inr rfl, ['\u3000'], ['#'], ['\n'], List.all_iff_forall_prop.mp (by decide), .inr rfl,
      List.all_iff_forall_prop.mp (by decide), by decide⟩
  have hplain : Spells "FF6E40" "FF6E40".toList := ⟨hupper, .inl rfl, [], [], [], nofun, .inl rfl, nofun, by decide⟩
  have hreadWide : ofHex? "\u3000#ff6E40fF\n" = .ok standardWarning := hwide.ofHex?_eq_ok_iff.mpr (by decide)
  have hreadPlain : ofHex? "FF6E40" = .ok standardWarning := hplain.ofHex?_eq_ok_iff.mpr (by decide)
  obtain ⟨hback, hform, hsame⟩ := codec_canonical
  obtain ⟨htext, hparts⟩ := hback standardWarning (valid_of_ofHex? hreadPlain)
  exact ⟨hreadWide, hreadPlain, (hsame _ _ _ _ _ _ hreadWide hreadPlain hwide hplain).mp rfl,
    hform _ _ hreadWide, htext, hparts⟩

end LockScreen.Color
