import LockScreen.Color
import LockScreen.Proofs.Json.Values
import Mathlib.Data.Bool.AllAny
import Mathlib.Data.List.TakeWhile

/-!
# Colours read back

The parts of a colour that is read are in range (`valid_of_ofValue`), and a colour with parts in range is read back
from its hexadecimal text (`ofHex?_toHex`): two digits write a part in range, and the text has nothing around them
that would be trimmed.
-/

namespace LockScreen.Text

theorem hexDigit?_upperHexDigit {n : Nat} (h : n < 16) : hexDigit? (upperHexDigit n) = some n := by
  have hall : ∀ k : Fin 16, hexDigit? (upperHexDigit k) = some k.val := by decide
  exact hall ⟨n, h⟩

theorem isBlank_upperHexDigit {n : Nat} (h : n < 16) : isBlank (upperHexDigit n) = false := by
  have hall : ∀ k : Fin 16, isBlank (upperHexDigit k) = false := by decide
  exact hall ⟨n, h⟩

/-- The hexadecimal digits of both cases. -/
def hexDigits : List Char :=
  "0123456789abcdefABCDEF".toList

/-- The value of a hexadecimal digit, and zero of any other character. -/
def hexValue (c : Char) : Nat :=
  (hexDigit? c).getD 0

/-- Only these characters have a value as a digit. -/
theorem mem_hexDigits_of_hexDigit? {c : Char} {n : Nat} (h : hexDigit? c = some n) : c ∈ hexDigits := by
  have hall : ∀ k : Fin 128, (hexDigit? (Char.ofNat k)).isSome = true → Char.ofNat k ∈ hexDigits := by decide
  have hsmall : c.toNat < 128 := by
    by_contra hlarge
    have hbeyond (high : Char) (hhigh : high.toNat < 128) : ¬ c ≤ high := by
      intro hle
      have hle : c.toNat ≤ high.toNat := hle
      omega
    have hnone : hexDigit? c = none := by
      simp [hexDigit?, hbeyond '9' (by decide), hbeyond 'f' (by decide), hbeyond 'F' (by decide)]
    rw [hnone] at h
    cases h
  have hmem := hall ⟨c.toNat, hsmall⟩
  rw [Char.ofNat_toNat, h] at hmem
  exact hmem rfl

theorem hexDigit?_of_mem {c : Char} (h : c ∈ hexDigits) : hexDigit? c = some (hexValue c) := by
  -- digit by digit: a statement on all characters would be decided by trying every one
  have hall : ∀ d ∈ hexDigits, hexDigit? d = some (hexValue d) := List.all_iff_forall_prop.mp (by decide)
  exact hall c h

theorem hexDigit?_lt {c : Char} {n : Nat} (h : hexDigit? c = some n) : n < 16 := by
  have hall : ∀ d ∈ hexDigits, hexValue d < 16 := List.all_iff_forall_prop.mp (by decide)
  have hc := mem_hexDigits_of_hexDigit? h
  rw [hexDigit?_of_mem hc] at h
  cases h
  exact hall c hc

/-- The rows whose characters all have a value as digits are those of hexadecimal digits. -/
theorem mapM_hexDigit?_eq_some_iff {cs : List Char} {values : List Nat} :
    cs.mapM hexDigit? = some values ↔ (∀ c ∈ cs, c ∈ hexDigits) ∧ values = cs.map hexValue := by
  induction cs generalizing values with
  | nil => simp [eq_comm]
  | cons c cs ih =>
    rw [List.mapM_cons, List.forall_mem_cons]
    constructor
    · intro h
      obtain ⟨n, hn, hrest⟩ := Option.bind_eq_some_iff.mp h
      obtain ⟨more, hmore, heq⟩ := Option.bind_eq_some_iff.mp hrest
      obtain ⟨hcs, rfl⟩ := ih.mp hmore
      have hc := mem_hexDigits_of_hexDigit? hn
      rw [hexDigit?_of_mem hc] at hn
      cases hn
      cases heq
      exact ⟨⟨hc, hcs⟩, rfl⟩
    · rintro ⟨⟨hc, hcs⟩, rfl⟩
      rw [hexDigit?_of_mem hc, ih.mpr ⟨hcs, rfl⟩]
      rfl

theorem dropWhile_isBlank_eq_self {cs : List Char} (h : ∀ c ∈ cs, isBlank c = false) : cs.dropWhile isBlank = cs := by
  cases cs with
  | nil => rfl
  | cons c cs => simp [List.dropWhile, h c List.mem_cons_self]

/-- White space around a text without any is trimmed. -/
theorem trim_append_append {before middle after : List Char} (hbefore : ∀ c ∈ before, isBlank c = true)
    (hmiddle : ∀ c ∈ middle, isBlank c = false) (hafter : ∀ c ∈ after, isBlank c = true) :
    trim (before ++ middle ++ after) = middle := by
  have hreverse : ∀ c ∈ middle.reverse, isBlank c = false := fun c hc => hmiddle c (List.mem_reverse.mp hc)
  have hback : ∀ c ∈ after.reverse, isBlank c = true := fun c hc => hafter c (List.mem_reverse.mp hc)
  cases middle with
  | nil =>
    have hall : ∀ c ∈ before ++ [] ++ after, isBlank c = true := by
      intro c hc
      rw [List.append_nil] at hc
      rcases List.mem_append.mp hc with hc | hc
      · exact hbefore c hc
      · exact hafter c hc
    rw [trim, trimBy, List.dropWhile_eq_nil_iff.mpr hall]
    rfl
  | cons c middle =>
    have hc : ¬ isBlank c = true := by
      rw [hmiddle c List.mem_cons_self]
      exact Bool.false_ne_true
    have hfront : (before ++ c :: middle ++ after).dropWhile isBlank = c :: middle ++ after := by
      rw [List.append_assoc, List.dropWhile_append_of_pos hbefore, List.cons_append, List.dropWhile_cons_of_neg hc]
    rw [trim, trimBy, hfront, List.reverse_append, List.dropWhile_append_of_pos hback,
      dropWhile_isBlank_eq_self hreverse, List.reverse_reverse]

/-- A text without white space has none to trim. -/
theorem trim_eq_self {cs : List Char} (h : ∀ c ∈ cs, isBlank c = false) : trim cs = cs := by
  have hnone : ∀ c ∈ [], isBlank c = true := nofun
  have htrim := trim_append_append hnone h hnone
  rwa [List.nil_append, List.append_nil] at htrim

/-- A number below 256 is written with two digits. -/
theorem paddedHex_of_lt {n : Nat} (h : n < 256) :
    paddedHex n = [upperHexDigit (n / 16), upperHexDigit (n % 16)] := by
  have hdigits (k : Nat) (hk : k < 16) :
      significantHex upperHexDigit k = if k = 0 then [] else [upperHexDigit k] := by
    rw [significantHex]
    split
    · rfl
    · have hhigh : k / 16 = 0 := by omega
      have hlow : k % 16 = k := by omega
      rw [hhigh, hlow, significantHex, if_pos rfl, List.nil_append]
  have hwhole : (0 : Int) ≤ n := Int.natCast_nonneg n
  unfold paddedHex
  rw [if_pos hwhole, Int.toNat_natCast]
  rw [significantHex]
  by_cases h0 : n = 0
  · subst h0
    decide
  · rw [if_neg h0, hdigits (n / 16) (by omega)]
    by_cases hhigh : n / 16 = 0
    · rw [if_pos hhigh, hhigh]
      rfl
    · rw [if_neg hhigh]
      rfl

end LockScreen.Text

namespace LockScreen.Color

open Text

/-- Two digits make a part in range. -/
theorem inRange_byte {high low : Nat} (hhigh : high < 16) (hlow : low < 16) :
    InRange (byte high low) := by
  unfold InRange byte
  omega

theorem inRange_full : InRange 255 :=
  ⟨by decide, by decide⟩

theorem valid_of_ofDigitValues? {digits : List Nat} (hdigits : ∀ n ∈ digits, n < 16) {c : Color}
    (h : ofDigitValues? digits = some c) : c.Valid := by
  unfold ofDigitValues? at h
  split at h
  · cases h
    simp only [List.mem_cons, List.not_mem_nil, or_false, forall_eq_or_imp, forall_eq] at hdigits
    obtain ⟨h1, h2, h3, h4, h5, h6⟩ := hdigits
    exact ⟨inRange_byte h1 h2, inRange_byte h3 h4, inRange_byte h5 h6, inRange_full⟩
  · cases h
    simp only [List.mem_cons, List.not_mem_nil, or_false, forall_eq_or_imp, forall_eq] at hdigits
    obtain ⟨h1, h2, h3, h4, h5, h6, h7, h8⟩ := hdigits
    exact ⟨inRange_byte h1 h2, inRange_byte h3 h4, inRange_byte h5 h6, inRange_byte h7 h8⟩
  · cases h

theorem lt_of_mapM_hexDigit? {cs : List Char} {digits : List Nat} (h : cs.mapM hexDigit? = some digits) :
    ∀ n ∈ digits, n < 16 := by
  obtain ⟨hcs, rfl⟩ := mapM_hexDigit?_eq_some_iff.mp h
  intro n hn
  obtain ⟨c, hc, rfl⟩ := List.mem_map.mp hn
  exact hexDigit?_lt (hexDigit?_of_mem (hcs c hc))

theorem valid_of_ofHex? {t : Text} {c : Color} (h : ofHex? t = .ok c) : c.Valid := by
  unfold ofHex? at h
  split at h
  · rename_i color hcolor
    cases h
    obtain ⟨s, _, hdigits⟩ := Option.bind_eq_some_iff.mp hcolor
    obtain ⟨digits, hmapM, hof⟩ := Option.bind_eq_some_iff.mp hdigits
    exact valid_of_ofDigitValues? (lt_of_mapM_hexDigit? hmapM) hof
  · cases h

theorem inRange_of_partOfValue {v : Value} {part : Int} (h : partOfValue v = .ok part) : InRange part := by
  unfold partOfValue at h
  split at h
  · cases h
  · obtain ⟨rounded, _, hrange⟩ := exists_ok_of_bind h
    split at hrange
    · cases hrange
      assumption
    · cases hrange

theorem valid_of_ofParts {parts : List Value} {c : Color} (h : ofParts parts = .ok c) : c.Valid := by
  unfold ofParts at h
  split at h
  · obtain ⟨r, hr, h⟩ := exists_ok_of_bind h
    obtain ⟨g, hg, h⟩ := exists_ok_of_bind h
    obtain ⟨b, hb, h⟩ := exists_ok_of_bind h
    cases h
    exact ⟨inRange_of_partOfValue hr, inRange_of_partOfValue hg, inRange_of_partOfValue hb,
      inRange_full⟩
  · obtain ⟨r, hr, h⟩ := exists_ok_of_bind h
    obtain ⟨g, hg, h⟩ := exists_ok_of_bind h
    obtain ⟨b, hb, h⟩ := exists_ok_of_bind h
    obtain ⟨a, ha, h⟩ := exists_ok_of_bind h
    cases h
    exact ⟨inRange_of_partOfValue hr, inRange_of_partOfValue hg, inRange_of_partOfValue hb,
      inRange_of_partOfValue ha⟩
  · cases h

/-- A colour that is read has parts in range. -/
theorem valid_of_ofValue {v : Value} {c : Color} (h : ofValue v = .ok c) : c.Valid := by
  unfold ofValue at h
  split at h
  · exact valid_of_ofHex? h
  · exact valid_of_ofParts h
  · cases h

/-- A part in range is written with two digits, which make it up again. -/
theorem exists_digits {part : Int} (h : InRange part) :
    ∃ high low, high < 16 ∧ low < 16 ∧ paddedHex part = [upperHexDigit high, upperHexDigit low] ∧
      byte high low = part := by
  obtain ⟨n, rfl⟩ := Int.eq_ofNat_of_zero_le h.1
  have hn : n < 256 := by
    have hle := h.2
    omega
  refine ⟨n / 16, n % 16, by omega, by omega, paddedHex_of_lt hn, ?_⟩
  unfold byte
  rw [Nat.div_add_mod]

theorem hexDigitsOf_ofList {ds : List Char} (h : ∀ c ∈ ds, isBlank c = false) :
    hexDigitsOf (String.ofList ('#' :: ds)) = ds := by
  have hblank : ∀ c ∈ '#' :: ds, isBlank c = false := by
    intro c hc
    rcases List.mem_cons.mp hc with rfl | hc
    · decide
    · exact h c hc
  rw [hexDigitsOf, String.toList_ofList, trim_eq_self hblank]
  rfl

theorem mapM_hexDigit?_map {digits : List Nat} (h : ∀ n ∈ digits, n < 16) :
    (digits.map upperHexDigit).mapM hexDigit? = some digits := by
  induction digits with
  | nil => rfl
  | cons n digits ih =>
    obtain ⟨hn, hrest⟩ := List.forall_mem_cons.mp h
    simp only [List.map_cons, List.mapM_cons, hexDigit?_upperHexDigit hn, ih hrest]
    rfl

/-- What digits make up is read from their text. -/
theorem ofHex?_ofList {digits : List Nat} (h : ∀ n ∈ digits, n < 16) {c : Color}
    (hc : ofDigitValues? digits = some c) :
    ofHex? (String.ofList ('#' :: digits.map upperHexDigit)) = .ok c := by
  have hblank : ∀ d ∈ digits.map upperHexDigit, isBlank d = false := by
    intro d hd
    obtain ⟨n, hn, rfl⟩ := List.mem_map.mp hd
    exact isBlank_upperHexDigit (h n hn)
  simp only [ofHex?, string?_ofString, Option.bind_some, hexDigitsOf_ofList hblank, mapM_hexDigit?_map h, hc]

/-- A colour with parts in range is read back from its text. -/
theorem ofHex?_toHex {c : Color} (h : c.Valid) : ofHex? c.toHex = .ok c := by
  obtain ⟨red, green, blue, alpha⟩ := c
  obtain ⟨r, s, hr, hs, hred, rfl⟩ := exists_digits h.red
  obtain ⟨g, i, hg, hi, hgreen, rfl⟩ := exists_digits h.green
  obtain ⟨b, j, hb, hj, hblue, rfl⟩ := exists_digits h.blue
  obtain ⟨a, k, ha, hk, halpha, rfl⟩ := exists_digits h.alpha
  unfold toHex
  dsimp only at hred hgreen hblue halpha ⊢
  rw [hred, hgreen, hblue, halpha]
  split
  · rename_i hopaque
    have hdigits : ∀ n ∈ [r, s, g, i, b, j], n < 16 := by simp [hr, hs, hg, hi, hb, hj]
    refine ofHex?_ofList hdigits ?_
    rw [ofDigitValues?, hopaque]
  · have hdigits : ∀ n ∈ [r, s, g, i, b, j, a, k], n < 16 := by simp [hr, hs, hg, hi, hb, hj, ha, hk]
    exact ofHex?_ofList hdigits rfl

end LockScreen.Color
