import LockScreen.Json.Reader
import LockScreen.Json.Writer
import LockScreen.Proofs.Number.Decimals
import LockScreen.Proofs.Number.Digits
import LockScreen.Proofs.Number.Wholes

/-!
# Numbers read back

An integer is written in plain digits and a binary64 number with the fewest digits that spell it, and the reader
of documents gives both back (`readAtom_integerText`, `readAtom_writeFloat`), as long as nothing follows that
could go on with the number (`EndsNumber`).

The two layouts of a binary64 number are one row of digits with a point among them and maybe a power of ten,
which `readMagnitude_real` reads. What the layouts differ in is where zeros stand, and that does not change the
decimal that is read.
-/

namespace LockScreen.Json

open Text

/-! ## Digits at the start of the input -/

/-- A letter that may go on with a number. -/
def continuesNumber : Letter → Bool
  | .char c => isPlainDigit c || c = '.' || c = 'e' || c = 'E'
  | .half _ => false

/-- A number that comes before the input ends there. -/
def EndsNumber (rest : List Letter) : Prop :=
  ∀ l ∈ rest.head?, continuesNumber l = false

/-- The input does not start with a digit. -/
def EndsDigits (rest : List Letter) : Prop :=
  ∀ c, .char c ∈ rest.head? → isPlainDigit c = false

theorem EndsNumber.endsDigits {rest : List Letter} (h : EndsNumber rest) : EndsDigits rest := by
  intro c hc
  have hnot := h _ hc
  simp only [continuesNumber, Bool.or_eq_false_iff] at hnot
  exact hnot.1.1.1

theorem endsDigits_cons {c : Char} (h : isPlainDigit c = false) (rest : List Letter) :
    EndsDigits (.char c :: rest) := by
  intro d hd
  cases hd
  exact h

theorem splitDigits_append {ds : List Char} {rest : List Letter} (hds : ∀ c ∈ ds, isPlainDigit c = true)
    (h : EndsDigits rest) : splitDigits (ds.map .char ++ rest) = (ds, rest) := by
  induction ds with
  | nil =>
    rcases rest with _ | ⟨c | offset, rest⟩
    · rfl
    · simp [splitDigits, h c rfl]
    · rfl
  | cons c ds ih =>
    have hrest := ih fun d hd => hds d (List.mem_cons_of_mem c hd)
    simp [splitDigits, hds c List.mem_cons_self, hrest]

theorem splitWhole_append {ds : List Char} {rest : List Letter} (hds : Leading ds) (h : EndsDigits rest) :
    splitWhole (ds.map .char ++ rest) = (ds, rest) := by
  rcases hds.head with rfl | hhead
  · rfl
  · rw [← splitDigits_append hds.digits h]
    rcases ds with _ | ⟨c, ds⟩
    · exact absurd rfl hds.ne_nil
    · have hc : c ≠ '0' := fun hc => hhead (congrArg some hc)
      simp [splitWhole, hc]

/-! ## Words -/

/-- What starts with no word is a number, with a sign or without. -/
theorem readAtom_of_no_word {ls : List Letter} (h : ∀ entry ∈ words, afterWord? entry.1.toList ls = none) :
    (∃ rest, ls = .char '-' :: rest ∧ readAtom ls = readMagnitude true rest) ∨
      (ls.head? ≠ some (.char '-') ∧ readAtom ls = readMagnitude false ls) := by
  unfold readAtom
  split
  · rename_i hword
    obtain ⟨⟨word, v⟩, hentry, hread⟩ := List.exists_of_findSome?_eq_some hword
    obtain ⟨after, hafter, _⟩ := Option.map_eq_some_iff.mp hread
    rw [h _ hentry] at hafter
    cases hafter
  · split
    · exact .inl ⟨_, rfl, rfl⟩
    · rename_i hminus
      refine .inr ⟨?_, rfl⟩
      intro hhead
      obtain ⟨rest, hrest⟩ := List.head?_eq_some_iff.mp hhead
      exact hminus rest hrest

/-- A digit starts no word. -/
theorem readAtom_of_isPlainDigit {c : Char} (h : isPlainDigit c = true) (ls : List Letter) :
    readAtom (.char c :: ls) = readMagnitude false (.char c :: ls) := by
  have hne {d : Char} (hd : isPlainDigit d = false) : d ≠ c := by
    rintro rfl
    rw [h] at hd
    cases hd
  have hwords : ∀ entry ∈ words, afterWord? entry.1.toList (.char c :: ls) = none := by
    simp [words, afterWord?, hne (d := 'n') (by decide), hne (d := 't') (by decide),
      hne (d := 'f') (by decide), hne (d := 'N') (by decide), hne (d := 'I') (by decide),
      hne (d := '-') (by decide)]
  obtain ⟨rest, hrest, _⟩ | ⟨_, hread⟩ := readAtom_of_no_word hwords
  · cases hrest
    exact absurd rfl (hne (d := '-') (by decide))
  · exact hread

/-- A sign and a digit start no word. -/
theorem readAtom_minus_of_isPlainDigit {c : Char} (h : isPlainDigit c = true) (ls : List Letter) :
    readAtom (.char '-' :: .char c :: ls) = readMagnitude true (.char c :: ls) := by
  have hword : 'I' ≠ c := by
    rintro rfl
    revert h
    decide
  have hwords : ∀ entry ∈ words, afterWord? entry.1.toList (.char '-' :: .char c :: ls) = none := by
    simp [words, afterWord?, hword]
  obtain ⟨rest, hrest, hread⟩ | ⟨hminus, _⟩ := readAtom_of_no_word hwords
  · cases hrest
    exact hread
  · exact absurd rfl hminus

/-! ## Integers -/

theorem splitFraction_of_endsNumber {rest : List Letter} (h : EndsNumber rest) :
    splitFraction rest = ([], rest) := by
  rcases rest with _ | ⟨c | offset, rest⟩
  · rfl
  · have hpoint : '.' ≠ c := by
      rintro rfl
      exact absurd (h _ rfl) (by decide)
    simp [splitFraction, afterWord?, hpoint]
  · rfl

theorem splitExponent?_of_endsNumber {rest : List Letter} (h : EndsNumber rest) :
    splitExponent? rest = none := by
  rcases rest with _ | ⟨c | offset, rest⟩
  · rfl
  · have hlower : 'e' ≠ c := by
      rintro rfl
      exact absurd (h _ rfl) (by decide)
    have hupper : 'E' ≠ c := by
      rintro rfl
      exact absurd (h _ rfl) (by decide)
    simp [splitExponent?, afterWord?, hlower, hupper]
  · rfl

theorem readMagnitude_decimalText (negative : Bool) {n : Nat} {rest : List Letter}
    (hlimit : (decimalText n).length ≤ Numeral.digitLimit) (h : EndsNumber rest) :
    readMagnitude negative ((decimalText n).map .char ++ rest)
      = .ok (.int (Binary64.signed negative n), rest) := by
  have hne : (decimalText n).isEmpty = false := by
    simpa [List.isEmpty_iff] using decimalText_ne_nil n
  have hshort : ¬Numeral.digitLimit < (decimalText n).length := Nat.not_lt.2 hlimit
  unfold readMagnitude
  rw [splitWhole_append (leading_decimalText n) h.endsDigits]
  simp only [splitFraction_of_endsNumber h, splitExponent?_of_endsNumber h, hne, hshort,
    valueOfDigits_decimalText, List.isEmpty_nil, Bool.not_true, Bool.false_eq_true, if_false]

/-- The first letter of a written number is a digit. -/
theorem exists_cons_of_leading {ds : List Char} (h : Leading ds) :
    ∃ c rest, ds = c :: rest ∧ isPlainDigit c = true := by
  rcases ds with _ | ⟨c, rest⟩
  · exact absurd rfl h.ne_nil
  · exact ⟨c, rest, rfl, h.digits c List.mem_cons_self⟩

/-- An integer is read back. -/
theorem readAtom_integerText {i : Int} {rest : List Letter}
    (hlimit : (decimalText i.natAbs).length ≤ Numeral.digitLimit) (h : EndsNumber rest) :
    readAtom ((integerText i).map .char ++ rest) = .ok (.int i, rest) := by
  obtain ⟨c, ds, hds, hc⟩ := exists_cons_of_leading (leading_decimalText i.natAbs)
  have hread (negative : Bool) := readMagnitude_decimalText negative hlimit h
  rw [hds] at hread
  unfold integerText
  rw [hds]
  split
  · rename_i hneg
    refine (readAtom_minus_of_isPlainDigit hc _).trans ?_
    exact (hread true).trans (by rw [Binary64.signed_natAbs_of_neg hneg])
  · rename_i hneg
    refine (readAtom_of_isPlainDigit hc _).trans ?_
    exact (hread false).trans (by rw [Binary64.signed_natAbs_of_not_neg hneg])

/-! ## A point and a power of ten -/

/-- The digits behind the point, with the point. -/
def fractionText (fraction : List Char) : List Char :=
  if fraction = [] then [] else '.' :: fraction

/-- A power of ten, with its letter and its sign. -/
def exponentText : Option Int → List Char
  | none => []
  | some e => 'e' :: (if e < 0 then '-' else '+')
    :: (List.replicate (2 - (decimalText e.natAbs).length) '0' ++ decimalText e.natAbs)

theorem splitFraction_append {fraction : List Char} {rest : List Letter}
    (hfraction : ∀ c ∈ fraction, isPlainDigit c = true) (h : EndsDigits rest)
    (hpoint : Letter.char '.' ∉ rest.head?) :
    splitFraction ((fractionText fraction).map .char ++ rest) = (fraction, rest) := by
  unfold fractionText
  split
  · rename_i hnone
    subst hnone
    rcases rest with _ | ⟨c | offset, rest⟩
    · rfl
    · have hne : '.' ≠ c := fun hc => hpoint (hc ▸ rfl)
      simp [splitFraction, afterWord?, hne]
    · rfl
  · rename_i hsome
    simp [splitFraction, afterWord?, splitDigits_append hfraction h, hsome]

theorem splitExponent?_append (e : Int) {rest : List Letter} (h : EndsDigits rest) :
    splitExponent? ((exponentText (some e)).map .char ++ rest) = some (e, rest) := by
  generalize hdigits : List.replicate (2 - (decimalText e.natAbs).length) '0' ++ decimalText e.natAbs
    = digits
  have hplain : ∀ c ∈ digits, isPlainDigit c = true := by
    rw [← hdigits]
    intro c hc
    rcases List.mem_append.mp hc with hzero | hc
    · exact isPlainDigit_of_mem_zeros hzero
    · exact isPlainDigit_of_mem_decimalText _ c hc
  have hne : digits ≠ [] := by
    rw [← hdigits]
    exact List.append_ne_nil_of_right_ne_nil _ (decimalText_ne_nil _)
  have hvalue : valueOfDigits digits = e.natAbs := by
    rw [← hdigits, valueOfDigits_zeros_append, valueOfDigits_decimalText]
  have hsplit := splitDigits_append hplain h
  rw [exponentText, hdigits]
  split
  · rename_i hneg
    simp [splitExponent?, afterWord?, splitSign, hsplit, hne, hvalue, Binary64.signed_natAbs_of_neg hneg]
  · rename_i hneg
    simp [splitExponent?, afterWord?, splitSign, hsplit, hne, hvalue, Binary64.signed_natAbs_of_not_neg hneg]

/-- A row of digits with a point among them, or with a power of ten, or with both. -/
structure RealText (text whole fraction : List Char) (exponent? : Option Int) : Prop where
  text_eq : text = whole ++ fractionText fraction ++ exponentText exponent?
  leading : Leading whole
  digits : ∀ c ∈ fraction, isPlainDigit c = true
  not_whole : fraction ≠ [] ∨ exponent?.isSome = true

theorem RealText.exists_cons {text whole fraction : List Char} {exponent? : Option Int}
    (h : RealText text whole fraction exponent?) :
    ∃ c rest, text = c :: rest ∧ isPlainDigit c = true := by
  obtain ⟨c, rest, hwhole, hc⟩ := exists_cons_of_leading h.leading
  exact ⟨c, _, by rw [h.text_eq, hwhole, List.cons_append, List.cons_append], hc⟩

/-- Digits with a point or a power of ten are read as the decimal that they spell. -/
theorem readMagnitude_real (negative : Bool) {text whole fraction : List Char} {exponent? : Option Int}
    (htext : RealText text whole fraction exponent?) {rest : List Letter} (h : EndsNumber rest) :
    readMagnitude negative (text.map .char ++ rest) = .ok (.float (Binary64.ofDecimal negative
      ⟨valueOfDigits (whole ++ fraction), exponent?.getD 0 - fraction.length⟩), rest) := by
  have hwhole : whole.isEmpty = false := by
    simpa [List.isEmpty_iff] using htext.leading.ne_nil
  -- what follows the fraction is the power of ten, or the rest
  have hends : EndsDigits ((exponentText exponent?).map .char ++ rest) ∧
      Letter.char '.' ∉ ((exponentText exponent?).map Letter.char ++ rest).head? := by
    cases exponent? with
    | none =>
      refine ⟨h.endsDigits, fun hpoint => ?_⟩
      exact absurd (h _ hpoint) (by decide)
    | some e => exact ⟨endsDigits_cons (by decide) _, by simp [exponentText]⟩
  have hfraction := splitFraction_append htext.digits hends.1 hends.2
  have hbehind : EndsDigits ((fractionText fraction).map .char
      ++ ((exponentText exponent?).map .char ++ rest)) := by
    unfold fractionText
    split
    · exact hends.1
    · exact endsDigits_cons (by decide) _
  rw [htext.text_eq]
  unfold readMagnitude
  simp only [List.map_append, List.append_assoc, splitWhole_append htext.leading hbehind, hfraction, hwhole,
    Bool.false_eq_true, if_false]
  cases exponent? with
  | some e => simp only [splitExponent?_append e h.endsDigits, Option.getD_some]
  | none =>
    have hsome : fraction ≠ [] := htext.not_whole.resolve_right Bool.false_ne_true
    simp only [exponentText, List.map_nil, List.nil_append, splitExponent?_of_endsNumber h]
    simp [hsome]

/-! ## The written form of a binary64 number -/

/-- A text spells a decimal: its digits are read as the number nearest to it. -/
def SpellsDecimal (text : List Char) (d : Decimal) : Prop :=
  ∃ whole fraction exponent?, RealText text whole fraction exponent? ∧ ∀ negative,
    Binary64.ofDecimal negative ⟨valueOfDigits (whole ++ fraction), exponent?.getD 0 - fraction.length⟩
      = Binary64.ofDecimal negative d

variable {ds : List Char}

/-- All digits stand behind the point, after zeros. -/
theorem spells_small (hds : ∀ c ∈ ds, isPlainDigit c = true) (hne : ds ≠ []) (zeros : Nat) :
    SpellsDecimal ("0.".toList ++ List.replicate zeros '0' ++ ds) ⟨valueOfDigits ds, -zeros - ds.length⟩ := by
  refine ⟨['0'], List.replicate zeros '0' ++ ds, none, ⟨?_, leading_zero, ?_, ?_⟩, ?_⟩
  · simp [fractionText, exponentText, hne]
  · intro c hc
    exact (List.mem_append.mp hc).elim isPlainDigit_of_mem_zeros (hds c)
  · exact .inl (List.append_ne_nil_of_right_ne_nil _ hne)
  · intro negative
    have hvalue : valueOfDigits (['0'] ++ (List.replicate zeros '0' ++ ds)) = valueOfDigits ds := by
      rw [← valueOfDigits_zeros_append (zeros + 1) ds, List.replicate_succ]
      rfl
    rw [hvalue]
    congr 2
    simp only [Option.getD_none, List.length_append, List.length_replicate]
    omega

/-- The point stands among the digits. -/
theorem spells_inside (hds : ∀ c ∈ ds, isPlainDigit c = true) (hhead : ds.head? ≠ some '0') {k : Nat}
    (hpos : 0 < k) (hk : k < ds.length) :
    SpellsDecimal (ds.take k ++ '.' :: ds.drop k) ⟨valueOfDigits ds, k - ds.length⟩ := by
  have hdrop : ds.drop k ≠ [] := by
    simp only [ne_eq, List.drop_eq_nil_iff]
    omega
  refine ⟨ds.take k, ds.drop k, none, ⟨?_, ⟨?_, ?_, .inr ?_⟩, ?_, .inl hdrop⟩, ?_⟩
  · simp [fractionText, exponentText, hdrop]
  · exact fun c hc => hds c (List.mem_of_mem_take hc)
  · intro hnil
    have hlength := congrArg List.length hnil
    simp only [List.length_take, List.length_nil] at hlength
    omega
  · rwa [List.head?_take, if_neg (Nat.ne_of_gt hpos)]
  · exact fun c hc => hds c (List.mem_of_mem_drop hc)
  · intro negative
    rw [List.take_append_drop]
    congr 2
    simp only [Option.getD_none, List.length_drop]
    omega

/-- Zeros stand up to the point, and one behind it. -/
theorem spells_large (hds : ∀ c ∈ ds, isPlainDigit c = true) (hne : ds ≠ []) (hhead : ds.head? ≠ some '0')
    (zeros : Nat) :
    SpellsDecimal (ds ++ List.replicate zeros '0' ++ ".0".toList) ⟨valueOfDigits ds, zeros⟩ := by
  refine ⟨ds ++ List.replicate zeros '0', ['0'], none, ⟨?_, ⟨?_, ?_, .inr ?_⟩, leading_zero.digits, ?_⟩, ?_⟩
  · simp [fractionText, exponentText]
  · intro c hc
    exact (List.mem_append.mp hc).elim (hds c) isPlainDigit_of_mem_zeros
  · exact List.append_ne_nil_of_left_ne_nil hne _
  · rwa [List.head?_append_of_ne_nil _ hne]
  · exact .inl (List.cons_ne_nil _ _)
  · intro negative
    have hvalue : valueOfDigits (ds ++ List.replicate zeros '0' ++ ['0'])
        = valueOfDigits ds * Nat.pow 10 (zeros + 1) := by
      rw [← valueOfDigits_append_zeros, List.replicate_succ', List.append_assoc]
    rw [hvalue, Binary64.ofDecimal_mul_pow]
    congr 2
    simp only [Option.getD_none, List.length_singleton]
    omega

/-- Digits without a zero in front spell what they count, wherever the point is put. -/
theorem spells_positionalText (hds : ∀ c ∈ ds, isPlainDigit c = true) (hne : ds ≠ [])
    (hhead : ds.head? ≠ some '0') (point : Int) :
    SpellsDecimal (Binary64.positionalText ds point) ⟨valueOfDigits ds, point - ds.length⟩ := by
  unfold Binary64.positionalText
  split_ifs with hsmall hinside
  · have hzeros : point = -((-point).toNat : Int) := by omega
    have hspells := spells_small hds hne (-point).toNat
    rwa [← hzeros] at hspells
  · have hplace : (point.toNat : Int) = point := by omega
    have hspells := spells_inside hds hhead (k := point.toNat) (by omega) (by omega)
    rwa [hplace] at hspells
  · have hzeros : ((point.toNat - ds.length : Nat) : Int) = point - ds.length := by omega
    have hspells := spells_large hds hne hhead (point.toNat - ds.length)
    rwa [hzeros] at hspells

theorem spells_scientificText (hds : ∀ c ∈ ds, isPlainDigit c = true) (hne : ds ≠ [])
    (hhead : ds.head? ≠ some '0') (point : Int) :
    SpellsDecimal (Binary64.scientificText ds point) ⟨valueOfDigits ds, point - ds.length⟩ := by
  obtain ⟨c, rest, rfl⟩ := List.exists_cons_of_ne_nil hne
  refine ⟨[c], rest, some (point - 1), ⟨?_, ?_, ?_, .inr rfl⟩, ?_⟩
  · unfold Binary64.scientificText
    cases rest with
    | nil => simp [fractionText, exponentText]
    | cons d rest => simp [fractionText, exponentText]
  · exact ⟨by simpa using hds c List.mem_cons_self, List.cons_ne_nil _ _, .inr hhead⟩
  · exact fun d hd => hds d (List.mem_cons_of_mem c hd)
  · intro negative
    rw [List.singleton_append]
    congr 2
    simp only [Option.getD_some, List.length_cons]
    omega

/-- The digits of a decimal without the zeros behind spell it in both layouts. -/
theorem spells_significand {d : Decimal} (h : d.digits ≠ 0) :
    SpellsDecimal (Binary64.positionalText (Binary64.significand d).1 (Binary64.significand d).2) d ∧
      SpellsDecimal (Binary64.scientificText (Binary64.significand d).1 (Binary64.significand d).2) d := by
  obtain ⟨k, hvalue, hpoint, hds, hne, hhead⟩ := Binary64.significand_spells h
  have hsame (negative : Bool) : Binary64.ofDecimal negative ⟨valueOfDigits (Binary64.significand d).1,
      (Binary64.significand d).2 - (Binary64.significand d).1.length⟩ = Binary64.ofDecimal negative d := by
    have hexponent : (Binary64.significand d).2 - (Binary64.significand d).1.length = d.exponent + k := by
      omega
    rw [hexponent, ← Binary64.ofDecimal_mul_pow, ← hvalue]
  constructor
  · obtain ⟨whole, fraction, exponent?, htext, hread⟩ := spells_positionalText hds hne hhead _
    exact ⟨whole, fraction, exponent?, htext, fun negative => (hread negative).trans (hsame negative)⟩
  · obtain ⟨whole, fraction, exponent?, htext, hread⟩ := spells_scientificText hds hne hhead _
    exact ⟨whole, fraction, exponent?, htext, fun negative => (hread negative).trans (hsame negative)⟩

/-- A finite number is written as a sign and a text that spells it. -/
theorem exists_spells_text (negative : Bool) (units : Nat) (h : Representable units) :
    ∃ magnitude d, SpellsDecimal magnitude d ∧
      Binary64.ofDecimal negative d = .finite negative units h ∧
      (Binary64.finite negative units h).text = (if negative then ['-'] else []) ++ magnitude := by
  by_cases h0 : units = 0
  · subst h0
    refine ⟨['0', '.', '0'], ⟨0, -1⟩, ⟨['0'], ['0'], none, ⟨rfl, leading_zero, leading_zero.digits, .inl (by decide)⟩,
      fun _ => congrArg (Binary64.ofDecimal _) (by decide)⟩, ?_, rfl⟩
    exact Binary64.ofDecimal_of_digits_eq_zero negative rfl
  · have hread := Binary64.ofDecimal_shortest negative units h
    have hdigits : (Binary64.shortest negative units h).digits ≠ 0 := by
      intro hzero
      have hnothing := Binary64.ofDecimal_of_digits_eq_zero negative hzero
      rw [hread] at hnothing
      exact h0 (Binary64.finite.inj hnothing).2
    obtain ⟨hpositional, hscientific⟩ := spells_significand hdigits
    by_cases hpoint : -4 < (Binary64.significand (Binary64.shortest negative units h)).2 ∧
        (Binary64.significand (Binary64.shortest negative units h)).2 ≤ 16
    · refine ⟨_, _, hpositional, hread, ?_⟩
      simp only [Binary64.text, if_neg h0, if_pos hpoint]
    · refine ⟨_, _, hscientific, hread, ?_⟩
      simp only [Binary64.text, if_neg h0, if_neg hpoint]

/-- A binary64 number is read back to the last bit, and so are the infinities and not a number. -/
theorem readAtom_writeFloat (x : Binary64) {rest : List Letter} (h : EndsNumber rest) :
    readAtom ((writeFloat x).map .char ++ rest) = .ok (.float x, rest) := by
  cases x with
  | nan => rfl
  | infinite negative => cases negative <;> rfl
  | finite negative units hunits =>
    obtain ⟨magnitude, d, ⟨whole, fraction, exponent?, hreal, hsame⟩, hread, htext⟩ :=
      exists_spells_text negative units hunits
    have hmagnitude := readMagnitude_real negative hreal h
    rw [hsame, hread] at hmagnitude
    obtain ⟨c, more, hmore, hc⟩ := hreal.exists_cons
    have hwritten : writeFloat (.finite negative units hunits)
        = (if negative then ['-'] else []) ++ magnitude := htext
    rw [hwritten]
    rw [hmore] at hmagnitude ⊢
    cases negative with
    | true => exact (readAtom_minus_of_isPlainDigit hc _).trans hmagnitude
    | false => exact (readAtom_of_isPlainDigit hc _).trans hmagnitude

end LockScreen.Json
