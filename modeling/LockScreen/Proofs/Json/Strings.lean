import LockScreen.Json.Reader
import LockScreen.Json.Writer
import Mathlib.Data.List.Chain

/-!
# Strings read back

A text is written with escapes and read from them. What is written for a letter is read as one piece or two
(`piecesOf`), and the pieces of a text make up the text again, unless two of its halves happen to stand next to
each other as a pair would: escapes cannot tell these from a character. Texts without such halves are
`Spellable`. They are read back (`readString_writeString`), and a document of characters spells no others
(`spellable_readString`).
-/

namespace LockScreen

namespace Letter

/-- A half that begins a pair. -/
def isLead : Letter → Bool
  | char _ => false
  | half offset => offset.val < 0x400

/-- A half that ends a pair. -/
def isTrail : Letter → Bool
  | char _ => false
  | half offset => 0x400 ≤ offset.val

/-- A character has no code point in the range of the halves. -/
theorem not_half_range (c : Char) :
    ¬(lowestHalf ≤ c.toNat ∧ c.toNat < lowestHalf + 0x800) := by
  unfold lowestHalf
  have hvalid := c.valid
  simp only [UInt32.isValidChar, Nat.isValidChar] at hvalid
  unfold Char.toNat
  omega

@[simp]
theorem ofPoint_toNat (c : Char) : ofPoint c.toNat = char c := by
  rw [ofPoint, dif_neg (not_half_range c), Char.ofNat_toNat]

theorem isLead_ofPoint (n : Nat) : (ofPoint n).isLead = Text.isLeadUnit n := by
  unfold ofPoint Text.isLeadUnit lowestHalf
  split
  · simp only [isLead]
    rw [Bool.eq_iff_iff]
    simp only [decide_eq_true_eq, Bool.and_eq_true]
    omega
  · simp only [isLead]
    rw [Bool.eq_iff_iff]
    simp only [Bool.false_eq_true, decide_eq_true_eq, Bool.and_eq_true, false_iff]
    omega

theorem isTrail_ofPoint (n : Nat) : (ofPoint n).isTrail = Text.isTrailUnit n := by
  unfold ofPoint Text.isTrailUnit lowestHalf
  split
  · simp only [isTrail]
    rw [Bool.eq_iff_iff]
    simp only [decide_eq_true_eq, Bool.and_eq_true]
    omega
  · simp only [isTrail]
    rw [Bool.eq_iff_iff]
    simp only [Bool.false_eq_true, decide_eq_true_eq, Bool.and_eq_true, false_iff]
    omega

/-- Two letters next to each other are not the halves of a pair. -/
def Apart (l m : Letter) : Prop :=
  ¬(l.isLead = true ∧ m.isTrail = true)

end Letter

/-- No two letters of a text stand next to each other as the halves of a pair. -/
def Text.Spellable (t : Text) : Prop :=
  t.letters.IsChain Letter.Apart

namespace Json

open Text

/-! ## Escapes -/

theorem hexDigit?_lowerHexDigit {n : Nat} (h : n < 16) : hexDigit? (lowerHexDigit n) = some n := by
  have hall : ∀ k : Fin 16, hexDigit? (lowerHexDigit k) = some k.val := by decide
  exact hall ⟨n, h⟩

/-- The escape of a unit is read as that unit. -/
theorem readPieces_escapeUnit {n : Nat} (h : n < 0x10000) (rest : List Letter) :
    readPieces ((escapeUnit n).map .char ++ rest) = consPiece (.unit n) (readPieces rest) := by
  have hunit : unitOf? (.char (lowerHexDigit (n / 16 / 16 / 16 % 16)))
      (.char (lowerHexDigit (n / 16 / 16 % 16))) (.char (lowerHexDigit (n / 16 % 16)))
      (.char (lowerHexDigit (n % 16))) = some n := by
    simp only [unitOf?, Letter.char?, Option.bind_some, hexDigit?_lowerHexDigit (Nat.mod_lt _ (by decide))]
    simp only [bind, Option.bind_some, pure, Option.some.injEq]
    omega
  simp only [escapeUnit, fixedHex, List.nil_append, List.cons_append, List.map_cons, List.map_nil,
    readPieces, hunit, Option.bind_some]

/-- A character that is written as it is. -/
def standsForItself (c : Char) : Bool :=
  0x20 ≤ c.toNat && c.toNat < 0x7F

/-- The characters that have a short escape. -/
def shortEscapes : List Char :=
  ['"', '\\', '\n', '\r', '\t', '\x0c', '\x08']

/-- What is read for a letter that was written. -/
def piecesOf : Letter → List Piece
  | .char c =>
    if c ∈ shortEscapes ∨ standsForItself c = true then [.letter (.char c)]
    else (unitsOf c.toNat).map .unit
  | .half offset => [.unit (Letter.half offset).point]

theorem unitsOf_lt {point : Nat} (h : point < 0x110000) : ∀ n ∈ unitsOf point, n < 0x10000 := by
  unfold unitsOf
  split
  · simpa using ‹point < 0x10000›
  · simp only [List.mem_cons, List.not_mem_nil, or_false, forall_eq_or_imp, forall_eq]
    omega

theorem toNat_lt (c : Char) : c.toNat < 0x110000 := by
  have hvalid := c.valid
  simp only [UInt32.isValidChar, Nat.isValidChar] at hvalid
  unfold Char.toNat
  omega

/-- Units are read one after the other. -/
theorem readPieces_escapeUnits {units : List Nat} (h : ∀ n ∈ units, n < 0x10000) (rest : List Letter) :
    readPieces ((units.flatMap escapeUnit).map .char ++ rest)
      = (units.map Piece.unit).foldr consPiece (readPieces rest) := by
  induction units with
  | nil => rfl
  | cons n units ih =>
    have hn : n < 0x10000 := h n List.mem_cons_self
    rw [List.flatMap_cons, List.map_append, List.append_assoc, readPieces_escapeUnit hn,
      ih fun m hm => h m (List.mem_cons_of_mem n hm)]
    rfl

/-- What is written for a letter is read as its pieces. -/
theorem readPieces_escapeLetter (l : Letter) (rest : List Letter) :
    readPieces ((escapeLetter l).map .char ++ rest) = (piecesOf l).foldr consPiece (readPieces rest) := by
  cases l with
  | half offset =>
    have hpoint : (Letter.half offset).point < 0x10000 := by
      simp only [Letter.point, Letter.lowestHalf]
      omega
    exact readPieces_escapeUnit hpoint rest
  | char c =>
    by_cases hshort : c ∈ shortEscapes
    · rw [piecesOf, if_pos (.inl hshort)]
      simp only [shortEscapes, List.mem_cons, List.not_mem_nil, or_false] at hshort
      rcases hshort with rfl | rfl | rfl | rfl | rfl | rfl | rfl <;> rfl
    · have hescape : escapeLetter (.char c)
          = if standsForItself c then [c] else (unitsOf c.toNat).flatMap escapeUnit := by
        simp only [shortEscapes, List.mem_cons, List.not_mem_nil, or_false, not_or] at hshort
        obtain ⟨hquote, hbackslash, hfeed, hreturn, htab, hform, hback⟩ := hshort
        simp only [escapeLetter, escapeChar, if_neg hquote, if_neg hbackslash, if_neg hfeed,
          if_neg hreturn, if_neg htab, if_neg hform, if_neg hback, standsForItself]
        rfl
      rw [hescape, piecesOf]
      split
      · -- neither what closes the string, nor what starts an escape, nor a control character
        rename_i hplain
        rw [if_pos (.inr hplain)]
        have hquote : c ≠ '"' := fun h => hshort (h ▸ by decide)
        have hbackslash : c ≠ '\\' := fun h => hshort (h ▸ by decide)
        have hpoint : ¬(Letter.char c).point < 0x20 := by
          simp only [standsForItself, Bool.and_eq_true, decide_eq_true_eq] at hplain
          simp only [Letter.point]
          omega
        simp [readPieces, hquote, hbackslash, hpoint]
      · rename_i hplain
        rw [if_neg (not_or.mpr ⟨hshort, hplain⟩)]
        exact readPieces_escapeUnits (unitsOf_lt (toNat_lt c)) rest

/-! ## Letters of pieces -/

/-- The next piece is a unit that ends a pair. -/
def startsTrail : List Piece → Bool
  | .unit n :: _ => isTrailUnit n
  | _ => false

/-- A unit that makes no pair with the next one is a letter of its own. -/
theorem lettersOf_unit {n : Nat} {pieces : List Piece}
    (h : ¬(isLeadUnit n = true ∧ startsTrail pieces = true)) :
    lettersOf (.unit n :: pieces) = .ofPoint n :: lettersOf pieces := by
  rcases pieces with _ | ⟨l | trail, rest⟩
  · rfl
  · rfl
  · have hpair : (isLeadUnit n && isTrailUnit trail) = false := by
      simpa [startsTrail] using h
    rw [lettersOf, hpair]
    rfl

theorem lettersOf_pair {lead trail : Nat} (hlead : isLeadUnit lead = true)
    (htrail : isTrailUnit trail = true) (pieces : List Piece) :
    lettersOf (.unit lead :: .unit trail :: pieces)
      = .ofPoint (pointOfPair lead trail) :: lettersOf pieces := by
  rw [lettersOf, hlead, htrail]
  rfl

/-- The units of a character make it up again, whatever follows. -/
theorem lettersOf_units (c : Char) (pieces : List Piece) :
    lettersOf ((unitsOf c.toNat).map .unit ++ pieces) = .char c :: lettersOf pieces := by
  have hrange := Letter.not_half_range c
  have hmax := toNat_lt c
  unfold unitsOf
  split
  · have hlead : isLeadUnit c.toNat = false := by
      simp only [Letter.lowestHalf] at hrange
      simp only [isLeadUnit, Bool.and_eq_false_iff, decide_eq_false_iff_not]
      omega
    rw [List.map_singleton, List.singleton_append, lettersOf_unit (by simp [hlead]), Letter.ofPoint_toNat]
  · rename_i hunit
    have hlead : isLeadUnit (0xD800 + (c.toNat - 0x10000) / 0x400) = true := by
      simp only [isLeadUnit, Bool.and_eq_true, decide_eq_true_eq]
      omega
    have htrail : isTrailUnit (0xDC00 + (c.toNat - 0x10000) % 0x400) = true := by
      simp only [isTrailUnit, Bool.and_eq_true, decide_eq_true_eq]
      omega
    have hpoint : pointOfPair (0xD800 + (c.toNat - 0x10000) / 0x400)
        (0xDC00 + (c.toNat - 0x10000) % 0x400) = c.toNat := by
      rw [pointOfPair_halves, Nat.div_add_mod']
      omega
    simp only [List.map_cons, List.map_nil, List.cons_append, List.nil_append]
    rw [lettersOf_pair hlead htrail, hpoint, Letter.ofPoint_toNat]

/-- The pieces of a letter make it up again, unless it begins a pair that the next piece ends. -/
theorem lettersOf_piecesOf {l : Letter} {pieces : List Piece}
    (h : ¬(l.isLead = true ∧ startsTrail pieces = true)) :
    lettersOf (piecesOf l ++ pieces) = l :: lettersOf pieces := by
  cases l with
  | char c =>
    rw [piecesOf]
    split
    · rfl
    · exact lettersOf_units c pieces
  | half offset =>
    have hself := Letter.ofPoint_point_half offset
    have hlead : isLeadUnit (Letter.half offset).point = (Letter.half offset).isLead := by
      rw [← Letter.isLead_ofPoint, hself]
    rw [piecesOf, List.singleton_append, lettersOf_unit (by rwa [hlead]), hself]

/-- The pieces of a letter start with a unit that ends a pair only if the letter does. -/
theorem startsTrail_piecesOf (l : Letter) (pieces : List Piece) :
    startsTrail (piecesOf l ++ pieces) = l.isTrail := by
  cases l with
  | half offset =>
    rw [piecesOf, List.singleton_append, startsTrail, ← Letter.isTrail_ofPoint,
      Letter.ofPoint_point_half]
  | char c =>
    have hrange := Letter.not_half_range c
    have hmax := toNat_lt c
    simp only [Letter.lowestHalf] at hrange
    rw [piecesOf, unitsOf]
    split
    · rfl
    · split
      · simp only [List.map_cons, List.cons_append, startsTrail, isTrailUnit, Letter.isTrail,
          Bool.and_eq_false_iff, decide_eq_false_iff_not]
        omega
      · simp only [List.map_cons, List.cons_append, startsTrail, isTrailUnit, Letter.isTrail,
          Bool.and_eq_false_iff, decide_eq_false_iff_not]
        omega

/-- The pieces of a text make it up again. -/
theorem lettersOf_flatMap_piecesOf {ls : List Letter} (h : ls.IsChain Letter.Apart) :
    lettersOf (ls.flatMap piecesOf) = ls := by
  induction ls with
  | nil => rfl
  | cons l ls ih =>
    obtain ⟨hapart, hrest⟩ := List.isChain_cons.mp h
    have hnext : ¬(l.isLead = true ∧ startsTrail (ls.flatMap piecesOf) = true) := by
      cases ls with
      | nil => exact fun hpair => absurd hpair.2 Bool.false_ne_true
      | cons m ls =>
        -- only the first piece of the next letter counts
        rw [List.flatMap_cons, startsTrail_piecesOf]
        exact hapart m rfl
    rw [List.flatMap_cons, lettersOf_piecesOf hnext, ih hrest]

/-- What is written for letters is read as their pieces, up to the closing quote. -/
theorem readPieces_escapeLetters (ls : List Letter) (rest : List Letter) :
    readPieces ((ls.flatMap escapeLetter).map .char ++ .char '"' :: rest)
      = some (ls.flatMap piecesOf, rest) := by
  induction ls with
  | nil => rfl
  | cons l ls ih =>
    have hcons (pieces more : List Piece) : pieces.foldr consPiece (some (more, rest))
        = some (pieces ++ more, rest) := by
      induction pieces with
      | nil => rfl
      | cons piece pieces ih =>
        rw [List.foldr_cons, ih]
        rfl
    rw [List.flatMap_cons, List.map_append, List.append_assoc, readPieces_escapeLetter, ih, hcons]
    rfl

/-- A text is read back from the string that is written for it. -/
theorem readString_writeString {t : Text} (h : t.Spellable) (rest : List Letter) :
    readString ((t.letters.flatMap escapeLetter).map .char ++ .char '"' :: rest) = .ok (t, rest) := by
  unfold readString
  rw [readPieces_escapeLetters]
  simp only [lettersOf_flatMap_piecesOf h]

/-! ## Texts that are read -/

/-- A piece is a unit, or a letter that is a character. -/
def Piece.isPlain : Piece → Bool
  | .letter l => !l.isHalf
  | .unit _ => true

/-- A pair is a character, so it neither begins nor ends another one. -/
theorem le_pointOfPair (lead trail : Nat) : 0x10000 ≤ pointOfPair lead trail := by
  unfold pointOfPair
  omega

theorem isTrail_ofPoint_of_le {n : Nat} (h : 0x10000 ≤ n) : (Letter.ofPoint n).isTrail = false := by
  simp only [Letter.isTrail_ofPoint, isTrailUnit, Bool.and_eq_false_iff, decide_eq_false_iff_not]
  omega

theorem isLead_ofPoint_of_le {n : Nat} (h : 0x10000 ≤ n) : (Letter.ofPoint n).isLead = false := by
  simp only [Letter.isLead_ofPoint, isLeadUnit, Bool.and_eq_false_iff, decide_eq_false_iff_not]
  omega

/-- The first letter of pieces ends a pair only if the first piece does. -/
theorem startsTrail_of_isTrail {pieces : List Piece} (hplain : ∀ p ∈ pieces, p.isPlain = true) {l : Letter}
    (hl : l ∈ (lettersOf pieces).head?) (htrail : l.isTrail = true) : startsTrail pieces = true := by
  rcases pieces with _ | ⟨m | n, rest⟩
  · cases hl
  · obtain rfl : m = l := Option.some.inj hl
    have hm := hplain _ List.mem_cons_self
    cases m with
    | char c => cases htrail
    | half offset => cases hm
  · by_cases hpair : isLeadUnit n = true ∧ startsTrail rest = true
    · rcases rest with _ | ⟨m | trail, rest⟩
      · exact absurd hpair.2 Bool.false_ne_true
      · exact absurd hpair.2 Bool.false_ne_true
      · rw [lettersOf_pair hpair.1 hpair.2] at hl
        obtain rfl := Option.some.inj hl
        rw [isTrail_ofPoint_of_le (le_pointOfPair n trail)] at htrail
        cases htrail
    · rw [lettersOf_unit hpair] at hl
      obtain rfl := Option.some.inj hl
      rwa [Letter.isTrail_ofPoint] at htrail

/-- The letters of pieces that are units and characters never stand next to each other as a pair would. -/
theorem isChain_lettersOf {pieces : List Piece} (hplain : ∀ p ∈ pieces, p.isPlain = true) :
    (lettersOf pieces).IsChain Letter.Apart := by
  have hunit {n : Nat} {rest : List Piece} (hpair : ¬(isLeadUnit n = true ∧ startsTrail rest = true))
      (hrest : ∀ p ∈ rest, p.isPlain = true) (ih : (lettersOf rest).IsChain Letter.Apart) :
      (Letter.ofPoint n :: lettersOf rest).IsChain Letter.Apart := by
    refine List.isChain_cons.mpr ⟨?_, ih⟩
    -- a half that ends a pair would have been read together with this unit
    rintro m hm ⟨hlead, htrail⟩
    rw [Letter.isLead_ofPoint] at hlead
    exact hpair ⟨hlead, startsTrail_of_isTrail hrest hm htrail⟩
  fun_induction lettersOf pieces with
  | case1 lead trail rest hpair ih =>
    refine List.isChain_cons.mpr ⟨?_, ih fun p hp => hplain p (by simp [hp])⟩
    rintro m _ ⟨hlead, _⟩
    rw [isLead_ofPoint_of_le (le_pointOfPair lead trail)] at hlead
    cases hlead
  | case2 lead trail rest hpair ih =>
    have hrest : ∀ p ∈ Piece.unit trail :: rest, p.isPlain = true := fun p hp =>
      hplain p (List.mem_cons_of_mem _ hp)
    refine hunit ?_ hrest (ih hrest)
    simpa [startsTrail] using hpair
  | case3 n rest hnext ih =>
    have hrest : ∀ p ∈ rest, p.isPlain = true := fun p hp => hplain p (List.mem_cons_of_mem _ hp)
    refine hunit ?_ hrest (ih hrest)
    rcases rest with _ | ⟨m | trail, rest⟩
    · simp [startsTrail]
    · simp [startsTrail]
    · exact absurd rfl (hnext trail rest)
  | case4 l rest ih =>
    refine List.isChain_cons.mpr ⟨?_, ih fun p hp => hplain p (List.mem_cons_of_mem _ hp)⟩
    rintro m _ ⟨hlead, _⟩
    have hl := hplain _ List.mem_cons_self
    cases l with
    | char c => cases hlead
    | half offset => cases hl
  | case5 => exact .nil

theorem consPiece_eq_some {piece : Piece} {read : Option (List Piece × List Letter)}
    {pieces : List Piece} {rest : List Letter} (h : consPiece piece read = some (pieces, rest)) :
    ∃ more, read = some (more, rest) ∧ pieces = piece :: more := by
  rcases read with _ | ⟨more, rest'⟩
  · cases h
  · cases h
    exact ⟨more, rfl, rfl⟩

/-- Characters are read as characters and units, and what follows the closing quote is a part of them. -/
theorem readPieces_plain {ls rest : List Letter} {pieces : List Piece}
    (h : readPieces ls = some (pieces, rest)) (hplain : ∀ l ∈ ls, l.isHalf = false) :
    (∀ p ∈ pieces, p.isPlain = true) ∧ rest <:+ ls := by
  fun_induction readPieces ls generalizing pieces with
  | case1 rest' =>
    cases h
    exact ⟨by simp, List.suffix_cons _ _⟩
  | case2 a b c d rest' ih =>
    obtain ⟨unit, _, hcons⟩ := Option.bind_eq_some_iff.mp h
    obtain ⟨more, hmore, rfl⟩ := consPiece_eq_some hcons
    obtain ⟨hpieces, hsuffix⟩ := ih hmore fun l hl => hplain l (by simp [hl])
    refine ⟨?_, hsuffix.trans ⟨['\\', 'u'].map .char ++ [a, b, c, d], rfl⟩⟩
    simpa [Piece.isPlain] using hpieces
  | case3 l rest' _ ih =>
    obtain ⟨c, _, hcons⟩ := Option.bind_eq_some_iff.mp h
    obtain ⟨more, hmore, rfl⟩ := consPiece_eq_some hcons
    obtain ⟨hpieces, hsuffix⟩ := ih hmore fun l hl => hplain l (by simp [hl])
    refine ⟨?_, hsuffix.trans ⟨[.char '\\', l], rfl⟩⟩
    simpa [Piece.isPlain, Letter.isHalf] using hpieces
  | case4 l rest' _ _ _ hpoint =>
    cases h
  | case5 l rest' _ _ _ hpoint ih =>
    obtain ⟨more, hmore, rfl⟩ := consPiece_eq_some h
    obtain ⟨hpieces, hsuffix⟩ := ih hmore fun m hm => hplain m (List.mem_cons_of_mem l hm)
    refine ⟨?_, hsuffix.trans (List.suffix_cons l rest')⟩
    simpa [Piece.isPlain, hplain l List.mem_cons_self] using hpieces
  | case6 => cases h

/-- A document of characters spells texts in which halves of pairs stand apart. -/
theorem spellable_readString {ls rest : List Letter} {t : Text} (h : readString ls = .ok (t, rest))
    (hplain : ∀ l ∈ ls, l.isHalf = false) : t.Spellable ∧ rest <:+ ls := by
  unfold readString at h
  split at h
  · rename_i pieces rest' hpieces
    cases h
    obtain ⟨hall, hsuffix⟩ := readPieces_plain hpieces hplain
    exact ⟨isChain_lettersOf hall, hsuffix⟩
  · cases h

end Json

theorem Text.ofString_inj {s t : String} : Text.ofString s = Text.ofString t ↔ s = t := by
  refine ⟨?_, congrArg Text.ofString⟩
  intro h
  have hstring := congrArg Text.string? h
  rw [Text.string?_ofString, Text.string?_ofString] at hstring
  exact Option.some.inj hstring

/-- The text of a string is spellable. -/
theorem Text.spellable_ofString (s : String) : (Text.ofString s).Spellable := by
  have hchars (cs : List Char) : (cs.map Letter.char).IsChain Letter.Apart := by
    induction cs with
    | nil => exact .nil
    | cons c cs ih => exact List.isChain_cons.mpr ⟨fun _ _ hpair => Bool.false_ne_true hpair.1, ih⟩
  exact hchars s.toList

end LockScreen
