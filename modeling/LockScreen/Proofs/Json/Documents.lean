import LockScreen.Proofs.Json.Numbers
import LockScreen.Proofs.Json.Strings

/-!
# Documents read back

A value that a document can hold (`Fits`) is read back from the document that is written for it, with line breaks
or without (`readValue_writeAt`, `read_indented`). The induction is on the value, with one step of the reader for
each item of a list and each field of an object; the steps that the reader has left are counted by the letters
that were written.
-/

namespace LockScreen.Json

open Text

mutual

/-- A value can be held by a document, with lists and objects nested to a depth at most: its texts can be
spelled, its integers are not too long, and no object has two fields of one name. -/
def Fits : Nat → Value → Prop
  | _, .null | _, .bool _ | _, .float _ => True
  | _, .int i => (decimalText i.natAbs).length ≤ Numeral.digitLimit
  | _, .text t => t.Spellable
  | depth, .list items => 0 < depth ∧ FitItems (depth - 1) items
  | depth, .object fields => 0 < depth ∧ (fields.map (·.1)).Nodup ∧ FitFields (depth - 1) fields
  | _, .thresholds _ | _, .phrases _ _ => False

/-- The items of a list can be held by a document. -/
def FitItems : Nat → List Value → Prop
  | _, [] => True
  | depth, item :: items => Fits depth item ∧ FitItems depth items

/-- The fields of an object can be held by a document. -/
def FitFields : Nat → List (Text × Value) → Prop
  | _, [] => True
  | depth, (name, value) :: fields => name.Spellable ∧ Fits depth value ∧ FitFields depth fields

end

/-! ## White space -/

theorem skipSpace_cons {c : Char} (h : isSpace (.char c) = false) (ls : List Letter) :
    skipSpace (.char c :: ls) = .char c :: ls := by
  simp [skipSpace, h]

/-- A line break is white space. -/
theorem skipSpace_lineBreak (indent : Option Nat) (level : Nat) (ls : List Letter) :
    skipSpace ((lineBreak indent level).map .char ++ ls) = skipSpace ls := by
  have hspaces (k : Nat) : skipSpace ((List.replicate k ' ').map .char ++ ls) = skipSpace ls := by
    induction k with
    | zero => rfl
    | succ k ih => exact ih
  cases indent with
  | none => rfl
  | some width => exact hspaces (width * level)

/-- Neither a line break nor a letter that goes on with no number goes on with one. -/
theorem endsNumber_lineBreak (indent : Option Nat) (level : Nat) {c : Char}
    (h : continuesNumber (.char c) = false) (ls : List Letter) :
    EndsNumber ((lineBreak indent level).map .char ++ .char c :: ls) := by
  cases indent with
  | none =>
    intro l hl
    cases hl
    exact h
  | some width =>
    intro l hl
    cases hl
    decide

/-! ## The first letter of a value -/

/-- A character that starts a value, but no text, no list and no object. -/
def startsAtom (c : Char) : Bool :=
  isPlainDigit c || c ∈ ['-', 'n', 't', 'f', 'N', 'I']

theorem ne_of_startsAtom {c d : Char} (h : startsAtom c = true) (hd : startsAtom d = false) : c ≠ d := by
  rintro rfl
  rw [h] at hd
  cases hd

theorem startsAtom_integerText (i : Int) :
    ∃ c cs, integerText i = c :: cs ∧ startsAtom c = true := by
  obtain ⟨c, cs, hcs, hc⟩ := exists_cons_of_leading (leading_decimalText i.natAbs)
  unfold integerText
  split
  · exact ⟨'-', _, rfl, by decide⟩
  · exact ⟨c, cs, hcs, by simp [startsAtom, hc]⟩

theorem startsAtom_writeFloat (x : Binary64) :
    ∃ c cs, writeFloat x = c :: cs ∧ startsAtom c = true := by
  cases x with
  | nan => exact ⟨'N', _, rfl, by decide⟩
  | infinite negative =>
    cases negative with
    | true => exact ⟨'-', _, rfl, by decide⟩
    | false => exact ⟨'I', _, rfl, by decide⟩
  | finite negative units h =>
    obtain ⟨magnitude, d, ⟨whole, fraction, exponent?, hreal, _⟩, _, htext⟩ :=
      exists_spells_text negative units h
    obtain ⟨c, more, hmore, hc⟩ := hreal.exists_cons
    have hwritten : writeFloat (.finite negative units h)
        = (if negative then ['-'] else []) ++ magnitude := htext
    cases negative with
    | true => exact ⟨'-', magnitude, hwritten, by decide⟩
    | false => exact ⟨c, more, hwritten.trans hmore, by simp [startsAtom, hc]⟩

/-- No value starts with white space or with the end of a list. -/
theorem exists_head_writeAt (indent : Option Nat) (level : Nat) (v : Value) :
    ∃ c cs, writeAt indent level v = c :: cs ∧ isSpace (.char c) = false ∧ c ≠ ']' := by
  have hatom {c : Char} (hc : startsAtom c = true) : isSpace (.char c) = false ∧ c ≠ ']' := by
    refine ⟨?_, ne_of_startsAtom hc (by decide)⟩
    simp [isSpace, ne_of_startsAtom hc (d := ' ') (by decide), ne_of_startsAtom hc (d := '\n') (by decide),
      ne_of_startsAtom hc (d := '\r') (by decide), ne_of_startsAtom hc (d := '\t') (by decide)]
  cases v with
  | int i =>
    obtain ⟨c, cs, hcs, hc⟩ := startsAtom_integerText i
    exact ⟨c, cs, by rw [writeAt, hcs], hatom hc⟩
  | float x =>
    obtain ⟨c, cs, hcs, hc⟩ := startsAtom_writeFloat x
    exact ⟨c, cs, by rw [writeAt, hcs], hatom hc⟩
  | null | thresholds | phrases => exact ⟨'n', _, by rw [writeAt]; rfl, by decide, by decide⟩
  | bool b =>
    cases b with
    | true => exact ⟨'t', _, by rw [writeAt]; rfl, by decide, by decide⟩
    | false => exact ⟨'f', _, by rw [writeAt]; rfl, by decide, by decide⟩
  | text t => exact ⟨'"', _, by rw [writeAt, writeString]; rfl, by decide, by decide⟩
  | list items =>
    cases items with
    | nil => exact ⟨'[', [']'], by rw [writeAt], by decide, by decide⟩
    | cons => exact ⟨'[', _, by rw [writeAt]; rfl, by decide, by decide⟩
  | object fields =>
    cases fields with
    | nil => exact ⟨'{', ['}'], by rw [writeAt], by decide, by decide⟩
    | cons => exact ⟨'{', _, by rw [writeAt]; rfl, by decide, by decide⟩

/-- The white space before a value is skipped, and no more. -/
theorem skipSpace_writeAt (indent : Option Nat) (level : Nat) (v : Value) (ls : List Letter) :
    skipSpace ((writeAt indent level v).map .char ++ ls) = (writeAt indent level v).map .char ++ ls := by
  obtain ⟨c, cs, hcs, hspace, _⟩ := exists_head_writeAt indent level v
  rw [hcs, List.map_cons, List.cons_append, skipSpace_cons hspace]

/-! ## One step of the reader -/

variable {fuel depth : Nat} {ls rest rest' rest'' : List Letter}

theorem readValue_of_startsAtom {c : Char} (h : startsAtom c = true) (ls : List Letter) :
    readValue (fuel + 1) depth (.char c :: ls) = readAtom (.char c :: ls) := by
  simp [readValue, ne_of_startsAtom h (d := '"') (by decide), ne_of_startsAtom h (d := '[') (by decide),
    ne_of_startsAtom h (d := '{') (by decide)]

theorem readValue_list {items : List Value} {c : Char} (hdepth : 0 < depth)
    (hhead : skipSpace ls = .char c :: rest) (hc : c ≠ ']')
    (hitems : readItems fuel (depth - 1) (.char c :: rest) = .ok (items, rest')) :
    readValue (fuel + 1) depth (.char '[' :: ls) = .ok (.list items, rest') := by
  simp [readValue, Nat.ne_of_gt hdepth, hhead, hc, hitems, Except.map]

theorem readValue_object {fields : List (Text × Value)} (hdepth : 0 < depth)
    (hhead : skipSpace ls = .char '"' :: rest)
    (hfields : readFields fuel (depth - 1) [] (.char '"' :: rest) = .ok (fields, rest')) :
    readValue (fuel + 1) depth (.char '{' :: ls) = .ok (.object fields, rest') := by
  simp [readValue, Nat.ne_of_gt hdepth, hhead, hfields, Except.map]

theorem readItems_last {item : Value} (hitem : readValue fuel depth ls = .ok (item, rest))
    (hclose : skipSpace rest = .char ']' :: rest') :
    readItems (fuel + 1) depth ls = .ok ([item], rest') := by
  simp [readItems, hitem, hclose, bind, Except.bind, pure, Except.pure]

theorem readItems_more {item : Value} {items : List Value}
    (hitem : readValue fuel depth ls = .ok (item, rest))
    (hcomma : skipSpace rest = .char ',' :: rest')
    (hitems : readItems fuel depth (skipSpace rest') = .ok (items, rest'')) :
    readItems (fuel + 1) depth ls = .ok (item :: items, rest'') := by
  simp [readItems, hitem, hcomma, hitems, bind, Except.bind, pure, Except.pure]

variable {name : Text} {value : Value} {fields before : List (Text × Value)}
  {afterName afterColon : List Letter}

theorem readFields_last (hname : readString ls = .ok (name, afterName))
    (hcolon : skipSpace afterName = .char ':' :: afterColon)
    (hvalue : readValue fuel depth (skipSpace afterColon) = .ok (value, rest))
    (hclose : skipSpace rest = .char '}' :: rest') :
    readFields (fuel + 1) depth before (.char '"' :: ls)
      = .ok (Value.insert name value before, rest') := by
  simp [readFields, hname, hcolon, hvalue, hclose, bind, Except.bind, pure, Except.pure]

theorem readFields_more (hname : readString ls = .ok (name, afterName))
    (hcolon : skipSpace afterName = .char ':' :: afterColon)
    (hvalue : readValue fuel depth (skipSpace afterColon) = .ok (value, rest))
    (hcomma : skipSpace rest = .char ',' :: rest')
    (hfields : readFields fuel depth (Value.insert name value before) (skipSpace rest')
      = .ok (fields, rest'')) :
    readFields (fuel + 1) depth before (.char '"' :: ls) = .ok (fields, rest'') := by
  simp [readFields, hname, hcolon, hvalue, hcomma, hfields, bind, Except.bind]

/-- A field of a new name goes to the end. -/
theorem insert_of_notMem (h : name ∉ before.map (·.1)) :
    Value.insert name value before = before ++ [(name, value)] := by
  induction before with
  | nil => rfl
  | cons field before ih =>
    simp only [List.map_cons, List.mem_cons, not_or] at h
    simp [Value.insert, Ne.symm h.1, ih h.2]

theorem notMem_of_nodup (h : ((before ++ (name, value) :: fields).map (·.1)).Nodup) :
    name ∉ before.map (·.1) := by
  rw [List.map_append, List.nodup_append] at h
  intro hmem
  exact h.2.2 name hmem name (by simp) rfl

/-! ## Values -/

/-- What is written for a field. -/
def writeField (indent : Option Nat) (level : Nat) (name : Text) (value : Value) : List Char :=
  writeString name ++ colon indent ++ writeAt indent level value

theorem readAtom_value {w : List Char} {v : Value} (hhead : ∃ c cs, w = c :: cs ∧ startsAtom c = true)
    (hfuel : w.length < fuel) (hread : readAtom (w.map .char ++ rest) = .ok (v, rest)) :
    readValue fuel depth (w.map .char ++ rest) = .ok (v, rest) := by
  obtain ⟨c, cs, rfl, hc⟩ := hhead
  obtain ⟨fuel, rfl⟩ := Nat.exists_eq_add_one_of_ne_zero (Nat.ne_of_gt (Nat.zero_lt_of_lt hfuel))
  exact (readValue_of_startsAtom hc _).trans hread

/-- What follows an item or a field: a comma, or the line break at the end. -/
structure Closes (bracket : Char) (ls rest : List Letter) : Prop where
  skipSpace : skipSpace ls = .char bracket :: rest
  endsNumber : EndsNumber ls

theorem closes_lineBreak (indent : Option Nat) (level : Nat) (bracket : Char)
    (hspace : isSpace (.char bracket) = false) (hnumber : continuesNumber (.char bracket) = false)
    (rest : List Letter) :
    Closes bracket ((lineBreak indent level).map .char ++ .char bracket :: rest) rest := by
  refine ⟨?_, endsNumber_lineBreak indent level hnumber rest⟩
  rw [skipSpace_lineBreak, skipSpace_cons hspace]

theorem endsNumber_comma (ls : List Letter) : EndsNumber (.char ',' :: ls) := by
  intro l hl
  cases hl
  decide

theorem readString_name {name : Text} (h : name.Spellable) (indent : Option Nat) (ls : List Letter) :
    ∃ afterName, readString ((name.letters.flatMap escapeLetter).map .char
        ++ .char '"' :: ((colon indent).map .char ++ ls)) = .ok (name, afterName) ∧
      ∃ afterColon, skipSpace afterName = .char ':' :: afterColon ∧ skipSpace afterColon = skipSpace ls := by
  refine ⟨_, readString_writeString h _, ?_⟩
  cases indent with
  | none => exact ⟨ls, rfl, rfl⟩
  | some width => exact ⟨.char ' ' :: ls, rfl, rfl⟩

mutual

/-- A value is read back from what is written for it. -/
theorem readValue_writeAt (indent : Option Nat) : ∀ (v : Value) (level fuel : Nat) {depth : Nat}
    {rest : List Letter}, Fits depth v → (writeAt indent level v).length < fuel → EndsNumber rest →
    readValue fuel depth ((writeAt indent level v).map .char ++ rest) = .ok (v, rest)
  | .null, _, _, _, _, _, hfuel, _ => by
    rw [writeAt] at hfuel ⊢
    exact readAtom_value ⟨'n', _, rfl, by decide⟩ hfuel rfl
  | .bool true, _, _, _, _, _, hfuel, _ => by
    rw [writeAt, if_pos rfl] at hfuel ⊢
    exact readAtom_value ⟨'t', _, rfl, by decide⟩ hfuel rfl
  | .bool false, _, _, _, _, _, hfuel, _ => by
    rw [writeAt, if_neg Bool.false_ne_true] at hfuel ⊢
    exact readAtom_value ⟨'f', _, rfl, by decide⟩ hfuel rfl
  | .int i, _, _, _, _, hfits, hfuel, hends => by
    rw [Fits] at hfits
    rw [writeAt] at hfuel ⊢
    exact readAtom_value (startsAtom_integerText i) hfuel (readAtom_integerText hfits hends)
  | .float x, _, _, _, _, _, hfuel, hends => by
    rw [writeAt] at hfuel ⊢
    exact readAtom_value (startsAtom_writeFloat x) hfuel (readAtom_writeFloat x hends)
  | .text t, _, 0, _, _, _, hfuel, _ => absurd hfuel (Nat.not_lt_zero _)
  | .text t, _, fuel + 1, _, rest, hfits, _, _ => by
    rw [Fits] at hfits
    have hread := readString_writeString hfits rest
    rw [writeAt]
    simp only [writeString, List.cons_append, List.map_cons, List.map_append, List.map_nil,
      List.append_assoc, List.nil_append, readValue, hread]
    rfl
  | .list _, _, 0, _, _, _, hfuel, _ => absurd hfuel (Nat.not_lt_zero _)
  | .list [], _, fuel + 1, depth, rest, hfits, _, _ => by
    rw [Fits] at hfits
    simp [writeAt, readValue, Nat.ne_of_gt hfits.1, skipSpace, isSpace]
  | .list (item :: items), level, fuel + 1, depth, rest, hfits, hfuel, _ => by
    rw [Fits, FitItems] at hfits
    obtain ⟨hdepth, hitem, hitems⟩ := hfits
    rw [writeAt] at hfuel ⊢
    simp only [List.length_cons, List.length_append, List.length_nil] at hfuel
    -- the brackets pay for the step that the reader takes for the list itself
    have hread := readItems_writeItems indent item items (level + 1) fuel hitem hitems
      (by omega) (closes_lineBreak indent level ']' (by decide) (by decide) rest)
    obtain ⟨c, cs, hcs, hspace, hc⟩ := exists_head_writeAt indent (level + 1) item
    rw [hcs, List.map_cons, List.cons_append] at hread
    simp only [hcs, List.cons_append, List.map_cons, List.map_append, List.map_nil, List.append_assoc,
      List.nil_append]
    refine readValue_list hdepth ?_ hc hread
    rw [skipSpace_lineBreak, skipSpace_cons hspace]
  | .object _, _, 0, _, _, _, hfuel, _ => absurd hfuel (Nat.not_lt_zero _)
  | .object [], _, fuel + 1, depth, rest, hfits, _, _ => by
    rw [Fits] at hfits
    simp [writeAt, readValue, Nat.ne_of_gt hfits.1, skipSpace, isSpace]
  | .object ((name, value) :: fields), level, fuel + 1, depth, rest, hfits, hfuel, _ => by
    rw [Fits, FitFields] at hfits
    obtain ⟨hdepth, hnodup, hname, hvalue, hfields⟩ := hfits
    rw [writeAt] at hfuel ⊢
    simp only [List.length_cons, List.length_append, List.length_nil] at hfuel
    have hread := readFields_writeFields indent name value fields [] (level + 1) fuel hnodup
      hname hvalue hfields (by simp only [writeField, List.length_append]; omega)
      (closes_lineBreak indent level '}' (by decide) (by decide) rest)
    simp only [writeField, writeString, List.cons_append, List.map_cons, List.map_append, List.map_nil,
      List.append_assoc, List.nil_append] at hread ⊢
    refine readValue_object hdepth ?_ hread
    rw [skipSpace_lineBreak, skipSpace_cons (by decide)]
  | .thresholds _, _, _, _, _, hfits, _, _ => by
    rw [Fits] at hfits
    exact hfits.elim
  | .phrases _ _, _, _, _, _, hfits, _, _ => by
    rw [Fits] at hfits
    exact hfits.elim
termination_by v => sizeOf v

/-- The items of a list are read back, up to what closes the list. -/
theorem readItems_writeItems (indent : Option Nat) : ∀ (item : Value) (items : List Value)
    (level fuel : Nat) {depth : Nat} {close rest : List Letter}, Fits depth item → FitItems depth items →
    (writeAt indent level item).length + (writeItems indent level items).length + 1 < fuel →
    Closes ']' close rest →
    readItems fuel depth ((writeAt indent level item).map .char
      ++ ((writeItems indent level items).map .char ++ close)) = .ok (item :: items, rest)
  | _, _, _, 0, _, _, _, _, _, hfuel, _ => absurd hfuel (Nat.not_lt_zero _)
  | item, [], level, fuel + 1, _, _, _, hitem, _, hfuel, hclose => by
    rw [writeItems] at hfuel ⊢
    exact readItems_last (readValue_writeAt indent item level fuel hitem (by omega) hclose.endsNumber)
      hclose.skipSpace
  | item, next :: items, level, fuel + 1, _, _, _, hitem, hitems, hfuel, hclose => by
    rw [FitItems] at hitems
    rw [writeItems] at hfuel ⊢
    simp only [List.length_cons, List.length_append] at hfuel
    have hnext := readItems_writeItems indent next items level fuel hitems.1 hitems.2 (by omega) hclose
    simp only [List.cons_append, List.map_cons, List.map_append, List.append_assoc]
    refine readItems_more (readValue_writeAt indent item level fuel hitem (by omega) (endsNumber_comma _))
      (skipSpace_cons (by decide) _) ?_
    rwa [skipSpace_lineBreak, skipSpace_writeAt]
termination_by item items => sizeOf item + sizeOf items

/-- The fields of an object are read back behind others, up to what closes the object. -/
theorem readFields_writeFields (indent : Option Nat) : ∀ (name : Text) (value : Value)
    (fields before : List (Text × Value)) (level fuel : Nat) {depth : Nat} {close rest : List Letter},
    ((before ++ (name, value) :: fields).map (·.1)).Nodup →
    name.Spellable → Fits depth value → FitFields depth fields →
    (writeField indent level name value).length + (writeFields indent level fields).length + 1 < fuel →
    Closes '}' close rest →
    readFields fuel depth before ((writeField indent level name value).map .char
      ++ ((writeFields indent level fields).map .char ++ close))
        = .ok (before ++ (name, value) :: fields, rest)
  | _, _, _, _, _, 0, _, _, _, _, _, _, _, hfuel, _ => absurd hfuel (Nat.not_lt_zero _)
  | name, value, [], before, level, fuel + 1, _, close, _, hnodup, hname, hvalue, _, hfuel, hclose => by
    have hnew := notMem_of_nodup hnodup
    simp only [writeField, writeFields, List.length_append] at hfuel
    obtain ⟨afterName, hread, afterColon, hcolon, hspace⟩ :=
      readString_name hname indent ((writeAt indent level value).map .char ++ close)
    simp only [writeField, writeString, writeFields, List.cons_append, List.map_cons, List.map_append,
      List.map_nil, List.append_assoc, List.nil_append]
    rw [← insert_of_notMem hnew]
    refine readFields_last hread hcolon ?_ hclose.skipSpace
    rw [hspace, skipSpace_writeAt]
    exact readValue_writeAt indent value level fuel hvalue (by omega) hclose.endsNumber
  | name, value, (other, next) :: fields, before, level, fuel + 1, _, close, _, hnodup, hname, hvalue,
    hfields, hfuel, hclose => by
    have hnew := notMem_of_nodup hnodup
    rw [FitFields] at hfields
    simp only [writeFields, List.length_cons, List.length_append] at hfuel
    have hvaluefuel : (writeAt indent level value).length < fuel := by
      simp only [writeField, List.length_append] at hfuel
      omega
    -- the fields behind are read with this one among those before
    have hnext := readFields_writeFields indent other next fields (before ++ [(name, value)]) level fuel
      (by simpa using hnodup) hfields.1 hfields.2.1 hfields.2.2
      (by simp only [writeField, List.length_append] at hfuel ⊢; omega) hclose
    generalize hmore : (writeField indent level other next).map Letter.char
      ++ ((writeFields indent level fields).map .char ++ close) = more at hnext
    have hskip : skipSpace ((lineBreak indent level).map .char ++ more) = more := by
      rw [skipSpace_lineBreak, ← hmore]
      exact skipSpace_cons (by decide) _
    have hreadValue := readValue_writeAt indent value level fuel hvalue hvaluefuel
      (endsNumber_comma ((lineBreak indent level).map .char ++ more))
    obtain ⟨afterName, hread, afterColon, hcolon, hspace⟩ := readString_name hname indent
      ((writeAt indent level value).map .char ++ .char ',' :: ((lineBreak indent level).map .char ++ more))
    rw [← skipSpace_writeAt, ← hspace] at hreadValue
    -- its name is new, so it went to the end, where the fields behind were read
    rw [← insert_of_notMem hnew, ← hskip] at hnext
    have hstep := readFields_more hread hcolon hreadValue (skipSpace_cons (by decide) _) hnext
    rw [insert_of_notMem hnew, List.append_assoc, List.singleton_append, ← hmore] at hstep
    simpa only [writeField, writeString, writeFields, List.cons_append, List.map_cons, List.map_append,
      List.map_nil, List.append_assoc, List.nil_append] using hstep
termination_by _ value fields => sizeOf value + sizeOf fields

end

/-! ## Documents -/

/-- A value is read back from a document of it, with line breaks or without. -/
theorem read_writeAt (indent : Option Nat) {depth : Nat} {v : Value} (h : Fits depth v) :
    read (String.ofList (writeAt indent 0 v)) depth = .ok v := by
  have hletters : Text.letters (String.ofList (writeAt indent 0 v)) = (writeAt indent 0 v).map .char ++ [] := by
    rw [ofString, ofChars, String.toList_ofList, List.append_nil]
  have hends : EndsNumber [] := by simp [EndsNumber]
  have hread := readValue_writeAt indent v 0 (2 * ((writeAt indent 0 v).map Letter.char ++ []).length + 2)
    h (by simp; omega) hends
  unfold read
  dsimp only
  rw [hletters, skipSpace_writeAt, hread]
  rfl

theorem read_indented {depth : Nat} {v : Value} (h : Fits depth v) : read (indented v) depth = .ok v :=
  read_writeAt (some 2) h

theorem read_compact {depth : Nat} {v : Value} (h : Fits depth v) : read (compact v) depth = .ok v :=
  read_writeAt none h

end LockScreen.Json
