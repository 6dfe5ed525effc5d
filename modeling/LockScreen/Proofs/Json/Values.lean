import LockScreen.Proofs.Json.Strings

/-!
# Values that documents spell

A value is one of a document (`Value.IsJson`) if nothing in it is built already and all its texts can be spelled.
Whatever is read from a document of characters is such a value (`isJson_read`): each part of the reader takes a
value from the front of the input, and what it leaves is an end of the input, so it holds characters again.
-/

namespace LockScreen

/-! ## Results -/

/-- A first part whose result is used gave one. -/
theorem exists_ok_of_bind {ε α β : Type} {x : Except ε α} {f : α → Except ε β} {b : β}
    (h : x >>= f = .ok b) : ∃ a, x = .ok a ∧ f a = .ok b := by
  cases x with
  | error e => cases h
  | ok a => exact ⟨a, rfl, h⟩

/-- What fails is the first part, or the second on the result of the first. -/
theorem error_of_bind {ε α β : Type} {x : Except ε α} {f : α → Except ε β} {e : ε}
    (h : x >>= f = .error e) : x = .error e ∨ ∃ a, x = .ok a ∧ f a = .error e := by
  cases x with
  | error e' =>
    cases h
    exact .inl rfl
  | ok a => exact .inr ⟨a, rfl, h⟩

theorem error_of_map {ε α β : Type} {x : Except ε α} {f : α → β} {e : ε} (h : x.map f = .error e) :
    x = .error e := by
  cases x with
  | error e' =>
    cases h
    rfl
  | ok a => cases h

theorem exists_ok_of_map {ε α β : Type} {x : Except ε α} {f : α → β} {b : β} (h : x.map f = .ok b) :
    ∃ a, x = .ok a ∧ f a = b := by
  cases x with
  | error e => cases h
  | ok a =>
    cases h
    exact ⟨a, rfl, rfl⟩

namespace Value

mutual

/-- A value that a document can spell. -/
def IsJson : Value → Prop
  | .null | .bool _ | .int _ | .float _ => True
  | .text t => t.Spellable
  | .list items => AreJson items
  | .object fields => AreJsonFields fields
  | .thresholds _ | .phrases _ _ => False

/-- Items that a document can spell. -/
def AreJson : List Value → Prop
  | [] => True
  | item :: items => item.IsJson ∧ AreJson items

/-- Fields that a document can spell. -/
def AreJsonFields : List (Text × Value) → Prop
  | [] => True
  | (name, value) :: fields => name.Spellable ∧ value.IsJson ∧ AreJsonFields fields

end

theorem AreJsonFields.insert {fields : List (Text × Value)} (h : AreJsonFields fields) {name : Text}
    {value : Value} (hname : name.Spellable) (hvalue : value.IsJson) :
    AreJsonFields (Value.insert name value fields) := by
  induction fields with
  | nil => exact ⟨hname, hvalue, trivial⟩
  | cons field fields ih =>
    obtain ⟨hfield, hold, hrest⟩ := h
    unfold Value.insert
    split
    · exact ⟨hfield, hvalue, hrest⟩
    · exact ⟨hfield, hold, ih hrest⟩

theorem AreJsonFields.lookup {fields : List (Text × Value)} (h : AreJsonFields fields) {name : Text}
    {value : Value} (hlookup : Value.lookup name fields = some value) : value.IsJson := by
  induction fields with
  | nil => cases hlookup
  | cons field fields ih =>
    obtain ⟨_, hvalue, hrest⟩ := h
    unfold Value.lookup at hlookup
    split at hlookup
    · cases hlookup
      exact hvalue
    · exact ih hrest hlookup

end Value

namespace Json

open Text

variable {ls rest : List Letter}

/-! ## What the parts of the reader leave -/

theorem skipSpace_suffix (ls : List Letter) : skipSpace ls <:+ ls :=
  List.dropWhile_suffix _

theorem afterWord?_suffix {word : List Char} (h : afterWord? word ls = some rest) : rest <:+ ls := by
  fun_induction afterWord? word ls with
  | case1 ls =>
    cases h
    exact List.suffix_rfl
  | case2 word c ls ih => exact (ih h).trans (List.suffix_cons _ _)
  | case3 => cases h
  | case4 => cases h

theorem splitDigits_suffix (ls : List Letter) : (splitDigits ls).2 <:+ ls := by
  fun_induction splitDigits ls with
  | case1 c ls _ digits rest heq ih =>
    rw [heq] at ih
    exact ih.trans (List.suffix_cons _ _)
  | case2 => exact List.suffix_rfl
  | case3 => exact List.suffix_rfl

theorem splitWhole_suffix (ls : List Letter) : (splitWhole ls).2 <:+ ls := by
  unfold splitWhole
  split
  · exact List.suffix_cons _ _
  · exact splitDigits_suffix _

theorem splitFraction_suffix (ls : List Letter) : (splitFraction ls).2 <:+ ls := by
  unfold splitFraction
  split
  · exact List.suffix_rfl
  · rename_i rest hpoint
    dsimp only
    split
    · exact List.suffix_rfl
    · exact (splitDigits_suffix rest).trans (afterWord?_suffix hpoint)

theorem splitSign_suffix (ls : List Letter) : (splitSign ls).2 <:+ ls := by
  unfold splitSign
  split
  · exact List.suffix_cons _ _
  · exact List.suffix_cons _ _
  · exact List.suffix_rfl

theorem splitExponent?_suffix {exponent : Int} (h : splitExponent? ls = some (exponent, rest)) :
    rest <:+ ls := by
  obtain ⟨after, hletter, hrest⟩ := Option.bind_eq_some_iff.mp h
  have hafter : after <:+ ls := by
    rcases Option.or_eq_some_iff.mp hletter with hlower | ⟨_, hupper⟩
    · exact afterWord?_suffix hlower
    · exact afterWord?_suffix hupper
  dsimp only at hrest
  split at hrest
  · cases hrest
  · cases hrest
    exact ((splitDigits_suffix _).trans (splitSign_suffix after)).trans hafter

theorem readMagnitude_ok {negative : Bool} {v : Value} (h : readMagnitude negative ls = .ok (v, rest)) :
    v.IsJson ∧ rest <:+ ls := by
  have hfraction : (splitFraction (splitWhole ls).2).2 <:+ ls :=
    (splitFraction_suffix _).trans (splitWhole_suffix ls)
  unfold readMagnitude at h
  dsimp only at h
  split at h
  · cases h
  · split at h
    · rename_i exponent after hexponent
      cases h
      exact ⟨trivial, (splitExponent?_suffix hexponent).trans hfraction⟩
    · split at h
      · cases h
        exact ⟨trivial, hfraction⟩
      · split at h
        · cases h
        · cases h
          exact ⟨trivial, hfraction⟩

theorem readAtom_ok {v : Value} (h : readAtom ls = .ok (v, rest)) : v.IsJson ∧ rest <:+ ls := by
  unfold readAtom at h
  split at h
  · rename_i read hword
    cases h
    obtain ⟨⟨word, value⟩, hmem, hread⟩ := List.exists_of_findSome?_eq_some hword
    obtain ⟨after, hafter, heq⟩ := Option.map_eq_some_iff.mp hread
    cases heq
    refine ⟨?_, afterWord?_suffix hafter⟩
    simp only [words, List.mem_cons, List.not_mem_nil, or_false, Prod.mk.injEq] at hmem
    rcases hmem with ⟨_, rfl⟩ | ⟨_, rfl⟩ | ⟨_, rfl⟩ | ⟨_, rfl⟩ | ⟨_, rfl⟩ | ⟨_, rfl⟩ <;> trivial
  · split at h
    · obtain ⟨hvalue, hsuffix⟩ := readMagnitude_ok h
      exact ⟨hvalue, hsuffix.trans (List.suffix_cons _ _)⟩
    · exact readMagnitude_ok h

/-! ## Values -/

/-- No letter of the input is half of a pair. -/
def Plain (ls : List Letter) : Prop :=
  ∀ l ∈ ls, l.isHalf = false

theorem Plain.of_suffix (h : Plain ls) (hsuffix : rest <:+ ls) : Plain rest :=
  fun l hl => h l (hsuffix.subset hl)

theorem plain_ofString (document : String) : Plain (ofString document).letters := by
  intro l hl
  obtain ⟨c, _, rfl⟩ := List.mem_map.mp hl
  rfl

/-- What the reader makes of characters, with so many steps left. -/
structure ReadsJson (fuel : Nat) : Prop where
  value : ∀ {depth : Nat} {ls rest : List Letter} {v : Value}, Plain ls →
    readValue fuel depth ls = .ok (v, rest) → v.IsJson ∧ rest <:+ ls
  items : ∀ {depth : Nat} {ls rest : List Letter} {items : List Value}, Plain ls →
    readItems fuel depth ls = .ok (items, rest) → Value.AreJson items ∧ rest <:+ ls
  fields : ∀ {depth : Nat} {ls rest : List Letter} {before fields : List (Text × Value)}, Plain ls →
    Value.AreJsonFields before → readFields fuel depth before ls = .ok (fields, rest) →
    Value.AreJsonFields fields ∧ rest <:+ ls

theorem readsJson_zero : ReadsJson 0 := by
  refine ⟨?_, ?_, ?_⟩
  · intro depth ls rest v _ h
    cases h
  · intro depth ls rest items _ h
    cases h
  · intro depth ls rest before fields _ _ h
    cases h

variable {fuel depth : Nat}

theorem ReadsJson.value_succ (ih : ReadsJson fuel) {v : Value} (hplain : Plain ls)
    (h : readValue (fuel + 1) depth ls = .ok (v, rest)) : v.IsJson ∧ rest <:+ ls := by
  unfold readValue at h
  split at h
  · rename_i after
    have hafter : after <:+ .char '"' :: after := List.suffix_cons _ _
    obtain ⟨⟨t, _⟩, hread, heq⟩ := exists_ok_of_map h
    cases heq
    obtain ⟨ht, hsuffix⟩ := spellable_readString hread (hplain.of_suffix hafter)
    exact ⟨ht, hsuffix.trans hafter⟩
  · rename_i after
    have hafter : skipSpace after <:+ .char '[' :: after :=
      (skipSpace_suffix after).trans (List.suffix_cons _ _)
    split at h
    · cases h
    · split at h
      · rename_i hclose
        cases h
        rw [hclose] at hafter
        exact ⟨trivial, (List.suffix_cons _ _).trans hafter⟩
      · obtain ⟨⟨items, _⟩, hread, heq⟩ := exists_ok_of_map h
        cases heq
        obtain ⟨hitems, hsuffix⟩ := ih.items (hplain.of_suffix hafter) hread
        exact ⟨hitems, hsuffix.trans hafter⟩
  · rename_i after
    have hafter : skipSpace after <:+ .char '{' :: after :=
      (skipSpace_suffix after).trans (List.suffix_cons _ _)
    split at h
    · cases h
    · split at h
      · rename_i hclose
        cases h
        rw [hclose] at hafter
        exact ⟨trivial, (List.suffix_cons _ _).trans hafter⟩
      · obtain ⟨⟨fields, _⟩, hread, heq⟩ := exists_ok_of_map h
        cases heq
        have hnone : Value.AreJsonFields [] := trivial
        obtain ⟨hfields, hsuffix⟩ := ih.fields (hplain.of_suffix hafter) hnone hread
        exact ⟨hfields, hsuffix.trans hafter⟩
  · exact readAtom_ok h

theorem ReadsJson.items_succ (ih : ReadsJson fuel) {items : List Value} (hplain : Plain ls)
    (h : readItems (fuel + 1) depth ls = .ok (items, rest)) : Value.AreJson items ∧ rest <:+ ls := by
  obtain ⟨⟨item, after⟩, hread, hmore⟩ := exists_ok_of_bind h
  obtain ⟨hitem, hafter⟩ := ih.value hplain hread
  have hskip : skipSpace after <:+ ls := (skipSpace_suffix after).trans hafter
  dsimp only at hmore
  split at hmore
  · rename_i hclose
    cases hmore
    rw [hclose] at hskip
    exact ⟨⟨hitem, trivial⟩, (List.suffix_cons _ _).trans hskip⟩
  · rename_i after' hcomma
    rw [hcomma] at hskip
    have hnext : skipSpace after' <:+ ls :=
      ((skipSpace_suffix after').trans (List.suffix_cons _ _)).trans hskip
    obtain ⟨⟨more, _⟩, hreadMore, heq⟩ := exists_ok_of_bind hmore
    cases heq
    obtain ⟨hitems, hsuffix⟩ := ih.items (hplain.of_suffix hnext) hreadMore
    exact ⟨⟨hitem, hitems⟩, hsuffix.trans hnext⟩
  · cases hmore

theorem ReadsJson.fields_succ (ih : ReadsJson fuel) {before fields : List (Text × Value)}
    (hplain : Plain ls) (hbefore : Value.AreJsonFields before)
    (h : readFields (fuel + 1) depth before ls = .ok (fields, rest)) :
    Value.AreJsonFields fields ∧ rest <:+ ls := by
  unfold readFields at h
  split at h
  · cases h
  · rename_i after heq
    cases heq
    have hafter : after <:+ .char '"' :: after := List.suffix_cons _ _
    obtain ⟨⟨name, afterName⟩, hreadName, hvalue⟩ := exists_ok_of_bind h
    obtain ⟨hname, hsuffixName⟩ := spellable_readString hreadName (hplain.of_suffix hafter)
    dsimp only at hvalue
    split at hvalue
    · rename_i afterColon hcolon
      have hskip := (skipSpace_suffix afterName).trans (hsuffixName.trans hafter)
      rw [hcolon] at hskip
      have hstart := ((skipSpace_suffix afterColon).trans (List.suffix_cons _ _)).trans hskip
      obtain ⟨⟨value, afterValue⟩, hreadValue, hmore⟩ := exists_ok_of_bind hvalue
      obtain ⟨hvalue, hsuffixValue⟩ := ih.value (hplain.of_suffix hstart) hreadValue
      have hend := (skipSpace_suffix afterValue).trans (hsuffixValue.trans hstart)
      have hinsert := hbefore.insert hname hvalue
      dsimp only at hmore
      split at hmore
      · rename_i hclose
        cases hmore
        rw [hclose] at hend
        exact ⟨hinsert, (List.suffix_cons _ _).trans hend⟩
      · rename_i after' hcomma
        rw [hcomma] at hend
        have hnext := ((skipSpace_suffix after').trans (List.suffix_cons _ _)).trans hend
        obtain ⟨hfields, hsuffix⟩ := ih.fields (hplain.of_suffix hnext) hinsert hmore
        exact ⟨hfields, hsuffix.trans hnext⟩
      · cases hmore
    · cases hvalue
  · cases h

theorem readsJson (fuel : Nat) : ReadsJson fuel := by
  induction fuel with
  | zero => exact readsJson_zero
  | succ fuel ih => exact ⟨ih.value_succ, ih.items_succ, ih.fields_succ⟩

/-- What is read from a document of characters is a value that a document can spell. -/
theorem isJson_read {document : String} {depth : Nat} {v : Value} (h : read document depth = .ok v) : v.IsJson := by
  have hplain := plain_ofString document
  obtain ⟨⟨value, rest⟩, hread, hend⟩ := exists_ok_of_bind h
  dsimp only at hend
  split at hend
  · cases hend
    exact ((readsJson _).value (hplain.of_suffix (skipSpace_suffix _)) hread).1
  · cases hend

end Json

end LockScreen
