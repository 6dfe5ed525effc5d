import LockScreen.Proofs.Json.Values

/-!
# Documents that are nested too deep

A document of characters is refused because it is none, because an integer in it has too many digits, or because
its lists and objects are nested too deep; and then it opens more of them than the limit allows
(`error_of_read`). The reader enters one level for each sign that opens a list or an object, so the levels that
are left and the signs to come are counted against each other.
-/

namespace LockScreen.Json

open Text

variable {ls rest : List Letter} {f : Fault}

/-- How many signs of the input open a list or an object. -/
def openings (ls : List Letter) : Nat :=
  ls.countP fun l => l = .char '[' || l = .char '{'

theorem openings_le_of_suffix (h : rest <:+ ls) : openings rest ≤ openings ls :=
  h.sublist.countP_le

/-- The fault of an input that is no document, or of one in which too much is opened for the levels left. -/
def Blames (depth : Nat) (ls : List Letter) (f : Fault) : Prop :=
  f.kind = .value ∨ f.kind = .depth ∧ depth < openings ls

/-- What is opened in the end of an input is opened in it. -/
theorem Blames.of_suffix {depth : Nat} (h : Blames depth rest f) (hsuffix : rest <:+ ls) : Blames depth ls f :=
  h.imp_right (And.imp_right fun hdepth => Nat.lt_of_lt_of_le hdepth (openings_le_of_suffix hsuffix))

/-- A sign that opens takes one level. -/
theorem Blames.opened {depth : Nat} {l : Letter} (hopens : l = .char '[' ∨ l = .char '{') (hdepth : depth ≠ 0)
    (h : Blames (depth - 1) rest f) : Blames depth (l :: rest) f := by
  refine h.imp_right (And.imp_right fun hless => ?_)
  have hcount : openings (l :: rest) = openings rest + 1 := by
    rcases hopens with rfl | rfl
    · exact List.countP_cons_of_pos (by decide)
    · exact List.countP_cons_of_pos (by decide)
  have hlevel : depth - 1 + 1 = depth := Nat.sub_add_cancel (Nat.pos_of_ne_zero hdepth)
  omega

/-! ## What is no list and no object -/

theorem kind_of_readString (h : readString ls = .error f) : f.kind = .value := by
  unfold readString at h
  split at h
  · cases h
  · cases h
    rfl

theorem kind_of_readMagnitude {negative : Bool} (h : readMagnitude negative ls = .error f) : f.kind = .value := by
  unfold readMagnitude at h
  dsimp only at h
  split at h
  · cases h
    rfl
  · split at h
    · cases h
    · split at h
      · cases h
      · split at h
        · cases h
          rfl
        · cases h

theorem kind_of_readAtom (h : readAtom ls = .error f) : f.kind = .value := by
  unfold readAtom at h
  split at h
  · cases h
  · split at h
    · exact kind_of_readMagnitude h
    · exact kind_of_readMagnitude h

/-! ## Values -/

/-- The faults of the reader on characters, with so many steps left. -/
structure BlamesNesting (fuel : Nat) : Prop where
  value : ∀ {depth : Nat} {ls : List Letter} {f : Fault}, Plain ls →
    readValue fuel depth ls = .error f → Blames depth ls f
  items : ∀ {depth : Nat} {ls : List Letter} {f : Fault}, Plain ls →
    readItems fuel depth ls = .error f → Blames depth ls f
  fields : ∀ {depth : Nat} {ls : List Letter} {before : List (Text × Value)} {f : Fault}, Plain ls →
    Value.AreJsonFields before → readFields fuel depth before ls = .error f → Blames depth ls f

theorem blamesNesting_zero : BlamesNesting 0 := by
  refine ⟨?_, ?_, ?_⟩
  · intro depth ls f _ h
    cases h
    exact .inl rfl
  · intro depth ls f _ h
    cases h
    exact .inl rfl
  · intro depth ls before f _ _ h
    cases h
    exact .inl rfl

variable {fuel depth : Nat}

theorem BlamesNesting.value_succ (ih : BlamesNesting fuel) (hplain : Plain ls)
    (h : readValue (fuel + 1) depth ls = .error f) : Blames depth ls f := by
  unfold readValue at h
  split at h
  · exact .inl (kind_of_readString (error_of_map h))
  · rename_i after
    split at h
    · rename_i hzero
      cases h
      subst hzero
      exact .inr ⟨rfl, by simp [openings]⟩
    · rename_i hdepth
      have hskip := skipSpace_suffix after
      split at h
      · cases h
      · have hitems := ih.items (hplain.of_suffix (hskip.trans (List.suffix_cons _ _))) (error_of_map h)
        exact (hitems.of_suffix hskip).opened (.inl rfl) hdepth
  · rename_i after
    split at h
    · rename_i hzero
      cases h
      subst hzero
      exact .inr ⟨rfl, by simp [openings]⟩
    · rename_i hdepth
      have hskip := skipSpace_suffix after
      split at h
      · cases h
      · have hnone : Value.AreJsonFields [] := trivial
        have hfields := ih.fields (hplain.of_suffix (hskip.trans (List.suffix_cons _ _))) hnone (error_of_map h)
        exact (hfields.of_suffix hskip).opened (.inr rfl) hdepth
  · exact .inl (kind_of_readAtom h)

theorem BlamesNesting.items_succ (ih : BlamesNesting fuel) (hplain : Plain ls)
    (h : readItems (fuel + 1) depth ls = .error f) : Blames depth ls f := by
  obtain hitem | ⟨⟨item, after⟩, hread, hmore⟩ := error_of_bind h
  · exact ih.value hplain hitem
  -- what is read so far leaves an end of the input
  have hafter := ((readsJson fuel).value hplain hread).2
  have hskip : skipSpace after <:+ ls := (skipSpace_suffix after).trans hafter
  dsimp only at hmore
  split at hmore
  · cases hmore
  · rename_i after' hcomma
    rw [hcomma] at hskip
    have hnext : skipSpace after' <:+ ls :=
      ((skipSpace_suffix after').trans (List.suffix_cons _ _)).trans hskip
    obtain hitems | ⟨⟨more, _⟩, _, heq⟩ := error_of_bind hmore
    · exact (ih.items (hplain.of_suffix hnext) hitems).of_suffix hnext
    · cases heq
  · cases hmore
    exact .inl rfl

theorem BlamesNesting.fields_succ (ih : BlamesNesting fuel) {before : List (Text × Value)}
    (hplain : Plain ls) (hbefore : Value.AreJsonFields before)
    (h : readFields (fuel + 1) depth before ls = .error f) : Blames depth ls f := by
  unfold readFields at h
  split at h
  · cases h
    exact .inl rfl
  · rename_i after heq
    cases heq
    have hafter : after <:+ .char '"' :: after := List.suffix_cons _ _
    obtain hname | ⟨⟨name, afterName⟩, hreadName, hvalue⟩ := error_of_bind h
    · exact .inl (kind_of_readString hname)
    obtain ⟨hname, hsuffixName⟩ := spellable_readString hreadName (hplain.of_suffix hafter)
    dsimp only at hvalue
    split at hvalue
    · rename_i afterColon hcolon
      have hskip := (skipSpace_suffix afterName).trans (hsuffixName.trans hafter)
      rw [hcolon] at hskip
      have hstart := ((skipSpace_suffix afterColon).trans (List.suffix_cons _ _)).trans hskip
      obtain hvalue | ⟨⟨value, afterValue⟩, hreadValue, hmore⟩ := error_of_bind hvalue
      · exact (ih.value (hplain.of_suffix hstart) hvalue).of_suffix hstart
      obtain ⟨hvalue, hsuffixValue⟩ := (readsJson fuel).value (hplain.of_suffix hstart) hreadValue
      have hend := (skipSpace_suffix afterValue).trans (hsuffixValue.trans hstart)
      dsimp only at hmore
      split at hmore
      · cases hmore
      · rename_i after' hcomma
        rw [hcomma] at hend
        have hnext := ((skipSpace_suffix after').trans (List.suffix_cons _ _)).trans hend
        exact (ih.fields (hplain.of_suffix hnext) (hbefore.insert hname hvalue) hmore).of_suffix hnext
      · cases hmore
        exact .inl rfl
    · cases hvalue
      exact .inl rfl
  · cases h
    exact .inl rfl

theorem blamesNesting (fuel : Nat) : BlamesNesting fuel := by
  induction fuel with
  | zero => exact blamesNesting_zero
  | succ fuel ih => exact ⟨ih.value_succ, ih.items_succ, ih.fields_succ⟩

/-- A document is refused as a bad value, or because it opens more lists and objects than may be nested. -/
theorem error_of_read {document : String} {depth : Nat} (h : read document depth = .error f) :
    Blames depth (ofString document).letters f := by
  have hskip := skipSpace_suffix (ofString document).letters
  obtain hread | ⟨⟨value, rest⟩, _, hend⟩ := error_of_bind h
  · exact ((blamesNesting _).value ((plain_ofString document).of_suffix hskip) hread).of_suffix hskip
  · dsimp only at hend
    split at hend
    · cases hend
    · cases hend
      exact .inl rfl

end LockScreen.Json
