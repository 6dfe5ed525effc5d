import LockScreen.Timing.Heap
import Mathlib.Order.Lattice

/-!
# The order of a heap

What comes earlier in a heap is said by a comparison, which need not be an order: alarms whose time is not a number
compare with none. Where it is one on the items, because it compares keys (`Heap.KeyedBy`), no item has a key below
that of its parent (`Heap.Ordered`), and putting in and taking out keep it so. Then what is taken out has the least key
(`Heap.ordered_of_pop?`).

While an item is on its way only the relations to its own place are open. On the way up those of its children hold
(`Heap.UpOrdered`), on the way down they do not either, but both levels around its place are in order
(`Heap.DownOrdered`).
-/

namespace LockScreen.Heap

variable {α κ : Type} [LinearOrder κ]

/-- Among some items the comparison is that of their keys. -/
def KeyedBy (earlier : α → α → Bool) (key : α → κ) (items : Array α) : Prop :=
  ∀ a ∈ items, ∀ b ∈ items, earlier a b = true ↔ key a < key b

/-- No key is below that of the parent. The first item is its own parent. -/
def Ordered (key : α → κ) (items : Array α) : Prop :=
  ∀ i p (hi : i < items.size) (hp : p < items.size), p = parent i → key items[p] ≤ key items[i]

/-- The item of a place may have a key below that of its parent. -/
structure UpOrdered (key : α → κ) (items : Array α) (place : Nat) : Prop where
  except : ∀ i p (hi : i < items.size) (hp : p < items.size), p = parent i → i ≠ place → key items[p] ≤ key items[i]
  /-- Its parent can come down to its place. -/
  around : ∀ i p (hi : i < items.size) (hp : p < items.size), p = parent place → place = parent i → 0 < place →
    key items[p] ≤ key items[i]

/-- The item of a place may have any key. -/
structure DownOrdered (key : α → κ) (items : Array α) (place : Nat) : Prop where
  except : ∀ i p (hi : i < items.size) (hp : p < items.size), p = parent i → i ≠ place → p ≠ place →
    key items[p] ≤ key items[i]
  around : ∀ i p (hi : i < items.size) (hp : p < items.size), p = parent place → place = parent i → 0 < place →
    key items[p] ≤ key items[i]

variable {earlier : α → α → Bool} {key : α → κ} {items : Array α} {place : Nat}

theorem KeyedBy.of_subset {others : Array α} (h : KeyedBy earlier key items) (hsubset : ∀ a ∈ others, a ∈ items) :
    KeyedBy earlier key others :=
  fun a ha b hb => h a (hsubset a ha) b (hsubset b hb)

theorem KeyedBy.swap (h : KeyedBy earlier key items) {i j : Nat} (hi : i < items.size) (hj : j < items.size) :
    KeyedBy earlier key (items.swap i j hi hj) :=
  h.of_subset fun _ ha => (Array.swap_perm hi hj).mem_iff.mp ha

theorem KeyedBy.getElem (h : KeyedBy earlier key items) {i j : Nat} (hi : i < items.size) (hj : j < items.size) :
    earlier items[i] items[j] = true ↔ key items[i] < key items[j] :=
  h _ (Array.getElem_mem hi) _ (Array.getElem_mem hj)

/-! ## On the way up -/

/-- A step up. -/
theorem UpOrdered.swap (h : UpOrdered key items place) {p : Nat} (hplace : place < items.size) (hp : p < items.size)
    (hparent : p = parent place) (hpos : 0 < place) (hless : key items[place] < key items[p]) :
    UpOrdered key (items.swap place p hplace hp) p := by
  unfold parent at hparent
  refine ⟨?_, ?_⟩
  · intro i q hi hq hqi hne
    have hilt : i < items.size := Array.size_swap ▸ hi
    have hqlt : q < items.size := Array.size_swap ▸ hq
    unfold parent at hqi
    simp only [Array.getElem_swap]
    by_cases hiplace : i = place
    · -- what came down has its new parent above it
      subst hiplace
      have hqp : q = p := by omega
      subst hqp
      simp only [if_true, hne, if_false]
      split
      · omega
      · exact le_of_lt hless
    · simp only [hiplace, hne, if_false]
      by_cases hqplace : q = place
      · -- the children of the place that was left
        subst hqplace
        simp only [if_true]
        exact h.around i p hilt hp hparent hqi hpos
      · simp only [hqplace, if_false]
        by_cases hqp : q = p
        · -- the other child of the parent
          subst hqp
          simp only [if_true]
          exact le_trans (le_of_lt hless) (h.except i q hilt hqlt hqi hiplace)
        · simp only [hqp, if_false]
          exact h.except i q hilt hqlt hqi hiplace
  · intro i q hi hq hqp hip _
    have hilt : i < items.size := Array.size_swap ▸ hi
    have hqlt : q < items.size := Array.size_swap ▸ hq
    unfold parent at hqp hip
    have hqplace : q ≠ place := by omega
    have hqne : q ≠ p := by omega
    have hine : i ≠ p := by omega
    simp only [Array.getElem_swap, hqplace, hqne, hine, if_false]
    have hup := h.except p q hp hqlt hqp (by omega)
    split
    · exact hup
    · exact le_trans hup (h.except i p hilt hp hip (by omega))

/-- The way up ends in order. -/
theorem UpOrdered.finish (h : UpOrdered key items place)
    (hstop : ∀ p (hplace : place < items.size) (hp : p < items.size), p = parent place → 0 < place →
      key items[p] ≤ key items[place]) : Ordered key items := by
  intro i p hi hp hparent
  by_cases hiplace : i = place
  · subst hiplace
    rcases Nat.eq_zero_or_pos i with rfl | hpos
    · have hzero : p = 0 := hparent
      subst hzero
      exact le_refl _
    · exact hstop p hi hp hparent hpos
  · exact h.except i p hi hp hparent hiplace

theorem UpOrdered.rise (h : UpOrdered key items place) (hkeyed : KeyedBy earlier key items) :
    Ordered key (rise earlier items place) := by
  fun_induction Heap.rise earlier items place with
  | case1 items place hplace hparent hearlier ih =>
    have hp : parent place < items.size := Nat.lt_trans hparent hplace.2
    have hless := (hkeyed.getElem hplace.2 hp).mp hearlier
    exact ih (h.swap hplace.2 hp rfl hplace.1 hless) (hkeyed.swap hplace.2 hp)
  | case2 items place hplace hparent hearlier =>
    refine h.finish ?_
    rintro p hlt hp rfl _
    exact le_of_not_gt fun hless => hearlier ((hkeyed.getElem hlt hp).mpr hless)
  | case3 items place hplace =>
    refine h.finish ?_
    intro p hlt hp _ hpos
    exact absurd ⟨hpos, hlt⟩ hplace

/-! ## On the way down -/

/-- The child that goes up has the least key of the children. -/
theorem key_childOf_le (hkeyed : KeyedBy earlier key items) (hchild : childOf earlier items place < items.size)
    {i : Nat} (hi : i < items.size) (hparent : place = parent i) (hne : i ≠ place) :
    key items[childOf earlier items place] ≤ key items[i] := by
  unfold parent at hparent
  have hside : i = 2 * place + 1 ∨ i = 2 * place + 2 := by omega
  generalize hc : childOf earlier items place = c at hchild ⊢
  unfold childOf at hc
  dsimp only at hc
  split at hc
  · rename_i hright
    have hcompare := hkeyed.getElem (i := 2 * place + 1) (j := 2 * place + 1 + 1) (by omega) hright
    split at hc
    · rename_i hearlier
      subst hc
      rcases hside with rfl | rfl
      · exact le_refl _
      · exact le_of_lt (hcompare.mp hearlier)
    · rename_i hearlier
      subst hc
      rcases hside with rfl | rfl
      · exact le_of_not_gt fun hless => hearlier (hcompare.mpr hless)
      · exact le_refl _
  · subst hc
    have hleft : i = 2 * place + 1 := by omega
    subst hleft
    exact le_refl _

theorem parent_childOf (earlier : α → α → Bool) (items : Array α) (place : Nat) :
    parent (childOf earlier items place) = place := by
  unfold childOf parent
  dsimp only
  split
  · split
    · omega
    · omega
  · omega

/-- A step down. -/
theorem DownOrdered.swap (h : DownOrdered key items place) {c : Nat} (hplace : place < items.size)
    (hc : c < items.size) (hparent : place = parent c) (hlt : place < c)
    (hleast : ∀ i (hi : i < items.size), place = parent i → i ≠ place → key items[c] ≤ key items[i]) :
    DownOrdered key (items.swap place c hplace hc) c := by
  refine ⟨?_, ?_⟩
  · intro i q hi hq hqi hne hqc
    have hilt : i < items.size := Array.size_swap ▸ hi
    have hqlt : q < items.size := Array.size_swap ▸ hq
    simp only [Array.getElem_swap, hne, hqc, if_false]
    by_cases hiplace : i = place
    · -- the child that went up has what was two levels above it
      subst hiplace
      simp only [if_true]
      split
      · exact le_refl _
      · rename_i hqne
        have hpos : 0 < i := by
          unfold parent at hqi
          omega
        exact h.around c q hc hqlt hqi hparent hpos
    · simp only [hiplace, if_false]
      split
      · -- the other child
        rename_i hqplace
        exact hleast i hilt (hqplace.symm.trans hqi) hiplace
      · rename_i hqplace
        exact h.except i q hilt hqlt hqi hiplace hqplace
  · intro i q hi hq hqc hci hpos
    have hilt : i < items.size := Array.size_swap ▸ hi
    have hqlt : q < items.size := Array.size_swap ▸ hq
    have hqplace : q = place := hqc.trans hparent.symm
    have hic : c < i := by
      unfold parent at hci
      omega
    have hine : i ≠ c := by omega
    have hiplace : i ≠ place := by omega
    subst hqplace
    simp only [Array.getElem_swap, if_true, hine, hiplace, if_false]
    exact h.except i c hilt hc hci hiplace (by omega)

/-- At the end of the way down there are no children. -/
theorem DownOrdered.up (h : DownOrdered key items place) (hend : items.size ≤ 2 * place + 1) :
    UpOrdered key items place := by
  refine ⟨?_, h.around⟩
  intro i p hi hp hparent hne
  refine h.except i p hi hp hparent hne ?_
  unfold parent at hparent
  omega

theorem DownOrdered.sink (h : DownOrdered key items place) (hkeyed : KeyedBy earlier key items) :
    Ordered key (sink earlier items place) := by
  fun_induction Heap.sink earlier items place with
  | case1 items place hchild hlt ih =>
    have hplace := Nat.lt_trans hlt hchild
    refine ih (h.swap hplace hchild (parent_childOf earlier items place).symm hlt ?_) (hkeyed.swap hplace hchild)
    intro i hi hparent hne
    exact key_childOf_le hkeyed hchild hi hparent hne
  | case2 items place hchild =>
    refine (h.up ?_).rise hkeyed
    -- the child that would go up lies behind the row, so the left one does
    unfold childOf at hchild
    dsimp only at hchild
    split at hchild
    · split at hchild
      · omega
      · omega
    · omega

/-! ## Heaps in order -/

variable {h rest : Heap α} {a : α}

/-- The first item has the least key. -/
theorem key_first_le (hordered : Ordered key items) (hpos : 0 < items.size) {i : Nat} (hi : i < items.size) :
    key items[0] ≤ key items[i] := by
  induction i using Nat.strongRecOn with
  | ind i ih =>
    rcases Nat.eq_zero_or_pos i with rfl | hnonzero
    · exact le_refl _
    · have hlt : parent i < i := by
        unfold parent
        omega
      exact le_trans (ih (parent i) hlt (Nat.lt_trans hlt hi)) (hordered i (parent i) hi _ rfl)

theorem ordered_push (hordered : Ordered key h.items) (hkeyed : KeyedBy earlier key (h.items.push a)) :
    Ordered key (h.push earlier a).items := by
  refine UpOrdered.rise ⟨?_, ?_⟩ hkeyed
  · intro i p hi hp hparent hne
    rw [Array.size_push] at hi
    have hilt : i < h.items.size := by
      unfold size at hne
      omega
    have hplt : p < h.items.size := by
      unfold parent at hparent
      omega
    rw [Array.getElem_push_lt hplt, Array.getElem_push_lt hilt]
    exact hordered i p hilt hplt hparent
  · -- the new place has no children
    intro i p hi hp _ hchild hpos
    rw [Array.size_push] at hi
    unfold parent size at hchild
    unfold size at hpos
    omega

/-- Nothing can be taken out of an empty heap only. -/
theorem not_mem_of_pop?_eq_none (hpop : h.pop? earlier = none) (a : α) : a ∉ h.items := by
  unfold pop? at hpop
  split at hpop
  · rename_i hitems
    rw [Array.mem_def, hitems]
    exact List.not_mem_nil
  · cases hpop
  · cases hpop

/-- Where the last item is put in the first place, the others stay. -/
theorem downOrdered_of_replaced (hordered : Ordered key items) {others : Array α}
    (hothers : ∀ i (hi : i < others.size), 0 < i → ∃ hlt : i < items.size, others[i] = items[i]) :
    DownOrdered key others 0 := by
  refine ⟨?_, fun _ _ _ _ _ _ hpos => absurd hpos (Nat.lt_irrefl 0)⟩
  intro i p hi hp hparent hine hpne
  obtain ⟨hilt, hisame⟩ := hothers i hi (Nat.pos_of_ne_zero hine)
  obtain ⟨hplt, hpsame⟩ := hothers p hp (Nat.pos_of_ne_zero hpne)
  rw [hisame, hpsame]
  exact hordered i p hilt hplt hparent

/-- What is taken out has the least key, and the rest is in order. -/
theorem ordered_of_pop? (hordered : Ordered key h.items) (hkeyed : KeyedBy earlier key h.items)
    (hpop : h.pop? earlier = some (a, rest)) : Ordered key rest.items ∧ ∀ b ∈ h.items, key a ≤ key b := by
  obtain ⟨⟨items⟩⟩ := h
  unfold pop? at hpop
  dsimp only at hpop hordered ⊢
  have hfirst : ∀ first others, items = first :: others → ∀ b ∈ items.toArray, key first ≤ key b := by
    rintro first others rfl b hb
    obtain ⟨i, hi, rfl⟩ := Array.mem_iff_getElem.mp hb
    exact key_first_le hordered (Nat.zero_lt_succ _) hi
  split at hpop
  · cases hpop
  · rename_i only
    cases hpop
    refine ⟨?_, hfirst _ _ rfl⟩
    intro i p hi
    cases hi
  · rename_i first second others
    cases hpop
    refine ⟨(downOrdered_of_replaced hordered ?_).sink (hkeyed.of_subset ?_), hfirst _ _ rfl⟩
    · rintro (_ | i) hi hpos
      · exact absurd hpos (Nat.lt_irrefl 0)
      · simp only [List.size_toArray, List.length_cons, List.length_dropLast] at hi
        refine ⟨?_, ?_⟩
        · simp only [List.size_toArray, List.length_cons]
          omega
        · simp only [List.getElem_toArray, List.getElem_cons_succ, List.getElem_dropLast]
    · intro b hb
      simp only [List.mem_toArray, List.mem_cons] at hb ⊢
      rcases hb with rfl | hb
      · exact .inr (List.mem_cons.mp (List.getLast_mem _))
      · exact .inr (List.mem_cons.mp (List.dropLast_subset _ hb))

end LockScreen.Heap
