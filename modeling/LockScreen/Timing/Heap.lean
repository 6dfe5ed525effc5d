/-!
# Heaps

A binary heap: a row of items in which the children of place `i` are at the places `2 i + 1` and `2 i + 2`,
and no item comes earlier than its parent. The first item is therefore one of the earliest; among items that
come equally early the paths that they took through the row decide.

`toList_push_perm` and `toList_perm_of_pop?` say that a heap keeps what was put in until it is taken out.
-/

namespace LockScreen

/-- A row of items. What comes earlier is given to the operations. -/
structure Heap (α : Type) where
  items : Array α := #[]
deriving DecidableEq, Repr

namespace Heap

variable {α : Type}

/-- The number of items. -/
def size (h : Heap α) : Nat := h.items.size

/-- The items in the order of their places. -/
def toList (h : Heap α) : List α := h.items.toList

/-- The first item. -/
def first? (h : Heap α) : Option α := h.items[0]?

/-- Changes the items where they are. -/
def map (f : α → α) (h : Heap α) : Heap α := ⟨h.items.map f⟩

/-- The place of the parent. -/
def parent (place : Nat) : Nat := (place - 1) / 2

/-- Moves an item up as long as it comes earlier than its parent. -/
def rise (earlier : α → α → Bool) (items : Array α) (place : Nat) : Array α :=
  if h : 0 < place ∧ place < items.size then
    have hparent : parent place < place := by unfold parent; omega
    if earlier items[place] items[parent place] then
      rise earlier (items.swap place (parent place)) (parent place)
    else items
  else items
termination_by place

/-- The place of the child that goes up in the place of its parent: the left one if it comes earlier than the
right one or is the only one. -/
def childOf (earlier : α → α → Bool) (items : Array α) (place : Nat) : Nat :=
  let left := 2 * place + 1
  if h : left + 1 < items.size then
    if earlier items[left] items[left + 1] then left else left + 1
  else left

theorem lt_childOf (earlier : α → α → Bool) (items : Array α) (place : Nat) :
    place < childOf earlier items place := by
  unfold childOf
  dsimp only
  split
  · split <;> omega
  · omega

/-- Moves an item down to where it has no children, and then up again to its place. -/
def sink (earlier : α → α → Bool) (items : Array α) (place : Nat) : Array α :=
  if h : childOf earlier items place < items.size then
    have hchild := lt_childOf earlier items place
    sink earlier (items.swap place (childOf earlier items place)) (childOf earlier items place)
  else rise earlier items place
termination_by items.size - place
decreasing_by simp only [Array.size_swap]; omega

/-- Puts an item in. -/
def push (earlier : α → α → Bool) (h : Heap α) (a : α) : Heap α :=
  ⟨rise earlier (h.items.push a) h.size⟩

/-- The first item, and the heap without it: the last item takes its place and sinks from there. -/
def pop? (earlier : α → α → Bool) (h : Heap α) : Option (α × Heap α) :=
  match h.items.toList with
  | [] => none
  | [only] => some (only, {})
  | first :: second :: rest =>
    let last := (second :: rest).getLast (List.cons_ne_nil second rest)
    some (first, ⟨sink earlier (last :: (second :: rest).dropLast).toArray 0⟩)

/-! ## What a heap holds -/

theorem toList_rise_perm (earlier : α → α → Bool) (items : Array α) (place : Nat) :
    (rise earlier items place).toList.Perm items.toList := by
  fun_induction rise earlier items place with
  | case1 items place h _ _ ih => exact ih.trans (Array.swap_perm ..).toList
  | case2 => exact .refl _
  | case3 => exact .refl _

theorem toList_sink_perm (earlier : α → α → Bool) (items : Array α) (place : Nat) :
    (sink earlier items place).toList.Perm items.toList := by
  fun_induction sink earlier items place with
  | case1 items place h _ ih => exact ih.trans (Array.swap_perm ..).toList
  | case2 items place => exact toList_rise_perm earlier items place

/-- After an item is put in, the heap holds it with all those from before. -/
theorem toList_push_perm (earlier : α → α → Bool) (h : Heap α) (a : α) :
    (h.push earlier a).toList.Perm (a :: h.toList) := by
  refine (toList_rise_perm earlier _ _).trans ?_
  rw [Array.toList_push]
  exact List.perm_append_singleton a _

/-- An item that is taken out was in the heap, which keeps all others. -/
theorem toList_perm_of_pop? {earlier : α → α → Bool} {h rest : Heap α} {a : α}
    (hpop : h.pop? earlier = some (a, rest)) : h.toList.Perm (a :: rest.toList) := by
  unfold pop? at hpop
  unfold toList
  split at hpop
  · simp at hpop
  · rename_i only hitems
    simp only [Option.some.injEq, Prod.mk.injEq] at hpop
    rw [hitems, ← hpop.1, ← hpop.2]
  · rename_i first second others hitems
    simp only [Option.some.injEq, Prod.mk.injEq] at hpop
    rw [hitems, ← hpop.1, ← hpop.2]
    refine .cons first (.trans ?_ (toList_sink_perm earlier _ 0).symm)
    -- the last item only moves to the front
    have hlast := List.dropLast_concat_getLast (List.cons_ne_nil second others)
    refine .trans (.of_eq hlast.symm) ?_
    exact List.perm_append_singleton _ _

/-- Taking out makes a heap smaller. -/
theorem size_lt_of_pop? {earlier : α → α → Bool} {h rest : Heap α} {a : α}
    (hpop : h.pop? earlier = some (a, rest)) : rest.size < h.size := by
  have hlength := (toList_perm_of_pop? hpop).length_eq
  simp only [toList, List.length_cons, Array.length_toList] at hlength
  simp only [size]
  omega

end Heap

end LockScreen
