import LockScreen.Proofs.Number.Decimals
import LockScreen.Proofs.Timing.Alarms
import LockScreen.Proofs.Timing.HeapOrder
import Mathlib.Order.Lattice

/-!
# The order of alarms

As long as every alarm is set for a number, the heap of a loop is in order through every run (`Alarms.InOrder.run`).
Then in a turn no alarm stays behind that the clock has come to (`Alarms.InOrder.turn`), and the alarms go off in the
order of their times (`Alarms.InOrder.settle`). A time that is not a number compares with none, so an alarm that is set
for such a time may be in the way of others.
-/

namespace LockScreen

/-! ## The order of numbers -/

namespace Binary64

/-- The place of a number in the order of all; the infinities lie beyond the rest. What is not a number has none of its
own. -/
def rank : Binary64 → Int
  | .finite negative units _ => signed negative units
  | .infinite negative => signed negative unitLimit
  | .nan => 0

theorem rank_finite_bounds (negative : Bool) {units : Nat} (h : Representable units) :
    signed true unitLimit < signed negative units ∧ signed negative units < signed false unitLimit := by
  have hlt := h.2
  generalize unitLimit = limit at hlt
  cases negative with
  | true =>
    show -(limit : Int) < -(units : Int) ∧ -(units : Int) < limit
    omega
  | false =>
    show -(limit : Int) < units ∧ (units : Int) < limit
    omega

/-- Numbers compare by their places. -/
theorem compare?_eq_some {x y : Binary64} (hx : x ≠ .nan) (hy : y ≠ .nan) :
    x.compare? y = some (compare x.rank y.rank) := by
  cases x with
  | nan => exact absurd rfl hx
  | infinite negative =>
    cases y with
    | nan => exact absurd rfl hy
    | infinite negative' =>
      have hbounds := rank_finite_bounds false representable_zero
      have hlt := hbounds.1.trans hbounds.2
      cases negative with
      | true =>
        cases negative' with
        | true => exact congrArg some (compare_eq_iff_eq.mpr rfl).symm
        | false => exact congrArg some (compare_lt_iff_lt.mpr hlt).symm
      | false =>
        cases negative' with
        | true => exact congrArg some (compare_gt_iff_gt.mpr hlt).symm
        | false => exact congrArg some (compare_eq_iff_eq.mpr rfl).symm
    | finite negative' units' h' =>
      obtain ⟨habove, hbelow⟩ := rank_finite_bounds negative' h'
      cases negative with
      | true => exact congrArg some (compare_lt_iff_lt.mpr habove).symm
      | false => exact congrArg some (compare_gt_iff_gt.mpr hbelow).symm
  | finite negative units h =>
    cases y with
    | nan => exact absurd rfl hy
    | infinite negative' =>
      obtain ⟨habove, hbelow⟩ := rank_finite_bounds negative h
      cases negative' with
      | true => exact congrArg some (compare_gt_iff_gt.mpr habove).symm
      | false => exact congrArg some (compare_lt_iff_lt.mpr hbelow).symm
    | finite negative' units' h' => rfl

end Binary64

variable {α : Type}

/-- What comes after a time that lies ahead of the clock lies ahead too. -/
theorem Clock.isAhead_of_rank_le {now time later : Binary64} (hahead : isAhead now time = true)
    (hle : time.rank ≤ later.rank) (hlater : later ≠ .nan) : isAhead now later = true := by
  unfold isAhead at hahead ⊢
  by_cases htime : time = .nan
  · rw [htime] at hahead
    cases hahead
  · generalize now.add nanosecond = edge at hahead ⊢
    by_cases hedge : edge = .nan
    · rw [hedge] at hahead
      cases time <;> cases hahead
    · rw [Binary64.compare?_eq_some htime hedge] at hahead
      rw [Binary64.compare?_eq_some hlater hedge]
      have hge : (compare time.rank edge.rank).isGE = true := hahead
      show (compare later.rank edge.rank).isGE = true
      rw [Ordering.isGE_iff_ne_lt] at hge ⊢
      intro hlt
      exact hge (compare_lt_iff_lt.mpr (lt_of_le_of_lt hle (compare_lt_iff_lt.mp hlt)))

namespace Alarm

/-- The place of an alarm in the order of all. -/
def rank (p : Alarm α) : Int :=
  p.due.value.rank

/-- The alarms in a heap are set for numbers, and none is due before its parent. -/
structure InOrder (pending : Heap (Alarm α)) : Prop where
  numbers : ∀ p ∈ pending.items, p.due.value ≠ .nan
  ordered : Heap.Ordered rank pending.items

theorem keyedBy_of_numbers {items : Array (Alarm α)} (h : ∀ p ∈ items, p.due.value ≠ .nan) :
    Heap.KeyedBy earlier rank items := by
  intro p hp q hq
  unfold earlier rank
  rw [Binary64.compare?_eq_some (h p hp) (h q hq), ← compare_lt_iff_lt]
  cases compare p.due.value.rank q.due.value.rank <;> simp [Ordering.isLT]

variable {pending rest : Heap (Alarm α)} {first : Alarm α}

theorem InOrder.pop? (h : InOrder pending) (hpop : pending.pop? earlier = some (first, rest)) :
    InOrder rest ∧ ∀ p ∈ pending.items, first.rank ≤ p.rank := by
  obtain ⟨hordered, hleast⟩ := Heap.ordered_of_pop? h.ordered (keyedBy_of_numbers h.numbers) hpop
  refine ⟨⟨?_, hordered⟩, hleast⟩
  intro p hp
  refine h.numbers p (Array.mem_def.mpr ?_)
  exact (Heap.toList_perm_of_pop? hpop).mem_iff.mpr (List.mem_cons_of_mem first (Array.mem_def.mp hp))

theorem InOrder.push (h : InOrder pending) {p : Alarm α} (hp : p.due.value ≠ .nan) :
    InOrder (pending.push earlier p) := by
  have hnumbers : ∀ q ∈ pending.items.push p, q.due.value ≠ .nan := by
    intro q hq
    rcases Array.mem_push.mp hq with hq | rfl
    · exact h.numbers q hq
    · exact hp
  refine ⟨?_, Heap.ordered_push h.ordered (keyedBy_of_numbers hnumbers)⟩
  intro q hq
  rcases List.mem_cons.mp ((Heap.toList_push_perm earlier pending p).mem_iff.mp (Array.mem_def.mp hq)) with rfl | hq
  · exact hp
  · exact h.numbers q (Array.mem_def.mpr hq)

theorem InOrder.map_cancelIf (h : InOrder pending) (id : Nat) : InOrder (pending.map (cancelIf id)) := by
  refine ⟨?_, ?_⟩
  · intro p hp
    obtain ⟨q, hq, rfl⟩ := Array.mem_map.mp hp
    exact h.numbers q hq
  · intro i p hi hp hparent
    simp only [Heap.map, Array.getElem_map]
    exact h.ordered i p _ _ hparent

theorem InOrder.withoutCancelled (h : InOrder pending) : InOrder (withoutCancelled pending) := by
  fun_induction Alarm.withoutCancelled pending with
  | case1 pending hpop => exact h
  | case2 pending first rest hpop _ hcancelled ih => exact ih (h.pop? hpop).1
  | case3 pending first rest hpop _ hcancelled => exact h

/-- The alarms that leave the heap come in the order of their times, before all that stay in it. Those lie ahead. -/
theorem InOrder.takeFirst (h : InOrder pending) (now : Seconds) :
    InOrder (takeFirst now pending).2 ∧ (takeFirst now pending).1.Pairwise (fun p q => p.rank ≤ q.rank) ∧
      (∀ p ∈ (takeFirst now pending).1, ∀ q ∈ (takeFirst now pending).2.items, p.rank ≤ q.rank) ∧
      ∀ q ∈ (takeFirst now pending).2.items, Clock.isAhead now.value q.due.value = true := by
  fun_induction Alarm.takeFirst now pending with
  | case1 pending hpop =>
    exact ⟨h, .nil, fun p hp => absurd hp List.not_mem_nil, fun q hq => absurd hq (Heap.not_mem_of_pop?_eq_none hpop q)⟩
  | case2 pending first rest hpop _ hahead =>
    refine ⟨h, .nil, fun p hp => absurd hp List.not_mem_nil, ?_⟩
    intro q hq
    exact Clock.isAhead_of_rank_le hahead ((h.pop? hpop).2 q hq) (h.numbers q hq)
  | case3 pending first rest hpop _ hahead others left hrest ih =>
    obtain ⟨hordered, hleast⟩ := h.pop? hpop
    have hothers := Alarm.takeFirst_perm now rest
    obtain ⟨hleft, hpairwise, hbefore, hleftAhead⟩ := ih hordered
    rw [hrest] at hleft hpairwise hbefore hleftAhead hothers
    have hfirst : ∀ p ∈ others ++ left.toList, first.rank ≤ p.rank := by
      intro p hp
      refine hleast p (Array.mem_def.mpr ?_)
      exact (Heap.toList_perm_of_pop? hpop).mem_iff.mpr (List.mem_cons_of_mem first (hothers.mem_iff.mpr hp))
    refine ⟨hleft, List.pairwise_cons.mpr ⟨?_, hpairwise⟩, ?_, hleftAhead⟩
    · intro p hp
      exact hfirst p (List.mem_append_left _ hp)
    · intro p hp q hq
      rcases List.mem_cons.mp hp with rfl | hp
      · exact hfirst q (List.mem_append_right others (Array.mem_def.mp hq))
      · exact hbefore p hp q hq

end Alarm

namespace Alarms

/-- The heap of a loop is in order. -/
def InOrder (a : Alarms α) : Prop :=
  Alarm.InOrder a.pending

variable {a : Alarms α}

theorem inOrder_nil (now : Seconds) : InOrder ({ now } : Alarms α) where
  numbers _ hp := absurd hp (Array.not_mem_empty _)
  ordered i _ hi := absurd hi (Nat.not_lt_zero i)

/-- A step keeps the heap in order unless it sets an alarm for a time that is not a number. -/
theorem InOrder.act (h : a.InOrder) {s : Step α} (hs : ∀ due task, s = .call (.armAt due task) → due.value ≠ .nan) :
    (a.act s).2.InOrder := by
  cases s with
  | call c =>
    cases c with
    | armAt due task => exact Alarm.InOrder.push h (hs due task rfl)
    | cancel id => exact Alarm.InOrder.map_cancelIf h id
  | collect => exact ((Alarm.InOrder.withoutCancelled h).takeFirst a.now).1
  | setNow time => exact h
  | goOff =>
    show Alarm.InOrder a.goOff.2.pending
    unfold goOff
    split
    · exact h
    · exact h

/-- So does a run. -/
theorem InOrder.run (h : a.InOrder) {steps : List (Step α)}
    (hsteps : ∀ due task, .call (.armAt due task) ∈ steps → due.value ≠ .nan) : (a.run steps).2.InOrder := by
  induction steps generalizing a with
  | nil => exact h
  | cons s rest ih =>
    refine ih (h.act ?_) fun due task hmem => hsteps due task (List.mem_cons_of_mem s hmem)
    rintro due task rfl
    exact hsteps due task List.mem_cons_self

/-! ## Turns in which nothing is set -/

/-- What goes off in a turn is what has left the heap in it. -/
theorem leaving_collect_setNow (hleaving : a.leaving = []) (time : Seconds) :
    (a.setNow time).collect.leaving = (Alarm.takeFirst time (Alarm.withoutCancelled a.pending)).1 := by
  show a.leaving ++ _ = _
  rw [hleaving]
  rfl

/-- In a turn the alarms go off in the order of their times, before all that stay in the heap. Those lie ahead. -/
theorem InOrder.turn (h : a.InOrder) (hleaving : a.leaving = []) {time : Seconds} {gone : List (Timer α Seconds)}
    {next : Alarms α} (hturn : (a.setNow time).collect.release = (gone, next)) :
    next.InOrder ∧ gone.Pairwise (fun t u => t.due.value.rank ≤ u.due.value.rank) ∧
      (∀ t ∈ gone, ∀ q ∈ next.pending.items, t.due.value.rank ≤ q.rank) ∧
      ∀ q ∈ next.pending.items, Clock.isAhead time.value q.due.value = true := by
  cases hturn
  obtain ⟨hleft, hpairwise, hbefore, hahead⟩ := (Alarm.InOrder.withoutCancelled h).takeFirst time
  refine ⟨hleft, ?_, ?_, hahead⟩
  · rw [leaving_collect_setNow hleaving]
    exact (hpairwise.filter _).map _ fun _ _ hle => hle
  · intro t ht q hq
    rw [leaving_collect_setNow hleaving] at ht
    obtain ⟨p, hp, rfl⟩ := List.mem_map.mp ht
    exact hbefore p (List.mem_filter.mp hp).1 q hq

/-- What goes off in a turn was in the heap, and so was what stays in it. -/
theorem mem_pending_of_turn (hleaving : a.leaving = []) {time : Seconds} {gone : List (Timer α Seconds)}
    {next : Alarms α} (hturn : (a.setNow time).collect.release = (gone, next)) :
    (∀ t ∈ gone, ∃ p ∈ a.pending.items, p.toTimer = t) ∧ (∀ q ∈ next.pending.items, q ∈ a.pending.items) ∧
      next.leaving = [] := by
  cases hturn
  obtain ⟨dropped, hkept, _⟩ := Alarm.withoutCancelled_perm a.pending
  have htaken := hkept.trans ((Alarm.takeFirst_perm time (Alarm.withoutCancelled a.pending)).append_left dropped)
  have hmem {p : Alarm α} (hp : p ∈ (Alarm.takeFirst time (Alarm.withoutCancelled a.pending)).1 ++
      (Alarm.takeFirst time (Alarm.withoutCancelled a.pending)).2.toList) : p ∈ a.pending.items :=
    Array.mem_def.mpr (htaken.mem_iff.mpr (List.mem_append_right dropped hp))
  refine ⟨?_, ?_, rfl⟩
  · intro t ht
    rw [leaving_collect_setNow hleaving] at ht
    obtain ⟨p, hp, rfl⟩ := List.mem_map.mp ht
    exact ⟨p, hmem (List.mem_append_left _ (List.mem_filter.mp hp).1), rfl⟩
  · intro q hq
    exact hmem (List.mem_append_right _ (Array.mem_def.mp hq))

/-- On the way to a moment the alarms go off in the order of their times. -/
theorem InOrder.settle (h : a.InOrder) (hleaving : a.leaving = []) (goal : Seconds) :
    (a.settle goal).1.Pairwise (fun t u => t.due.value.rank ≤ u.due.value.rank) ∧
      ∀ t ∈ (a.settle goal).1, ∃ p ∈ a.pending.items, p.toTimer = t := by
  fun_induction Alarms.settle a goal with
  | case1 a hfirst => exact ⟨.nil, fun t ht => absurd ht List.not_mem_nil⟩
  | case2 a first hfirst hreached gone next hturn hsmaller others last hrest ih =>
    obtain ⟨hnext, hgone, hbefore, _⟩ := h.turn hleaving hturn
    obtain ⟨hwas, hstays, hnone⟩ := mem_pending_of_turn hleaving hturn
    obtain ⟨hothers, hlater⟩ := ih hnext hnone
    rw [hrest] at hothers hlater
    refine ⟨List.pairwise_append.mpr ⟨hgone, hothers, ?_⟩, ?_⟩
    · intro t ht u hu
      obtain ⟨q, hq, rfl⟩ := hlater u hu
      exact hbefore t ht q hq
    · intro t ht
      rcases List.mem_append.mp ht with ht | ht
      · exact hwas t ht
      · obtain ⟨q, hq, rfl⟩ := hlater t ht
        exact ⟨q, hstays q hq, rfl⟩
  | case3 a first hfirst hreached gone next hturn hsmaller =>
    exact ⟨(h.turn hleaving hturn).2.1, (mem_pending_of_turn hleaving hturn).1⟩
  | case4 => exact ⟨.nil, fun t ht => absurd ht List.not_mem_nil⟩

end Alarms

end LockScreen
