import LockScreen.Timing.Agenda
import Mathlib.Data.List.Nodup
import Mathlib.Logic.Function.Basic

/-!
# Agendas whose timers are held

Whoever sets a timer keeps its number, one number for each task, and gives the number up when the timer is
cancelled or goes off. `Agenda.HeldBy` says that this is done without a slip: the numbers that are kept are
those of the pending timers. Setting, cancelling and firing preserve it, so at most one timer of a task is
pending at any time.
-/

namespace LockScreen.Agenda

/-! ## The row of timers -/

section
variable {α τ : Type}

theorem place_perm [LE τ] [DecidableLE τ] (t : Timer α τ) (ts : List (Timer α τ)) : (place t ts).Perm (t :: ts) := by
  induction ts with
  | nil => exact .refl _
  | cons u rest ih =>
    unfold place
    split
    · exact (ih.cons u).trans (.swap t u rest)
    · exact .refl _

/-- A timer that is put in counts only among those of its kind. -/
theorem filter_place_of_not [LE τ] [DecidableLE τ] {t : Timer α τ} {p : Timer α τ → Bool} (h : p t = false)
    (ts : List (Timer α τ)) : (place t ts).filter p = ts.filter p := by
  induction ts with
  | nil => simp [place, h]
  | cons u rest ih =>
    unfold place
    split
    · rw [List.filter_cons, List.filter_cons, ih]
    · rw [List.filter_cons_of_neg (by simp [h])]

theorem holds_of_mem {a : Agenda α τ} {t : Timer α τ} (h : t ∈ a.timers) : a.holds t.id = true :=
  holds_eq_true_iff.mpr ⟨t, h, rfl⟩

/-- What is due is pending. -/
theorem mem_timers_of_mem_dueBy [LE τ] [DecidableLE τ] {a : Agenda α τ} {time : τ} {t : Timer α τ}
    (h : t ∈ a.dueBy time) : t ∈ a.timers :=
  (List.mem_filter.mp h).1

/-- No number is given back. -/
theorem nextId_cancel? (a : Agenda α τ) (id? : Option Nat) : (a.cancel? id?).nextId = a.nextId := by
  cases id? with
  | none => rfl
  | some id => rfl

/-- The clock stays where it is. -/
theorem now_cancel? (a : Agenda α τ) (id? : Option Nat) : (a.cancel? id?).now = a.now := by
  cases id? with
  | none => rfl
  | some id => rfl

theorem mem_timers_of_mem_cancel? {a : Agenda α τ} {id? : Option Nat} {t : Timer α τ}
    (h : t ∈ (a.cancel? id?).timers) : t ∈ a.timers := by
  cases id? with
  | none => exact h
  | some id => exact (mem_timers_cancel.mp h).1

end

/-! ## Numbers that are kept -/

variable {α τ : Type}

/-- For each task the number that is kept is that of the one pending timer of the task, and every pending
timer has its number kept. Numbers tell timers apart, and a new one is not among them. -/
structure HeldBy (a : Agenda α τ) (handle : α → Option Nat) : Prop where
  held : ∀ t ∈ a.timers, handle t.task = some t.id
  pending : ∀ task id, handle task = some id → ∃ t ∈ a.timers, t.id = id ∧ t.task = task
  distinct : (a.timers.map (·.id)).Nodup
  numbered : ∀ t ∈ a.timers, t.id < a.nextId

/-- Where nothing is pending no number is kept. -/
theorem heldBy_nil (now : τ) {handle : α → Option Nat} (hnone : ∀ task, handle task = none) :
    HeldBy { now } handle := by
  refine ⟨nofun, ?_, List.nodup_nil, nofun⟩
  intro task id hid
  rw [hnone] at hid
  cases hid

namespace HeldBy

variable {a : Agenda α τ} {handle : α → Option Nat}

/-- Two pending timers of one number are the same. -/
theorem eq_of_id (h : a.HeldBy handle) {t u : Timer α τ} (ht : t ∈ a.timers) (hu : u ∈ a.timers)
    (hid : t.id = u.id) : t = u :=
  List.inj_on_of_nodup_map h.distinct ht hu hid

/-- A timer that was pending before some timers went is still pending if its number is held: a number is not given
twice, so who has it now is the timer that had it. -/
theorem mem_timers_of_holds (h : a.HeldBy handle) {b : Agenda α τ} (hleft : ∀ u ∈ b.timers, u ∈ a.timers)
    {t : Timer α τ} (ht : a.holds t.id = true → t ∈ a.timers) (hheld : b.holds t.id = true) : t ∈ b.timers := by
  obtain ⟨u, hu, hid⟩ := holds_eq_true_iff.mp hheld
  have hpending := hleft u hu
  have htpending := ht (holds_eq_true_iff.mpr ⟨u, hpending, hid⟩)
  rw [← h.eq_of_id hpending htpending hid]
  exact hu

/-- Two pending timers of one task are the same. -/
theorem eq_of_task (h : a.HeldBy handle) {t u : Timer α τ} (ht : t ∈ a.timers) (hu : u ∈ a.timers)
    (htask : t.task = u.task) : t = u := by
  have hheld := h.held t ht
  rw [htask, h.held u hu] at hheld
  exact h.eq_of_id ht hu (Option.some.inj hheld).symm

/-- No task has two pending timers. -/
theorem nodup_task (h : a.HeldBy handle) : (a.timers.map (·.task)).Nodup := by
  refine List.Nodup.map_on ?_ h.distinct.of_map
  intro t ht u hu htask
  exact h.eq_of_task ht hu htask

/-- A task has a number kept exactly while a timer of it is pending. -/
theorem isSome_iff (h : a.HeldBy handle) (task : α) :
    (handle task).isSome = true ↔ ∃ t ∈ a.timers, t.task = task := by
  rw [Option.isSome_iff_exists]
  constructor
  · rintro ⟨id, hid⟩
    obtain ⟨t, ht, _, htask⟩ := h.pending task id hid
    exact ⟨t, ht, htask⟩
  · rintro ⟨t, ht, rfl⟩
    exact ⟨t.id, h.held t ht⟩

/-- Where no number is kept, no timer is pending. -/
theorem timers_eq_nil (h : a.HeldBy handle) (hnone : ∀ task, handle task = none) :
    a.timers = [] := by
  refine List.eq_nil_iff_forall_not_mem.mpr ?_
  intro t ht
  have hheld := h.held t ht
  rw [hnone] at hheld
  cases hheld

/-- A timer is the only one that is pending of its task. -/
theorem filter_task [DecidableEq α] (h : a.HeldBy handle) {t : Timer α τ} (ht : t ∈ a.timers) :
    a.timers.filter (·.task = t.task) = [t] := by
  have hmem : t ∈ a.timers.filter (·.task = t.task) := List.mem_filter.mpr ⟨ht, decide_eq_true rfl⟩
  have honly : ∀ u ∈ a.timers.filter (·.task = t.task), u = t := by
    intro u hu
    obtain ⟨hpending, htask⟩ := List.mem_filter.mp hu
    exact h.eq_of_task hpending ht (of_decide_eq_true htask)
  have hrow := List.eq_replicate_of_mem honly
  have hnodup := h.distinct.of_map.filter (·.task = t.task)
  rw [hrow] at hnodup
  have hlength := List.nodup_replicate.mp hnodup
  have hpos := List.length_pos_of_mem hmem
  rw [hrow, Nat.le_antisymm hlength hpos]
  rfl

/-- A timer is the only one that is pending where no other task keeps a number. -/
theorem timers_eq_singleton [DecidableEq α] (h : a.HeldBy handle) {t : Timer α τ} (ht : t ∈ a.timers)
    (hnone : ∀ task, task ≠ t.task → handle task = none) : a.timers = [t] := by
  rw [← h.filter_task ht]
  refine (List.filter_eq_self.mpr ?_).symm
  intro u hu
  by_contra hother
  have hheld := h.held u hu
  rw [hnone u.task (by simpa using hother)] at hheld
  cases hheld

/-- Where a task keeps no number, no timer of it is pending. -/
theorem filter_task_of_eq_none [DecidableEq α] (h : a.HeldBy handle) {task : α} (hnone : handle task = none) :
    a.timers.filter (·.task = task) = [] := by
  refine List.filter_eq_nil_iff.mpr ?_
  intro t ht htask
  have hheld := h.held t ht
  rw [of_decide_eq_true htask, hnone] at hheld
  cases hheld

/-- The clock has no part in it. -/
theorem setNow (h : a.HeldBy handle) (time : τ) : (a.setNow time).HeldBy handle :=
  ⟨h.held, h.pending, h.distinct, h.numbered⟩

variable [DecidableEq α]

/-- After a task gives up its number and cancels the timer of it, the others keep theirs. -/
theorem cancel? (h : a.HeldBy handle) (task : α) :
    (a.cancel? (handle task)).HeldBy (Function.update handle task none) := by
  cases hid : handle task with
  | none =>
    have hsame : Function.update handle task none = handle := by
      rw [← hid]
      exact Function.update_eq_self task handle
    rw [hsame]
    exact h
  | some id =>
    obtain ⟨own, hown, hownId, hownTask⟩ := h.pending task id hid
    have hmem : ∀ {t}, t ∈ (a.cancel id).timers ↔ t ∈ a.timers ∧ t.id ≠ id := mem_timers_cancel
    refine ⟨?_, ?_, ?_, ?_⟩
    · intro t ht
      obtain ⟨ht, hne⟩ := hmem.mp ht
      have hother : t.task ≠ task := by
        intro htask
        exact hne (h.eq_of_task ht hown (htask.trans hownTask.symm) ▸ hownId)
      rw [Function.update_of_ne hother]
      exact h.held t ht
    · intro other otherId hother
      have hne : other ≠ task := by
        rintro rfl
        rw [Function.update_self] at hother
        cases hother
      rw [Function.update_of_ne hne] at hother
      obtain ⟨t, ht, htId, htTask⟩ := h.pending other otherId hother
      refine ⟨t, hmem.mpr ⟨ht, ?_⟩, htId, htTask⟩
      -- a timer of the cancelled number would be the one of the cancelled task
      intro heq
      have hsame := h.eq_of_id ht hown (heq.trans hownId.symm)
      exact hne (htTask.symm.trans (hsame ▸ hownTask))
    · exact h.distinct.sublist (List.filter_sublist.map _)
    · intro t ht
      exact h.numbered t (hmem.mp ht).1

/-- The timers of the other tasks stay pending where a task gives up its own. -/
theorem filter_ne_cancel? (h : a.HeldBy handle) (task : α) :
    (a.cancel? (handle task)).timers.filter (·.task ≠ task) = a.timers.filter (·.task ≠ task) := by
  cases hid : handle task with
  | none => rfl
  | some id =>
    obtain ⟨own, hown, hownId, hownTask⟩ := h.pending task id hid
    show (a.timers.filter (·.id ≠ id)).filter (·.task ≠ task) = _
    rw [List.filter_filter]
    refine List.filter_congr ?_
    intro t ht
    by_cases htask : t.task = task
    · simp [htask]
    · -- a timer of the number would be the task's own
      have hother : t.id ≠ id := by
        intro heq
        exact htask (h.eq_of_id ht hown (heq.trans hownId.symm) ▸ hownTask)
      simp [htask, hother]

/-- A task that keeps no number may set a timer and keep the number of it. -/
theorem armAt [LE τ] [DecidableLE τ] (h : a.HeldBy handle) (task : α) (hnone : handle task = none) (due : τ) :
    (a.armAt due task).HeldBy (Function.update handle task (some a.nextId)) := by
  have hperm := place_perm ⟨due, a.nextId, task⟩ a.timers
  have hother : ∀ t ∈ a.timers, t.task ≠ task := by
    intro t ht htask
    have hheld := h.held t ht
    rw [htask, hnone] at hheld
    cases hheld
  refine ⟨?_, ?_, ?_, ?_⟩
  · intro t ht
    rcases mem_timers_armAt.mp ht with rfl | ht
    · exact Function.update_self ..
    · rw [Function.update_of_ne (hother t ht)]
      exact h.held t ht
  · intro other id hid
    by_cases htask : other = task
    · subst htask
      rw [Function.update_self] at hid
      exact ⟨_, mem_timers_armAt.mpr (.inl rfl), Option.some.inj hid, rfl⟩
    · rw [Function.update_of_ne htask] at hid
      obtain ⟨t, ht, htId⟩ := h.pending other id hid
      exact ⟨t, mem_timers_armAt.mpr (.inr ht), htId⟩
  · have hids := hperm.map (·.id)
    refine hids.nodup_iff.mpr (List.nodup_cons.mpr ⟨?_, h.distinct⟩)
    -- the new number is above all that were given
    intro hmem
    obtain ⟨t, ht, htId⟩ := List.mem_map.mp hmem
    have hlt := h.numbered t ht
    rw [htId] at hlt
    exact Nat.lt_irrefl _ hlt
  · intro t ht
    show t.id < a.nextId + 1
    rcases mem_timers_armAt.mp ht with rfl | ht
    · exact Nat.lt_succ_self _
    · exact Nat.lt_succ_of_lt (h.numbered t ht)

/-- A timer that fires leaves the agenda, and its task gives up the number. -/
theorem fire (h : a.HeldBy handle) {t : Timer α τ} (ht : t ∈ a.timers) :
    (a.fire t).HeldBy (Function.update handle t.task none) := by
  have hcancel := h.cancel? t.task
  rw [h.held t ht] at hcancel
  exact hcancel.setNow t.due

end HeldBy

end LockScreen.Agenda
