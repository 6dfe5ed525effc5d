import LockScreen.Proofs.Json.Values
import LockScreen.Proofs.Timing.Holding
import LockScreen.Timing.NamedAlarms

/-!
# Alarms as an agenda

An event loop keeps its alarms in a heap, leaves cancelled ones in it for a while, and takes those that are due out
before they go off. All that shows of this is an agenda (`Alarms.Keeps`): the alarms that may still go off are its
timers. A call does to the alarms what it does to the agenda, an alarm that goes off is a timer that is pending, and
the rest of a turn shows nothing, so the alarms keep an agenda through every run (`Alarms.keeps_run`).

What goes off was set before and not cancelled since (`Agenda.Runs.mem_of_gone`, `Agenda.Runs.ne_of_cancelled`), it
does so once (`Alarms.Keeps.nodup_gone`), and not before the clock has come to it (`Alarms.not_isAhead_of_mem_run`).
What is done with alarms under names is such a run (`NamedAlarms.exists_run_step`).
-/

namespace LockScreen

variable {α : Type}

namespace Alarm

/-! ## The heap -/

/-- The timers of the alarms that are not cancelled. -/
def timers (ps : List (Alarm α)) : List (Timer α Seconds) :=
  (ps.filter (!·.cancelled)).map (·.toTimer)

theorem timers_perm {ps qs : List (Alarm α)} (h : ps.Perm qs) : (timers ps).Perm (timers qs) :=
  (h.filter _).map _

theorem timers_append (ps qs : List (Alarm α)) : timers (ps ++ qs) = timers ps ++ timers qs := by
  simp [timers]

theorem timers_eq_nil {ps : List (Alarm α)} (h : ∀ p ∈ ps, p.cancelled = true) : timers ps = [] := by
  simp only [timers, List.map_eq_nil_iff, List.filter_eq_nil_iff]
  intro p hp
  simp [h p hp]

theorem timers_cons (p : Alarm α) (ps : List (Alarm α)) :
    timers (p :: ps) = if p.cancelled then timers ps else p.toTimer :: timers ps := by
  by_cases hcancelled : p.cancelled = true
  · simp [timers, hcancelled]
  · simp [timers, hcancelled]

/-- A cancelled number leaves the timers of all others. -/
theorem timers_map_cancelIf (id : Nat) (ps : List (Alarm α)) :
    timers (ps.map (cancelIf id)) = (timers ps).filter (·.id ≠ id) := by
  induction ps with
  | nil => rfl
  | cons p rest ih =>
    rw [List.map_cons, timers_cons, timers_cons, ih]
    by_cases hcancelled : p.cancelled = true
    · simp [cancelIf, hcancelled]
    · by_cases hid : p.id = id
      · simp [cancelIf, hcancelled, hid]
      · simp [cancelIf, hcancelled, hid]

/-- Only cancelled alarms are dropped from the heap. -/
theorem withoutCancelled_perm (pending : Heap (Alarm α)) : ∃ dropped,
    pending.toList.Perm (dropped ++ (withoutCancelled pending).toList) ∧ ∀ p ∈ dropped, p.cancelled = true := by
  fun_induction withoutCancelled pending with
  | case1 pending hpop => exact ⟨[], .refl _, fun _ hp => absurd hp List.not_mem_nil⟩
  | case2 pending first rest hpop _ hcancelled ih =>
    obtain ⟨dropped, hperm, hdropped⟩ := ih
    refine ⟨first :: dropped, (Heap.toList_perm_of_pop? hpop).trans (hperm.cons first), ?_⟩
    intro p hp
    rcases List.mem_cons.mp hp with rfl | hp
    · exact hcancelled
    · exact hdropped p hp
  | case3 pending first rest hpop _ hcancelled => exact ⟨[], .refl _, fun _ hp => absurd hp List.not_mem_nil⟩

/-- What leaves the heap was in it, which keeps the rest. -/
theorem takeFirst_perm (now : Seconds) (pending : Heap (Alarm α)) :
    pending.toList.Perm ((takeFirst now pending).1 ++ (takeFirst now pending).2.toList) := by
  fun_induction takeFirst now pending with
  | case1 pending hpop => exact .refl _
  | case2 pending first rest hpop _ hahead => exact .refl _
  | case3 pending first rest hpop _ hahead others left hrest ih =>
    rw [hrest] at ih
    exact (Heap.toList_perm_of_pop? hpop).trans (ih.cons first)

/-- The clock has come to what leaves the heap. -/
theorem not_isAhead_of_mem_takeFirst {now : Seconds} {pending : Heap (Alarm α)} {p : Alarm α}
    (hp : p ∈ (takeFirst now pending).1) : Clock.isAhead now.value p.due.value = false := by
  fun_induction takeFirst now pending with
  | case1 pending hpop => cases hp
  | case2 pending first rest hpop _ hahead => cases hp
  | case3 pending first rest hpop _ hahead others left hrest ih =>
    rw [hrest] at ih
    rcases List.mem_cons.mp hp with rfl | hp
    · exact Bool.eq_false_iff.mpr hahead
    · exact ih hp

end Alarm

namespace Alarms

/-! ## The agenda that is kept -/

/-- The alarms that are set, those that have left the heap among them. -/
def all (a : Alarms α) : List (Alarm α) :=
  a.leaving ++ a.pending.toList

/-- The alarms that may still go off are the timers of an agenda. Numbers tell alarms apart, the cancelled ones too,
and a new one is not among them. -/
structure Keeps (a : Alarms α) (g : Agenda α Seconds) : Prop where
  now : a.now = g.now
  nextId : a.nextId = g.nextId
  timers : (Alarm.timers a.all).Perm g.timers
  distinct : (a.all.map (·.id)).Nodup
  numbered : ∀ p ∈ a.all, p.id < a.nextId

/-- At first there are none. -/
theorem keeps_nil (now : Seconds) : Keeps { now } ({ now } : Agenda α Seconds) :=
  ⟨rfl, rfl, .refl _, List.nodup_nil, fun _ hp => absurd hp List.not_mem_nil⟩

/-- Where the alarms are rearranged, and only cancelled ones lost, the agenda stays. -/
theorem Keeps.of_perm {a b : Alarms α} {g : Agenda α Seconds} (h : a.Keeps g) {dropped : List (Alarm α)}
    (hperm : a.all.Perm (dropped ++ b.all)) (hdropped : ∀ p ∈ dropped, p.cancelled = true) (hnow : b.now = a.now)
    (hnext : b.nextId = a.nextId) : b.Keeps g := by
  refine ⟨hnow.trans h.now, hnext.trans h.nextId, ?_, ?_, ?_⟩
  · have htimers := Alarm.timers_perm hperm
    rw [Alarm.timers_append, Alarm.timers_eq_nil hdropped] at htimers
    exact htimers.symm.trans h.timers
  · have hdistinct := (hperm.map (·.id)).nodup_iff.mp h.distinct
    rw [List.map_append] at hdistinct
    exact hdistinct.of_append_right
  · intro p hp
    rw [hnext]
    exact h.numbered p (hperm.mem_iff.mpr (List.mem_append_right dropped hp))

/-! ## Calls -/

/-- The alarms after a call. -/
def make (a : Alarms α) : Agenda.Call α Seconds → Alarms α
  | .armAt due task => a.set due task
  | .cancel id => a.cancel id

theorem keeps_set {a : Alarms α} {g : Agenda α Seconds} (h : a.Keeps g) (due : Seconds) (task : α) :
    (a.set due task).Keeps (g.armAt due task) := by
  have hall : (a.set due task).all.Perm ({ due, id := a.nextId, task } :: a.all) :=
    ((Heap.toList_push_perm _ _ _).append_left a.leaving).trans List.perm_middle
  refine ⟨h.now, congrArg (· + 1) h.nextId, ?_, ?_, ?_⟩
  · refine (Alarm.timers_perm hall).trans ?_
    refine .trans ?_ (Agenda.place_perm _ _).symm
    rw [← h.nextId]
    exact h.timers.cons _
  · refine (hall.map (·.id)).nodup_iff.mpr (List.nodup_cons.mpr ⟨?_, h.distinct⟩)
    -- the new number is above all that were given
    intro hmem
    obtain ⟨p, hp, hid⟩ := List.mem_map.mp hmem
    have hlt := h.numbered p hp
    rw [hid] at hlt
    exact Nat.lt_irrefl _ hlt
  · intro p hp
    show p.id < a.nextId + 1
    rcases List.mem_cons.mp (hall.mem_iff.mp hp) with rfl | hp
    · exact Nat.lt_succ_self _
    · exact Nat.lt_succ_of_lt (h.numbered p hp)

theorem all_cancel (a : Alarms α) (id : Nat) : (a.cancel id).all = a.all.map (Alarm.cancelIf id) := by
  simp [all, cancel, Heap.map, Heap.toList]

theorem keeps_cancel {a : Alarms α} {g : Agenda α Seconds} (h : a.Keeps g) (id : Nat) :
    (a.cancel id).Keeps (g.cancel id) := by
  refine ⟨h.now, h.nextId, ?_, ?_, ?_⟩
  · rw [all_cancel, Alarm.timers_map_cancelIf]
    exact h.timers.filter _
  · rw [all_cancel, List.map_map]
    exact h.distinct
  · rw [all_cancel]
    intro p hp
    obtain ⟨q, hq, rfl⟩ := List.mem_map.mp hp
    exact h.numbered q hq

theorem keeps_make {a : Alarms α} {g : Agenda α Seconds} (h : a.Keeps g) (c : Agenda.Call α Seconds) :
    (a.make c).Keeps (g.make c) := by
  cases c with
  | armAt due task => exact keeps_set h due task
  | cancel id => exact keeps_cancel h id

theorem keeps_foldl_make {a : Alarms α} {g : Agenda α Seconds} (h : a.Keeps g) (calls : List (Agenda.Call α Seconds)) :
    (calls.foldl make a).Keeps (calls.foldl Agenda.make g) := by
  induction calls generalizing a g with
  | nil => exact h
  | cons c rest ih => exact ih (keeps_make h c)

/-! ## Turns -/

theorem keeps_setNow {a : Alarms α} {g : Agenda α Seconds} (h : a.Keeps g) (time : Seconds) :
    (a.setNow time).Keeps (g.setNow time) :=
  ⟨rfl, h.nextId, h.timers, h.distinct, h.numbered⟩

/-- That alarms leave the heap shows nothing. -/
theorem keeps_collect {a : Alarms α} {g : Agenda α Seconds} (h : a.Keeps g) : a.collect.Keeps g := by
  obtain ⟨dropped, hperm, hdropped⟩ := Alarm.withoutCancelled_perm a.pending
  refine h.of_perm ?_ hdropped rfl rfl
  have hleft := hperm.trans ((Alarm.takeFirst_perm a.now _).append_left dropped)
  refine (hleft.append_left a.leaving).trans ?_
  unfold all collect
  rw [List.append_assoc]
  exact List.perm_append_comm_assoc _ _ _

/-- The clock has come to the alarms that leave the heap. -/
theorem not_isAhead_of_mem_collect {a : Alarms α} {p : Alarm α} (hp : p ∈ a.collect.leaving) :
    p ∈ a.leaving ∨ Clock.isAhead a.now.value p.due.value = false := by
  rcases List.mem_append.mp hp with hp | hp
  · exact .inl hp
  · exact .inr (Alarm.not_isAhead_of_mem_takeFirst hp)

theorem goOff_of_leaving_eq_nil {a : Alarms α} (h : a.leaving = []) : a.goOff = (none, a) := by
  simp only [goOff, h]

theorem goOff_of_leaving {a : Alarms α} {p : Alarm α} {rest : List (Alarm α)} (h : a.leaving = p :: rest) :
    a.goOff = (if p.cancelled then none else some p.toTimer, { a with leaving := rest }) := by
  simp only [goOff, h]

/-- What goes off is a timer that is pending, and gone from then on. -/
theorem keeps_goOff {a : Alarms α} {g : Agenda α Seconds} (h : a.Keeps g) :
    (∀ t, a.goOff.1 = some t → t ∈ g.timers) ∧ a.goOff.2.Keeps (g.cancel? (a.goOff.1.map (·.id))) := by
  cases hleaving : a.leaving with
  | nil =>
    rw [goOff_of_leaving_eq_nil hleaving]
    refine ⟨?_, h⟩
    intro t ht
    cases ht
  | cons p rest =>
    rw [goOff_of_leaving hleaving]
    have hall : a.all = p :: all { a with leaving := rest } := by simp [all, hleaving]
    by_cases hcancelled : p.cancelled = true
    · rw [if_pos hcancelled]
      have hperm : a.all.Perm ([p] ++ all { a with leaving := rest }) := .of_eq hall
      refine ⟨?_, h.of_perm hperm ?_ rfl rfl⟩
      · intro t ht
        cases ht
      · intro q hq
        rw [List.mem_singleton.mp hq]
        exact hcancelled
    · rw [if_neg hcancelled]
      have htimers := h.timers
      have hdistinct := h.distinct
      rw [hall, Alarm.timers_cons, if_neg hcancelled] at htimers
      rw [hall, List.map_cons, List.nodup_cons] at hdistinct
      refine ⟨?_, h.now, h.nextId, ?_, hdistinct.2, ?_⟩
      · intro t ht
        cases ht
        exact htimers.mem_iff.mp List.mem_cons_self
      · -- numbers are distinct, so no other timer is dropped with it
        have hother : ∀ t ∈ Alarm.timers (all { a with leaving := rest }), t.id ≠ p.id := by
          intro t ht hid
          obtain ⟨q, hq, rfl⟩ := List.mem_map.mp ht
          exact hdistinct.1 (List.mem_map.mpr ⟨q, (List.mem_filter.mp hq).1, hid⟩)
        have hfiltered := htimers.filter (·.id ≠ p.id)
        rw [List.filter_cons_of_neg (by simp), List.filter_eq_self.mpr (by simpa using hother)] at hfiltered
        exact hfiltered
      · intro q hq
        refine h.numbered q ?_
        rw [hall]
        exact List.mem_cons_of_mem p hq

/-! ## Runs -/

/-- What happens to the alarms of a loop. -/
inductive Step (α : Type)
  | call (c : Agenda.Call α Seconds)
  | collect
  | goOff
  | setNow (time : Seconds)

/-- What goes off in a step, and the alarms after it. -/
def act (a : Alarms α) : Step α → Option (Timer α Seconds) × Alarms α
  | .call c => (none, a.make c)
  | .collect => (none, a.collect)
  | .goOff => a.goOff
  | .setNow time => (none, a.setNow time)

/-- What goes off in a run, and the alarms after it. -/
def run (a : Alarms α) : List (Step α) → List (Timer α Seconds) × Alarms α
  | [] => ([], a)
  | s :: rest =>
    let (gone, next) := a.act s
    let (others, last) := next.run rest
    (gone.toList ++ others, last)

theorem run_cons (a : Alarms α) (s : Step α) (rest : List (Step α)) :
    a.run (s :: rest) = ((a.act s).1.toList ++ ((a.act s).2.run rest).1, ((a.act s).2.run rest).2) :=
  rfl

theorem run_append (a : Alarms α) (before after : List (Step α)) :
    a.run (before ++ after) =
      ((a.run before).1 ++ ((a.run before).2.run after).1, ((a.run before).2.run after).2) := by
  induction before generalizing a with
  | nil => rfl
  | cons s rest ih => rw [List.cons_append, run_cons, ih, run_cons, List.append_assoc]

end Alarms

/-- A run of an agenda: the same calls are made, and pending timers go off one by one, when the loop lets them. -/
inductive Agenda.Runs : Agenda α Seconds → List (Alarms.Step α) → List (Timer α Seconds) → Agenda α Seconds → Prop
  | nil (g : Agenda α Seconds) : Runs g [] [] g
  | call {g last : Agenda α Seconds} {rest : List (Alarms.Step α)} {gone : List (Timer α Seconds)}
    (c : Agenda.Call α Seconds) : Runs (g.make c) rest gone last → Runs g (.call c :: rest) gone last
  | collect {g last : Agenda α Seconds} {rest : List (Alarms.Step α)} {gone : List (Timer α Seconds)} :
    Runs g rest gone last → Runs g (.collect :: rest) gone last
  | idle {g last : Agenda α Seconds} {rest : List (Alarms.Step α)} {gone : List (Timer α Seconds)} :
    Runs g rest gone last → Runs g (.goOff :: rest) gone last
  | goOff {g last : Agenda α Seconds} {rest : List (Alarms.Step α)} {gone : List (Timer α Seconds)}
    {t : Timer α Seconds} : t ∈ g.timers → Runs (g.cancel t.id) rest gone last →
      Runs g (.goOff :: rest) (t :: gone) last
  | setNow {g last : Agenda α Seconds} {rest : List (Alarms.Step α)} {gone : List (Timer α Seconds)} (time : Seconds) :
    Runs (g.setNow time) rest gone last → Runs g (.setNow time :: rest) gone last

namespace Alarms

/-- The alarms keep an agenda through every run, and what goes off goes off on the agenda. -/
theorem keeps_run {a : Alarms α} {g : Agenda α Seconds} (h : a.Keeps g) (steps : List (Step α)) :
    ∃ last, g.Runs steps (a.run steps).1 last ∧ (a.run steps).2.Keeps last := by
  induction steps generalizing a g with
  | nil => exact ⟨g, .nil g, h⟩
  | cons s rest ih =>
    rw [run_cons]
    cases s with
    | call c =>
      obtain ⟨last, hruns, hkeeps⟩ := ih (keeps_make h c)
      exact ⟨last, .call c hruns, hkeeps⟩
    | collect =>
      obtain ⟨last, hruns, hkeeps⟩ := ih (keeps_collect h)
      exact ⟨last, .collect hruns, hkeeps⟩
    | setNow time =>
      obtain ⟨last, hruns, hkeeps⟩ := ih (keeps_setNow h time)
      exact ⟨last, .setNow time hruns, hkeeps⟩
    | goOff =>
      obtain ⟨hpending, hafter⟩ := keeps_goOff h
      obtain ⟨last, hruns, hkeeps⟩ := ih hafter
      refine ⟨last, ?_, hkeeps⟩
      cases hgone : a.goOff.1 with
      | none =>
        rw [hgone] at hruns
        simp only [act, hgone]
        exact .idle hruns
      | some t =>
        rw [hgone] at hruns
        simp only [act, hgone]
        exact .goOff (hpending t hgone) hruns

/-- A new number is none of those of an agenda that is kept. -/
theorem Keeps.lt_nextId {a : Alarms α} {g : Agenda α Seconds} (h : a.Keeps g) : ∀ t ∈ g.timers, t.id < g.nextId := by
  intro t ht
  obtain ⟨p, hp, rfl⟩ := List.mem_map.mp (h.timers.mem_iff.mpr ht)
  rw [← h.nextId]
  exact h.numbered p (List.mem_filter.mp hp).1

end Alarms

namespace Agenda

/-- What goes off in a run was pending before it, or is set in it, for the same time and the same task. -/
theorem Runs.mem_of_gone {g last : Agenda α Seconds} {steps : List (Alarms.Step α)} {gone : List (Timer α Seconds)}
    (h : g.Runs steps gone last) {t : Timer α Seconds} (ht : t ∈ gone) :
    t ∈ g.timers ∨ g.nextId ≤ t.id ∧ .call (.armAt t.due t.task) ∈ steps := by
  induction h with
  | nil g => cases ht
  | @call g last rest gone c _ ih =>
    cases c with
    | armAt due task =>
      rcases ih ht with hbefore | ⟨hid, hset⟩
      · rcases mem_timers_armAt.mp hbefore with rfl | hbefore
        · exact .inr ⟨Nat.le_refl _, List.mem_cons_self⟩
        · exact .inl hbefore
      · exact .inr ⟨Nat.le_of_succ_le hid, List.mem_cons_of_mem _ hset⟩
    | cancel id =>
      rcases ih ht with hbefore | ⟨hid, hset⟩
      · exact .inl (mem_timers_cancel.mp hbefore).1
      · exact .inr ⟨hid, List.mem_cons_of_mem _ hset⟩
  | collect _ ih => exact (ih ht).imp_right fun hset => ⟨hset.1, List.mem_cons_of_mem _ hset.2⟩
  | idle _ ih => exact (ih ht).imp_right fun hset => ⟨hset.1, List.mem_cons_of_mem _ hset.2⟩
  | goOff hpending _ ih =>
    rcases List.mem_cons.mp ht with rfl | ht
    · exact .inl hpending
    · exact (ih ht).imp (fun hbefore => (mem_timers_cancel.mp hbefore).1)
        fun hset => ⟨hset.1, List.mem_cons_of_mem _ hset.2⟩
  | setNow time _ ih => exact (ih ht).imp_right fun hset => ⟨hset.1, List.mem_cons_of_mem _ hset.2⟩

/-- What is cancelled does not go off any more. -/
theorem Runs.ne_of_cancelled {g last : Agenda α Seconds} {rest : List (Alarms.Step α)} {gone : List (Timer α Seconds)}
    {id : Nat} (h : (g.cancel id).Runs rest gone last) (hid : id < g.nextId) : ∀ t ∈ gone, t.id ≠ id := by
  intro t ht
  rcases h.mem_of_gone ht with hbefore | ⟨hnew, _⟩
  · exact (mem_timers_cancel.mp hbefore).2
  · exact Nat.ne_of_gt (Nat.lt_of_lt_of_le hid hnew)

/-- Nothing goes off twice. -/
theorem Runs.nodup_gone {g last : Agenda α Seconds} {steps : List (Alarms.Step α)} {gone : List (Timer α Seconds)}
    (h : g.Runs steps gone last) (hnumbered : ∀ t ∈ g.timers, t.id < g.nextId) : (gone.map (·.id)).Nodup := by
  induction h with
  | nil g => exact List.nodup_nil
  | @call g last rest gone c _ ih =>
    refine ih ?_
    cases c with
    | armAt due task =>
      intro t ht
      show t.id < g.nextId + 1
      rcases mem_timers_armAt.mp ht with rfl | hbefore
      · exact Nat.lt_succ_self _
      · exact Nat.lt_succ_of_lt (hnumbered t hbefore)
    | cancel id =>
      intro t ht
      exact hnumbered t (mem_timers_cancel.mp ht).1
  | collect _ ih => exact ih hnumbered
  | idle _ ih => exact ih hnumbered
  | @goOff g last rest gone t hpending hrest ih =>
    refine List.nodup_cons.mpr ⟨?_, ih fun u hu => hnumbered u (mem_timers_cancel.mp hu).1⟩
    intro hmem
    obtain ⟨u, hu, hid⟩ := List.mem_map.mp hmem
    exact hrest.ne_of_cancelled (hnumbered t hpending) u hu hid
  | setNow time _ ih => exact ih hnumbered

end Agenda

namespace Alarms

/-- No alarm goes off twice in a run. -/
theorem Keeps.nodup_gone {a : Alarms α} {g : Agenda α Seconds} (h : a.Keeps g) (steps : List (Step α)) :
    ((a.run steps).1.map (·.id)).Nodup := by
  obtain ⟨last, hruns, _⟩ := keeps_run h steps
  exact hruns.nodup_gone h.lt_nextId

/-- Nothing goes off before the clock has come to it: for each alarm that does, the loop saw a clock that it was not
ahead of, among those of which something is known. -/
theorem not_isAhead_of_mem_run {seen : Seconds → Prop} {a : Alarms α} {steps : List (Step α)} (hnow : seen a.now)
    (hsteps : ∀ time, .setNow time ∈ steps → seen time)
    (hleaving : ∀ p ∈ a.leaving, ∃ now, seen now ∧ Clock.isAhead now.value p.due.value = false) :
    ∀ t ∈ (a.run steps).1, ∃ now, seen now ∧ Clock.isAhead now.value t.due.value = false := by
  induction steps generalizing a with
  | nil => exact fun t ht => absurd ht List.not_mem_nil
  | cons s rest ih =>
    have hrest : ∀ time, .setNow time ∈ rest → seen time := fun time h => hsteps time (List.mem_cons_of_mem s h)
    rw [run_cons]
    cases s with
    | call c =>
      refine ih ?_ hrest ?_
      · cases c with
        | armAt due task => exact hnow
        | cancel id => exact hnow
      · cases c with
        | armAt due task => exact hleaving
        | cancel id =>
          intro p hp
          obtain ⟨q, hq, rfl⟩ := List.mem_map.mp hp
          exact hleaving q hq
    | collect =>
      refine ih hnow hrest ?_
      intro p hp
      rcases not_isAhead_of_mem_collect hp with hbefore | hreached
      · exact hleaving p hbefore
      · exact ⟨a.now, hnow, hreached⟩
    | setNow time => exact ih (hsteps time List.mem_cons_self) hrest hleaving
    | goOff =>
      -- only here something goes off, and the clock had come to it when it left the heap
      cases hleft : a.leaving with
      | nil =>
        simp only [act, goOff_of_leaving_eq_nil hleft]
        exact ih hnow hrest hleaving
      | cons p others =>
        simp only [act, goOff_of_leaving hleft]
        rw [hleft] at hleaving
        intro t ht
        rcases List.mem_append.mp ht with ht | ht
        · obtain ⟨now, hseen, hahead⟩ := hleaving p List.mem_cons_self
          split at ht
          · cases ht
          · rw [List.mem_singleton.mp ht]
            exact ⟨now, hseen, hahead⟩
        · have hothers := fun q hq => hleaving q (List.mem_cons_of_mem p hq)
          exact ih (a := { a with leaving := others }) hnow hrest hothers t ht

/-! ## Turns in which nothing is set -/

/-- All that have left the heap go off one by one. -/
theorem run_goOff (a : Alarms α) : a.run (List.replicate a.leaving.length .goOff) = a.release := by
  obtain ⟨now, nextId, pending, leaving⟩ := a
  induction leaving with
  | nil => rfl
  | cons p rest ih =>
    rw [List.length_cons, List.replicate_succ, run_cons]
    simp only [act, goOff]
    rw [ih]
    by_cases hcancelled : p.cancelled = true
    · simp [release, hcancelled]
    · simp [release, hcancelled]

/-- A turn is a run. -/
theorem exists_run_turn (a : Alarms α) (time : Seconds) : ∃ steps, a.run steps = (a.setNow time).collect.release := by
  refine ⟨.setNow time :: .collect :: List.replicate (a.setNow time).collect.leaving.length .goOff, ?_⟩
  rw [run_cons, run_cons]
  simp only [act]
  rw [run_goOff]
  rfl

/-- The way to a moment is a run. -/
theorem exists_run_settle (a : Alarms α) (goal : Seconds) : ∃ steps, a.run steps = a.settle goal := by
  fun_induction settle a goal with
  | case1 a hfirst => exact ⟨[], rfl⟩
  | case2 a first hfirst hreached gone next hturn hsmaller others last hrest ih =>
    obtain ⟨turn, hturnRun⟩ := a.exists_run_turn ⟨Clock.movedOn a.now.value first.due.value⟩
    obtain ⟨rest, hrestRun⟩ := ih
    refine ⟨turn ++ rest, ?_⟩
    rw [run_append, hturnRun, hturn, hrestRun, hrest]
  | case3 a first hfirst hreached gone next hturn hsmaller =>
    obtain ⟨turn, hturnRun⟩ := a.exists_run_turn ⟨Clock.movedOn a.now.value first.due.value⟩
    exact ⟨turn, hturnRun.trans hturn⟩
  | case4 => exact ⟨[], rfl⟩

end Alarms

namespace NamedAlarms

/-- The rest of a turn and the turns that follow are a run of the alarms, and what goes off in it is noted. -/
theorem exists_run_finish (a : NamedAlarms) : ∃ steps, a.finish.alarms = (a.alarms.run steps).2 ∧
    a.finish.fired = a.fired ++ (a.alarms.run steps).1.map (·.task.name) := by
  obtain ⟨turns, hturns⟩ := a.alarms.release.2.exists_run_settle ⟨Clock.seconds a.millis⟩
  refine ⟨List.replicate a.alarms.leaving.length .goOff ++ (turns ++ [.setNow ⟨Clock.seconds a.millis⟩]), ?_⟩
  rw [Alarms.run_append, Alarms.run_goOff, Alarms.run_append, hturns]
  refine ⟨rfl, ?_⟩
  simp only [finish, note, Alarms.run, Alarms.act, Option.toList_none, List.append_nil]

/-- The work of a step is at most one call. -/
theorem exists_calls_perform {a b : NamedAlarms} {s : Step} (h : a.perform s = .ok b) :
    ∃ calls : List (Agenda.Call Signal Seconds),
      a.alarms.run (calls.map .call) = ([], b.alarms) ∧ b.fired = a.fired := by
  cases s with
  | set signal delay =>
    obtain ⟨number, _, h⟩ := exists_ok_of_bind h
    split at h
    · cases h
    · obtain ⟨seconds, _, h⟩ := exists_ok_of_bind h
      obtain ⟨due, _, h⟩ := exists_ok_of_bind h
      cases h
      exact ⟨[.armAt due signal], rfl, rfl⟩
  | cancel name =>
    cases h
    unfold cancel
    split
    · exact ⟨[], rfl, rfl⟩
    · rename_i id _
      exact ⟨[.cancel id], rfl, rfl⟩
  | advance millis =>
    cases h
    exact ⟨[], rfl, rfl⟩

/-- A step does nothing to the alarms but what a loop does, and what goes off in it is noted. -/
theorem exists_run_step (a : NamedAlarms) (s : Step) : ∃ steps, (a.step s).1.alarms = (a.alarms.run steps).2 ∧
    (a.step s).1.fired = a.fired ++ (a.alarms.run steps).1.map (·.task.name) := by
  cases hperform : perform { a with alarms := a.alarms.collect } s with
  | ok b =>
    have hstep : a.step s = (b.finish, none) := by simp only [step, hperform]
    obtain ⟨calls, hcalls, hfired⟩ := exists_calls_perform hperform
    obtain ⟨rest, halarms, hnoted⟩ := b.exists_run_finish
    dsimp only at hcalls hfired
    refine ⟨.collect :: (calls.map .call ++ rest), ?_⟩
    simp only [hstep, Alarms.run_cons, Alarms.act, Alarms.run_append, hcalls, halarms, hnoted, hfired,
      Option.toList_none, List.nil_append, and_self]
  | error fault =>
    have hstep : a.step s = (finish { a with alarms := a.alarms.collect }, some fault) := by
      simp only [step, hperform]
    obtain ⟨rest, halarms, hnoted⟩ := exists_run_finish { a with alarms := a.alarms.collect }
    refine ⟨.collect :: rest, ?_⟩
    simp only [hstep, Alarms.run_cons, Alarms.act, halarms, hnoted, Option.toList_none, List.nil_append, and_self]

end NamedAlarms

end LockScreen
