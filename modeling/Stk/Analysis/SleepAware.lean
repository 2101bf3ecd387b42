import Stk.Analysis.FixedPriorityInvariant
import Stk.Model.RoundRobin
import Stk.Model.SmoothWeightedRoundRobin
import Stk.Model.EarliestDeadlineFirst

/-!
# What the kernel may rely on in a sleep-aware strategy

A sleep-aware strategy keeps its tasks in one or more run lists and a sleep list.
`SleepAware` says what each call does to the membership of these lists and under
which condition its assertions hold; the four strategies of the repository with
`SLEEP_EVENT_API` are instances.  The kernel's own invariants are proved from these
laws alone.
-/

set_option autoImplicit false

namespace Stk.Analysis

open Stk.Model

/-- The lists of a strategy: `m_tasks` (one list, or one for each priority) and `m_sleep`. -/
class StrategyLists (α : outParam Type) (σ : Type) where
  runLists : σ → List (List α)
  sleepList : σ → List α

section Lists

variable {α σ : Type} [StrategyLists α σ]

/-- The members of the run lists. -/
def runnable (s : σ) : List α := (StrategyLists.runLists s).flatten

/-- The members of the sleep list. -/
def asleep (s : σ) : List α := StrategyLists.sleepList s

/-- A call succeeds with a state that has `W`, and whose lists have the given members. -/
def Outcome (W : σ → Prop) (out : Except Fault σ) (run slp : α → Prop) : Prop :=
  ∃ s, out = .ok s ∧ W s ∧ (∀ t, t ∈ runnable s ↔ run t) ∧ ∀ t, t ∈ asleep s ↔ slp t

end Lists

/-- The laws of a strategy with `SLEEP_EVENT_API`.  `Wf w s` is its invariant for tasks
of effective weight `w`, `WeightOk` its assertion on a weight. -/
class SleepAware (α : outParam Type) (σ : Type) [SwitchStrategy α σ] [StrategyLists α σ] where
  Wf : (α → ℤ) → σ → Prop
  WeightOk : ℤ → Prop
  sleepEventApi_eq : SwitchStrategy.sleepEventApi σ = true
  weightApi_of_inheritance : SwitchStrategy.priorityInheritanceApi σ = true →
    SwitchStrategy.weightApi σ = true
  wf_empty : ∀ w, Wf w (SwitchStrategy.empty : σ)
  runnable_empty : runnable (SwitchStrategy.empty : σ) = []
  asleep_empty : asleep (SwitchStrategy.empty : σ) = []
  nodup : ∀ {w s}, Wf w s → (runnable s ++ asleep s).Nodup
  congr : ∀ {w w' s}, Wf w s → (∀ t ∈ runnable s, w' t = w t) → Wf w' s
  getSize_eq : ∀ s : σ, SwitchStrategy.getSize s = (runnable s).length + (asleep s).length
  getFirst_mem : ∀ {w s t}, Wf w s → SwitchStrategy.getFirst s = some t →
    t ∈ runnable s ∨ t ∈ asleep s
  addTask_law : ∀ {v : TaskView α} {s : σ} {t : α}, Wf v.weight s → WeightOk (v.weight t) →
    t ∉ runnable s → t ∉ asleep s →
    Outcome (Wf v.weight) (SwitchStrategy.addTask v s t)
      (fun u => u ∈ runnable s ∨ u = t) (fun u => u ∈ asleep s)
  removeTask_law : ∀ {v : TaskView α} {s : σ} {t : α}, Wf v.weight s →
    (t ∈ runnable s ∨ t ∈ asleep s) →
    Outcome (Wf v.weight) (SwitchStrategy.removeTask v s t)
      (fun u => u ∈ runnable s ∧ u ≠ t) (fun u => u ∈ asleep s ∧ u ≠ t)
  onTaskSleep_law : ∀ {v : TaskView α} {s : σ} {t : α}, Wf v.weight s → t ∈ runnable s →
    v.sleeping t = true →
    Outcome (Wf v.weight) (SwitchStrategy.onTaskSleep v s t)
      (fun u => u ∈ runnable s ∧ u ≠ t) (fun u => u ∈ asleep s ∨ u = t)
  onTaskWake_law : ∀ {v : TaskView α} {s : σ} {t : α}, Wf v.weight s → t ∈ asleep s →
    WeightOk (v.weight t) → v.sleeping t = false →
    Outcome (Wf v.weight) (SwitchStrategy.onTaskWake v s t)
      (fun u => u ∈ runnable s ∨ u = t) (fun u => u ∈ asleep s ∧ u ≠ t)
  onTaskWeightChange_law : ∀ {v : TaskView α} {w : α → ℤ} {s : σ} {t : α}, Wf w s →
    (∀ u, u ≠ t → v.weight u = w u) → WeightOk (v.weight t) → WeightOk (w t) →
    (t ∈ runnable s ∨ t ∈ asleep s) →
    Outcome (Wf v.weight) (SwitchStrategy.onTaskWeightChange v s t (w t))
      (fun u => u ∈ runnable s) (fun u => u ∈ asleep s)
  getNext_law : ∀ {v : TaskView α} {s : σ}, Wf v.weight s →
    (∀ t ∈ runnable s, v.sleeping t = false) →
    (∃ r s', SwitchStrategy.getNext v s = .ok (r, s') ∧ Wf v.weight s' ∧
      (∀ t, t ∈ runnable s' ↔ t ∈ runnable s) ∧ (∀ t, t ∈ asleep s' ↔ t ∈ asleep s) ∧
      ∀ t, r = some t → t ∈ runnable s) ∨
    SwitchStrategy.getNext v s = .error .nullCursor

/-! ## Two lists -/

section TwoLists

variable {α : Type} {run slp : List α} {t u : α}

/-- INTERNAL: a new task joins the run list. -/
theorem nodup_add (h : (run ++ slp).Nodup) (hr : t ∉ run) (hs : t ∉ slp) :
    (run ++ [t] ++ slp).Nodup := by
  have hperm : (run ++ [t] ++ slp).Perm (t :: (run ++ slp)) := by simp
  rw [hperm.nodup_iff, List.nodup_cons]
  exact ⟨by simp [hr, hs], h⟩

/-- INTERNAL: a task of the other list is not the removed one. -/
theorem mem_sleep_ne (h : (run ++ slp).Nodup) (hr : t ∈ run) : u ∈ slp ↔ u ∈ slp ∧ u ≠ t := by
  refine ⟨fun hu => ⟨hu, ?_⟩, fun hu => hu.1⟩
  rintro rfl
  exact List.disjoint_of_nodup_append h hr hu

/-- INTERNAL: a task of the other list is not the removed one. -/
theorem mem_run_ne (h : (run ++ slp).Nodup) (hs : t ∈ slp) : u ∈ run ↔ u ∈ run ∧ u ≠ t := by
  refine ⟨fun hu => ⟨hu, ?_⟩, fun hu => hu.1⟩
  rintro rfl
  exact List.disjoint_of_nodup_append h hu hs

variable [DecidableEq α]

/-- INTERNAL: the list without the removed task. -/
theorem mem_erase_run (h : (run ++ slp).Nodup) : u ∈ run.erase t ↔ u ∈ run ∧ u ≠ t := by
  rw [(List.Nodup.of_append_left h).mem_erase_iff, and_comm]

/-- INTERNAL: the list without the removed task. -/
theorem mem_erase_sleep (h : (run ++ slp).Nodup) : u ∈ slp.erase t ↔ u ∈ slp ∧ u ≠ t := by
  rw [(List.Nodup.of_append_right h).mem_erase_iff, and_comm]

/-- INTERNAL: a task leaves the run list. -/
theorem nodup_erase_run (h : (run ++ slp).Nodup) : (run.erase t ++ slp).Nodup :=
  h.sublist (List.erase_sublist.append_right slp)

/-- INTERNAL: a task leaves the sleep list. -/
theorem nodup_erase_sleep (h : (run ++ slp).Nodup) : (run ++ slp.erase t).Nodup :=
  h.sublist (List.erase_sublist.append_left run)

/-- INTERNAL: a task moves from the run list to the sleep list. -/
theorem nodup_sleep (h : (run ++ slp).Nodup) (hr : t ∈ run) :
    (run.erase t ++ (slp ++ [t])).Nodup := by
  have hperm : (run.erase t ++ (slp ++ [t])).Perm (run ++ slp) := by
    refine (List.Perm.append_left _ List.perm_append_comm).trans ?_
    refine List.perm_middle.trans ?_
    exact (List.perm_cons_erase hr).symm.append_right slp
  exact hperm.nodup_iff.mpr h

/-- INTERNAL: a task moves from the sleep list to the run list. -/
theorem nodup_wake (h : (run ++ slp).Nodup) (hs : t ∈ slp) :
    (run ++ [t] ++ slp.erase t).Nodup := by
  have hperm : (run ++ [t] ++ slp.erase t).Perm (run ++ slp) := by
    rw [List.append_assoc]
    exact (List.perm_cons_erase hs).symm.append_left run
  exact hperm.nodup_iff.mpr h

omit [DecidableEq α] in
/-- INTERNAL: `GetFirst` of a strategy with one run list. -/
theorem head_mem (h : (if run ≠ [] then run.head? else slp.head?) = some t) :
    t ∈ run ∨ t ∈ slp := by
  split at h
  · exact Or.inl (List.mem_of_head? h)
  · exact Or.inr (List.mem_of_head? h)

end TwoLists

/-! ## Round robin -/

section RoundRobin

variable {α : Type}

/-- Round robin has one list of runnable tasks. -/
instance : StrategyLists α (RoundRobin α) where
  runLists s := [s.tasks]
  sleepList s := s.sleep

/-- INTERNAL: the runnable tasks are `m_tasks`. -/
@[simp] theorem runnable_roundRobin (s : RoundRobin α) : runnable s = s.tasks :=
  List.append_nil s.tasks

/-- INTERNAL: the sleeping tasks are `m_sleep`. -/
@[simp] theorem asleep_roundRobin (s : RoundRobin α) : asleep s = s.sleep := rfl

/-- The run list is a closed loop and shares no task with the sleep list. -/
structure RoundRobinWf (s : RoundRobin α) : Prop where
  loop : (⟨s.tasks, s.prev⟩ : ClosedLoop α).Wf
  nodup : (s.tasks ++ s.sleep).Nodup

/-- INTERNAL: `AddActive` is `linkBack`. -/
theorem addActive_loop {s : RoundRobin α} (task : α) :
    (⟨(s.addActive task).tasks, (s.addActive task).prev⟩ : ClosedLoop α) =
      ClosedLoop.linkBack ⟨s.tasks, s.prev⟩ task := by
  cases hc : s.prev <;> simp [RoundRobin.addActive, ClosedLoop.linkBack, hc]

variable [DecidableEq α]

/-- INTERNAL: `AddTask` puts a new task among the runnable ones. -/
theorem roundRobin_addTask {s : RoundRobin α} (h : RoundRobinWf s) {t : α} (hr : t ∉ s.tasks)
    (hs : t ∉ s.sleep) :
    Outcome RoundRobinWf (s.addTask t) (fun u => u ∈ s.tasks ∨ u = t) (fun u => u ∈ s.sleep) := by
  refine ⟨_, by rw [RoundRobin.addTask, if_neg (by tauto)], ⟨?_, nodup_add h.nodup hr hs⟩,
    by simp, by simp⟩
  refine ⟨(h.loop.linkBack hr).nodup, ?_, ?_⟩
  · split
    · simp
    · next htail =>
      intro hnone
      have hnil : s.tasks = [] := h.loop.cursor_none hnone
      exact absurd (by simp [hnil, show s.prev = none from hnone]) htail
  · intro c hc
    split at hc
    · obtain rfl : t = c := Option.some.inj hc
      simp
    · exact List.mem_append_left _ (h.loop.cursor_mem c hc)

/-- INTERNAL: `RemoveTask` takes the task out of the list it is in. -/
theorem roundRobin_removeTask {s : RoundRobin α} (h : RoundRobinWf s) {t : α}
    (ht : t ∈ s.tasks ∨ t ∈ s.sleep) :
    Outcome RoundRobinWf (s.removeTask t)
      (fun u => u ∈ s.tasks ∧ u ≠ t) (fun u => u ∈ s.sleep ∧ u ≠ t) := by
  have hnd := h.nodup
  unfold RoundRobin.removeTask
  by_cases hrun : t ∈ s.tasks
  · refine ⟨s.removeActive t, by rw [if_pos hrun],
      ⟨h.loop.unlink hrun, nodup_erase_run hnd⟩, fun u => ?_, fun u => mem_sleep_ne hnd hrun⟩
    rw [runnable_roundRobin]
    exact mem_erase_run hnd
  · have hsl := ht.resolve_left hrun
    refine ⟨{ s with sleep := s.sleep.erase t }, by rw [if_neg hrun, if_pos hsl],
      ⟨h.loop, nodup_erase_sleep hnd⟩, fun u => ?_, fun u => mem_erase_sleep hnd⟩
    rw [runnable_roundRobin]
    exact mem_run_ne hnd hsl

/-- INTERNAL: `OnTaskSleep` moves a runnable task to the sleeping ones. -/
theorem roundRobin_onTaskSleep {v : TaskView α} {s : RoundRobin α} (h : RoundRobinWf s) {t : α}
    (ht : t ∈ s.tasks) (hs : v.sleeping t = true) :
    Outcome RoundRobinWf (s.onTaskSleep v t)
      (fun u => u ∈ s.tasks ∧ u ≠ t) (fun u => u ∈ s.sleep ∨ u = t) := by
  refine ⟨_, by rw [RoundRobin.onTaskSleep, if_neg (by simp [hs]), if_neg (by simp [ht])],
    ⟨h.loop.unlink ht, nodup_sleep h.nodup ht⟩, fun u => ?_, fun u => ?_⟩
  · rw [runnable_roundRobin]
    exact mem_erase_run h.nodup
  · simp [RoundRobin.removeActive]

/-- INTERNAL: `OnTaskWake` moves a sleeping task to the runnable ones. -/
theorem roundRobin_onTaskWake {v : TaskView α} {s : RoundRobin α} (h : RoundRobinWf s) {t : α}
    (ht : t ∈ s.sleep) (hs : v.sleeping t = false) :
    Outcome RoundRobinWf (s.onTaskWake v t)
      (fun u => u ∈ s.tasks ∨ u = t) (fun u => u ∈ s.sleep ∧ u ≠ t) := by
  have hrun : t ∉ s.tasks := fun hmem => List.disjoint_of_nodup_append h.nodup hmem ht
  refine ⟨_, by rw [RoundRobin.onTaskWake, if_neg (by simp [hs]), if_neg (by simp [ht])],
    ⟨?_, nodup_wake h.nodup ht⟩, fun u => ?_, fun u => mem_erase_sleep h.nodup⟩
  · rw [addActive_loop]
    exact h.loop.linkBack hrun
  · simp [RoundRobin.addActive]

/-- INTERNAL: `GetNext` returns a runnable task and moves the cursor only. -/
theorem roundRobin_getNext {s : RoundRobin α} (h : RoundRobinWf s) :
    RoundRobinWf s.getNext.2 ∧ s.getNext.2.tasks = s.tasks ∧ s.getNext.2.sleep = s.sleep ∧
      ∀ t, s.getNext.1 = some t → t ∈ s.tasks := by
  unfold RoundRobin.getNext
  cases hc : s.prev with
  | none => exact ⟨h, rfl, rfl, by simp⟩
  | some c =>
    have hmem := ClosedLoop.succ_mem (h.loop.cursor_mem c hc) h.loop.nodup
    refine ⟨⟨⟨h.loop.nodup, by simp, ?_⟩, h.nodup⟩, rfl, rfl, ?_⟩
    · intro d hd
      obtain rfl : _ = d := Option.some.inj hd
      exact hmem
    · intro t ht
      obtain rfl : _ = t := Option.some.inj ht
      exact hmem

/-- Round robin is told of sleeps and wake-ups and keeps its two lists apart. -/
instance : SleepAware α (RoundRobin α) where
  Wf _ s := RoundRobinWf s
  WeightOk _ := True
  sleepEventApi_eq := rfl
  weightApi_of_inheritance h := h
  wf_empty _ := ⟨ClosedLoop.Wf.empty, List.nodup_nil⟩
  runnable_empty := rfl
  asleep_empty := rfl
  nodup h := by simpa using h.nodup
  congr h _ := h
  getSize_eq s := by simp [SwitchStrategy.getSize, RoundRobin.getSize]
  getFirst_mem _ hfirst := by
    rw [runnable_roundRobin]
    exact head_mem hfirst
  addTask_law h _ hr hs := by
    simp only [runnable_roundRobin] at hr ⊢
    exact roundRobin_addTask h hr hs
  removeTask_law h ht := by
    simp only [runnable_roundRobin] at ht ⊢
    exact roundRobin_removeTask h ht
  onTaskSleep_law h ht hs := by
    simp only [runnable_roundRobin] at ht ⊢
    exact roundRobin_onTaskSleep h ht hs
  onTaskWake_law h ht _ hs := by
    simp only [runnable_roundRobin]
    exact roundRobin_onTaskWake h ht hs
  onTaskWeightChange_law := fun h _ _ _ _ => ⟨_, rfl, h, fun _ => Iff.rfl, fun _ => Iff.rfl⟩
  getNext_law := by
    intro v s h _
    obtain ⟨hwf, htasks, hsleep, hmem⟩ := roundRobin_getNext h
    refine Or.inl ⟨s.getNext.1, s.getNext.2, rfl, hwf, ?_, ?_, ?_⟩
    · simp [htasks]
    · simp [hsleep]
    · simpa using hmem

end RoundRobin

/-! ## Smooth weighted round robin -/

section SmoothWeightedRoundRobin

variable {α : Type}

open SmoothWeightedRoundRobin (scanStep Scan)

/-- Smooth weighted round robin has one list of runnable tasks. -/
instance : StrategyLists α (SmoothWeightedRoundRobin α) where
  runLists s := [s.tasks]
  sleepList s := s.sleep

/-- INTERNAL: the runnable tasks are `m_tasks`. -/
@[simp] theorem runnable_smooth (s : SmoothWeightedRoundRobin α) : runnable s = s.tasks :=
  List.append_nil s.tasks

/-- INTERNAL: the sleeping tasks are `m_sleep`. -/
@[simp] theorem asleep_smooth (s : SmoothWeightedRoundRobin α) : asleep s = s.sleep := rfl

variable [DecidableEq α]

/-- INTERNAL: the scan of `GetNext` ends on one of the tasks it visited. -/
theorem scan_next_mem (v : TaskView α) (l : List α) (c : Scan α) {t : α}
    (ht : (l.foldl (scanStep v) c).next = some t) : c.next = some t ∨ t ∈ l := by
  induction l generalizing c with
  | nil => exact Or.inl ht
  | cons a l ih =>
    rcases ih (scanStep v c a) ht with hnext | hmem
    · unfold scanStep at hnext
      dsimp only at hnext
      split at hnext
      · obtain rfl : a = t := Option.some.inj hnext
        exact Or.inr List.mem_cons_self
      · exact Or.inl hnext
    · exact Or.inr (List.mem_cons_of_mem a hmem)

/-- INTERNAL: `RemoveTask` takes the task out of the list it is in. -/
theorem smooth_removeTask {v : TaskView α} {s : SmoothWeightedRoundRobin α}
    (h : (s.tasks ++ s.sleep).Nodup) {t : α} (ht : t ∈ s.tasks ∨ t ∈ s.sleep) :
    Outcome (fun s : SmoothWeightedRoundRobin α => (s.tasks ++ s.sleep).Nodup) (s.removeTask v t)
      (fun u => u ∈ s.tasks ∧ u ≠ t) (fun u => u ∈ s.sleep ∧ u ≠ t) := by
  unfold SmoothWeightedRoundRobin.removeTask
  by_cases hrun : t ∈ s.tasks
  · refine ⟨s.removeActive v t, by rw [if_pos hrun], nodup_erase_run h, fun u => ?_,
      fun u => mem_sleep_ne h hrun⟩
    rw [runnable_smooth]
    exact mem_erase_run h
  · have hsl := ht.resolve_left hrun
    refine ⟨{ s with sleep := s.sleep.erase t }, by rw [if_neg hrun, if_pos hsl],
      nodup_erase_sleep h, fun u => ?_, fun u => mem_erase_sleep h⟩
    rw [runnable_smooth]
    exact mem_run_ne h hsl

/-- INTERNAL: `GetNext` returns a runnable task and changes weights only, unless its assertion fails. -/
theorem smooth_getNext {v : TaskView α} {s : SmoothWeightedRoundRobin α} :
    (∃ r s', s.getNext v = .ok (r, s') ∧ s'.tasks = s.tasks ∧ s'.sleep = s.sleep ∧
      ∀ t, r = some t → t ∈ s.tasks) ∨ s.getNext v = .error .nullCursor := by
  unfold SmoothWeightedRoundRobin.getNext
  by_cases hnil : s.tasks = []
  · exact Or.inl ⟨none, s, by rw [if_pos hnil], rfl, rfl, by simp⟩
  · rw [if_neg hnil]
    dsimp only
    cases hnext : (s.tasks.foldl (scanStep v) ⟨s.currentWeight, int32Min, none⟩).next with
    | none => exact Or.inr rfl
    | some t =>
      refine Or.inl ⟨some t, _, rfl, rfl, rfl, ?_⟩
      rintro u hu
      obtain rfl : t = u := Option.some.inj hu
      exact (scan_next_mem v s.tasks _ hnext).resolve_left (by simp)

/-- Smooth weighted round robin accepts positive weights of 24 bits. -/
instance : SleepAware α (SmoothWeightedRoundRobin α) where
  Wf _ s := (s.tasks ++ s.sleep).Nodup
  WeightOk w := 0 < w ∧ w ≤ 0x7FFFFF
  sleepEventApi_eq := rfl
  weightApi_of_inheritance _ := rfl
  wf_empty _ := List.nodup_nil
  runnable_empty := rfl
  asleep_empty := rfl
  nodup h := by simpa using h
  congr h _ := h
  getSize_eq s := by simp [SwitchStrategy.getSize, SmoothWeightedRoundRobin.getSize]
  getFirst_mem _ hfirst := by
    rw [runnable_smooth]
    exact head_mem hfirst
  addTask_law := by
    intro v s t h hw hr hs
    rw [runnable_smooth] at hr
    rw [asleep_smooth] at hs
    refine ⟨(s.setCurrentWeight t noWeight).addActive v t, ?_, nodup_add h hr hs, ?_, ?_⟩
    · show SmoothWeightedRoundRobin.addTask v s t = _
      rw [SmoothWeightedRoundRobin.addTask, if_neg (not_not.mpr hw), if_neg (not_or.mpr ⟨hr, hs⟩)]
    · simp [SmoothWeightedRoundRobin.addActive, SmoothWeightedRoundRobin.setCurrentWeight]
    · simp [SmoothWeightedRoundRobin.addActive, SmoothWeightedRoundRobin.setCurrentWeight]
  removeTask_law h ht := by
    simp only [runnable_smooth] at ht ⊢
    exact smooth_removeTask h ht
  onTaskSleep_law := by
    intro v s t h ht hs
    rw [runnable_smooth] at ht
    refine ⟨{ s.removeActive v t with sleep := s.sleep ++ [t] }, ?_, nodup_sleep h ht,
      fun u => ?_, by simp⟩
    · show SmoothWeightedRoundRobin.onTaskSleep v s t = _
      rw [SmoothWeightedRoundRobin.onTaskSleep, if_neg (by simp [hs]), if_neg (by simp [ht])]
      rfl
    · rw [runnable_smooth, runnable_smooth]
      exact mem_erase_run h
  onTaskWake_law := by
    intro v s t h ht _ hs
    rw [asleep_smooth] at ht
    refine ⟨_, by
      show SmoothWeightedRoundRobin.onTaskWake v s t = _
      rw [SmoothWeightedRoundRobin.onTaskWake, if_neg (by simp [hs]), if_neg (not_not.mpr ht)],
      nodup_wake h ht, ?_, fun u => mem_erase_sleep h⟩
    simp [SmoothWeightedRoundRobin.addActive, SmoothWeightedRoundRobin.setCurrentWeight]
  onTaskWeightChange_law := fun h _ _ _ _ => ⟨_, rfl, h, fun _ => Iff.rfl, fun _ => Iff.rfl⟩
  getNext_law := by
    intro v s h _
    rcases smooth_getNext (v := v) (s := s) with ⟨r, s', hok, htasks, hsleep, hmem⟩ | herr
    · refine Or.inl ⟨r, s', hok, ?_, ?_, ?_, ?_⟩
      · rw [htasks, hsleep]; exact h
      · simp [htasks]
      · simp [hsleep]
      · simpa using hmem
    · exact Or.inr herr

end SmoothWeightedRoundRobin

/-! ## Earliest deadline first -/

section EarliestDeadlineFirst

variable {α : Type}

/-- Earliest deadline first has one list of runnable tasks. -/
instance : StrategyLists α (EarliestDeadlineFirst α) where
  runLists s := [s.tasks]
  sleepList s := s.sleep

/-- INTERNAL: the runnable tasks are `m_tasks`. -/
@[simp] theorem runnable_edf (s : EarliestDeadlineFirst α) : runnable s = s.tasks :=
  List.append_nil s.tasks

/-- INTERNAL: the sleeping tasks are `m_sleep`. -/
@[simp] theorem asleep_edf (s : EarliestDeadlineFirst α) : asleep s = s.sleep := rfl

/-- INTERNAL: the scan for the earliest deadline ends on a task it visited. -/
theorem earliest_mem (v : TaskView α) (l : List α) (first : α) :
    l.foldl (fun next itr =>
      if v.relativeDeadline itr < v.relativeDeadline next then itr else next) first ∈
      first :: l := by
  induction l generalizing first with
  | nil => exact List.mem_singleton_self first
  | cons a l ih =>
    rw [List.foldl_cons]
    have h := ih (if v.relativeDeadline a < v.relativeDeadline first then a else first)
    rcases List.mem_cons.mp h with heq | hmem
    · rw [heq]
      split <;> simp
    · exact List.mem_cons_of_mem _ (List.mem_cons_of_mem _ hmem)

variable [DecidableEq α]

/-- INTERNAL: `RemoveTask` takes the task out of the list it is in. -/
theorem edf_removeTask {s : EarliestDeadlineFirst α} (h : (s.tasks ++ s.sleep).Nodup) {t : α}
    (ht : t ∈ s.tasks ∨ t ∈ s.sleep) :
    Outcome (fun s : EarliestDeadlineFirst α => (s.tasks ++ s.sleep).Nodup) (s.removeTask t)
      (fun u => u ∈ s.tasks ∧ u ≠ t) (fun u => u ∈ s.sleep ∧ u ≠ t) := by
  unfold EarliestDeadlineFirst.removeTask
  by_cases hrun : t ∈ s.tasks
  · refine ⟨{ s with tasks := s.tasks.erase t }, by rw [if_pos hrun], nodup_erase_run h,
      fun u => ?_, fun u => mem_sleep_ne h hrun⟩
    rw [runnable_edf]
    exact mem_erase_run h
  · have hsl := ht.resolve_left hrun
    refine ⟨{ s with sleep := s.sleep.erase t }, by rw [if_neg hrun, if_pos hsl],
      nodup_erase_sleep h, fun u => ?_, fun u => mem_erase_sleep h⟩
    rw [runnable_edf]
    exact mem_run_ne h hsl

/-- Earliest deadline first asks for no weight. -/
instance : SleepAware α (EarliestDeadlineFirst α) where
  Wf _ s := (s.tasks ++ s.sleep).Nodup
  WeightOk _ := True
  sleepEventApi_eq := rfl
  weightApi_of_inheritance h := h
  wf_empty _ := List.nodup_nil
  runnable_empty := rfl
  asleep_empty := rfl
  nodup h := by simpa using h
  congr h _ := h
  getSize_eq s := by simp [SwitchStrategy.getSize, EarliestDeadlineFirst.getSize]
  getFirst_mem _ hfirst := by
    rw [runnable_edf]
    exact head_mem hfirst
  addTask_law := by
    intro v s t h _ hr hs
    rw [runnable_edf] at hr
    rw [asleep_edf] at hs
    refine ⟨{ s with tasks := s.tasks ++ [t] }, ?_, nodup_add h hr hs, by simp, by simp⟩
    show EarliestDeadlineFirst.addTask s t = _
    rw [EarliestDeadlineFirst.addTask, if_neg (not_or.mpr ⟨hr, hs⟩)]
  removeTask_law h ht := by
    simp only [runnable_edf] at ht ⊢
    exact edf_removeTask h ht
  onTaskSleep_law := by
    intro v s t h ht hs
    rw [runnable_edf] at ht
    refine ⟨⟨s.tasks.erase t, s.sleep ++ [t]⟩, ?_, nodup_sleep h ht, fun u => ?_, by simp⟩
    · show EarliestDeadlineFirst.onTaskSleep v s t = _
      rw [EarliestDeadlineFirst.onTaskSleep, if_neg (by simp [hs]), if_neg (by simp [ht])]
    · rw [runnable_edf, runnable_edf]
      exact mem_erase_run h
  onTaskWake_law := by
    intro v s t h ht _ hs
    rw [asleep_edf] at ht
    refine ⟨⟨s.tasks ++ [t], s.sleep.erase t⟩, ?_, nodup_wake h ht, by simp,
      fun u => mem_erase_sleep h⟩
    show EarliestDeadlineFirst.onTaskWake v s t = _
    rw [EarliestDeadlineFirst.onTaskWake, if_neg (by simp [hs]), if_neg (not_not.mpr ht)]
  onTaskWeightChange_law := fun h _ _ _ _ => ⟨_, rfl, h, fun _ => Iff.rfl, fun _ => Iff.rfl⟩
  getNext_law := by
    intro v s h hawake
    refine Or.inl ?_
    show ∃ r s', EarliestDeadlineFirst.getNext v s = _ ∧ _
    unfold EarliestDeadlineFirst.getNext
    cases hl : s.tasks with
    | nil => exact ⟨none, s, rfl, h, by simp, by simp, by simp⟩
    | cons first l =>
      have hany : ¬ (first :: l).any v.sleeping = true := by
        rw [← hl]
        simpa using hawake
      dsimp only
      rw [if_neg hany]
      refine ⟨_, s, rfl, h, by simp, by simp, ?_⟩
      intro t ht
      obtain rfl : _ = t := Option.some.inj ht
      have hmem := earliest_mem v (first :: l) first
      rw [runnable_edf, hl]
      rcases List.mem_cons.mp hmem with heq | hmem
      · rw [heq]; exact List.mem_cons_self
      · exact hmem

end EarliestDeadlineFirst

/-! ## Fixed priority -/

section FixedPriority

variable {P : ℕ} {α : Type}

/-- Fixed priority has one list of runnable tasks for each priority. -/
instance : StrategyLists α (FixedPriority P α) where
  runLists s := (List.range P).map s.tasks
  sleepList s := s.sleep

/-- INTERNAL: the sleeping tasks are `m_sleep`. -/
@[simp] theorem asleep_fixedPriority (s : FixedPriority P α) : asleep s = s.sleep := rfl

/-- INTERNAL: a task is runnable if it is in the list of some priority. -/
theorem mem_runnable_fixedPriority {w : α → ℤ} {s : FixedPriority P α} (h : s.Wf w) (t : α) :
    t ∈ runnable s ↔ ∃ p, t ∈ s.tasks p := by
  simp only [runnable, StrategyLists.runLists, List.mem_flatten, List.mem_map, List.mem_range,
    exists_exists_and_eq_and]
  exact ⟨fun ⟨p, _, ht⟩ => ⟨p, ht⟩, fun ⟨p, ht⟩ => ⟨p, h.bound p t ht, ht⟩⟩

/-- INTERNAL: the levels share no task, so that their concatenation has no duplicate. -/
theorem fixedPriority_nodup {w : α → ℤ} {s : FixedPriority P α} (h : s.Wf w) :
    (runnable s ++ asleep s).Nodup := by
  refine List.nodup_append.mpr ⟨?_, h.sleep_nodup, ?_⟩
  · refine List.nodup_flatten.mpr ⟨?_, ?_⟩
    · intro l hl
      obtain ⟨p, -, rfl⟩ := List.mem_map.mp hl
      exact h.nodup p
    · refine List.pairwise_map.mpr (List.nodup_range.imp ?_)
      intro p q hne t htp htq
      exact hne ((h.prio p t htp).symm.trans (h.prio q t htq))
  · intro t ht u hu
    rintro rfl
    obtain ⟨p, hp⟩ := (mem_runnable_fixedPriority h t).mp ht
    exact h.disjoint p t hp hu

/-- INTERNAL: `GetSize` counts both kinds of tasks. -/
theorem fixedPriority_getSize (s : FixedPriority P α) :
    s.getSize = (runnable s).length + (asleep s).length := by
  have hfold : ∀ (l : List ℕ) (a : ℕ), l.foldl (fun total i => total + (s.tasks i).length) a =
      (l.map s.tasks).flatten.length + a := by
    intro l
    induction l with
    | nil => simp
    | cons p l ih =>
      intro a
      rw [List.foldl_cons, ih]
      simp only [List.map_cons, List.flatten_cons, List.length_append]
      omega
  exact hfold (List.range P) s.sleep.length

/-- INTERNAL: `GetFirst` returns a member. -/
theorem fixedPriority_getFirst {w : α → ℤ} {s : FixedPriority P α} (h : s.Wf w) {t : α}
    (hfirst : s.getFirst = some t) : t ∈ runnable s ∨ t ∈ asleep s := by
  unfold FixedPriority.getFirst at hfirst
  split at hfirst
  · exact Or.inr (List.mem_of_head? hfirst)
  · exact Or.inl ((mem_runnable_fixedPriority h t).mpr ⟨_, List.mem_of_head? hfirst⟩)

/-- INTERNAL: a task is linked if it is runnable or asleep. -/
theorem linked_iff_mem {w : α → ℤ} {s : FixedPriority P α} (h : s.Wf w) (t : α) :
    s.linked t ↔ t ∈ runnable s ∨ t ∈ asleep s := by
  rw [FixedPriority.linked_iff h, mem_runnable_fixedPriority h]
  exact or_comm

variable [DecidableEq α] [hP : Fact (P ≤ 32)]

/-- Fixed priority accepts the weights that stand for a priority. -/
instance : SleepAware α (FixedPriority P α) where
  Wf w s := s.Wf w
  WeightOk w := getTaskPriorityFromWeight w < P
  sleepEventApi_eq := rfl
  weightApi_of_inheritance _ := rfl
  wf_empty w := FixedPriority.wf_empty w
  runnable_empty := by
    refine List.eq_nil_iff_forall_not_mem.mpr (fun t ht => ?_)
    simpa using (mem_runnable_fixedPriority (FixedPriority.wf_empty (fun _ => 0)) t).mp ht
  asleep_empty := rfl
  nodup h := fixedPriority_nodup h
  congr h hw := h.congr (fun p t ht => hw t ((mem_runnable_fixedPriority h t).mpr ⟨p, ht⟩))
  getSize_eq := fixedPriority_getSize
  getFirst_mem h hfirst := fixedPriority_getFirst h hfirst
  addTask_law := by
    intro v s t h hw hr hs
    obtain ⟨s', hok, hwf, hsleep, htasks⟩ := FixedPriority.addTask_spec hP.out h hw
      (fun hl => ((linked_iff_mem h t).mp hl).elim hr hs)
    refine ⟨s', hok, hwf, fun u => ?_, fun u => by simp [hsleep]⟩
    simp only [mem_runnable_fixedPriority hwf, mem_runnable_fixedPriority h, htasks]
    simp [exists_or]
  removeTask_law := by
    intro v s t h ht
    obtain ⟨s', hok, hwf, hsleep, htasks⟩ :=
      FixedPriority.removeTask_spec h ((linked_iff_mem h t).mpr ht)
    refine ⟨s', hok, hwf, fun u => ?_, hsleep⟩
    simp only [mem_runnable_fixedPriority hwf, mem_runnable_fixedPriority h, htasks]
    simp
  onTaskSleep_law := by
    intro v s t h ht hs
    obtain ⟨p, hp⟩ := (mem_runnable_fixedPriority h t).mp ht
    obtain ⟨s', hok, hwf, hsleep, htasks⟩ := FixedPriority.onTaskSleep_spec h hp hs
    refine ⟨s', hok, hwf, fun u => ?_, hsleep⟩
    simp only [mem_runnable_fixedPriority hwf, mem_runnable_fixedPriority h, htasks]
    simp
  onTaskWake_law := by
    intro v s t h ht hw hs
    obtain ⟨s', hok, hwf, hsleep, htasks⟩ := FixedPriority.onTaskWake_spec hP.out h hw ht hs
    refine ⟨s', hok, hwf, fun u => ?_, hsleep⟩
    simp only [mem_runnable_fixedPriority hwf, mem_runnable_fixedPriority h, htasks]
    simp [exists_or]
  onTaskWeightChange_law := by
    intro v w s t h hother hnew hold ht
    obtain ⟨s', hok, hwf, hsleep, htasks⟩ := FixedPriority.onTaskWeightChange_spec hP.out h hother
      hnew hold ((linked_iff_mem h t).mpr ht)
    refine ⟨s', hok, hwf, fun u => ?_, fun u => by simp [hsleep]⟩
    simp only [mem_runnable_fixedPriority hwf, mem_runnable_fixedPriority h]
    exact htasks u
  getNext_law := by
    intro v s h _
    obtain ⟨r, s', hok, hwf, hsleep, htasks, hsome, -⟩ := FixedPriority.getNext_spec h
    refine Or.inl ⟨r, s', hok, hwf, fun u => ?_, fun u => by simp [hsleep], fun t ht => ?_⟩
    · rw [mem_runnable_fixedPriority hwf, mem_runnable_fixedPriority h, htasks]
    · obtain ⟨p, hp, -⟩ := hsome t ht
      exact (mem_runnable_fixedPriority h t).mpr ⟨p, hp⟩

/-- `SwitchStrategyFP32` (stk_strategy_fpriority.h:407). -/
instance fact32 : Fact (32 ≤ 32) := ⟨le_rfl⟩

end FixedPriority

end Stk.Analysis
