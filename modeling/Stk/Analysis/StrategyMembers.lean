import Stk.Analysis.SleepAware
import Stk.Model.Kernel
import Stk.Model.Monotonic

/-!
# What the kernel may rely on in any strategy

Every strategy of the repository holds a set of tasks.  `AddTask` and `RemoveTask` change it,
the other calls do not, whether their assertions hold or not; `GetNext` and `GetFirst` return
members.  `StrategyMembers` states that for all five strategies, those with `SLEEP_EVENT_API`
and the monotonic one.
-/

set_option autoImplicit false

namespace Stk.Analysis

open Stk.Model

/-- The assertions of the strategies. -/
def ofStrategy : Fault → Bool
  | .addTaskHead | .weightRange | .removeTaskHead | .onTaskSleepAwake | .onTaskSleepHead
  | .onTaskWakeSleeping | .onTaskWakeHead | .weightChangeHead | .relativeDeadlineSleeping
  | .nullCursor | .sleepEventUnsupported => true
  | _ => false

/-- No assertion of the strategy has failed: every call on it was made and is in `calls`. -/
def StrategySound {n : ℕ} {σ : Type} (k : Kernel n σ) : Prop := ∀ f ∈ k.faults, ofStrategy f = false

instance decidableStrategySound {n : ℕ} {σ : Type} (k : Kernel n σ) : Decidable (StrategySound k) :=
  inferInstanceAs (Decidable (∀ f ∈ k.faults, ofStrategy f = false))

/-- No assertion on the lists has failed: of the strategy, or of `SetupWait`, which asserts that the task is not
linked, and `OnTaskWait`, which asserts that it may wait.  Past such a failure a release build goes on with lists that
the sequences of the model do not tell. -/
def ListsSound {n : ℕ} {σ : Type} (k : Kernel n σ) : Prop :=
  StrategySound k ∧ .setupWaitWaiting ∉ k.faults ∧ .waitTimeoutZero ∉ k.faults

instance decidableListsSound {n : ℕ} {σ : Type} (k : Kernel n σ) : Decidable (ListsSound k) :=
  inferInstanceAs (Decidable (StrategySound k ∧ .setupWaitWaiting ∉ k.faults ∧ .waitTimeoutZero ∉ k.faults))

/-- The laws of a strategy in terms of the tasks it holds.  `Wf w s` is its invariant for tasks
of effective weight `w`, `WeightOk` its assertion on a weight. -/
class StrategyMembers (α : outParam Type) (σ : Type) [SwitchStrategy α σ] where
  Wf : (α → ℤ) → σ → Prop
  WeightOk : ℤ → Prop
  members : σ → List α
  weightApi_of_inheritance : SwitchStrategy.priorityInheritanceApi σ = true →
    SwitchStrategy.weightApi σ = true
  wf_empty : ∀ w, Wf w (SwitchStrategy.empty : σ)
  members_empty : members SwitchStrategy.empty = []
  nodup : ∀ {w s}, Wf w s → (members s).Nodup
  congr : ∀ {w w' s}, Wf w s → (∀ t ∈ members s, w' t = w t) → Wf w' s
  getSize_eq : ∀ s : σ, SwitchStrategy.getSize s = (members s).length
  getFirst_mem : ∀ {w s t}, Wf w s → SwitchStrategy.getFirst s = some t → t ∈ members s
  getFirst_none : ∀ {w s}, Wf w s → SwitchStrategy.getFirst s = none → members s = []
  addTask_law : ∀ {v : TaskView α} {s : σ} {t : α}, Wf v.weight s → WeightOk (v.weight t) →
    t ∉ members s → ∃ s', SwitchStrategy.addTask v s t = .ok s' ∧ Wf v.weight s' ∧
      ∀ u, u ∈ members s' ↔ u ∈ members s ∨ u = t
  removeTask_law : ∀ {v : TaskView α} {s : σ} {t : α}, Wf v.weight s → t ∈ members s →
    ∃ s', SwitchStrategy.removeTask v s t = .ok s' ∧ Wf v.weight s' ∧
      ∀ u, u ∈ members s' ↔ u ∈ members s ∧ u ≠ t
  onTaskSleep_law : ∀ {v : TaskView α} {s s' : σ} {t : α}, Wf v.weight s →
    SwitchStrategy.onTaskSleep v s t = .ok s' →
    Wf v.weight s' ∧ ∀ u, u ∈ members s' ↔ u ∈ members s
  onTaskWake_law : ∀ {v : TaskView α} {s s' : σ} {t : α}, Wf v.weight s →
    (t ∈ members s → WeightOk (v.weight t)) → SwitchStrategy.onTaskWake v s t = .ok s' →
    Wf v.weight s' ∧ ∀ u, u ∈ members s' ↔ u ∈ members s
  onTaskWeightChange_law : ∀ {v : TaskView α} {w : α → ℤ} {s : σ} {t : α}, Wf w s →
    (∀ u, u ≠ t → v.weight u = w u) → WeightOk (v.weight t) → WeightOk (w t) → t ∈ members s →
    ∃ s', SwitchStrategy.onTaskWeightChange v s t (w t) = .ok s' ∧ Wf v.weight s' ∧
      ∀ u, u ∈ members s' ↔ u ∈ members s
  getNext_law : ∀ {v : TaskView α} {s s' : σ} {r : Option α}, Wf v.weight s →
    SwitchStrategy.getNext v s = .ok (r, s') →
    Wf v.weight s' ∧ (∀ u, u ∈ members s' ↔ u ∈ members s) ∧ ∀ t, r = some t → t ∈ members s
  error_law : ∀ {v : TaskView α} {s : σ} {c : StrategyCall α} {f : Fault},
    c.apply v s = .error f → ofStrategy f = true

/-- INTERNAL: the errors of a strategy, call by call. -/
theorem apply_error {α σ : Type} [SwitchStrategy α σ] {v : TaskView α} {s : σ}
    (hadd : ∀ t f, SwitchStrategy.addTask v s t = .error f → ofStrategy f = true)
    (hremove : ∀ t f, SwitchStrategy.removeTask v s t = .error f → ofStrategy f = true)
    (hnext : ∀ f, SwitchStrategy.getNext v s = .error f → ofStrategy f = true)
    (hsleep : ∀ t f, SwitchStrategy.onTaskSleep v s t = .error f → ofStrategy f = true)
    (hwake : ∀ t f, SwitchStrategy.onTaskWake v s t = .error f → ofStrategy f = true)
    (hweight : ∀ t w f, SwitchStrategy.onTaskWeightChange v s t w = .error f → ofStrategy f = true)
    {c : StrategyCall α} {f : Fault} (h : c.apply v s = .error f) : ofStrategy f = true := by
  have hmap : ∀ out : Except Fault σ, out.map (fun s => ((none : Option α), s)) = .error f →
      out = .error f := by
    intro out hout
    cases out with
    | ok s => cases hout
    | error g =>
      obtain rfl : g = f := Except.error.inj hout
      rfl
  cases c with
  | addTask t => exact hadd t f (hmap _ h)
  | removeTask t => exact hremove t f (hmap _ h)
  | getNext => exact hnext f h
  | onTaskSleep t => exact hsleep t f (hmap _ h)
  | onTaskWake t => exact hwake t f (hmap _ h)
  | onTaskWeightChange t w => exact hweight t w f (hmap _ h)

/-! ## Sleep-aware strategies -/

/-- The assertions of a sleep-aware strategy: what a call has checked when it succeeds. -/
class SleepGuarded (α : outParam Type) (σ : Type) [SwitchStrategy α σ] [StrategyLists α σ]
    [SleepAware α σ] : Prop where
  onTaskSleep_ok : ∀ {v : TaskView α} {s s' : σ} {t : α}, SleepAware.Wf v.weight s →
    SwitchStrategy.onTaskSleep v s t = .ok s' → t ∈ runnable s ∧ v.sleeping t = true
  onTaskWake_ok : ∀ {v : TaskView α} {s s' : σ} {t : α},
    SwitchStrategy.onTaskWake v s t = .ok s' → t ∈ asleep s ∧ v.sleeping t = false
  getNext_ok : ∀ {v : TaskView α} {s s' : σ} {r : Option α}, SleepAware.Wf v.weight s →
    SwitchStrategy.getNext v s = .ok (r, s') →
    SleepAware.Wf v.weight s' ∧ (∀ u, u ∈ runnable s' ↔ u ∈ runnable s) ∧
      (∀ u, u ∈ asleep s' ↔ u ∈ asleep s) ∧ ∀ t, r = some t → t ∈ runnable s
  getFirst_none : ∀ {w : α → ℤ} {s : σ}, SleepAware.Wf w s → SwitchStrategy.getFirst s = none →
    runnable s = [] ∧ asleep s = []
  error_law : ∀ {v : TaskView α} {s : σ} {c : StrategyCall α} {f : Fault},
    c.apply v s = .error f → ofStrategy f = true

section SleepAware

variable {α σ : Type} [SwitchStrategy α σ] [StrategyLists α σ] [SleepAware α σ]

omit [SwitchStrategy α σ] [SleepAware α σ] in
/-- INTERNAL: membership in the two kinds of lists. -/
theorem mem_lists {s' : σ} {run slp : α → Prop} (hrun : ∀ u, u ∈ runnable s' ↔ run u)
    (hslp : ∀ u, u ∈ asleep s' ↔ slp u) (u : α) :
    u ∈ runnable s' ++ asleep s' ↔ run u ∨ slp u := by
  rw [List.mem_append, hrun u, hslp u]

/-- INTERNAL: a task that changes the list stays a member. -/
theorem mem_moved {l l' : List α} {t u : α} (ht : t ∈ l) :
    (u ∈ l ∧ u ≠ t) ∨ (u ∈ l' ∨ u = t) ↔ u ∈ l ++ l' := by
  rw [List.mem_append]
  by_cases hu : u = t
  · subst hu
    simp [ht]
  · simp [hu]

instance [SleepGuarded α σ] : StrategyMembers α σ where
  Wf := SleepAware.Wf
  WeightOk := SleepAware.WeightOk σ
  members s := runnable s ++ asleep s
  weightApi_of_inheritance := SleepAware.weightApi_of_inheritance
  wf_empty := SleepAware.wf_empty
  members_empty := by rw [SleepAware.runnable_empty, SleepAware.asleep_empty, List.nil_append]
  nodup := SleepAware.nodup
  congr h hw := SleepAware.congr h (fun t ht => hw t (List.mem_append_left _ ht))
  getSize_eq s := by rw [SleepAware.getSize_eq, List.length_append]
  getFirst_mem h hfirst := List.mem_append.mpr (SleepAware.getFirst_mem h hfirst)
  getFirst_none h hfirst := by
    obtain ⟨hrun, hslp⟩ := SleepGuarded.getFirst_none h hfirst
    rw [hrun, hslp, List.nil_append]
  addTask_law := by
    intro v s t h hw ht
    rw [List.mem_append, not_or] at ht
    obtain ⟨s', hok, hwf, hrun, hslp⟩ := SleepAware.addTask_law h hw ht.1 ht.2
    refine ⟨s', hok, hwf, fun u => ?_⟩
    rw [mem_lists hrun hslp, List.mem_append, or_right_comm]
  removeTask_law := by
    intro v s t h ht
    obtain ⟨s', hok, hwf, hrun, hslp⟩ := SleepAware.removeTask_law h (List.mem_append.mp ht)
    refine ⟨s', hok, hwf, fun u => ?_⟩
    rw [mem_lists hrun hslp, List.mem_append, or_and_right]
  onTaskSleep_law := by
    intro v s s' t h hok
    obtain ⟨ht, hs⟩ := SleepGuarded.onTaskSleep_ok h hok
    obtain ⟨s'', hok', hwf, hrun, hslp⟩ := SleepAware.onTaskSleep_law h ht hs
    obtain rfl : s'' = s' := Except.ok.inj (hok'.symm.trans hok)
    refine ⟨hwf, fun u => ?_⟩
    rw [mem_lists hrun hslp, mem_moved ht]
  onTaskWake_law := by
    intro v s s' t h hw hok
    obtain ⟨ht, hs⟩ := SleepGuarded.onTaskWake_ok hok
    obtain ⟨s'', hok', hwf, hrun, hslp⟩ :=
      SleepAware.onTaskWake_law h ht (hw (List.mem_append_right _ ht)) hs
    obtain rfl : s'' = s' := Except.ok.inj (hok'.symm.trans hok)
    refine ⟨hwf, fun u => ?_⟩
    rw [mem_lists hrun hslp, or_comm, mem_moved ht, List.mem_append, List.mem_append, or_comm]
  onTaskWeightChange_law := by
    intro v w s t h hother hnew hold ht
    obtain ⟨s', hok, hwf, hrun, hslp⟩ :=
      SleepAware.onTaskWeightChange_law h hother hnew hold (List.mem_append.mp ht)
    refine ⟨s', hok, hwf, fun u => ?_⟩
    rw [mem_lists hrun hslp, List.mem_append]
  getNext_law := by
    intro v s s' r h hok
    obtain ⟨hwf, hrun, hslp, hmem⟩ := SleepGuarded.getNext_ok h hok
    refine ⟨hwf, fun u => ?_, fun t ht => List.mem_append_left _ (hmem t ht)⟩
    rw [mem_lists hrun hslp, List.mem_append]
  error_law := SleepGuarded.error_law

end SleepAware

section Instances

variable {α : Type} [DecidableEq α]

omit [DecidableEq α] in
/-- INTERNAL: `GetFirst` of a strategy with one run list finds a task unless there is none. -/
theorem head_none {run slp : List α} (h : (if run ≠ [] then run.head? else slp.head?) = none) :
    run = [] ∧ slp = [] := by
  split at h
  · next hne => exact absurd (List.head?_eq_none_iff.mp h) hne
  · next hnil => exact ⟨not_not.mp hnil, List.head?_eq_none_iff.mp h⟩

/-- INTERNAL: a call behind two assertions has checked both when it succeeds. -/
theorem guarded_ok {σ : Type} {p q : Prop} [Decidable p] [Decidable q] {f g : Fault} {s s' : σ}
    (h : (if p then .error f else if q then .error g else .ok s : Except Fault σ) = .ok s') :
    ¬ p ∧ ¬ q := by
  split at h
  · cases h
  · next hp =>
    split at h
    · cases h
    · next hq => exact ⟨hp, hq⟩

instance : SleepGuarded α (RoundRobin α) where
  onTaskSleep_ok := by
    intro v s s' t _ hok
    obtain ⟨hs, ht⟩ := guarded_ok hok
    rw [runnable_roundRobin]
    exact ⟨not_not.mp ht, not_not.mp hs⟩
  onTaskWake_ok := by
    intro v s s' t hok
    obtain ⟨hs, ht⟩ := guarded_ok hok
    exact ⟨not_not.mp ht, Bool.not_eq_true _ ▸ hs⟩
  getNext_ok := by
    intro v s s' r h hok
    obtain ⟨hwf, htasks, hsleep, hmem⟩ := roundRobin_getNext h
    have hpair : s.getNext = (r, s') := Except.ok.inj hok
    rw [hpair] at hwf htasks hsleep hmem
    refine ⟨hwf, fun u => ?_, fun u => ?_, fun t ht => ?_⟩
    · rw [runnable_roundRobin, runnable_roundRobin, htasks]
    · rw [asleep_roundRobin, asleep_roundRobin, hsleep]
    · rw [runnable_roundRobin]
      exact hmem t ht
  getFirst_none _ hfirst := by
    rw [runnable_roundRobin]
    exact head_none hfirst
  error_law := by
    intro v s c f h
    refine apply_error ?_ ?_ ?_ ?_ ?_ ?_ h
    all_goals simp only [SwitchStrategy.addTask, SwitchStrategy.removeTask, SwitchStrategy.getNext,
      SwitchStrategy.onTaskSleep, SwitchStrategy.onTaskWake, SwitchStrategy.onTaskWeightChange]
    all_goals grind [RoundRobin.addTask, RoundRobin.removeTask, RoundRobin.onTaskSleep, RoundRobin.onTaskWake, ofStrategy]

instance : SleepGuarded α (SmoothWeightedRoundRobin α) where
  onTaskSleep_ok := by
    intro v s s' t _ hok
    obtain ⟨hs, ht⟩ := guarded_ok hok
    rw [runnable_smooth]
    exact ⟨not_not.mp ht, not_not.mp hs⟩
  onTaskWake_ok := by
    intro v s s' t hok
    obtain ⟨hs, ht⟩ := guarded_ok hok
    exact ⟨not_not.mp ht, Bool.not_eq_true _ ▸ hs⟩
  getNext_ok := by
    intro v s s' r h hok
    rcases smooth_getNext (v := v) (s := s) with ⟨r', s'', hok', htasks, hsleep, hmem⟩ | herr
    · obtain ⟨rfl, rfl⟩ := Prod.mk.inj (Except.ok.inj (hok'.symm.trans hok))
      refine ⟨?_, fun u => ?_, fun u => ?_, fun t ht => ?_⟩
      · show (s''.tasks ++ s''.sleep).Nodup
        rw [htasks, hsleep]
        exact h
      · rw [runnable_smooth, runnable_smooth, htasks]
      · rw [asleep_smooth, asleep_smooth, hsleep]
      · rw [runnable_smooth]
        exact hmem t ht
    · cases herr.symm.trans hok
  getFirst_none _ hfirst := by
    rw [runnable_smooth]
    exact head_none hfirst
  error_law := by
    intro v s c f h
    refine apply_error ?_ ?_ ?_ ?_ ?_ ?_ h
    all_goals simp only [SwitchStrategy.addTask, SwitchStrategy.removeTask, SwitchStrategy.getNext,
      SwitchStrategy.onTaskSleep, SwitchStrategy.onTaskWake, SwitchStrategy.onTaskWeightChange]
    all_goals grind [SmoothWeightedRoundRobin.addTask, SmoothWeightedRoundRobin.removeTask, SmoothWeightedRoundRobin.getNext, SmoothWeightedRoundRobin.onTaskSleep, SmoothWeightedRoundRobin.onTaskWake, ofStrategy]

instance : SleepGuarded α (EarliestDeadlineFirst α) where
  onTaskSleep_ok := by
    intro v s s' t _ hok
    obtain ⟨hs, ht⟩ := guarded_ok hok
    rw [runnable_edf]
    exact ⟨not_not.mp ht, not_not.mp hs⟩
  onTaskWake_ok := by
    intro v s s' t hok
    obtain ⟨hs, ht⟩ := guarded_ok hok
    exact ⟨not_not.mp ht, Bool.not_eq_true _ ▸ hs⟩
  getNext_ok := by
    intro v s s' r h hok
    replace hok : EarliestDeadlineFirst.getNext v s = .ok (r, s') := hok
    unfold EarliestDeadlineFirst.getNext at hok
    split at hok
    · obtain ⟨rfl, rfl⟩ := Prod.mk.inj (Except.ok.inj hok)
      exact ⟨h, fun _ => Iff.rfl, fun _ => Iff.rfl, fun _ ht => nomatch ht⟩
    · next first l hl =>
      split at hok
      · cases hok
      · obtain ⟨rfl, rfl⟩ := Prod.mk.inj (Except.ok.inj hok)
        refine ⟨h, fun _ => Iff.rfl, fun _ => Iff.rfl, ?_⟩
        rintro t ht
        obtain rfl : _ = t := Option.some.inj ht
        have hmem := earliest_mem v s.tasks first
        rw [runnable_edf]
        rcases List.mem_cons.mp hmem with heq | hmem
        · rw [heq, hl]
          exact List.mem_cons_self
        · exact hmem
  getFirst_none _ hfirst := by
    rw [runnable_edf]
    exact head_none hfirst
  error_law := by
    intro v s c f h
    refine apply_error ?_ ?_ ?_ ?_ ?_ ?_ h
    all_goals simp only [SwitchStrategy.addTask, SwitchStrategy.removeTask, SwitchStrategy.getNext,
      SwitchStrategy.onTaskSleep, SwitchStrategy.onTaskWake, SwitchStrategy.onTaskWeightChange]
    all_goals grind [EarliestDeadlineFirst.addTask, EarliestDeadlineFirst.removeTask, EarliestDeadlineFirst.getNext, EarliestDeadlineFirst.onTaskSleep, EarliestDeadlineFirst.onTaskWake, ofStrategy]

instance {P : ℕ} [Fact (P ≤ 32)] : SleepGuarded α (FixedPriority P α) where
  onTaskSleep_ok := by
    intro v s s' t h hok
    obtain ⟨hs, ht⟩ := guarded_ok hok
    exact ⟨(mem_runnable_fixedPriority h t).mpr ⟨_, not_not.mp ht⟩, not_not.mp hs⟩
  onTaskWake_ok := by
    intro v s s' t hok
    obtain ⟨hs, ht⟩ := guarded_ok hok
    exact ⟨not_not.mp ht, Bool.not_eq_true _ ▸ hs⟩
  getNext_ok := by
    intro v s s' r h hok
    obtain ⟨r', s'', hok', hwf, hsleep, htasks, hsome, -⟩ := FixedPriority.getNext_spec h
    obtain ⟨rfl, rfl⟩ := Prod.mk.inj (Except.ok.inj (hok'.symm.trans hok))
    refine ⟨hwf, fun u => ?_, fun u => ?_, fun t ht => ?_⟩
    · rw [mem_runnable_fixedPriority hwf, mem_runnable_fixedPriority h, htasks]
    · rw [asleep_fixedPriority, asleep_fixedPriority, hsleep]
    · obtain ⟨p, hp, -⟩ := hsome t ht
      exact (mem_runnable_fixedPriority h t).mpr ⟨p, hp⟩
  getFirst_none := by
    intro w s h hfirst
    replace hfirst : s.getFirst = none := hfirst
    unfold FixedPriority.getFirst at hfirst
    split at hfirst
    · next hzero =>
      refine ⟨List.eq_nil_iff_forall_not_mem.mpr (fun t ht => ?_), List.head?_eq_none_iff.mp hfirst⟩
      obtain ⟨p, hp⟩ := (mem_runnable_fixedPriority h t).mp ht
      have hbit := (h.bit p).mpr (List.ne_nil_of_mem hp)
      rw [hzero] at hbit
      simp at hbit
    · next hready =>
      obtain ⟨hbit, -⟩ := FixedPriority.getHighestReadyPriority_spec hready
      exact absurd (List.head?_eq_none_iff.mp hfirst) ((h.bit _).mp hbit)
  error_law := by
    intro v s c f h
    refine apply_error ?_ ?_ ?_ ?_ ?_ ?_ h
    all_goals simp only [SwitchStrategy.addTask, SwitchStrategy.removeTask, SwitchStrategy.getNext,
      SwitchStrategy.onTaskSleep, SwitchStrategy.onTaskWake, SwitchStrategy.onTaskWeightChange]
    all_goals grind [FixedPriority.addTask, FixedPriority.removeTask, FixedPriority.getNext, FixedPriority.onTaskSleep, FixedPriority.onTaskWake, FixedPriority.onTaskWeightChange, ofStrategy]

/-! ## The monotonic strategy -/

omit [DecidableEq α] in
/-- INTERNAL: `AddTask` inserts. -/
theorem link_perm (type : MonotonicType) (v : TaskView α) (t : α) (l : List α) :
    (Monotonic.link type v t l).Perm (t :: l) := by
  induction l with
  | nil => exact List.Perm.refl _
  | cons itr l ih =>
    unfold Monotonic.link
    split
    · exact List.Perm.refl _
    · exact (ih.cons itr).trans (List.Perm.swap t itr l)

instance {type : MonotonicType} : StrategyMembers α (Monotonic type α) where
  Wf _ s := s.tasks.Nodup
  WeightOk _ := True
  members s := s.tasks
  weightApi_of_inheritance h := h
  wf_empty _ := List.nodup_nil
  members_empty := rfl
  nodup h := h
  congr h _ := h
  getSize_eq _ := rfl
  getFirst_mem _ hfirst := List.mem_of_head? hfirst
  getFirst_none _ hfirst := List.head?_eq_none_iff.mp hfirst
  addTask_law := by
    intro v s t h _ ht
    have hperm := link_perm type v t s.tasks
    refine ⟨⟨Monotonic.link type v t s.tasks⟩, if_neg ht, ?_, fun u => ?_⟩
    · exact hperm.nodup_iff.mpr (List.nodup_cons.mpr ⟨ht, h⟩)
    · rw [hperm.mem_iff, List.mem_cons, or_comm]
  removeTask_law := by
    intro v s t h ht
    refine ⟨⟨s.tasks.erase t⟩, if_pos ht, h.erase t, fun u => ?_⟩
    rw [h.mem_erase_iff, and_comm]
  onTaskSleep_law := fun _ hok => nomatch hok
  onTaskWake_law := fun _ _ hok => nomatch hok
  onTaskWeightChange_law := fun h _ _ _ _ => ⟨_, rfl, h, fun _ => Iff.rfl⟩
  getNext_law := by
    intro v s s' r h hok
    obtain ⟨rfl, rfl⟩ := Prod.mk.inj (Except.ok.inj hok)
    exact ⟨h, fun _ => Iff.rfl, fun t ht => List.mem_of_find?_eq_some ht⟩
  error_law := by
    intro v s c f h
    refine apply_error ?_ ?_ ?_ ?_ ?_ ?_ h
    all_goals simp only [SwitchStrategy.addTask, SwitchStrategy.removeTask, SwitchStrategy.getNext,
      SwitchStrategy.onTaskSleep, SwitchStrategy.onTaskWake, SwitchStrategy.onTaskWeightChange]
    all_goals grind [Monotonic.addTask, Monotonic.removeTask, ofStrategy]

end Instances

end Stk.Analysis
