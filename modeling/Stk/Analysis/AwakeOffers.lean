import Stk.Analysis.DispatchRun
import Stk.Analysis.SlotFrame

/-!
# The tasks a strategy offers

`GetNext` picks among the tasks that the strategy offers: the run lists of a sleep-aware strategy,
all tasks of the monotonic one, which passes over those that sleep.  A task whose sleep event is
delivered is not offered any more, so the task that falls asleep on the processor is not the next
one (`sleeper_not_next`), whatever the lists were before.
-/

set_option autoImplicit false

namespace Stk.Analysis

open Stk.Model Stk.Model.Kernel

/-- What the calls of `UpdateTaskState` do to the tasks that a strategy offers. -/
class OffersAwake (α : outParam Type) (σ : Type) [SwitchStrategy α σ] [StrategyMembers α σ] where
  offers : σ → List α
  onTaskSleep_drops : ∀ {v : TaskView α} {s : σ} {t : α}, SwitchStrategy.sleepEventApi σ = true →
    StrategyMembers.Wf v.weight s → v.sleeping t = true →
    (∀ s', SwitchStrategy.onTaskSleep v s t = .ok s' → t ∉ offers s') ∧
      ∀ f, SwitchStrategy.onTaskSleep v s t = .error f → t ∉ offers s
  onTaskSleep_keeps : ∀ {v : TaskView α} {s s' : σ} {t : α}, StrategyMembers.Wf v.weight s →
    SwitchStrategy.onTaskSleep v s t = .ok s' → ∀ u ∈ offers s', u ∈ offers s
  onTaskWake_keeps : ∀ {v : TaskView α} {s s' : σ} {t : α}, StrategyMembers.Wf v.weight s →
    (t ∈ StrategyMembers.members s → StrategyMembers.WeightOk σ (v.weight t)) →
    SwitchStrategy.onTaskWake v s t = .ok s' → ∀ u ∈ offers s', u ∈ offers s ∨ u = t
  removeTask_keeps : ∀ {v : TaskView α} {s s' : σ} {t : α}, StrategyMembers.Wf v.weight s →
    t ∈ StrategyMembers.members s → SwitchStrategy.removeTask v s t = .ok s' →
    ∀ u ∈ offers s', u ∈ offers s
  getNext_offers : ∀ {v : TaskView α} {s s' : σ} {t : α}, StrategyMembers.Wf v.weight s →
    SwitchStrategy.getNext v s = .ok (some t, s') →
    t ∈ offers s ∧ (SwitchStrategy.sleepEventApi σ = true ∨ v.sleeping t = false)

/-! ## The strategies -/

section Instances

variable {α σ : Type}

instance [SwitchStrategy α σ] [StrategyLists α σ] [SleepAware α σ] [SleepGuarded α σ] :
    OffersAwake α σ where
  offers := runnable
  onTaskSleep_drops := by
    intro v s t _ h hs
    by_cases ht : t ∈ runnable s
    · obtain ⟨s'', hok, -, hrun, -⟩ := SleepAware.onTaskSleep_law h ht hs
      constructor
      · intro s' hok'
        obtain rfl : s'' = s' := Except.ok.inj (hok.symm.trans hok')
        intro hmem
        exact ((hrun t).mp hmem).2 rfl
      · intro f herr
        cases hok.symm.trans herr
    · constructor
      · intro s' hok
        exact absurd (SleepGuarded.onTaskSleep_ok h hok).1 ht
      · intro _ _
        exact ht
  onTaskSleep_keeps := by
    intro v s s' t h hok u hu
    obtain ⟨ht, hs⟩ := SleepGuarded.onTaskSleep_ok h hok
    obtain ⟨s'', hok', -, hrun, -⟩ := SleepAware.onTaskSleep_law h ht hs
    obtain rfl : s'' = s' := Except.ok.inj (hok'.symm.trans hok)
    exact ((hrun u).mp hu).1
  onTaskWake_keeps := by
    intro v s s' t h hw hok u hu
    obtain ⟨ht, hs⟩ := SleepGuarded.onTaskWake_ok hok
    obtain ⟨s'', hok', -, hrun, -⟩ := SleepAware.onTaskWake_law h ht (hw (List.mem_append_right _ ht)) hs
    obtain rfl : s'' = s' := Except.ok.inj (hok'.symm.trans hok)
    exact (hrun u).mp hu
  removeTask_keeps := by
    intro v s s' t h ht hok u hu
    obtain ⟨s'', hok', -, hrun, -⟩ := SleepAware.removeTask_law (v := v) h (List.mem_append.mp ht)
    obtain rfl : s'' = s' := Except.ok.inj (hok'.symm.trans hok)
    exact ((hrun u).mp hu).1
  getNext_offers := by
    intro v s s' t h hok
    obtain ⟨-, -, -, hmem⟩ := SleepGuarded.getNext_ok h hok
    exact ⟨hmem t rfl, .inl SleepAware.sleepEventApi_eq⟩

instance {type : MonotonicType} [DecidableEq α] : OffersAwake α (Monotonic type α) where
  offers s := s.tasks
  onTaskSleep_drops := fun hapi => nomatch hapi
  onTaskSleep_keeps := fun _ hok => nomatch hok
  onTaskWake_keeps := fun _ _ hok => nomatch hok
  removeTask_keeps := by
    intro v s s' t _ ht hok u hu
    have hremoved : s.removeTask t = .ok s' := hok
    unfold Monotonic.removeTask at hremoved
    rw [if_pos (by exact ht)] at hremoved
    obtain rfl := Except.ok.inj hremoved
    exact List.mem_of_mem_erase hu
  getNext_offers := by
    intro v s s' t _ hok
    obtain ⟨hnext, -⟩ := Prod.mk.inj (Except.ok.inj hok)
    refine ⟨List.mem_of_find?_eq_some hnext, .inr ?_⟩
    have hawake := List.find?_some hnext
    simpa using hawake

end Instances

/-! ## The loop over the slots -/

variable {n : ℕ} {σ : Type} [SwitchStrategy (Fin n) σ] {cfg : Config} {k : Kernel n σ} {i j : Fin n}

/-- INTERNAL: `FetchNextEvent` got its task from the strategy. -/
theorem fetchNextEvent_getNext (h : (k.fetchNextEvent cfg).2.1 = some j) :
    ∃ s, SwitchStrategy.getNext (k.view cfg) k.strategy = .ok (some j, s) := by
  have hcall : (k.callStrategy cfg .getNext).1 = some j := by
    unfold Kernel.fetchNextEvent at h
    generalize k.callStrategy cfg .getNext = f at h
    obtain ⟨_ | next, k₁⟩ := f
    · dsimp only at h
      split at h
      · cases h
      · cases h
    · exact h
  rcases callStrategy_cases cfg k .getNext with ⟨r, s, hok, heq⟩ | ⟨f, -, heq⟩
  · rw [heq] at hcall
    dsimp only at hcall
    subst hcall
    exact ⟨s, hok⟩
  · rw [heq] at hcall
    cases hcall

omit [SwitchStrategy (Fin n) σ] in
/-- INTERNAL: a call that fails. -/
theorem error_of_map {out : Except Fault σ} {f : Fault}
    (h : out.map (fun s => ((none : Option (Fin n)), s)) = .error f) : out = .error f := by
  cases out with
  | ok s => cases h
  | error g =>
    obtain rfl : g = f := Except.error.inj h
    rfl

variable [StrategyMembers (Fin n) σ] [OffersAwake (Fin n) σ]

/-- The strategy does not offer the task in slot `i`. -/
def NotOffered (i : Fin n) (k : Kernel n σ) : Prop := i ∉ OffersAwake.offers k.strategy

/-- INTERNAL: a call on the strategy that offers no more than before, but perhaps slot `j`. -/
theorem callStrategy_notOffered {c : StrategyCall (Fin n)} (h : NotOffered i k)
    (hc : ∀ r s, c.apply (k.view cfg) k.strategy = .ok (r, s) →
      i ∈ OffersAwake.offers s → i ∈ OffersAwake.offers k.strategy) :
    NotOffered i (k.callStrategy cfg c).2 := by
  rcases callStrategy_cases cfg k c with ⟨r, s, hok, heq⟩ | ⟨f, -, heq⟩
  · rw [heq]
    intro hmem
    exact h (hc r s hok hmem)
  · rw [heq]
    exact h

/-- INTERNAL: a sleep event takes no task up. -/
theorem onTaskSleep_notOffered (h : Enrolled cfg k) (hnot : NotOffered i k) (j : Fin n) :
    NotOffered i (k.callStrategy cfg (.onTaskSleep j)).2 := by
  apply callStrategy_notOffered hnot
  intro r s hok
  exact OffersAwake.onTaskSleep_keeps (v := k.view cfg) h.wf (Enrolled.ok_of_map hok) i

/-- INTERNAL: a wake event takes up the task that wakes. -/
theorem onTaskWake_notOffered (h : Enrolled cfg k) (hnot : NotOffered i k) (hji : j ≠ i) :
    NotOffered i (k.callStrategy cfg (.onTaskWake j)).2 := by
  apply callStrategy_notOffered hnot
  intro r s hok hmem
  have hweight := fun hj => h.weight j ((h.mem j).mp hj)
  rcases OffersAwake.onTaskWake_keeps (v := k.view cfg) h.wf hweight (Enrolled.ok_of_map hok) i hmem with hi | hi
  · exact hi
  · exact absurd hi.symm hji

/-- INTERNAL: a removal takes no task up. -/
theorem removeTask_notOffered (h : Enrolled cfg k) (hnot : NotOffered i k) (hbusy : (k.tasks j).user ≠ none) :
    NotOffered i (k.removeTask cfg j) := by
  have hremoved : NotOffered i
      (({ k with exits := k.exits ++ (k.tasks j).user.toList } : Kernel n σ).callStrategy cfg (.removeTask j)).2 := by
    apply callStrategy_notOffered (k := { k with exits := k.exits ++ (k.tasks j).user.toList }) hnot
    intro r s hok
    exact OffersAwake.removeTask_keeps (v := k.view cfg) h.wf ((h.mem j).mpr hbusy) (Enrolled.ok_of_map hok) i
  unfold Kernel.removeTask
  dsimp only
  split
  · exact hremoved
  · exact hremoved

/-- INTERNAL: the loop of `UpdateTaskState` at another slot. -/
theorem updateSlot_notOffered (h : Enrolled cfg k) (hji : j ≠ i) (hnot : NotOffered i k) (e t : ℤ) :
    NotOffered i (updateSlot cfg e (k, t) j).1 := by
  unfold Kernel.updateSlot
  dsimp only
  split
  · next hgone =>
    apply removeTask_notOffered h hnot
    simp only [Kernel.isRemovable, Bool.and_eq_true] at hgone
    exact h.pending j hgone.2.1.2
  · dsimp only
    split
    · have hdelivered : NotOffered i (k.deliverSleep cfg j) := by
        unfold Kernel.deliverSleep
        split
        · exact onTaskSleep_notOffered (h.calm (.setTask k j ⟨rfl, rfl, rfl⟩)) hnot j
        · exact hnot
      unfold Kernel.advanceSleep
      dsimp only
      split
      · exact onTaskWake_notOffered ((h.deliverSleep j).calm (.setTask _ j ⟨rfl, rfl, rfl⟩)) hdelivered hji
      · exact hdelivered
    · unfold Kernel.advanceDuration
      dsimp only
      split
      · split
        · exact hnot
        · exact hnot
      · exact hnot

/-- INTERNAL: the loop of `UpdateTaskState` at the slot that falls asleep. -/
theorem updateSlot_drops (h : Enrolled cfg k) (hapi : SwitchStrategy.sleepEventApi σ = true) {e : ℤ}
    (hasleep : (k.tasks i).timeSleep < 0) (hlong : (k.tasks i).timeSleep + e < 0)
    (hpending : (k.tasks i).sleepPending = true) (hlive : (k.tasks i).removePending = false) (t : ℤ) :
    NotOffered i (updateSlot cfg e (k, t) i).1 := by
  have hsleeping : (k.tasks i).isSleeping = true := by simpa [KernelTask.isSleeping] using hasleep
  have hstays : ¬ ((k.tasks i).isSleeping && k.isRemovable cfg i) = true := by
    simp [Kernel.isRemovable, hlive]
  have hdelivered : NotOffered i (k.deliverSleep cfg i) := by
    unfold Kernel.deliverSleep
    rw [if_pos (by simp [hapi, hpending])]
    have hset : Enrolled cfg (k.setTask i (fun t => { t with sleepPending := false })) :=
      h.calm (.setTask k i ⟨rfl, rfl, rfl⟩)
    have hview : ((k.setTask i (fun t => { t with sleepPending := false })).view cfg).sleeping i = true := by
      simpa [Kernel.view, Kernel.setTask, KernelTask.isSleeping] using hasleep
    obtain ⟨hok, herr⟩ := OffersAwake.onTaskSleep_drops (t := i) hapi hset.wf hview
    rcases callStrategy_cases cfg (k.setTask i (fun t => { t with sleepPending := false })) (.onTaskSleep i) with
      ⟨r, s, happly, heq⟩ | ⟨f, happly, heq⟩
    · rw [heq]
      exact hok s (Enrolled.ok_of_map happly)
    · rw [heq]
      exact herr f (error_of_map happly)
  unfold Kernel.updateSlot
  dsimp only
  rw [if_neg hstays, if_pos hsleeping]
  unfold Kernel.advanceSleep
  dsimp only
  rw [if_neg]
  · exact hdelivered
  · have htime := (SameSlot.deliverSleep cfg i i k).time
    simpa [Kernel.setTask, KernelTask.isSleeping, htime] using fun _ => hlong

/-! ## The next task -/

omit [StrategyMembers (Fin n) σ] [OffersAwake (Fin n) σ] in
/-- INTERNAL: what `UpdateTaskState` does to a slot; it frees only a slot that is to be removed. -/
theorem asking_updated (cfg : Config) (k : Kernel n σ) (e : ℤ) (i : Fin n) :
    ∃ gone, (asking cfg k e).tasks i =
        updatedSlot cfg (SwitchStrategy.sleepEventApi σ) e gone ((loading cfg k e).tasks i) ∧
      (gone = true → ((loading cfg k e).tasks i).removePending = true) := by
  obtain ⟨l₁, l₂, hsplit, h₁, h₂⟩ := finRange_split i
  have hother := (updateSlots_other cfg e l₁
    (loading cfg k e, if cfg.isTicklessMode then cfg.ticklessTicksMax else 1)).1 i h₁
  refine ⟨_, updateTaskState_ticked cfg (loading cfg k e) e hsplit h₁ h₂, ?_⟩
  intro hgone
  unfold Kernel.isRemovable reaches at hgone
  rw [hother] at hgone
  simp only [Bool.and_eq_true] at hgone
  exact hgone.1.2

omit [StrategyMembers (Fin n) σ] [OffersAwake (Fin n) σ] in
/-- INTERNAL: a slot that sleeps through a tick and is not to be removed. -/
theorem asking_sleeper (cfg : Config) (k : Kernel n σ) (e : ℤ) (hs : ((loading cfg k e).tasks i).isSleeping = true)
    (hlive : ((loading cfg k e).tasks i).removePending = false) :
    (asking cfg k e).tasks i = { (loading cfg k e).tasks i with
      sleepPending := ((loading cfg k e).tasks i).sleepPending && !SwitchStrategy.sleepEventApi σ
      timeSleep := ((loading cfg k e).tasks i).timeSleep + e } := by
  obtain ⟨gone, hslot, hgone⟩ := asking_updated cfg k e i
  have hkept : ¬ gone = true := by
    intro hg
    rw [hgone hg] at hlive
    cases hlive
  rw [hslot]
  unfold updatedSlot
  rw [if_pos hs, if_neg hkept]

/-- The next task is not one that sleeps through the tick in which its sleep event is delivered. -/
theorem sleeper_not_next (h : Enrolled cfg k) (hcfg : AcceptsStatic σ cfg) (hbound : NowBound k) {e : ℤ} (he : 0 < e)
    (hlong : ((loading cfg k e).tasks i).timeSleep + e < 0)
    (hpending : SwitchStrategy.sleepEventApi σ = true → ((loading cfg k e).tasks i).sleepPending = true)
    (hlive : ((loading cfg k e).tasks i).removePending = false) :
    ((asking cfg k e).fetchNextEvent cfg).2.1 ≠ some i := by
  obtain ⟨hload, hkeeps⟩ := h.loading hcfg e
  obtain ⟨hasking, -⟩ := h.asking hcfg hbound e
  have hloop : SwitchStrategy.sleepEventApi σ = true → NotOffered i (asking cfg k e) := by
    intro hapi
    obtain ⟨l₁, l₂, hsplit, h₁, h₂⟩ := finRange_split i
    have hrun : ∀ l : List (Fin n), ∀ acc : Kernel n σ × ℤ, Enrolled cfg acc.1 ∧ Live cfg acc.1 →
        Enrolled cfg (l.foldl (updateSlot cfg e) acc).1 ∧ Live cfg (l.foldl (updateSlot cfg e) acc).1 := by
      intro l acc hacc
      exact Runs.foldl_keeps (I := fun acc : Kernel n σ × ℤ => Enrolled cfg acc.1 ∧ Live cfg acc.1)
        (fun acc j _ hacc => hacc.1.updateSlot hacc.2 e acc.2 j) hacc
    rw [asking_loading]
    unfold Kernel.updateTaskState
    rw [hsplit, List.foldl_append, List.foldl_cons]
    have hbefore := hrun l₁ (loading cfg k e, if cfg.isTicklessMode then cfg.ticklessTicksMax else 1)
      ⟨hload, .inl (hkeeps.nowBound hbound)⟩
    have hslot := (updateSlots_other cfg e l₁
      (loading cfg k e, if cfg.isTicklessMode then cfg.ticklessTicksMax else 1)).1 i h₁
    generalize l₁.foldl (updateSlot cfg e)
      (loading cfg k e, if cfg.isTicklessMode then cfg.ticklessTicksMax else 1) = acc at hbefore hslot
    dsimp only at hslot
    rw [← hslot] at hlong hpending hlive
    have hdropped := updateSlot_drops hbefore.1 hapi (e := e) (by omega) hlong (hpending hapi) hlive acc.2
    have hself := hbefore.1.updateSlot hbefore.2 e acc.2 i
    refine (Runs.foldl_keeps (I := fun acc : Kernel n σ × ℤ =>
      (Enrolled cfg acc.1 ∧ Live cfg acc.1) ∧ NotOffered i acc.1) ?_ ⟨hself, hdropped⟩ : _ ∧ _).2
    intro acc' j hj hacc'
    have hji : j ≠ i := fun heq => h₂ (heq ▸ hj)
    exact ⟨hacc'.1.1.updateSlot hacc'.1.2 e acc'.2 j, updateSlot_notOffered hacc'.1.1 hji hacc'.2 e acc'.2⟩
  intro hnext
  obtain ⟨s, hgot⟩ := fetchNextEvent_getNext hnext
  obtain ⟨hoffered, hawake⟩ := OffersAwake.getNext_offers (v := (asking cfg k e).view cfg) hasking.wf hgot
  rcases hawake with hapi | hawake
  · exact hloop hapi hoffered
  · have hs : ((loading cfg k e).tasks i).isSleeping = true := by
      rw [KernelTask.isSleeping_iff]
      omega
    simp only [Kernel.view, asking_sleeper cfg k e hs hlive, KernelTask.isSleeping, decide_eq_false_iff_not] at hawake
    exact hawake hlong

end Stk.Analysis
