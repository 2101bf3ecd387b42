import Stk.Analysis.DispatchRun
import Stk.Analysis.InfiniteSleep

/-!
# The release of a slot

A task that exits or is to be removed sleeps with `STATE_REMOVE_PENDING` until `UpdateTaskState`
frees its slot (stk.h:1957-1970): at once, unless it is the current task; then only as the last task,
with the FSM in SLEEPING.  Whether a tick moves on from the current task is up to the strategy.
-/

set_option autoImplicit false

namespace Stk.Analysis

open Stk.Model Stk.Model.Kernel

variable {n : ℕ} {σ : Type} {cfg : Config} {k k' k'' : Kernel n σ} {i now : Fin n} {e : ℤ}

/-! ## What happens to a tick's slots before `UpdateTaskState` -/

/-- The step takes no task out of its slot, marks none for removal, ends no task's sleep, calls no
`OnExit` and makes no request. -/
structure Kept (k k' : Kernel n σ) : Prop where
  user : ∀ j, (k.tasks j).user ≠ none → (k'.tasks j).user = (k.tasks j).user
  pending : ∀ j, (k'.tasks j).removePending = (k.tasks j).removePending
  asleep : ∀ j, (k.tasks j).isSleeping = true → (k'.tasks j).isSleeping = true
  exits : k'.exits = k.exits
  request : k'.request = true → k.request = true

namespace Kept

theorem refl (k : Kernel n σ) : Kept k k := ⟨fun _ _ => rfl, fun _ => rfl, fun _ h => h, rfl, fun h => h⟩

theorem trans (h : Kept k k') (h' : Kept k' k'') : Kept k k'' where
  user j hj := (h'.user j (by rw [h.user j hj]; exact hj)).trans (h.user j hj)
  pending j := (h'.pending j).trans (h.pending j)
  asleep j hj := h'.asleep j (h.asleep j hj)
  exits := h'.exits.trans h.exits
  request hr := h.request (h'.request hr)

theorem fault (k : Kernel n σ) (f : Fault) : Kept k (k.fault f) :=
  ⟨fun _ _ => rfl, fun _ => rfl, fun _ h => h, rfl, fun h => h⟩

theorem setTask (k : Kernel n σ) (i : Fin n) {f : KernelTask → KernelTask}
    (huser : (k.tasks i).user ≠ none → (f (k.tasks i)).user = (k.tasks i).user)
    (hpending : (f (k.tasks i)).removePending = (k.tasks i).removePending)
    (hasleep : (k.tasks i).isSleeping = true → (f (k.tasks i)).isSleeping = true) : Kept k (k.setTask i f) := by
  have hself : (k.setTask i f).tasks i = f (k.tasks i) := Function.update_self _ _ _
  have hother : ∀ j, j ≠ i → (k.setTask i f).tasks j = k.tasks j := fun j hj => Function.update_of_ne hj _ _
  refine ⟨fun j hj => ?_, fun j => ?_, fun j hj => ?_, rfl, fun h => h⟩
  all_goals by_cases hji : j = i
  · subst hji
    rw [hself]
    exact huser hj
  · rw [hother j hji]
  · subst hji
    rw [hself]
    exact hpending
  · rw [hother j hji]
  · subst hji
    rw [hself]
    exact hasleep hj
  · rw [hother j hji]
    exact hj

theorem foldl {A : Type} {f : Kernel n σ → A → Kernel n σ} (hf : ∀ k a, Kept k (f k a)) (l : List A) :
    Kept k (l.foldl f k) :=
  Runs.foldl_keeps (fun k' a _ h => h.trans (hf k' a)) (refl k)

theorem wakeTask (k : Kernel n σ) (i : Fin n) : Kept k (k.wakeTask i) := by
  have hset : ∀ k : Kernel n σ, Kept k (k.setTask i (fun t => { t with timeSleep := -1 })) :=
    fun k => setTask k i (fun _ => rfl) rfl (fun _ => rfl)
  unfold Kernel.wakeTask
  dsimp only
  split
  · exact hset k
  · exact (fault k .wakeNotSleeping).trans (hset _)

theorem wakeWaitObj (k : Kernel n σ) (i : Fin n) (timeout : Bool) : Kept k (k.wakeWaitObj i timeout) := by
  unfold Kernel.wakeWaitObj
  split
  · exact fault k _
  · refine trans ?_ (wakeTask _ i)
    have hset := setTask k i (f := fun t => { t with waitObj := ⟨none, timeout, 0⟩ }) (fun _ => rfl) rfl
      (fun h => h)
    exact ⟨hset.user, hset.pending, hset.asleep, rfl, fun h => h⟩

theorem tickWaitObj (e : ℤ) (k : Kernel n σ) (i : Fin n) : Kept k (Kernel.tickWaitObj e k i) := by
  have hset : Kept k (k.setTask i (fun t => t.tickWaitObj e)) := by
    have hframe : ((k.tasks i).tickWaitObj e).user = (k.tasks i).user ∧
        ((k.tasks i).tickWaitObj e).removePending = (k.tasks i).removePending ∧
        ((k.tasks i).tickWaitObj e).isSleeping = (k.tasks i).isSleeping := by
      unfold KernelTask.tickWaitObj
      split
      · split
        · exact ⟨rfl, rfl, rfl⟩
        · exact ⟨rfl, rfl, rfl⟩
      · exact ⟨rfl, rfl, rfl⟩
    exact setTask k i (fun _ => hframe.1) hframe.2.1 (fun h => hframe.2.2.trans h)
  unfold Kernel.tickWaitObj
  dsimp only
  split
  · exact hset.trans (wakeWaitObj _ i true)
  · exact hset

theorem updateSyncObjects (k : Kernel n σ) (e : ℤ) : Kept k (k.updateSyncObjects e) := by
  refine foldl (fun k o => ?_) k.syncList
  have htick : Kept k (k.tickSyncObject e o) := foldl (fun k i => tickWaitObj e k i) _
  dsimp only
  split
  · exact ⟨htick.user, htick.pending, htick.asleep, htick.exits, htick.request⟩
  · exact htick

variable [SwitchStrategy (Fin n) σ]

theorem callStrategy (cfg : Config) (k : Kernel n σ) (c : StrategyCall (Fin n)) :
    Kept k (k.callStrategy cfg c).2 := by
  unfold Kernel.callStrategy
  split
  · exact ⟨fun _ _ => rfl, fun _ => rfl, fun _ h => h, rfl, fun h => h⟩
  · exact fault k _

theorem allocateNewTask (k : Kernel n σ) (u : TId) : Kept k (k.allocateNewTask u).2 := by
  unfold Kernel.allocateNewTask
  have hk : Kept k (if (k.findTaskByUserTask u).isSome then k.fault .taskCollision else k) := by
    split
    · exact fault k _
    · exact refl k
  generalize (if (k.findTaskByUserTask u).isSome then k.fault .taskCollision else k) = k₁ at hk
  dsimp only
  split
  · exact hk.trans (fault k₁ _)
  · next i hi =>
    have hfree : (k₁.tasks i).user = none := by
      simpa [KernelTask.isBusy] using List.find?_some hi
    have hbind : Kept k (k₁.setTask i (fun t => { t with user := some u })) :=
      hk.trans (setTask k₁ i (fun hbusy => absurd hfree hbusy) rfl (fun h => h))
    dsimp only
    split
    · refine hbind.trans ?_
      unfold Kernel.setCurrentWeight
      split
      · exact setTask _ i (fun _ => rfl) rfl (fun h => h)
      · exact refl _
    · exact hbind

theorem allocateAndAddNewTask (cfg : Config) (k : Kernel n σ) (u : TId) :
    Kept k (k.allocateAndAddNewTask cfg u) := by
  have halloc := allocateNewTask k u
  unfold Kernel.allocateAndAddNewTask
  generalize k.allocateNewTask u = f at halloc
  obtain ⟨_ | i, k₁⟩ := f
  · exact halloc
  · exact halloc.trans (callStrategy cfg k₁ _)

/-- INTERNAL: a `KERNEL_DYNAMIC` kernel serves its requests, except in `KERNEL_HRT` mode. -/
theorem updateTaskRequest (cfg : Config) (k : Kernel n σ) : Kept k (k.updateTaskRequest cfg) ∧
    (cfg.isDynamicMode = true → (k.updateTaskRequest cfg).request = true → cfg.isHrtMode = true) := by
  unfold Kernel.updateTaskRequest
  split
  · have hclear : Kept k { k with request := false } :=
      ⟨fun _ _ => rfl, fun _ => rfl, fun _ h => h, rfl, fun h => by contradiction⟩
    generalize hlast : List.foldl _ _ _ = k'
    have hloop : Kept { k with request := false } k' := by
      rw [← hlast]
      refine Kept.foldl (fun k i => ?_) (List.finRange n)
      split
      · exact refl k
      · exact (allocateAndAddNewTask cfg k _).trans (setTask _ i (fun _ => rfl) rfl (fun h => h))
    refine ⟨hclear.trans hloop, fun _ hrequest => ?_⟩
    cases hloop.request hrequest
  · next hmode =>
    refine ⟨refl k, fun hdyn _ => ?_⟩
    simpa [hdyn] using hmode

end Kept

variable [SwitchStrategy (Fin n) σ]

omit [SwitchStrategy (Fin n) σ] in
/-- INTERNAL: the timeouts of the waits. -/
theorem Kept.sync (cfg : Config) (k : Kernel n σ) (e : ℤ) :
    Kept k (if cfg.isSyncMode then ({ k with ticks := k.ticks + e } : Kernel n σ).updateSyncObjects e
      else { k with ticks := k.ticks + e }) := by
  have hticks : Kept k { k with ticks := k.ticks + e } :=
    ⟨fun _ _ => rfl, fun _ => rfl, fun _ h => h, rfl, fun h => h⟩
  split
  · exact hticks.trans (.updateSyncObjects _ e)
  · exact hticks

theorem loading_kept (cfg : Config) (k : Kernel n σ) (e : ℤ) : Kept k (loading cfg k e) ∧
    (cfg.isDynamicMode = true → (loading cfg k e).request = true → cfg.isHrtMode = true) := by
  have hsync := Kept.sync cfg k e
  unfold loading
  dsimp only
  generalize (if cfg.isSyncMode then ({ k with ticks := k.ticks + e } : Kernel n σ).updateSyncObjects e
    else { k with ticks := k.ticks + e }) = k₁ at hsync
  split
  · obtain ⟨hrequest, hserved⟩ := Kept.updateTaskRequest cfg k₁
    exact ⟨hsync.trans hrequest, hserved⟩
  · next hno => exact ⟨hsync, fun _ hr => absurd hr hno⟩

/-! ## What `UpdateTaskState` does to a marked slot -/

omit [SwitchStrategy (Fin n) σ] in
/-- INTERNAL: a slot loses its task and its mark together. -/
theorem updatedSlot_marked (cfg : Config) (api gone : Bool) (e : ℤ) (t : KernelTask) :
    if t.isSleeping && gone then (updatedSlot cfg api e gone t).user = none ∧
        (updatedSlot cfg api e gone t).removePending = false
    else (updatedSlot cfg api e gone t).user = t.user ∧
        (updatedSlot cfg api e gone t).removePending = t.removePending := by
  unfold updatedSlot
  by_cases hs : t.isSleeping = true
  · cases gone with
    | true =>
      rw [if_pos (by simp [hs]), if_pos hs, if_pos rfl]
      exact Enrolled.unbind_free cfg t
    | false =>
      rw [if_neg (by simp), if_pos hs, if_neg Bool.false_ne_true]
      exact ⟨rfl, rfl⟩
  · rw [if_neg (by simp [hs]), if_neg hs]
    split
    · exact ⟨rfl, rfl⟩
    · exact ⟨rfl, rfl⟩

section Enrolled

variable [StrategyMembers (Fin n) σ]

end Enrolled

/-! ## The FSM and the whole tick -/

variable [StrategyMembers (Fin n) σ]

omit [StrategyMembers (Fin n) σ] in
/-- INTERNAL: a tick serves the requests and makes none. -/
theorem onTick_request (hdyn : cfg.isDynamicMode = true) (k : Kernel n σ) (e : ℤ) :
    (k.onTick cfg e).1.request = true → cfg.isHrtMode = true := by
  have hlog := (updateFsmState_log cfg (asking cfg k e)).2
  have hrequest : (k.onTick cfg e).1.request = (loading cfg k e).request :=
    hlog.trans (updateTaskState_frame cfg (loading cfg k e) e).2.2.2
  rw [hrequest]
  exact (loading_kept cfg k e).2 hdyn

end Stk.Analysis
