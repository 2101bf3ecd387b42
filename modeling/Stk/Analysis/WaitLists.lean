import Stk.Model.KernelRun

/-!
# Wait lists

A wait object is in the wait list of its sync object, and there only: `Linked`.  No
condition on the run is needed, since only `WaitObject::Wake` and `SetupWait` write the
two sides and both keep them together.  `SameWaits` is the frame of all other kernel
functions.
-/

set_option autoImplicit false

namespace Stk.Analysis

open Stk.Model Stk.Model.Kernel

variable {n : ℕ} {σ : Type} [SwitchStrategy (Fin n) σ]

/-- The wait objects agree with the wait lists and the kernel's list of sync objects. -/
structure Linked (k : Kernel n σ) : Prop where
  mem : ∀ i o, (k.tasks i).waitObj.syncObj = some o ↔ i ∈ k.waitList o
  nodup : ∀ o, (k.waitList o).Nodup
  syncNodup : k.syncList.Nodup
  registered : ∀ o, k.waitList o ≠ [] → o ∈ k.syncList

/-- The wait objects, their lists and the time are the same in both states. -/
structure SameWaits (k k' : Kernel n σ) : Prop where
  waitObj : ∀ i, (k'.tasks i).waitObj = (k.tasks i).waitObj
  waitList : k'.waitList = k.waitList
  syncList : k'.syncList = k.syncList
  ticks : k'.ticks = k.ticks

/-- Beyond the waits, the pending calls and requests and the tasks of the slots are the
same. -/
structure SameCalls (k k' : Kernel n σ) : Prop extends SameWaits k k' where
  call : k'.call = k.call
  remove : ∀ i, (k'.tasks i).removePending = (k.tasks i).removePending
  request : ∀ i, (k'.tasks i).addTaskReq = (k.tasks i).addTaskReq
  user : ∀ i, (k'.tasks i).user = (k.tasks i).user

/-- Beyond that, the run-time weights are the same. -/
structure SameTasks (k k' : Kernel n σ) : Prop extends SameCalls k k' where
  weight : ∀ i, (k'.tasks i).rtWeight = (k.tasks i).rtWeight

/-- Slot `j`, if any, is bound to `u` and starts without a run-time weight; the rest is as in
`SameTasks`. -/
structure Binds (u : TId) (k k' : Kernel n σ) : Prop extends SameWaits k k' where
  call : k'.call = k.call
  remove : ∀ i, (k'.tasks i).removePending = (k.tasks i).removePending
  request : ∀ i, (k'.tasks i).addTaskReq = (k.tasks i).addTaskReq
  user : (∀ i, (k'.tasks i).user = (k.tasks i).user ∧ (k'.tasks i).rtWeight = (k.tasks i).rtWeight) ∨
    ∃ j, (k.tasks j).user = none ∧ (k'.tasks j).user = some u ∧
      (SwitchStrategy.weightApi (α := Fin n) σ = true →
        SwitchStrategy.priorityInheritanceApi (α := Fin n) σ = true →
        (k'.tasks j).rtWeight = noWeight) ∧
      ∀ i, i ≠ j → (k'.tasks i).user = (k.tasks i).user ∧ (k'.tasks i).rtWeight = (k.tasks i).rtWeight

/-- The slot `t` is rewritten to `t'` within the frame of `SameTasks`. -/
structure KeepsTask (t t' : KernelTask) : Prop where
  waitObj : t'.waitObj = t.waitObj
  remove : t'.removePending = t.removePending
  request : t'.addTaskReq = t.addTaskReq
  user : t'.user = t.user
  weight : t'.rtWeight = t.rtWeight

namespace SameWaits

variable {k k' k'' : Kernel n σ}

omit [SwitchStrategy (Fin n) σ] in
/-- INTERNAL: nothing changes. -/
@[refl] theorem refl (k : Kernel n σ) : SameWaits k k :=
  ⟨fun _ => rfl, rfl, rfl, rfl⟩

omit [SwitchStrategy (Fin n) σ] in
/-- INTERNAL: two steps within the frame. -/
@[trans] theorem trans (h : SameWaits k k') (h' : SameWaits k' k'') : SameWaits k k'' :=
  ⟨fun i => (h'.waitObj i).trans (h.waitObj i), h'.waitList.trans h.waitList,
    h'.syncList.trans h.syncList, h'.ticks.trans h.ticks⟩

omit [SwitchStrategy (Fin n) σ] in
/-- INTERNAL: the wait lists stay consistent within the frame. -/
theorem linked (h : SameWaits k k') (hk : Linked k) : Linked k' where
  mem i o := by rw [h.waitObj i, h.waitList]; exact hk.mem i o
  nodup o := by rw [h.waitList]; exact hk.nodup o
  syncNodup := by rw [h.syncList]; exact hk.syncNodup
  registered o := by rw [h.waitList, h.syncList]; exact hk.registered o

omit [SwitchStrategy (Fin n) σ] in
/-- INTERNAL: a slot is written, and its wait object stays. -/
theorem setTask (k : Kernel n σ) (i : Fin n) {f : KernelTask → KernelTask}
    (hf : ∀ t, (f t).waitObj = t.waitObj) : SameWaits k (k.setTask i f) := by
  refine ⟨fun j => ?_, rfl, rfl, rfl⟩
  by_cases hj : j = i
  · subst hj; simp [Kernel.setTask, hf]
  · simp [Kernel.setTask, hj]

omit [SwitchStrategy (Fin n) σ] in
/-- INTERNAL: a fold of functions that leave the wait objects alone. -/
theorem foldl {A : Type} {f : Kernel n σ → A → Kernel n σ} (hf : ∀ k a, SameWaits k (f k a))
    (l : List A) (k : Kernel n σ) : SameWaits k (l.foldl f k) :=
  Runs.foldl_keeps (I := SameWaits k) (fun k' a _ h => h.trans (hf k' a)) (refl k)

end SameWaits

namespace SameCalls

variable {k k' k'' : Kernel n σ}

omit [SwitchStrategy (Fin n) σ] in
/-- INTERNAL: nothing changes. -/
@[refl] theorem refl (k : Kernel n σ) : SameCalls k k :=
  ⟨.refl k, rfl, fun _ => rfl, fun _ => rfl, fun _ => rfl⟩

omit [SwitchStrategy (Fin n) σ] in
/-- INTERNAL: two steps within the frame. -/
@[trans] theorem trans (h : SameCalls k k') (h' : SameCalls k' k'') : SameCalls k k'' where
  toSameWaits := h.toSameWaits.trans h'.toSameWaits
  call := h'.call.trans h.call
  remove i := (h'.remove i).trans (h.remove i)
  request i := (h'.request i).trans (h.request i)
  user i := (h'.user i).trans (h.user i)

end SameCalls

namespace SameTasks

variable {k k' k'' : Kernel n σ}

omit [SwitchStrategy (Fin n) σ] in
/-- INTERNAL: the fields that are not framed may change. -/
theorem of_tasks (htasks : k'.tasks = k.tasks) (hlist : k'.waitList = k.waitList)
    (hsync : k'.syncList = k.syncList) (hcall : k'.call = k.call) (hticks : k'.ticks = k.ticks) :
    SameTasks k k' :=
  ⟨⟨⟨fun _ => by rw [htasks], hlist, hsync, hticks⟩, hcall, fun _ => by rw [htasks],
    fun _ => by rw [htasks], fun _ => by rw [htasks]⟩, fun _ => by rw [htasks]⟩

omit [SwitchStrategy (Fin n) σ] in
/-- INTERNAL: nothing changes. -/
@[refl] theorem refl (k : Kernel n σ) : SameTasks k k := of_tasks rfl rfl rfl rfl rfl

omit [SwitchStrategy (Fin n) σ] in
/-- INTERNAL: two steps within the frame. -/
@[trans] theorem trans (h : SameTasks k k') (h' : SameTasks k' k'') : SameTasks k k'' where
  toSameCalls := h.toSameCalls.trans h'.toSameCalls
  weight i := (h'.weight i).trans (h.weight i)

omit [SwitchStrategy (Fin n) σ] in
/-- INTERNAL: a failed assertion is recorded and nothing else. -/
theorem fault (k : Kernel n σ) (f : Fault) : SameTasks k (k.fault f) := of_tasks rfl rfl rfl rfl rfl

omit [SwitchStrategy (Fin n) σ] in
/-- INTERNAL: a slot is written within the frame. -/
theorem setTask (k : Kernel n σ) (i : Fin n) {f : KernelTask → KernelTask}
    (hf : KeepsTask (k.tasks i) (f (k.tasks i))) : SameTasks k (k.setTask i f) := by
  have hslot : ∀ j, KeepsTask (k.tasks j) ((k.setTask i f).tasks j) := by
    intro j
    by_cases hj : j = i
    · subst hj; simpa [Kernel.setTask] using hf
    · simp only [Kernel.setTask, Function.update_of_ne hj]
      exact ⟨rfl, rfl, rfl, rfl, rfl⟩
  exact ⟨⟨⟨fun j => (hslot j).waitObj, rfl, rfl, rfl⟩, rfl, fun j => (hslot j).remove,
    fun j => (hslot j).request, fun j => (hslot j).user⟩, fun j => (hslot j).weight⟩

omit [SwitchStrategy (Fin n) σ] in
/-- INTERNAL: a fold of functions that stay within the frame. -/
theorem foldl {A : Type} {f : Kernel n σ → A → Kernel n σ} (hf : ∀ k a, SameTasks k (f k a))
    (l : List A) (k : Kernel n σ) : SameTasks k (l.foldl f k) :=
  Runs.foldl_keeps (I := SameTasks k) (fun k' a _ h => h.trans (hf k' a)) (refl k)

/-- INTERNAL: a call of the strategy changes its own state only. -/
theorem callStrategy (cfg : Config) (k : Kernel n σ) (c : StrategyCall (Fin n)) :
    SameTasks k (k.callStrategy cfg c).2 := by
  unfold Kernel.callStrategy
  split
  · exact of_tasks rfl rfl rfl rfl rfl
  · exact fault k _

/-- INTERNAL: a slot is written and the strategy is told. -/
theorem setTask_call (cfg : Config) (k : Kernel n σ) (i : Fin n) {f : KernelTask → KernelTask}
    (hf : KeepsTask (k.tasks i) (f (k.tasks i))) (c : StrategyCall (Fin n)) :
    SameTasks k ((k.setTask i f).callStrategy cfg c).2 :=
  (setTask k i hf).trans (callStrategy cfg _ c)

/-- INTERNAL: a sleep is scheduled in `m_time_sleep` alone. -/
theorem scheduleSleep (k : Kernel n σ) (i : Fin n) (ticks : ℤ) :
    SameTasks k (k.scheduleSleep i ticks) :=
  setTask k i ⟨rfl, rfl, rfl, rfl, rfl⟩

omit [SwitchStrategy (Fin n) σ] in
/-- INTERNAL: `Wake` ends the sleep of a task, not its wait. -/
theorem wakeTask (k : Kernel n σ) (i : Fin n) : SameTasks k (k.wakeTask i) := by
  unfold Kernel.wakeTask
  split
  · exact setTask k i ⟨rfl, rfl, rfl, rfl, rfl⟩
  · exact (fault k _).trans (setTask _ i ⟨rfl, rfl, rfl, rfl, rfl⟩)

/-- INTERNAL: a strategy is told of a sleep that has begun. -/
theorem deliverSleep (cfg : Config) (k : Kernel n σ) (i : Fin n) :
    SameTasks k (k.deliverSleep cfg i) := by
  unfold Kernel.deliverSleep
  split
  · exact setTask_call cfg k i ⟨rfl, rfl, rfl, rfl, rfl⟩ _
  · exact refl k

/-- INTERNAL: a tick of a sleep. -/
theorem advanceSleep (cfg : Config) (elapsed : ℤ) (k : Kernel n σ) (i : Fin n) :
    SameTasks k (k.advanceSleep cfg elapsed i) := by
  unfold Kernel.advanceSleep
  dsimp only
  split
  · exact setTask_call cfg k i ⟨rfl, rfl, rfl, rfl, rfl⟩ _
  · exact setTask k i ⟨rfl, rfl, rfl, rfl, rfl⟩

omit [SwitchStrategy (Fin n) σ] in
/-- INTERNAL: a tick of a job. -/
theorem advanceDuration (cfg : Config) (elapsed : ℤ) (k : Kernel n σ) (i : Fin n) :
    SameTasks k (k.advanceDuration cfg elapsed i) := by
  unfold Kernel.advanceDuration
  split
  · have hset := setTask k i (f := fun t => { t with
      hrt := { t.hrt with duration := t.hrt.duration + elapsed } })
      ⟨rfl, rfl, rfl, rfl, rfl⟩
    dsimp only
    split
    · exact hset.trans (fault _ _)
    · exact hset
  · exact refl k

/-- INTERNAL: `FetchNextEvent` asks the strategy. -/
theorem fetchNextEvent (cfg : Config) (k : Kernel n σ) :
    SameTasks k (k.fetchNextEvent cfg).2.2 := by
  have hcall := callStrategy cfg k .getNext
  unfold Kernel.fetchNextEvent
  generalize k.callStrategy cfg .getNext = f at hcall
  obtain ⟨_ | next, k₁⟩ := f
  · dsimp only
    split <;> exact hcall
  · dsimp only
    split
    · exact hcall.trans (fault _ _)
    · exact hcall

/-- INTERNAL: a job that is done starts anew. -/
theorem hrtOnSwitchedOut (k : Kernel n σ) (i : Fin n) : SameTasks k (k.hrtOnSwitchedOut i) := by
  refine setTask k i ?_
  unfold KernelTask.hrtOnSwitchedOut
  dsimp only
  split <;> exact ⟨rfl, rfl, rfl, rfl, rfl⟩

/-- INTERNAL: a switch moves `m_task_now` on. -/
theorem stateSwitch (cfg : Config) (k : Kernel n σ) (now next : Option (Fin n)) :
    SameTasks k (k.stateSwitch cfg now next).1 := by
  unfold Kernel.stateSwitch
  split
  · next now next =>
    split
    · have hset : SameTasks k { k with taskNow := some next } := of_tasks rfl rfl rfl rfl rfl
      dsimp only
      split
      · exact hset.trans (hrtOnSwitchedOut _ now)
      · exact hset
    · exact refl k
  · exact fault k _

omit [SwitchStrategy (Fin n) σ] in
/-- INTERNAL: the processor wakes to a task. -/
theorem stateWake (k : Kernel n σ) (next : Option (Fin n)) : SameTasks k (k.stateWake next).1 := by
  unfold Kernel.stateWake
  split
  · exact of_tasks rfl rfl rfl rfl rfl
  · exact fault k _

/-- INTERNAL: the processor goes to sleep. -/
theorem stateSleep (cfg : Config) (k : Kernel n σ) (now : Option (Fin n)) :
    SameTasks k (k.stateSleep cfg now).1 := by
  unfold Kernel.stateSleep
  split
  · next now first _ =>
    have hset : SameTasks k { k with taskNow := some first } := of_tasks rfl rfl rfl rfl rfl
    dsimp only
    split
    · exact hset.trans (hrtOnSwitchedOut _ now)
    · exact hset
  · exact fault k _
  · exact fault k _

omit [SwitchStrategy (Fin n) σ] in
/-- INTERNAL: the scheduler stops. -/
theorem stateExit (cfg : Config) (k : Kernel n σ) : SameTasks k (k.stateExit cfg).1 := by
  unfold Kernel.stateExit
  split
  · exact of_tasks rfl rfl rfl rfl rfl
  · exact refl k

/-- INTERNAL: each of the four actions of the state machine. -/
theorem updateFsmState (cfg : Config) (k : Kernel n σ) : SameTasks k (k.updateFsmState cfg).1 := by
  have hfetch := fetchNextEvent cfg k
  unfold Kernel.updateFsmState
  dsimp only
  generalize k.fetchNextEvent cfg = r at hfetch
  obtain ⟨event, next, k₁⟩ := r
  have hstate : ∀ {k' : Kernel n σ} (s : FsmState), SameTasks k₁ k' →
      SameTasks k { k' with fsmState := s } := by
    intro k' s h
    have hset : SameTasks k' { k' with fsmState := s } := of_tasks rfl rfl rfl rfl rfl
    exact (hfetch.trans h).trans hset
  dsimp only
  split
  · exact hstate _ (stateSwitch cfg _ _ _)
  · exact hstate _ (stateSleep cfg _ _)
  · exact hstate _ (stateWake _ _)
  · exact hstate _ (stateExit cfg _)
  · exact hfetch

/-- INTERNAL: `OnStart` tells the strategy of the sleeping tasks and takes the first one. -/
theorem onStart (cfg : Config) (k : Kernel n σ) : SameTasks k (k.onStart cfg) := by
  unfold Kernel.onStart
  dsimp only
  have hdeliver : SameTasks k ((List.finRange n).foldl (fun k i =>
      if (k.tasks i).isSleeping then k.deliverSleep cfg i else k) k) := by
    refine foldl (fun k i => ?_) _ _
    split
    · exact deliverSleep cfg k i
    · exact refl k
  generalize (List.finRange n).foldl (fun k i =>
    if (k.tasks i).isSleeping then k.deliverSleep cfg i else k) k = k₁ at hdeliver
  have hswitch : SameTasks k₁ { k₁ with fsmState := .switching } := of_tasks rfl rfl rfl rfl rfl
  have h := (hdeliver.trans hswitch).trans (fetchNextEvent cfg _)
  generalize ({ k₁ with fsmState := .switching } : Kernel n σ).fetchNextEvent cfg = r at h
  obtain ⟨event, next, k₂⟩ := r
  dsimp only at h ⊢
  split
  · exact h.trans (of_tasks rfl rfl rfl rfl rfl)
  · split
    · exact h.trans (of_tasks rfl rfl rfl rfl rfl)
    · exact h.trans (of_tasks rfl rfl rfl rfl rfl)
  · exact h.trans (of_tasks rfl rfl rfl rfl rfl)

/-- INTERNAL: `Sleep` waits for no sync object. -/
theorem onTaskSleep (cfg : Config) (k : Kernel n σ) (i : Fin n) (ticks : ℤ) :
    SameTasks k (k.onTaskSleep cfg i ticks) := by
  unfold Kernel.onTaskSleep
  have hdone : SameTasks k (if cfg.isHrtMode then
      k.setTask i (fun t => { t with hrt := { t.hrt with done := true } }) else k) := by
    split
    · exact setTask k i ⟨rfl, rfl, rfl, rfl, rfl⟩
    · exact refl k
  dsimp only
  split
  · exact hdone.trans (scheduleSleep _ i ticks)
  · exact hdone

/-- INTERNAL: `SleepUntil` waits for no sync object. -/
theorem onTaskSleepUntil (k : Kernel n σ) (i : Fin n) (timestamp : ℤ) :
    SameTasks k (k.onTaskSleepUntil i timestamp) := by
  unfold Kernel.onTaskSleepUntil
  dsimp only
  split
  · exact scheduleSleep k i _
  · exact refl k

/-- INTERNAL: a suspended task keeps its wait. -/
theorem suspendTask (k : Kernel n σ) (u : TId) : SameTasks k (k.suspendTask u) := by
  unfold Kernel.suspendTask
  split
  · exact fault k _
  · split
    · exact refl k
    · exact scheduleSleep k _ _

omit [SwitchStrategy (Fin n) σ] in
/-- INTERNAL: a resumed task keeps its wait. -/
theorem resumeTask (k : Kernel n σ) (u : TId) : SameTasks k (k.resumeTask u) := by
  unfold Kernel.resumeTask
  split
  · exact fault k _
  · split
    · exact wakeTask k _
    · exact refl k

/-- INTERNAL: the scheduler is suspended as a whole. -/
theorem onSuspend (k : Kernel n σ) : SameTasks k k.onSuspend := by
  unfold Kernel.onSuspend
  split
  · exact refl k
  · split
    · exact refl k
    · exact scheduleSleep k _ _

end SameTasks

namespace SameCalls

variable {k k' : Kernel n σ}

/-- INTERNAL: a weight is set. -/
theorem setCurrentWeight (k : Kernel n σ) (i : Fin n) (w : ℤ) :
    SameCalls k (k.setCurrentWeight i w) := by
  unfold Kernel.setCurrentWeight
  split
  · refine ⟨.setTask k i (fun _ => rfl), rfl, fun j => ?_, fun j => ?_, fun j => ?_⟩ <;>
      by_cases hj : j = i <;> simp [Kernel.setTask, hj]
  · exact refl k

/-- INTERNAL: an owner inherits a weight. -/
theorem onInheritWeight (cfg : Config) (k : Kernel n σ) (u : TId) (w : ℤ) :
    SameCalls k (k.onInheritWeight cfg u w) := by
  unfold Kernel.onInheritWeight
  split
  · exact refl k
  · split
    · exact refl k
    · split
      · exact (SameTasks.fault k _).toSameCalls
      · dsimp only
        split
        · exact (setCurrentWeight k _ w).trans (SameTasks.callStrategy cfg _ _).toSameCalls
        · exact refl k

/-- INTERNAL: an owner gives an inherited weight back. -/
theorem onRestoreWeight (cfg : Config) (k : Kernel n σ) (u : TId) (o : Option SyncId) :
    SameCalls k (k.onRestoreWeight cfg u o) := by
  unfold Kernel.onRestoreWeight
  split
  · exact refl k
  · split
    · exact (SameTasks.fault k _).toSameCalls
    · exact (setCurrentWeight k _ _).trans (SameTasks.callStrategy cfg _ _).toSameCalls

end SameCalls

namespace Binds

variable {k k' k'' : Kernel n σ} {u : TId}

/-- INTERNAL: no slot need be bound. -/
theorem of_sameTasks (u : TId) (h : SameTasks k k') : Binds u k k' :=
  ⟨h.toSameWaits, h.call, h.remove, h.request, Or.inl (fun i => ⟨h.user i, h.weight i⟩)⟩

/-- INTERNAL: steps within the frame may follow. -/
theorem trans_sameTasks (h : Binds u k k') (h' : SameTasks k' k'') : Binds u k k'' where
  toSameWaits := h.toSameWaits.trans h'.toSameWaits
  call := h'.call.trans h.call
  remove i := (h'.remove i).trans (h.remove i)
  request i := (h'.request i).trans (h.request i)
  user := by
    simp only [h'.user, h'.weight]
    exact h.user

/-- INTERNAL: a free slot is bound to `u`. -/
theorem setTask (h : SameTasks k k') {i : Fin n} (hfree : (k.tasks i).user = none)
    {f : KernelTask → KernelTask} (huser : (f (k'.tasks i)).user = some u)
    (hwait : ∀ t, (f t).waitObj = t.waitObj) (hremove : ∀ t, (f t).removePending = t.removePending)
    (hrequest : ∀ t, (f t).addTaskReq = t.addTaskReq)
    (hweight : SwitchStrategy.weightApi (α := Fin n) σ = true →
      SwitchStrategy.priorityInheritanceApi (α := Fin n) σ = true →
      (f (k'.tasks i)).rtWeight = noWeight) : Binds u k (k'.setTask i f) := by
  refine ⟨h.toSameWaits.trans (.setTask k' i hwait), h.call, fun j => ?_, fun j => ?_,
    Or.inr ⟨i, hfree, by simpa [Kernel.setTask] using huser, ?_, fun j hj => ?_⟩⟩
  · rw [← h.remove]
    by_cases hj : j = i
    · subst hj; simp [Kernel.setTask, hremove]
    · simp [Kernel.setTask, hj]
  · rw [← h.request]
    by_cases hj : j = i
    · subst hj; simp [Kernel.setTask, hrequest]
    · simp [Kernel.setTask, hj]
  · simpa [Kernel.setTask] using hweight
  · rw [← h.user, ← h.weight]
    simp [Kernel.setTask, hj]

/-- INTERNAL: a new task gets a slot that was free. -/
theorem allocateNewTask (k : Kernel n σ) (u : TId) : Binds u k (k.allocateNewTask u).2 := by
  unfold Kernel.allocateNewTask
  have hstart : SameTasks k
      (if (k.findTaskByUserTask u).isSome then k.fault .taskCollision else k) := by
    split
    · exact .fault k _
    · exact .refl k
  generalize (if (k.findTaskByUserTask u).isSome then k.fault .taskCollision else k) = k₁ at hstart
  dsimp only
  split
  · exact of_sameTasks u (hstart.trans (.fault _ _))
  · next i hi =>
    have hfree : (k.tasks i).user = none := by
      rw [← hstart.user]
      simpa [KernelTask.isBusy] using List.find?_some hi
    dsimp only
    split
    · next hpi =>
      unfold Kernel.setCurrentWeight
      split
      · have hset : (k₁.setTask i (fun t => { t with user := some u })).setTask i
            (fun t => { t with rtWeight := noWeight }) =
            k₁.setTask i (fun t => { t with user := some u, rtWeight := noWeight }) := by
          simp [Kernel.setTask]
        rw [hset]
        exact setTask hstart hfree rfl (fun _ => rfl) (fun _ => rfl) (fun _ => rfl) (fun _ _ => rfl)
      · next hapi =>
        exact setTask hstart hfree rfl (fun _ => rfl) (fun _ => rfl) (fun _ => rfl)
          (fun hw _ => absurd hw hapi)
    · next hpi =>
      exact setTask hstart hfree rfl (fun _ => rfl) (fun _ => rfl) (fun _ => rfl)
        (fun _ hp => absurd hp hpi)

/-- INTERNAL: `AddTask` binds at most one slot. -/
theorem allocateAndAddNewTask (cfg : Config) (k : Kernel n σ) (u : TId) :
    Binds u k (k.allocateAndAddNewTask cfg u) := by
  have halloc := allocateNewTask k u
  unfold Kernel.allocateAndAddNewTask
  generalize k.allocateNewTask u = f at halloc
  obtain ⟨_ | i, k₁⟩ := f
  · exact halloc
  · exact halloc.trans_sameTasks (.callStrategy cfg k₁ _)

/-- INTERNAL: `AddTask` of a periodic task binds at most one slot. -/
theorem hrtAllocateAndAddNewTask (cfg : Config) (k : Kernel n σ) (u : TId)
    (periodicity deadline startDelay : ℤ) :
    Binds u k (k.hrtAllocateAndAddNewTask cfg u periodicity deadline startDelay) := by
  have halloc := allocateNewTask k u
  unfold Kernel.hrtAllocateAndAddNewTask
  generalize k.allocateNewTask u = f at halloc
  obtain ⟨_ | i, k₁⟩ := f
  · exact halloc
  · refine halloc.trans_sameTasks (.setTask_call cfg k₁ i ?_ _)
    unfold KernelTask.hrtInit
    dsimp only
    split <;> exact ⟨rfl, rfl, rfl, rfl, rfl⟩

end Binds

namespace SameWaits

variable {k k' : Kernel n σ}

/-- INTERNAL: a removal leaves the wait object of the slot. -/
theorem removeTask (cfg : Config) (k : Kernel n σ) (i : Fin n) :
    SameWaits k (k.removeTask cfg i) := by
  unfold Kernel.removeTask
  dsimp only
  have hexit : SameTasks k { k with exits := k.exits ++ (k.tasks i).user.toList } :=
    .of_tasks rfl rfl rfl rfl rfl
  have hcall := hexit.trans (.callStrategy cfg _ (.removeTask i))
  have hunbind : ∀ t : KernelTask, (t.unbind cfg).waitObj = t.waitObj := by
    intro t
    unfold KernelTask.unbind
    dsimp only
    split <;> rfl
  refine hcall.toSameWaits.trans ?_
  split
  · have h := (SameTasks.fault _ .unbindWaiting).toSameWaits.trans
      (setTask (({ k with exits := k.exits ++ (k.tasks i).user.toList }.callStrategy cfg
        (.removeTask i)).2.fault .unbindWaiting) i hunbind)
    exact ⟨h.waitObj, h.waitList, h.syncList, h.ticks⟩
  · have h := setTask ({ k with exits := k.exits ++ (k.tasks i).user.toList }.callStrategy cfg
        (.removeTask i)).2 i hunbind
    exact ⟨h.waitObj, h.waitList, h.syncList, h.ticks⟩

/-- INTERNAL: requests are served without a wait. -/
theorem updateTaskRequest (cfg : Config) (k : Kernel n σ) :
    SameWaits k (k.updateTaskRequest cfg) := by
  unfold Kernel.updateTaskRequest
  split
  · have hreq : SameWaits k { k with request := false } := ⟨fun _ => rfl, rfl, rfl, rfl⟩
    refine hreq.trans (foldl (fun k i => ?_) _ _)
    split
    · exact refl k
    · refine (Binds.allocateAndAddNewTask cfg k _).toSameWaits.trans (setTask _ i ?_)
      exact fun _ => rfl
  · exact refl k

/-- INTERNAL: the work of a tick on one slot. -/
theorem updateSlot (cfg : Config) (elapsed : ℤ) (acc : Kernel n σ × ℤ) (i : Fin n) :
    SameWaits acc.1 (Kernel.updateSlot cfg elapsed acc i).1 := by
  unfold Kernel.updateSlot
  dsimp only
  split
  · exact removeTask cfg _ i
  · split
    · exact ((SameTasks.deliverSleep cfg _ i).trans (.advanceSleep cfg elapsed _ i)).toSameWaits
    · exact (SameTasks.advanceDuration cfg elapsed _ i).toSameWaits

/-- INTERNAL: the work of a tick on all slots. -/
theorem updateTaskState (cfg : Config) (k : Kernel n σ) (elapsed : ℤ) :
    SameWaits k (k.updateTaskState cfg elapsed).1 :=
  Runs.foldl_keeps (I := fun acc : Kernel n σ × ℤ => SameWaits k acc.1)
    (fun acc i _ h => h.trans (updateSlot cfg elapsed acc i)) (refl k)

/-- INTERNAL: a removal is scheduled, not made. -/
theorem scheduleRemoval (cfg : Config) (k : Kernel n σ) (i : Fin n) :
    SameWaits k (k.scheduleRemoval cfg i) := by
  refine setTask k i (fun t => ?_)
  unfold KernelTask.scheduleRemoval
  dsimp only
  split <;> rfl

end SameWaits

/-! ## The functions that link and unlink wait objects -/

variable {k : Kernel n σ}

/-- INTERNAL: a new kernel has no waits. -/
theorem Linked.initial : Linked (initial : Kernel n σ) where
  mem := by simp [Kernel.initial, KernelTask.unbound]
  nodup := by simp [Kernel.initial]
  syncNodup := by simp [Kernel.initial]
  registered := by simp [Kernel.initial]

omit [SwitchStrategy (Fin n) σ] in
/-- INTERNAL: the result of a wait is read off the flag of the wait object. -/
theorem waitResult_flag {i : Fin n} {r : WaitResult} (hr : k.waitResult i = some r) :
    (k.tasks i).waitObj.timeout = decide (r = .timeout) := by
  unfold Kernel.waitResult at hr
  split at hr
  · cases hr
  · split at hr
    · cases hr
    · obtain rfl := Option.some.inj hr
      cases (k.tasks i).waitObj.timeout <;> rfl

omit [SwitchStrategy (Fin n) σ] in
/-- INTERNAL: a call that has a result is over. -/
theorem waitResult_awake {i : Fin n} {r : WaitResult} (hr : k.waitResult i = some r) :
    (k.tasks i).isSleeping = false := by
  unfold Kernel.waitResult at hr
  split at hr
  · cases hr
  · split at hr
    · cases hr
    · next hs => simpa using hs

omit [SwitchStrategy (Fin n) σ] in
/-- INTERNAL: `WaitObject::Wake` of a linked wait object, written out
(stk.h:472-483, 194-200). -/
theorem wakeWaitObj_eq {i : Fin n} {o : SyncId} (h : (k.tasks i).waitObj.syncObj = some o)
    (timeout : Bool) :
    k.wakeWaitObj i timeout = { k with
      tasks := Function.update k.tasks i
        { k.tasks i with waitObj := ⟨none, timeout, 0⟩, timeSleep := -1 }
      waitList := Function.update k.waitList o ((k.waitList o).erase i)
      call := Function.update k.call i
        ((k.call i).map (fun c : WaitCall => { c with woken := some timeout }))
      faults := if (k.tasks i).isSleeping then k.faults else k.faults ++ [.wakeNotSleeping] } := by
  unfold Kernel.wakeWaitObj Kernel.wakeTask
  simp only [h, Kernel.setTask, Function.update_self, KernelTask.isSleeping, decide_eq_true_eq]
  split
  · simp
  · simp [Kernel.fault]

/-- INTERNAL: `OnTaskWait` of a task that is not waiting, written out
(stk.h:1808-1832). -/
theorem onTaskWait_eq {i : Fin n} {timeout : ℤ} (htime : timeout ≠ 0)
    (h : (k.tasks i).waitObj.syncObj = none) (o : SyncId) :
    k.onTaskWait i o timeout = { k with
      tasks := Function.update k.tasks i
        ({ k.tasks i with waitObj := ⟨some o, false, timeout⟩ }.scheduleSleep
          (SwitchStrategy.sleepEventApi σ) waitInfinite)
      waitList := Function.update k.waitList o (k.waitList o ++ [i])
      syncList := if o ∈ k.syncList then k.syncList else k.syncList ++ [o]
      call := Function.update k.call i (some ⟨o, timeout, k.ticks, none⟩) } := by
  unfold Kernel.onTaskWait
  rw [if_neg htime, if_neg (by simp [KernelTask.isWaiting, h])]
  simp only [Kernel.setTask, Kernel.scheduleSleep, Function.update_self, Function.update_idem]
  rfl

omit [SwitchStrategy (Fin n) σ] in
/-- `WaitObject::Wake` takes the task out of the wait list and its record at once. -/
theorem wakeWaitObj_linked (hk : Linked k) (i : Fin n) (timeout : Bool) :
    Linked (k.wakeWaitObj i timeout) := by
  cases h : (k.tasks i).waitObj.syncObj with
  | none =>
    unfold Kernel.wakeWaitObj
    simp only [h]
    exact (SameTasks.fault k _).linked hk
  | some o =>
    rw [wakeWaitObj_eq h]
    refine ⟨fun j o' => ?_, fun o' => ?_, hk.syncNodup, fun o' hne => ?_⟩
    · dsimp only
      by_cases hj : j = i
      · subst hj
        simp only [Function.update_self, reduceCtorEq, false_iff]
        by_cases ho : o' = o
        · subst ho
          rw [Function.update_self]
          exact (hk.nodup o').not_mem_erase
        · rw [Function.update_of_ne ho, ← hk.mem, h]
          simpa using Ne.symm ho
      · rw [Function.update_of_ne hj, hk.mem]
        by_cases ho : o' = o
        · subst ho
          rw [Function.update_self, List.mem_erase_of_ne hj]
        · rw [Function.update_of_ne ho]
    · dsimp only
      by_cases ho : o' = o
      · subst ho
        rw [Function.update_self]
        exact (hk.nodup o').erase i
      · rw [Function.update_of_ne ho]
        exact hk.nodup o'
    · dsimp only at hne
      refine hk.registered o' (fun hnil => hne ?_)
      by_cases ho : o' = o
      · subst ho; simp [hnil]
      · rw [Function.update_of_ne ho, hnil]

/-- `OnTaskWait` puts the task into the wait list and its record at once. -/
theorem onTaskWait_linked (hk : Linked k) (i : Fin n) (o : SyncId) (timeout : ℤ) :
    Linked (k.onTaskWait i o timeout) := by
  by_cases htime : timeout = 0
  · unfold Kernel.onTaskWait
    rw [if_pos htime]
    exact (SameTasks.fault k _).linked hk
  cases h : (k.tasks i).waitObj.syncObj with
  | some o' =>
    unfold Kernel.onTaskWait
    rw [if_neg htime, if_pos (by simp [KernelTask.isWaiting, h])]
    exact (SameTasks.fault k _).linked hk
  | none =>
    have hfree : ∀ o', i ∉ k.waitList o' := by
      intro o' hmem
      rw [← hk.mem, h] at hmem
      cases hmem
    rw [onTaskWait_eq htime h]
    refine ⟨fun j o' => ?_, fun o' => ?_, ?_, fun o' hne => ?_⟩
    · dsimp only
      by_cases hj : j = i
      · subst hj
        simp only [Function.update_self, KernelTask.scheduleSleep, Option.some.injEq]
        by_cases ho : o' = o
        · subst ho; simp
        · simp [Function.update_of_ne ho, hfree o', Ne.symm ho]
      · rw [Function.update_of_ne hj, hk.mem]
        by_cases ho : o' = o
        · subst ho; simp [hj]
        · rw [Function.update_of_ne ho]
    · dsimp only
      by_cases ho : o' = o
      · subst ho
        rw [Function.update_self, List.nodup_append]
        refine ⟨hk.nodup o', List.nodup_singleton i, ?_⟩
        rintro a ha b hb rfl
        exact hfree o' (List.mem_singleton.mp hb ▸ ha)
      · rw [Function.update_of_ne ho]
        exact hk.nodup o'
    · dsimp only
      split
      · exact hk.syncNodup
      · next hnew =>
        rw [List.nodup_append]
        refine ⟨hk.syncNodup, List.nodup_singleton o, ?_⟩
        rintro a ha b hb rfl
        exact hnew (List.mem_singleton.mp hb ▸ ha)
    · dsimp only at hne ⊢
      by_cases ho : o' = o
      · subst ho
        split
        · assumption
        · simp
      · rw [Function.update_of_ne ho] at hne
        have hmem := hk.registered o' hne
        split
        · exact hmem
        · exact List.mem_append_left _ hmem

omit [SwitchStrategy (Fin n) σ] in
/-- INTERNAL: a slot is written, and its sync object stays. -/
theorem setTask_syncObj {i : Fin n} {f : KernelTask → KernelTask}
    (hf : (f (k.tasks i)).waitObj.syncObj = (k.tasks i).waitObj.syncObj) (j : Fin n) :
    ((k.setTask i f).tasks j).waitObj.syncObj = (k.tasks j).waitObj.syncObj := by
  by_cases hj : j = i
  · subst hj; simp [Kernel.setTask, hf]
  · simp [Kernel.setTask, hj]

omit [SwitchStrategy (Fin n) σ] in
/-- INTERNAL: a slot that keeps its sync object may be written. -/
theorem setTask_linked (hk : Linked k) {i : Fin n} {f : KernelTask → KernelTask}
    (hf : (f (k.tasks i)).waitObj.syncObj = (k.tasks i).waitObj.syncObj) :
    Linked (k.setTask i f) :=
  ⟨fun j o => by rw [setTask_syncObj hf]; exact hk.mem j o, hk.nodup, hk.syncNodup, hk.registered⟩

/-- INTERNAL: the countdown of a wait does not end it yet. -/
theorem tickWaitObj_syncObj (elapsed : ℤ) (t : KernelTask) :
    (t.tickWaitObj elapsed).waitObj.syncObj = t.waitObj.syncObj := by
  unfold KernelTask.tickWaitObj
  split
  · split <;> rfl
  · rfl

omit [SwitchStrategy (Fin n) σ] in
/-- INTERNAL: a tick of one wait object ends its wait or counts down. -/
theorem tickWaitObj_linked (hk : Linked k) (elapsed : ℤ) (i : Fin n) :
    Linked (Kernel.tickWaitObj elapsed k i) := by
  have hset := setTask_linked (i := i) hk (tickWaitObj_syncObj elapsed _)
  unfold Kernel.tickWaitObj
  dsimp only
  split
  · exact wakeWaitObj_linked hset i true
  · exact hset

omit [SwitchStrategy (Fin n) σ] in
/-- INTERNAL: a tick of the wait objects of one sync object. -/
theorem updateSyncObject_linked (hk : Linked k) (elapsed : ℤ) (o : SyncId) :
    Linked (if (k.tickSyncObject elapsed o).waitList o = [] then
      { k.tickSyncObject elapsed o with syncList := (k.tickSyncObject elapsed o).syncList.erase o }
      else k.tickSyncObject elapsed o) := by
  have htick : Linked (k.tickSyncObject elapsed o) :=
    Runs.foldl_keeps (fun k i _ hk => tickWaitObj_linked hk elapsed i) hk
  split
  · next hnil =>
    refine ⟨htick.mem, htick.nodup, htick.syncNodup.erase o, fun o' hne => ?_⟩
    have hne' : o' ≠ o := by
      rintro rfl
      exact hne hnil
    exact (List.mem_erase_of_ne hne').mpr (htick.registered o' hne)
  · exact htick

omit [SwitchStrategy (Fin n) σ] in
/-- INTERNAL: a tick of all wait objects. -/
theorem updateSyncObjects_linked (hk : Linked k) (elapsed : ℤ) :
    Linked (k.updateSyncObjects elapsed) :=
  Runs.foldl_keeps (fun _ o _ hk => updateSyncObject_linked hk elapsed o) hk

/-- INTERNAL: the handler of a tick. -/
theorem onTick_linked (cfg : Config) (hk : Linked k) (elapsed : ℤ) :
    Linked (k.onTick cfg elapsed).1 := by
  unfold Kernel.onTick Kernel.updateTasks
  dsimp only
  have h₀ : Linked { k with ticks := k.ticks + elapsed } :=
    ⟨hk.mem, hk.nodup, hk.syncNodup, hk.registered⟩
  generalize ({ k with ticks := k.ticks + elapsed } : Kernel n σ) = k₀ at h₀
  have h₁ : Linked (if cfg.isSyncMode then k₀.updateSyncObjects elapsed else k₀) := by
    split
    · exact updateSyncObjects_linked h₀ elapsed
    · exact h₀
  generalize (if cfg.isSyncMode then k₀.updateSyncObjects elapsed else k₀) = k₁ at h₁
  have h₂ : Linked (if k₁.request then k₁.updateTaskRequest cfg else k₁) := by
    split
    · exact (SameWaits.updateTaskRequest cfg k₁).linked h₁
    · exact h₁
  exact (SameTasks.updateFsmState cfg _).linked ((SameWaits.updateTaskState cfg _ elapsed).linked h₂)

/-- The calls that link, count or wake wait objects. -/
def KernelEvent.isAboutWaits : KernelEvent n → Bool
  | .onTick _ | .wait _ _ _ | .wakeOne _ | .wakeAll _ => true
  | _ => false

/-- The other calls leave the wait objects and the time alone. -/
theorem step_sameWaits (cfg : Config) (k : Kernel n σ) {e : KernelEvent n}
    (he : KernelEvent.isAboutWaits e = false) : SameWaits k (k.step cfg e) := by
  cases e with
  | onTick _ | wait _ _ _ | wakeOne _ | wakeAll _ => cases he
  | addTask u =>
    simp only [Kernel.step]
    split
    · exact (Binds.allocateAndAddNewTask cfg k u).toSameWaits
    · exact .refl k
  | addTaskHrt u p d s =>
    simp only [Kernel.step]
    split
    · exact (Binds.hrtAllocateAndAddNewTask cfg k u p d s).toSameWaits
    · exact .refl k
  | removeTask u =>
    simp only [Kernel.step]
    split
    · split
      · exact .refl k
      · exact .removeTask cfg k _
    · exact .refl k
  | onStart =>
    simp only [Kernel.step]
    split
    · exact (SameTasks.onStart cfg k).toSameWaits
    · exact .refl k
  | onStop =>
    simp only [Kernel.step]
    split
    · exact ⟨fun _ => rfl, rfl, rfl, rfl⟩
    · exact .refl k
  | onSuspend =>
    simp only [Kernel.step]
    split
    · exact (SameTasks.onSuspend k).toSameWaits
    · exact .refl k
  | requestAddTask i u =>
    simp only [Kernel.step]
    split
    · have hset := SameWaits.setTask k i (f := fun t => { t with addTaskReq := some u }) (fun _ => rfl)
      exact ⟨hset.waitObj, hset.waitList, hset.syncList, hset.ticks⟩
    · exact .refl k
  | sleep i ticks =>
    simp only [Kernel.step]
    split
    · exact (SameTasks.onTaskSleep cfg k i ticks).toSameWaits
    · exact .refl k
  | sleepUntil i timestamp =>
    simp only [Kernel.step]
    split
    · exact (SameTasks.onTaskSleepUntil k i timestamp).toSameWaits
    · exact .refl k
  | switchToNext i =>
    simp only [Kernel.step]
    split
    · exact (SameTasks.onTaskSleep cfg k i _).toSameWaits
    · exact .refl k
  | waitReturn i =>
    simp only [Kernel.step]
    split
    · exact .refl k
    · exact ⟨fun _ => rfl, rfl, rfl, rfl⟩
  | taskExit i =>
    simp only [Kernel.step]
    split
    · exact .scheduleRemoval cfg k i
    · exact .refl k
  | suspendTask u => exact (SameTasks.suspendTask k u).toSameWaits
  | resumeTask u => exact (SameTasks.resumeTask k u).toSameWaits
  | sleepCancel u =>
    simp only [Kernel.step]
    split
    · exact (SameTasks.resumeTask k u).toSameWaits
    · exact .refl k
  | scheduleTaskRemoval u =>
    simp only [Kernel.step]
    split
    · split
      · exact .refl k
      · exact .scheduleRemoval cfg k _
    · exact .refl k
  | inheritWeight u w => exact (SameCalls.onInheritWeight cfg k u w).toSameWaits
  | restoreWeight u o => exact (SameCalls.onRestoreWeight cfg k u o).toSameWaits

/-- INTERNAL: one call into the kernel keeps the wait lists in order. -/
theorem step_linked (cfg : Config) (hk : Linked k) (e : KernelEvent n) :
    Linked (k.step cfg e) := by
  cases e with
  | onTick elapsed =>
    simp only [Kernel.step]
    split
    · exact onTick_linked cfg hk elapsed
    · exact hk
  | wait i o timeout =>
    simp only [Kernel.step]
    split
    · exact onTaskWait_linked hk i o timeout
    · exact hk
  | wakeOne o =>
    simp only [Kernel.step, Kernel.wakeOne]
    split
    · exact hk
    · exact wakeWaitObj_linked hk _ _
  | wakeAll o => exact Runs.foldl_keeps (fun k i _ hk => wakeWaitObj_linked hk i false) hk
  | _ => exact (step_sameWaits cfg k rfl).linked hk

end Stk.Analysis
