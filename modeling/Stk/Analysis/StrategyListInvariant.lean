import Stk.Analysis.KernelTick

/-!
# The strategy lists over whole runs

`Careful` collects the steps that keep the sleep counter of a waiting task and its wait
object in agreement.  `ResumeTask` and `SleepCancel` rewrite the counter of a task that
is linked in a wait list and leave the wait object behind; a later signal or timeout
then calls `KernelTask::Wake` on a task that does not sleep.  Removing a linked task,
`HrtOnSwitchedOut` of a linked task and the end of an "infinite" sleep counter have the
same effect.  Along careful steps the lists of every sleep-aware strategy agree with the
slots: `run_listsConsistent`.
-/

set_option autoImplicit false

namespace Stk.Analysis

open Stk.Model Stk.Model.Kernel

variable {n : ℕ} {σ : Type} [SwitchStrategy (Fin n) σ] [StrategyLists (Fin n) σ]
  [SleepAware (Fin n) σ] {cfg : Config} {k : Kernel n σ}

/-- The user task `u` is not linked in a wait list. -/
def NotWaiting (k : Kernel n σ) (u : TId) : Prop :=
  ∀ i, k.findTaskByUserTask u = some i → (k.tasks i).waitObj.syncObj = none

instance (k : Kernel n σ) (u : TId) : Decidable (NotWaiting k u) :=
  inferInstanceAs (Decidable (∀ i, k.findTaskByUserTask u = some i →
    (k.tasks i).waitObj.syncObj = none))

/-- The steps that keep sleep counters and wait objects in agreement:

* a task is resumed, woken by `SleepCancel` or scheduled for removal only while it is not
  linked in a wait list, and a task scheduled for removal starts no wait;
* no tick runs out the sleep counter of an infinite wait, and none calls
  `HrtOnSwitchedOut` on a linked task;
* an inherited weight is one that the strategy accepts. -/
def Careful (cfg : Config) (k : Kernel n σ) : KernelEvent n → Prop
  | .resumeTask u => NotWaiting k u
  | .sleepCancel u => cfg.isHrtMode = false → NotWaiting k u
  | .scheduleTaskRemoval u => cfg.isDynamicMode = true → NotWaiting k u
  | .wait i _ _ => (k.tasks i).removePending = false
  | .onTick e =>
    (∀ i, (k.tasks i).waitObj.syncObj ≠ none → (k.tasks i).waitObj.timeWait = waitInfinite →
      (k.tasks i).timeSleep + e < 0) ∧
    ∀ i, switchedOut cfg
        (({ k with ticks := k.ticks + e } : Kernel n σ).updateTasks cfg e).1 = some i →
      ((({ k with ticks := k.ticks + e } : Kernel n σ).updateTasks cfg e).1.tasks i).waitObj.syncObj =
        none
  | .inheritWeight _ w => w ≠ noWeight → SleepAware.WeightOk σ w
  | _ => True

/-- Every bound slot is in exactly one strategy list, once; it is in the sleep list exactly
when it sleeps and its sleep event is not pending; no free slot is in a list; and no
assertion on the lists or on the sleep state of a task has failed. -/
structure ListsConsistent (k : Kernel n σ) : Prop where
  once : ∀ i, (k.tasks i).isBusy = true → (runnable k.strategy ++ asleep k.strategy).count i = 1
  sleepList : ∀ i, (k.tasks i).isBusy = true → (i ∈ asleep k.strategy ↔
    (k.tasks i).isSleeping = true ∧ (k.tasks i).sleepPending = false)
  free : ∀ i, (k.tasks i).isBusy = false → i ∉ runnable k.strategy ∧ i ∉ asleep k.strategy
  asserts : ∀ f ∈ k.faults, ofLists f = false

/-- What holds of the kernel between calls. -/
def Rest (cfg : Config) (k : Kernel n σ) : Prop :=
  Good cfg (fun _ => 0) (fun _ => 0) k ∧ Running k

omit [SleepAware (Fin n) σ] in
/-- INTERNAL: the lists are consistent, from the invariant. -/
theorem Good.listsConsistent [SleepAware (Fin n) σ] {r q : Fin n → ℤ} (h : Good cfg r q k) :
    ListsConsistent k where
  once i hi := by
    refine List.count_eq_one_of_mem (SleepAware.nodup h.listed.wf) (List.mem_append.mpr ?_)
    exact (h.listed.mem i).mpr (KernelTask.isBusy_iff.mp hi)
  sleepList i _ := by
    rw [h.listed.asleep i]
    simp [Delivered, KernelTask.isSleeping]
  free i hi := by
    have hnone : (k.tasks i).user = none := by simpa [KernelTask.isBusy] using hi
    exact not_or.mp (fun hmem => (h.listed.mem i).mp hmem hnone)
  asserts := h.clean

/-- INTERNAL: a new kernel. -/
theorem rest_initial : Rest cfg (initial : Kernel n σ) :=
  ⟨Good.initial, fun i hi => by simp [Kernel.initial] at hi, fun h => by simp [Kernel.initial] at h⟩

omit [SwitchStrategy (Fin n) σ] [StrategyLists (Fin n) σ] [SleepAware (Fin n) σ] in
/-- INTERNAL: a step that writes neither the current task nor the FSM and unbinds no slot
keeps the kernel running. -/
theorem Running.keep {k' : Kernel n σ} (h : Running k) (hk : KeepsBound k k') : Running k' := by
  obtain ⟨hnow, hfsm, huser⟩ := hk
  refine ⟨fun i hi => ?_, fun hne => ?_⟩
  · rw [hnow] at hi
    exact huser i (h.now i hi)
  · rw [hnow] at hne
    rw [hfsm]
    exact h.fsm hne

omit [SwitchStrategy (Fin n) σ] [StrategyLists (Fin n) σ] [SleepAware (Fin n) σ] in
/-- INTERNAL: the tasks that may make calls. -/
theorem canCall_iff {i : Fin n} : k.canCall i = true ↔
    k.taskNow ≠ none ∧ (k.tasks i).user ≠ none ∧ k.call i = none := by
  simp [Kernel.canCall, Kernel.isStarted, KernelTask.isBusy, Option.isSome_iff_ne_none, and_assoc]

namespace Rest

/-- INTERNAL: an assertion that is not of the lists fails. -/
theorem fault (h : Rest cfg k) {f : Fault} (hf : ofLists f = false) : Rest cfg (k.fault f) :=
  ⟨h.1.fault hf, h.2.now, h.2.fsm⟩

/-- INTERNAL: a task that makes a call is in no wait. -/
theorem not_waiting (h : Rest cfg k) {i : Fin n} (hc : k.call i = none) :
    (k.tasks i).waitObj.syncObj = none :=
  (hc ▸ h.1.slot i).not_waiting_of_call

/-- INTERNAL: a task that waits for nothing goes to sleep. -/
theorem scheduleSleep (h : Rest cfg k) {i : Fin n} {ticks : ℤ} (hticks : 0 < ticks)
    (hbusy : (k.tasks i).user ≠ none) (hobj : (k.tasks i).waitObj.syncObj = none) :
    Rest cfg (k.scheduleSleep i ticks) :=
  ⟨h.1.scheduleSleep hticks hbusy hobj, h.2.keep (.setTask k i (fun _ ht => ht))⟩

/-- INTERNAL: `Sleep`. -/
theorem onTaskSleep (h : Rest cfg k) {i : Fin n} (hbusy : (k.tasks i).user ≠ none)
    (hobj : (k.tasks i).waitObj.syncObj = none) (ticks : ℤ) :
    Rest cfg (k.onTaskSleep cfg i ticks) := by
  unfold Kernel.onTaskSleep
  have hdone : Rest cfg (if cfg.isHrtMode then
      k.setTask i (fun t => { t with hrt := { t.hrt with done := true } }) else k) := by
    split
    · exact ⟨h.1.setTask rfl rfl rfl Iff.rfl ((h.1.slot i).frame rfl rfl rfl rfl rfl),
        h.2.keep (.setTask k i (fun _ ht => ht))⟩
    · exact h
  have hslot : ((if cfg.isHrtMode then
      k.setTask i (fun t => { t with hrt := { t.hrt with done := true } }) else k).tasks i).user ≠ none ∧
      ((if cfg.isHrtMode then k.setTask i (fun t => { t with hrt := { t.hrt with done := true } })
        else k).tasks i).waitObj.syncObj = none := by
    split
    · exact ⟨by simpa [Kernel.setTask] using hbusy, by simpa [Kernel.setTask] using hobj⟩
    · exact ⟨hbusy, hobj⟩
  dsimp only
  split
  · next hpos => exact hdone.scheduleSleep hpos hslot.1 hslot.2
  · exact hdone

/-- INTERNAL: a task that waits for nothing is resumed. -/
theorem resumeTask (h : Rest cfg k) {u : TId} (hu : NotWaiting k u) :
    Rest cfg (k.resumeTask u) := by
  unfold Kernel.resumeTask
  split
  · exact h.fault rfl
  · next i hi =>
    split
    · next hs =>
      have hs' : (k.tasks i).timeSleep < 0 := by simpa [KernelTask.isSleeping] using hs
      refine ⟨h.1.wakeTask hs' (hu i hi), ?_⟩
      rw [Good.wakeTask_eq hs']
      exact h.2.keep (.setTask k i (fun _ ht => ht))
    · exact h

/-- INTERNAL: the removal of a task that waits for nothing. -/
theorem scheduleRemoval (h : Rest cfg k) {i : Fin n} (hbusy : (k.tasks i).user ≠ none)
    (hobj : (k.tasks i).waitObj.syncObj = none) : Rest cfg (k.scheduleRemoval cfg i) := by
  have hapi : SwitchStrategy.sleepEventApi σ = true := SleepAware.sleepEventApi_eq
  have hfields : ∀ t : KernelTask, (t.scheduleRemoval cfg true).user = t.user ∧
      (t.scheduleRemoval cfg true).rtWeight = t.rtWeight ∧
      (t.scheduleRemoval cfg true).waitObj = t.waitObj ∧
      (t.scheduleRemoval cfg true).timeSleep = -waitInfinite ∧
      (t.scheduleRemoval cfg true).sleepPending = (t.sleepPending || !t.isSleeping) := by
    intro t
    unfold KernelTask.scheduleRemoval
    dsimp only
    split <;> simp [KernelTask.scheduleSleep]
  obtain ⟨huser, hrt, hwait, htime, hpend⟩ := hfields (k.tasks i)
  unfold Kernel.scheduleRemoval
  rw [hapi]
  refine ⟨h.1.setTask huser hrt (by rw [hwait]) ?_ ((h.1.slot i).setSleep hbusy hobj huser hwait ?_),
    h.2.keep (.setTask k i (fun t ht => by rw [(hfields t).1]; exact ht))⟩
  · rw [Delivered, Delivered, htime, hpend]
    simp only [KernelTask.isSleeping, waitInfinite, Bool.or_eq_false_iff, Bool.not_eq_false',
      decide_eq_true_eq]
    constructor
    · exact fun hd => ⟨hd.2.2, hd.2.1⟩
    · exact fun hd => ⟨by omega, hd.2, hd.1⟩
  · intro _
    rw [htime]
    simp [waitInfinite]

/-- INTERNAL: a wait is signalled. -/
theorem wakeWaitObj (h : Rest cfg k) (i : Fin n) {o : SyncId}
    (ho : (k.tasks i).waitObj.syncObj = some o) : Rest cfg (k.wakeWaitObj i false) := by
  obtain ⟨hnow, hfsm, huser⟩ := wakeWaitObj_fsm (k := k) i false
  refine ⟨h.1.wakeWaitObj ho ((h.1.slot i).sleeping ho) false (by simp), ?_⟩
  exact h.2.keep (SameFsm.keepsBound ⟨hnow, hfsm, huser⟩)

/-- INTERNAL: `WakeAll` signals the waiters one after the other. -/
theorem wakeAll (h : Rest cfg k) (o : SyncId) : Rest cfg (k.wakeAll o) := by
  unfold Kernel.wakeAll
  suffices hgen : ∀ (l : List (Fin n)) (k : Kernel n σ), Rest cfg k → l.Nodup →
      (∀ i ∈ l, (k.tasks i).waitObj.syncObj = some o) →
      Rest cfg (l.foldl (fun k i => k.wakeWaitObj i false) k) from
    hgen _ k h (h.1.linked.nodup o) (fun i hi => (h.1.linked.mem i o).mpr hi)
  intro l
  induction l with
  | nil => exact fun k h _ _ => h
  | cons i l ih =>
    intro k h hnd hl
    obtain ⟨hnotin, hnd'⟩ := List.nodup_cons.mp hnd
    have ho := hl i List.mem_cons_self
    refine ih _ (h.wakeWaitObj i ho) hnd' (fun j hj => ?_)
    have hji : j ≠ i := fun heq => hnotin (heq ▸ hj)
    show ((k.wakeWaitObj i false).tasks j).waitObj.syncObj = some o
    rw [wakeWaitObj_eq ho]
    simpa [hji] using hl j (List.mem_cons_of_mem i hj)

/-- INTERNAL: the scheduler is suspended as a whole. -/
theorem onSuspend (h : Rest cfg k) : Rest cfg k.onSuspend := by
  unfold Kernel.onSuspend
  split
  · exact h
  · next i hi =>
    split
    · exact h
    · next hs =>
      have hobj : (k.tasks i).waitObj.syncObj = none := by
        by_contra hne
        obtain ⟨o, ho⟩ := Option.ne_none_iff_exists'.mp hne
        exact hs (by simpa [KernelTask.isSleeping] using (h.1.slot i).sleeping ho)
      exact h.scheduleSleep (by simp [yieldTicks]) (h.2.now i hi) hobj

/-- INTERNAL: a task is suspended. -/
theorem suspendTask (h : Rest cfg k) (u : TId) : Rest cfg (k.suspendTask u) := by
  unfold Kernel.suspendTask
  split
  · exact h.fault rfl
  · next i hi =>
    split
    · exact h
    · next hs =>
      have hobj : (k.tasks i).waitObj.syncObj = none := by
        by_contra hne
        obtain ⟨o, ho⟩ := Option.ne_none_iff_exists'.mp hne
        exact hs (by simpa [KernelTask.isSleeping] using (h.1.slot i).sleeping ho)
      refine h.scheduleSleep (by simp [waitInfinite]) ?_ hobj
      rw [Good.findTaskByUserTask_busy hi]
      simp

/-- INTERNAL: `SleepUntil`. -/
theorem onTaskSleepUntil (h : Rest cfg k) {i : Fin n} (hbusy : (k.tasks i).user ≠ none)
    (hobj : (k.tasks i).waitObj.syncObj = none) (timestamp : ℤ) :
    Rest cfg (k.onTaskSleepUntil i timestamp) := by
  unfold Kernel.onTaskSleepUntil
  dsimp only
  split
  · next hpos =>
    have hmin : 0 < min (timestamp - k.ticks) waitInfinite := by
      unfold waitInfinite
      omega
    exact h.scheduleSleep hmin hbusy hobj
  · exact h

/-- INTERNAL: a wait begins. -/
theorem onTaskWait (h : Rest cfg k) {i : Fin n} (hstarted : k.taskNow ≠ none)
    (hbusy : (k.tasks i).user ≠ none) (hlive : (k.tasks i).removePending = false)
    (hsync : cfg.isSyncMode = true) {timeout : ℤ} (hle : timeout ≤ waitInfinite) (o : SyncId) :
    Rest cfg (k.onTaskWait i o timeout) := by
  refine ⟨h.1.onTaskWait hbusy hlive hle (by simp [hstarted, hsync]) rfl rfl o, ?_⟩
  unfold Kernel.onTaskWait
  split
  · exact ⟨h.2.now, h.2.fsm⟩
  · split
    · exact ⟨h.2.now, h.2.fsm⟩
    · have hset : KeepsBound k (k.setTask i (fun t => { t with waitObj := ⟨some o, false, timeout⟩ })) :=
        .setTask k i (fun _ ht => ht)
      refine h.2.keep (hset.trans (KeepsBound.trans ⟨rfl, rfl, fun j hj => hj⟩
        (.setTask _ i (fun _ ht => ht))))

/-- INTERNAL: a task that leaves `Wait` does not sleep, so its wait object is unlinked. -/
theorem waitReturn (h : Rest cfg k) {i : Fin n} {res : WaitResult} (hres : k.waitResult i = some res) :
    Rest cfg { k with call := Function.update k.call i none } := by
  have hawake : ¬ (k.tasks i).timeSleep < 0 := by
    intro hs
    have hnone : k.waitResult i = none := by
      unfold Kernel.waitResult
      split
      · rfl
      · rw [if_pos (by simpa [KernelTask.isSleeping] using hs)]
    rw [hnone] at hres
    cases hres
  have hslot := h.1.slot i
  refine ⟨⟨h.1.listed, ⟨h.1.linked.mem, h.1.linked.nodup, h.1.linked.syncNodup, h.1.linked.registered⟩,
    fun j => ?_, h.1.idle, h.1.clean⟩, h.2.now, h.2.fsm⟩
  by_cases hj : j = i
  · subst hj
    simp only [Function.update_self]
    exact ⟨hslot.pending, hslot.free, fun o ho => absurd (hslot.sleeping ho) hawake, by simp⟩
  · simpa [hj] using h.1.slot j

/-- INTERNAL: a task is removed before the scheduler starts. -/
theorem removeTask (h : Rest cfg k) (hidle : k.taskNow = none) {i : Fin n}
    (hbusy : (k.tasks i).user ≠ none) : Rest cfg (k.removeTask cfg i) := by
  obtain ⟨-, -, -, hnow, -⟩ := removeTask_frame cfg k i
  have hnone : (k.removeTask cfg i).taskNow = none := hnow.trans hidle
  refine ⟨h.1.removeTask hbusy (h.1.idle (Or.inl hidle) i), fun j hj => ?_, fun hne => absurd hnone hne⟩
  rw [hnone] at hj
  cases hj

end Rest

/-- INTERNAL: one careful call into the kernel. -/
theorem step_rest (hcfg : WeightsOk σ cfg) (h : Rest cfg k) {e : KernelEvent n}
    (he : Careful cfg k e) : Rest cfg (k.step cfg e) := by
  cases e with
  | addTask u =>
    simp only [Kernel.step]
    split
    · exact ⟨h.1.allocateAndAddNewTask hcfg u, h.2.keep (.allocateAndAddNewTask cfg k u)⟩
    · exact h
  | addTaskHrt u periodicity deadline startDelay =>
    simp only [Kernel.step]
    split
    · exact ⟨h.1.hrtAllocateAndAddNewTask hcfg u periodicity deadline startDelay,
        h.2.keep (.hrtAllocateAndAddNewTask cfg k u periodicity deadline startDelay)⟩
    · exact h
  | removeTask u =>
    simp only [Kernel.step]
    split
    · next hmode =>
      split
      · exact h
      · next i hi =>
        have hidle : k.taskNow = none := by
          simp only [Kernel.isStarted, Bool.and_eq_true, Bool.not_eq_true'] at hmode
          simpa using hmode.2
        exact h.removeTask hidle (by rw [Good.findTaskByUserTask_busy hi]; simp)
    · exact h
  | onStart =>
    simp only [Kernel.step]
    split
    · next hmode =>
      have hidle : k.taskNow = none := by
        simp only [Kernel.isStarted, Bool.and_eq_true, Bool.not_eq_true'] at hmode
        simpa using hmode.1.1
      exact onStart_good h.1 hidle
    · exact h
  | onStop =>
    simp only [Kernel.step]
    split
    · next hmode =>
      have hnow : k.taskNow = none := by
        by_contra hne
        simp only [Bool.and_eq_true, decide_eq_true_eq] at hmode
        exact (h.2.fsm hne).2 hmode.2
      exact ⟨h.1.setNow k.taskNow (fun hn => h.1.idle (Or.inl hn)), h.2.now,
        fun hne => absurd hnow hne⟩
    · exact h
  | onTick e =>
    simp only [Kernel.step]
    split
    · next hmode =>
      simp only [Kernel.isStarted, validElapsed, Bool.and_eq_true, decide_eq_true_eq] at hmode
      exact onTick_good hcfg h.1 h.2 (by simpa [Option.isSome_iff_ne_none] using hmode.1)
        hmode.2.1.1 he.1 he.2
    · exact h
  | onSuspend =>
    simp only [Kernel.step]
    split
    · exact h.onSuspend
    · exact h
  | requestAddTask i u =>
    simp only [Kernel.step]
    split
    · have hset : Good cfg (fun _ => 0) (fun _ => 0)
          (k.setTask i (fun t => { t with addTaskReq := some u })) :=
        h.1.setTask rfl rfl rfl Iff.rfl ((h.1.slot i).frame rfl rfl rfl rfl rfl)
      have hrun := h.2.keep (.setTask k i (f := fun t => { t with addTaskReq := some u })
        (fun _ ht => ht))
      exact ⟨⟨hset.listed, ⟨hset.linked.mem, hset.linked.nodup, hset.linked.syncNodup,
        hset.linked.registered⟩, hset.slot, hset.idle, hset.clean⟩, hrun.now, hrun.fsm⟩
    · exact h
  | sleep i ticks =>
    simp only [Kernel.step]
    split
    · next hmode =>
      simp only [Bool.and_eq_true, canCall_iff] at hmode
      exact h.onTaskSleep hmode.1.1.1.2.1 (h.not_waiting hmode.1.1.1.2.2) ticks
    · exact h
  | sleepUntil i timestamp =>
    simp only [Kernel.step]
    split
    · next hmode =>
      simp only [Bool.and_eq_true, canCall_iff] at hmode
      exact h.onTaskSleepUntil hmode.1.2.1 (h.not_waiting hmode.1.2.2) timestamp
    · exact h
  | switchToNext i =>
    simp only [Kernel.step]
    split
    · next hmode =>
      rw [canCall_iff] at hmode
      exact h.onTaskSleep hmode.2.1 (h.not_waiting hmode.2.2) yieldTicks
    · exact h
  | wait i o timeout =>
    simp only [Kernel.step]
    split
    · next hmode =>
      simp only [Bool.and_eq_true, canCall_iff, decide_eq_true_eq] at hmode
      obtain ⟨⟨⟨hstarted, hbusy, -⟩, hsync⟩, hle⟩ := hmode
      exact h.onTaskWait hstarted hbusy he hsync hle o
    · exact h
  | waitReturn i =>
    simp only [Kernel.step]
    split
    · exact h
    · next hres => exact h.waitReturn hres
  | taskExit i =>
    simp only [Kernel.step]
    split
    · next hmode =>
      simp only [Bool.and_eq_true, canCall_iff] at hmode
      exact h.scheduleRemoval hmode.1.2.1 (h.not_waiting hmode.1.2.2)
    · exact h
  | suspendTask u => exact h.suspendTask u
  | resumeTask u => exact h.resumeTask he
  | sleepCancel u =>
    simp only [Kernel.step]
    split
    · next hmode => exact h.resumeTask (he (by simpa using hmode))
    · exact h
  | scheduleTaskRemoval u =>
    simp only [Kernel.step]
    split
    · next hmode =>
      simp only [Bool.and_eq_true] at hmode
      split
      · exact h
      · next i hi =>
        exact h.scheduleRemoval (by rw [Good.findTaskByUserTask_busy hi]; simp) (he hmode.1 i hi)
    · exact h
  | wakeOne o =>
    simp only [Kernel.step, Kernel.wakeOne]
    split
    · exact h
    · next i l hl =>
      exact h.wakeWaitObj i ((h.1.linked.mem i o).mpr (by rw [hl]; exact List.mem_cons_self))
  | wakeAll o => exact h.wakeAll o
  | inheritWeight u w => exact ⟨h.1.onInheritWeight u he, h.2.keep (.onInheritWeight cfg k u w)⟩
  | restoreWeight u o => exact ⟨h.1.onRestoreWeight hcfg u o, h.2.keep (.onRestoreWeight cfg k u o)⟩

/-- Every run of careful steps reaches a state in which lists and slots agree. -/
def ConsistentRuns (n : ℕ) (σ : Type) [SwitchStrategy (Fin n) σ] [StrategyLists (Fin n) σ]
    [SleepAware (Fin n) σ] : Prop :=
  ∀ (cfg : Config) (es : List (KernelEvent n)), WeightsOk σ cfg →
    Runs.Along (Kernel.step cfg) (Careful cfg) (initial : Kernel n σ) es →
    ListsConsistent (Kernel.run cfg es : Kernel n σ)

/-- INTERNAL: the lists are consistent in every run of careful events. -/
theorem consistentRuns : ConsistentRuns n σ := by
  intro cfg es hcfg hes
  have hrest : Rest cfg (Kernel.run cfg es : Kernel n σ) :=
    hes.invariant (I := Rest cfg) (fun k e h he => step_rest hcfg h he) rest_initial
  exact hrest.1.listsConsistent

/-- **Strategy lists.**  After every run of careful steps, of any number of tasks and under
each of the four sleep-aware strategies, every bound slot is in exactly one strategy list
once, it is in the sleep list exactly when it sleeps with its sleep event delivered, no
free slot is in a list, and none of the assertions on the lists has failed. -/
theorem run_listsConsistent (n P : ℕ) [Fact (P ≤ 32)] :
    ConsistentRuns n (RoundRobin (Fin n)) ∧ ConsistentRuns n (FixedPriority P (Fin n)) ∧
      ConsistentRuns n (SmoothWeightedRoundRobin (Fin n)) ∧
      ConsistentRuns n (EarliestDeadlineFirst (Fin n)) :=
  ⟨consistentRuns, consistentRuns, consistentRuns, consistentRuns⟩

section Runs

/-- A static kernel with synchronization whose tasks all have weight 1. -/
def syncConfig : Config where
  isDynamicMode := false
  isHrtMode := false
  isSyncMode := true
  isTicklessMode := false
  ticklessTicksMax := 1000
  weight := fun _ => 1

/-- A task waits, is woken by the sync object and is suspended and resumed. -/
def signalledWait : List (KernelEvent 2) :=
  [.addTask 0, .addTask 1, .onStart, .onTick 1, .wait 0 (.object 0) waitInfinite, .onTick 1,
    .wakeOne (.object 0), .onTick 1, .waitReturn 0, .suspendTask 0, .onTick 1, .resumeTask 0,
    .onTick 1]

theorem signalledWait_consistent :
    Runs.Along (Kernel.step syncConfig) (Careful syncConfig)
        (initial : Kernel 2 (RoundRobin (Fin 2))) signalledWait ∧
      ListsConsistent (Kernel.run syncConfig signalledWait : Kernel 2 (RoundRobin (Fin 2))) := by
  have hcareful : Runs.Along (Kernel.step syncConfig) (Careful syncConfig)
      (initial : Kernel 2 (RoundRobin (Fin 2))) signalledWait := by
    refine ⟨trivial, trivial, trivial, ⟨?_, ?_⟩, rfl, ⟨?_, ?_⟩, trivial, ⟨?_, ?_⟩, trivial, trivial,
      ⟨?_, ?_⟩, (?_ : NotWaiting _ 0), ⟨?_, ?_⟩, trivial⟩
    all_goals decide
  have : Fact (32 ≤ 32) := ⟨le_rfl⟩
  exact ⟨hcareful, (run_listsConsistent 2 32).1 syncConfig signalledWait (fun _ => trivial) hcareful⟩

/-- Task 0 waits, is resumed by another task and is signalled only then. -/
def resumedWait : List (KernelEvent 2) :=
  [.addTask 0, .addTask 1, .onStart, .onTick 1, .wait 0 (.object 0) waitInfinite, .onTick 1,
    .resumeTask 0, .onTick 1, .wakeOne (.object 0)]

/-- `ResumeTask` of a waiting task leaves its wait object linked.  The signal that comes
later puts the runnable task back to sleep without a sleep event, and the next tick asks
the strategy to wake a task that is not in its sleep list. -/
theorem resumedWait_inconsistent :
    ¬ ListsConsistent (Kernel.run syncConfig resumedWait : Kernel 2 (RoundRobin (Fin 2))) ∧
      Fault.onTaskWakeHead ∈ (Kernel.run syncConfig (resumedWait ++ [.onTick 1]) :
        Kernel 2 (RoundRobin (Fin 2))).faults := by
  refine ⟨fun h => ?_, by decide⟩
  have hasleep := (h.sleepList 0 (by decide)).mpr (by decide)
  revert hasleep
  decide

end Runs

end Stk.Analysis
