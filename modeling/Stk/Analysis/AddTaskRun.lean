import Stk.Model.AddTaskProtocol
import Stk.Analysis.SlotRelease
import Stk.Analysis.TicklessRun

/-!
# `AddTask` while the kernel runs

A request is a local variable of its caller, so the tick may follow the pointer in the slot only while the
caller is still inside `AddTask`.  `KeepsRequests` says what every call but a tick leaves of the requests; a tick
processes all of them at once if `REQ_ADD_TASK` is set.  From the two the run theorem follows
(`run_addTask`): whatever comes between the steps of the callers, each request is processed once or dies with
its caller, and no caller returns before.
-/

set_option autoImplicit false

namespace Stk.Analysis

open Stk.Model Stk.Model.Kernel

variable {n : ℕ} {σ : Type} {cfg : Config} {k k' k'' : Kernel n σ} {i : Fin n} {u : TId}

/-! ## Calls other than a tick -/

/-- The requests and the request flag are the same, the tasks keep their slots, and who sleeps still does. -/
structure KeepsRequests (k k' : Kernel n σ) : Prop where
  request : ∀ j, (k'.tasks j).addTaskReq = (k.tasks j).addTaskReq
  flag : k'.request = k.request
  user : ∀ j, (k.tasks j).user ≠ none → (k'.tasks j).user = (k.tasks j).user
  asleep : ∀ j, (k.tasks j).isSleeping = true → (k'.tasks j).isSleeping = true

namespace KeepsRequests

/-- INTERNAL: nothing changes. -/
theorem refl (k : Kernel n σ) : KeepsRequests k k := ⟨fun _ => rfl, rfl, fun _ _ => rfl, fun _ h => h⟩

/-- INTERNAL: two steps within the frame. -/
theorem trans (h : KeepsRequests k k') (h' : KeepsRequests k' k'') : KeepsRequests k k'' where
  request j := (h'.request j).trans (h.request j)
  flag := h'.flag.trans h.flag
  user j hj := (h'.user j (by rw [h.user j hj]; exact hj)).trans (h.user j hj)
  asleep j hj := h'.asleep j (h.asleep j hj)

/-- INTERNAL: the slots are the same. -/
theorem of_tasks (htasks : k'.tasks = k.tasks) (hflag : k'.request = k.request) : KeepsRequests k k' :=
  ⟨fun _ => by rw [htasks], hflag, fun _ _ => by rw [htasks], fun _ h => by rwa [htasks]⟩

/-- INTERNAL: a failed assertion is recorded and nothing else. -/
theorem fault (k : Kernel n σ) (f : Fault) : KeepsRequests k (k.fault f) := of_tasks rfl rfl

/-- INTERNAL: a slot is written within the frame. -/
theorem setTask (k : Kernel n σ) (i : Fin n) {f : KernelTask → KernelTask}
    (hrequest : (f (k.tasks i)).addTaskReq = (k.tasks i).addTaskReq)
    (huser : (f (k.tasks i)).user = (k.tasks i).user)
    (hasleep : (k.tasks i).isSleeping = true → (f (k.tasks i)).isSleeping = true) :
    KeepsRequests k (k.setTask i f) := by
  have hself : (k.setTask i f).tasks i = f (k.tasks i) := Function.update_self _ _ _
  have hother : ∀ j, j ≠ i → (k.setTask i f).tasks j = k.tasks j := fun j hj => Function.update_of_ne hj _ _
  refine ⟨?_, rfl, ?_, ?_⟩
  · intro j
    by_cases hj : j = i
    · rw [hj, hself, hrequest]
    · rw [hother j hj]
  · intro j _
    by_cases hj : j = i
    · rw [hj, hself, huser]
    · rw [hother j hj]
  · intro j hasleep'
    by_cases hj : j = i
    · rw [hj] at hasleep' ⊢
      rw [hself]
      exact hasleep hasleep'
    · rw [hother j hj]
      exact hasleep'

/-- INTERNAL: a fold of functions that stay within the frame. -/
theorem foldl {A : Type} {f : Kernel n σ → A → Kernel n σ} (hf : ∀ k a, KeepsRequests k (f k a)) (l : List A)
    (k : Kernel n σ) : KeepsRequests k (l.foldl f k) :=
  Runs.foldl_keeps (I := KeepsRequests k) (fun k' a _ h => h.trans (hf k' a)) (refl k)

/-- INTERNAL: a sleep ends. -/
theorem wakeTask (k : Kernel n σ) (i : Fin n) : KeepsRequests k (k.wakeTask i) := by
  have hset : ∀ k : Kernel n σ, KeepsRequests k (k.setTask i (fun t => { t with timeSleep := -1 })) :=
    fun k => setTask k i rfl rfl fun _ => rfl
  unfold Kernel.wakeTask
  dsimp only
  split
  · exact hset k
  · exact (fault k .wakeNotSleeping).trans (hset _)

/-- INTERNAL: a wait ends. -/
theorem wakeWaitObj (k : Kernel n σ) (i : Fin n) (timeout : Bool) : KeepsRequests k (k.wakeWaitObj i timeout) := by
  unfold Kernel.wakeWaitObj
  split
  · exact fault k _
  · refine trans ?_ (wakeTask _ i)
    have hset := setTask k i (f := fun t => { t with waitObj := ⟨none, timeout, 0⟩ }) rfl rfl fun h => h
    exact ⟨hset.request, rfl, hset.user, hset.asleep⟩

/-- INTERNAL: a tick of one wait object. -/
theorem tickWaitObj (e : ℤ) (k : Kernel n σ) (i : Fin n) : KeepsRequests k (Kernel.tickWaitObj e k i) := by
  have hframe : ((k.tasks i).tickWaitObj e).addTaskReq = (k.tasks i).addTaskReq ∧
      ((k.tasks i).tickWaitObj e).user = (k.tasks i).user ∧
      ((k.tasks i).tickWaitObj e).timeSleep = (k.tasks i).timeSleep := by
    unfold KernelTask.tickWaitObj
    split
    · split
      · exact ⟨rfl, rfl, rfl⟩
      · exact ⟨rfl, rfl, rfl⟩
    · exact ⟨rfl, rfl, rfl⟩
  have hset : KeepsRequests k (k.setTask i (fun t => t.tickWaitObj e)) := by
    refine setTask k i hframe.1 hframe.2.1 fun h => ?_
    rw [KernelTask.isSleeping_iff] at h ⊢
    rw [hframe.2.2]
    exact h
  unfold Kernel.tickWaitObj
  dsimp only
  split
  · exact hset.trans (wakeWaitObj _ i true)
  · exact hset

/-- INTERNAL: a tick of all wait objects. -/
theorem updateSyncObjects (k : Kernel n σ) (e : ℤ) : KeepsRequests k (k.updateSyncObjects e) := by
  refine foldl (fun k o => ?_) k.syncList k
  have htick : KeepsRequests k (k.tickSyncObject e o) := foldl (fun k i => tickWaitObj e k i) _ k
  dsimp only
  split
  · exact htick.trans (of_tasks rfl rfl)
  · exact htick

variable [SwitchStrategy (Fin n) σ]

/-- INTERNAL: a call of the strategy. -/
theorem callStrategy (cfg : Config) (k : Kernel n σ) (c : StrategyCall (Fin n)) :
    KeepsRequests k (k.callStrategy cfg c).2 := by
  unfold Kernel.callStrategy
  split
  · exact of_tasks rfl rfl
  · exact fault k _

/-- INTERNAL: a task is bound and the strategy told. -/
theorem allocateAndAddNewTask (cfg : Config) (k : Kernel n σ) (u : TId) :
    KeepsRequests k (k.allocateAndAddNewTask cfg u) where
  request := (Binds.allocateAndAddNewTask cfg k u).request
  flag := allocateAndAddNewTask_request cfg k u
  user := (Kept.allocateAndAddNewTask cfg k u).user
  asleep := (Kept.allocateAndAddNewTask cfg k u).asleep

/-- INTERNAL: a weight is set. -/
theorem setCurrentWeight (k : Kernel n σ) (i : Fin n) (w : ℤ) : KeepsRequests k (k.setCurrentWeight i w) := by
  unfold Kernel.setCurrentWeight
  split
  · exact setTask k i rfl rfl fun h => h
  · exact refl k

/-- INTERNAL: an owner inherits a weight. -/
theorem onInheritWeight (cfg : Config) (k : Kernel n σ) (u : TId) (w : ℤ) :
    KeepsRequests k (k.onInheritWeight cfg u w) := by
  unfold Kernel.onInheritWeight
  split
  · exact refl k
  · split
    · exact refl k
    · split
      · exact fault k _
      · dsimp only
        split
        · exact (setCurrentWeight k _ w).trans (callStrategy cfg _ _)
        · exact refl k

/-- INTERNAL: an owner gives an inherited weight back. -/
theorem onRestoreWeight (cfg : Config) (k : Kernel n σ) (u : TId) (o : Option SyncId) :
    KeepsRequests k (k.onRestoreWeight cfg u o) := by
  unfold Kernel.onRestoreWeight
  split
  · exact refl k
  · split
    · exact fault k _
    · exact (setCurrentWeight k _ _).trans (callStrategy cfg _ _)

/-- INTERNAL: a sleep is scheduled. -/
theorem scheduleSleep (k : Kernel n σ) (i : Fin n) {ticks : ℤ} (hpos : 0 < ticks) :
    KeepsRequests k (k.scheduleSleep i ticks) := by
  refine setTask k i rfl rfl fun _ => ?_
  rw [KernelTask.isSleeping_iff]
  change -ticks < 0
  omega

/-- INTERNAL: the strategy is told of a sleep that has begun. -/
theorem deliverSleep (cfg : Config) (k : Kernel n σ) (i : Fin n) : KeepsRequests k (k.deliverSleep cfg i) := by
  unfold Kernel.deliverSleep
  split
  · exact (setTask k i rfl rfl fun h => h).trans (callStrategy cfg _ _)
  · exact refl k

/-- INTERNAL: the strategy is asked for the next task. -/
theorem fetchNextEvent (cfg : Config) (k : Kernel n σ) : KeepsRequests k (k.fetchNextEvent cfg).2.2 := by
  have hcall := callStrategy cfg k .getNext
  unfold Kernel.fetchNextEvent
  generalize k.callStrategy cfg .getNext = f at hcall
  obtain ⟨_ | next, k₁⟩ := f
  · dsimp only
    split
    · exact hcall
    · exact hcall
  · dsimp only
    split
    · exact hcall.trans (fault k₁ _)
    · exact hcall

/-- INTERNAL: the start of the scheduler. -/
theorem onStart (cfg : Config) (k : Kernel n σ) : KeepsRequests k (k.onStart cfg) := by
  have hloop : KeepsRequests k ((List.finRange n).foldl (fun k j =>
      if (k.tasks j).isSleeping then k.deliverSleep cfg j else k) k) := by
    refine foldl (fun k j => ?_) _ k
    split
    · exact deliverSleep cfg k j
    · exact refl k
  unfold Kernel.onStart
  dsimp only
  generalize (List.finRange n).foldl (fun k j =>
    if (k.tasks j).isSleeping then k.deliverSleep cfg j else k) k = k₁ at hloop
  have hswitch : KeepsRequests k { k₁ with fsmState := .switching } := hloop.trans (of_tasks rfl rfl)
  have hfetch := hswitch.trans (fetchNextEvent cfg _)
  generalize ({ k₁ with fsmState := .switching } : Kernel n σ).fetchNextEvent cfg = f at hfetch
  obtain ⟨event, next, k₂⟩ := f
  dsimp only at hfetch ⊢
  split
  · exact hfetch.trans (of_tasks rfl rfl)
  · split
    · exact hfetch.trans (of_tasks rfl rfl)
    · exact hfetch.trans (of_tasks rfl rfl)
  · exact hfetch.trans (of_tasks rfl rfl)

/-- INTERNAL: `Sleep`. -/
theorem onTaskSleep (cfg : Config) (k : Kernel n σ) (i : Fin n) (ticks : ℤ) :
    KeepsRequests k (k.onTaskSleep cfg i ticks) := by
  have hdone : KeepsRequests k (if cfg.isHrtMode then
      k.setTask i (fun t => { t with hrt := { t.hrt with done := true } }) else k) := by
    split
    · exact setTask k i rfl rfl fun h => h
    · exact refl k
  unfold Kernel.onTaskSleep
  dsimp only
  split
  · next hpos => exact hdone.trans (scheduleSleep _ i hpos)
  · exact hdone

/-- INTERNAL: `SleepUntil`. -/
theorem onTaskSleepUntil (k : Kernel n σ) (i : Fin n) (timestamp : ℤ) :
    KeepsRequests k (k.onTaskSleepUntil i timestamp) := by
  unfold Kernel.onTaskSleepUntil
  dsimp only
  split
  · next hpos =>
    apply scheduleSleep
    have hmax : waitInfinite = 2147483647 := rfl
    omega
  · exact refl k

/-- INTERNAL: a wait begins. -/
theorem onTaskWait (k : Kernel n σ) (i : Fin n) (o : SyncId) (timeout : ℤ) :
    KeepsRequests k (k.onTaskWait i o timeout) := by
  unfold Kernel.onTaskWait
  split
  · exact fault k _
  · split
    · exact fault k _
    · dsimp only
      refine trans ?_ (scheduleSleep _ i (by decide))
      have hset := setTask k i (f := fun t => { t with waitObj := ⟨some o, false, timeout⟩ }) rfl rfl fun h => h
      exact ⟨hset.request, rfl, hset.user, hset.asleep⟩

/-- INTERNAL: a task is suspended. -/
theorem suspendTask (k : Kernel n σ) (u : TId) : KeepsRequests k (k.suspendTask u) := by
  unfold Kernel.suspendTask
  split
  · exact fault k _
  · split
    · exact refl k
    · exact scheduleSleep k _ (by decide)

omit [SwitchStrategy (Fin n) σ] in
/-- INTERNAL: a task is resumed. -/
theorem resumeTask (k : Kernel n σ) (u : TId) : KeepsRequests k (k.resumeTask u) := by
  unfold Kernel.resumeTask
  split
  · exact fault k _
  · split
    · exact wakeTask k _
    · exact refl k

/-- INTERNAL: a removal is scheduled. -/
theorem scheduleRemoval (cfg : Config) (k : Kernel n σ) (i : Fin n) :
    KeepsRequests k (k.scheduleRemoval cfg i) := by
  have hframe : ∀ t : KernelTask,
      (t.scheduleRemoval cfg (SwitchStrategy.sleepEventApi σ)).addTaskReq = t.addTaskReq ∧
      (t.scheduleRemoval cfg (SwitchStrategy.sleepEventApi σ)).user = t.user ∧
      (t.scheduleRemoval cfg (SwitchStrategy.sleepEventApi σ)).isSleeping = true := by
    intro t
    unfold KernelTask.scheduleRemoval
    dsimp only
    split
    · exact ⟨rfl, rfl, rfl⟩
    · exact ⟨rfl, rfl, rfl⟩
  exact setTask k i (hframe _).1 (hframe _).2.1 fun _ => (hframe _).2.2

/-- INTERNAL: the scheduler is suspended as a whole. -/
theorem onSuspend (k : Kernel n σ) : KeepsRequests k k.onSuspend := by
  unfold Kernel.onSuspend
  split
  · exact refl k
  · split
    · exact refl k
    · exact scheduleSleep k _ (by decide)

/-- **A call that is neither a tick nor a request nor a removal before the start.** -/
theorem step (hhrt : cfg.isHrtMode = false) (k : Kernel n σ) {e : KernelEvent n} (htick : ∀ d, e ≠ .onTick d)
    (hask : ∀ i u, e ≠ .requestAddTask i u) (hremove : ∀ u, e ≠ .removeTask u) :
    KeepsRequests k (k.step cfg e) := by
  cases e with
  | onTick d => exact absurd rfl (htick d)
  | requestAddTask i u => exact absurd rfl (hask i u)
  | removeTask u => exact absurd rfl (hremove u)
  | addTask u =>
    simp only [Kernel.step]
    split
    · exact allocateAndAddNewTask cfg k u
    · exact refl k
  | addTaskHrt u p d s =>
    simp only [Kernel.step, hhrt, Bool.false_and]
    exact refl k
  | onStart =>
    simp only [Kernel.step]
    split
    · exact onStart cfg k
    · exact refl k
  | onStop =>
    simp only [Kernel.step]
    split
    · exact of_tasks rfl rfl
    · exact refl k
  | onSuspend =>
    simp only [Kernel.step]
    split
    · exact onSuspend k
    · exact refl k
  | sleep i ticks =>
    simp only [Kernel.step]
    split
    · exact onTaskSleep cfg k i ticks
    · exact refl k
  | sleepUntil i timestamp =>
    simp only [Kernel.step]
    split
    · exact onTaskSleepUntil k i timestamp
    · exact refl k
  | switchToNext i =>
    simp only [Kernel.step]
    split
    · exact onTaskSleep cfg k i yieldTicks
    · exact refl k
  | wait i o timeout =>
    simp only [Kernel.step]
    split
    · exact onTaskWait k i o timeout
    · exact refl k
  | waitReturn i =>
    simp only [Kernel.step]
    split
    · exact refl k
    · exact of_tasks rfl rfl
  | taskExit i =>
    simp only [Kernel.step]
    split
    · exact scheduleRemoval cfg k i
    · exact refl k
  | suspendTask u => exact suspendTask k u
  | resumeTask u => exact resumeTask k u
  | sleepCancel u =>
    simp only [Kernel.step]
    split
    · exact resumeTask k u
    · exact refl k
  | scheduleTaskRemoval u =>
    simp only [Kernel.step]
    split
    · split
      · exact refl k
      · exact scheduleRemoval cfg k _
    · exact refl k
  | wakeOne o =>
    simp only [Kernel.step, Kernel.wakeOne]
    split
    · exact refl k
    · exact wakeWaitObj k _ false
  | wakeAll o => exact foldl (fun k i => wakeWaitObj k i false) _ k
  | inheritWeight u w => exact onInheritWeight cfg k u w
  | restoreWeight u o => exact onRestoreWeight cfg k u o

end KeepsRequests

/-! ## Ticks -/

variable [SwitchStrategy (Fin n) σ]

/-- INTERNAL: the loop of `UpdateTaskRequest` over a list of slots. -/
structure Serving (k : Kernel n σ) (l : List (Fin n)) (acc : Kernel n σ × List (Fin n × TId)) : Prop where
  served : acc.2 = l.filterMap (fun i => (k.tasks i).addTaskReq.map (fun u => (i, u)))
  done : ∀ i ∈ l, (acc.1.tasks i).addTaskReq = none
  ahead : ∀ i, i ∉ l → (acc.1.tasks i).addTaskReq = (k.tasks i).addTaskReq
  flag : acc.1.request = k.request
  user : ∀ i, (k.tasks i).user ≠ none → (acc.1.tasks i).user = (k.tasks i).user

/-- INTERNAL: one slot of the loop. -/
theorem Serving.step {l : List (Fin n)} {acc : Kernel n σ × List (Fin n × TId)} (h : Serving k l acc) (hi : i ∉ l) :
    Serving k (l ++ [i]) (Kernel.serveRequest cfg acc i) := by
  have hahead := h.ahead i hi
  unfold Kernel.serveRequest
  rw [hahead]
  cases hreq : (k.tasks i).addTaskReq with
  | none =>
    refine ⟨?_, ?_, ?_, h.flag, h.user⟩
    · simp [h.served, hreq]
    · intro j hj
      rcases List.mem_append.mp hj with hold | hnew
      · exact h.done j hold
      · rw [List.mem_singleton.mp hnew, hahead, hreq]
    · intro j hj
      exact h.ahead j fun hmem => hj (List.mem_append_left _ hmem)
  | some u =>
    have hadd := KeepsRequests.allocateAndAddNewTask cfg acc.1 u
    have hself : (((acc.1.allocateAndAddNewTask cfg u).setTask i
        (fun t => { t with addTaskReq := none })).tasks i) =
        { (acc.1.allocateAndAddNewTask cfg u).tasks i with addTaskReq := none } := Function.update_self _ _ _
    have hother : ∀ j, j ≠ i → ((acc.1.allocateAndAddNewTask cfg u).setTask i
        (fun t => { t with addTaskReq := none })).tasks j = (acc.1.allocateAndAddNewTask cfg u).tasks j :=
      fun j hj => Function.update_of_ne hj _ _
    dsimp only
    refine ⟨?_, ?_, ?_, hadd.flag.trans h.flag, ?_⟩
    · simp [h.served, hreq]
    · intro j hj
      by_cases hji : j = i
      · rw [hji, hself]
      · have hold : j ∈ l := by simpa [hji] using hj
        rw [hother j hji, hadd.request, h.done j hold]
    · intro j hj
      rw [List.mem_append, List.mem_singleton, not_or] at hj
      rw [hother j hj.2, hadd.request, h.ahead j hj.1]
    · intro j hj
      have hsame := h.user j hj
      have hkeep := hadd.user j (by rw [hsame]; exact hj)
      by_cases hji : j = i
      · rw [hji, hself]
        rw [hji] at hkeep hsame
        exact hkeep.trans hsame
      · rw [hother j hji, hkeep, hsame]

/-- INTERNAL: the whole loop. -/
theorem Serving.foldl (cfg : Config) (k : Kernel n σ) {l : List (Fin n)} (hl : l.Nodup) :
    Serving k l (l.foldl (Kernel.serveRequest cfg) (k, [])) := by
  induction l using List.reverseRecOn with
  | nil => exact ⟨rfl, fun _ h => (List.not_mem_nil h).elim, fun _ _ => rfl, rfl, fun _ _ => rfl⟩
  | append_singleton l i ih =>
    rw [List.nodup_append] at hl
    rw [List.foldl_append]
    exact (ih hl.1).step fun hi => hl.2.2 i hi i (List.mem_singleton_self i) rfl

/-- `UpdateTaskRequest` with its history is `UpdateTaskRequest`. -/
theorem serveRequests_fst (cfg : Config) (k : Kernel n σ) : (k.serveRequests cfg).1 = k.updateTaskRequest cfg := by
  have hloop : ∀ (l : List (Fin n)) (acc : Kernel n σ × List (Fin n × TId)),
      (l.foldl (Kernel.serveRequest cfg) acc).1 =
        l.foldl (fun k i => (Kernel.serveRequest cfg (k, []) i).1) acc.1 := by
    intro l
    induction l with
    | nil => exact fun _ => rfl
    | cons i l ih =>
      intro acc
      rw [List.foldl_cons, List.foldl_cons, ih]
      congr 1
      unfold Kernel.serveRequest
      cases (acc.1.tasks i).addTaskReq with
      | none => rfl
      | some u => rfl
  unfold Kernel.serveRequests Kernel.updateTaskRequest
  split
  · rw [hloop]
    congr 1
    funext k i
    unfold Kernel.serveRequest
    cases (k.tasks i).addTaskReq with
    | none => rfl
    | some u => rfl
  · rfl

/-- What a tick does with the requests: all of them are processed if `REQ_ADD_TASK` is set, none otherwise;
then a slot stays with its task, or its task is removed and its request with it. -/
structure TickServes (cfg : Config) (e : ℤ) (k k' : Kernel n σ) : Prop where
  served : k.servedBy cfg (.onTick e) =
    if k.request then (List.finRange n).filterMap (fun i => (k.tasks i).addTaskReq.map (fun u => (i, u))) else []
  flag : k'.request = false
  slot : ∀ i,
    (((k.tasks i).user ≠ none → (k'.tasks i).user = (k.tasks i).user) ∧
      (k'.tasks i).addTaskReq = if k.request then none else (k.tasks i).addTaskReq) ∨
    ((k'.tasks i).user = none ∧ (k'.tasks i).addTaskReq = none)

/-- INTERNAL: a tick serves the requests. -/
theorem onTick_serves (hdyn : cfg.isDynamicMode = true) (hhrt : cfg.isHrtMode = false) (k : Kernel n σ) {e : ℤ}
    (htick : (k.isStarted && validElapsed cfg e) = true) : TickServes cfg e k (k.onTick cfg e).1 := by
  have hmode : (cfg.isDynamicMode && !cfg.isHrtMode) = true := by simp [hdyn, hhrt]
  have hsync : KeepsRequests k (if cfg.isSyncMode then
      ({ k with ticks := k.ticks + e } : Kernel n σ).updateSyncObjects e
      else { k with ticks := k.ticks + e }) := by
    have htime : KeepsRequests k ({ k with ticks := k.ticks + e } : Kernel n σ) := .of_tasks rfl rfl
    split
    · exact htime.trans (.updateSyncObjects _ e)
    · exact htime
  have hserved : k.servedBy cfg (.onTick e) =
      if (if cfg.isSyncMode then ({ k with ticks := k.ticks + e } : Kernel n σ).updateSyncObjects e
        else { k with ticks := k.ticks + e }).request then
        ((if cfg.isSyncMode then ({ k with ticks := k.ticks + e } : Kernel n σ).updateSyncObjects e
          else { k with ticks := k.ticks + e }).serveRequests cfg).2 else [] := if_pos htick
  have hloading : loading cfg k e = if (if cfg.isSyncMode then
        ({ k with ticks := k.ticks + e } : Kernel n σ).updateSyncObjects e
        else { k with ticks := k.ticks + e }).request then
        ((if cfg.isSyncMode then ({ k with ticks := k.ticks + e } : Kernel n σ).updateSyncObjects e
          else { k with ticks := k.ticks + e }).serveRequests cfg).1
      else (if cfg.isSyncMode then ({ k with ticks := k.ticks + e } : Kernel n σ).updateSyncObjects e
        else { k with ticks := k.ticks + e }) := by
    rw [serveRequests_fst]
    rfl
  generalize (if cfg.isSyncMode then ({ k with ticks := k.ticks + e } : Kernel n σ).updateSyncObjects e
    else { k with ticks := k.ticks + e }) = k₁ at hsync hserved hloading
  have hloop := Serving.foldl cfg ({ k₁ with request := false } : Kernel n σ) (List.nodup_finRange n)
  have hrun : k₁.serveRequests cfg =
      (List.finRange n).foldl (Kernel.serveRequest cfg) ({ k₁ with request := false }, []) := if_pos hmode
  rw [← hrun] at hloop
  rw [hsync.flag] at hserved hloading
  -- the slots as the loop of `UpdateTaskState` finds them
  have hready : ∀ i, ((k.tasks i).user ≠ none → ((loading cfg k e).tasks i).user = (k.tasks i).user) ∧
      ((loading cfg k e).tasks i).addTaskReq = if k.request then none else (k.tasks i).addTaskReq := by
    intro i
    rw [hloading]
    split
    · refine ⟨fun hi => ?_, hloop.done i (List.mem_finRange i)⟩
      have huser := hsync.user i hi
      exact (hloop.user i (by rw [← huser] at hi; exact hi)).trans huser
    · exact ⟨hsync.user i, hsync.request i⟩
  refine ⟨?_, ?_, ?_⟩
  · rw [hserved, hloop.served]
    simp only [hsync.request]
  · cases hflag : (k.onTick cfg e).1.request with
    | false => rfl
    | true =>
      have hno := onTick_request hdyn k e hflag
      rw [hhrt] at hno
      cases hno
  · intro i
    obtain ⟨huser, hreq⟩ := hready i
    obtain ⟨l₁, l₂, hl, h₁, h₂⟩ := finRange_split i
    have hslot := updateTaskState_ticked cfg (loading cfg k e) e hl h₁ h₂
    rw [← asking_loading] at hslot
    have hfsm := SameTasks.updateFsmState cfg (asking cfg k e)
    have hend : ((k.onTick cfg e).1.tasks i).user = ((asking cfg k e).tasks i).user ∧
        ((k.onTick cfg e).1.tasks i).addTaskReq = ((asking cfg k e).tasks i).addTaskReq :=
      ⟨hfsm.user i, hfsm.request i⟩
    rw [hend.1, hend.2, hslot, ← hreq]
    unfold updatedSlot
    split
    · split
      · right
        unfold KernelTask.unbind
        rw [hhrt]
        exact ⟨rfl, rfl⟩
      · exact .inl ⟨huser, rfl⟩
    · split
      · exact .inl ⟨huser, rfl⟩
      · exact .inl ⟨huser, rfl⟩

/-- INTERNAL: a removal before the start, in a mode with requests. -/
theorem removeTask_requests (hhrt : cfg.isHrtMode = false) (k : Kernel n σ) (i : Fin n) :
    ((k.removeTask cfg i).tasks i).user = none ∧ ((k.removeTask cfg i).tasks i).addTaskReq = none ∧
      (k.removeTask cfg i).request = k.request := by
  have hcall := (callStrategy_frame cfg ({ k with exits := k.exits ++ (k.tasks i).user.toList } : Kernel n σ)
    (.removeTask i)).2.2
  have hunbind : ∀ t : KernelTask, (t.unbind cfg).user = none ∧ (t.unbind cfg).addTaskReq = none := by
    intro t
    unfold KernelTask.unbind
    rw [hhrt]
    exact ⟨rfl, rfl⟩
  unfold Kernel.removeTask
  dsimp only
  split
  · refine ⟨?_, ?_, hcall⟩
    · simp [Kernel.setTask, hunbind]
    · simp [Kernel.setTask, hunbind]
  · refine ⟨?_, ?_, hcall⟩
    · simp [Kernel.setTask, hunbind]
    · simp [Kernel.setTask, hunbind]

/-! ## The invariant of a slot -/

/-- `REQ_ADD_TASK` has been set for the request. -/
def isAnnounced : AddTaskStage → Bool
  | .idle | .stored _ => false
  | .flagged _ | .pending _ | .yielding _ => true

/-- What holds of a slot, its caller and its requests: the slot points to a request of a call that has not
returned, a request announced to the tick is noticed by it, and a caller sleeps until it is processed. -/
structure RequestOk (flag : Bool) (t : KernelTask) (stage : AddTaskStage) (asked : List TId)
    (answers : List AddTaskAnswer) : Prop where
  request : ∀ u, t.addTaskReq = some u → stage.user = some u
  flag : isAnnounced stage = true → t.addTaskReq ≠ none → flag = true
  asleep : ∀ u, stage = .yielding u → t.addTaskReq ≠ none → t.isSleeping = true
  busy : stage ≠ .idle → t.user ≠ none
  log : asked = answers.map AddTaskAnswer.user ++ t.addTaskReq.toList

variable {s : AddTaskSystem n σ} {flag flag' : Bool} {t t' : KernelTask} {stage : AddTaskStage} {asked : List TId}
  {answers : List AddTaskAnswer}

namespace RequestOk

/-- INTERNAL: a caller that is idle has no request in its slot. -/
theorem request_none (h : RequestOk flag t .idle asked answers) : t.addTaskReq = none := by
  cases hreq : t.addTaskReq with
  | none => rfl
  | some u => cases h.request u hreq

/-- INTERNAL: a call that leaves the request. -/
theorem keep (h : RequestOk flag t stage asked answers) (hreq : t'.addTaskReq = t.addTaskReq)
    (hflag : flag = true → flag' = true) (huser : t.user ≠ none → t'.user = t.user)
    (hasleep : t.isSleeping = true → t'.isSleeping = true) : RequestOk flag' t' stage asked answers := by
  refine ⟨?_, ?_, ?_, ?_, ?_⟩
  · rw [hreq]
    exact h.request
  · rw [hreq]
    exact fun hset hpending => hflag (h.flag hset hpending)
  · rw [hreq]
    exact fun u hstage hpending => hasleep (h.asleep u hstage hpending)
  · intro hin
    have hbusy := h.busy hin
    rw [huser hbusy]
    exact hbusy
  · rw [hreq]
    exact h.log

/-- INTERNAL: the tick has processed the request. -/
theorem serve (h : RequestOk flag t stage asked answers) (hreq : t'.addTaskReq = none)
    (huser : t.user ≠ none → t'.user = t.user) :
    RequestOk flag' t' stage asked (answers ++ t.addTaskReq.toList.map .served) := by
  refine ⟨?_, ?_, ?_, ?_, ?_⟩
  · intro u hu
    rw [hreq] at hu
    cases hu
  · exact fun _ hpending => absurd hreq hpending
  · exact fun _ _ hpending => absurd hreq hpending
  · intro hin
    have hbusy := h.busy hin
    rw [huser hbusy]
    exact hbusy
  · rw [h.log, hreq]
    cases t.addTaskReq with
    | none => simp
    | some u => simp [AddTaskAnswer.user]

/-- INTERNAL: the caller has been removed, with its request or after it was processed. -/
theorem free (h : RequestOk flag t stage asked answers) (hreq : t'.addTaskReq = none) {last : List AddTaskAnswer}
    (hlast : last.map AddTaskAnswer.user = t.addTaskReq.toList) :
    RequestOk flag' t' .idle asked (answers ++ last) := by
  refine ⟨?_, ?_, ?_, fun hin => absurd rfl hin, ?_⟩
  · intro u hu
    rw [hreq] at hu
    cases hu
  · exact fun _ hpending => absurd hreq hpending
  · exact fun _ _ hpending => absurd hreq hpending
  · rw [h.log, hreq, List.map_append, hlast]
    simp

end RequestOk

/-- INTERNAL: what holds between any two steps. -/
structure AddTaskOk (s : AddTaskSystem n σ) : Prop where
  slot : ∀ i, RequestOk s.kernel.request (s.kernel.tasks i) (s.stage i) (s.asked i) (s.answers i)
  asserts : s.assertsFailed = 0

omit [SwitchStrategy (Fin n) σ] in
/-- INTERNAL: a slot is freed if it was busy and is no longer. -/
theorem isFreed_iff (i : Fin n) :
    AddTaskSystem.isFreed k k' i = true ↔ (k.tasks i).user ≠ none ∧ (k'.tasks i).user = none := by
  unfold AddTaskSystem.isFreed KernelTask.isBusy
  cases (k.tasks i).user with
  | none => simp
  | some u =>
    cases (k'.tasks i).user with
    | none => simp
    | some v => simp

omit [SwitchStrategy (Fin n) σ] in
/-- INTERNAL: the requests of slot `i` among all that a tick processes. -/
theorem filter_requests (k : Kernel n σ) (i : Fin n) :
    ((List.finRange n).filterMap (fun j => (k.tasks j).addTaskReq.map (fun u => (j, u)))).filter
      (fun r => decide (r.1 = i)) = (k.tasks i).addTaskReq.toList.map (fun u => (i, u)) := by
  obtain ⟨l₁, l₂, hl, h₁, h₂⟩ := finRange_split i
  have hnone : ∀ l : List (Fin n), i ∉ l →
      (l.filterMap (fun j => (k.tasks j).addTaskReq.map (fun u => (j, u)))).filter
        (fun r => decide (r.1 = i)) = [] := by
    intro l hi
    rw [List.filter_eq_nil_iff]
    intro r hr
    obtain ⟨j, hj, hjr⟩ := List.mem_filterMap.mp hr
    rw [Option.map_eq_some_iff] at hjr
    obtain ⟨u, -, rfl⟩ := hjr
    have hne : j ≠ i := by
      rintro rfl
      exact hi hj
    simpa using hne
  rw [hl, List.filterMap_append, List.filterMap_cons, List.filter_append, hnone l₁ h₁, List.nil_append]
  cases hreq : (k.tasks i).addTaskReq with
  | none => simpa using hnone l₂ h₂
  | some u => simp [hnone l₂ h₂]

namespace AddTaskOk

/-- INTERNAL: no one has asked yet. -/
theorem initial : AddTaskOk (AddTaskSystem.initial : AddTaskSystem n σ) := by
  refine ⟨fun i => ⟨?_, ?_, ?_, fun h => absurd rfl h, rfl⟩, rfl⟩
  · intro u h
    cases h
  · intro h
    cases h
  · intro u h
    cases h

omit [SwitchStrategy (Fin n) σ] in
/-- INTERNAL: a step of one caller. -/
theorem of_update (h : AddTaskOk s) (i : Fin n) {s' : AddTaskSystem n σ}
    (hflag : s.kernel.request = true → s'.kernel.request = true)
    (htasks : ∀ j, j ≠ i → s'.kernel.tasks j = s.kernel.tasks j ∧ s'.stage j = s.stage j ∧
      s'.asked j = s.asked j ∧ s'.answers j = s.answers j)
    (hself : RequestOk s'.kernel.request (s'.kernel.tasks i) (s'.stage i) (s'.asked i) (s'.answers i))
    (hasserts : s'.assertsFailed = 0) : AddTaskOk s' := by
  refine ⟨?_, hasserts⟩
  intro j
  by_cases hj : j = i
  · rw [hj]
    exact hself
  · obtain ⟨htask, hstage, hasked, hanswers⟩ := htasks j hj
    rw [htask, hstage, hasked, hanswers]
    exact (h.slot j).keep rfl hflag (fun _ => rfl) fun hs => hs

/-- INTERNAL: a call of `AddTask` makes its request. -/
theorem request (h : AddTaskOk s) (i : Fin n) (u : TId) : AddTaskOk (s.step cfg (.request i u)) := by
  simp only [AddTaskSystem.step]
  split
  · next hmay =>
    simp only [Bool.and_eq_true, decide_eq_true_eq, Kernel.canCall] at hmay
    have hidle := hmay.2
    have hbusy : (s.kernel.tasks i).user ≠ none := by
      rw [← KernelTask.isBusy_iff]
      exact hmay.1.1.1.1.2
    have hslot := h.slot i
    rw [hidle] at hslot
    apply h.of_update i
    · exact fun hset => hset
    · intro j hj
      exact ⟨Function.update_of_ne hj _ _, Function.update_of_ne hj _ _, Function.update_of_ne hj _ _, rfl⟩
    · dsimp only [Kernel.setTask]
      rw [Function.update_self, Function.update_self, Function.update_self]
      refine ⟨?_, ?_, ?_, fun _ => hbusy, ?_⟩
      · intro v hv
        exact hv
      · intro hset
        cases hset
      · intro v hv
        cases hv
      · rw [hslot.log, hslot.request_none]
        simp
    · exact h.asserts
  · exact h

/-- INTERNAL: the caller looks whether its request is served. -/
theorem advance (h : AddTaskOk s) (i : Fin n) : AddTaskOk (s.step cfg (.advance i)) := by
  have hslot := h.slot i
  have hbusy := hslot.busy
  simp only [AddTaskSystem.step]
  cases hstage : s.stage i with
  | idle => exact h
  | stored u =>
    rw [hstage] at hslot hbusy
    apply h.of_update i
    · exact fun _ => rfl
    · intro j hj
      exact ⟨rfl, Function.update_of_ne hj _ _, rfl, rfl⟩
    · dsimp only
      rw [Function.update_self]
      refine ⟨hslot.request, fun _ _ => rfl, ?_, fun _ => hbusy (by simp), hslot.log⟩
      intro v hv
      cases hv
    · exact h.asserts
  | flagged u =>
    rw [hstage] at hslot hbusy
    dsimp only
    split
    · apply h.of_update i
      · exact fun hset => hset
      · intro j hj
        exact ⟨rfl, Function.update_of_ne hj _ _, rfl, rfl⟩
      · dsimp only
        rw [Function.update_self]
        refine ⟨hslot.request, fun _ => hslot.flag rfl, ?_, fun _ => hbusy (by simp), hslot.log⟩
        intro v hv
        cases hv
      · exact h.asserts
    · next hgone =>
      have hnone : (s.kernel.tasks i).addTaskReq = none := not_not.mp hgone
      apply h.of_update i
      · exact fun hset => hset
      · intro j hj
        exact ⟨rfl, Function.update_of_ne hj _ _, rfl, rfl⟩
      · dsimp only
        rw [Function.update_self]
        refine ⟨?_, ?_, ?_, fun hin => absurd rfl hin, hslot.log⟩
        · intro v hv
          rw [hnone] at hv
          cases hv
        · intro hset
          cases hset
        · intro v hv
          cases hv
      · exact h.asserts
  | pending u =>
    rw [hstage] at hslot hbusy
    have hkeep := KeepsRequests.onTaskSleep cfg s.kernel i yieldTicks
    -- the caller sleeps from here on
    have hsleeps : ((s.kernel.onTaskSleep cfg i yieldTicks).tasks i).isSleeping = true := by
      rw [KernelTask.isSleeping_iff]
      unfold Kernel.onTaskSleep
      dsimp only
      rw [if_pos (by decide)]
      simp only [Kernel.scheduleSleep, Kernel.setTask, Function.update_self, KernelTask.scheduleSleep]
      decide
    have hother : ∀ j, j ≠ i → (s.kernel.onTaskSleep cfg i yieldTicks).tasks j = s.kernel.tasks j := by
      intro j hj
      unfold Kernel.onTaskSleep
      dsimp only
      split
      · split
        · simp [Kernel.scheduleSleep, Kernel.setTask, hj]
        · simp [Kernel.scheduleSleep, Kernel.setTask, hj]
      · split
        · simp [Kernel.setTask, hj]
        · rfl
    apply h.of_update i
    · exact fun hset => hkeep.flag.trans hset
    · intro j hj
      exact ⟨hother j hj, Function.update_of_ne hj _ _, rfl, rfl⟩
    · dsimp only
      rw [Function.update_self, hkeep.flag]
      have huser := hkeep.user i (hbusy (by simp))
      refine ⟨?_, ?_, fun _ _ _ => hsleeps, fun _ => ?_, ?_⟩
      · rw [hkeep.request]
        exact hslot.request
      · rw [hkeep.request]
        exact fun _ => hslot.flag rfl
      · rw [huser]
        exact hbusy (by simp)
      · rw [hkeep.request]
        exact hslot.log
    · exact h.asserts
  | yielding u =>
    rw [hstage] at hslot
    dsimp only
    split
    · exact h
    · next hawake =>
      -- who has stopped sleeping has had its request processed
      have hnone : (s.kernel.tasks i).addTaskReq = none := by
        by_contra hpending
        exact hawake (hslot.asleep u rfl hpending)
      apply h.of_update i
      · exact fun hset => hset
      · intro j hj
        exact ⟨rfl, Function.update_of_ne hj _ _, rfl, rfl⟩
      · dsimp only
        rw [Function.update_self]
        refine ⟨?_, ?_, ?_, fun hin => absurd rfl hin, hslot.log⟩
        · intro v hv
          rw [hnone] at hv
          cases hv
        · intro hset
          cases hset
        · intro v hv
          cases hv
      · dsimp only
        rw [if_pos hnone, Nat.add_zero]
        exact h.asserts

/-- INTERNAL: a call that keeps the requests. -/
theorem keeps (h : AddTaskOk s) {e : KernelEvent n} (hkeep : KeepsRequests s.kernel (s.kernel.step cfg e))
    (hserved : s.kernel.servedBy cfg e = []) : AddTaskOk (s.step cfg (.kernel e)) := by
  simp only [AddTaskSystem.step]
  split
  · refine ⟨?_, h.asserts⟩
    intro i
    have hbusy : AddTaskSystem.isFreed s.kernel (s.kernel.step cfg e) i = false := by
      rw [Bool.eq_false_iff, Ne, isFreed_iff]
      rintro ⟨huser, hgone⟩
      rw [hkeep.user i huser] at hgone
      exact huser hgone
    have hnothing : AddTaskSystem.answered cfg s.kernel e i = [] := by
      unfold AddTaskSystem.answered
      rw [hserved, hbusy]
      simp
    dsimp only
    rw [hbusy, hnothing, List.append_nil]
    exact (h.slot i).keep (hkeep.request i) (fun hset => hkeep.flag.trans hset) (hkeep.user i) (hkeep.asleep i)
  · exact h

/-- INTERNAL: what a tick makes of the request of slot `i`. -/
theorem answered_tick {e : ℤ} (hserves : TickServes cfg e k (k.step cfg (.onTick e))) (i : Fin n) :
    AddTaskSystem.answered cfg k (.onTick e) i =
      if k.request then (k.tasks i).addTaskReq.toList.map .served
      else if AddTaskSystem.isFreed k (k.step cfg (.onTick e)) i then (k.tasks i).addTaskReq.toList.map .dropped
      else [] := by
  unfold AddTaskSystem.answered
  rw [hserves.served]
  dsimp only
  cases hflag : k.request with
  | false => simp
  | true =>
    rw [if_pos rfl, filter_requests, if_pos rfl]
    cases (k.tasks i).addTaskReq with
    | none => simp
    | some u => simp

/-- INTERNAL: a tick serves every request once. -/
theorem tick (h : AddTaskOk s) (hdyn : cfg.isDynamicMode = true) (hhrt : cfg.isHrtMode = false) {e : ℤ}
    (htick : (s.kernel.isStarted && validElapsed cfg e) = true) : AddTaskOk (s.step cfg (.kernel (.onTick e))) := by
  have hstep : s.kernel.step cfg (.onTick e) = (s.kernel.onTick cfg e).1 := if_pos htick
  have hserves := onTick_serves hdyn hhrt s.kernel htick
  rw [← hstep] at hserves
  have hmay : s.mayCall (.onTick e) = true := rfl
  simp only [AddTaskSystem.step]
  rw [if_pos hmay]
  refine ⟨?_, h.asserts⟩
  intro i
  have hslot := h.slot i
  dsimp only
  rw [answered_tick hserves i]
  rcases hserves.slot i with ⟨huser, hreq⟩ | ⟨hgone, hreq⟩
  · have hbusy : AddTaskSystem.isFreed s.kernel (s.kernel.step cfg (.onTick e)) i = false := by
      rw [Bool.eq_false_iff, Ne, isFreed_iff]
      rintro ⟨hin, hout⟩
      rw [huser hin] at hout
      exact hin hout
    rw [hbusy, if_neg Bool.false_ne_true, if_neg Bool.false_ne_true]
    cases hflag : s.kernel.request with
    | true =>
      rw [hflag] at hreq hslot
      exact hslot.serve hreq huser
    | false =>
      -- no request of this slot has been announced
      rw [hflag, if_neg Bool.false_ne_true] at hreq
      rw [hflag] at hslot
      have hnone : isAnnounced (s.stage i) = true → (s.kernel.tasks i).addTaskReq = none := by
        intro hset
        by_contra hpending
        cases hslot.flag hset hpending
      rw [if_neg Bool.false_ne_true, List.append_nil]
      refine ⟨?_, ?_, ?_, ?_, ?_⟩
      · rw [hreq]
        exact hslot.request
      · rw [hreq]
        exact fun hset hpending => absurd (hnone hset) hpending
      · rw [hreq]
        intro u hstage hpending
        exact absurd (hnone (by rw [hstage]; rfl)) hpending
      · intro hin
        rw [huser (hslot.busy hin)]
        exact hslot.busy hin
      · rw [hreq]
        exact hslot.log
  · by_cases hin : (s.kernel.tasks i).user = none
    · have hidle : s.stage i = .idle := by
        by_contra hne
        exact hslot.busy hne hin
      have hbusy : AddTaskSystem.isFreed s.kernel (s.kernel.step cfg (.onTick e)) i = false := by
        rw [Bool.eq_false_iff, Ne, isFreed_iff]
        exact fun hfreed => hfreed.1 hin
      rw [hidle] at hslot ⊢
      rw [hbusy, hslot.request_none, if_neg Bool.false_ne_true]
      apply hslot.free hreq
      rw [hslot.request_none]
      split
      · rfl
      · rfl
    · have hfreed : AddTaskSystem.isFreed s.kernel (s.kernel.step cfg (.onTick e)) i = true :=
        (isFreed_iff i).mpr ⟨hin, hgone⟩
      rw [hfreed, if_pos rfl, if_pos rfl]
      apply hslot.free hreq
      split
      · cases (s.kernel.tasks i).addTaskReq with
        | none => rfl
        | some u => rfl
      · cases (s.kernel.tasks i).addTaskReq with
        | none => rfl
        | some u => rfl

/-- INTERNAL: a removal before the start. -/
theorem removeTask (h : AddTaskOk s) (hhrt : cfg.isHrtMode = false) (u : TId) :
    AddTaskOk (s.step cfg (.kernel (.removeTask u))) := by
  cases hfind : s.kernel.findTaskByUserTask u with
  | none =>
    have hsame : s.kernel.step cfg (.removeTask u) = s.kernel := by
      simp [Kernel.step, hfind]
    apply h.keeps _ rfl
    rw [hsame]
    exact .refl _
  | some i =>
    by_cases hmode : (cfg.isDynamicMode && !s.kernel.isStarted) = true
    · have hstep : s.kernel.step cfg (.removeTask u) = s.kernel.removeTask cfg i := by
        simp only [Kernel.step, hfind]
        rw [if_pos hmode]
      obtain ⟨hgone, hreq, hflag⟩ := removeTask_requests hhrt s.kernel i
      have hother := (removeTask_frame cfg s.kernel i).1
      have hmay : s.mayCall (.removeTask u) = true := rfl
      have hin : (s.kernel.tasks i).user ≠ none := by
        have hi : (s.kernel.tasks i).user = some u := by simpa using List.find?_some hfind
        rw [hi]
        exact Option.some_ne_none u
      simp only [AddTaskSystem.step]
      rw [if_pos hmay, hstep]
      refine ⟨?_, h.asserts⟩
      intro j
      have hslot := h.slot j
      dsimp only
      have hanswer : AddTaskSystem.answered cfg s.kernel (.removeTask u) j =
          if AddTaskSystem.isFreed s.kernel (s.kernel.removeTask cfg i) j then
            (s.kernel.tasks j).addTaskReq.toList.map .dropped else [] := by
        unfold AddTaskSystem.answered Kernel.servedBy
        rw [hstep]
        simp
      rw [hanswer]
      by_cases hj : j = i
      · have hfreed : AddTaskSystem.isFreed s.kernel (s.kernel.removeTask cfg i) j = true := by
          rw [hj]
          exact (isFreed_iff i).mpr ⟨hin, hgone⟩
        rw [hfreed, if_pos rfl, if_pos rfl, hj]
        apply (h.slot i).free hreq
        cases (s.kernel.tasks i).addTaskReq with
        | none => rfl
        | some v => rfl
      · have hbusy : AddTaskSystem.isFreed s.kernel (s.kernel.removeTask cfg i) j = false := by
          rw [Bool.eq_false_iff, Ne, isFreed_iff, hother j hj]
          exact fun hfreed => hfreed.1 hfreed.2
        rw [hbusy, if_neg Bool.false_ne_true, if_neg Bool.false_ne_true, List.append_nil, hother j hj]
        exact hslot.keep rfl (fun hset => hflag.trans hset) (fun _ => rfl) fun hs => hs
    · have hsame : s.kernel.step cfg (.removeTask u) = s.kernel := by
        simp only [Kernel.step]
        rw [if_neg hmode]
      apply h.keeps _ rfl
      rw [hsame]
      exact .refl _

/-- **A step of the system.** -/
theorem step (h : AddTaskOk s) (hdyn : cfg.isDynamicMode = true) (hhrt : cfg.isHrtMode = false)
    (e : AddTaskEvent n) : AddTaskOk (s.step cfg e) := by
  cases e with
  | request i u => exact h.request i u
  | advance i => exact h.advance i
  | kernel e =>
    by_cases htick : ∃ d, e = .onTick d
    · obtain ⟨d, rfl⟩ := htick
      by_cases hgo : (s.kernel.isStarted && validElapsed cfg d) = true
      · exact h.tick hdyn hhrt hgo
      · have hsame : s.kernel.step cfg (.onTick d) = s.kernel := if_neg hgo
        apply h.keeps
        · rw [hsame]
          exact .refl _
        · exact if_neg hgo
    · by_cases hremove : ∃ u, e = .removeTask u
      · obtain ⟨u, rfl⟩ := hremove
        exact h.removeTask hhrt u
      · by_cases hask : ∃ i u, e = .requestAddTask i u
        · obtain ⟨i, u, rfl⟩ := hask
          -- a request goes through its own steps
          exact h
        · apply h.keeps
          · exact KeepsRequests.step hhrt s.kernel (fun d hd => htick ⟨d, hd⟩) (fun i u hu => hask ⟨i, u, hu⟩)
              fun u hu => hremove ⟨u, hu⟩
          · cases e with
            | onTick d => exact absurd ⟨d, rfl⟩ htick
            | _ => rfl

end AddTaskOk

/-! ## Runs -/

/-- INTERNAL: the invariant of every run. -/
theorem addTaskOk_run (hdyn : cfg.isDynamicMode = true) (hhrt : cfg.isHrtMode = false)
    (es : List (AddTaskEvent n)) :
    AddTaskOk (AddTaskSystem.run cfg es : AddTaskSystem n σ) := by
  apply (Runs.along_of_forall (P := fun _ _ => True) (fun _ _ => trivial) _ es).invariant (I := AddTaskOk)
  · intro s e h _
    exact h.step hdyn hhrt e
  · exact .initial

/-- **`AddTask` of a running kernel.**  In every run, whatever comes between the steps of its callers: the last
assertion of `RequestAddTask` never fails; a slot points to a request only while the call that owns the request
has not returned; the requests of a slot are answered once each and in their order, all but the one still pending;
the first tick after a caller has set `REQ_ADD_TASK` processes its request; and a tick drops a request only
together with its caller, before that has announced it. -/
theorem run_addTask (σ : Type) [SwitchStrategy (Fin n) σ] (cfg : Config) (hdyn : cfg.isDynamicMode = true)
    (hhrt : cfg.isHrtMode = false) (es : List (AddTaskEvent n)) :
    let s : AddTaskSystem n σ := AddTaskSystem.run cfg es
    s.assertsFailed = 0 ∧
    (∀ i u, (s.kernel.tasks i).addTaskReq = some u → (s.stage i).user = some u) ∧
    (∀ i, s.asked i = (s.answers i).map AddTaskAnswer.user ++ (s.kernel.tasks i).addTaskReq.toList) ∧
    (∀ d i, (s.kernel.isStarted && validElapsed cfg d) = true → isAnnounced (s.stage i) = true →
      let s' := s.step cfg (.kernel (.onTick d))
      (s'.kernel.tasks i).addTaskReq = none ∧
        s'.answers i = s.answers i ++ (s.kernel.tasks i).addTaskReq.toList.map .served) ∧
    ∀ d i u, .dropped u ∈ AddTaskSystem.answered cfg s.kernel (.onTick d) i → s.stage i = .stored u := by
  intro s
  have h : AddTaskOk s := addTaskOk_run hdyn hhrt es
  refine ⟨h.asserts, fun i => (h.slot i).request, fun i => (h.slot i).log, ?_, ?_⟩
  · intro d i htick hset
    have hstep : s.kernel.step cfg (.onTick d) = (s.kernel.onTick cfg d).1 := if_pos htick
    have hserves := onTick_serves hdyn hhrt s.kernel htick
    rw [← hstep] at hserves
    have hmay : s.mayCall (.onTick d) = true := rfl
    have hpending := (h.slot i).flag hset
    simp only [AddTaskSystem.step]
    rw [if_pos hmay]
    dsimp only
    rw [AddTaskOk.answered_tick hserves i]
    cases hreq : (s.kernel.tasks i).addTaskReq with
    | none =>
      constructor
      · rcases hserves.slot i with ⟨-, hkept⟩ | ⟨-, hgone⟩
        · rw [hkept, hreq]
          split
          · rfl
          · rfl
        · exact hgone
      · split
        · rfl
        · split
          · rfl
          · rfl
    | some u =>
      have hflag : s.kernel.request = true := hpending (by rw [hreq]; exact Option.some_ne_none u)
      constructor
      · rcases hserves.slot i with ⟨-, hkept⟩ | ⟨-, hgone⟩
        · rw [hkept, if_pos hflag]
        · exact hgone
      · rw [if_pos hflag]
  · intro d i u hdrop
    by_cases htick : (s.kernel.isStarted && validElapsed cfg d) = true
    · have hstep : s.kernel.step cfg (.onTick d) = (s.kernel.onTick cfg d).1 := if_pos htick
      have hserves := onTick_serves hdyn hhrt s.kernel htick
      rw [← hstep] at hserves
      rw [AddTaskOk.answered_tick hserves i] at hdrop
      cases hflag : s.kernel.request with
      | true =>
        rw [hflag, if_pos rfl] at hdrop
        obtain ⟨v, -, hv⟩ := List.mem_map.mp hdrop
        cases hv
      | false =>
        rw [hflag, if_neg Bool.false_ne_true] at hdrop
        split at hdrop
        · obtain ⟨v, hv, heq⟩ := List.mem_map.mp hdrop
          cases heq
          have hreq : (s.kernel.tasks i).addTaskReq = some u := Option.mem_toList.mp hv
          have howner := (h.slot i).request u hreq
          have hquiet : isAnnounced (s.stage i) ≠ true := by
            intro hset
            have hlost := (h.slot i).flag hset (by rw [hreq]; exact Option.some_ne_none u)
            rw [hflag] at hlost
            cases hlost
          cases hstage : s.stage i with
          | idle =>
            rw [hstage] at howner
            cases howner
          | stored v =>
            rw [hstage] at howner
            rw [Option.some.inj howner]
          | flagged v | pending v | yielding v => exact absurd (by rw [hstage]; rfl) hquiet
        · cases hdrop
    · -- a tick that the kernel does not take leaves the slot
      have hsame : s.kernel.step cfg (.onTick d) = s.kernel := if_neg htick
      have hnone : s.kernel.servedBy cfg (.onTick d) = [] := if_neg htick
      have hbusy : AddTaskSystem.isFreed s.kernel s.kernel i = false := by
        rw [Bool.eq_false_iff, Ne, isFreed_iff]
        exact fun hfreed => hfreed.1 hfreed.2
      unfold AddTaskSystem.answered at hdrop
      rw [hnone, hsame, hbusy] at hdrop
      simp at hdrop

/-- A dynamic kernel. -/
def dynamicMode : Config := ⟨true, false, true, false, 1, fun _ => 1⟩

/-- A caller is overtaken by a tick before it has announced its request; the next tick processes it before the
caller has gone to sleep. -/
def overtakenCaller : List (AddTaskEvent 3) :=
  [.kernel (.addTask 10), .kernel (.addTask 11), .kernel .onStart, .kernel (.onTick 1), .request 0 12,
    .kernel (.onTick 1), .advance 0, .advance 0, .kernel (.onTick 1), .advance 0, .kernel (.onTick 1),
    .kernel (.onTick 1), .advance 0]

/-- Its request is served once, and no assertion fails. -/
theorem overtakenCaller_answered :
    (AddTaskSystem.run dynamicMode overtakenCaller : AddTaskSystem 3 (RoundRobin (Fin 3))).answers 0 =
      [.served 12] ∧
    (AddTaskSystem.run dynamicMode overtakenCaller : AddTaskSystem 3 (RoundRobin (Fin 3))).assertsFailed = 0 := by
  constructor
  · decide +kernel
  · exact (run_addTask (RoundRobin (Fin 3)) dynamicMode rfl rfl overtakenCaller).1

end Stk.Analysis
