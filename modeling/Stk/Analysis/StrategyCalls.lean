import Stk.Model.KernelRun

/-!
# The calls the kernel makes on its strategy

`Kernel.calls` holds the calls in the order they were made, each with what the strategy saw of
the slots.  What every call keeps of the strategy and this history holds in every run (`run_tracked`).  `replay` carries
the calls out again from the empty strategy; that gives the strategy's state, so a segment of the history is a run of
the strategy.
-/

set_option autoImplicit false

namespace Stk.Analysis

open Stk.Model

section Replay

variable {α σ : Type} [SwitchStrategy α σ]

/-- The strategy after one call of the history. -/
def stepCall (s : σ) (c : TaskView α × StrategyCall α) : σ :=
  match c.2.apply c.1 s with
  | .ok (_, s') => s'
  | .error _ => s

/-- The task returned by a call, if it is a `GetNext` that returns one. -/
def returned (s : σ) (c : TaskView α × StrategyCall α) : List α :=
  match c.2.apply c.1 s with
  | .ok (r, _) => r.toList
  | .error _ => []

/-- The tasks returned by the calls `cs`, in order. -/
def returns (s : σ) : List (TaskView α × StrategyCall α) → List α
  | [] => []
  | c :: cs => returned s c ++ returns (stepCall s c) cs

/-- INTERNAL: the answers to two sequences of calls, one after the other. -/
theorem returns_append (s : σ) (cs ds : List (TaskView α × StrategyCall α)) :
    returns s (cs ++ ds) = returns s cs ++ returns (cs.foldl stepCall s) ds := by
  induction cs generalizing s with
  | nil => rfl
  | cons c cs ih => rw [List.cons_append, returns, returns, ih, List.append_assoc, List.foldl_cons]

/-- The strategy after the calls of a history. -/
def replay (cs : List (TaskView α × StrategyCall α)) : σ :=
  cs.foldl stepCall SwitchStrategy.empty

/-- INTERNAL: a call other than `GetNext` succeeds. -/
theorem stepCall_ok {v : TaskView α} {c : StrategyCall α} {s s' : σ} {out : Except Fault σ}
    (hc : c.apply v s = out.map (none, ·)) (hout : out = .ok s') : stepCall s (v, c) = s' := by
  subst hout
  simp only [stepCall, hc, Except.map]

/-- INTERNAL: a call other than `GetNext` fails. -/
theorem stepCall_error {v : TaskView α} {c : StrategyCall α} {s : σ} {out : Except Fault σ} {f : Fault}
    (hc : c.apply v s = out.map (none, ·)) (hout : out = .error f) : stepCall s (v, c) = s := by
  subst hout
  simp only [stepCall, hc, Except.map]

/-- The call adds a task. -/
def AddsTask (c : TaskView α × StrategyCall α) : Prop :=
  ∃ t, c.2 = .addTask t

/-- Whether a call adds a task is read off the call. -/
instance (c : TaskView α × StrategyCall α) : Decidable (AddsTask c) :=
  match c with
  | (_, .addTask t) => isTrue ⟨t, rfl⟩
  | (_, .removeTask _) | (_, .getNext) | (_, .onTaskSleep _) | (_, .onTaskWake _)
  | (_, .onTaskWeightChange _ _) => isFalse (fun ⟨_, h⟩ => by cases h)

end Replay

open Stk.Model.Kernel

variable {n : ℕ} {σ : Type} [SwitchStrategy (Fin n) σ] {cfg : Config} {k k' : Kernel n σ}

/-- What every call that passes its assertions keeps of the strategy and the calls made on it so far. -/
structure CallInvariant (α σ : Type) [SwitchStrategy α σ] where
  holds : σ → List (TaskView α × StrategyCall α) → Prop
  call : ∀ {s s' : σ} {cs : List (TaskView α × StrategyCall α)} {v : TaskView α} {c : StrategyCall α} {r : Option α},
    holds s cs → c.apply v s = .ok (r, s') → holds s' (cs ++ [(v, c)])

/-- The invariant holds of the strategy of the kernel and the calls that the kernel has made on it. -/
def Tracked (I : CallInvariant (Fin n) σ) (k : Kernel n σ) : Prop :=
  I.holds k.strategy k.calls

section Runs

variable {I : CallInvariant (Fin n) σ}

namespace Tracked

/-- INTERNAL: no call is made. -/
theorem frame (h : Tracked I k) (hs : k'.strategy = k.strategy) (hc : k'.calls = k.calls) :
    Tracked I k' := by
  rw [Tracked, hs, hc]
  exact h

/-- INTERNAL: no call, whatever is written to a slot. -/
theorem setTask (h : Tracked I k) (i : Fin n) (f : KernelTask → KernelTask) :
    Tracked I (k.setTask i f) :=
  h.frame rfl rfl

/-- INTERNAL: one call more. -/
theorem callStrategy (h : Tracked I k) (c : StrategyCall (Fin n)) :
    Tracked I (k.callStrategy cfg c).2 := by
  unfold Kernel.callStrategy
  split
  · next hok => exact I.call h hok
  · exact h.frame rfl rfl

/-- INTERNAL: `Wake` calls no strategy. -/
theorem wakeTask (h : Tracked I k) (i : Fin n) : Tracked I (k.wakeTask i) := by
  unfold Kernel.wakeTask
  dsimp only
  split <;> exact h.frame rfl rfl

/-- INTERNAL: `WaitObject::Wake` calls no strategy. -/
theorem wakeWaitObj (h : Tracked I k) (i : Fin n) (timeout : Bool) :
    Tracked I (k.wakeWaitObj i timeout) := by
  unfold Kernel.wakeWaitObj
  split
  · exact h.frame rfl rfl
  · refine wakeTask ?_ i
    exact h.frame rfl rfl

/-- INTERNAL: a wait begins without a call. -/
theorem onTaskWait (h : Tracked I k) (i : Fin n) (o : SyncId) (timeout : ℤ) :
    Tracked I (k.onTaskWait i o timeout) := by
  unfold Kernel.onTaskWait
  split
  · exact h.frame rfl rfl
  · split <;> exact h.frame rfl rfl

/-- INTERNAL: a tick of one wait object. -/
theorem tickWaitObj (h : Tracked I k) (e : ℤ) (i : Fin n) : Tracked I (Kernel.tickWaitObj e k i) := by
  unfold Kernel.tickWaitObj
  dsimp only
  split
  · exact (h.setTask i _).wakeWaitObj i true
  · exact h.frame rfl rfl

/-- INTERNAL: a tick of all wait objects. -/
theorem updateSyncObjects (h : Tracked I k) (e : ℤ) : Tracked I (k.updateSyncObjects e) := by
  refine Runs.foldl_keeps (fun k o _ h => ?_) h
  have htick : Tracked I (Kernel.tickSyncObject e k o) :=
    Runs.foldl_keeps (fun k i _ h => h.tickWaitObj e i) h
  dsimp only
  split
  · exact htick.frame rfl rfl
  · exact htick

/-- INTERNAL: a weight is set without a call. -/
theorem setCurrentWeight (h : Tracked I k) (i : Fin n) (w : ℤ) : Tracked I (k.setCurrentWeight i w) := by
  unfold Kernel.setCurrentWeight
  split
  · exact h.frame rfl rfl
  · exact h

/-- INTERNAL: the strategy is told of an inherited weight. -/
theorem onInheritWeight (h : Tracked I k) (u : TId) (w : ℤ) :
    Tracked I (k.onInheritWeight cfg u w) := by
  unfold Kernel.onInheritWeight
  split
  · exact h
  · split
    · exact h
    · split
      · exact h.frame rfl rfl
      · dsimp only
        split
        · exact (h.setCurrentWeight _ w).callStrategy _
        · exact h

/-- INTERNAL: the strategy is told that the weight is given back. -/
theorem onRestoreWeight (h : Tracked I k) (u : TId) (o : Option SyncId) :
    Tracked I (k.onRestoreWeight cfg u o) := by
  unfold Kernel.onRestoreWeight
  split
  · exact h
  · split
    · exact h.frame rfl rfl
    · exact (h.setCurrentWeight _ _).callStrategy _

/-- INTERNAL: a slot is bound without a call. -/
theorem allocateNewTask (h : Tracked I k) (u : TId) : Tracked I (k.allocateNewTask u).2 := by
  have hfault : Tracked I (if (k.findTaskByUserTask u).isSome then k.fault .taskCollision else k) := by
    split
    · exact h.frame rfl rfl
    · exact h
  unfold Kernel.allocateNewTask
  dsimp only
  split
  · exact hfault.frame rfl rfl
  · dsimp only
    split
    · exact (hfault.setTask _ _).setCurrentWeight _ _
    · exact hfault.frame rfl rfl

/-- INTERNAL: the strategy is told of the new task. -/
theorem allocateAndAddNewTask (h : Tracked I k) (u : TId) :
    Tracked I (k.allocateAndAddNewTask cfg u) := by
  have halloc := h.allocateNewTask u
  unfold Kernel.allocateAndAddNewTask
  split
  · next heq => rw [heq] at halloc; exact halloc
  · next heq => rw [heq] at halloc; exact halloc.callStrategy _

/-- INTERNAL: the strategy is told of the new periodic task. -/
theorem hrtAllocateAndAddNewTask (h : Tracked I k) (u : TId) (p d t : ℤ) :
    Tracked I (k.hrtAllocateAndAddNewTask cfg u p d t) := by
  have halloc := h.allocateNewTask u
  unfold Kernel.hrtAllocateAndAddNewTask
  split
  · next heq => rw [heq] at halloc; exact halloc
  · next heq =>
    rw [heq] at halloc
    exact (halloc.setTask _ _).callStrategy _

/-- INTERNAL: the strategy is told before the slot is cleared. -/
theorem removeTask (h : Tracked I k) (i : Fin n) : Tracked I (k.removeTask cfg i) := by
  have hcall : Tracked I (({ k with exits := k.exits ++ (k.tasks i).user.toList } :
      Kernel n σ).callStrategy cfg (.removeTask i)).2 := by
    refine callStrategy ?_ _
    exact h.frame rfl rfl
  unfold Kernel.removeTask
  dsimp only
  split <;> exact hcall.frame rfl rfl

/-- INTERNAL: the requests of one task are served. -/
theorem updateTaskRequest (h : Tracked I k) : Tracked I (k.updateTaskRequest cfg) := by
  unfold Kernel.updateTaskRequest
  split
  · refine Runs.foldl_keeps (I := Tracked I) (fun k i _ h => ?_) (h.frame rfl rfl)
    split
    · exact h
    · next u _ => exact (h.allocateAndAddNewTask u).setTask _ _
  · exact h

/-- INTERNAL: a sleep that has begun is reported. -/
theorem deliverSleep (h : Tracked I k) (i : Fin n) : Tracked I (k.deliverSleep cfg i) := by
  unfold Kernel.deliverSleep
  split
  · exact (h.setTask _ _).callStrategy _
  · exact h

/-- INTERNAL: a sleep that ends is reported. -/
theorem advanceSleep (h : Tracked I k) (e : ℤ) (i : Fin n) : Tracked I (k.advanceSleep cfg e i) := by
  unfold Kernel.advanceSleep
  dsimp only
  split
  · exact (h.setTask _ _).callStrategy _
  · exact h.frame rfl rfl

/-- INTERNAL: a tick of a job. -/
theorem advanceDuration (h : Tracked I k) (e : ℤ) (i : Fin n) :
    Tracked I (k.advanceDuration cfg e i) := by
  unfold Kernel.advanceDuration
  split
  · dsimp only
    split <;> exact h.frame rfl rfl
  · exact h

/-- INTERNAL: the work of a tick on all slots. -/
theorem updateTaskState (h : Tracked I k) (e : ℤ) : Tracked I (k.updateTaskState cfg e).1 := by
  refine Runs.foldl_keeps (I := fun acc : Kernel n σ × ℤ => Tracked I acc.1) (fun acc i _ h => ?_) h
  unfold Kernel.updateSlot
  dsimp only
  split
  · exact h.removeTask i
  · dsimp only
    split
    · exact (h.deliverSleep i).advanceSleep e i
    · exact h.advanceDuration e i

/-- INTERNAL: the requests and the slots. -/
theorem updateTasks (h : Tracked I k) (e : ℤ) : Tracked I (k.updateTasks cfg e).1 := by
  unfold Kernel.updateTasks
  dsimp only
  have hsync : Tracked I (if cfg.isSyncMode then k.updateSyncObjects e else k) := by
    split
    · exact h.updateSyncObjects e
    · exact h
  generalize (if cfg.isSyncMode then k.updateSyncObjects e else k) = k₁ at hsync
  refine updateTaskState ?_ e
  split
  · exact hsync.updateTaskRequest
  · exact hsync

/-- INTERNAL: the strategy is asked for the next task. -/
theorem fetchNextEvent (h : Tracked I k) : Tracked I (k.fetchNextEvent cfg).2.2 := by
  have hcall : Tracked I (k.callStrategy cfg .getNext).2 := h.callStrategy _
  unfold Kernel.fetchNextEvent
  split
  · next heq =>
    rw [heq] at hcall
    dsimp only
    split <;> exact hcall.frame rfl rfl
  · next heq =>
    rw [heq] at hcall
    split <;> exact hcall

/-- INTERNAL: a switch. -/
theorem stateSwitch (h : Tracked I k) (now next : Option (Fin n)) :
    Tracked I (k.stateSwitch cfg now next).1 := by
  unfold Kernel.stateSwitch
  split
  · split
    · dsimp only
      split <;> exact h.frame rfl rfl
    · exact h
  · exact h.frame rfl rfl

/-- INTERNAL: the processor goes to sleep. -/
theorem stateSleep (h : Tracked I k) (now : Option (Fin n)) : Tracked I (k.stateSleep cfg now).1 := by
  unfold Kernel.stateSleep
  split
  · dsimp only
    split <;> exact h.frame rfl rfl
  · exact h.frame rfl rfl
  · exact h.frame rfl rfl

/-- INTERNAL: the state machine. -/
theorem updateFsmState (h : Tracked I k) : Tracked I (k.updateFsmState cfg).1 := by
  have hfetch : Tracked I (k.fetchNextEvent cfg).2.2 := h.fetchNextEvent
  unfold Kernel.updateFsmState
  dsimp only
  generalize k.fetchNextEvent cfg = f at hfetch
  obtain ⟨event, next, k₁⟩ := f
  dsimp only at hfetch ⊢
  split
  · exact (hfetch.stateSwitch k.taskNow next).frame rfl rfl
  · exact (hfetch.stateSleep k.taskNow).frame rfl rfl
  · unfold Kernel.stateWake
    split <;> exact hfetch.frame rfl rfl
  · unfold Kernel.stateExit
    split <;> exact hfetch.frame rfl rfl
  · exact hfetch

/-- INTERNAL: the handler of a tick. -/
theorem onTick (h : Tracked I k) (e : ℤ) : Tracked I (k.onTick cfg e).1 := by
  unfold Kernel.onTick
  refine updateFsmState (updateTasks ?_ e)
  exact h.frame rfl rfl

/-- INTERNAL: the start of the scheduler. -/
theorem onStart (h : Tracked I k) : Tracked I (k.onStart cfg) := by
  unfold Kernel.onStart
  dsimp only
  have hdelivered : Tracked I ((List.finRange n).foldl (fun k i =>
      if (k.tasks i).isSleeping then k.deliverSleep cfg i else k) k) := by
    refine Runs.foldl_keeps (I := Tracked I) (fun k i _ h => ?_) h
    split
    · exact h.deliverSleep i
    · exact h
  generalize (List.finRange n).foldl (fun k i =>
    if (k.tasks i).isSleeping then k.deliverSleep cfg i else k) k = k₁ at hdelivered
  have hfetch : Tracked I (({ k₁ with fsmState := .switching } : Kernel n σ).fetchNextEvent cfg).2.2 := by
    refine fetchNextEvent ?_
    exact hdelivered.frame rfl rfl
  generalize ({ k₁ with fsmState := .switching } : Kernel n σ).fetchNextEvent cfg = f at hfetch
  obtain ⟨event, next, k₂⟩ := f
  dsimp only at hfetch ⊢
  split
  · exact hfetch.frame rfl rfl
  · split <;> exact hfetch.frame rfl rfl
  · exact hfetch.frame rfl rfl

/-- INTERNAL: a resumed task is reported at the next tick. -/
theorem resumeTask (h : Tracked I k) (u : TId) : Tracked I (k.resumeTask u) := by
  unfold Kernel.resumeTask
  split
  · exact h.frame rfl rfl
  · split
    · exact h.wakeTask _
    · exact h

/-- INTERNAL: `Sleep` is reported at the next tick. -/
theorem onTaskSleep (h : Tracked I k) (i : Fin n) (ticks : ℤ) :
    Tracked I (k.onTaskSleep cfg i ticks) := by
  unfold Kernel.onTaskSleep
  dsimp only
  split <;> split <;> exact h.frame rfl rfl

/-- INTERNAL: one call into the kernel. -/
theorem step (h : Tracked I k) (e : KernelEvent n) : Tracked I (k.step cfg e) := by
  cases e with
  | inheritWeight u w => exact h.onInheritWeight u w
  | restoreWeight u o => exact h.onRestoreWeight u o
  | wakeOne o =>
    simp only [Kernel.step, Kernel.wakeOne]
    split
    · exact h
    · exact h.wakeWaitObj _ false
  | wakeAll o => exact Runs.foldl_keeps (fun k i _ h => h.wakeWaitObj i false) h
  | suspendTask u =>
    simp only [Kernel.step, Kernel.suspendTask]
    split
    · exact h.frame rfl rfl
    · split
      · exact h
      · exact h.frame rfl rfl
  | resumeTask u => exact h.resumeTask u
  | waitReturn i =>
    simp only [Kernel.step]
    split
    · exact h
    · exact h.frame rfl rfl
  | removeTask u =>
    simp only [Kernel.step]
    split
    · split
      · exact h
      · exact h.removeTask _
    · exact h
  | scheduleTaskRemoval u =>
    simp only [Kernel.step]
    split
    · split
      · exact h
      · exact h.setTask _ _
    · exact h
  | sleepUntil i timestamp =>
    simp only [Kernel.step, Kernel.onTaskSleepUntil]
    split
    · split
      · exact h.frame rfl rfl
      · exact h
    · exact h
  | onSuspend =>
    simp only [Kernel.step, Kernel.onSuspend]
    split
    · split
      · exact h
      · split
        · exact h
        · exact h.frame rfl rfl
    · exact h
  | addTask u =>
    simp only [Kernel.step]
    split
    · exact h.allocateAndAddNewTask u
    · exact h
  | addTaskHrt u p d t =>
    simp only [Kernel.step]
    split
    · exact h.hrtAllocateAndAddNewTask u p d t
    · exact h
  | onStart =>
    simp only [Kernel.step]
    split
    · exact h.onStart
    · exact h
  | onTick e =>
    simp only [Kernel.step]
    split
    · exact h.onTick e
    · exact h
  | sleep i ticks | switchToNext i =>
    simp only [Kernel.step]
    split
    · exact h.onTaskSleep i _
    · exact h
  | wait i o timeout =>
    simp only [Kernel.step]
    split
    · exact h.onTaskWait i o timeout
    · exact h
  | sleepCancel u =>
    simp only [Kernel.step]
    split
    · exact h.resumeTask u
    · exact h
  | onStop | requestAddTask _ _ | taskExit _ =>
    simp only [Kernel.step]
    split
    · exact h.frame rfl rfl
    · exact h

end Tracked

/-- The invariant in every run. -/
theorem run_tracked (I : CallInvariant (Fin n) σ) (hempty : I.holds SwitchStrategy.empty []) (cfg : Config)
    (es : List (KernelEvent n)) : Tracked I (Kernel.run cfg es : Kernel n σ) :=
  Runs.foldl_keeps (fun _ e _ h => h.step e) hempty

end Runs

/-- INTERNAL: the history with one call more. -/
theorem replay_call {s s' : σ} {cs : List (TaskView (Fin n) × StrategyCall (Fin n))} {v : TaskView (Fin n)}
    {c : StrategyCall (Fin n)} {r : Option (Fin n)} (hs : s = replay cs) (hok : c.apply v s = .ok (r, s')) :
    s' = replay (cs ++ [(v, c)]) := by
  have hstep : stepCall s (v, c) = s' := by simp only [stepCall, hok]
  rw [replay, List.foldl_append, ← replay, ← hs, List.foldl_cons, List.foldl_nil, hstep]

/-- The history of the calls leads to the state of the strategy. -/
def Replayed (k : Kernel n σ) : Prop :=
  k.strategy = replay k.calls

/-- The history of every run leads to the state of the strategy. -/
theorem run_replayed (cfg : Config) (es : List (KernelEvent n)) :
    Replayed (Kernel.run cfg es : Kernel n σ) :=
  run_tracked ⟨fun s cs => s = replay cs, replay_call⟩ rfl cfg es

end Stk.Analysis
