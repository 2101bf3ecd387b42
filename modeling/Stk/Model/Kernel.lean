import Mathlib.Data.List.FinRange
import Mathlib.Logic.Function.Basic
import Stk.Model.Strategy

/-!
# The kernel

`Kernel<TMode, TSize, TStrategy, TPlatform>` (stk.h:80-2464) with `TSize = n` slots
and the strategy's state in `σ`.  The user tasks, the sync objects and the platform
are the environment: a user task is its id with the static weight `Config.weight`,
a sync object is the wait list it inherits from `ISyncObject`.

Where a `STK_ASSERT` fails and the release build has a well-defined next state (the
assertion is compiled out), the model records the fault and goes on to that state;
where the state would be corrupted, it records the fault and leaves the state as it
is.  A debug build stops at the first entry of `Kernel.faults`.  What a release build does with the
corrupted lists is in `Stk.Model.LinkedList`, `Stk.Model.ReleaseWait` (wait lists) and
`Stk.Model.ReleaseRoundRobin` (a strategy's lists); results that depend on it ask that no such
assertion has failed.

Four fields are history, written here and read by no modelled function: `faults`,
`calls` (the calls made on the strategy with what it saw), `exits` (the tasks whose
`OnExit` was called) and the `since` and `woken` parts of a pending wait.
-/

set_option autoImplicit false

namespace Stk.Model

/-- The identity of a sync object.  Mutexes are told apart from the other classes
derived from `ISyncObject` because `Mutex` inherits it privately. -/
inductive SyncId where
  | mutex (id : ℕ)
  | object (id : ℕ)
deriving DecidableEq

/-- `TMode`, `STK_TICKLESS_TICKS_MAX` and `ITask::GetWeight` of the user tasks. -/
structure Config where
  isDynamicMode : Bool
  isHrtMode : Bool
  isSyncMode : Bool
  isTicklessMode : Bool
  ticklessTicksMax : ℤ
  weight : TId → ℤ

/-- `KernelTask::WaitObject` (stk.h:432-531). -/
structure WaitObject where
  syncObj : Option SyncId
  timeout : Bool
  timeWait : ℤ
deriving DecidableEq

/-- `KernelTask::HrtInfo` (stk.h:402-424). -/
structure HrtInfo where
  periodicity : ℤ
  deadline : ℤ
  duration : ℤ
  done : Bool
deriving DecidableEq

/-- `KernelTask` (stk.h:121-781).  The two bits of `m_state` are two fields; the stack
descriptor is left out, a slot's stack is named by the slot. -/
structure KernelTask where
  user : Option TId
  removePending : Bool
  sleepPending : Bool
  timeSleep : ℤ
  addTaskReq : Option TId
  hrt : HrtInfo
  rtWeight : ℤ
  waitObj : WaitObject
deriving DecidableEq

namespace KernelTask

/-- The constructor (stk.h:161-169). -/
def unbound : KernelTask where
  user := none
  removePending := false
  sleepPending := false
  timeSleep := noWait
  addTaskReq := none
  hrt := ⟨0, 0, 0, false⟩
  rtWeight := 0
  waitObj := ⟨none, false, 0⟩

def isBusy (t : KernelTask) : Bool := t.user.isSome

def isSleeping (t : KernelTask) : Bool := decide (t.timeSleep < 0)

def isWaiting (t : KernelTask) : Bool := t.waitObj.syncObj.isSome

theorem isBusy_iff {t : KernelTask} : t.isBusy = true ↔ t.user ≠ none := Option.isSome_iff_ne_none

theorem isSleeping_iff {t : KernelTask} : t.isSleeping = true ↔ t.timeSleep < 0 := decide_eq_true_iff

theorem isSleeping_eq_false_iff {t : KernelTask} : t.isSleeping = false ↔ 0 ≤ t.timeSleep :=
  decide_eq_false_iff_not.trans not_lt

/-- `ScheduleSleep` (stk.h:730-745). -/
def scheduleSleep (sleepEventApi : Bool) (t : KernelTask) (ticks : ℤ) : KernelTask :=
  { t with
    sleepPending := t.sleepPending || (sleepEventApi && !t.isSleeping)
    timeSleep := -ticks }

/-- `ScheduleRemoval` (stk.h:586-600). -/
def scheduleRemoval (cfg : Config) (sleepEventApi : Bool) (t : KernelTask) : KernelTask :=
  let t := t.scheduleSleep sleepEventApi waitInfinite
  let t := if cfg.isHrtMode then { t with hrt := { t.hrt with done := true } } else t
  { t with removePending := true }

/-- `HrtInit` (stk.h:648-663). -/
def hrtInit (sleepEventApi : Bool) (t : KernelTask) (periodicity deadline startDelay : ℤ) :
    KernelTask :=
  let t := { t with hrt := { t.hrt with periodicity := periodicity, deadline := deadline } }
  if startDelay > 0 then t.scheduleSleep sleepEventApi startDelay else t

/-- `HrtOnSwitchedOut` (stk.h:673-687). -/
def hrtOnSwitchedOut (sleepEventApi : Bool) (t : KernelTask) : KernelTask :=
  let sleep := t.hrt.periodicity - t.hrt.duration
  let t := if sleep > 0 then t.scheduleSleep sleepEventApi sleep else t
  { t with hrt := { t.hrt with duration := 0, done := false } }

/-- `Unbind` (stk.h:563-583), without its assertion. -/
def unbind (cfg : Config) (t : KernelTask) : KernelTask :=
  let t := { t with user := none, removePending := false, sleepPending := false, timeSleep := 0 }
  if cfg.isHrtMode then { t with hrt := ⟨0, 0, 0, false⟩ } else { t with addTaskReq := none }

/-- `WaitObject::Tick` (stk.h:491-507); the wait object has timed out when the result
has its `timeout` flag set.  `m_time_wait` stays in the range of `Timeout` for every timeout
above `INT32_MIN`: it is not ticked any more once it is not positive. -/
def tickWaitObj (t : KernelTask) (elapsed : ℤ) : KernelTask :=
  if t.waitObj.timeWait ≠ waitInfinite then
    if !t.waitObj.timeout then
      let timeWait := t.waitObj.timeWait - elapsed
      { t with waitObj := { t.waitObj with
          timeWait := timeWait
          timeout := if timeWait ≤ 0 then true else t.waitObj.timeout } }
    else t
  else t

/-- `GetWeight` (stk.h:213-244), for a strategy with the given `EConfig` flags. -/
def getWeight (cfg : Config) (weightApi priorityInheritanceApi : Bool) (t : KernelTask) : ℤ :=
  let static := if weightApi then (t.user.map cfg.weight).getD defaultWeight else defaultWeight
  if priorityInheritanceApi then
    if t.rtWeight ≠ noWeight then t.rtWeight else static
  else static

/-- `GetSleepTicks` (stk.h:337-368). -/
def getSleepTicks (cfg : Config) (t : KernelTask) (sleepTicks : ℤ) : ℤ :=
  let taskSleep := max noWait (-t.timeSleep)
  let sleepTicks :=
    if cfg.isSyncMode then
      if t.isWaiting then
        if t.waitObj.timeWait > noWait then min sleepTicks t.waitObj.timeWait else sleepTicks
      else min sleepTicks taskSleep
    else min sleepTicks taskSleep
  max 1 sleepTicks

end KernelTask

/-- A pending `IKernelService::Wait` of a task: the task spins in
`BusyWaitWhileSleeping` and has yet to read `IsTimeout` (stk.h:1832-1840).  `since` is
the tick count at the call and `woken` the argument of the `WaitObject::Wake` that
ended the wait. -/
structure WaitCall where
  syncObj : SyncId
  timeout : ℤ
  since : ℤ
  woken : Option Bool
deriving DecidableEq

/-- `EWaitResult` of a wait that took place (stk_common.h:122-127). -/
inductive WaitResult where
  | signal
  | timeout
deriving DecidableEq

/-- `EFsmState` (stk.h:1304-1312). -/
inductive FsmState where
  | none
  | switching
  | sleeping
  | waking
  | exiting
deriving DecidableEq

/-- `EFsmEvent` (stk.h:1318-1325). -/
inductive FsmEvent where
  | switch
  | sleep
  | wake
  | exit
deriving DecidableEq

/-- `m_fsm` (stk.h:2455-2461). -/
def fsm : FsmState → FsmEvent → FsmState
  | .switching, .switch => .switching
  | .switching, .sleep => .sleeping
  | .switching, .wake => .none
  | .switching, .exit => .exiting
  | .sleeping, .switch => .none
  | .sleeping, .sleep => .none
  | .sleeping, .wake => .waking
  | .sleeping, .exit => .exiting
  | .waking, .switch => .switching
  | .waking, .sleep => .sleeping
  | .waking, .wake => .none
  | .waking, .exit => .exiting
  | .exiting, _ => .none
  | .none, _ => .none

/-- The stacks a tick can switch between. -/
inductive StackId (n : ℕ) where
  | task (slot : Fin n)
  | sleepTrap
  | exitTrap
deriving DecidableEq

/-- The results of `OnTick`: the return value and the out parameters. -/
structure TickResult (n : ℕ) where
  switchContext : Bool
  idle : Option (StackId n)
  active : Option (StackId n)
  ticks : ℤ

/-- The state of a kernel, of the sync objects' wait lists and of the waits its tasks
are in. -/
structure Kernel (n : ℕ) (σ : Type) where
  tasks : Fin n → KernelTask
  strategy : σ
  taskNow : Option (Fin n)
  fsmState : FsmState
  request : Bool
  ticks : ℤ
  syncList : List SyncId
  waitList : SyncId → List (Fin n)
  call : Fin n → Option WaitCall
  faults : List Fault
  calls : List (TaskView (Fin n) × StrategyCall (Fin n))
  exits : List TId

variable {n : ℕ} {σ : Type} [SwitchStrategy (Fin n) σ]

namespace Kernel

/-- A kernel after `Initialize` (stk.h:1004-1033). -/
def initial : Kernel n σ where
  tasks := fun _ => KernelTask.unbound
  strategy := SwitchStrategy.empty
  taskNow := none
  fsmState := .none
  request := false
  ticks := 0
  syncList := []
  waitList := fun _ => []
  call := fun _ => none
  faults := []
  calls := []
  exits := []

def fault (k : Kernel n σ) (f : Fault) : Kernel n σ :=
  { k with faults := k.faults ++ [f] }

def setTask (k : Kernel n σ) (i : Fin n) (f : KernelTask → KernelTask) : Kernel n σ :=
  { k with tasks := Function.update k.tasks i (f (k.tasks i)) }

def getWeight (cfg : Config) (k : Kernel n σ) (i : Fin n) : ℤ :=
  (k.tasks i).getWeight cfg (SwitchStrategy.weightApi σ) (SwitchStrategy.priorityInheritanceApi σ)

/-- What the strategy sees of the slots: `GetWeight`, `GetHrtRelativeDeadline`
(stk.h:318-335), `IsSleeping`, `GetHrtPeriodicity` and `GetHrtDeadline` (stk.h:272-312). -/
def view (cfg : Config) (k : Kernel n σ) : TaskView (Fin n) where
  weight := k.getWeight cfg
  relativeDeadline := fun i => (k.tasks i).hrt.deadline - (k.tasks i).hrt.duration
  sleeping := fun i => (k.tasks i).isSleeping
  hrtPeriodicity := fun i => (k.tasks i).hrt.periodicity
  hrtDeadline := fun i => (k.tasks i).hrt.deadline

/-- Make a call on the strategy.  After a failed assertion the strategy is left as it is; a release build goes on
with the list operations behind it, as in `Stk.Model.ReleaseRoundRobin`. -/
def callStrategy (cfg : Config) (k : Kernel n σ) (c : StrategyCall (Fin n)) :
    Option (Fin n) × Kernel n σ :=
  match c.apply (k.view cfg) k.strategy with
  | .ok (r, s) => (r, { k with strategy := s, calls := k.calls ++ [(k.view cfg, c)] })
  | .error f => (none, k.fault f)

/-- `FindTaskByUserTask` (stk.h:1487-1502). -/
def findTaskByUserTask (k : Kernel n σ) (u : TId) : Option (Fin n) :=
  (List.finRange n).find? (fun i => decide ((k.tasks i).user = some u))

/-! ## Sleeping, waking and waiting -/

/-- `ScheduleSleep` of a slot. -/
def scheduleSleep (k : Kernel n σ) (i : Fin n) (ticks : ℤ) : Kernel n σ :=
  k.setTask i (fun t => t.scheduleSleep (SwitchStrategy.sleepEventApi σ) ticks)

/-- `KernelTask::Wake` (stk.h:194-200). -/
def wakeTask (k : Kernel n σ) (i : Fin n) : Kernel n σ :=
  let k := if (k.tasks i).isSleeping then k else k.fault .wakeNotSleeping
  k.setTask i (fun t => { t with timeSleep := -1 })

/-- `WaitObject::Wake` (stk.h:472-483). -/
def wakeWaitObj (k : Kernel n σ) (i : Fin n) (timeout : Bool) : Kernel n σ :=
  match (k.tasks i).waitObj.syncObj with
  | none => k.fault .wakeNotWaiting
  | some o =>
    let k := k.setTask i (fun t => { t with waitObj := ⟨none, timeout, 0⟩ })
    let k := { k with
      waitList := Function.update k.waitList o ((k.waitList o).erase i)
      call := Function.update k.call i ((k.call i).map (fun c : WaitCall => { c with woken := some timeout })) }
    k.wakeTask i

/-- `SetupWait` (stk.h:516-525) and the rest of `OnTaskWait` up to the spin
(stk.h:1808-1832), but for the caller's `IMutex`: `WaitSystem.wait` has it.  `SetupWait` of a task that is
still linked fails its assertion and is left out here; `ReleaseWaits` goes on with it. -/
def onTaskWait (k : Kernel n σ) (i : Fin n) (o : SyncId) (timeout : ℤ) : Kernel n σ :=
  if timeout = 0 then k.fault .waitTimeoutZero
  else if (k.tasks i).isWaiting then k.fault .setupWaitWaiting
  else
    let k := k.setTask i (fun t => { t with waitObj := ⟨some o, false, timeout⟩ })
    let k := { k with
      waitList := Function.update k.waitList o (k.waitList o ++ [i])
      syncList := if o ∈ k.syncList then k.syncList else k.syncList ++ [o]
      call := Function.update k.call i (some ⟨o, timeout, k.ticks, none⟩) }
    k.scheduleSleep i waitInfinite

/-- The result `OnTaskWait` returns once its caller does not sleep any more
(stk.h:1834-1840), when the caller's `IMutex` is a critical section.  Another lock is locked again before the
flag is read, and may change it: `WaitSystem.relock`. -/
def waitResult (k : Kernel n σ) (i : Fin n) : Option WaitResult :=
  match k.call i with
  | none => none
  | some _ =>
    if (k.tasks i).isSleeping then none
    else some (if (k.tasks i).waitObj.timeout then .timeout else .signal)

/-- `ISyncObject::WakeOne` (stk_common.h:537-543). -/
def wakeOne (k : Kernel n σ) (o : SyncId) : Kernel n σ :=
  match k.waitList o with
  | [] => k
  | i :: _ => k.wakeWaitObj i false

/-- `ISyncObject::WakeAll` (stk_common.h:551-557). -/
def wakeAll (k : Kernel n σ) (o : SyncId) : Kernel n σ :=
  (k.waitList o).foldl (fun k i => k.wakeWaitObj i false) k

/-- One wait object in `ISyncObject::Tick` (stk_helper.h:192-200). -/
def tickWaitObj (elapsed : ℤ) (k : Kernel n σ) (i : Fin n) : Kernel n σ :=
  let k := k.setTask i (fun t => t.tickWaitObj elapsed)
  if (k.tasks i).waitObj.timeout then k.wakeWaitObj i true else k

/-- `ISyncObject::Tick` (stk_helper.h:175-205). -/
def tickSyncObject (elapsed : ℤ) (k : Kernel n σ) (o : SyncId) : Kernel n σ :=
  (k.waitList o).foldl (tickWaitObj elapsed) k

/-- `UpdateSyncObjects` (stk.h:2043-2058). -/
def updateSyncObjects (k : Kernel n σ) (elapsed : ℤ) : Kernel n σ :=
  k.syncList.foldl (fun k o =>
    let k := tickSyncObject elapsed k o
    if k.waitList o = [] then { k with syncList := k.syncList.erase o } else k) k

/-! ## Weights -/

/-- `ISyncObject::FindWeightHigherThan` (stk_helper.h:208-225). -/
def findWeightHigherThan (cfg : Config) (k : Kernel n σ) (o : SyncId) (comp : ℤ) : ℤ :=
  let maxWeight := (k.waitList o).foldl (fun maxWeight i =>
    let w := ((k.tasks i).user.map cfg.weight).getD noWeight
    if w > maxWeight then w else maxWeight) noWeight
  if maxWeight > comp then maxWeight else noWeight

def setCurrentWeight (k : Kernel n σ) (i : Fin n) (w : ℤ) : Kernel n σ :=
  if SwitchStrategy.weightApi σ then k.setTask i (fun t => { t with rtWeight := w }) else k

/-- `OnInheritWeight` (stk.h:1883-1901), called through `InheritWeight` (stk.h:894-900). -/
def onInheritWeight (cfg : Config) (k : Kernel n σ) (u : TId) (weight : ℤ) : Kernel n σ :=
  if !SwitchStrategy.priorityInheritanceApi σ then k
  else if weight = noWeight then k
  else
    match k.findTaskByUserTask u with
    | none => k.fault .taskNotFound
    | some i =>
      let prevWeight := k.getWeight cfg i
      if prevWeight < weight then
        ((k.setCurrentWeight i weight).callStrategy cfg (.onTaskWeightChange i prevWeight)).2
      else k

/-- `OnRestoreWeight` (stk.h:1903-1917), called through `RestoreWeight` (stk.h:902-908). -/
def onRestoreWeight (cfg : Config) (k : Kernel n σ) (u : TId) (o : Option SyncId) : Kernel n σ :=
  if !SwitchStrategy.priorityInheritanceApi σ then k
  else
    match k.findTaskByUserTask u with
    | none => k.fault .taskNotFound
    | some i =>
      let prevWeight := k.getWeight cfg i
      let weight := match o with
        | some o => k.findWeightHigherThan cfg o prevWeight
        | none => noWeight
      ((k.setCurrentWeight i weight).callStrategy cfg (.onTaskWeightChange i prevWeight)).2

/-! ## Slots -/

/-- `AllocateNewTask` and `Bind` (stk.h:1379-1414, 537-559). -/
def allocateNewTask (k : Kernel n σ) (u : TId) : Option (Fin n) × Kernel n σ :=
  let k := if (k.findTaskByUserTask u).isSome then k.fault .taskCollision else k
  match (List.finRange n).find? (fun i => !(k.tasks i).isBusy) with
  | none => (none, k.fault .noFreeSlot)
  | some i =>
    let k := k.setTask i (fun t => { t with user := some u })
    (some i, if SwitchStrategy.priorityInheritanceApi σ then k.setCurrentWeight i noWeight
      else k)

/-- `AllocateAndAddNewTask` (stk.h:1434-1440). -/
def allocateAndAddNewTask (cfg : Config) (k : Kernel n σ) (u : TId) : Kernel n σ :=
  match k.allocateNewTask u with
  | (none, k) => k
  | (some i, k) => (k.callStrategy cfg (.addTask i)).2

/-- `HrtAllocateAndAddNewTask` (stk.h:1450-1458). -/
def hrtAllocateAndAddNewTask (cfg : Config) (k : Kernel n σ) (u : TId)
    (periodicity deadline startDelay : ℤ) : Kernel n σ :=
  match k.allocateNewTask u with
  | (none, k) => k
  | (some i, k) =>
    let k := k.setTask i (fun t =>
      t.hrtInit (SwitchStrategy.sleepEventApi σ) periodicity deadline startDelay)
    (k.callStrategy cfg (.addTask i)).2

/-- `RemoveTask(KernelTask *)` (stk.h:1569-1582). -/
def removeTask (cfg : Config) (k : Kernel n σ) (i : Fin n) : Kernel n σ :=
  let k := { k with exits := k.exits ++ (k.tasks i).user.toList }
  let k := (k.callStrategy cfg (.removeTask i)).2
  let k := if (k.tasks i).isWaiting then k.fault .unbindWaiting else k
  { k.setTask i (KernelTask.unbind cfg) with call := Function.update k.call i none }

/-- `UpdateTaskRequest` (stk.h:2062-2088). -/
def updateTaskRequest (cfg : Config) (k : Kernel n σ) : Kernel n σ :=
  if cfg.isDynamicMode && !cfg.isHrtMode then
    (List.finRange n).foldl (fun k i =>
      match (k.tasks i).addTaskReq with
      | none => k
      | some u => (k.allocateAndAddNewTask cfg u).setTask i (fun t => { t with addTaskReq := none }))
      { k with request := false }
  else k

/-! ## The tick -/

/-- The removal test of `UpdateTaskState` (stk.h:1957-1963). -/
def isRemovable (cfg : Config) (k : Kernel n σ) (i : Fin n) : Bool :=
  cfg.isDynamicMode && (k.tasks i).removePending &&
    (decide (k.taskNow ≠ some i) ||
      (decide (SwitchStrategy.getSize k.strategy = 1) && decide (k.fsmState = .sleeping)))

/-- Deliver a pending sleep event (stk.h:1974-1983). -/
def deliverSleep (cfg : Config) (k : Kernel n σ) (i : Fin n) : Kernel n σ :=
  if SwitchStrategy.sleepEventApi σ && (k.tasks i).sleepPending then
    ((k.setTask i (fun t => { t with sleepPending := false })).callStrategy cfg (.onTaskSleep i)).2
  else k

/-- Advance the sleep time and deliver the wake event (stk.h:1985-1996). -/
def advanceSleep (cfg : Config) (elapsed : ℤ) (k : Kernel n σ) (i : Fin n) : Kernel n σ :=
  let k := k.setTask i (fun t => { t with timeSleep := t.timeSleep + elapsed })
  if SwitchStrategy.sleepEventApi σ && !(k.tasks i).isSleeping then
    (k.callStrategy cfg (.onTaskWake i)).2
  else k

/-- The duration count of a running HRT task and its deadline check (stk.h:1998-2026). -/
def advanceDuration (cfg : Config) (elapsed : ℤ) (k : Kernel n σ) (i : Fin n) : Kernel n σ :=
  if cfg.isHrtMode && (k.tasks i).isBusy then
    let k := k.setTask i (fun t => { t with hrt := { t.hrt with duration := t.hrt.duration + elapsed } })
    if (k.tasks i).hrt.duration > (k.tasks i).hrt.deadline then k.fault .deadlineMissed else k
  else k

/-- One slot of the loop in `UpdateTaskState` (stk.h:1950-2036), with the sleep ticks
gathered so far. -/
def updateSlot (cfg : Config) (elapsed : ℤ) (acc : Kernel n σ × ℤ) (i : Fin n) :
    Kernel n σ × ℤ :=
  let k := acc.1
  if (k.tasks i).isSleeping && k.isRemovable cfg i then (k.removeTask cfg i, acc.2)
  else
    let k := if (k.tasks i).isSleeping then (k.deliverSleep cfg i).advanceSleep cfg elapsed i
      else k.advanceDuration cfg elapsed i
    (k, if cfg.isTicklessMode && decide (acc.2 > 1) && (k.tasks i).isBusy then
        (k.tasks i).getSleepTicks cfg acc.2 else acc.2)

/-- `UpdateTaskState` (stk.h:1946-2039). -/
def updateTaskState (cfg : Config) (k : Kernel n σ) (elapsed : ℤ) : Kernel n σ × ℤ :=
  (List.finRange n).foldl (updateSlot cfg elapsed)
    (k, if cfg.isTicklessMode then cfg.ticklessTicksMax else 1)

/-- `UpdateTasks` (stk.h:1921-1935). -/
def updateTasks (cfg : Config) (k : Kernel n σ) (elapsed : ℤ) : Kernel n σ × ℤ :=
  let k := if cfg.isSyncMode then k.updateSyncObjects elapsed else k
  let k := if k.request then k.updateTaskRequest cfg else k
  k.updateTaskState cfg elapsed

/-- `FetchNextEvent` (stk.h:2094-2126). -/
def fetchNextEvent (cfg : Config) (k : Kernel n σ) : FsmEvent × Option (Fin n) × Kernel n σ :=
  match k.callStrategy cfg .getNext with
  | (some next, k) =>
    let k := if (k.tasks next).isSleeping then k.fault .nextSleeping else k
    (if k.fsmState = .sleeping then .wake else .switch, some next, k)
  | (none, k) =>
    if cfg.isDynamicMode && decide (SwitchStrategy.getSize k.strategy = 0) then
      (.exit, none, k)
    else (.sleep, none, k)

def hrtOnSwitchedOut (k : Kernel n σ) (i : Fin n) : Kernel n σ :=
  k.setTask i (fun t => t.hrtOnSwitchedOut (SwitchStrategy.sleepEventApi σ))

/-- `StateSwitch` (stk.h:2189-2230). -/
def stateSwitch (cfg : Config) (k : Kernel n σ) (now next : Option (Fin n)) :
    Kernel n σ × Bool × Option (StackId n) × Option (StackId n) :=
  match now, next with
  | some now, some next =>
    if next ≠ now then
      let k := { k with taskNow := some next }
      let k := if cfg.isHrtMode && (k.tasks now).hrt.done then k.hrtOnSwitchedOut now else k
      (k, true, some (.task now), some (.task next))
    else (k, false, none, none)
  | _, _ => (k.fault .nullTask, false, none, none)

/-- `StateWake` (stk.h:2239-2264). -/
def stateWake (k : Kernel n σ) (next : Option (Fin n)) :
    Kernel n σ × Bool × Option (StackId n) × Option (StackId n) :=
  match next with
  | some next => ({ k with taskNow := some next }, true, some .sleepTrap, some (.task next))
  | none => (k.fault .nullTask, false, none, none)

/-- `StateSleep` (stk.h:2273-2298). -/
def stateSleep (cfg : Config) (k : Kernel n σ) (now : Option (Fin n)) :
    Kernel n σ × Bool × Option (StackId n) × Option (StackId n) :=
  match now, SwitchStrategy.getFirst k.strategy with
  | some now, some first =>
    let k := { k with taskNow := some first }
    let k := if cfg.isHrtMode && !(k.tasks now).removePending then k.hrtOnSwitchedOut now else k
    (k, true, some (.task now), some .sleepTrap)
  | none, _ => (k.fault .nullTask, false, none, none)
  | some _, none => (k.fault .getFirstEmpty, false, none, none)

/-- `StateExit` (stk.h:2308-2332). -/
def stateExit (cfg : Config) (k : Kernel n σ) :
    Kernel n σ × Bool × Option (StackId n) × Option (StackId n) :=
  if cfg.isDynamicMode then ({ k with taskNow := none }, false, none, some .exitTrap)
  else (k, false, none, none)

/-- `UpdateFsmState` (stk.h:2147-2180). -/
def updateFsmState (cfg : Config) (k : Kernel n σ) :
    Kernel n σ × Bool × Option (StackId n) × Option (StackId n) :=
  let now := k.taskNow
  let state := k.fsmState
  match k.fetchNextEvent cfg with
  | (event, next, k) =>
    match fsm state event with
    | .switching =>
      let r := k.stateSwitch cfg now next
      ({ r.1 with fsmState := .switching }, r.2)
    | .sleeping =>
      let r := k.stateSleep cfg now
      ({ r.1 with fsmState := .sleeping }, r.2)
    | .waking =>
      let r := k.stateWake next
      ({ r.1 with fsmState := .waking }, r.2)
    | .exiting =>
      let r := k.stateExit cfg
      ({ r.1 with fsmState := .exiting }, r.2)
    | .none => (k, false, none, none)

/-- `OnTick` (stk.h:1691-1716). -/
def onTick (cfg : Config) (k : Kernel n σ) (elapsed : ℤ) : Kernel n σ × TickResult n :=
  let k := { k with ticks := k.ticks + elapsed }
  let u := k.updateTasks cfg elapsed
  let r := u.1.updateFsmState cfg
  (r.1, ⟨r.2.1, r.2.2.1, r.2.2.2, u.2⟩)

/-- `OnStart` (stk.h:1594-1657). -/
def onStart (cfg : Config) (k : Kernel n σ) : Kernel n σ :=
  let k := (List.finRange n).foldl (fun k i =>
    if (k.tasks i).isSleeping then k.deliverSleep cfg i else k) k
  match ({ k with fsmState := .switching } : Kernel n σ).fetchNextEvent cfg with
  | (event, next, k) =>
    match fsm .switching event, next with
    | .switching, some next => { k with fsmState := .switching, taskNow := some next }
    | .sleeping, _ =>
      match SwitchStrategy.getFirst k.strategy with
      | some first => { k with fsmState := .sleeping, taskNow := some first }
      | none => ({ k with fsmState := .sleeping }).fault .getFirstEmpty
    | state, _ => ({ k with fsmState := state }).fault .badState

end Kernel

end Stk.Model
