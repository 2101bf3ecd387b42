import Stk.Foundation.Runs
import Stk.Model.Kernel

/-!
# Runs of the kernel

One event is one call into the kernel, atomic with respect to ticks: by the application
before `Start`, by a task, by an interrupt handler or by the platform driver.  A call
whose argument violates an assertion of the called function, or that its caller is in
no position to make, is no event: `step` ignores it.

`IKernelService::Wait` is two events, `wait` up to the spin and `waitReturn` when the
spin has ended; between them the caller makes no other call.  A task may make calls
until the tick that switches it out, also when an interrupt handler has put it to sleep
meanwhile, so that sleeping is no obstacle to a call.
-/

set_option autoImplicit false

namespace Stk.Model

/-- `YIELD_TICKS` (stk.h:1333). -/
def yieldTicks : ℤ := 2

/-- A call into a kernel with `n` slots. -/
inductive KernelEvent (n : ℕ) where
  | addTask (user : TId)
  | addTaskHrt (user : TId) (periodicity deadline startDelay : ℤ)
  | removeTask (user : TId)
  | onStart
  | onStop
  | onTick (elapsed : ℤ)
  | onSuspend
  | requestAddTask (caller : Fin n) (user : TId)
  | sleep (caller : Fin n) (ticks : ℤ)
  | sleepUntil (caller : Fin n) (timestamp : ℤ)
  | switchToNext (caller : Fin n)
  | wait (caller : Fin n) (syncObj : SyncId) (timeout : ℤ)
  | waitReturn (caller : Fin n)
  | taskExit (caller : Fin n)
  | suspendTask (user : TId)
  | resumeTask (user : TId)
  | sleepCancel (user : TId)
  | scheduleTaskRemoval (user : TId)
  | wakeOne (syncObj : SyncId)
  | wakeAll (syncObj : SyncId)
  | inheritWeight (user : TId) (weight : ℤ)
  | restoreWeight (user : TId) (syncObj : Option SyncId)
deriving DecidableEq

namespace Kernel

variable {n : ℕ} {σ : Type} [SwitchStrategy (Fin n) σ]

/-- `IsStarted` (stk.h:1282-1285). -/
def isStarted (k : Kernel n σ) : Bool := k.taskNow.isSome

/-- The slot runs a task that is not inside a `Wait`. -/
def canCall (k : Kernel n σ) (i : Fin n) : Bool :=
  k.isStarted && (k.tasks i).isBusy && decide (k.call i = none)

/-- `OnTaskSleep` (stk.h:1723-1745), up to the spin. -/
def onTaskSleep (cfg : Config) (k : Kernel n σ) (i : Fin n) (ticks : ℤ) : Kernel n σ :=
  let k := if cfg.isHrtMode then
    k.setTask i (fun t => { t with hrt := { t.hrt with done := true } }) else k
  if ticks > 0 then k.scheduleSleep i ticks else k

/-- `OnTaskSleepUntil` (stk.h:1747-1775), up to the spin. -/
def onTaskSleepUntil (k : Kernel n σ) (i : Fin n) (timestamp : ℤ) : Kernel n σ :=
  let delta := timestamp - k.ticks
  if delta > 0 then k.scheduleSleep i (min delta waitInfinite) else k

/-- `SuspendTask` (stk.h:1144-1176), up to the spin. -/
def suspendTask (k : Kernel n σ) (u : TId) : Kernel n σ :=
  match k.findTaskByUserTask u with
  | none => k.fault .taskNotFound
  | some i => if (k.tasks i).isSleeping then k else k.scheduleSleep i waitInfinite

/-- `ResumeTask` and `OnTaskSleepCancel` (stk.h:1181-1195, 1777-1789). -/
def resumeTask (k : Kernel n σ) (u : TId) : Kernel n σ :=
  match k.findTaskByUserTask u with
  | none => k.fault .taskNotFound
  | some i => if (k.tasks i).isSleeping then k.wakeTask i else k

/-- `KernelTask::ScheduleRemoval` of a slot. -/
def scheduleRemoval (cfg : Config) (k : Kernel n σ) (i : Fin n) : Kernel n σ :=
  k.setTask i (fun t => t.scheduleRemoval cfg (SwitchStrategy.sleepEventApi σ))

/-- `OnSuspend` (stk.h:1860-1881); the kernel state flag is not modelled. -/
def onSuspend (k : Kernel n σ) : Kernel n σ :=
  match k.taskNow with
  | none => k
  | some i => if (k.tasks i).isSleeping then k else k.scheduleSleep i yieldTicks

/-- The ticks a platform driver can report: one, or up to `INT32_MAX` in tickless mode. -/
def validElapsed (cfg : Config) (elapsed : ℤ) : Bool :=
  decide (0 < elapsed) && decide (elapsed ≤ waitInfinite) &&
    (cfg.isTicklessMode || decide (elapsed = 1))

/-- The assertions of `HrtInit` (stk.h:650-654). -/
def validHrt (periodicity deadline startDelay : ℤ) : Bool :=
  decide (0 < periodicity) && decide (periodicity < waitInfinite) && decide (0 < deadline) &&
    decide (deadline < waitInfinite) && decide (0 ≤ startDelay) && decide (startDelay ≤ waitInfinite)

/-- One call into the kernel. -/
def step (cfg : Config) (k : Kernel n σ) : KernelEvent n → Kernel n σ
  | .addTask u =>
    if !cfg.isHrtMode && !k.isStarted then k.allocateAndAddNewTask cfg u else k
  | .addTaskHrt u periodicity deadline startDelay =>
    if cfg.isHrtMode && !k.isStarted && validHrt periodicity deadline startDelay then
      k.hrtAllocateAndAddNewTask cfg u periodicity deadline startDelay
    else k
  | .removeTask u =>
    if cfg.isDynamicMode && !k.isStarted then
      match k.findTaskByUserTask u with
      | none => k
      | some i => k.removeTask cfg i
    else k
  | .onStart =>
    if !k.isStarted && decide (k.fsmState = .none) &&
        decide (SwitchStrategy.getSize k.strategy ≠ 0) then k.onStart cfg
    else k
  | .onStop =>
    if cfg.isDynamicMode && decide (k.fsmState = .exiting) then { k with fsmState := .none } else k
  | .onTick elapsed =>
    if k.isStarted && validElapsed cfg elapsed then (k.onTick cfg elapsed).1 else k
  | .onSuspend => if cfg.isTicklessMode && k.isStarted then k.onSuspend else k
  | .requestAddTask i u =>
    if k.canCall i && cfg.isDynamicMode && !cfg.isHrtMode then
      { k.setTask i (fun t => { t with addTaskReq := some u }) with request := true }
    else k
  | .sleep i ticks =>
    if k.canCall i && !cfg.isHrtMode && decide (0 ≤ ticks) && decide (ticks ≤ waitInfinite) then
      k.onTaskSleep cfg i ticks
    else k
  | .sleepUntil i timestamp =>
    if k.canCall i && !cfg.isHrtMode then k.onTaskSleepUntil i timestamp else k
  | .switchToNext i => if k.canCall i then k.onTaskSleep cfg i yieldTicks else k
  | .wait i o timeout =>
    if k.canCall i && cfg.isSyncMode && decide (timeout ≤ waitInfinite) then k.onTaskWait i o timeout
    else k
  | .waitReturn i =>
    match k.waitResult i with
    | none => k
    | some _ => { k with call := Function.update k.call i none }
  | .taskExit i => if k.canCall i && cfg.isDynamicMode then k.scheduleRemoval cfg i else k
  | .suspendTask u => k.suspendTask u
  | .resumeTask u => k.resumeTask u
  | .sleepCancel u => if !cfg.isHrtMode then k.resumeTask u else k
  | .scheduleTaskRemoval u =>
    if cfg.isDynamicMode && k.isStarted then
      match k.findTaskByUserTask u with
      | none => k
      | some i => k.scheduleRemoval cfg i
    else k
  | .wakeOne o => k.wakeOne o
  | .wakeAll o => k.wakeAll o
  | .inheritWeight u w => k.onInheritWeight cfg u w
  | .restoreWeight u o => k.onRestoreWeight cfg u o

/-- The kernel after a sequence of calls. -/
def run (cfg : Config) (es : List (KernelEvent n)) : Kernel n σ :=
  es.foldl (step cfg) initial

theorem run_append (cfg : Config) (es fs : List (KernelEvent n)) :
    (run cfg (es ++ fs) : Kernel n σ) = fs.foldl (step cfg) (run cfg es) :=
  List.foldl_append

end Kernel

/-! ## The enumeration of the tasks

`EnumerateKernelTasks` and `EnumerateTasks` (stk.h:1201-1243) are one loop that writes an entry for each busy slot it
meets.  The array view of the caller is the list of its entries. -/

namespace Kernel

variable {n : ℕ} {σ β : Type}

/-- The loop of the two functions, where `entry i` is what is written for slot `i`. -/
def enumerate (entry : Fin n → β) (k : Kernel n σ) (tasks : List β) : ℕ × List β :=
  let limit := min tasks.length n
  ((List.finRange n).take limit).foldl (fun acc i =>
    if (k.tasks i).isBusy then (acc.1 + 1, acc.2.set acc.1 (entry i)) else acc) (0, tasks)

/-- `EnumerateKernelTasks` (stk.h:1201-1219). -/
def enumerateKernelTasks (k : Kernel n σ) (tasks : List (Option (Fin n))) : ℕ × List (Option (Fin n)) :=
  k.enumerate some tasks

/-- `EnumerateTasks` (stk.h:1225-1243). -/
def enumerateTasks (k : Kernel n σ) (userTasks : List (Option TId)) : ℕ × List (Option TId) :=
  k.enumerate (fun i => (k.tasks i).user) userTasks

end Kernel

end Stk.Model
