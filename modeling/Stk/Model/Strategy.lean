import Mathlib.Data.Int.Basic

/-!
# The task-switching strategy interface

The kernel hands its task slots to a strategy, `ITaskSwitchStrategy`
(stk_common.h:1100-1190).  A strategy sees a slot through `IKernelTask`: its
effective weight, its remaining deadline, whether it sleeps, its period and its deadline.
`TaskView` holds these readings for every slot, as they are at the moment of a call.

`STK_ASSERT(e)` is compiled out of a release build and stops a debug build
(stk_defs.h:389-415).  A strategy call whose assertion on its lists fails has no
defined result in a release build either (an entry would be unlinked from a list
it is not in), so such a call returns the assertion as a `Fault`.
-/

set_option autoImplicit false

namespace Stk.Model

/-! The scalar types of stk_common.h:141-166.  `Timeout`, `Ticks` and `Weight` are signed
and the modelled values stay in their range, so they are integers.  A task id is the
address of the user task; the null pointer and `TID_NONE` are `none` wherever they can
occur. -/

abbrev TId := ℕ

/-! The slots of a kernel are `Fin n`.  Their instances are named here, so that a numeral or a membership
test has the same meaning whatever a module imports. -/

instance (priority := 10000) neZeroOne : @NeZero ℕ Zero.ofOfNat0 1 := ⟨by decide⟩
instance (priority := 10000) neZeroTwo : @NeZero ℕ Zero.ofOfNat0 2 := ⟨by decide⟩
instance (priority := 10000) neZeroThree : @NeZero ℕ Zero.ofOfNat0 3 := ⟨by decide⟩
instance (priority := 10000) lawfulBEqSlot {n : ℕ} : LawfulBEq (Fin n) := inferInstance

def waitInfinite : ℤ := 2147483647
def noWait : ℤ := 0
def noWeight : ℤ := -1
def defaultWeight : ℤ := 1

/-- The assertions and panics of the modelled functions.  Each is named after the
function that holds it and the state of affairs it reports: `onTaskSleepHead` is
`STK_ASSERT(task->GetHead() == &m_tasks)` in `OnTaskSleep`, `wakeNotSleeping` is
`STK_ASSERT(IsSleeping())` in `KernelTask::Wake`, `wakeNotWaiting` is
`STK_ASSERT(IsWaiting())` in `WaitObject::Wake`, `nullCursor` is a null list cursor
followed by `GetNext`, `nullTask` is `STK_ASSERT(now != nullptr)` in the state
functions of the FSM, `deadlineMissed` is `HrtHardFailDeadline`, `badState` and
`mutexPanic` are the two kernel panics of `OnStart`/`UpdateFsmState` and of
`Mutex::TimedLock`, `sleepEventUnsupported` is the `STK_ASSERT(false)` of a strategy that
takes no sleep events. -/
inductive Fault where
  | addTaskHead
  | weightRange
  | removeTaskHead
  | onTaskSleepAwake
  | onTaskSleepHead
  | onTaskWakeSleeping
  | onTaskWakeHead
  | weightChangeHead
  | getFirstEmpty
  | relativeDeadlineSleeping
  | nullCursor
  | nextSleeping
  | wakeNotSleeping
  | wakeNotWaiting
  | setupWaitWaiting
  | waitTimeoutZero
  | unbindWaiting
  | noFreeSlot
  | taskCollision
  | taskNotFound
  | nullTask
  | deadlineMissed
  | badState
  | mutexPanic
  | recursionMax
  | unlockNotOwner
  | sleepEventUnsupported
deriving DecidableEq

/-- What a strategy reads of the task slots during one call. -/
structure TaskView (α : Type) where
  weight : α → ℤ
  relativeDeadline : α → ℤ
  sleeping : α → Bool
  hrtPeriodicity : α → ℤ
  hrtDeadline : α → ℤ

/-- A template argument `TStrategy` of the kernel: its `EConfig` flags and its
operations on tasks of type `α`. -/
class SwitchStrategy (α : outParam Type) (σ : Type) where
  weightApi : Bool
  sleepEventApi : Bool
  priorityInheritanceApi : Bool
  empty : σ
  addTask : TaskView α → σ → α → Except Fault σ
  removeTask : TaskView α → σ → α → Except Fault σ
  getNext : TaskView α → σ → Except Fault (Option α × σ)
  getFirst : σ → Option α
  getSize : σ → ℕ
  onTaskSleep : TaskView α → σ → α → Except Fault σ
  onTaskWake : TaskView α → σ → α → Except Fault σ
  onTaskWeightChange : TaskView α → σ → α → ℤ → Except Fault σ

/-- The calls that may change a strategy's state. -/
inductive StrategyCall (α : Type) where
  | addTask (task : α)
  | removeTask (task : α)
  | getNext
  | onTaskSleep (task : α)
  | onTaskWake (task : α)
  | onTaskWeightChange (task : α) (oldWeight : ℤ)

/-- Carry out one call: the task `GetNext` returned, if it is one, and the new state. -/
def StrategyCall.apply {α σ : Type} [SwitchStrategy α σ] (v : TaskView α) (s : σ) :
    StrategyCall α → Except Fault (Option α × σ)
  | .addTask t => (SwitchStrategy.addTask v s t).map (none, ·)
  | .removeTask t => (SwitchStrategy.removeTask v s t).map (none, ·)
  | .getNext => SwitchStrategy.getNext v s
  | .onTaskSleep t => (SwitchStrategy.onTaskSleep v s t).map (none, ·)
  | .onTaskWake t => (SwitchStrategy.onTaskWake v s t).map (none, ·)
  | .onTaskWeightChange t w => (SwitchStrategy.onTaskWeightChange v s t w).map (none, ·)

end Stk.Model
