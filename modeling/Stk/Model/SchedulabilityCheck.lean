import Stk.Model.Monotonic

/-!
# `SchedulabilityCheck`

stk_strategy_monotonic.h:262-504: the worst-case response times of the tasks of a monotonic strategy, in 32-bit
unsigned arithmetic.  The `goto` of `CalculateWCRT` is a loop; a run that it takes more than `fuel` times round
has no result.
-/

set_option autoImplicit false

namespace Stk.Model.SchedulabilityCheck

/-- `TaskTiming`. -/
structure TaskTiming where
  duration : UInt32
  period : UInt32
deriving DecidableEq

/-- `TaskCpuLoad`. -/
structure TaskCpuLoad where
  task : UInt16
  total : UInt16
deriving DecidableEq

/-- `TaskInfo`. -/
structure TaskInfo where
  cpuLoad : TaskCpuLoad
  wcrt : UInt32
deriving DecidableEq

/-- `SchedulabilityCheckResult`. -/
structure SchedulabilityCheckResult where
  schedulable : Bool
  info : List TaskInfo
deriving DecidableEq

/-- `idiv_ceil` (stk_strategy_monotonic.h:488-503). -/
def idivCeil (x y : UInt32) : UInt32 :=
  if y ≠ 0 then
    if x % y > 0 then x / y + 1 else x / y
  else 0

/-- The sum of one iteration of `CalculateWCRT` (stk_strategy_monotonic.h:439-443). -/
def demand (higher : List TaskTiming) (cx w0 : UInt32) : UInt32 :=
  higher.foldl (fun w task => w + idivCeil w0 task.period * task.duration) cx

/-- From `next_itr` on (stk_strategy_monotonic.h:437-454). -/
def nextItr (higher : List TaskTiming) (cx tx : UInt32) : ℕ → UInt32 → Option UInt32
  | 0, _ => none
  | fuel + 1, w0 =>
    let w := demand higher cx w0
    if w ≠ w0 ∧ w ≤ tx then nextItr higher cx tx fuel w else some w

/-- The loop over the tasks, with those before `t` in `higher`. -/
def wcrtLoop (fuel : ℕ) : List TaskTiming → List TaskTiming → Option (Bool × List UInt32)
  | _, [] => some (true, [])
  | higher, task :: tasks =>
    match nextItr higher task.duration task.period fuel task.duration with
    | none => none
    | some w =>
      (wcrtLoop fuel (higher ++ [task]) tasks).map fun r => (decide (w ≤ task.period) && r.1, w :: r.2)

/-- `CalculateWCRT` (stk_strategy_monotonic.h:425-458) of `first :: tasks`. -/
def calculateWCRT (fuel : ℕ) (first : TaskTiming) (tasks : List TaskTiming) : Option (Bool × List UInt32) :=
  (wcrtLoop fuel [first] tasks).map fun r => (r.1, first.duration :: r.2)

/-- `GetTaskCpuLoad` (stk_strategy_monotonic.h:468-481), with the sum so far. -/
def getTaskCpuLoad (total : UInt16) : List TaskTiming → List TaskCpuLoad
  | [] => []
  | task :: tasks =>
    let taskLoad := (task.duration * 100 / task.period).toUInt16
    ⟨taskLoad, total + taskLoad⟩ :: getTaskCpuLoad (total + taskLoad) tasks

/-- The timing of a task of the strategy (stk_strategy_monotonic.h:374-375). -/
def taskTiming {α : Type} (v : TaskView α) (task : α) : TaskTiming :=
  ⟨UInt32.ofInt (v.hrtDeadline task), UInt32.ofInt (v.hrtPeriodicity task)⟩

/-- `IsSchedulableWCRT` (stk_strategy_monotonic.h:353-390); the strategy has a task. -/
def isSchedulableWCRT {type : MonotonicType} {α : Type} (fuel : ℕ) (v : TaskView α) (s : Monotonic type α) :
    Option SchedulabilityCheckResult :=
  match s.tasks.map (taskTiming v) with
  | [] => none
  | first :: tasks =>
    (calculateWCRT fuel first tasks).map fun r =>
      ⟨r.1, List.zipWith TaskInfo.mk (getTaskCpuLoad 0 (first :: tasks)) r.2⟩

end Stk.Model.SchedulabilityCheck
