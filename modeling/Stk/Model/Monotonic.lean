import Stk.Model.Strategy

/-!
# `SwitchStrategyMonotonic`

stk_strategy_monotonic.h:69-260, rate monotonic or deadline monotonic.  The one list `m_tasks`
holds sleeping tasks as well; `GetNext` passes over them.
-/

set_option autoImplicit false

namespace Stk.Model

/-- `EMonotonicSwitchStrategyType` (stk_strategy_monotonic.h:28-32). -/
inductive MonotonicType where
  | rate
  | deadline
deriving DecidableEq

/-- `m_tasks`. -/
structure Monotonic (type : MonotonicType) (α : Type) where
  tasks : List α
deriving DecidableEq

namespace Monotonic

variable {type : MonotonicType} {α : Type} [DecidableEq α]

/-- `higher_priority` in `AddTask` (stk_strategy_monotonic.h:124-136). -/
def higherPriority (type : MonotonicType) (v : TaskView α) (task itr : α) : Bool :=
  match type with
  | .rate => decide (v.hrtPeriodicity task < v.hrtPeriodicity itr)
  | .deadline => decide (v.hrtDeadline task < v.hrtDeadline itr)

/-- The scan of `AddTask` (stk_strategy_monotonic.h:118-158): the task is linked before the
first one it takes precedence over, or at the back. -/
def link (type : MonotonicType) (v : TaskView α) (task : α) : List α → List α
  | [] => [task]
  | itr :: l =>
    if higherPriority type v task itr then task :: itr :: l else itr :: link type v task l

/-- `AddTask` (stk_strategy_monotonic.h:109-159). -/
def addTask (v : TaskView α) (s : Monotonic type α) (task : α) :
    Except Fault (Monotonic type α) :=
  if task ∈ s.tasks then .error .addTaskHead else .ok ⟨link type v task s.tasks⟩

/-- `RemoveTask` (stk_strategy_monotonic.h:167-174). -/
def removeTask (s : Monotonic type α) (task : α) : Except Fault (Monotonic type α) :=
  if task ∈ s.tasks then .ok ⟨s.tasks.erase task⟩ else .error .removeTaskHead

/-- `GetNext` (stk_strategy_monotonic.h:185-210). -/
def getNext (v : TaskView α) (s : Monotonic type α) : Option α :=
  s.tasks.find? (fun itr => !v.sleeping itr)

/-- `GetFirst` (stk_strategy_monotonic.h:220-225). -/
def getFirst (s : Monotonic type α) : Option α :=
  s.tasks.head?

/-- `GetSize` (stk_strategy_monotonic.h:231-234). -/
def getSize (s : Monotonic type α) : ℕ :=
  s.tasks.length

instance : SwitchStrategy α (Monotonic type α) where
  weightApi := false
  sleepEventApi := false
  priorityInheritanceApi := false
  empty := ⟨[]⟩
  addTask := addTask
  removeTask _ s t := s.removeTask t
  getNext v s := .ok (s.getNext v, s)
  getFirst := getFirst
  getSize := getSize
  onTaskSleep _ _ _ := .error .sleepEventUnsupported
  onTaskWake _ _ _ := .error .sleepEventUnsupported
  onTaskWeightChange _ s _ _ := .ok s

end Monotonic

end Stk.Model
