import Stk.Model.Strategy

/-!
# `SwitchStrategyEDF`

stk_strategy_edf.h:60-224.  `GetNext` scans the runnable tasks for the smallest
remaining deadline; `GetHrtRelativeDeadline` asserts that the task it is asked
about does not sleep (stk.h:318-335).
-/

set_option autoImplicit false

namespace Stk.Model

/-- `m_tasks` and `m_sleep`. -/
structure EarliestDeadlineFirst (α : Type) where
  tasks : List α
  sleep : List α
deriving DecidableEq

namespace EarliestDeadlineFirst

variable {α : Type} [DecidableEq α]

/-- `AddTask` (stk_strategy_edf.h:93-99). -/
def addTask (s : EarliestDeadlineFirst α) (task : α) : Except Fault (EarliestDeadlineFirst α) :=
  if task ∈ s.tasks ∨ task ∈ s.sleep then .error .addTaskHead
  else .ok { s with tasks := s.tasks ++ [task] }

/-- `RemoveTask` (stk_strategy_edf.h:107-121). -/
def removeTask (s : EarliestDeadlineFirst α) (task : α) :
    Except Fault (EarliestDeadlineFirst α) :=
  if task ∈ s.tasks then .ok { s with tasks := s.tasks.erase task }
  else if task ∈ s.sleep then .ok { s with sleep := s.sleep.erase task }
  else .error .removeTaskHead

/-- `GetNext` (stk_strategy_edf.h:138-162). -/
def getNext (v : TaskView α) (s : EarliestDeadlineFirst α) :
    Except Fault (Option α × EarliestDeadlineFirst α) :=
  match s.tasks with
  | [] => .ok (none, s)
  | first :: _ =>
    if s.tasks.any v.sleeping then .error .relativeDeadlineSleeping
    else
      let earliest := s.tasks.foldl (fun next itr =>
        if v.relativeDeadline itr < v.relativeDeadline next then itr else next) first
      .ok (some earliest, s)

/-- `GetFirst` (stk_strategy_edf.h:171-176). -/
def getFirst (s : EarliestDeadlineFirst α) : Option α :=
  if s.tasks ≠ [] then s.tasks.head? else s.sleep.head?

/-- `GetSize` (stk_strategy_edf.h:181-184). -/
def getSize (s : EarliestDeadlineFirst α) : ℕ :=
  s.tasks.length + s.sleep.length

/-- `OnTaskSleep` (stk_strategy_edf.h:192-200). -/
def onTaskSleep (v : TaskView α) (s : EarliestDeadlineFirst α) (task : α) :
    Except Fault (EarliestDeadlineFirst α) :=
  if ¬ v.sleeping task then .error .onTaskSleepAwake
  else if task ∉ s.tasks then .error .onTaskSleepHead
  else .ok ⟨s.tasks.erase task, s.sleep ++ [task]⟩

/-- `OnTaskWake` (stk_strategy_edf.h:210-218). -/
def onTaskWake (v : TaskView α) (s : EarliestDeadlineFirst α) (task : α) :
    Except Fault (EarliestDeadlineFirst α) :=
  if v.sleeping task then .error .onTaskWakeSleeping
  else if task ∉ s.sleep then .error .onTaskWakeHead
  else .ok ⟨s.tasks ++ [task], s.sleep.erase task⟩

instance : SwitchStrategy α (EarliestDeadlineFirst α) where
  weightApi := false
  sleepEventApi := true
  priorityInheritanceApi := false
  empty := ⟨[], []⟩
  addTask _ s t := s.addTask t
  removeTask _ s t := s.removeTask t
  getNext := getNext
  getFirst := getFirst
  getSize := getSize
  onTaskSleep := onTaskSleep
  onTaskWake := onTaskWake
  onTaskWeightChange _ s _ _ := .ok s

end EarliestDeadlineFirst

end Stk.Model
