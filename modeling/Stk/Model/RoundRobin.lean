import Stk.Foundation.ClosedLoop
import Stk.Model.Strategy

/-!
# `SwitchStrategyRoundRobin`

stk_strategy_rrobin.h:42-241.  The intrusive lists `m_tasks` and `m_sleep` are
sequences of tasks; `task->GetHead() == &m_tasks` is membership, and
`GetNext()`/`GetPrev()` of a linked entry are the neighbours in the closed loop.
-/

set_option autoImplicit false

namespace Stk.Model

open ClosedLoop (succ pred)

/-- `m_tasks`, `m_sleep` and `m_prev`. -/
structure RoundRobin (α : Type) where
  tasks : List α
  sleep : List α
  prev : Option α
deriving DecidableEq

namespace RoundRobin

variable {α : Type} [DecidableEq α]

/-- `AddActive` (stk_strategy_rrobin.h:188-198). -/
def addActive (s : RoundRobin α) (task : α) : RoundRobin α :=
  { s with
    tasks := s.tasks ++ [task]
    prev := if s.prev = none then some task else s.prev }

/-- `RemoveActive` (stk_strategy_rrobin.h:216-234). -/
def removeActive (s : RoundRobin α) (task : α) : RoundRobin α :=
  let next := succ s.tasks task
  let tasks := s.tasks.erase task
  { s with
    tasks := tasks
    prev := if next ≠ task then some (pred tasks next) else none }

/-- `AddTask` (stk_strategy_rrobin.h:72-86). -/
def addTask (s : RoundRobin α) (task : α) : Except Fault (RoundRobin α) :=
  if task ∈ s.tasks ∨ task ∈ s.sleep then .error .addTaskHead
  else .ok { s with
    tasks := s.tasks ++ [task]
    prev := if s.prev = s.tasks.getLast? then some task else s.prev }

/-- `RemoveTask` (stk_strategy_rrobin.h:94-108). -/
def removeTask (s : RoundRobin α) (task : α) : Except Fault (RoundRobin α) :=
  if task ∈ s.tasks then .ok (s.removeActive task)
  else if task ∈ s.sleep then .ok { s with sleep := s.sleep.erase task }
  else .error .removeTaskHead

/-- `GetNext` (stk_strategy_rrobin.h:119-130). -/
def getNext (s : RoundRobin α) : Option α × RoundRobin α :=
  match s.prev with
  | none => (none, s)
  | some prev =>
    let next := succ s.tasks prev
    (some next, { s with prev := some next })

/-- `GetFirst` (stk_strategy_rrobin.h:138-143). -/
def getFirst (s : RoundRobin α) : Option α :=
  if s.tasks ≠ [] then s.tasks.head? else s.sleep.head?

/-- `GetSize` (stk_strategy_rrobin.h:148-151). -/
def getSize (s : RoundRobin α) : ℕ :=
  s.tasks.length + s.sleep.length

/-- `OnTaskSleep` (stk_strategy_rrobin.h:158-166). -/
def onTaskSleep (v : TaskView α) (s : RoundRobin α) (task : α) : Except Fault (RoundRobin α) :=
  if ¬ v.sleeping task then .error .onTaskSleepAwake
  else if task ∉ s.tasks then .error .onTaskSleepHead
  else
    let s := s.removeActive task
    .ok { s with sleep := s.sleep ++ [task] }

/-- `OnTaskWake` (stk_strategy_rrobin.h:174-182). -/
def onTaskWake (v : TaskView α) (s : RoundRobin α) (task : α) : Except Fault (RoundRobin α) :=
  if v.sleeping task then .error .onTaskWakeSleeping
  else if task ∉ s.sleep then .error .onTaskWakeHead
  else
    let s := { s with sleep := s.sleep.erase task }
    .ok (s.addActive task)

instance : SwitchStrategy α (RoundRobin α) where
  weightApi := false
  sleepEventApi := true
  priorityInheritanceApi := false
  empty := ⟨[], [], none⟩
  addTask _ s t := s.addTask t
  removeTask _ s t := s.removeTask t
  getNext _ s := .ok s.getNext
  getFirst := getFirst
  getSize := getSize
  onTaskSleep := onTaskSleep
  onTaskWake := onTaskWake
  onTaskWeightChange _ s _ _ := .ok s

end RoundRobin

end Stk.Model
