import Mathlib.Logic.Function.Basic
import Stk.Model.Strategy

/-!
# `SwitchStrategySmoothWeightedRoundRobin`

stk_strategy_swrrobin.h:63-270.  The run-time weight `m_rt_weight[0]` of a slot is
written and read by this strategy only (priority inheritance is off), so it is kept
here as `currentWeight`.  Weights are exact integers.
-/

set_option autoImplicit false

namespace Stk.Model

/-- `m_tasks`, `m_sleep`, `m_total_weight` and every slot's current weight. -/
structure SmoothWeightedRoundRobin (α : Type) where
  tasks : List α
  sleep : List α
  totalWeight : ℤ
  currentWeight : α → ℤ

/-- `INT32_MIN`, the initial maximum of the scan in `GetNext`. -/
def int32Min : ℤ := -2147483648

namespace SmoothWeightedRoundRobin

variable {α : Type} [DecidableEq α]

/-- `AddActive` (stk_strategy_swrrobin.h:246-250). -/
def addActive (v : TaskView α) (s : SmoothWeightedRoundRobin α) (task : α) :
    SmoothWeightedRoundRobin α :=
  { s with tasks := s.tasks ++ [task], totalWeight := s.totalWeight + v.weight task }

/-- `RemoveActive` (stk_strategy_swrrobin.h:258-262). -/
def removeActive (v : TaskView α) (s : SmoothWeightedRoundRobin α) (task : α) :
    SmoothWeightedRoundRobin α :=
  { s with tasks := s.tasks.erase task, totalWeight := s.totalWeight - v.weight task }

/-- `SetCurrentWeight` of one slot. -/
def setCurrentWeight (s : SmoothWeightedRoundRobin α) (task : α) (w : ℤ) :
    SmoothWeightedRoundRobin α :=
  { s with currentWeight := Function.update s.currentWeight task w }

/-- `AddTask` (stk_strategy_swrrobin.h:97-105). -/
def addTask (v : TaskView α) (s : SmoothWeightedRoundRobin α) (task : α) :
    Except Fault (SmoothWeightedRoundRobin α) :=
  if ¬ (0 < v.weight task ∧ v.weight task ≤ 0x7FFFFF) then .error .weightRange
  else if task ∈ s.tasks ∨ task ∈ s.sleep then .error .addTaskHead
  else .ok ((s.setCurrentWeight task noWeight).addActive v task)

/-- `RemoveTask` (stk_strategy_swrrobin.h:115-128). -/
def removeTask (v : TaskView α) (s : SmoothWeightedRoundRobin α) (task : α) :
    Except Fault (SmoothWeightedRoundRobin α) :=
  if task ∈ s.tasks then .ok (s.removeActive v task)
  else if task ∈ s.sleep then .ok { s with sleep := s.sleep.erase task }
  else .error .removeTaskHead

/-- What the scan of `GetNext` carries: the weights it has raised, the greatest of
them and the task that has it. -/
structure Scan (α : Type) where
  currentWeight : α → ℤ
  maxWeight : ℤ
  next : Option α

/-- The body of the scan in `GetNext` (stk_strategy_swrrobin.h:151-165). -/
def scanStep (v : TaskView α) (c : Scan α) (itr : α) : Scan α :=
  let candidateWeight := c.currentWeight itr + v.weight itr
  let currentWeight := Function.update c.currentWeight itr candidateWeight
  if candidateWeight > c.maxWeight then ⟨currentWeight, candidateWeight, some itr⟩
  else { c with currentWeight := currentWeight }

/-- `GetNext` (stk_strategy_swrrobin.h:142-172). -/
def getNext (v : TaskView α) (s : SmoothWeightedRoundRobin α) :
    Except Fault (Option α × SmoothWeightedRoundRobin α) :=
  if s.tasks = [] then .ok (none, s)
  else
    let c := s.tasks.foldl (scanStep v) ⟨s.currentWeight, int32Min, none⟩
    match c.next with
    | none => .error .nullCursor
    | some next =>
      let s := { s with currentWeight := c.currentWeight }
      .ok (some next, s.setCurrentWeight next (c.maxWeight - s.totalWeight))

/-- `GetFirst` (stk_strategy_swrrobin.h:180-185). -/
def getFirst (s : SmoothWeightedRoundRobin α) : Option α :=
  if s.tasks ≠ [] then s.tasks.head? else s.sleep.head?

/-- `GetSize` (stk_strategy_swrrobin.h:190-193). -/
def getSize (s : SmoothWeightedRoundRobin α) : ℕ :=
  s.tasks.length + s.sleep.length

/-- `OnTaskSleep` (stk_strategy_swrrobin.h:201-209). -/
def onTaskSleep (v : TaskView α) (s : SmoothWeightedRoundRobin α) (task : α) :
    Except Fault (SmoothWeightedRoundRobin α) :=
  if ¬ v.sleeping task then .error .onTaskSleepAwake
  else if task ∉ s.tasks then .error .onTaskSleepHead
  else
    let s := s.removeActive v task
    .ok { s with sleep := s.sleep ++ [task] }

/-- `OnTaskWake` (stk_strategy_swrrobin.h:223-236). -/
def onTaskWake (v : TaskView α) (s : SmoothWeightedRoundRobin α) (task : α) :
    Except Fault (SmoothWeightedRoundRobin α) :=
  if v.sleeping task then .error .onTaskWakeSleeping
  else if task ∉ s.sleep then .error .onTaskWakeHead
  else
    let s := { s with sleep := s.sleep.erase task }
    .ok ((s.setCurrentWeight task s.totalWeight).addActive v task)

instance : SwitchStrategy α (SmoothWeightedRoundRobin α) where
  weightApi := true
  sleepEventApi := true
  priorityInheritanceApi := false
  empty := ⟨[], [], 0, fun _ => 0⟩
  addTask := addTask
  removeTask := removeTask
  getNext := getNext
  getFirst := getFirst
  getSize := getSize
  onTaskSleep := onTaskSleep
  onTaskWake := onTaskWake
  onTaskWeightChange _ s _ _ := .ok s

end SmoothWeightedRoundRobin

end Stk.Model
