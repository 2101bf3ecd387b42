import Stk.Foundation.ClosedLoop
import Stk.Model.Strategy

/-!
# `SwitchStrategyFixedPriority`

stk_strategy_fpriority.h:59-400, for `MAX_PRIORITIES = P`.  The arrays `m_tasks`
and `m_prev` are functions of the priority level, of which only the levels below
`P` are used; `m_ready_bitmap` is a 32-bit word.
-/

set_option autoImplicit false

namespace Stk.Model

open ClosedLoop (succ pred)

/-- `m_tasks`, `m_sleep`, `m_ready_bitmap` and `m_prev`. -/
structure FixedPriority (P : ℕ) (α : Type) where
  tasks : ℕ → List α
  sleep : List α
  readyBitmap : BitVec 32
  prev : ℕ → Option α

/-- `GetTaskPriorityFromWeight` (stk_strategy_fpriority.h:354-357): the cast to `uint8_t`. -/
def getTaskPriorityFromWeight (weight : ℤ) : ℕ :=
  (weight % 256).toNat

/-- `GetHighestReadyPriority` (stk_strategy_fpriority.h:378-391): `31U - __builtin_clz(bitmap)`. -/
def getHighestReadyPriority (bitmap : BitVec 32) : ℕ :=
  31 - bitmap.clz.toNat

namespace FixedPriority

variable {P : ℕ} {α : Type} [DecidableEq α]

/-- `GetTaskPriority` (stk_strategy_fpriority.h:363-366). -/
def getTaskPriority (v : TaskView α) (task : α) : ℕ :=
  getTaskPriorityFromWeight (v.weight task)

/-- `AddActive` (stk_strategy_fpriority.h:302-315). -/
def addActive (v : TaskView α) (s : FixedPriority P α) (task : α) : FixedPriority P α :=
  let prio := getTaskPriority v task
  let tasks := Function.update s.tasks prio (s.tasks prio ++ [task])
  if (tasks prio).length = 1 then
    { s with
      tasks := tasks
      prev := Function.update s.prev prio (some task)
      readyBitmap := s.readyBitmap ||| (1#32 <<< prio) }
  else { s with tasks := tasks }

/-- `RemoveActive` (stk_strategy_fpriority.h:330-348). -/
def removeActive (s : FixedPriority P α) (task : α) (prio : ℕ) : FixedPriority P α :=
  let next := succ (s.tasks prio) task
  let level := (s.tasks prio).erase task
  if next ≠ task then
    { s with
      tasks := Function.update s.tasks prio level
      prev := Function.update s.prev prio (some (pred level next)) }
  else
    { s with
      tasks := Function.update s.tasks prio level
      prev := Function.update s.prev prio none
      readyBitmap := s.readyBitmap &&& ~~~(1#32 <<< prio) }

/-- The list, if any, that a task is linked in: `GetHead`. -/
def linked (s : FixedPriority P α) (task : α) : Prop :=
  task ∈ s.sleep ∨ ∃ i < P, task ∈ s.tasks i

instance (s : FixedPriority P α) (task : α) : Decidable (s.linked task) :=
  inferInstanceAs (Decidable (_ ∨ ∃ i < P, _))

/-- `AddTask` (stk_strategy_fpriority.h:117-134). -/
def addTask (v : TaskView α) (s : FixedPriority P α) (task : α) :
    Except Fault (FixedPriority P α) :=
  let prio := getTaskPriority v task
  if s.linked task then .error .addTaskHead
  else if ¬ prio < P then .error .weightRange
  else
    let isTail := s.prev prio = (s.tasks prio).getLast?
    let s := s.addActive v task
    .ok (if isTail then { s with prev := Function.update s.prev prio (some task) } else s)

/-- `RemoveTask` (stk_strategy_fpriority.h:144-158). -/
def removeTask (v : TaskView α) (s : FixedPriority P α) (task : α) :
    Except Fault (FixedPriority P α) :=
  let prio := getTaskPriority v task
  if ¬ (task ∈ s.tasks prio ∨ task ∈ s.sleep) then .error .removeTaskHead
  else if task ∈ s.sleep then .ok { s with sleep := s.sleep.erase task }
  else .ok (s.removeActive task prio)

/-- `GetNext` (stk_strategy_fpriority.h:168-181). -/
def getNext (s : FixedPriority P α) : Except Fault (Option α × FixedPriority P α) :=
  if s.readyBitmap ≠ 0 then
    let prio := getHighestReadyPriority s.readyBitmap
    match s.prev prio with
    | none => .error .nullCursor
    | some prev =>
      let next := succ (s.tasks prio) prev
      .ok (some next, { s with prev := Function.update s.prev prio (some next) })
  else .ok (none, s)

/-- `GetFirst` (stk_strategy_fpriority.h:191-208). -/
def getFirst (s : FixedPriority P α) : Option α :=
  if s.readyBitmap = 0 then s.sleep.head?
  else (s.tasks (getHighestReadyPriority s.readyBitmap)).head?

/-- `GetSize` (stk_strategy_fpriority.h:215-224). -/
def getSize (s : FixedPriority P α) : ℕ :=
  (List.range P).foldl (fun total i => total + (s.tasks i).length) s.sleep.length

/-- `OnTaskSleep` (stk_strategy_fpriority.h:232-240). -/
def onTaskSleep (v : TaskView α) (s : FixedPriority P α) (task : α) :
    Except Fault (FixedPriority P α) :=
  let prio := getTaskPriority v task
  if ¬ v.sleeping task then .error .onTaskSleepAwake
  else if task ∉ s.tasks prio then .error .onTaskSleepHead
  else
    let s := s.removeActive task prio
    .ok { s with sleep := s.sleep ++ [task] }

/-- `OnTaskWake` (stk_strategy_fpriority.h:251-259). -/
def onTaskWake (v : TaskView α) (s : FixedPriority P α) (task : α) :
    Except Fault (FixedPriority P α) :=
  if v.sleeping task then .error .onTaskWakeSleeping
  else if task ∉ s.sleep then .error .onTaskWakeHead
  else
    let s := { s with sleep := s.sleep.erase task }
    .ok (s.addActive v task)

/-- `OnTaskWeightChange` (stk_strategy_fpriority.h:270-287). -/
def onTaskWeightChange (v : TaskView α) (s : FixedPriority P α) (task : α)
    (oldWeight : ℤ) : Except Fault (FixedPriority P α) :=
  let oldPrio := getTaskPriorityFromWeight oldWeight
  if ¬ getTaskPriority v task < P then .error .weightRange
  else if ¬ oldPrio < P then .error .weightRange
  else if task ∈ s.sleep then .ok s
  else if task ∉ s.tasks oldPrio then .error .weightChangeHead
  else
    let s := s.removeActive task oldPrio
    .ok (s.addActive v task)

instance : SwitchStrategy α (FixedPriority P α) where
  weightApi := true
  sleepEventApi := true
  priorityInheritanceApi := true
  empty := ⟨fun _ => [], [], 0, fun _ => none⟩
  addTask := addTask
  removeTask := removeTask
  getNext _ s := s.getNext
  getFirst := getFirst
  getSize := getSize
  onTaskSleep := onTaskSleep
  onTaskWake := onTaskWake
  onTaskWeightChange := onTaskWeightChange

end FixedPriority

end Stk.Model
