import Stk.Model.LinkedList
import Stk.Model.Strategy

/-!
# `SwitchStrategyRoundRobin` in a release build

stk_strategy_rrobin.h:42-241 with the intrusive lists as they lie in memory and the assertions compiled out.  A call
fails with `nullCursor` where it dereferences a null pointer.
-/

set_option autoImplicit false

namespace Stk.Model

/-- The heads `m_tasks` and `m_sleep`. -/
inductive RoundRobinList where
  | tasks
  | sleep
deriving DecidableEq

/-- The two lists and `m_prev`. -/
structure ReleaseRoundRobin (α : Type) where
  lists : DLists α RoundRobinList
  prev : Option α

namespace ReleaseRoundRobin

variable {α : Type} [DecidableEq α]

/-- A pointer that is dereferenced. -/
def deref {β : Type} (p : Option β) : Except Fault β :=
  match p with
  | none => .error .nullCursor
  | some x => .ok x

/-- `AddActive` (stk_strategy_rrobin.h:188-198). -/
def addActive (s : ReleaseRoundRobin α) (task : α) : Except Fault (ReleaseRoundRobin α) := do
  let lists ← deref (s.lists.linkBackUnchecked true .tasks task)
  .ok ⟨lists, if s.prev = none then some task else s.prev⟩

/-- `RemoveActive` (stk_strategy_rrobin.h:216-234). -/
def removeActive (s : ReleaseRoundRobin α) (task : α) : Except Fault (ReleaseRoundRobin α) := do
  let next ← deref (s.lists.entry task).next
  let lists ← deref (s.lists.unlinkUnchecked true .tasks (some task))
  if next ≠ task then
    let prev ← deref (lists.entry next).prev
    .ok ⟨lists, some prev⟩
  else .ok ⟨lists, none⟩

/-- `AddTask` (stk_strategy_rrobin.h:72-86). -/
def addTask (s : ReleaseRoundRobin α) (task : α) : Except Fault (ReleaseRoundRobin α) := do
  let tail := decide (s.prev = (s.lists.head .tasks).last)
  let lists ← deref (s.lists.linkBackUnchecked true .tasks task)
  .ok ⟨lists, if tail then some task else s.prev⟩

/-- `RemoveTask` (stk_strategy_rrobin.h:94-108). -/
def removeTask (s : ReleaseRoundRobin α) (task : α) : Except Fault (ReleaseRoundRobin α) :=
  if (s.lists.entry task).head = some .tasks then s.removeActive task
  else do
    let lists ← deref (s.lists.unlinkUnchecked true .sleep (some task))
    .ok { s with lists := lists }

/-- `GetNext` (stk_strategy_rrobin.h:119-130). -/
def getNext (s : ReleaseRoundRobin α) : Except Fault (Option α × ReleaseRoundRobin α) :=
  match s.prev with
  | none => .ok (none, s)
  | some prev => do
    let next ← deref (s.lists.entry prev).next
    .ok (some next, { s with prev := some next })

/-- `GetFirst` (stk_strategy_rrobin.h:138-143). -/
def getFirst (s : ReleaseRoundRobin α) : Option α :=
  if (s.lists.head .tasks).count ≠ 0 then (s.lists.head .tasks).first else (s.lists.head .sleep).first

/-- `GetSize` (stk_strategy_rrobin.h:148-151). -/
def getSize (s : ReleaseRoundRobin α) : ℕ := (s.lists.head .tasks).count + (s.lists.head .sleep).count

/-- `OnTaskSleep` (stk_strategy_rrobin.h:158-166). -/
def onTaskSleep (s : ReleaseRoundRobin α) (task : α) : Except Fault (ReleaseRoundRobin α) := do
  let s ← s.removeActive task
  let lists ← deref (s.lists.linkBackUnchecked true .sleep task)
  .ok { s with lists := lists }

/-- `OnTaskWake` (stk_strategy_rrobin.h:174-182). -/
def onTaskWake (s : ReleaseRoundRobin α) (task : α) : Except Fault (ReleaseRoundRobin α) := do
  let lists ← deref (s.lists.unlinkUnchecked true .sleep (some task))
  addActive { s with lists := lists } task

instance instSwitchStrategy : SwitchStrategy α (ReleaseRoundRobin α) where
  weightApi := false
  sleepEventApi := true
  priorityInheritanceApi := false
  empty := ⟨.initial, none⟩
  addTask _ s t := s.addTask t
  removeTask _ s t := s.removeTask t
  getNext _ s := s.getNext
  getFirst := getFirst
  getSize := getSize
  onTaskSleep _ s t := s.onTaskSleep t
  onTaskWake _ s t := s.onTaskWake t
  onTaskWeightChange _ s _ _ := .ok s

end ReleaseRoundRobin

end Stk.Model
