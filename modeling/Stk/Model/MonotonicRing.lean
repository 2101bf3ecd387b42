import Stk.Model.LinkedList
import Stk.Model.Monotonic

/-!
# The ring of `SwitchStrategyMonotonic`

stk_strategy_monotonic.h:109-210 on the pointers of `m_tasks`, a closed list whose one head is `()`.  As in
`DLists`, an operation gives `none` where an assertion fails, where a null pointer is dereferenced, or where a
loop does not end.

`HrtInit` sets the timing of a task before `AddTask`, and nothing changes it while the task is in the list.
-/

set_option autoImplicit false

namespace Stk.Model

variable {α : Type} [DecidableEq α]

namespace MonotonicRing

/-- `m_tasks.IsEmpty()`. -/
def isEmpty (s : DLists α Unit) : Bool := decide ((s.head ()).count = 0)

/-- The loop of `AddTask` (stk_strategy_monotonic.h:122-157). -/
def addLoop (type : MonotonicType) (v : TaskView α) (s : DLists α Unit) (task start : α) :
    ℕ → α → Option (DLists α Unit)
  | 0, _ => none
  | n + 1, itr =>
    if Monotonic.higherPriority type v task itr then
      if itr = start then s.linkFront true () task else s.linkBefore true () task itr
    else
      match (s.entry itr).next with
      | none => none
      | some itr => if itr = start then s.linkBack true () task else addLoop type v s task start n itr

/-- `AddTask` (stk_strategy_monotonic.h:109-159). -/
def addTask (type : MonotonicType) (v : TaskView α) (s : DLists α Unit) (task : α) : Option (DLists α Unit) :=
  if (s.entry task).head ≠ none then none
  else if isEmpty s then s.linkFront true () task
  else
    match (s.head ()).first with
    | none => none
    | some start => addLoop type v s task start (s.head ()).count start

/-- `RemoveTask` (stk_strategy_monotonic.h:167-174). -/
def removeTask (s : DLists α Unit) (task : α) : Option (DLists α Unit) :=
  if (s.head ()).count = 0 then none
  else if (s.entry task).head ≠ some () then none
  else s.unlink true () (some task)

/-- The loop of `GetNext` (stk_strategy_monotonic.h:195-205). -/
def nextLoop (sleeping : α → Bool) (s : DLists α Unit) (start : α) : ℕ → α → Option (Option α)
  | 0, _ => none
  | n + 1, itr =>
    if !sleeping itr then some (some itr)
    else
      match (s.entry itr).next with
      | none => none
      | some itr => if itr = start then some none else nextLoop sleeping s start n itr

/-- `GetNext` (stk_strategy_monotonic.h:185-210); the inner `none` is `nullptr`. -/
def getNext (sleeping : α → Bool) (s : DLists α Unit) : Option (Option α) :=
  if isEmpty s then some none
  else
    match (s.head ()).first with
    | none => none
    | some start => nextLoop sleeping s start (s.head ()).count start

end MonotonicRing

/-- `m_tasks`, and the timing of the tasks. -/
structure MonotonicRing (α : Type) where
  tasks : DLists α Unit
  hrtPeriodicity : α → ℤ
  hrtDeadline : α → ℤ

/-- A call of the kernel; `AddTask` with what `HrtInit` has set. -/
inductive MonotonicCall (α : Type) where
  | addTask (task : α) (periodicity deadline : ℤ)
  | removeTask (task : α)

namespace MonotonicRing

def initial : MonotonicRing α := ⟨.initial, fun _ => 0, fun _ => 0⟩

/-- What `AddTask` reads of the tasks. -/
def view (s : MonotonicRing α) : TaskView α where
  weight := fun _ => defaultWeight
  relativeDeadline := s.hrtDeadline
  sleeping := fun _ => false
  hrtPeriodicity := s.hrtPeriodicity
  hrtDeadline := s.hrtDeadline

def hrtInit (s : MonotonicRing α) (task : α) (periodicity deadline : ℤ) : MonotonicRing α :=
  { s with
    hrtPeriodicity := Function.update s.hrtPeriodicity task periodicity
    hrtDeadline := Function.update s.hrtDeadline task deadline }

def step (type : MonotonicType) (s : MonotonicRing α) : MonotonicCall α → Option (MonotonicRing α)
  | .addTask task periodicity deadline =>
    let s := s.hrtInit task periodicity deadline
    (addTask type s.view s.tasks task).map fun tasks => { s with tasks := tasks }
  | .removeTask task => (removeTask s.tasks task).map fun tasks => { s with tasks := tasks }

def run (type : MonotonicType) (cs : List (MonotonicCall α)) : Option (MonotonicRing α) :=
  cs.foldlM (step type) initial

end MonotonicRing

end Stk.Model
