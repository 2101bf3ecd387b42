import Stk.Analysis.DispatchRun
import Stk.Analysis.IntrusiveListRun
import Stk.Analysis.StrategyCalls
import Stk.Model.ReleaseRoundRobin

/-!
# A freed slot in the strategy

A task that is removed inside `Wait` leaves its wait
object behind in the list of the sync object.  The signal that comes later wakes the freed slot; `OnTaskWake` is told of
a task that is in neither list, and a release build links it into `m_tasks`.  From there it becomes the current task
(`removedWaiter_dispatched`).
-/

set_option autoImplicit false

namespace Stk.Analysis

open Stk.Model ClosedLoop

/-! ## A task removed inside `Wait` -/

/-- Task 1 waits for a sync object while tasks 2 and 3 sleep; task 0 has it removed, and signals the object. -/
def removedWaiter : List (KernelEvent 4) :=
  [.addTask 0, .addTask 1, .addTask 2, .addTask 3, .onStart, .onTick 1, .wait 1 (.object 0) waitInfinite, .onTick 1,
    .sleep 2 100, .onTick 1, .sleep 3 100, .onTick 1, .scheduleTaskRemoval 1, .onTick 1, .wakeOne (.object 0),
    .onTick 1]

/-- The slot of task 1 is free, and is the current task of the switching kernel. -/
theorem removedWaiter_dispatched :
    let d : Dispatch 4 (ReleaseRoundRobin (Fin 4)) := Dispatch.run dynamicConfig removedWaiter
    d.kernel.fsmState = .switching ∧ ¬ Sound dynamicConfig d.kernel d.active := by
  intro d
  have hfsm : d.kernel.fsmState = .switching := by decide +kernel
  have hnow : d.kernel.taskNow = some 1 := by decide +kernel
  have hfree : (d.kernel.tasks 1).user = none := by decide +kernel
  refine ⟨hfsm, ?_⟩
  intro hsound
  exact hsound.bound 1 hnow hfree

end Stk.Analysis
