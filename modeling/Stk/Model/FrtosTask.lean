import Mathlib.Data.Fintype.Option
import Stk.Model.KernelRun

/-!
# Task control of the FreeRTOS interface

`FrtosTask` (freertos_stk.cpp:392-500) keeps a state of its own, `m_state`, beside the sleep counter of the
kernel.  `vTaskSuspend` (freertos_stk.cpp:1227-1239) is two steps: `SuspendTask` in a critical section, and the
write of `m_state` when `SuspendTask` has returned, which in a call on the caller itself is after the spin.
The other functions are one critical section each.

A caller is a task, or `none` for the code that runs before the scheduler is started.
-/

set_option autoImplicit false

namespace Stk.Model

/-- `FrtosTask::State`. -/
inductive TaskState where
  | ready
  | suspended
  | deleted
deriving DecidableEq

/-- A call of `vTaskSuspend` in which `SuspendTask` has left its critical section; `self` is its local of this
name. -/
structure SuspendCall where
  user : TId
  self : Bool
deriving DecidableEq

/-- `g_StkKernel`, `m_state` of each `FrtosTask` there is, and the calls of `vTaskSuspend` under way. -/
structure FrtosKernel (n : ℕ) (σ : Type) where
  kernel : Kernel n σ
  state : TId → Option TaskState
  suspending : Option (Fin n) → Option SuspendCall

inductive FrtosEvent (n : ℕ) where
  | xTaskCreate (caller : Option (Fin n)) (user : TId)
  | vTaskDelete (user : TId)
  | vTaskSuspend (caller : Option (Fin n)) (user : TId)
  | vTaskSuspendReturn (caller : Option (Fin n))
  | vTaskResume (user : TId)
  | xTaskAbortDelay (user : TId)
  /-- A call into the kernel of any other function of the interface, of an object or of a driver. -/
  | kernel (e : KernelEvent n)
deriving DecidableEq

/-- The priorities of the tasks and the tick mode of a FreeRTOS kernel.  `FrtosPrioToStkWeight`
(freertos_stk.cpp:301-309) clamps to `configMAX_PRIORITIES`, at most 32. -/
structure FrtosConfig where
  isTicklessMode : Bool
  ticklessTicksMax : ℤ
  weight : TId → ℤ
  weight_lt : ∀ u, 0 ≤ weight u ∧ weight u < 32

/-- The mode of `FrtosKernel` (freertos_stk.cpp:357-363). -/
def FrtosConfig.kernel (c : FrtosConfig) : Config where
  isDynamicMode := true
  isHrtMode := false
  isSyncMode := true
  isTicklessMode := c.isTicklessMode
  ticklessTicksMax := c.ticklessTicksMax
  weight := c.weight

namespace Kernel

variable {n : ℕ} {σ : Type}

/-- The task that has the CPU; in `FSM_STATE_SLEEPING` it is the sleep trap. -/
def running (k : Kernel n σ) : Option (Fin n) :=
  match k.fsmState with
  | .switching | .waking => k.taskNow
  | _ => none

/-- The kernel has the task or a request of `AddTask` for it. -/
def knows (k : Kernel n σ) (u : TId) : Bool :=
  decide (∃ i, (k.tasks i).user = some u ∨ (k.tasks i).addTaskReq = some u)

end Kernel

namespace FrtosKernel

variable {n : ℕ} {σ : Type} [SwitchStrategy (Fin n) σ]

def initial : FrtosKernel n σ := ⟨.initial, fun _ => none, fun _ => none⟩

/-- A call of `vTaskSuspend` on the task is under way. -/
def inSuspend (s : FrtosKernel n σ) (u : TId) : Bool :=
  decide (∃ c, (s.suspending c).map SuspendCall.user = some u)

/-- Nothing refers to the task: a new object may have this address. -/
def isFresh (s : FrtosKernel n σ) (u : TId) : Bool :=
  (s.state u).isNone && !s.kernel.knows u && !s.inSuspend u

/-- The caller runs and is in no call. -/
def mayCall (s : FrtosKernel n σ) : Option (Fin n) → Bool
  | none => !s.kernel.isStarted && (s.suspending none).isNone
  | some i => decide (s.kernel.running = some i) && s.kernel.canCall i && (s.suspending (some i)).isNone

/-- `AddTask` (stk.h:1038-1065) of `xTaskCreate` (freertos_stk.cpp:1128-1171). -/
def xTaskCreate (cfg : Config) (s : FrtosKernel n σ) (caller : Option (Fin n)) (u : TId) : FrtosKernel n σ :=
  { s with
    kernel := s.kernel.step cfg (match caller with
      | none => .addTask u
      | some i => .requestAddTask i u)
    state := Function.update s.state u (some .ready) }

/-- `vTaskDelete` (freertos_stk.cpp:1207-1225): the object is freed. -/
def vTaskDelete (cfg : Config) (s : FrtosKernel n σ) (u : TId) : FrtosKernel n σ :=
  { s with kernel := s.kernel.step cfg (.scheduleTaskRemoval u), state := Function.update s.state u none }

/-- `vTaskSuspend` (freertos_stk.cpp:1227-1237), up to the spin of `SuspendTask` (stk.h:1144-1176). -/
def vTaskSuspend (s : FrtosKernel n σ) (caller : Option (Fin n)) (u : TId) : FrtosKernel n σ :=
  let self := match s.kernel.findTaskByUserTask u with
    | none => false
    | some i => !(s.kernel.tasks i).isSleeping && decide (s.kernel.taskNow = some i)
  { s with
    kernel := s.kernel.suspendTask u
    suspending := Function.update s.suspending caller (some ⟨u, self⟩) }

/-- The caller has left `SuspendTask`, if its call spun: it runs and does not sleep. -/
def spinEnded (s : FrtosKernel n σ) (call : SuspendCall) : Option (Fin n) → Bool
  | none => true
  | some i => decide (s.kernel.running = some i) && !(call.self && (s.kernel.tasks i).isSleeping)

/-- The rest of `vTaskSuspend` (freertos_stk.cpp:1238). -/
def vTaskSuspendReturn (s : FrtosKernel n σ) (caller : Option (Fin n)) : FrtosKernel n σ :=
  match s.suspending caller with
  | none => s
  | some call =>
    if s.spinEnded call caller then
      { s with
        state := Function.update s.state call.user ((s.state call.user).map fun _ => .suspended)
        suspending := Function.update s.suspending caller none }
    else s

/-- `vTaskResume` and `xTaskResumeFromISR` (freertos_stk.cpp:1241-1273), with the result of the latter. -/
def vTaskResume (s : FrtosKernel n σ) (u : TId) : FrtosKernel n σ × Bool :=
  if s.state u ≠ some .suspended then (s, false)
  else ({ s with kernel := s.kernel.resumeTask u, state := Function.update s.state u (some .ready) }, true)

/-- `xTaskAbortDelay` (freertos_stk.cpp:1275-1289). -/
def xTaskAbortDelay (cfg : Config) (s : FrtosKernel n σ) (u : TId) : FrtosKernel n σ :=
  if s.state u ≠ some .ready then s else { s with kernel := s.kernel.step cfg (.sleepCancel u) }

/-- The calls that `FrtosEvent.kernel` stands for.  A task calls while it runs; what is done to a `FrtosTask`
by name is done by the functions above; an `ITask` is added once. -/
def allows (s : FrtosKernel n σ) : KernelEvent n → Bool
  | .sleep i _ | .sleepUntil i _ | .switchToNext i | .wait i _ _ | .taskExit i => s.mayCall (some i)
  | .requestAddTask i u => s.mayCall (some i) && s.isFresh u
  | .addTask u => s.mayCall none && s.isFresh u
  | .removeTask u | .suspendTask u | .resumeTask u | .sleepCancel u => (s.state u).isNone
  | .addTaskHrt _ _ _ _ => false
  | .onStart => s.mayCall none
  | _ => true

/-- A call into the kernel; `OnExit` (freertos_stk.cpp:434-437) runs for the tasks that it removes. -/
def kernelCall (cfg : Config) (s : FrtosKernel n σ) (e : KernelEvent n) : FrtosKernel n σ :=
  let k := s.kernel.step cfg e
  { s with
    kernel := k
    state := fun u => if u ∈ k.exits.drop s.kernel.exits.length then (s.state u).map fun _ => .deleted
      else s.state u }

/-- One step. -/
def step (cfg : Config) (s : FrtosKernel n σ) : FrtosEvent n → FrtosKernel n σ
  | .xTaskCreate c u => if s.mayCall c && s.isFresh u then s.xTaskCreate cfg c u else s
  | .vTaskDelete u => if (s.state u).isSome then s.vTaskDelete cfg u else s
  | .vTaskSuspend c u => if s.mayCall c && (s.state u).isSome then s.vTaskSuspend c u else s
  | .vTaskSuspendReturn c => s.vTaskSuspendReturn c
  | .vTaskResume u => (s.vTaskResume u).1
  | .xTaskAbortDelay u => s.xTaskAbortDelay cfg u
  | .kernel e => if s.allows e then s.kernelCall cfg e else s

def run (cfg : Config) (es : List (FrtosEvent n)) : FrtosKernel n σ :=
  es.foldl (step cfg) initial

end FrtosKernel

end Stk.Model
