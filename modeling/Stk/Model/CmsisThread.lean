import Mathlib.Data.Fintype.Option
import Stk.Model.KernelRun
import Stk.Model.FrtosTask

/-!
# Threads of the CMSIS interface

`osThreadSuspend` (cmsis_os2_stk.cpp:1045-1070) hands `StkThread::m_suspended` to `SuspendTask` as its
out-parameter, and `SuspendTask` writes it in its critical section; `osThreadResume`
(cmsis_os2_stk.cpp:1072-1106) is one critical section.  A thread that suspends itself, delays itself or yields
spins while it sleeps, so that it makes no call before it is awake again.

A caller is a thread, or `none` for the code that runs before `osKernelStart`.  An `StkThread` exists only after
`osKernelInitialize`, when the kernel is not inactive.
-/

set_option autoImplicit false

namespace Stk.Model

/-- `g_StkKernel`, and `m_suspended` of each `StkThread` there is. -/
structure CmsisKernel (n : ℕ) (σ : Type) where
  kernel : Kernel n σ
  suspended : TId → Option Bool

inductive CmsisEvent (n : ℕ) where
  | osThreadNew (caller : Option (Fin n)) (user : TId)
  | osThreadSuspend (caller : Option (Fin n)) (user : TId)
  | osThreadResume (caller : Option (Fin n)) (user : TId)
  | osThreadExit (caller : Fin n)
  /-- `ObjDestroy` of an `StkThread`, by `osThreadJoin` or `osThreadDetach`. -/
  | objDestroy (user : TId)
  /-- A call into the kernel of any other function of the interface, of an object or of a driver. -/
  | kernel (e : KernelEvent n)
deriving DecidableEq

/-- The priorities of the threads and the tick mode of a CMSIS kernel.  `CmsisPrioToStk`
(cmsis_os2_stk.cpp:77-95) gives 0 to 31. -/
structure CmsisConfig where
  isTicklessMode : Bool
  ticklessTicksMax : ℤ
  weight : TId → ℤ
  weight_lt : ∀ u, 0 ≤ weight u ∧ weight u < 32

/-- The mode of `StkKernel` (cmsis_os2_stk.cpp:152-156). -/
def CmsisConfig.kernel (c : CmsisConfig) : Config where
  isDynamicMode := true
  isHrtMode := false
  isSyncMode := true
  isTicklessMode := c.isTicklessMode
  ticklessTicksMax := c.ticklessTicksMax
  weight := c.weight

namespace CmsisKernel

variable {n : ℕ} {σ : Type} [SwitchStrategy (Fin n) σ]

def initial : CmsisKernel n σ := ⟨.initial, fun _ => none⟩

/-- Nothing refers to the thread: a new object may have this address. -/
def isFresh (s : CmsisKernel n σ) (u : TId) : Bool := (s.suspended u).isNone && !s.kernel.knows u

/-- The caller runs, spins for no sleep of its own and is in no `Wait`. -/
def mayCall (s : CmsisKernel n σ) : Option (Fin n) → Bool
  | none => !s.kernel.isStarted
  | some i => decide (s.kernel.running = some i) && s.kernel.canCall i && !(s.kernel.tasks i).isSleeping

/-- `AddTask` of `osThreadNew` (cmsis_os2_stk.cpp:807-888). -/
def osThreadNew (cfg : Config) (s : CmsisKernel n σ) (caller : Option (Fin n)) (u : TId) : CmsisKernel n σ where
  kernel := s.kernel.step cfg (match caller with
    | none => .addTask u
    | some i => .requestAddTask i u)
  suspended := Function.update s.suspended u (some false)

/-- `SuspendTask` (stk.h:1144-1176), up to the spin: with a task that the kernel does not have it is an
assertion that fails. -/
def osThreadSuspend (s : CmsisKernel n σ) (u : TId) : CmsisKernel n σ where
  kernel := s.kernel.suspendTask u
  suspended := match s.kernel.findTaskByUserTask u with
    | none => s.suspended
    | some i => Function.update s.suspended u (some !(s.kernel.tasks i).isSleeping)

def osThreadResume (s : CmsisKernel n σ) (u : TId) : CmsisKernel n σ :=
  if s.suspended u = some true then
    { kernel := s.kernel.resumeTask u, suspended := Function.update s.suspended u (some false) }
  else s

/-- `ScheduleTaskRemoval` of the caller (cmsis_os2_stk.cpp:1224-1235). -/
def osThreadExit (cfg : Config) (s : CmsisKernel n σ) (i : Fin n) : CmsisKernel n σ :=
  match (s.kernel.tasks i).user with
  | none => s
  | some u => { s with kernel := s.kernel.step cfg (.scheduleTaskRemoval u) }

/-- The calls that `CmsisEvent.kernel` stands for.  A thread calls while it runs; what is done to an `StkThread`
by name is done by the functions above; an `ITask` is added once. -/
def allows (s : CmsisKernel n σ) : KernelEvent n → Bool
  | .sleep i _ | .sleepUntil i _ | .switchToNext i | .wait i _ _ | .taskExit i => s.mayCall (some i)
  | .requestAddTask i u => s.mayCall (some i) && s.isFresh u
  | .addTask u => s.mayCall none && s.isFresh u
  | .removeTask u | .suspendTask u | .resumeTask u | .sleepCancel u | .scheduleTaskRemoval u =>
    (s.suspended u).isNone
  | .addTaskHrt _ _ _ _ => false
  | .onStart => s.mayCall none
  | _ => true

/-- One step. -/
def step (cfg : Config) (s : CmsisKernel n σ) : CmsisEvent n → CmsisKernel n σ
  | .osThreadNew c u => if s.mayCall c && s.isFresh u then s.osThreadNew cfg c u else s
  | .osThreadSuspend c u => if s.mayCall c && (s.suspended u).isSome then s.osThreadSuspend u else s
  | .osThreadResume c u => if s.mayCall c && (s.suspended u).isSome then s.osThreadResume u else s
  | .osThreadExit i => if s.mayCall (some i) then s.osThreadExit cfg i else s
  | .objDestroy u => { s with suspended := Function.update s.suspended u none }
  | .kernel e => if s.allows e then { s with kernel := s.kernel.step cfg e } else s

def run (cfg : Config) (es : List (CmsisEvent n)) : CmsisKernel n σ :=
  es.foldl (step cfg) initial

end CmsisKernel

end Stk.Model
