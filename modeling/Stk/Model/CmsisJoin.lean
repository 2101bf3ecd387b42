import Stk.Model.Monitor

/-!
# The end of a CMSIS thread

`osThreadJoin` and `osThreadDetach` (cmsis_os2_stk.cpp:1108-1222) and `StkThread::OnExit`
(cmsis_os2_stk.cpp:212-218) are the methods of a monitor: each is one critical section, and `osThreadJoin` gives
its up in `m_join_cv.Wait`.  `ThreadSystem` is a kernel with one thread that was created with
`osThreadJoinable`; `OnExit` runs for it in the tick that frees its slot, in the model once that tick is over.

The calls are made by threads.  A call needs a control block: none is made on one that has been destroyed.
-/

set_option autoImplicit false

namespace Stk.Model

/-- `StkThread::JoinState`. -/
inductive JoinState where
  | detached
  | joinable
  | exited
  | joined
deriving DecidableEq

/-- `m_join_state` of a control block, and how often `ObjDestroy` has been called on it. -/
structure StkThread where
  joinState : JoinState
  destroyed : ℕ
deriving DecidableEq

/-- `m_join_cv`. -/
def joinCv : SyncId := .object 0

inductive ThreadCall where
  | osThreadDetach
  | osThreadJoin
  | onExit
deriving DecidableEq

/-- A call inside `m_join_cv.Wait`. -/
inductive ThreadFrame where
  | osThreadJoin
deriving DecidableEq

inductive OsStatus where
  | osOK
  | osError
  | osErrorParameter
deriving DecidableEq

/-- What a call returns. -/
inductive ThreadReturn where
  | osThreadDetach (status : OsStatus)
  | osThreadJoin (status : OsStatus)
  | onExit
deriving DecidableEq

abbrev ThreadStretch := Mesa.Stretch SyncId StkThread ThreadFrame ThreadReturn

namespace StkThread

/-- `osThreadNew` with `osThreadJoinable`. -/
def joinable : StkThread := ⟨.joinable, 0⟩

/-- `osThreadDetach` (cmsis_os2_stk.cpp:1125-1157). -/
def osThreadDetach (th : StkThread) : ThreadStretch :=
  match th.joinState with
  | .detached | .joined => ⟨th, [], .done (.osThreadDetach .osError)⟩
  | .exited => ⟨⟨.detached, th.destroyed + 1⟩, [], .done (.osThreadDetach .osOK)⟩
  | .joinable => ⟨{ th with joinState := .detached }, [], .done (.osThreadDetach .osOK)⟩

/-- `osThreadJoin` from the head of its wait loop (cmsis_os2_stk.cpp:1199-1217). -/
def joinFrom (th : StkThread) : ThreadStretch :=
  match th.joinState with
  | .joined => ⟨th, [], .wait .osThreadJoin⟩
  | .exited => ⟨{ th with destroyed := th.destroyed + 1 }, [], .done (.osThreadJoin .osOK)⟩
  | .detached | .joinable => ⟨th, [], .done (.osThreadJoin .osError)⟩

/-- `osThreadJoin` of another thread (cmsis_os2_stk.cpp:1181-1197). -/
def osThreadJoin (th : StkThread) : ThreadStretch :=
  match th.joinState with
  | .detached | .joined => ⟨th, [], .done (.osThreadJoin .osError)⟩
  | .joinable | .exited => joinFrom { th with joinState := .joined }

def onExit (th : StkThread) : ThreadStretch :=
  ⟨{ th with joinState := .exited }, [.all joinCv], .done .onExit⟩

/-- The first stretch of a call. -/
def call (th : StkThread) : ThreadCall → ThreadStretch
  | .osThreadDetach => th.osThreadDetach
  | .osThreadJoin => th.osThreadJoin
  | .onExit => th.onExit

end StkThread

/-- `osThreadJoin` waits without a timeout. -/
instance : Monitor StkThread ThreadCall ThreadFrame ThreadReturn where
  call _ := StkThread.call
  resume _ th _ _ := th.joinFrom
  waitsFor _ := joinCv
  timeout _ := waitInfinite
  owns o := decide (o = joinCv)
  owns_waitsFor _ := rfl
  call_wait _ := by decide
  resume_wait _ := by decide

/-- A kernel with one thread, whether its `OnExit` has run, and what the calls have returned. -/
structure ThreadSystem (n : ℕ) (σ : Type) where
  sys : MonitorSystem n StkThread ThreadFrame σ
  exited : Bool
  returns : List ThreadReturn

inductive ThreadEvent (n : ℕ) where
  | osThreadDetach (caller : Fin n)
  | osThreadJoin (caller : Fin n)
  /-- A wait of `osThreadJoin` is over. -/
  | joinReturn (caller : Fin n)
  | osThreadTerminate (caller : Fin n)
  /-- A call into the kernel: the return of a thread from `Run` is `taskExit`, `osThreadExit` is
  `scheduleTaskRemoval` of the caller. -/
  | kernel (e : KernelEvent n)

namespace ThreadSystem

variable {n : ℕ} {σ : Type} [SwitchStrategy (Fin n) σ]

def initial : ThreadSystem n σ := ⟨.initial .joinable, false, []⟩

/-- A method runs up to its wait or its return. -/
def invoke (cfg : Config) (s : ThreadSystem n σ) (e : MonitorEvent n ThreadCall) : ThreadSystem n σ :=
  let r := s.sys.stepResult cfg e
  { s with sys := r.1, returns := s.returns ++ r.2.toList }

/-- `osThreadTerminate` (cmsis_os2_stk.cpp:1237-1266) of the thread `u`. -/
def osThreadTerminate (cfg : Config) (s : ThreadSystem n σ) (u : TId) (isActive : Bool) :
    ThreadSystem n σ × OsStatus :=
  if isActive then (s, .osErrorParameter)
  else
    let sys := s.sys.step cfg (.kernel (.scheduleTaskRemoval u))
    let th := sys.state
    let th := if th.joinState = .detached then { th with destroyed := th.destroyed + 1 } else th
    ({ s with sys := { sys with state := th } }, .osOK)

/-- A call into the kernel, with `OnExit` if it has freed the slot of the thread `u`. -/
def kernelCall (cfg : Config) (s : ThreadSystem n σ) (u : TId) (e : KernelEvent n) : ThreadSystem n σ :=
  let sys := s.sys.step cfg (.kernel e)
  if u ∈ sys.kernel.exits.drop s.sys.kernel.exits.length then
    { s with sys := sys.step cfg (.isr .onExit), exited := true }
  else { s with sys := sys }

/-- One step of the system with the thread `u`.  A kernel that runs a thread is not inactive. -/
def step (cfg : Config) (u : TId) (s : ThreadSystem n σ) : ThreadEvent n → ThreadSystem n σ
  | .osThreadDetach i => if s.sys.state.destroyed = 0 then s.invoke cfg (.call i .osThreadDetach) else s
  | .osThreadJoin i =>
    if s.sys.state.destroyed ≠ 0 then s
    else if (s.sys.kernel.tasks i).user = some u then
      -- a thread that joins itself
      if s.sys.kernel.canCall i then { s with returns := s.returns ++ [.osThreadJoin .osErrorParameter] } else s
    else s.invoke cfg (.call i .osThreadJoin)
  | .joinReturn i => s.invoke cfg (.resume i)
  | .osThreadTerminate i =>
    if s.sys.kernel.canCall i && decide (s.sys.state.destroyed = 0) then
      (s.osThreadTerminate cfg u s.sys.kernel.isStarted).1
    else s
  | .kernel e => s.kernelCall cfg u e

def run (cfg : Config) (u : TId) (es : List (ThreadEvent n)) : ThreadSystem n σ :=
  es.foldl (step cfg u) initial

end ThreadSystem

end Stk.Model
