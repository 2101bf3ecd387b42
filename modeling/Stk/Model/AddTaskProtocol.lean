import Stk.Model.KernelRun

/-!
# The steps of `RequestAddTask`

`AddTask` of a started kernel (stk.h:1463-1481).  The request is a local variable of the caller, to which
its slot points until the tick has processed it.  Storing the pointer, setting `REQ_ADD_TASK`, looking at the
pointer again and giving up the processor are steps of their own; ticks, interrupt handlers and calls of other
tasks come between any two of them.
-/

set_option autoImplicit false

namespace Stk.Model

/-- Where a task stands in `RequestAddTask`; `user` is the task it adds. -/
inductive AddTaskStage where
  | idle
  -- the slot points to the request (1470)
  | stored (user : TId)
  -- `ScheduleAddTask` has returned (1473)
  | flagged (user : TId)
  -- the request was still pending, `SwitchToNext` is to be called (1476-1478)
  | pending (user : TId)
  -- inside `SwitchToNext`
  | yielding (user : TId)
deriving DecidableEq

/-- The task that a call of `AddTask` adds. -/
def AddTaskStage.user : AddTaskStage → Option TId
  | .idle => none
  | .stored u | .flagged u | .pending u | .yielding u => some u

/-- How a request ends: the tick processes it, or its caller is removed before. -/
inductive AddTaskAnswer where
  | served (user : TId)
  | dropped (user : TId)
deriving DecidableEq

def AddTaskAnswer.user : AddTaskAnswer → TId
  | .served u | .dropped u => u

/-- The task that makes a call. -/
def KernelEvent.caller {n : ℕ} : KernelEvent n → Option (Fin n)
  | .requestAddTask i _ | .sleep i _ | .sleepUntil i _ | .switchToNext i | .wait i _ _ | .waitReturn i
  | .taskExit i => some i
  | _ => none

namespace Kernel

variable {n : ℕ} {σ : Type} [SwitchStrategy (Fin n) σ]

/-- One slot of the loop in `UpdateTaskRequest` (stk.h:2075-2084), with the requests processed so far. -/
def serveRequest (cfg : Config) (acc : Kernel n σ × List (Fin n × TId)) (i : Fin n) :
    Kernel n σ × List (Fin n × TId) :=
  match (acc.1.tasks i).addTaskReq with
  | none => acc
  | some u =>
    ((acc.1.allocateAndAddNewTask cfg u).setTask i (fun t => { t with addTaskReq := none }), acc.2 ++ [(i, u)])

/-- `UpdateTaskRequest` with the requests that it processes. -/
def serveRequests (cfg : Config) (k : Kernel n σ) : Kernel n σ × List (Fin n × TId) :=
  if cfg.isDynamicMode && !cfg.isHrtMode then
    (List.finRange n).foldl (serveRequest cfg) ({ k with request := false }, [])
  else (k, [])

/-- The requests that a call into the kernel processes. -/
def servedBy (cfg : Config) (k : Kernel n σ) : KernelEvent n → List (Fin n × TId)
  | .onTick elapsed =>
    if k.isStarted && validElapsed cfg elapsed then
      let k : Kernel n σ := { k with ticks := k.ticks + elapsed }
      let k := if cfg.isSyncMode then k.updateSyncObjects elapsed else k
      if k.request then (k.serveRequests cfg).2 else []
    else []
  | _ => []

end Kernel

/-- A kernel with the callers of `AddTask`.  `asked i` are the requests of slot `i` and `answers i` what has
become of them; `assertsFailed` counts the failures of the last assertion of `RequestAddTask`. -/
structure AddTaskSystem (n : ℕ) (σ : Type) where
  kernel : Kernel n σ
  stage : Fin n → AddTaskStage
  asked : Fin n → List TId
  answers : Fin n → List AddTaskAnswer
  assertsFailed : ℕ

inductive AddTaskEvent (n : ℕ) where
  -- slot `caller` calls `AddTask`, up to the store
  | request (caller : Fin n) (user : TId)
  -- the next step of a caller
  | advance (caller : Fin n)
  -- any other call into the kernel
  | kernel (e : KernelEvent n)
deriving DecidableEq

namespace AddTaskSystem

variable {n : ℕ} {σ : Type} [SwitchStrategy (Fin n) σ]

def initial : AddTaskSystem n σ := ⟨.initial, fun _ => .idle, fun _ => [], fun _ => [], 0⟩

/-- A task inside `AddTask` makes no other call. -/
def mayCall (s : AddTaskSystem n σ) : KernelEvent n → Bool
  | .requestAddTask _ _ => false
  | e =>
    match e.caller with
    | none => true
    | some i => decide (s.stage i = .idle)

/-- The task of slot `i` is removed. -/
def isFreed (k k' : Kernel n σ) (i : Fin n) : Bool := (k.tasks i).isBusy && !(k'.tasks i).isBusy

/-- What a call into the kernel makes of the request of slot `i`. -/
def answered (cfg : Config) (k : Kernel n σ) (e : KernelEvent n) (i : Fin n) : List AddTaskAnswer :=
  let served := (k.servedBy cfg e).filter (fun r => decide (r.1 = i))
  if served = [] ∧ isFreed k (k.step cfg e) i = true then (k.tasks i).addTaskReq.toList.map .dropped
  else served.map (fun r => .served r.2)

/-- One event. -/
def step (cfg : Config) (s : AddTaskSystem n σ) : AddTaskEvent n → AddTaskSystem n σ
  | .request i u =>
    if s.kernel.canCall i && cfg.isDynamicMode && !cfg.isHrtMode && decide (s.stage i = .idle) then
      { s with
        kernel := s.kernel.setTask i (fun t => { t with addTaskReq := some u })
        stage := Function.update s.stage i (.stored u)
        asked := Function.update s.asked i (s.asked i ++ [u]) }
    else s
  | .advance i =>
    match s.stage i with
    | .idle => s
    | .stored u =>
      { s with kernel := { s.kernel with request := true }, stage := Function.update s.stage i (.flagged u) }
    | .flagged u =>
      if (s.kernel.tasks i).addTaskReq ≠ none then { s with stage := Function.update s.stage i (.pending u) }
      else { s with stage := Function.update s.stage i .idle }
    | .pending u =>
      { s with
        kernel := s.kernel.onTaskSleep cfg i yieldTicks
        stage := Function.update s.stage i (.yielding u) }
    | .yielding _ =>
      if (s.kernel.tasks i).isSleeping then s
      else
        { s with
          stage := Function.update s.stage i .idle
          assertsFailed := s.assertsFailed + if (s.kernel.tasks i).addTaskReq = none then 0 else 1 }
  | .kernel e =>
    if s.mayCall e then
      { s with
        kernel := s.kernel.step cfg e
        stage := fun i => if isFreed s.kernel (s.kernel.step cfg e) i then .idle else s.stage i
        answers := fun i => s.answers i ++ answered cfg s.kernel e i }
    else s

/-- The system after a sequence of events. -/
def run (cfg : Config) (es : List (AddTaskEvent n)) : AddTaskSystem n σ := es.foldl (step cfg) initial

end AddTaskSystem

end Stk.Model
