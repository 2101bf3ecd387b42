import Stk.Model.Mutex

/-!
# Waits that hand over a mutex

`OnTaskWait` (stk.h:1808-1848) unlocks the `IMutex` of its caller before it spins and locks it again
before it reads `IsTimeout`.  With a critical section or a `SpinLock` nothing writes the wait object in
between, and `Kernel.waitResult` is what `Wait` returns.  `sync::Mutex::Lock` is a `TimedLock` without a
timeout (stk_sync_mutex.h:83), which may call `Wait` itself: `SetupWait` writes the one wait object of the
task, and with it the flag that the first `Wait` has yet to read.

`ConditionVariable::Wait` (stk_sync_cv.h:123-138) is `Wait` with the lock of its caller.  The steps up to
the spin are one event here; `Stk.Model.ConditionVariable` has them apart.
-/

set_option autoImplicit false

namespace Stk.Model

variable {n : ℕ} {σ : Type} [SwitchStrategy (Fin n) σ]

/-- A kernel with mutexes that tasks hand to `Wait`: `waiting i` is the mutex of the pending `Wait` of slot
`i`.  `ended i` is history: the wait that is over, of a task that is locking its mutex again. -/
structure WaitSystem (n : ℕ) (σ : Type) where
  system : System n σ
  waiting : Fin n → Option ℕ
  ended : Fin n → Option WaitCall

/-- A call into the system, or the end of a spin: of a `Wait` with a mutex (`waitReturn`), or of the `Lock`
behind it (`relockReturn`). -/
inductive WaitEvent (n : ℕ) where
  | system (event : SystemEvent n)
  | wait (caller : Fin n) (syncObj : SyncId) (mutex : ℕ) (timeout : ℤ)
  | waitReturn (caller : Fin n)
  | relockReturn (caller : Fin n)
deriving DecidableEq

/-- The result of a `Wait` by the flag that it finds (stk.h:1840). -/
def KernelTask.waitOutcome (t : KernelTask) : WaitResult :=
  if t.waitObj.timeout then .timeout else .signal

/-- The sync objects whose users call `Wait` themselves: `Mutex` inherits `ISyncObject` privately. -/
def SyncId.isObject : SyncId → Bool
  | .mutex _ => false
  | .object _ => true

/-- The task whose `Wait` with a critical section ends in this call. -/
def SystemEvent.returns {n : ℕ} : SystemEvent n → Option (Fin n)
  | .lockReturn i | .kernel (.waitReturn i) => some i
  | _ => none

namespace System

/-- The call is made: `lockReturn` by a task inside `TimedLock`, `waitReturn` by one that is not. -/
def ends (s : System n σ) : SystemEvent n → Bool
  | .lockReturn i => !s.panic && (s.lock i).isSome
  | .kernel (.waitReturn i) => !s.panic && (s.lock i).isNone
  | _ => false

/-- The wait that ends in this call, and its result. -/
def waitReturned (s : System n σ) (e : SystemEvent n) : Option (WaitCall × WaitResult) :=
  match e.returns with
  | none => none
  | some i =>
    match s.kernel.call i, s.kernel.waitResult i with
    | some w, some r => if s.ends e then some (w, r) else none
    | _, _ => none

end System

namespace WaitSystem

def initial : WaitSystem n σ where
  system := System.initial
  waiting := fun _ => none
  ended := fun _ => none

/-- What the system remembers of a slot is over when its call is: a task that has been removed leaves nothing behind. -/
def settle (s : WaitSystem n σ) : WaitSystem n σ where
  system := { s.system with lock := fun i => if s.system.kernel.call i = none then none else s.system.lock i }
  waiting := fun i => if s.system.kernel.call i = none then none else s.waiting i
  ended := fun i => if s.system.kernel.call i = none then none else s.ended i

/-- The call ends a wait that was handed a mutex, which is no call of `System`. -/
def handsMutex (s : WaitSystem n σ) : SystemEvent n → Bool
  | .kernel (.waitReturn i) => (s.waiting i).isSome
  | .lockReturn i => (s.ended i).isSome
  | _ => false

/-- `Wait` by task `tid`, up to the spin (stk.h:1818-1831). -/
def wait (cfg : Config) (s : WaitSystem n σ) (i : Fin n) (tid : TId) (o : SyncId) (m : ℕ) (timeout : ℤ) :
    WaitSystem n σ where
  system := System.unlock cfg { s.system with kernel := s.system.kernel.onTaskWait i o timeout } tid m
  waiting := Function.update s.waiting i (some m)
  ended := s.ended

/-- `mutex->Lock()` (stk.h:1838), up to its own spin. -/
def relock (cfg : Config) (s : WaitSystem n σ) (i : Fin n) (tid : TId) (m : ℕ) : System n σ × Option Bool :=
  let k := { s.system.kernel with call := Function.update s.system.kernel.call i none }
  System.timedLock cfg { s.system with kernel := k } i tid m waitInfinite

/-- One event, with the wait that returns in it and its result. -/
def stepResult (cfg : Config) (s : WaitSystem n σ) : WaitEvent n → WaitSystem n σ × Option (WaitCall × WaitResult)
  | .system e =>
    if s.handsMutex e then (s, none)
    else (settle { s with system := s.system.step cfg e }, s.system.waitReturned e)
  | .wait i o m timeout =>
    match (s.system.kernel.tasks i).user with
    | none => (s, none)
    | some tid =>
      if !s.system.panic && s.system.kernel.canCall i && cfg.isSyncMode && decide (timeout ≠ 0) &&
          decide (timeout ≤ waitInfinite) && !(s.system.kernel.tasks i).isWaiting && o.isObject &&
          decide ((s.system.mutex m).ownerTid = some tid) && decide ((s.system.mutex m).recursionCount ≠ 0) then
        (s.wait cfg i tid o m timeout, none)
      else (s, none)
  | .waitReturn i =>
    match (s.system.kernel.tasks i).user, s.waiting i, s.system.kernel.call i, s.system.kernel.waitResult i with
    | some tid, some m, some w, some _ =>
      if !s.system.panic && s.system.kernel.isStarted then
        let r := s.relock cfg i tid m
        match r.2 with
        | some _ =>
          (settle { s with system := r.1 }, some (w, (r.1.kernel.tasks i).waitOutcome))
        | none =>
          (settle { system := r.1
                    waiting := Function.update s.waiting i none
                    ended := Function.update s.ended i (some w) }, none)
      else (s, none)
    | _, _, _, _ => (s, none)
  | .relockReturn i =>
    match s.ended i with
    | none => (s, none)
    | some w =>
      let r := s.system.stepResult cfg (.lockReturn i)
      -- `Lock` ignores what `TimedLock` returns
      (settle { s with system := r.1 }, r.2.map (fun _ => (w, (r.1.kernel.tasks i).waitOutcome)))

def step (cfg : Config) (s : WaitSystem n σ) (e : WaitEvent n) : WaitSystem n σ :=
  (s.stepResult cfg e).1

/-- The system after a sequence of events. -/
def run (cfg : Config) (es : List (WaitEvent n)) : WaitSystem n σ :=
  es.foldl (step cfg) initial

end WaitSystem

end Stk.Model
