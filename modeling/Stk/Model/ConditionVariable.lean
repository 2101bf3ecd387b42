import Stk.Model.Mutex

/-!
# Waiting on a condition variable with a mutex

`ConditionVariable::Wait` (stk_sync_cv.h:123-138) is `IKernelService::Wait` with the caller's
lock.  When the lock is a `ScopedCriticalSection`, nothing comes between the steps of
`OnTaskWait` (stk.h:1808-1848) up to the spin, and `KernelEvent.wait` has them as one event.
A `sync::Mutex` does not hold off the tick or another caller, so here every step of
`OnTaskWait` is an event of its own: `SetupWait`, the registration of the sync object,
`ScheduleSleep`, `Unlock`, and the end of the spin with the `Lock` that follows it.

The other calls are the ones that can come between: ticks, notifications from tasks and
interrupt handlers, and what other tasks do with mutexes and to sleep.
-/

set_option autoImplicit false

namespace Stk.Model

variable {n : ℕ} {σ : Type} [SwitchStrategy (Fin n) σ]

namespace Kernel

/-- `WaitObject::SetupWait` (stk.h:516-525) with `AddWaitObject`. -/
def setupWait (k : Kernel n σ) (i : Fin n) (o : SyncId) (timeout : ℤ) : Kernel n σ :=
  let k := k.setTask i (fun t => { t with waitObj := ⟨some o, false, timeout⟩ })
  { k with
    waitList := Function.update k.waitList o (k.waitList o ++ [i])
    call := Function.update k.call i (some ⟨o, timeout, k.ticks, none⟩) }

/-- Register a sync object if it is not yet (stk.h:1821-1825). -/
def registerSync (k : Kernel n σ) (o : SyncId) : Kernel n σ :=
  { k with syncList := if o ∈ k.syncList then k.syncList else k.syncList ++ [o] }

end Kernel

/-- How far a task is in `OnTaskWait`. -/
inductive WaitStage where
  /-- The wait object is linked. -/
  | linked
  /-- The sync object is registered. -/
  | registered
  /-- `ScheduleSleep` has been called. -/
  | scheduled
  /-- The mutex has been unlocked; the task spins. -/
  | released
deriving DecidableEq

/-- A pending `ConditionVariable::Wait`. -/
structure CvWait where
  cv : ℕ
  mutex : ℕ
  stage : WaitStage
deriving DecidableEq

/-- A kernel with mutexes and condition variables.  Condition variable `c` is the sync object
`.object c`. -/
structure CvSystem (n : ℕ) (σ : Type) where
  system : System n σ
  waiting : Fin n → Option CvWait

/-- One step of a task, an interrupt handler or the tick driver. -/
inductive CvEvent (n : ℕ) where
  | wait (caller : Fin n) (cv mutex : ℕ) (timeout : ℤ)
  | proceed (caller : Fin n)
  | relock (caller : Fin n)
  | notifyOne (cv : ℕ)
  | notifyAll (cv : ℕ)
  | onTick (elapsed : ℤ)
  | timedLock (caller : Fin n) (mutex : ℕ) (timeout : ℤ)
  | lockReturn (caller : Fin n)
  | unlock (caller : Fin n) (mutex : ℕ)
  | sleep (caller : Fin n) (ticks : ℤ)
deriving DecidableEq

namespace CvSystem

/-- The system `s` before the first `Wait`. -/
def start (s : System n σ) : CvSystem n σ := ⟨s, fun _ => none⟩

/-- The first step of `Wait` with a timeout other than `NO_WAIT`, by the owner of the mutex. -/
def wait (s : CvSystem n σ) (i : Fin n) (cv mutex : ℕ) (timeout : ℤ) : CvSystem n σ where
  system := { s.system with kernel := s.system.kernel.setupWait i (.object cv) timeout }
  waiting := Function.update s.waiting i (some ⟨cv, mutex, .linked⟩)

/-- The next step of `OnTaskWait` for task `tid` in slot `i`. -/
def proceed (cfg : Config) (s : CvSystem n σ) (i : Fin n) (tid : TId) (w : CvWait) : CvSystem n σ :=
  match w.stage with
  | .linked =>
    { system := { s.system with kernel := s.system.kernel.registerSync (.object w.cv) }
      waiting := Function.update s.waiting i (some { w with stage := .registered }) }
  | .registered =>
    { system := { s.system with kernel := s.system.kernel.scheduleSleep i waitInfinite }
      waiting := Function.update s.waiting i (some { w with stage := .scheduled }) }
  | .scheduled =>
    { system := s.system.unlock cfg tid w.mutex
      waiting := Function.update s.waiting i (some { w with stage := .released }) }
  | .released => s

/-- The spin is over and the mutex is locked again (stk.h:1834-1838). -/
def relock (cfg : Config) (s : CvSystem n σ) (i : Fin n) (tid : TId) (w : CvWait) : CvSystem n σ :=
  let k := { s.system.kernel with call := Function.update s.system.kernel.call i none }
  { system := (System.timedLock cfg { s.system with kernel := k } i tid w.mutex waitInfinite).1
    waiting := Function.update s.waiting i none }

/-- One event.  `Wait` is called by the owner of the mutex, as its `Unlock` asserts. -/
def step (cfg : Config) (s : CvSystem n σ) : CvEvent n → CvSystem n σ
  | .wait i cv mutex timeout =>
    if !s.system.panic && s.system.kernel.canCall i && cfg.isSyncMode && decide (timeout ≠ 0) &&
        decide (timeout ≤ waitInfinite) && !(s.system.kernel.tasks i).isWaiting &&
        decide ((s.system.mutex mutex).ownerTid = (s.system.kernel.tasks i).user) &&
        decide ((s.system.mutex mutex).recursionCount ≠ 0) then
      s.wait i cv mutex timeout
    else s
  | .proceed i =>
    match (s.system.kernel.tasks i).user, s.waiting i with
    | some tid, some w => if !s.system.panic then s.proceed cfg i tid w else s
    | _, _ => s
  | .relock i =>
    match (s.system.kernel.tasks i).user, s.waiting i, s.system.kernel.waitResult i with
    | some tid, some w, some _ =>
      if !s.system.panic && decide (w.stage = .released) then s.relock cfg i tid w else s
    | _, _, _ => s
  | .notifyOne cv => { s with system := s.system.step cfg (.kernel (.wakeOne (.object cv))) }
  | .notifyAll cv => { s with system := s.system.step cfg (.kernel (.wakeAll (.object cv))) }
  | .onTick elapsed => { s with system := s.system.step cfg (.kernel (.onTick elapsed)) }
  | .timedLock i mutex timeout => { s with system := s.system.step cfg (.timedLock i mutex timeout) }
  | .lockReturn i => { s with system := s.system.step cfg (.lockReturn i) }
  | .unlock i mutex => { s with system := s.system.step cfg (.unlock i mutex) }
  | .sleep i ticks => { s with system := s.system.step cfg (.kernel (.sleep i ticks)) }

/-- The system after a sequence of events. -/
def run (cfg : Config) (s : CvSystem n σ) (es : List (CvEvent n)) : CvSystem n σ :=
  es.foldl (step cfg) s

end CvSystem

end Stk.Model
