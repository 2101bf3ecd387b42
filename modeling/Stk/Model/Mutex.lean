import Stk.Model.KernelRun

/-!
# Mutexes over the kernel

`sync::Mutex` (stk_sync_mutex.h) and the system of a kernel with its mutexes.  `TimedLock`
is two events: `timedLock` runs up to the spin inside `IKernelService::Wait`, `lockReturn`
from the end of the spin to the return; each runs inside one critical section.  Calls that
violate an assertion of `Mutex` are no events, as in `Stk.Model.KernelRun`.  A
`STK_KERNEL_PANIC` stops the system.

`Mutex` inherits `ISyncObject` privately and weights are inherited and restored by mutexes
only, so `SystemEvent.kernel` leaves out the calls that would do either from outside.
-/

set_option autoImplicit false

namespace Stk.Model

/-- The state of a `Mutex` (stk_sync_mutex.h:105-106); `TID_NONE` is `none`. -/
structure Mutex where
  ownerTid : Option TId
  recursionCount : ℕ
deriving DecidableEq

/-- `RECURSION_MAX` (stk_sync_mutex.h:103). -/
def recursionMax : ℕ := 0xFFFE

/-- A `TimedLock` inside `Wait`: the mutex and the local `owner_tid`. -/
structure LockCall where
  mutex : ℕ
  ownerTid : Option TId
deriving DecidableEq

/-- A kernel with its mutexes.  `held` (the successful locks of a task minus its unlocks),
`arrival` and `arrivals` (the order in which tasks queued up) are history. -/
structure System (n : ℕ) (σ : Type) where
  kernel : Kernel n σ
  mutex : ℕ → Mutex
  lock : Fin n → Option LockCall
  panic : Bool
  held : ℕ → TId → ℤ
  arrival : Fin n → ℕ
  arrivals : ℕ

/-- A call into the system. -/
inductive SystemEvent (n : ℕ) where
  | timedLock (caller : Fin n) (mutex : ℕ) (timeout : ℤ)
  | lockReturn (caller : Fin n)
  | unlock (caller : Fin n) (mutex : ℕ)
  | kernel (event : KernelEvent n)
deriving DecidableEq

/-- The kernel calls that are not made by mutexes alone. -/
def KernelEvent.isDirect {n : ℕ} : KernelEvent n → Bool
  | .wait _ (.mutex _) _ | .wakeOne (.mutex _) | .wakeAll (.mutex _) => false
  | .inheritWeight _ _ | .restoreWeight _ _ => false
  | _ => true

variable {n : ℕ} {σ : Type} [SwitchStrategy (Fin n) σ]

/-- `InheritWeight` of a task id that may be `TID_NONE` (stk.h:894-900). -/
def Kernel.inheritWeight (cfg : Config) (k : Kernel n σ) (tid : Option TId) (weight : ℤ) :
    Kernel n σ :=
  match tid with
  | some u => k.onInheritWeight cfg u weight
  | none => k

/-- `RestoreWeight` of a task id that may be `TID_NONE` (stk.h:902-908). -/
def Kernel.restoreWeight (cfg : Config) (k : Kernel n σ) (tid : Option TId) (o : Option SyncId) :
    Kernel n σ :=
  match tid with
  | some u => k.onRestoreWeight cfg u o
  | none => k

/-- Wake the first waiter of mutex `m` as its new owner and let it inherit the highest weight
of the tasks that still wait (stk_sync_mutex.h:216-222). -/
def Kernel.handOver (cfg : Config) (k : Kernel n σ) (m : ℕ) (waiter : Fin n) : Kernel n σ :=
  let owner := (k.tasks waiter).user
  let k := k.wakeWaitObj waiter false
  k.inheritWeight cfg owner
    (k.findWeightHigherThan cfg (.mutex m) ((owner.map cfg.weight).getD noWeight))

namespace System

def initial : System n σ where
  kernel := Kernel.initial
  mutex := fun _ => ⟨none, 0⟩
  lock := fun _ => none
  panic := false
  held := fun _ _ => 0
  arrival := fun _ => 0
  arrivals := 0

def setMutex (s : System n σ) (m : ℕ) (x : Mutex) : System n σ :=
  { s with mutex := Function.update s.mutex m x }

/-- Book a successful lock (`d = 1`) or an unlock (`d = -1`). -/
def book (s : System n σ) (m : ℕ) (tid : TId) (d : ℤ) : System n σ :=
  { s with held := Function.update s.held m (Function.update (s.held m) tid (s.held m tid + d)) }

/-- `TimedLock` (stk_sync_mutex.h:114-187) up to the spin, and its result if it returns
without one. -/
def timedLock (cfg : Config) (s : System n σ) (i : Fin n) (tid : TId) (m : ℕ) (timeout : ℤ) :
    System n σ × Option Bool :=
  let x := s.mutex m
  if x.recursionCount ≠ 0 ∧ x.ownerTid = some tid then
    -- recursive path
    if x.recursionCount < recursionMax then
      ((s.setMutex m { x with recursionCount := x.recursionCount + 1 }).book m tid 1, some true)
    else (s, none)
  else if x.recursionCount = 0 then
    -- fast path
    if x.ownerTid ≠ none then ({ s with panic := true }, none)
    else ((s.setMutex m ⟨some tid, 1⟩).book m tid 1, some true)
  else if timeout ≠ 0 then
    -- slow path
    if cfg.isSyncMode then
      let k := s.kernel.inheritWeight cfg x.ownerTid (cfg.weight tid)
      let k' := k.onTaskWait i (.mutex m) timeout
      -- `SetupWait` refuses a task that is still linked to another sync object
      if (k.tasks i).isWaiting then ({ s with kernel := k' }, none)
      else
        ({ s with
            kernel := k'
            lock := Function.update s.lock i (some ⟨m, x.ownerTid⟩)
            arrival := Function.update s.arrival i s.arrivals
            arrivals := s.arrivals + 1 }, none)
    else (s, none)
  else (s, some false)

/-- The rest of `TimedLock` once `Wait` has returned `result`
(stk_sync_mutex.h:156-178). -/
def lockReturn (cfg : Config) (s : System n σ) (i : Fin n) (tid : TId) (c : LockCall)
    (result : WaitResult) : System n σ × Option Bool :=
  let x := s.mutex c.mutex
  let k := { s.kernel with call := Function.update s.kernel.call i none }
  let lock := Function.update s.lock i none
  match result with
  | .timeout =>
    let k := if c.ownerTid = x.ownerTid then
      k.restoreWeight cfg c.ownerTid (some (.mutex c.mutex)) else k
    ({ s with kernel := k, lock := lock }, some false)
  | .signal =>
    if x.ownerTid ≠ some tid ∨ x.recursionCount ≠ 1 then ({ s with panic := true }, none)
    else ({ s with kernel := k, lock := lock }.book c.mutex tid 1, some true)

/-- `Unlock` (stk_sync_mutex.h:193-234) by the owner `tid`. -/
def unlock (cfg : Config) (s : System n σ) (tid : TId) (m : ℕ) : System n σ :=
  let count := (s.mutex m).recursionCount - 1
  let s := (s.setMutex m { s.mutex m with recursionCount := count }).book m tid (-1)
  if count = 0 then
    let k := s.kernel.restoreWeight cfg (some tid) none
    match k.waitList (.mutex m) with
    | waiter :: _ =>
      { s.setMutex m ⟨(k.tasks waiter).user, 1⟩ with kernel := k.handOver cfg m waiter }
    | [] => { s.setMutex m ⟨none, 0⟩ with kernel := k }
  else s

/-- One call into the system, with the result of a `TimedLock` that returns in it. -/
def stepResult (cfg : Config) (s : System n σ) : SystemEvent n → System n σ × Option Bool
  | .timedLock i m timeout =>
    match (s.kernel.tasks i).user with
    | none => (s, none)
    | some tid =>
      if !s.panic && s.kernel.canCall i && decide (timeout ≤ waitInfinite) then
        s.timedLock cfg i tid m timeout
      else (s, none)
  | .lockReturn i =>
    match (s.kernel.tasks i).user, s.lock i, s.kernel.waitResult i with
    | some tid, some c, some result =>
      if !s.panic then s.lockReturn cfg i tid c result else (s, none)
    | _, _, _ => (s, none)
  | .unlock i m =>
    match (s.kernel.tasks i).user with
    | none => (s, none)
    | some tid =>
      if !s.panic && s.kernel.canCall i && decide ((s.mutex m).ownerTid = some tid) &&
          decide ((s.mutex m).recursionCount ≠ 0) then (s.unlock cfg tid m, none)
      else (s, none)
  | .kernel (.waitReturn i) =>
    if !s.panic && decide (s.lock i = none) then
      ({ s with kernel := s.kernel.step cfg (.waitReturn i) }, none)
    else (s, none)
  | .kernel e =>
    if !s.panic && e.isDirect then ({ s with kernel := s.kernel.step cfg e }, none) else (s, none)

def step (cfg : Config) (s : System n σ) (e : SystemEvent n) : System n σ :=
  (s.stepResult cfg e).1

/-- The system after a sequence of calls. -/
def run (cfg : Config) (es : List (SystemEvent n)) : System n σ :=
  es.foldl (step cfg) initial

end System

end Stk.Model
