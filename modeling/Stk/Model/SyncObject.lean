import Stk.Model.Monitor

/-!
# Classes that hand their signals to the waiters

`Semaphore` and `Event` derive from `ISyncObject` directly.  Each of their methods is one critical
section: it reads the object and `m_wait_list.IsEmpty()`, may call `WakeOne` or `WakeAll`, and may
end in `IKernelService::Wait` on the object itself, whose result is then the result of the method.
`SyncObject` gives the methods of a class, and `SyncSystem` is a kernel with one object of it.

The tasks inside `IKernelService::Wait` are those of a `MonitorSystem` whose class has no state and
no method but `Wait` itself.
-/

set_option autoImplicit false

namespace Stk.Model

/-- The object as far as `IKernelService::Wait` knows it: a wait list. -/
structure WaitQueue where

/-- The identity of the object. -/
def WaitQueue.id : SyncId := .object 0

/-- `IKernelService::Wait` on the object; it is not called with `NO_WAIT`. -/
instance : Monitor WaitQueue ℤ ℤ WaitResult where
  call _ q timeout := ⟨q, [], if timeout = 0 then .done .timeout else .wait timeout⟩
  resume _ q _ result := ⟨q, [], .done result⟩
  waitsFor _ := WaitQueue.id
  timeout timeout := timeout
  owns o := decide (o = WaitQueue.id)
  owns_waitsFor _ := by simp
  call_wait := by
    intro _ _ timeout f hf
    dsimp only at hf
    split at hf
    · cases hf
    · next hne =>
      cases hf
      exact hne
  resume_wait := by
    intro _ _ _ _ _ hf
    cases hf

/-- What a method returns. -/
inductive MethodResult where
  | void
  | bool (b : Bool)
deriving DecidableEq

/-- The wake-ups of a method. -/
inductive WakeUps where
  | none
  | one
  | all
deriving DecidableEq

/-- The end of a method: it returns, or it blocks in `IKernelService::Wait`. -/
inductive Outcome where
  | returns (result : MethodResult)
  | waits (timeout : ℤ)
deriving DecidableEq

/-- The critical section of a method: the object before its wake-ups, the wake-ups, what it does to
the object after them, and how it ends. -/
structure CriticalSection (ω : Type) where
  state : ω
  wakes : WakeUps
  finish : ω → ω
  outcome : Outcome

/-- A class with objects `ω` and calls `α`.  `method` has `m_wait_list.IsEmpty()` as an argument and
no value when an assertion fails; `removeWaitObject` is what the override of `RemoveWaitObject` does
to the object, given `IsTimeout` of the wait object. -/
class SyncObject (ω : Type) (α : outParam Type) where
  method : ω → Bool → α → Option (CriticalSection ω)
  isrSafe : α → Bool
  removeWaitObject : ω → Bool → ω

/-- A kernel with one object.  `arrival` and `arrivals` (the order in which tasks queued up) are
history. -/
structure SyncSystem (n : ℕ) (ω σ : Type) where
  waits : MonitorSystem n WaitQueue ℤ σ
  state : ω
  arrival : Fin n → ℕ
  arrivals : ℕ

namespace SyncSystem

variable {n : ℕ} {ω α σ : Type} [SwitchStrategy (Fin n) σ]

def initial (state : ω) : SyncSystem n ω σ where
  waits := MonitorSystem.initial ⟨⟩
  state := state
  arrival := fun _ => 0
  arrivals := 0

/-- `m_wait_list`. -/
def waitList (s : SyncSystem n ω σ) : List (Fin n) := s.waits.kernel.waitList WaitQueue.id

variable [SyncObject ω α]

/-- The wait objects in `l` leave the wait list. -/
def removeWaitObjects (s : SyncSystem n ω σ) (l : List (Fin n)) (timeout : Bool) : ω :=
  l.foldl (fun x _ => SyncObject.removeWaitObject x timeout) s.state

/-- `WakeOne` and `WakeAll` (stk_common.h:537-557). -/
def wakeUp (s : SyncSystem n ω σ) : WakeUps → SyncSystem n ω σ
  | .none => s
  | .one =>
    { s with
      waits := { s.waits with kernel := s.waits.kernel.wakeOne WaitQueue.id }
      state := s.removeWaitObjects (s.waitList.take 1) false }
  | .all =>
    { s with
      waits := { s.waits with kernel := s.waits.kernel.wakeAll WaitQueue.id }
      state := s.removeWaitObjects s.waitList false }

/-- A critical section up to its end. -/
def enter (s : SyncSystem n ω σ) (t : CriticalSection ω) : SyncSystem n ω σ :=
  let s := ({ s with state := t.state } : SyncSystem n ω σ).wakeUp t.wakes
  { s with state := t.finish s.state }

/-- The task in slot `i` goes to sleep in `IKernelService::Wait`. -/
def block (cfg : Config) (s : SyncSystem n ω σ) (i : Fin n) (timeout : ℤ) : SyncSystem n ω σ :=
  { s with
    waits := s.waits.step cfg (.call i timeout)
    arrival := Function.update s.arrival i s.arrivals
    arrivals := s.arrivals + 1 }

/-- A kernel call from outside.  The wait objects that leave the list in a tick have timed out. -/
def kernelStep (cfg : Config) (s : SyncSystem n ω σ) (e : KernelEvent n) : SyncSystem n ω σ :=
  let waits := s.waits.step cfg (.kernel e)
  let expired := s.waitList.filter (fun i => !decide (i ∈ waits.kernel.waitList WaitQueue.id))
  { s with waits := waits, state := s.removeWaitObjects expired true }

/-- One call into the system, with the result of a method that returns in it. -/
def stepResult (cfg : Config) (s : SyncSystem n ω σ) :
    MonitorEvent n α → SyncSystem n ω σ × Option MethodResult
  | .call i op =>
    if cfg.isSyncMode && s.waits.kernel.canCall i then
      match SyncObject.method s.state s.waitList.isEmpty op with
      | none => (s, none)
      | some t =>
        match t.outcome with
        | .returns r => (s.enter t, some r)
        | .waits timeout => ((s.enter t).block cfg i timeout, none)
    else (s, none)
  | .resume i =>
    let w := s.waits.stepResult cfg (.resume i)
    ({ s with waits := w.1 }, w.2.map (fun r => .bool (decide (r = .signal))))
  | .isr op =>
    if cfg.isSyncMode && SyncObject.isrSafe ω op then
      match SyncObject.method s.state s.waitList.isEmpty op with
      | none => (s, none)
      | some t =>
        match t.outcome with
        | .returns r => (s.enter t, some r)
        | .waits _ => (s, none)
    else (s, none)
  | .kernel e => (s.kernelStep cfg e, none)

def step (cfg : Config) (s : SyncSystem n ω σ) (e : MonitorEvent n α) : SyncSystem n ω σ :=
  (s.stepResult cfg e).1

/-- The system after a sequence of calls, for an object constructed as `state`. -/
def run (cfg : Config) (state : ω) (es : List (MonitorEvent n α)) : SyncSystem n ω σ :=
  es.foldl (step cfg) (initial state)

end SyncSystem

end Stk.Model
