import Stk.Foundation.Mesa
import Stk.Model.KernelRun

/-!
# Classes with condition variables over the kernel

Several classes of `stk::sync` have one shape: each method runs inside a `ScopedCriticalSection`
and blocks in `ConditionVariable::Wait` (stk_sync_cv.h:127-142), which gives the critical section up
while the task spins in `IKernelService::Wait` and takes it again before it returns.  Between two
waits a method is one uninterrupted stretch, in the sense of `Mesa.Stretch`; a `Wait` with `NO_WAIT`
returns `false` at once and ends no stretch.  `Monitor` gives the stretches of a class, and
`MonitorSystem` is a kernel with one object of it.

A method that does not block may also be called by an interrupt handler: `isr`.  The classes are
available in `KERNEL_SYNC` mode only.
-/

set_option autoImplicit false

namespace Stk.Model

/-- A class with calls `α`, frames of blocked calls `φ` and results `ρ`: the stretch of a call at a
given tick count, the stretch after a `Wait`, and the condition variable and timeout of a frame's
`Wait`, which is not `NO_WAIT`. -/
class Monitor (μ : Type) (α φ ρ : outParam Type) where
  call : ℤ → μ → α → Mesa.Stretch SyncId μ φ ρ
  resume : ℤ → μ → φ → WaitResult → Mesa.Stretch SyncId μ φ ρ
  waitsFor : φ → SyncId
  timeout : φ → ℤ
  owns : SyncId → Bool
  owns_waitsFor : ∀ f, owns (waitsFor f) = true
  call_wait : ∀ {ticks m op f}, (call ticks m op).next = .wait f → timeout f ≠ 0
  resume_wait : ∀ {ticks m f r f'}, (resume ticks m f r).next = .wait f' → timeout f' ≠ 0

/-- `NotifyOne_CS` and `NotifyAll_CS` (stk_sync_cv.h:157-179). -/
def Kernel.notify {n : ℕ} {σ : Type} (k : Kernel n σ) : Mesa.Notify SyncId → Kernel n σ
  | .one cv => k.wakeOne cv
  | .all cv => k.wakeAll cv

/-- A kernel with one object; `pending` holds the frames of the calls inside `Wait`. -/
structure MonitorSystem (n : ℕ) (μ φ σ : Type) where
  kernel : Kernel n σ
  state : μ
  pending : Fin n → Option φ

/-- A call into the system. -/
inductive MonitorEvent (n : ℕ) (α : Type) where
  | call (caller : Fin n) (op : α)
  | resume (caller : Fin n)
  | isr (op : α)
  | kernel (event : KernelEvent n)

/-- The kernel calls that do not name a condition variable of the object. -/
def KernelEvent.leavesTo {n : ℕ} (owns : SyncId → Bool) : KernelEvent n → Bool
  | .wait _ o _ | .wakeOne o | .wakeAll o => !owns o
  | _ => true

namespace MonitorSystem

variable {n : ℕ} {μ α φ ρ σ : Type} [SwitchStrategy (Fin n) σ] [Monitor μ α φ ρ]

def initial (state : μ) : MonitorSystem n μ φ σ where
  kernel := Kernel.initial
  state := state
  pending := fun _ => none

/-- The task in slot `i` runs the stretch `t`, up to the spin or the return.  A `Wait` of a task that is still linked
drops the call, as `onTaskWait` leaves it out; `ReleaseSystem` goes on with it. -/
def follow (s : MonitorSystem n μ φ σ) (i : Fin n) (t : Mesa.Stretch SyncId μ φ ρ) :
    MonitorSystem n μ φ σ × Option ρ :=
  let k := t.notify.foldl Kernel.notify s.kernel
  match t.next with
  | .done r => ({ kernel := k, state := t.state, pending := Function.update s.pending i none }, some r)
  | .wait f =>
    let k' := k.onTaskWait i (Monitor.waitsFor μ f) (Monitor.timeout μ f)
    -- `SetupWait` refuses a task that is still linked to another sync object
    let frame := if (k.tasks i).isWaiting then none else some f
    ({ kernel := k', state := t.state, pending := Function.update s.pending i frame }, none)

/-- A kernel call from outside.  A task that is removed takes its call with it. -/
def kernelStep (cfg : Config) (s : MonitorSystem n μ φ σ) (e : KernelEvent n) :
    MonitorSystem n μ φ σ :=
  let k := s.kernel.step cfg e
  { s with kernel := k, pending := fun i => if (k.call i).isSome then s.pending i else none }

/-- The stretch that is run in an event. -/
def stretch (cfg : Config) (s : MonitorSystem n μ φ σ) :
    MonitorEvent n α → Option (Mesa.Stretch SyncId μ φ ρ)
  | .call i op =>
    if cfg.isSyncMode && s.kernel.canCall i then some (Monitor.call s.kernel.ticks s.state op) else none
  | .resume i =>
    match s.pending i, s.kernel.waitResult i with
    | some f, some result => some (Monitor.resume s.kernel.ticks s.state f result)
    | _, _ => none
  | .isr op =>
    let t := Monitor.call s.kernel.ticks s.state op
    match t.next with
    | .done _ => if cfg.isSyncMode then some t else none
    | .wait _ => none
  | .kernel _ => none

/-- One call into the system, with the result of a method that returns in it. -/
def stepResult (cfg : Config) (s : MonitorSystem n μ φ σ) (e : MonitorEvent n α) :
    MonitorSystem n μ φ σ × Option ρ :=
  match e, s.stretch cfg e with
  | .call i _, some t => s.follow i t
  | .resume i, some t =>
    { s with kernel := { s.kernel with call := Function.update s.kernel.call i none } }.follow i t
  | .isr _, some t =>
    ({ s with kernel := t.notify.foldl Kernel.notify s.kernel, state := t.state },
      match t.next with
      | .done r => some r
      | .wait _ => none)
  | .kernel (.waitReturn i), _ =>
    if (s.pending i).isNone then (s.kernelStep cfg (.waitReturn i), none) else (s, none)
  | .kernel e, _ => if e.leavesTo (Monitor.owns μ) then (s.kernelStep cfg e, none) else (s, none)
  | _, none => (s, none)

def step (cfg : Config) (s : MonitorSystem n μ φ σ) (e : MonitorEvent n α) :
    MonitorSystem n μ φ σ :=
  (s.stepResult cfg e).1

/-- The system after a sequence of calls, for an object constructed as `state`. -/
def run (cfg : Config) (state : μ) (es : List (MonitorEvent n α)) : MonitorSystem n μ φ σ :=
  es.foldl (step cfg) (initial state)

end MonitorSystem

end Stk.Model
