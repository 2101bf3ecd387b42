import Stk.Model.KernelRun

/-!
# The stacks handed to the platform driver

`OnStart` and `OnTick` tell the driver through `active` which stack to switch to; the driver keeps
it (`Context::m_stack_active`) until another one is handed out.  `Dispatch` is a kernel together
with that stack.
-/

set_option autoImplicit false

namespace Stk.Model

variable {n : ℕ} {σ : Type} [SwitchStrategy (Fin n) σ]

namespace Kernel

/-- The stack that `OnStart` hands out (stk.h:1622-1649). -/
def startStack (cfg : Config) (k : Kernel n σ) : Option (StackId n) :=
  let k := (List.finRange n).foldl (fun k i =>
    if (k.tasks i).isSleeping then k.deliverSleep cfg i else k) k
  match ({ k with fsmState := .switching } : Kernel n σ).fetchNextEvent cfg with
  | (event, next, _) =>
    match fsm .switching event, next with
    | .switching, some next => some (.task next)
    | .sleeping, _ => some .sleepTrap
    | _, _ => none

/-- `OnStart` is called: the scheduler is not running and the strategy holds a task. -/
def starts (k : Kernel n σ) : Bool :=
  !k.isStarted && decide (k.fsmState = .none) && decide (SwitchStrategy.getSize k.strategy ≠ 0)

/-- `OnTick` is called with ticks that a driver can report. -/
def ticksWith (cfg : Config) (k : Kernel n σ) (elapsed : ℤ) : Bool :=
  k.isStarted && validElapsed cfg elapsed

end Kernel

/-- A kernel and the stack last handed out as active. -/
structure Dispatch (n : ℕ) (σ : Type) where
  kernel : Kernel n σ
  active : Option (StackId n)

namespace Dispatch

def initial : Dispatch n σ := ⟨Kernel.initial, none⟩

/-- The stack that a call into the kernel hands out, if it does. -/
def handedOut (cfg : Config) (k : Kernel n σ) : KernelEvent n → Option (StackId n)
  | .onStart => if k.starts then k.startStack cfg else none
  | .onTick elapsed => if k.ticksWith cfg elapsed then (k.onTick cfg elapsed).2.active else none
  | _ => none

def step (cfg : Config) (d : Dispatch n σ) (e : KernelEvent n) : Dispatch n σ :=
  ⟨d.kernel.step cfg e, (handedOut cfg d.kernel e).or d.active⟩

def run (cfg : Config) (es : List (KernelEvent n)) : Dispatch n σ :=
  es.foldl (step cfg) initial

/-- The driver is told nothing that the kernel would not do without it. -/
theorem run_kernel (cfg : Config) (es : List (KernelEvent n)) :
    (run cfg es : Dispatch n σ).kernel = Kernel.run cfg es := by
  suffices hgen : ∀ d : Dispatch n σ, (es.foldl (step cfg) d).kernel = es.foldl (Kernel.step cfg) d.kernel from
    hgen initial
  induction es with
  | nil => exact fun _ => rfl
  | cons e es ih => exact fun d => ih (d.step cfg e)

end Dispatch

end Stk.Model
