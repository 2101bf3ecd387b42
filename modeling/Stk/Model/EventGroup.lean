import Stk.Model.EventFlags

/-!
# Event groups of the FreeRTOS interface

`xEventGroupSync` (freertos_stk.cpp:3143-3187) over `EventFlags`.  A call is two critical sections, the
`Set` and the `Wait`, and a stretch for each return of the condition variable; other tasks may run
between them.
-/

set_option autoImplicit false

namespace Stk.Model

/-- `portMAX_DELAY`. -/
def portMaxDelay : ℤ := 0xFFFFFFFF

/-- `FrtosTimeoutToStk` (freertos_stk.cpp:330-339). -/
def frtosTimeoutToStk (t : ℤ) : ℤ :=
  if t = portMaxDelay then waitInfinite else if t = 0 then 0 else toInt32 t

/-- `StkFlagsToFrtos` (freertos_stk.cpp:2960-2966). -/
def stkFlagsToFrtos (result snapshot : BitVec 32) : BitVec 32 :=
  if EventFlags.isError result then snapshot else result

/-- The arguments of `xEventGroupSync`. -/
structure SyncCall where
  bitsToSet : BitVec 32
  bitsToWaitFor : BitVec 32
  ticksToWait : ℤ
deriving DecidableEq

/-- How far a task is in `xEventGroupSync`. -/
inductive SyncPhase where
  /-- It has not yet called `Set`. -/
  | start
  /-- It is between `Set` and `Wait`. -/
  | set
  | waiting
  | returned (bits : BitVec 32)
deriving DecidableEq

/-- A kernel with one event group; the task in slot `i` calls `xEventGroupSync` once, if at all. -/
structure EventGroup (n : ℕ) (σ : Type) where
  flags : MonitorSystem n EventFlags FlagsFrame σ
  phase : Fin n → SyncPhase

inductive EventGroupEvent (n : ℕ) where
  | set (caller : Fin n)
  /-- `Wait` reads the tick counter, `started`, before its critical section. -/
  | wait (caller : Fin n) (started : ℤ)
  | resume (caller : Fin n)
  | kernel (event : KernelEvent n)

namespace EventGroup

variable {n : ℕ} {σ : Type} [SwitchStrategy (Fin n) σ]

/-- The group as created: no flag is set. -/
def initial : EventGroup n σ := ⟨MonitorSystem.initial ⟨0⟩, fun _ => .start⟩

/-- The task in slot `i` has run a stretch of `Wait`; `next` is its phase if the call has not returned. -/
def afterWait (i : Fin n) (next : SyncPhase)
    (r : MonitorSystem n EventFlags FlagsFrame σ × Option (BitVec 32)) (phase : Fin n → SyncPhase) :
    EventGroup n σ :=
  match r with
  | (flags, some result) => ⟨flags, Function.update phase i (.returned (stkFlagsToFrtos result 0))⟩
  | (flags, none) => ⟨flags, Function.update phase i next⟩

/-- One step of a task inside its call, or one kernel call. -/
def step (cfg : Config) (calls : Fin n → Option SyncCall) (g : EventGroup n σ) :
    EventGroupEvent n → EventGroup n σ
  | .set i =>
    match calls i, g.phase i with
    | some c, .start =>
      if c.bitsToWaitFor = 0 then { g with phase := Function.update g.phase i (.returned 0) }
      else if c.bitsToSet ≠ 0 then
        match g.flags.stepResult cfg (.call i (.set c.bitsToSet)) with
        | (flags, some result) =>
          ⟨flags, Function.update g.phase i (if EventFlags.isError result then .returned 0 else .set)⟩
        | (flags, none) => ⟨flags, g.phase⟩
      else { g with phase := Function.update g.phase i .set }
    | _, _ => g
  | .wait i started =>
    match calls i, g.phase i with
    | some c, .set =>
      let r := g.flags.stepResult cfg (.call i
        (.wait false c.bitsToWaitFor EventFlags.optWaitAll (frtosTimeoutToStk c.ticksToWait) started))
      afterWait i (if (r.1.pending i).isSome then .waiting else .set) r g.phase
    | _, _ => g
  | .resume i =>
    match g.phase i with
    | .waiting => afterWait i .waiting (g.flags.stepResult cfg (.resume i)) g.phase
    | _ => g
  | .kernel e => { g with flags := g.flags.step cfg (.kernel e) }

end EventGroup

end Stk.Model
