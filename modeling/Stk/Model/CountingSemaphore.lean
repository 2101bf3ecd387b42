import Stk.Model.Semaphore
import Stk.Model.WrapperTimeouts

/-!
# Counting semaphores of the wrappers

`xSemaphoreCreateCounting`, `xSemaphoreGive` and `xSemaphoreTake` (freertos_stk.cpp) and `osSemaphoreNew`,
`osSemaphoreRelease` and `osSemaphoreAcquire` (cmsis_os2_stk.cpp) over one `Semaphore`, which is in no queue set.
A call is one step up to its end or to the spin of `IKernelService::Wait`.
-/

set_option autoImplicit false

namespace Stk.Model

/-- `Semaphore::COUNT_MAX` (stk_sync_semaphore.h:60). -/
def semaphoreCountMax : ℕ := 0xFFFE

/-- What a create function comes to: a null handle, the failed assertion of the constructor, or a semaphore. -/
inductive SemaphoreCreation where
  | null
  | assertFails
  | semaphore (x : Semaphore)
deriving DecidableEq

/-- The constructor (stk_sync_semaphore.h:71-75). -/
def Semaphore.construct (initialCount maxCount : ℕ) : SemaphoreCreation :=
  if initialCount < maxCount then .semaphore ⟨initialCount, maxCount⟩ else .assertFails

/-- `xSemaphoreCreateCounting` (freertos_stk.cpp:2286-2306); `allocates` says that the heap has the memory. -/
def xSemaphoreCreateCounting (allocates : Bool) (uxMaxCount uxInitialCount : ℕ) : SemaphoreCreation :=
  if uxMaxCount = 0 ∨ uxInitialCount > uxMaxCount then .null
  else
    let uxMaxCount := if uxMaxCount > semaphoreCountMax then semaphoreCountMax else uxMaxCount
    if allocates then Semaphore.construct (uxInitialCount % 2 ^ 16) (uxMaxCount % 2 ^ 16) else .null

/-- `xSemaphoreCreateCountingStatic` (freertos_stk.cpp:2308-2338), which has the control block at
`pxSemaphoreBuffer` and takes the `Semaphore` from the heap all the same. -/
def xSemaphoreCreateCountingStatic (allocates : Bool) (uxMaxCount uxInitialCount pxSemaphoreBuffer : ℕ) :
    SemaphoreCreation :=
  if pxSemaphoreBuffer = 0 then .null else xSemaphoreCreateCounting allocates uxMaxCount uxInitialCount

/-- `osSemaphoreNew` (cmsis_os2_stk.cpp:1867-1894). -/
def osSemaphoreNew (irqContext allocates : Bool) (maxCount initialCount : ℕ) : SemaphoreCreation :=
  if irqContext ∨ maxCount = 0 ∨ initialCount > maxCount then .null
  else
    let mc := min maxCount semaphoreCountMax % 2 ^ 16
    let ic := min initialCount semaphoreCountMax % 2 ^ 16
    if allocates then Semaphore.construct ic mc else .null

/-- The wrapper whose calls are used. -/
inductive WrapperApi where
  | freertos
  | cmsis
deriving DecidableEq

/-- The calls, with the timeout of the wrapper. -/
inductive SemaphoreCall where
  | give
  | take (ticksToWait : ℤ)
deriving DecidableEq

/-- A kernel with one semaphore; `failed` says that an assertion of `Signal` has failed. -/
structure CountingSemaphore (n : ℕ) (σ : Type) where
  sem : SyncSystem n Semaphore σ
  failed : Bool

namespace CountingSemaphore

variable {n : ℕ} {σ : Type} [SwitchStrategy (Fin n) σ]

def initial (x : Semaphore) : CountingSemaphore n σ := ⟨SyncSystem.initial x, false⟩

/-- `Signal`, called as `e`. -/
def signal (cfg : Config) (s : CountingSemaphore n σ) (e : MonitorEvent n SemaphoreOp) : CountingSemaphore n σ :=
  ⟨s.sem.step cfg e, s.failed || (s.sem.state.signal s.sem.waitList.isEmpty).isNone⟩

/-- `xSemaphoreGive` and `xSemaphoreGiveFromISR` (freertos_stk.cpp:2460-2516). -/
def xSemaphoreGive (cfg : Config) (s : CountingSemaphore n σ) (e : MonitorEvent n SemaphoreOp) :
    CountingSemaphore n σ × Option Bool :=
  if s.sem.state.count ≥ semaphoreCountMax then (s, some false) else (s.signal cfg e, some true)

/-- `osSemaphoreRelease` (cmsis_os2_stk.cpp:1939-1954). -/
def osSemaphoreRelease (cfg : Config) (s : CountingSemaphore n σ) (e : MonitorEvent n SemaphoreOp) :
    CountingSemaphore n σ × Option Bool :=
  (s.signal cfg e, some true)

def give (cfg : Config) (api : WrapperApi) (s : CountingSemaphore n σ) (e : MonitorEvent n SemaphoreOp) :
    CountingSemaphore n σ × Option Bool :=
  match api with
  | .freertos => s.xSemaphoreGive cfg e
  | .cmsis => s.osSemaphoreRelease cfg e

def timeoutToStk (api : WrapperApi) (ticks : ℤ) : ℤ :=
  match api with
  | .freertos => frtosTimeoutToStk ticks
  | .cmsis => cmsisTimeoutToStk ticks

/-- `Wait`, called as `e`, or its end. -/
def wait (cfg : Config) (s : CountingSemaphore n σ) (e : MonitorEvent n SemaphoreOp) :
    CountingSemaphore n σ × Option Bool :=
  ({ s with sem := (s.sem.stepResult cfg e).1 },
    (s.sem.stepResult cfg e).2.map fun r => decide (r = .bool true))

/-- One call of a wrapper function, with its result: whether it succeeds. -/
def stepResult (cfg : Config) (api : WrapperApi) (s : CountingSemaphore n σ) :
    MonitorEvent n SemaphoreCall → CountingSemaphore n σ × Option Bool
  | .call i .give =>
    if cfg.isSyncMode && s.sem.waits.kernel.canCall i then s.give cfg api (.call i .signal) else (s, none)
  | .isr .give => if cfg.isSyncMode then s.give cfg api (.isr .signal) else (s, none)
  | .call i (.take ticksToWait) => s.wait cfg (.call i (.wait (timeoutToStk api ticksToWait)))
  | .isr (.take ticksToWait) =>
    if ticksToWait ≠ 0 then (s, some false) else s.wait cfg (.isr (.wait (timeoutToStk api ticksToWait)))
  | .resume i => s.wait cfg (.resume i)
  | .kernel e => ({ s with sem := s.sem.step cfg (.kernel e) }, none)

def step (cfg : Config) (api : WrapperApi) (s : CountingSemaphore n σ) (e : MonitorEvent n SemaphoreCall) :
    CountingSemaphore n σ :=
  (s.stepResult cfg api e).1

/-- The system after a sequence of calls, for a semaphore constructed as `x`. -/
def run (cfg : Config) (api : WrapperApi) (x : Semaphore) (es : List (MonitorEvent n SemaphoreCall)) :
    CountingSemaphore n σ :=
  es.foldl (step cfg api) (initial x)

end CountingSemaphore

end Stk.Model
