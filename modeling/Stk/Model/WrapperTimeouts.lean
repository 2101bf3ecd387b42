import Stk.Model.EventGroup

/-!
# Ticks in the wrappers

The conversion of a 32-bit number of ticks to a `Timeout` in the CMSIS wrapper (cmsis_os2_stk.cpp; that of the
FreeRTOS wrapper, freertos_stk.cpp, is with the event groups), and the delay calls of both, up to the spin of the
kernel function they end in.  The calls are those of a task of a started kernel.
-/

set_option autoImplicit false

namespace Stk.Model

/-- `CmsisTimeoutToStk` (cmsis_os2_stk.cpp:120-139). -/
def cmsisTimeoutToStk (ticks : ℤ) : ℤ :=
  if waitInfinite < ticks then waitInfinite else if ticks = 0 then 0 else toInt32 ticks

namespace Kernel

variable {n : ℕ} {σ : Type} [SwitchStrategy (Fin n) σ]

/-- `xTaskGetTickCount` (freertos_stk.cpp:1090-1098). -/
def xTaskGetTickCount (k : Kernel n σ) : UInt32 := UInt32.ofInt k.ticks

/-- `xTaskDelayUntil` (freertos_stk.cpp:1304-1315): what it leaves in `*pxPreviousWakeTime`, whether it returns
`pdTRUE`, and the kernel. -/
def xTaskDelayUntil (cfg : Config) (k : Kernel n σ) (i : Fin n) (previousWakeTime timeIncrement : UInt32) :
    UInt32 × Bool × Kernel n σ :=
  let wakeAt : ℤ := previousWakeTime.toNat + timeIncrement.toNat
  (UInt32.ofInt wakeAt, decide (0 < wakeAt - k.ticks), k.step cfg (.sleepUntil i wakeAt))

/-- `osDelayUntil` (cmsis_os2_stk.cpp:1413-1431): whether it returns `osOK`, and the kernel. -/
def osDelayUntil (cfg : Config) (k : Kernel n σ) (i : Fin n) (ticks : UInt32) : Bool × Kernel n σ :=
  (decide (0 < ticks.toNat - k.ticks), k.step cfg (.sleepUntil i ticks.toNat))

end Kernel

end Stk.Model
