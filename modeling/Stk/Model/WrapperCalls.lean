import Stk.Model.BlockMemoryPool
import Stk.Model.CountingSemaphore
import Stk.Model.MessageQueue
import Stk.Model.Mutex

/-!
# The blocking calls of the wrappers

The calls of the FreeRTOS wrapper (freertos_stk.cpp) and of the CMSIS wrapper (cmsis_os2_stk.cpp) that have a
timeout, each as the method it ends in with the arguments that it passes on.  They are calls of tasks; the checks
for an interrupt handler and for a null handle come before.  The notifications are in `NotifySystem`.
-/

set_option autoImplicit false

namespace Stk.Model

/-- The conversion of the wrapper. -/
def WrapperApi.timeoutToStk (api : WrapperApi) (ticks : UInt32) : ℤ :=
  CountingSemaphore.timeoutToStk api ticks.toNat

namespace Kernel

variable {n : ℕ} {σ : Type} [SwitchStrategy (Fin n) σ]

end Kernel

/-! ## Message queues -/

/-- The calls that wait for a message queue (freertos_stk.cpp:1726-1801, 2198-2215, cmsis_os2_stk.cpp:2265-2331). -/
inductive QueueWaiter (msgSize : ℕ) where
  | xQueueSend (item : Message msgSize)
  | xQueueSendToFront (item : Message msgSize)
  | xQueueReceive
  | xQueuePeek
  /-- `m_token_mq->Get`. -/
  | xQueueSelectFromSet
  | osMessageQueuePut (msg : Message msgSize)
  | osMessageQueueGet
deriving DecidableEq

namespace QueueWaiter

variable {msgSize : ℕ}

def api : QueueWaiter msgSize → WrapperApi
  | .osMessageQueuePut _ | .osMessageQueueGet => .cmsis
  | _ => .freertos

def op : QueueWaiter msgSize → QueueOp msgSize
  | .xQueueSend item => .put item
  | .xQueueSendToFront item => .putFront item
  | .xQueueReceive | .xQueueSelectFromSet => .get
  | .xQueuePeek => .peek
  | .osMessageQueuePut msg => .put msg
  | .osMessageQueueGet => .get

end QueueWaiter

/-! ## Event flags -/

/-- `BuildStkFlagsOpts` (freertos_stk.cpp:2969-2981); `OPT_WAIT_ANY` is zero. -/
def buildStkFlagsOpts (clearOnExit waitForAllBits : Bool) : BitVec 32 :=
  (if waitForAllBits then EventFlags.optWaitAll else 0) ||| if clearOnExit then 0 else EventFlags.optNoClear

/-- `CmsisFlagsOptionsToStk` (cmsis_os2_stk.cpp:492-507). -/
def cmsisFlagsOptionsToStk (options : BitVec 32) : BitVec 32 :=
  (if options &&& 0x00000001 ≠ 0 then EventFlags.optWaitAll else 0) |||
    if options &&& 0x00000002 ≠ 0 then EventFlags.optNoClear else 0

/-- The calls that wait for flags (freertos_stk.cpp:3047-3069, 3143-3187, cmsis_os2_stk.cpp:1361-1384, 1678-1694). -/
inductive FlagsWaiter where
  | xEventGroupWaitBits (bitsToWaitFor : BitVec 32) (clearOnExit waitForAllBits : Bool)
  | xEventGroupSync (bitsToWaitFor : BitVec 32)
  | osThreadFlagsWait (flags options : BitVec 32)
  | osEventFlagsWait (flags options : BitVec 32)
deriving DecidableEq

namespace FlagsWaiter

def api : FlagsWaiter → WrapperApi
  | .xEventGroupWaitBits _ _ _ | .xEventGroupSync _ => .freertos
  | .osThreadFlagsWait _ _ | .osEventFlagsWait _ _ => .cmsis

def flags : FlagsWaiter → BitVec 32
  | .xEventGroupWaitBits bitsToWaitFor _ _ => bitsToWaitFor
  | .xEventGroupSync bitsToWaitFor => bitsToWaitFor
  | .osThreadFlagsWait flags _ => flags
  | .osEventFlagsWait flags _ => flags

def options : FlagsWaiter → BitVec 32
  | .xEventGroupWaitBits _ clearOnExit waitForAllBits => buildStkFlagsOpts clearOnExit waitForAllBits
  | .xEventGroupSync _ => EventFlags.optWaitAll
  | .osThreadFlagsWait _ options => cmsisFlagsOptionsToStk options
  | .osEventFlagsWait _ options => cmsisFlagsOptionsToStk options

/-- `EventFlags::Wait` as the call makes it; `started` is the tick counter when it is read. -/
def op (c : FlagsWaiter) (ticks : UInt32) (started : ℤ) : FlagsOp :=
  .wait false c.flags c.options (c.api.timeoutToStk ticks) started

end FlagsWaiter

/-! ## Pools and mutexes -/

end Stk.Model
