import Stk.Model.MemoryAllocator
import Stk.Model.MessageQueue

/-!
# Creating queues and pools

`xQueueCreate` of the FreeRTOS wrapper, which takes its memory from `MemoryAllocator`, and `osMessageQueueNew`
and `osMemoryPoolNew` of the CMSIS wrapper, which take it from the caller, from `operator new` or from
`malloc`.  `size_t`, `uint32_t` and pointers have 32 bits.  `sizeof` of a control block, and what the
allocation functions that are not in the repository return, are parameters.
-/

set_option autoImplicit false

namespace Stk.Model

open BlockMemoryPool (word alignBlockSize)

/-- The members of a `MessageQueue` that its slot addresses come from (stk_sync_msgqueue.h:290-292). -/
structure QueueObject where
  buffer : ℕ
  capacity : ℕ
  msgSize : ℕ
deriving DecidableEq

/-- `Slot` (stk_sync_msgqueue.h:281). -/
def QueueObject.slot (q : QueueObject) (idx : ℕ) : ℕ := word 2 (q.buffer + word 2 (idx * q.msgSize))

/-- `MessageQueue::CAPACITY_MAX` (stk_sync_msgqueue.h:60). -/
def queueCapacityMax : ℕ := 0xFFFE

/-! ## FreeRTOS -/

/-- `ObjAllocArray<uint8_t>` (freertos_stk.cpp:162-169), where `malloc` returns `region`. -/
def objAllocArray (s : HeapInUse 2) (count region : ℕ) : ℕ × HeapInUse 2 :=
  if count = 0 then (0, s) else ((s.allocator.allocate count region).1, s.step (.allocate count region))

/-- `xQueueCreate` (freertos_stk.cpp:1658-1682), where `controlSize` is `sizeof(FrtosQueue)` and `malloc`
returns `controlRegion` for the control block and `bufferRegion` for the slots. -/
def xQueueCreate (s : HeapInUse 2) (irqContext : Bool) (controlSize controlRegion bufferRegion : ℕ)
    (queueLength itemSize : ℕ) : Option QueueObject × HeapInUse 2 :=
  if irqContext || queueLength == 0 || itemSize == 0 then (none, s)
  else if queueLength > queueCapacityMax then (none, s)
  else
    let q := (s.allocator.allocate controlSize controlRegion).1
    let s := s.step (.allocate controlSize controlRegion)
    if q = 0 then (none, s)
    else
      let (buffer, s) := objAllocArray s (word 2 (queueLength * itemSize)) bufferRegion
      -- `IsStorageValid` is false: `ObjFree(q)`
      if buffer = 0 then (none, s.step (.free q)) else (some ⟨buffer, queueLength, itemSize⟩, s)

/-! ## CMSIS -/

/-- The memory in `osMessageQueueAttr_t` and `osMemoryPoolAttr_t`; without attributes all of it is zero. -/
structure ObjectAttr where
  cbMem : ℕ
  cbSize : ℕ
  mem : ℕ
  memSize : ℕ
deriving DecidableEq

/-- A region of memory. -/
structure Region where
  base : ℕ
  size : ℕ
deriving DecidableEq

/-- `PlacementNewOrHeap` (cmsis_os2_stk.cpp:455-473) has memory for a control block of `controlSize` bytes:
that of the caller, or `operator new` finds some. -/
def hasControlBlock (attr : ObjectAttr) (controlSize : ℕ) (newSucceeds : Bool) : Bool :=
  (attr.cbMem != 0 && decide (controlSize ≤ attr.cbSize)) || newSucceeds

/-- `osMessageQueueNew` (cmsis_os2_stk.cpp:2198-2247), with the storage that the queue is given: that of the
caller, or the bytes asked of `operator new`, which returns `heap`. -/
def osMessageQueueNew (irqContext : Bool) (controlSize : ℕ) (newSucceeds : Bool) (heap : ℕ)
    (msgCount msgSize : ℕ) (attr : ObjectAttr) : Option (QueueObject × Region) :=
  if irqContext || msgCount == 0 || msgSize == 0 || decide (queueCapacityMax < msgCount) then none
  else
    let bufRequired := word 2 (msgCount * msgSize)
    if attr.mem ≠ 0 ∧ bufRequired ≤ attr.memSize then
      if hasControlBlock attr controlSize newSucceeds then
        some (⟨attr.mem, msgCount, msgSize⟩, ⟨attr.mem, attr.memSize⟩)
      else none
    else if hasControlBlock attr controlSize newSucceeds then
      -- `GetBuffer() == nullptr`: `ObjDestroy(mq)`
      if heap = 0 then none else some (⟨heap, msgCount, msgSize⟩, ⟨heap, word 2 (msgCount * msgSize)⟩)
    else none

/-- `osMemoryPoolNew` (cmsis_os2_stk.cpp:2000-2049), with the storage that the pool is given: that of the
caller, or the bytes asked of `malloc`, which returns `heap`; `AllocateArrayT` asks for none if there are
none. -/
def osMemoryPoolNew (irqContext : Bool) (controlSize : ℕ) (newSucceeds : Bool) (heap : ℕ) (memory : ℕ → ℕ)
    (blockCount blockSize : ℕ) (attr : ObjectAttr) : Option (BlockMemoryPool 2 × Region) :=
  if irqContext || blockCount == 0 || blockSize == 0 then none
  else
    let alignedBlk := alignBlockSize 2 blockSize
    let storageRequired := word 2 (blockCount * alignedBlk)
    if attr.mem ≠ 0 ∧ storageRequired ≤ attr.memSize then
      if hasControlBlock attr controlSize newSucceeds then
        let storageSize := word 2 (blockCount * alignBlockSize 2 blockSize)
        some (.external blockCount blockSize attr.mem storageSize memory, ⟨attr.mem, attr.memSize⟩)
      else none
    else if hasControlBlock attr controlSize newSucceeds then
      let count := word 2 (blockCount * alignBlockSize 2 blockSize)
      let storage := if count = 0 then 0 else heap
      -- `IsStorageValid` is false: `ObjDestroy(pool)`
      if storage = 0 then none
      else some (.owned blockCount blockSize storage memory, ⟨storage, count⟩)
    else none

end Stk.Model
