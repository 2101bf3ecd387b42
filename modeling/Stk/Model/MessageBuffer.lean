import Stk.Model.BlockMemoryPool

/-!
# Message buffers of the FreeRTOS interface

`FrtosMessageBuffer` (freertos_stk.cpp:979-1042): a pool with a block for the payload of each message, and a
queue of envelopes that point to the blocks.  A call of the pool or of the queue is one step, and so is each
copy of a payload; a call of `TimedAlloc` or of `Get` that waits is a step at the time it goes on.  The queue is
a list with a capacity, which `MessageQueue` refines.  The assertions are those of a release build: compiled
out.
-/

set_option autoImplicit false

namespace Stk.Model

/-- `FrtosMessageBuffer::MsgEnvelope`. -/
structure MsgEnvelope where
  len : ℕ
  blk : ℕ
deriving DecidableEq

/-- `FrtosMessageBuffer`; `capacity` is that of `m_eq`. -/
structure FrtosMessageBuffer (p : ℕ) where
  pool : PoolInUse p
  eq : List MsgEnvelope
  capacity : ℕ
  maxMsgSize : ℕ

/-- Where a call is, and the locals it has. -/
inductive BufferCall where
  /-- `xMessageBufferSend`, with a block to copy the data to. -/
  | allocated (data : List UInt8) (blk : ℕ)
  /-- It is about to call `Put`. -/
  | filled (data : List UInt8) (blk : ℕ)
  /-- `Put` has failed, and it is about to free the block. -/
  | unsent (blk : ℕ)
  /-- `xMessageBufferReceive`, with an envelope whose message fits. -/
  | accepted (env : MsgEnvelope)
  /-- It has copied the message, and is about to free the block. -/
  | copied (data : List UInt8) (blk : ℕ)
  /-- It is about to put back an envelope whose message does not fit. -/
  | rejected (fromIsr : Bool) (env : MsgEnvelope)
  /-- `xMessageBufferReset`, about to call `TryGet`. -/
  | draining
  /-- It is about to free the block. -/
  | drained (blk : ℕ)
  /-- It is about to call `m_eq.Reset()`. -/
  | resetting
deriving DecidableEq

/-- A message buffer and the calls of the tasks and interrupt handlers `ι`. -/
structure BufferSystem (p : ℕ) (ι : Type) where
  buffer : FrtosMessageBuffer p
  calls : ι → Option BufferCall

inductive BufferEvent (ι : Type) where
  /-- `xMessageBufferSend` or `xMessageBufferSendFromISR`, up to `TimedAlloc`. -/
  | send (i : ι) (data : List UInt8)
  /-- `xMessageBufferReceive` or `xMessageBufferReceiveFromISR`, up to `Get`. -/
  | receive (i : ι) (fromIsr : Bool) (bufferLength : ℕ)
  /-- `xMessageBufferReset` or `xMessageBufferResetFromISR`. -/
  | reset (i : ι)
  /-- A call goes on to its next step. -/
  | proceed (i : ι)
deriving DecidableEq

namespace FrtosMessageBuffer

variable {p : ℕ}

/-- The heap constructor; the pool has allocated its blocks at `storage`. -/
def heap (maxMsgSize msgCount storage : ℕ) (memory : ℕ → ℕ) : FrtosMessageBuffer p :=
  ⟨⟨.owned msgCount (BlockMemoryPool.alignBlockSize p maxMsgSize) storage memory, []⟩, [], msgCount, maxMsgSize⟩

/-- The static constructor. -/
def static (maxMsgSize msgCount storage : ℕ) (memory : ℕ → ℕ) : FrtosMessageBuffer p :=
  let blockSize := BlockMemoryPool.alignBlockSize p maxMsgSize
  ⟨⟨.external msgCount blockSize storage (BlockMemoryPool.word p (msgCount * blockSize)) memory, []⟩, [], msgCount,
    maxMsgSize⟩

/-- `STK_MEMCPY(blk, data, len)`. -/
def copyIn (m : FrtosMessageBuffer p) (blk : ℕ) (data : List UInt8) : FrtosMessageBuffer p :=
  let memory := fun a =>
    if blk ≤ a then
      match data[a - blk]? with
      | some byte => byte.toNat
      | none => m.pool.pool.memory a
    else m.pool.pool.memory a
  { m with pool := { m.pool with pool := { m.pool.pool with memory := memory } } }

/-- What `STK_MEMCPY(pvRxData, env.blk, env.len)` copies. -/
def payload (m : FrtosMessageBuffer p) (env : MsgEnvelope) : List UInt8 :=
  (List.range env.len).map fun j => UInt8.ofNat (m.pool.pool.memory (env.blk + j))

/-- `m_pool.TimedAlloc` once it does not wait any more; 0 is the null pointer. -/
def alloc (m : FrtosMessageBuffer p) : FrtosMessageBuffer p × ℕ :=
  let t := m.pool.call (.alloc false 0)
  ({ m with pool := t.state },
    match t.next with
    | .done (.block blk) => blk
    | _ => 0)

/-- `m_pool.Free(blk)`. -/
def free (m : FrtosMessageBuffer p) (blk : ℕ) : FrtosMessageBuffer p :=
  { m with pool := (m.pool.call (.free blk)).state }

/-- `m_eq.TryPut(&env)`, and `Put` with `NO_WAIT`. -/
def tryPut (m : FrtosMessageBuffer p) (env : MsgEnvelope) : FrtosMessageBuffer p × Bool :=
  if m.eq.length < m.capacity then ({ m with eq := m.eq ++ [env] }, true) else (m, false)

/-- `m_eq.TryPutFront(&env)`. -/
def tryPutFront (m : FrtosMessageBuffer p) (env : MsgEnvelope) : FrtosMessageBuffer p × Bool :=
  if m.eq.length < m.capacity then ({ m with eq := env :: m.eq }, true) else (m, false)

end FrtosMessageBuffer

namespace BufferSystem

variable {p : ℕ} {ι : Type} [DecidableEq ι]

def initial (m : FrtosMessageBuffer p) : BufferSystem p ι := ⟨m, fun _ => none⟩

/-- The caller `i` has done its step to the buffer, and is where `call` says. -/
def goto (s : BufferSystem p ι) (i : ι) (m : FrtosMessageBuffer p) (call : Option BufferCall) : BufferSystem p ι :=
  ⟨m, Function.update s.calls i call⟩

/-- The send up to `TimedAlloc`. -/
def send (s : BufferSystem p ι) (i : ι) (data : List UInt8) : BufferSystem p ι :=
  if data.length = 0 ∨ s.buffer.maxMsgSize < data.length then s
  else
    let r := s.buffer.alloc
    if r.2 = 0 then s.goto i r.1 none else s.goto i r.1 (some (.allocated data r.2))

/-- The receive up to `Get`, and its test of the capacity. -/
def receive (s : BufferSystem p ι) (i : ι) (fromIsr : Bool) (bufferLength : ℕ) : BufferSystem p ι :=
  if bufferLength = 0 then s
  else
    match s.buffer.eq with
    | [] => s
    | env :: rest =>
      s.goto i { s.buffer with eq := rest }
        (some (if bufferLength < env.len then .rejected fromIsr env else .accepted env))

/-- The next step of a call. -/
def proceed (s : BufferSystem p ι) (i : ι) : BufferCall → BufferSystem p ι
  | .allocated data blk => s.goto i (s.buffer.copyIn blk data) (some (.filled data blk))
  | .filled data blk =>
    let r := s.buffer.tryPut ⟨data.length, blk⟩
    s.goto i r.1 (if r.2 then none else some (.unsent blk))
  | .unsent blk => s.goto i (s.buffer.free blk) none
  | .accepted env => s.goto i s.buffer (some (.copied (s.buffer.payload env) env.blk))
  | .copied _ blk => s.goto i (s.buffer.free blk) none
  | .rejected fromIsr env =>
    s.goto i (if fromIsr then s.buffer.tryPutFront env else s.buffer.tryPut env).1 none
  | .draining =>
    match s.buffer.eq with
    | [] => s.goto i s.buffer (some .resetting)
    | env :: rest =>
      s.goto i { s.buffer with eq := rest } (some (if env.blk ≠ 0 then .drained env.blk else .draining))
  | .drained blk => s.goto i (s.buffer.free blk) (some .draining)
  | .resetting => s.goto i { s.buffer with eq := [] } none

/-- One step; a caller in a call makes no other. -/
def step (s : BufferSystem p ι) : BufferEvent ι → BufferSystem p ι
  | .send i data => if s.calls i = none then s.send i data else s
  | .receive i fromIsr bufferLength => if s.calls i = none then s.receive i fromIsr bufferLength else s
  | .reset i => if s.calls i = none then s.goto i s.buffer (some .draining) else s
  | .proceed i =>
    match s.calls i with
    | some call => s.proceed i call
    | none => s

def run (m : FrtosMessageBuffer p) (es : List (BufferEvent ι)) : BufferSystem p ι := es.foldl step (initial m)

end BufferSystem

end Stk.Model
