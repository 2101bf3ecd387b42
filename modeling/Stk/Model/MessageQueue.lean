import Mathlib.Data.Fintype.Pi
import Stk.Foundation.RingBuffer
import Stk.Model.KernelRun

/-!
# Message queues over the kernel

`sync::MessageQueue` (stk_sync_msgqueue.h) with its two condition variables
(stk_sync_cv.h), and the system of a kernel with one queue.  A call that blocks is several
events: `call` runs up to the spin inside `IKernelService::Wait`, each `resume` from the end of
that spin to the next one or to the return; each runs inside one critical section.  A call with
`NO_WAIT` may also come from an interrupt handler: `isr`.

The assertions of the queue are on null pointers and on the count, `m_count <= CAPACITY_MAX - 1`
at the entry of `Put` and `PutFront`; a release build compiles them out, and so does the model.
-/

set_option autoImplicit false

namespace Stk.Model

/-- The bytes of one message. -/
abbrev Message (msgSize : ℕ) := Fin msgSize → UInt8

/-- `MessageQueue` (stk_sync_msgqueue.h:281-306) with `capacity` slots of `msgSize` bytes. -/
structure MessageQueue (capacity msgSize : ℕ) where
  buffer : ℕ → UInt8
  count : ℕ
  head : ℕ
  tail : ℕ

namespace MessageQueue

variable {capacity msgSize : ℕ}

/-- The constructor (stk_sync_msgqueue.h:308-321). -/
def initial (buffer : ℕ → UInt8) : MessageQueue capacity msgSize :=
  ⟨buffer, 0, 0, 0⟩

/-- `Next` (stk_sync_msgqueue.h:288). -/
def next (_ : MessageQueue capacity msgSize) (idx : ℕ) : ℕ := (idx + 1) % capacity

/-- `Prev` (stk_sync_msgqueue.h:292). -/
def prev (_ : MessageQueue capacity msgSize) (idx : ℕ) : ℕ :=
  if idx = 0 then capacity - 1 else idx - 1

/-- `memcpy(msg_ptr, Slot(idx), m_msg_size)`; `Slot(idx)` starts at byte `idx * m_msg_size`
(stk_sync_msgqueue.h:285). -/
def readSlot (q : MessageQueue capacity msgSize) (idx : ℕ) : Message msgSize :=
  RingBuffer.cellAt msgSize q.buffer idx

/-- `memcpy(Slot(idx), msg_ptr, m_msg_size)`. -/
def writeSlot (q : MessageQueue capacity msgSize) (idx : ℕ) (msg : Message msgSize) :
    MessageQueue capacity msgSize :=
  { q with buffer := RingBuffer.copyTo q.buffer idx msg }

/-- `Put` once there is space (stk_sync_msgqueue.h:341-343). -/
def put (q : MessageQueue capacity msgSize) (msg : Message msgSize) :
    MessageQueue capacity msgSize :=
  let q := q.writeSlot q.head msg
  { q with head := q.next q.head, count := q.count + 1 }

/-- `PutFront` once there is space (stk_sync_msgqueue.h:376-378). -/
def putFront (q : MessageQueue capacity msgSize) (msg : Message msgSize) :
    MessageQueue capacity msgSize :=
  let q : MessageQueue capacity msgSize := { q with tail := q.prev q.tail }
  let q := q.writeSlot q.tail msg
  { q with count := q.count + 1 }

/-- `Get` once there is a message (stk_sync_msgqueue.h:408-410). -/
def get (q : MessageQueue capacity msgSize) : Message msgSize × MessageQueue capacity msgSize :=
  (q.readSlot q.tail, { q with tail := q.next q.tail, count := q.count - 1 })

/-- `Peek` once there is a message (stk_sync_msgqueue.h:442). -/
def peek (q : MessageQueue capacity msgSize) : Message msgSize := q.readSlot q.tail

/-- `PeekFront` once there is a message (stk_sync_msgqueue.h:474). -/
def peekFront (q : MessageQueue capacity msgSize) : Message msgSize := q.readSlot q.tail

/-- The indices after `Reset` (stk_sync_msgqueue.h:488-490). -/
def reset (q : MessageQueue capacity msgSize) : MessageQueue capacity msgSize :=
  { q with count := 0, head := 0, tail := 0 }

end MessageQueue

/-- The calls that may wait. -/
inductive QueueOp (msgSize : ℕ) where
  | put (msg : Message msgSize)
  | putFront (msg : Message msgSize)
  | get
  | peek
  | peekFront
deriving DecidableEq

/-- What such a call returns: its result and the message it copied out. -/
structure QueueReturn (msgSize : ℕ) where
  success : Bool
  msg : Option (Message msgSize)
deriving DecidableEq

/-- A call inside `Wait`. -/
structure QueueCall (msgSize : ℕ) where
  op : QueueOp msgSize
  timeout : ℤ
deriving DecidableEq

/-- `m_cv_not_empty` and `m_cv_not_full`; the other sync objects of the system have other
identities. -/
def cvNotEmpty : SyncId := .object 0
def cvNotFull : SyncId := .object 1

theorem cvNotEmpty_ne_cvNotFull : cvNotEmpty ≠ cvNotFull := by decide

namespace QueueOp

variable {capacity msgSize : ℕ}

/-- The condition of the call's wait loop. -/
def isBlocked (q : MessageQueue capacity msgSize) : QueueOp msgSize → Bool
  | .put _ | .putFront _ => decide (q.count = capacity)
  | .get | .peek | .peekFront => decide (q.count = 0)

/-- The condition variable the loop waits for. -/
def waitsFor : QueueOp msgSize → SyncId
  | .put _ | .putFront _ => cvNotFull
  | .get | .peek | .peekFront => cvNotEmpty

/-- The message copied out and the queue after the call. -/
def perform (q : MessageQueue capacity msgSize) :
    QueueOp msgSize → Option (Message msgSize) × MessageQueue capacity msgSize
  | .put msg => (none, q.put msg)
  | .putFront msg => (none, q.putFront msg)
  | .get => (some q.get.1, q.get.2)
  | .peek => (some q.peek, q)
  | .peekFront => (some q.peekFront, q)

/-- The notification at the end of the call; `Peek` and `PeekFront` have none. -/
def notify {n : ℕ} {σ : Type} (k : Kernel n σ) : QueueOp msgSize → Kernel n σ
  | .put _ | .putFront _ => k.wakeOne cvNotEmpty
  | .get => k.wakeOne cvNotFull
  | .peek | .peekFront => k

end QueueOp

/-- A kernel with a message queue. -/
structure QueueSystem (n capacity msgSize : ℕ) (σ : Type) where
  kernel : Kernel n σ
  queue : MessageQueue capacity msgSize
  pending : Fin n → Option (QueueCall msgSize)

/-- A call into the system. -/
inductive QueueEvent (n msgSize : ℕ) where
  | call (caller : Fin n) (op : QueueOp msgSize) (timeout : ℤ)
  | resume (caller : Fin n)
  | isr (op : QueueOp msgSize)
  | reset
  | kernel (event : KernelEvent n)
deriving DecidableEq

/-- The kernel calls that do not name the queue's condition variables. -/
def KernelEvent.isOutside {n : ℕ} : KernelEvent n → Bool
  | .wait _ o _ | .wakeOne o | .wakeAll o => decide (o ≠ cvNotEmpty) && decide (o ≠ cvNotFull)
  | _ => true

namespace QueueSystem

variable {n capacity msgSize : ℕ} {σ : Type} [SwitchStrategy (Fin n) σ]

def initial (buffer : ℕ → UInt8) : QueueSystem n capacity msgSize σ where
  kernel := Kernel.initial
  queue := MessageQueue.initial buffer
  pending := fun _ => none

/-- The part of a call behind its wait loop, if the loop is not entered. -/
def attempt (s : QueueSystem n capacity msgSize σ) (op : QueueOp msgSize) :
    Option (QueueSystem n capacity msgSize σ × QueueReturn msgSize) :=
  if op.isBlocked s.queue then none
  else
    let r := op.perform s.queue
    some ({ s with queue := r.2, kernel := op.notify s.kernel }, ⟨true, r.1⟩)

/-- A call of the task in slot `i` from the head of its wait loop, up to the spin or the
return. -/
def enter (cfg : Config) (s : QueueSystem n capacity msgSize σ) (i : Fin n) (op : QueueOp msgSize)
    (timeout : ℤ) : QueueSystem n capacity msgSize σ × Option (QueueReturn msgSize) :=
  match s.attempt op with
  | some (s, r) => (s, some r)
  | none =>
    -- `ConditionVariable::Wait` (stk_sync_cv.h:127-142)
    if timeout ≠ 0 then
      if cfg.isSyncMode then
        let k := s.kernel.onTaskWait i op.waitsFor timeout
        -- `SetupWait` refuses a task that is still linked to another sync object
        if (s.kernel.tasks i).isWaiting then ({ s with kernel := k }, none)
        else ({ s with kernel := k, pending := Function.update s.pending i (some ⟨op, timeout⟩) }, none)
      else (s, none)
    else (s, some ⟨false, none⟩)

/-- The rest of a call once `Wait` has returned `result`. -/
def resume (cfg : Config) (s : QueueSystem n capacity msgSize σ) (i : Fin n) (c : QueueCall msgSize)
    (result : WaitResult) : QueueSystem n capacity msgSize σ × Option (QueueReturn msgSize) :=
  let k := { s.kernel with call := Function.update s.kernel.call i none }
  let s := { s with kernel := k, pending := Function.update s.pending i none }
  match result with
  | .timeout => (s, some ⟨false, none⟩)
  | .signal => s.enter cfg i c.op c.timeout

/-- `Reset` (stk_sync_msgqueue.h:484-494). -/
def reset (s : QueueSystem n capacity msgSize σ) : QueueSystem n capacity msgSize σ :=
  { s with queue := s.queue.reset, kernel := s.kernel.wakeAll cvNotFull }

/-- One call into the system, with what a queue call that ends in it returns. -/
def stepResult (cfg : Config) (s : QueueSystem n capacity msgSize σ) :
    QueueEvent n msgSize → QueueSystem n capacity msgSize σ × Option (QueueReturn msgSize)
  | .call i op timeout =>
    if s.kernel.canCall i && decide (timeout ≤ waitInfinite) then s.enter cfg i op timeout
    else (s, none)
  | .resume i =>
    match s.pending i, s.kernel.waitResult i with
    | some c, some result => s.resume cfg i c result
    | _, _ => (s, none)
  | .isr op =>
    match s.attempt op with
    | some (s, r) => (s, some r)
    | none => (s, some ⟨false, none⟩)
  | .reset => (s.reset, none)
  | .kernel (.waitReturn i) =>
    if s.pending i = none then ({ s with kernel := s.kernel.step cfg (.waitReturn i) }, none)
    else (s, none)
  | .kernel e => if e.isOutside then ({ s with kernel := s.kernel.step cfg e }, none) else (s, none)

def step (cfg : Config) (s : QueueSystem n capacity msgSize σ) (e : QueueEvent n msgSize) :
    QueueSystem n capacity msgSize σ :=
  (s.stepResult cfg e).1

/-- The system after a sequence of calls. -/
def run (cfg : Config) (buffer : ℕ → UInt8) (es : List (QueueEvent n msgSize)) :
    QueueSystem n capacity msgSize σ :=
  es.foldl (step cfg) (initial buffer)

end QueueSystem

end Stk.Model
