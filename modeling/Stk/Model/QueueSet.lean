import Stk.Model.Semaphore

/-!
# Queue sets of the FreeRTOS interface

`FrtosQueueSet` (freertos_stk.cpp:681-715): a queue of the handles of the members that have got an item.  A send
or give stores its item in one critical section and posts the handle in another (`QueueSetNotify`), and a
selection is followed by the receive on the handle that it has got.  The queues are lists with a capacity, which
`MessageQueue` refines; a caller that waits in one of them tests again at any time and gives up at any time.
The assertions are those of a release build: compiled out.
-/

set_option autoImplicit false

namespace Stk.Model

/-- `FrtosQueue`: the messages of `m_mq`, the next one to be got first. -/
structure FrtosQueue (α : Type) where
  items : List α
  capacity : ℕ
deriving DecidableEq

/-- A member of a set: a `FrtosQueue`, or `m_sem` of a `FrtosSemaphore`, which is not a mutex. -/
inductive SetMember (α : Type) where
  | queue (q : FrtosQueue α)
  | semaphore (sem : Semaphore)
deriving DecidableEq

/-- Where a call is. -/
inductive SetCall (μ α : Type) where
  /-- `xQueueSend` or `xQueueSendToFront`, waiting in `Put` or `PutFront`. -/
  | putting (handle : μ) (item : α) (front : Bool)
  /-- `xSemaphoreGive`, about to call `Signal`. -/
  | giving (handle : μ)
  /-- It has stored its item, and is about to call `QueueSetNotify`. -/
  | notifying (handle : μ)
  /-- `xQueueSelectFromSet`, waiting in `Get`. -/
  | selecting
  /-- It has selected a member, and is about to receive from it. -/
  | selected (handle : μ)
deriving DecidableEq

/-- A queue set with its members `μ`, and the calls of the tasks and interrupt handlers `ι`. -/
structure QueueSetSystem (μ α ι : Type) where
  member : μ → SetMember α
  tokens : List μ
  eventQueueLength : ℕ
  calls : ι → Option (SetCall μ α)

inductive QueueSetEvent (μ α ι : Type) where
  /-- `xQueueSend`, `xQueueSendToFront` or `xQueueSendFromISR`; `waits` is `xTicksToWait != 0`. -/
  | send (i : ι) (handle : μ) (item : α) (front waits : Bool)
  /-- `xSemaphoreGive` or `xSemaphoreGiveFromISR`, up to its test of `GetCount`. -/
  | give (i : ι) (handle : μ)
  /-- `xQueueSelectFromSet` or `xQueueSelectFromSetFromISR`. -/
  | select (i : ι) (waits : Bool)
  /-- A call goes on to its next step. -/
  | proceed (i : ι)
  /-- The wait of a call runs out. -/
  | expire (i : ι)
deriving DecidableEq

/-- What a receive returns: `pdPASS`, and the message copied to `pvBuffer`. -/
structure ReceiveReturn (α : Type) where
  success : Bool
  item : Option α
deriving DecidableEq

namespace SetMember

variable {α : Type}

/-- The items that a member has. -/
def itemCount : SetMember α → ℕ
  | .queue q => q.items.length
  | .semaphore sem => sem.count

/-- The capacity of a queue, the maximum count of a semaphore. -/
def capacity : SetMember α → ℕ
  | .queue q => q.capacity
  | .semaphore sem => sem.countMax

/-- `Put` or `PutFront`, if there is space. -/
def put (x : SetMember α) (item : α) (front : Bool) : Option (SetMember α) :=
  match x with
  | .queue q =>
    if q.items.length = q.capacity then none
    else some (.queue { q with items := if front then item :: q.items else q.items ++ [item] })
  | .semaphore _ => none

/-- `xQueueReceive` or `xSemaphoreTake` without a wait. -/
def receive : SetMember α → SetMember α × ReceiveReturn α
  | .queue q =>
    match q.items with
    | [] => (.queue q, ⟨false, none⟩)
    | item :: items => (.queue { q with items := items }, ⟨true, some item⟩)
  | .semaphore sem => (.semaphore (sem.wait 0).state, ⟨decide (sem.count ≠ 0), none⟩)

end SetMember

namespace QueueSetSystem

variable {μ α ι : Type} [DecidableEq μ] [DecidableEq ι]

def initial (member : μ → SetMember α) (eventQueueLength : ℕ) : QueueSetSystem μ α ι :=
  ⟨member, [], eventQueueLength, fun _ => none⟩

/-- The caller `i` is where `call` says. -/
def goto (s : QueueSetSystem μ α ι) (i : ι) (call : Option (SetCall μ α)) : QueueSetSystem μ α ι :=
  { s with calls := Function.update s.calls i call }

def setMember (s : QueueSetSystem μ α ι) (handle : μ) (x : SetMember α) : QueueSetSystem μ α ι :=
  { s with member := Function.update s.member handle x }

/-- `Put` or `PutFront` from the head of its loop. -/
def put (s : QueueSetSystem μ α ι) (i : ι) (handle : μ) (item : α) (front waits : Bool) : QueueSetSystem μ α ι :=
  match (s.member handle).put item front with
  | some x => (s.setMember handle x).goto i (some (.notifying handle))
  | none => s.goto i (if waits then some (.putting handle item front) else none)

/-- `m_sem->Signal()`; nobody waits for the semaphore, since it is taken without a wait only. -/
def signal (s : QueueSetSystem μ α ι) (i : ι) (handle : μ) : QueueSetSystem μ α ι :=
  match s.member handle with
  | .semaphore sem =>
    let sem := match sem.signal true with
      | some cs => cs.state
      | none => { sem with count := (sem.count + 1) % 2 ^ 16 }
    (s.setMember handle (.semaphore sem)).goto i (some (.notifying handle))
  -- only a semaphore is given
  | .queue _ => s

/-- `Get` of the tokens from the head of its loop. -/
def get (s : QueueSetSystem μ α ι) (i : ι) (waits : Bool) : QueueSetSystem μ α ι :=
  match s.tokens with
  | handle :: tokens => { s with tokens := tokens }.goto i (some (.selected handle))
  | [] => s.goto i (if waits then some .selecting else none)

/-- `QueueSetNotify`: `m_token_mq->TryPut(&member_handle)`. -/
def queueSetNotify (s : QueueSetSystem μ α ι) (handle : μ) : QueueSetSystem μ α ι :=
  if s.tokens.length < s.eventQueueLength then { s with tokens := s.tokens ++ [handle] } else s

/-- The next step of a call. -/
def proceed (s : QueueSetSystem μ α ι) (i : ι) : SetCall μ α → QueueSetSystem μ α ι
  | .putting handle item front => s.put i handle item front true
  | .giving handle => s.signal i handle
  | .notifying handle => (s.queueSetNotify handle).goto i none
  | .selecting => s.get i true
  | .selected handle => (s.setMember handle (s.member handle).receive.1).goto i none

/-- One step; a caller in a call makes no other.  A handle of a queue is sent to, and one of a semaphore
given. -/
def step (s : QueueSetSystem μ α ι) : QueueSetEvent μ α ι → QueueSetSystem μ α ι
  | .send i handle item front waits =>
    match s.calls i, s.member handle with
    | none, .queue _ => s.put i handle item front waits
    | _, _ => s
  | .give i handle =>
    match s.calls i, s.member handle with
    -- `COUNT_MAX` (stk_sync_semaphore.h:60)
    | none, .semaphore sem => if 0xFFFE ≤ sem.count then s else s.goto i (some (.giving handle))
    | _, _ => s
  | .select i waits =>
    match s.calls i with
    | none => s.get i waits
    | _ => s
  | .proceed i =>
    match s.calls i with
    | some call => s.proceed i call
    | none => s
  | .expire i =>
    match s.calls i with
    | some (.putting _ _ _) | some .selecting => s.goto i none
    | _ => s

def run (member : μ → SetMember α) (eventQueueLength : ℕ) (es : List (QueueSetEvent μ α ι)) :
    QueueSetSystem μ α ι :=
  es.foldl step (initial member eventQueueLength)

end QueueSetSystem

end Stk.Model
