import Stk.Foundation.Linearization
import Stk.Model.MessageQueue

/-!
# Overwriting a queue of length one

`xQueueOverwrite` and `xQueueOverwriteFromISR` (freertos_stk.cpp:1851-1885) over `MessageQueue`: a
`Reset` and a `TryPut` whose result is ignored, two critical sections with anything in between.  The
queue is in no queue set; its callers overwrite, peek without a wait and send.  The history of the
calls that have returned is a record for the proofs: no call reads it.
-/

set_option autoImplicit false

namespace Stk.Model

open Linearization

/-- What a peek without a wait finds. -/
def MessageQueue.front {capacity msgSize : ℕ} (q : MessageQueue capacity msgSize) : Option (Message msgSize) :=
  if q.count = 0 then none else some q.peek

/-- A task, or an interrupt handler. -/
inductive QueueUser (n : ℕ) where
  | task (i : Fin n)
  | handler (id : ℕ)
deriving DecidableEq

/-- A call that has returned, a send if it has put its item; a peek with what it has found. -/
inductive MailboxOp (msgSize : ℕ) where
  | overwrite (item : Message msgSize)
  | send (item : Message msgSize)
  | peek (found : Option (Message msgSize))
deriving DecidableEq

/-- A kernel with a queue of length one. -/
structure Mailbox (n msgSize : ℕ) (σ : Type) where
  system : QueueSystem n 1 msgSize σ
  /-- The overwrites between `Reset` and `TryPut`: the step of the `Reset`, and the item. -/
  overwriting : QueueUser n → Option (ℕ × Message msgSize)
  /-- The number of steps so far. -/
  clock : ℕ
  /-- The step at which a task last called `xQueueSend`. -/
  sendingSince : Fin n → ℕ
  history : List (Interval (MailboxOp msgSize))

inductive MailboxEvent (n msgSize : ℕ) where
  /-- An overwrite up to the end of its `Reset`. -/
  | reset (user : QueueUser n) (item : Message msgSize)
  /-- The rest of the overwrite. -/
  | tryPut (user : QueueUser n)
  /-- `xQueuePeek` without a wait, or `xQueuePeekFromISR`. -/
  | peek (user : QueueUser n)
  /-- `xQueueSend`, with the timeout in ticks of the kernel. -/
  | send (caller : Fin n) (item : Message msgSize) (timeout : ℤ)
  /-- A send goes on after its wait. -/
  | resume (caller : Fin n)
  | kernel (event : KernelEvent n)
deriving DecidableEq

namespace MailboxOp

variable {msgSize : ℕ}

/-- The call as one step of a mailbox with at most one item: a send needs it empty. -/
def apply (box : Option (Message msgSize)) : MailboxOp msgSize → Option (Option (Message msgSize))
  | .overwrite item => some (some item)
  | .send item => if box = none then some (some item) else none
  | .peek found => if found = box then some box else none

/-- The call has stored an item. -/
def stores : MailboxOp msgSize → Bool
  | .overwrite _ | .send _ => true
  | .peek _ => false

def isOverwrite : MailboxOp msgSize → Bool
  | .overwrite _ => true
  | .send _ | .peek _ => false

end MailboxOp

namespace Mailbox

variable {n msgSize : ℕ} {σ : Type} [SwitchStrategy (Fin n) σ]

def initial (buffer : ℕ → UInt8) : Mailbox n msgSize σ where
  system := QueueSystem.initial buffer
  overwriting := fun _ => none
  clock := 0
  sendingSince := fun _ => 0
  history := []

/-- The item in the queue. -/
def box (s : Mailbox n msgSize σ) : Option (Message msgSize) := s.system.queue.front

/-- The user runs: a task that is not inside a wait, or a handler. -/
def canCall (s : Mailbox n msgSize σ) : QueueUser n → Bool
  | .task i => s.system.kernel.canCall i
  | .handler _ => true

/-- The user runs, and is not in the middle of an overwrite. -/
def isFree (s : Mailbox n msgSize σ) (user : QueueUser n) : Bool :=
  s.canCall user && decide (s.overwriting user = none)

/-- A call of the user with `NO_WAIT`. -/
def tryCall (user : QueueUser n) (op : QueueOp msgSize) : QueueEvent n msgSize :=
  match user with
  | .task i => .call i op 0
  | .handler _ => .isr op

/-- The call has returned. -/
def record (s : Mailbox n msgSize σ) (start : ℕ) (op : MailboxOp msgSize) : Mailbox n msgSize σ :=
  { s with history := s.history ++ [⟨start, s.clock, op⟩] }

/-- A send has run up to its wait or to its end. -/
def afterSend (s : Mailbox n msgSize σ) (start : ℕ) (item : Message msgSize)
    (r : QueueSystem n 1 msgSize σ × Option (QueueReturn msgSize)) : Mailbox n msgSize σ :=
  let s' := { s with system := r.1 }
  match r.2 with
  | some ⟨true, _⟩ => s'.record start (.send item)
  | _ => s'

/-- One step, but for the clock. -/
def act (cfg : Config) (s : Mailbox n msgSize σ) : MailboxEvent n msgSize → Mailbox n msgSize σ
  | .reset user item =>
    if s.isFree user then
      { s with
        system := s.system.step cfg .reset
        overwriting := Function.update s.overwriting user (some (s.clock, item)) }
    else s
  | .tryPut user =>
    match s.overwriting user with
    | some (start, item) =>
      if s.canCall user then
        -- the result of `TryPut` is ignored, and the overwrite returns `pdPASS`
        let s := s.record start (.overwrite item)
        { s with
          system := s.system.step cfg (tryCall user (.put item))
          overwriting := Function.update s.overwriting user none }
      else s
    | none => s
  | .peek user =>
    if s.isFree user then
      match s.system.stepResult cfg (tryCall user .peek) with
      | (system, some r) => { s with system := system }.record s.clock (.peek r.msg)
      | (system, none) => { s with system := system }
    else s
  | .send i item timeout =>
    if s.isFree (.task i) then
      let s := { s with sendingSince := Function.update s.sendingSince i s.clock }
      s.afterSend s.clock item (s.system.stepResult cfg (.call i (.put item) timeout))
    else s
  | .resume i =>
    match s.system.pending i with
    | some ⟨.put item, _⟩ => s.afterSend (s.sendingSince i) item (s.system.stepResult cfg (.resume i))
    -- a task waits in no other call of the queue
    | _ => s
  | .kernel e => { s with system := s.system.step cfg (.kernel e) }

def step (cfg : Config) (s : Mailbox n msgSize σ) (e : MailboxEvent n msgSize) : Mailbox n msgSize σ :=
  { s.act cfg e with clock := s.clock + 1 }

/-- The mailbox after a sequence of steps. -/
def run (cfg : Config) (buffer : ℕ → UInt8) (es : List (MailboxEvent n msgSize)) : Mailbox n msgSize σ :=
  es.foldl (step cfg) (initial buffer)

end Mailbox

end Stk.Model
