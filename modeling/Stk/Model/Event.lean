import Stk.Model.SyncObject

/-!
# `stk::sync::Event`

`Event` (stk_sync_event.h:61-300).  The event of an auto-reset object is reset where the wait object
of the woken task is removed from the wait list.
-/

set_option autoImplicit false

namespace Stk.Model

/-- `m_manual_reset` and `m_signaled`. -/
structure Event where
  manualReset : Bool
  signaled : Bool
deriving DecidableEq

inductive EventOp where
  | set
  | reset
  | pulse
  | wait (timeout : ℤ)
  | tryWait
deriving DecidableEq

namespace Event

/-- `Set` (stk_sync_event.h:147-171). -/
def set (x : Event) : CriticalSection Event :=
  if x.signaled then ⟨x, .none, id, .returns (.bool false)⟩
  else
    ⟨{ x with signaled := true }, if x.manualReset then .all else .one, id, .returns (.bool true)⟩

/-- `Reset` (stk_sync_event.h:177-187). -/
def reset (x : Event) : CriticalSection Event :=
  ⟨{ x with signaled := false }, .none, id, .returns (.bool x.signaled)⟩

/-- `Pulse` (stk_sync_event.h:193-220). -/
def pulse (x : Event) (isEmpty : Bool) : CriticalSection Event :=
  ⟨{ x with signaled := true },
    if !isEmpty then (if x.manualReset then .all else .one) else .none,
    fun x => { x with signaled := false }, .returns .void⟩

/-- `Wait` (stk_sync_event.h:226-256). -/
def wait (x : Event) (timeout : ℤ) : CriticalSection Event :=
  if x.signaled then
    ⟨if !x.manualReset then { x with signaled := false } else x, .none, id, .returns (.bool true)⟩
  else if timeout ≠ 0 then ⟨x, .none, id, .waits timeout⟩
  else ⟨x, .none, id, .returns (.bool false)⟩

/-- `TryWait` (stk_sync_event.h:262-279). -/
def tryWait (x : Event) : CriticalSection Event :=
  if x.signaled then
    ⟨if !x.manualReset then { x with signaled := false } else x, .none, id, .returns (.bool true)⟩
  else ⟨x, .none, id, .returns (.bool false)⟩

/-- The override of `RemoveWaitObject` (stk_sync_event.h:285-300). -/
def removeWaitObject (x : Event) (isTimeout : Bool) : Event :=
  if !x.manualReset && x.signaled then
    if !isTimeout then { x with signaled := false } else x
  else x

end Event

/-- `Wait` asserts that it is not called by an interrupt handler. -/
instance : SyncObject Event EventOp where
  method x isEmpty
    | .set => some x.set
    | .reset => some x.reset
    | .pulse => some (x.pulse isEmpty)
    | .wait timeout => some (x.wait timeout)
    | .tryWait => some x.tryWait
  isrSafe
    | .wait _ => false
    | _ => true
  removeWaitObject := Event.removeWaitObject

end Stk.Model
