import Stk.Model.SyncObject

/-!
# `stk::sync::Semaphore`

`Semaphore` (stk_sync_semaphore.h:55-181).  `TryWait` is `Wait` with `NO_WAIT`.
-/

set_option autoImplicit false

namespace Stk.Model

/-- `m_count` and `m_count_max`; the constructor has `initial_count <= max_count` as a precondition. -/
structure Semaphore where
  count : ℕ
  countMax : ℕ
deriving DecidableEq

inductive SemaphoreOp where
  | wait (timeout : ℤ)
  | signal
deriving DecidableEq

namespace Semaphore

/-- `Wait` (stk_sync_semaphore.h:130-159). -/
def wait (x : Semaphore) (timeout : ℤ) : CriticalSection Semaphore :=
  if x.count ≠ 0 then ⟨{ x with count := x.count - 1 }, .none, id, .returns (.bool true)⟩
  else if timeout ≠ 0 then ⟨x, .none, id, .waits timeout⟩
  else ⟨x, .none, id, .returns (.bool false)⟩

/-- `Signal` (stk_sync_semaphore.h:165-181); it asserts that the count is below the maximum. -/
def signal (x : Semaphore) (isEmpty : Bool) : Option (CriticalSection Semaphore) :=
  if isEmpty then
    if x.count < x.countMax then some ⟨{ x with count := x.count + 1 }, .none, id, .returns .void⟩
    else none
  else some ⟨x, .one, id, .returns .void⟩

end Semaphore

/-- A `Wait` that would block is not made in an interrupt handler. -/
instance : SyncObject Semaphore SemaphoreOp where
  method x isEmpty
    | .wait timeout => some (x.wait timeout)
    | .signal => x.signal isEmpty
  isrSafe _ := true
  removeWaitObject x _ := x

end Stk.Model
