import Mathlib.Data.Nat.Notation
import Mathlib.Logic.Function.Basic

/-!
# Recursive spin lock

`sync::SpinLock` (stk_sync_spinlock.h).  Tasks run it at the same time: each read and each write of
`m_owner_tid` and `m_recursion_count` is a step of its own, and a task remembers its place in the code
between them.  The low-level lock `m_lock` is taken and released in one step each.
-/

set_option autoImplicit false

namespace Stk.Model

/-- `SpinLock` (stk_sync_spinlock.h:102-104); `isLocked` is the state of `m_lock`. -/
structure SpinLock (τ : Type) where
  owner : Option τ
  recursionCount : ℕ
  isLocked : Bool
deriving DecidableEq

inductive SpinOp where
  | lock
  | tryLock
  | unlock
deriving DecidableEq

inductive SpinReturn where
  | lock
  | tryLock (success : Bool)
  | unlock
deriving DecidableEq

/-- The failed assertions and the kernel panic. -/
inductive SpinFault where
  | recursionMax
  | notOwner
  | notLocked
  | panic
deriving DecidableEq

/-- Where a task stands; `tries` is set inside `TryLock` and not set inside `Lock`. -/
inductive SpinPoint where
  | idle
  -- `LockRecursively` (stk_sync_spinlock.h:171-183)
  | ownerCheck (tries : Bool)
  | countCheck (tries : Bool)
  | maxAssert (tries : Bool)
  | countRead (tries : Bool)
  | countWrite (tries : Bool) (count : ℕ)
  -- `m_lock.Lock()` or `m_lock.TryLock()` (stk_sync_spinlock.h:118, 135)
  | lowLock (tries : Bool)
  -- `MakeLocked` (stk_sync_spinlock.h:190-202)
  | ownerPanic (tries : Bool)
  | countPanic (tries : Bool)
  | ownerSet (tries : Bool)
  | countSet (tries : Bool)
  -- `Unlock` (stk_sync_spinlock.h:152-165)
  | ownerAssert
  | countAssert
  | countReadDown
  | countWriteDown (count : ℕ)
  | ownerClear
  | lowUnlock
deriving DecidableEq

/-- One step of a task: where it stands then, the lock, what its call returns and what fails. -/
structure SpinStep (τ : Type) where
  point : SpinPoint
  lock : SpinLock τ
  result : Option SpinReturn
  fault : Option SpinFault

namespace SpinLock

variable {τ : Type} [DecidableEq τ]

/-- The maximum nesting depth (stk_sync_spinlock.h:100). -/
def recursionMax : ℕ := 0xFFFE

/-- The constructor (stk_sync_spinlock.h:58). -/
def initial : SpinLock τ := ⟨none, 0, false⟩

def acquired (tries : Bool) : SpinReturn := if tries then .tryLock true else .lock

/-- An increment of `uint16_t`. -/
def up (count : ℕ) : ℕ := (count + 1) % 65536

/-- A decrement of `uint16_t`. -/
def down (count : ℕ) : ℕ := (count + 65535) % 65536

/-- The first step of a call. -/
def enter : SpinOp → SpinPoint
  | .lock => .ownerCheck false
  | .tryLock => .ownerCheck true
  | .unlock => .ownerAssert

/-- The next step of task `t`.  A task that panics does not go on, a failed assertion lets it go on. -/
def advance (t : τ) (m : SpinLock τ) : SpinPoint → SpinStep τ
  | .idle => ⟨.idle, m, none, none⟩
  | .ownerCheck tries => ⟨if m.owner = some t then .countCheck tries else .lowLock tries, m, none, none⟩
  | .countCheck tries => ⟨if m.recursionCount ≠ 0 then .maxAssert tries else .lowLock tries, m, none, none⟩
  | .maxAssert tries =>
    ⟨.countRead tries, m, none, if m.recursionCount < recursionMax then none else some .recursionMax⟩
  | .countRead tries => ⟨.countWrite tries m.recursionCount, m, none, none⟩
  | .countWrite tries count => ⟨.idle, { m with recursionCount := up count }, some (acquired tries), none⟩
  | .lowLock tries =>
    if m.isLocked then
      if tries then ⟨.idle, m, some (.tryLock false), none⟩ else ⟨.lowLock tries, m, none, none⟩
    else ⟨.ownerPanic tries, { m with isLocked := true }, none, none⟩
  | .ownerPanic tries =>
    if m.owner ≠ none then ⟨.ownerPanic tries, m, none, some .panic⟩ else ⟨.countPanic tries, m, none, none⟩
  | .countPanic tries =>
    if m.recursionCount ≠ 0 then ⟨.countPanic tries, m, none, some .panic⟩
    else ⟨.ownerSet tries, m, none, none⟩
  | .ownerSet tries => ⟨.countSet tries, { m with owner := some t }, none, none⟩
  | .countSet tries => ⟨.idle, { m with recursionCount := 1 }, some (acquired tries), none⟩
  | .ownerAssert => ⟨.countAssert, m, none, if m.owner = some t then none else some .notOwner⟩
  | .countAssert => ⟨.countReadDown, m, none, if m.recursionCount ≠ 0 then none else some .notLocked⟩
  | .countReadDown => ⟨.countWriteDown m.recursionCount, m, none, none⟩
  | .countWriteDown count =>
    let m := { m with recursionCount := down count }
    if down count = 0 then ⟨.ownerClear, m, none, none⟩ else ⟨.idle, m, some .unlock, none⟩
  | .ownerClear => ⟨.lowUnlock, { m with owner := none }, none, none⟩
  | .lowUnlock => ⟨.idle, { m with isLocked := false }, some .unlock, none⟩

end SpinLock

/-! ## Tasks -/

/-- A spin lock and its tasks; `held t` counts the acquisitions of task `t` that have returned, less the
calls of `Unlock` that have. -/
structure SpinSystem (τ : Type) where
  lock : SpinLock τ
  point : τ → SpinPoint
  held : τ → ℕ
  faults : List SpinFault

inductive SpinEvent (τ : Type) where
  | call (t : τ) (op : SpinOp)
  | run (t : τ)
deriving DecidableEq

/-- The task of an event. -/
def SpinEvent.task {τ : Type} : SpinEvent τ → τ
  | .call t _ => t
  | .run t => t

namespace SpinSystem

variable {τ : Type} [DecidableEq τ]

def initial : SpinSystem τ := ⟨.initial, fun _ => .idle, fun _ => 0, []⟩

/-- The acquisitions that a task holds after a return. -/
def heldAfter (held : ℕ) : Option SpinReturn → ℕ
  | none => held
  | some .lock => held + 1
  | some (.tryLock success) => if success then held + 1 else held
  | some .unlock => held - 1

/-- One event.  A task that is inside a call makes no other, and a task unlocks only what it has locked. -/
def stepResult (s : SpinSystem τ) : SpinEvent τ → SpinSystem τ × Option SpinReturn
  | .call t op =>
    if s.point t = .idle ∧ (op = .unlock → s.held t ≠ 0) then
      ({ s with point := Function.update s.point t (SpinLock.enter op) }, none)
    else (s, none)
  | .run t =>
    let r := s.lock.advance t (s.point t)
    ({ lock := r.lock
       point := Function.update s.point t r.point
       held := Function.update s.held t (heldAfter (s.held t) r.result)
       faults := s.faults ++ r.fault.toList }, r.result)

def step (s : SpinSystem τ) (e : SpinEvent τ) : SpinSystem τ := (s.stepResult e).1

/-- The system after a sequence of events. -/
def run (es : List (SpinEvent τ)) : SpinSystem τ := es.foldl step initial

end SpinSystem

end Stk.Model
