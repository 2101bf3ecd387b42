import Stk.Model.Monitor

/-!
# Reader-writer locks

`sync::RWMutex` (stk_sync_rwmutex.h).  The counters are `uint16_t` and wrap around.  The assertions
of the class are on the counters and on the matching lock; a release build compiles them out, and so
does the model: `readersMax` and `writersMax` are what they ask for.
-/

set_option autoImplicit false

namespace Stk.Model

/-- `RWMutex` (stk_sync_rwmutex.h:195-205). -/
structure RWMutex where
  readers : ℕ
  writersWaiting : ℕ
  writerActive : Bool
deriving DecidableEq

/-- `m_cv_readers` and `m_cv_writers`; the other sync objects of the system have other
identities. -/
def cvReaders : SyncId := .object 0
def cvWriters : SyncId := .object 1

/-- The calls of an `RWMutex`. -/
inductive RWOp where
  | timedReadLock (timeout : ℤ)
  | readUnlock
  | timedLock (timeout : ℤ)
  | unlock
deriving DecidableEq

/-- A call inside `Wait`. -/
inductive RWFrame where
  | timedReadLock (timeout : ℤ)
  | timedLock (timeout : ℤ)
deriving DecidableEq

/-- What a call returns, or `KERNEL_PANIC_ASSERT`. -/
inductive RWReturn where
  | locked (success : Bool)
  | unlocked
  | panic
deriving DecidableEq

/-- A stretch of a call. -/
abbrev RWStretch := Mesa.Stretch SyncId RWMutex RWFrame RWReturn

namespace RWFrame

def waitsFor : RWFrame → SyncId
  | .timedReadLock _ => cvReaders
  | .timedLock _ => cvWriters

def timeout : RWFrame → ℤ
  | .timedReadLock t | .timedLock t => t

end RWFrame

namespace RWMutex

/-- `READERS_MAX` and `WRITERS_MAX` (stk_sync_rwmutex.h:198-199). -/
def readersMax : ℕ := 65534
def writersMax : ℕ := 65534

/-- Counters of 16 bits wrap around. -/
def increment (x : ℕ) : ℕ := if x = 65535 then 0 else x + 1

def decrement (x : ℕ) : ℕ := if x = 0 then 65535 else x - 1

/-- The constructor (stk_sync_rwmutex.h:66-67). -/
def initial : RWMutex := ⟨0, 0, false⟩

/-- `TimedReadLock` from the head of its wait loop (stk_sync_rwmutex.h:218-238). -/
def readLockFrom (m : RWMutex) (timeout : ℤ) : RWStretch :=
  if m.writerActive || decide (m.writersWaiting ≠ 0) then
    if timeout ≠ 0 then ⟨m, [], .wait (.timedReadLock timeout)⟩ else ⟨m, [], .done (.locked false)⟩
  else ⟨{ m with readers := increment m.readers }, [], .done (.locked true)⟩

/-- `ReadUnlock` (stk_sync_rwmutex.h:245-257). -/
def readUnlock (m : RWMutex) : RWStretch :=
  let readers := decrement m.readers
  ⟨{ m with readers := readers }, if readers = 0 then [.one cvWriters] else [], .done .unlocked⟩

/-- A writer withdraws from the waiting writers (stk_sync_rwmutex.h:277-281). -/
def withdraw (m : RWMutex) : RWStretch :=
  ⟨{ m with writersWaiting := decrement m.writersWaiting }, [], .done (.locked false)⟩

/-- `TimedLock` from the head of its wait loop (stk_sync_rwmutex.h:273-300). -/
def lockFrom (m : RWMutex) (timeout : ℤ) : RWStretch :=
  if m.writerActive || decide (m.readers ≠ 0) then
    if timeout ≠ 0 then ⟨m, [], .wait (.timedLock timeout)⟩ else withdraw m
  else
    let m := { m with writersWaiting := decrement m.writersWaiting }
    if decide (m.readers ≠ 0) || m.writerActive then ⟨m, [], .done .panic⟩
    else ⟨{ m with writerActive := true }, [], .done (.locked true)⟩

/-- `Unlock` (stk_sync_rwmutex.h:307-323). -/
def unlock (m : RWMutex) : RWStretch :=
  ⟨{ m with writerActive := false },
    if m.writersWaiting ≠ 0 then [.one cvWriters] else [.all cvReaders], .done .unlocked⟩

/-- The first stretch of a call. -/
def call (m : RWMutex) : RWOp → RWStretch
  | .timedReadLock timeout => m.readLockFrom timeout
  | .readUnlock => m.readUnlock
  | .timedLock timeout =>
    lockFrom { m with writersWaiting := increment m.writersWaiting } timeout
  | .unlock => m.unlock

/-- The stretch of a call whose `Wait` has returned. -/
def resume (m : RWMutex) : RWFrame → WaitResult → RWStretch
  | .timedReadLock timeout, .signal => m.readLockFrom timeout
  | .timedReadLock _, .timeout => ⟨m, [], .done (.locked false)⟩
  | .timedLock timeout, .signal => m.lockFrom timeout
  | .timedLock _, .timeout => m.withdraw

theorem readLockFrom_wait {m : RWMutex} {timeout : ℤ} {f : RWFrame}
    (h : (m.readLockFrom timeout).next = .wait f) : f = .timedReadLock timeout ∧ timeout ≠ 0 := by
  unfold readLockFrom at h
  split at h
  · split at h
    · next hne => exact ⟨(Mesa.Next.wait.inj h).symm, hne⟩
    · cases h
  · cases h

theorem lockFrom_wait {m : RWMutex} {timeout : ℤ} {f : RWFrame}
    (h : (m.lockFrom timeout).next = .wait f) : f = .timedLock timeout ∧ timeout ≠ 0 := by
  unfold lockFrom at h
  split at h
  · split at h
    · next hne => exact ⟨(Mesa.Next.wait.inj h).symm, hne⟩
    · cases h
  · dsimp only at h
    split at h
    · cases h
    · cases h

instance : Monitor RWMutex RWOp RWFrame RWReturn where
  call _ := call
  resume _ := resume
  waitsFor := RWFrame.waitsFor
  timeout := RWFrame.timeout
  owns o := decide (o = cvReaders) || decide (o = cvWriters)
  owns_waitsFor f := by cases f <;> rfl
  call_wait {ticks m op f} h := by
    cases op with
    | timedReadLock timeout =>
      obtain ⟨rfl, hne⟩ := readLockFrom_wait h
      exact hne
    | readUnlock => cases h
    | timedLock timeout =>
      obtain ⟨rfl, hne⟩ := lockFrom_wait h
      exact hne
    | unlock => cases h
  resume_wait {ticks m f r f'} h := by
    cases r with
    | timeout => cases f <;> cases h
    | signal =>
      cases f with
      | timedReadLock timeout =>
        obtain ⟨rfl, hne⟩ := readLockFrom_wait h
        exact hne
      | timedLock timeout =>
        obtain ⟨rfl, hne⟩ := lockFrom_wait h
        exact hne

end RWMutex

end Stk.Model
