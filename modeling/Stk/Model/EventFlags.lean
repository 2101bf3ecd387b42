import Mathlib.Data.Int.Basic
import Stk.Model.Monitor

/-!
# Event flags

`sync::EventFlags` (stk_sync_eventflags.h).  The flags are a word of 32 bits; bit 31 marks the error
results.  `Wait` reads the tick counter for its deadline before it enters the critical section, so
that what it has read, `started`, is a part of the call.  The tick counter has 64 bits and the
deadline 32: conversions and the subtraction wrap around.
-/

set_option autoImplicit false

namespace Stk.Model

structure EventFlags where
  flags : BitVec 32
deriving DecidableEq

/-- `m_cv`; the other sync objects of the system have other identities. -/
def cvFlags : SyncId := .object 0

/-- The calls of an `EventFlags`.  `insideIsr` is `hw::IsInsideISR()`. -/
inductive FlagsOp where
  | set (flags : BitVec 32)
  | clear (flags : BitVec 32)
  | get
  | wait (insideIsr : Bool) (flags options : BitVec 32) (timeout started : ℤ)
deriving DecidableEq

/-- A `Wait` inside `m_cv.Wait(cs_, remaining)`. -/
structure FlagsFrame where
  flags : BitVec 32
  options : BitVec 32
  timedWait : Bool
  deadline : ℤ
  remaining : ℤ
deriving DecidableEq

/-- A stretch of a call; every call returns a word. -/
abbrev FlagsStretch := Mesa.Stretch SyncId EventFlags FlagsFrame (BitVec 32)

/-- A conversion to `int32_t`. -/
def toInt32 (x : ℤ) : ℤ := Int.bmod x 4294967296

namespace EventFlags

/-- stk_sync_eventflags.h:84-106. -/
def optWaitAll : BitVec 32 := 0x00000001
def optNoClear : BitVec 32 := 0x00000002
def errorParameter : BitVec 32 := 0x80000001
def errorTimeout : BitVec 32 := 0x80000002
def errorIsr : BitVec 32 := 0x80000004
def errorMask : BitVec 32 := 0x80000000

/-- `IsError` (stk_sync_eventflags.h:115). -/
def isError (result : BitVec 32) : Bool := decide (result &&& errorMask ≠ 0)

/-- The check of an argument (stk_sync_eventflags.h:233, 255, 286). -/
def isValid (flags : BitVec 32) : Bool := decide (flags ≠ 0) && decide (flags &&& errorMask = 0)

def waitsForAll (options : BitVec 32) : Bool := decide (options &&& optWaitAll = optWaitAll)

/-- `IsSatisfied` (stk_sync_eventflags.h:215-219). -/
def isSatisfied (m : EventFlags) (flags options : BitVec 32) : Bool :=
  if waitsForAll options then decide (m.flags &&& flags = flags) else decide (m.flags &&& flags ≠ 0)

/-- `Set` (stk_sync_eventflags.h:229-246). -/
def set (m : EventFlags) (flags : BitVec 32) : FlagsStretch :=
  if isValid flags then
    let m := { m with flags := m.flags ||| flags }
    ⟨m, [.all cvFlags], .done m.flags⟩
  else ⟨m, [], .done errorParameter⟩

/-- `Clear` (stk_sync_eventflags.h:251-264). -/
def clear (m : EventFlags) (flags : BitVec 32) : FlagsStretch :=
  if isValid flags then ⟨{ m with flags := m.flags &&& ~~~flags }, [], .done m.flags⟩
  else ⟨m, [], .done errorParameter⟩

/-- The end of `Wait` when the predicate is satisfied (stk_sync_eventflags.h:326-336). -/
def satisfied (m : EventFlags) (flags options : BitVec 32) : FlagsStretch :=
  let result := if waitsForAll options then flags else m.flags &&& flags
  ⟨if options &&& optNoClear = 0 then { m with flags := m.flags &&& ~~~result } else m, [], .done result⟩

/-- `Wait` from the head of its loop (stk_sync_eventflags.h:308-336). -/
def waitFrom (ticks : ℤ) (m : EventFlags) (flags options : BitVec 32) (timedWait : Bool) (deadline : ℤ) :
    FlagsStretch :=
  if m.isSatisfied flags options then m.satisfied flags options
  else
    let now := toInt32 ticks
    let remaining := if timedWait then if now ≥ deadline then 0 else toInt32 (deadline - now) else deadline
    if remaining ≠ 0 then ⟨m, [], .wait ⟨flags, options, timedWait, deadline, remaining⟩⟩
    else ⟨m, [], .done errorTimeout⟩

/-- `Wait` (stk_sync_eventflags.h:281-340). -/
def wait (ticks : ℤ) (m : EventFlags) (insideIsr : Bool) (flags options : BitVec 32) (timeout started : ℤ) :
    FlagsStretch :=
  if !isValid flags then ⟨m, [], .done errorParameter⟩
  else if insideIsr && decide (timeout ≠ 0) then ⟨m, [], .done errorIsr⟩
  else
    let timedWait := decide (timeout ≠ waitInfinite) && decide (timeout ≠ 0)
    m.waitFrom ticks flags options timedWait (if timedWait then toInt32 (started + timeout) else timeout)

/-- The first stretch of a call; `Get` is stk_sync_eventflags.h:270-275. -/
def call (ticks : ℤ) (m : EventFlags) : FlagsOp → FlagsStretch
  | .set flags => m.set flags
  | .clear flags => m.clear flags
  | .get => ⟨m, [], .done m.flags⟩
  | .wait insideIsr flags options timeout started => m.wait ticks insideIsr flags options timeout started

/-- The stretch of a `Wait` whose `m_cv.Wait` has returned. -/
def resume (ticks : ℤ) (m : EventFlags) (f : FlagsFrame) : WaitResult → FlagsStretch
  | .signal => m.waitFrom ticks f.flags f.options f.timedWait f.deadline
  | .timeout => ⟨m, [], .done errorTimeout⟩

theorem satisfied_next (m : EventFlags) (flags options : BitVec 32) (f : FlagsFrame) :
    (m.satisfied flags options).next ≠ .wait f := by
  intro h
  cases h

theorem waitFrom_wait {ticks : ℤ} {m : EventFlags} {flags options : BitVec 32} {timedWait : Bool} {deadline : ℤ}
    {f : FlagsFrame} (h : (m.waitFrom ticks flags options timedWait deadline).next = .wait f) :
    f.flags = flags ∧ f.options = options ∧ m.isSatisfied flags options = false ∧ f.remaining ≠ 0 := by
  unfold waitFrom at h
  split at h
  · exact absurd h (satisfied_next m flags options f)
  · next hno =>
    dsimp only at h
    generalize (if timedWait then if toInt32 ticks ≥ deadline then 0 else toInt32 (deadline - toInt32 ticks)
      else deadline) = remaining at h
    split at h
    · next hne =>
      obtain rfl := Mesa.Next.wait.inj h
      exact ⟨rfl, rfl, by simpa using hno, hne⟩
    · cases h

theorem call_wait {ticks : ℤ} {m : EventFlags} {op : FlagsOp} {f : FlagsFrame} (h : (m.call ticks op).next = .wait f) :
    m.isSatisfied f.flags f.options = false ∧ f.remaining ≠ 0 := by
  cases op with
  | set flags =>
    simp only [call, set] at h
    split at h
    · cases h
    · cases h
  | clear flags =>
    simp only [call, clear] at h
    split at h
    · cases h
    · cases h
  | get => cases h
  | wait insideIsr flags options timeout started =>
    simp only [call, wait] at h
    split at h
    · cases h
    · split at h
      · cases h
      · obtain ⟨rfl, rfl, hno, hne⟩ := waitFrom_wait h
        exact ⟨hno, hne⟩

theorem resume_wait {ticks : ℤ} {m : EventFlags} {f f' : FlagsFrame} {r : WaitResult}
    (h : (m.resume ticks f r).next = .wait f') : m.isSatisfied f'.flags f'.options = false ∧ f'.remaining ≠ 0 := by
  cases r with
  | signal =>
    obtain ⟨hflags, hoptions, hno, hne⟩ := waitFrom_wait h
    rw [hflags, hoptions]
    exact ⟨hno, hne⟩
  | timeout => cases h

instance : Monitor EventFlags FlagsOp FlagsFrame (BitVec 32) where
  call := call
  resume := resume
  waitsFor _ := cvFlags
  timeout := FlagsFrame.remaining
  owns o := decide (o = cvFlags)
  owns_waitsFor _ := rfl
  call_wait h := (call_wait h).2
  resume_wait h := (resume_wait h).2

end EventFlags

end Stk.Model
