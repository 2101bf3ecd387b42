import Mathlib.Data.UInt

/-!
# The kernel lock of the CMSIS wrapper

`osKernelLock`, `osKernelUnlock` and `osKernelRestoreLock` (cmsis_os2_stk.cpp:645-711) over the critical
section of a core (stk_arch_arm-cortex-m.cpp:1155-1192; the other ports count in the same way).  A call
that ends in `STK_KERNEL_PANIC` does not return and has no value.
-/

set_option autoImplicit false

namespace Stk.Model

/-- `g_StkKernelLocked` and `m_csu_nesting`. -/
structure KernelLock where
  locked : UInt32
  nesting : UInt8
deriving DecidableEq

namespace KernelLock

/-- `osErrorResource` and `osErrorISR` (cmsis_os2.h:301-304). -/
def osErrorResource : ℤ := -3
def osErrorISR : ℤ := -6

/-- `EnterCriticalSection`; `nestingsMax` is `STK_CRITICAL_SECTION_NESTINGS_MAX`. -/
def enterCriticalSection (nestingsMax : ℕ) (s : KernelLock) : Option KernelLock :=
  if nestingsMax < (s.nesting + 1).toNat then none else some { s with nesting := s.nesting + 1 }

/-- `ExitCriticalSection`; it asserts that the nesting is not zero. -/
def exitCriticalSection (s : KernelLock) : KernelLock := { s with nesting := s.nesting - 1 }

/-- `osKernelLock` (cmsis_os2_stk.cpp:645-661). -/
def osKernelLock (nestingsMax : ℕ) (irq : Bool) (s : KernelLock) : Option (ℤ × KernelLock) :=
  if irq then some (osErrorISR, s)
  else (s.enterCriticalSection nestingsMax).map fun s => (0, { s with locked := s.locked + 1 })

/-- `osKernelUnlock` (cmsis_os2_stk.cpp:663-683). -/
def osKernelUnlock (irq : Bool) (s : KernelLock) : ℤ × KernelLock :=
  if irq then (osErrorISR, s)
  else if s.locked = 0 then (osErrorResource, s)
  else (0, ({ s with locked := s.locked - 1 } : KernelLock).exitCriticalSection)

/-- `osKernelRestoreLock` (cmsis_os2_stk.cpp:685-711). -/
def osKernelRestoreLock (nestingsMax : ℕ) (irq : Bool) (lock : ℤ) (s : KernelLock) : Option (ℤ × KernelLock) :=
  if irq then some (osErrorISR, s)
  else if lock = 1 then
    (s.enterCriticalSection nestingsMax).map fun s => (lock, { s with locked := s.locked + 1 })
  else if s.locked = 0 then some (osErrorResource, s)
  else some (lock, ({ s with locked := s.locked - 1 } : KernelLock).exitCriticalSection)

end KernelLock

/-- The programs that save and restore the lock in pairs: `lock` is `s = osKernelLock(); body;
osKernelRestoreLock(s)`, `unlock` the same with `osKernelUnlock`. -/
inductive LockProgram where
  | skip
  | seq (first second : LockProgram)
  | lock (body : LockProgram)
  | unlock (body : LockProgram)

namespace LockProgram

def run (nestingsMax : ℕ) (irq : Bool) : LockProgram → KernelLock → Option KernelLock
  | .skip, s => some s
  | .seq first second, s => (first.run nestingsMax irq s).bind (second.run nestingsMax irq)
  | .lock body, s =>
    (s.osKernelLock nestingsMax irq).bind fun saved =>
      (body.run nestingsMax irq saved.2).bind fun s =>
        (s.osKernelRestoreLock nestingsMax irq saved.1).map Prod.snd
  | .unlock body, s =>
    let saved := s.osKernelUnlock irq
    (body.run nestingsMax irq saved.2).bind fun s =>
      (s.osKernelRestoreLock nestingsMax irq saved.1).map Prod.snd

/-- The unlock pairs of a program. -/
def unlocks : LockProgram → ℕ
  | .skip => 0
  | .seq first second => first.unlocks + second.unlocks
  | .lock body => body.unlocks
  | .unlock body => body.unlocks + 1

/-- How deep the lock pairs of a program are nested. -/
def height : LockProgram → ℕ
  | .skip => 0
  | .seq first second => max first.height second.height
  | .lock body => body.height + 1
  | .unlock body => body.height

/-- The unlock pairs stand only where the lock pairs around them leave the depth positive. -/
def Admissible : ℕ → LockProgram → Prop
  | _, .skip => True
  | depth, .seq first second => first.Admissible depth ∧ second.Admissible depth
  | depth, .lock body => body.Admissible (depth + 1)
  | depth, .unlock body => 0 < depth ∧ body.Admissible (depth - 1)

end LockProgram

end Stk.Model
