import Mathlib.Algebra.Group.Nat.Defs
import Mathlib.Logic.Function.Basic

/-!
# Critical section of the Cortex-M port

`hw::CriticalSection` (stk_arch_arm-cortex-m.cpp:1155-1236, 2496-2550).  A core runs one activation at a
time, a thread or an exception handler; another one takes the core over when an exception is not masked.
The registers and the context fields of a core are touched by its running activation only, the global spin
lock by those of all cores.  Each access is a step of its own.
-/

set_option autoImplicit false

namespace Stk.Model

/-- The mask registers of a core and the fields `m_csu` and `m_csu_nesting` of its context (1310-1311). -/
structure CsuCore where
  primask : ℕ
  basepri : ℕ
  csu : ℕ
  csuNesting : ℕ
deriving DecidableEq

/-- The platform: the core of an activation, whether it is in handler mode or in privileged thread mode, and
the level of the exception that gives it the core (of `PendSV` for a thread).  `prioBits` is
`__NVIC_PRIO_BITS`, `nestingsMax` is `STK_CRITICAL_SECTION_NESTINGS_MAX`. -/
structure CsuPlatform (κ α : Type) where
  core : α → κ
  isPrivileged : α → Bool
  level : α → ℕ
  prioBits : ℕ
  nestingsMax : ℕ

inductive CsuOp where
  | enter
  | exit
deriving DecidableEq

/-- The kernel panics and the failed assertion of `ExitCriticalSection`. -/
inductive CsuFault where
  | nestingOverflow
  | spinLockTimeout
  | unownedRelease
  | nestingZero
deriving DecidableEq

/-- Where an activation stands; `ses` is the session value that the code holds in a local variable. -/
inductive CsuPoint where
  | idle
  -- `HW_CriticalSectionStart` (399-407)
  | primaskRead
  | interruptsDisable (ses : ℕ)
  -- `HW_SVCEnterCritical` (314-327, 1946-1952)
  | svcEnter
  -- `EnterCriticalSection` and `UnprivEnterCriticalSection` (1161-1175, 1202-1217)
  | nestingCheck (ses : ℕ)
  | spinLock (ses timeout : ℕ)
  | csuStore (ses : ℕ)
  | nestingUp
  -- `ExitCriticalSection` and `UnprivExitCriticalSection` (1180-1194, 1222-1236)
  | exitAssert
  | nestingDown
  | exitCheck
  | csuRead
  | lockCheck (ses : ℕ)
  | lockClear (ses : ℕ)
  | maskRestore (ses : ℕ)
  -- `STK_KERNEL_PANIC` does not return
  | panicked (fault : CsuFault)
deriving DecidableEq

/-- One step of an activation: where it stands then, its core, the global lock, the call that returns and
what fails. -/
structure CsuStep where
  point : CsuPoint
  core : CsuCore
  isLocked : Bool
  result : Option CsuOp
  fault : Option CsuFault

namespace CsuPlatform

variable {κ α : Type} (cfg : CsuPlatform κ α)

/-- What a write of `value` leaves in `BASEPRI`: the register has the upper `prioBits` bits of a byte. -/
def basepriWrite (value : ℕ) : ℕ := value % 256 / 2 ^ (8 - cfg.prioBits) * 2 ^ (8 - cfg.prioBits)

/-- The mask of `SVC_ENTER_CRITICAL`: `1 << __NVIC_PRIO_BITS` (1948). -/
def svcMask : ℕ := cfg.basepriWrite (2 ^ cfg.prioBits)

/-- An exception of level `level` is not taken (ARMv7-M: `PRIMASK` masks every configurable exception,
a nonzero `BASEPRI` those of its own or a lower priority). -/
def isMasked (c : CsuCore) (level : ℕ) : Bool :=
  decide (c.primask % 2 = 1 ∨ c.basepri ≠ 0 ∧ c.basepri ≤ level * 2 ^ (8 - cfg.prioBits))

/-- The countdown of `HW_SpinLockLock` (635). -/
def spinTimeout : ℕ := 0xFFFFFF

/-- The first step of a call (2496-2550). -/
def begin (a : α) : CsuOp → CsuPoint
  | .enter => if cfg.isPrivileged a then .primaskRead else .svcEnter
  | .exit => .exitAssert

/-- The next step of activation `a`. -/
def advance (a : α) (c : CsuCore) (isLocked : Bool) : CsuPoint → CsuStep
  | .idle => ⟨.idle, c, isLocked, none, none⟩
  | .primaskRead => ⟨.interruptsDisable c.primask, c, isLocked, none, none⟩
  | .interruptsDisable ses => ⟨.nestingCheck ses, { c with primask := 1 }, isLocked, none, none⟩
  | .svcEnter => ⟨.nestingCheck c.basepri, { c with basepri := cfg.svcMask }, isLocked, none, none⟩
  | .nestingCheck ses =>
    ⟨if c.csuNesting = 0 then .spinLock ses spinTimeout else .nestingUp, c, isLocked, none, none⟩
  | .spinLock ses timeout =>
    if isLocked then
      if timeout - 1 = 0 then ⟨.panicked .spinLockTimeout, c, isLocked, none, some .spinLockTimeout⟩
      else ⟨.spinLock ses (timeout - 1), c, isLocked, none, none⟩
    else ⟨.csuStore ses, c, true, none, none⟩
  | .csuStore ses => ⟨.nestingUp, { c with csu := ses }, isLocked, none, none⟩
  | .nestingUp =>
    let nesting := (c.csuNesting + 1) % 256
    if nesting > cfg.nestingsMax then
      ⟨.panicked .nestingOverflow, { c with csuNesting := nesting }, isLocked, none, some .nestingOverflow⟩
    else ⟨.idle, { c with csuNesting := nesting }, isLocked, some .enter, none⟩
  | .exitAssert => ⟨.nestingDown, c, isLocked, none, if c.csuNesting ≠ 0 then none else some .nestingZero⟩
  | .nestingDown => ⟨.exitCheck, { c with csuNesting := (c.csuNesting + 255) % 256 }, isLocked, none, none⟩
  | .exitCheck =>
    if c.csuNesting = 0 then ⟨.csuRead, c, isLocked, none, none⟩
    else ⟨.idle, c, isLocked, some .exit, none⟩
  | .csuRead => ⟨.lockCheck c.csu, c, isLocked, none, none⟩
  | .lockCheck ses =>
    if isLocked then ⟨.lockClear ses, c, isLocked, none, none⟩
    else ⟨.panicked .unownedRelease, c, isLocked, none, some .unownedRelease⟩
  | .lockClear ses => ⟨.maskRestore ses, c, false, none, none⟩
  | .maskRestore ses =>
    if cfg.isPrivileged a then ⟨.idle, { c with primask := ses }, isLocked, some .exit, none⟩
    else ⟨.idle, { c with basepri := cfg.basepriWrite ses }, isLocked, some .exit, none⟩
  | .panicked fault => ⟨.panicked fault, c, isLocked, none, none⟩

end CsuPlatform

/-! ## Cores -/

/-- The cores and their activations.  `held a` counts the calls of `Enter` of activation `a` that have
returned, less the calls of `Exit` that have; `wanted k` is the `PRIMASK` that the code of core `k` has set
outside its critical sections. -/
structure CsuSystem (κ α : Type) where
  core : κ → CsuCore
  isLocked : Bool
  current : κ → α
  point : α → CsuPoint
  held : α → ℕ
  wanted : κ → ℕ
  faults : List CsuFault

inductive CsuEvent (κ α : Type) where
  -- the running activation calls `Enter` or `Exit`
  | call (a : α) (op : CsuOp)
  | run (a : α)
  -- privileged code sets or clears `PRIMASK` outside a critical section
  | primaskSet (a : α) (disabled : Bool)
  -- an exception, its return or a context switch gives the core to `a`
  | preempt (a : α)
deriving DecidableEq

namespace CsuSystem

variable {κ α : Type} [DecidableEq κ] [DecidableEq α]

/-- After `Initialize` (1090-1091), with interrupts enabled. -/
def initial (current : κ → α) : CsuSystem κ α :=
  ⟨fun _ => ⟨0, 0, 0, 0⟩, false, current, fun _ => .idle, fun _ => 0, fun _ => 0, []⟩

/-- The calls that an activation has open after a return. -/
def heldAfter (held : ℕ) : Option CsuOp → ℕ
  | none => held
  | some .enter => held + 1
  | some .exit => held - 1

/-- One event.  An activation runs only while it has its core, each of its calls of `Exit` matches a call of
`Enter`, and no exception is taken while it is masked. -/
def step (cfg : CsuPlatform κ α) (s : CsuSystem κ α) : CsuEvent κ α → CsuSystem κ α
  | .call a op =>
    if s.current (cfg.core a) = a ∧ s.point a = .idle ∧ (op = .exit → s.held a ≠ 0) then
      { s with point := Function.update s.point a (cfg.begin a op) }
    else s
  | .run a =>
    if s.current (cfg.core a) = a then
      let r := cfg.advance a (s.core (cfg.core a)) s.isLocked (s.point a)
      { s with
        core := Function.update s.core (cfg.core a) r.core
        isLocked := r.isLocked
        point := Function.update s.point a r.point
        held := Function.update s.held a (heldAfter (s.held a) r.result)
        faults := s.faults ++ r.fault.toList }
    else s
  | .primaskSet a disabled =>
    if s.current (cfg.core a) = a ∧ cfg.isPrivileged a = true ∧ s.point a = .idle ∧ s.held a = 0 then
      { s with
        core := Function.update s.core (cfg.core a) { s.core (cfg.core a) with primask := disabled.toNat }
        wanted := Function.update s.wanted (cfg.core a) disabled.toNat }
    else s
  | .preempt a =>
    if cfg.isMasked (s.core (cfg.core a)) (cfg.level a) then s
    else { s with current := Function.update s.current (cfg.core a) a }

/-- The system after a sequence of events. -/
def run (cfg : CsuPlatform κ α) (current : κ → α) (es : List (CsuEvent κ α)) : CsuSystem κ α :=
  es.foldl (step cfg) (initial current)

end CsuSystem

end Stk.Model
