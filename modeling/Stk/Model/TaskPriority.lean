import Stk.Model.FixedPriority
import Stk.Model.KernelRun

/-!
# Priorities set at run time

The user tasks of the two interfaces keep the priority that their `GetWeight` returns in a member, `m_weight` of
`FrtosTask` (freertos_stk.cpp:442) and `m_stk_priority` of `StkThread` (cmsis_os2_stk.cpp:227).
`vTaskPrioritySet` (freertos_stk.cpp:1317-1326) and `osThreadSetPriority` (cmsis_os2_stk.cpp:981-1005) write the
member and call nothing.
-/

set_option autoImplicit false

namespace Stk.Model

/-- `FrtosPrioToStkWeight` (freertos_stk.cpp:301-309). -/
def frtosPrioToStkWeight (configMaxPriorities p : ℕ) : ℤ :=
  if p ≥ configMaxPriorities then configMaxPriorities - 1 else p

def osPriorityIdle : ℤ := 1
def osPriorityIsr : ℤ := 56

/-- `CmsisPrioToStk` (cmsis_os2_stk.cpp:77-95). -/
def cmsisPrioToStk (p : ℤ) : ℤ :=
  if p ≤ osPriorityIdle then 0 else if p ≥ osPriorityIsr then 31 else p * 31 / 56

/-- A kernel, with the priorities of the user tasks. -/
structure PriorityKernel (n : ℕ) (σ : Type) where
  kernel : Kernel n σ
  weight : TId → ℤ

inductive PriorityEvent (n : ℕ) where
  | vTaskPrioritySet (user : TId) (priority : ℕ)
  | osThreadSetPriority (user : TId) (priority : ℤ)
  | kernel (e : KernelEvent n)

/-- The configuration with the priorities as they are. -/
def Config.withWeight (cfg : Config) (weight : TId → ℤ) : Config := { cfg with weight := weight }

namespace PriorityKernel

variable {n : ℕ} {σ : Type} [SwitchStrategy (Fin n) σ]

/-- `cfg.weight` is what the tasks are constructed with. -/
def initial (cfg : Config) : PriorityKernel n σ := ⟨.initial, cfg.weight⟩

/-- The priority that the event writes, and the task it writes it to. -/
def written (configMaxPriorities : ℕ) : PriorityEvent n → Option (TId × ℤ)
  | .vTaskPrioritySet u p => some (u, frtosPrioToStkWeight configMaxPriorities p)
  | .osThreadSetPriority u p =>
    if p < osPriorityIdle ∨ p > osPriorityIsr then none else some (u, cmsisPrioToStk p)
  | .kernel _ => none

def step (cfg : Config) (configMaxPriorities : ℕ) (s : PriorityKernel n σ) (e : PriorityEvent n) :
    PriorityKernel n σ :=
  match e with
  | .kernel e => { s with kernel := s.kernel.step (cfg.withWeight s.weight) e }
  | e =>
    match written configMaxPriorities e with
    | some (u, w) => { s with weight := Function.update s.weight u w }
    | none => s

def run (cfg : Config) (configMaxPriorities : ℕ) (es : List (PriorityEvent n)) : PriorityKernel n σ :=
  es.foldl (step cfg configMaxPriorities) (initial cfg)

end PriorityKernel

end Stk.Model
