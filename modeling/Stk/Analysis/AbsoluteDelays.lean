import Stk.Analysis.DeadlineWaits
import Stk.Analysis.WakeTime
import Stk.Model.WrapperTimeouts

/-!
# Absolute delays of the wrappers

`xTaskDelayUntil` and `osDelayUntil` widen 32 bits of a tick count to 64 with zeros.  They block until the tick
count they are meant for as long as that has no more than 32 bits, and return at once, with the deadline ahead,
in every later epoch (`absoluteDelays`).
-/

set_option autoImplicit false

namespace Stk.Analysis

open Stk.Model Stk.Model.Kernel

/-! ## The low 32 bits -/

theorem toNat_ofInt (x : ℤ) : ((UInt32.ofInt x).toNat : ℤ) = x % 4294967296 := by
  have hbounds := Int.emod_lt_of_pos x (show (0 : ℤ) < 4294967296 by decide)
  have hnonneg := Int.emod_nonneg x (show (4294967296 : ℤ) ≠ 0 by decide)
  unfold UInt32.ofInt
  rw [UInt32.toNat_ofNat']
  omega

/-- The low bits of a sum are those of the sum of the low bits. -/
theorem ofInt_low_add (x : ℤ) (y : UInt32) :
    UInt32.ofInt ((UInt32.ofInt x).toNat + y.toNat) = UInt32.ofInt (x + y.toNat) := by
  apply UInt32.toNat_inj.mp
  apply Int.natCast_inj.mp
  rw [toNat_ofInt, toNat_ofInt, toNat_ofInt, Int.emod_add_emod]

variable {n : ℕ} {σ : Type} [SwitchStrategy (Fin n) σ] {cfg : Config} {k : Kernel n σ} {i : Fin n} {due : ℤ}

/-! ## Blocking until a tick count -/

/-- The task in slot `i` runs, and may sleep: the kernel is not in HRT mode, the task is not linked in a wait
list and not scheduled for removal. -/
structure MaySleep (cfg : Config) (k : Kernel n σ) (i : Fin n) : Prop where
  srt : cfg.isHrtMode = false
  call : k.canCall i = true
  awake : (k.tasks i).isSleeping = false
  unlinked : (k.tasks i).waitObj.syncObj = none
  live : (k.tasks i).removePending = false

/-- Whatever comes next, as long as nobody wakes or removes it, the task in slot `i` is blocked exactly as long as
the tick count is below `due`. -/
def BlocksUntil (cfg : Config) (i : Fin n) (due : ℤ) (k : Kernel n σ) : Prop :=
  ∀ es : List (KernelEvent n), Runs.Along (Kernel.step cfg) (fun k e => k.ticks < due ∧ NotWoken cfg i k e) k es →
    (((es.foldl (Kernel.step cfg) k).tasks i).isSleeping = true ↔ (es.foldl (Kernel.step cfg) k).ticks < due)

/-- `SleepUntil` of a tick count ahead. -/
theorem MaySleep.blocksUntil (h : MaySleep cfg k i) (hk : Linked k) (hlt : k.ticks < due)
    (hnear : due ≤ k.ticks + waitInfinite) : BlocksUntil cfg i due (k.step cfg (.sleepUntil i due)) := by
  intro es hes
  have hdue : due = k.ticks + (due - k.ticks) := by omega
  have hsleeps := SleepsUntil.sleepUntil h.srt h.call h.unlinked h.live (show 0 < due - k.ticks by omega)
    (by omega)
  rw [← hdue] at hsleeps
  exact (hsleeps.run (step_linked cfg hk _) hes).isSleeping_iff

/-- `SleepUntil` of a tick count that is reached. -/
theorem MaySleep.returns (h : MaySleep cfg k i) {timestamp : ℤ} (hpast : timestamp ≤ k.ticks) (hlt : k.ticks < due) :
    ¬ BlocksUntil cfg i due (k.step cfg (.sleepUntil i timestamp)) := by
  intro hblocks
  have hstep : k.step cfg (.sleepUntil i timestamp) = k := by
    have hdelta : ¬ timestamp - k.ticks > 0 := by omega
    simp only [Kernel.step, Kernel.onTaskSleepUntil, hdelta, if_false, ite_self]
  rw [hstep] at hblocks
  have hsleeping := (hblocks [] trivial).mpr hlt
  rw [List.foldl_nil, h.awake] at hsleeping
  cases hsleeping

/-- The tick count starts at zero. -/
theorem run_ticks_nonneg (cfg : Config) (es : List (KernelEvent n)) : 0 ≤ (Kernel.run cfg es : Kernel n σ).ticks := by
  induction es using List.reverseRecOn with
  | nil => exact le_rfl
  | append_singleton es e ih =>
    rw [Kernel.run_append]
    exact ih.trans (step_ticks_le cfg _ e)

/-! ## The two calls -/

/-- **Absolute delays.**  In every state of every run, for every tick count `p` that has passed and every increment
up to `2 ^ 31 - 1` whose sum `p + inc` has not: `xTaskDelayUntil` with the low bits of `p`, the last wake time,
leaves those of `p + inc` and blocks until `p + inc` if and only if `p` has no more than 32 bits.  `osDelayUntil`
with the low bits of a tick count up to `2 ^ 31 - 1` ticks ahead blocks until then if and only if that tick count
has no more than 32 bits. -/
theorem absoluteDelays (cfg : Config) (es : List (KernelEvent n)) (i : Fin n)
    (hcall : MaySleep cfg (Kernel.run cfg es : Kernel n σ) i) :
    (∀ (p : ℤ) (increment : UInt32), 0 ≤ p → p ≤ (Kernel.run cfg es : Kernel n σ).ticks →
      (Kernel.run cfg es : Kernel n σ).ticks < p + increment.toNat → increment.toNat < 2 ^ 31 →
      let call := (Kernel.run cfg es : Kernel n σ).xTaskDelayUntil cfg i (UInt32.ofInt p) increment
      ((call.1 = UInt32.ofInt (p + increment.toNat) ∧ BlocksUntil cfg i (p + increment.toNat) call.2.2) ↔
        p < 2 ^ 32)) ∧
    ∀ due : ℤ, (Kernel.run cfg es : Kernel n σ).ticks < due →
      due ≤ (Kernel.run cfg es : Kernel n σ).ticks + (2 ^ 31 - 1) →
      (BlocksUntil cfg i due ((Kernel.run cfg es : Kernel n σ).osDelayUntil cfg i (UInt32.ofInt due)).2 ↔
        due < 2 ^ 32) := by
  have hlinked : Linked (Kernel.run cfg es : Kernel n σ) := run_linked cfg es
  have hstart : 0 ≤ (Kernel.run cfg es : Kernel n σ).ticks := run_ticks_nonneg cfg es
  generalize (Kernel.run cfg es : Kernel n σ) = k at *
  have hinfinite : waitInfinite = 2 ^ 31 - 1 := rfl
  constructor
  · intro p increment hnonneg hpast hahead hinc call
    have hlow := toNat_ofInt p
    constructor
    · rintro ⟨-, hblocks⟩
      by_contra hlate
      have hwakeAt : ((UInt32.ofInt p).toNat : ℤ) + increment.toNat ≤ k.ticks := by omega
      exact hcall.returns hwakeAt hahead hblocks
    · intro hepoch
      have hwakeAt : ((UInt32.ofInt p).toNat : ℤ) + increment.toNat = p + increment.toNat := by omega
      constructor
      · exact ofInt_low_add p increment
      · change BlocksUntil cfg i (p + increment.toNat)
          (k.step cfg (.sleepUntil i ((UInt32.ofInt p).toNat + increment.toNat)))
        rw [hwakeAt]
        exact hcall.blocksUntil hlinked hahead (by omega)
  · intro due hahead hnear
    have hlow := toNat_ofInt due
    constructor
    · intro hblocks
      by_contra hlate
      have hticks : ((UInt32.ofInt due).toNat : ℤ) ≤ k.ticks := by omega
      exact hcall.returns hticks hahead hblocks
    · intro hepoch
      have hticks : ((UInt32.ofInt due).toNat : ℤ) = due := by omega
      change BlocksUntil cfg i due (k.step cfg (.sleepUntil i (UInt32.ofInt due).toNat))
      rw [hticks]
      exact hcall.blocksUntil hlinked hahead (by omega)

/-- A task that is started at tick 1 and delays until tick 3, and until tick 5. -/
theorem firstEpoch_blocks :
    let k : Kernel 2 (RoundRobin (Fin 2)) := Kernel.run syncConfig twoTasks
    BlocksUntil syncConfig 0 3 (k.xTaskDelayUntil syncConfig 0 (UInt32.ofInt 1) 2).2.2 ∧
      BlocksUntil syncConfig 0 5 (k.osDelayUntil syncConfig 0 (UInt32.ofInt 5)).2 := by
  intro k
  have hcall : MaySleep syncConfig k 0 := ⟨rfl, by decide, by decide, by decide, by decide⟩
  obtain ⟨hfrtos, hcmsis⟩ := absoluteDelays syncConfig twoTasks 0 hcall
  constructor
  · exact ((hfrtos 1 2 (by decide) (by decide) (by decide) (by decide)).mpr (by decide)).2
  · exact (hcmsis 5 (by decide) (by decide)).mpr (by decide)

/-- INTERNAL: the only task of a kernel that has run for some ticks. -/
theorem alone_run (ticks : ℕ) : ∃ calls,
    (Kernel.run syncConfig (.addTask 0 :: .onStart :: List.replicate ticks (.onTick 1)) :
      Kernel 1 (RoundRobin (Fin 1))) = alone ticks calls := by
  induction ticks with
  | zero => exact ⟨_, rfl⟩
  | succ ticks ih =>
    obtain ⟨calls, hrun⟩ := ih
    obtain ⟨calls', htick⟩ := alone_onTick ticks calls
    have hstep : (alone ticks calls).step syncConfig (.onTick 1) = alone (ticks + 1) calls' := htick
    refine ⟨calls', ?_⟩
    rw [List.replicate_succ', ← List.cons_append, ← List.cons_append, Kernel.run_append, hrun]
    exact hstep

/-- After `2 ^ 32` ticks a task takes the tick count and delays for ten ticks: it is not blocked at all.  Nor is
it by a delay until a tick count just ahead. -/
theorem secondEpoch_returns :
    let k : Kernel 1 (RoundRobin (Fin 1)) :=
      Kernel.run syncConfig (.addTask 0 :: .onStart :: List.replicate 4294967296 (.onTick 1))
    k.ticks = 4294967296 ∧ MaySleep syncConfig k 0 ∧
      ¬ BlocksUntil syncConfig 0 4294967306 (k.xTaskDelayUntil syncConfig 0 k.xTaskGetTickCount 10).2.2 ∧
      ¬ BlocksUntil syncConfig 0 4294967306 (k.osDelayUntil syncConfig 0 (UInt32.ofInt 4294967306)).2 := by
  intro k
  obtain ⟨calls, hrun⟩ := alone_run 4294967296
  have hk : k = alone 4294967296 calls := hrun
  have hcall : MaySleep syncConfig k 0 := by
    rw [hk]
    exact ⟨rfl, rfl, rfl, rfl, rfl⟩
  have hticks : k.ticks = 4294967296 := by
    rw [hk]
    rfl
  clear_value k
  refine ⟨hticks, hcall, ?_, ?_⟩
  · have hlow : ((k.xTaskGetTickCount).toNat : ℤ) = 0 := by
      unfold Kernel.xTaskGetTickCount
      rw [toNat_ofInt, hticks]
      rfl
    apply hcall.returns _ (by omega)
    rw [hlow, hticks]
    decide
  · apply hcall.returns _ (by omega)
    rw [toNat_ofInt, hticks]
    decide

end Stk.Analysis
