import Stk.Analysis.StrategyListInvariant
import Stk.Analysis.SyncTick

/-!
# The ticks that may be suppressed

In `KERNEL_TICKLESS` mode `OnTick` returns the ticks that the driver may let pass before the
next call.  `UpdateTaskState` gathers them in its loop over the slots, as the least of the
times the tasks have left to sleep or to wait (`onTick_interval`).

A strategy is asked for a task also when all of them sleep; `IdleAware` says that it then has
none and keeps its state.
-/

set_option autoImplicit false

namespace Stk.Analysis

open Stk.Model Stk.Model.Kernel

/-! ## Strategies with nothing to run -/

/-- A strategy without a runnable task answers `GetNext` with none and keeps its state. -/
class IdleAware (α : outParam Type) (σ : Type) [SwitchStrategy α σ] [StrategyLists α σ]
    [SleepAware α σ] : Prop where
  getNext_idle : ∀ {v : TaskView α} {s : σ}, SleepAware.Wf v.weight s → runnable s = [] →
    SwitchStrategy.getNext v s = .ok (none, s)

section Instances

variable {α : Type} [DecidableEq α]

instance : IdleAware α (RoundRobin α) where
  getNext_idle := by
    intro v s hwf hnil
    rw [runnable_roundRobin] at hnil
    have hcursor : s.prev = none := by
      cases hprev : s.prev with
      | none => rfl
      | some x =>
        have hmem : x ∈ s.tasks := hwf.loop.cursor_mem x hprev
        rw [hnil] at hmem
        cases hmem
    simp [SwitchStrategy.getNext, RoundRobin.getNext, hcursor]

instance : IdleAware α (SmoothWeightedRoundRobin α) where
  getNext_idle := by
    intro v s _ hnil
    rw [runnable_smooth] at hnil
    simp [SwitchStrategy.getNext, SmoothWeightedRoundRobin.getNext, hnil]

instance : IdleAware α (EarliestDeadlineFirst α) where
  getNext_idle := by
    intro v s _ hnil
    rw [runnable_edf] at hnil
    simp [SwitchStrategy.getNext, EarliestDeadlineFirst.getNext, hnil]

instance {P : ℕ} [Fact (P ≤ 32)] : IdleAware α (FixedPriority P α) where
  getNext_idle := by
    intro v s hwf hnil
    have hbit : s.readyBitmap = 0 := by
      apply BitVec.eq_of_getLsbD_eq
      intro p _
      by_contra hne
      have hset : s.readyBitmap.getLsbD p = true := by simpa using hne
      obtain ⟨t, ht⟩ := List.exists_mem_of_ne_nil _ ((hwf.bit p).mp hset)
      have hmem := (mem_runnable_fixedPriority hwf t).mpr ⟨p, ht⟩
      rw [hnil] at hmem
      cases hmem
    simp [SwitchStrategy.getNext, FixedPriority.getNext, hbit]

end Instances

variable {n : ℕ} {σ : Type} [SwitchStrategy (Fin n) σ] {cfg : Config} {k : Kernel n σ} {i : Fin n}
  {e : ℤ}

/-! ## The returned interval -/

omit [SwitchStrategy (Fin n) σ] in
theorem getSleepTicks_bounds (cfg : Config) (t : KernelTask) {s : ℤ} (hs : 1 ≤ s) :
    1 ≤ t.getSleepTicks cfg s ∧ t.getSleepTicks cfg s ≤ s := by
  unfold KernelTask.getSleepTicks
  dsimp only
  refine ⟨le_max_left _ _, max_le hs ?_⟩
  split
  · split
    · split
      · exact min_le_left _ _
      · exact le_rfl
    · exact min_le_left _ _
  · exact min_le_left _ _

/-- The interval `r` reaches no further than the end of the sleep or of the wait of `t`. -/
structure Within (cfg : Config) (r : ℤ) (t : KernelTask) : Prop where
  sleep : (cfg.isSyncMode && t.isWaiting) = false → r ≤ max 1 (-t.timeSleep)
  wait : (cfg.isSyncMode && t.isWaiting) = true → 0 < t.waitObj.timeWait → r ≤ t.waitObj.timeWait

theorem within_getSleepTicks (cfg : Config) (t : KernelTask) (s : ℤ) :
    Within cfg (t.getSleepTicks cfg s) t := by
  have hzero : noWait = 0 := rfl
  unfold KernelTask.getSleepTicks
  dsimp only
  constructor
  · intro hs
    by_cases hsync : cfg.isSyncMode = true
    · rw [if_pos hsync, if_neg (by simpa [hsync] using hs)]
      omega
    · rw [if_neg hsync]
      omega
  · intro hw hpos
    simp only [Bool.and_eq_true] at hw
    rw [if_pos hw.1, if_pos hw.2, if_pos (show t.waitObj.timeWait > noWait from hpos)]
    omega

theorem within_one (cfg : Config) (t : KernelTask) {r : ℤ} (hr : r ≤ 1) : Within cfg r t :=
  ⟨fun _ => by omega, fun _ hpos => by omega⟩

theorem updateSlot_interval (cfg : Config) (e : ℤ) (i : Fin n) {acc : Kernel n σ × ℤ} (h : 1 ≤ acc.2) :
    1 ≤ (updateSlot cfg e acc i).2 ∧ (updateSlot cfg e acc i).2 ≤ acc.2 := by
  unfold Kernel.updateSlot
  dsimp only
  split
  · exact ⟨h, le_rfl⟩
  · dsimp only
    generalize (if (acc.1.tasks i).isSleeping then (acc.1.deliverSleep cfg i).advanceSleep cfg e i
      else acc.1.advanceDuration cfg e i) = k₁
    split
    · exact getSleepTicks_bounds cfg _ h
    · exact ⟨h, le_rfl⟩

theorem updateSlots_interval (cfg : Config) (e : ℤ) (l : List (Fin n)) :
    ∀ {acc : Kernel n σ × ℤ}, 1 ≤ acc.2 →
      1 ≤ (l.foldl (updateSlot cfg e) acc).2 ∧ (l.foldl (updateSlot cfg e) acc).2 ≤ acc.2 := by
  induction l with
  | nil => exact fun h => ⟨h, le_rfl⟩
  | cons i l ih =>
    intro acc h
    obtain ⟨hone, hle⟩ := updateSlot_interval cfg e i h
    obtain ⟨hone', hle'⟩ := ih hone
    exact ⟨hone', hle'.trans hle⟩

/-- INTERNAL: the turn of a slot in the loop of `UpdateTaskState` bounds the interval by its own
timeout. -/
theorem updateSlot_within (htickless : cfg.isTicklessMode = true) {acc : Kernel n σ × ℤ}
    (h : 1 ≤ acc.2) (hbusy : ((updateSlot cfg e acc i).1.tasks i).isBusy = true) :
    Within cfg (updateSlot cfg e acc i).2 ((updateSlot cfg e acc i).1.tasks i) := by
  unfold Kernel.updateSlot at hbusy ⊢
  dsimp only at hbusy ⊢
  split at hbusy
  · have hfree := (removeTask_frame cfg acc.1 i).2.2.1
    simp [KernelTask.isBusy, hfree] at hbusy
  · next hkeep =>
    rw [if_neg hkeep]
    dsimp only at hbusy ⊢
    by_cases hmore : acc.2 > 1
    · rw [if_pos (by simp [htickless, hmore, hbusy])]
      exact within_getSleepTicks cfg _ _
    · rw [if_neg (by simp [hmore])]
      exact within_one cfg _ (by omega)

/-- INTERNAL: the interval that `UpdateTaskState` returns is within the timeouts of all bound
tasks, as it leaves them. -/
theorem updateTaskState_within (htickless : cfg.isTicklessMode = true) (hmax : 1 ≤ cfg.ticklessTicksMax)
    (k : Kernel n σ) (e : ℤ) (hbusy : ((k.updateTaskState cfg e).1.tasks i).isBusy = true) :
    Within cfg (k.updateTaskState cfg e).2 ((k.updateTaskState cfg e).1.tasks i) := by
  obtain ⟨l₁, l₂, hl⟩ := List.append_of_mem (List.mem_finRange i)
  have hnd : (l₁ ++ i :: l₂).Nodup := hl ▸ List.nodup_finRange n
  obtain ⟨-, hnd₂, -⟩ := List.nodup_append.mp hnd
  have hi₂ : i ∉ l₂ := (List.nodup_cons.mp hnd₂).1
  unfold Kernel.updateTaskState at hbusy ⊢
  rw [if_pos htickless, hl, List.foldl_append, List.foldl_cons] at hbusy ⊢
  have hbefore : 1 ≤ ((k, cfg.ticklessTicksMax) : Kernel n σ × ℤ).2 := hmax
  obtain ⟨hone, -⟩ := updateSlots_interval cfg e l₁ hbefore
  generalize l₁.foldl (updateSlot cfg e) (k, cfg.ticklessTicksMax) = acc at hone hbusy ⊢
  have hafter := SameSlot.updateSlots_ne cfg e l₂ (updateSlot cfg e acc i) hi₂
  have hturn : Within cfg (updateSlot cfg e acc i).2 ((updateSlot cfg e acc i).1.tasks i) := by
    apply updateSlot_within htickless hone
    rw [KernelTask.isBusy, ← hafter.user]
    exact hbusy
  have hle := (updateSlots_interval cfg e l₂ (updateSlot_interval cfg e i hone).1).2
  have hwaiting : ((l₂.foldl (updateSlot cfg e) (updateSlot cfg e acc i)).1.tasks i).isWaiting =
      ((updateSlot cfg e acc i).1.tasks i).isWaiting := by
    simp only [KernelTask.isWaiting, hafter.waitObj]
  constructor
  · intro hs
    rw [hwaiting] at hs
    rw [hafter.time]
    exact hle.trans (hturn.sleep hs)
  · intro hw
    rw [hwaiting] at hw
    rw [hafter.waitObj]
    exact fun hpos => hle.trans (hturn.wait hw hpos)

/-- **The returned interval.**  It is at least one tick, at most the configured maximum and at
most the rest of every timed sleep or wait. -/
theorem onTick_interval (htickless : cfg.isTicklessMode = true) (hhrt : cfg.isHrtMode = false)
    (hmax : 1 ≤ cfg.ticklessTicksMax) (k : Kernel n σ) (e : ℤ) :
    1 ≤ (k.onTick cfg e).2.ticks ∧ (k.onTick cfg e).2.ticks ≤ cfg.ticklessTicksMax ∧
      ∀ i, ((k.onTick cfg e).1.tasks i).isBusy = true →
        Within cfg (k.onTick cfg e).2.ticks ((k.onTick cfg e).1.tasks i) := by
  unfold Kernel.onTick Kernel.updateTasks
  dsimp only
  generalize (if cfg.isSyncMode then ({ k with ticks := k.ticks + e } : Kernel n σ).updateSyncObjects e
    else ({ k with ticks := k.ticks + e } : Kernel n σ)) = k₁
  generalize (if k₁.request then k₁.updateTaskRequest cfg else k₁) = k₂
  have hbefore : 1 ≤ ((k₂, cfg.ticklessTicksMax) : Kernel n σ × ℤ).2 := hmax
  obtain ⟨hone, hle⟩ := updateSlots_interval cfg e (List.finRange n) hbefore
  have hunfold : (List.finRange n).foldl (updateSlot cfg e) (k₂, cfg.ticklessTicksMax) =
      k₂.updateTaskState cfg e := by
    unfold Kernel.updateTaskState
    rw [if_pos htickless]
  rw [hunfold] at hone hle
  refine ⟨hone, hle, ?_⟩
  intro i hbusy
  have hfsm := SameSlot.updateFsmState cfg (not_rearms hhrt (k₂.updateTaskState cfg e).1 i)
  have hwithin := updateTaskState_within htickless hmax k₂ e (i := i) (by
    rw [KernelTask.isBusy, ← hfsm.user]
    exact hbusy)
  have hwaiting : (((k₂.updateTaskState cfg e).1.updateFsmState cfg).1.tasks i).isWaiting =
      ((k₂.updateTaskState cfg e).1.tasks i).isWaiting := by
    simp only [KernelTask.isWaiting, hfsm.waitObj]
  constructor
  · intro hs
    rw [hwaiting] at hs
    rw [hfsm.time]
    exact hwithin.sleep hs
  · intro hw
    rw [hwaiting] at hw
    rw [hfsm.waitObj]
    exact hwithin.wait hw

end Stk.Analysis
