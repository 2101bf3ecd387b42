import Stk.Analysis.DispatchRun
import Stk.Analysis.InfiniteSleep
import Stk.Analysis.TaskBinding
import Stk.Model.FrtosTask

/-!
# The running task

Along careful steps a tick, or `OnStart`, hands the CPU to a task that does not sleep, and no other call
hands it to anybody.  A task that is put to sleep while it runs keeps the CPU until the next tick.
-/

set_option autoImplicit false

namespace Stk.Analysis

open Stk.Model Stk.Model.Kernel

variable {n : ℕ} {σ : Type} [SwitchStrategy (Fin n) σ] {cfg : Config} {k k' : Kernel n σ} {j : Fin n}

omit [SwitchStrategy (Fin n) σ] in
/-- INTERNAL: the running task follows from the FSM. -/
theorem running_congr (hnow : k'.taskNow = k.taskNow) (hfsm : k'.fsmState = k.fsmState) :
    k'.running = k.running := by
  unfold Kernel.running
  rw [hnow, hfsm]

omit [SwitchStrategy (Fin n) σ] in
theorem running_taskNow (h : k.running = some j) : k.taskNow = some j := by
  unfold Kernel.running at h
  split at h
  · exact h
  · exact h
  · cases h

/-- INTERNAL: the FSM hands the CPU to the task that `FetchNextEvent` got. -/
theorem updateFsmState_running (hfsm : Dispatching k) (hrun : (k.updateFsmState cfg).1.running = some j) :
    (k.fetchNextEvent cfg).2.1 = some j := by
  obtain ⟨-, -, hnow, hstate, hsome, hnone⟩ := fetchNextEvent_frame cfg k
  unfold Kernel.updateFsmState at hrun
  dsimp only at hrun
  generalize k.fetchNextEvent cfg = f at hnow hstate hsome hnone hrun ⊢
  obtain ⟨event, next, k₁⟩ := f
  dsimp only at hnow hstate hsome hnone hrun ⊢
  cases next with
  | none =>
    -- the FSM goes to sleep, stays asleep or exits: nobody runs
    have hdone : fsm k.fsmState event = .exiting ∨ fsm k.fsmState event = .sleeping ∨
        (fsm k.fsmState event = .none ∧ k₁.fsmState = .sleeping) := by
      rw [hstate]
      rcases hnone rfl with rfl | rfl
      · rcases hfsm with h | h | h
        · exact .inl (by rw [h]; rfl)
        · exact .inl (by rw [h]; rfl)
        · exact .inl (by rw [h]; rfl)
      · rcases hfsm with h | h | h
        · exact .inr (.inl (by rw [h]; rfl))
        · exact .inr (.inl (by rw [h]; rfl))
        · exact .inr (.inr ⟨by rw [h]; rfl, h⟩)
    rcases hdone with h | h | ⟨h, hs⟩
    · rw [h] at hrun
      simp [Kernel.running] at hrun
    · rw [h] at hrun
      simp [Kernel.running] at hrun
    · rw [h] at hrun
      simp [Kernel.running, hs] at hrun
  | some next =>
    rw [hsome next rfl] at hrun
    by_cases hsleep : k.fsmState = .sleeping
    · rw [if_pos hsleep, hsleep] at hrun
      simpa [fsm, Kernel.stateWake, Kernel.running] using hrun
    · rw [if_neg hsleep] at hrun
      have hswitch : fsm k.fsmState .switch = .switching := by
        rcases hfsm with h | h | h
        · rw [h]; rfl
        · rw [h]; rfl
        · exact absurd h hsleep
      rw [hswitch] at hrun
      simp only [Kernel.running] at hrun
      cases hnow' : k.taskNow with
      | none =>
        rw [hnow'] at hrun
        simp [Kernel.stateSwitch, Kernel.fault, hnow, hnow'] at hrun
      | some now =>
        rw [hnow'] at hrun
        simp only [Kernel.stateSwitch] at hrun
        split at hrun
        · split at hrun
          · exact hrun
          · exact hrun
        · next hsame =>
          rw [hnow, hnow'] at hrun
          rw [not_not.mp hsame]
          exact hrun

variable [StrategyLists (Fin n) σ] [SleepAware (Fin n) σ]

/-- INTERNAL: a tick. -/
theorem onTick_running (hcfg : WeightsOk σ cfg) (hhrt : cfg.isHrtMode = false) (h : Rest cfg k) {e : ℤ} (he : 0 < e)
    (hcareful : Careful cfg k (.onTick e)) (hstarted : k.taskNow ≠ none)
    (hrun : (k.onTick cfg e).1.running = some j) : ((k.onTick cfg e).1.tasks j).isSleeping = false := by
  obtain ⟨hgood, hset, -, -, hfsm⟩ := updateTasks_good hcfg h.1 h.2 he hcareful.1
  obtain ⟨hnone, hexiting⟩ := h.2.fsm hstarted
  have hdispatching : Dispatching (({ k with ticks := k.ticks + e } : Kernel n σ).updateTasks cfg e).1 := by
    unfold Dispatching
    rw [hfsm]
    cases hk : k.fsmState with
    | none => exact absurd hk hnone
    | exiting => exact absurd hk hexiting
    | switching => exact .inl rfl
    | waking => exact .inr (.inl rfl)
    | sleeping => exact .inr (.inr rfl)
  have hsame := SameSlot.updateFsmState cfg
    (not_rearms hhrt (({ k with ticks := k.ticks + e } : Kernel n σ).updateTasks cfg e).1 j)
  obtain ⟨-, -, -, -, hnext, -⟩ := hgood.fetchNextEvent hset
  have hawake := (hnext j (updateFsmState_running hdispatching hrun)).2
  have htime : ((k.onTick cfg e).1.tasks j).timeSleep =
      ((({ k with ticks := k.ticks + e } : Kernel n σ).updateTasks cfg e).1.tasks j).timeSleep := hsame.time
  rw [KernelTask.isSleeping, htime]
  simpa using hawake

/-- INTERNAL: the start. -/
theorem onStart_running (h : Rest cfg k) (hrun : (k.onStart cfg).running = some j) :
    ((k.onStart cfg).tasks j).isSleeping = false := by
  obtain ⟨hgood, hset, -⟩ := deliverSlots cfg (List.finRange n) h.1
    (fun i hi => absurd (List.mem_finRange i) hi)
  unfold Kernel.onStart at hrun ⊢
  dsimp only at hrun ⊢
  generalize (List.finRange n).foldl (fun k i =>
    if (k.tasks i).isSleeping then k.deliverSleep cfg i else k) k = k₁ at hgood hset hrun ⊢
  have hswitch : Good cfg (fun _ => 0) (fun _ => 0) ({ k₁ with fsmState := .switching } : Kernel n σ) :=
    hgood.setNow k₁.taskNow (fun hn => hgood.idle (Or.inl hn))
  obtain ⟨-, htasks, -, -, hnext, -, -⟩ := hswitch.fetchNextEvent hset
  obtain ⟨-, -, -, -, hsome, hnone⟩ := fetchNextEvent_frame cfg ({ k₁ with fsmState := .switching } : Kernel n σ)
  generalize ({ k₁ with fsmState := .switching } : Kernel n σ).fetchNextEvent cfg = f at *
  obtain ⟨event, next, k₂⟩ := f
  dsimp only at htasks hnext hsome hnone hrun ⊢
  cases next with
  | some next =>
    have hevent : event = .switch := hsome next rfl
    subst hevent
    simp only [fsm] at hrun ⊢
    obtain rfl : next = j := by simpa [Kernel.running] using hrun
    have hawake := (hnext next rfl).2
    rw [htasks]
    simpa [KernelTask.isSleeping] using hawake
  | none =>
    rcases hnone rfl with rfl | rfl
    · simp [fsm, Kernel.running, Kernel.fault] at hrun
    · simp only [fsm] at hrun
      split at hrun
      · simp [Kernel.running] at hrun
      · simp [Kernel.running, Kernel.fault] at hrun

/-- A call hands the CPU to nobody but a task that does not sleep. -/
theorem step_running (hcfg : WeightsOk σ cfg) (hhrt : cfg.isHrtMode = false) (h : Rest cfg k)
    {e : KernelEvent n} (he : Careful cfg k e) (hrun : (k.step cfg e).running = some j) :
    k.running = some j ∨ ((k.step cfg e).tasks j).isSleeping = false := by
  have hkeeps : ∀ k' : Kernel n σ, k'.taskNow = k.taskNow → k'.fsmState = k.fsmState →
      k'.running = some j → k.running = some j := by
    intro k' hnow hfsm hrun'
    rw [← running_congr hnow hfsm]
    exact hrun'
  by_cases hcalm : KernelEvent.rebinds e = false
  · have hsame := step_calm cfg k hcalm
    exact .inl (hkeeps _ hsame.taskNow hsame.fsmState hrun)
  cases e with
  | onTick t =>
    simp only [Kernel.step] at hrun ⊢
    split at hrun
    · next hticks =>
      simp only [Bool.and_eq_true, validElapsed, decide_eq_true_eq] at hticks
      rw [if_pos (by simpa [validElapsed] using hticks)]
      exact .inr (onTick_running hcfg hhrt h hticks.2.1.1 he (Option.isSome_iff_ne_none.mp hticks.1) hrun)
    · exact .inl hrun
  | onStart =>
    simp only [Kernel.step] at hrun ⊢
    split at hrun
    · next hstart =>
      rw [if_pos hstart]
      exact .inr (onStart_running h hrun)
    · exact .inl hrun
  | onStop =>
    simp only [Kernel.step] at hrun
    split at hrun
    · simp [Kernel.running] at hrun
    · exact .inl hrun
  | addTask u =>
    left
    simp only [Kernel.step] at hrun
    split at hrun
    · obtain ⟨hnow, hfsm, -⟩ := KeepsBound.allocateAndAddNewTask cfg k u
      exact hkeeps _ hnow hfsm hrun
    · exact hrun
  | addTaskHrt u p d s =>
    left
    simp only [Kernel.step] at hrun
    split at hrun
    · obtain ⟨hnow, hfsm, -⟩ := KeepsBound.hrtAllocateAndAddNewTask cfg k u p d s
      exact hkeeps _ hnow hfsm hrun
    · exact hrun
  | removeTask u =>
    left
    simp only [Kernel.step] at hrun
    split at hrun
    · split at hrun
      · exact hrun
      · next i _ =>
        obtain ⟨-, -, -, hnow, hfsm⟩ := removeTask_frame cfg k i
        exact hkeeps _ hnow hfsm hrun
    · exact hrun
  | taskExit i =>
    left
    simp only [Kernel.step] at hrun
    split at hrun
    · exact hrun
    · exact hrun
  | scheduleTaskRemoval u =>
    left
    simp only [Kernel.step] at hrun
    split at hrun
    · split at hrun
      · exact hrun
      · exact hrun
    · exact hrun
  | inheritWeight u w =>
    obtain ⟨hnow, hfsm, -⟩ := KeepsBound.onInheritWeight cfg k u w
    exact .inl (hkeeps _ hnow hfsm hrun)
  | restoreWeight u o =>
    obtain ⟨hnow, hfsm, -⟩ := KeepsBound.onRestoreWeight cfg k u o
    exact .inl (hkeeps _ hnow hfsm hrun)
  | _ => exact absurd rfl hcalm

end Stk.Analysis
