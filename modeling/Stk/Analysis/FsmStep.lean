import Stk.Analysis.KernelTick

/-!
# One step of the FSM

`UpdateFsmState` (stk.h:2147-2332) asks the strategy for the next task and moves on from there.
`FsmStep` lists everything it can do in a started kernel, with the stacks it hands out.
-/

set_option autoImplicit false

namespace Stk.Analysis

open Stk.Model Stk.Model.Kernel

variable {n : ℕ} {σ : Type} [SwitchStrategy (Fin n) σ] {cfg : Config} {k : Kernel n σ} {now : Fin n}

/-- INTERNAL: `FetchNextEvent` calls the strategy and writes nothing else; the event follows
from the task it got. -/
theorem fetchNextEvent_frame (cfg : Config) (k : Kernel n σ) :
    (k.fetchNextEvent cfg).2.2.tasks = k.tasks ∧ (k.fetchNextEvent cfg).2.2.ticks = k.ticks ∧
      (k.fetchNextEvent cfg).2.2.taskNow = k.taskNow ∧
      (k.fetchNextEvent cfg).2.2.fsmState = k.fsmState ∧
      (∀ j, (k.fetchNextEvent cfg).2.1 = some j →
        (k.fetchNextEvent cfg).1 = if k.fsmState = .sleeping then .wake else .switch) ∧
      ((k.fetchNextEvent cfg).2.1 = none →
        (k.fetchNextEvent cfg).1 = .exit ∨ (k.fetchNextEvent cfg).1 = .sleep) := by
  have hcall : (k.callStrategy cfg .getNext).2.tasks = k.tasks ∧
      (k.callStrategy cfg .getNext).2.ticks = k.ticks ∧
      (k.callStrategy cfg .getNext).2.taskNow = k.taskNow ∧
      (k.callStrategy cfg .getNext).2.fsmState = k.fsmState := by
    unfold Kernel.callStrategy
    split <;> exact ⟨rfl, rfl, rfl, rfl⟩
  unfold Kernel.fetchNextEvent
  generalize k.callStrategy cfg .getNext = f at hcall
  obtain ⟨_ | next, k₁⟩ := f
  · obtain ⟨htasks, hticks, hnow, hfsm⟩ := hcall
    dsimp only
    split
    · exact ⟨htasks, hticks, hnow, hfsm, (fun _ hj => nomatch hj), fun _ => .inl rfl⟩
    · exact ⟨htasks, hticks, hnow, hfsm, (fun _ hj => nomatch hj), fun _ => .inr rfl⟩
  · obtain ⟨htasks, hticks, hnow, hfsm⟩ := hcall
    dsimp only at htasks hticks hnow hfsm ⊢
    have hsame : ∀ k₂ : Kernel n σ, k₂ = (if (k₁.tasks next).isSleeping then k₁.fault .nextSleeping else k₁) →
        k₂.tasks = k.tasks ∧ k₂.ticks = k.ticks ∧ k₂.taskNow = k.taskNow ∧ k₂.fsmState = k.fsmState := by
      rintro k₂ rfl
      split <;> exact ⟨htasks, hticks, hnow, hfsm⟩
    generalize (if (k₁.tasks next).isSleeping then k₁.fault .nextSleeping else k₁) = k₂ at hsame
    obtain ⟨htasks₂, hticks₂, hnow₂, hfsm₂⟩ := hsame k₂ rfl
    exact ⟨htasks₂, hticks₂, hnow₂, hfsm₂, fun _ _ => by rw [hfsm₂], fun hnone => nomatch hnone⟩

/-- The FSM of a started kernel is in one of three states. -/
def Dispatching (k : Kernel n σ) : Prop :=
  k.fsmState = .switching ∨ k.fsmState = .waking ∨ k.fsmState = .sleeping

/-- One step of the FSM with the current task `now`: the kernel after it, whether the context is
switched, and the idle and the active stack. -/
inductive FsmStep (cfg : Config) (k : Kernel n σ) (now : Fin n) :
    Kernel n σ × Bool × Option (StackId n) × Option (StackId n) → Prop where
  | keep (hnext : (k.fetchNextEvent cfg).2.1 = some now) (hfsm : k.fsmState ≠ .sleeping) :
      FsmStep cfg k now ({ (k.fetchNextEvent cfg).2.2 with fsmState := .switching }, false, none, none)
  | switch (next : Fin n) (hnext : (k.fetchNextEvent cfg).2.1 = some next) (hne : next ≠ now)
      (hfsm : k.fsmState ≠ .sleeping) :
      FsmStep cfg k now ({ (if cfg.isHrtMode && (k.tasks now).hrt.done then
          (k.fetchNextEvent cfg).2.2.hrtOnSwitchedOut now else (k.fetchNextEvent cfg).2.2) with
        taskNow := some next, fsmState := .switching }, true, some (.task now), some (.task next))
  | wake (next : Fin n) (hnext : (k.fetchNextEvent cfg).2.1 = some next) (hfsm : k.fsmState = .sleeping) :
      FsmStep cfg k now ({ (k.fetchNextEvent cfg).2.2 with taskNow := some next, fsmState := .waking },
        true, some .sleepTrap, some (.task next))
  | sleep (first : Fin n) (hnext : (k.fetchNextEvent cfg).2.1 = none) (hevent : (k.fetchNextEvent cfg).1 = .sleep)
      (hfirst : SwitchStrategy.getFirst (k.fetchNextEvent cfg).2.2.strategy = some first)
      (hfsm : k.fsmState ≠ .sleeping) :
      FsmStep cfg k now ({ (if cfg.isHrtMode && !(k.tasks now).removePending then
          (k.fetchNextEvent cfg).2.2.hrtOnSwitchedOut now else (k.fetchNextEvent cfg).2.2) with
        taskNow := some first, fsmState := .sleeping }, true, some (.task now), some .sleepTrap)
  | rest (hnext : (k.fetchNextEvent cfg).2.1 = none) (hevent : (k.fetchNextEvent cfg).1 = .sleep)
      (hfsm : k.fsmState = .sleeping) :
      FsmStep cfg k now ((k.fetchNextEvent cfg).2.2, false, none, none)
  | exit (hnext : (k.fetchNextEvent cfg).2.1 = none) (hevent : (k.fetchNextEvent cfg).1 = .exit) :
      FsmStep cfg k now ({ (k.fetchNextEvent cfg).2.2 with taskNow := none, fsmState := .exiting },
        false, none, some .exitTrap)

/-- INTERNAL: an exit is reported in `KERNEL_DYNAMIC` mode only. -/
theorem fetchNextEvent_exit (h : (k.fetchNextEvent cfg).1 = .exit) : cfg.isDynamicMode = true ∧
    SwitchStrategy.getSize (k.fetchNextEvent cfg).2.2.strategy = 0 := by
  cases hnext : (k.fetchNextEvent cfg).2.1 with
  | some next =>
    obtain ⟨-, -, -, -, hsome, -⟩ := fetchNextEvent_frame cfg k
    rw [hsome next hnext] at h
    split at h
    · cases h
    · cases h
  | none =>
    unfold Kernel.fetchNextEvent at h hnext ⊢
    generalize k.callStrategy cfg .getNext = f at h hnext ⊢
    obtain ⟨_ | next, k₁⟩ := f
    · dsimp only at h ⊢
      split at h
      · next hexit =>
        rw [if_pos hexit]
        simpa using hexit
      · cases h
    · cases hnext

theorem updateFsmState_step (hnow : k.taskNow = some now) (hfsm : Dispatching k)
    (hfirst : (k.fetchNextEvent cfg).1 = .sleep → k.fsmState ≠ .sleeping →
      SwitchStrategy.getFirst (k.fetchNextEvent cfg).2.2.strategy ≠ none) :
    FsmStep cfg k now (k.updateFsmState cfg) := by
  obtain ⟨htasks, -, hnow', hfsm', hsome, hnone⟩ := fetchNextEvent_frame cfg k
  have hdyn : (k.fetchNextEvent cfg).1 = .exit → cfg.isDynamicMode = true ∧
      SwitchStrategy.getSize (k.fetchNextEvent cfg).2.2.strategy = 0 := fetchNextEvent_exit
  have hrunning : k.fsmState ≠ .sleeping → k.fsmState = .switching ∨ k.fsmState = .waking := by
    intro hne
    rcases hfsm with h | h | h
    · exact .inl h
    · exact .inr h
    · exact absurd h hne
  have hexits : fsm k.fsmState .exit = .exiting := by
    rcases hfsm with h | h | h
    · rw [h]; rfl
    · rw [h]; rfl
    · rw [h]; rfl
  unfold Kernel.updateFsmState
  dsimp only
  rw [hnow]
  cases hnext : (k.fetchNextEvent cfg).2.1 with
  | some next =>
    have hevent := hsome next hnext
    by_cases hsleeping : k.fsmState = .sleeping
    · rw [if_pos hsleeping] at hevent
      have hnew : fsm k.fsmState (k.fetchNextEvent cfg).1 = .waking := by rw [hevent, hsleeping]; rfl
      rw [hnew]
      exact .wake next hnext hsleeping
    · rw [if_neg hsleeping] at hevent
      have hnew : fsm k.fsmState (k.fetchNextEvent cfg).1 = .switching := by
        rw [hevent]
        rcases hrunning hsleeping with h | h
        · rw [h]; rfl
        · rw [h]; rfl
      rw [hnew]
      simp only [Kernel.stateSwitch]
      by_cases hne : next = now
      · subst hne
        rw [if_neg (not_not.mpr rfl)]
        exact .keep hnext hsleeping
      · rw [if_pos hne]
        have hstep : FsmStep cfg k now _ := .switch next hnext hne hsleeping
        rw [← htasks] at hstep
        by_cases hdone : (cfg.isHrtMode && ((k.fetchNextEvent cfg).2.2.tasks now).hrt.done) = true
        · rw [if_pos hdone] at hstep
          rw [if_pos hdone]
          exact hstep
        · rw [if_neg hdone] at hstep
          rw [if_neg hdone]
          exact hstep
  | none =>
    rcases hnone hnext with hevent | hevent
    · rw [hevent, hexits]
      simp only [Kernel.stateExit, (hdyn hevent).1, ↓reduceIte]
      exact .exit hnext hevent
    · by_cases hsleeping : k.fsmState = .sleeping
      · have hnew : fsm k.fsmState (k.fetchNextEvent cfg).1 = .none := by rw [hevent, hsleeping]; rfl
        rw [hnew]
        exact .rest hnext hevent hsleeping
      · have hnew : fsm k.fsmState (k.fetchNextEvent cfg).1 = .sleeping := by
          rw [hevent]
          rcases hrunning hsleeping with h | h
          · rw [h]; rfl
          · rw [h]; rfl
        obtain ⟨first, hsomefirst⟩ := Option.ne_none_iff_exists'.mp (hfirst hevent hsleeping)
        rw [hnew]
        simp only [Kernel.stateSleep, hsomefirst]
        have hstep : FsmStep cfg k now _ := .sleep first hnext hevent hsomefirst hsleeping
        rw [← htasks] at hstep
        by_cases hlive : (cfg.isHrtMode && !((k.fetchNextEvent cfg).2.2.tasks now).removePending) = true
        · rw [if_pos hlive] at hstep
          rw [if_pos hlive]
          exact hstep
        · rw [if_neg hlive] at hstep
          rw [if_neg hlive]
          exact hstep

/-! ## The slot that is switched out -/

/-- INTERNAL: the running task is switched out at the end of its job. -/
theorem switchedOut_some (hhrt : cfg.isHrtMode = true) (hnow : k.taskNow = some now) (hfsm : Dispatching k)
    (hrunning : k.fsmState ≠ .sleeping) {next : Fin n} (hnext : (k.fetchNextEvent cfg).2.1 = some next) :
    switchedOut cfg k = if next ≠ now ∧ (k.tasks now).hrt.done = true then some now else none := by
  obtain ⟨-, -, -, -, hsome, -⟩ := fetchNextEvent_frame cfg k
  have hnew : fsm k.fsmState (k.fetchNextEvent cfg).1 = .switching := by
    rw [hsome next hnext, if_neg hrunning]
    rcases hfsm with h | h | h
    · rw [h]; rfl
    · rw [h]; rfl
    · exact absurd h hrunning
  unfold switchedOut
  rw [if_pos hhrt, hnew, hnow]
  dsimp only
  rw [hnext]
  simp only [ne_eq, Option.some.injEq]

/-- INTERNAL: the last task that falls asleep is switched out unless it is to be removed. -/
theorem switchedOut_none (hhrt : cfg.isHrtMode = true) (hnow : k.taskNow = some now) (hfsm : Dispatching k)
    (hrunning : k.fsmState ≠ .sleeping) (hevent : (k.fetchNextEvent cfg).1 = .sleep) :
    switchedOut cfg k = if (k.tasks now).removePending then none else some now := by
  have hnew : fsm k.fsmState (k.fetchNextEvent cfg).1 = .sleeping := by
    rw [hevent]
    rcases hfsm with h | h | h
    · rw [h]; rfl
    · rw [h]; rfl
    · exact absurd h hrunning
  unfold switchedOut
  rw [if_pos hhrt, hnew, hnow]

/-- INTERNAL: no task is switched out while the kernel sleeps. -/
theorem switchedOut_sleeping (hs : k.fsmState = .sleeping) : switchedOut cfg k = none := by
  unfold switchedOut
  split
  · obtain ⟨-, -, -, -, hsome, hnone⟩ := fetchNextEvent_frame cfg k
    rw [hs]
    cases hnext : (k.fetchNextEvent cfg).2.1 with
    | some next =>
      rw [hsome next hnext, if_pos hs]
      rfl
    | none =>
      rcases hnone hnext with hevent | hevent
      · rw [hevent]
        rfl
      · rw [hevent]
        rfl
  · rfl

/-- INTERNAL: the FSM writes the slot that it switches out, and no other. -/
theorem updateFsmState_tasks (hnow : k.taskNow = some now) (hfsm : Dispatching k)
    (hfirst : (k.fetchNextEvent cfg).1 = .sleep → k.fsmState ≠ .sleeping →
      SwitchStrategy.getFirst (k.fetchNextEvent cfg).2.2.strategy ≠ none) (j : Fin n) :
    (k.updateFsmState cfg).1.tasks j = if switchedOut cfg k = some j then
      (k.tasks j).hrtOnSwitchedOut (SwitchStrategy.sleepEventApi σ) else k.tasks j := by
  obtain ⟨htasks, -, -, -, hsome, hnone⟩ := fetchNextEvent_frame cfg k
  have hstep := updateFsmState_step hnow hfsm hfirst
  -- what a branch of the FSM that may switch out does to the slots
  have hout : ∀ b : Bool, switchedOut cfg k = (if b then some now else none) →
      (if b then (k.fetchNextEvent cfg).2.2.hrtOnSwitchedOut now else (k.fetchNextEvent cfg).2.2).tasks j =
        if switchedOut cfg k = some j then (k.tasks j).hrtOnSwitchedOut (SwitchStrategy.sleepEventApi σ)
        else k.tasks j := by
    intro b hb
    rw [hb]
    cases b with
    | false => simp [htasks]
    | true =>
      by_cases hj : now = j
      · subst hj
        simp [Kernel.hrtOnSwitchedOut, Kernel.setTask, htasks]
      · simp [Kernel.hrtOnSwitchedOut, Kernel.setTask, htasks, hj, Ne.symm hj]
  have hidle : switchedOut cfg k = none → (k.fetchNextEvent cfg).2.2.tasks j =
      if switchedOut cfg k = some j then (k.tasks j).hrtOnSwitchedOut (SwitchStrategy.sleepEventApi σ)
      else k.tasks j := by
    intro hno
    rw [hno, htasks]
    rfl
  have hlow : cfg.isHrtMode = false → switchedOut cfg k = none := by
    intro hhrt
    simp [switchedOut, hhrt]
  generalize k.updateFsmState cfg = r at hstep
  cases hstep with
  | keep hnext hawake =>
    refine hidle ?_
    cases hhrt : cfg.isHrtMode with
    | false => exact hlow hhrt
    | true =>
      rw [switchedOut_some hhrt hnow hfsm hawake hnext]
      exact if_neg (fun h => h.1 rfl)
  | switch next hnext hne hawake =>
    refine hout _ ?_
    cases hhrt : cfg.isHrtMode with
    | false => simp [hlow hhrt]
    | true =>
      rw [switchedOut_some hhrt hnow hfsm hawake hnext]
      simp [hne]
  | wake next _ hsleeping => exact hidle (switchedOut_sleeping hsleeping)
  | sleep first hnext hevent _ hawake =>
    refine hout _ ?_
    cases hhrt : cfg.isHrtMode with
    | false => simp [hlow hhrt]
    | true =>
      rw [switchedOut_none hhrt hnow hfsm hawake hevent]
      cases (k.tasks now).removePending with
      | false => rfl
      | true => rfl
  | rest _ _ hsleeping => exact hidle (switchedOut_sleeping hsleeping)
  | exit _ hevent =>
    refine hidle ?_
    have hexits : fsm k.fsmState .exit = .exiting := by
      rcases hfsm with h | h | h
      · rw [h]; rfl
      · rw [h]; rfl
      · rw [h]; rfl
    unfold switchedOut
    rw [hevent, hexits]
    split
    · rfl
    · rfl

/-- INTERNAL: the FSM calls no `OnExit` and makes no request. -/
theorem updateFsmState_log (cfg : Config) (k : Kernel n σ) :
    (k.updateFsmState cfg).1.exits = k.exits ∧ (k.updateFsmState cfg).1.request = k.request := by
  have hcall : (k.callStrategy cfg .getNext).2.exits = k.exits ∧
      (k.callStrategy cfg .getNext).2.request = k.request := by
    unfold Kernel.callStrategy
    split <;> exact ⟨rfl, rfl⟩
  have hfetch : (k.fetchNextEvent cfg).2.2.exits = k.exits ∧ (k.fetchNextEvent cfg).2.2.request = k.request := by
    unfold Kernel.fetchNextEvent
    generalize k.callStrategy cfg .getNext = f at hcall
    obtain ⟨_ | next, k₁⟩ := f
    · dsimp only
      split <;> exact hcall
    · dsimp only
      split <;> exact hcall
  unfold Kernel.updateFsmState
  dsimp only
  generalize k.fetchNextEvent cfg = f at hfetch
  obtain ⟨event, next, k₁⟩ := f
  dsimp only at hfetch ⊢
  cases fsm k.fsmState event with
  | switching =>
    simp only [Kernel.stateSwitch]
    split
    · split
      · split <;> exact hfetch
      · exact hfetch
    · exact hfetch
  | sleeping =>
    simp only [Kernel.stateSleep]
    split
    · dsimp only
      split <;> exact hfetch
    · exact hfetch
    · exact hfetch
  | waking =>
    simp only [Kernel.stateWake]
    split <;> exact hfetch
  | exiting =>
    simp only [Kernel.stateExit]
    split <;> exact hfetch
  | none => exact hfetch

end Stk.Analysis
