import Stk.Analysis.AwakeOffers
import Stk.Analysis.DeadlineMissRun

/-!
# The tick under `SwitchStrategyMonotonic`

The list of the monotonic strategy holds the sleeping tasks as well and does not change while tasks sleep and
wake, so after a tick, and after `OnStart`, the processor runs the first task of the list that is awake.
-/

set_option autoImplicit false

namespace Stk.Analysis

open Stk.Model Stk.Model.Kernel

/-! ## The task on the processor -/

section Runner

variable {n : ℕ} {σ : Type} {cfg : Config} {k : Kernel n σ} {i : Fin n}

/-- The task that has the processor. -/
def runner (k : Kernel n σ) : Option (Fin n) := if k.fsmState = .sleeping then none else k.taskNow

theorem runner_eq_some : runner k = some i ↔ OnProcessor k i := by
  unfold runner OnProcessor
  split
  · next hs => simp [hs]
  · next hs => simp [hs]

variable [SwitchStrategy (Fin n) σ]

/-- INTERNAL: the FSM gives the processor to the task that the strategy returns. -/
theorem FsmStep.runner {out : Kernel n σ × Bool × Option (StackId n) × Option (StackId n)}
    (h : FsmStep cfg k i out) (hnow : k.taskNow = some i) (hexit : (k.fetchNextEvent cfg).1 ≠ .exit) :
    Stk.Analysis.runner out.1 = (k.fetchNextEvent cfg).2.1 ∧
      out.1.strategy = (k.fetchNextEvent cfg).2.2.strategy := by
  obtain ⟨-, -, hnow', hfsm', -, -⟩ := fetchNextEvent_frame cfg k
  cases h with
  | keep hnext _ =>
    refine ⟨?_, rfl⟩
    rw [hnext, ← hnow]
    exact hnow'
  | switch next hnext _ _ =>
    refine ⟨hnext.symm, ?_⟩
    dsimp only
    split
    · rfl
    · rfl
  | wake next hnext _ => exact ⟨hnext.symm, rfl⟩
  | sleep first hnext _ _ _ =>
    refine ⟨hnext.symm, ?_⟩
    dsimp only
    split
    · rfl
    · rfl
  | rest hnext _ hsleeping =>
    refine ⟨?_, rfl⟩
    unfold Stk.Analysis.runner
    rw [if_pos (hfsm'.trans hsleeping), hnext]
  | exit _ hevent => exact absurd hevent hexit

end Runner

/-! ## The first task that is awake -/

variable {n : ℕ} {type : MonotonicType} {cfg : Config} {k : Kernel n (Monotonic type (Fin n))} {i : Fin n}

/-- The first task of the strategy that is awake. -/
def firstAwake (k : Kernel n (Monotonic type (Fin n))) : Option (Fin n) :=
  k.strategy.tasks.find? fun i => !(k.tasks i).isSleeping

/-- INTERNAL: `GetNext` of the strategy. -/
theorem fetchNextEvent_firstAwake (cfg : Config) (k : Kernel n (Monotonic type (Fin n))) :
    (k.fetchNextEvent cfg).2.1 = firstAwake k ∧ (k.fetchNextEvent cfg).2.2.strategy = k.strategy := by
  have hcall : k.callStrategy cfg .getNext =
      (firstAwake k, { k with calls := k.calls ++ [(k.view cfg, .getNext)] }) := rfl
  unfold Kernel.fetchNextEvent
  rw [hcall]
  cases firstAwake k with
  | none =>
    dsimp only
    split
    · exact ⟨rfl, rfl⟩
    · exact ⟨rfl, rfl⟩
  | some next =>
    dsimp only
    split
    · exact ⟨rfl, rfl⟩
    · exact ⟨rfl, rfl⟩

/-- INTERNAL: the strategy does not hear of a slot that is not to be removed. -/
theorem updateSlot_monotonic (acc : Kernel n (Monotonic type (Fin n)) × ℤ) (e : ℤ)
    (hlive : (acc.1.tasks i).removePending = false) :
    (updateSlot cfg e acc i).1.strategy = acc.1.strategy := by
  obtain ⟨k, t⟩ := acc
  dsimp only at hlive ⊢
  have hkeep : ¬ ((k.tasks i).isSleeping && k.isRemovable cfg i) = true := by
    simp [Kernel.isRemovable, hlive]
  have hapi : SwitchStrategy.sleepEventApi (Monotonic type (Fin n)) = false := rfl
  unfold Kernel.updateSlot
  dsimp only
  rw [if_neg hkeep]
  split
  · unfold Kernel.advanceSleep Kernel.deliverSleep
    rw [hapi]
    rfl
  · unfold Kernel.advanceDuration
    split
    · dsimp only
      split
      · rfl
      · rfl
    · rfl

/-- INTERNAL: a slot that is not to be removed keeps its task. -/
theorem updatedSlot_live {t : KernelTask} (api gone : Bool) (e : ℤ)
    (hgone : gone = true → t.removePending = true) (hlive : t.removePending = false) :
    (updatedSlot cfg api e gone t).user = t.user ∧ (updatedSlot cfg api e gone t).removePending = false := by
  unfold updatedSlot
  split
  · split
    · next hg =>
      rw [hgone hg] at hlive
      cases hlive
    · exact ⟨rfl, hlive⟩
  · split
    · exact ⟨rfl, hlive⟩
    · exact ⟨rfl, hlive⟩

/-- INTERNAL: while no task is to be removed, `UpdateTasks` leaves the strategy alone and frees no slot. -/
theorem asking_monotonic (hhrt : cfg.isHrtMode = true) (hlive : ∀ j, (k.tasks j).removePending = false) (e : ℤ) :
    (asking cfg k e).strategy = k.strategy ∧ ∀ j, ((asking cfg k e).tasks j).user = (k.tasks j).user := by
  have hload : Calm k (loading cfg k e) := by
    have hsync := asking_sync cfg k e
    unfold loading
    dsimp only
    generalize (if cfg.isSyncMode then ({ k with ticks := k.ticks + e } : Kernel n _).updateSyncObjects e
      else { k with ticks := k.ticks + e }) = k₁ at hsync
    split
    · have hnone : k₁.updateTaskRequest cfg = k₁ := by simp [Kernel.updateTaskRequest, hhrt]
      rw [hnone]
      exact hsync
    · exact hsync
  have hliveload : ∀ j, ((loading cfg k e).tasks j).removePending = false := by
    intro j
    rw [(hload.slot j).removePending]
    exact hlive j
  constructor
  · refine Eq.trans ?_ hload.strategy
    rw [asking_loading]
    unfold Kernel.updateTaskState
    refine (Runs.foldl_keeps (I := fun acc : Kernel n (Monotonic type (Fin n)) × ℤ =>
      acc.1.strategy = (loading cfg k e).strategy ∧ ∀ j, (acc.1.tasks j).removePending = false) ?_ ?_ : _ ∧ _).1
    · intro acc j _ hacc
      refine ⟨(updateSlot_monotonic acc e (hacc.2 j)).trans hacc.1, fun l => ?_⟩
      have hticked := updateSlot_ticked cfg e acc j
      by_cases hl : l = j
      · subst hl
        rw [hticked.self]
        have hnot : acc.1.isRemovable cfg l = true → (acc.1.tasks l).removePending = true := by
          intro hgone
          simp only [Kernel.isRemovable, Bool.and_eq_true] at hgone
          exact hgone.1.2
        exact (updatedSlot_live _ _ e hnot (hacc.2 l)).2
      · rw [hticked.other l hl]
        exact hacc.2 l
    · exact ⟨rfl, hliveload⟩
  · intro j
    obtain ⟨gone, hslot, hgone⟩ := asking_updated cfg k e j
    rw [hslot, (updatedSlot_live _ gone e hgone (hliveload j)).1, (hload.slot j).user]

variable {active : Option (StackId n)}

/-- INTERNAL: with a task in the strategy the FSM does not exit. -/
theorem Enrolled.stays (h : Enrolled cfg k) (hbusy : (k.tasks i).user ≠ none) :
    (k.fetchNextEvent cfg).1 ≠ .exit := by
  intro hexit
  have hzero := (fetchNextEvent_exit hexit).2
  rw [(fetchNextEvent_firstAwake cfg k).2] at hzero
  exact h.getSize_ne_zero hbusy hzero

/-- INTERNAL: with a task in the strategy the FSM has something to do. -/
theorem Enrolled.dispatches (h : Enrolled cfg k) (hbusy : (k.tasks i).user ≠ none) : Dispatches cfg k := by
  obtain ⟨hnext, hstrategy⟩ := fetchNextEvent_firstAwake cfg k
  refine ⟨fun j hj => ?_, fun hnone j hj => ?_, fun hexit j => ?_, ?_⟩
  · rw [hnext] at hj
    have hawake := List.find?_some hj
    simpa using hawake
  · rw [hnext] at hnone
    have hmem := (h.mem j).mpr (KernelTask.isBusy_iff.mp hj)
    have hasleep := List.find?_eq_none.mp hnone j hmem
    simpa using hasleep
  · exact absurd hexit (h.stays hbusy)
  · rw [hstrategy]
    exact h.getFirst_some hbusy

/-- INTERNAL: a slot that is switched out is asleep, if that of a completed job is. -/
theorem switchedOut_asleep (h : Enrolled cfg k) (hbusy : ∀ j, k.taskNow = some j → (k.tasks j).user ≠ none)
    (hdone : ∀ j, (k.tasks j).user ≠ none → (k.tasks j).hrt.done = true → (k.tasks j).isSleeping = true)
    (hout : switchedOut cfg k = some i) : (k.tasks i).isSleeping = true := by
  obtain ⟨-, -, -, -, hsome, -⟩ := fetchNextEvent_frame cfg k
  unfold switchedOut at hout
  split at hout
  · split at hout
    · next now _ hnow =>
      split at hout
      · next hswitch =>
        obtain rfl : now = i := Option.some.inj hout
        exact hdone now (hbusy now hnow) hswitch.2
      · cases hout
    · next now hstate hnow =>
      split at hout
      · cases hout
      · obtain rfl : now = i := Option.some.inj hout
        have hnone : (k.fetchNextEvent cfg).2.1 = none := by
          cases hnext : (k.fetchNextEvent cfg).2.1 with
          | none => rfl
          | some next =>
            rw [hsome next hnext] at hstate
            cases hfsm : k.fsmState <;> rw [hfsm] at hstate <;> cases hstate
        rw [(fetchNextEvent_firstAwake cfg k).1] at hnone
        have hasleep := List.find?_eq_none.mp hnone now ((h.mem now).mpr (hbusy now hnow))
        simpa using hasleep
    · cases hout
  · cases hout

/-- INTERNAL: a slot that is switched out while it sleeps sleeps on. -/
theorem hrtOnSwitchedOut_asleep {t : KernelTask} (api : Bool) (hs : t.isSleeping = true) :
    (t.hrtOnSwitchedOut api).isSleeping = true := by
  rw [KernelTask.isSleeping_iff] at hs ⊢
  unfold KernelTask.hrtOnSwitchedOut
  dsimp only
  split
  · next hlong =>
    simp only [KernelTask.scheduleSleep]
    omega
  · exact hs

/-- INTERNAL: the FSM gives the processor to the first task that is awake. -/
theorem updateFsmState_first (h : Enrolled cfg k) (hbound : NowBound k) (hnow : k.taskNow ≠ none)
    (hfsm : Dispatching k) (hdone : ∀ j, (k.tasks j).user ≠ none → (k.tasks j).hrt.done = true →
      (k.tasks j).isSleeping = true) :
    (k.updateFsmState cfg).1.strategy = k.strategy ∧
      runner (k.updateFsmState cfg).1 = firstAwake (k.updateFsmState cfg).1 ∧
      ∀ j, ((k.updateFsmState cfg).1.tasks j).isSleeping = (k.tasks j).isSleeping := by
  obtain ⟨now, hnow⟩ := Option.ne_none_iff_exists'.mp hnow
  have hbusy := hbound now hnow
  have hstays := h.stays hbusy
  obtain ⟨hnext, hstrategy⟩ := fetchNextEvent_firstAwake cfg k
  have hfirst : SwitchStrategy.getFirst (k.fetchNextEvent cfg).2.2.strategy ≠ none := by
    rw [hstrategy]
    exact h.getFirst_some hbusy
  obtain ⟨hrunner, hsame⟩ := (updateFsmState_step hnow hfsm fun _ _ => hfirst).runner hnow hstays
  have hasleep : ∀ j, ((k.updateFsmState cfg).1.tasks j).isSleeping = (k.tasks j).isSleeping := by
    intro j
    rw [updateFsmState_tasks hnow hfsm (fun _ _ => hfirst) j]
    split
    · next hout =>
      have hs := switchedOut_asleep h hbound hdone hout
      rw [hs]
      exact hrtOnSwitchedOut_asleep _ hs
    · rfl
  refine ⟨hsame.trans hstrategy, ?_, hasleep⟩
  rw [hrunner, hnext]
  unfold firstAwake
  rw [hsame, hstrategy]
  simp only [hasleep]

/-- A tick gives the processor to the first task that is awake. -/
theorem onTick_first (h : Enrolled cfg k) (hcfg : AcceptsStatic (Monotonic type (Fin n)) cfg)
    (hsound : Sound cfg k active) (hnow : k.taskNow ≠ none) (hhrt : cfg.isHrtMode = true)
    (hlive : ∀ j, (k.tasks j).removePending = false) (e : ℤ)
    (hdone : ∀ j, ((asking cfg k e).tasks j).user ≠ none → ((asking cfg k e).tasks j).hrt.done = true →
      ((asking cfg k e).tasks j).isSleeping = true) :
    (k.onTick cfg e).1.strategy = k.strategy ∧ runner (k.onTick cfg e).1 = firstAwake (k.onTick cfg e).1 := by
  obtain ⟨hasking, -⟩ := h.asking hcfg hsound.bound e
  obtain ⟨hnow', hfsm'⟩ := asking_fsm cfg k e
  obtain ⟨hsame, huser⟩ := asking_monotonic hhrt hlive e
  have hbound : NowBound (asking cfg k e) := by
    intro j hj
    rw [huser j]
    exact hsound.bound j (hnow' ▸ hj)
  have hfsm : Dispatching (asking cfg k e) := by
    unfold Dispatching
    rw [hfsm']
    exact hsound.started hnow
  obtain ⟨hstrategy, hrunner, -⟩ :=
    updateFsmState_first hasking hbound (by rw [hnow']; exact hnow) hfsm hdone
  exact ⟨hstrategy.trans hsame, hrunner⟩

/-- `OnStart` gives the processor to the first task that is awake. -/
theorem onStart_first (h : Enrolled cfg k) (hbusy : (k.tasks i).user ≠ none) :
    (k.onStart cfg).tasks = k.tasks ∧ (k.onStart cfg).strategy = k.strategy ∧ (k.onStart cfg).ticks = k.ticks ∧
      runner (k.onStart cfg) = firstAwake k := by
  have hdeliver : (List.finRange n).foldl (fun k i =>
      if (k.tasks i).isSleeping then k.deliverSleep cfg i else k) k = k := by
    apply Runs.foldl_keeps (I := fun k' => k' = k)
    · rintro _ j - rfl
      split
      · rfl
      · rfl
    · rfl
  have hswitch : Enrolled cfg ({ k with fsmState := .switching } : Kernel n (Monotonic type (Fin n))) :=
    h.congr rfl rfl rfl
  have hexit := hswitch.stays hbusy
  obtain ⟨hnext, hstrategy⟩ :=
    fetchNextEvent_firstAwake cfg ({ k with fsmState := .switching } : Kernel n (Monotonic type (Fin n)))
  obtain ⟨htasks, hticks, -, -, hevent, hnone⟩ :=
    fetchNextEvent_frame cfg ({ k with fsmState := .switching } : Kernel n (Monotonic type (Fin n)))
  unfold Kernel.onStart
  rw [hdeliver]
  dsimp only
  generalize ({ k with fsmState := .switching } : Kernel n (Monotonic type (Fin n))).fetchNextEvent cfg = f
    at hexit hnext hstrategy htasks hticks hevent hnone
  obtain ⟨event, next, k₁⟩ := f
  dsimp only at hexit hnext hstrategy htasks hticks hevent hnone ⊢
  cases next with
  | some next =>
    have hswitching := hevent next rfl
    rw [if_neg (by intro hs; cases hs)] at hswitching
    subst hswitching
    exact ⟨htasks, hstrategy, hticks, hnext⟩
  | none =>
    obtain rfl := (hnone rfl).resolve_left hexit
    have hfirst : SwitchStrategy.getFirst k₁.strategy ≠ none := by
      rw [hstrategy]
      exact h.getFirst_some hbusy
    obtain ⟨first, hfirst⟩ := Option.ne_none_iff_exists'.mp hfirst
    dsimp only [fsm]
    rw [hfirst]
    exact ⟨htasks, hstrategy, hticks, hnext⟩

end Stk.Analysis
