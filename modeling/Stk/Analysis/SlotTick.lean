import Stk.Analysis.KernelTick

/-!
# What a tick does to one slot

The loop of `UpdateTaskState` (stk.h:1946-2039) writes each slot once.  The slot is removed, or its
sleep counter or its job advances; which of these is decided by the slot itself and, for a removal,
by the current task, the FSM and the number of tasks the strategy holds at that point of the loop.
-/

set_option autoImplicit false

namespace Stk.Analysis

open Stk.Model Stk.Model.Kernel

variable {n : ℕ} {σ : Type} [SwitchStrategy (Fin n) σ] {cfg : Config} {k : Kernel n σ} {i : Fin n} {e : ℤ}

/-- `UpdateTaskState` of one slot; a sleeping slot that is `gone` is removed. -/
def updatedSlot (cfg : Config) (sleepEventApi : Bool) (e : ℤ) (gone : Bool) (t : KernelTask) : KernelTask :=
  if t.isSleeping then
    if gone then t.unbind cfg
    else { t with sleepPending := t.sleepPending && !sleepEventApi, timeSleep := t.timeSleep + e }
  else if cfg.isHrtMode && t.isBusy then { t with hrt := { t.hrt with duration := t.hrt.duration + e } }
  else t

/-- One iteration of the loop in `UpdateTaskState`. -/
structure SlotTicked (cfg : Config) (e : ℤ) (i : Fin n) (k k' : Kernel n σ) : Prop where
  self : k'.tasks i = updatedSlot cfg (SwitchStrategy.sleepEventApi σ) e (k.isRemovable cfg i) (k.tasks i)
  other : ∀ j, j ≠ i → k'.tasks j = k.tasks j
  taskNow : k'.taskNow = k.taskNow
  fsmState : k'.fsmState = k.fsmState
  ticks : k'.ticks = k.ticks
  request : k'.request = k.request
  exits : k'.exits = if (k.tasks i).isSleeping && k.isRemovable cfg i then k.exits ++ (k.tasks i).user.toList
    else k.exits

/-- INTERNAL: a call on the strategy writes the strategy only. -/
theorem callStrategy_frame (cfg : Config) (k : Kernel n σ) (c : StrategyCall (Fin n)) :
    (k.callStrategy cfg c).2.ticks = k.ticks ∧ (k.callStrategy cfg c).2.exits = k.exits ∧
      (k.callStrategy cfg c).2.request = k.request := by
  unfold Kernel.callStrategy
  split
  · exact ⟨rfl, rfl, rfl⟩
  · exact ⟨rfl, rfl, rfl⟩

/-- INTERNAL: the removal of a slot. -/
theorem removeTask_ticked (hs : (k.tasks i).isSleeping = true) (hgone : k.isRemovable cfg i = true) :
    SlotTicked cfg e i k (k.removeTask cfg i) := by
  obtain ⟨hother, -, -, hnow, hfsm⟩ := removeTask_frame cfg k i
  obtain ⟨hticks, hexits, hrequest⟩ := callStrategy_frame cfg
    { k with exits := k.exits ++ (k.tasks i).user.toList } (.removeTask i)
  refine ⟨?_, hother, hnow, hfsm, ?_, ?_, ?_⟩
  · unfold updatedSlot Kernel.removeTask
    rw [hgone, if_pos hs, if_pos rfl]
    dsimp only
    split
    · simp [Kernel.setTask, Kernel.fault]
    · simp [Kernel.setTask]
  · unfold Kernel.removeTask
    dsimp only
    split
    · exact hticks
    · exact hticks
  · unfold Kernel.removeTask
    dsimp only
    split
    · exact hrequest
    · exact hrequest
  · rw [hs, hgone]
    unfold Kernel.removeTask
    dsimp only
    split
    · exact hexits
    · exact hexits

/-- INTERNAL: the sleep events and the sleep counter of a slot. -/
theorem sleep_ticked (cfg : Config) (k : Kernel n σ) (e : ℤ) (i : Fin n) :
    ((k.deliverSleep cfg i).advanceSleep cfg e i).tasks = Function.update k.tasks i { k.tasks i with
        sleepPending := (k.tasks i).sleepPending && !SwitchStrategy.sleepEventApi σ
        timeSleep := (k.tasks i).timeSleep + e } ∧
      ((k.deliverSleep cfg i).advanceSleep cfg e i).ticks = k.ticks ∧
      ((k.deliverSleep cfg i).advanceSleep cfg e i).exits = k.exits ∧
      ((k.deliverSleep cfg i).advanceSleep cfg e i).request = k.request := by
  have hdeliver : (k.deliverSleep cfg i).tasks = Function.update k.tasks i { k.tasks i with
      sleepPending := (k.tasks i).sleepPending && !SwitchStrategy.sleepEventApi σ } ∧
      (k.deliverSleep cfg i).ticks = k.ticks ∧ (k.deliverSleep cfg i).exits = k.exits ∧
      (k.deliverSleep cfg i).request = k.request := by
    unfold Kernel.deliverSleep
    split
    · next hp =>
      simp only [Bool.and_eq_true] at hp
      refine ⟨?_, callStrategy_frame cfg (k.setTask i (fun t => { t with sleepPending := false })) (.onTaskSleep i)⟩
      simp [Kernel.setTask, hp]
    · next hp =>
      have hsame : ((k.tasks i).sleepPending && !SwitchStrategy.sleepEventApi σ) = (k.tasks i).sleepPending := by
        cases hpending : (k.tasks i).sleepPending <;> cases hapi : SwitchStrategy.sleepEventApi σ <;> simp_all
      rw [hsame]
      exact ⟨(Function.update_eq_self i k.tasks).symm, rfl, rfl, rfl⟩
  obtain ⟨htasks, hticks, hexits, hrequest⟩ := hdeliver
  refine ⟨?_, ?_, ?_, ?_⟩
  · rw [Good.advanceSleep_tasks, htasks]
    simp
  · unfold Kernel.advanceSleep
    dsimp only
    split
    · exact (callStrategy_frame cfg _ _).1.trans hticks
    · exact hticks
  · unfold Kernel.advanceSleep
    dsimp only
    split
    · exact (callStrategy_frame cfg _ _).2.1.trans hexits
    · exact hexits
  · unfold Kernel.advanceSleep
    dsimp only
    split
    · exact (callStrategy_frame cfg _ _).2.2.trans hrequest
    · exact hrequest

theorem updateSlot_ticked (cfg : Config) (e : ℤ) (acc : Kernel n σ × ℤ) (i : Fin n) :
    SlotTicked cfg e i acc.1 (updateSlot cfg e acc i).1 := by
  obtain ⟨k, t⟩ := acc
  unfold Kernel.updateSlot
  dsimp only
  by_cases hremove : ((k.tasks i).isSleeping && k.isRemovable cfg i) = true
  · rw [if_pos hremove]
    rw [Bool.and_eq_true] at hremove
    exact removeTask_ticked hremove.1 hremove.2
  · rw [if_neg hremove]
    cases hs : (k.tasks i).isSleeping with
    | true =>
      have hstays : k.isRemovable cfg i = false := by simpa [hs] using hremove
      obtain ⟨htasks, hticks, hexits, hrequest⟩ := sleep_ticked cfg k e i
      rw [if_pos rfl]
      refine ⟨?_, ?_, ?_, ?_, hticks, hrequest, ?_⟩
      · rw [htasks, Function.update_self]
        unfold updatedSlot
        rw [if_pos hs, hstays, if_neg Bool.false_ne_true]
      · intro j hj
        rw [htasks, Function.update_of_ne hj]
      · exact (advanceSleep_fsm i).1.trans (deliverSleep_fsm i).1
      · exact (advanceSleep_fsm i).2.trans (deliverSleep_fsm i).2
      · rw [hstays, Bool.and_false]
        exact hexits
    | false =>
      obtain ⟨hother, -, -, -, hnow, hfsm⟩ := advanceDuration_frame cfg k e i
      rw [if_neg Bool.false_ne_true]
      refine ⟨?_, hother, hnow, hfsm, ?_, ?_, ?_⟩
      · have hawake : updatedSlot cfg (SwitchStrategy.sleepEventApi σ) e (k.isRemovable cfg i) (k.tasks i) =
            if cfg.isHrtMode && (k.tasks i).isBusy then { k.tasks i with
              hrt := { (k.tasks i).hrt with duration := (k.tasks i).hrt.duration + e } } else k.tasks i := by
          unfold updatedSlot
          rw [if_neg (by rw [hs]; exact Bool.false_ne_true)]
        rw [hawake]
        unfold Kernel.advanceDuration
        dsimp only
        split
        · split
          · simp [Kernel.setTask, Kernel.fault]
          · simp [Kernel.setTask]
        · rfl
      · unfold Kernel.advanceDuration
        dsimp only
        split
        · split
          · rfl
          · rfl
        · rfl
      · unfold Kernel.advanceDuration
        dsimp only
        split
        · split
          · rfl
          · rfl
        · rfl
      · rw [hs, Bool.false_and]
        unfold Kernel.advanceDuration
        dsimp only
        split
        · split
          · rfl
          · rfl
        · rfl

/-- INTERNAL: the loop over other slots. -/
theorem updateSlots_other (cfg : Config) (e : ℤ) (l : List (Fin n)) (acc : Kernel n σ × ℤ) :
    (∀ i, i ∉ l → (l.foldl (updateSlot cfg e) acc).1.tasks i = acc.1.tasks i) ∧
      (l.foldl (updateSlot cfg e) acc).1.taskNow = acc.1.taskNow ∧
      (l.foldl (updateSlot cfg e) acc).1.fsmState = acc.1.fsmState ∧
      (l.foldl (updateSlot cfg e) acc).1.ticks = acc.1.ticks ∧
      (l.foldl (updateSlot cfg e) acc).1.request = acc.1.request := by
  induction l generalizing acc with
  | nil => exact ⟨fun _ _ => rfl, rfl, rfl, rfl, rfl⟩
  | cons j l ih =>
    have hstep := updateSlot_ticked cfg e acc j
    obtain ⟨hother, hnow, hfsm, hticks, hrequest⟩ := ih (updateSlot cfg e acc j)
    refine ⟨?_, hnow.trans hstep.taskNow, hfsm.trans hstep.fsmState, hticks.trans hstep.ticks,
      hrequest.trans hstep.request⟩
    intro i hi
    obtain ⟨hij, hil⟩ := not_or.mp (mt List.mem_cons.mpr hi)
    exact (hother i hil).trans (hstep.other i hij)

/-- INTERNAL: the slots before and after slot `i` in the loop. -/
theorem finRange_split (i : Fin n) : ∃ l₁ l₂, List.finRange n = l₁ ++ i :: l₂ ∧ i ∉ l₁ ∧ i ∉ l₂ := by
  obtain ⟨l₁, l₂, hl⟩ := List.append_of_mem (List.mem_finRange i)
  have hnd : (l₁ ++ i :: l₂).Nodup := hl ▸ List.nodup_finRange n
  obtain ⟨-, hnd₂, hdisj⟩ := List.nodup_append.mp hnd
  exact ⟨l₁, l₂, hl, fun hmem => hdisj i hmem i List.mem_cons_self rfl, (List.nodup_cons.mp hnd₂).1⟩

/-- INTERNAL: the state in which the loop reaches slot `i`. -/
def reaches (cfg : Config) (e : ℤ) (k : Kernel n σ) (l : List (Fin n)) : Kernel n σ :=
  (l.foldl (updateSlot cfg e) (k, if cfg.isTicklessMode then cfg.ticklessTicksMax else 1)).1

/-- What `UpdateTaskState` does to slot `i`. -/
theorem updateTaskState_ticked (cfg : Config) (k : Kernel n σ) (e : ℤ) {l₁ l₂ : List (Fin n)}
    (hl : List.finRange n = l₁ ++ i :: l₂) (h₁ : i ∉ l₁) (h₂ : i ∉ l₂) :
    (k.updateTaskState cfg e).1.tasks i = updatedSlot cfg (SwitchStrategy.sleepEventApi σ) e
      ((reaches cfg e k l₁).isRemovable cfg i) (k.tasks i) := by
  unfold Kernel.updateTaskState reaches
  rw [hl, List.foldl_append, List.foldl_cons]
  generalize hacc : l₁.foldl (updateSlot cfg e)
    (k, if cfg.isTicklessMode then cfg.ticklessTicksMax else 1) = acc
  have hbefore : acc.1.tasks i = k.tasks i := by
    rw [← hacc]
    exact (updateSlots_other cfg e l₁ _).1 i h₁
  rw [(updateSlots_other cfg e l₂ _).1 i h₂, (updateSlot_ticked cfg e acc i).self, hbefore]

theorem updateTaskState_frame (cfg : Config) (k : Kernel n σ) (e : ℤ) :
    (k.updateTaskState cfg e).1.taskNow = k.taskNow ∧ (k.updateTaskState cfg e).1.fsmState = k.fsmState ∧
      (k.updateTaskState cfg e).1.ticks = k.ticks ∧ (k.updateTaskState cfg e).1.request = k.request :=
  (updateSlots_other cfg e (List.finRange n) _).2

/-- The state with which `UpdateTaskState` begins in a tick of `e` ticks. -/
def loading (cfg : Config) (k : Kernel n σ) (e : ℤ) : Kernel n σ :=
  let k : Kernel n σ := { k with ticks := k.ticks + e }
  let k := if cfg.isSyncMode then k.updateSyncObjects e else k
  if k.request then k.updateTaskRequest cfg else k

/-- The state in which a tick of `e` ticks asks the strategy for the next task. -/
def asking (cfg : Config) (k : Kernel n σ) (e : ℤ) : Kernel n σ :=
  (({ k with ticks := k.ticks + e } : Kernel n σ).updateTasks cfg e).1

theorem asking_loading (cfg : Config) (k : Kernel n σ) (e : ℤ) :
    asking cfg k e = ((loading cfg k e).updateTaskState cfg e).1 := rfl

end Stk.Analysis
