import Stk.Analysis.SlotFrame
import Stk.Analysis.StrategyListInvariant

/-!
# Infinite sleeps

`WAIT_INFINITE` is the sleep counter `-INT32_MAX`, which every tick advances like any
other.  Along `Undisturbed` steps, which neither wake the slot nor rewrite its counter, the
counter is a clock: `infiniteSleep_iff`.
-/

set_option autoImplicit false

namespace Stk.Analysis

open Stk.Model Stk.Model.Kernel

variable {n : ℕ} {σ : Type} [SwitchStrategy (Fin n) σ] {cfg : Config} {k : Kernel n σ} {i : Fin n}

/-! ## The counter as a clock -/

/-- Slot `i` runs a task that was put to sleep at tick `since` with the infinite timeout
and whose counter nobody has rewritten. -/
structure Asleep (i : Fin n) (since : ℤ) (k : Kernel n σ) : Prop where
  busy : (k.tasks i).user ≠ none
  live : (k.tasks i).removePending = false
  clock : (k.tasks i).timeSleep = k.ticks - since - waitInfinite
  wait : (k.tasks i).waitObj.syncObj = none ∨
    ((k.tasks i).waitObj.timeWait = waitInfinite ∧ (k.tasks i).waitObj.timeout = false)

/-- The task in slot `i` is not runnable and, if it is in a `Wait`, has no result yet. -/
def StillAsleep (k : Kernel n σ) (i : Fin n) : Prop :=
  (k.tasks i).isSleeping = true ∧ k.waitResult i = none

/-- The wait object and the pending call of slot `i` are the same in both states. -/
def SameWait (i : Fin n) (k k' : Kernel n σ) : Prop :=
  k'.call i = k.call i ∧ (k'.tasks i).waitObj = (k.tasks i).waitObj

namespace Asleep

variable {since : ℤ} {k' : Kernel n σ}

omit [SwitchStrategy (Fin n) σ] in
theorem frame (h : Asleep i since k) (hs : SameSlot i k k') : Asleep i since k' where
  busy := by rw [hs.user]; exact h.busy
  live := by rw [hs.remove]; exact h.live
  clock := by rw [hs.time, hs.ticks]; exact h.clock
  wait := by rw [hs.waitObj]; exact h.wait

omit [SwitchStrategy (Fin n) σ] in
theorem timeSleep_neg (h : Asleep i since k) (hlt : k.ticks - since < waitInfinite) :
    (k.tasks i).timeSleep < 0 := by
  rw [h.clock]
  omega

omit [SwitchStrategy (Fin n) σ] in
theorem stillAsleep_iff (h : Asleep i since k) :
    StillAsleep k i ↔ k.ticks - since < waitInfinite := by
  have hs : (k.tasks i).isSleeping = true ↔ k.ticks - since < waitInfinite := by
    rw [KernelTask.isSleeping_iff, h.clock]
    omega
  refine ⟨fun hk => hs.mp hk.1, fun hlt => ⟨hs.mpr hlt, ?_⟩⟩
  unfold Kernel.waitResult
  split
  · rfl
  · rw [if_pos (hs.mpr hlt)]

theorem onTick (h : Asleep i since k) (hk : Linked k) (hlt : k.ticks - since < waitInfinite) (e : ℤ)
    (hout : switchedOut cfg
      (({ k with ticks := k.ticks + e } : Kernel n σ).updateTasks cfg e).1 ≠ some i) :
    Asleep i since (k.onTick cfg e).1 ∧ SameWait i k (k.onTick cfg e).1 := by
  have htick := SameSlot.onTick hk h.busy (h.timeSleep_neg hlt) h.live h.wait e hout
  refine ⟨Asleep.frame (k := SameSlot.advanced i e { k with ticks := k.ticks + e }) ?_ htick,
    htick.call, htick.waitObj.trans (by simp [SameSlot.advanced, Kernel.setTask])⟩
  refine ⟨by simpa [SameSlot.advanced, Kernel.setTask] using h.busy,
    by simpa [SameSlot.advanced, Kernel.setTask] using h.live, ?_,
    by simpa [SameSlot.advanced, Kernel.setTask] using h.wait⟩
  simp only [SameSlot.advanced, Kernel.setTask, Function.update_self, h.clock]
  omega

end Asleep

/-- The steps that neither wake, remove nor switch out slot `i` and are no call of its own
task. -/
def Undisturbed (cfg : Config) (i : Fin n) (k : Kernel n σ) : KernelEvent n → Prop
  | .removeTask u | .resumeTask u | .sleepCancel u | .scheduleTaskRemoval u =>
    k.findTaskByUserTask u ≠ some i
  | .wakeOne o | .wakeAll o => i ∉ k.waitList o
  | .sleep j _ | .sleepUntil j _ | .switchToNext j | .wait j _ _ | .taskExit j => j ≠ i
  | .onTick e =>
    switchedOut cfg (({ k with ticks := k.ticks + e } : Kernel n σ).updateTasks cfg e).1 ≠ some i
  | _ => True

/-- INTERNAL: an undisturbed call other than a tick leaves a sleeping slot alone. -/
theorem step_sameSlot {e : KernelEvent n} (hbusy : (k.tasks i).user ≠ none)
    (hs : (k.tasks i).isSleeping = true) (he : Undisturbed cfg i k e) (htick : ∀ t, e ≠ .onTick t) :
    SameSlot i k (k.step cfg e) := by
  cases e with
  | addTask u =>
    simp only [Kernel.step]
    split
    · exact .allocateAndAddNewTask cfg hbusy u
    · exact .refl i k
  | addTaskHrt u p d s =>
    simp only [Kernel.step]
    split
    · exact .hrtAllocateAndAddNewTask cfg hbusy u p d s
    · exact .refl i k
  | removeTask u =>
    simp only [Kernel.step]
    split
    · split
      · exact .refl i k
      · next j hj =>
        have hne : j ≠ i := by
          rintro rfl
          exact he hj
        exact .removeTask_ne cfg hne k
    · exact .refl i k
  | onStart =>
    simp only [Kernel.step]
    split
    · exact .onStart cfg i k
    · exact .refl i k
  | onStop =>
    simp only [Kernel.step]
    split <;> exact ⟨rfl, rfl, rfl, rfl, rfl, rfl⟩
  | onTick t => exact absurd rfl (htick t)
  | onSuspend =>
    simp only [Kernel.step, Kernel.onSuspend]
    split
    · split
      · exact .refl i k
      · next j _ =>
        split
        · exact .refl i k
        · next hawake =>
          have hne : j ≠ i := by
            rintro rfl
            exact hawake hs
          exact .setTask_ne hne k _
    · exact .refl i k
  | requestAddTask j u =>
    simp only [Kernel.step]
    split
    · exact (SameSlot.setTask i j k (f := fun t => { t with addTaskReq := some u }) (fun _ => rfl)
        (fun _ => rfl) (fun _ => rfl) (fun _ => rfl)).trans ⟨rfl, rfl, rfl, rfl, rfl, rfl⟩
    · exact .refl i k
  | sleep j ticks =>
    simp only [Kernel.step]
    split
    · exact .onTaskSleep_ne cfg he k ticks
    · exact .refl i k
  | sleepUntil j timestamp =>
    simp only [Kernel.step, Kernel.onTaskSleepUntil]
    split
    · split
      · exact .setTask_ne he k _
      · exact .refl i k
    · exact .refl i k
  | switchToNext j =>
    simp only [Kernel.step]
    split
    · exact .onTaskSleep_ne cfg he k _
    · exact .refl i k
  | wait j o timeout =>
    simp only [Kernel.step]
    split
    · exact .onTaskWait_ne he k o timeout
    · exact .refl i k
  | waitReturn j =>
    simp only [Kernel.step]
    split
    · exact .refl i k
    · next hres =>
      have hj : j ≠ i := by
        rintro rfl
        unfold Kernel.waitResult at hres
        split at hres
        · cases hres
        · rw [if_pos hs] at hres
          cases hres
      exact .of_tasks rfl (by simp [hj.symm]) rfl
  | taskExit j =>
    simp only [Kernel.step]
    split
    · exact .setTask_ne he k _
    · exact .refl i k
  | suspendTask u =>
    simp only [Kernel.step, Kernel.suspendTask]
    split
    · exact .fault i k _
    · next j _ =>
      split
      · exact .refl i k
      · next hawake =>
        have hne : j ≠ i := by
          rintro rfl
          exact hawake hs
        exact .setTask_ne hne k _
  | resumeTask u => exact .resumeTask_ne (fun j hj heq => he (heq ▸ hj))
  | sleepCancel u =>
    simp only [Kernel.step]
    split
    · exact .resumeTask_ne (fun j hj heq => he (heq ▸ hj))
    · exact .refl i k
  | scheduleTaskRemoval u =>
    simp only [Kernel.step]
    split
    · split
      · exact .refl i k
      · next j hj =>
        have hne : j ≠ i := by
          rintro rfl
          exact he hj
        exact .setTask_ne hne k _
    · exact .refl i k
  | wakeOne o =>
    simp only [Kernel.step, Kernel.wakeOne]
    split
    · exact .refl i k
    · next j l hl =>
      exact .wakeWaitObj_ne (fun heq => he (by rw [hl, heq]; exact List.mem_cons_self)) k false
  | wakeAll o =>
    refine .foldl (fun k' j hj => ?_) k
    have hne : j ≠ i := by
      rintro rfl
      exact he hj
    exact .wakeWaitObj_ne hne k' false
  | inheritWeight u w => exact .onInheritWeight cfg i k u w
  | restoreWeight u o => exact .onRestoreWeight cfg i k u o

/-- INTERNAL: an undisturbed call keeps the clock of a sleeping slot right. -/
theorem Asleep.step {since : ℤ} (h : Asleep i since k) (hk : Linked k)
    (hlt : k.ticks - since < waitInfinite) {e : KernelEvent n} (he : Undisturbed cfg i k e) :
    Asleep i since (k.step cfg e) ∧ SameWait i k (k.step cfg e) := by
  by_cases htick : ∀ t, e ≠ .onTick t
  · have hs := step_sameSlot h.busy (h.stillAsleep_iff.mpr hlt).1 he htick
    exact ⟨h.frame hs, hs.call, hs.waitObj⟩
  · obtain ⟨t, rfl⟩ := not_forall_not.mp htick
    simp only [Kernel.step]
    split
    · exact h.onTick hk hlt t he
    · exact ⟨h, rfl, rfl⟩

/-! ## The time of a run -/

omit [SwitchStrategy (Fin n) σ] in
theorem wakeWaitObj_ticks (k : Kernel n σ) (j : Fin n) (timeout : Bool) :
    (k.wakeWaitObj j timeout).ticks = k.ticks := by
  unfold Kernel.wakeWaitObj
  split
  · rfl
  · exact (SameTasks.wakeTask _ j).ticks

omit [SwitchStrategy (Fin n) σ] in
theorem updateSyncObjects_ticks (k : Kernel n σ) (e : ℤ) :
    (k.updateSyncObjects e).ticks = k.ticks := by
  have hobj : ∀ (k' : Kernel n σ) (j : Fin n), (Kernel.tickWaitObj e k' j).ticks = k'.ticks := by
    intro k' j
    unfold Kernel.tickWaitObj
    dsimp only
    split
    · exact wakeWaitObj_ticks _ j true
    · rfl
  refine Runs.foldl_keeps (I := fun k' : Kernel n σ => k'.ticks = k.ticks) (fun k' o _ h => ?_) rfl
  have htick : (k'.tickSyncObject e o).ticks = k.ticks :=
    Runs.foldl_keeps (I := fun k'' : Kernel n σ => k''.ticks = k.ticks)
      (fun k'' j _ h' => (hobj k'' j).trans h') h
  dsimp only
  split <;> exact htick

theorem onTick_ticks (cfg : Config) (k : Kernel n σ) (e : ℤ) :
    (k.onTick cfg e).1.ticks = k.ticks + e := by
  unfold Kernel.onTick
  dsimp only
  rw [(SameTasks.updateFsmState cfg _).ticks]
  unfold Kernel.updateTasks
  dsimp only
  rw [(SameWaits.updateTaskState cfg _ e).ticks]
  have hsync : (if cfg.isSyncMode then ({ k with ticks := k.ticks + e } : Kernel n σ).updateSyncObjects e
      else ({ k with ticks := k.ticks + e } : Kernel n σ)).ticks = k.ticks + e := by
    split
    · exact updateSyncObjects_ticks _ e
    · rfl
  generalize (if cfg.isSyncMode then ({ k with ticks := k.ticks + e } : Kernel n σ).updateSyncObjects e
    else ({ k with ticks := k.ticks + e } : Kernel n σ)) = k₁ at hsync
  split
  · exact (SameWaits.updateTaskRequest cfg k₁).ticks.trans hsync
  · exact hsync

/-- INTERNAL: only ticks move the time. -/
theorem step_ticks (cfg : Config) (k : Kernel n σ) {e : KernelEvent n} (htick : ∀ t, e ≠ .onTick t) :
    (k.step cfg e).ticks = k.ticks := by
  cases e with
  | onTick t => exact absurd rfl (htick t)
  | addTask u =>
    simp only [Kernel.step]
    split
    · exact (Binds.allocateAndAddNewTask cfg k u).ticks
    · rfl
  | addTaskHrt u p d s =>
    simp only [Kernel.step]
    split
    · exact (Binds.hrtAllocateAndAddNewTask cfg k u p d s).ticks
    · rfl
  | removeTask u =>
    simp only [Kernel.step]
    split
    · split
      · rfl
      · exact (SameWaits.removeTask cfg k _).ticks
    · rfl
  | onStart =>
    simp only [Kernel.step]
    split
    · exact (SameTasks.onStart cfg k).ticks
    · rfl
  | sleep j ticks =>
    simp only [Kernel.step]
    split
    · exact (SameTasks.onTaskSleep cfg k j ticks).ticks
    · rfl
  | switchToNext j =>
    simp only [Kernel.step]
    split
    · exact (SameTasks.onTaskSleep cfg k j _).ticks
    · rfl
  | wait j o timeout =>
    simp only [Kernel.step, Kernel.onTaskWait]
    split
    · split
      · rfl
      · split <;> rfl
    · rfl
  | wakeOne o =>
    simp only [Kernel.step, Kernel.wakeOne]
    split
    · rfl
    · exact wakeWaitObj_ticks k _ false
  | wakeAll o =>
    exact Runs.foldl_keeps (I := fun k' : Kernel n σ => k'.ticks = k.ticks)
      (fun k' j _ h => (wakeWaitObj_ticks k' j false).trans h) rfl
  | inheritWeight u w => exact (SameCalls.onInheritWeight cfg k u w).ticks
  | restoreWeight u o => exact (SameCalls.onRestoreWeight cfg k u o).ticks
  | resumeTask u => exact (SameTasks.resumeTask k u).ticks
  | sleepCancel u =>
    simp only [Kernel.step]
    split
    · exact (SameTasks.resumeTask k u).ticks
    · rfl
  | onSuspend =>
    simp only [Kernel.step, Kernel.onSuspend]
    split
    · split
      · rfl
      · split <;> rfl
    · rfl
  | suspendTask u =>
    simp only [Kernel.step, Kernel.suspendTask]
    split
    · rfl
    · split <;> rfl
  | sleepUntil j timestamp =>
    simp only [Kernel.step, Kernel.onTaskSleepUntil]
    split
    · split <;> rfl
    · rfl
  | scheduleTaskRemoval u =>
    simp only [Kernel.step]
    split
    · split <;> rfl
    · rfl
  | onStop | requestAddTask _ _ | waitReturn _ | taskExit _ =>
    simp only [Kernel.step]
    split <;> rfl

/-- INTERNAL: ticks move the time forward. -/
theorem step_ticks_le (cfg : Config) (k : Kernel n σ) (e : KernelEvent n) :
    k.ticks ≤ (k.step cfg e).ticks := by
  by_cases htick : ∀ t, e ≠ .onTick t
  · exact (step_ticks cfg k htick).ge
  · obtain ⟨t, rfl⟩ := not_forall_not.mp htick
    simp only [Kernel.step]
    split
    · next he =>
      simp only [validElapsed, Bool.and_eq_true, decide_eq_true_eq] at he
      have hpos := he.2.1.1
      rw [onTick_ticks]
      omega
    · exact le_rfl

/-! ## Runs -/

/-- The call puts the task in slot `i` to sleep with the infinite timeout; the task is
neither linked in a wait list nor scheduled for removal. -/
def PutsToSleep (cfg : Config) (k : Kernel n σ) (i : Fin n) : KernelEvent n → Prop
  | .wait j _ timeout => j = i ∧ timeout = waitInfinite ∧ k.canCall i = true ∧ cfg.isSyncMode = true ∧
    (k.tasks i).waitObj.syncObj = none ∧ (k.tasks i).removePending = false
  | .suspendTask u => cfg.isHrtMode = false ∧ k.findTaskByUserTask u = some i ∧
    (k.tasks i).isSleeping = false ∧ (k.tasks i).waitObj.syncObj = none ∧
    (k.tasks i).removePending = false
  | _ => False

theorem PutsToSleep.asleep {e : KernelEvent n} (h : PutsToSleep cfg k i e) :
    Asleep i k.ticks (k.step cfg e) := by
  cases e with
  | wait j o timeout =>
    obtain ⟨rfl, rfl, hcall, hsync, hobj, hlive⟩ := h
    have hbusy := (canCall_iff.mp hcall).2.1
    have hstep : k.step cfg (.wait j o waitInfinite) = k.onTaskWait j o waitInfinite := by
      simp [Kernel.step, hcall, hsync]
    rw [hstep, onTaskWait_eq (by simp [waitInfinite]) hobj]
    exact ⟨by simpa [KernelTask.scheduleSleep] using hbusy,
      by simpa [KernelTask.scheduleSleep] using hlive,
      by simp [KernelTask.scheduleSleep], by simp [KernelTask.scheduleSleep]⟩
  | suspendTask u =>
    obtain ⟨-, hu, hawake, hobj, hlive⟩ := h
    have hbusy := Good.findTaskByUserTask_busy hu
    have hstep : k.step cfg (.suspendTask u) = k.scheduleSleep i waitInfinite := by
      simp [Kernel.step, Kernel.suspendTask, hu, hawake]
    rw [hstep]
    exact ⟨by simp [Kernel.scheduleSleep, Kernel.setTask, KernelTask.scheduleSleep, hbusy],
      by simpa [Kernel.scheduleSleep, Kernel.setTask, KernelTask.scheduleSleep] using hlive,
      by simp [Kernel.scheduleSleep, Kernel.setTask, KernelTask.scheduleSleep],
      by simp [Kernel.scheduleSleep, Kernel.setTask, KernelTask.scheduleSleep, hobj]⟩
  | _ => exact h.elim

theorem run_linked (cfg : Config) (es : List (KernelEvent n)) :
    Linked (Kernel.run cfg es : Kernel n σ) :=
  Runs.foldl_keeps (I := Linked) (fun _ e _ hk => step_linked cfg hk e) Linked.initial

theorem run_ticks_le (cfg : Config) (k : Kernel n σ) (es : List (KernelEvent n)) :
    k.ticks ≤ (es.foldl (Kernel.step cfg) k).ticks :=
  Runs.foldl_keeps (I := fun k' : Kernel n σ => k.ticks ≤ k'.ticks)
    (fun k' e _ h => h.trans (step_ticks_le cfg k' e)) le_rfl

/-- INTERNAL: by induction on the run, while less than `WAIT_INFINITE` ticks have passed the
counter is the clock; once they have passed the task is awake. -/
theorem Asleep.run {since : ℤ} {es : List (KernelEvent n)} (h : Asleep i since k) (hk : Linked k)
    (hes : Runs.Along (Kernel.step cfg) (Undisturbed cfg i) k es) :
    (∀ fs, fs <+: es → StillAsleep (fs.foldl (Kernel.step cfg) k) i) ↔
      (es.foldl (Kernel.step cfg) k).ticks - since < waitInfinite := by
  induction es generalizing k with
  | nil =>
    rw [List.foldl_nil, ← h.stillAsleep_iff]
    exact ⟨fun hall => hall [] (List.prefix_refl _), fun hs fs hfs => by
      rw [List.prefix_nil.mp hfs]; exact hs⟩
  | cons e es ih =>
    constructor
    · intro hall
      have hlt := h.stillAsleep_iff.mp (hall [] (List.nil_prefix))
      obtain ⟨hnext, -⟩ := h.step hk hlt hes.1
      refine (ih hnext (step_linked cfg hk e) hes.2).mp (fun fs hfs => ?_)
      exact hall (e :: fs) ((List.cons_prefix_cons).mpr ⟨rfl, hfs⟩)
    · intro hend fs hfs
      have hmono := run_ticks_le cfg k (e :: es)
      have hlt : k.ticks - since < waitInfinite := by omega
      obtain ⟨hnext, -⟩ := h.step hk hlt hes.1
      cases fs with
      | nil => exact h.stillAsleep_iff.mpr hlt
      | cons f fs =>
        obtain ⟨rfl, htail⟩ := List.cons_prefix_cons.mp hfs
        exact (ih hnext (step_linked cfg hk f) hes.2).mpr hend fs htail

/-- **Infinite sleeps.**  A task that enters an infinite `Wait` or is put to sleep by
`SuspendTask` at any point of any run, and that nobody wakes, removes or switches out as
an HRT task afterwards, stays non-runnable and without a result exactly as long as fewer
than `WAIT_INFINITE` ticks have elapsed. -/
theorem infiniteSleep_iff (cfg : Config) (es₀ : List (KernelEvent n)) (e₀ : KernelEvent n)
    (es : List (KernelEvent n)) (i : Fin n)
    (hput : PutsToSleep cfg (Kernel.run cfg es₀ : Kernel n σ) i e₀)
    (hes : Runs.Along (Kernel.step cfg) (Undisturbed cfg i)
      (Kernel.run cfg (es₀ ++ [e₀]) : Kernel n σ) es) :
    (∀ fs, fs <+: es → StillAsleep (Kernel.run cfg (es₀ ++ [e₀] ++ fs) : Kernel n σ) i) ↔
      (Kernel.run cfg (es₀ ++ [e₀] ++ es) : Kernel n σ).ticks -
        (Kernel.run cfg es₀ : Kernel n σ).ticks < waitInfinite := by
  have hasleep : Asleep i (Kernel.run cfg es₀ : Kernel n σ).ticks
      (Kernel.run cfg (es₀ ++ [e₀]) : Kernel n σ) := by
    rw [run_append]
    exact hput.asleep
  simp only [run_append cfg (es₀ ++ [e₀])]
  exact hasleep.run (run_linked cfg _) hes

/-- Two tasks are started and the first tick has passed. -/
def twoTasks : List (KernelEvent 2) :=
  [.addTask 0, .addTask 1, .onStart, .onTick 1]

theorem infiniteSleep_two_ticks :
    PutsToSleep syncConfig (Kernel.run syncConfig twoTasks : Kernel 2 (RoundRobin (Fin 2))) 0
        (.wait 0 (.object 0) waitInfinite) ∧
      ∀ fs, fs <+: [.onTick 1, .onTick 1] → StillAsleep (Kernel.run syncConfig
        (twoTasks ++ [.wait 0 (.object 0) waitInfinite] ++ fs) : Kernel 2 (RoundRobin (Fin 2))) 0 := by
  have hput : PutsToSleep syncConfig (Kernel.run syncConfig twoTasks : Kernel 2 (RoundRobin (Fin 2))) 0
      (.wait 0 (.object 0) waitInfinite) := by
    refine ⟨rfl, rfl, ?_, rfl, ?_, ?_⟩ <;> decide
  refine ⟨hput, (infiniteSleep_iff syncConfig twoTasks (.wait 0 (.object 0) waitInfinite)
    [.onTick 1, .onTick 1] 0 hput ⟨?_, ?_, trivial⟩).mpr ?_⟩
  · simp [Undisturbed, switchedOut, syncConfig]
  · simp [Undisturbed, switchedOut, syncConfig]
  · decide

/-! ### An infinite wait that ends without a signal -/

theorem updateTasks_taskNow (cfg : Config) (k : Kernel n σ) (e : ℤ) :
    (k.updateTasks cfg e).1.taskNow = k.taskNow := by
  have hslot : ∀ (acc : Kernel n σ × ℤ) (j : Fin n),
      (updateSlot cfg e acc j).1.taskNow = acc.1.taskNow := by
    intro acc j
    unfold Kernel.updateSlot
    dsimp only
    split
    · exact (removeTask_frame cfg acc.1 j).2.2.2.1
    · split
      · exact (advanceSleep_fsm j).1.trans (deliverSleep_fsm j).1
      · exact (advanceDuration_frame cfg acc.1 e j).2.2.2.2.1
  have hstate : ∀ k' : Kernel n σ, (k'.updateTaskState cfg e).1.taskNow = k'.taskNow := fun k' =>
    Runs.foldl_keeps (I := fun acc : Kernel n σ × ℤ => acc.1.taskNow = k'.taskNow)
      (fun acc j _ h => (hslot acc j).trans h) rfl
  have hsync : (if cfg.isSyncMode then k.updateSyncObjects e else k).taskNow = k.taskNow := by
    split
    · exact updateSyncObjects_fsm.1
    · rfl
  unfold Kernel.updateTasks
  dsimp only
  rw [hstate]
  generalize (if cfg.isSyncMode then k.updateSyncObjects e else k) = k₁ at hsync
  split
  · exact (KeepsBound.updateTaskRequest cfg k₁).1.trans hsync
  · exact hsync

/-- INTERNAL: only the exit of the last task stops the scheduling. -/
theorem onTick_isStarted (hstatic : cfg.isDynamicMode = false) (hk : k.isStarted = true) (e : ℤ) :
    (k.onTick cfg e).1.isStarted = true := by
  have hnow : (({ k with ticks := k.ticks + e } : Kernel n σ).updateTasks cfg e).1.isStarted = true := by
    rw [Kernel.isStarted, updateTasks_taskNow]
    exact hk
  unfold Kernel.onTick
  dsimp only
  generalize (({ k with ticks := k.ticks + e } : Kernel n σ).updateTasks cfg e).1 = k₁ at hnow
  have hfetch : (k₁.fetchNextEvent cfg).2.2.isStarted = true := by
    unfold Kernel.fetchNextEvent
    have hcall : (k₁.callStrategy cfg .getNext).2.taskNow = k₁.taskNow := Good.callStrategy_taskNow _
    generalize k₁.callStrategy cfg .getNext = f at hcall
    obtain ⟨next, k₂⟩ := f
    have hstarted : k₂.isStarted = true := by
      rw [Kernel.isStarted, hcall]
      exact hnow
    cases next with
    | none =>
      dsimp only
      split <;> exact hstarted
    | some next =>
      dsimp only
      split <;> exact hstarted
  unfold Kernel.updateFsmState
  dsimp only
  generalize k₁.fetchNextEvent cfg = f at hfetch
  obtain ⟨event, next, k₂⟩ := f
  dsimp only at hfetch ⊢
  split
  · show (k₂.stateSwitch cfg k₁.taskNow next).1.isStarted = true
    unfold Kernel.stateSwitch
    split
    · split
      · dsimp only
        split <;> rfl
      · exact hfetch
    · exact hfetch
  · show (k₂.stateSleep cfg k₁.taskNow).1.isStarted = true
    unfold Kernel.stateSleep
    split
    · dsimp only
      split <;> rfl
    · exact hfetch
    · exact hfetch
  · show (k₂.stateWake next).1.isStarted = true
    unfold Kernel.stateWake
    split
    · rfl
    · exact hfetch
  · show (k₂.stateExit cfg).1.isStarted = true
    simpa [Kernel.stateExit, hstatic] using hfetch
  · exact hfetch

/-- INTERNAL: `m` ticks of a started static kernel without HRT tasks. -/
theorem Asleep.ticks {since : ℤ} (hstatic : cfg.isDynamicMode = false) (hhrt : cfg.isHrtMode = false)
    (h : Asleep i since k) (hk : Linked k) (hstarted : k.isStarted = true) (m : ℕ)
    (hm : k.ticks + m - since ≤ waitInfinite) :
    ∃ k', (List.replicate m (.onTick 1)).foldl (Kernel.step cfg) k = k' ∧ Asleep i since k' ∧ Linked k' ∧
      k'.isStarted = true ∧ SameWait i k k' ∧ k'.ticks = k.ticks + m := by
  induction m with
  | zero => exact ⟨k, rfl, h, hk, hstarted, ⟨rfl, rfl⟩, by simp⟩
  | succ m ih =>
    obtain ⟨k', heq, h', hk', hstarted', hwait', hticks'⟩ := ih (by omega)
    have hstep : k'.step cfg (.onTick 1) = (k'.onTick cfg 1).1 := by
      simp [Kernel.step, hstarted', validElapsed, waitInfinite]
    refine ⟨k'.step cfg (.onTick 1), ?_, ?_⟩
    · rw [List.replicate_succ', List.foldl_append, heq]
      rfl
    · rw [hstep]
      have hout : switchedOut cfg
          (({ k' with ticks := k'.ticks + 1 } : Kernel n σ).updateTasks cfg 1).1 ≠ some i := by
        simp [switchedOut, hhrt]
      obtain ⟨hnext, hwait⟩ := h'.onTick hk' (by omega) 1 hout
      refine ⟨hnext, onTick_linked cfg hk' 1, onTick_isStarted hstatic hstarted' 1,
        ⟨hwait.1.trans hwait'.1, hwait.2.trans hwait'.2⟩, ?_⟩
      rw [onTick_ticks, hticks']
      push_cast
      omega

/-- Task 0 waits for an object that nobody signals.  After `INT32_MAX` ticks its counter has
run out: the task is runnable and `OnTaskWait` returns `WAIT_RESULT_SIGNAL`. -/
theorem infiniteWait_ends_unsignalled :
    (Kernel.run syncConfig (twoTasks ++ [.wait 0 (.object 0) waitInfinite] ++
        List.replicate 2147483647 (.onTick 1)) : Kernel 2 (RoundRobin (Fin 2))).waitResult 0 =
      some .signal ∧
    (Kernel.run syncConfig (twoTasks ++ [.wait 0 (.object 0) waitInfinite] ++
        List.replicate 2147483647 (.onTick 1)) : Kernel 2 (RoundRobin (Fin 2))).call 0 =
      some ⟨.object 0, waitInfinite, 1, none⟩ := by
  let k : Kernel 2 (RoundRobin (Fin 2)) :=
    Kernel.run syncConfig (twoTasks ++ [.wait 0 (.object 0) waitInfinite])
  have hasleep : Asleep 0 1 k := by
    refine ⟨?_, ?_, ?_, Or.inr ⟨?_, ?_⟩⟩ <;> decide
  obtain ⟨k', heq, h', -, -, ⟨hcall, hwait⟩, hticks⟩ := hasleep.ticks
    (show syncConfig.isDynamicMode = false from rfl) rfl (run_linked _ _) (by decide) 2147483647 (by decide)
  have hrun : (Kernel.run syncConfig (twoTasks ++ [.wait 0 (.object 0) waitInfinite] ++
      List.replicate 2147483647 (.onTick 1)) : Kernel 2 (RoundRobin (Fin 2))) = k' := by
    rw [← heq]
    exact List.foldl_append
  have hpending : k.call 0 = some ⟨.object 0, waitInfinite, 1, none⟩ := by decide
  have hnot : (k.tasks 0).waitObj.timeout = false := by decide
  have hzero : k.ticks = 1 := by decide
  rw [hrun]
  refine ⟨?_, hcall.trans hpending⟩
  have hawake : (k'.tasks 0).isSleeping = false := by
    rw [KernelTask.isSleeping, h'.clock, hticks, hzero]
    decide
  simp [Kernel.waitResult, hcall, hpending, hawake, hwait, hnot]

end Stk.Analysis
