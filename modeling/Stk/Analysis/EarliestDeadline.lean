import Stk.Analysis.EarliestDeadlineTick

/-!
# Earliest deadline first

`SwitchStrategyEDF` compares remaining deadlines, and knows of the time only through the duration
counters of the tasks.  A counter is advanced while its task is awake and reset when the task is
switched out at the end of a job.  As long as no task blocks inside a job the counter of an awake
task is the time since its activation, so that the task with the earliest absolute deadline is
chosen (`run_earliestDeadline`).  Ticks spent asleep in a `Wait` do not count: a job that blocks
falls behind (`blockedJob_overtaken`).
-/

set_option autoImplicit false

namespace Stk.Analysis

open Stk.Model Stk.Model.Kernel

/-! ## The other calls -/

section Calls

variable {n : ℕ} {cfg : Config} {act : Fin n → ℤ} {k k' : Kernel n (EarliestDeadlineFirst (Fin n))} {i : Fin n}

/-- INTERNAL: nobody waits unless somebody calls `Wait`. -/
theorem step_waits {σ : Type} [SwitchStrategy (Fin n) σ] {k : Kernel n σ} (hk : Linked k)
    (hwaits : ∀ i, (k.tasks i).waitObj.syncObj = none) {e : KernelEvent n} (he : ∀ j o t, e ≠ .wait j o t)
    (i : Fin n) : ((k.step cfg e).tasks i).waitObj.syncObj = none := by
  have houtside : e.leavesTo (fun _ => true) = true → ((k.step cfg e).tasks i).waitObj.syncObj = none := by
    intro hleaves
    have hspares : KernelEvent.Spares (fun _ => False) k e := by
      cases e with
      | removeTask u => exact fun _ hfalse => hfalse.elim
      | scheduleTaskRemoval u => exact fun _ hfalse => hfalse.elim
      | _ => trivial
    have hout : Outside (fun _ => true = true) (fun _ => False) k (k.step cfg e) :=
      step_outside hk (fun _ hfalse => hfalse.elim) (fun _ hfalse => hfalse.elim)
        (fun _ _ hfalse => hfalse.elim) hleaves hspares (fun _ _ hfalse => hfalse)
    cases ho : ((k.step cfg e).tasks i).waitObj.syncObj with
    | none => rfl
    | some o =>
      have hbefore := hout.other i o rfl ho
      rw [hwaits i] at hbefore
      cases hbefore
  cases e with
  | wait j o t => exact absurd rfl (he j o t)
  | wakeOne o =>
    simp only [Kernel.step, Kernel.wakeOne, waitList_nil hk hwaits o]
    exact hwaits i
  | wakeAll o =>
    simp only [Kernel.step, Kernel.wakeAll, waitList_nil hk hwaits o]
    exact hwaits i
  | _ => exact houtside rfl

/-- INTERNAL: a call that writes neither a slot nor the FSM. -/
theorem JobsOk.same (h : JobsOk cfg act k) (hrest : Rest cfg k') (htasks : k'.tasks = k.tasks)
    (hnow : k'.taskNow = k.taskNow) (hfsm : k'.fsmState = k.fsmState) (hticks : k'.ticks = k.ticks) :
    JobsOk cfg act k' := by
  have hproc : ∀ i, OnProcessor k' i ↔ OnProcessor k i := by
    intro i
    unfold OnProcessor
    rw [hnow, hfsm]
  have hremoves : ∀ i, Removes k' i ↔ Removes k i := by
    intro i
    unfold Removes
    rw [hnow, hfsm, htasks]
  refine ⟨hrest, ?_, ?_, ?_, ?_, ?_⟩
  · rw [htasks]
    exact h.waits
  · rw [htasks]
    exact h.free
  · rw [hnow, htasks]
    exact h.stopped
  · intro hstarted i hi
    rw [hnow] at hstarted
    rw [htasks] at hi
    have hjob := h.slot hstarted i hi
    refine ⟨?_, ?_, ?_, ?_, ?_, ?_⟩
    · rw [htasks]
      exact hjob.remove
    · rw [htasks, hproc]
      exact hjob.done
    · rw [htasks, hticks]
      exact hjob.awake
    · rw [htasks, hproc, hremoves]
      exact hjob.asleep
    · rw [htasks, hproc]
      exact hjob.leaving
    · rw [htasks, hproc]
      exact hjob.pending
  · rw [hnow, hfsm, htasks]
    exact h.idle

/-- INTERNAL: a task is put to sleep for at least two ticks with its job done; it is the one that runs,
or it is to be removed. -/
theorem JobsOk.ends (h : JobsOk cfg act k) (hstarted : k.taskNow ≠ none) (hbusy : (k.tasks i).user ≠ none)
    {f : KernelTask → KernelTask} (hrest : Rest cfg (k.setTask i f)) (huser : (f (k.tasks i)).user = (k.tasks i).user)
    (hwait : (f (k.tasks i)).waitObj = (k.tasks i).waitObj)
    (hduration : (f (k.tasks i)).hrt.duration = (k.tasks i).hrt.duration) (hdone : (f (k.tasks i)).hrt.done = true)
    (hs : (f (k.tasks i)).timeSleep < -1)
    (hpending : (f (k.tasks i)).sleepPending = ((k.tasks i).sleepPending || !(k.tasks i).isSleeping))
    (hremove : (f (k.tasks i)).removePending = true → cfg.isDynamicMode = true)
    (hcase : OnProcessor k i ∨ (f (k.tasks i)).removePending = true) : JobsOk cfg act (k.setTask i f) := by
  have hself : (k.setTask i f).tasks i = f (k.tasks i) := by simp [Kernel.setTask]
  have hother : ∀ j, j ≠ i → (k.setTask i f).tasks j = k.tasks j := fun j hj => by simp [Kernel.setTask, hj]
  have husers : ∀ j, ((k.setTask i f).tasks j).user = (k.tasks j).user := by
    intro j
    by_cases hj : j = i
    · subst hj
      rw [hself]
      exact huser
    · rw [hother j hj]
  have hproc : ∀ j, OnProcessor (k.setTask i f) j ↔ OnProcessor k j := fun j => Iff.rfl
  have hjob := h.slot hstarted i hbusy
  refine ⟨hrest, ?_, ?_, fun hnone => absurd hnone hstarted, ?_, ?_⟩
  · intro j
    by_cases hj : j = i
    · subst hj
      rw [hself, hwait]
      exact h.waits j
    · rw [hother j hj]
      exact h.waits j
  · intro j hj
    rw [husers j] at hj
    by_cases hji : j = i
    · subst hji
      exact absurd hj hbusy
    · rw [hother j hji]
      exact h.free j hj
  · intro _ j hj
    rw [husers j] at hj
    by_cases hji : j = i
    · subst hji
      refine ⟨?_, ?_, ?_, ?_, ?_, ?_⟩
      · rw [hself]
        exact hremove
      · rw [hself]
        intro _
        rcases hcase with hon | hrem
        · exact .inr ⟨hon, by omega⟩
        · exact .inl hrem
      · rw [hself]
        intro hawake
        omega
      · rw [hself, hduration]
        intro _
        by_cases hon : OnProcessor k j
        · exact .inr (.inl hon)
        · have hrem := hcase.resolve_left hon
          by_cases hnow : k.taskNow = some j
          · -- the kernel sleeps, and the task with it
            have hsleeping : k.fsmState = .sleeping := by
              by_contra hne
              exact hon ⟨hnow, hne⟩
            rcases hjob.asleep (h.idle hstarted hsleeping j hbusy) with hzero | hon' | ⟨-, hcase'⟩
            · exact .inl hzero
            · exact absurd hon' hon
            · refine .inr (.inr ⟨by rw [hself]; exact hrem, ?_⟩)
              rcases hcase' with hne | ⟨hstate, halone⟩
              · exact .inl hne
              · refine .inr ⟨hstate, ?_⟩
                intro l hl
                rw [husers l] at hl
                exact halone l hl
          · exact .inr (.inr ⟨by rw [hself]; exact hrem, .inl hnow⟩)
      · rw [hself, hpending]
        intro hon _
        refine ⟨hs, ?_, hdone⟩
        by_cases hslept : (k.tasks j).timeSleep < 0
        · rw [(hjob.leaving hon hslept).2.1]
          rfl
        · simp [KernelTask.isSleeping, hslept]
      · rw [hself]
        intro _
        exact hcase
    · have hjob' := h.slot hstarted j hj
      refine ⟨?_, ?_, ?_, ?_, ?_, ?_⟩
      · rw [hother j hji]
        exact hjob'.remove
      · rw [hother j hji]
        exact hjob'.done
      · rw [hother j hji]
        exact hjob'.awake
      · rw [hother j hji]
        intro hslept
        rcases hjob'.asleep hslept with hzero | hon | ⟨hrem, hcase'⟩
        · exact .inl hzero
        · exact .inr (.inl hon)
        · refine .inr (.inr ⟨by rw [hother j hji]; exact hrem, ?_⟩)
          rcases hcase' with hne | ⟨hstate, halone⟩
          · exact .inl hne
          · refine .inr ⟨hstate, ?_⟩
            intro l hl
            rw [husers l] at hl
            exact halone l hl
      · rw [hother j hji]
        exact hjob'.leaving
      · rw [hother j hji]
        exact hjob'.pending
  · intro _ hsleeping j hj
    rw [husers j] at hj
    by_cases hji : j = i
    · subst hji
      rw [hself]
      omega
    · rw [hother j hji]
      exact h.idle hstarted hsleeping j hj

end Calls

/-! ## Slots without a job -/

section NoJobs

variable {n : ℕ} {σ : Type} [SwitchStrategy (Fin n) σ] {cfg : Config} {k : Kernel n σ} {i : Fin n}

/-- INTERNAL: binding a slot starts no job. -/
theorem hrtAllocateAndAddNewTask_noJob (hjobs : ∀ j, NoJob (k.tasks j)) (u : TId) (periodicity deadline startDelay : ℤ)
    (j : Fin n) : NoJob ((k.hrtAllocateAndAddNewTask cfg u periodicity deadline startDelay).tasks j) := by
  have halloc : ∀ j, NoJob ((k.allocateNewTask u).2.tasks j) := by
    intro j
    have hfault : (if (k.findTaskByUserTask u).isSome then k.fault .taskCollision else k).tasks = k.tasks := by
      split
      · rfl
      · rfl
    unfold Kernel.allocateNewTask
    generalize (if (k.findTaskByUserTask u).isSome then k.fault .taskCollision else k) = k₁ at hfault
    dsimp only
    split
    · show NoJob (k₁.tasks j)
      rw [hfault]
      exact hjobs j
    · next i _ =>
      have hset : NoJob ((k₁.setTask i (fun t => { t with user := some u })).tasks j) := by
        have hj := hjobs j
        rw [← hfault] at hj
        by_cases hji : j = i
        · subst hji
          simp only [Kernel.setTask, Function.update_self]
          exact ⟨hj.duration, hj.done, hj.remove⟩
        · simpa [Kernel.setTask, hji] using hj
      dsimp only
      split
      · unfold Kernel.setCurrentWeight
        split
        · by_cases hji : j = i
          · subst hji
            simp only [Kernel.setTask, Function.update_self] at hset ⊢
            exact ⟨hset.duration, hset.done, hset.remove⟩
          · simpa [Kernel.setTask, hji] using hset
        · exact hset
      · exact hset
  unfold Kernel.hrtAllocateAndAddNewTask
  generalize k.allocateNewTask u = f at halloc
  obtain ⟨_ | i, k₁⟩ := f
  · exact halloc j
  · dsimp only at halloc ⊢
    rw [Good.callStrategy_tasks]
    by_cases hji : j = i
    · subst hji
      have hj := halloc j
      simp only [Kernel.setTask, Function.update_self, KernelTask.hrtInit]
      split
      · exact ⟨hj.duration, hj.done, hj.remove⟩
      · exact ⟨hj.duration, hj.done, hj.remove⟩
    · simpa [Kernel.setTask, hji] using halloc j

/-- INTERNAL: removing a task starts no job. -/
theorem removeTask_noJob (hhrt : cfg.isHrtMode = true) (hjobs : ∀ j, NoJob (k.tasks j)) (i j : Fin n) :
    NoJob ((k.removeTask cfg i).tasks j) := by
  by_cases hji : j = i
  · subst hji
    have hself : (k.removeTask cfg j).tasks j = (k.tasks j).unbind cfg := by
      unfold Kernel.removeTask
      dsimp only
      split
      · simp [Kernel.setTask, Kernel.fault]
      · simp [Kernel.setTask]
    rw [hself]
    exact unbind_noJob hhrt _
  · rw [(removeTask_frame cfg k i).1 j hji]
    exact hjobs j

/-- INTERNAL: `OnTaskSleep` in HRT mode marks the job as done. -/
theorem onTaskSleep_hrt (hhrt : cfg.isHrtMode = true) : k.onTaskSleep cfg i yieldTicks =
    k.setTask i (fun t => ({ t with hrt := { t.hrt with done := true } } : KernelTask).scheduleSleep
      (SwitchStrategy.sleepEventApi σ) yieldTicks) := by
  unfold Kernel.onTaskSleep
  rw [if_pos hhrt]
  dsimp only
  rw [if_pos (by decide)]
  simp only [Kernel.scheduleSleep, Kernel.setTask, Function.update_self, Function.update_idem]

/-- INTERNAL: `ScheduleRemoval` in HRT mode marks the job as done. -/
theorem scheduleRemoval_hrt (hhrt : cfg.isHrtMode = true) (api : Bool) (t : KernelTask) :
    t.scheduleRemoval cfg api = { t.scheduleSleep api waitInfinite with
      hrt := { t.hrt with done := true }, removePending := true } := by
  unfold KernelTask.scheduleRemoval
  dsimp only
  rw [if_pos hhrt]
  rfl

end NoJobs

/-! ## Runs -/

section Runs

variable {n : ℕ} {cfg : Config} {act : Fin n → ℤ} {k k' : Kernel n (EarliestDeadlineFirst (Fin n))} {i : Fin n}

/-- INTERNAL: a kernel that is not started, whatever the activations. -/
theorem JobsOk.of_stopped {act' : Fin n → ℤ} (hrest : Rest cfg k') (hwaits : ∀ i, (k'.tasks i).waitObj.syncObj = none)
    (hnow : k'.taskNow = none) (hjobs : ∀ i, NoJob (k'.tasks i)) : JobsOk cfg act' k' :=
  ⟨hrest, hwaits, fun i _ => hjobs i, fun _ => hjobs, fun hstarted => absurd hnow hstarted,
    fun hstarted => absurd hnow hstarted⟩

theorem JobsOk.switchToNext (h : JobsOk cfg act k) (hhrt : cfg.isHrtMode = true) (hstarted : k.taskNow ≠ none)
    (hbusy : (k.tasks i).user ≠ none) (hon : OnProcessor k i) (hrest : Rest cfg (k.onTaskSleep cfg i yieldTicks)) :
    JobsOk cfg act (k.onTaskSleep cfg i yieldTicks) := by
  rw [onTaskSleep_hrt hhrt] at hrest ⊢
  exact h.ends hstarted hbusy hrest rfl rfl rfl rfl (by simp [KernelTask.scheduleSleep, yieldTicks]) (by
    simp [KernelTask.scheduleSleep, KernelTask.isSleeping]
    rfl) (h.slot hstarted i hbusy).remove (.inl hon)

theorem JobsOk.scheduleRemoval (h : JobsOk cfg act k) (hhrt : cfg.isHrtMode = true) (hdyn : cfg.isDynamicMode = true)
    (hstarted : k.taskNow ≠ none) (hbusy : (k.tasks i).user ≠ none) (hrest : Rest cfg (k.scheduleRemoval cfg i)) :
    JobsOk cfg act (k.scheduleRemoval cfg i) := by
  have hfields := scheduleRemoval_hrt hhrt true (k.tasks i)
  have htime : ((k.tasks i).scheduleRemoval cfg true).timeSleep < -1 := by
    rw [hfields]
    show -waitInfinite < -1
    decide
  have hpending : ((k.tasks i).scheduleRemoval cfg true).sleepPending =
      ((k.tasks i).sleepPending || !(k.tasks i).isSleeping) := by
    rw [hfields]
    simp [KernelTask.scheduleSleep]
  have hkept : ((k.tasks i).scheduleRemoval cfg true).user = (k.tasks i).user ∧
      ((k.tasks i).scheduleRemoval cfg true).waitObj = (k.tasks i).waitObj ∧
      ((k.tasks i).scheduleRemoval cfg true).hrt.duration = (k.tasks i).hrt.duration ∧
      ((k.tasks i).scheduleRemoval cfg true).hrt.done = true ∧
      ((k.tasks i).scheduleRemoval cfg true).removePending = true := by
    rw [hfields]
    exact ⟨rfl, rfl, rfl, rfl, rfl⟩
  exact h.ends hstarted hbusy hrest hkept.1 hkept.2.1 hkept.2.2.1 hkept.2.2.2.1 htime hpending (fun _ => hdyn)
    (.inr hkept.2.2.2.2)

/-- INTERNAL: one call in a run without waits. -/
theorem JobsOk.step (h : JobsOk cfg act k) (hhrt : cfg.isHrtMode = true) (htickless : cfg.isTicklessMode = false)
    {e : KernelEvent n} (he : JobEvent k e) : JobsOk cfg (nextActivation cfg k act e) (k.step cfg e) := by
  have hwaits : ∀ i, ((k.step cfg e).tasks i).waitObj.syncObj = none := by
    apply step_waits h.rest.1.linked h.waits
    rintro j o t rfl
    exact he
  have hrest : (∀ d, e ≠ .onTick d) → Rest cfg (k.step cfg e) := by
    intro htick
    apply step_rest (fun _ => trivial) h.rest
    cases e with
    | resumeTask u => exact he.elim
    | sleepCancel u =>
      intro hfalse
      rw [hhrt] at hfalse
      cases hfalse
    | scheduleTaskRemoval u => exact fun _ i _ => h.waits i
    | wait i o t => exact he.elim
    | onTick d => exact absurd rfl (htick d)
    | inheritWeight u w => exact fun _ => trivial
    | _ => trivial
  cases e with
  | addTask u =>
    have hoff : k.step cfg (.addTask u) = k := by simp [Kernel.step, hhrt]
    rw [hoff]
    exact h
  | addTaskHrt u periodicity deadline startDelay =>
    replace hrest := hrest (fun _ hd => by contradiction)
    simp only [Kernel.step] at hrest hwaits ⊢
    split at hrest
    · next hmode =>
      rw [if_pos hmode] at hwaits ⊢
      simp only [Kernel.isStarted, Bool.and_eq_true, Bool.not_eq_true', Option.isSome_eq_false_iff,
        Option.isNone_iff_eq_none] at hmode
      have hnow := (KeepsBound.hrtAllocateAndAddNewTask cfg k u periodicity deadline startDelay).1
      exact .of_stopped hrest hwaits (hnow.trans hmode.1.2)
        (hrtAllocateAndAddNewTask_noJob (h.stopped hmode.1.2) u periodicity deadline startDelay)
    · next hmode =>
      rw [if_neg hmode]
      exact h
  | removeTask u =>
    replace hrest := hrest (fun _ hd => by contradiction)
    simp only [Kernel.step] at hrest hwaits ⊢
    split at hrest
    · next hmode =>
      rw [if_pos hmode] at hwaits ⊢
      simp only [Kernel.isStarted, Bool.and_eq_true, Bool.not_eq_true', Option.isSome_eq_false_iff,
        Option.isNone_iff_eq_none] at hmode
      cases hu : k.findTaskByUserTask u with
      | none => exact h
      | some i =>
        rw [hu] at hrest hwaits
        obtain ⟨-, -, -, hnow, -⟩ := removeTask_frame cfg k i
        exact .of_stopped hrest hwaits (hnow.trans hmode.2) (removeTask_noJob hhrt (h.stopped hmode.2) i)
    · next hmode =>
      rw [if_neg hmode]
      exact h
  | onStart =>
    simp only [Kernel.step]
    split
    · next hmode =>
      simp only [Bool.and_eq_true, Bool.not_eq_true'] at hmode
      have hidle : k.taskNow = none := by simpa [Kernel.isStarted] using hmode.1.1
      have hact : nextActivation cfg k act .onStart = fun _ => k.ticks := by
        funext i
        simp [nextActivation, hmode.1.1]
      rw [hact]
      exact h.onStart hidle
    · by_cases hstarted : k.isStarted = true
      · have hact : nextActivation cfg k act .onStart = act := by
          funext i
          simp [nextActivation, hstarted]
        rw [hact]
        exact h
      · have hidle : k.taskNow = none := by simpa [Kernel.isStarted] using hstarted
        exact .of_stopped h.rest h.waits hidle (h.stopped hidle)
  | onStop =>
    replace hrest := hrest (fun _ hd => by contradiction)
    simp only [Kernel.step] at hrest ⊢
    split at hrest
    · next hmode =>
      rw [if_pos hmode]
      simp only [Bool.and_eq_true, decide_eq_true_eq] at hmode
      have hidle : k.taskNow = none := by
        by_contra hne
        exact (h.rest.2.fsm hne).2 hmode.2
      exact .of_stopped hrest h.waits hidle (h.stopped hidle)
    · next hmode =>
      rw [if_neg hmode]
      exact h
  | onTick d =>
    simp only [Kernel.step] at hwaits ⊢
    split at hwaits
    · next hmode =>
      rw [if_pos hmode]
      have hstarted : k.taskNow ≠ none := by
        simp only [Bool.and_eq_true, Kernel.isStarted, Option.isSome_iff_ne_none] at hmode
        exact hmode.1
      obtain rfl : d = 1 := by
        simp only [Bool.and_eq_true, validElapsed, htickless, Bool.false_or, decide_eq_true_eq] at hmode
        exact hmode.2.2
      have hact : nextActivation cfg k act (.onTick 1) = fun i =>
          if switchedOut cfg (asking cfg k 1) = some i then k.ticks + 1 else activated k act 1 i := by
        funext i
        simp only [nextActivation]
        rw [if_pos hmode]
      rw [hact]
      exact h.onTick hhrt hstarted hwaits
    · next hmode =>
      have hact : nextActivation cfg k act (.onTick d) = act := by
        funext i
        simp only [nextActivation]
        rw [if_neg hmode]
      rw [if_neg hmode, hact]
      exact h
  | onSuspend =>
    have hoff : k.step cfg .onSuspend = k := by simp [Kernel.step, htickless]
    rw [hoff]
    exact h
  | requestAddTask i u =>
    have hoff : k.step cfg (.requestAddTask i u) = k := by simp [Kernel.step, hhrt]
    rw [hoff]
    exact h
  | sleep i ticks =>
    have hoff : k.step cfg (.sleep i ticks) = k := by simp [Kernel.step, hhrt]
    rw [hoff]
    exact h
  | sleepUntil i timestamp =>
    have hoff : k.step cfg (.sleepUntil i timestamp) = k := by simp [Kernel.step, hhrt]
    rw [hoff]
    exact h
  | switchToNext i =>
    replace hrest := hrest (fun _ hd => by contradiction)
    simp only [Kernel.step] at hrest ⊢
    split at hrest
    · next hmode =>
      rw [if_pos hmode]
      rw [canCall_iff] at hmode
      exact h.switchToNext hhrt hmode.1 hmode.2.1 he hrest
    · next hmode =>
      rw [if_neg hmode]
      exact h
  | wait i o t => exact he.elim
  | waitReturn i =>
    replace hrest := hrest (fun _ hd => by contradiction)
    simp only [Kernel.step] at hrest ⊢
    cases hres : k.waitResult i with
    | none => exact h
    | some res =>
      rw [hres] at hrest
      exact h.same hrest rfl rfl rfl rfl
  | taskExit i =>
    replace hrest := hrest (fun _ hd => by contradiction)
    simp only [Kernel.step] at hrest ⊢
    split at hrest
    · next hmode =>
      rw [if_pos hmode]
      simp only [Bool.and_eq_true, canCall_iff] at hmode
      exact h.scheduleRemoval hhrt hmode.2 hmode.1.1 hmode.1.2.1 hrest
    · next hmode =>
      rw [if_neg hmode]
      exact h
  | suspendTask u => exact he.elim
  | resumeTask u => exact he.elim
  | sleepCancel u =>
    have hoff : k.step cfg (.sleepCancel u) = k := by simp [Kernel.step, hhrt]
    rw [hoff]
    exact h
  | scheduleTaskRemoval u =>
    replace hrest := hrest (fun _ hd => by contradiction)
    simp only [Kernel.step] at hrest ⊢
    split at hrest
    · next hmode =>
      rw [if_pos hmode]
      simp only [Bool.and_eq_true, Kernel.isStarted, Option.isSome_iff_ne_none] at hmode
      cases hu : k.findTaskByUserTask u with
      | none => exact h
      | some i =>
        rw [hu] at hrest
        have hbusy : (k.tasks i).user ≠ none := by
          rw [findTaskByUserTask_user hu]
          exact Option.some_ne_none u
        exact h.scheduleRemoval hhrt hmode.1 hmode.2 hbusy hrest
    · next hmode =>
      rw [if_neg hmode]
      exact h
  | wakeOne o =>
    simp only [Kernel.step, Kernel.wakeOne, waitList_nil h.rest.1.linked h.waits o]
    exact h
  | wakeAll o =>
    simp only [Kernel.step, Kernel.wakeAll, waitList_nil h.rest.1.linked h.waits o]
    exact h
  | inheritWeight u w => exact h
  | restoreWeight u o => exact h

end Runs

/-! ## The chosen task -/

section Chosen

variable {n : ℕ} {cfg : Config}

theorem jobsOk_initial : JobsOk cfg (fun _ => 0) (initial : Kernel n (EarliestDeadlineFirst (Fin n))) :=
  .of_stopped rest_initial (fun _ => rfl) rfl (fun _ => ⟨rfl, rfl, rfl⟩)

/-- INTERNAL: keys that differ by a constant have the same first minimum. -/
theorem FirstMinimum.shift {α : Type} {d d' : α → ℤ} {l : List α} {t : α} (h : FirstMinimum d l t) (c : ℤ)
    (hd : ∀ j ∈ l, d' j = d j + c) : FirstMinimum d' l t := by
  obtain ⟨before, after, rfl, hbefore, hafter⟩ := h
  have ht := hd t (by simp)
  refine ⟨before, after, rfl, ?_, ?_⟩
  · intro j hj
    have hj' := hd j (by simp [hj])
    have hlt := hbefore j hj
    omega
  · intro j hj
    have hj' := hd j (by simp [hj])
    have hle := hafter j hj
    omega

/-- **Earliest deadline first.**  In every run of a `KERNEL_HRT` kernel in which no task is suspended,
resumed or waits, the duration counter of a task that is awake is the time since its activation; and the
next tick chooses the first of the runnable tasks with the earliest absolute deadline, the tick of its
activation plus its relative deadline. -/
theorem run_earliestDeadline (cfg : Config) (hhrt : cfg.isHrtMode = true) (htickless : cfg.isTicklessMode = false)
    (es : List (KernelEvent n))
    (hes : Runs.Along (JobClock.step cfg) (fun s e => JobEvent s.kernel e) (JobClock.initial : JobClock n) es) :
    let s := (JobClock.run cfg es : JobClock n)
    s.kernel.isStarted = true →
      (∀ i, (s.kernel.tasks i).isBusy = true → (s.kernel.tasks i).isSleeping = false →
        (s.kernel.tasks i).hrt.duration = s.kernel.ticks - s.activation i) ∧
      (∀ j, j ∈ (asking cfg s.kernel 1).strategy.tasks ↔
        ((asking cfg s.kernel 1).tasks j).isBusy = true ∧ ((asking cfg s.kernel 1).tasks j).isSleeping = false) ∧
      (((asking cfg s.kernel 1).fetchNextEvent cfg).2.1 = none → (asking cfg s.kernel 1).strategy.tasks = []) ∧
      ∀ next, ((asking cfg s.kernel 1).fetchNextEvent cfg).2.1 = some next →
        FirstMinimum
          (fun j => activated s.kernel s.activation 1 j + ((asking cfg s.kernel 1).tasks j).hrt.deadline)
          (asking cfg s.kernel 1).strategy.tasks next := by
  intro s hstarted
  have hok : JobsOk cfg s.activation s.kernel :=
    hes.invariant (I := fun s : JobClock n => JobsOk cfg s.activation s.kernel)
      (fun _ _ h he => h.step hhrt htickless he) jobsOk_initial
  have hnow : s.kernel.taskNow ≠ none := by
    simpa [Kernel.isStarted, Option.isSome_iff_ne_none] using hstarted
  have hinf : ∀ i, (s.kernel.tasks i).waitObj.syncObj ≠ none →
      (s.kernel.tasks i).waitObj.timeWait = waitInfinite → (s.kernel.tasks i).timeSleep + 1 < 0 :=
    fun i hne => absurd (hok.waits i) hne
  obtain ⟨hgood, hset, -, -, -⟩ := updateTasks_good (fun _ => trivial) hok.rest.1 hok.rest.2 Int.one_pos hinf
  have hmem : ∀ j, j ∈ (asking cfg s.kernel 1).strategy.tasks ↔
      ((asking cfg s.kernel 1).tasks j).user ≠ none ∧ ¬ ((asking cfg s.kernel 1).tasks j).timeSleep < 0 :=
    mem_tasks hgood hset
  obtain ⟨-, hempty, hfirst⟩ := fetchNextEvent_edf hgood hset
  refine ⟨?_, ?_, hempty, ?_⟩
  · intro i hbusy hawake
    refine (hok.slot hnow i ?_).awake ?_
    · simpa [KernelTask.isBusy, Option.isSome_iff_ne_none] using hbusy
    · simpa [KernelTask.isSleeping] using hawake
  · intro j
    rw [hmem j]
    simp [KernelTask.isBusy, KernelTask.isSleeping, Option.isSome_iff_ne_none]
  · intro next hnext
    refine (hfirst next hnext).shift (asking cfg s.kernel 1).ticks ?_
    intro j hj
    obtain ⟨hbusy, hawake⟩ := (hmem j).mp hj
    have hduration := (asking_job hok hhrt hnow hbusy).awake hawake
    show _ = ((asking cfg s.kernel 1).tasks j).hrt.deadline - ((asking cfg s.kernel 1).tasks j).hrt.duration + _
    rw [hduration]
    omega

/-- Two tasks; the one with the shorter deadline runs first and completes its job. -/
def shorterFirst : List (KernelEvent 2) :=
  [.addTaskHrt 0 10 8 0, .addTaskHrt 1 6 4 0, .onStart, .onTick 1, .switchToNext 1, .onTick 1, .onTick 1]

theorem shorterFirst_earliest :
    Runs.Along (JobClock.step hrtConfig) (fun s e => JobEvent s.kernel e) (JobClock.initial : JobClock 2)
        shorterFirst ∧
      ((asking hrtConfig (JobClock.run hrtConfig shorterFirst : JobClock 2).kernel 1).fetchNextEvent
        hrtConfig).2.1 = some 0 ∧
      FirstMinimum (fun j => activated (JobClock.run hrtConfig shorterFirst : JobClock 2).kernel
          (JobClock.run hrtConfig shorterFirst : JobClock 2).activation 1 j +
            ((asking hrtConfig (JobClock.run hrtConfig shorterFirst : JobClock 2).kernel 1).tasks j).hrt.deadline)
        (asking hrtConfig (JobClock.run hrtConfig shorterFirst : JobClock 2).kernel 1).strategy.tasks 0 := by
  have hrun : Runs.Along (JobClock.step hrtConfig) (fun s e => JobEvent s.kernel e) (JobClock.initial : JobClock 2)
      shorterFirst := by decide +kernel
  have hnext : ((asking hrtConfig (JobClock.run hrtConfig shorterFirst : JobClock 2).kernel 1).fetchNextEvent
      hrtConfig).2.1 = some 0 := by decide +kernel
  exact ⟨hrun, hnext, (run_earliestDeadline hrtConfig rfl rfl shorterFirst hrun (by decide +kernel)).2.2.2 0 hnext⟩

/-- Task 0 has the earlier deadline of two tasks that are activated at the start.  It blocks inside its
job for two ticks. -/
def blockedJob : List (KernelEvent 2) :=
  [.addTaskHrt 0 20 5 0, .addTaskHrt 1 20 6 0, .onStart, .onTick 1, .wait 0 (.object 0) waitInfinite, .onTick 1,
    .onTick 1, .wakeOne (.object 0)]

/-- The tick that wakes task 0 up prefers task 1, although the deadline of task 0 is at tick 5 and that
of task 1 at tick 6.  The counter of task 0 says 1: it is neither the time since the start nor the time
since the wake-up. -/
theorem blockedJob_overtaken :
    let k : Kernel 2 (EarliestDeadlineFirst (Fin 2)) := Kernel.run hrtConfig blockedJob
    let u := asking hrtConfig k 1
    k.faults = [] ∧ u.ticks = 4 ∧ u.strategy.tasks = [1, 0] ∧ (u.tasks 0).hrt.deadline = 5 ∧
      (u.tasks 1).hrt.deadline = 6 ∧ (u.fetchNextEvent hrtConfig).2.1 = some 1 ∧
      ¬ FirstMinimum (fun j => 0 + (u.tasks j).hrt.deadline) u.strategy.tasks 1 ∧
      (u.tasks 0).hrt.duration ≠ u.ticks - 0 ∧ (u.tasks 0).hrt.duration ≠ u.ticks - 4 := by
  intro k u
  have hfacts : k.faults = [] ∧ u.ticks = 4 ∧ u.strategy.tasks = [1, 0] ∧ (u.tasks 0).hrt.deadline = 5 ∧
      (u.tasks 1).hrt.deadline = 6 ∧ (u.fetchNextEvent hrtConfig).2.1 = some 1 ∧
      (u.tasks 0).hrt.duration = 1 := by decide +kernel
  obtain ⟨hfaults, hticks, htasks, hdeadline₀, hdeadline₁, hnext, hduration⟩ := hfacts
  refine ⟨hfaults, hticks, htasks, hdeadline₀, hdeadline₁, hnext, ?_, ?_, ?_⟩
  · intro hmin
    have hle := hmin.le (j := 0) (by rw [htasks]; simp)
    rw [hdeadline₀, hdeadline₁] at hle
    omega
  · rw [hduration, hticks]
    decide
  · rw [hduration, hticks]
    decide

end Chosen

end Stk.Analysis
