import Stk.Analysis.DeadlineMisses

/-!
# Missed deadlines over whole runs

Between calls the job of every slot is in one of four situations (`JobStands`): the task works on it,
it has completed it and waits for the tick that switches it out, it rests until its next activation,
or its removal is scheduled.  Only in the first is the task runnable in a tick, and there the kernel's
counter is the work of the job.
-/

set_option autoImplicit false

namespace Stk.Analysis

open Stk.Model Stk.Model.Kernel

variable {n : ℕ} {σ : Type} [SwitchStrategy (Fin n) σ] {cfg : Config} {k k' k'' : Kernel n σ}
  {i : Fin n} {e : ℤ} {job : Job}

/-! ## Where a job stands -/

/-- The job of a bound slot of a started kernel. -/
inductive JobStands (k : Kernel n σ) (i : Fin n) (job : Job) : Prop where
  | working (hcompleted : job.completed = false) (hwork : (k.tasks i).hrt.duration = job.work)
      (hdone : (k.tasks i).hrt.done = false) (hlive : (k.tasks i).removePending = false)
  | yielded (hcompleted : job.completed = true) (hdone : (k.tasks i).hrt.done = true) (hon : OnProcessor k i)
      (htime : (k.tasks i).timeSleep < -1) (hobj : (k.tasks i).waitObj.syncObj = none)
      (hpending : SwitchStrategy.sleepEventApi σ = true → (k.tasks i).sleepPending = true)
      (hlive : (k.tasks i).removePending = false)
  | resting (hcompleted : job.completed = true) (hduration : (k.tasks i).hrt.duration = 0)
      (hdone : (k.tasks i).hrt.done = false) (hs : (k.tasks i).isSleeping = true)
      (hlive : (k.tasks i).removePending = false)
  | leaving (hcompleted : job.completed = true) (hremove : (k.tasks i).removePending = true)
      (hs : (k.tasks i).isSleeping = true)

namespace JobStands

/-- INTERNAL: a call that leaves the work of the slot and the processor alone. -/
theorem frame (h : JobStands k i job) (hs : SameWork (k.tasks i) (k'.tasks i)) (hnow : k'.taskNow = k.taskNow)
    (hfsm : k'.fsmState = k.fsmState) : JobStands k' i job := by
  cases h with
  | working hcompleted hwork hdone hlive =>
    apply working hcompleted
    · rw [hs.hrt]
      exact hwork
    · rw [hs.hrt]
      exact hdone
    · rw [hs.remove]
      exact hlive
  | yielded hcompleted hdone hon htime hobj hpending hlive =>
    obtain ⟨htime', hobj'⟩ := hs.unlinked hobj
    apply yielded hcompleted
    · rw [hs.hrt]
      exact hdone
    · unfold OnProcessor
      rw [hnow, hfsm]
      exact hon
    · rw [htime']
      exact htime
    · exact hobj'
    · rw [hs.pending]
      exact hpending
    · rw [hs.remove]
      exact hlive
  | resting hcompleted hduration hdone hsleep hlive =>
    apply resting hcompleted
    · rw [hs.hrt]
      exact hduration
    · rw [hs.hrt]
      exact hdone
    · exact hs.asleep hsleep
    · rw [hs.remove]
      exact hlive
  | leaving hcompleted hremove hsleep =>
    apply leaving hcompleted
    · rw [hs.remove]
      exact hremove
    · exact hs.asleep hsleep

/-- INTERNAL: the slot of a task that makes a call is at work or to be removed. -/
theorem of_makesCall (h : JobStands k i job) (hcalls : MakesCall k i) :
    (job.completed = false ∧ (k.tasks i).hrt.duration = job.work ∧ (k.tasks i).hrt.done = false ∧
        (k.tasks i).removePending = false ∧ (k.tasks i).isSleeping = false) ∨
      (job.completed = true ∧ (k.tasks i).removePending = true) := by
  have hasleep : ∀ hs : (k.tasks i).isSleeping = true, (k.tasks i).removePending = true := hcalls.awake
  cases h with
  | working hcompleted hwork hdone hlive =>
    refine .inl ⟨hcompleted, hwork, hdone, hlive, ?_⟩
    by_contra hs
    have hremove := hasleep (by simpa using hs)
    rw [hlive] at hremove
    cases hremove
  | yielded hcompleted _ _ htime _ _ hlive =>
    have hremove := hasleep (by rw [KernelTask.isSleeping_iff]; omega)
    rw [hlive] at hremove
    cases hremove
  | resting _ _ _ hs hlive =>
    have hremove := hasleep hs
    rw [hlive] at hremove
    cases hremove
  | leaving hcompleted hremove _ => exact .inr ⟨hcompleted, hremove⟩

end JobStands

/-! ## The tick -/

section Tick

variable {now : Fin n} {active : Option (StackId n)} [StrategyMembers (Fin n) σ]

/-- INTERNAL: a tick writes a slot in `UpdateTaskState` and once more if the FSM switches it out. -/
theorem onTick_tasks (h : Enrolled cfg k) (hcfg : AcceptsStatic σ cfg) (hsound : Sound cfg k active)
    (hnow : k.taskNow = some now) (e : ℤ) (i : Fin n) :
    (k.onTick cfg e).1.tasks i = if switchedOut cfg (asking cfg k e) = some i then
      ((asking cfg k e).tasks i).hrtOnSwitchedOut (SwitchStrategy.sleepEventApi σ)
      else (asking cfg k e).tasks i := by
  obtain ⟨hasking, hlive⟩ := h.asking hcfg hsound.bound e
  obtain ⟨hnow', hfsm'⟩ := asking_fsm cfg k e
  have hdispatching : Dispatching (asking cfg k e) := by
    unfold Dispatching
    rw [hfsm']
    exact hsound.started (by simp [hnow])
  have hdyn : (∀ j, ((asking cfg k e).tasks j).user = none) → cfg.isDynamicMode = true := by
    intro hempty
    rcases hlive with hbound | ⟨hdyn, -⟩
    · exact absurd (hempty now) (hbound now (hnow'.trans hnow))
    · exact hdyn
  obtain ⟨hfetch, -, hsome⟩ := hasking.fetchNextEvent hdyn
  obtain ⟨htasks, -⟩ := fetchNextEvent_frame cfg (asking cfg k e)
  refine updateFsmState_tasks (hnow'.trans hnow) hdispatching ?_ i
  intro hevent _
  obtain ⟨j, hj⟩ := hsome (by rw [hevent]; decide)
  exact hfetch.getFirst_some (i := j) (by rw [htasks]; exact hj)

/-- INTERNAL: the task that has completed its job on the processor is switched out in the next tick. -/
theorem yielded_switchedOut [OffersAwake (Fin n) σ] (h : Enrolled cfg k) (hcfg : AcceptsStatic σ cfg)
    (hsound : Sound cfg k active) (hhrt : cfg.isHrtMode = true) (hbusy : (k.tasks i).user ≠ none)
    (hon : OnProcessor k i) (he : 0 < e) (hlong : ((loading cfg k e).tasks i).timeSleep + e < 0)
    (hpending : SwitchStrategy.sleepEventApi σ = true → ((loading cfg k e).tasks i).sleepPending = true)
    (hlive : ((loading cfg k e).tasks i).removePending = false)
    (hdone : ((loading cfg k e).tasks i).hrt.done = true) : switchedOut cfg (asking cfg k e) = some i := by
  have hs : ((loading cfg k e).tasks i).isSleeping = true := by
    rw [KernelTask.isSleeping_iff]
    omega
  have hslot := asking_sleeper cfg k e hs hlive
  obtain ⟨hasking, -⟩ := h.asking hcfg hsound.bound e
  obtain ⟨hnow', hfsm'⟩ := asking_fsm cfg k e
  have hdispatching : Dispatching (asking cfg k e) := by
    unfold Dispatching
    rw [hfsm']
    exact hsound.started (by rw [hon.1]; exact Option.some_ne_none i)
  have hrunning : (asking cfg k e).fsmState ≠ .sleeping := by
    rw [hfsm']
    exact hon.2
  have hdone' : ((asking cfg k e).tasks i).hrt.done = true := by
    rw [hslot]
    exact hdone
  have hlive' : ((asking cfg k e).tasks i).removePending = false := by
    rw [hslot]
    exact hlive
  have hbusy' : ((asking cfg k e).tasks i).user ≠ none := by
    rw [hslot]
    exact (loading_keeps cfg k e).2.2 i hbusy
  have hnext := sleeper_not_next h hcfg hsound.bound he hlong hpending hlive
  obtain ⟨htasks, -, -, -, -, hnone⟩ := fetchNextEvent_frame cfg (asking cfg k e)
  cases hcase : ((asking cfg k e).fetchNextEvent cfg).2.1 with
  | some next =>
    have hne : next ≠ i := by
      rintro rfl
      exact hnext hcase
    rw [switchedOut_some hhrt (hnow'.trans hon.1) hdispatching hrunning hcase]
    exact if_pos ⟨hne, hdone'⟩
  | none =>
    rcases hnone hcase with hexit | hsleep
    · -- the kernel exits only without a task
      obtain ⟨hdyn, hsize⟩ := fetchNextEvent_exit hexit
      obtain ⟨hfetch, -⟩ := hasking.fetchNextEvent (fun _ => hdyn)
      exact absurd hsize (hfetch.getSize_ne_zero (i := i) (by rw [htasks]; exact hbusy'))
    · rw [switchedOut_none hhrt (hnow'.trans hon.1) hdispatching hrunning hsleep]
      exact if_neg (by rw [hlive']; exact Bool.false_ne_true)

omit [StrategyMembers (Fin n) σ] in
/-- INTERNAL: a slot that is runnable in a tick has worked for it. -/
theorem asking_runner (hhrt : cfg.isHrtMode = true) (hrun : RunnableIn cfg k e i) :
    (asking cfg k e).tasks i = { (loading cfg k e).tasks i with
      hrt := { ((loading cfg k e).tasks i).hrt with duration := ((loading cfg k e).tasks i).hrt.duration + e } } := by
  obtain ⟨gone, hslot, -⟩ := asking_updated cfg k e i
  rw [hslot]
  unfold updatedSlot
  rw [if_neg (by rw [hrun.2]; exact Bool.false_ne_true), if_pos (by rw [hhrt, hrun.1]; rfl)]

omit [StrategyMembers (Fin n) σ] in
/-- INTERNAL: a slot that the FSM switches out or leaves alone. -/
theorem switched_slot {t t' : KernelTask} {out : Prop} [Decidable out] {api : Bool}
    (h : t' = if out then t.hrtOnSwitchedOut api else t) : t'.user = t.user ∧ t'.removePending = t.removePending ∧
      (t.isSleeping = true → t'.isSleeping = true) := by
  obtain ⟨huser, hremove, -, -, hs⟩ := hrtOnSwitchedOut_fields api t
  rw [h]
  split
  · refine ⟨huser, hremove, ?_⟩
    intro hsleep
    rw [KernelTask.isSleeping_iff] at hsleep ⊢
    exact (hs hsleep).1
  · exact ⟨rfl, rfl, fun hsleep => hsleep⟩

omit [StrategyMembers (Fin n) σ] in
theorem not_runnableIn (hs : ((loading cfg k e).tasks i).isSleeping = true) : ¬ RunnableIn cfg k e i := by
  rintro ⟨-, hawake⟩
  rw [hs] at hawake
  cases hawake

/-- INTERNAL: a slot whose job is not over. -/
theorem JobStands.onTick_working (h : Enrolled cfg k) (hcfg : AcceptsStatic σ cfg) (hsound : Sound cfg k active)
    (hnow : k.taskNow = some now) (hhrt : cfg.isHrtMode = true) (hkeeps : KeepsJobs cfg k (.onTick e))
    (hbusy : (k.tasks i).user ≠ none) (hcompleted : job.completed = false)
    (hwork : (k.tasks i).hrt.duration = job.work) (hdone : (k.tasks i).hrt.done = false) (hlive : (k.tasks i).removePending = false) :
    JobStands (k.onTick cfg e).1 i (jobAfterTick cfg k e i job) := by
  have hload := SameWorks.loading hhrt k e i
  have hfinal := onTick_tasks h hcfg hsound hnow e i
  have hloaded : ((loading cfg k e).tasks i).removePending = false := hload.remove.trans hlive
  have hbound : ((loading cfg k e).tasks i).user ≠ none := by
    rw [hload.user]
    exact hbusy
  -- the counter and the work of the job after `UpdateTaskState`
  obtain ⟨hjob, huser, hnot, hkept⟩ :
      (((k.onTick cfg e).1.tasks i).isBusy = true → (jobAfterTick cfg k e i job).completed = false ∧
        (jobAfterTick cfg k e i job).work = ((asking cfg k e).tasks i).hrt.duration) ∧
      ((asking cfg k e).tasks i).user ≠ none ∧ ((asking cfg k e).tasks i).hrt.done = false ∧
      ((asking cfg k e).tasks i).removePending = false := by
    by_cases hrun : RunnableIn cfg k e i
    · rw [asking_runner hhrt hrun]
      refine ⟨?_, hbound, ?_, hloaded⟩
      · intro hbusy'
        rw [jobAfterTick_runs hbusy' hrun]
        refine ⟨hcompleted, ?_⟩
        rw [hload.hrt, hwork]
      · rw [hload.hrt]
        exact hdone
    · have hs : ((loading cfg k e).tasks i).isSleeping = true := by
        by_contra hs
        exact hrun ⟨KernelTask.isBusy_iff.mpr hbound, by simpa using hs⟩
      rw [asking_sleeper cfg k e hs hloaded]
      refine ⟨?_, hbound, ?_, hloaded⟩
      · intro hbusy'
        rw [jobAfterTick_sleeps hbusy' hrun (by rw [hcompleted]; intro hfalse; cases hfalse)]
        refine ⟨hcompleted, ?_⟩
        rw [hload.hrt]
        exact hwork.symm
      · rw [hload.hrt]
        exact hdone
  obtain ⟨huser', hremove', hduration', hdone', -⟩ :=
    hrtOnSwitchedOut_fields (SwitchStrategy.sleepEventApi σ) ((asking cfg k e).tasks i)
  by_cases hout : switchedOut cfg (asking cfg k e) = some i
  · rw [if_pos hout] at hfinal
    have hzero := (hkeeps.1 i hout).resolve_left (by rw [hnot]; exact Bool.false_ne_true)
    obtain ⟨hgoes, hsame⟩ := hjob (by
      rw [hfinal, KernelTask.isBusy_iff, huser']
      exact huser)
    apply JobStands.working hgoes
    · rw [hfinal, hduration', hsame, hzero]
    · rw [hfinal, hdone']
    · rw [hfinal, hremove']
      exact hkept
  · rw [if_neg hout] at hfinal
    obtain ⟨hgoes, hsame⟩ := hjob (by
      rw [hfinal, KernelTask.isBusy_iff]
      exact huser)
    apply JobStands.working hgoes
    · rw [hfinal, hsame]
    · rw [hfinal]
      exact hnot
    · rw [hfinal]
      exact hkept

/-- INTERNAL: a slot whose task has completed its job on the processor. -/
theorem JobStands.onTick_yielded [OffersAwake (Fin n) σ] (h : Enrolled cfg k) (hcfg : AcceptsStatic σ cfg)
    (hsound : Sound cfg k active) (hhrt : cfg.isHrtMode = true) (hbusy : (k.tasks i).user ≠ none)
    (hcompleted : job.completed = true) (hdone : (k.tasks i).hrt.done = true) (hon : OnProcessor k i)
    (htime : (k.tasks i).timeSleep < -1) (hobj : (k.tasks i).waitObj.syncObj = none)
    (hpending : SwitchStrategy.sleepEventApi σ = true → (k.tasks i).sleepPending = true)
    (hlive : (k.tasks i).removePending = false) :
    JobStands (k.onTick cfg 1).1 i (jobAfterTick cfg k 1 i job) := by
  have hload := SameWorks.loading hhrt k 1 i
  have hlong : ((loading cfg k 1).tasks i).timeSleep + 1 < 0 := by
    rw [(hload.unlinked hobj).1]
    omega
  have hs : ((loading cfg k 1).tasks i).isSleeping = true := by
    rw [KernelTask.isSleeping_iff]
    omega
  have hslot := asking_sleeper cfg k 1 hs (hload.remove.trans hlive)
  have hout := yielded_switchedOut h hcfg hsound hhrt hbusy hon Int.one_pos hlong
    (by rw [hload.pending]; exact hpending) (hload.remove.trans hlive) (by rw [hload.hrt]; exact hdone)
  have hfinal := onTick_tasks h hcfg hsound hon.1 1 i
  rw [if_pos hout] at hfinal
  obtain ⟨huser', hremove', hduration', hdone', hs'⟩ :=
    hrtOnSwitchedOut_fields (SwitchStrategy.sleepEventApi σ) ((asking cfg k 1).tasks i)
  rw [← hfinal] at huser' hremove' hduration' hdone' hs'
  have hstill : ((asking cfg k 1).tasks i).timeSleep < 0 := by
    rw [hslot]
    exact hlong
  have hsleeps : ((k.onTick cfg 1).1.tasks i).isSleeping = true := by
    rw [KernelTask.isSleeping_iff]
    exact (hs' hstill).1
  have hbusy' : ((k.onTick cfg 1).1.tasks i).isBusy = true := by
    rw [KernelTask.isBusy_iff, huser', hslot]
    exact fun hnone => hbusy (hload.user.symm.trans hnone)
  rw [jobAfterTick_sleeps hbusy' (not_runnableIn hs) (fun _ => hsleeps)]
  apply JobStands.resting hcompleted hduration' hdone' hsleeps
  rw [hremove', hslot]
  exact hload.remove.trans hlive

/-- INTERNAL: a slot that rests after its job. -/
theorem JobStands.onTick_resting (h : Enrolled cfg k) (hcfg : AcceptsStatic σ cfg) (hsound : Sound cfg k active)
    (hnow : k.taskNow = some now) (hhrt : cfg.isHrtMode = true) (hbusy : (k.tasks i).user ≠ none)
    (hcompleted : job.completed = true) (hduration : (k.tasks i).hrt.duration = 0)
    (hdone : (k.tasks i).hrt.done = false) (hsleep : (k.tasks i).isSleeping = true) (hlive : (k.tasks i).removePending = false) :
    JobStands (k.onTick cfg e).1 i (jobAfterTick cfg k e i job) := by
  have hload := SameWorks.loading hhrt k e i
  have hs := hload.asleep hsleep
  have hslot := asking_sleeper cfg k e hs (hload.remove.trans hlive)
  have hfinal := onTick_tasks h hcfg hsound hnow e i
  obtain ⟨huser', hremove', -⟩ := switched_slot hfinal
  have hbusy' : ((k.onTick cfg e).1.tasks i).isBusy = true := by
    rw [KernelTask.isBusy_iff, huser', hslot]
    exact fun hnone => hbusy (hload.user.symm.trans hnone)
  have hkept : ((k.onTick cfg e).1.tasks i).removePending = false := by
    rw [hremove', hslot]
    exact hload.remove.trans hlive
  have hcounter : ((k.onTick cfg e).1.tasks i).hrt.duration = 0 ∧ ((k.onTick cfg e).1.tasks i).hrt.done = false := by
    rw [hfinal]
    split
    · obtain ⟨-, -, hzero, hnot, -⟩ :=
        hrtOnSwitchedOut_fields (SwitchStrategy.sleepEventApi σ) ((asking cfg k e).tasks i)
      exact ⟨hzero, hnot⟩
    · rw [hslot, hload.hrt]
      exact ⟨hduration, hdone⟩
  cases hs' : ((k.onTick cfg e).1.tasks i).isSleeping with
  | true =>
    rw [jobAfterTick_sleeps hbusy' (not_runnableIn hs) (fun _ => hs')]
    exact .resting hcompleted hcounter.1 hcounter.2 hs' hkept
  | false =>
    -- the next job begins
    rw [jobAfterTick_wakes hbusy' (not_runnableIn hs) hcompleted hs']
    exact .working rfl hcounter.1 hcounter.2 hkept

/-- INTERNAL: a slot that is to be removed. -/
theorem JobStands.onTick_leaving (h : Enrolled cfg k) (hcfg : AcceptsStatic σ cfg) (hsound : Sound cfg k active)
    (hnow : k.taskNow = some now) (hhrt : cfg.isHrtMode = true) (hkeeps : KeepsJobs cfg k (.onTick e))
    (hbusy' : ((k.onTick cfg e).1.tasks i).user ≠ none) (hcompleted : job.completed = true)
    (hremove : (k.tasks i).removePending = true) (hsleep : (k.tasks i).isSleeping = true) :
    JobStands (k.onTick cfg e).1 i (jobAfterTick cfg k e i job) := by
  have hload := SameWorks.loading hhrt k e i
  have hs := hload.asleep hsleep
  have hfinal := onTick_tasks h hcfg hsound hnow e i
  obtain ⟨huser', hremove', hasleep⟩ := switched_slot hfinal
  obtain ⟨gone, hslot, -⟩ := asking_updated cfg k e i
  unfold updatedSlot at hslot
  rw [if_pos hs] at hslot
  have hmarked : ((asking cfg k e).tasks i).removePending = true := by
    cases gone with
    | true =>
      exfalso
      apply hbusy'
      rw [huser', hslot, if_pos rfl]
      unfold KernelTask.unbind
      rw [if_pos hhrt]
    | false =>
      rw [hslot, if_neg Bool.false_ne_true]
      exact hload.remove.trans hremove
  have hs' := hasleep (hkeeps.2 i hmarked)
  rw [jobAfterTick_sleeps (KernelTask.isBusy_iff.mpr hbusy') (not_runnableIn hs) (fun _ => hs')]
  exact .leaving hcompleted (hremove'.trans hmarked) hs'

/-- INTERNAL: the job of a slot through a tick. -/
theorem JobStands.onTick [OffersAwake (Fin n) σ] (hstands : JobStands k i job) (h : Enrolled cfg k)
    (hcfg : AcceptsStatic σ cfg) (hsound : Sound cfg k active) (hnow : k.taskNow = some now)
    (hhrt : cfg.isHrtMode = true) (hkeeps : KeepsJobs cfg k (.onTick 1)) (hbusy : (k.tasks i).user ≠ none)
    (hbusy' : ((k.onTick cfg 1).1.tasks i).user ≠ none) :
    JobStands (k.onTick cfg 1).1 i (jobAfterTick cfg k 1 i job) := by
  cases hstands with
  | working hcompleted hwork hdone hlive =>
    exact onTick_working h hcfg hsound hnow hhrt hkeeps hbusy hcompleted hwork hdone hlive
  | yielded hcompleted hdone hon htime hobj hpending hlive =>
    exact onTick_yielded h hcfg hsound hhrt hbusy hcompleted hdone hon htime hobj hpending hlive
  | resting hcompleted hduration hdone hs hlive =>
    exact onTick_resting h hcfg hsound hnow hhrt hbusy hcompleted hduration hdone hs hlive
  | leaving hcompleted hremove hs => exact onTick_leaving h hcfg hsound hnow hhrt hkeeps hbusy' hcompleted hremove hs

/-- INTERNAL: a slot that is free after a tick has no job. -/
theorem onTick_noJob (h : Enrolled cfg k) (hcfg : AcceptsStatic σ cfg) (hsound : Sound cfg k active)
    (hnow : k.taskNow = some now) (hhrt : cfg.isHrtMode = true)
    (hfree : (k.tasks i).user = none → NoJob (k.tasks i)) (hfree' : ((k.onTick cfg e).1.tasks i).user = none) :
    NoJob ((k.onTick cfg e).1.tasks i) := by
  have hload := SameWorks.loading hhrt k e i
  have hfinal := onTick_tasks h hcfg hsound hnow e i
  obtain ⟨huser', hremove', -⟩ := switched_slot hfinal
  obtain ⟨gone, hslot, -⟩ := asking_updated cfg k e i
  rw [huser'] at hfree'
  have hkept : (k.tasks i).user = none → NoJob ((loading cfg k e).tasks i) := by
    intro hnone
    have hjob := hfree hnone
    exact ⟨by rw [hload.hrt]; exact hjob.duration, by rw [hload.hrt]; exact hjob.done,
      hload.remove.trans hjob.remove⟩
  have hasking : NoJob ((asking cfg k e).tasks i) := by
    rw [hslot] at hfree' ⊢
    unfold updatedSlot at hfree' ⊢
    by_cases hs : ((loading cfg k e).tasks i).isSleeping = true
    · rw [if_pos hs] at hfree' ⊢
      cases gone with
      | true =>
        rw [if_pos rfl]
        exact unbind_noJob hhrt _
      | false =>
        rw [if_neg Bool.false_ne_true] at hfree' ⊢
        have hjob := hkept (hload.user.symm.trans hfree')
        exact ⟨hjob.duration, hjob.done, hjob.remove⟩
    · rw [if_neg hs] at hfree' ⊢
      have hidle : ((loading cfg k e).tasks i).user = none := by
        split at hfree'
        · exact hfree'
        · exact hfree'
      have hjob := hkept (hload.user.symm.trans hidle)
      rw [if_neg (by simp [KernelTask.isBusy, hidle])]
      exact hjob
  rw [hfinal]
  split
  · obtain ⟨-, hremove, hduration, hdone, -⟩ :=
      hrtOnSwitchedOut_fields (SwitchStrategy.sleepEventApi σ) ((asking cfg k e).tasks i)
    exact ⟨hduration, hdone, hremove.trans hasking.remove⟩
  · exact hasking

end Tick

/-! ## Steps -/

/-- INTERNAL: `OnStart` leaves the HRT data alone. -/
theorem onStart_hrt (cfg : Config) (k : Kernel n σ) (i : Fin n) :
    ((k.onStart cfg).tasks i).hrt = (k.tasks i).hrt := by
  obtain ⟨hdeliver, -⟩ := deliver_frame cfg (List.finRange n) k
  unfold Kernel.onStart
  dsimp only
  generalize (List.finRange n).foldl (fun k i => if (k.tasks i).isSleeping then k.deliverSleep cfg i else k) k = k₁
    at hdeliver
  obtain ⟨htasks, -⟩ := fetchNextEvent_frame cfg ({ k₁ with fsmState := .switching } : Kernel n σ)
  generalize ({ k₁ with fsmState := .switching } : Kernel n σ).fetchNextEvent cfg = f at htasks
  obtain ⟨event, next, k₂⟩ := f
  dsimp only at htasks
  have hsame : (k₂.tasks i).hrt = (k.tasks i).hrt := by
    rw [htasks]
    exact hdeliver i
  split
  · exact hsame
  · split
    · exact hsame
    · exact hsame
  · exact hsame

section Steps

variable [StrategyMembers (Fin n) σ] {s : JobLog n σ} {o : SyncId} {t : ℤ}

/-- What holds between the calls of a run. -/
structure LogOk (cfg : Config) (s : JobLog n σ) : Prop where
  enrolled : Enrolled cfg s.kernel
  sound : ∃ active, Sound cfg s.kernel active
  idle : ∀ i, s.kernel.taskNow = none ∨ (s.kernel.tasks i).user = none →
    NoJob (s.kernel.tasks i) ∧ s.job i = .fresh
  stands : s.kernel.taskNow ≠ none → ∀ i, (s.kernel.tasks i).user ≠ none → JobStands s.kernel i (s.job i)

namespace LogOk

theorem initial : LogOk cfg (JobLog.initial : JobLog n σ) where
  enrolled := Enrolled.initial
  sound := ⟨none, fun hne => absurd rfl hne, fun _ => .inl rfl, fun h => by simp [JobLog.initial, Kernel.initial] at h,
    by simp [JobLog.initial, Kernel.initial], fun i hi => by simp [JobLog.initial, Kernel.initial] at hi,
    by simp [JobLog.initial, Kernel.initial]⟩
  idle _ _ := ⟨⟨rfl, rfl, rfl⟩, rfl⟩
  stands hne := absurd rfl hne

/-- INTERNAL: a call that leaves the work of all slots and the processor alone. -/
theorem frame (h : LogOk cfg s) (henrolled : Enrolled cfg k') (hsound : ∃ active, Sound cfg k' active)
    (hworks : SameWorks s.kernel k') (hnow : k'.taskNow = s.kernel.taskNow)
    (hfsm : k'.fsmState = s.kernel.fsmState) : LogOk cfg ⟨k', s.job⟩ where
  enrolled := henrolled
  sound := hsound
  idle i hi := by
    have hw := hworks i
    have hidle : s.kernel.taskNow = none ∨ (s.kernel.tasks i).user = none := by
      rw [← hnow, ← hw.user]
      exact hi
    obtain ⟨hjob, hfresh⟩ := h.idle i hidle
    exact ⟨⟨by rw [hw.hrt]; exact hjob.duration, by rw [hw.hrt]; exact hjob.done, hw.remove.trans hjob.remove⟩, hfresh⟩
  stands hstarted i hbusy := by
    have hw := hworks i
    exact (h.stands (fun hnone => hstarted (hnow.trans hnone)) i
      (fun hnone => hbusy (hw.user.trans hnone))).frame hw hnow hfsm

/-- INTERNAL: a call that writes the slot of one task of a started kernel, with its job. -/
theorem rewrite (h : LogOk cfg s) (henrolled : Enrolled cfg k') (hsound : ∃ active, Sound cfg k' active)
    {t : KernelTask} {job : Fin n → Job} (htasks : k'.tasks = Function.update s.kernel.tasks i t)
    (hnow : k'.taskNow = s.kernel.taskNow) (hfsm : k'.fsmState = s.kernel.fsmState)
    (hstarted : s.kernel.taskNow ≠ none) (hbusy : t.user ≠ none) (hother : ∀ j, j ≠ i → job j = s.job j)
    (hself : JobStands k' i (job i)) : LogOk cfg ⟨k', job⟩ where
  enrolled := henrolled
  sound := hsound
  idle j hj := by
    have hji : j ≠ i := by
      rintro rfl
      rcases hj with hnone | hfree
      · exact hstarted (hnow.symm.trans hnone)
      · rw [htasks, Function.update_self] at hfree
        exact hbusy hfree
    rw [htasks, Function.update_of_ne hji] at hj ⊢
    rw [hnow] at hj
    dsimp only
    rw [hother j hji]
    exact h.idle j hj
  stands _ j hj := by
    by_cases hji : j = i
    · subst hji
      exact hself
    · dsimp only at hj ⊢
      have hsame : k'.tasks j = s.kernel.tasks j := by rw [htasks, Function.update_of_ne hji]
      rw [hsame] at hj
      rw [hother j hji]
      exact (h.stands hstarted j hj).frame (by rw [hsame]; exact .refl _) hnow hfsm

/-- INTERNAL: the task in slot `i` signals that its job is completed. -/
theorem yields (h : LogOk cfg s) (hhrt : cfg.isHrtMode = true) (hcall : s.kernel.canCall i = true)
    (hmakes : MakesCall s.kernel i) :
    JobStands (s.kernel.onTaskSleep cfg i yieldTicks) i { s.job i with completed := true } := by
  obtain ⟨hstarted, hbusy, -⟩ := canCall_iff.mp hcall
  rw [onTaskSleep_hrt hhrt]
  have hslot : (s.kernel.setTask i (fun t => ({ t with hrt := { t.hrt with done := true } } : KernelTask).scheduleSleep
      (SwitchStrategy.sleepEventApi σ) yieldTicks)).tasks i =
      ({ s.kernel.tasks i with hrt := { (s.kernel.tasks i).hrt with done := true } } : KernelTask).scheduleSleep
        (SwitchStrategy.sleepEventApi σ) yieldTicks := by
    simp [Kernel.setTask]
  rcases (h.stands hstarted i hbusy).of_makesCall hmakes with ⟨-, -, -, hlive, hawake⟩ | ⟨-, hremove⟩
  · apply JobStands.yielded rfl
    · rw [hslot]
      rfl
    · exact hmakes.on
    · rw [hslot]
      show -yieldTicks < -1
      decide
    · rw [hslot]
      exact hmakes.unlinked
    · intro hapi
      have hawake' : ({ s.kernel.tasks i with hrt := { (s.kernel.tasks i).hrt with done := true } } : KernelTask).isSleeping =
          false := hawake
      rw [hslot]
      simp [KernelTask.scheduleSleep, hapi, hawake']
    · rw [hslot]
      exact hlive
  · apply JobStands.leaving rfl
    · rw [hslot]
      exact hremove
    · rw [hslot]
      rfl

omit [StrategyMembers (Fin n) σ] in
/-- INTERNAL: the removal of a task is scheduled. -/
theorem leaves (hhrt : cfg.isHrtMode = true) (k : Kernel n σ) (i : Fin n) (job : Job) :
    JobStands (k.scheduleRemoval cfg i) i { job with completed := true } := by
  have hslot : (k.scheduleRemoval cfg i).tasks i =
      (k.tasks i).scheduleRemoval cfg (SwitchStrategy.sleepEventApi σ) := by
    simp [Kernel.scheduleRemoval, Kernel.setTask]
  rw [scheduleRemoval_hrt hhrt] at hslot
  apply JobStands.leaving rfl
  · rw [hslot]
  · rw [hslot]
    rfl

/-- INTERNAL: the task in slot `i` blocks in a wait. -/
theorem blocks (h : LogOk cfg s) (henrolled : Enrolled cfg (s.kernel.onTaskWait i o t))
    (hsound : ∃ active, Sound cfg (s.kernel.onTaskWait i o t) active) (hcall : s.kernel.canCall i = true)
    (hmakes : MakesCall s.kernel i) : LogOk cfg ⟨s.kernel.onTaskWait i o t, s.job⟩ := by
  obtain ⟨hstarted, hbusy, -⟩ := canCall_iff.mp hcall
  by_cases htime : t = 0
  · have hfault : s.kernel.onTaskWait i o t = s.kernel.fault .waitTimeoutZero := by
      unfold Kernel.onTaskWait
      rw [if_pos htime]
    exact h.frame henrolled hsound (by rw [hfault]; exact .of_tasks rfl) (by rw [hfault]; rfl) (by rw [hfault]; rfl)
  · have heq := onTaskWait_eq htime hmakes.unlinked o
    refine h.rewrite henrolled hsound (congrArg Kernel.tasks heq) (by rw [heq]) (by rw [heq]) hstarted hbusy
      (fun _ _ => rfl) ?_
    have hslot : (s.kernel.onTaskWait i o t).tasks i =
        ({ s.kernel.tasks i with waitObj := ⟨some o, false, t⟩ } : KernelTask).scheduleSleep
          (SwitchStrategy.sleepEventApi σ) waitInfinite := by
      rw [heq]
      simp
    rcases (h.stands hstarted i hbusy).of_makesCall hmakes with
      ⟨hcompleted, hwork, hdone, hlive, -⟩ | ⟨hcompleted, hremove⟩
    · apply JobStands.working hcompleted
      · rw [hslot]
        exact hwork
      · rw [hslot]
        exact hdone
      · rw [hslot]
        exact hlive
    · apply JobStands.leaving hcompleted
      · rw [hslot]
        exact hremove
      · rw [hslot]
        rfl

/-- INTERNAL: a tick of a started kernel. -/
theorem onTick [OffersAwake (Fin n) σ] (h : LogOk cfg s) (hhrt : cfg.isHrtMode = true) (hcfg : AcceptsStatic σ cfg)
    (hstarted : s.kernel.taskNow ≠ none) (hkeeps : KeepsJobs cfg s.kernel (.onTick 1)) :
    LogOk cfg ⟨(s.kernel.onTick cfg 1).1, fun i => jobAfterTick cfg s.kernel 1 i (s.job i)⟩ := by
  obtain ⟨active, hsound⟩ := h.sound
  obtain ⟨now, hnow⟩ := Option.ne_none_iff_exists'.mp hstarted
  obtain ⟨henrolled', hsound', hticked⟩ := onTick_sound h.enrolled hcfg hsound hnow 1
  have hfree : ∀ i, (s.kernel.onTick cfg 1).1.taskNow = none ∨ ((s.kernel.onTick cfg 1).1.tasks i).user = none →
      ((s.kernel.onTick cfg 1).1.tasks i).user = none := by
    intro i hi
    rcases hi with hstopped | hi
    · -- the kernel exits only without a task
      by_contra hbusy
      exact henrolled'.getSize_ne_zero hbusy (hticked.exit.mp (hticked.stop.mpr hstopped))
    · exact hi
  refine ⟨henrolled', ⟨_, hsound'⟩, ?_, ?_⟩
  · intro i hi
    have hnone := hfree i hi
    refine ⟨onTick_noJob h.enrolled hcfg hsound hnow hhrt (fun hi => (h.idle i (.inr hi)).1) hnone, ?_⟩
    exact jobAfterTick_free (by simp [KernelTask.isBusy, hnone])
  · intro _ i hbusy'
    have hbusy : (s.kernel.tasks i).user ≠ none := by
      intro hnone
      have hload := SameWorks.loading hhrt s.kernel 1 i
      obtain ⟨huser, -⟩ := switched_slot (onTick_tasks h.enrolled hcfg hsound hnow 1 i)
      obtain ⟨gone, hslot, -⟩ := asking_updated cfg s.kernel 1 i
      apply hbusy'
      dsimp only
      rw [huser, hslot]
      rcases ticked_user cfg (SwitchStrategy.sleepEventApi σ) 1 gone ((loading cfg s.kernel 1).tasks i) with
        hfreed | hsame
      · exact hfreed
      · rw [hsame, hload.user, hnone]
    exact (h.stands hstarted i hbusy).onTick h.enrolled hcfg hsound hnow hhrt hkeeps hbusy hbusy'

omit [StrategyMembers (Fin n) σ] in
/-- INTERNAL: a call that completes no job. -/
theorem jobAfter_same {job : Job} {ev : KernelEvent n} (htick : ∀ e, ev ≠ .onTick e)
    (hnot : ¬ Completes cfg k i ev) :
    jobAfter cfg k i job ev = job := by
  cases ev with
  | onTick e => exact absurd rfl (htick e)
  | _ =>
    unfold jobAfter
    exact if_neg hnot

/-- INTERNAL: a call before the start, which completes no job. -/
theorem stopped (h : LogOk cfg s) {ev : KernelEvent n} (htick : ∀ e, ev ≠ .onTick e)
    (hnot : ∀ i, ¬ Completes cfg s.kernel i ev) (henrolled : Enrolled cfg (s.kernel.step cfg ev))
    (hsound : ∃ active, Sound cfg (s.kernel.step cfg ev) active) (hidle : s.kernel.taskNow = none)
    (hnow : (s.kernel.step cfg ev).taskNow = none) (hjobs : ∀ i, NoJob ((s.kernel.step cfg ev).tasks i)) :
    LogOk cfg (s.step cfg ev) where
  enrolled := henrolled
  sound := hsound
  idle i _ := ⟨hjobs i, (jobAfter_same htick (hnot i)).trans (h.idle i (.inl hidle)).2⟩
  stands hne := absurd hnow hne

/-- INTERNAL: a call that schedules the removal of the task in slot `i`. -/
theorem removes (h : LogOk cfg s) (hhrt : cfg.isHrtMode = true) {ev : KernelEvent n}
    (henrolled : Enrolled cfg (s.kernel.step cfg ev)) (hsound : ∃ active, Sound cfg (s.kernel.step cfg ev) active)
    (heq : s.kernel.step cfg ev = s.kernel.scheduleRemoval cfg i) (hstarted : s.kernel.taskNow ≠ none)
    (hbusy : (s.kernel.tasks i).user ≠ none) (hother : ∀ j, j ≠ i → jobAfter cfg s.kernel j (s.job j) ev = s.job j)
    (hself : jobAfter cfg s.kernel i (s.job i) ev = { s.job i with completed := true }) :
    LogOk cfg (s.step cfg ev) := by
  have huser : ((s.kernel.tasks i).scheduleRemoval cfg (SwitchStrategy.sleepEventApi σ)).user ≠ none := by
    rw [scheduleRemoval_hrt hhrt]
    exact hbusy
  refine h.rewrite henrolled hsound (i := i) (congrArg Kernel.tasks heq) (by rw [heq]; rfl) (by rw [heq]; rfl)
    hstarted huser hother ?_
  rw [hself, heq]
  exact leaves hhrt s.kernel i (s.job i)

/-- INTERNAL: one call into the kernel. -/
theorem step [OffersAwake (Fin n) σ] (h : LogOk cfg s) (hhrt : cfg.isHrtMode = true)
    (htickless : cfg.isTicklessMode = false) (hcfg : AcceptsStatic σ cfg) {ev : KernelEvent n}
    (hweight : WeightAccepted σ ev) (hkeeps : KeepsJobs cfg s.kernel ev) : LogOk cfg (s.step cfg ev) := by
  obtain ⟨active, hsound⟩ := h.sound
  obtain ⟨henrolled', hsound', -⟩ := step_sound hcfg h.enrolled hsound hweight
  have hsound' : ∃ active, Sound cfg (s.kernel.step cfg ev) active := ⟨_, hsound'⟩
  -- a call that completes no job and leaves the slots and the processor alone
  have hquiet : (∀ e, ev ≠ .onTick e) → (∀ i, ¬ Completes cfg s.kernel i ev) →
      SameWorks s.kernel (s.kernel.step cfg ev) →
      (s.kernel.step cfg ev).taskNow = s.kernel.taskNow → (s.kernel.step cfg ev).fsmState = s.kernel.fsmState →
      LogOk cfg (s.step cfg ev) := by
    intro htick hnot hworks hnow hfsm
    have hjobs : (s.step cfg ev).job = s.job := funext fun i => jobAfter_same htick (hnot i)
    have hframe := h.frame henrolled' hsound' hworks hnow hfsm
    rw [← hjobs] at hframe
    exact hframe
  have hsame : (∀ e, ev ≠ .onTick e) → (∀ i, ¬ Completes cfg s.kernel i ev) →
      s.kernel.step cfg ev = s.kernel →
      LogOk cfg (s.step cfg ev) := by
    intro htick hnot heq
    exact hquiet htick hnot (.of_tasks (by rw [heq])) (by rw [heq]) (by rw [heq])
  cases ev with
  | addTask u =>
    refine hsame (fun _ => (by simp)) (fun _ => not_false) ?_
    simp only [Kernel.step, hhrt, Bool.not_true, Bool.false_and, Bool.false_eq_true, ↓reduceIte]
  | onSuspend =>
    refine hsame (fun _ => (by simp)) (fun _ => not_false) ?_
    simp only [Kernel.step, htickless, Bool.false_and, Bool.false_eq_true, ↓reduceIte]
  | requestAddTask j u =>
    refine hsame (fun _ => (by simp)) (fun _ => not_false) ?_
    simp only [Kernel.step, hhrt, Bool.not_true, Bool.and_false, Bool.false_eq_true, ↓reduceIte]
  | sleep j t =>
    refine hsame (fun _ => (by simp)) (fun _ => not_false) ?_
    simp only [Kernel.step, hhrt, Bool.not_true, Bool.and_false, Bool.false_and, Bool.false_eq_true, ↓reduceIte]
  | sleepUntil j t =>
    refine hsame (fun _ => (by simp)) (fun _ => not_false) ?_
    simp only [Kernel.step, hhrt, Bool.not_true, Bool.and_false, Bool.false_eq_true, ↓reduceIte]
  | sleepCancel u =>
    refine hsame (fun _ => (by simp)) (fun _ => not_false) ?_
    simp only [Kernel.step, hhrt, Bool.not_true, Bool.false_eq_true, ↓reduceIte]
  | suspendTask u => exact hkeeps.elim
  | resumeTask u => exact hkeeps.elim
  | waitReturn j =>
    have hframe : (s.kernel.step cfg (.waitReturn j)).tasks = s.kernel.tasks ∧
        (s.kernel.step cfg (.waitReturn j)).taskNow = s.kernel.taskNow ∧
        (s.kernel.step cfg (.waitReturn j)).fsmState = s.kernel.fsmState := by
      simp only [Kernel.step]
      split
      · exact ⟨rfl, rfl, rfl⟩
      · exact ⟨rfl, rfl, rfl⟩
    exact hquiet (fun _ => (by simp)) (fun _ => not_false) (.of_tasks hframe.1) hframe.2.1 hframe.2.2
  | wakeOne o =>
    obtain ⟨-, hnow, hfsm, -⟩ := step_enrolled (e := .wakeOne o) hcfg h.enrolled trivial rfl
    exact hquiet (fun _ => (by simp)) (fun _ => not_false) (.wakeOne s.kernel o) hnow hfsm
  | wakeAll o =>
    obtain ⟨-, hnow, hfsm, -⟩ := step_enrolled (e := .wakeAll o) hcfg h.enrolled trivial rfl
    exact hquiet (fun _ => (by simp)) (fun _ => not_false)
      (SameWorks.foldl (fun k i => .wakeWaitObj k i false) _) hnow hfsm
  | inheritWeight u w =>
    obtain ⟨-, hnow, hfsm, -⟩ := step_enrolled hcfg h.enrolled hweight rfl
    exact hquiet (fun _ => (by simp)) (fun _ => not_false) (.onInheritWeight cfg s.kernel u w) hnow hfsm
  | restoreWeight u o =>
    obtain ⟨-, hnow, hfsm, -⟩ := step_enrolled (e := .restoreWeight u o) hcfg h.enrolled trivial rfl
    exact hquiet (fun _ => (by simp)) (fun _ => not_false) (.onRestoreWeight cfg s.kernel u o) hnow hfsm
  | addTaskHrt u p d t =>
    by_cases hmode : (cfg.isHrtMode && !s.kernel.isStarted && validHrt p d t) = true
    · have hidle : s.kernel.taskNow = none := by
        simp only [Bool.and_eq_true] at hmode
        simpa [Kernel.isStarted] using hmode.1.2
      obtain ⟨-, hnow, -⟩ := step_enrolled (e := .addTaskHrt u p d t) hcfg h.enrolled trivial rfl
      refine h.stopped (fun _ => (by simp)) (fun _ => not_false) henrolled' hsound' hidle (hnow.trans hidle) ?_
      intro i
      simp only [Kernel.step, if_pos hmode]
      exact hrtAllocateAndAddNewTask_noJob (fun j => (h.idle j (.inl hidle)).1) u p d t i
    · refine hsame (fun _ => (by simp)) (fun _ => not_false) ?_
      simp only [Kernel.step, if_neg hmode]
  | removeTask u =>
    by_cases hmode : (cfg.isDynamicMode && !s.kernel.isStarted) = true
    · have hidle : s.kernel.taskNow = none := by
        simp only [Bool.and_eq_true] at hmode
        simpa [Kernel.isStarted] using hmode.2
      cases hfind : s.kernel.findTaskByUserTask u with
      | none =>
        refine hsame (fun _ => (by simp)) (fun _ => not_false) ?_
        simp only [Kernel.step, if_pos hmode, hfind]
      | some j =>
        have heq : s.kernel.step cfg (.removeTask u) = s.kernel.removeTask cfg j := by
          simp only [Kernel.step, if_pos hmode, hfind]
        obtain ⟨-, -, -, hnow, -⟩ := removeTask_frame cfg s.kernel j
        refine h.stopped (fun _ => (by simp)) (fun _ => not_false) henrolled' hsound' hidle (by rw [heq, hnow, hidle]) ?_
        intro i
        rw [heq]
        exact removeTask_noJob hhrt (fun j => (h.idle j (.inl hidle)).1) j i
    · refine hsame (fun _ => (by simp)) (fun _ => not_false) ?_
      simp only [Kernel.step, if_neg hmode]
  | onStart =>
    by_cases hmode : (!s.kernel.isStarted && decide (s.kernel.fsmState = .none) &&
        decide (SwitchStrategy.getSize s.kernel.strategy ≠ 0)) = true
    · have hidle : s.kernel.taskNow = none := by
        simp only [Bool.and_eq_true] at hmode
        simpa [Kernel.isStarted] using hmode.1.1
      have heq : s.kernel.step cfg .onStart = s.kernel.onStart cfg := by
        simp only [Kernel.step, if_pos hmode]
      have hjobs : ∀ i, NoJob ((s.kernel.step cfg .onStart).tasks i) ∧ (s.step cfg .onStart).job i = .fresh := by
        intro i
        obtain ⟨hjob, hfresh⟩ := h.idle i (.inl hidle)
        refine ⟨?_, hfresh⟩
        rw [heq]
        have hslot := onStart_hrt cfg s.kernel i
        exact ⟨by rw [hslot]; exact hjob.duration, by rw [hslot]; exact hjob.done,
          (SameSlot.onStart cfg i s.kernel).remove.trans hjob.remove⟩
      refine ⟨henrolled', hsound', fun i _ => hjobs i, ?_⟩
      intro _ i _
      obtain ⟨hjob, hfresh⟩ := hjobs i
      rw [hfresh]
      exact .working rfl hjob.duration hjob.done hjob.remove
    · refine hsame (fun _ => (by simp)) (fun _ => not_false) ?_
      simp only [Kernel.step, if_neg hmode]
  | onStop =>
    by_cases hmode : (cfg.isDynamicMode && decide (s.kernel.fsmState = .exiting)) = true
    · have hidle : s.kernel.taskNow = none := by
        simp only [Bool.and_eq_true, decide_eq_true_eq] at hmode
        by_contra hne
        rcases hsound.started hne with hfsm | hfsm | hfsm
        · cases hmode.2.symm.trans hfsm
        · cases hmode.2.symm.trans hfsm
        · cases hmode.2.symm.trans hfsm
      have heq : s.kernel.step cfg .onStop = { s.kernel with fsmState := .none } := by
        simp only [Kernel.step, if_pos hmode]
      refine h.stopped (fun _ => (by simp)) (fun _ => not_false) henrolled' hsound' hidle (by rw [heq]; exact hidle) ?_
      intro i
      rw [heq]
      exact (h.idle i (.inl hidle)).1
    · refine hsame (fun _ => (by simp)) (fun _ => not_false) ?_
      simp only [Kernel.step, if_neg hmode]
  | onTick t =>
    by_cases hticks : s.kernel.ticksWith cfg t = true
    · have hvalid : (s.kernel.isStarted && validElapsed cfg t) = true := hticks
      obtain rfl : t = 1 := by
        simp only [validElapsed, htickless, Bool.false_or, Bool.and_eq_true, decide_eq_true_eq] at hvalid
        exact hvalid.2.2
      have hstarted : s.kernel.taskNow ≠ none := by
        rw [Bool.and_eq_true] at hvalid
        simpa [Kernel.isStarted, Option.isSome_iff_ne_none] using hvalid.1
      have heq : s.step cfg (.onTick 1) =
          ⟨(s.kernel.onTick cfg 1).1, fun i => jobAfterTick cfg s.kernel 1 i (s.job i)⟩ := by
        simp only [JobLog.step, jobAfter, if_pos hticks, Kernel.step, if_pos hvalid]
      rw [heq]
      exact h.onTick hhrt hcfg hstarted hkeeps
    · have heq : s.step cfg (.onTick t) = s := by
        have hinvalid : ¬ (s.kernel.isStarted && validElapsed cfg t) = true := hticks
        simp only [JobLog.step, jobAfter, if_neg hticks, Kernel.step, if_neg hinvalid]
      rw [heq]
      exact h
  | switchToNext j =>
    by_cases hcall : s.kernel.canCall j = true
    · obtain ⟨hstarted, hbusy, -⟩ := canCall_iff.mp hcall
      have heq : s.kernel.step cfg (.switchToNext j) = s.kernel.onTaskSleep cfg j yieldTicks := by
        simp only [Kernel.step, if_pos hcall]
      have hset := onTaskSleep_hrt (k := s.kernel) (i := j) hhrt
      refine h.rewrite henrolled' hsound' (congrArg Kernel.tasks (heq.trans hset)) (by rw [heq, hset]; rfl)
        (by rw [heq, hset]; rfl) hstarted hbusy ?_ ?_
      · intro i hi
        exact jobAfter_same (fun _ => (by simp)) (fun hends => hi hends.1.symm)
      · have hends : jobAfter cfg s.kernel j (s.job j) (.switchToNext j) = { s.job j with completed := true } :=
          if_pos ⟨rfl, hcall⟩
        rw [hends, heq]
        exact h.yields hhrt hcall hkeeps
    · refine hsame (fun _ => (by simp)) (fun i hends => hcall hends.2) ?_
      simp only [Kernel.step, if_neg hcall]
  | wait j o t =>
    by_cases hcall : (s.kernel.canCall j && cfg.isSyncMode && decide (t ≤ waitInfinite)) = true
    · have heq : s.kernel.step cfg (.wait j o t) = s.kernel.onTaskWait j o t := by
        simp only [Kernel.step, if_pos hcall]
      simp only [Bool.and_eq_true] at hcall
      have hblocks := h.blocks (heq ▸ henrolled') (heq ▸ hsound') hcall.1.1 hkeeps
      rw [← heq] at hblocks
      exact hblocks
    · refine hsame (fun _ => (by simp)) (fun _ => not_false) ?_
      simp only [Kernel.step, if_neg hcall]
  | taskExit j =>
    by_cases hcall : (s.kernel.canCall j && cfg.isDynamicMode) = true
    · have heq : s.kernel.step cfg (.taskExit j) = s.kernel.scheduleRemoval cfg j := by
        simp only [Kernel.step, if_pos hcall]
      rw [Bool.and_eq_true] at hcall
      obtain ⟨hstarted, hbusy, -⟩ := canCall_iff.mp hcall.1
      refine h.removes hhrt henrolled' hsound' heq hstarted hbusy ?_ ?_
      · intro i hi
        exact jobAfter_same (fun _ => (by simp)) (fun hends => hi hends.1.symm)
      · exact if_pos ⟨rfl, hcall⟩
    · refine hsame (fun _ => (by simp)) (fun i hends => hcall (by rw [Bool.and_eq_true]; exact hends.2)) ?_
      simp only [Kernel.step, if_neg hcall]
  | scheduleTaskRemoval u =>
    by_cases hmode : (cfg.isDynamicMode && s.kernel.isStarted) = true
    · have hmode' := hmode
      rw [Bool.and_eq_true] at hmode'
      cases hfind : s.kernel.findTaskByUserTask u with
      | none =>
        refine hsame (fun _ => (by simp)) (fun i hends => by cases hfind.symm.trans hends.2.2) ?_
        simp only [Kernel.step, if_pos hmode, hfind]
      | some j =>
        have heq : s.kernel.step cfg (.scheduleTaskRemoval u) = s.kernel.scheduleRemoval cfg j := by
          simp only [Kernel.step, if_pos hmode, hfind]
        have hstarted : s.kernel.taskNow ≠ none := by
          simpa [Kernel.isStarted, Option.isSome_iff_ne_none] using hmode'.2
        have hbusy : (s.kernel.tasks j).user ≠ none := by
          rw [Good.findTaskByUserTask_busy hfind]
          exact Option.some_ne_none u
        refine h.removes hhrt henrolled' hsound' heq hstarted hbusy ?_ ?_
        · intro i hi
          exact jobAfter_same (fun _ => (by simp))
            (fun hends => hi (Option.some.inj (hends.2.2.symm.trans hfind)))
        · exact if_pos ⟨hmode'.1, hmode'.2, hfind⟩
    · refine hsame (fun _ => (by simp))
        (fun i hends => hmode (by rw [Bool.and_eq_true]; exact ⟨hends.1, hends.2.1⟩)) ?_
      simp only [Kernel.step, if_neg hmode]

/-- INTERNAL: a tick takes the deadline-miss action exactly for the jobs that are overdue. -/
theorem missAction (h : LogOk cfg s) (hhrt : cfg.isHrtMode = true) (hstarted : s.kernel.taskNow ≠ none) :
    MissAction cfg s.kernel e i ↔ RunnableIn cfg s.kernel e i ∧ (s.job i).completed = false ∧
      (s.kernel.tasks i).hrt.deadline < (s.job i).work + e := by
  have hload := SameWorks.loading hhrt s.kernel e i
  have hworks : RunnableIn cfg s.kernel e i →
      (s.job i).completed = false ∧ (s.kernel.tasks i).hrt.duration = (s.job i).work := by
    intro hrun
    have hawake : ¬ (s.kernel.tasks i).isSleeping = true := fun hs => not_runnableIn (hload.asleep hs) hrun
    have hbusy : (s.kernel.tasks i).user ≠ none := by
      rw [← hload.user]
      exact KernelTask.isBusy_iff.mp hrun.1
    cases h.stands hstarted i hbusy with
    | working hcompleted hwork _ _ => exact ⟨hcompleted, hwork⟩
    | yielded _ _ _ htime _ _ _ =>
      exfalso
      apply hawake
      rw [KernelTask.isSleeping_iff]
      omega
    | resting _ _ _ hs _ => exact absurd hs hawake
    | leaving _ _ hs => exact absurd hs hawake
  rw [missAction_iff hhrt, hload.hrt]
  constructor
  · rintro ⟨hrun, hlate⟩
    obtain ⟨hcompleted, hwork⟩ := hworks hrun
    rw [hwork] at hlate
    exact ⟨hrun, hcompleted, hlate⟩
  · rintro ⟨hrun, -, hlate⟩
    rw [(hworks hrun).2]
    exact ⟨hrun, hlate⟩

end LogOk

end Steps

/-! ## Runs -/

/-- In every run that keeps the counters and the jobs together, a tick takes the deadline-miss action
for a task exactly when the task is runnable, has not completed its job, and has then been runnable in
it for more ticks than its deadline. -/
def DeadlineRuns (n : ℕ) (σ : Type) [SwitchStrategy (Fin n) σ] [StrategyMembers (Fin n) σ] : Prop :=
  ∀ (cfg : Config) (es : List (KernelEvent n)), cfg.isHrtMode = true → cfg.isTicklessMode = false →
    AcceptsStatic σ cfg → (∀ ev ∈ es, WeightAccepted σ ev) →
    Runs.Along (JobLog.step cfg) (fun s ev => KeepsJobs cfg s.kernel ev) (JobLog.initial : JobLog n σ) es →
    let s : JobLog n σ := JobLog.run cfg es
    ∀ (i : Fin n) (e : ℤ), s.kernel.ticksWith cfg e = true →
      (MissAction cfg s.kernel e i ↔ RunnableIn cfg s.kernel e i ∧ (s.job i).completed = false ∧
        (s.kernel.tasks i).hrt.deadline < (s.job i).work + e)

theorem deadlineRuns [StrategyMembers (Fin n) σ] [OffersAwake (Fin n) σ] : DeadlineRuns n σ := by
  intro cfg es hhrt htickless hcfg hweights hes s i e hticks
  have hok : LogOk cfg s := by
    have hboth := hes.and (Runs.along_of_mem hweights JobLog.initial)
    exact hboth.invariant (I := LogOk cfg)
      (fun s ev h hev => h.step hhrt htickless hcfg hev.2 hev.1) LogOk.initial
  apply hok.missAction hhrt
  have hstarted := (Bool.and_eq_true_iff.mp hticks).1
  simpa [Kernel.isStarted, Option.isSome_iff_ne_none] using hstarted

/-- **Deadline enforcement.**  Under each of the five strategies, in every run of a `KERNEL_HRT` kernel
without `SuspendTask` and `ResumeTask` in which no tick resets the counter of a job that is not over and
none wakes a task that is to be removed: a tick takes the deadline-miss action for a task exactly when
the task has been runnable for more ticks than its deadline since its activation and has not completed
the job. -/
theorem run_deadlineMisses (n P : ℕ) [Fact (P ≤ 32)] (type : MonotonicType) :
    DeadlineRuns n (RoundRobin (Fin n)) ∧ DeadlineRuns n (FixedPriority P (Fin n)) ∧
      DeadlineRuns n (SmoothWeightedRoundRobin (Fin n)) ∧
      DeadlineRuns n (EarliestDeadlineFirst (Fin n)) ∧ DeadlineRuns n (Monotonic type (Fin n)) :=
  ⟨deadlineRuns, deadlineRuns, deadlineRuns, deadlineRuns, deadlineRuns⟩

/-- Two tasks share the processor.  The first one completes a job in the two ticks of its deadline, is released
again and overruns its next job. -/
def twoJobs : List (KernelEvent 2) :=
  [.addTaskHrt 0 4 2 0, .addTaskHrt 1 100 90 0, .onStart, .onTick 1, .onTick 1, .switchToNext 0, .onTick 1,
    .onTick 1, .onTick 1, .onTick 1, .onTick 1]

theorem twoJobs_missed :
    let s : JobLog 2 (RoundRobin (Fin 2)) := JobLog.run hrtConfig twoJobs
    s.kernel.faults = [] ∧ MissAction hrtConfig s.kernel 1 0 := by
  have : Fact (32 ≤ 32) := ⟨le_rfl⟩
  have hweights : ∀ ev ∈ twoJobs, WeightAccepted (RoundRobin (Fin 2)) ev := by
    simp [twoJobs, WeightAccepted]
  have hmisses := (run_deadlineMisses 2 32 .rate).1 hrtConfig twoJobs rfl rfl (fun _ => trivial) hweights
    (by decide +kernel) 0 1 (by decide +kernel)
  refine ⟨by decide +kernel, hmisses.mpr ⟨?_, ?_, ?_⟩⟩
  · decide +kernel
  · decide +kernel
  · decide +kernel

/-- A task that waits inside its job while nobody else runs: the tick that finds it waiting starts its
counter anew. -/
def blockedAlone : List (KernelEvent 1) :=
  [.addTaskHrt 0 10 3 0, .onStart, .onTick 1, .onTick 1, .wait 0 (.object 0) 3, .onTick 1, .onTick 1, .onTick 1,
    .waitReturn 0, .onTick 1]

/-- No task is suspended or resumed, and yet the task is runnable for a fourth tick of a job with a deadline of
three and no action is taken. -/
theorem blockedAlone_unnoticed :
    let s : JobLog 1 (RoundRobin (Fin 1)) := JobLog.run hrtConfig blockedAlone
    (∀ i, .suspendTask i ∉ blockedAlone ∧ .resumeTask i ∉ blockedAlone) ∧
      s.kernel.ticksWith hrtConfig 1 = true ∧ RunnableIn hrtConfig s.kernel 1 0 ∧ (s.job 0).completed = false ∧
      (s.kernel.tasks 0).hrt.deadline < (s.job 0).work + 1 ∧ ¬ MissAction hrtConfig s.kernel 1 0 := by
  refine ⟨?_, by decide +kernel⟩
  intro i
  simp [blockedAlone]

end Stk.Analysis
