import Stk.Analysis.DispatchTick
import Stk.Model.Dispatch

/-!
# The FSM over whole runs

Under each of the five strategies and in every run in which no assertion on the lists fails: a started kernel is in
SWITCHING, WAKING or SLEEPING, its current task is bound, the stack last handed out as active is that of the current
task or the sleep trap, and the kernel exits exactly when the last task has gone, for good.
-/

set_option autoImplicit false

namespace Stk.Analysis

open Stk.Model Stk.Model.Kernel

variable {n : ℕ} {σ : Type} [SwitchStrategy (Fin n) σ] [StrategyMembers (Fin n) σ] {cfg : Config}
  {k k' : Kernel n σ} {i : Fin n} {e : KernelEvent n} {active : Option (StackId n)}

/-! ## Calls other than `OnStart` and `OnTick` -/

namespace Enrolled

/-- INTERNAL: `ScheduleRemoval` of a bound slot. -/
theorem scheduleRemoval (h : Enrolled cfg k) (hbusy : (k.tasks i).user ≠ none) :
    Enrolled cfg (k.scheduleRemoval cfg i) ∧ KeepsBound k (k.scheduleRemoval cfg i) := by
  have hfields : ∀ t : KernelTask, (t.scheduleRemoval cfg (SwitchStrategy.sleepEventApi σ)).user = t.user ∧
      (t.scheduleRemoval cfg (SwitchStrategy.sleepEventApi σ)).rtWeight = t.rtWeight := by
    intro t
    unfold KernelTask.scheduleRemoval
    dsimp only
    split
    · exact ⟨rfl, rfl⟩
    · exact ⟨rfl, rfl⟩
  have hself : (k.scheduleRemoval cfg i).tasks i =
      (k.tasks i).scheduleRemoval cfg (SwitchStrategy.sleepEventApi σ) := Function.update_self _ _ _
  have hother : ∀ j, j ≠ i → SameBinding (k.tasks j) ((k.scheduleRemoval cfg i).tasks j) := by
    intro j hj
    rw [show (k.scheduleRemoval cfg i).tasks j = k.tasks j from Function.update_of_ne hj _ _]
    exact .rfl
  have huser : ∀ j, ((k.scheduleRemoval cfg i).tasks j).user = (k.tasks j).user := by
    intro j
    by_cases hj : j = i
    · subst hj
      rw [hself, (hfields _).1]
    · exact (hother j hj).user
  have hweight : (k.scheduleRemoval cfg i).getWeight cfg = k.getWeight cfg := by
    funext j
    by_cases hj : j = i
    · subst hj
      unfold Kernel.getWeight KernelTask.getWeight
      rw [hself, (hfields _).1, (hfields _).2]
    · exact getWeight_binding cfg (hother j hj)
  refine ⟨⟨?_, fun j => ?_, fun j hj => ?_, fun j hj => ?_, fun hf j j' => ?_, h.sane⟩, rfl, rfl, fun j hj => ?_⟩
  · rw [hweight]
    exact h.wf
  · rw [huser j]
    exact h.mem j
  · rw [huser j] at hj
    rw [hweight]
    exact h.weight j hj
  · rw [huser j]
    by_cases hji : j = i
    · subst hji
      exact hbusy
    · rw [(hother j hji).removePending] at hj
      exact h.pending j hj
  · rw [huser j, huser j']
    exact h.distinct hf j j'
  · rw [huser j]
    exact hj

end Enrolled

/-- The events that the argument treats one by one; all others are calm. -/
def KernelEvent.rebinds : KernelEvent n → Bool
  | .addTask _ | .addTaskHrt _ _ _ _ | .removeTask _ | .onStart | .onStop | .onTick _ | .taskExit _
  | .scheduleTaskRemoval _ | .inheritWeight _ _ | .restoreWeight _ _ => true
  | _ => false

omit [StrategyMembers (Fin n) σ] in
theorem step_calm (cfg : Config) (k : Kernel n σ) (he : KernelEvent.rebinds e = false) :
    Calm k (k.step cfg e) := by
  cases e with
  | addTask _ | addTaskHrt _ _ _ _ | removeTask _ | onStart | onStop | onTick _ | taskExit _
  | scheduleTaskRemoval _ | inheritWeight _ _ | restoreWeight _ _ => cases he
  | onSuspend =>
    simp only [Kernel.step, Kernel.onSuspend]
    split
    · split
      · exact .refl k
      · split
        · exact .refl k
        · exact .scheduleSleep k _ _
    · exact .refl k
  | requestAddTask i u =>
    simp only [Kernel.step]
    split
    · have hset := Calm.setTask k i (f := fun t => { t with addTaskReq := some u }) ⟨rfl, rfl, rfl⟩
      exact hset.congr rfl rfl rfl rfl rfl
    · exact .refl k
  | sleep i ticks =>
    simp only [Kernel.step]
    split
    · exact .onTaskSleep cfg k i ticks
    · exact .refl k
  | sleepUntil i timestamp =>
    simp only [Kernel.step, Kernel.onTaskSleepUntil]
    split
    · split
      · exact .scheduleSleep k i _
      · exact .refl k
    · exact .refl k
  | switchToNext i =>
    simp only [Kernel.step]
    split
    · exact .onTaskSleep cfg k i yieldTicks
    · exact .refl k
  | wait i o timeout =>
    simp only [Kernel.step]
    split
    · exact .onTaskWait k i o timeout
    · exact .refl k
  | waitReturn i =>
    simp only [Kernel.step]
    split
    · exact .refl k
    · exact (Calm.refl k).congr rfl rfl rfl rfl rfl
  | suspendTask u =>
    simp only [Kernel.step, Kernel.suspendTask]
    split
    · exact .fault k (by decide)
    · split
      · exact .refl k
      · exact .scheduleSleep k _ _
  | resumeTask u => exact .resumeTask k u
  | sleepCancel u =>
    simp only [Kernel.step]
    split
    · exact .resumeTask k u
    · exact .refl k
  | wakeOne o =>
    simp only [Kernel.step, Kernel.wakeOne]
    split
    · exact .refl k
    · exact .wakeWaitObj k _ false
  | wakeAll o => exact Calm.foldl (fun k i => .wakeWaitObj k i false) _

/-- The strategy accepts an inherited weight. -/
def WeightAccepted (σ : Type) {n : ℕ} [SwitchStrategy (Fin n) σ] [StrategyMembers (Fin n) σ] :
    KernelEvent n → Prop
  | .inheritWeight _ w => w ≠ noWeight → StrategyMembers.WeightOk σ w
  | _ => True

omit [SwitchStrategy (Fin n) σ] [StrategyMembers (Fin n) σ] in
/-- INTERNAL: the FSM is not involved and no slot loses its task. -/
theorem Sound.keep (h : Sound cfg k active) (hk : KeepsBound k k') (hsane : .badState ∉ k'.faults) :
    Sound cfg k' active := by
  obtain ⟨hnow, hfsm, huser⟩ := hk
  refine ⟨?_, ?_, ?_, ?_, ?_, hsane⟩
  · unfold Dispatching
    rw [hnow, hfsm]
    exact h.started
  · rw [hnow, hfsm]
    exact h.stopped
  · intro hrun
    rw [hfsm] at hrun
    obtain ⟨i, hi, hbusy, hactive⟩ := h.running hrun
    exact ⟨i, hnow.trans hi, huser i hbusy, hactive⟩
  · rw [hfsm]
    exact h.trap
  · intro i hi
    exact huser i (h.bound i (hnow ▸ hi))

omit [SwitchStrategy (Fin n) σ] [StrategyMembers (Fin n) σ] in
/-- INTERNAL: a kernel that does not run has no current task to lose. -/
theorem Sound.idle (h : Sound cfg k active) (hidle : k.taskNow = none) (hnow : k'.taskNow = none)
    (hfsm : k'.fsmState = k.fsmState ∨ k'.fsmState = .none ∧ k.fsmState = .exiting)
    (hsane : .badState ∉ k'.faults) : Sound cfg k' active := by
  have hstopped : k'.fsmState = .none ∨ cfg.isDynamicMode = true ∧ k'.fsmState = .exiting := by
    rcases hfsm with heq | ⟨hnone, -⟩
    · rw [heq]
      exact h.stopped hidle
    · exact .inl hnone
  have hawake : k.fsmState ≠ .sleeping := by
    rcases h.stopped hidle with hn | ⟨-, he⟩
    · rw [hn]
      decide
    · rw [he]
      decide
  refine ⟨fun hne => absurd hnow hne, fun _ => hstopped, fun hrun => ?_, ?_, fun i hi => ?_, hsane⟩
  · rcases hstopped with hn | ⟨-, he⟩
    · rw [hn] at hrun
      rcases hrun with h | h
      · cases h
      · cases h
    · rw [he] at hrun
      rcases hrun with h | h
      · cases h
      · cases h
  · refine ⟨fun ht => absurd (h.trap.mp ht) hawake, fun hs => ?_⟩
    rcases hstopped with hn | ⟨-, he⟩
    · cases hn.symm.trans hs
    · cases he.symm.trans hs
  · cases hnow.symm.trans hi

/-! ## `OnStart` -/

/-- INTERNAL: the loop of `OnStart` over the slots. -/
theorem Enrolled.deliverAll (h : Enrolled cfg k) (l : List (Fin n)) :
    Enrolled cfg (l.foldl (fun k i => if (k.tasks i).isSleeping then k.deliverSleep cfg i else k) k) ∧
      KeepsBound k (l.foldl (fun k i => if (k.tasks i).isSleeping then k.deliverSleep cfg i else k) k) := by
  refine Runs.foldl_keeps (I := fun k' : Kernel n σ => Enrolled cfg k' ∧ KeepsBound k k')
    (fun k₁ i _ hk₁ => ?_) ⟨h, (Calm.refl k).keepsBound⟩
  split
  · refine ⟨hk₁.1.deliverSleep i, hk₁.2.trans ?_⟩
    have hframe : (k₁.deliverSleep cfg i).taskNow = k₁.taskNow ∧
        (k₁.deliverSleep cfg i).fsmState = k₁.fsmState := deliverSleep_fsm i
    obtain ⟨hnow, hfsm⟩ := hframe
    refine ⟨hnow, hfsm, fun j hj => ?_⟩
    unfold Kernel.deliverSleep
    split
    · rw [Good.callStrategy_tasks]
      by_cases hji : j = i
      · subst hji
        simpa [Kernel.setTask] using hj
      · simpa [Kernel.setTask, hji] using hj
    · exact hj
  · exact hk₁

/-- INTERNAL: `OnStart` with a task in the strategy. -/
theorem onStart_sound (h : Enrolled cfg k) (hbusy : (k.tasks i).user ≠ none) (active : Option (StackId n)) :
    Enrolled cfg (k.onStart cfg) ∧ Sound cfg (k.onStart cfg) ((k.startStack cfg).or active) ∧
      (k.onStart cfg).taskNow ≠ none := by
  obtain ⟨hdelivered, -, -, huser⟩ := h.deliverAll (List.finRange n)
  unfold Kernel.onStart Kernel.startStack
  dsimp only
  generalize (List.finRange n).foldl (fun k i =>
    if (k.tasks i).isSleeping then k.deliverSleep cfg i else k) k = k₁ at hdelivered huser
  have hswitch : Enrolled cfg ({ k₁ with fsmState := .switching } : Kernel n σ) := hdelivered.congr rfl rfl rfl
  obtain ⟨hfetch, hnext, -⟩ := hswitch.fetchNextEvent (fun hempty => absurd (hempty i) (huser i hbusy))
  obtain ⟨htasks, -, -, -, hevent, hnone⟩ :=
    fetchNextEvent_frame cfg ({ k₁ with fsmState := .switching } : Kernel n σ)
  have hexit : (({ k₁ with fsmState := .switching } : Kernel n σ).fetchNextEvent cfg).1 ≠ .exit := by
    intro hexit
    refine hfetch.getSize_ne_zero (i := i) ?_ (fetchNextEvent_exit hexit).2
    rw [htasks]
    exact huser i hbusy
  generalize ({ k₁ with fsmState := .switching } : Kernel n σ).fetchNextEvent cfg = f
    at hfetch hnext htasks hevent hnone hexit
  obtain ⟨event, next, k₂⟩ := f
  dsimp only at hfetch hnext htasks hevent hnone hexit ⊢
  have hbound : ∀ j, (k₁.tasks j).user ≠ none → (k₂.tasks j).user ≠ none := by
    intro j hj
    rw [htasks]
    exact hj
  cases next with
  | some next =>
    have hswitching := hevent next rfl
    rw [if_neg (fun hs => nomatch hs)] at hswitching
    subst hswitching
    refine ⟨hfetch.congr rfl rfl rfl, .runs rfl (hbound next (hnext next rfl)) (.inl rfl) hfetch.sane, ?_⟩
    exact fun hn => nomatch hn
  | none =>
    obtain rfl := (hnone rfl).resolve_left hexit
    obtain ⟨first, hfirst⟩ := Option.ne_none_iff_exists'.mp (hfetch.getFirst_some (hbound i (huser i hbusy)))
    have hmem : (k₂.tasks first).user ≠ none :=
      (hfetch.mem first).mp (StrategyMembers.getFirst_mem hfetch.wf hfirst)
    dsimp only [fsm]
    rw [hfirst]
    exact ⟨hfetch.congr rfl rfl rfl, .sleeps rfl hmem rfl hfetch.sane, fun hn => nomatch hn⟩

/-! ## Runs -/

/-- INTERNAL: a strategy that is not empty holds a bound slot. -/
theorem Enrolled.exists_busy (h : Enrolled cfg k) (hsize : SwitchStrategy.getSize k.strategy ≠ 0) :
    ∃ i, (k.tasks i).user ≠ none := by
  rw [StrategyMembers.getSize_eq, ne_eq, List.length_eq_zero_iff] at hsize
  obtain ⟨i, hi⟩ := List.exists_mem_of_ne_nil _ hsize
  exact ⟨i, (h.mem i).mp hi⟩

/-- The events that start, stop or run the scheduler, or remove a task while it does not run. -/
def KernelEvent.schedules : KernelEvent n → Bool
  | .removeTask _ | .onStart | .onStop | .onTick _ => true
  | _ => false

/-- INTERNAL: a call that does not involve the scheduler. -/
theorem step_enrolled (hcfg : AcceptsStatic σ cfg) (h : Enrolled cfg k) (he : WeightAccepted σ e)
    (hquiet : KernelEvent.schedules e = false) : Enrolled cfg (k.step cfg e) ∧ KeepsBound k (k.step cfg e) := by
  by_cases hcalm : KernelEvent.rebinds e = false
  · have hstep := step_calm cfg k hcalm
    exact ⟨h.calm hstep, hstep.keepsBound⟩
  have hsame : Enrolled cfg k ∧ KeepsBound k k := ⟨h, (Calm.refl k).keepsBound⟩
  cases e with
  | addTask u =>
    simp only [Kernel.step]
    split
    · exact ⟨h.allocateAndAddNewTask hcfg u, .allocateAndAddNewTask cfg k u⟩
    · exact hsame
  | addTaskHrt u p d t =>
    simp only [Kernel.step]
    split
    · exact ⟨h.hrtAllocateAndAddNewTask hcfg u p d t, .hrtAllocateAndAddNewTask cfg k u p d t⟩
    · exact hsame
  | taskExit i =>
    simp only [Kernel.step]
    split
    · next hcall =>
      simp only [Kernel.canCall, KernelTask.isBusy, Bool.and_eq_true, Option.isSome_iff_ne_none] at hcall
      exact h.scheduleRemoval hcall.1.1.2
    · exact hsame
  | scheduleTaskRemoval u =>
    simp only [Kernel.step]
    split
    · split
      · exact hsame
      · next i hi =>
        refine h.scheduleRemoval ?_
        rw [Good.findTaskByUserTask_busy hi]
        exact Option.some_ne_none u
    · exact hsame
  | inheritWeight u w => exact ⟨h.onInheritWeight u he, .onInheritWeight cfg k u w⟩
  | restoreWeight u o => exact ⟨h.onRestoreWeight hcfg u o, .onRestoreWeight cfg k u o⟩
  | removeTask _ | onStart | onStop | onTick _ => cases hquiet
  | _ => exact absurd rfl hcalm

/-- INTERNAL: one call into the kernel. -/
theorem step_sound (hcfg : AcceptsStatic σ cfg) (h : Enrolled cfg k) (hsound : Sound cfg k active)
    (he : WeightAccepted σ e) : Enrolled cfg (k.step cfg e) ∧
      Sound cfg (k.step cfg e) ((Dispatch.handedOut cfg k e).or active) ∧
      (e ≠ .onStop → k.fsmState ≠ .none → (k.step cfg e).fsmState ≠ .none) := by
  by_cases hquiet : KernelEvent.schedules e = false
  · obtain ⟨hstep, hkeeps⟩ := step_enrolled hcfg h he hquiet
    have hsilent : (Dispatch.handedOut cfg k e).or active = active := by
      cases e with
      | onStart | onTick _ => cases hquiet
      | _ => rfl
    rw [hsilent, hkeeps.2.1]
    exact ⟨hstep, hsound.keep hkeeps hstep.sane, fun _ hne => hne⟩
  cases e with
  | removeTask u =>
    simp only [Kernel.step, Dispatch.handedOut, Option.none_or]
    split
    · next hidle =>
      have hidle : k.taskNow = none := by
        simp only [Bool.and_eq_true] at hidle
        simpa [Kernel.isStarted] using hidle.2
      split
      · exact ⟨h, hsound, fun _ hne => hne⟩
      · next i hi =>
        have hbusy : (k.tasks i).user ≠ none := by
          rw [Good.findTaskByUserTask_busy hi]
          exact Option.some_ne_none u
        obtain ⟨-, -, -, hnow, hfsm⟩ := removeTask_frame cfg k i
        have hremove := (h.removeTask_members hbusy).1
        refine ⟨hremove, hsound.idle hidle (hnow.trans hidle) (.inl hfsm) hremove.sane, fun _ hne => ?_⟩
        rw [hfsm]
        exact hne
    · exact ⟨h, hsound, fun _ hne => hne⟩
  | onStart =>
    show Enrolled cfg (if k.starts then k.onStart cfg else k) ∧
      Sound cfg (if k.starts then k.onStart cfg else k) ((if k.starts then k.startStack cfg else none).or active) ∧
      (_ → k.fsmState ≠ .none → (if k.starts then k.onStart cfg else k).fsmState ≠ .none)
    by_cases hstarts : k.starts = true
    · simp only [if_pos hstarts]
      simp only [Kernel.starts, Bool.and_eq_true, decide_eq_true_eq] at hstarts
      obtain ⟨i, hbusy⟩ := h.exists_busy hstarts.2
      obtain ⟨hstart, hsound', -⟩ := onStart_sound h hbusy active
      exact ⟨hstart, hsound', fun _ hne => absurd hstarts.1.2 hne⟩
    · simp only [if_neg hstarts]
      exact ⟨h, hsound, fun _ hne => hne⟩
  | onStop =>
    simp only [Kernel.step, Dispatch.handedOut, Option.none_or]
    split
    · next hexited =>
      have hexited : k.fsmState = .exiting := by
        simp only [Bool.and_eq_true, decide_eq_true_eq] at hexited
        exact hexited.2
      have hidle : k.taskNow = none := by
        by_contra hne
        rcases hsound.started hne with hs | hw | hsl
        · cases hs.symm.trans hexited
        · cases hw.symm.trans hexited
        · cases hsl.symm.trans hexited
      exact ⟨h.congr rfl rfl rfl, hsound.idle hidle hidle (.inr ⟨rfl, hexited⟩) h.sane,
        fun hne => absurd rfl hne⟩
    · exact ⟨h, hsound, fun _ hne => hne⟩
  | onTick t =>
    show Enrolled cfg (if k.ticksWith cfg t then (k.onTick cfg t).1 else k) ∧
      Sound cfg (if k.ticksWith cfg t then (k.onTick cfg t).1 else k)
        ((if k.ticksWith cfg t then (k.onTick cfg t).2.active else none).or active) ∧
      (_ → k.fsmState ≠ .none → (if k.ticksWith cfg t then (k.onTick cfg t).1 else k).fsmState ≠ .none)
    by_cases hticks : k.ticksWith cfg t = true
    · simp only [if_pos hticks]
      obtain ⟨now, hnow⟩ := Option.isSome_iff_exists.mp (Bool.and_eq_true_iff.mp hticks).1
      obtain ⟨htick, hsound', hok⟩ := onTick_sound h hcfg hsound hnow t
      refine ⟨htick, hsound', fun _ _ hnone => ?_⟩
      by_cases hstopped : (k.onTick cfg t).1.taskNow = none
      · cases hnone.symm.trans (hok.stop.mpr hstopped)
      · rcases hsound'.started hstopped with hs | hw | hsl
        · cases hnone.symm.trans hs
        · cases hnone.symm.trans hw
        · cases hnone.symm.trans hsl
    · simp only [if_neg hticks]
      exact ⟨h, hsound, fun _ hne => hne⟩
  | _ => exact absurd rfl hquiet

omit [StrategyMembers (Fin n) σ] in
/-- INTERNAL: the FSM has no transition out of EXITING. -/
theorem exiting_tick (cfg : Config) (hfsm : k.fsmState = .exiting) (t : ℤ) :
    (k.onTick cfg t).1.fsmState = .exiting ∧ (k.onTick cfg t).1.taskNow = k.taskNow ∧
      (k.onTick cfg t).2.switchContext = false ∧ (k.onTick cfg t).2.idle = none ∧
      (k.onTick cfg t).2.active = none := by
  obtain ⟨hnow', hfsm'⟩ := asking_fsm cfg k t
  obtain ⟨-, -, hnow, hkept, -, -⟩ := fetchNextEvent_frame cfg (asking cfg k t)
  have hstays : (asking cfg k t).updateFsmState cfg =
      (((asking cfg k t).fetchNextEvent cfg).2.2, false, none, none) := by
    have hnone : fsm (asking cfg k t).fsmState ((asking cfg k t).fetchNextEvent cfg).1 = .none := by
      rw [hfsm', hfsm]
      rfl
    unfold Kernel.updateFsmState
    dsimp only
    rw [hnone]
  have htick : k.onTick cfg t = (((asking cfg k t).updateFsmState cfg).1,
      ⟨((asking cfg k t).updateFsmState cfg).2.1, ((asking cfg k t).updateFsmState cfg).2.2.1,
        ((asking cfg k t).updateFsmState cfg).2.2.2,
        (({ k with ticks := k.ticks + t } : Kernel n σ).updateTasks cfg t).2⟩) := rfl
  rw [htick, hstays]
  exact ⟨hkept.trans (hfsm'.trans hfsm), hnow.trans hnow', rfl, rfl, rfl⟩

omit [StrategyMembers (Fin n) σ] in
/-- INTERNAL: once the kernel exits it stays so, whatever ticks come. -/
theorem exiting_ticks (cfg : Config) (ts : List ℤ) :
    ∀ k : Kernel n σ, k.fsmState = .exiting → k.taskNow = none →
      (ts.foldl (fun k t => (k.onTick cfg t).1) k).fsmState = .exiting ∧
        (ts.foldl (fun k t => (k.onTick cfg t).1) k).taskNow = none := by
  induction ts with
  | nil => exact fun k hfsm hnow => ⟨hfsm, hnow⟩
  | cons t ts ih =>
    intro k hfsm hnow
    obtain ⟨hfsm', hnow', -⟩ := exiting_tick cfg hfsm t
    exact ih _ hfsm' (hnow'.trans hnow)

/-- The FSM in every run in which no assertion on the lists fails: the state between calls, what a tick hands out,
that the kernel stays out of scheduling once it exits, and that it is in scheduling from `OnStart` until then. -/
def DispatchRuns (n : ℕ) (σ : Type) [SwitchStrategy (Fin n) σ] [StrategyMembers (Fin n) σ] : Prop :=
  ∀ (cfg : Config) (es : List (KernelEvent n)), AcceptsStatic σ cfg → (∀ e ∈ es, WeightAccepted σ e) →
    let d : Dispatch n σ := Dispatch.run cfg es
    ListsSound d.kernel →
    Sound cfg d.kernel d.active ∧
      (∀ t, d.kernel.ticksWith cfg t = true → ListsSound (d.kernel.onTick cfg t).1 →
        TickSound (d.kernel.onTick cfg t).1 (d.kernel.onTick cfg t).2 d.active) ∧
      (d.kernel.fsmState = .exiting → ∀ (ts : List ℤ) (t : ℤ),
        let k := ts.foldl (fun k t => (k.onTick cfg t).1) d.kernel
        ListsSound (k.onTick cfg t).1 →
        k.fsmState = .exiting ∧ k.taskNow = none ∧ (k.onTick cfg t).2.switchContext = false ∧
          (k.onTick cfg t).2.idle = none ∧ (k.onTick cfg t).2.active = none) ∧
      (d.kernel.starts = true → ∀ fs : List (KernelEvent n), (∀ e ∈ fs, WeightAccepted σ e) →
        .onStop ∉ fs → ListsSound (Kernel.run cfg (es ++ .onStart :: fs) : Kernel n σ) →
        Dispatching (Kernel.run cfg (es ++ .onStart :: fs) : Kernel n σ) ∨
          cfg.isDynamicMode = true ∧ (Kernel.run cfg (es ++ .onStart :: fs) : Kernel n σ).fsmState = .exiting)

/-- INTERNAL: the invariant of a run. -/
theorem run_sound (hcfg : AcceptsStatic σ cfg) (es : List (KernelEvent n)) :
    ∀ d : Dispatch n σ, Enrolled cfg d.kernel → Sound cfg d.kernel d.active →
      (∀ e ∈ es, WeightAccepted σ e) →
      Enrolled cfg (es.foldl (Dispatch.step cfg) d).kernel ∧
        Sound cfg (es.foldl (Dispatch.step cfg) d).kernel (es.foldl (Dispatch.step cfg) d).active ∧
        (.onStop ∉ es → d.kernel.fsmState ≠ .none → (es.foldl (Dispatch.step cfg) d).kernel.fsmState ≠ .none) := by
  induction es with
  | nil => exact fun d h hsound _ => ⟨h, hsound, fun _ hne => hne⟩
  | cons e es ih =>
    intro d h hsound hes
    obtain ⟨hstep, hsound', hfsm⟩ := step_sound hcfg h hsound (hes e List.mem_cons_self)
    obtain ⟨hrun, hsound'', hfsm'⟩ := ih (d.step cfg e) hstep hsound'
      (fun e' he' => hes e' (List.mem_cons_of_mem e he'))
    refine ⟨hrun, hsound'', fun hstop hne => ?_⟩
    rw [List.mem_cons, not_or] at hstop
    exact hfsm' hstop.2 (hfsm (Ne.symm hstop.1) hne)

theorem dispatchRuns : DispatchRuns n σ := by
  intro cfg es hcfg hes d _
  have hinitial : Sound cfg (initial : Kernel n σ) none :=
    ⟨fun hne => absurd rfl hne, fun _ => .inl rfl, fun h => by simp [Kernel.initial] at h,
      by simp [Kernel.initial], fun i hi => by simp [Kernel.initial] at hi, by simp [Kernel.initial]⟩
  obtain ⟨henrolled, hsound, -⟩ := run_sound hcfg es Dispatch.initial Enrolled.initial hinitial hes
  refine ⟨hsound, fun t hticks _ => ?_, fun hfsm ts t _ => ?_, fun hstarts fs hfs hstop _ => ?_⟩
  · obtain ⟨now, hnow⟩ := Option.isSome_iff_exists.mp (Bool.and_eq_true_iff.mp hticks).1
    exact (onTick_sound henrolled hcfg hsound hnow t).2.2
  · have hnow : d.kernel.taskNow = none := by
      by_contra hne
      rcases hsound.started hne with hs | hw | hsl
      · cases hs.symm.trans hfsm
      · cases hw.symm.trans hfsm
      · cases hsl.symm.trans hfsm
    obtain ⟨hfsm', hnow'⟩ := exiting_ticks cfg ts d.kernel hfsm hnow
    obtain ⟨-, -, hquiet⟩ := exiting_tick cfg hfsm' t
    exact ⟨hfsm', hnow', hquiet⟩
  · have hfirst : (d.step cfg .onStart).kernel.fsmState ≠ .none := by
      show (if d.kernel.starts then d.kernel.onStart cfg else d.kernel).fsmState ≠ .none
      rw [if_pos hstarts]
      simp only [Kernel.starts, Bool.and_eq_true, decide_eq_true_eq] at hstarts
      obtain ⟨i, hbusy⟩ := henrolled.exists_busy hstarts.2
      obtain ⟨-, hsound', hnow⟩ := onStart_sound henrolled hbusy d.active
      intro hnone
      rcases hsound'.started hnow with hs | hw | hsl
      · cases hnone.symm.trans hs
      · cases hnone.symm.trans hw
      · cases hnone.symm.trans hsl
    obtain ⟨hstep, hsound', -⟩ := step_sound (e := .onStart) hcfg henrolled hsound trivial
    obtain ⟨-, hlast, hne⟩ := run_sound hcfg fs (d.step cfg .onStart) hstep hsound' hfs
    have hne := hne hstop hfirst
    have hrun : (Kernel.run cfg (es ++ .onStart :: fs) : Kernel n σ) =
        (fs.foldl (Dispatch.step cfg) (d.step cfg .onStart)).kernel := by
      rw [← Dispatch.run_kernel, Dispatch.run, List.foldl_append]
      rfl
    rw [hrun]
    by_cases hnow : (fs.foldl (Dispatch.step cfg) (d.step cfg .onStart)).kernel.taskNow = none
    · exact .inr ((hlast.stopped hnow).resolve_left hne)
    · exact .inl (hlast.started hnow)

/-- **FSM soundness.**  Under each of the five strategies, in every run in which no assertion on the lists fails: a
started kernel is in SWITCHING, WAKING or SLEEPING and never panics; in SWITCHING and WAKING the current task is bound and
its stack is the one last handed out as active; the sleep trap is active exactly while SLEEPING; a
tick hands out as idle what was active before, and leads to EXITING exactly when the strategy holds
no task any more, with no current task and no further switch. -/
theorem run_dispatch (n P : ℕ) [Fact (P ≤ 32)] (type : MonotonicType) :
    DispatchRuns n (RoundRobin (Fin n)) ∧ DispatchRuns n (FixedPriority P (Fin n)) ∧
      DispatchRuns n (SmoothWeightedRoundRobin (Fin n)) ∧
      DispatchRuns n (EarliestDeadlineFirst (Fin n)) ∧ DispatchRuns n (Monotonic type (Fin n)) :=
  ⟨dispatchRuns, dispatchRuns, dispatchRuns, dispatchRuns, dispatchRuns⟩

section Runs

/-- A dynamic kernel with synchronization whose tasks all have weight 1. -/
def dynamicConfig : Config where
  isDynamicMode := true
  isHrtMode := false
  isSyncMode := true
  isTicklessMode := false
  ticklessTicksMax := 1000
  weight := fun _ => 1

/-- A task with an inherited weight sleeps, the other one exits, both exit. -/
def lastExit : List (KernelEvent 2) :=
  [.addTask 0, .addTask 1, .onStart, .inheritWeight 0 3, .onTick 1, .sleep 0 2, .onTick 1, .taskExit 1,
    .onTick 1, .onTick 1, .onTick 1, .taskExit 0, .onTick 1, .onTick 1]

theorem lastExit_sound :
    Sound dynamicConfig (Dispatch.run dynamicConfig lastExit : Dispatch 2 (FixedPriority 32 (Fin 2))).kernel
        (Dispatch.run dynamicConfig lastExit : Dispatch 2 (FixedPriority 32 (Fin 2))).active ∧
      (Dispatch.run dynamicConfig lastExit : Dispatch 2 (FixedPriority 32 (Fin 2))).kernel.fsmState = .exiting := by
  have : Fact (32 ≤ 32) := ⟨le_rfl⟩
  have hweights : ∀ e ∈ lastExit, WeightAccepted (FixedPriority 32 (Fin 2)) e := by
    simp only [lastExit, List.forall_mem_cons, WeightAccepted, true_and]
    refine ⟨fun _ => ?_, fun _ he => nomatch he⟩
    show getTaskPriorityFromWeight 3 < 32
    decide
  have hstatic : AcceptsStatic (FixedPriority 32 (Fin 2)) dynamicConfig := by
    intro u
    show getTaskPriorityFromWeight 1 < 32
    decide
  have hlists : ListsSound (Dispatch.run dynamicConfig lastExit : Dispatch 2 (FixedPriority 32 (Fin 2))).kernel := by
    decide +kernel
  exact ⟨((run_dispatch 2 32 .rate).2.1 dynamicConfig lastExit hstatic hweights hlists).1, by decide +kernel⟩

end Runs

end Stk.Analysis
