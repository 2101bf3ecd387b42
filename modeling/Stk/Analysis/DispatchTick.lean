import Stk.Analysis.Enrollment
import Stk.Analysis.FsmStep

/-!
# The FSM and the slots in one tick

`UpdateTaskState` may free slots, the current one only as the last; the FSM then finds the strategy
and its current task as `Enrolled` and `Live` describe them, and moves as `FsmStep` lists.  The
outcome of a tick is `TickSound`.
-/

set_option autoImplicit false

namespace Stk.Analysis

open Stk.Model Stk.Model.Kernel

variable {n : ℕ} {σ : Type} {cfg : Config} {k k' : Kernel n σ} {i now : Fin n} {e : ℤ}

theorem Calm.keepsBound (h : Calm k k') : KeepsBound k k' :=
  ⟨h.taskNow, h.fsmState, fun j hj => by rw [(h.slot j).user]; exact hj⟩

/-- INTERNAL: the passing of time and the timeouts of the waits. -/
theorem asking_sync (cfg : Config) (k : Kernel n σ) (e : ℤ) :
    Calm k (if cfg.isSyncMode then ({ k with ticks := k.ticks + e } : Kernel n σ).updateSyncObjects e
      else { k with ticks := k.ticks + e }) := by
  have hticks : Calm k { k with ticks := k.ticks + e } := (Calm.refl k).congr rfl rfl rfl rfl rfl
  split
  · exact hticks.trans (.updateSyncObjects _ e)
  · exact hticks

variable [SwitchStrategy (Fin n) σ]

/-- INTERNAL: the timeouts of the waits and the requests leave the current task and the FSM alone and
free no slot. -/
theorem loading_keeps (cfg : Config) (k : Kernel n σ) (e : ℤ) : KeepsBound k (loading cfg k e) := by
  have hsync := asking_sync cfg k e
  unfold loading
  dsimp only
  generalize (if cfg.isSyncMode then ({ k with ticks := k.ticks + e } : Kernel n σ).updateSyncObjects e
      else { k with ticks := k.ticks + e }) = k₁ at hsync
  split
  · exact hsync.keepsBound.trans (.updateTaskRequest cfg k₁)
  · exact hsync.keepsBound

omit [SwitchStrategy (Fin n) σ] in
theorem KeepsBound.nowBound (h : KeepsBound k k') (hbound : NowBound k) : NowBound k' :=
  fun j hj => h.2.2 j (hbound j (h.1 ▸ hj))

/-- INTERNAL: `UpdateTasks` leaves the current task and the FSM to `UpdateFsmState`. -/
theorem asking_fsm (cfg : Config) (k : Kernel n σ) (e : ℤ) :
    (asking cfg k e).taskNow = k.taskNow ∧ (asking cfg k e).fsmState = k.fsmState := by
  obtain ⟨hnow, hfsm, -⟩ := loading_keeps cfg k e
  obtain ⟨hnow', hfsm', -⟩ := updateTaskState_frame cfg (loading cfg k e) e
  exact ⟨hnow'.trans hnow, hfsm'.trans hfsm⟩

variable [StrategyMembers (Fin n) σ]

namespace Enrolled

/-- INTERNAL: a bound slot keeps the strategy from being empty. -/
theorem getSize_ne_zero (h : Enrolled cfg k) (hbusy : (k.tasks i).user ≠ none) :
    SwitchStrategy.getSize k.strategy ≠ 0 := by
  rw [StrategyMembers.getSize_eq]
  exact (List.length_pos_of_mem ((h.mem i).mpr hbusy)).ne'

theorem getSize_eq_zero (h : Enrolled cfg k) (hfree : ∀ j, (k.tasks j).user = none) :
    SwitchStrategy.getSize k.strategy = 0 := by
  rw [StrategyMembers.getSize_eq, List.length_eq_zero_iff, List.eq_nil_iff_forall_not_mem]
  intro j hj
  exact (h.mem j).mp hj (hfree j)

theorem getFirst_some (h : Enrolled cfg k) (hbusy : (k.tasks i).user ≠ none) :
    SwitchStrategy.getFirst k.strategy ≠ none := by
  intro hnone
  have hmem := (h.mem i).mpr hbusy
  rw [StrategyMembers.getFirst_none h.wf hnone] at hmem
  cases hmem

/-- INTERNAL: the last task of the strategy is the only bound slot. -/
theorem alone_of_getSize_one (h : Enrolled cfg k) (hsize : SwitchStrategy.getSize k.strategy = 1)
    (hi : (k.tasks i).user ≠ none) {j : Fin n} (hj : (k.tasks j).user ≠ none) : j = i := by
  rw [StrategyMembers.getSize_eq, List.length_eq_one_iff] at hsize
  obtain ⟨a, ha⟩ := hsize
  have hmem : ∀ x, (k.tasks x).user ≠ none → x = a := by
    intro x hx
    have := (h.mem x).mpr hx
    rw [ha] at this
    exact List.mem_singleton.mp this
  exact (hmem j hj).trans (hmem i hi).symm

/-- INTERNAL: one slot in the loop of `UpdateTaskState`. -/
theorem updateSlot (h : Enrolled cfg k) (hlive : Live cfg k) (e t : ℤ) (i : Fin n) :
    Enrolled cfg (updateSlot cfg e (k, t) i).1 ∧ Live cfg (updateSlot cfg e (k, t) i).1 := by
  have hticked := updateSlot_ticked cfg e (k, t) i
  by_cases hgone : ((k.tasks i).isSleeping && k.isRemovable cfg i) = true
  · have hremovable := hgone
    simp only [Kernel.isRemovable, Bool.and_eq_true, Bool.or_eq_true, decide_eq_true_eq] at hremovable
    obtain ⟨-, ⟨hdyn, hpending⟩, hturn⟩ := hremovable
    have hbusy := h.pending i hpending
    have heq : (Kernel.updateSlot cfg e (k, t) i).1 = k.removeTask cfg i := by
      unfold Kernel.updateSlot
      dsimp only
      rw [if_pos hgone]
    obtain ⟨hother, -, hfree, hnow, -⟩ := removeTask_frame cfg k i
    rw [heq]
    refine ⟨(h.removeTask_members hbusy).1, ?_⟩
    rcases hlive with hbound | ⟨-, hempty⟩
    · by_cases hself : k.taskNow = some i
      · have hsize := (hturn.resolve_left (not_not.mpr hself)).1
        refine .inr ⟨hdyn, fun j => ?_⟩
        by_cases hj : j = i
        · subst hj
          exact hfree
        · rw [hother j hj]
          by_contra hbusyj
          exact hj (h.alone_of_getSize_one hsize hbusy hbusyj)
      · refine .inl (fun j hj => ?_)
        rw [hnow] at hj
        have hji : j ≠ i := by
          rintro rfl
          exact hself hj
        rw [hother j hji]
        exact hbound j hj
    · exact absurd (hempty i) hbusy
  · have heq : (Kernel.updateSlot cfg e (k, t) i).1 = if (k.tasks i).isSleeping then
        (k.deliverSleep cfg i).advanceSleep cfg e i else k.advanceDuration cfg e i := by
      unfold Kernel.updateSlot
      dsimp only
      rw [if_neg hgone]
    have huser : ∀ j, ((Kernel.updateSlot cfg e (k, t) i).1.tasks j).user = (k.tasks j).user := by
      intro j
      by_cases hj : j = i
      · subst hj
        rw [hticked.self]
        unfold updatedSlot
        split
        · next hs =>
          have hstays : k.isRemovable cfg j = false := by simpa [hs] using hgone
          rw [hstays, if_neg Bool.false_ne_true]
        · split
          · rfl
          · rfl
      · rw [hticked.other j hj]
    refine ⟨?_, ?_⟩
    · rw [heq]
      split
      · exact (h.deliverSleep i).advanceSleep e i
      · exact h.calm (.advanceDuration cfg e k i)
    · rcases hlive with hbound | ⟨hdyn, hempty⟩
      · refine .inl (fun j hj => ?_)
        rw [huser j]
        exact hbound j (hticked.taskNow ▸ hj)
      · exact .inr ⟨hdyn, fun j => (huser j).trans (hempty j)⟩

theorem updateTaskState (h : Enrolled cfg k) (hlive : Live cfg k) (e : ℤ) :
    Enrolled cfg (k.updateTaskState cfg e).1 ∧ Live cfg (k.updateTaskState cfg e).1 :=
  Runs.foldl_keeps (I := fun acc : Kernel n σ × ℤ => Enrolled cfg acc.1 ∧ Live cfg acc.1)
    (fun acc i _ hacc => hacc.1.updateSlot hacc.2 e acc.2 i) ⟨h, hlive⟩

/-- INTERNAL: the timeouts of the waits and the requests. -/
theorem loading (h : Enrolled cfg k) (hcfg : AcceptsStatic σ cfg) (e : ℤ) :
    Enrolled cfg (loading cfg k e) ∧ KeepsBound k (Analysis.loading cfg k e) := by
  refine ⟨?_, loading_keeps cfg k e⟩
  have h₁ := h.calm (asking_sync cfg k e)
  unfold Analysis.loading
  dsimp only
  generalize (if cfg.isSyncMode then ({ k with ticks := k.ticks + e } : Kernel n σ).updateSyncObjects e
      else { k with ticks := k.ticks + e }) = k₁ at h₁
  split
  · exact h₁.updateTaskRequest hcfg
  · exact h₁

/-- INTERNAL: `UpdateTasks` frees the current slot only as the last. -/
theorem asking (h : Enrolled cfg k) (hcfg : AcceptsStatic σ cfg) (hbound : NowBound k) (e : ℤ) :
    Enrolled cfg (asking cfg k e) ∧ Live cfg (Analysis.asking cfg k e) := by
  obtain ⟨hload, hkeeps⟩ := h.loading hcfg e
  rw [asking_loading]
  exact hload.updateTaskState (.inl (hkeeps.nowBound hbound)) e

/-- INTERNAL: `FetchNextEvent` returns a bound slot, and reports an exit exactly when a dynamic
kernel has none left. -/
theorem fetchNextEvent (h : Enrolled cfg k)
    (hdyn : (∀ j, (k.tasks j).user = none) → cfg.isDynamicMode = true) :
    Enrolled cfg (k.fetchNextEvent cfg).2.2 ∧
      (∀ j, (k.fetchNextEvent cfg).2.1 = some j → (k.tasks j).user ≠ none) ∧
      ((k.fetchNextEvent cfg).1 ≠ .exit → ∃ j, (k.tasks j).user ≠ none) := by
  have hlaw : ∀ r s, StrategyCall.getNext.apply (k.view cfg) k.strategy = .ok (r, s) →
      StrategyMembers.Wf (k.getWeight cfg) s ∧
      (∀ u, u ∈ StrategyMembers.members s ↔ u ∈ StrategyMembers.members k.strategy) ∧
      ∀ t, r = some t → t ∈ StrategyMembers.members k.strategy :=
    fun _ _ hok => StrategyMembers.getNext_law (v := k.view cfg) h.wf hok
  have hcall : Enrolled cfg (k.callStrategy cfg .getNext).2 :=
    h.call (fun r s hok => ⟨(hlaw r s hok).1, (hlaw r s hok).2.1⟩)
  have htasks : (k.callStrategy cfg .getNext).2.tasks = k.tasks := Good.callStrategy_tasks _
  have hnext : ∀ j, (k.callStrategy cfg .getNext).1 = some j → (k.tasks j).user ≠ none := by
    intro j hj
    rcases callStrategy_cases cfg k .getNext with ⟨r, s, hok, heq⟩ | ⟨f, -, heq⟩
    · rw [heq] at hj
      exact (h.mem j).mp ((hlaw r s hok).2.2 j hj)
    · rw [heq] at hj
      cases hj
  unfold Kernel.fetchNextEvent
  generalize k.callStrategy cfg .getNext = f at hcall htasks hnext
  obtain ⟨_ | next, k₁⟩ := f
  · dsimp only at hcall htasks ⊢
    split
    · exact ⟨hcall, (fun j hj => nomatch hj), fun hne => absurd rfl hne⟩
    · next hstays =>
      refine ⟨hcall, (fun j hj => nomatch hj), fun _ => ?_⟩
      by_contra hnone
      have hempty : ∀ j, (k.tasks j).user = none := by
        intro j
        by_contra hj
        exact hnone ⟨j, hj⟩
      have hsize : SwitchStrategy.getSize k₁.strategy = 0 :=
        hcall.getSize_eq_zero (fun j => htasks ▸ hempty j)
      rw [hsize] at hstays
      exact hstays (by simp [hdyn hempty])
  · dsimp only at hcall htasks hnext ⊢
    refine ⟨?_, (fun j hj => hnext j hj), fun _ => ⟨next, hnext next rfl⟩⟩
    split
    · exact hcall.fault (by decide)
    · exact hcall

/-- INTERNAL: `HrtOnSwitchedOut`, if it is called, unbinds no slot. -/
theorem switchOut (h : Enrolled cfg k) (hbusy : (k.tasks i).user ≠ none) (out : Bool) (now : Fin n) :
    Enrolled cfg (if out then k.hrtOnSwitchedOut now else k) ∧
      ((if out then k.hrtOnSwitchedOut now else k).tasks i).user ≠ none := by
  split
  · have hcalm := Calm.hrtOnSwitchedOut k now
    refine ⟨h.calm hcalm, ?_⟩
    rw [(hcalm.slot i).user]
    exact hbusy
  · exact ⟨h, hbusy⟩

end Enrolled

/-! ## The outcome of a tick -/

/-- What holds between calls of a kernel and the stack last handed out as active. -/
structure Sound (cfg : Config) (k : Kernel n σ) (active : Option (StackId n)) : Prop where
  started : k.taskNow ≠ none → Dispatching k
  stopped : k.taskNow = none → k.fsmState = .none ∨ cfg.isDynamicMode = true ∧ k.fsmState = .exiting
  running : k.fsmState = .switching ∨ k.fsmState = .waking →
    ∃ i, k.taskNow = some i ∧ (k.tasks i).user ≠ none ∧ active = some (.task i)
  trap : active = some .sleepTrap ↔ k.fsmState = .sleeping
  bound : NowBound k
  sane : .badState ∉ k.faults

/-- What holds of a tick of a started kernel that has led to `k` with the results `r`: the idle
stack is the one that was active, a switch names both stacks, and the kernel exits exactly when the
strategy holds no task any more. -/
structure TickSound (k : Kernel n σ) (r : TickResult n) (active : Option (StackId n)) : Prop where
  idle : ∀ s, r.idle = some s → active = some s
  switch : r.switchContext = true → r.idle ≠ none ∧ r.active ≠ none
  exit : k.fsmState = .exiting ↔ SwitchStrategy.getSize k.strategy = 0
  stop : k.fsmState = .exiting ↔ k.taskNow = none

omit [SwitchStrategy (Fin n) σ] [StrategyMembers (Fin n) σ] in
/-- INTERNAL: a kernel that runs task `i`. -/
theorem Sound.runs (hnow : k.taskNow = some i) (hbusy : (k.tasks i).user ≠ none)
    (hfsm : k.fsmState = .switching ∨ k.fsmState = .waking) (hsane : .badState ∉ k.faults) :
    Sound cfg k (some (.task i)) where
  started _ := hfsm.elim .inl (fun hw => .inr (.inl hw))
  stopped hnone := nomatch hnow.symm.trans hnone
  running _ := ⟨i, hnow, hbusy, rfl⟩
  trap := by
    constructor
    · intro h
      cases h
    · intro h
      rw [h] at hfsm
      rcases hfsm with hs | hw
      · cases hs
      · cases hw
  bound j hj := by
    obtain rfl : i = j := Option.some.inj (hnow.symm.trans hj)
    exact hbusy
  sane := hsane

omit [SwitchStrategy (Fin n) σ] [StrategyMembers (Fin n) σ] in
/-- INTERNAL: a kernel that sleeps. -/
theorem Sound.sleeps (hnow : k.taskNow = some i) (hbusy : (k.tasks i).user ≠ none)
    (hfsm : k.fsmState = .sleeping) (hsane : .badState ∉ k.faults) : Sound cfg k (some .sleepTrap) where
  started _ := .inr (.inr hfsm)
  stopped hnone := nomatch hnow.symm.trans hnone
  running h := by
    rw [hfsm] at h
    rcases h with hs | hw
    · cases hs
    · cases hw
  trap := ⟨fun _ => hfsm, fun _ => rfl⟩
  bound j hj := by
    obtain rfl : i = j := Option.some.inj (hnow.symm.trans hj)
    exact hbusy
  sane := hsane

omit [SwitchStrategy (Fin n) σ] [StrategyMembers (Fin n) σ] in
/-- INTERNAL: a kernel in SWITCHING or WAKING. -/
theorem Sound.active_now {active : Option (StackId n)} (h : Sound cfg k active) (hnow : k.taskNow = some now)
    (hfsm : k.fsmState ≠ .sleeping) : active = some (.task now) := by
  have hrunning : k.fsmState = .switching ∨ k.fsmState = .waking := by
    rcases h.started (by simp [hnow]) with hs | hw | hsl
    · exact .inl hs
    · exact .inr hw
    · exact absurd hsl hfsm
  obtain ⟨i, hi, -, hactive⟩ := h.running hrunning
  obtain rfl : now = i := Option.some.inj (hnow.symm.trans hi)
  exact hactive

/-- INTERNAL: the FSM in the state that `UpdateTasks` leaves. -/
theorem updateFsmState_sound {active : Option (StackId n)} (h : Enrolled cfg k) (hlive : Live cfg k)
    (hnow : k.taskNow = some now) (hfsm : Dispatching k)
    (hactive : k.fsmState ≠ .sleeping → active = some (.task now))
    (htrap : active = some .sleepTrap ↔ k.fsmState = .sleeping) (t : ℤ) :
    Enrolled cfg (k.updateFsmState cfg).1 ∧
      Sound cfg (k.updateFsmState cfg).1 ((k.updateFsmState cfg).2.2.2.or active) ∧
      TickSound (k.updateFsmState cfg).1
        ⟨(k.updateFsmState cfg).2.1, (k.updateFsmState cfg).2.2.1, (k.updateFsmState cfg).2.2.2, t⟩ active := by
  have hdyn : (∀ j, (k.tasks j).user = none) → cfg.isDynamicMode = true := by
    intro hempty
    rcases hlive with hbound | ⟨hdyn, -⟩
    · exact absurd (hempty now) (hbound now hnow)
    · exact hdyn
  obtain ⟨hfetch, hnext, hsome⟩ := h.fetchNextEvent hdyn
  obtain ⟨htasks, -, hnow', hfsm', -, -⟩ := fetchNextEvent_frame cfg k
  have hbusy : ∀ j, (k.tasks j).user ≠ none → ((k.fetchNextEvent cfg).2.2.tasks j).user ≠ none := by
    intro j hj
    rw [htasks]
    exact hj
  have hsize : (k.fetchNextEvent cfg).1 ≠ .exit →
      SwitchStrategy.getSize (k.fetchNextEvent cfg).2.2.strategy ≠ 0 := by
    intro hne
    obtain ⟨j, hj⟩ := hsome hne
    exact hfetch.getSize_ne_zero (hbusy j hj)
  have hfirst : (k.fetchNextEvent cfg).1 = .sleep → k.fsmState ≠ .sleeping →
      SwitchStrategy.getFirst (k.fetchNextEvent cfg).2.2.strategy ≠ none := by
    intro hevent _
    obtain ⟨j, hj⟩ := hsome (by rw [hevent]; decide)
    exact hfetch.getFirst_some (hbusy j hj)
  have hstep := updateFsmState_step hnow hfsm hfirst
  generalize k.updateFsmState cfg = r at hstep
  -- a step that does not exit leaves the strategy with a task
  have hstays : ∀ k' : Kernel n σ, k'.fsmState ≠ .exiting → SwitchStrategy.getSize k'.strategy ≠ 0 →
      (k'.fsmState = .exiting ↔ SwitchStrategy.getSize k'.strategy = 0) :=
    fun k' hne hsome => ⟨fun he => absurd he hne, fun hz => absurd hz hsome⟩
  cases hstep with
  | keep hnow₁ hawake =>
    have hb := hbusy now (hnext now hnow₁)
    rw [hactive hawake]
    refine ⟨hfetch.congr rfl rfl rfl, .runs (hnow'.trans hnow) hb (.inl rfl) hfetch.sane, ?_⟩
    exact ⟨fun _ h => (nomatch h), (fun h => nomatch h),
      hstays _ (fun h => nomatch h) (hfetch.getSize_ne_zero hb),
      ⟨fun h => (nomatch h), fun h => nomatch (hnow'.trans hnow).symm.trans h⟩⟩
  | switch next hnext₁ hne hawake =>
    have hb := hbusy next (hnext next hnext₁)
    obtain ⟨hout, hb₁⟩ := hfetch.switchOut hb (cfg.isHrtMode && (k.tasks now).hrt.done) now
    generalize (if cfg.isHrtMode && (k.tasks now).hrt.done then
      (k.fetchNextEvent cfg).2.2.hrtOnSwitchedOut now else (k.fetchNextEvent cfg).2.2) = k₁ at hout hb₁
    refine ⟨hout.congr rfl rfl rfl, .runs rfl hb₁ (.inl rfl) hout.sane, ?_⟩
    refine ⟨?_, fun _ => ⟨(fun h => nomatch h), (fun h => nomatch h)⟩,
      hstays _ (fun h => nomatch h) (hout.getSize_ne_zero hb₁), ⟨fun h => (nomatch h), fun h => nomatch h⟩⟩
    rintro s ⟨⟩
    exact hactive hawake
  | wake next hnext₁ hsleeping =>
    have hb := hbusy next (hnext next hnext₁)
    refine ⟨hfetch.congr rfl rfl rfl, .runs rfl hb (.inr rfl) hfetch.sane, ?_⟩
    refine ⟨?_, fun _ => ⟨(fun h => nomatch h), (fun h => nomatch h)⟩,
      hstays _ (fun h => nomatch h) (hfetch.getSize_ne_zero hb), ⟨fun h => (nomatch h), fun h => nomatch h⟩⟩
    rintro s ⟨⟩
    exact htrap.mpr hsleeping
  | sleep first _ hevent hfirst₁ hawake =>
    have hb : ((k.fetchNextEvent cfg).2.2.tasks first).user ≠ none :=
      (hfetch.mem first).mp (StrategyMembers.getFirst_mem hfetch.wf hfirst₁)
    obtain ⟨hout, hb₁⟩ := hfetch.switchOut hb (cfg.isHrtMode && !(k.tasks now).removePending) now
    generalize (if cfg.isHrtMode && !(k.tasks now).removePending then
      (k.fetchNextEvent cfg).2.2.hrtOnSwitchedOut now else (k.fetchNextEvent cfg).2.2) = k₁ at hout hb₁
    refine ⟨hout.congr rfl rfl rfl, .sleeps rfl hb₁ rfl hout.sane, ?_⟩
    refine ⟨?_, fun _ => ⟨(fun h => nomatch h), (fun h => nomatch h)⟩,
      hstays _ (fun h => nomatch h) (hout.getSize_ne_zero hb₁), ⟨fun h => (nomatch h), fun h => nomatch h⟩⟩
    rintro s ⟨⟩
    exact hactive hawake
  | rest _ hevent hsleeping =>
    have hempty := hsize (by rw [hevent]; decide)
    obtain ⟨j, hj⟩ := hsome (by rw [hevent]; decide)
    have hb : (k.tasks now).user ≠ none := by
      rcases hlive with hbound | ⟨-, hfree⟩
      · exact hbound now hnow
      · exact absurd (hfree j) hj
    rw [htrap.mpr hsleeping]
    refine ⟨hfetch, .sleeps (hnow'.trans hnow) (hbusy now hb) (hfsm'.trans hsleeping) hfetch.sane, ?_⟩
    refine ⟨fun _ h => (nomatch h), (fun h => nomatch h), hstays _ ?_ hempty, fun h => ?_, fun h => ?_⟩
    · rw [hfsm', hsleeping]
      decide
    · rw [hfsm', hsleeping] at h
      cases h
    · cases (hnow'.trans hnow).symm.trans h
  | exit _ hevent =>
    obtain ⟨hdynamic, hzero⟩ := fetchNextEvent_exit hevent
    refine ⟨hfetch.congr rfl rfl rfl, ?_, ?_⟩
    · exact ⟨fun h => absurd rfl h, fun _ => .inr ⟨hdynamic, rfl⟩, fun h => (nomatch h),
        ⟨fun h => (nomatch h), fun h => (nomatch h)⟩, fun _ h => (nomatch h), hfetch.sane⟩
    · exact ⟨fun _ h => (nomatch h), (fun h => nomatch h), ⟨fun _ => hzero, fun _ => rfl⟩, ⟨fun _ => rfl, fun _ => rfl⟩⟩

/-- INTERNAL: a tick of a started kernel. -/
theorem onTick_sound {active : Option (StackId n)} (h : Enrolled cfg k) (hcfg : AcceptsStatic σ cfg)
    (hsound : Sound cfg k active) (hnow : k.taskNow = some now) (e : ℤ) :
    Enrolled cfg (k.onTick cfg e).1 ∧ Sound cfg (k.onTick cfg e).1 ((k.onTick cfg e).2.active.or active) ∧
      TickSound (k.onTick cfg e).1 (k.onTick cfg e).2 active := by
  obtain ⟨hasking, hlive⟩ := h.asking hcfg hsound.bound e
  obtain ⟨hnow', hfsm'⟩ := asking_fsm cfg k e
  refine updateFsmState_sound hasking hlive (hnow'.trans hnow) ?_ ?_ ?_ _
  · have hstarted := hsound.started (by simp [hnow])
    unfold Dispatching
    rw [hfsm']
    exact hstarted
  · rw [hfsm']
    exact hsound.active_now hnow
  · rw [hfsm']
    exact hsound.trap

end Stk.Analysis
