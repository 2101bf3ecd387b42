import Stk.Analysis.CmsisSuspend

/-!
# Runs with suspended threads

What `osThreadSuspend` and `osThreadResume` promise, said of whole runs.  The mark follows the calls exactly in
the runs in which every `osThreadSuspend` is of an awake thread; if those runs are orderly, a marked thread gets
no CPU and its first resumption releases it.
-/

set_option autoImplicit false

namespace Stk.Analysis

open Stk.Model Stk.Model.Kernel

variable {n : ℕ} {σ : Type} [SwitchStrategy (Fin n) σ] [StrategyLists (Fin n) σ] [SleepAware (Fin n) σ]
  {cfg : Config} {s : CmsisKernel n σ} {i : Fin n} {u : TId} {c : Option (Fin n)} {ev : CmsisEvent n}
  {fs es : List (CmsisEvent n)}

namespace CmsisOk

/-- INTERNAL: a step makes at most one call into the kernel. -/
theorem kernel_step (h : CmsisOk cfg s) (hev : CmsisOrderly cfg s ev) :
    (s.step cfg ev).kernel = s.kernel ∨ ∃ e, (s.step cfg ev).kernel = s.kernel.step cfg e ∧
      Careful cfg s.kernel e ∧ ∀ v, KernelEvent.adds e = some v → s.isFresh v = true := by
  cases ev with
  | osThreadNew c v =>
    simp only [CmsisKernel.step]
    split
    · next hcall =>
      have hfresh : ∀ w, some v = some w → s.isFresh w = true := by
        intro w hw
        obtain rfl := Option.some.inj hw
        exact (Bool.and_eq_true_iff.mp hcall).2
      cases c with
      | none => exact .inr ⟨.addTask v, rfl, trivial, hfresh⟩
      | some j => exact .inr ⟨.requestAddTask j v, rfl, trivial, hfresh⟩
    · exact .inl rfl
  | osThreadSuspend c v =>
    simp only [CmsisKernel.step]
    split
    · exact .inr ⟨.suspendTask v, rfl, trivial, fun _ hadds => by cases hadds⟩
    · exact .inl rfl
  | osThreadResume c v =>
    simp only [CmsisKernel.step, CmsisKernel.osThreadResume]
    split
    · split
      · next hmark => exact .inr ⟨.resumeTask v, rfl, (h.marked v hmark).notWaiting, fun _ hadds => by cases hadds⟩
      · exact .inl rfl
    · exact .inl rfl
  | osThreadExit j =>
    simp only [CmsisKernel.step, CmsisKernel.osThreadExit]
    split
    · next hcall =>
      split
      · exact .inl rfl
      · next v hv =>
        exact .inr ⟨.scheduleTaskRemoval v, rfl, fun _ => h.caller_notWaiting hcall hv, fun _ hadds => by cases hadds⟩
    · exact .inl rfl
  | objDestroy v => exact .inl rfl
  | kernel e =>
    simp only [CmsisKernel.step]
    split
    · next hallows =>
      exact .inr ⟨e, rfl, (hev.2 e rfl hallows).1, fun v hv => adds_isFresh hallows hv⟩
    · exact .inl rfl

/-! ## A marked thread gets no CPU -/

/-- INTERNAL: a marked thread that runs after a step ran before it, and the step is no tick. -/
theorem running_before (hcfg : WeightsOk σ cfg) (hhrt : cfg.isHrtMode = false) (h : CmsisOk cfg s)
    (hev : CmsisOrderly cfg s ev) (hmark : s.suspended u = some true)
    (hmark' : (s.step cfg ev).suspended u = some true) (hi : ((s.step cfg ev).kernel.tasks i).user = some u)
    (hrun : (s.step cfg ev).kernel.running = some i) :
    (s.kernel.tasks i).user = some u ∧ s.kernel.running = some i ∧
      (s.step cfg ev).kernel.ticks = s.kernel.ticks := by
  have hdormant := (h.step hcfg hhrt hev).marked u hmark'
  obtain hsame | ⟨e, hkernel, hcareful, hnew⟩ := h.kernel_step hev
  · rw [hsame] at hi hrun ⊢
    exact ⟨hi, hrun, rfl⟩
  · rw [hkernel] at hi hrun hdormant ⊢
    have hadds : KernelEvent.adds e ≠ some u := by
      intro hadd
      have hnone := (isFresh_unknown (hnew u hadd)).1
      rw [hmark] at hnone
      cases hnone
    obtain ⟨hold, hticks⟩ := hdormant.running_before hcfg hhrt h.rest hcareful hi hrun
    exact ⟨user_before h.rest.1.linked (h.marked u hmark).notAsked hadds hi, hold, hticks⟩

/-- INTERNAL: the same of a run along which the thread is marked. -/
theorem run_running (hcfg : WeightsOk σ cfg) (hhrt : cfg.isHrtMode = false) (h : CmsisOk cfg s)
    (hfs : Runs.Along (CmsisKernel.step cfg) (CmsisOrderly cfg) s fs)
    (hmark : ∀ gs, gs <+: fs → (gs.foldl (CmsisKernel.step cfg) s).suspended u = some true)
    (hi : ((fs.foldl (CmsisKernel.step cfg) s).kernel.tasks i).user = some u)
    (hrun : (fs.foldl (CmsisKernel.step cfg) s).kernel.running = some i) :
    (s.kernel.tasks i).user = some u ∧ s.kernel.running = some i ∧
      (fs.foldl (CmsisKernel.step cfg) s).kernel.ticks = s.kernel.ticks := by
  induction fs generalizing s with
  | nil => exact ⟨hi, hrun, rfl⟩
  | cons ev fs ih =>
    have hnow : s.suspended u = some true := hmark [] List.nil_prefix
    have hnext : (s.step cfg ev).suspended u = some true :=
      hmark [ev] (List.cons_prefix_cons.mpr ⟨rfl, List.nil_prefix⟩)
    obtain ⟨hi₁, hrun₁, hticks₁⟩ := ih (h.step hcfg hhrt hfs.1) hfs.2
      (fun gs hgs => hmark (ev :: gs) (List.cons_prefix_cons.mpr ⟨rfl, hgs⟩)) hi hrun
    obtain ⟨hi₀, hrun₀, hticks₀⟩ := h.running_before hcfg hhrt hfs.1 hnow hnext hi₁ hrun₁
    exact ⟨hi₀, hrun₀, hticks₁.trans hticks₀⟩

/-! ## The first resumption -/

/-- INTERNAL: a mark stays until the thread is resumed or destroyed. -/
theorem marked_step (h : CmsisOk cfg s) (hev : CmsisOrderly cfg s ev) (hmark : s.suspended u = some true)
    (hresume : ∀ c, ev ≠ .osThreadResume c u) (hdestroy : ev ≠ .objDestroy u) :
    (s.step cfg ev).suspended u = some true := by
  rw [step_suspended]
  cases ev with
  | osThreadNew c v =>
    dsimp only
    split
    · next hcall =>
      have hne : u ≠ v := by
        rintro rfl
        have hnone := (isFresh_unknown (Bool.and_eq_true_iff.mp hcall).2).1
        rw [hmark] at hnone
        cases hnone
      rw [Function.update_of_ne hne]
      exact hmark
    · exact hmark
  | osThreadSuspend c v =>
    dsimp only
    split
    · next hcall =>
      -- a marked thread sleeps
      have hne : u ≠ v := by
        rintro rfl
        obtain ⟨i, hi⟩ := Option.isSome_iff_exists.mp hcall.2.2
        have hawake := hev.1 hcall i hi
        rw [((h.marked u hmark).parked i (Good.findTaskByUserTask_busy hi)).isSleeping] at hawake
        cases hawake
      rw [Function.update_of_ne hne]
      exact hmark
    · exact hmark
  | osThreadResume c v =>
    dsimp only
    split
    · have hne : u ≠ v := by
        rintro rfl
        exact hresume c rfl
      rw [Function.update_of_ne hne]
      exact hmark
    · exact hmark
  | objDestroy v =>
    have hne : u ≠ v := by
      rintro rfl
      exact hdestroy rfl
    dsimp only
    rw [Function.update_of_ne hne]
    exact hmark
  | osThreadExit i => exact hmark
  | kernel e => exact hmark

/-- INTERNAL: by induction on the run. -/
theorem marked_run (hcfg : WeightsOk σ cfg) (hhrt : cfg.isHrtMode = false) (h : CmsisOk cfg s)
    (hfs : Runs.Along (CmsisKernel.step cfg) (CmsisOrderly cfg) s fs) (hmark : s.suspended u = some true)
    (hnot : NotResumed u fs) : (fs.foldl (CmsisKernel.step cfg) s).suspended u = some true := by
  induction fs generalizing s with
  | nil => exact hmark
  | cons ev fs ih =>
    refine ih (h.step hcfg hhrt hfs.1) hfs.2 (h.marked_step hfs.1 hmark (fun c heq => ?_) (fun heq => ?_)) ⟨?_, ?_⟩
    · exact hnot.1 c (heq ▸ List.mem_cons_self)
    · exact hnot.2 (heq ▸ List.mem_cons_self)
    · exact fun c hmem => hnot.1 c (List.mem_cons_of_mem ev hmem)
    · exact fun hmem => hnot.2 (List.mem_cons_of_mem ev hmem)

/-! ## Runs -/

theorem markedStaysOff (hcfg : WeightsOk σ cfg) (hhrt : cfg.isHrtMode = false)
    (hes : Runs.Along (CmsisKernel.step cfg) (CmsisOrderly cfg) (CmsisKernel.initial : CmsisKernel n σ) es) :
    MarkedStaysOff cfg σ es := by
  rintro ds fs u ⟨rest, rfl⟩ hmark s₀ s i hi hrun
  obtain ⟨hbefore, -⟩ := Runs.along_append.mp hes
  obtain ⟨hds, hfs⟩ := Runs.along_append.mp hbefore
  have hok : CmsisOk cfg s₀ := .run hcfg hhrt hds
  have hsplit : ∀ gs, (CmsisKernel.run cfg (ds ++ gs) : CmsisKernel n σ) = gs.foldl (CmsisKernel.step cfg) s₀ :=
    fun gs => List.foldl_append
  have hend : s = fs.foldl (CmsisKernel.step cfg) s₀ := hsplit fs
  rw [hend] at hi hrun ⊢
  refine (hok.run_running hcfg hhrt hfs (fun gs hgs => ?_) hi hrun).2
  rw [← hsplit gs]
  exact hmark gs hgs

theorem resumeReleases (hcfg : WeightsOk σ cfg) (hhrt : cfg.isHrtMode = false)
    (hes : Runs.Along (CmsisKernel.step cfg) (CmsisOrderly cfg) (CmsisKernel.initial : CmsisKernel n σ) es) :
    ResumeReleases cfg σ es := by
  rintro ds c c' u fs ⟨rest, rfl⟩ hsuspends hnot s hresumes i hi t ht
  obtain ⟨hbefore, -⟩ := Runs.along_append.mp hes
  obtain ⟨hbefore, -⟩ := Runs.along_append.mp hbefore
  obtain ⟨hds, hev, hfs⟩ := Runs.along_append.mp hbefore
  have hok₀ : CmsisOk cfg (CmsisKernel.run cfg ds : CmsisKernel n σ) := .run hcfg hhrt hds
  have hok : CmsisOk cfg s := .run hcfg hhrt hbefore
  -- the `osThreadSuspend` is of an awake thread, so it marks it
  have hmark₁ : ((CmsisKernel.run cfg ds : CmsisKernel n σ).step cfg (.osThreadSuspend c u)).suspended u = some true := by
    obtain ⟨j, hj⟩ := Option.isSome_iff_exists.mp hsuspends.2.2
    have hawake : (((CmsisKernel.run cfg ds : CmsisKernel n σ).kernel.tasks j).isSleeping) = false :=
      hev.1 hsuspends j hj
    rw [step_suspended]
    dsimp only
    rw [if_pos hsuspends, Function.update_self, hj, Option.map_some, hawake]
    rfl
  have hmark : s.suspended u = some true := by
    have hend : s = fs.foldl (CmsisKernel.step cfg)
        ((CmsisKernel.run cfg ds : CmsisKernel n σ).step cfg (.osThreadSuspend c u)) := by
      show CmsisKernel.run cfg (ds ++ .osThreadSuspend c u :: fs) = _
      unfold CmsisKernel.run
      rw [List.foldl_append, List.foldl_cons]
    rw [hend]
    exact (hok₀.step hcfg hhrt hev).marked_run hcfg hhrt hfs hmark₁ hnot
  have hkernel : (s.step cfg (.osThreadResume c' u)).kernel = s.kernel.resumeTask u := by
    simp [CmsisKernel.step, CmsisKernel.osThreadResume, hresumes.1, hmark]
  intro k
  have hk : k = ((s.kernel.resumeTask u).onTick cfg t).1 := by
    rw [← hkernel]
  rw [hk]
  exact (hok.marked u hmark).resumed hok.rest.1.linked hok.single hhrt hi ht

end CmsisOk

/-- INTERNAL: `CmsisPrioToStk` gives every thread a priority of `SwitchStrategyFP32`. -/
theorem CmsisConfig.weightsOk (c : CmsisConfig) : WeightsOk (FixedPriority 32 (Fin n)) c.kernel := by
  intro u
  obtain ⟨hpos, hlt⟩ := c.weight_lt u
  have hprio : getTaskPriorityFromWeight (c.weight u) < 32 := by
    unfold getTaskPriorityFromWeight
    omega
  exact hprio

/-- **Suspending and resuming threads.**  In every run of the CMSIS kernel, of any number of threads, the mark of
every thread follows the calls if and only if every `osThreadSuspend` is of an awake thread; and in every such
run that is orderly a marked thread is not scheduled and its first resumption releases it. -/
theorem run_threadSuspend (c : CmsisConfig) (es : List (CmsisEvent n)) :
    (FlagFollowsCalls c.kernel (FixedPriority 32 (Fin n)) es ↔ Runs.Along (CmsisKernel.step c.kernel) SuspendsAwake
      (CmsisKernel.initial : CmsisKernel n (FixedPriority 32 (Fin n))) es) ∧
    (Runs.Along (CmsisKernel.step c.kernel) (CmsisOrderly c.kernel)
        (CmsisKernel.initial : CmsisKernel n (FixedPriority 32 (Fin n))) es →
      FlagFollowsCalls c.kernel (FixedPriority 32 (Fin n)) es ∧
        MarkedStaysOff c.kernel (FixedPriority 32 (Fin n)) es ∧
          ResumeReleases c.kernel (FixedPriority 32 (Fin n)) es) := by
  refine ⟨flagFollowsCalls_iff, fun hes => ⟨?_, ?_, ?_⟩⟩
  · exact flagFollowsCalls_iff.mpr (hes.mono fun _ _ hev => hev.1)
  · exact CmsisOk.markedStaysOff (CmsisConfig.weightsOk c) rfl hes
  · exact CmsisOk.resumeReleases (CmsisConfig.weightsOk c) rfl hes

/-- A kernel without tickless idle whose threads all have priority 1. -/
def cmsisConfig : CmsisConfig where
  isTicklessMode := false
  ticklessTicksMax := 1000
  weight := fun _ => 1
  weight_lt := fun _ => by decide

/-- Two threads are created and the kernel is started; thread 0 runs and suspends thread 1. -/
def threadSuspended : List (CmsisEvent 2) :=
  [.osThreadNew none 0, .osThreadNew none 1, .kernel .onStart, .osThreadSuspend (some 0) 1]

theorem threadSuspended_releases :
    FlagFollowsCalls cmsisConfig.kernel (FixedPriority 32 (Fin 2))
        (threadSuspended ++ [.kernel (.onTick 1), .osThreadResume (some 0) 1, .kernel (.onTick 1)]) ∧
      MarkedStaysOff cmsisConfig.kernel (FixedPriority 32 (Fin 2))
        (threadSuspended ++ [.kernel (.onTick 1), .osThreadResume (some 0) 1, .kernel (.onTick 1)]) ∧
      ResumeReleases cmsisConfig.kernel (FixedPriority 32 (Fin 2))
        (threadSuspended ++ [.kernel (.onTick 1), .osThreadResume (some 0) 1, .kernel (.onTick 1)]) := by
  apply (run_threadSuspend cmsisConfig _).2
  refine ⟨⟨trivial, (by simp)⟩, ⟨trivial, (by simp)⟩, ⟨trivial, ?_⟩, ⟨?_, (by simp)⟩, ⟨trivial, ?_⟩, ⟨trivial, (by simp)⟩,
    ⟨trivial, ?_⟩, trivial⟩
  · rintro e ⟨⟩ -
    exact ⟨trivial, (by simp)⟩
  · intro _
    decide +kernel
  · rintro e ⟨⟩ -
    refine ⟨⟨?_, ?_⟩, ?_⟩
    · decide +kernel
    · decide +kernel
    · rintro t ⟨⟩
      decide +kernel
  · rintro e ⟨⟩ -
    refine ⟨⟨?_, ?_⟩, ?_⟩
    · decide +kernel
    · decide +kernel
    · rintro t ⟨⟩
      decide +kernel

/-- A second `osThreadSuspend` of a suspended thread takes its mark away, and the `osThreadResume` that follows
does not wake it; nor is a thread marked that is suspended in a delay. -/
theorem suspendedTwice_stranded :
    ¬FlagFollowsCalls cmsisConfig.kernel (FixedPriority 32 (Fin 2))
        (threadSuspended ++ [.osThreadSuspend (some 0) 1]) ∧
      ¬ResumeReleases cmsisConfig.kernel (FixedPriority 32 (Fin 2))
        (threadSuspended ++ [.osThreadSuspend (some 0) 1, .osThreadResume (some 0) 1]) ∧
      ¬FlagFollowsCalls cmsisConfig.kernel (FixedPriority 32 (Fin 2))
        [.osThreadNew none 0, .osThreadNew none 1, .kernel .onStart, .kernel (.sleep 0 3), .kernel (.onTick 1),
          .osThreadSuspend (some 1) 0] := by
  refine ⟨fun h => ?_, fun h => ?_, fun h => ?_⟩
  · have hmark := h _ (List.prefix_refl _) 1 false
    revert hmark
    decide +kernel
  · have hwakes := h [.osThreadNew none 0, .osThreadNew none 1, .kernel .onStart] (some 0) (some 0) 1
      [.osThreadSuspend (some 0) 1] (by decide) (by decide +kernel) ⟨by decide, by decide⟩ (by decide +kernel) 1
      (by decide +kernel) 1 (by decide)
    revert hwakes
    decide +kernel
  · have hmark := h _ (List.prefix_refl _) 0 false
    revert hmark
    decide +kernel

end Stk.Analysis
