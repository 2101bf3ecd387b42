import Stk.Analysis.FrtosSuspend
import Stk.Model.FixedPriority

/-!
# Runs with suspended tasks

What `vTaskSuspend` and `vTaskResume` promise, said of whole runs: a suspended task gets no CPU, its first
resumption is not ignored and lets it run, and neither call ends a delay or a wait.  `run_suspendResume` has it
for the runs whose steps are orderly; `suspensions_fail` has a run of other steps for each of the three.
-/

set_option autoImplicit false

namespace Stk.Analysis

open Stk.Model Stk.Model.Kernel

variable {n : ℕ} {σ : Type} [SwitchStrategy (Fin n) σ] {cfg : Config} {s : FrtosKernel n σ} {i : Fin n} {u : TId}
  {fs : List (FrtosEvent n)}

/-! ## What is promised -/

/-- A `vTaskSuspend` of `u` takes effect: its caller is in a position to make it, and the kernel has the task. -/
def TakesEffect (s : FrtosKernel n σ) (c : Option (Fin n)) (u : TId) : Prop :=
  s.mayCall c = true ∧ s.state u ≠ none ∧ (s.kernel.findTaskByUserTask u).isSome = true

instance (s : FrtosKernel n σ) (c : Option (Fin n)) (u : TId) : Decidable (TakesEffect s c u) :=
  inferInstanceAs (Decidable (_ ∧ _ ∧ _))

/-- Nobody resumes the task, or deletes it. -/
def Unlifted (u : TId) (fs : List (FrtosEvent n)) : Prop := .vTaskResume u ∉ fs ∧ .vTaskDelete u ∉ fs

instance (u : TId) (fs : List (FrtosEvent n)) : Decidable (Unlifted u fs) := inferInstanceAs (Decidable (_ ∧ _))

/-- The call starts a delay or a wait of the task in slot `i`. -/
def Delays (i : Fin n) : KernelEvent n → Prop
  | .sleep j _ | .sleepUntil j _ | .switchToNext j | .wait j _ _ => j = i
  | _ => False

/-- The step belongs to `vTaskSuspend`, `vTaskResume` or `xTaskResumeFromISR`. -/
def OfSuspension : FrtosEvent n → Prop
  | .vTaskSuspend _ _ | .vTaskSuspendReturn _ | .vTaskResume _ => True
  | _ => False

/-- A suspended task gets no CPU: a task that suspends itself has it until the next tick, as it had before. -/
def StaysSuspended (cfg : Config) (σ : Type) [SwitchStrategy (Fin n) σ] (es : List (FrtosEvent n)) : Prop :=
  ∀ es₀ c u fs, es₀ ++ .vTaskSuspend c u :: fs <+: es →
    TakesEffect (FrtosKernel.run cfg es₀ : FrtosKernel n σ) c u → Unlifted u fs →
    let s₀ : FrtosKernel n σ := FrtosKernel.run cfg es₀
    let s : FrtosKernel n σ := FrtosKernel.run cfg (es₀ ++ .vTaskSuspend c u :: fs)
    ∀ i, (s.kernel.tasks i).user = some u → s.kernel.running = some i →
      s₀.kernel.running = some i ∧ s.kernel.ticks = s₀.kernel.ticks

/-- The first resumption of a suspended task is not ignored and lifts the suspension: the next tick ends the
sleep of the task, unless it removes it. -/
def FirstResumeLifts (cfg : Config) (σ : Type) [SwitchStrategy (Fin n) σ] (es : List (FrtosEvent n)) : Prop :=
  ∀ es₀ c u fs, es₀ ++ .vTaskSuspend c u :: fs ++ [.vTaskResume u] <+: es →
    TakesEffect (FrtosKernel.run cfg es₀ : FrtosKernel n σ) c u → Unlifted u fs →
    let s : FrtosKernel n σ := FrtosKernel.run cfg (es₀ ++ .vTaskSuspend c u :: fs)
    ∀ i, (s.kernel.tasks i).user = some u → (s.vTaskResume u).2 = true ∧ ∀ t, 0 < t →
      let k := ((s.vTaskResume u).1.kernel.onTick cfg t).1
      (k.tasks i).isSleeping = false ∨ (k.tasks i).user = none

/-- Neither call touches the sleep counter or the wait object of a task that has been asleep since it started
a delay or a wait. -/
def LeavesDelays (cfg : Config) (σ : Type) [SwitchStrategy (Fin n) σ] (es : List (FrtosEvent n)) : Prop :=
  ∀ es₀ d i fs e, es₀ ++ .kernel d :: fs ++ [e] <+: es → Delays i d →
    (FrtosKernel.run cfg es₀ : FrtosKernel n σ).mayCall (some i) = true →
    (∀ gs, gs <+: fs → (((FrtosKernel.run cfg (es₀ ++ .kernel d :: gs) : FrtosKernel n σ).kernel.tasks
      i).isSleeping = true)) →
    OfSuspension e →
    (FrtosKernel.run cfg (es₀ ++ .kernel d :: fs ++ [e]) : FrtosKernel n σ).kernel.tasks i =
      (FrtosKernel.run cfg (es₀ ++ .kernel d :: fs) : FrtosKernel n σ).kernel.tasks i

/-! ## A suspension lasts -/

/-- INTERNAL: only a resumption or its deletion ends the suspension of a task. -/
theorem Held.step {e : FrtosEvent n} (h : Held s u) (hresume : e ≠ .vTaskResume u) (hdelete : e ≠ .vTaskDelete u) :
    Held (s.step cfg e) u := by
  cases e with
  | xTaskCreate c v =>
    simp only [FrtosKernel.step]
    split
    · next hcall =>
      have hne : u ≠ v := fun heq => allows_ne (.inl (Bool.and_eq_true_iff.mp hcall).2) h.1 heq.symm
      exact h.congr (Function.update_of_ne hne _ _) rfl
    · exact h
  | vTaskDelete v =>
    simp only [FrtosKernel.step]
    split
    · have hne : u ≠ v := by
        rintro rfl
        exact hdelete rfl
      exact h.congr (Function.update_of_ne hne _ _) rfl
    · exact h
  | vTaskSuspend c v =>
    simp only [FrtosKernel.step]
    split
    · next hcall =>
      refine ⟨h.1, fun hready => ?_⟩
      obtain ⟨c', call, hc', hcu⟩ := inSuspend_iff.mp (h.2 hready)
      exact inSuspend_iff.mpr ⟨c', call, suspending_kept (Bool.and_eq_true_iff.mp hcall).1 hc', hcu⟩
    · exact h
  | vTaskSuspendReturn c =>
    simp only [FrtosKernel.step, FrtosKernel.vTaskSuspendReturn]
    split
    · exact h
    · next call hcall =>
      split
      · by_cases hself : u = call.user
        · subst hself
          refine ⟨?_, fun hready => ?_⟩
          · simpa using h.1
          · simp at hready
        · refine ⟨by simpa [hself] using h.1, fun hready => ?_⟩
          obtain ⟨c', call', hc', hcu⟩ := inSuspend_iff.mp (h.2 (by simpa [hself] using hready))
          refine inSuspend_iff.mpr ⟨c', call', ?_, hcu⟩
          have hcc : c' ≠ c := by
            rintro rfl
            obtain rfl := Option.some.inj (hcall.symm.trans hc')
            exact hself hcu.symm
          exact (Function.update_of_ne hcc _ _).trans hc'
      · exact h
  | vTaskResume v =>
    simp only [FrtosKernel.step, FrtosKernel.vTaskResume]
    split
    · exact h
    · have hne : u ≠ v := by
        rintro rfl
        exact hresume rfl
      exact h.congr (Function.update_of_ne hne _ _) rfl
  | xTaskAbortDelay v =>
    simp only [FrtosKernel.step, FrtosKernel.xTaskAbortDelay]
    split
    · exact h
    · exact h
  | kernel e =>
    simp only [FrtosKernel.step]
    split
    · by_cases hexit : u ∈ (s.kernel.step cfg e).exits.drop s.kernel.exits.length
      · have hstate : (s.kernelCall cfg e).state u = (s.state u).map fun _ => .deleted := if_pos hexit
        refine ⟨?_, fun hready => ?_⟩
        · rw [hstate]
          simpa using h.1
        · rw [hstate] at hready
          simp at hready
      · exact h.congr (if_neg hexit) rfl
    · exact h

variable [StrategyLists (Fin n) σ] [SleepAware (Fin n) σ]

/-- INTERNAL: a step makes at most one call into the kernel. -/
theorem SuspendOk.kernel_step {ev : FrtosEvent n} (hok : SuspendOk cfg s) (he : FrtosOrderly cfg s ev) :
    (s.step cfg ev).kernel = s.kernel ∨ ∃ e, (s.step cfg ev).kernel = s.kernel.step cfg e ∧
      Careful cfg s.kernel e ∧ ∀ v, KernelEvent.adds e = some v → s.isFresh v = true := by
  cases ev with
  | xTaskCreate c v =>
    simp only [FrtosKernel.step]
    split
    · next hcall =>
      have hfresh : ∀ w, some v = some w → s.isFresh w = true := by
        intro w hw
        obtain rfl := Option.some.inj hw
        exact (Bool.and_eq_true_iff.mp hcall).2
      cases c with
      | none => exact .inr ⟨.addTask v, rfl, trivial, hfresh⟩
      | some j => exact .inr ⟨.requestAddTask j v, rfl, trivial, hfresh⟩
    · exact .inl rfl
  | vTaskDelete v =>
    simp only [FrtosKernel.step]
    split
    · exact .inr ⟨.scheduleTaskRemoval v, rfl, fun _ => he, fun _ hadds => by cases hadds⟩
    · exact .inl rfl
  | vTaskSuspend c v =>
    simp only [FrtosKernel.step]
    split
    · exact .inr ⟨.suspendTask v, rfl, trivial, fun _ hadds => by cases hadds⟩
    · exact .inl rfl
  | vTaskSuspendReturn c =>
    left
    simp only [FrtosKernel.step, FrtosKernel.vTaskSuspendReturn]
    split
    · rfl
    · split
      · rfl
      · rfl
  | vTaskResume v =>
    simp only [FrtosKernel.step, FrtosKernel.vTaskResume]
    split
    · exact .inl rfl
    · next hstate =>
      refine .inr ⟨.resumeTask v, rfl, fun j hj => ?_, fun _ hadds => by cases hadds⟩
      have hheld := hok.held v (held_of_suspended (not_not.mp hstate))
      exact (hheld.parked j (Good.findTaskByUserTask_busy hj)).unlinked
  | xTaskAbortDelay v =>
    simp only [FrtosKernel.step, FrtosKernel.xTaskAbortDelay]
    split
    · exact .inl rfl
    · exact .inr ⟨.sleepCancel v, rfl, fun _ => he.2, fun _ hadds => by cases hadds⟩
  | kernel e =>
    simp only [FrtosKernel.step]
    split
    · next hallows => exact .inr ⟨e, rfl, he.1, fun v hv => adds_fresh hallows hv⟩
    · exact .inl rfl

/-! ## A suspended task gets no CPU -/

/-- INTERNAL: a suspended task that runs after a step ran before it, and the step is no tick. -/
theorem SuspendOk.running_before (hcfg : WeightsOk σ cfg) (hhrt : cfg.isHrtMode = false) (hok : SuspendOk cfg s)
    {ev : FrtosEvent n} (he : FrtosOrderly cfg s ev) (h : Held s u) (h' : Held (s.step cfg ev) u)
    (hi : ((s.step cfg ev).kernel.tasks i).user = some u) (hrun : (s.step cfg ev).kernel.running = some i) :
    (s.kernel.tasks i).user = some u ∧ s.kernel.running = some i ∧
      (s.step cfg ev).kernel.ticks = s.kernel.ticks := by
  obtain hsame | ⟨e, hkernel, hcareful, hnew⟩ := hok.kernel_step he
  · rw [hsame] at hi hrun ⊢
    exact ⟨hi, hrun, rfl⟩
  · rw [hkernel] at hi hrun ⊢
    have hadds : KernelEvent.adds e ≠ some u := by
      intro hadd
      exact allows_ne (.inl (hnew u hadd)) h.1 rfl
    have hheld := (hok.step hcfg hhrt he).held u h'
    have hdormant : Dormant u (s.kernel.step cfg e) := by
      rw [← hkernel]
      exact ⟨hheld.parked, hheld.notAsked⟩
    obtain ⟨hold, hticks⟩ := hdormant.running_before hcfg hhrt hok.rest hcareful hi hrun
    exact ⟨user_before hok.rest.1.linked (hok.held u h).notAsked hadds hi, hold, hticks⟩

/-- INTERNAL: the same of a run in which nobody resumes or deletes the task. -/
theorem SuspendOk.run_running (hcfg : WeightsOk σ cfg) (hhrt : cfg.isHrtMode = false) (hok : SuspendOk cfg s)
    (h : Held s u) (hfs : Runs.Along (FrtosKernel.step cfg) (FrtosOrderly cfg) s fs) (hun : Unlifted u fs) :
    Held (fs.foldl (FrtosKernel.step cfg) s) u ∧
      ∀ i, ((fs.foldl (FrtosKernel.step cfg) s).kernel.tasks i).user = some u →
        (fs.foldl (FrtosKernel.step cfg) s).kernel.running = some i →
        (s.kernel.tasks i).user = some u ∧ s.kernel.running = some i ∧
          (fs.foldl (FrtosKernel.step cfg) s).kernel.ticks = s.kernel.ticks := by
  induction fs generalizing s with
  | nil => exact ⟨h, fun i hi hrun => ⟨hi, hrun, rfl⟩⟩
  | cons e fs ih =>
    have hresume : e ≠ .vTaskResume u := fun heq => hun.1 (heq ▸ List.mem_cons_self)
    have hdelete : e ≠ .vTaskDelete u := fun heq => hun.2 (heq ▸ List.mem_cons_self)
    have hnext : Held (s.step cfg e) u := h.step hresume hdelete
    obtain ⟨hend, hback⟩ := ih (hok.step hcfg hhrt hfs.1) hnext hfs.2
      ⟨fun hmem => hun.1 (List.mem_cons_of_mem e hmem), fun hmem => hun.2 (List.mem_cons_of_mem e hmem)⟩
    refine ⟨hend, fun i hi hrun => ?_⟩
    obtain ⟨hi₁, hrun₁, hticks⟩ := hback i hi hrun
    obtain ⟨hi₀, hrun₀, hticks₀⟩ := hok.running_before hcfg hhrt hfs.1 h hnext hi₁ hrun₁
    exact ⟨hi₀, hrun₀, hticks.trans hticks₀⟩

omit [StrategyLists (Fin n) σ] [SleepAware (Fin n) σ] in
/-- INTERNAL: a `vTaskSuspend` that takes effect. -/
theorem TakesEffect.held {c : Option (Fin n)} (h : TakesEffect s c u) (cfg : Config) :
    Held (s.step cfg (.vTaskSuspend c u)) u ∧
      (s.step cfg (.vTaskSuspend c u)).kernel.running = s.kernel.running ∧
      (s.step cfg (.vTaskSuspend c u)).kernel.ticks = s.kernel.ticks := by
  have hstep : s.step cfg (.vTaskSuspend c u) = s.vTaskSuspend c u := by
    simp [FrtosKernel.step, h.1, Option.isSome_iff_ne_none, h.2.1]
  rw [hstep]
  have hcalm : Calm s.kernel (s.vTaskSuspend c u).kernel := step_calm cfg s.kernel (e := .suspendTask u) rfl
  refine ⟨⟨h.2.1, fun _ => ?_⟩, running_congr hcalm.taskNow hcalm.fsmState, ?_⟩
  · exact inSuspend_iff.mpr ⟨c, _, Function.update_self _ _ _, rfl⟩
  · exact (SameTasks.suspendTask s.kernel u).ticks

/-- INTERNAL: a run up to a `vTaskSuspend` and on from it. -/
theorem SuspendOk.suspended_run (hcfg : WeightsOk σ cfg) (hhrt : cfg.isHrtMode = false)
    {es es₀ : List (FrtosEvent n)} {c : Option (Fin n)}
    (hes : Runs.Along (FrtosKernel.step cfg) (FrtosOrderly cfg) (FrtosKernel.initial : FrtosKernel n σ) es)
    (hbegins : es₀ ++ .vTaskSuspend c u :: fs <+: es)
    (htakes : TakesEffect (FrtosKernel.run cfg es₀ : FrtosKernel n σ) c u) (hun : Unlifted u fs) :
    SuspendOk cfg (FrtosKernel.run cfg (es₀ ++ .vTaskSuspend c u :: fs) : FrtosKernel n σ) ∧
      Held (FrtosKernel.run cfg (es₀ ++ .vTaskSuspend c u :: fs) : FrtosKernel n σ) u ∧
      ∀ i, ((FrtosKernel.run cfg (es₀ ++ .vTaskSuspend c u :: fs) : FrtosKernel n σ).kernel.tasks i).user = some u →
        (FrtosKernel.run cfg (es₀ ++ .vTaskSuspend c u :: fs) : FrtosKernel n σ).kernel.running = some i →
        (FrtosKernel.run cfg es₀ : FrtosKernel n σ).kernel.running = some i ∧
          (FrtosKernel.run cfg (es₀ ++ .vTaskSuspend c u :: fs) : FrtosKernel n σ).kernel.ticks =
            (FrtosKernel.run cfg es₀ : FrtosKernel n σ).kernel.ticks := by
  obtain ⟨rest, rfl⟩ := hbegins
  obtain ⟨hbefore, -⟩ := Runs.along_append.mp hes
  obtain ⟨h₀, hsuspend, hfs⟩ := Runs.along_append.mp hbefore
  have hok₀ : SuspendOk cfg (FrtosKernel.run cfg es₀ : FrtosKernel n σ) := .run hcfg hhrt h₀
  obtain ⟨hheld, hrunning, hticks⟩ := htakes.held cfg
  obtain ⟨hend, hback⟩ := (hok₀.step hcfg hhrt hsuspend).run_running hcfg hhrt hheld hfs hun
  have hrun : (FrtosKernel.run cfg (es₀ ++ .vTaskSuspend c u :: fs) : FrtosKernel n σ) =
      fs.foldl (FrtosKernel.step cfg) ((FrtosKernel.run cfg es₀).step cfg (.vTaskSuspend c u)) := by
    unfold FrtosKernel.run
    rw [List.foldl_append, List.foldl_cons]
  refine ⟨.run hcfg hhrt hbefore, ?_, fun i hi hruns => ?_⟩
  · rw [hrun]
    exact hend
  · rw [hrun] at hi hruns ⊢
    obtain ⟨-, hruns₁, hticks₁⟩ := hback i hi hruns
    exact ⟨hrunning.symm.trans hruns₁, hticks₁.trans hticks⟩

/-! ## The first resumption -/

/-- INTERNAL: the resumption of a suspended task. -/
theorem SuspendOk.resume_lifts (hhrt : cfg.isHrtMode = false) (hok : SuspendOk cfg s) (h : Held s u)
    (hidle : s.inSuspend u = false) (hi : (s.kernel.tasks i).user = some u) :
    (s.vTaskResume u).2 = true ∧ ∀ t, 0 < t →
      (((s.vTaskResume u).1.kernel.onTick cfg t).1.tasks i).isSleeping = false ∨
        (((s.vTaskResume u).1.kernel.onTick cfg t).1.tasks i).user = none := by
  have hstate : s.state u = some .suspended := by
    cases hs : s.state u with
    | none => exact absurd hs h.1
    | some state =>
      cases state with
      | ready =>
        have hcall := h.2 hs
        rw [hidle] at hcall
        cases hcall
      | suspended => rfl
      | deleted => exact absurd hi (hok.gone u hs i).1
  have hkernel : (s.vTaskResume u).1.kernel = s.kernel.resumeTask u := by
    simp [FrtosKernel.vTaskResume, hstate]
  refine ⟨by simp [FrtosKernel.vTaskResume, hstate], fun t ht => ?_⟩
  rw [hkernel]
  have hheld := hok.held u h
  exact (Dormant.mk hheld.parked hheld.notAsked).resumed hok.rest.1.linked hok.single hhrt hi ht

/-! ## Delays and waits -/

/-- INTERNAL: the task in slot `i` is not suspended. -/
def NotHeld (s : FrtosKernel n σ) (i : Fin n) : Prop := ∀ u, (s.kernel.tasks i).user = some u → ¬Held s u

omit [StrategyLists (Fin n) σ] [SleepAware (Fin n) σ] in
/-- INTERNAL: a suspended task was so before the step, or the step is its `vTaskSuspend`, or it is gone. -/
theorem Held.before {ev : FrtosEvent n} (hidle : ∀ v, ev = .vTaskResume v → s.inSuspend v = false)
    (h : Held (s.step cfg ev) u) : Held s u ∨ (∃ c, ev = .vTaskSuspend c u) ∨
      ∃ e, ev = .kernel e ∧ s.allows e = true ∧ s.state u ≠ none ∧ (s.step cfg ev).kernel = s.kernel.step cfg e ∧
        u ∈ (s.kernel.step cfg e).exits.drop s.kernel.exits.length := by
  cases ev with
  | xTaskCreate c v =>
    simp only [FrtosKernel.step] at h
    split at h
    · next hcall => exact .inl (h.of_xTaskCreate (Bool.and_eq_true_iff.mp hcall).2)
    · exact .inl h
  | vTaskDelete v =>
    simp only [FrtosKernel.step] at h
    split at h
    · exact .inl h.of_vTaskDelete
    · exact .inl h
  | vTaskSuspend c v =>
    simp only [FrtosKernel.step] at h
    split at h
    · obtain hold | rfl := h.of_vTaskSuspend
      · exact .inl hold
      · exact .inr (.inl ⟨c, rfl⟩)
    · exact .inl h
  | vTaskSuspendReturn c => exact .inl (Held.of_vTaskSuspendReturn h)
  | vTaskResume v => exact .inl (Held.of_vTaskResume (hidle v rfl) h)
  | xTaskAbortDelay v => exact .inl (Held.of_xTaskAbortDelay h)
  | kernel e =>
    simp only [FrtosKernel.step] at h
    split at h
    · next hallows =>
      obtain hold | ⟨hobject, hexit⟩ := h.of_kernelCall
      · exact .inl hold
      · refine .inr (.inr ⟨e, rfl, hallows, hobject, ?_, hexit⟩)
        simp only [FrtosKernel.step, if_pos hallows]
        rfl
    · exact .inl h

/-- INTERNAL: a sleeping task that is not suspended does not get suspended. -/
theorem SuspendOk.notHeld_step (hok : SuspendOk cfg s) {ev : FrtosEvent n} (he : FrtosOrderly cfg s ev)
    (hnot : NotHeld s i) (hasleep : (s.kernel.tasks i).isSleeping = true ∨ ∀ c v, ev ≠ .vTaskSuspend c v) :
    NotHeld (s.step cfg ev) i := by
  intro u hi h
  have hidle : ∀ v, ev = .vTaskResume v → s.inSuspend v = false := by
    rintro v rfl
    exact he
  obtain hold | ⟨c, rfl⟩ | ⟨e, rfl, hallows, hobject, hkernel, hexit⟩ := h.before hidle
  · -- a suspended task gets no new slot
    obtain hsame | ⟨e, hkernel, -, hnew⟩ := hok.kernel_step he
    · rw [hsame] at hi
      exact hnot u hi hold
    · rw [hkernel] at hi
      refine hnot u (user_before hok.rest.1.linked (hok.held u hold).notAsked (fun hadd => ?_) hi) hold
      exact allows_ne (.inl (hnew u hadd)) hold.1 rfl
  · have hi₀ : (s.kernel.tasks i).user = some u := by
      simp only [FrtosKernel.step] at hi
      split at hi
      · exact ((SameTasks.suspendTask s.kernel u).user i).symm.trans hi
      · exact hi
    obtain hold | ⟨j, hfind, hawake⟩ := he
    · exact hnot u hi₀ hold
    · obtain rfl := hok.single.bound j i u (Good.findTaskByUserTask_busy hfind) hi₀
      rcases hasleep with hsleeping | hother
      · rw [hsleeping] at hawake
        cases hawake
      · exact hother c u rfl
  · rw [hkernel] at hi
    exact (exited_unknown hok hallows hobject hexit i).1 hi

omit [StrategyLists (Fin n) σ] [SleepAware (Fin n) σ] in
/-- INTERNAL: the calls of a suspension leave a sleeping task that is not suspended alone. -/
theorem suspension_spares {ev : FrtosEvent n} (hev : OfSuspension ev)
    (hnot : NotHeld s i) (hasleep : (s.kernel.tasks i).isSleeping = true) :
    (s.step cfg ev).kernel.tasks i = s.kernel.tasks i := by
  cases ev with
  | vTaskSuspend c v =>
    simp only [FrtosKernel.step]
    split
    · simp only [FrtosKernel.vTaskSuspend, Kernel.suspendTask]
      split
      · rfl
      · next j _ =>
        split
        · rfl
        · next hawake =>
          have hne : i ≠ j := by
            rintro rfl
            exact hawake hasleep
          simp [Kernel.scheduleSleep, Kernel.setTask, hne]
    · rfl
  | vTaskSuspendReturn c =>
    simp only [FrtosKernel.step, FrtosKernel.vTaskSuspendReturn]
    split
    · rfl
    · split
      · rfl
      · rfl
  | vTaskResume v =>
    simp only [FrtosKernel.step, FrtosKernel.vTaskResume]
    split
    · rfl
    · next hstate =>
      simp only [Kernel.resumeTask]
      split
      · rfl
      · next j hj =>
        have hne : i ≠ j := by
          rintro rfl
          exact hnot v (Good.findTaskByUserTask_busy hj) (held_of_suspended (not_not.mp hstate))
        split
        · next hsleeping => simp [Kernel.wakeTask, Kernel.setTask, hsleeping, hne]
        · rfl
  | _ => exact hev.elim

/-! ## Runs -/

theorem SuspendOk.staysSuspended (hcfg : WeightsOk σ cfg) (hhrt : cfg.isHrtMode = false)
    {es : List (FrtosEvent n)}
    (hes : Runs.Along (FrtosKernel.step cfg) (FrtosOrderly cfg) (FrtosKernel.initial : FrtosKernel n σ) es) :
    StaysSuspended cfg σ es := by
  intro es₀ c u fs hbegins htakes hun s₀ s i hi hrun
  obtain ⟨-, -, hback⟩ := suspended_run hcfg hhrt hes hbegins htakes hun
  exact hback i hi hrun

theorem SuspendOk.firstResumeLifts (hcfg : WeightsOk σ cfg) (hhrt : cfg.isHrtMode = false)
    {es : List (FrtosEvent n)}
    (hes : Runs.Along (FrtosKernel.step cfg) (FrtosOrderly cfg) (FrtosKernel.initial : FrtosKernel n σ) es) :
    FirstResumeLifts cfg σ es := by
  intro es₀ c u fs hbegins htakes hun s i hi
  have hbefore : es₀ ++ .vTaskSuspend c u :: fs <+: es := (List.prefix_append _ _).trans hbegins
  obtain ⟨hok, hheld, -⟩ := suspended_run hcfg hhrt hes hbefore htakes hun
  obtain ⟨rest, rfl⟩ := hbegins
  obtain ⟨hresume, -⟩ := Runs.along_append.mp hes
  obtain ⟨-, hidle, -⟩ := Runs.along_append.mp hresume
  exact hok.resume_lifts hhrt hheld hidle hi

/-- INTERNAL: by induction on the run, as long as the task sleeps. -/
theorem SuspendOk.notHeld_run (hcfg : WeightsOk σ cfg) (hhrt : cfg.isHrtMode = false) (hok : SuspendOk cfg s)
    (hfs : Runs.Along (FrtosKernel.step cfg) (FrtosOrderly cfg) s fs) (hnot : NotHeld s i)
    (hasleep : ∀ gs, gs <+: fs → ((gs.foldl (FrtosKernel.step cfg) s).kernel.tasks i).isSleeping = true) :
    NotHeld (fs.foldl (FrtosKernel.step cfg) s) i := by
  induction fs generalizing s with
  | nil => exact hnot
  | cons e fs ih =>
    have hnow : (s.kernel.tasks i).isSleeping = true := hasleep [] List.nil_prefix
    refine ih (hok.step hcfg hhrt hfs.1) hfs.2 (hok.notHeld_step hfs.1 hnot (.inl hnow)) (fun gs hgs => ?_)
    exact hasleep (e :: gs) (List.cons_prefix_cons.mpr ⟨rfl, hgs⟩)

theorem SuspendOk.leavesDelays (hcfg : WeightsOk σ cfg) (hhrt : cfg.isHrtMode = false)
    {es : List (FrtosEvent n)}
    (hes : Runs.Along (FrtosKernel.step cfg) (FrtosOrderly cfg) (FrtosKernel.initial : FrtosKernel n σ) es) :
    LeavesDelays cfg σ es := by
  intro es₀ d i fs e hbegins hdelay hcall hasleep he
  obtain ⟨rest, rfl⟩ := hbegins
  obtain ⟨hbefore, -⟩ := Runs.along_append.mp hes
  obtain ⟨hbefore, -⟩ := Runs.along_append.mp hbefore
  obtain ⟨h₀, hd, hfs⟩ := Runs.along_append.mp hbefore
  have hok₀ : SuspendOk cfg (FrtosKernel.run cfg es₀ : FrtosKernel n σ) := .run hcfg hhrt h₀
  -- the task makes the call, so it is not suspended
  have hnot₀ : NotHeld (FrtosKernel.run cfg es₀ : FrtosKernel n σ) i := by
    intro u hi hheld
    exact (hok₀.held u hheld).caller_ne hi hcall rfl
  have hnot := (hok₀.step hcfg hhrt hd).notHeld_run hcfg hhrt hfs
    (hok₀.notHeld_step hd hnot₀ (.inr fun c v => nofun)) (fun gs hgs => ?_)
  · have hrun : (FrtosKernel.run cfg (es₀ ++ .kernel d :: fs) : FrtosKernel n σ) =
        fs.foldl (FrtosKernel.step cfg) ((FrtosKernel.run cfg es₀).step cfg (.kernel d)) := by
      unfold FrtosKernel.run
      rw [List.foldl_append, List.foldl_cons]
    have hlast : (FrtosKernel.run cfg (es₀ ++ .kernel d :: fs ++ [e]) : FrtosKernel n σ) =
        (FrtosKernel.run cfg (es₀ ++ .kernel d :: fs) : FrtosKernel n σ).step cfg e := by
      unfold FrtosKernel.run
      rw [List.foldl_append, List.foldl_cons, List.foldl_nil]
    have hsleeps := hasleep fs (List.prefix_refl fs)
    rw [hlast]
    refine suspension_spares he ?_ hsleeps
    rw [hrun]
    exact hnot
  · have hsleeps := hasleep gs hgs
    unfold FrtosKernel.run at hsleeps
    rw [List.foldl_append, List.foldl_cons] at hsleeps
    exact hsleeps

/-- INTERNAL: `FrtosPrioToStkWeight` gives every task a priority of `SwitchStrategyFP32`. -/
theorem FrtosConfig.weightsOk (c : FrtosConfig) : WeightsOk (FixedPriority 32 (Fin n)) c.kernel := by
  intro u
  obtain ⟨hpos, hlt⟩ := c.weight_lt u
  have hprio : getTaskPriorityFromWeight (c.weight u) < 32 := by
    unfold getTaskPriorityFromWeight
    omega
  exact hprio

/-- **Suspending and resuming.**  In every run of orderly steps of the FreeRTOS kernel, of any number of tasks,
a suspended task is not scheduled before it is resumed, its first resumption is not ignored and lifts the
suspension, and no `vTaskSuspend` or `vTaskResume` ends a delay or a wait. -/
theorem run_suspendResume (c : FrtosConfig) {es : List (FrtosEvent n)}
    (hes : Runs.Along (FrtosKernel.step c.kernel) (FrtosOrderly c.kernel)
      (FrtosKernel.initial : FrtosKernel n (FixedPriority 32 (Fin n))) es) :
    StaysSuspended c.kernel (FixedPriority 32 (Fin n)) es ∧ FirstResumeLifts c.kernel (FixedPriority 32 (Fin n)) es ∧
      LeavesDelays c.kernel (FixedPriority 32 (Fin n)) es :=
  ⟨SuspendOk.staysSuspended (FrtosConfig.weightsOk c) rfl hes,
    SuspendOk.firstResumeLifts (FrtosConfig.weightsOk c) rfl hes,
    SuspendOk.leavesDelays (FrtosConfig.weightsOk c) rfl hes⟩

theorem one_inRange (_ : TId) : (0 : ℤ) ≤ 1 ∧ (1 : ℤ) < 32 := by decide

/-- A kernel without tickless idle whose tasks all have priority 1. -/
def frtosConfig : FrtosConfig where
  isTicklessMode := false
  ticklessTicksMax := 1000
  weight := fun _ => 1
  weight_lt := one_inRange

/-- Two tasks are created and the scheduler is started; task 0 runs. -/
def startedTasks : List (FrtosEvent 2) := [.xTaskCreate none 0, .xTaskCreate none 1, .kernel .onStart]

/-- Task 0 suspends task 1, which is ready, and resumes it. -/
def readySuspended : List (FrtosEvent 2) :=
  startedTasks ++ [.vTaskSuspend (some 0) 1, .vTaskSuspendReturn (some 0), .kernel (.onTick 1), .vTaskResume 1,
    .kernel (.sleep 0 2), .kernel (.onTick 1)]

theorem readySuspended_lifts :
    StaysSuspended frtosConfig.kernel (FixedPriority 32 (Fin 2)) readySuspended ∧
      FirstResumeLifts frtosConfig.kernel (FixedPriority 32 (Fin 2)) readySuspended ∧
        LeavesDelays frtosConfig.kernel (FixedPriority 32 (Fin 2)) readySuspended := by
  apply run_suspendResume frtosConfig
  refine ⟨trivial, trivial, ⟨trivial, (by simp)⟩, .inr ⟨1, ?_, ?_⟩, trivial, ⟨⟨?_, ?_⟩, ?_⟩,
    (?_ : FrtosKernel.inSuspend _ _ = false), ⟨trivial, (by simp)⟩, ⟨⟨?_, ?_⟩, ?_⟩, trivial⟩
  · decide +kernel
  · decide +kernel
  · decide +kernel
  · decide +kernel
  · rintro t ⟨⟩
    decide +kernel
  · decide +kernel
  · decide +kernel
  · decide +kernel
  · rintro t ⟨⟩
    decide +kernel

/-- Task 0 delays itself for three ticks, and task 1 suspends it. -/
def delaySuspended : List (FrtosEvent 2) :=
  startedTasks ++ [.kernel (.sleep 0 3), .kernel (.onTick 1), .vTaskSuspend (some 1) 0, .vTaskSuspendReturn (some 1)]

/-- A suspended task runs once its delay is over; a task that has suspended itself stays asleep when it is
resumed; and the resumption of a delayed task that was suspended ends its delay. -/
theorem suspensions_fail :
    ¬StaysSuspended frtosConfig.kernel (FixedPriority 32 (Fin 2)) (delaySuspended ++ [.kernel (.onTick 1), .kernel (.onTick 1)]) ∧
      ¬FirstResumeLifts frtosConfig.kernel (FixedPriority 32 (Fin 2))
        (startedTasks ++ [.vTaskSuspend (some 0) 0, .kernel (.onTick 1), .vTaskResume 0]) ∧
      ¬LeavesDelays frtosConfig.kernel (FixedPriority 32 (Fin 2)) (delaySuspended ++ [.vTaskResume 0]) := by
  refine ⟨fun h => ?_, fun h => ?_, fun h => ?_⟩
  · have hruns := h (startedTasks ++ [.kernel (.sleep 0 3), .kernel (.onTick 1)]) (some 1) 0
      [.vTaskSuspendReturn (some 1), .kernel (.onTick 1), .kernel (.onTick 1)] (by decide) (by decide +kernel)
      (by decide) 0 (by decide +kernel) (by decide +kernel)
    revert hruns
    decide +kernel
  · have hlifts := (h startedTasks (some 0) 0 [.kernel (.onTick 1)] (by decide) (by decide +kernel) (by decide) 0
      (by decide +kernel)).1
    revert hlifts
    decide +kernel
  · have hsame := h startedTasks (.sleep 0 3) 0
      [.kernel (.onTick 1), .vTaskSuspend (some 1) 0, .vTaskSuspendReturn (some 1)] (.vTaskResume 0) (by decide) rfl
      (by decide +kernel) ?_ trivial
    · revert hsame
      decide +kernel
    · intro gs hgs
      rw [← List.mem_inits] at hgs
      revert gs
      decide +kernel

end Stk.Analysis
