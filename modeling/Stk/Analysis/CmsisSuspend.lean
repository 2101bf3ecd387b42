import Stk.Analysis.ParkedTask
import Stk.Model.CmsisThread
import Stk.Model.FixedPriority

/-!
# `osThreadSuspend` and `osThreadResume`

`SuspendTask` says that it has suspended a thread only if the thread was awake, so a second `osThreadSuspend`
of a thread takes the mark of the first one away, and the `osThreadResume` after it does nothing.  Where every
`osThreadSuspend` is of an awake thread, `m_suspended` follows the calls, a marked thread is `Dormant`, and the
first resumption wakes it.
-/

set_option autoImplicit false

namespace Stk.Analysis

open Stk.Model Stk.Model.Kernel

variable {n : ℕ} {σ : Type} [SwitchStrategy (Fin n) σ] {cfg : Config} {s : CmsisKernel n σ} {i : Fin n} {u : TId}
  {c : Option (Fin n)} {ev : CmsisEvent n} {fs es : List (CmsisEvent n)}

/-! ## What is promised -/

/-- The `osThreadSuspend` of `u` reaches the thread: the caller can make it, and the kernel has the thread. -/
def SuspendsThread (s : CmsisKernel n σ) (c : Option (Fin n)) (u : TId) : Prop :=
  s.mayCall c = true ∧ s.suspended u ≠ none ∧ (s.kernel.findTaskByUserTask u).isSome = true

/-- The `osThreadResume` of `u` is of a thread there is. -/
def ResumesThread (s : CmsisKernel n σ) (c : Option (Fin n)) (u : TId) : Prop :=
  s.mayCall c = true ∧ s.suspended u ≠ none

instance (s : CmsisKernel n σ) (c : Option (Fin n)) (u : TId) : Decidable (SuspendsThread s c u) :=
  inferInstanceAs (Decidable (_ ∧ _ ∧ _))

instance (s : CmsisKernel n σ) (c : Option (Fin n)) (u : TId) : Decidable (ResumesThread s c u) :=
  inferInstanceAs (Decidable (_ ∧ _))

/-- The kernel, and for each thread whether the last call that reached it was an `osThreadSuspend`. -/
def followCalls (cfg : Config) (p : CmsisKernel n σ × (TId → Bool)) (ev : CmsisEvent n) :
    CmsisKernel n σ × (TId → Bool) :=
  (p.1.step cfg ev, match ev with
    | .osThreadNew c u => if p.1.mayCall c && p.1.isFresh u then Function.update p.2 u false else p.2
    | .osThreadSuspend c u => if SuspendsThread p.1 c u then Function.update p.2 u true else p.2
    | .osThreadResume c u => if ResumesThread p.1 c u then Function.update p.2 u false else p.2
    | _ => p.2)

def lastCall (cfg : Config) (σ : Type) [SwitchStrategy (Fin n) σ] (es : List (CmsisEvent n)) : TId → Bool :=
  (es.foldl (followCalls cfg) ((CmsisKernel.initial : CmsisKernel n σ), fun _ => false)).2

/-- `m_suspended` is true exactly if the last call that reached the thread was an `osThreadSuspend`. -/
def FlagFollowsCalls (cfg : Config) (σ : Type) [SwitchStrategy (Fin n) σ] (es : List (CmsisEvent n)) : Prop :=
  ∀ ds, ds <+: es → ∀ u f, (CmsisKernel.run cfg ds : CmsisKernel n σ).suspended u = some f →
    f = lastCall cfg σ ds u

/-- A thread gets no CPU while it is marked: one that has suspended itself keeps it until the next tick. -/
def MarkedStaysOff (cfg : Config) (σ : Type) [SwitchStrategy (Fin n) σ] (es : List (CmsisEvent n)) : Prop :=
  ∀ ds fs u, ds ++ fs <+: es →
    (∀ gs, gs <+: fs → (CmsisKernel.run cfg (ds ++ gs) : CmsisKernel n σ).suspended u = some true) →
    let s₀ : CmsisKernel n σ := CmsisKernel.run cfg ds
    let s : CmsisKernel n σ := CmsisKernel.run cfg (ds ++ fs)
    ∀ i, (s.kernel.tasks i).user = some u → s.kernel.running = some i →
      s₀.kernel.running = some i ∧ s.kernel.ticks = s₀.kernel.ticks

/-- Nobody resumes the thread, or destroys it. -/
def NotResumed (u : TId) (fs : List (CmsisEvent n)) : Prop :=
  (∀ c, .osThreadResume c u ∉ fs) ∧ .objDestroy u ∉ fs

/-- The first resumption after an `osThreadSuspend`, and any number of others, makes the thread runnable: the next
tick ends its sleep, unless it removes the thread. -/
def ResumeReleases (cfg : Config) (σ : Type) [SwitchStrategy (Fin n) σ] (es : List (CmsisEvent n)) : Prop :=
  ∀ ds c c' u fs, ds ++ .osThreadSuspend c u :: fs ++ [.osThreadResume c' u] <+: es →
    SuspendsThread (CmsisKernel.run cfg ds : CmsisKernel n σ) c u → NotResumed u fs →
    let s : CmsisKernel n σ := CmsisKernel.run cfg (ds ++ .osThreadSuspend c u :: fs)
    ResumesThread s c' u → ∀ i, (s.kernel.tasks i).user = some u → ∀ t, 0 < t →
      let k := ((s.step cfg (.osThreadResume c' u)).kernel.onTick cfg t).1
      (k.tasks i).isSleeping = false ∨ (k.tasks i).user = none

/-- Every `osThreadSuspend` is of an awake thread. -/
def SuspendsAwake (s : CmsisKernel n σ) : CmsisEvent n → Prop
  | .osThreadSuspend c u => SuspendsThread s c u →
    ∀ i, s.kernel.findTaskByUserTask u = some i → (s.kernel.tasks i).isSleeping = false
  | _ => True

/-! ## The mark follows the calls -/

/-- INTERNAL: what a step does to the mark of a thread. -/
theorem step_suspended (cfg : Config) (s : CmsisKernel n σ) (ev : CmsisEvent n) (u : TId) :
    (s.step cfg ev).suspended u = match ev with
      | .osThreadNew c v => if s.mayCall c && s.isFresh v then Function.update s.suspended v (some false) u
        else s.suspended u
      | .osThreadSuspend c v => if SuspendsThread s c v then Function.update s.suspended v
          ((s.kernel.findTaskByUserTask v).map fun i => !(s.kernel.tasks i).isSleeping) u
        else s.suspended u
      | .osThreadResume c v => if ResumesThread s c v then Function.update s.suspended v (some false) u
        else s.suspended u
      | .objDestroy v => Function.update s.suspended v none u
      | _ => s.suspended u := by
  cases ev with
  | osThreadNew c v =>
    simp only [CmsisKernel.step]
    split <;> rfl
  | osThreadSuspend c v =>
    simp only [CmsisKernel.step]
    by_cases hcall : (s.mayCall c && (s.suspended v).isSome) = true
    · rw [if_pos hcall]
      rw [Bool.and_eq_true, Option.isSome_iff_ne_none] at hcall
      unfold CmsisKernel.osThreadSuspend
      dsimp only
      cases hfind : s.kernel.findTaskByUserTask v with
      | none => rw [if_neg (fun h => by simpa [hfind] using h.2.2)]
      | some i => rw [if_pos ⟨hcall.1, hcall.2, by simp [hfind]⟩, Option.map_some]
    · rw [if_neg hcall, if_neg]
      intro h
      rw [Bool.and_eq_true, Option.isSome_iff_ne_none] at hcall
      exact hcall ⟨h.1, h.2.1⟩
  | osThreadResume c v =>
    simp only [CmsisKernel.step]
    by_cases hcall : (s.mayCall c && (s.suspended v).isSome) = true
    · rw [if_pos hcall]
      rw [Bool.and_eq_true, Option.isSome_iff_ne_none] at hcall
      rw [if_pos (show ResumesThread s c v from hcall)]
      unfold CmsisKernel.osThreadResume
      split
      · rfl
      · next hmark =>
        by_cases hu : u = v
        · subst hu
          rw [Function.update_self]
          cases hs : s.suspended u with
          | none => exact absurd hs hcall.2
          | some f =>
            cases f with
            | true => exact absurd hs hmark
            | false => rfl
        · rw [Function.update_of_ne hu]
    · rw [if_neg hcall, if_neg]
      rw [Bool.and_eq_true, Option.isSome_iff_ne_none] at hcall
      exact hcall
  | osThreadExit i =>
    simp only [CmsisKernel.step, CmsisKernel.osThreadExit]
    split
    · split <;> rfl
    · rfl
  | objDestroy v => rfl
  | kernel e =>
    simp only [CmsisKernel.step]
    split <;> rfl

/-- INTERNAL: the two records of the calls. -/
def Agrees (p : CmsisKernel n σ × (TId → Bool)) : Prop := ∀ u f, p.1.suspended u = some f → f = p.2 u

/-- INTERNAL: a step of which the `osThreadSuspend` is of an awake thread. -/
theorem Agrees.followCalls {p : CmsisKernel n σ × (TId → Bool)} (h : Agrees p) (hawake : SuspendsAwake p.1 ev) :
    Agrees (followCalls cfg p ev) := by
  intro u f hf
  have hupdate : ∀ {v : TId} {g : Bool}, Function.update p.1.suspended v (some g) u = some f →
      f = Function.update p.2 v g u := by
    intro v g hg
    by_cases hu : u = v
    · subst hu
      rw [Function.update_self] at hg ⊢
      exact (Option.some.inj hg).symm
    · rw [Function.update_of_ne hu] at hg ⊢
      exact h u f hg
  unfold Stk.Analysis.followCalls at hf ⊢
  dsimp only at hf ⊢
  rw [step_suspended] at hf
  cases ev with
  | osThreadNew c v =>
    dsimp only at hf ⊢
    split at hf
    · next hcall =>
      rw [if_pos hcall]
      exact hupdate hf
    · next hcall =>
      rw [if_neg hcall]
      exact h u f hf
  | osThreadSuspend c v =>
    dsimp only at hf ⊢
    split at hf
    · next hcall =>
      rw [if_pos hcall]
      obtain ⟨i, hi⟩ := Option.isSome_iff_exists.mp hcall.2.2
      rw [hi, Option.map_some, hawake hcall i hi] at hf
      exact hupdate hf
    · next hcall =>
      rw [if_neg hcall]
      exact h u f hf
  | osThreadResume c v =>
    dsimp only at hf ⊢
    split at hf
    · next hcall =>
      rw [if_pos hcall]
      exact hupdate hf
    · next hcall =>
      rw [if_neg hcall]
      exact h u f hf
  | objDestroy v =>
    dsimp only at hf ⊢
    by_cases hu : u = v
    · subst hu
      rw [Function.update_self] at hf
      cases hf
    · rw [Function.update_of_ne hu] at hf
      exact h u f hf
  | osThreadExit i => exact h u f hf
  | kernel e => exact h u f hf

/-- INTERNAL: the record runs beside the kernel. -/
theorem followCalls_fst (p : CmsisKernel n σ × (TId → Bool)) (es : List (CmsisEvent n)) :
    (es.foldl (followCalls cfg) p).1 = es.foldl (CmsisKernel.step cfg) p.1 := by
  induction es generalizing p with
  | nil => rfl
  | cons ev es ih =>
    rw [List.foldl_cons, List.foldl_cons, ih]
    rfl

theorem lastCall_concat (ds : List (CmsisEvent n)) (ev : CmsisEvent n) :
    lastCall cfg σ (ds ++ [ev]) = (followCalls cfg ((CmsisKernel.run cfg ds : CmsisKernel n σ), lastCall cfg σ ds) ev).2 := by
  have hfst : (ds.foldl (followCalls cfg) ((CmsisKernel.initial : CmsisKernel n σ), fun _ => false)).1 =
      ds.foldl (CmsisKernel.step cfg) CmsisKernel.initial := followCalls_fst _ ds
  unfold lastCall CmsisKernel.run
  rw [List.foldl_append, List.foldl_cons, List.foldl_nil]
  congr 2
  exact Prod.ext hfst rfl

theorem run_concat (ds : List (CmsisEvent n)) (ev : CmsisEvent n) :
    (CmsisKernel.run cfg (ds ++ [ev]) : CmsisKernel n σ) = (CmsisKernel.run cfg ds : CmsisKernel n σ).step cfg ev := by
  unfold CmsisKernel.run
  rw [List.foldl_append, List.foldl_cons, List.foldl_nil]

/-- The mark follows the calls exactly in the runs in which every `osThreadSuspend` is of an awake thread. -/
theorem flagFollowsCalls_iff : FlagFollowsCalls cfg σ es ↔
    Runs.Along (CmsisKernel.step cfg) SuspendsAwake (CmsisKernel.initial : CmsisKernel n σ) es := by
  rw [Runs.along_iff_prefix]
  constructor
  · intro h ds ev hds
    have hrun : ds.foldl (CmsisKernel.step cfg) CmsisKernel.initial = (CmsisKernel.run cfg ds : CmsisKernel n σ) := rfl
    rw [hrun]
    cases ev with
    | osThreadSuspend c u =>
      intro hcall i hi
      have hmark := h _ hds u (!((CmsisKernel.run cfg ds : CmsisKernel n σ).kernel.tasks i).isSleeping) (by
        rw [run_concat, step_suspended]
        dsimp only
        rw [if_pos hcall, Function.update_self, hi]
        rfl)
      rw [lastCall_concat] at hmark
      unfold followCalls at hmark
      dsimp only at hmark
      rw [if_pos hcall, Function.update_self] at hmark
      simpa using hmark
    | _ => exact trivial
  · intro h ds hds
    have hagrees : Agrees ((CmsisKernel.run cfg ds : CmsisKernel n σ), lastCall cfg σ ds) := by
      induction ds using List.reverseRecOn with
      | nil => exact fun u f hf => nomatch hf
      | append_singleton ds ev ih =>
        rw [run_concat, lastCall_concat]
        exact (ih ((List.prefix_append ds [ev]).trans hds)).followCalls (h ds ev hds)
    exact hagrees

/-! ## A marked thread is dormant -/

variable [StrategyLists (Fin n) σ] [SleepAware (Fin n) σ]

/-- The steps that keep a marked thread dormant: besides, the calls into the kernel are careful, and no tick
runs out the sleep counter of a marked thread. -/
def CmsisOrderly (cfg : Config) (s : CmsisKernel n σ) (ev : CmsisEvent n) : Prop :=
  SuspendsAwake s ev ∧ ∀ e, ev = .kernel e → s.allows e = true → Careful cfg s.kernel e ∧
    ∀ t, e = .onTick t → ∀ i, ∀ u ∈ (s.kernel.tasks i).user, s.suspended u = some true →
      (s.kernel.tasks i).timeSleep + t < 0

/-- The invariant. -/
structure CmsisOk (cfg : Config) (s : CmsisKernel n σ) : Prop where
  rest : Rest cfg s.kernel
  single : Single s.kernel
  marked : ∀ u, s.suspended u = some true → Dormant u s.kernel

omit [SwitchStrategy (Fin n) σ] [StrategyLists (Fin n) σ] [SleepAware (Fin n) σ] in
theorem mayCall_awake (h : s.mayCall (some i) = true) : (s.kernel.tasks i).isSleeping = false := by
  simp only [CmsisKernel.mayCall, Bool.and_eq_true, Bool.not_eq_true'] at h
  exact h.2

omit [SwitchStrategy (Fin n) σ] [StrategyLists (Fin n) σ] [SleepAware (Fin n) σ] in
/-- INTERNAL: the kernel does not know a new thread. -/
theorem isFresh_unknown (h : s.isFresh u = true) : s.suspended u = none ∧ Unknown u s.kernel := by
  simp only [CmsisKernel.isFresh, Kernel.knows, Bool.and_eq_true, Bool.not_eq_true', decide_eq_false_iff_not,
    not_exists, not_or, Option.isNone_iff_eq_none] at h
  exact h

namespace CmsisOk

/-- INTERNAL: an awake thread waits for nothing. -/
theorem unlinked (h : CmsisOk cfg s) (hawake : (s.kernel.tasks i).isSleeping = false) :
    (s.kernel.tasks i).waitObj.syncObj = none := by
  by_contra hlinked
  obtain ⟨o, ho⟩ := Option.ne_none_iff_exists'.mp hlinked
  have hasleep := (h.rest.1.slot i).sleeping ho
  rw [KernelTask.isSleeping_eq_false_iff] at hawake
  exact hawake.not_gt hasleep

/-- INTERNAL: nor does the caller of a function. -/
theorem caller_notWaiting (h : CmsisOk cfg s) (hcall : s.mayCall (some i) = true)
    (hi : (s.kernel.tasks i).user = some u) : NotWaiting s.kernel u := by
  intro j hj
  obtain rfl := h.single.bound j i u (Good.findTaskByUserTask_busy hj) hi
  exact h.unlinked (mayCall_awake hcall)

/-- INTERNAL: a marked thread makes no call. -/
theorem caller_ne (h : CmsisOk cfg s) (hmark : s.suspended u = some true) (hi : (s.kernel.tasks i).user = some u)
    {j : Fin n} (hcall : s.mayCall (some j) = true) : j ≠ i := by
  rintro rfl
  have hawake := mayCall_awake hcall
  rw [((h.marked u hmark).parked j hi).isSleeping] at hawake
  cases hawake

/-- INTERNAL: a step that makes the call `e` into the kernel. -/
theorem of_step {s' : CmsisKernel n σ} {e : KernelEvent n} (hcfg : WeightsOk σ cfg) (hhrt : cfg.isHrtMode = false)
    (h : CmsisOk cfg s) (hcareful : Careful cfg s.kernel e)
    (hnew : ∀ v, KernelEvent.adds e = some v → s.isFresh v = true) (hkernel : s'.kernel = s.kernel.step cfg e)
    (hmark : ∀ u, s'.suspended u = some true → s.suspended u = some true ∨ Dormant u s'.kernel)
    (hspares : ∀ u i, s.suspended u = some true → s'.suspended u = some true →
      (s.kernel.tasks i).user = some u → Spares s.kernel i e) : CmsisOk cfg s' := by
  refine ⟨?_, ?_, fun u hu => ?_⟩
  · rw [hkernel]
    exact step_rest hcfg h.rest hcareful
  · rw [hkernel]
    exact h.single.step h.rest.1.linked (fun v hv => (isFresh_unknown (hnew v hv)).2)
  · obtain hold | hdormant := hmark u hu
    · rw [hkernel]
      refine (h.marked u hold).step h.rest.1.linked hhrt (fun i hi => hspares u i hold hu hi) (fun hadd => ?_)
      have hnone := (isFresh_unknown (hnew u hadd)).1
      rw [hold] at hnone
      cases hnone
    · exact hdormant

theorem osThreadNew (hcfg : WeightsOk σ cfg) (hhrt : cfg.isHrtMode = false) (h : CmsisOk cfg s) {v : TId}
    (hfresh : s.isFresh v = true) : CmsisOk cfg (s.osThreadNew cfg c v) := by
  obtain ⟨e, he, hadds, hcareful, hspares⟩ : ∃ e : KernelEvent n,
      (s.osThreadNew cfg c v).kernel = s.kernel.step cfg e ∧ KernelEvent.adds e = some v ∧
        Careful cfg s.kernel e ∧ ∀ i, Spares s.kernel i e := by
    cases c with
    | none => exact ⟨.addTask v, rfl, rfl, trivial, fun _ => trivial⟩
    | some i => exact ⟨.requestAddTask i v, rfl, rfl, trivial, fun _ => trivial⟩
  refine h.of_step hcfg hhrt hcareful (fun w hw => ?_) he (fun u hu => ?_) (fun _ i _ _ _ => hspares i)
  · rw [hadds] at hw
    obtain rfl := Option.some.inj hw
    exact hfresh
  · left
    have hne : u ≠ v := by
      rintro rfl
      simp [CmsisKernel.osThreadNew] at hu
    exact (Function.update_of_ne hne _ _).symm.trans hu

/-- INTERNAL: an awake thread gets the infinite sleep. -/
theorem newlyMarked (h : CmsisOk cfg s) {v : TId} (hfind : s.kernel.findTaskByUserTask v = some i)
    (hawake : (s.kernel.tasks i).isSleeping = false) : Dormant v (s.kernel.suspendTask v) := by
  have hbound := Good.findTaskByUserTask_busy hfind
  have hkernel : s.kernel.suspendTask v = s.kernel.scheduleSleep i waitInfinite := by
    simp [Kernel.suspendTask, hfind, hawake]
  have hsame : SameTasks s.kernel (s.kernel.suspendTask v) := .suspendTask s.kernel v
  refine ⟨fun j hj => ?_, fun j hj => ?_⟩
  · rw [hsame.user] at hj
    obtain rfl := h.single.bound j i v hj hbound
    have hunlinked := h.unlinked hawake
    have hneg : -waitInfinite < 0 := by decide
    rw [hkernel]
    refine ⟨?_, ?_⟩
    · simpa [Kernel.scheduleSleep, Kernel.setTask, KernelTask.scheduleSleep] using hneg
    · simpa [Kernel.scheduleSleep, Kernel.setTask, KernelTask.scheduleSleep] using hunlinked
  · rw [hsame.request] at hj
    exact h.single.apart i j v hbound hj

theorem osThreadSuspend (hcfg : WeightsOk σ cfg) (hhrt : cfg.isHrtMode = false) (h : CmsisOk cfg s) {v : TId}
    (hawake : ∀ i, s.kernel.findTaskByUserTask v = some i → (s.kernel.tasks i).isSleeping = false) :
    CmsisOk cfg (s.osThreadSuspend v) := by
  refine h.of_step (e := .suspendTask v) hcfg hhrt trivial nofun rfl (fun u hu => ?_) (fun _ _ _ _ _ => trivial)
  unfold CmsisKernel.osThreadSuspend at hu ⊢
  dsimp only at hu ⊢
  cases hfind : s.kernel.findTaskByUserTask v with
  | none =>
    rw [hfind] at hu
    exact .inl hu
  | some i =>
    rw [hfind] at hu
    dsimp only at hu
    by_cases hne : u = v
    · subst hne
      exact .inr (h.newlyMarked hfind (hawake i hfind))
    · rw [Function.update_of_ne hne] at hu
      exact .inl hu

theorem osThreadResume (hcfg : WeightsOk σ cfg) (hhrt : cfg.isHrtMode = false) (h : CmsisOk cfg s) (v : TId) :
    CmsisOk cfg (s.osThreadResume v) := by
  unfold CmsisKernel.osThreadResume
  split
  · next hmark =>
    have hne : ∀ u, Function.update s.suspended v (some false) u = some true → u ≠ v := by
      rintro u hu rfl
      rw [Function.update_self] at hu
      cases hu
    refine h.of_step (e := .resumeTask v) hcfg hhrt (h.marked v hmark).notWaiting nofun rfl (fun u hu => ?_) (fun u i _ hu hi => ?_)
    · exact .inl ((Function.update_of_ne (hne u hu) _ _).symm.trans hu)
    · exact findTaskByUserTask_ne hi (hne u hu).symm
  · exact h

theorem osThreadExit (hcfg : WeightsOk σ cfg) (hhrt : cfg.isHrtMode = false) (h : CmsisOk cfg s)
    (hcall : s.mayCall (some i) = true) : CmsisOk cfg (s.osThreadExit cfg i) := by
  unfold CmsisKernel.osThreadExit
  split
  · exact h
  · next v hv =>
    exact h.of_step (e := .scheduleTaskRemoval v) hcfg hhrt (fun _ => h.caller_notWaiting hcall hv) nofun rfl
      (fun u hu => .inl hu) (fun _ _ _ _ _ => trivial)

/-- INTERNAL: the rest of the system spares the slot of a marked thread. -/
theorem spares {e : KernelEvent n} (h : CmsisOk cfg s) (hmark : s.suspended u = some true)
    (hallows : s.allows e = true)
    (htick : ∀ t, e = .onTick t → ∀ i, (s.kernel.tasks i).user = some u → (s.kernel.tasks i).timeSleep + t < 0)
    (hi : (s.kernel.tasks i).user = some u) : Spares s.kernel i e := by
  have hother : ∀ {v : TId}, (s.suspended v).isNone = true → v ≠ u := by
    rintro v hv rfl
    rw [hmark] at hv
    cases hv
  cases e with
  | removeTask v => exact findTaskByUserTask_ne hi (hother hallows)
  | resumeTask v => exact findTaskByUserTask_ne hi (hother hallows)
  | sleepCancel v => exact findTaskByUserTask_ne hi (hother hallows)
  | sleep j t => exact h.caller_ne hmark hi hallows
  | sleepUntil j t => exact h.caller_ne hmark hi hallows
  | switchToNext j => exact h.caller_ne hmark hi hallows
  | wait j o t => exact h.caller_ne hmark hi hallows
  | taskExit j => exact h.caller_ne hmark hi hallows
  | onTick t => exact htick t rfl i hi
  | _ => exact trivial

omit [SwitchStrategy (Fin n) σ] [StrategyLists (Fin n) σ] [SleepAware (Fin n) σ] in
/-- INTERNAL: a thread that is added is new. -/
theorem adds_isFresh {e : KernelEvent n} (hallows : s.allows e = true) {v : TId}
    (hadd : KernelEvent.adds e = some v) : s.isFresh v = true := by
  cases e with
  | addTask w =>
    cases hadd
    simp only [CmsisKernel.allows, Bool.and_eq_true] at hallows
    exact hallows.2
  | requestAddTask j w =>
    cases hadd
    simp only [CmsisKernel.allows, Bool.and_eq_true] at hallows
    exact hallows.2
  | addTaskHrt _ _ _ _ => cases hallows
  | _ => cases hadd

/-- An orderly step keeps the invariant. -/
theorem step (hcfg : WeightsOk σ cfg) (hhrt : cfg.isHrtMode = false) (h : CmsisOk cfg s)
    (hev : CmsisOrderly cfg s ev) : CmsisOk cfg (s.step cfg ev) := by
  cases ev with
  | osThreadNew c v =>
    simp only [CmsisKernel.step]
    split
    · next hcall => exact h.osThreadNew hcfg hhrt (Bool.and_eq_true_iff.mp hcall).2
    · exact h
  | osThreadSuspend c v =>
    simp only [CmsisKernel.step]
    split
    · next hcall =>
      rw [Bool.and_eq_true, Option.isSome_iff_ne_none] at hcall
      refine h.osThreadSuspend hcfg hhrt (fun i hi => hev.1 ⟨hcall.1, hcall.2, ?_⟩ i hi)
      rw [hi]
      rfl
    · exact h
  | osThreadResume c v =>
    simp only [CmsisKernel.step]
    split
    · exact h.osThreadResume hcfg hhrt v
    · exact h
  | osThreadExit i =>
    simp only [CmsisKernel.step]
    split
    · next hcall => exact h.osThreadExit hcfg hhrt hcall
    · exact h
  | objDestroy v =>
    refine ⟨h.rest, h.single, fun u hu => h.marked u ?_⟩
    by_cases hne : u = v
    · subst hne
      simp [CmsisKernel.step] at hu
    · exact (Function.update_of_ne hne _ _).symm.trans hu
  | kernel e =>
    simp only [CmsisKernel.step]
    split
    · next hallows =>
      obtain ⟨hcareful, htick⟩ := hev.2 e rfl hallows
      exact h.of_step hcfg hhrt hcareful (fun v hv => adds_isFresh hallows hv) rfl (fun u hu => .inl hu)
        (fun u i hu _ hi => h.spares hu hallows (fun t ht j hj => htick t ht j u hj hu) hi)
    · exact h

theorem initial : CmsisOk cfg (CmsisKernel.initial : CmsisKernel n σ) where
  rest := rest_initial
  single := ⟨nofun, nofun, nofun⟩
  marked u hu := by cases hu

theorem run (hcfg : WeightsOk σ cfg) (hhrt : cfg.isHrtMode = false)
    (hes : Runs.Along (CmsisKernel.step cfg) (CmsisOrderly cfg) (CmsisKernel.initial : CmsisKernel n σ) es) :
    CmsisOk cfg (CmsisKernel.run cfg es : CmsisKernel n σ) :=
  hes.invariant (I := CmsisOk cfg) (fun _ _ h hev => h.step hcfg hhrt hev) initial

end CmsisOk

end Stk.Analysis
