import Stk.Analysis.CmsisSuspendRun
import Stk.Analysis.ThreadLifecycle

/-!
# Runs of a joinable thread

The stations of `Lifecycle` are an invariant of the runs of `LifecycleOrderly` steps: no join after the exit, no
detachment between the exit and the return of the joiner, no exit of a detached thread, and no `osThreadTerminate`.
In their states every promise about joiners and the control block is kept, and none of these conditions can be
dropped: `lifecycles_fail` has a run for each.
-/

set_option autoImplicit false

namespace Stk.Analysis

open Stk.Model

variable {n : ℕ} {σ : Type} [SwitchStrategy (Fin n) σ] {cfg : Config} {u : TId} {i : Fin n}
  {s : ThreadSystem n σ} {ev : ThreadEvent n} {es : List (ThreadEvent n)}

/-! ## What is promised -/

/-- What holds of the joiners and of the control block of the thread. -/
structure LifecycleKept (u : TId) (s : ThreadSystem n σ) : Prop where
  /-- No join stays blocked once `OnExit` has run. -/
  notBlocked : s.exited = true → ∀ i f, status s.sys i ≠ .blocked f
  atMostOne : joinsOk s.returns ≤ 1
  /-- Of the joiners of a thread that was not detached, one gets `osOK` once no join is under way. -/
  oneOk : s.exited = true → detachesOk s.returns = 0 → HasReturned s.returns →
    (∀ i, s.sys.pending i = none) → joinsOk s.returns = 1
  /-- The block is destroyed by the joiner or because of the detachment, once the thread has exited. -/
  destroyed : s.sys.state.destroyed = if s.exited then joinsOk s.returns + detachesOk s.returns else 0
  destroyedOnce : s.sys.state.destroyed ≤ 1
  slotFreed : s.sys.state.destroyed ≠ 0 → ∀ i, (s.sys.kernel.tasks i).user ≠ some u
  noneInside : s.sys.state.destroyed ≠ 0 → ∀ i, s.sys.pending i = none

/-- `osThreadTerminate` of a thread of the kernel succeeds and schedules its removal. -/
def TerminateRemoves (cfg : Config) (u : TId) (s : ThreadSystem n σ) : ThreadEvent n → Prop
  | .osThreadTerminate i => s.sys.kernel.canCall i = true → s.sys.state.destroyed = 0 →
    ∀ j, s.sys.kernel.findTaskByUserTask u = some j →
      (s.osThreadTerminate cfg u s.sys.kernel.isStarted).2 = .osOK ∧
        ((s.osThreadTerminate cfg u s.sys.kernel.isStarted).1.sys.kernel.tasks j).removePending = true
  | _ => True

/-! ## The conditions -/

/-- The step calls no `osThreadTerminate` of a thread of the kernel. -/
def NotTerminated (u : TId) (s : ThreadSystem n σ) : ThreadEvent n → Prop
  | .osThreadTerminate i => s.sys.kernel.canCall i = true → s.sys.state.destroyed = 0 →
    s.sys.kernel.findTaskByUserTask u = none
  | _ => True

/-- The steps that keep to the stations:

* no `osThreadJoin` of a thread that has exited, and no `osThreadTerminate`;
* no `osThreadDetach` of a thread that has exited while its joiner has not returned;
* a thread that is detached does not exit;
* the rest of the system is orderly, adds every task once and removes the thread through its exit only. -/
def LifecycleOrderly (cfg : Config) (u : TId) (s : ThreadSystem n σ) (ev : ThreadEvent n) : Prop :=
  NotTerminated u s ev ∧ match ev with
    | .osThreadDetach i => Orderly s.sys (.call i ThreadCall.osThreadDetach) ∧
      (s.sys.state.joinState = .exited → ∀ j, s.sys.pending j = none)
    | .osThreadJoin i => Orderly s.sys (.call i ThreadCall.osThreadJoin) ∧
      (s.sys.state.destroyed = 0 → s.sys.state.joinState ≠ .exited)
    | .joinReturn i => Orderly s.sys (.resume i : MonitorEvent n ThreadCall)
    | .osThreadTerminate _ => True
    | .kernel e => Orderly s.sys (.kernel e : MonitorEvent n ThreadCall) ∧ e ≠ .removeTask u ∧
      (∀ v, KernelEvent.adds e = some v → Unknown v s.sys.kernel ∧ (v = u → s.exited = false)) ∧
      (u ∈ (s.sys.step cfg (.kernel e)).kernel.exits.drop s.sys.kernel.exits.length →
        s.sys.state.joinState ≠ .detached)

/-! ## The invariant -/

/-- INTERNAL: a method binds no task and asks for none. -/
theorem method_serves (cfg : Config) (s : MonitorSystem n StkThread ThreadFrame σ) {e : MonitorEvent n ThreadCall}
    (he : ∀ e', e ≠ .kernel e') : Serves s.kernel (s.step cfg e).kernel := by
  have hnotify : ∀ (k : Kernel n σ) (ms : List (Mesa.Notify SyncId)), Serves k (ms.foldl Kernel.notify k) := by
    refine fun k ms => Serves.foldl (fun k m => ?_) ms k
    refine Serves.of_neutral (O := fun _ => False) (L := fun _ => False) ?_
    cases m with
    | one o =>
      unfold Kernel.notify Kernel.wakeOne
      dsimp only
      split
      · exact Neutral.refl k
      · exact Neutral.wakeWaitObj fun h => h.elim
    | all o =>
      exact Runs.foldl_keeps (I := fun k' : Kernel n σ => Neutral (fun _ => False) (fun _ => False) k k')
        (fun k' i _ h => h.trans (Neutral.wakeWaitObj fun h => h.elim)) (Neutral.refl k)
  have hfollow : ∀ (s : MonitorSystem n StkThread ThreadFrame σ) i (t : ThreadStretch),
      Serves s.kernel (s.follow i t).1.kernel := by
    intro s i t
    unfold MonitorSystem.follow
    dsimp only
    split
    · exact hnotify s.kernel t.notify
    · refine (hnotify s.kernel t.notify).trans ?_
      dsimp only
      have hwait : ∀ (k : Kernel n σ) o timeout, Neutral (fun _ => False) (fun _ => False) k (k.onTaskWait i o timeout) :=
        fun k o timeout => Neutral.onTaskWait not_false not_false timeout
      exact .of_neutral (hwait _ _ _)
  unfold MonitorSystem.step
  cases ht : s.stretch cfg e with
  | none =>
    rw [stepResult_none he ht]
    exact .refl _
  | some t =>
    cases e with
    | call i op =>
      rw [stepResult_call ht]
      exact hfollow s i t
    | resume i =>
      rw [stepResult_resume ht]
      refine Serves.trans ?_ (hfollow _ i t)
      exact .of_slots (fun _ => .inl rfl) (fun _ => .inl rfl)
    | isr op =>
      obtain ⟨-, r, hr⟩ := stretch_isr ht
      rw [stepResult_isr ht hr]
      exact hnotify s.kernel t.notify
    | kernel e => exact absurd rfl (he e)

/-- The invariant. -/
structure ThreadOk (u : TId) (s : ThreadSystem n σ) : Prop where
  monitor : MonitorOk s.sys
  single : Single s.sys.kernel
  gone : s.exited = true → Unknown u s.sys.kernel
  lifecycle : Lifecycle s.returns (abstract s.sys) s.exited

omit [SwitchStrategy (Fin n) σ] in
/-- INTERNAL: who is inside `osThreadJoin`. -/
theorem status_eq_idle : status s.sys i = .idle ↔ s.sys.pending i = none := by
  unfold status
  split
  · next hnone => exact ⟨fun _ => hnone, fun _ => rfl⟩
  · next f hf =>
    constructor
    · intro h
      split at h
      · cases h
      · split at h <;> cases h
    · intro h
      rw [hf] at h
      cases h

namespace ThreadOk

/-- INTERNAL: a method that takes the thread to its next station. -/
theorem invoke (h : ThreadOk u s) {e : MonitorEvent n ThreadCall} (he : ∀ e', e ≠ .kernel e')
    (hord : Orderly s.sys e)
    (hstation : ∀ r c', Mesa.Step (program StkThread) (abstract s.sys) (abstractEvent e) r c' →
      Lifecycle (s.returns ++ r.toList) c' s.exited) : ThreadOk u (s.invoke cfg e) := by
  have hserves := method_serves cfg s.sys he
  obtain ⟨hok, hsim⟩ := step_simulates cfg h.monitor hord
  refine ⟨hok, hserves.single h.single, fun hexited => hserves.unknown (h.gone hexited), ?_⟩
  rcases hsim with hsim | hsim
  · exact hstation _ _ hsim
  · -- the event is none for the thread
    obtain ⟨hr, hstate, hexpires⟩ := hsim
    have hnext := h.lifecycle.expires hexpires
    have heq : abstract (s.sys.step cfg e) = ⟨(abstract s.sys).state, (abstract (s.sys.step cfg e)).status⟩ := by
      rw [← hstate]
    unfold ThreadSystem.invoke
    dsimp only
    rw [hr, Option.toList_none, List.append_nil]
    change Lifecycle s.returns (abstract (s.sys.step cfg e)) s.exited
    rw [heq]
    exact hnext

theorem osThreadDetach (h : ThreadOk u s) (hlive : s.sys.state.destroyed = 0)
    (hord : Orderly s.sys (.call i ThreadCall.osThreadDetach))
    (hidle : s.sys.state.joinState = .exited → ∀ j, s.sys.pending j = none) :
    ThreadOk u (s.invoke cfg (.call i .osThreadDetach)) := by
  refine h.invoke nofun hord fun r c' hstep => ?_
  obtain ⟨-, t, ⟨ticks, rfl⟩, hfollows⟩ := hstep
  exact h.lifecycle.osThreadDetach hlive (fun hx j => status_eq_idle.mpr (hidle hx j)) hfollows

theorem osThreadJoin (h : ThreadOk u s) (hlive : s.sys.state.destroyed = 0)
    (hord : Orderly s.sys (.call i ThreadCall.osThreadJoin)) (hnot : s.sys.state.joinState ≠ .exited) :
    ThreadOk u (s.invoke cfg (.call i .osThreadJoin)) := by
  refine h.invoke nofun hord fun r c' hstep => ?_
  obtain ⟨hi, t, ⟨ticks, rfl⟩, hfollows⟩ := hstep
  exact h.lifecycle.osThreadJoin hlive hnot hi hfollows

theorem joinReturn (h : ThreadOk u s) (hord : Orderly s.sys (.resume i : MonitorEvent n ThreadCall)) :
    ThreadOk u (s.invoke cfg (.resume i)) := by
  refine h.invoke nofun hord fun r c' hstep => ?_
  obtain ⟨f, b, t, hi, ⟨ticks, rfl⟩, hfollows⟩ := hstep
  refine h.lifecycle.joinFrom (i := i) (fun hidle => ?_) hfollows
  rw [hi] at hidle
  revert hidle
  split <;> nofun

/-- INTERNAL: a call into the kernel, before `OnExit`. -/
theorem kernelStep (cfg : Config) (h : ThreadOk u s) {e : KernelEvent n} (hord : Orderly s.sys (.kernel e : MonitorEvent n ThreadCall))
    (hadds : ∀ v, KernelEvent.adds e = some v → Unknown v s.sys.kernel ∧ (v = u → s.exited = false)) :
    ThreadOk u { s with sys := s.sys.step cfg (.kernel e) } ∧
      (s.sys.step cfg (.kernel e)).state = s.sys.state ∧
      ((s.sys.step cfg (.kernel e)).kernel = s.sys.kernel ∨
        (s.sys.step cfg (.kernel e)).kernel = s.sys.kernel.step cfg e) := by
  have hlinked := h.monitor.linked
  have hkernel : (s.sys.step cfg (.kernel e)).kernel = s.sys.kernel ∨
      (s.sys.step cfg (.kernel e)).kernel = s.sys.kernel.step cfg e := by
    unfold MonitorSystem.step
    rcases stepResult_kernel cfg s.sys e with hsame | ⟨hstep, -, -⟩
    · rw [hsame]
      exact .inl rfl
    · rw [hstep]
      exact .inr rfl
  obtain ⟨hok, hsim⟩ := step_simulates cfg h.monitor hord
  have hquiet : Mesa.Step (program StkThread) (abstract s.sys) .quiet (s.sys.stepResult cfg (.kernel e)).2
      (abstract (s.sys.step cfg (.kernel e))) := by
    rcases hsim with hsim | hsim
    · exact hsim
    · exact hsim
  obtain ⟨-, hstate, hexpires⟩ := hquiet
  refine ⟨⟨hok, ?_, fun hexited => ?_, ?_⟩, hstate, hkernel⟩
  · rcases hkernel with hsame | hstep
    · dsimp only
      rw [hsame]
      exact h.single
    · dsimp only
      rw [hstep]
      exact h.single.step hlinked fun v hv => (hadds v hv).1
  · rcases hkernel with hsame | hstep
    · dsimp only
      rw [hsame]
      exact h.gone hexited
    · dsimp only
      rw [hstep]
      refine (h.gone hexited).step hlinked fun hadd => ?_
      have hnot := (hadds u hadd).2 rfl
      rw [hnot] at hexited
      cases hexited
  · have hnext := h.lifecycle.expires hexpires
    have heq : abstract (s.sys.step cfg (.kernel e)) =
        ⟨(abstract s.sys).state, (abstract (s.sys.step cfg (.kernel e))).status⟩ := by
      rw [← hstate]
    dsimp only
    rw [heq]
    exact hnext

theorem kernelCall (hsync : cfg.isSyncMode = true) (h : ThreadOk u s) {e : KernelEvent n}
    (hev : LifecycleOrderly cfg u s (.kernel e)) : ThreadOk u (s.kernelCall cfg u e) := by
  obtain ⟨-, hord, hremove, hadds, hnot⟩ := hev
  obtain ⟨hok, hstate, hkernel⟩ := h.kernelStep cfg hord hadds
  unfold ThreadSystem.kernelCall
  dsimp only
  split
  · next hexit =>
    have hnext : (s.sys.step cfg (.kernel e)).kernel = s.sys.kernel.step cfg e := by
      rcases hkernel with hsame | hstep
      · rw [hsame, List.drop_length] at hexit
        cases hexit
      · exact hstep
    have hexit' : u ∈ (s.sys.kernel.step cfg e).exits.drop s.sys.kernel.exits.length := by
      rw [← hnext]
      exact hexit
    -- the exit is the first one
    have hfirst : s.exited = false := by
      by_contra hexited
      exact (h.gone (Bool.eq_true_of_not_eq_false hexited)).not_exits h.monitor.linked cfg e hexit'
    have hunknown : Unknown u (s.sys.step cfg (.kernel e)).kernel := by
      rw [hnext]
      exact exits_unknown h.monitor.linked h.single hremove hexit'
    have hserves := method_serves cfg (s.sys.step cfg (.kernel e)) (e := .isr .onExit) nofun
    obtain ⟨hok', hsim⟩ := step_simulates cfg hok.monitor (e := (.isr ThreadCall.onExit)) trivial
    refine ⟨hok', hserves.single hok.single, fun _ => hserves.unknown hunknown, ?_⟩
    have hlife := hok.lifecycle
    dsimp only at hlife
    rw [hfirst] at hlife
    have hresult : ((s.sys.step cfg (.kernel e)).stepResult cfg (.isr ThreadCall.onExit)).2 = some .onExit := by
      have hstretch : (s.sys.step cfg (.kernel e)).stretch cfg (.isr ThreadCall.onExit) =
          some (s.sys.step cfg (.kernel e)).state.onExit := by
        simp only [MonitorSystem.stretch]
        unfold Monitor.call
        simp [instMonitorStkThreadThreadCallThreadFrameThreadReturn, StkThread.call, StkThread.onExit, hsync]
      rw [stepResult_isr hstretch rfl]
    rcases hsim with hsim | hsim
    · obtain ⟨t, ⟨ticks, rfl⟩, hfollows⟩ := hsim
      refine hlife.onExit ?_ hfollows
      rw [show (abstract (s.sys.step cfg (.kernel e))).state = s.sys.state from hstate]
      exact hnot hexit
    · have hnone := hsim.1
      rw [hresult] at hnone
      cases hnone
  · exact hok

/-- An orderly step keeps the invariant. -/
theorem step (hsync : cfg.isSyncMode = true) (h : ThreadOk u s) (hev : LifecycleOrderly cfg u s ev) :
    ThreadOk u (s.step cfg u ev) := by
  cases ev with
  | osThreadDetach i =>
    obtain ⟨-, hord, hidle⟩ := hev
    simp only [ThreadSystem.step]
    split
    · next hlive => exact h.osThreadDetach hlive hord hidle
    · exact h
  | osThreadJoin i =>
    obtain ⟨-, hord, hnot⟩ := hev
    simp only [ThreadSystem.step]
    split
    · exact h
    · next hlive =>
      have hlive : s.sys.state.destroyed = 0 := not_not.mp hlive
      split
      · split
        · exact ⟨h.monitor, h.single, h.gone, h.lifecycle.refused ⟨nofun, nofun⟩ nofun⟩
        · exact h
      · exact h.osThreadJoin hlive hord (hnot hlive)
  | joinReturn i => exact h.joinReturn hev.2
  | osThreadTerminate i =>
    simp only [ThreadSystem.step]
    split
    · next hcall =>
      -- the kernel that runs the caller is not inactive
      have hstarted : s.sys.kernel.isStarted = true := by
        simp only [Bool.and_eq_true, Kernel.canCall] at hcall
        exact hcall.1.1.1
      rw [hstarted]
      exact h
    · exact h
  | kernel e => exact h.kernelCall hsync hev

theorem initial : ThreadOk u (ThreadSystem.initial : ThreadSystem n σ) where
  monitor := monitorOk_initial _
  single := ⟨nofun, nofun, nofun⟩
  gone h := nomatch h
  lifecycle := .running (fun _ => rfl) (fun h => by rcases h with h | h <;> cases h) rfl

theorem run (hsync : cfg.isSyncMode = true)
    (hes : Runs.Along (ThreadSystem.step cfg u) (LifecycleOrderly cfg u) (ThreadSystem.initial : ThreadSystem n σ) es) :
    ThreadOk u (ThreadSystem.run cfg u es : ThreadSystem n σ) :=
  hes.invariant (I := ThreadOk u) (fun _ _ h hev => h.step hsync hev) initial

omit [SwitchStrategy (Fin n) σ] in
/-- What is promised holds at every station. -/
theorem kept (h : ThreadOk u s) : LifecycleKept u s where
  notBlocked hexited i f hi := by
    have hlife := h.lifecycle
    rw [hexited] at hlife
    exact hlife.not_blocked i f hi
  atMostOne := h.lifecycle.joins_le
  oneOk hexited hdetached hreturned hnone := by
    have hlife := h.lifecycle
    rw [hexited] at hlife
    exact hlife.one_ok hdetached hreturned fun i => status_eq_idle.mpr (hnone i)
  destroyed := h.lifecycle.destroyed_eq
  destroyedOnce := h.lifecycle.destroyed_le
  slotFreed hdestroyed i := by
    have heq := h.lifecycle.destroyed_eq
    cases hexited : s.exited with
    | true => exact (h.gone hexited i).1
    | false =>
      rw [hexited] at heq
      exact absurd heq hdestroyed
  noneInside hdestroyed i := status_eq_idle.mp (h.lifecycle.noJoiner hdestroyed i)

end ThreadOk

/-! ## Runs -/

/-- `osThreadTerminate` removes the thread in no run in which it is called. -/
theorem terminateRemoves_iff : Runs.Along (ThreadSystem.step cfg u) (TerminateRemoves cfg u)
      (ThreadSystem.initial : ThreadSystem n σ) es ↔
    Runs.Along (ThreadSystem.step cfg u) (NotTerminated u) (ThreadSystem.initial : ThreadSystem n σ) es := by
  constructor
  · refine Runs.Along.mono fun s ev hev => ?_
    cases ev with
    | osThreadTerminate i =>
      intro hcall hlive
      by_contra hfind
      obtain ⟨j, hj⟩ := Option.ne_none_iff_exists'.mp hfind
      have hstarted : s.sys.kernel.isStarted = true := by
        simp only [Kernel.canCall, Bool.and_eq_true] at hcall
        exact hcall.1.1
      have hok := (hev hcall hlive j hj).1
      rw [hstarted] at hok
      cases hok
    | _ => exact trivial
  · refine Runs.Along.mono fun s ev hev => ?_
    cases ev with
    | osThreadTerminate i =>
      intro hcall hlive j hj
      rw [hev hcall hlive] at hj
      cases hj
    | _ => exact trivial

/-- **The end of a joinable thread.**  In every run of the CMSIS kernel, of any number of threads,
`osThreadTerminate` schedules the removal of the thread whenever it is called for it if and only if it never is;
and in every state of a run whose steps are orderly, what is promised to joiners and of the control block is
kept. -/
theorem run_threadLifecycle (c : CmsisConfig) (u : TId) (es : List (ThreadEvent n)) :
    (Runs.Along (ThreadSystem.step c.kernel u) (TerminateRemoves c.kernel u)
        (ThreadSystem.initial : ThreadSystem n (FixedPriority 32 (Fin n))) es ↔
      Runs.Along (ThreadSystem.step c.kernel u) (NotTerminated u)
        (ThreadSystem.initial : ThreadSystem n (FixedPriority 32 (Fin n))) es) ∧
    (Runs.Along (ThreadSystem.step c.kernel u) (LifecycleOrderly c.kernel u)
        (ThreadSystem.initial : ThreadSystem n (FixedPriority 32 (Fin n))) es →
      ∀ ds, ds <+: es → LifecycleKept u (ThreadSystem.run c.kernel u ds : ThreadSystem n (FixedPriority 32 (Fin n)))) := by
  refine ⟨terminateRemoves_iff, fun hes ds hds => ?_⟩
  obtain ⟨rest, rfl⟩ := hds
  obtain ⟨hbefore, -⟩ := Runs.along_append.mp hes
  exact (ThreadOk.run rfl hbefore).kept

/-- Threads 0 and 1 are created and the kernel is started. -/
def twoThreads : List (ThreadEvent 2) := [.kernel (.addTask 0), .kernel (.addTask 1), .kernel .onStart]

/-- Thread 1 returns from `Run` and is removed. -/
def threadReturns : List (ThreadEvent 2) :=
  [.kernel (.onTick 1), .kernel (.taskExit 1), .kernel (.onTick 1), .kernel (.onTick 1)]

/-- Thread 0 joins thread 1, which returns. -/
def joinedThread : List (ThreadEvent 2) := twoThreads ++ .osThreadJoin 0 :: threadReturns ++ [.joinReturn 0]

theorem joinedThread_kept : ∀ ds, ds <+: joinedThread → LifecycleKept 1
    (ThreadSystem.run cmsisConfig.kernel 1 ds : ThreadSystem 2 (FixedPriority 32 (Fin 2))) := by
  apply (run_threadLifecycle cmsisConfig 1 joinedThread).2
  have hquiet : ∀ {s : ThreadSystem 2 (FixedPriority 32 (Fin 2))} {e : KernelEvent 2}, KernelEvent.adds e = none →
      e ≠ .removeTask 1 → Orderly s.sys (.kernel e : MonitorEvent 2 ThreadCall) →
      s.sys.state.joinState ≠ .detached → LifecycleOrderly cmsisConfig.kernel 1 s (.kernel e) := by
    intro s e hadds hremove hord hnot
    refine ⟨trivial, hord, hremove, fun v hv => ?_, fun _ => hnot⟩
    rw [hadds] at hv
    cases hv
  refine ⟨⟨trivial, trivial, nofun, ?_, ?_⟩, ⟨trivial, trivial, nofun, ?_, ?_⟩, hquiet rfl nofun trivial ?_,
    ⟨trivial, ?_⟩, hquiet rfl nofun ?_ ?_, hquiet rfl nofun ?_ ?_, hquiet rfl nofun ?_ ?_, hquiet rfl nofun ?_ ?_,
    ⟨trivial, ?_⟩, trivial⟩
  · rintro v ⟨⟩
    exact ⟨by decide, by simp⟩
  · decide +kernel
  · rintro v ⟨⟩
    exact ⟨by decide +kernel, fun _ => by decide +kernel⟩
  · decide +kernel
  all_goals decide +kernel

/-- Thread 0 joins a thread that has returned and is blocked for good; it terminates a thread, which goes on; a
thread that it detaches returns, and nobody destroys its block; and thread 2 detaches a thread that has returned,
and its block is destroyed while the joiner is in `osThreadJoin`. -/
theorem lifecycles_fail :
    ¬LifecycleKept 1 (ThreadSystem.run cmsisConfig.kernel 1 (twoThreads ++ threadReturns ++ [.osThreadJoin 0]) :
        ThreadSystem 2 (FixedPriority 32 (Fin 2))) ∧
      ¬Runs.Along (ThreadSystem.step cmsisConfig.kernel 1) (TerminateRemoves cmsisConfig.kernel 1)
        (ThreadSystem.initial : ThreadSystem 2 (FixedPriority 32 (Fin 2))) (twoThreads ++ [.osThreadTerminate 0]) ∧
      ¬LifecycleKept 1 (ThreadSystem.run cmsisConfig.kernel 1 (twoThreads ++ .osThreadDetach 0 :: threadReturns) :
        ThreadSystem 2 (FixedPriority 32 (Fin 2))) ∧
      ¬LifecycleKept 1 (ThreadSystem.run cmsisConfig.kernel 1
        [.kernel (.addTask 0), .kernel (.addTask 1), .kernel (.addTask 2), .kernel .onStart, .osThreadJoin 0,
          .kernel (.onTick 1), .kernel (.taskExit 1), .kernel (.onTick 1), .kernel (.onTick 1), .osThreadDetach 2] :
        ThreadSystem 3 (FixedPriority 32 (Fin 3))) := by
  refine ⟨fun h => ?_, fun h => ?_, fun h => ?_, fun h => ?_⟩
  · have hblocked := h.notBlocked (by decide +kernel) 0 .osThreadJoin
    revert hblocked
    decide +kernel
  · have hremoves := (Runs.along_append.mp h).2.1 (by decide +kernel) (by decide +kernel) 1 (by decide +kernel)
    have hok := hremoves.1
    revert hok
    decide +kernel
  · have hdestroyed := h.destroyed
    revert hdestroyed
    decide +kernel
  · have hnone := h.noneInside (by decide +kernel) 0
    revert hnone
    decide +kernel

end Stk.Analysis
