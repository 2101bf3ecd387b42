import Stk.Analysis.EventFlagsRun

/-!
# When event flags report a timeout

The tick that ends a wait unlinks the task, and the task returns `ERROR_TIMEOUT` once it runs, without
another look at the flags.  A `Set` between the two satisfies the predicate and notifies nobody.  A run
without such a `Set` reports a timeout only while the predicate is unsatisfied, and with one the report
is wrong (`run_timeoutReports`).
-/

set_option autoImplicit false

namespace Stk.Analysis

open Stk.Model Stk.Model.Kernel EventFlags

/-! ## What a `Wait` that returns a timeout has seen -/

section Stretches

variable {m : EventFlags} {flags options : BitVec 32} {ticks : ℤ}

/-- INTERNAL: what a satisfied `Wait` returns is no error. -/
theorem satisfied_not_timeout (hvalid : isValid flags = true) :
    (m.satisfied flags options).next ≠ .done errorTimeout := by
  intro h
  have hr := Mesa.Next.done.inj h
  simp only [isValid, Bool.and_eq_true, decide_eq_true_eq] at hvalid
  have hmask : errorTimeout &&& errorMask = 0 := by
    rw [← hr]
    split
    · exact hvalid.2
    · rw [BitVec.and_assoc, hvalid.2]
      simp
  exact absurd hmask (by decide)

/-- INTERNAL: the loop of `Wait` returns a timeout only with an unsatisfied predicate. -/
theorem waitFrom_timeout (hvalid : isValid flags = true) {timedWait : Bool} {deadline : ℤ}
    (h : (m.waitFrom ticks flags options timedWait deadline).next = .done errorTimeout) :
    (m.waitFrom ticks flags options timedWait deadline).state.isSatisfied flags options = false := by
  by_cases hsat : m.isSatisfied flags options = true
  · have heq : m.waitFrom ticks flags options timedWait deadline = m.satisfied flags options := by
      unfold waitFrom
      rw [if_pos hsat]
    rw [heq] at h
    exact absurd h (satisfied_not_timeout hvalid)
  · have hno : m.isSatisfied flags options = false := by simpa using hsat
    obtain ⟨next, heq, -⟩ := waitFrom_unsatisfied hno timedWait deadline
    rw [heq]
    exact hno

theorem wait_timeout {insideIsr : Bool} {timeout started : ℤ}
    (h : (m.wait ticks insideIsr flags options timeout started).next = .done errorTimeout) :
    (m.wait ticks insideIsr flags options timeout started).state.isSatisfied flags options = false := by
  unfold EventFlags.wait at h ⊢
  split at h
  · exact absurd (Mesa.Next.done.inj h) (by decide)
  · next hvalid =>
    rw [if_neg hvalid]
    split at h
    · exact absurd (Mesa.Next.done.inj h) (by decide)
    · next hisr =>
      rw [if_neg hisr]
      exact waitFrom_timeout (by simpa using hvalid) h

end Stretches

/-! ## Runs -/

section System

variable {n : ℕ} {σ : Type} [SwitchStrategy (Fin n) σ] {cfg : Config} {s : MonitorSystem n EventFlags FlagsFrame σ}

/-- The call sets no flags that satisfy the predicate of a task whose wait has timed out and that has not
run since. -/
def SparesLate (s : MonitorSystem n EventFlags FlagsFrame σ) : MonitorEvent n FlagsOp → Prop
  | .call _ (.set flags) | .isr (.set flags) =>
    ∀ i f, s.pending i = some f → (s.kernel.tasks i).waitObj.timeout = true →
      (s.state.set flags).state.isSatisfied f.flags f.options = false
  | _ => True

/-- A `Wait` that returns `ERROR_TIMEOUT` in the event leaves its predicate unsatisfied. -/
def ReportsTruly (cfg : Config) (s : MonitorSystem n EventFlags FlagsFrame σ) (e : MonitorEvent n FlagsOp) :
    Prop :=
  ∀ mask options, request s e = some (mask, options) → (s.stepResult cfg e).2 = some errorTimeout →
    (s.step cfg e).state.isSatisfied mask options = false

/-- The predicates of the tasks whose wait has timed out are unsatisfied. -/
def LateUnmet (s : MonitorSystem n EventFlags FlagsFrame σ) : Prop :=
  ∀ i f, s.pending i = some f → (s.kernel.tasks i).waitObj.timeout = true →
    s.state.isSatisfied f.flags f.options = false

omit [SwitchStrategy (Fin n) σ] in
/-- INTERNAL: a stretch leaves the late tasks without their flags. -/
theorem LateUnmet.stretch (h : LateUnmet s) (hok : FlagsOk s) {e : MonitorEvent n FlagsOp} {t : FlagsStretch}
    (ht : s.stretch cfg e = some t) (he : SparesLate s e) {i : Fin n} {f : FlagsFrame}
    (hf : s.pending i = some f) (hlate : (s.kernel.tasks i).waitObj.timeout = true) :
    t.state.isSatisfied f.flags f.options = false := by
  by_cases hset : MonitorEvent.isSet e = true
  · cases e with
    | call j op =>
      obtain ⟨-, rfl⟩ := stretch_call ht
      cases op with
      | set flags => exact he i f hf hlate
      | _ => cases hset
    | isr op =>
      obtain ⟨rfl, -⟩ := stretch_isr ht
      cases op with
      | set flags => exact he i f hf hlate
      | _ => cases hset
    | _ => cases hset
  · rcases (hok.stretchOk ht).notify with ⟨hall, -⟩ | ⟨-, x, hx⟩
    · rw [stretch_notify ht (by simpa using hset)] at hall
      cases hall
    · by_contra hsat
      have hbefore := isSatisfied_of_and hx (by simpa using hsat)
      rw [h i f hf hlate] at hbefore
      cases hbefore

theorem LateUnmet.step (h : LateUnmet s) (hok : FlagsOk s) (hblocked : Blocked s) (hsync : cfg.isSyncMode = true)
    {e : MonitorEvent n FlagsOp} (he : SparesLate s e) : LateUnmet (s.step cfg e) := by
  intro i f hf hlate
  cases ht : s.stretch cfg e with
  | none =>
    obtain ⟨hstate, -, hpending⟩ := stepResult_of_none ht
    have hbefore := hpending i f hf
    rw [hstate]
    obtain ⟨hwait, -⟩ := hblocked.waitStep hsync hbefore (e := e) (fun _ => ht)
    cases hwait with
    | kept hobj _ _ =>
      rw [hobj] at hlate
      exact h i f hbefore hlate
    | counted _ _ _ hlinked _ _ hobj =>
      rw [hobj] at hlate
      exact absurd ((hblocked.armed i f hbefore hlinked).2.symm.trans hlate) Bool.false_ne_true
    | expired _ _ _ hlinked _ _ _ =>
      -- until this tick the task was linked, and so its predicate unsatisfied
      exact hok.unsatisfied i f hbefore (hblocked.armed i f hbefore hlinked).1
    | signalled _ _ hobj =>
      rw [hobj] at hlate
      cases hlate
  | some t =>
    obtain ⟨hstate, -, hpending⟩ := stepResult_some ht
    have hticks := stretch_ticks ht
    rw [hstate]
    rcases hpending i f hf with ⟨hcaller, hbefore⟩ | ⟨hcaller, hnext⟩
    · have hother : e = .resume i → s.stretch cfg e = none := by
        rintro rfl
        exact absurd rfl hcaller
      obtain ⟨hwait, -⟩ := hblocked.waitStep hsync hbefore hother
      cases hwait with
      | kept hobj _ _ =>
        rw [hobj] at hlate
        exact h.stretch hok ht he hbefore hlate
      | counted _ _ _ hlinked _ _ hobj =>
        rw [hobj] at hlate
        exact absurd ((hblocked.armed i f hbefore hlinked).2.symm.trans hlate) Bool.false_ne_true
      | expired d hpos hlater _ _ _ _ => omega
      | signalled _ _ hobj =>
        rw [hobj] at hlate
        cases hlate
    · -- the task has just begun to wait
      rw [(stretch_begins ht hcaller hf).2] at hlate
      cases hlate

/-- INTERNAL: a report of a timeout. -/
theorem LateUnmet.reportsTruly (h : LateUnmet s) (hok : FlagsOk s) (e : MonitorEvent n FlagsOp) :
    ReportsTruly cfg s e := by
  intro mask options he hr
  cases ht : s.stretch cfg e with
  | none =>
    obtain ⟨-, hnone, -⟩ := stepResult_of_none ht
    rw [hnone] at hr
    cases hr
  | some t =>
    obtain ⟨hstate, hresult, -⟩ := stepResult_some ht
    have hdone := (hresult _).mp hr
    rw [hstate]
    cases e with
    | call i op =>
      obtain ⟨-, rfl⟩ := stretch_call ht
      cases op with
      | wait insideIsr flags options timeout started =>
        cases he
        exact wait_timeout hdone
      | _ => cases he
    | isr op =>
      obtain ⟨rfl, -⟩ := stretch_isr ht
      cases op with
      | wait insideIsr flags options timeout started =>
        cases he
        exact wait_timeout hdone
      | _ => cases he
    | resume i =>
      obtain ⟨f, r, hf, hwait, rfl⟩ := stretch_resume ht
      simp only [request, hf, Option.map_some, Option.some.injEq, Prod.mk.injEq] at he
      obtain ⟨rfl, rfl⟩ := he
      cases r with
      | signal => exact waitFrom_timeout (hok.valid i f hf) hdone
      | timeout => exact h i f hf (waitResult_flag hwait)
    | kernel e => cases ht

/-- INTERNAL: a late `Set` makes the next report of the task wrong. -/
theorem lateSet_misreports (hblocked : Blocked s) {e : MonitorEvent n FlagsOp} {t : FlagsStretch}
    (ht : s.stretch cfg e = some t) (hset : MonitorEvent.isSet e = true) {i : Fin n} {f : FlagsFrame}
    (hf : s.pending i = some f) (hresult : s.kernel.waitResult i = some .timeout)
    (hsat : t.state.isSatisfied f.flags f.options = true) : ¬ ReportsTruly cfg (s.step cfg e) (.resume i) := by
  have hflag : (s.kernel.tasks i).waitObj.timeout = true := waitResult_flag hresult
  have hnone : (s.kernel.tasks i).waitObj.syncObj = none := by
    by_contra hlinked
    rw [(hblocked.armed i f hf hlinked).2] at hflag
    cases hflag
  have hstate := (stepResult_some ht).1
  have hslot := notifies_sameSlot hnone t.notify
  -- the task that calls `Set` is another one
  have hafter : (s.step cfg e).pending i = some f ∧ SameSlot i s.kernel (s.step cfg e).kernel := by
    unfold MonitorSystem.step
    cases e with
    | call j op =>
      obtain ⟨hcall, rfl⟩ := stretch_call ht
      have hji : i ≠ j := by
        rintro rfl
        simp only [Kernel.canCall, Bool.and_eq_true, decide_eq_true_eq] at hcall
        exact hblocked.called i f hf hcall.2
      rw [stepResult_call ht]
      cases op with
      | set flags =>
        obtain ⟨r, hr⟩ : ∃ r, (Monitor.call s.kernel.ticks s.state (FlagsOp.set flags)).next = .done r := by
          simp only [Monitor.call, EventFlags.call, EventFlags.set]
          split
          · exact ⟨_, rfl⟩
          · exact ⟨_, rfl⟩
        unfold MonitorSystem.follow
        rw [hr]
        refine ⟨?_, hslot⟩
        dsimp only
        rw [Function.update_of_ne hji]
        exact hf
      | _ => cases hset
    | isr op =>
      obtain ⟨-, r, hr⟩ := stretch_isr ht
      rw [stepResult_isr ht hr]
      exact ⟨hf, hslot⟩
    | resume j => cases hset
    | kernel e => cases hset
  obtain ⟨hpending, hsame⟩ := hafter
  have hagain : (s.step cfg e).kernel.waitResult i = some .timeout := by
    rw [← hresult]
    unfold Kernel.waitResult KernelTask.isSleeping
    rw [hsame.call, hsame.time, hsame.waitObj]
  have hresume : (s.step cfg e).stretch cfg (.resume i) =
      some ⟨(s.step cfg e).state, [], .done errorTimeout⟩ := by
    simp only [MonitorSystem.stretch, hpending, hagain]
    rfl
  obtain ⟨hkept, hdone, -⟩ := stepResult_some hresume
  intro htruly
  have hunsat := htruly f.flags f.options (by simp [request, hpending]) ((hdone _).mpr rfl)
  rw [hkept, hstate, hsat] at hunsat
  cases hunsat

/-- **Timeouts of event flags.**  In a run in which no `Set` satisfies the predicate of a task whose wait has
timed out and that has not run since, `Wait` returns `ERROR_TIMEOUT` only while its predicate is unsatisfied.
After every run, a `Set` that satisfies it for a task that is about to run makes that task's report wrong. -/
theorem run_timeoutReports (hsync : cfg.isSyncMode = true) (state : EventFlags)
    (es : List (MonitorEvent n FlagsOp)) :
    let s : MonitorSystem n EventFlags FlagsFrame σ := MonitorSystem.run cfg state es
    (Runs.Along (MonitorSystem.step cfg) SparesLate
        (MonitorSystem.initial state : MonitorSystem n EventFlags FlagsFrame σ) es →
      ∀ e, ReportsTruly cfg s e) ∧
    ∀ e t i f, s.stretch cfg e = some t → MonitorEvent.isSet e = true → s.pending i = some f →
      s.kernel.waitResult i = some .timeout → t.state.isSatisfied f.flags f.options = true →
        ¬ ReportsTruly cfg (s.step cfg e) (.resume i) := by
  intro s
  constructor
  · intro hes e
    have hend : LateUnmet s ∧ FlagsOk s ∧ Blocked s := by
      apply hes.invariant (I := fun s : MonitorSystem n EventFlags FlagsFrame σ =>
        LateUnmet s ∧ FlagsOk s ∧ Blocked s)
      · intro s e h he
        exact ⟨h.1.step h.2.1 h.2.2 hsync he, h.2.1.step e, h.2.2.step hsync e⟩
      · exact ⟨(fun _ _ hf => nomatch hf), .initial state, .initial state⟩
    exact hend.1.reportsTruly hend.2.1 e
  · intro e t i f ht hset hf hresult hsat
    exact lateSet_misreports (.run hsync state es) ht hset hf hresult hsat

end System

section Runs

/-- Task 0 waits one tick for flag 1, and the tick passes. -/
def oneTickWait : List (MonitorEvent 2 FlagsOp) :=
  twoTasks.map .kernel ++ [.call 0 (.wait false 1 0 1 1), .kernel (.onTick 1)]

/-- The wait of task 0. -/
def oneTickFrame : FlagsFrame := ⟨1, 0, true, 2, 1⟩

theorem oneTickWait_reports :
    ReportsTruly syncConfig (MonitorSystem.run syncConfig ⟨0⟩ oneTickWait :
        MonitorSystem 2 EventFlags FlagsFrame (RoundRobin (Fin 2))) (.resume 0) ∧
      ¬ ReportsTruly syncConfig ((MonitorSystem.run syncConfig ⟨0⟩ oneTickWait :
        MonitorSystem 2 EventFlags FlagsFrame (RoundRobin (Fin 2))).step syncConfig (.isr (.set 1))) (.resume 0) := by
  have hreports := @run_timeoutReports 2 (RoundRobin (Fin 2)) _ syncConfig rfl ⟨0⟩ oneTickWait
  constructor
  · apply hreports.1
    exact ⟨trivial, trivial, trivial, trivial, trivial, trivial, trivial⟩
  · apply hreports.2 (.isr (.set 1)) ⟨⟨1⟩, [.all cvFlags], .done 1⟩ 0 oneTickFrame
    · have hstate : (MonitorSystem.run syncConfig ⟨0⟩ oneTickWait :
          MonitorSystem 2 EventFlags FlagsFrame (RoundRobin (Fin 2))).state = ⟨0⟩ := by decide +kernel
      simp only [MonitorSystem.stretch, hstate]
      rfl
    · rfl
    · decide +kernel
    · decide +kernel
    · decide

/-- Before task 0 runs again an interrupt handler sets the flag: `Wait` returns `ERROR_TIMEOUT` while its
predicate is satisfied. -/
theorem oneTickWait_late :
    let s : MonitorSystem 2 EventFlags FlagsFrame (RoundRobin (Fin 2)) :=
      MonitorSystem.run syncConfig ⟨0⟩ (oneTickWait ++ [.isr (.set 1)])
    (s.stepResult syncConfig (.resume 0)).2 = some errorTimeout ∧
      (s.step syncConfig (.resume 0)).state.isSatisfied 1 0 = true ∧ ¬ ReportsTruly syncConfig s (.resume 0) := by
  have hrun : ((MonitorSystem.run syncConfig ⟨0⟩ (oneTickWait ++ [.isr (.set 1)]) :
        MonitorSystem 2 EventFlags FlagsFrame (RoundRobin (Fin 2))).stepResult syncConfig
          (.resume 0)).2 = some errorTimeout ∧
      ((MonitorSystem.run syncConfig ⟨0⟩ (oneTickWait ++ [.isr (.set 1)]) :
        MonitorSystem 2 EventFlags FlagsFrame (RoundRobin (Fin 2))).step syncConfig
          (.resume 0)).state.isSatisfied 1 0 = true ∧
      request (MonitorSystem.run syncConfig ⟨0⟩ (oneTickWait ++ [.isr (.set 1)]) :
        MonitorSystem 2 EventFlags FlagsFrame (RoundRobin (Fin 2))) (.resume 0) = some (1, 0) := by
    decide +kernel
  obtain ⟨hresult, hsat, hrequest⟩ := hrun
  refine ⟨hresult, hsat, ?_⟩
  intro htruly
  rw [htruly 1 0 hrequest hresult] at hsat
  cases hsat

end Runs

end Stk.Analysis
