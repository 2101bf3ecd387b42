import Stk.Analysis.SemaphoreRun
import Stk.Model.TaskNotify

/-!
# The semaphore of a notification slot

What `Signal` and `Wait` of a binary semaphore return, and who is inside `Wait`.
-/

set_option autoImplicit false

namespace Stk.Analysis

open Stk.Model Stk.Model.Kernel

variable {n : ℕ} {σ : Type} [SwitchStrategy (Fin n) σ] {cfg : Config} {s : SyncSystem n Semaphore σ}

/-- INTERNAL: `Signal` is accepted if no token is in store. -/
theorem signal_accepted (h : SemaphoreOk 1 s) {c : Notifier n}
    (hcan : match c with
      | .task i => (cfg.isSyncMode && s.waits.kernel.canCall i) = true
      | .handler _ => cfg.isSyncMode = true)
    (hcount : s.state.count = 0) : (s.stepResult cfg c.signal).2 = some .void := by
  have hmethod : ∃ t, SyncObject.method s.state s.waitList.isEmpty .signal = some t ∧ t.outcome = .returns .void := by
    have hmax := h.countMax_eq
    change ∃ t, s.state.signal s.waitList.isEmpty = some t ∧ _
    unfold Semaphore.signal
    split
    · rw [if_pos (by omega)]
      exact ⟨_, rfl, rfl⟩
    · exact ⟨_, rfl, rfl⟩
  obtain ⟨t, ht, houtcome⟩ := hmethod
  cases c with
  | task i =>
    simp only at hcan
    simp only [Notifier.signal, SyncSystem.stepResult, hcan, if_true, ht, houtcome]
  | handler id =>
    simp only at hcan
    have hsafe : (cfg.isSyncMode && SyncObject.isrSafe Semaphore SemaphoreOp.signal) = true := by
      rw [hcan]
      rfl
    simp only [Notifier.signal, SyncSystem.stepResult, hsafe, if_true, ht, houtcome]

/-- INTERNAL: what `Wait` tells its caller at once. -/
theorem wait_result {i : Fin n} (timeout : ℤ) (hcan : (cfg.isSyncMode && s.waits.kernel.canCall i) = true) :
    (s.stepResult cfg (.call i (.wait timeout))).2 =
      if s.state.count ≠ 0 then some (.bool true) else if timeout ≠ 0 then none else some (.bool false) := by
  have hmethod : SyncObject.method s.state s.waitList.isEmpty (.wait timeout) = some (s.state.wait timeout) := rfl
  have hwait : (s.state.wait timeout).outcome = if s.state.count ≠ 0 then .returns (.bool true)
      else if timeout ≠ 0 then .waits timeout else .returns (.bool false) := by
    unfold Semaphore.wait
    split
    · rfl
    · split <;> rfl
  simp only [SyncSystem.stepResult, hcan, if_true, hmethod, hwait]
  by_cases hcount : s.state.count ≠ 0
  · rw [if_pos hcount, if_pos hcount]
  · rw [if_neg hcount, if_neg hcount]
    by_cases htimeout : timeout ≠ 0
    · rw [if_pos htimeout, if_pos htimeout]
    · rw [if_neg htimeout, if_neg htimeout]

omit [SwitchStrategy (Fin n) σ] in
theorem enter_pending (t : CriticalSection Semaphore) : (s.enter t).waits.pending = s.waits.pending := by
  unfold SyncSystem.enter SyncSystem.wakeUp
  cases t.wakes <;> rfl

/-- INTERNAL: a task gets inside `Wait` by a call of its own that does not return. -/
theorem pending_step {e : MonitorEvent n SemaphoreOp} {j : Fin n} {f : ℤ}
    (h : (s.step cfg e).waits.pending j = some f) :
    s.waits.pending j = some f ∨ ∃ op, e = .call j op ∧ (s.stepResult cfg e).2 = none := by
  have hmonitor : ∀ (w : MonitorSystem n WaitQueue ℤ σ) (e : MonitorEvent n ℤ), MonitorEvent.caller e ≠ some j →
      (w.step cfg e).pending j = some f → w.pending j = some f := by
    intro w e he hpending
    cases ht : w.stretch cfg e with
    | none => exact (stepResult_of_none ht).2.2 j f hpending
    | some t =>
      rcases (stepResult_some ht).2.2 j f hpending with ⟨-, hold⟩ | ⟨hcaller, -⟩
      · exact hold
      · exact absurd hcaller he
  have hmethod : ∀ op, (e = .isr op ∨ ∃ i, e = .call i op) →
      s.waits.pending j = some f ∨ ∃ op, e = .call j op ∧ (s.stepResult cfg e).2 = none := by
    intro op he
    unfold SyncSystem.step at h
    have hends : s.stepResult cfg e = (s, none) ∨ ∃ t, _ ∧ Ends cfg s e op t := stepResult_method he
    rcases hends with hsame | ⟨t, -, hends⟩
    · rw [hsame] at h
      exact Or.inl h
    · cases hends with
      | returns r hr hstep =>
        rw [hstep, enter_pending] at h
        exact Or.inl h
      | waits i timeout hcall _ _ _ hstep =>
        by_cases hij : i = j
        · subst hij
          exact Or.inr ⟨op, hcall, by rw [hstep]⟩
        · rw [hstep] at h
          have hold := hmonitor (s.enter t).waits (.call i timeout) (by simp [MonitorEvent.caller, hij]) h
          rw [enter_pending] at hold
          exact Or.inl hold
  cases e with
  | call i op => exact hmethod op (Or.inr ⟨i, rfl⟩)
  | isr op => exact hmethod op (Or.inl rfl)
  | resume i =>
    left
    have hw : (s.waits.step cfg (.resume i)).pending j = some f := h
    cases ht : s.waits.stretch cfg (.resume i) with
    | none => exact (stepResult_of_none ht).2.2 j f hw
    | some t =>
      rcases (stepResult_some ht).2.2 j f hw with ⟨-, hold⟩ | ⟨-, hnext⟩
      · exact hold
      · obtain ⟨f', r, -, -, rfl⟩ := stretch_resume ht
        cases hnext
  | kernel e => exact Or.inl (hmonitor s.waits (.kernel e) (by simp [MonitorEvent.caller]) h)

/-- INTERNAL: `Wait` returns `false` to a task whose wait has timed out. -/
theorem timeout_of_resume {i : Fin n} (h : (s.waits.stepResult cfg (.resume i)).2 = some .timeout) :
    (s.waits.kernel.tasks i).waitObj.timeout = true := by
  cases ht : s.waits.stretch cfg (.resume i) with
  | none =>
    rw [(stepResult_of_none ht).2.1] at h
    cases h
  | some t =>
    have hnext := ((stepResult_some ht).2.1 _).mp h
    obtain ⟨f, r, -, hr, rfl⟩ := stretch_resume ht
    obtain rfl : r = .timeout := Mesa.Next.done.inj hnext
    exact waitResult_flag hr

/-- INTERNAL: a task to which `Wait` returns is no longer inside. -/
theorem resume_pending {i : Fin n} {r : MethodResult} (h : (s.stepResult cfg (.resume i)).2 = some r) :
    (s.step cfg (.resume i)).waits.pending i = none := by
  have hstep : (s.step cfg (.resume i)).waits = s.waits.step cfg (.resume i) := rfl
  rw [hstep]
  cases ht : s.waits.stretch cfg (.resume i) with
  | none =>
    have hnone := (stepResult_of_none ht).2.1
    have hresult : (s.stepResult cfg (.resume i)).2 =
        (s.waits.stepResult cfg (.resume i)).2.map (fun r => MethodResult.bool (decide (r = .signal))) := rfl
    rw [hresult, hnone] at h
    cases h
  | some t =>
    by_contra hne
    obtain ⟨f, hf⟩ := Option.ne_none_iff_exists'.mp hne
    rcases (stepResult_some ht).2.2 i f hf with ⟨hcaller, -⟩ | ⟨-, hnext⟩
    · exact hcaller rfl
    · obtain ⟨f', r', -, -, rfl⟩ := stretch_resume ht
      cases hnext

omit [SwitchStrategy (Fin n) σ] in
/-- INTERNAL: a task that has been granted a token is inside `Wait`. -/
theorem granted_empty (h : ∀ i, s.waits.pending i = none) : granted s = ∅ := by
  unfold granted
  simp [h]

end Stk.Analysis
