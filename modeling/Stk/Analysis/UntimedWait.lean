import Stk.Analysis.MonitorSimulation
import Stk.Analysis.RelockFrame

/-!
# Waits without a timeout

A wait with the timeout `WAIT_INFINITE` is never counted by a tick, so that it ends with a signal only.
-/

set_option autoImplicit false

namespace Stk.Analysis

open Stk.Model Stk.Model.Kernel

variable {n : ℕ} {σ : Type} [SwitchStrategy (Fin n) σ] {cfg : Config} {k k' : Kernel n σ} {i : Fin n}

/-- The wait object of slot `i` has not timed out, and waits without a timeout if it is linked. -/
def Untimed (k : Kernel n σ) (i : Fin n) : Prop :=
  (k.tasks i).waitObj.timeout = false ∧
    ((k.tasks i).waitObj.syncObj ≠ none → (k.tasks i).waitObj.timeWait = waitInfinite)

namespace Untimed

omit [SwitchStrategy (Fin n) σ] in
theorem congr (h : Untimed k i) (hobj : (k'.tasks i).waitObj = (k.tasks i).waitObj) : Untimed k' i := by
  unfold Untimed
  rw [hobj]
  exact h

omit [SwitchStrategy (Fin n) σ] in
theorem timeless (h : Untimed k i) : Timeless (k.tasks i).waitObj := by
  by_cases hobj : (k.tasks i).waitObj.syncObj = none
  · exact .inl hobj
  · exact .inr ⟨h.2 hobj, h.1⟩

omit [SwitchStrategy (Fin n) σ] in
theorem signalled (h : Untimed k i) (hobj : Signalled (k.tasks i).waitObj (k'.tasks i).waitObj) : Untimed k' i := by
  rcases hobj with heq | ⟨-, heq⟩
  · exact h.congr heq
  · unfold Untimed
    rw [heq]
    exact ⟨rfl, fun hne => absurd rfl hne⟩

omit [SwitchStrategy (Fin n) σ] in
/-- INTERNAL: a task is woken by a signal. -/
theorem wakeWaitObj (h : Untimed k i) (j : Fin n) : Untimed (k.wakeWaitObj j false) i :=
  h.signalled (.wakeWaitObj k j i)

omit [SwitchStrategy (Fin n) σ] in
theorem notify (h : Untimed k i) (m : Mesa.Notify SyncId) : Untimed (k.notify m) i := by
  cases m with
  | one o =>
    unfold Kernel.notify Kernel.wakeOne
    dsimp only
    split
    · exact h
    · exact h.wakeWaitObj _
  | all o =>
    exact Runs.foldl_keeps (I := fun k' : Kernel n σ => Untimed k' i) (fun k' j _ h => h.wakeWaitObj j) h

theorem onTick (h : Untimed k i) (hk : Linked k) (cfg : Config) (e : ℤ) : Untimed (k.onTick cfg e).1 i :=
  h.congr (onTick_waitObj hk h.timeless e)

omit [SwitchStrategy (Fin n) σ] in
theorem foldl_notify (h : Untimed k i) (ms : List (Mesa.Notify SyncId)) :
    Untimed (ms.foldl Kernel.notify k) i :=
  Runs.foldl_keeps (I := fun k' : Kernel n σ => Untimed k' i) (fun _ m _ h => h.notify m) h

/-- INTERNAL: the task begins to wait without a timeout. -/
theorem of_onTaskWait (hnone : (k.tasks i).waitObj.syncObj = none) (o : SyncId) :
    Untimed (k.onTaskWait i o waitInfinite) i := by
  rw [onTaskWait_eq (by decide) hnone o]
  have hobj : ∀ t : KernelTask, (t.scheduleSleep (SwitchStrategy.sleepEventApi σ) waitInfinite).waitObj =
      t.waitObj := fun t => rfl
  unfold Untimed
  dsimp only
  rw [Function.update_self, hobj]
  exact ⟨rfl, fun _ => rfl⟩

/-- INTERNAL: `OnTaskWait` of another task, or without a timeout. -/
theorem onTaskWait (h : Untimed k i) {j : Fin n} (o : SyncId) {timeout : ℤ}
    (hj : j = i → timeout = waitInfinite) : Untimed (k.onTaskWait j o timeout) i := by
  by_cases hji : j = i
  · subst hji
    obtain rfl := hj rfl
    by_cases hnone : (k.tasks j).waitObj.syncObj = none
    · exact of_onTaskWait hnone o
    · have hwaiting : (k.tasks j).isWaiting = true := Option.isSome_iff_ne_none.mpr hnone
      unfold Kernel.onTaskWait
      rw [if_neg (by decide), if_pos hwaiting]
      exact h.congr rfl
  · exact h.congr (SameSlot.onTaskWait_ne hji k o timeout).waitObj

/-- A kernel call, unless the task itself begins to wait with a timeout. -/
theorem step (h : Untimed k i) (hk : Linked k) {e : KernelEvent n}
    (he : ∀ o t, e = .wait i o t → t = waitInfinite) : Untimed (k.step cfg e) i := by
  cases e with
  | onTick e =>
    simp only [Kernel.step]
    split
    · exact h.onTick hk cfg e
    · exact h
  | wait j o timeout =>
    simp only [Kernel.step]
    split
    · apply h.onTaskWait
      rintro rfl
      exact he o timeout rfl
    · exact h
  | wakeOne o => exact h.notify (.one o)
  | wakeAll o => exact h.notify (.all o)
  | _ => exact h.congr ((step_sameWaits cfg k rfl).waitObj i)

end Untimed

/-! ## Classes with condition variables -/

variable {μ α φ ρ : Type} [Monitor μ α φ ρ] {s : MonitorSystem n μ φ σ}

/-- Every call inside `Wait` without a timeout has not timed out. -/
def UntimedWaits (s : MonitorSystem n μ φ σ) : Prop :=
  ∀ i f, s.pending i = some f → Monitor.timeout μ f = waitInfinite → Untimed s.kernel i

/-- INTERNAL: a task runs a stretch. -/
theorem UntimedWaits.follow (h : UntimedWaits s) (i : Fin n) (t : Mesa.Stretch SyncId μ φ ρ) :
    UntimedWaits (s.follow i t).1 := by
  intro j f hj hf
  unfold MonitorSystem.follow at hj ⊢
  dsimp only at hj ⊢
  cases hnext : t.next with
  | done r =>
    rw [hnext] at hj
    dsimp only at hj ⊢
    by_cases hji : j = i
    · subst hji
      rw [Function.update_self] at hj
      contradiction
    · rw [Function.update_of_ne hji] at hj
      exact (h j f hj hf).foldl_notify t.notify
  | wait g =>
    rw [hnext] at hj
    dsimp only at hj ⊢
    by_cases hji : j = i
    · subst hji
      rw [Function.update_self] at hj
      split at hj
      · contradiction
      · next hfree =>
        obtain rfl := Option.some.inj hj
        rw [hf]
        apply Untimed.of_onTaskWait
        simpa [KernelTask.isWaiting] using hfree
    · rw [Function.update_of_ne hji] at hj
      apply ((h j f hj hf).foldl_notify t.notify).onTaskWait
      exact fun hij => absurd hij.symm hji

theorem UntimedWaits.step (h : UntimedWaits s) (hok : MonitorOk s) (cfg : Config) (e : MonitorEvent n α) :
    UntimedWaits (s.step cfg e) := by
  unfold MonitorSystem.step
  cases e with
  | call i op =>
    cases ht : s.stretch cfg (.call i op) with
    | none =>
      rw [stepResult_none (by simp) ht]
      exact h
    | some t =>
      rw [stepResult_call ht]
      exact h.follow i t
  | resume i =>
    cases ht : s.stretch cfg (.resume i) with
    | none =>
      rw [stepResult_none (by simp) ht]
      exact h
    | some t =>
      rw [stepResult_resume ht]
      have hcall : UntimedWaits
          { s with kernel := { s.kernel with call := Function.update s.kernel.call i none } } := h
      exact hcall.follow i t
  | isr op =>
    cases ht : s.stretch cfg (.isr op) with
    | none =>
      rw [stepResult_none (by simp) ht]
      exact h
    | some t =>
      obtain ⟨-, r, hr⟩ := stretch_isr ht
      rw [stepResult_isr ht hr]
      intro j f hj hf
      exact (h j f hj hf).foldl_notify t.notify
  | kernel e =>
    rcases stepResult_kernel cfg s e with hstep | ⟨hstep, -, -⟩
    · rw [hstep]
      exact h
    · rw [hstep]
      intro j f hj hf
      simp only [MonitorSystem.kernelStep] at hj ⊢
      split at hj
      · -- a task inside a call makes no other one
        have hcall := hok.call j f hj
        have hbusy : s.kernel.canCall j = false := by
          cases hnone : s.kernel.call j with
          | none =>
            rw [hnone] at hcall
            contradiction
          | some c => simp [Kernel.canCall, hnone]
        by_cases hwait : ∃ o t, e = .wait j o t
        · obtain ⟨o, t, rfl⟩ := hwait
          have hsame : s.kernel.step cfg (.wait j o t) = s.kernel := by
            simp [Kernel.step, hbusy]
          rw [hsame]
          exact h j f hj hf
        · apply (h j f hj hf).step hok.linked
          intro o t he
          exact absurd ⟨o, t, he⟩ hwait
      · contradiction

omit [SwitchStrategy (Fin n) σ] in
/-- A wait without a timeout does not expire. -/
theorem UntimedWaits.not_expired (h : UntimedWaits s) {i : Fin n} {f : φ}
    (hf : ∀ g, s.pending i = some g → Monitor.timeout μ g = waitInfinite) : status s i ≠ .expired f := by
  intro hi
  unfold status at hi
  split at hi
  · cases hi
  · next g hg =>
    have htimeout := (h i g hg (hf g hg)).1
    rw [htimeout] at hi
    split at hi <;> simp at hi

end Stk.Analysis
