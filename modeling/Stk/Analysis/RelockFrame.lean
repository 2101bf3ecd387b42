import Stk.Analysis.MutexContract
import Stk.Model.WaitRelock

/-!
# What mutexes do to the slots of other tasks

A mutex makes a few kernel calls: it boosts and restores weights, it puts its caller into a wait and it wakes the
first of its waiters.  To every other slot nothing happens, so that what is known of a task in a sleep or inside
`Wait` is still known after the calls of the others.
-/

set_option autoImplicit false

namespace Stk.Analysis

open Stk.Model Stk.Model.Kernel

variable {n : ℕ} {σ : Type} [SwitchStrategy (Fin n) σ] {cfg : Config} {i : Fin n}

omit [SwitchStrategy (Fin n) σ] in
/-- INTERNAL: a task inside `Wait` makes no other call. -/
theorem ne_of_canCall {k : Kernel n σ} {j : Fin n} (hcall : k.call i ≠ none) (hj : k.canCall j = true) : j ≠ i := by
  rintro rfl
  simp only [Kernel.canCall, Bool.and_eq_true, decide_eq_true_eq] at hj
  exact hcall hj.2

section Mutexes

variable {s : System n σ}

/-- INTERNAL: weights are not in the wait lists. -/
theorem inheritWeight_linked (cfg : Config) {k : Kernel n σ} (hk : Linked k) (tid : Option TId) (w : ℤ) :
    Linked (k.inheritWeight cfg tid w) := by
  cases tid with
  | some u => exact step_linked cfg hk (.inheritWeight u w)
  | none => exact hk

/-- INTERNAL: a weight is given back beside the wait lists. -/
theorem restoreWeight_linked (cfg : Config) {k : Kernel n σ} (hk : Linked k) (tid : Option TId) (o : Option SyncId) :
    Linked (k.restoreWeight cfg tid o) := by
  cases tid with
  | some u => exact step_linked cfg hk (.restoreWeight u o)
  | none => exact hk

/-- INTERNAL: `TimedLock` begins a wait or none. -/
theorem timedLock_linked (h : Linked s.kernel) (j : Fin n) (tid : TId) (m : ℕ) (timeout : ℤ) :
    Linked (s.timedLock cfg j tid m timeout).1.kernel := by
  unfold System.timedLock
  dsimp only
  split
  · split
    · exact h
    · exact h
  · split
    · split
      · exact h
      · exact h
    · split
      · split
        · have hk := onTaskWait_linked (inheritWeight_linked cfg h (s.mutex m).ownerTid (cfg.weight tid)) j
            (.mutex m) timeout
          split
          · exact hk
          · exact hk
        · exact h
      · exact h

/-- INTERNAL: a lock that returns. -/
theorem lockReturn_linked (h : Linked s.kernel) (j : Fin n) (tid : TId) (c : LockCall) (r : WaitResult) :
    Linked (s.lockReturn cfg j tid c r).1.kernel := by
  have hk : Linked ({ s.kernel with call := Function.update s.kernel.call j none } : Kernel n σ) :=
    ⟨h.mem, h.nodup, h.syncNodup, h.registered⟩
  unfold System.lockReturn
  cases r with
  | timeout =>
    dsimp only
    split
    · exact restoreWeight_linked cfg hk _ _
    · exact hk
  | signal =>
    dsimp only
    split
    · exact h
    · exact hk

/-- INTERNAL: `Unlock` wakes the first waiter. -/
theorem unlock_linked (h : Linked s.kernel) (tid : TId) (m : ℕ) : Linked (s.unlock cfg tid m).kernel := by
  have hk := restoreWeight_linked cfg h (some tid) none
  rcases unlock_cases cfg s tid m with ⟨-, heq⟩ | ⟨-, -, heq⟩ | ⟨w, rest, -, -, heq⟩
  · rw [heq]
    exact h
  · rw [heq]
    exact hk
  · rw [heq]
    exact inheritWeight_linked cfg (wakeWaitObj_linked hk w false) _ _

/-- INTERNAL: every event of the system of mutexes. -/
theorem mutex_linked (h : Linked s.kernel) (e : SystemEvent n) : Linked (s.step cfg e).kernel := by
  unfold System.step
  cases e with
  | timedLock j m timeout =>
    simp only [System.stepResult]
    split
    · exact h
    · split
      · exact timedLock_linked h j _ m timeout
      · exact h
  | lockReturn j =>
    simp only [System.stepResult]
    split
    · split
      · exact lockReturn_linked h j _ _ _
      · exact h
    · exact h
  | unlock j m =>
    simp only [System.stepResult]
    split
    · exact h
    · split
      · exact unlock_linked h _ m
      · exact h
  | kernel e =>
    by_cases hreturn : ∃ j, e = .waitReturn j
    · obtain ⟨j, rfl⟩ := hreturn
      simp only [System.stepResult]
      split
      · exact step_linked cfg h (.waitReturn j)
      · exact h
    · have hstep := step_kernel cfg s (fun j hj => hreturn ⟨j, hj⟩)
      unfold System.step at hstep
      rw [hstep]
      split
      · exact step_linked cfg h e
      · exact h

/-! ## Wait objects -/

/-- The wait object stays as it is, or a signal takes it off its list. -/
def Signalled (w w' : WaitObject) : Prop :=
  w' = w ∨ (w.syncObj ≠ none ∧ w' = ⟨none, false, 0⟩)

namespace Signalled

/-- INTERNAL: one signal after another. -/
theorem trans {w w' w'' : WaitObject} (h : Signalled w w') (h' : Signalled w' w'') : Signalled w w'' := by
  rcases h with rfl | ⟨hne, rfl⟩
  · exact h'
  · rcases h' with rfl | ⟨hnone, -⟩
    · exact .inr ⟨hne, rfl⟩
    · exact absurd rfl hnone

/-- INTERNAL: a wait that is over is not signalled. -/
theorem unlinked {w w' : WaitObject} (h : Signalled w w') (hobj : w.syncObj = none) : w' = w := by
  rcases h with heq | ⟨hne, -⟩
  · exact heq
  · exact absurd hobj hne

omit [SwitchStrategy (Fin n) σ] in
/-- INTERNAL: the end of a wait signals it or leaves it. -/
theorem wakeWaitObj (k : Kernel n σ) (j i : Fin n) :
    Signalled (k.tasks i).waitObj ((k.wakeWaitObj j false).tasks i).waitObj := by
  by_cases hji : j = i
  · subst hji
    cases ho : (k.tasks j).waitObj.syncObj with
    | none =>
      left
      simp only [Kernel.wakeWaitObj, ho]
      rfl
    | some o =>
      right
      rw [wakeWaitObj_eq ho]
      exact ⟨by simp [ho], by simp⟩
  · exact .inl (SameSlot.wakeWaitObj_ne hji k false).waitObj

end Signalled

/-! ## Other slots -/

/-- INTERNAL: a weight is given back. -/
theorem SameSlot.restoreWeight (cfg : Config) (i : Fin n) (k : Kernel n σ) (tid : Option TId) (o : Option SyncId) :
    SameSlot i k (k.restoreWeight cfg tid o) := by
  cases tid with
  | none => exact .refl i k
  | some u => exact .onRestoreWeight cfg i k u o

/-- INTERNAL: another task calls `TimedLock`. -/
theorem timedLock_sameSlot (cfg : Config) {j : Fin n} (hj : j ≠ i) (tid : TId) (m : ℕ) (timeout : ℤ) :
    SameSlot i s.kernel (s.timedLock cfg j tid m timeout).1.kernel := by
  unfold System.timedLock
  dsimp only
  split
  · split
    · exact .refl i _
    · exact .refl i _
  · split
    · split
      · exact .refl i _
      · exact .refl i _
    · split
      · split
        · have hsame := (SameSlot.inheritWeight cfg i s.kernel (s.mutex m).ownerTid (cfg.weight tid)).trans
            (.onTaskWait_ne hj _ (.mutex m) timeout)
          split
          · exact hsame
          · exact hsame
        · exact .refl i _
      · exact .refl i _

/-- INTERNAL: `Unlock` wakes another task. -/
theorem unlock_sameSlot (cfg : Config) (tid : TId) {m : ℕ} (hhead : (s.kernel.waitList (.mutex m)).head? ≠ some i) :
    SameSlot i s.kernel (s.unlock cfg tid m).kernel := by
  have hrestore := SameSlot.restoreWeight cfg i s.kernel (some tid) none
  rcases unlock_cases cfg s tid m with ⟨-, heq⟩ | ⟨-, -, heq⟩ | ⟨w, rest, -, hw, heq⟩
  · rw [heq]
    exact .refl i _
  · rw [heq]
    exact hrestore
  · have hwi : w ≠ i := by
      rintro rfl
      rw [hw] at hhead
      exact hhead rfl
    rw [heq]
    exact hrestore.trans ((SameSlot.wakeWaitObj_ne hwi _ false).trans (.inheritWeight cfg i _ _ _))

/-- `Unlock` signals the first waiter and nobody else. -/
theorem unlock_signalled (cfg : Config) (tid : TId) (m : ℕ) (i : Fin n) :
    Signalled (s.kernel.tasks i).waitObj ((s.unlock cfg tid m).kernel.tasks i).waitObj := by
  have hrestore := (SameSlot.restoreWeight cfg i s.kernel (some tid) none).waitObj
  rcases unlock_cases cfg s tid m with ⟨-, heq⟩ | ⟨-, -, heq⟩ | ⟨w, rest, -, hw, heq⟩
  · rw [heq]
    exact .inl rfl
  · rw [heq]
    exact .inl hrestore
  · rw [heq]
    have hwake := Signalled.wakeWaitObj (s.kernel.restoreWeight cfg (some tid) none) w i
    rw [hrestore] at hwake
    exact hwake.trans (.inl (SameSlot.inheritWeight cfg i _ _ _).waitObj)

/-- INTERNAL: the lock of another task returns. -/
theorem lockReturn_sameSlot {j : Fin n} (hj : j ≠ i) (tid : TId) (c : LockCall) (r : WaitResult) :
    SameSlot i s.kernel (s.lockReturn cfg j tid c r).1.kernel := by
  have hcall : SameSlot i s.kernel { s.kernel with call := Function.update s.kernel.call j none } :=
    .of_tasks rfl (Function.update_of_ne hj.symm _ _) rfl
  unfold System.lockReturn
  cases r with
  | timeout =>
    dsimp only
    split
    · exact hcall.trans (.restoreWeight cfg i _ _ _)
    · exact hcall
  | signal =>
    dsimp only
    split
    · exact .refl i _
    · exact hcall

/-- The end of a `TimedLock` writes no wait object. -/
theorem lockReturn_waitObj (j : Fin n) (tid : TId) (c : LockCall) (r : WaitResult) (i : Fin n) :
    ((s.lockReturn cfg j tid c r).1.kernel.tasks i).waitObj = (s.kernel.tasks i).waitObj := by
  unfold System.lockReturn
  cases r with
  | timeout =>
    dsimp only
    split
    · exact (SameSlot.restoreWeight cfg i { s.kernel with call := Function.update s.kernel.call j none }
        c.ownerTid _).waitObj
    · rfl
  | signal =>
    dsimp only
    split
    · rfl
    · rfl

/-! ### The pending `TimedLock` -/

/-- INTERNAL: the pending lock of another task. -/
theorem timedLock_lock_ne {j : Fin n} (hj : j ≠ i) {tid : TId} {m : ℕ} {timeout : ℤ} :
    (s.timedLock cfg j tid m timeout).1.lock i = s.lock i := by
  unfold System.timedLock
  dsimp only
  split_ifs
  all_goals first | rfl | exact Function.update_of_ne hj.symm _ _

/-- INTERNAL: no lock is pending for a task that waits for none. -/
theorem lockReturn_lock (hlock : s.lock i = none) (j : Fin n) (tid : TId) (c : LockCall) {r : WaitResult} :
    (s.lockReturn cfg j tid c r).1.lock i = none := by
  have hupdate : Function.update s.lock j none i = none := by
    by_cases hji : i = j
    · rw [hji]
      exact Function.update_self j _ _
    · rw [Function.update_of_ne hji]
      exact hlock
  unfold System.lockReturn
  cases r with
  | timeout => exact hupdate
  | signal =>
    dsimp only
    split
    · exact hlock
    · exact hupdate

/-- INTERNAL: `Unlock` leaves the pending locks. -/
theorem unlock_lock (cfg : Config) (tid : TId) (m : ℕ) : (s.unlock cfg tid m).lock = s.lock := by
  rcases unlock_cases cfg s tid m with ⟨-, heq⟩ | ⟨-, -, heq⟩ | ⟨w, rest, -, -, heq⟩
  · rw [heq]
    rfl
  · rw [heq]
  · rw [heq]

/-- A call of another task, unless it hands slot `i` a mutex. -/
theorem system_sameSlot {e : SystemEvent n} (he : ∀ c, e ≠ .kernel c) (hlock : ∀ m t, e ≠ .timedLock i m t)
    (hreturn : e ≠ .lockReturn i) (hunlock : ∀ j m, e = .unlock j m → (s.kernel.waitList (.mutex m)).head? ≠ some i) :
    SameSlot i s.kernel (s.step cfg e).kernel := by
  unfold System.step
  cases e with
  | timedLock j m timeout =>
    have hji : j ≠ i := by
      rintro rfl
      exact hlock m timeout rfl
    simp only [System.stepResult]
    split
    · exact .refl i _
    · split
      · exact timedLock_sameSlot cfg hji _ m timeout
      · exact .refl i _
  | lockReturn j =>
    have hji : j ≠ i := by
      rintro rfl
      exact hreturn rfl
    simp only [System.stepResult]
    split
    · split
      · exact lockReturn_sameSlot hji _ _ _
      · exact .refl i _
    · exact .refl i _
  | unlock j m =>
    simp only [System.stepResult]
    split
    · exact .refl i _
    · split
      · exact unlock_sameSlot cfg _ (hunlock j m rfl)
      · exact .refl i _
  | kernel c => exact absurd rfl (he c)

/-! ## Waits without a timeout -/

/-- No tick ends the wait: it is over, or it has no timeout. -/
def Timeless (w : WaitObject) : Prop :=
  w.syncObj = none ∨ (w.timeWait = waitInfinite ∧ w.timeout = false)

/-- INTERNAL: a tick leaves such a wait object alone. -/
theorem onTick_waitObj {k : Kernel n σ} (hk : Linked k) (hobj : Timeless (k.tasks i).waitObj) (e : ℤ) :
    ((k.onTick cfg e).1.tasks i).waitObj = (k.tasks i).waitObj := by
  unfold Kernel.onTick Kernel.updateTasks
  dsimp only
  have hsync : (((if cfg.isSyncMode then ({ k with ticks := k.ticks + e } : Kernel n σ).updateSyncObjects e
      else { k with ticks := k.ticks + e }) : Kernel n σ).tasks i).waitObj = (k.tasks i).waitObj := by
    split
    · exact (SameSlot.updateSyncObjects (k := { k with ticks := k.ticks + e }) e
        ⟨hk.mem, hk.nodup, hk.syncNodup, hk.registered⟩ hobj).waitObj
    · rfl
  generalize (if cfg.isSyncMode then ({ k with ticks := k.ticks + e } : Kernel n σ).updateSyncObjects e
      else { k with ticks := k.ticks + e }) = k₁ at hsync
  rw [(SameTasks.updateFsmState cfg _).waitObj i, (SameWaits.updateTaskState cfg _ e).waitObj i, ← hsync]
  split
  · exact (SameWaits.updateTaskRequest cfg k₁).waitObj i
  · rfl

/-- What a kernel call does to such a wait object of a task inside `Wait`. -/
theorem step_signalled {k : Kernel n σ} (hk : Linked k) (hobj : Timeless (k.tasks i).waitObj)
    (hcall : k.call i ≠ none) (e : KernelEvent n) :
    Signalled (k.tasks i).waitObj ((k.step cfg e).tasks i).waitObj := by
  cases e with
  | onTick e =>
    left
    simp only [Kernel.step]
    split
    · exact onTick_waitObj hk hobj e
    · rfl
  | wait j o timeout =>
    left
    simp only [Kernel.step]
    split
    · next hmade =>
      simp only [Bool.and_eq_true] at hmade
      exact (SameSlot.onTaskWait_ne (ne_of_canCall hcall hmade.1.1) k o timeout).waitObj
    · rfl
  | wakeOne o =>
    simp only [Kernel.step, Kernel.wakeOne]
    split
    · exact .inl rfl
    · exact .wakeWaitObj k _ i
  | wakeAll o =>
    exact Runs.foldl_keeps (I := fun k' : Kernel n σ => Signalled (k.tasks i).waitObj (k'.tasks i).waitObj)
      (fun k' j _ h => h.trans (.wakeWaitObj k' j i)) (.inl rfl)
  | _ => exact .inl ((step_sameWaits cfg k rfl).waitObj i)

/-- What a call into the system does to such a wait object of a task inside `Wait`. -/
theorem system_signalled (hk : Linked s.kernel) (hobj : Timeless (s.kernel.tasks i).waitObj)
    (hcall : s.kernel.call i ≠ none) (e : SystemEvent n) :
    Signalled (s.kernel.tasks i).waitObj ((s.step cfg e).kernel.tasks i).waitObj := by
  unfold System.step
  cases e with
  | timedLock j m timeout =>
    left
    simp only [System.stepResult]
    split
    · rfl
    · split
      · next hmade =>
        simp only [Bool.and_eq_true] at hmade
        exact (timedLock_sameSlot cfg (ne_of_canCall hcall hmade.1.2) _ m timeout).waitObj
      · rfl
  | lockReturn j =>
    left
    simp only [System.stepResult]
    split
    · split
      · exact lockReturn_waitObj j _ _ _ i
      · rfl
    · rfl
  | unlock j m =>
    simp only [System.stepResult]
    split
    · exact .inl rfl
    · split
      · exact unlock_signalled cfg _ m i
      · exact .inl rfl
  | kernel c =>
    by_cases hreturn : ∃ j, c = .waitReturn j
    · obtain ⟨j, rfl⟩ := hreturn
      simp only [System.stepResult]
      split
      · exact step_signalled hk hobj hcall _
      · exact .inl rfl
    · have hstep := step_kernel cfg s (fun j hj => hreturn ⟨j, hj⟩)
      unfold System.step at hstep
      rw [hstep]
      split
      · exact step_signalled hk hobj hcall c
      · exact .inl rfl

end Mutexes

/-! ## `Lock` behind a wait -/

/-- INTERNAL: the outcome is read off the wait object. -/
theorem waitOutcome_congr {t t' : KernelTask} (hobj : t'.waitObj = t.waitObj) : t'.waitOutcome = t.waitOutcome := by
  unfold KernelTask.waitOutcome
  rw [hobj]

omit [SwitchStrategy (Fin n) σ] in
/-- INTERNAL: the outcome of a wait that returns. -/
theorem waitOutcome_eq {k : Kernel n σ} {i : Fin n} {r : WaitResult} (hr : k.waitResult i = some r) :
    (k.tasks i).waitOutcome = r := by
  unfold KernelTask.waitOutcome
  rw [waitResult_flag hr]
  cases r with
  | signal => rfl
  | timeout => rfl

/-- The mutex is locked by another task than the one in slot `i`. -/
def Contended (s : System n σ) (i : Fin n) (m : ℕ) : Prop :=
  (s.mutex m).recursionCount ≠ 0 ∧ (s.mutex m).ownerTid ≠ (s.kernel.tasks i).user

/-- INTERNAL: a task that does not have to wait keeps its wait object, and its call is over. -/
theorem relock_cases (cfg : Config) {t : WaitSystem n σ} (i : Fin n) (tid : TId) (m : ℕ) (hi : (t.system.kernel.tasks i).user = some tid) :
    (t.relock cfg i tid m).1.kernel.call i = none ∧
        (∀ j, ((t.relock cfg i tid m).1.kernel.tasks j).waitObj = (t.system.kernel.tasks j).waitObj) ∨
      Contended t.system i m ∧ (t.relock cfg i tid m).2 = none := by
  unfold WaitSystem.relock System.timedLock
  dsimp only
  split
  · left
    split
    · exact ⟨Function.update_self i _ _, fun _ => rfl⟩
    · exact ⟨Function.update_self i _ _, fun _ => rfl⟩
  · next hown =>
    split
    · left
      split
      · exact ⟨Function.update_self i _ _, fun _ => rfl⟩
      · exact ⟨Function.update_self i _ _, fun _ => rfl⟩
    · next hcount =>
      right
      refine ⟨⟨hcount, ?_⟩, ?_⟩
      · rw [hi]
        exact fun howner => hown ⟨hcount, howner⟩
      · rw [if_pos (by decide)]
        split
        · split
          · rfl
          · rfl
        · rfl

/-! ## Systems whose tasks hand mutexes to `Wait` -/

section Waits

variable {t : WaitSystem n σ}

/-- INTERNAL: the return of `TimedLock` reports one way or the other, and calls the kernel the same. -/
theorem relockReturn_kernel (cfg : Config) (t : WaitSystem n σ) (i : Fin n) :
    (t.step cfg (.relockReturn i)).system.kernel = t.system.kernel ∨
      (t.step cfg (.relockReturn i)).system.kernel = (t.system.step cfg (.lockReturn i)).kernel := by
  simp only [WaitSystem.step, WaitSystem.stepResult]
  split
  · exact .inl rfl
  · exact .inr rfl

/-- INTERNAL: every event of the system of waits. -/
theorem relock_linked (h : Linked t.system.kernel) (e : WaitEvent n) : Linked (t.step cfg e).system.kernel := by
  cases e with
  | system e =>
    simp only [WaitSystem.step, WaitSystem.stepResult]
    split
    · exact h
    · exact mutex_linked h e
  | wait i o m timeout =>
    simp only [WaitSystem.step, WaitSystem.stepResult]
    split
    · exact h
    · split
      · exact unlock_linked (s := { t.system with kernel := t.system.kernel.onTaskWait i o timeout })
          (onTaskWait_linked h i o timeout) _ m
      · exact h
  | waitReturn i =>
    have hlock : ∀ tid m, Linked (t.relock cfg i tid m).1.kernel := by
      intro tid m
      exact timedLock_linked (s := { t.system with
        kernel := { t.system.kernel with call := Function.update t.system.kernel.call i none } })
        ⟨h.mem, h.nodup, h.syncNodup, h.registered⟩ i tid m waitInfinite
    simp only [WaitSystem.step, WaitSystem.stepResult]
    split
    · split
      · split
        · exact hlock _ _
        · exact hlock _ _
      · exact h
    · exact h
  | relockReturn i =>
    obtain heq | heq := relockReturn_kernel cfg t i
    · rw [heq]
      exact h
    · rw [heq]
      exact mutex_linked h _

/-- INTERNAL: `Lock` behind the wait of another task. -/
theorem relock_sameSlot {j : Fin n} (hji : j ≠ i) (tid : TId) (m : ℕ) :
    SameSlot i t.system.kernel (t.relock cfg j tid m).1.kernel := by
  have hcall : SameSlot i t.system.kernel
      { t.system.kernel with call := Function.update t.system.kernel.call j none } :=
    .of_tasks rfl (Function.update_of_ne hji.symm _ _) rfl
  exact hcall.trans (timedLock_sameSlot (s := { t.system with
    kernel := { t.system.kernel with call := Function.update t.system.kernel.call j none } }) cfg hji tid m waitInfinite)

/-- INTERNAL: what an event other than the end of its own wait does to the wait object of a task. -/
theorem relock_signalled (cfg : Config) (hk : Linked t.system.kernel) (hobj : Timeless (t.system.kernel.tasks i).waitObj)
    (hcall : t.system.kernel.call i ≠ none) {e : WaitEvent n} (he : e ≠ .waitReturn i) :
    Signalled (t.system.kernel.tasks i).waitObj ((t.step cfg e).system.kernel.tasks i).waitObj := by
  cases e with
  | system e =>
    simp only [WaitSystem.step, WaitSystem.stepResult]
    split
    · exact .inl rfl
    · exact system_signalled hk hobj hcall e
  | wait j o m timeout =>
    simp only [WaitSystem.step, WaitSystem.stepResult]
    split
    · exact .inl rfl
    · next tid _ =>
      split
      · next hmade =>
        simp only [Bool.and_eq_true] at hmade
        have hsame := SameSlot.onTaskWait_ne (ne_of_canCall hcall hmade.1.1.1.1.1.1.1.2) t.system.kernel o timeout
        have hunlock := unlock_signalled (s := { t.system with kernel := t.system.kernel.onTaskWait j o timeout }) cfg tid m i
        dsimp only at hunlock
        rw [hsame.waitObj] at hunlock
        exact hunlock
      · exact .inl rfl
  | waitReturn j =>
    have hji : j ≠ i := by
      rintro rfl
      exact he rfl
    simp only [WaitSystem.step, WaitSystem.stepResult]
    split
    · split
      · split
        · exact .inl (relock_sameSlot hji _ _).waitObj
        · exact .inl (relock_sameSlot hji _ _).waitObj
      · exact .inl rfl
    · exact .inl rfl
  | relockReturn j =>
    obtain heq | heq := relockReturn_kernel cfg t j
    · rw [heq]
      exact .inl rfl
    · rw [heq]
      exact system_signalled hk hobj hcall _

end Waits

end Stk.Analysis
