import Stk.Analysis.InfiniteSleep
import Stk.Analysis.MutexInvariant

/-!
# The contract of `Mutex`

`MutexContract` is what a task may rely on in every state that the system reaches: the owner
and the recursion count, mutual exclusion, the order of hand-overs and the meaning of the
results of `TimedLock`.  `run_mutexContract` gives it for all runs of any number of tasks.
-/

set_option autoImplicit false

namespace Stk.Analysis

open Stk.Model Stk.Model.Kernel

variable {n : ℕ} {σ : Type} [SwitchStrategy (Fin n) σ] {cfg : Config} {s : System n σ}

/-- The call is a `TimedLock` of mutex `m` by slot `i`, or the return of one. -/
def IsLock (s : System n σ) (i : Fin n) (m : ℕ) : SystemEvent n → Prop
  | .timedLock j m' _ => j = i ∧ m' = m
  | .lockReturn j => j = i ∧ (s.lock j).map LockCall.mutex = some m
  | _ => False

/-- What holds of the mutexes in state `s` and of the next call. -/
structure MutexContract (cfg : Config) (s : System n σ) : Prop where
  /-- The count is zero exactly when there is no owner. -/
  free : ∀ m, (s.mutex m).recursionCount = 0 ↔ (s.mutex m).ownerTid = none
  /-- The count is the owner's successful locks minus its unlocks; a lock that has been handed
  over counts from the hand-over on. -/
  count : ∀ m u, (s.mutex m).ownerTid = some u →
    ((s.mutex m).recursionCount : ℤ) = s.held m u + handedTo s m u
  /-- Nobody but the owner is between a successful lock and its unlock. -/
  exclusive : ∀ m u, s.held m u ≠ 0 → (s.mutex m).ownerTid = some u
  /-- A mutex that somebody waits for is owned. -/
  owned : ∀ m, s.kernel.waitList (.mutex m) ≠ [] → (s.mutex m).ownerTid ≠ none
  /-- The last unlock of a mutex without waiters frees it. -/
  release : ∀ i m, s.panic = false → s.kernel.canCall i = true →
    (s.mutex m).ownerTid = (s.kernel.tasks i).user → (s.mutex m).recursionCount = 1 →
    s.kernel.waitList (.mutex m) = [] → (s.step cfg (.unlock i m)).mutex m = ⟨none, 0⟩
  /-- The last unlock of a mutex with waiters makes the longest-waiting one the owner, and the
  next tick ends its wait with a signal unless it is rescheduled as an HRT task. -/
  handOver : ∀ i m, s.panic = false → s.kernel.canCall i = true →
    (s.mutex m).ownerTid = (s.kernel.tasks i).user → (s.mutex m).recursionCount = 1 →
    s.kernel.waitList (.mutex m) ≠ [] → ∃ w ∈ s.kernel.waitList (.mutex m),
      (∀ j ∈ s.kernel.waitList (.mutex m), s.arrival w ≤ s.arrival j) ∧
      (s.step cfg (.unlock i m)).mutex m = ⟨(s.kernel.tasks w).user, 1⟩ ∧
      Handed (s.step cfg (.unlock i m)) m w ∧
      ∀ e, 0 < e → switchedOut cfg (({ (s.step cfg (.unlock i m)).kernel with
          ticks := (s.step cfg (.unlock i m)).kernel.ticks + e } : Kernel n σ).updateTasks cfg e).1 ≠
          some w →
        ((s.step cfg (.unlock i m)).kernel.onTick cfg e).1.waitResult w = some .signal
  /-- A `TimedLock` that was handed the mutex returns true. -/
  handed : ∀ i m, s.panic = false → Handed s m i → ∀ r, s.kernel.waitResult i = some r →
    (s.stepResult cfg (.lockReturn i)).2 = some true
  /-- A `TimedLock` that returns true makes its caller the owner and books one lock. -/
  granted : ∀ i m e, IsLock s i m e → (s.stepResult cfg e).2 = some true →
    ∃ u, (s.kernel.tasks i).user = some u ∧ ((s.step cfg e).mutex m).ownerTid = some u ∧
      (s.step cfg e).held m u = s.held m u + 1
  /-- A `TimedLock` that returns false changes no mutex and books nothing, and its caller is not
  the owner. -/
  refused : ∀ i m e, IsLock s i m e → (s.stepResult cfg e).2 = some false →
    (s.step cfg e).mutex = s.mutex ∧ (s.step cfg e).held = s.held ∧
      (s.mutex m).ownerTid ≠ (s.kernel.tasks i).user

namespace MutexOk

omit [SwitchStrategy (Fin n) σ] in
theorem handed_owner (h : MutexOk s) {i : Fin n} {m : ℕ} (hh : Handed s m i) :
    ∃ u, (s.kernel.tasks i).user = some u ∧ (s.mutex m).ownerTid = some u ∧
      (s.mutex m).recursionCount = 1 := by
  obtain ⟨hlock, hobj, ht⟩ := hh
  obtain ⟨c, hc, rfl⟩ := Option.map_eq_some_iff.mp hlock
  obtain ⟨u, hu⟩ := Option.ne_none_iff_exists'.mp (h.call i c hc).1
  rcases h.waiting i c hc with ⟨ho, -⟩ | ⟨-, ht', -⟩ | ⟨-, -, howner, hcount⟩
  · rw [hobj] at ho
    cases ho
  · rw [ht] at ht'
    cases ht'
  · exact ⟨u, hu, howner.trans hu, hcount⟩

end MutexOk

/-- INTERNAL: an `Unlock` that its caller may make. -/
theorem step_unlock (cfg : Config) {i : Fin n} {m : ℕ} (hpanic : s.panic = false)
    (hcall : s.kernel.canCall i = true) (howner : (s.mutex m).ownerTid = (s.kernel.tasks i).user)
    (hcount : (s.mutex m).recursionCount = 1) :
    ∃ tid, (s.kernel.tasks i).user = some tid ∧ s.step cfg (.unlock i m) = s.unlock cfg tid m := by
  have hbusy := hcall
  simp only [Kernel.canCall, Bool.and_eq_true, KernelTask.isBusy, Option.isSome_iff_exists] at hbusy
  obtain ⟨tid, htid⟩ := hbusy.1.2
  refine ⟨tid, htid, ?_⟩
  rw [htid] at howner
  simp [System.step, System.stepResult, htid, hpanic, hcall, howner, hcount]

theorem unlock_release {tid : TId} {m : ℕ} (hcount : (s.mutex m).recursionCount = 1)
    (hnil : s.kernel.waitList (.mutex m) = []) : (s.unlock cfg tid m).mutex m = ⟨none, 0⟩ := by
  obtain ⟨hne, -⟩ | ⟨-, -, heq⟩ | ⟨w, rest, -, hw, -⟩ := unlock_cases cfg s tid m
  · exact absurd (by omega) hne
  · rw [heq]
    simp
  · rw [hnil] at hw
    cases hw

theorem SameSlot.inheritWeight (cfg : Config) (i : Fin n) (k : Kernel n σ) (tid : Option TId) (w : ℤ) :
    SameSlot i k (k.inheritWeight cfg tid w) := by
  cases tid with
  | none => exact .refl i k
  | some u => exact .onInheritWeight cfg i k u w

/-- INTERNAL: the waiter `w` after the hand-over: it is unlinked, signalled and wakes at the
next tick. -/
theorem handOver_slot (cfg : Config) {k : Kernel n σ} {w : Fin n} {m : ℕ}
    (ho : (k.tasks w).waitObj.syncObj = some (.mutex m)) :
    ((k.handOver cfg m w).tasks w).user = (k.tasks w).user ∧
      ((k.handOver cfg m w).tasks w).removePending = (k.tasks w).removePending ∧
      ((k.handOver cfg m w).tasks w).timeSleep = -1 ∧
      ((k.handOver cfg m w).tasks w).waitObj = ⟨none, false, 0⟩ ∧
      ((k.handOver cfg m w).call w).map WaitCall.syncObj = (k.call w).map WaitCall.syncObj := by
  have hslot := SameSlot.inheritWeight cfg w (k.wakeWaitObj w false) (k.tasks w).user
    ((k.wakeWaitObj w false).findWeightHigherThan cfg (.mutex m)
      (((k.tasks w).user.map cfg.weight).getD noWeight))
  unfold Kernel.handOver
  dsimp only
  rw [hslot.user, hslot.remove, hslot.time, hslot.waitObj, hslot.call, wakeWaitObj_eq ho]
  refine ⟨by simp, by simp, by simp, by simp, ?_⟩
  simp only [Function.update_self, Option.map_map]
  cases k.call w <;> rfl

/-- INTERNAL: a task whose wait has ended and that wakes at the next tick has its result after
that tick. -/
theorem waitResult_onTick {k : Kernel n σ} {w : Fin n} (hk : Linked k)
    (hbusy : (k.tasks w).user ≠ none) (hlive : (k.tasks w).removePending = false)
    (htime : (k.tasks w).timeSleep = -1) (hwait : (k.tasks w).waitObj = ⟨none, false, 0⟩)
    (hcall : k.call w ≠ none) {e : ℤ} (he : 0 < e)
    (hout : switchedOut cfg
      (({ k with ticks := k.ticks + e } : Kernel n σ).updateTasks cfg e).1 ≠ some w) :
    (k.onTick cfg e).1.waitResult w = some .signal := by
  have htick := SameSlot.onTick hk hbusy (by omega) hlive (Or.inl (by rw [hwait])) e hout
  have hawake : ((k.onTick cfg e).1.tasks w).isSleeping = false := by
    rw [KernelTask.isSleeping, htick.time]
    simp only [SameSlot.advanced, Kernel.setTask, Function.update_self, htime, decide_eq_false_iff_not]
    omega
  have hflag : ((k.onTick cfg e).1.tasks w).waitObj.timeout = false := by
    rw [htick.waitObj]
    simp [SameSlot.advanced, Kernel.setTask, hwait]
  obtain ⟨c, hc⟩ := Option.ne_none_iff_exists'.mp hcall
  have hc' : (k.onTick cfg e).1.call w = some c := htick.call.trans hc
  simp [Kernel.waitResult, hc', hawake, hflag]

namespace MutexOk

theorem unlock_handOver (h : MutexOk s) {i : Fin n} {tid : TId} {m : ℕ}
    (hi : (s.kernel.tasks i).user = some tid) (hcall : s.kernel.canCall i = true)
    (howner : (s.mutex m).ownerTid = some tid) (hcount : (s.mutex m).recursionCount = 1)
    (hne : s.kernel.waitList (.mutex m) ≠ []) : ∃ w ∈ s.kernel.waitList (.mutex m),
      (∀ j ∈ s.kernel.waitList (.mutex m), s.arrival w ≤ s.arrival j) ∧
      (s.unlock cfg tid m).mutex m = ⟨(s.kernel.tasks w).user, 1⟩ ∧
      Handed (s.unlock cfg tid m) m w ∧
      ∀ e, 0 < e → switchedOut cfg (({ (s.unlock cfg tid m).kernel with
          ticks := (s.unlock cfg tid m).kernel.ticks + e } : Kernel n σ).updateTasks cfg e).1 ≠ some w →
        ((s.unlock cfg tid m).kernel.onTick cfg e).1.waitResult w = some .signal := by
  have hafter : MutexOk (s.unlock cfg tid m) := h.unlock hi (h.lock_none hcall) howner
  have hk := SameCalls.restoreWeight cfg s.kernel (some tid) none
  obtain ⟨hne', -⟩ | ⟨-, hnil, -⟩ | ⟨w, rest, -, hw, heq⟩ := unlock_cases cfg s tid m
  · exact absurd (by omega) hne'
  · exact absurd hnil hne
  · have hmem : w ∈ s.kernel.waitList (.mutex m) := by rw [hw]; exact List.mem_cons_self
    have hobj := (h.linked.mem w _).mpr hmem
    obtain ⟨c, hc, hcm⟩ := Option.map_eq_some_iff.mp (h.idle w m hobj)
    obtain ⟨hbusy, hpending⟩ := h.call w c hc
    obtain ⟨huser, hremove, htime, hwait, hcall'⟩ :=
      handOver_slot cfg (w := w) (m := m) (by rw [hk.waitObj]; exact hobj)
    rw [hk.user] at huser
    rw [hk.remove] at hremove
    rw [hk.call, hpending] at hcall'
    refine ⟨w, hmem, fun j hj => ?_, by rw [heq]; simp, ?_, fun e he hout => ?_⟩
    · -- the wait list is ordered by arrival
      rw [hw] at hj
      have horder := h.order m
      rw [hw] at horder
      rcases List.mem_cons.mp hj with rfl | hj
      · exact le_rfl
      · exact le_of_lt ((List.pairwise_cons.mp horder).1 j hj)
    · rw [heq]
      refine ⟨by simp [hc, hcm], ?_, ?_⟩
      · rw [show (({ s with
          kernel := (s.kernel.restoreWeight cfg (some tid) none).handOver cfg m w
          mutex := Function.update s.mutex m ⟨(s.kernel.tasks w).user, 1⟩
          held := Function.update s.held m (Function.update (s.held m) tid (s.held m tid + -1)) } :
            System n σ).kernel.tasks w).waitObj = ⟨none, false, 0⟩ from hwait]
      · rw [show (({ s with
          kernel := (s.kernel.restoreWeight cfg (some tid) none).handOver cfg m w
          mutex := Function.update s.mutex m ⟨(s.kernel.tasks w).user, 1⟩
          held := Function.update s.held m (Function.update (s.held m) tid (s.held m tid + -1)) } :
            System n σ).kernel.tasks w).waitObj = ⟨none, false, 0⟩ from hwait]
    · have hlinked := hafter.linked
      rw [heq] at hlinked hout ⊢
      refine waitResult_onTick hlinked (by rw [huser]; exact hbusy) (by rw [hremove]; exact h.live w)
        htime hwait (fun hnone => ?_) he hout
      rw [hnone] at hcall'
      cases hcall'

theorem step_lockReturn (h : MutexOk s) (cfg : Config) {i : Fin n} {m : ℕ} (hpanic : s.panic = false)
    (hh : Handed s m i) {r : WaitResult} (hr : s.kernel.waitResult i = some r) :
    (s.stepResult cfg (.lockReturn i)).2 = some true := by
  obtain ⟨u, hu, howner, hcount⟩ := h.handed_owner hh
  obtain ⟨hlock, hobj, ht⟩ := hh
  obtain ⟨c, hc, rfl⟩ := Option.map_eq_some_iff.mp hlock
  have hsignal : r = .signal := by
    unfold Kernel.waitResult at hr
    split at hr
    · cases hr
    · split at hr
      · cases hr
      · rw [ht] at hr
        exact (Option.some.inj hr).symm
  subst hsignal
  simp [System.stepResult, hu, hc, hr, hpanic, System.lockReturn, howner, hcount]

/-- INTERNAL: `TimedLock` returns true on its recursive and its fast path. -/
theorem timedLock_true {i : Fin n} {tid : TId} {m : ℕ} {timeout : ℤ}
    (hr : (s.timedLock cfg i tid m timeout).2 = some true) :
    (((s.timedLock cfg i tid m timeout).1.mutex m).ownerTid = some tid) ∧
      (s.timedLock cfg i tid m timeout).1.held m tid = s.held m tid + 1 := by
  unfold System.timedLock at hr ⊢
  dsimp only at hr ⊢
  split
  · next hrec =>
    rw [if_pos hrec] at hr
    split
    · simp [System.setMutex, System.book, hrec.2]
    · next hmax =>
      rw [if_neg hmax] at hr
      cases hr
  · next hrec =>
    rw [if_neg hrec] at hr
    split
    · next hzero =>
      rw [if_pos hzero] at hr
      split
      · next hne =>
        rw [if_pos hne] at hr
        cases hr
      · simp [System.setMutex, System.book]
    · next hcount =>
      rw [if_neg hcount] at hr
      split at hr
      · split at hr
        · split at hr <;> cases hr
        · cases hr
      · cases hr

/-- INTERNAL: `TimedLock` returns false at once when the mutex is taken and the timeout is
`NO_WAIT`. -/
theorem timedLock_false {i : Fin n} {tid : TId} {m : ℕ} {timeout : ℤ}
    (hr : (s.timedLock cfg i tid m timeout).2 = some false) :
    (s.timedLock cfg i tid m timeout).1 = s ∧ (s.mutex m).ownerTid ≠ some tid := by
  unfold System.timedLock at hr ⊢
  dsimp only at hr ⊢
  split
  · next hrec =>
    rw [if_pos hrec] at hr
    split at hr <;> cases hr
  · next hrec =>
    rw [if_neg hrec] at hr
    split
    · next hzero =>
      rw [if_pos hzero] at hr
      split at hr <;> cases hr
    · next hcount =>
      rw [if_neg hcount] at hr
      split
      · next htime =>
        rw [if_pos htime] at hr
        split at hr
        · split at hr <;> cases hr
        · cases hr
      · exact ⟨rfl, fun heq => hrec ⟨hcount, heq⟩⟩

theorem contract_granted {i : Fin n} {m : ℕ} {e : SystemEvent n}
    (he : IsLock s i m e) (hr : (s.stepResult cfg e).2 = some true) :
    ∃ u, (s.kernel.tasks i).user = some u ∧ ((s.step cfg e).mutex m).ownerTid = some u ∧
      (s.step cfg e).held m u = s.held m u + 1 := by
  cases e with
  | timedLock j m' timeout =>
    obtain ⟨rfl, rfl⟩ := he
    simp only [System.step, System.stepResult] at hr ⊢
    cases hu : (s.kernel.tasks j).user with
    | none => rw [hu] at hr; cases hr
    | some tid =>
      rw [hu] at hr
      dsimp only at hr ⊢
      split
      · next hmode =>
        rw [if_pos hmode] at hr
        exact ⟨tid, rfl, timedLock_true hr⟩
      · next hmode =>
        rw [if_neg hmode] at hr
        cases hr
  | lockReturn j =>
    obtain ⟨rfl, hm⟩ := he
    simp only [System.step, System.stepResult] at hr ⊢
    split at hr
    · next tid c r hu hc hres =>
      obtain rfl : c.mutex = m := by simpa [hc] using hm
      split at hr
      · next hmode =>
        rw [if_pos hmode]
        refine ⟨tid, hu, ?_⟩
        cases r with
        | timeout => cases hr
        | signal =>
          simp only [System.lockReturn] at hr ⊢
          split
          · next hbad =>
            rw [if_pos hbad] at hr
            cases hr
          · next hok =>
            exact ⟨not_not.mp (not_or.mp hok).1, by simp [System.book]⟩
      · cases hr
    · cases hr
  | unlock j m' => exact he.elim
  | kernel e => exact he.elim

theorem contract_refused (h : MutexOk s) {i : Fin n} {m : ℕ} {e : SystemEvent n}
    (he : IsLock s i m e) (hr : (s.stepResult cfg e).2 = some false) :
    (s.step cfg e).mutex = s.mutex ∧ (s.step cfg e).held = s.held ∧
      (s.mutex m).ownerTid ≠ (s.kernel.tasks i).user := by
  cases e with
  | timedLock j m' timeout =>
    obtain ⟨rfl, rfl⟩ := he
    simp only [System.step, System.stepResult] at hr ⊢
    cases hu : (s.kernel.tasks j).user with
    | none => rw [hu] at hr; cases hr
    | some tid =>
      rw [hu] at hr
      dsimp only at hr ⊢
      split
      · next hmode =>
        rw [if_pos hmode] at hr
        obtain ⟨heq, hne⟩ := timedLock_false hr
        rw [heq]
        exact ⟨rfl, rfl, hne⟩
      · next hmode =>
        rw [if_neg hmode] at hr
        cases hr
  | lockReturn j =>
    obtain ⟨rfl, hm⟩ := he
    simp only [System.step, System.stepResult] at hr ⊢
    split at hr
    · next tid c r hu hc hres =>
      obtain rfl : c.mutex = m := by simpa [hc] using hm
      split at hr
      · next hmode =>
        rw [if_pos hmode]
        cases r with
        | signal =>
          simp only [System.lockReturn] at hr
          split at hr <;> cases hr
        | timeout =>
          refine ⟨rfl, rfl, ?_⟩
          have hflag := waitResult_flag hres
          rcases h.waiting j c hc with ⟨-, -, hne⟩ | ⟨-, -, hne⟩ | ⟨-, ht, -⟩
          · exact hne
          · exact hne
          · rw [ht] at hflag
            cases hflag
      · cases hr
    · cases hr
  | unlock j m' => exact he.elim
  | kernel e => exact he.elim

end MutexOk

/-- **The mutex contract.**  After every run of any number of tasks in which no task is removed
and none is bound twice, the contract holds of every mutex. -/
theorem run_mutexContract (cfg : Config) (es : List (SystemEvent n))
    (hes : Runs.Along (System.step cfg) Steady (System.initial : System n σ) es) :
    MutexContract cfg (System.run cfg es : System n σ) := by
  have h : MutexOk (System.run cfg es : System n σ) := run_mutexOk hes
  generalize (System.run cfg es : System n σ) = s at h
  refine ⟨h.free, fun m u howner => ?_, fun m u hne => ?_, h.owned, fun i m hp hc ho hn hnil => ?_,
    fun i m hp hc ho hn hne => ?_, fun i m hp hh r hr => h.step_lockReturn cfg hp hh hr,
    fun i m e he hr => MutexOk.contract_granted he hr, fun i m e he hr => h.contract_refused he hr⟩
  · have hl := h.ledger m u
    rw [if_pos howner] at hl
    omega
  · have hl := h.ledger m u
    by_contra howner
    rw [if_neg howner] at hl
    exact hne hl
  · obtain ⟨tid, -, hstep⟩ := step_unlock cfg hp hc ho hn
    rw [hstep]
    exact unlock_release hn hnil
  · obtain ⟨tid, htid, hstep⟩ := step_unlock cfg hp hc ho hn
    rw [hstep]
    exact h.unlock_handOver htid hc (ho.trans htid) hn hne

/-- Task 0 holds mutex 0 while task 1 queues up, and unlocks it. -/
def contendedLock : List (SystemEvent 2) :=
  [.kernel (.addTask 0), .kernel (.addTask 1), .kernel .onStart, .timedLock 0 0 waitInfinite,
    .kernel (.onTick 1), .timedLock 1 0 10, .kernel (.onTick 1), .unlock 0 0]

theorem contendedLock_contract :
    Runs.Along (System.step syncConfig) Steady (System.initial : System 2 (RoundRobin (Fin 2)))
        contendedLock ∧
      MutexContract syncConfig (System.run syncConfig contendedLock : System 2 (RoundRobin (Fin 2))) ∧
      (System.run syncConfig contendedLock : System 2 (RoundRobin (Fin 2))).mutex 0 = ⟨some 1, 1⟩ := by
  have hsteady : Runs.Along (System.step syncConfig) Steady
      (System.initial : System 2 (RoundRobin (Fin 2))) contendedLock :=
    ⟨rfl, rfl, rfl, trivial, rfl, trivial, rfl, trivial, trivial⟩
  exact ⟨hsteady, run_mutexContract syncConfig contendedLock hsteady, by decide⟩

end Stk.Analysis
