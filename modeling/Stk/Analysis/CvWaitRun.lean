import Stk.Analysis.CvWaitInvariant
import Stk.Analysis.StrategyListInvariant

/-!
# Is `ConditionVariable::Wait` atomic?

With a `sync::Mutex` as the lock, `Wait` releases the mutex and blocks in separate steps.  A
tick between `ScheduleSleep` and `Unlock` takes the owner out of scheduling, and a
notification between `SetupWait` and `ScheduleSleep` is lost (`interrupted_wait`).
`run_waitAtomic` says that nothing else goes wrong: a run without these two keeps the promises
of `Wait`.
-/

set_option autoImplicit false

namespace Stk.Analysis

open Stk.Model Stk.Model.Kernel

variable {n : ℕ} {σ : Type} [SwitchStrategy (Fin n) σ] {cfg : Config} {s s' : CvSystem n σ}
  {k k' : Kernel n σ} {i : Fin n}

/-- The mutex of a pending `Wait` by task `u`: held once until the `Unlock`, not held after
it. -/
def OwnerOk (w : CvWait) (x : Mutex) (u : Option TId) : Prop :=
  if w.stage = .released then x.ownerTid ≠ u else x.ownerTid = u ∧ x.recursionCount = 1

/-- What holds between the steps of the system. -/
structure CvOk (cfg : Config) (s : CvSystem n σ) : Prop where
  waits : WaitsOk cfg s.waiting s.system.kernel
  locking : ∀ i, s.system.lock i ≠ none → s.waiting i = none ∧ s.system.kernel.call i ≠ none
  owner : ∀ i w, s.waiting i = some w →
    OwnerOk w (s.system.mutex w.mutex) (s.system.kernel.tasks i).user

/-! ## Calls that leave the slots alone -/

theorem WaitsOk.inheritWeight {waiting : Fin n → Option CvWait} (h : WaitsOk cfg waiting k)
    (tid : Option TId) (w : ℤ) : WaitsOk cfg waiting (k.inheritWeight cfg tid w) := by
  have hsame := SameCalls.inheritWeight cfg k tid w
  apply h.frame
  · intro i
    cases tid with
    | none => exact .refl i k
    | some u => exact .onInheritWeight cfg i k u w
  · exact hsame.request
  · exact hsame.waitList
  · exact hsame.syncList

theorem WaitsOk.restoreWeight {waiting : Fin n → Option CvWait} (h : WaitsOk cfg waiting k)
    (tid : Option TId) (o : Option SyncId) : WaitsOk cfg waiting (k.restoreWeight cfg tid o) := by
  have hsame := SameCalls.restoreWeight cfg k tid o
  apply h.frame
  · intro i
    cases tid with
    | none => exact .refl i k
    | some u => exact .onRestoreWeight cfg i k u o
  · exact hsame.request
  · exact hsame.waitList
  · exact hsame.syncList

omit [SwitchStrategy (Fin n) σ] in
/-- INTERNAL: the waiters of a mutex are not inside `Wait`. -/
theorem WaitsOk.mutex_waiter {waiting : Fin n → Option CvWait} (h : WaitsOk cfg waiting k) {m : ℕ}
    (hobj : (k.tasks i).waitObj.syncObj = some (.mutex m)) : waiting i = none := by
  by_contra hne
  obtain ⟨w, hw⟩ := Option.ne_none_iff_exists'.mp hne
  rcases (h.inside i w hw).place with hplace | ⟨-, hplace, -⟩
  · rw [hobj] at hplace
    cases hplace
  · rw [hobj] at hplace
    cases hplace

theorem WaitsOk.handOver {waiting : Fin n → Option CvWait} (h : WaitsOk cfg waiting k) {m : ℕ}
    (hobj : (k.tasks i).waitObj.syncObj = some (.mutex m)) :
    WaitsOk cfg waiting (k.handOver cfg m i) := by
  have hlate : (waiting i).any CvWait.early = false := by
    rw [h.mutex_waiter hobj]
    rfl
  exact (h.wakeWaitObj hobj hlate false).1.inheritWeight _ _

namespace CvOk

omit [SwitchStrategy (Fin n) σ] in
/-- INTERNAL: a task that may make calls is not inside `Wait` or `TimedLock`. -/
theorem free (h : CvOk cfg s) (hcall : s.system.kernel.call i = none) :
    s.waiting i = none ∧ s.system.lock i = none := by
  refine ⟨(h.waits.of_call_none hcall).2, ?_⟩
  by_contra hlock
  exact (h.locking i hlock).2 hcall

omit [SwitchStrategy (Fin n) σ] in
/-- INTERNAL: a task `u` that is not inside `Wait` is not the one that is. -/
theorem user_ne (h : CvOk cfg s) {j : Fin n} {u : TId} {w : CvWait}
    (hj : (s.system.kernel.tasks j).user = some u) (hout : s.waiting j = none) (hi : s.waiting i = some w) :
    (s.system.kernel.tasks i).user ≠ some u := by
  intro hu
  have heq : i = j := h.waits.distinct i j u hu hj
  rw [heq, hout] at hi
  cases hi

end CvOk

/-! ## The mutexes -/

/-- What an `Unlock` of mutex `m` by its owner `tid` does to the waits. -/
structure Unlocked (cfg : Config) (waiting : Fin n → Option CvWait) (m : ℕ) (tid : TId) (s t : System n σ) :
    Prop where
  waits : WaitsOk cfg waiting t.kernel
  lock : t.lock = s.lock
  user : ∀ i, (t.kernel.tasks i).user = (s.kernel.tasks i).user
  call : ∀ i, t.kernel.call i = none ↔ s.kernel.call i = none
  other : ∀ m', m' ≠ m → t.mutex m' = s.mutex m'
  kept : (s.mutex m).recursionCount ≠ 1 → (s.mutex m).ownerTid = some tid →
    (t.mutex m).ownerTid = some tid
  passed : (s.mutex m).recursionCount = 1 → ∀ i, (s.kernel.tasks i).user ≠ none →
    (∀ m', (s.kernel.tasks i).waitObj.syncObj ≠ some (.mutex m')) →
    (t.mutex m).ownerTid ≠ (s.kernel.tasks i).user

theorem unlock_spec {waiting : Fin n → Option CvWait} {s : System n σ} (h : WaitsOk cfg waiting s.kernel)
    {m : ℕ} (tid : TId) (hcount : (s.mutex m).recursionCount ≠ 0) :
    Unlocked cfg waiting m tid s (s.unlock cfg tid m) := by
  have hsame := SameCalls.restoreWeight cfg s.kernel (some tid) none
  have hrestore := h.restoreWeight (some tid) none
  obtain ⟨hmore, heq⟩ | ⟨hlast, -, heq⟩ | ⟨w, rest, hlast, hlist, heq⟩ := unlock_cases cfg s tid m
  · rw [heq]
    constructor
    · exact h
    · rfl
    · exact fun _ => rfl
    · exact fun _ => Iff.rfl
    · intro m' hm'
      simp [System.book, System.setMutex, hm']
    · intro _ howner
      simpa [System.book, System.setMutex] using howner
    · intro hone
      omega
  · rw [heq]
    constructor
    · exact hrestore
    · rfl
    · exact hsame.user
    · intro i
      dsimp only
      rw [hsame.call]
    · intro m' hm'
      simp [hm']
    · intro hne
      omega
    · intro _ i hbusy _
      simpa using Ne.symm hbusy
  · rw [heq]
    have hobj : ((s.kernel.restoreWeight cfg (some tid) none).tasks w).waitObj.syncObj = some (.mutex m) := by
      rw [hrestore.queued.mem, hsame.waitList, hlist]
      exact List.mem_cons_self
    have hwait : (s.kernel.tasks w).waitObj.syncObj = some (.mutex m) := by
      rw [← hsame.waitObj]
      exact hobj
    have hwake := wakeWaitObj_eq hobj false
    have hinherit := SameCalls.inheritWeight cfg ((s.kernel.restoreWeight cfg (some tid) none).wakeWaitObj w false)
      ((s.kernel.restoreWeight cfg (some tid) none).tasks w).user
      (((s.kernel.restoreWeight cfg (some tid) none).wakeWaitObj w false).findWeightHigherThan cfg (.mutex m)
        ((((s.kernel.restoreWeight cfg (some tid) none).tasks w).user.map cfg.weight).getD noWeight))
    constructor
    · exact hrestore.handOver hobj
    · rfl
    · intro i
      exact (hinherit.user i).trans (((wakeWaitObj_fsm w false).2.2 i).trans (hsame.user i))
    · intro i
      show (Kernel.handOver cfg _ m w).call i = none ↔ _
      have hcall : (Kernel.handOver cfg (s.kernel.restoreWeight cfg (some tid) none) m w).call =
          ((s.kernel.restoreWeight cfg (some tid) none).wakeWaitObj w false).call := hinherit.call
      rw [hcall, hwake, ← hsame.call]
      dsimp only
      by_cases hi : i = w
      · subst hi
        simp
      · simp [hi]
    · intro m' hm'
      simp [hm']
    · intro hne
      omega
    · intro _ i hbusy hno howner
      simp only [Function.update_self] at howner
      obtain ⟨u, hu⟩ := Option.ne_none_iff_exists'.mp hbusy
      have hiw : i = w := h.distinct i w u hu (howner.trans hu)
      subst hiw
      exact hno m hwait

/-! ## Locking and unlocking -/

namespace CvOk

omit [SwitchStrategy (Fin n) σ] in
/-- INTERNAL: the kernel and the calls change, the mutexes and the bound tasks do not. -/
theorem keep (h : CvOk cfg s) {t : System n σ} (hwaits : WaitsOk cfg s.waiting t.kernel)
    (hlocking : ∀ j, t.lock j ≠ none → s.waiting j = none ∧ t.kernel.call j ≠ none)
    (huser : ∀ j, (t.kernel.tasks j).user = (s.system.kernel.tasks j).user)
    (hmutex : t.mutex = s.system.mutex) : CvOk cfg { s with system := t } where
  waits := hwaits
  locking := hlocking
  owner j w hw := by
    dsimp only
    rw [hmutex, huser]
    exact h.owner j w hw

omit [SwitchStrategy (Fin n) σ] in
/-- INTERNAL: one mutex changes. -/
theorem setMutex (h : CvOk cfg s) {m : ℕ} {x : Mutex} (held : ℕ → TId → ℤ)
    (hx : ∀ j w, s.waiting j = some w → w.mutex = m → OwnerOk w x (s.system.kernel.tasks j).user) :
    CvOk cfg { s with system := { s.system with mutex := Function.update s.system.mutex m x, held := held } } where
  waits := h.waits
  locking := h.locking
  owner j w hw := by
    dsimp only
    by_cases hm : w.mutex = m
    · rw [hm, Function.update_self]
      exact hx j w hw hm
    · rw [Function.update_of_ne hm]
      exact h.owner j w hw

/-- INTERNAL: `TimedLock` of a task that may make calls. -/
theorem timedLock (h : CvOk cfg s) {tid : TId} {m : ℕ} {timeout : ℤ}
    (hi : (s.system.kernel.tasks i).user = some tid) (hcall : s.system.kernel.call i = none)
    (hle : timeout ≤ waitInfinite) :
    CvOk cfg { s with system := (s.system.timedLock cfg i tid m timeout).1 } := by
  obtain ⟨hout, hlock⟩ := h.free hcall
  unfold System.timedLock
  dsimp only
  split
  · next hrec =>
    split
    · apply h.setMutex
      intro j w hw hm
      have hne := h.user_ne hi hout hw
      have howner := h.owner j w hw
      rw [hm] at howner
      unfold OwnerOk at howner ⊢
      split at howner
      · next hstage =>
        rw [if_pos hstage]
        exact howner
      · exact absurd (howner.1.symm.trans hrec.2) hne
    · exact h
  · next hrec =>
    split
    · next hzero =>
      split
      · exact ⟨h.waits, h.locking, h.owner⟩
      · apply h.setMutex
        intro j w hw hm
        have hne := h.user_ne hi hout hw
        have howner := h.owner j w hw
        rw [hm] at howner
        unfold OwnerOk at howner ⊢
        split at howner
        · next hstage =>
          rw [if_pos hstage]
          exact Ne.symm hne
        · omega
    · split
      · next htime =>
        split
        · next hsync =>
          have hsame := SameCalls.inheritWeight cfg s.system.kernel (s.system.mutex m).ownerTid (cfg.weight tid)
          have hwaits := h.waits.inheritWeight (s.system.mutex m).ownerTid (cfg.weight tid)
          generalize s.system.kernel.inheritWeight cfg (s.system.mutex m).ownerTid (cfg.weight tid) = k
            at hsame hwaits
          have hcall' : k.call i = none := by
            rw [hsame.call]
            exact hcall
          have hobj := (hwaits.of_call_none hcall').1
          have hbusy : (k.tasks i).user ≠ none := by
            rw [hsame.user, hi]
            exact Option.some_ne_none tid
          split
          · next hwait => exact absurd hobj (isWaiting_iff.mp hwait)
          · apply h.keep
            · exact hwaits.onTaskWait hsync hcall' hbusy htime hle
            · intro j hj
              dsimp only at hj ⊢
              rw [onTaskWait_eq htime hobj]
              by_cases hji : j = i
              · subst hji
                exact ⟨hout, by simp⟩
              · rw [Function.update_of_ne hji] at hj
                obtain ⟨hfree, hbefore⟩ := h.locking j hj
                rw [← hsame.call] at hbefore
                exact ⟨hfree, by simpa [hji] using hbefore⟩
            · intro j
              dsimp only
              rw [← hsame.user, onTaskWait_eq htime hobj]
              by_cases hji : j = i
              · subst hji
                simp [KernelTask.scheduleSleep]
              · simp [hji]
            · rfl
        · exact h
      · exact h

end CvOk

omit [SwitchStrategy (Fin n) σ] in
/-- INTERNAL: a task that is over with its wait leaves `Wait` or `TimedLock`. -/
theorem CvOk.returned (h : CvOk cfg s) (hobj : (s.system.kernel.tasks i).waitObj.syncObj = none)
    (lock : Fin n → Option LockCall) (hlock : ∀ j, lock j ≠ none → j ≠ i ∧ s.system.lock j ≠ none) :
    CvOk cfg (⟨{ s.system with
      kernel := { s.system.kernel with call := Function.update s.system.kernel.call i none }
      lock := lock }, Function.update s.waiting i none⟩ : CvSystem n σ) where
  waits := h.waits.leave hobj
  locking j hj := by
    obtain ⟨hji, hbefore⟩ := hlock j hj
    dsimp only
    rw [Function.update_of_ne hji, Function.update_of_ne hji]
    exact h.locking j hbefore
  owner j w hw := by
    dsimp only at hw
    by_cases hji : j = i
    · subst hji
      rw [Function.update_self] at hw
      cases hw
    · rw [Function.update_of_ne hji] at hw
      exact h.owner j w hw

omit [SwitchStrategy (Fin n) σ] in
/-- INTERNAL: an awake task that is past `ScheduleSleep` is in no wait any more. -/
theorem WaitsOk.unlinked {waiting : Fin n → Option CvWait} (h : WaitsOk cfg waiting k)
    (hawake : (k.tasks i).isSleeping = false) (hlate : (waiting i).any CvWait.early = false) :
    (k.tasks i).waitObj.syncObj = none := by
  by_contra hobj
  have hs := (h.waiter i hobj).asleep hlate
  simp [KernelTask.isSleeping] at hawake
  omega

omit [SwitchStrategy (Fin n) σ] in
/-- INTERNAL: a task inside `Wait` is awake until its `ScheduleSleep`. -/
theorem WaitsOk.early_awake {waiting : Fin n → Option CvWait} (h : WaitsOk cfg waiting k) {w : CvWait}
    (hw : waiting i = some w) (hearly : CvWait.early w = true) : (k.tasks i).isSleeping = false := by
  rcases (h.inside i w hw).place with hobj | ⟨hlate, -⟩
  · have hwaiter := h.waiter i (by rw [hobj]; exact Option.some_ne_none _)
    have hs := hwaiter.awake (by rw [hw]; exact hearly)
    simpa [KernelTask.isSleeping] using hs
  · rw [hearly] at hlate
    cases hlate

theorem CvOk.lockReturn (h : CvOk cfg s) {tid : TId} {c : LockCall} {r : WaitResult}
    (hc : s.system.lock i = some c) (hr : s.system.kernel.waitResult i = some r) :
    CvOk cfg { s with system := (s.system.lockReturn cfg i tid c r).1 } := by
  have hout : s.waiting i = none := by
    apply (h.locking i _).1
    rw [hc]
    exact Option.some_ne_none c
  have hobj : (s.system.kernel.tasks i).waitObj.syncObj = none := by
    apply h.waits.unlinked (waitResult_awake hr)
    rw [hout]
    rfl
  have hleft := h.returned hobj (Function.update s.system.lock i none) (by
    intro j hj
    by_cases hji : j = i
    · subst hji
      simp at hj
    · rw [Function.update_of_ne hji] at hj
      exact ⟨hji, hj⟩)
  have hsame : Function.update s.waiting i none = s.waiting := by
    rw [← hout]
    exact Function.update_eq_self i s.waiting
  rw [hsame] at hleft
  unfold System.lockReturn
  dsimp only
  cases r with
  | timeout =>
    dsimp only
    split
    · have hrestore := SameCalls.restoreWeight cfg
        ({ s.system.kernel with call := Function.update s.system.kernel.call i none } : Kernel n σ)
        c.ownerTid (some (.mutex c.mutex))
      apply hleft.keep
      · exact hleft.waits.restoreWeight _ _
      · intro j hj
        dsimp only at hj ⊢
        rw [hrestore.call]
        exact hleft.locking j hj
      · exact hrestore.user
      · rfl
    · exact hleft
  | signal =>
    dsimp only
    split
    · exact ⟨h.waits, h.locking, h.owner⟩
    · exact ⟨hleft.waits, hleft.locking, hleft.owner⟩

/-- INTERNAL: `Unlock` by a task that is not inside `Wait`. -/
theorem CvOk.unlock (h : CvOk cfg s) {tid : TId} {m : ℕ}
    (hi : (s.system.kernel.tasks i).user = some tid) (hout : s.waiting i = none)
    (howner : (s.system.mutex m).ownerTid = some tid) (hcount : (s.system.mutex m).recursionCount ≠ 0) :
    CvOk cfg { s with system := s.system.unlock cfg tid m } := by
  have hspec := unlock_spec h.waits tid hcount
  constructor
  · exact hspec.waits
  · intro j hj
    dsimp only at hj ⊢
    rw [hspec.lock] at hj
    obtain ⟨hfree, hcall⟩ := h.locking j hj
    exact ⟨hfree, fun hnone => hcall ((hspec.call j).mp hnone)⟩
  · intro j w hw
    have hbefore := h.owner j w hw
    dsimp only
    rw [hspec.user]
    by_cases hm : w.mutex = m
    · have hne := h.user_ne hi hout hw
      rw [hm] at hbefore ⊢
      unfold OwnerOk at hbefore ⊢
      split at hbefore
      · next hstage =>
        rw [if_pos hstage]
        by_cases hone : (s.system.mutex m).recursionCount = 1
        · apply hspec.passed hone
          · exact (h.waits.inside j w hw).busy
          · intro m' hobj
            rw [h.waits.mutex_waiter hobj] at hw
            cases hw
        · rw [hspec.kept hone howner]
          exact Ne.symm hne
      · exact absurd (hbefore.1.symm.trans howner) hne
    · rw [hspec.other _ hm]
      exact hbefore

/-! ## Notifications -/

/-- What a notification of the tasks in `l` does to the kernel. -/
structure Notified (l : List (Fin n)) (k k' : Kernel n σ) : Prop where
  faults : k'.faults = k.faults
  user : ∀ j, (k'.tasks j).user = (k.tasks j).user
  call : ∀ j, k'.call j = none ↔ k.call j = none
  other : ∀ j, j ∉ l → k'.tasks j = k.tasks j
  woken : ∀ j ∈ l, (k'.tasks j).waitObj = ⟨none, false, 0⟩ ∧ (k'.tasks j).timeSleep = -1

omit [SwitchStrategy (Fin n) σ] in
/-- INTERNAL: one waiter that is past `ScheduleSleep` is notified. -/
theorem WaitsOk.notified {waiting : Fin n → Option CvWait} (h : WaitsOk cfg waiting k) {o : SyncId}
    (hobj : (k.tasks i).waitObj.syncObj = some o) (hlate : (waiting i).any CvWait.early = false) :
    Notified [i] k (k.wakeWaitObj i false) := by
  have hs : (k.tasks i).isSleeping = true := by
    have hwaiter := h.waiter i (by rw [hobj]; exact Option.some_ne_none o)
    simpa [KernelTask.isSleeping] using hwaiter.asleep hlate
  rw [wakeWaitObj_eq hobj, if_pos hs]
  constructor
  · rfl
  · intro j
    by_cases hj : j = i
    · subst hj
      simp
    · simp [hj]
  · intro j
    by_cases hj : j = i
    · subst hj
      simp
    · simp [hj]
  · intro j hj
    have hne : j ≠ i := by simpa using hj
    simp [hne]
  · intro j hj
    obtain rfl : j = i := by simpa using hj
    simp

omit [SwitchStrategy (Fin n) σ] in
/-- INTERNAL: waiters of one object that are all past `ScheduleSleep` are notified in turn. -/
theorem WaitsOk.notifyEach {waiting : Fin n → Option CvWait} {o : SyncId} (l : List (Fin n)) :
    ∀ {k : Kernel n σ}, WaitsOk cfg waiting k → l.Nodup →
      (∀ j ∈ l, (k.tasks j).waitObj.syncObj = some o ∧ (waiting j).any CvWait.early = false) →
      WaitsOk cfg waiting (l.foldl (fun k j => k.wakeWaitObj j false) k) ∧
        Notified l k (l.foldl (fun k j => k.wakeWaitObj j false) k) := by
  induction l with
  | nil =>
    intro k h _ _
    exact ⟨h, rfl, fun _ => rfl, fun _ => Iff.rfl, fun _ _ => rfl, fun j hj => nomatch hj⟩
  | cons i l ih =>
    intro k h hnodup hl
    obtain ⟨hi, hrest⟩ := List.nodup_cons.mp hnodup
    obtain ⟨hobj, hlate⟩ := hl i List.mem_cons_self
    have hfirst := h.notified hobj hlate
    have hsame : ∀ j ∈ l, (k.wakeWaitObj i false).tasks j = k.tasks j := by
      intro j hj
      apply hfirst.other
      intro hmem
      obtain rfl : j = i := by simpa using hmem
      exact hi hj
    obtain ⟨hwaits, htail⟩ := ih (h.wakeWaitObj hobj hlate false).1 hrest (by
      intro j hj
      rw [hsame j hj]
      exact hl j (List.mem_cons_of_mem i hj))
    refine ⟨hwaits, ?_⟩
    rw [List.foldl_cons]
    constructor
    · exact htail.faults.trans hfirst.faults
    · intro j
      exact (htail.user j).trans (hfirst.user j)
    · intro j
      exact (htail.call j).trans (hfirst.call j)
    · intro j hj
      rw [List.mem_cons, not_or] at hj
      rw [htail.other j hj.2]
      exact hfirst.other j (by simpa using hj.1)
    · intro j hj
      rcases List.mem_cons.mp hj with rfl | hj
      · rw [htail.other j hi]
        exact hfirst.woken j (List.mem_singleton.mpr rfl)
      · exact htail.woken j hj

omit [SwitchStrategy (Fin n) σ] in
/-- INTERNAL: a notification keeps the invariant. -/
theorem CvOk.notify (h : CvOk cfg s) {l : List (Fin n)} {k : Kernel n σ} (hwaits : WaitsOk cfg s.waiting k)
    (hnotified : Notified l s.system.kernel k) : CvOk cfg { s with system := { s.system with kernel := k } } := by
  apply h.keep
  · exact hwaits
  · intro j hj
    obtain ⟨hfree, hcall⟩ := h.locking j hj
    exact ⟨hfree, fun hnone => hcall ((hnotified.call j).mp hnone)⟩
  · exact hnotified.user
  · rfl

/-! ## The steps of `Wait` -/

namespace CvOk

omit [SwitchStrategy (Fin n) σ] in
/-- INTERNAL: the first step of `Wait`, by an awake task that holds the mutex once. -/
theorem wait (h : CvOk cfg s) (hsync : cfg.isSyncMode = true) (hcall : s.system.kernel.call i = none)
    (hbusy : (s.system.kernel.tasks i).user ≠ none) (hs : (s.system.kernel.tasks i).isSleeping = false)
    {cv m : ℕ} {timeout : ℤ} (hle : timeout ≤ waitInfinite)
    (howner : (s.system.mutex m).ownerTid = (s.system.kernel.tasks i).user)
    (hcount : (s.system.mutex m).recursionCount = 1) : CvOk cfg (s.wait i cv m timeout) := by
  obtain ⟨hout, hlock⟩ := h.free hcall
  have huser : ∀ j, ((s.system.kernel.setupWait i (.object cv) timeout).tasks j).user =
      (s.system.kernel.tasks j).user := by
    intro j
    by_cases hj : j = i
    · subst hj
      simp [Kernel.setupWait, Kernel.setTask]
    · simp [Kernel.setupWait, Kernel.setTask, hj]
  constructor
  · exact h.waits.setupWait hsync hcall hbusy hs hle
  · intro j hj
    have hji : j ≠ i := by
      rintro rfl
      exact hj hlock
    obtain ⟨hfree, hbefore⟩ := h.locking j hj
    unfold CvSystem.wait
    dsimp only
    rw [Function.update_of_ne hji]
    exact ⟨hfree, by simpa [Kernel.setupWait, Kernel.setTask, hji] using hbefore⟩
  · intro j w hw
    unfold CvSystem.wait at hw ⊢
    dsimp only at hw ⊢
    rw [huser]
    by_cases hji : j = i
    · subst hji
      rw [Function.update_self] at hw
      obtain rfl := Option.some.inj hw
      exact ⟨howner, hcount⟩
    · rw [Function.update_of_ne hji] at hw
      exact h.owner j w hw

omit [SwitchStrategy (Fin n) σ] in
/-- INTERNAL: a step inside `Wait` that leaves the mutexes and the calls alone. -/
theorem advance (h : CvOk cfg s) {w w' : CvWait} (hw : s.waiting i = some w) {k : Kernel n σ}
    (hwaits : WaitsOk cfg (Function.update s.waiting i (some w')) k) (hmutex : w'.mutex = w.mutex)
    (hstage : w.stage ≠ .released) (hstage' : w'.stage ≠ .released)
    (huser : ∀ j, (k.tasks j).user = (s.system.kernel.tasks j).user) (hcall : k.call = s.system.kernel.call) :
    CvOk cfg (⟨{ s.system with kernel := k }, Function.update s.waiting i (some w')⟩ : CvSystem n σ) := by
  constructor
  · exact hwaits
  · intro j hj
    obtain ⟨hfree, hbefore⟩ := h.locking j hj
    have hji : j ≠ i := by
      rintro rfl
      rw [hw] at hfree
      cases hfree
    dsimp only
    rw [Function.update_of_ne hji, hcall]
    exact ⟨hfree, hbefore⟩
  · intro j v hv
    dsimp only at hv ⊢
    rw [huser]
    by_cases hji : j = i
    · subst hji
      rw [Function.update_self] at hv
      obtain rfl := Option.some.inj hv
      have howner := h.owner j w hw
      unfold OwnerOk at howner ⊢
      rw [if_neg hstage] at howner
      rw [if_neg hstage', hmutex]
      exact howner
    · rw [Function.update_of_ne hji] at hv
      exact h.owner j v hv

/-- INTERNAL: the `Unlock` inside `Wait`. -/
theorem released (h : CvOk cfg s) {tid : TId} {w : CvWait} (hi : (s.system.kernel.tasks i).user = some tid)
    (hw : s.waiting i = some w) (hstage : w.stage = .scheduled) :
    CvOk cfg (⟨s.system.unlock cfg tid w.mutex,
      Function.update s.waiting i (some { w with stage := .released })⟩ : CvSystem n σ) := by
  have howner := h.owner i w hw
  unfold OwnerOk at howner
  rw [if_neg (by rw [hstage]; exact fun he => nomatch he)] at howner
  obtain ⟨howner, hone⟩ := howner
  have hspec := unlock_spec h.waits tid (m := w.mutex) (by omega)
  have hpassed : ∀ j v, s.waiting j = some v →
      ((s.system.unlock cfg tid w.mutex).mutex w.mutex).ownerTid ≠ (s.system.kernel.tasks j).user := by
    intro j v hv
    apply hspec.passed hone
    · exact (h.waits.inside j v hv).busy
    · intro m' hobj
      rw [h.waits.mutex_waiter hobj] at hv
      cases hv
  constructor
  · -- the stage of a task that is past `ScheduleSleep` does not matter to the kernel
    apply hspec.waits.update i
    · exact hspec.waits.queued
    · exact fun _ _ => rfl
    · exact fun _ _ => rfl
    · exact fun j hj => Function.update_of_ne hj _ _
    · exact fun o ho => ho
    · rfl
    · rfl
    · rfl
    · intro o ho
      have hlinked : ((s.system.unlock cfg tid w.mutex).kernel.tasks i).waitObj.syncObj ≠ none := by
        rw [ho]
        exact Option.some_ne_none o
      have hwaiter := hspec.waits.waiter i hlinked
      rw [hw, Option.any_some, CvWait.early, hstage] at hwaiter
      refine ⟨hspec.waits.sync i hlinked, ?_, ?_⟩
      · rcases hspec.waits.registered i o ho with hmem | hlinked
        · exact .inl hmem
        · rw [hw, Option.map_some, hstage] at hlinked
          cases hlinked
      · dsimp only
        rw [Function.update_self]
        exact hwaiter
    · intro v hv
      dsimp only at hv
      rw [Function.update_self] at hv
      obtain rfl := Option.some.inj hv
      obtain ⟨hbusy, hcall, hplace⟩ := hspec.waits.inside i w hw
      refine ⟨hbusy, hcall, hplace.imp id ?_⟩
      rintro ⟨-, hnone, htime⟩
      exact ⟨rfl, hnone, htime⟩
  · intro j hj
    dsimp only at hj ⊢
    rw [hspec.lock] at hj
    obtain ⟨hfree, hcall⟩ := h.locking j hj
    have hji : j ≠ i := by
      rintro rfl
      rw [hw] at hfree
      cases hfree
    rw [Function.update_of_ne hji]
    exact ⟨hfree, fun hnone => hcall ((hspec.call j).mp hnone)⟩
  · intro j v hv
    dsimp only at hv ⊢
    rw [hspec.user]
    by_cases hji : j = i
    · subst hji
      rw [Function.update_self] at hv
      obtain rfl := Option.some.inj hv
      exact hpassed j w hw
    · rw [Function.update_of_ne hji] at hv
      have hbefore := h.owner j v hv
      by_cases hm : v.mutex = w.mutex
      · rw [hm] at hbefore ⊢
        unfold OwnerOk at hbefore ⊢
        split at hbefore
        · next hstage =>
          rw [if_pos hstage]
          exact hpassed j v hv
        · -- the mutex has one owner, the task in slot `i`
          obtain ⟨u, hu⟩ := Option.ne_none_iff_exists'.mp (h.waits.inside j v hv).busy
          have hsame : (s.system.kernel.tasks i).user = some u := by
            rw [← howner, hbefore.1, hu]
          exact absurd (h.waits.distinct j i u hu hsame) hji
      · rw [hspec.other _ hm]
        exact hbefore

theorem proceed (h : CvOk cfg s) {tid : TId} {w : CvWait} (hi : (s.system.kernel.tasks i).user = some tid)
    (hw : s.waiting i = some w) : CvOk cfg (s.proceed cfg i tid w) := by
  unfold CvSystem.proceed
  split
  · next hstage =>
    apply h.advance hw
    · exact h.waits.registerSync hw hstage
    · rfl
    · rw [hstage]
      exact fun he => nomatch he
    · exact fun he => nomatch he
    · exact fun _ => rfl
    · rfl
  · next hstage =>
    apply h.advance hw
    · exact h.waits.scheduleSleep hw hstage
    · rfl
    · rw [hstage]
      exact fun he => nomatch he
    · exact fun he => nomatch he
    · exact (SameTasks.scheduleSleep s.system.kernel i waitInfinite).user
    · rfl
  · next hstage => exact h.released hi hw hstage
  · exact h

/-- INTERNAL: the spin is over and the mutex is locked again. -/
theorem relock (h : CvOk cfg s) {tid : TId} {w : CvWait} (hi : (s.system.kernel.tasks i).user = some tid)
    (hw : s.waiting i = some w) (hstage : w.stage = .released) {r : WaitResult}
    (hr : s.system.kernel.waitResult i = some r) : CvOk cfg (s.relock cfg i tid w) := by
  have hobj : (s.system.kernel.tasks i).waitObj.syncObj = none := by
    apply h.waits.unlinked (waitResult_awake hr)
    simp [hw, CvWait.early, hstage]
  have hleft := h.returned hobj s.system.lock (by
    intro j hj
    refine ⟨?_, hj⟩
    rintro rfl
    rw [(h.locking j hj).1] at hw
    cases hw)
  exact hleft.timedLock hi (Function.update_self i none s.system.kernel.call) le_rfl

end CvOk

/-! ## Runs -/

/-- The tick reaches a running kernel. -/
def ticks (cfg : Config) (s : CvSystem n σ) (e : ℤ) : Prop :=
  s.system.panic = false ∧ s.system.kernel.isStarted = true ∧ validElapsed cfg e = true

/-- The events that do not come between the steps of a `Wait`:

* `Wait` is called by an awake task that holds the mutex once;
* a tick does not meet a wait at the wrong moment (`TickOk`);
* a notification does not hit a task on the way into its sleep. -/
def Undivided (cfg : Config) (s : CvSystem n σ) : CvEvent n → Prop
  | .wait i _ m _ => (s.system.mutex m).recursionCount = 1 ∧ (s.system.kernel.tasks i).isSleeping = false
  | .onTick e => ticks cfg s e → TickOk cfg s.waiting e s.system.kernel
  | .notifyOne cv => ∀ i ∈ (s.system.kernel.waitList (.object cv)).head?, (s.waiting i).any CvWait.early = false
  | .notifyAll cv => ∀ i ∈ s.system.kernel.waitList (.object cv), (s.waiting i).any CvWait.early = false
  | _ => True

/-- What `Wait` promises:

* a tick leaves no task inside `Wait` asleep that owns the mutex, and wakes the tasks whose
  wait is over;
* a notification ends the waits of the tasks it is for, and trips no assertion. -/
def Atomic (cfg : Config) (s : CvSystem n σ) (e : CvEvent n) : Prop :=
  match e with
  | .onTick elapsed => ticks cfg s elapsed → ∀ i w, s.waiting i = some w →
    (((s.step cfg e).system.kernel.tasks i).isSleeping = true →
      ((s.step cfg e).system.mutex w.mutex).ownerTid ≠ ((s.step cfg e).system.kernel.tasks i).user) ∧
    ((s.system.kernel.tasks i).waitObj.syncObj = none →
      ((s.step cfg e).system.kernel.tasks i).isSleeping = false)
  | .notifyOne cv => s.system.panic = false →
    Notified (s.system.kernel.waitList (.object cv)).head?.toList s.system.kernel (s.step cfg e).system.kernel
  | .notifyAll cv => s.system.panic = false →
    Notified (s.system.kernel.waitList (.object cv)) s.system.kernel (s.step cfg e).system.kernel
  | _ => True

/-- INTERNAL: a kernel call that no mutex makes. -/
theorem step_direct {e : KernelEvent n} (he : ∀ i, e ≠ .waitReturn i) (hdirect : e.isDirect = true) :
    ({ s with system := s.system.step cfg (.kernel e) } : CvSystem n σ) = if s.system.panic = false then
      { s with system := { s.system with kernel := s.system.kernel.step cfg e } } else s := by
  rw [step_kernel cfg s.system he, hdirect, Bool.and_true]
  by_cases hpanic : s.system.panic = false
  · rw [if_pos hpanic, if_pos (by rw [hpanic]; rfl)]
  · rw [if_neg hpanic, if_neg (by simpa using hpanic)]

/-- INTERNAL: `NotifyOne`. -/
theorem CvOk.notifyOne (h : CvOk cfg s) {cv : ℕ} (he : Undivided cfg s (.notifyOne cv)) :
    CvOk cfg (s.step cfg (.notifyOne cv)) ∧ Atomic cfg s (.notifyOne cv) := by
  have hstep : s.step cfg (.notifyOne cv) = if s.system.panic = false then
      { s with system := { s.system with kernel := s.system.kernel.wakeOne (.object cv) } } else s :=
    step_direct (fun _ => by simp) rfl
  have hnotified : WaitsOk cfg s.waiting (s.system.kernel.wakeOne (.object cv)) ∧
      Notified (s.system.kernel.waitList (.object cv)).head?.toList s.system.kernel
        (s.system.kernel.wakeOne (.object cv)) := by
    unfold Undivided at he
    unfold Kernel.wakeOne
    cases hl : s.system.kernel.waitList (.object cv) with
    | nil => exact ⟨h.waits, rfl, fun _ => rfl, fun _ => Iff.rfl, fun _ _ => rfl, fun j hj => nomatch hj⟩
    | cons i l =>
      have hobj : (s.system.kernel.tasks i).waitObj.syncObj = some (.object cv) := by
        rw [h.waits.queued.mem, hl]
        exact List.mem_cons_self
      have hlate := he i (by rw [hl]; rfl)
      exact ⟨(h.waits.wakeWaitObj hobj hlate false).1, h.waits.notified hobj hlate⟩
  unfold Atomic
  rw [hstep]
  split
  · exact ⟨h.notify hnotified.1 hnotified.2, fun _ => hnotified.2⟩
  · next hpanic => exact ⟨h, fun hp => absurd hp hpanic⟩

/-- INTERNAL: `NotifyAll`. -/
theorem CvOk.notifyAll (h : CvOk cfg s) {cv : ℕ} (he : Undivided cfg s (.notifyAll cv)) :
    CvOk cfg (s.step cfg (.notifyAll cv)) ∧ Atomic cfg s (.notifyAll cv) := by
  have hstep : s.step cfg (.notifyAll cv) = if s.system.panic = false then
      { s with system := { s.system with kernel := s.system.kernel.wakeAll (.object cv) } } else s :=
    step_direct (fun _ => by simp) rfl
  have hnotified := h.waits.notifyEach (o := .object cv) (s.system.kernel.waitList (.object cv))
    (h.waits.queued.nodup _) (fun j hj => ⟨(h.waits.queued.mem j _).mpr hj, he j hj⟩)
  unfold Atomic
  rw [hstep]
  split
  · exact ⟨h.notify hnotified.1 hnotified.2, fun _ => hnotified.2⟩
  · next hpanic => exact ⟨h, fun hp => absurd hp hpanic⟩

/-- INTERNAL: a tick. -/
theorem CvOk.onTick (h : CvOk cfg s) {e : ℤ} (ht : Undivided cfg s (.onTick e)) :
    CvOk cfg (s.step cfg (.onTick e)) ∧ Atomic cfg s (.onTick e) := by
  by_cases hticks : ticks cfg s e
  · have htick : TickOk cfg s.waiting e s.system.kernel := ht hticks
    obtain ⟨hpanic, hstarted, hvalid⟩ := hticks
    have he : 0 < e := by
      simp only [validElapsed, Bool.and_eq_true, decide_eq_true_eq] at hvalid
      omega
    have hstep : s.step cfg (.onTick e) =
        { s with system := { s.system with kernel := (s.system.kernel.onTick cfg e).1 } } := by
      rw [CvSystem.step, step_direct (fun _ => by simp) rfl, if_pos hpanic]
      simp only [Kernel.step, hstarted, hvalid, Bool.and_self, if_true]
    have hsame := onTick_sameTasks cfg h.waits.queued (h.waits.timely htick) h.waits.live h.waits.noRequest
    have hwaits := h.waits.onTick htick he
    have huser : ∀ j, ((s.system.kernel.onTick cfg e).1.tasks j).user = (s.system.kernel.tasks j).user :=
      fun j => (hsame.user j).trans (countedDown_fields cfg e s.system.kernel j).1
    unfold Atomic
    rw [hstep]
    refine ⟨?_, ?_⟩
    · apply h.keep
      · exact hwaits
      · intro j hj
        obtain ⟨hfree, hcall⟩ := h.locking j hj
        refine ⟨hfree, ?_⟩
        show (s.system.kernel.onTick cfg e).1.call j ≠ none
        rw [hsame.call]
        intro hnone
        apply hcall
        exact countedDown_call.mp hnone
      · exact huser
      · rfl
    · intro _ i w hw
      refine ⟨?_, h.waits.ended_onTick htick he hw⟩
      intro hs
      dsimp only at hs ⊢
      rw [huser]
      have howner := h.owner i w hw
      unfold OwnerOk at howner
      cases hstage : w.stage with
      | released => simpa [hstage] using howner
      | scheduled =>
        rw [h.waits.ended_onTick htick he hw (htick.scheduled i w hw hstage)] at hs
        cases hs
      | _ =>
        have hearly : CvWait.early w = true := by simp [CvWait.early, hstage]
        rw [hwaits.early_awake hw hearly] at hs
        cases hs
  · have hstep : s.step cfg (.onTick e) = s := by
      rw [CvSystem.step, step_direct (fun _ => by simp) rfl]
      by_cases hpanic : s.system.panic = false
      · have hidle : (s.system.kernel.isStarted && validElapsed cfg e) = false := by
          rw [Bool.eq_false_iff]
          intro hrun
          rw [Bool.and_eq_true] at hrun
          exact hticks ⟨hpanic, hrun.1, hrun.2⟩
        rw [if_pos hpanic, Kernel.step, hidle]
        rfl
      · rw [if_neg hpanic]
    unfold Atomic
    rw [hstep]
    exact ⟨h, fun hrun => absurd hrun hticks⟩

/-- INTERNAL: one event keeps the invariant and the promises. -/
theorem step_cvOk (h : CvOk cfg s) {e : CvEvent n} (he : Undivided cfg s e) :
    CvOk cfg (s.step cfg e) ∧ Atomic cfg s e := by
  cases e with
  | wait i cv m timeout =>
    refine ⟨?_, trivial⟩
    rw [CvSystem.step]
    split
    · next hguard =>
      simp only [Bool.and_eq_true, decide_eq_true_eq, Kernel.canCall] at hguard
      obtain ⟨⟨⟨⟨⟨⟨⟨-, ⟨-, hbusy⟩, hcall⟩, hsync⟩, -⟩, hle⟩, -⟩, howner⟩, -⟩ := hguard
      have hbusy' : (s.system.kernel.tasks i).user ≠ none := by
        simpa [KernelTask.isBusy, Option.isSome_iff_ne_none] using hbusy
      exact h.wait hsync hcall hbusy' he.2 hle howner he.1
    · exact h
  | proceed i =>
    refine ⟨?_, trivial⟩
    rw [CvSystem.step]
    split
    · next tid w hi hw =>
      split
      · exact h.proceed hi hw
      · exact h
    · exact h
  | relock i =>
    refine ⟨?_, trivial⟩
    rw [CvSystem.step]
    split
    · next tid w r hi hw hr =>
      split
      · next hguard =>
        simp only [Bool.and_eq_true, decide_eq_true_eq] at hguard
        exact h.relock hi hw hguard.2 hr
      · exact h
    · exact h
  | notifyOne cv => exact h.notifyOne he
  | notifyAll cv => exact h.notifyAll he
  | onTick elapsed => exact h.onTick he
  | timedLock i m timeout =>
    refine ⟨?_, trivial⟩
    simp only [CvSystem.step, System.step, System.stepResult]
    cases hi : (s.system.kernel.tasks i).user with
    | none => exact h
    | some tid =>
      dsimp only
      split
      · next hguard =>
        simp only [Bool.and_eq_true, decide_eq_true_eq, Kernel.canCall] at hguard
        exact h.timedLock hi hguard.1.2.2 hguard.2
      · exact h
  | lockReturn i =>
    refine ⟨?_, trivial⟩
    simp only [CvSystem.step, System.step, System.stepResult]
    split
    · next tid c r hi hc hr =>
      split
      · exact h.lockReturn hc hr
      · exact h
    · exact h
  | unlock i m =>
    refine ⟨?_, trivial⟩
    simp only [CvSystem.step, System.step, System.stepResult]
    cases hi : (s.system.kernel.tasks i).user with
    | none => exact h
    | some tid =>
      dsimp only
      split
      · next hguard =>
        simp only [Bool.and_eq_true, decide_eq_true_eq, Kernel.canCall] at hguard
        exact h.unlock hi (h.free hguard.1.1.2.2).1 hguard.1.2 hguard.2
      · exact h
  | sleep i ticks =>
    refine ⟨?_, trivial⟩
    rw [CvSystem.step, step_direct (fun _ => by simp) rfl]
    split
    · rw [Kernel.step]
      split
      · next hguard =>
        simp only [Bool.and_eq_true, decide_eq_true_eq, Bool.not_eq_true', Kernel.canCall] at hguard
        obtain ⟨⟨⟨⟨-, hcall⟩, hmode⟩, -⟩, -⟩ := hguard
        unfold Kernel.onTaskSleep
        rw [hmode]
        dsimp only [Bool.false_eq_true]
        split
        · have hsame := SameTasks.scheduleSleep s.system.kernel i ticks
          apply h.keep
          · exact h.waits.sleep hcall ticks
          · exact h.locking
          · exact hsame.user
          · rfl
        · exact h
      · exact h
    · exact h

omit [SwitchStrategy (Fin n) σ] in
/-- INTERNAL: a system in which no task is inside a call. -/
theorem MutexOk.cvOk {s : System n σ} (h : MutexOk s) (hcall : ∀ i, s.kernel.call i = none)
    (hobj : ∀ i, (s.kernel.tasks i).waitObj.syncObj = none) : CvOk cfg (CvSystem.start s) := by
  have hlock : ∀ i, s.lock i = none := by
    intro i
    by_contra hne
    obtain ⟨c, hc⟩ := Option.ne_none_iff_exists'.mp hne
    have hbusy := (h.call i c hc).2
    rw [hcall] at hbusy
    cases hbusy
  constructor
  · constructor
    · exact h.linked.queued
    · exact fun i hi => absurd (hobj i) hi
    · intro i o hi
      have hnone : (s.kernel.tasks i).waitObj.syncObj = some o := hi
      rw [hobj] at hnone
      cases hnone
    · exact h.distinct
    · exact h.live
    · exact h.noRequest
    · exact fun i hi => absurd (hobj i) hi
    · intro i w hw
      cases hw
  · exact fun i hi => absurd (hlock i) hi
  · intro i w hw
    cases hw

/-- **`Wait` is atomic when nothing divides it.**  In every run in which no event comes between
the steps of a `Wait`, a task inside `Wait` is never switched out asleep while it owns the
mutex, a notification ends the waits it is for without a tripped assertion, and a task whose
wait is over is awake after the next tick. -/
theorem run_waitAtomic {es₀ : List (SystemEvent n)} {es : List (CvEvent n)}
    (hes₀ : Runs.Along (System.step cfg) Steady (System.initial : System n σ) es₀)
    (hcall : ∀ i, (System.run cfg es₀ : System n σ).kernel.call i = none)
    (hobj : ∀ i, ((System.run cfg es₀ : System n σ).kernel.tasks i).waitObj.syncObj = none)
    (hes : Runs.Along (CvSystem.step cfg) (Undivided cfg) (CvSystem.start (System.run cfg es₀ : System n σ)) es) :
    Runs.Along (CvSystem.step cfg) (Atomic cfg) (CvSystem.start (System.run cfg es₀ : System n σ)) es := by
  have hstart : CvOk cfg (CvSystem.start (System.run cfg es₀ : System n σ)) := (run_mutexOk hes₀).cvOk hcall hobj
  generalize CvSystem.start (System.run cfg es₀ : System n σ) = s at hstart hes
  induction es generalizing s with
  | nil => trivial
  | cons e es ih =>
    obtain ⟨hok, hatomic⟩ := step_cvOk hstart hes.1
    exact ⟨hatomic, ih _ hok hes.2⟩

section Runs

/-- INTERNAL: the ticks of a kernel without periods, while all tasks inside `Wait` spin. -/
theorem TickOk.of_released {waiting : Fin n → Option CvWait} {e : ℤ} (hhrt : cfg.isHrtMode = false)
    (hstage : ∀ i, (waiting i).all (fun w => decide (w.stage = .released)) = true)
    (htime : ∀ i, (k.tasks i).waitObj.syncObj ≠ none → (k.tasks i).timeSleep + e < 0) :
    TickOk cfg waiting e k := by
  have hreleased : ∀ i w, waiting i = some w → w.stage = .released := by
    intro i w hw
    have hi := hstage i
    rw [hw] at hi
    simpa using hi
  constructor
  · intro i w hw hearly
    simp [CvWait.early, hreleased i w hw] at hearly
  · intro i w hw hs
    rw [hreleased i w hw] at hs
    cases hs
  · intro i hi _ _
    exact htime i hi
  · intro i _
    exact not_rearms hhrt _ i

/-- Two tasks run. -/
def twoCallers : List (SystemEvent 2) :=
  [.kernel (.addTask 0), .kernel (.addTask 1), .kernel .onStart]

/-- The system in which the two tasks may call `Wait`. -/
def callersSystem : CvSystem 2 (RoundRobin (Fin 2)) :=
  CvSystem.start (System.run syncConfig twoCallers)

/-- Task 0 locks the mutex and is in `Wait` up to `ScheduleSleep`. -/
def scheduledWait : List (CvEvent 2) :=
  [.timedLock 0 0 waitInfinite, .wait 0 0 0 waitInfinite, .proceed 0, .proceed 0]

/-- Task 0 waits, task 1 notifies it with the mutex locked, and task 0 locks the mutex again. -/
def undividedWait : List (CvEvent 2) :=
  scheduledWait ++ [.proceed 0, .onTick 1, .timedLock 1 0 waitInfinite, .notifyOne 0, .unlock 1 0,
    .onTick 1, .relock 0]

/-- Task 0 locks the mutex and calls `Wait`. -/
def linkedWait : List (CvEvent 2) :=
  [.timedLock 0 0 waitInfinite, .wait 0 0 0 waitInfinite]

/-- A wait with nothing in between. -/
theorem undividedWait_atomic :
    Runs.Along (CvSystem.step syncConfig) (Undivided syncConfig) callersSystem undividedWait ∧
      Runs.Along (CvSystem.step syncConfig) (Atomic syncConfig) callersSystem undividedWait ∧
      ((callersSystem.run syncConfig undividedWait).system.mutex 0).ownerTid = some 0 := by
  have hundivided : Runs.Along (CvSystem.step syncConfig) (Undivided syncConfig) callersSystem undividedWait := by
    have hlate : ∀ i, ((callersSystem.run syncConfig (scheduledWait ++
        [.proceed 0, .onTick 1, .timedLock 1 0 waitInfinite])).waiting i).any CvWait.early = false := by
      decide +kernel
    refine ⟨trivial, ⟨?_, ?_⟩, trivial, trivial, trivial, fun _ => .of_released rfl ?_ ?_, trivial,
      fun i _ => hlate i, trivial, fun _ => .of_released rfl ?_ ?_, trivial, trivial⟩
    all_goals decide +kernel
  have hes₀ : Runs.Along (System.step syncConfig) Steady (System.initial : System 2 (RoundRobin (Fin 2))) twoCallers := by
    exact ⟨rfl, rfl, rfl, trivial⟩
  exact ⟨hundivided, run_waitAtomic hes₀ (by decide +kernel) (by decide +kernel) hundivided, by decide +kernel⟩

/-- Two ways to divide a wait: the tick between `ScheduleSleep` and `Unlock` leaves task 0
asleep with the mutex locked; the notification between `SetupWait` and `ScheduleSleep` finds
task 0 awake, and it falls asleep with nobody left to wake it. -/
theorem interrupted_wait :
    (¬Runs.Along (CvSystem.step syncConfig) (Atomic syncConfig) callersSystem (scheduledWait ++ [.onTick 1])) ∧
    (((callersSystem.run syncConfig (scheduledWait ++ [.onTick 1])).system.kernel.taskNow = some 1 ∧
      ((callersSystem.run syncConfig (scheduledWait ++ [.onTick 1])).system.kernel.tasks 0).isSleeping = true ∧
      ((callersSystem.run syncConfig (scheduledWait ++ [.onTick 1])).system.mutex 0).ownerTid = some 0)) ∧
    (¬Runs.Along (CvSystem.step syncConfig) (Atomic syncConfig) callersSystem (linkedWait ++ [.notifyOne 0])) ∧
    ((callersSystem.run syncConfig (linkedWait ++ [.notifyOne 0])).system.kernel.faults = [.wakeNotSleeping] ∧
      ((callersSystem.run syncConfig (linkedWait ++
        [.notifyOne 0, .proceed 0, .proceed 0, .proceed 0, .onTick 1])).system.kernel.tasks 0).timeSleep =
          -waitInfinite + 1 ∧
      (callersSystem.run syncConfig (linkedWait ++
        [.notifyOne 0, .proceed 0, .proceed 0, .proceed 0, .onTick 1])).system.kernel.waitList (.object 0) = []) := by
  refine ⟨?_, by decide +kernel, ?_, by decide +kernel⟩
  · intro h
    have hlast := (Runs.along_append.mp h).2.1
    have hticks : ticks syncConfig (callersSystem.run syncConfig scheduledWait) 1 := by
      refine ⟨?_, ?_, ?_⟩
      all_goals decide +kernel
    exact (hlast hticks 0 ⟨0, 0, .scheduled⟩ (by decide +kernel)).1 (by decide +kernel) (by decide +kernel)
  · intro h
    have hlast := (Runs.along_append.mp h).2.1
    have hfaults := (hlast (by decide +kernel)).faults
    revert hfaults
    decide +kernel

end Runs

end Stk.Analysis
