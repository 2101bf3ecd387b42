import Stk.Analysis.UntimedWait

/-!
# The results of `Wait`

`IKernelService::Wait` takes the end of its caller's sleep for the end of the wait.  The two agree along
steps that keep the sleep counter and the wait object of a task together (`SystemCareful`): there a wait
that is over has been ended by the sync object or by its timeout, and `TimedLock` never finds itself
signalled without owning the mutex.  A `Wait` that was handed a mutex locks it again before it looks at the
wait object; a task that has to wait for the mutex forgets its timeout there (`WaitCareful`).
-/

set_option autoImplicit false

namespace Stk.Analysis

open Stk.Model Stk.Model.Kernel

variable {n : ℕ} {σ : Type} [SwitchStrategy (Fin n) σ] [StrategyLists (Fin n) σ]
  [SleepAware (Fin n) σ] {cfg : Config} {k : Kernel n σ} {s : System n σ}

/-- The steps that keep sleep counters and wait objects in agreement. -/
def SystemCareful (cfg : Config) (s : System n σ) : SystemEvent n → Prop
  | .timedLock i _ _ => (s.kernel.tasks i).removePending = false
  | .kernel e => Careful cfg s.kernel e
  | _ => True

/-- The result `r` of the wait `w` is how the wait was ended. -/
def Truly (k : Kernel n σ) (w : WaitCall) (r : WaitResult) : Prop :=
  r = .signal ∧ w.woken = some false ∨
    r = .timeout ∧ w.woken = some true ∧ w.timeout ≤ k.ticks - w.since

namespace Rest

/-- INTERNAL: a task that does not sleep is in no wait list. -/
theorem unlinked (h : Rest cfg k) {i : Fin n} (hawake : (k.tasks i).isSleeping = false) :
    (k.tasks i).waitObj.syncObj = none := by
  by_contra hne
  obtain ⟨o, ho⟩ := Option.ne_none_iff_exists'.mp hne
  have hs := (h.1.slot i).sleeping ho
  simp [KernelTask.isSleeping] at hawake
  omega

/-- INTERNAL: a signal was one, and a timeout is due. -/
theorem truly (h : Rest cfg k) {i : Fin n} {w : WaitCall} {r : WaitResult} (hw : k.call i = some w)
    (hr : k.waitResult i = some r) : Truly k w r := by
  obtain ⟨hwoken, htime⟩ := (h.1.slot i).returned (h.unlinked (waitResult_awake hr)) w hw
  have hflag := waitResult_flag hr
  cases r with
  | signal => exact .inl ⟨rfl, by rw [hwoken, hflag]; rfl⟩
  | timeout => exact .inr ⟨rfl, by rw [hwoken, hflag]; rfl, htime (by rw [hflag]; rfl)⟩

/-- INTERNAL: a mutex hands on static weights only. -/
theorem inheritWeight (h : Rest cfg k) (hcfg : WeightsOk σ cfg) (tid : Option TId) {w : ℤ}
    (hw : w = noWeight ∨ ∃ u, w = cfg.weight u) : Rest cfg (k.inheritWeight cfg tid w) := by
  cases tid with
  | none => exact h
  | some u =>
    refine ⟨?_, h.2.keep (.onInheritWeight cfg k u w)⟩
    by_cases hpi : SwitchStrategy.priorityInheritanceApi (α := Fin n) σ = true
    · refine h.1.onInheritWeight u (fun hne => ?_)
      obtain ⟨v, rfl⟩ := hw.resolve_left hne
      have hv := hcfg v
      rwa [if_pos (SleepAware.weightApi_of_inheritance hpi)] at hv
    · unfold Kernel.inheritWeight Kernel.onInheritWeight
      simp only [hpi, Bool.not_false, ↓reduceIte]
      exact h.1

theorem restoreWeight (h : Rest cfg k) (hcfg : WeightsOk σ cfg) (tid : Option TId)
    (o : Option SyncId) : Rest cfg (k.restoreWeight cfg tid o) := by
  cases tid with
  | none => exact h
  | some u => exact ⟨h.1.onRestoreWeight hcfg u o, h.2.keep (.onRestoreWeight cfg k u o)⟩

theorem handOver (h : Rest cfg k) (hcfg : WeightsOk σ cfg) {w : Fin n} {m : ℕ}
    (ho : (k.tasks w).waitObj.syncObj = some (.mutex m)) : Rest cfg (k.handOver cfg m w) :=
  (h.wakeWaitObj w ho).inheritWeight hcfg _ (Good.findWeightHigherThan_cases _ _)

end Rest

theorem Rest.timedLock (h : Rest cfg s.kernel) (hcfg : WeightsOk σ cfg) {i : Fin n} {tid : TId} {m : ℕ}
    {timeout : ℤ} (hcall : s.kernel.canCall i = true) (hle : timeout ≤ waitInfinite)
    (hlive : (s.kernel.tasks i).removePending = false) :
    Rest cfg (s.timedLock cfg i tid m timeout).1.kernel := by
  obtain ⟨hstarted, hbusy, -⟩ := canCall_iff.mp hcall
  unfold System.timedLock
  dsimp only
  split
  · split <;> exact h
  · split
    · split <;> exact h
    · split
      · split
        · next hsync =>
          have hk := SameCalls.inheritWeight cfg s.kernel (s.mutex m).ownerTid (cfg.weight tid)
          have hnow : (s.kernel.inheritWeight cfg (s.mutex m).ownerTid (cfg.weight tid)).taskNow =
              s.kernel.taskNow := by
            cases (s.mutex m).ownerTid with
            | none => rfl
            | some u => exact (KeepsBound.onInheritWeight cfg s.kernel u _).1
          have hwait : Rest cfg ((s.kernel.inheritWeight cfg (s.mutex m).ownerTid
              (cfg.weight tid)).onTaskWait i (.mutex m) timeout) :=
            (h.inheritWeight hcfg _ (Or.inr ⟨tid, rfl⟩)).onTaskWait (by rw [hnow]; exact hstarted)
              (by rw [hk.user]; exact hbusy) (by rw [hk.remove]; exact hlive) hsync hle _
          split <;> exact hwait
        · exact h
      · exact h

theorem Rest.unlock (h : Rest cfg s.kernel) (hcfg : WeightsOk σ cfg) (tid : TId) (m : ℕ) :
    Rest cfg (s.unlock cfg tid m).kernel := by
  have hk := SameCalls.restoreWeight cfg s.kernel (some tid) none
  have hrestore := h.restoreWeight hcfg (some tid) none
  obtain ⟨-, heq⟩ | ⟨-, -, heq⟩ | ⟨w, rest, -, hw, heq⟩ := unlock_cases cfg s tid m
  · rw [heq]; exact h
  · rw [heq]; exact hrestore
  · rw [heq]
    refine hrestore.handOver hcfg ?_
    rw [hk.waitObj, h.1.linked.mem, hw]
    exact List.mem_cons_self

/-- INTERNAL: one careful call into the system. -/
theorem systemStep_rest (hcfg : WeightsOk σ cfg) (h : Rest cfg s.kernel) {e : SystemEvent n}
    (he : SystemCareful cfg s e) : Rest cfg (s.step cfg e).kernel := by
  cases e with
  | timedLock i m timeout =>
    simp only [System.step, System.stepResult]
    split
    · exact h
    · split
      · next hmode =>
        simp only [Bool.and_eq_true, decide_eq_true_eq] at hmode
        exact h.timedLock hcfg hmode.1.2 hmode.2 he
      · exact h
  | lockReturn i =>
    simp only [System.step, System.stepResult]
    split
    · next tid c r hu hc hr =>
      split
      · have hret := h.waitReturn hr
        cases r with
        | timeout =>
          simp only [System.lockReturn]
          split
          · exact hret.restoreWeight hcfg _ _
          · exact hret
        | signal =>
          simp only [System.lockReturn]
          split
          · exact h
          · exact hret
      · exact h
    · exact h
  | unlock i m =>
    simp only [System.step, System.stepResult]
    split
    · exact h
    · next tid hu =>
      split
      · exact h.unlock hcfg tid m
      · exact h
  | kernel e =>
    by_cases hret : ∃ i, e = .waitReturn i
    · obtain ⟨i, rfl⟩ := hret
      simp only [System.step, System.stepResult]
      split
      · exact step_rest (e := .waitReturn i) hcfg h trivial
      · exact h
    · rw [step_kernel cfg s (fun i hi => hret ⟨i, hi⟩)]
      split
      · exact step_rest hcfg h he
      · exact h

omit [StrategyLists (Fin n) σ] [SleepAware (Fin n) σ] in
/-- INTERNAL: a free mutex has no owner. -/
theorem MutexOk.timedLock_panic (h : MutexOk s) (i : Fin n) (tid : TId) (m : ℕ) (timeout : ℤ) :
    (s.timedLock cfg i tid m timeout).1.panic = s.panic := by
  unfold System.timedLock
  dsimp only
  split
  · split <;> rfl
  · split
    · next hzero =>
      rw [if_neg (not_not.mpr ((h.free m).mp hzero))]
      rfl
    · split
      · split
        · split <;> rfl
        · rfl
      · rfl

omit [StrategyLists (Fin n) σ] [SleepAware (Fin n) σ] in
theorem unlock_panic (cfg : Config) (tid : TId) (m : ℕ) : (s.unlock cfg tid m).panic = s.panic := by
  obtain ⟨-, heq⟩ | ⟨-, -, heq⟩ | ⟨w, rest, -, -, heq⟩ := unlock_cases cfg s tid m
  · rw [heq]
    rfl
  · rw [heq]
  · rw [heq]

/-- INTERNAL: no careful call ends in a panic. -/
theorem systemStep_panic (hrest : Rest cfg s.kernel) (h : MutexOk s) (hp : s.panic = false)
    (e : SystemEvent n) : (s.step cfg e).panic = false := by
  cases e with
  | timedLock i m timeout =>
    simp only [System.step, System.stepResult]
    split
    · exact hp
    · split
      · exact (h.timedLock_panic _ _ m timeout).trans hp
      · exact hp
  | lockReturn i =>
    simp only [System.step, System.stepResult]
    split
    · next tid c r hu hc hr =>
      split
      · cases r with
        | timeout => exact hp
        | signal =>
          -- the caller is awake, so its wait object is unlinked: it was handed the mutex
          have hflag := waitResult_flag hr
          have hobj := hrest.unlinked (waitResult_awake hr)
          rcases h.waiting i c hc with ⟨ho, -⟩ | ⟨-, ht, -⟩ | ⟨-, -, howner, hcount⟩
          · rw [hobj] at ho
            cases ho
          · rw [ht] at hflag
            cases hflag
          · rw [hu] at howner
            simp only [System.lockReturn, howner, hcount, ne_eq, not_true_eq_false, or_self,
              ↓reduceIte]
            exact hp
      · exact hp
    · exact hp
  | unlock i m =>
    simp only [System.step, System.stepResult]
    split
    · exact hp
    · next tid hu =>
      split
      · exact (unlock_panic cfg tid m).trans hp
      · exact hp
  | kernel e =>
    by_cases hret : ∃ i, e = .waitReturn i
    · obtain ⟨i, rfl⟩ := hret
      simp only [System.step, System.stepResult]
      split <;> exact hp
    · rw [step_kernel cfg s (fun i hi => hret ⟨i, hi⟩)]
      split <;> exact hp

/-! ## Waits that hand over a mutex -/

/-- The steps that keep sleep counters and wait objects in agreement, and timeouts on record: a task whose `Wait`
has timed out does not have to wait for the mutex that it handed over. -/
def WaitCareful (cfg : Config) (s : WaitSystem n σ) : WaitEvent n → Prop
  | .system e => SystemCareful cfg s.system e
  | .wait i _ _ _ => (s.system.kernel.tasks i).removePending = false
  | .waitReturn i => (s.system.kernel.tasks i).removePending = false ∧
    ((s.system.kernel.tasks i).waitObj.timeout = true → ∀ m, s.waiting i = some m → ¬Contended s.system i m)
  | .relockReturn _ => True

/-- The calls that remove no task and bind only tasks that are not bound yet. -/
def WaitSteady (s : WaitSystem n σ) : WaitEvent n → Prop
  | .system e => Steady s.system e
  | _ => True

/-- What a task may rely on while it is inside `Wait`. -/
structure WaitContract (cfg : Config) (s : WaitSystem n σ) : Prop where
  /-- A wait that returns a signal was ended by `Wake(false)`. -/
  signal : ∀ e w, (s.stepResult cfg e).2 = some (w, .signal) → w.woken = some false
  /-- A wait that returns a timeout was ended by `Wake(true)`, and its time is up. -/
  timeout : ∀ e w, (s.stepResult cfg e).2 = some (w, .timeout) →
    w.woken = some true ∧ w.timeout ≤ s.system.kernel.ticks - w.since
  /-- A task inside `Wait` is runnable only when its wait object is unlinked. -/
  unlinked : ∀ i, s.system.kernel.call i ≠ none → (s.system.kernel.tasks i).isSleeping = false →
    (s.system.kernel.tasks i).waitObj.syncObj = none

/-- What holds of a kernel whose tasks hand mutexes to `Wait`: a task that is locking its mutex again was signalled, and
the `Wait` of its `Lock` does not time out. -/
structure RelockOk (cfg : Config) (s : WaitSystem n σ) : Prop where
  rest : Rest cfg s.system.kernel
  inside : ∀ i w, s.ended i = some w → s.system.kernel.call i ≠ none
  signalled : ∀ i w, s.ended i = some w → w.woken = some false
  untimed : ∀ i w, s.ended i = some w → Untimed s.system.kernel i

variable {t : WaitSystem n σ}

omit [StrategyLists (Fin n) σ] [SleepAware (Fin n) σ] in
/-- INTERNAL: a task that has to wait waits without a timeout. -/
theorem relock_untimed {i : Fin n} (hobj : (t.system.kernel.tasks i).waitObj.syncObj = none) (tid : TId) (m : ℕ)
    (hcall : (t.relock cfg i tid m).1.kernel.call i ≠ none) : Untimed (t.relock cfg i tid m).1.kernel i := by
  unfold WaitSystem.relock System.timedLock at hcall ⊢
  dsimp only at hcall ⊢
  have hover : ∀ k : Kernel n σ, k.call = Function.update t.system.kernel.call i none → k.call i = none := by
    intro k hk
    rw [hk]
    exact Function.update_self i _ _
  split at hcall
  · split at hcall
    · exact absurd (hover _ rfl) hcall
    · exact absurd (hover _ rfl) hcall
  · next hown =>
    rw [if_neg hown]
    split at hcall
    · split at hcall
      · exact absurd (hover _ rfl) hcall
      · exact absurd (hover _ rfl) hcall
    · next hcount =>
      rw [if_neg hcount, if_pos (by decide)]
      rw [if_pos (by decide)] at hcall
      split at hcall
      · next hsync =>
        rw [if_pos hsync]
        have hsame := SameSlot.inheritWeight cfg i
          ({ t.system.kernel with call := Function.update t.system.kernel.call i none } : Kernel n σ)
          (t.system.mutex m).ownerTid (cfg.weight tid)
        have huntimed := Untimed.of_onTaskWait (by rw [hsame.waitObj]; exact hobj) (.mutex m)
        split
        · exact huntimed
        · exact huntimed
      · exact absurd (hover _ rfl) hcall

omit [StrategyLists (Fin n) σ] [SleepAware (Fin n) σ] in
/-- INTERNAL: `Unlock` ends no call. -/
theorem unlock_inside (cfg : Config) {i : Fin n} (tid : TId) (m : ℕ) (hcall : s.kernel.call i ≠ none) :
    (s.unlock cfg tid m).kernel.call i ≠ none := by
  have hwake : ∀ (k : Kernel n σ) (w : Fin n), k.call i ≠ none → (k.wakeWaitObj w false).call i ≠ none := by
    intro k w hk
    by_cases hwi : w = i
    · subst hwi
      cases ho : (k.tasks w).waitObj.syncObj with
      | none =>
        simp only [Kernel.wakeWaitObj, ho]
        exact hk
      | some o =>
        rw [wakeWaitObj_eq ho]
        simpa using hk
    · rw [(SameSlot.wakeWaitObj_ne hwi k false).call]
      exact hk
  have hrestore := (SameSlot.restoreWeight cfg i s.kernel (some tid) none).call
  obtain ⟨-, heq⟩ | ⟨-, -, heq⟩ | ⟨w, rest, -, -, heq⟩ := unlock_cases cfg s tid m
  · rw [heq]
    exact hcall
  · rw [heq]
    exact fun hnone => hcall (hrestore.symm.trans hnone)
  · rw [heq]
    unfold Kernel.handOver
    dsimp only
    rw [(SameSlot.inheritWeight cfg i _ _ _).call]
    exact hwake _ w (fun hnone => hcall (hrestore.symm.trans hnone))

namespace RelockOk

theorem settle (hrest : Rest cfg t.system.kernel)
    (hended : ∀ i w, t.ended i = some w → t.system.kernel.call i ≠ none →
      w.woken = some false ∧ Untimed t.system.kernel i) : RelockOk cfg t.settle := by
  have hsettled : ∀ i w, t.settle.ended i = some w → t.ended i = some w ∧ t.system.kernel.call i ≠ none := by
    intro i w hw
    simp only [WaitSystem.settle] at hw
    split at hw
    · cases hw
    · next hcall => exact ⟨hw, hcall⟩
  refine ⟨hrest, ?_, ?_, ?_⟩
  · intro i w hw
    exact (hsettled i w hw).2
  · intro i w hw
    obtain ⟨hw', hcall⟩ := hsettled i w hw
    exact (hended i w hw' hcall).1
  · intro i w hw
    obtain ⟨hw', hcall⟩ := hsettled i w hw
    exact (hended i w hw' hcall).2

/-- INTERNAL: a call into the system beside the tasks that lock their mutex again. -/
theorem system (h : RelockOk cfg t) (hcfg : WeightsOk σ cfg) {e : SystemEvent n} (he : SystemCareful cfg t.system e) :
    RelockOk cfg { t with system := t.system.step cfg e }.settle := by
  refine settle (systemStep_rest hcfg h.rest he) (fun i w hw _ => ⟨h.signalled i w hw, ?_⟩)
  have huntimed := h.untimed i w hw
  exact huntimed.signalled (system_signalled h.rest.1.linked huntimed.timeless (h.inside i w hw) e)

/-- INTERNAL: `Wait` up to its spin. -/
theorem wait (h : RelockOk cfg t) (hcfg : WeightsOk σ cfg) {i : Fin n} {o : SyncId} {timeout : ℤ}
    (hcall : t.system.kernel.canCall i = true) (hsync : cfg.isSyncMode = true) (hle : timeout ≤ waitInfinite)
    (hlive : (t.system.kernel.tasks i).removePending = false) (tid : TId) (m : ℕ) :
    RelockOk cfg (t.wait cfg i tid o m timeout) := by
  obtain ⟨hstarted, hbusy, hfree⟩ := canCall_iff.mp hcall
  have hwait := h.rest.onTaskWait hstarted hbusy hlive hsync hle o
  have hother : ∀ j w, t.ended j = some w → i ≠ j := by
    rintro j w hw rfl
    exact h.inside i w hw hfree
  refine ⟨Rest.unlock (s := { t.system with kernel := t.system.kernel.onTaskWait i o timeout }) hwait hcfg tid m,
    ?_, h.signalled, ?_⟩
  · intro j w hw
    apply unlock_inside
    rw [show (t.system.kernel.onTaskWait i o timeout).call j = t.system.kernel.call j from
      (SameSlot.onTaskWait_ne (hother j w hw) t.system.kernel o timeout).call]
    exact h.inside j w hw
  · intro j w hw
    have hsame := SameSlot.onTaskWait_ne (hother j w hw) t.system.kernel o timeout
    exact ((h.untimed j w hw).congr hsame.waitObj).signalled
      (unlock_signalled (s := { t.system with kernel := t.system.kernel.onTaskWait i o timeout }) cfg tid m j)

/-- INTERNAL: the end of the spin, and the `Lock` behind it. -/
theorem waitReturn (h : RelockOk cfg t) (hcfg : WeightsOk σ cfg) {i : Fin n} {tid : TId} {m : ℕ} {r : WaitResult}
    (hi : (t.system.kernel.tasks i).user = some tid) (hr : t.system.kernel.waitResult i = some r)
    (hstarted : t.system.kernel.isStarted = true) (hlive : (t.system.kernel.tasks i).removePending = false)
    {waiting : Fin n → Option ℕ} {ended : Fin n → Option WaitCall}
    (hother : ∀ j, j ≠ i → ended j = t.ended j)
    (hended : ∀ w, ended i = some w → (t.relock cfg i tid m).1.kernel.call i ≠ none → w.woken = some false) :
    RelockOk cfg (WaitSystem.settle ⟨(t.relock cfg i tid m).1, waiting, ended⟩) := by
  have hobj := h.rest.unlinked (waitResult_awake hr)
  have hcall : ({ t.system.kernel with call := Function.update t.system.kernel.call i none } : Kernel n σ).canCall i =
      true := by
    apply canCall_iff.mpr
    refine ⟨?_, ?_, Function.update_self i _ _⟩
    · simpa [Kernel.isStarted, Option.isSome_iff_ne_none] using hstarted
    · simp [hi]
  apply settle
  · exact Rest.timedLock (s := { t.system with
      kernel := { t.system.kernel with call := Function.update t.system.kernel.call i none } })
      (h.rest.waitReturn hr) hcfg hcall le_rfl hlive
  · intro j w hw hin
    by_cases hji : j = i
    · subst hji
      exact ⟨hended w hw hin, relock_untimed hobj tid m hin⟩
    · have hw' : t.ended j = some w := (hother j hji).symm.trans hw
      have hsame := timedLock_sameSlot (i := j) (s := { t.system with
        kernel := { t.system.kernel with call := Function.update t.system.kernel.call i none } })
        cfg (Ne.symm hji) tid m waitInfinite
      exact ⟨h.signalled j w hw', (h.untimed j w hw').congr hsame.waitObj⟩

theorem step (h : RelockOk cfg t) (hcfg : WeightsOk σ cfg) {e : WaitEvent n} (he : WaitCareful cfg t e) :
    RelockOk cfg (t.step cfg e) := by
  unfold WaitSystem.step
  cases e with
  | system e =>
    simp only [WaitSystem.stepResult]
    split
    · exact h
    · exact h.system hcfg he
  | wait i o m timeout =>
    simp only [WaitSystem.stepResult]
    split
    · exact h
    · next tid _ =>
      split
      · next hmade =>
        simp only [Bool.and_eq_true, decide_eq_true_eq] at hmade
        exact h.wait hcfg hmade.1.1.1.1.1.1.1.2 hmade.1.1.1.1.1.1.2 hmade.1.1.1.1.2 he tid m
      · exact h
  | waitReturn i =>
    simp only [WaitSystem.stepResult]
    split
    · next tid m w r hi hm hw hr =>
      split
      · next hmade =>
        simp only [Bool.and_eq_true] at hmade
        split
        · next hlocked =>
          apply h.waitReturn hcfg hi hr hmade.2 he.1 (fun _ _ => rfl)
          intro w' hw' _
          exact h.signalled i w' hw'
        · apply h.waitReturn hcfg hi hr hmade.2 he.1 (fun j hj => Function.update_of_ne hj _ _)
          intro w' hw' hin
          rw [Function.update_self] at hw'
          obtain rfl := Option.some.inj hw'
          -- the task has to wait, so its first wait has not timed out
          obtain ⟨hover, -⟩ | ⟨hcontended, -⟩ := relock_cases cfg i tid m hi
          · exact absurd hover hin
          · obtain ⟨-, hwoken⟩ | ⟨rfl, -⟩ := h.rest.truly hw hr
            · exact hwoken
            · exact absurd hcontended (he.2 (by rw [waitResult_flag hr]; rfl) m hm)
      · exact h
    · exact h
  | relockReturn i =>
    simp only [WaitSystem.stepResult]
    split
    · exact h
    · exact h.system hcfg (e := .lockReturn i) trivial

/-- INTERNAL: what a wait that ends reports, call by call. -/
theorem reported (h : RelockOk cfg t) {e : WaitEvent n} {w : WaitCall} {r : WaitResult}
    (hres : (t.stepResult cfg e).2 = some (w, r)) : Truly t.system.kernel w r := by
  cases e with
  | system e =>
    simp only [WaitSystem.stepResult] at hres
    split at hres
    · cases hres
    · simp only [System.waitReturned] at hres
      split at hres
      · cases hres
      · next i _ =>
        split at hres
        · next w' r' hw hr =>
          split at hres
          · obtain ⟨rfl, rfl⟩ := Prod.mk.inj (Option.some.inj hres)
            exact h.rest.truly hw hr
          · cases hres
        · cases hres
  | wait i o m timeout =>
    simp only [WaitSystem.stepResult] at hres
    split at hres
    · cases hres
    · split at hres
      · cases hres
      · cases hres
  | waitReturn i =>
    simp only [WaitSystem.stepResult] at hres
    split at hres
    · next tid m w' r' hi hm hw hr =>
      split at hres
      · split at hres
        · next hlocked =>
          obtain ⟨rfl, rfl⟩ := Prod.mk.inj (Option.some.inj hres)
          -- the mutex was free, so the task has kept its wait object
          obtain ⟨-, hobj⟩ | ⟨-, hwaits⟩ := relock_cases cfg i tid m hi
          · rw [waitOutcome_congr (hobj i), waitOutcome_eq hr]
            exact h.rest.truly hw hr
          · rw [hlocked] at hwaits
            cases hwaits
        · cases hres
      · cases hres
    · cases hres
  | relockReturn i =>
    simp only [WaitSystem.stepResult] at hres
    split at hres
    · cases hres
    · next w' hw =>
      obtain ⟨b, -, hpair⟩ := Option.map_eq_some_iff.mp hres
      obtain ⟨rfl, rfl⟩ := Prod.mk.inj hpair
      have hobj : ((t.system.stepResult cfg (.lockReturn i)).1.kernel.tasks i).waitObj =
          (t.system.kernel.tasks i).waitObj := by
        simp only [System.stepResult]
        split
        · split
          · exact lockReturn_waitObj i _ _ _ i
          · rfl
        · rfl
      left
      refine ⟨?_, h.signalled i w' hw⟩
      rw [waitOutcome_congr hobj]
      unfold KernelTask.waitOutcome
      rw [(h.untimed i w' hw).1]
      rfl

theorem waitContract (h : RelockOk cfg t) : WaitContract cfg t := by
  refine ⟨fun e w hres => ?_, fun e w hres => ?_, fun i _ hawake => h.rest.unlinked hawake⟩
  · obtain ⟨-, hwoken⟩ | ⟨hr, -⟩ := h.reported hres
    · exact hwoken
    · cases hr
  · obtain ⟨hr, -⟩ | ⟨-, htimeout⟩ := h.reported hres
    · cases hr
    · exact htimeout

end RelockOk
/-! ## No panic -/

omit [StrategyLists (Fin n) σ] [SleepAware (Fin n) σ] in
/-- INTERNAL: a task inside another `Wait` is in no `TimedLock` after a call, either. -/
theorem lock_stays {i : Fin n} (hlock : s.lock i = none) (hcall : s.kernel.call i ≠ none) (e : SystemEvent n) :
    (s.step cfg e).lock i = none := by
  unfold System.step
  cases e with
  | timedLock j m timeout =>
    simp only [System.stepResult]
    split
    · exact hlock
    · split
      · next hmade =>
        simp only [Bool.and_eq_true] at hmade
        rw [timedLock_lock_ne (ne_of_canCall hcall hmade.1.2)]
        exact hlock
      · exact hlock
  | lockReturn j =>
    simp only [System.stepResult]
    split
    · split
      · exact lockReturn_lock hlock _ _ _
      · exact hlock
    · exact hlock
  | unlock j m =>
    simp only [System.stepResult]
    split
    · exact hlock
    · split
      · rw [unlock_lock]
        exact hlock
      · exact hlock
  | kernel c =>
    by_cases hreturn : ∃ j, c = .waitReturn j
    · obtain ⟨j, rfl⟩ := hreturn
      simp only [System.stepResult]
      split
      · exact hlock
      · exact hlock
    · have hstep := step_kernel cfg s (fun j hj => hreturn ⟨j, hj⟩)
      unfold System.step at hstep
      rw [hstep]
      split
      · exact hlock
      · exact hlock

/-- What holds of the mutexes beside: they are in order, nothing has panicked, and a task whose `Wait` has not returned
to its mutex is in no `TimedLock`. -/
structure RelockSteady (t : WaitSystem n σ) : Prop where
  mutexes : MutexOk t.system
  calm : t.system.panic = false
  apart : ∀ i, t.waiting i ≠ none → t.system.lock i = none ∧ t.system.kernel.call i ≠ none

namespace RelockSteady

omit [SwitchStrategy (Fin n) σ] [StrategyLists (Fin n) σ] [SleepAware (Fin n) σ] in
theorem settle (hmutexes : MutexOk t.system) (hcalm : t.system.panic = false)
    (hapart : ∀ i, t.waiting i ≠ none → t.system.kernel.call i ≠ none → t.system.lock i = none) :
    RelockSteady t.settle := by
  have hsystem : t.settle.system = t.system := by
    have hlock : (fun i => if t.system.kernel.call i = none then none else t.system.lock i) = t.system.lock := by
      funext i
      split
      · next hcall =>
        cases hc : t.system.lock i with
        | none => rfl
        | some c =>
          have hsync := (hmutexes.call i c hc).2
          rw [hcall] at hsync
          cases hsync
      · rfl
    unfold WaitSystem.settle
    dsimp only
    rw [hlock]
  refine ⟨by rw [hsystem]; exact hmutexes, by rw [hsystem]; exact hcalm, ?_⟩
  intro i hi
  rw [hsystem]
  simp only [WaitSystem.settle] at hi
  split at hi
  · exact absurd rfl hi
  · next hcall => exact ⟨hapart i hi hcall, hcall⟩

/-- INTERNAL: a call into the system. -/
theorem system (h : RelockSteady t) (hrest : Rest cfg t.system.kernel) {e : SystemEvent n} (he : Steady t.system e) :
    RelockSteady { t with system := t.system.step cfg e }.settle :=
  settle (step_mutexOk h.mutexes he) (systemStep_panic hrest h.mutexes h.calm e)
    (fun i hi _ => lock_stays (h.apart i hi).1 (h.apart i hi).2 e)

omit [StrategyLists (Fin n) σ] [SleepAware (Fin n) σ] in
/-- INTERNAL: `Wait` up to its spin. -/
theorem wait (h : RelockSteady t) {i : Fin n} {tid : TId} {o : SyncId} {m : ℕ} {timeout : ℤ}
    (hi : (t.system.kernel.tasks i).user = some tid) (hcall : t.system.kernel.canCall i = true)
    (hsync : cfg.isSyncMode = true) (hle : timeout ≤ waitInfinite) (hne : timeout ≠ 0)
    (hidle : (t.system.kernel.tasks i).isWaiting = false) (ho : o.isObject = true)
    (howner : (t.system.mutex m).ownerTid = some tid) : RelockSteady (t.wait cfg i tid o m timeout) := by
  have hobj : (t.system.kernel.tasks i).waitObj.syncObj = none := by
    simpa [KernelTask.isWaiting] using hidle
  have hlock := h.mutexes.lock_none hcall
  have hdirect : (KernelEvent.wait i o timeout).isDirect = true := by
    cases o with
    | mutex m => cases ho
    | object c => rfl
  have hstep : t.system.step cfg (.kernel (.wait i o timeout)) =
      { t.system with kernel := t.system.kernel.onTaskWait i o timeout } := by
    rw [step_kernel cfg _ (fun j hj => by cases hj), hdirect, h.calm]
    simp [Kernel.step, h.calm, hcall, hsync, hle]
  have hmutexes : MutexOk { t.system with kernel := t.system.kernel.onTaskWait i o timeout } := by
    rw [← hstep]
    exact step_mutexOk h.mutexes rfl
  have huser : ((t.system.kernel.onTaskWait i o timeout).tasks i).user = some tid := by
    rw [onTaskWait_eq hne hobj]
    simpa [KernelTask.scheduleSleep] using hi
  refine ⟨hmutexes.unlock huser hlock howner, (unlock_panic cfg tid m).trans h.calm, ?_⟩
  intro j hj
  have hkeep := unlock_lock (s := { t.system with kernel := t.system.kernel.onTaskWait i o timeout }) cfg tid m
  by_cases hji : j = i
  · subst hji
    refine ⟨(congrFun hkeep j).trans hlock, unlock_inside cfg tid m ?_⟩
    rw [onTaskWait_eq hne hobj]
    simp
  · simp only [WaitSystem.wait, Function.update_of_ne hji] at hj
    refine ⟨(congrFun hkeep j).trans (h.apart j hj).1, unlock_inside cfg tid m ?_⟩
    rw [show (t.system.kernel.onTaskWait i o timeout).call j = t.system.kernel.call j from
      (SameSlot.onTaskWait_ne (Ne.symm hji) t.system.kernel o timeout).call]
    exact (h.apart j hj).2

omit [StrategyLists (Fin n) σ] [SleepAware (Fin n) σ] in
/-- INTERNAL: the end of the spin, and the `Lock` behind it. -/
theorem waitReturn (h : RelockSteady t) {i : Fin n} {tid : TId} {m : ℕ} {r : WaitResult}
    (hi : (t.system.kernel.tasks i).user = some tid) (hm : t.waiting i = some m)
    (hr : t.system.kernel.waitResult i = some r) (hstarted : t.system.kernel.isStarted = true)
    {waiting : Fin n → Option ℕ} {ended : Fin n → Option WaitCall} (hother : ∀ j, j ≠ i → waiting j = t.waiting j)
    (hover : waiting i ≠ none → (t.relock cfg i tid m).1.kernel.call i = none) :
    RelockSteady (WaitSystem.settle ⟨(t.relock cfg i tid m).1, waiting, ended⟩) := by
  have hlock := (h.apart i (by rw [hm]; exact Option.some_ne_none m)).1
  have hstep : t.system.step cfg (.kernel (.waitReturn i)) =
      { t.system with kernel := { t.system.kernel with call := Function.update t.system.kernel.call i none } } := by
    simp [System.step, System.stepResult, h.calm, hlock, Kernel.step, hr]
  have hmutexes : MutexOk { t.system with
      kernel := { t.system.kernel with call := Function.update t.system.kernel.call i none } } := by
    rw [← hstep]
    exact step_mutexOk h.mutexes rfl
  have hcall : ({ t.system.kernel with call := Function.update t.system.kernel.call i none } : Kernel n σ).canCall i =
      true := by
    apply canCall_iff.mpr
    refine ⟨?_, ?_, Function.update_self i _ _⟩
    · simpa [Kernel.isStarted, Option.isSome_iff_ne_none] using hstarted
    · simp [hi]
  refine settle (hmutexes.timedLock hi hcall) ((hmutexes.timedLock_panic i tid m waitInfinite).trans h.calm) ?_
  intro j hj hin
  by_cases hji : j = i
  · subst hji
    exact absurd (hover hj) hin
  · dsimp only at hj
    rw [hother j hji] at hj
    exact (timedLock_lock_ne (Ne.symm hji)).trans (h.apart j hj).1

theorem step (h : RelockSteady t) (hrest : Rest cfg t.system.kernel) {e : WaitEvent n} (he : WaitSteady t e) :
    RelockSteady (t.step cfg e) := by
  unfold WaitSystem.step
  cases e with
  | system e =>
    simp only [WaitSystem.stepResult]
    split
    · exact h
    · exact h.system hrest he
  | wait i o m timeout =>
    simp only [WaitSystem.stepResult]
    split
    · exact h
    · next tid hi =>
      split
      · next hmade =>
        simp only [Bool.and_eq_true, decide_eq_true_eq, Bool.not_eq_true'] at hmade
        exact h.wait hi hmade.1.1.1.1.1.1.1.2 hmade.1.1.1.1.1.1.2 hmade.1.1.1.1.2 hmade.1.1.1.1.1.2 hmade.1.1.1.2
          hmade.1.1.2 hmade.1.2
      · exact h
  | waitReturn i =>
    simp only [WaitSystem.stepResult]
    split
    · next tid m w r hi hm hw hr =>
      split
      · next hmade =>
        simp only [Bool.and_eq_true] at hmade
        split
        · next hlocked =>
          apply h.waitReturn hi hm hr hmade.2 (fun _ _ => rfl)
          intro _
          obtain ⟨hover, -⟩ | ⟨-, hwaits⟩ := relock_cases cfg i tid m hi
          · exact hover
          · rw [hlocked] at hwaits
            cases hwaits
        · apply h.waitReturn hi hm hr hmade.2 (fun j hj => Function.update_of_ne hj _ _)
          intro hne
          exact absurd (Function.update_self i _ _) hne
      · exact h
    · exact h
  | relockReturn i =>
    simp only [WaitSystem.stepResult]
    split
    · exact h
    · exact h.system hrest (e := .lockReturn i) trivial

end RelockSteady

theorem relockOk_initial : RelockOk cfg (WaitSystem.initial : WaitSystem n σ) where
  rest := rest_initial
  inside := by simp [WaitSystem.initial]
  signalled := by simp [WaitSystem.initial]
  untimed := by simp [WaitSystem.initial]

omit [StrategyLists (Fin n) σ] [SleepAware (Fin n) σ] in
theorem relockSteady_initial : RelockSteady (WaitSystem.initial : WaitSystem n σ) where
  mutexes := mutexOk_initial
  calm := rfl
  apart := by simp [WaitSystem.initial]

/-- **The results of `Wait`.**  After every run of careful steps, under each sleep-aware strategy, a `Wait`
that returns a result was ended that way, by the sync object or by its timeout, whatever mutex was handed to it, and
no task is runnable out of a linked wait; if moreover no task is removed or bound twice, no `TimedLock` has panicked. -/
theorem run_waitContract (cfg : Config) (hcfg : WeightsOk σ cfg) (es : List (WaitEvent n))
    (hes : Runs.Along (WaitSystem.step cfg) (WaitCareful cfg) (WaitSystem.initial : WaitSystem n σ) es) :
    WaitContract cfg (WaitSystem.run cfg es : WaitSystem n σ) ∧
      (Runs.Along (WaitSystem.step cfg) WaitSteady (WaitSystem.initial : WaitSystem n σ) es →
        (WaitSystem.run cfg es : WaitSystem n σ).system.panic = false) := by
  have hok : RelockOk cfg (WaitSystem.run cfg es : WaitSystem n σ) :=
    hes.invariant (I := RelockOk cfg) (fun t e h he => h.step hcfg he) relockOk_initial
  refine ⟨hok.waitContract, fun hsteady => ?_⟩
  have hall : RelockOk cfg (WaitSystem.run cfg es : WaitSystem n σ) ∧
      RelockSteady (WaitSystem.run cfg es : WaitSystem n σ) :=
    (hes.and hsteady).invariant (I := fun t : WaitSystem n σ => RelockOk cfg t ∧ RelockSteady t)
      (fun t e h he => ⟨h.1.step hcfg he.1, h.2.step h.1.rest he.2⟩) ⟨relockOk_initial, relockSteady_initial⟩
  exact hall.2.calm

/-- Task 0 waits with a timeout of two ticks and hands over mutex 0; task 1 locks it and unlocks it before the task that
has timed out is back. -/
def waitsWithMutex : List (WaitEvent 2) :=
  [.system (.kernel (.addTask 0)), .system (.kernel (.addTask 1)), .system (.kernel .onStart),
    .system (.timedLock 0 0 waitInfinite), .wait 0 (.object 0) 0 2, .system (.kernel (.onTick 1)),
    .system (.timedLock 1 0 waitInfinite), .system (.kernel (.onTick 1)), .system (.unlock 1 0)]

theorem waitsWithMutex_waitContract :
    WaitContract syncConfig (WaitSystem.run syncConfig waitsWithMutex : WaitSystem 2 (RoundRobin (Fin 2))) ∧
      (WaitSystem.run syncConfig waitsWithMutex : WaitSystem 2 (RoundRobin (Fin 2))).system.panic = false ∧
      ((WaitSystem.run syncConfig waitsWithMutex : WaitSystem 2 (RoundRobin (Fin 2))).stepResult syncConfig
        (.waitReturn 0)).2.map Prod.snd = some .timeout := by
  have hcareful : Runs.Along (WaitSystem.step syncConfig) (WaitCareful syncConfig)
      (WaitSystem.initial : WaitSystem 2 (RoundRobin (Fin 2))) waitsWithMutex := by
    refine ⟨trivial, trivial, trivial, rfl, rfl, ⟨?_, ?_⟩, rfl, ⟨?_, ?_⟩, trivial, trivial⟩
    all_goals decide
  have hsteady : Runs.Along (WaitSystem.step syncConfig) WaitSteady
      (WaitSystem.initial : WaitSystem 2 (RoundRobin (Fin 2))) waitsWithMutex :=
    ⟨rfl, rfl, rfl, trivial, trivial, rfl, trivial, rfl, trivial, trivial⟩
  obtain ⟨hwait, hpanic⟩ := run_waitContract syncConfig (fun _ => trivial) waitsWithMutex hcareful
  exact ⟨hwait, hpanic hsteady, by decide +kernel⟩

/-- Task 1 queues up for mutex 0, is resumed by another task and runs on. -/
def resumedLock : List (SystemEvent 2) :=
  [.kernel (.addTask 0), .kernel (.addTask 1), .kernel .onStart, .timedLock 0 0 waitInfinite,
    .kernel (.onTick 1), .timedLock 1 0 waitInfinite, .kernel (.onTick 1),
    .kernel (.resumeTask 1), .kernel (.onTick 1)]

/-- The same run with mutex 0 kept by task 1, and the unlock after the task that has timed out queued up for it. -/
def lateUnlock : List (WaitEvent 2) :=
  waitsWithMutex.dropLast ++ [.waitReturn 0, .system (.unlock 1 0), .system (.kernel (.onTick 1))]

/-- `ResumeTask` makes a task runnable that is still linked in the mutex's wait list.  `Wait`
reports a signal that nobody gave, and `TimedLock` panics.  And a `Wait` that has timed out reports a signal when its
task has to wait for its mutex. -/
theorem resumedLock_panics :
    (System.run syncConfig resumedLock : System 2 (RoundRobin (Fin 2))).kernel.waitResult 1 =
        some .signal ∧
      (System.run syncConfig resumedLock : System 2 (RoundRobin (Fin 2))).kernel.call 1 =
        some ⟨.mutex 0, waitInfinite, 1, none⟩ ∧
      ((System.run syncConfig resumedLock : System 2 (RoundRobin (Fin 2))).kernel.tasks
        1).waitObj.syncObj = some (.mutex 0) ∧
      (System.run syncConfig (resumedLock ++ [.lockReturn 1]) :
        System 2 (RoundRobin (Fin 2))).panic = true ∧
      ((WaitSystem.run syncConfig lateUnlock : WaitSystem 2 (RoundRobin (Fin 2))).stepResult syncConfig
        (.relockReturn 0)).2 = some (⟨.object 0, 2, 0, some true⟩, .signal) := by
  decide +kernel

end Stk.Analysis
