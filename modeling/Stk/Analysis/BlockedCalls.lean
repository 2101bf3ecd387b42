import Stk.Analysis.MonitorSimulation
import Stk.Analysis.InfiniteSleep

/-!
# The wait of a blocked call

While a task is inside `Wait`, no step of any run begins another wait for it.  Until the task is
resumed, a step leaves its wait object alone, counts it down, or ends the wait with a timeout or a
signal: `WaitStep`.  `Blocked` is what this needs, and every step keeps it (`Blocked.step`).
-/

set_option autoImplicit false

namespace Stk.Analysis

open Stk.Model Stk.Model.Kernel

/-! ## Notifications -/

section Notifications

variable {n : ℕ} {σ : Type} {k k' k'' : Kernel n σ} {i : Fin n}

/-- INTERNAL: waking a task links no task. -/
theorem wakeWaitObj_links {i j : Fin n} {o : SyncId} (timeout : Bool)
    (h : ((k.wakeWaitObj j timeout).tasks i).waitObj.syncObj = some o) :
    (k.tasks i).waitObj.syncObj = some o := by
  cases hj : (k.tasks j).waitObj.syncObj with
  | none =>
    unfold Kernel.wakeWaitObj at h
    rw [hj] at h
    exact h
  | some o' =>
    rw [wakeWaitObj_eq hj] at h
    by_cases hij : i = j
    · subst hij
      simp at h
    · simpa [hij] using h

/-- INTERNAL: a woken task is linked to nothing. -/
theorem wakeWaitObj_unlinks (i : Fin n) (timeout : Bool) :
    ((k.wakeWaitObj i timeout).tasks i).waitObj.syncObj = none := by
  cases hi : (k.tasks i).waitObj.syncObj with
  | none => exact (Frees.wakeWaitObj k i timeout).syncObj i hi
  | some o =>
    rw [wakeWaitObj_eq hi]
    simp

/-- `WakeAll` leaves no task linked to the object. -/
theorem wakeAll_unlinks (hk : Linked k) (o : SyncId) (i : Fin n) :
    ((k.wakeAll o).tasks i).waitObj.syncObj ≠ some o := by
  -- `l` is the part of the wait list that is still to be woken
  have hlist : ∀ (l : List (Fin n)) (k : Kernel n σ), ((k.tasks i).waitObj.syncObj = some o → i ∈ l) →
      ((l.foldl (fun k i => k.wakeWaitObj i false) k).tasks i).waitObj.syncObj ≠ some o := by
    intro l
    induction l with
    | nil =>
      intro k hmem hlinked
      exact absurd (hmem hlinked) List.not_mem_nil
    | cons j l ih =>
      intro k hmem
      apply ih
      intro hlinked
      have hbefore := hmem (wakeWaitObj_links false hlinked)
      rcases List.mem_cons.mp hbefore with rfl | hl
      · rw [wakeWaitObj_unlinks] at hlinked
        cases hlinked
      · exact hl
  exact hlist (k.waitList o) k (hk.mem i o).mp

/-- What notifications do to slot `i`: nothing, or they end its wait with a signal. -/
structure SlotNotified (i : Fin n) (k k' : Kernel n σ) : Prop where
  waitObj : (k'.tasks i).waitObj = (k.tasks i).waitObj ∨
    ((k.tasks i).waitObj.syncObj ≠ none ∧ (k'.tasks i).waitObj = ⟨none, false, 0⟩)
  call : k'.call i = none ↔ k.call i = none
  ticks : k'.ticks = k.ticks

namespace SlotNotified

theorem of_sameSlot (h : SameSlot i k k') : SlotNotified i k k' :=
  ⟨.inl h.waitObj, by rw [h.call], h.ticks⟩

theorem refl (k : Kernel n σ) : SlotNotified i k k := of_sameSlot (.refl i k)

theorem trans (h : SlotNotified i k k') (h' : SlotNotified i k' k'') : SlotNotified i k k'' := by
  refine ⟨?_, h'.call.trans h.call, h'.ticks.trans h.ticks⟩
  rcases h'.waitObj with hsame | ⟨hlinked, hended⟩
  · rw [hsame]
    exact h.waitObj
  · rcases h.waitObj with hsame | ⟨-, hnone⟩
    · rw [hsame] at hlinked
      exact .inr ⟨hlinked, hended⟩
    · rw [hnone] at hlinked
      exact absurd rfl hlinked

theorem wakeWaitObj (k : Kernel n σ) (i j : Fin n) : SlotNotified i k (k.wakeWaitObj j false) := by
  by_cases hji : j = i
  · subst hji
    cases ho : (k.tasks j).waitObj.syncObj with
    | none =>
      simp only [Kernel.wakeWaitObj, ho]
      exact of_sameSlot (.fault j k _)
    | some o =>
      rw [wakeWaitObj_eq ho]
      refine ⟨.inr ⟨?_, ?_⟩, ?_, rfl⟩
      · rw [ho]
        exact Option.some_ne_none o
      · simp
      · simp
  · exact of_sameSlot (.wakeWaitObj_ne hji k false)

theorem notify (k : Kernel n σ) (i : Fin n) (m : Mesa.Notify SyncId) : SlotNotified i k (k.notify m) := by
  cases m with
  | one o =>
    unfold Kernel.notify Kernel.wakeOne
    dsimp only
    split
    · exact refl k
    · exact wakeWaitObj k i _
  | all o =>
    exact Runs.foldl_keeps (I := fun k' : Kernel n σ => SlotNotified i k k')
      (fun k' j _ h => h.trans (wakeWaitObj k' i j)) (refl k)

theorem notifies (k : Kernel n σ) (i : Fin n) (ms : List (Mesa.Notify SyncId)) :
    SlotNotified i k (ms.foldl Kernel.notify k) :=
  Runs.foldl_keeps (I := fun k' : Kernel n σ => SlotNotified i k k')
    (fun k' m _ h => h.trans (notify k' i m)) (refl k)

end SlotNotified

/-- INTERNAL: a notification does not touch a task that is linked to nothing. -/
theorem notifies_sameSlot (hnone : (k.tasks i).waitObj.syncObj = none) (ms : List (Mesa.Notify SyncId)) :
    SameSlot i k (ms.foldl Kernel.notify k) := by
  have hwake : ∀ (k' : Kernel n σ) (j : Fin n), SameSlot i k k' → SameSlot i k (k'.wakeWaitObj j false) := by
    intro k' j h
    by_cases hji : j = i
    · subst hji
      have hunlinked : (k'.tasks j).waitObj.syncObj = none := by
        rw [h.waitObj]
        exact hnone
      simp only [Kernel.wakeWaitObj, hunlinked]
      exact h.trans (.fault j k' _)
    · exact h.trans (.wakeWaitObj_ne hji k' false)
  refine Runs.foldl_keeps (fun k' m _ h => ?_) (.refl i k)
  cases m with
  | one o =>
    unfold Kernel.notify Kernel.wakeOne
    dsimp only
    split
    · exact h
    · exact hwake k' _ h
  | all o => exact Runs.foldl_keeps (fun k' j _ h => hwake k' j h) h

theorem notifies_ticks (k : Kernel n σ) (ms : List (Mesa.Notify SyncId)) :
    (ms.foldl Kernel.notify k).ticks = k.ticks := by
  refine Runs.foldl_keeps (I := fun k' : Kernel n σ => k'.ticks = k.ticks) (fun k' m _ h => ?_) rfl
  cases m with
  | one o =>
    unfold Kernel.notify Kernel.wakeOne
    dsimp only
    split
    · exact h
    · exact (wakeWaitObj_ticks k' _ false).trans h
  | all o => exact Runs.foldl_keeps (fun k j _ h => (wakeWaitObj_ticks k j false).trans h) h

theorem notifies_linked (hk : Linked k) (ms : List (Mesa.Notify SyncId)) : Linked (ms.foldl Kernel.notify k) := by
  refine Runs.foldl_keeps (fun k m _ hk => ?_) hk
  cases m with
  | one o =>
    unfold Kernel.notify Kernel.wakeOne
    dsimp only
    split
    · exact hk
    · exact wakeWaitObj_linked hk _ false
  | all o => exact Runs.foldl_keeps (fun k i _ hk => wakeWaitObj_linked hk i false) hk

end Notifications

/-! ## One kernel call -/

section KernelCalls

variable {n : ℕ} {σ : Type} [SwitchStrategy (Fin n) σ] {cfg : Config} {k k' k'' : Kernel n σ} {i : Fin n}

/-- One step of the system, as the wait object of a task inside `Wait` sees it. -/
inductive WaitStep (i : Fin n) (k k' : Kernel n σ) : Prop
  | kept (hobj : (k'.tasks i).waitObj = (k.tasks i).waitObj) (hle : k.ticks ≤ k'.ticks)
      (hticks : k'.ticks = k.ticks ∨ (k.tasks i).waitObj.syncObj = none ∨
        (k.tasks i).waitObj.timeWait = waitInfinite)
  | counted (e : ℤ) (hpos : 0 < e) (hticks : k'.ticks = k.ticks + e)
      (hlinked : (k.tasks i).waitObj.syncObj ≠ none) (hfinite : (k.tasks i).waitObj.timeWait ≠ waitInfinite)
      (hleft : 0 < (k.tasks i).waitObj.timeWait - e)
      (hobj : (k'.tasks i).waitObj =
        { (k.tasks i).waitObj with timeWait := (k.tasks i).waitObj.timeWait - e })
  | expired (e : ℤ) (hpos : 0 < e) (hticks : k'.ticks = k.ticks + e)
      (hlinked : (k.tasks i).waitObj.syncObj ≠ none) (hfinite : (k.tasks i).waitObj.timeWait ≠ waitInfinite)
      (hover : (k.tasks i).waitObj.timeWait - e ≤ 0)
      (hobj : (k'.tasks i).waitObj = ⟨none, true, 0⟩)
  | signalled (hticks : k'.ticks = k.ticks) (hlinked : (k.tasks i).waitObj.syncObj ≠ none)
      (hobj : (k'.tasks i).waitObj = ⟨none, false, 0⟩)

omit [SwitchStrategy (Fin n) σ] in
theorem SlotNotified.waitStep (h : SlotNotified i k k') : WaitStep i k k' := by
  rcases h.waitObj with hsame | ⟨hlinked, hended⟩
  · exact .kept hsame h.ticks.ge (.inl h.ticks)
  · exact .signalled h.ticks hlinked hended

omit [SwitchStrategy (Fin n) σ] in
/-- INTERNAL: a step that changes neither the wait object nor the time. -/
theorem WaitStep.of_eq (hobj : (k'.tasks i).waitObj = (k.tasks i).waitObj) (hticks : k'.ticks = k.ticks) :
    WaitStep i k k' :=
  .kept hobj hticks.ge (.inl hticks)

theorem onTick_waitStep (hk : Linked k) (hsync : cfg.isSyncMode = true)
    (hfresh : (k.tasks i).waitObj.syncObj ≠ none → (k.tasks i).waitObj.timeout = false) {e : ℤ}
    (hpos : 0 < e) :
    WaitStep i k (k.onTick cfg e).1 := by
  have hticks := onTick_ticks cfg k e
  -- after the sync objects nothing touches the wait object
  have hrest : ((k.onTick cfg e).1.tasks i).waitObj =
      ((({ k with ticks := k.ticks + e } : Kernel n σ).updateSyncObjects e).tasks i).waitObj := by
    unfold Kernel.onTick Kernel.updateTasks
    dsimp only
    rw [if_pos hsync]
    generalize ({ k with ticks := k.ticks + e } : Kernel n σ).updateSyncObjects e = k₁
    rw [(SameTasks.updateFsmState cfg _).waitObj i, (SameWaits.updateTaskState cfg _ e).waitObj i]
    split
    · exact (SameWaits.updateTaskRequest cfg k₁).waitObj i
    · rfl
  have hk₀ : Linked ({ k with ticks := k.ticks + e } : Kernel n σ) :=
    ⟨hk.mem, hk.nodup, hk.syncNodup, hk.registered⟩
  cases ho : (k.tasks i).waitObj.syncObj with
  | none =>
    have hsame : SameSlot i ({ k with ticks := k.ticks + e } : Kernel n σ)
        (({ k with ticks := k.ticks + e } : Kernel n σ).updateSyncObjects e) :=
      .updateSyncObjects e hk₀ (.inl ho)
    refine .kept ?_ ?_ (.inr (.inl ho))
    · rw [hrest, hsame.waitObj]
    · omega
  | some o =>
    have hlinked : (k.tasks i).waitObj.syncObj ≠ none := by
      rw [ho]
      exact Option.some_ne_none o
    have honce := (SameSlot.updateSyncObjects_once e hk₀ ho).waitObj
    rw [Good.tickWaitObj_eq (k := { k with ticks := k.ticks + e }) ho (hfresh hlinked)] at honce
    dsimp only at honce
    split at honce
    · next hover =>
      refine .expired e hpos hticks hlinked hover.1 hover.2 ?_
      rw [hrest, honce, wakeWaitObj_eq (k := { k with ticks := k.ticks + e }) ho]
      simp
    · next hover =>
      by_cases hinf : (k.tasks i).waitObj.timeWait = waitInfinite
      · refine .kept ?_ ?_ (.inr (.inr hinf))
        · rw [hrest, honce]
          simp only [Kernel.setTask, Function.update_self, if_pos hinf]
        · omega
      · have hleft : 0 < (k.tasks i).waitObj.timeWait - e := by
          by_contra hle
          exact hover ⟨hinf, not_lt.mp hle⟩
        refine .counted e hpos hticks hlinked hinf hleft ?_
        rw [hrest, honce]
        simp [Kernel.setTask, hinf]

/-- Every kernel call from outside, while the task in slot `i` is inside `Wait`. -/
theorem step_waitStep (hk : Linked k) (hsync : cfg.isSyncMode = true) (hcall : k.call i ≠ none)
    (hfresh : (k.tasks i).waitObj.syncObj ≠ none → (k.tasks i).waitObj.timeout = false) (e : KernelEvent n) :
    WaitStep i k (k.step cfg e) := by
  cases e with
  | onTick e =>
    simp only [Kernel.step]
    split
    · next hvalid =>
      simp only [validElapsed, Bool.and_eq_true, decide_eq_true_eq] at hvalid
      exact onTick_waitStep hk hsync hfresh hvalid.2.1.1
    · exact .of_eq rfl rfl
  | wait j o timeout =>
    simp only [Kernel.step]
    split
    · next hmode =>
      have hji : j ≠ i := by
        rintro rfl
        simp only [Kernel.canCall, Bool.and_eq_true, decide_eq_true_eq] at hmode
        exact hcall hmode.1.1.2
      have hsame := SameSlot.onTaskWait_ne hji k o timeout
      exact .of_eq hsame.waitObj hsame.ticks
    · exact .of_eq rfl rfl
  | wakeOne o => exact (SlotNotified.notify k i (.one o)).waitStep
  | wakeAll o => exact (SlotNotified.notify k i (.all o)).waitStep
  | _ => exact .of_eq ((step_sameWaits cfg k rfl).waitObj i) (step_sameWaits cfg k rfl).ticks

end KernelCalls

/-! ## Classes with condition variables -/

section Monitors

variable {n : ℕ} {μ α φ ρ σ : Type} [SwitchStrategy (Fin n) σ] [Monitor μ α φ ρ] {cfg : Config}
  {s : MonitorSystem n μ φ σ} {i : Fin n} {f : φ}

/-- The calls inside `Wait` have a pending call in the kernel, and are linked to nothing but their own
condition variable. -/
structure Blocked (s : MonitorSystem n μ φ σ) : Prop where
  linked : Linked s.kernel
  called : ∀ i f, s.pending i = some f → s.kernel.call i ≠ none
  armed : ∀ i f, s.pending i = some f → (s.kernel.tasks i).waitObj.syncObj ≠ none →
    (s.kernel.tasks i).waitObj.syncObj = some (Monitor.waitsFor μ f) ∧
      (s.kernel.tasks i).waitObj.timeout = false

omit [SwitchStrategy (Fin n) σ] [Monitor μ α φ ρ] in
/-- INTERNAL: a wait that goes on is linked to the same object as before. -/
theorem WaitStep.armed {k k' : Kernel n σ} {o : SyncId} (h : WaitStep i k k')
    (hbefore : (k.tasks i).waitObj.syncObj ≠ none →
      (k.tasks i).waitObj.syncObj = some o ∧ (k.tasks i).waitObj.timeout = false)
    (hlinked : (k'.tasks i).waitObj.syncObj ≠ none) :
    (k'.tasks i).waitObj.syncObj = some o ∧ (k'.tasks i).waitObj.timeout = false := by
  cases h with
  | kept hobj _ _ =>
    rw [hobj] at hlinked ⊢
    exact hbefore hlinked
  | counted e _ _ hl _ _ hobj =>
    rw [hobj]
    exact hbefore hl
  | expired e _ _ _ _ _ hobj =>
    rw [hobj] at hlinked
    exact absurd rfl hlinked
  | signalled _ _ hobj =>
    rw [hobj] at hlinked
    exact absurd rfl hlinked

namespace Blocked

omit [SwitchStrategy (Fin n) σ] in
/-- INTERNAL: the notifications of a stretch. -/
theorem notifies (h : Blocked s) (m : μ) (ms : List (Mesa.Notify SyncId)) :
    Blocked { s with kernel := ms.foldl Kernel.notify s.kernel, state := m } where
  linked := notifies_linked h.linked ms
  called j f hf := by
    intro hnone
    exact h.called j f hf ((SlotNotified.notifies s.kernel j ms).call.mp hnone)
  armed j f hf := (SlotNotified.notifies s.kernel j ms).waitStep.armed (h.armed j f hf)

/-- INTERNAL: a stretch of the task in slot `i`, whose own frame is written anew. -/
theorem follow (hlinked : Linked s.kernel)
    (hcalled : ∀ j f, j ≠ i → s.pending j = some f → s.kernel.call j ≠ none)
    (harmed : ∀ j f, j ≠ i → s.pending j = some f → (s.kernel.tasks j).waitObj.syncObj ≠ none →
      (s.kernel.tasks j).waitObj.syncObj = some (Monitor.waitsFor μ f) ∧
        (s.kernel.tasks j).waitObj.timeout = false)
    {t : Mesa.Stretch SyncId μ φ ρ} (ht : ∀ f, t.next = .wait f → Monitor.timeout μ f ≠ 0) :
    Blocked (s.follow i t).1 := by
  have hk := notifies_linked hlinked t.notify
  have hnotified : ∀ j, SlotNotified j s.kernel (t.notify.foldl Kernel.notify s.kernel) :=
    fun j => .notifies s.kernel j t.notify
  unfold MonitorSystem.follow
  generalize t.notify.foldl Kernel.notify s.kernel = k at hk hnotified
  dsimp only
  have hcalled' : ∀ j f, j ≠ i → s.pending j = some f → k.call j ≠ none := by
    intro j f hji hf hnone
    exact hcalled j f hji hf ((hnotified j).call.mp hnone)
  have harmed' : ∀ j f, j ≠ i → s.pending j = some f → (k.tasks j).waitObj.syncObj ≠ none →
      (k.tasks j).waitObj.syncObj = some (Monitor.waitsFor μ f) ∧ (k.tasks j).waitObj.timeout = false :=
    fun j f hji hf => (hnotified j).waitStep.armed (harmed j f hji hf)
  cases hnext : t.next with
  | done r =>
    refine ⟨hk, ?_, ?_⟩
    · intro j f hf
      by_cases hji : j = i
      · subst hji
        simp at hf
      · exact hcalled' j f hji (by simpa [hji] using hf)
    · intro j f hf
      by_cases hji : j = i
      · subst hji
        simp at hf
      · exact harmed' j f hji (by simpa [hji] using hf)
  | wait g =>
    have htime := ht g hnext
    refine ⟨onTaskWait_linked hk i _ _, ?_, ?_⟩
    · intro j f hf
      dsimp only at hf ⊢
      by_cases hji : j = i
      · subst hji
        rw [Function.update_self] at hf
        split at hf
        · cases hf
        · next hidle =>
          rw [onTaskWait_eq htime (by simpa [KernelTask.isWaiting] using hidle)]
          simp
      · rw [Function.update_of_ne hji] at hf
        rw [(SameSlot.onTaskWait_ne (Ne.symm hji) k _ _).call]
        exact hcalled' j f hji hf
    · intro j f hf
      dsimp only at hf ⊢
      by_cases hji : j = i
      · subst hji
        rw [Function.update_self] at hf
        split at hf
        · cases hf
        · next hidle =>
          cases hf
          rw [onTaskWait_eq htime (by simpa [KernelTask.isWaiting] using hidle)]
          simp [KernelTask.scheduleSleep]
      · rw [Function.update_of_ne hji] at hf
        rw [(SameSlot.onTaskWait_ne (Ne.symm hji) k _ _).waitObj]
        exact harmed' j f hji hf

/-- INTERNAL: a kernel call from outside. -/
theorem kernelStep (h : Blocked s) (hsync : cfg.isSyncMode = true) (e : KernelEvent n) :
    Blocked (s.kernelStep cfg e) := by
  have hpending : ∀ j f, (s.kernelStep cfg e).pending j = some f →
      s.pending j = some f ∧ (s.kernel.step cfg e).call j ≠ none := by
    intro j f hf
    simp only [MonitorSystem.kernelStep] at hf
    split at hf
    · next hcall => exact ⟨hf, Option.isSome_iff_ne_none.mp hcall⟩
    · cases hf
  refine ⟨step_linked cfg h.linked e, fun j f hf => (hpending j f hf).2, ?_⟩
  intro j f hf
  have hbefore := (hpending j f hf).1
  have hstep := step_waitStep h.linked hsync (h.called j f hbefore)
    (fun hlinked => (h.armed j f hbefore hlinked).2) e
  exact hstep.armed (h.armed j f hbefore)

theorem step (h : Blocked s) (hsync : cfg.isSyncMode = true) (e : MonitorEvent n α) : Blocked (s.step cfg e) := by
  unfold MonitorSystem.step
  cases ht : s.stretch cfg e with
  | none =>
    cases e with
    | kernel e =>
      rcases stepResult_kernel cfg s e with heq | ⟨heq, -, -⟩
      · rw [heq]
        exact h
      · rw [heq]
        exact h.kernelStep hsync e
    | _ =>
      rw [stepResult_none (by simp) ht]
      exact h
  | some t =>
    cases e with
    | call i op =>
      rw [stepResult_call ht]
      obtain ⟨-, rfl⟩ := stretch_call ht
      exact follow h.linked (fun j f _ => h.called j f) (fun j f _ => h.armed j f)
        (fun f hf => Monitor.call_wait hf)
    | resume i =>
      rw [stepResult_resume ht]
      obtain ⟨f, r, -, -, rfl⟩ := stretch_resume ht
      refine follow (s := { s with
        kernel := { s.kernel with call := Function.update s.kernel.call i none } })
        ⟨h.linked.mem, h.linked.nodup, h.linked.syncNodup, h.linked.registered⟩ ?_
        (fun j f _ => h.armed j f) (fun f hf => Monitor.resume_wait hf)
      intro j f hji hf
      dsimp only
      rw [Function.update_of_ne hji]
      exact h.called j f hf
    | isr op =>
      obtain ⟨-, r, hr⟩ := stretch_isr ht
      rw [stepResult_isr ht hr]
      exact h.notifies t.state t.notify
    | kernel e => cases ht

theorem initial (m : μ) : Blocked (MonitorSystem.initial m : MonitorSystem n μ φ σ) :=
  ⟨Linked.initial, (fun _ _ hf => nomatch hf), (fun _ _ hf => nomatch hf)⟩

theorem run (hsync : cfg.isSyncMode = true) (m : μ) (es : List (MonitorEvent n α)) :
    Blocked (MonitorSystem.run cfg m es : MonitorSystem n μ φ σ) :=
  Runs.foldl_keeps (fun _ e _ h => h.step hsync e) (initial m)

end Blocked

/-- INTERNAL: the stretch of another task. -/
theorem follow_waitStep {j : Fin n} (hji : j ≠ i) (t : Mesa.Stretch SyncId μ φ ρ) :
    WaitStep i s.kernel (s.follow j t).1.kernel ∧ (s.follow j t).1.pending i = s.pending i := by
  have hnotified := SlotNotified.notifies s.kernel i t.notify
  unfold MonitorSystem.follow
  generalize t.notify.foldl Kernel.notify s.kernel = k at hnotified
  dsimp only
  cases hnext : t.next with
  | done r => exact ⟨hnotified.waitStep, Function.update_of_ne hji.symm _ _⟩
  | wait g =>
    have hsame := SameSlot.onTaskWait_ne hji k (Monitor.waitsFor μ g) (Monitor.timeout μ g)
    exact ⟨(hnotified.trans (.of_sameSlot hsame)).waitStep, Function.update_of_ne hji.symm _ _⟩

/-- **A step of the system, for a blocked call.**  Every step but the call's own next stretch. -/
theorem Blocked.waitStep (h : Blocked s) (hsync : cfg.isSyncMode = true) (hf : s.pending i = some f)
    {e : MonitorEvent n α} (he : e = .resume i → s.stretch cfg e = none) :
    WaitStep i s.kernel (s.step cfg e).kernel ∧ ∀ f', (s.step cfg e).pending i = some f' → f' = f := by
  have hsome : ∀ f', s.pending i = some f' → f' = f := by
    intro f' hf'
    rw [hf] at hf'
    exact (Option.some.inj hf').symm
  unfold MonitorSystem.step
  cases ht : s.stretch cfg e with
  | none =>
    cases e with
    | kernel e =>
      rcases stepResult_kernel cfg s e with heq | ⟨heq, -, -⟩
      · rw [heq]
        exact ⟨.of_eq rfl rfl, hsome⟩
      · rw [heq]
        refine ⟨step_waitStep h.linked hsync (h.called i f hf) (fun hl => (h.armed i f hf hl).2) e, ?_⟩
        intro f' hf'
        simp only [MonitorSystem.kernelStep] at hf'
        split at hf'
        · exact hsome f' hf'
        · cases hf'
    | _ =>
      rw [stepResult_none (by simp) ht]
      exact ⟨.of_eq rfl rfl, hsome⟩
  | some t =>
    cases e with
    | call j op =>
      have hji : j ≠ i := by
        rintro rfl
        have hcall := (stretch_call ht).1
        simp only [Kernel.canCall, Bool.and_eq_true, decide_eq_true_eq] at hcall
        exact h.called j f hf hcall.2
      obtain ⟨hwait, hpending⟩ := follow_waitStep (s := s) hji t
      rw [stepResult_call ht, hpending]
      exact ⟨hwait, hsome⟩
    | resume j =>
      have hji : j ≠ i := by
        rintro rfl
        rw [he rfl] at ht
        cases ht
      obtain ⟨hwait, hpending⟩ := follow_waitStep
        (s := { s with kernel := { s.kernel with call := Function.update s.kernel.call j none } }) hji t
      rw [stepResult_resume ht, hpending]
      refine ⟨?_, hsome⟩
      cases hwait with
      | kept hobj hle hticks => exact .kept hobj hle hticks
      | counted e hpos hticks hlinked hfinite hleft hobj => exact .counted e hpos hticks hlinked hfinite hleft hobj
      | expired e hpos hticks hlinked hfinite hover hobj => exact .expired e hpos hticks hlinked hfinite hover hobj
      | signalled hticks hlinked hobj => exact .signalled hticks hlinked hobj
    | isr op =>
      obtain ⟨-, r, hr⟩ := stretch_isr ht
      rw [stepResult_isr ht hr]
      exact ⟨(SlotNotified.notifies s.kernel i t.notify).waitStep, hsome⟩
    | kernel e => cases ht

/-- INTERNAL: a stretch takes no time. -/
theorem stretch_ticks {e : MonitorEvent n α} {t : Mesa.Stretch SyncId μ φ ρ} (ht : s.stretch cfg e = some t) :
    (s.step cfg e).kernel.ticks = s.kernel.ticks := by
  have hwait : ∀ (k : Kernel n σ) (j : Fin n) (o : SyncId) (timeout : ℤ),
      (k.onTaskWait j o timeout).ticks = k.ticks := by
    intro k j o timeout
    unfold Kernel.onTaskWait
    split
    · rfl
    · split
      · rfl
      · rfl
  have hfollow : ∀ (s : MonitorSystem n μ φ σ) (j : Fin n), (s.follow j t).1.kernel.ticks = s.kernel.ticks := by
    intro s j
    unfold MonitorSystem.follow
    cases hnext : t.next with
    | done r => exact notifies_ticks s.kernel t.notify
    | wait g => exact (hwait _ _ _ _).trans (notifies_ticks s.kernel t.notify)
  unfold MonitorSystem.step
  cases e with
  | call j op =>
    rw [stepResult_call ht]
    exact hfollow s j
  | resume j =>
    rw [stepResult_resume ht]
    exact hfollow _ j
  | isr op =>
    obtain ⟨-, r, hr⟩ := stretch_isr ht
    rw [stepResult_isr ht hr]
    exact notifies_ticks s.kernel t.notify
  | kernel e => cases ht

/-- INTERNAL: a stretch that ends in a wait has begun that wait. -/
theorem follow_begins {t : Mesa.Stretch SyncId μ φ ρ} {g : φ} (hg : (s.follow i t).1.pending i = some g)
    (ht : ∀ f, t.next = .wait f → Monitor.timeout μ f ≠ 0) :
    t.next = .wait g ∧ ((s.follow i t).1.kernel.tasks i).waitObj =
      ⟨some (Monitor.waitsFor μ g), false, Monitor.timeout μ g⟩ ∧
        (s.follow i t).1.kernel.ticks = s.kernel.ticks := by
  have hticks := notifies_ticks s.kernel t.notify
  unfold MonitorSystem.follow at hg ⊢
  generalize t.notify.foldl Kernel.notify s.kernel = k at hg hticks
  cases hnext : t.next with
  | done r =>
    rw [hnext] at hg
    simp at hg
  | wait g' =>
    rw [hnext] at hg
    dsimp only at hg ⊢
    rw [Function.update_self] at hg
    split at hg
    · cases hg
    · next hidle =>
      cases hg
      rw [onTaskWait_eq (ht g hnext) (by simpa [KernelTask.isWaiting] using hidle)]
      refine ⟨rfl, ?_, hticks⟩
      simp [KernelTask.scheduleSleep]

/-- INTERNAL: the same of the system. -/
theorem stretch_begins {e : MonitorEvent n α} {t : Mesa.Stretch SyncId μ φ ρ} {g : φ}
    (ht : s.stretch cfg e = some t) (he : MonitorEvent.caller e = some i) (hg : (s.step cfg e).pending i = some g) :
    t.next = .wait g ∧ ((s.step cfg e).kernel.tasks i).waitObj =
      ⟨some (Monitor.waitsFor μ g), false, Monitor.timeout μ g⟩ := by
  unfold MonitorSystem.step at hg ⊢
  cases e with
  | call j op =>
    cases he
    rw [stepResult_call ht] at hg ⊢
    obtain ⟨-, rfl⟩ := stretch_call ht
    obtain ⟨hnext, hobj, -⟩ := follow_begins hg (fun f hf => Monitor.call_wait hf)
    exact ⟨hnext, hobj⟩
  | resume j =>
    cases he
    rw [stepResult_resume ht] at hg ⊢
    obtain ⟨f, r, -, -, rfl⟩ := stretch_resume ht
    obtain ⟨hnext, hobj, -⟩ := follow_begins hg (fun f hf => Monitor.resume_wait hf)
    exact ⟨hnext, hobj⟩
  | isr op => cases he
  | kernel e => cases he

end Monitors

end Stk.Analysis
